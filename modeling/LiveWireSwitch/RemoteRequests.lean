import LiveWireSwitch.EspMqtt.Inbound
import LiveWireSwitch.RmakerParam.Asked

/-!
# RemoteRequests — from the broker to the parameters

Requests the broker publishes on the node's topic, on their way through
the client, the glue and the JSON parser to the parameters: each is
carried out once, in the order of the broker, as its document means it.
-/

namespace LiveWireSwitch

open Lib

/-! ## The subscription (`esp-mqtt-glue.c`, `esp_rmaker_param.c`) -/

/-- `esp_mqtt_glue_subscribe` over the slots still to come: `alloc` is
whether both allocations succeed, `ret` what `esp_mqtt_client_subscribe`
returns. -/
def espMqttGlueSubscribe (alloc : Bool) (ret : Int) (topic : CString) (cb : Nat) :
    List (Option GlueSubscription) → EspErr × List (Option GlueSubscription)
  | [] => (.fail, [])
  | none :: slots =>
      if alloc ∧ 0 ≤ ret then (.ok, some ⟨topic, cb⟩ :: slots) else (.fail, none :: slots)
  | some s :: slots =>
      let r := espMqttGlueSubscribe alloc ret topic cb slots
      (r.1, some s :: r.2)

/-- The subscriptions with that callback. -/
def slotsOf (cb : Nat) (subscriptions : List (Option GlueSubscription)) : List GlueSubscription :=
  subscriptions.filterMap fun subscription => subscription.filter fun s => decide (s.cb = cb)

theorem slotsOf_cons (cb : Nat) (subscription : Option GlueSubscription)
    (subscriptions : List (Option GlueSubscription)) :
    slotsOf cb (subscription :: subscriptions)
      = (subscription.filter fun s => decide (s.cb = cb)).toList ++ slotsOf cb subscriptions := by
  rw [slotsOf, List.filterMap_cons]
  cases subscription.filter fun s => decide (s.cb = cb) <;> rfl

/-- A callback is called for one topic, and once. -/
def Serves (subscriptions : List (Option GlueSubscription)) (topic : CString) (cb : Nat) : Prop :=
  slotsOf cb subscriptions = [⟨topic, cb⟩]

/-- A callback that was in no slot is in one after it subscribed. -/
theorem espMqttGlueSubscribe_serves {alloc : Bool} {ret : Int} {topic : CString} {cb : Nat}
    {slots : List (Option GlueSubscription)} (hnone : slotsOf cb slots = [])
    (hok : (espMqttGlueSubscribe alloc ret topic cb slots).1 = .ok) :
    Serves (espMqttGlueSubscribe alloc ret topic cb slots).2 topic cb := by
  induction slots with
  | nil => cases hok
  | cons slot slots ih =>
      rw [slotsOf_cons, List.append_eq_nil_iff] at hnone
      cases slot with
      | none =>
          rw [espMqttGlueSubscribe] at hok ⊢
          split at hok
          · rw [Serves, if_pos ‹_›, slotsOf_cons, hnone.2]
            simp
          · cases hok
      | some s =>
          have hserves := ih hnone.2 hok
          rw [Serves] at hserves
          rw [Serves, espMqttGlueSubscribe, slotsOf_cons, hnone.1, hserves]
          rfl

/-- What the callbacks are given. -/
def payloadsOf (cb : Nat) (calls : List GlueCall) : List (List UInt8) :=
  (calls.filter fun call => decide (call.cb = cb)).map GlueCall.payload

theorem payloadsOf_append (cb : Nat) (calls calls' : List GlueCall) :
    payloadsOf cb (calls ++ calls') = payloadsOf cb calls ++ payloadsOf cb calls' := by
  rw [payloadsOf, List.filter_append, List.map_append]
  rfl

theorem payloadsOf_deliveries (subscriptions : List (Option GlueSubscription))
    (topic payload : List UInt8) (cb : Nat) :
    payloadsOf cb (deliveries subscriptions topic payload)
      = ((slotsOf cb subscriptions).filter fun s => decide (topic = s.topic.bytes)).map
          fun _ => payload := by
  induction subscriptions with
  | nil => rfl
  | cons subscription subscriptions ih =>
      rw [slotsOf_cons, List.filter_append, List.map_append, ← ih]
      cases subscription with
      | none => rfl
      | some s =>
          by_cases htopic : topic = s.topic.bytes <;> by_cases hcb : s.cb = cb <;>
            simp [deliveries, payloadsOf, htopic, hcb, Option.filter_some]

/-- One delivery on the topic, none on any other. -/
theorem Serves.payloadsOf_eq {subscriptions : List (Option GlueSubscription)} {topic : CString}
    {cb : Nat} (h : Serves subscriptions topic cb) (topic' payload : List UInt8) :
    payloadsOf cb (deliveries subscriptions topic' payload)
      = if topic' = topic.bytes then [payload] else [] := by
  rw [payloadsOf_deliveries, h]
  by_cases htopic : topic' = topic.bytes
  · simp [htopic]
  · simp [htopic]

/-! ## The requests -/

/-- What `calloc` says while a request is carried out: for the tokens, and
for the values that are copied. -/
structure RequestMemory (α : Type) where
  tokens : Bool
  value : α → Bool

section Node

variable {α : Type} (node : SetNode α)

/-- `esp_rmaker_set_params_callback` -/
def espRmakerSetParamsCallback (memory : RequestMemory α) (payload : List UInt8) :
    Option (Option (List (SetCall α))) :=
  espRmakerHandleSetParams node memory.tokens memory.value payload

/-- The callback, once for each payload; nothing is done about a request
that fails. -/
def handleRequests (memory : Nat → RequestMemory α) :
    Nat → List (List UInt8) → Option (List (SetCall α))
  | _, [] => some []
  | k, payload :: payloads =>
      (espRmakerSetParamsCallback node (memory k) payload).bind fun made =>
        (handleRequests memory (k + 1) payloads).map (made.getD [] ++ ·)

/-- What the documents ask for, one after the other. -/
def SetNode.requestsAsked (memory : Nat → RequestMemory α) : Nat → List Document → List (SetCall α)
  | _, [] => []
  | k, doc :: docs =>
      (if (memory k).tokens then node.asked (memory k).value doc.root else [])
        ++ SetNode.requestsAsked memory (k + 1) docs

theorem handleRequests_documents (memory : Nat → RequestMemory α) (k : Nat) {docs : List Document}
    (hdocs : ∀ doc ∈ docs, doc.root.Proper ∧ node.Understood doc.root) :
    handleRequests node memory k (docs.map Document.text)
      = some (node.requestsAsked memory k docs) := by
  induction docs generalizing k with
  | nil => rfl
  | cons doc docs ih =>
      obtain ⟨hproper, hunderstood⟩ := hdocs doc List.mem_cons_self
      rw [List.map_cons, handleRequests, espRmakerSetParamsCallback, handleSetParams_document,
        calls_literal node hproper hunderstood, Option.bind_some,
        ih (k + 1) fun d hd => hdocs d (List.mem_cons_of_mem doc hd), Option.map_some,
        SetNode.requestsAsked]
      cases (memory k).tokens <;> rfl

end Node

/-! ## What the broker sends -/

/-- The documents among the publications told of; `docs` says what the
payloads on the topic say. -/
def requestsOn (topic : CString) (docs : Publication → Document) (ms : List Publication) :
    List Document :=
  (ms.filter fun m => decide (m.topic = topic.bytes)).map docs

/-- A publication that is told of came in a packet. -/
theorem BrokerPacket.publish_mem_of_told {inBufferLength : Nat} {alloc : Nat → Bool}
    {asked : Nat} {bs : List BrokerPacket} {m : Publication}
    (h : m ∈ told inBufferLength alloc asked bs) : .publish m ∈ bs := by
  induction bs generalizing asked with
  | nil => cases h
  | cons b bs ih =>
      cases b with
      | other p => exact List.mem_cons_of_mem _ (ih h)
      | publish m' =>
          rw [told] at h
          split at h
          · obtain rfl | h := List.mem_cons.mp h
            · exact List.mem_cons_self
            · exact List.mem_cons_of_mem _ (ih h)
          · split at h
            · obtain rfl | h := List.mem_cons.mp h
              · exact List.mem_cons_self
              · exact List.mem_cons_of_mem _ (ih h)
            · exact List.mem_cons_of_mem _ (ih h)

/-- What the callback of the topic is given. -/
theorem Serves.payloadsOf_deliveriesOf {subscriptions : List (Option GlueSubscription)}
    {topic : CString} {cb : Nat} (h : Serves subscriptions topic cb) (docs : Publication → Document)
    {ms : List Publication}
    (hdocs : ∀ m ∈ ms, m.topic = topic.bytes → m.payload = (docs m).text) :
    payloadsOf cb (deliveriesOf subscriptions ms) =
      (requestsOn topic docs ms).map Document.text := by
  induction ms with
  | nil => rfl
  | cons m ms ih =>
      have hrest := ih fun m' hm' => hdocs m' (List.mem_cons_of_mem _ hm')
      rw [deliveriesOf, List.flatMap_cons, payloadsOf_append, h.payloadsOf_eq, requestsOn]
      by_cases htopic : m.topic = topic.bytes
      · rw [if_pos htopic, List.filter_cons_of_pos (by simpa using htopic), List.map_cons,
          List.map_cons, ← hdocs m List.mem_cons_self htopic]
        exact congrArg (m.payload :: ·) hrest
      · rw [if_neg htopic, List.filter_cons_of_neg (by simpa using htopic)]
        exact hrest

namespace MqttClient

/-- **Every request is carried out, once, in order, as it is meant**, if no
packet of the broker is fragile and the node understands the documents: in
whatever pieces the stream comes, and whatever calls other tasks and the
callbacks make, as long as a connection lasts. What the node is told to do
is what the requests among the packets handled so far ask for. -/
theorem requests_carried_out {α : Type} (node : SetNode α) (memory : Nat → RequestMemory α)
    {subscriptions : List (Option GlueSubscription)} {topic : CString} {cb : Nat}
    (hserves : Serves subscriptions topic cb) (alloc : Nat → Bool) (glue : GlueData)
    (docs : Publication → Document) {sent : List BrokerPacket}
    (hdocs : ∀ m, .publish m ∈ sent → m.topic = topic.bytes →
      m.payload = (docs m).text ∧ (docs m).root.Proper ∧ node.Understood (docs m).root)
    {c d : MqttClient} {acts : List MqttAct} (hL : 10 ≤ c.inBufferSize.bytes)
    (hempty : c.input.inBuffer = []) (hfits : ∀ b ∈ sent, b.Fits c.inBufferSize.bytes)
    (hinit : ∀ act ∈ acts, ¬ act.Opens) (hclean : (c.input.transport ++ arrivals acts).Clean)
    (hsent : (c.input.transport ++ arrivals acts).stream <+: sent.flatMap BrokerPacket.bytes)
    (hrun : run step c acts = some d) (hconnected : d.state = .connected) :
    ∃ done rest kept heard calls, done ++ rest = sent ∧
      dataEvents d.events = dataEvents c.events ++ heard ∧
      handleDataEvents subscriptions alloc glue heard = some (kept, calls) ∧
      handleRequests node memory 0 (payloadsOf cb calls) = some (node.requestsAsked memory 0
        (requestsOn topic docs
          (BrokerPacket.told c.inBufferSize.bytes alloc glue.asked done))) ∧
      done.flatMap BrokerPacket.bytes ++ (d.input.inBuffer ++ d.input.transport.stream) =
        (c.input.transport ++ arrivals acts).stream ∧
      ∀ b ∈ rest.head?, d.input.inBuffer.length < b.bytes.length := by
  obtain ⟨hsize, done, rest, heq, hd⟩ :=
    run_delivers subscriptions alloc glue hL hempty hfits hinit hclean hsent hrun hconnected
  obtain ⟨kept, heard, hheard, hcalls⟩ := hd.told
  rw [hsize] at hcalls
  have htold : ∀ m ∈ BrokerPacket.told c.inBufferSize.bytes alloc glue.asked done,
      m.topic = topic.bytes →
        m.payload = (docs m).text ∧ (docs m).root.Proper ∧ node.Understood (docs m).root := by
    intro m hm
    exact hdocs m (heq ▸ List.mem_append_left rest (BrokerPacket.publish_mem_of_told hm))
  refine ⟨done, rest, _, heard, _, heq, hheard, hcalls, ?_, hd.seen, hd.head_incomplete⟩
  rw [hserves.payloadsOf_deliveriesOf docs fun m hm htopic => (htold m hm htopic).1]
  refine handleRequests_documents node memory 0 ?_
  intro doc hdoc
  obtain ⟨m, hm, rfl⟩ := List.mem_map.mp hdoc
  obtain ⟨hm, htopic⟩ := List.mem_filter.mp hm
  exact (htold m hm (of_decide_eq_true htopic)).2

/-- `{"Light":{"Power":true}}` -/
def powerOn : Document := lightDocument (powerTrue (.nil .empty))

theorem powerOn_short : publicationA.topic.length + powerOn.text.length + 4 < 128 ^ 4 := by
  decide

/-- It is published on the topic "a". -/
def powerOnPublication : Publication :=
  { publicationA with payload := powerOn.text, short := powerOn_short }

/-- It comes in two pieces. -/
def powerOnActs : List MqttAct :=
  [.arrive (some (powerOnPublication.bytes.take 9)), .pass (.steady 1 [100]) false [],
    .arrive (some (powerOnPublication.bytes.drop 9)), .pass (.steady 2 [100]) false [],
    .pass (.steady 3 [100]) false []]

theorem powerOnActs_run :
    (run step connectedClient powerOnActs).map (fun d => d.state) = some .connected := by
  decide +kernel

theorem power_on_carried_out :
    ∃ d done rest kept calls, run step connectedClient powerOnActs = some d ∧
      done ++ rest = [.publish powerOnPublication] ∧
      handleDataEvents [some ⟨topicA, 4⟩] (fun _ => true) ⟨none, 0⟩ (dataEvents d.events) =
        some (kept, calls) ∧
      handleRequests lightSetNode (fun _ => ⟨true, fun _ => true⟩) 0 (payloadsOf 4 calls) =
        some (lightSetNode.requestsAsked (fun _ => ⟨true, fun _ => true⟩) 0
          (requestsOn topicA (fun _ => powerOn)
            (BrokerPacket.told 1460 (fun _ => true) 0 done))) ∧
      lightSetNode.requestsAsked (fun _ => ⟨true, fun _ => true⟩) 0 [powerOn] =
        [.writeCb ⟨"Light", by decide⟩ .power (.boolean true)] := by
  obtain ⟨d, hd, hconnected⟩ := Option.map_eq_some_iff.mp powerOnActs_run
  have hpublish :
      (BrokerPacket.publish powerOnPublication).Fits connectedClient.inBufferSize.bytes :=
    ⟨⟨by decide, .inl (by decide)⟩, by decide, .inl (by decide), by decide⟩
  have hfits : ∀ b ∈ [.publish powerOnPublication],
      BrokerPacket.Fits connectedClient.inBufferSize.bytes b := by simp [hpublish]
  have hdocs : ∀ m, .publish m ∈ [BrokerPacket.publish powerOnPublication] →
      m.topic = topicA.bytes → m.payload = powerOn.text ∧ powerOn.root.Proper ∧
        lightSetNode.Understood powerOn.root := by
    intro m hm _
    cases List.mem_singleton.mp hm
    exact ⟨rfl, by decide +kernel, by decide +kernel⟩
  obtain ⟨done, rest, kept, heard, calls, heq, hheard, hcalls, hrequests, -⟩ :=
    requests_carried_out lightSetNode (fun _ => ⟨true, fun _ => true⟩)
      (rfl : Serves [some ⟨topicA, 4⟩] topicA 4) (fun _ => true) ⟨none, 0⟩ (fun _ => powerOn) hdocs
      (by decide) rfl hfits (by simp [powerOnActs, MqttAct.Opens]) (by unfold Feed.Clean; decide)
      (by decide) hd hconnected
  refine ⟨d, done, rest, kept, calls, hd, heq, ?_, hrequests, rfl⟩
  rw [hheard]
  exact hcalls

end MqttClient

end LiveWireSwitch
