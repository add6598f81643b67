import LiveWireSwitch.EspMqtt.Kept
import LiveWireSwitch.EspMqtt.Delivery

/-!
# EspMqtt.Inbound — what the broker sends, to the callbacks

While a connection lasts the client reads one packet a pass, in whatever
pieces TCP and TLS bring it, and other tasks take turns with it. The
subscriptions are called for every PUBLISH of the broker, once, in its
order and with the whole payload; every byte that has arrived belongs to a
packet that was handled or to the one being read.
-/

namespace LiveWireSwitch

open Lib Relation MqttConnection

/-! ## What a broker sends -/

inductive BrokerPacket where
  | publish (m : Publication)
  | other (p : Packet)

namespace BrokerPacket

def packet : BrokerPacket → Packet
  | publish m => m.packet
  | other p => p

def bytes (b : BrokerPacket) : List UInt8 := b.packet.bytes

/-- The client can read it, wherever it is cut, and tell it. -/
def Fits (inBufferLength : Nat) (b : BrokerPacket) : Prop :=
  b.packet.Accepted inBufferLength ∧ ¬ b.packet.Fragile ∧
    match b with
    | publish m => m.Deliverable inBufferLength ∧ 0 ∉ m.topic
    | other p => mqttGetType p.bytes ≠ some .publish

/-- Its data does not fit into `in_buffer` and comes in pieces. -/
def inPieces (inBufferLength : Nat) : BrokerPacket → Bool
  | publish m => decide (inBufferLength < m.bytes.length)
  | other _ => false

/-- The publications the subscriptions are told of: with data in pieces only
those for which there is memory. -/
def told (inBufferLength : Nat) (alloc : Nat → Bool) : Nat → List BrokerPacket → List Publication
  | _, [] => []
  | asked, other _ :: bs => told inBufferLength alloc asked bs
  | asked, publish m :: bs =>
      if m.bytes.length ≤ inBufferLength then m :: told inBufferLength alloc asked bs
      else if alloc asked then m :: told inBufferLength alloc (asked + 1) bs
      else told inBufferLength alloc (asked + 1) bs

theorem told_append (inBufferLength : Nat) (alloc : Nat → Bool) (asked : Nat)
    (bs bs' : List BrokerPacket) :
    told inBufferLength alloc asked (bs ++ bs') =
      told inBufferLength alloc asked bs ++
        told inBufferLength alloc (asked + bs.countP (inPieces inBufferLength)) bs' := by
  induction bs generalizing asked with
  | nil => rfl
  | cons b bs ih =>
      cases b with
      | other p =>
          rw [List.cons_append, told, told, ih, List.countP_cons_of_neg (by simp [inPieces])]
      | publish m =>
          rw [List.cons_append, told, told]
          by_cases hshort : m.bytes.length ≤ inBufferLength
          · have hpieces : ¬ inPieces inBufferLength (publish m) = true := by
              simpa [inPieces] using hshort
            rw [if_pos hshort, if_pos hshort, ih, List.countP_cons_of_neg hpieces, List.cons_append]
          · have hpieces : inPieces inBufferLength (publish m) = true := by
              simpa [inPieces] using hshort
            rw [if_neg hshort, if_neg hshort, ih, List.countP_cons_of_pos hpieces,
              show asked + (bs.countP (inPieces inBufferLength) + 1) =
                asked + 1 + bs.countP (inPieces inBufferLength) by omega]
            split
            · rfl
            · rfl

/-- A PINGRESP: what is waited for when nothing is to come. -/
def pingresp : BrokerPacket := .other ⟨0xd0, [], by decide⟩

/-- The packet being read. -/
def next : List BrokerPacket → BrokerPacket
  | [] => pingresp
  | b :: _ => b

theorem fits_pingresp {inBufferLength : Nat} (h : 10 ≤ inBufferLength) :
    pingresp.Fits inBufferLength := by
  have hlen : pingresp.packet.bytes.length = 2 := by decide
  have htype : mqttGetType pingresp.packet.bytes ≠ some .publish := by decide
  exact ⟨⟨by decide, .inl (by omega)⟩, by decide, htype⟩

theorem fits_next {inBufferLength : Nat} (h : 10 ≤ inBufferLength) {rest : List BrokerPacket}
    (hrest : ∀ b ∈ rest, b.Fits inBufferLength) : (next rest).Fits inBufferLength := by
  cases rest with
  | nil => exact fits_pingresp h
  | cons b rest => exact hrest b (by simp)

theorem received_pos {inBufferLength : Nat} (h : 10 ≤ inBufferLength) (b : BrokerPacket) :
    0 < b.packet.received inBufferLength := by
  have := b.packet.two_le_fixedLen
  have := b.packet.length_bytes
  simp only [Packet.received]
  omega

end BrokerPacket

/-- The callbacks for publications, one after the other. -/
def deliveriesOf (subscriptions : List (Option GlueSubscription)) (ms : List Publication) :
    List GlueCall :=
  ms.flatMap fun m => deliveries subscriptions m.topic m.payload

theorem deliveriesOf_append (subscriptions : List (Option GlueSubscription))
    (ms ms' : List Publication) :
    deliveriesOf subscriptions (ms ++ ms') =
      deliveriesOf subscriptions ms ++ deliveriesOf subscriptions ms' := List.flatMap_append

/-! ## The data events -/

def MqttEvent.data? : MqttEvent → Option MqttDataEvent
  | .data event => some event
  | _ => none

/-- The data events among the events. -/
def dataEvents (es : List MqttEvent) : List MqttDataEvent := es.filterMap MqttEvent.data?

theorem dataEvents_append (es es' : List MqttEvent) :
    dataEvents (es ++ es') = dataEvents es ++ dataEvents es' := List.filterMap_append

theorem dataEvents_map_data (ds : List MqttDataEvent) :
    dataEvents (ds.map MqttEvent.data) = ds := by
  rw [dataEvents, List.filterMap_map]
  exact List.filterMap_some

theorem MqttEvent.Plain.dataEvents_eq {e : MqttEvent} (h : e.Plain) : dataEvents [e] = [] := by
  cases e with
  | data event => exact h.elim
  | _ => rfl

theorem handleDataEvents_append (subscriptions : List (Option GlueSubscription))
    (alloc : Nat → Bool) {glue glue' glue'' : GlueData} {ds ds' : List MqttDataEvent}
    {calls calls' : List GlueCall}
    (h : handleDataEvents subscriptions alloc glue ds = some (glue', calls))
    (h' : handleDataEvents subscriptions alloc glue' ds' = some (glue'', calls')) :
    handleDataEvents subscriptions alloc glue (ds ++ ds') = some (glue'', calls ++ calls') := by
  induction ds generalizing glue calls with
  | nil =>
      cases h
      exact h'
  | cons d ds ih =>
      simp only [handleDataEvents, Option.bind_eq_bind, Option.bind_eq_some_iff, Option.some.injEq,
        Prod.exists, Prod.mk.injEq] at h
      obtain ⟨k, first, hfirst, k', others, hothers, rfl, rfl⟩ := h
      simp only [List.cons_append, handleDataEvents, hfirst, ih hothers, Option.bind_eq_bind,
        Option.bind_some, List.append_assoc]

namespace MqttClient

/-! ## The outbound side does not touch the input -/

/-- Nothing is read, and no data event is dispatched. -/
structure Deaf (c c' : MqttClient) : Prop where
  input_eq : c'.input = c.input
  inBufferSize_eq : c'.inBufferSize = c.inBufferSize
  dataEvents_eq : dataEvents c'.events = dataEvents c.events
  connected : c'.state = .connected → c.state = .connected

theorem Deaf.refl (c : MqttClient) : Deaf c c := ⟨rfl, rfl, rfl, fun h => h⟩

theorem Deaf.trans {c d e : MqttClient} (h : Deaf c d) (h' : Deaf d e) : Deaf c e where
  input_eq := h'.input_eq.trans h.input_eq
  inBufferSize_eq := h'.inBufferSize_eq.trans h.inBufferSize_eq
  dataEvents_eq := h'.dataEvents_eq.trans h.dataEvents_eq
  connected := fun hc => h.connected (h'.connected hc)

theorem dataEvents_dispatch (c : MqttClient) {e : MqttEvent} (he : e.Plain) :
    dataEvents (c.dispatch e).events = dataEvents c.events := by
  show dataEvents (c.events ++ [e]) = _
  rw [dataEvents_append, he.dataEvents_eq, List.append_nil]

theorem Move.deaf {proper short : Prop} {c c' : MqttClient} (h : Move proper short c c') :
    Deaf c c' := by
  cases h with
  | note h =>
      exact ⟨h.input_eq, h.inBufferSize_eq, by rw [h.events_eq], fun hc => h.state_eq ▸ hc⟩
  | tell e he => exact ⟨rfl, rfl, dataEvents_dispatch c he, fun hc => hc⟩
  | abort => exact ⟨rfl, rfl, dataEvents_dispatch _ trivial, fun hbad => by cases hbad⟩
  | emit h =>
      refine ⟨h.same.input_eq, h.same.inBufferSize_eq, ?_, fun hc => h.same.state_eq ▸ hc⟩
      obtain ⟨hes, -⟩ | ⟨hes, -⟩ := h.ending
      · rw [hes]
      · have herror : MqttEvent.error.Plain := trivial
        rw [hes, dataEvents_append, herror.dataEvents_eq, List.append_nil]
  | settle i item e hi he h => exact ⟨rfl, rfl, dataEvents_dispatch _ he, fun hc => hc⟩
  | build k hlen h => exact ⟨rfl, rfl, rfl, fun hc => hc⟩
  | enqueue item stored hid hqos hqueued h => exact ⟨rfl, rfl, rfl, fun hc => hc⟩
  | mark i item item' hi h => exact ⟨rfl, rfl, rfl, fun hc => hc⟩
  | drop i item hi h => exact ⟨rfl, rfl, rfl, fun hc => hc⟩
  | clamp => exact ⟨rfl, rfl, rfl, fun hc => hc⟩

theorem Moves.deaf {proper short : Prop} {c c' : MqttClient} (h : Moves proper short c c') :
    Deaf c c' := by
  induction h with
  | refl => exact .refl c
  | tail _ hmove ih => exact ih.trans hmove.deaf

/-! ## One packet -/

/-- The client with what `mqtt_message_receive` has read. -/
def reading (c : MqttClient) (s : MqttInput) : MqttClient := { c with input := s }

theorem mqttProcessReceive_eq (c : MqttClient) (during : List MqttCall) :
    c.mqttProcessReceive during =
      let r := mqttMessageReceive c.inBufferSize.bytes c.input
      let handled := (c.reading r.2).processPacket during
      if r.1 < 0 then (.fail, (c.reading r.2).dispatch .error)
      else if r.1 = 0 then (.ok, c.reading r.2)
      else if handled.1 ≠ .ok then (.fail, handled.2) else (.ok, handled.2.clearInBuffer) := by
  unfold mqttProcessReceive
  dsimp only [reading]

theorem mqttProcessReceive_of_wait {c : MqttClient} {s : MqttInput} (during : List MqttCall)
    (h : mqttMessageReceive c.inBufferSize.bytes c.input = (0, s)) :
    c.mqttProcessReceive during = (.ok, c.reading s) := by
  rw [mqttProcessReceive_eq, h]
  rfl

theorem mqttProcessReceive_of_packet {c : MqttClient} {s : MqttInput} {during : List MqttCall}
    (h : mqttMessageReceive c.inBufferSize.bytes c.input = (1, s))
    (hok : (c.mqttProcessReceive during).1 ≠ .fail) :
    ((c.reading s).processPacket during).1 = .ok ∧
      (c.mqttProcessReceive during).2 = ((c.reading s).processPacket during).2.clearInBuffer := by
  rw [mqttProcessReceive_eq, h] at hok ⊢
  dsimp only at hok ⊢
  rw [if_neg (by decide), if_neg (by decide)] at hok ⊢
  by_cases herr : ((c.reading s).processPacket during).1 ≠ .ok
  · rw [if_pos herr] at hok
    exact absurd rfl hok
  · rw [if_neg herr]
    exact ⟨not_not.mp herr, rfl⟩

theorem clearInBuffer_transport (c : MqttClient) :
    c.clearInBuffer.input.transport = c.input.transport := rfl

theorem clearInBuffer_seen (c : MqttClient) :
    c.clearInBuffer.input.seen = c.input.transport.stream := List.nil_append _

section Follows

variable (subscriptions : List (Option GlueSubscription)) (alloc : Nat → Bool)
  (glue : GlueData) (before : List MqttDataEvent)

/-- Where a connection stands: `done` has been handled, and of what has
`arrived` only bytes of the next packet are in `in_buffer`. `before` are
the data events of earlier connections, `glue` what they left there. -/
structure Follows (arrived : List UInt8) (done rest : List BrokerPacket) (c : MqttClient) :
    Prop where
  clean : c.input.transport.Clean
  seen : done.flatMap BrokerPacket.bytes ++ c.input.seen = arrived
  lt : c.input.readLen < (BrokerPacket.next rest).packet.received c.inBufferSize.bytes
  told : ∃ kept heard, dataEvents c.events = before ++ heard ∧
    handleDataEvents subscriptions alloc glue heard =
      some (⟨kept, glue.asked + done.countP (BrokerPacket.inPieces c.inBufferSize.bytes)⟩,
        deliveriesOf subscriptions
          (BrokerPacket.told c.inBufferSize.bytes alloc glue.asked done))

variable {subscriptions alloc glue before}

theorem Follows.deaf {arrived : List UInt8} {done rest : List BrokerPacket} {c c' : MqttClient}
    (h : Follows subscriptions alloc glue before arrived done rest c) (hdeaf : Deaf c c') :
    Follows subscriptions alloc glue before arrived done rest c' := by
  obtain ⟨hclean, hseen, hlt, htold⟩ := h
  rw [← hdeaf.input_eq] at hclean hseen hlt
  rw [← hdeaf.inBufferSize_eq] at hlt htold
  rw [← hdeaf.dataEvents_eq] at htold
  exact ⟨hclean, hseen, hlt, htold⟩

/-- The bytes that are there begin with those of the next packet. -/
theorem Follows.agrees {arrived : List UInt8} {done rest : List BrokerPacket} {c : MqttClient}
    (h : Follows subscriptions alloc glue before arrived done rest c)
    (hsent : arrived <+: (done ++ rest).flatMap BrokerPacket.bytes) :
    c.input.Agrees (BrokerPacket.next rest).packet := by
  rw [← h.seen, List.flatMap_append, List.prefix_append_right_inj] at hsent
  obtain ⟨later, hlater⟩ := hsent
  cases rest with
  | nil =>
      refine ⟨BrokerPacket.pingresp.bytes, [], ?_⟩
      have hnil : c.input.seen = [] := List.append_eq_nil_iff.mp hlater |>.1
      rw [hnil]
      simp [BrokerPacket.next, BrokerPacket.bytes]
  | cons b rest => exact ⟨later, rest.flatMap BrokerPacket.bytes, hlater⟩

/-- A packet has been handled: what is left of the stream is that of the
next one. -/
theorem Follows.handled {arrived : List UInt8} {done rest : List BrokerPacket} {b : BrokerPacket}
    {c c' : MqttClient} (hL : 10 ≤ c.inBufferSize.bytes)
    (h : Follows subscriptions alloc glue before arrived done (b :: rest) c)
    (hbytes : b.bytes ++ c'.input.seen = c.input.seen) (hempty : c'.input.inBuffer = [])
    (hclean : c'.input.transport.Clean) (hsize : c'.inBufferSize = c.inBufferSize)
    (htold : ∀ kept asked, ∃ kept' ds, dataEvents c'.events = dataEvents c.events ++ ds ∧
      handleDataEvents subscriptions alloc ⟨kept, asked⟩ ds =
        some (⟨kept', asked + [b].countP (BrokerPacket.inPieces c.inBufferSize.bytes)⟩,
          deliveriesOf subscriptions
            (BrokerPacket.told c.inBufferSize.bytes alloc asked [b]))) :
    Follows subscriptions alloc glue before arrived (done ++ [b]) rest c' := by
  refine ⟨hclean, ?_, ?_, ?_⟩
  · rw [← h.seen, ← hbytes, List.flatMap_append, List.append_assoc]
    simp
  · rw [hsize, MqttInput.readLen, hempty]
    exact BrokerPacket.received_pos hL _
  · obtain ⟨kept, heard, hheard, hcalls⟩ := h.told
    obtain ⟨kept', ds, hds, hcalls'⟩ := htold kept _
    refine ⟨kept', heard ++ ds, ?_, ?_⟩
    · rw [hds, hheard, List.append_assoc]
    · rw [handleDataEvents_append subscriptions alloc hcalls hcalls', hsize, List.countP_append,
        BrokerPacket.told_append, deliveriesOf_append, Nat.add_assoc]

/-- The switch on a packet that is not a PUBLISH. -/
theorem processPacket_follows_other {arrived : List UInt8} {done rest : List BrokerPacket}
    {p : Packet} {c : MqttClient} {s : MqttInput} (during : List MqttCall)
    (hL : 10 ≤ c.inBufferSize.bytes)
    (h : Follows subscriptions alloc glue before arrived done (.other p :: rest) c)
    (hagrees : c.input.Agrees p) (hfits : (BrokerPacket.other p).Fits c.inBufferSize.bytes)
    (harrived : Arrived c.inBufferSize.bytes p c.input s) :
    Follows subscriptions alloc glue before arrived (done ++ [.other p]) rest
      ((c.reading s).processPacket during).2.clearInBuffer := by
  obtain ⟨haccepted, -, htype⟩ := hfits
  have hwhole : p.bytes.length ≤ c.inBufferSize.bytes := haccepted.2.resolve_right
    fun hbad => htype hbad.1
  have hlen : s.readLen = p.bytes.length := by
    rw [harrived.readLen_eq, Packet.received]
    omega
  have hbuf : s.inBuffer = p.bytes := by
    rw [(hagrees.after harrived.after).inBuffer_eq hlen.le, hlen, List.take_length]
  have hmoves : Moves True True (c.reading s) ((c.reading s).processPacket during).2 := by
    apply processPacket_moves
    show mqttGetType s.inBuffer ≠ _
    rwa [hbuf]
  have hdeaf := hmoves.deaf
  have htransport : ((c.reading s).processPacket during).2.input.transport = s.transport :=
    congrArg MqttInput.transport hdeaf.input_eq
  refine h.handled hL ?_ rfl ?_ hdeaf.inBufferSize_eq fun kept asked => ⟨kept, [], ?_, rfl⟩
  · rw [clearInBuffer_seen, htransport, ← harrived.after.seen_eq, MqttInput.seen, hbuf]
    rfl
  · rw [clearInBuffer_transport, htransport]
    exact harrived.after.clean
  · rw [List.append_nil]
    exact hdeaf.dataEvents_eq

/-- The switch on a PUBLISH, when nothing fails. -/
theorem processPacket_follows_publish {arrived : List UInt8} {done rest : List BrokerPacket}
    {m : Publication} {c : MqttClient} {s : MqttInput} (during : List MqttCall)
    (hL : 10 ≤ c.inBufferSize.bytes)
    (h : Follows subscriptions alloc glue before arrived done (.publish m :: rest) c)
    (hagrees : c.input.Agrees m.packet)
    (hfits : (BrokerPacket.publish m).Fits c.inBufferSize.bytes)
    (harrived : Arrived c.inBufferSize.bytes m.packet c.input s)
    (hok : ((c.reading s).processPacket during).1 = .ok) :
    Follows subscriptions alloc glue before arrived (done ++ [.publish m]) rest
      ((c.reading s).processPacket during).2.clearInBuffer := by
  obtain ⟨haccepted, -, hdeliverable, hnul⟩ := hfits
  have hagrees' := hagrees.after harrived.after
  have hlen : s.readLen = min m.bytes.length c.inBufferSize.bytes := harrived.readLen_eq
  have hbuf := hagrees'.inBuffer_eq (show s.readLen ≤ m.bytes.length by omega)
  have htype : mqttGetType s.inBuffer = some .publish := by
    have hpos := BrokerPacket.received_pos hL (.publish m)
    have hpos' : 0 < min m.bytes.length c.inBufferSize.bytes := hpos
    rw [hbuf, mqttGetType_take (by omega)]
    exact (m.head_fields _).1
  obtain ⟨hmoves, hfail⟩ := processPacket_publish (c.reading s) during htype
  have hdeaf := hmoves.deaf
  have hdone : (deliverPublish c.inBufferSize s).1 = .ok := by
    by_contra herr
    rw [hfail herr] at hok
    cases hok
  -- how `deliver_publish` ends, whatever the glue has kept
  have hdeliver := deliverPublish_spec c.inBufferSize subscriptions alloc hdeliverable hnul
    harrived.after.clean hagrees' harrived.readLen_eq harrived.messageLength_eq
  have htransport : ((c.reading s).processPacket during).2.input.transport =
      (deliverPublish c.inBufferSize s).2.2 := congrArg MqttInput.transport hdeaf.input_eq
  refine h.handled hL ?_ rfl ?_ hdeaf.inBufferSize_eq fun kept asked => ?_
  · obtain ⟨err, events, f, heq, -, -, hend⟩ := hdeliver ⟨none, 0⟩
    rw [clearInBuffer_seen, htransport, heq]
    cases hend with
    | done got herr hgot hgotlen hcalls =>
        obtain ⟨later, next, hseen⟩ := hagrees'
        rw [MqttInput.seen, hgot, List.append_assoc, List.append_assoc,
          ← List.append_assoc] at hseen
        have hcut := List.append_inj_left hseen (by
          rw [List.length_append]
          exact hgotlen)
        rw [← harrived.after.seen_eq, MqttInput.seen, hgot, ← List.append_assoc, hcut]
        rfl
    | stopped got kept' herr hgot hgotlen hprompt hcalls =>
        rw [heq, herr] at hdone
        cases hdone
  · obtain ⟨err, events, f, heq, hclean, -, -⟩ := hdeliver ⟨none, 0⟩
    rw [clearInBuffer_transport, htransport, heq]
    exact hclean
  · obtain ⟨err, events, f, heq, -, -, hend⟩ := hdeliver ⟨kept, asked⟩
    cases hend with
    | done got herr hgot hgotlen hcalls =>
        refine ⟨none, events, ?_, ?_⟩
        · rw [show ((c.reading s).processPacket during).2.clearInBuffer.events =
            ((c.reading s).processPacket during).2.events from rfl, hdeaf.dataEvents_eq]
          show dataEvents (c.events ++ (deliverPublish c.inBufferSize s).2.1.map MqttEvent.data) = _
          rw [dataEvents_append, dataEvents_map_data, heq]
        · rw [hcalls]
          by_cases hshort : m.bytes.length ≤ c.inBufferSize.bytes
          · rw [if_pos hshort]
            simp [BrokerPacket.told, BrokerPacket.inPieces, deliveriesOf, hshort]
          · rw [if_neg hshort]
            by_cases ha : alloc asked <;>
              simp [BrokerPacket.told, BrokerPacket.inPieces, deliveriesOf, hshort, ha]
    | stopped got kept' herr hgot hgotlen hprompt hcalls =>
        rw [heq, herr] at hdone
        cases hdone

/-- `mqtt_process_receive`, when it does not fail. -/
theorem mqttProcessReceive_follows {arrived : List UInt8} {done rest : List BrokerPacket}
    {c : MqttClient} (during : List MqttCall) (hL : 10 ≤ c.inBufferSize.bytes)
    (hfits : ∀ b ∈ rest, b.Fits c.inBufferSize.bytes)
    (hsent : arrived <+: (done ++ rest).flatMap BrokerPacket.bytes)
    (h : Follows subscriptions alloc glue before arrived done rest c)
    (hok : (c.mqttProcessReceive during).1 ≠ .fail) :
    ∃ done' rest', done' ++ rest' = done ++ rest ∧
      Follows subscriptions alloc glue before arrived done' rest'
        (c.mqttProcessReceive during).2 := by
  have hagrees := h.agrees hsent
  obtain ⟨haccepted, hfragile, -⟩ := BrokerPacket.fits_next hL hfits
  obtain ⟨s, hs, hwaits⟩ | ⟨s, hs, harrived⟩ :=
    mqttMessageReceive_spec hL haccepted hfragile h.clean hagrees h.lt
  · rw [mqttProcessReceive_of_wait during hs]
    refine ⟨done, rest, rfl, hwaits.after.clean, ?_, hwaits.lt, h.told⟩
    rw [← h.seen, ← hwaits.after.seen_eq]
    rfl
  · obtain ⟨hdone, heq⟩ := mqttProcessReceive_of_packet hs hok
    rw [heq]
    cases rest with
    | nil =>
        -- nothing more has arrived
        have hle := hsent.length_le
        rw [← h.seen, List.append_nil, List.length_append, ← harrived.after.seen_eq,
          s.length_seen] at hle
        have hpos := BrokerPacket.received_pos hL (BrokerPacket.next [])
        have hlen := harrived.readLen_eq
        omega
    | cons b rest =>
        refine ⟨done ++ [b], rest, by simp, ?_⟩
        cases b with
        | publish m =>
            exact processPacket_follows_publish during hL h hagrees (hfits _ (by simp)) harrived
              hdone
        | other p =>
            exact processPacket_follows_other during hL h hagrees (hfits _ (by simp)) harrived

/-- A pass after which the client is still connected. -/
theorem connectedPass_follows {arrived : List UInt8} {done rest : List BrokerPacket}
    {c : MqttClient} {disconnectBit : Bool} {during : List MqttCall}
    (hL : 10 ≤ c.inBufferSize.bytes) (hfits : ∀ b ∈ rest, b.Fits c.inBufferSize.bytes)
    (hsent : arrived <+: (done ++ rest).flatMap BrokerPacket.bytes)
    (h : Follows subscriptions alloc glue before arrived done rest c)
    (hconnected : (c.connectedPass disconnectBit during).state = .connected) :
    ∃ done' rest', done' ++ rest' = done ++ rest ∧
      Follows subscriptions alloc glue before arrived done' rest'
        (c.connectedPass disconnectBit during) := by
  rw [connectedPass_eq] at hconnected ⊢
  by_cases hbit : disconnectBit = true
  · rw [if_pos hbit] at hconnected
    cases hconnected
  · rw [if_neg hbit] at hconnected ⊢
    by_cases hfail : (c.mqttProcessReceive during).1 = .fail
    · rw [if_pos hfail] at hconnected
      cases hconnected
    · rw [if_neg hfail]
      obtain ⟨done', rest', heq, hfollows⟩ :=
        mqttProcessReceive_follows during hL hfits hsent h hfail
      have hmoves : Moves True True (c.mqttProcessReceive during).2
          (c.mqttProcessReceive during).2.afterReceive := afterReceive_moves _
      exact ⟨done', rest', heq, hfollows.deaf hmoves.deaf⟩

end Follows

end MqttClient

/-! ## Runs -/

/-- A turn that makes a new connection. -/
def MqttAct.Opens : MqttAct → Prop
  | .init .. => True
  | _ => False

/-- What a turn adds to the transport. -/
def MqttAct.arrives : MqttAct → Feed UInt8
  | .arrive piece => [piece]
  | _ => []

/-- What arrives in the course of a run. -/
def arrivals (acts : List MqttAct) : Feed UInt8 := acts.flatMap MqttAct.arrives

theorem arrivals_cons (act : MqttAct) (acts : List MqttAct) :
    arrivals (act :: acts) = act.arrives ++ arrivals acts := List.flatMap_cons

namespace MqttClient

theorem espMqttClientStop_deaf {c : MqttClient} (h : c.espMqttClientStop.state = .connected) :
    Deaf c c.espMqttClientStop := by
  unfold espMqttClientStop at h ⊢
  by_cases hconnected : c.state = .connected
  · rw [if_pos hconnected] at h ⊢
    dsimp only at h ⊢
    by_cases hnil : (mqttMsgDisconnect c.connection).message.data = []
    · rw [if_pos hnil]
      exact ⟨rfl, rfl, rfl, fun hc => hc⟩
    · rw [if_neg hnil] at h
      cases h
  · rw [if_neg hconnected] at h
    cases h

/-- The turns that leave the client connected: of these only a pass reads. -/
theorem step_cases_of_connected {c c' : MqttClient} {act : MqttAct} (hinit : ¬ act.Opens)
    (hstep : c.step act = some c') (hconnected : c'.state = .connected) :
    Deaf c c' ∧ act.arrives = [] ∨
      (∃ piece, act = .arrive piece ∧
        c' = c.reading { c.input with transport := c.input.transport ++ [piece] }) ∨
      ∃ env disconnectBit during, act = .pass env disconnectBit during ∧ c.state = .connected ∧
        c' = (c.inEnv env).connectedPass disconnectBit during := by
  cases act with
  | call env call =>
      simp only [step, Option.some.injEq] at hstep
      subst hstep
      exact .inl ⟨Moves.deaf ((inEnv_moves c env).trans (call_moves (c.inEnv env) call)), rfl⟩
  | arrive piece =>
      simp only [step, Option.some.injEq] at hstep
      exact .inr (.inl ⟨piece, rfl, hstep.symm⟩)
  | pass env disconnectBit during =>
      simp only [step] at hstep
      split at hstep
      · rename_i hc
        cases hstep
        exact .inr (.inr ⟨env, disconnectBit, during, rfl, hc, rfl⟩)
      · cases hstep
  | init env transportConnects info polls topics transport => exact absurd trivial hinit
  | stop env =>
      simp only [step] at hstep
      split at hstep
      · cases hstep
      · cases hstep
        have henv : Deaf c (c.inEnv env) := ⟨rfl, rfl, rfl, fun hc => hc⟩
        exact .inl ⟨henv.trans (espMqttClientStop_deaf hconnected), rfl⟩
  | pollFails =>
      simp only [step] at hstep
      split at hstep <;> cases hstep
      cases hconnected
  | ends =>
      simp only [step] at hstep
      split at hstep <;> cases hstep
      cases hconnected
  | start =>
      simp only [step] at hstep
      split at hstep <;> cases hstep
      cases hconnected

/-- It was connected before. -/
theorem step_connected {c c' : MqttClient} {act : MqttAct} (hinit : ¬ act.Opens)
    (hstep : c.step act = some c') (hconnected : c'.state = .connected) : c.state = .connected := by
  obtain ⟨hdeaf, -⟩ | ⟨piece, -, rfl⟩ | ⟨env, disconnectBit, during, -, hc, -⟩ :=
    step_cases_of_connected hinit hstep hconnected
  · exact hdeaf.connected hconnected
  · exact hconnected
  · exact hc

section Runs

variable {subscriptions : List (Option GlueSubscription)} {alloc : Nat → Bool}
  {glue : GlueData} {before : List MqttDataEvent}

theorem step_follows {arrived : List UInt8} {done rest : List BrokerPacket} {c c' : MqttClient}
    {act : MqttAct} (hL : 10 ≤ c.inBufferSize.bytes)
    (hfits : ∀ b ∈ rest, b.Fits c.inBufferSize.bytes) (hinit : ¬ act.Opens)
    (hclean : act.arrives.Clean)
    (hsent : arrived ++ act.arrives.stream <+: (done ++ rest).flatMap BrokerPacket.bytes)
    (h : Follows subscriptions alloc glue before arrived done rest c)
    (hstep : c.step act = some c') (hconnected : c'.state = .connected) :
    ∃ done' rest', done' ++ rest' = done ++ rest ∧
      Follows subscriptions alloc glue before (arrived ++ act.arrives.stream) done' rest'
        c' := by
  obtain ⟨hdeaf, hnone⟩ | ⟨piece, rfl, rfl⟩ | ⟨env, disconnectBit, during, rfl, -, rfl⟩ :=
    step_cases_of_connected hinit hstep hconnected
  · rw [hnone, Feed.stream_nil, List.append_nil]
    exact ⟨done, rest, rfl, h.deaf hdeaf⟩
  · refine ⟨done, rest, rfl, Feed.clean_append.mpr ⟨h.clean, hclean⟩, ?_, h.lt, h.told⟩
    show done.flatMap BrokerPacket.bytes ++
      (c.input.inBuffer ++ (c.input.transport ++ [piece]).stream) = _
    rw [Feed.stream_append, ← List.append_assoc, ← h.seen, List.append_assoc]
    simp [MqttInput.seen, MqttAct.arrives]
  · have harrived : (MqttAct.pass env disconnectBit during).arrives.stream = [] := rfl
    rw [harrived, List.append_nil] at hsent ⊢
    have henv : Deaf c (c.inEnv env) := ⟨rfl, rfl, rfl, fun hc => hc⟩
    exact connectedPass_follows hL hfits hsent (h.deaf henv) hconnected

theorem run_connected {c d : MqttClient} {acts : List MqttAct} (hinit : ∀ act ∈ acts, ¬ act.Opens)
    (hrun : run step c acts = some d) (hconnected : d.state = .connected) :
    c.state = .connected := by
  induction acts generalizing c with
  | nil =>
      cases hrun
      exact hconnected
  | cons act acts ih =>
      obtain ⟨m, hm, hrest⟩ := run_cons_some.mp hrun
      have hc := ih (fun a ha => hinit a (by simp [ha])) hrest
      exact step_connected (hinit act (by simp)) hm hc

/-- A connection, from any place in it. -/
theorem run_follows {arrived : List UInt8} {done rest : List BrokerPacket} {c d : MqttClient}
    {acts : List MqttAct} (hL : 10 ≤ c.inBufferSize.bytes)
    (hfits : ∀ b ∈ done ++ rest, b.Fits c.inBufferSize.bytes) (hinit : ∀ act ∈ acts, ¬ act.Opens)
    (hclean : (arrivals acts).Clean)
    (hsent : arrived ++ (arrivals acts).stream <+: (done ++ rest).flatMap BrokerPacket.bytes)
    (h : Follows subscriptions alloc glue before arrived done rest c)
    (hrun : run step c acts = some d) (hconnected : d.state = .connected) :
    d.inBufferSize = c.inBufferSize ∧ ∃ done' rest', done' ++ rest' = done ++ rest ∧
      Follows subscriptions alloc glue before (arrived ++ (arrivals acts).stream) done' rest'
        d := by
  induction acts generalizing c arrived done rest with
  | nil =>
      cases hrun
      have hnone : (arrivals []).stream = [] := rfl
      rw [hnone, List.append_nil]
      exact ⟨rfl, done, rest, rfl, h⟩
  | cons act acts ih =>
      obtain ⟨m, hm, hrest⟩ := run_cons_some.mp hrun
      have hinit' : ∀ a ∈ acts, ¬ a.Opens := fun a ha => hinit a (by simp [ha])
      rw [arrivals_cons, Feed.clean_append] at hclean
      rw [arrivals_cons, Feed.stream_append, ← List.append_assoc] at hsent ⊢
      obtain ⟨done', rest', heq, hm'⟩ := step_follows hL (fun b hb => hfits b (by simp [hb]))
        (hinit act (by simp)) hclean.1 ((List.prefix_append _ _).trans hsent) h hm
        (run_connected hinit' hrest hconnected)
      have hsize : m.inBufferSize = c.inBufferSize := (step_turns hm).inBufferSize_eq
      rw [← heq] at hsent hfits ⊢
      rw [← hsize] at hL hfits ⊢
      exact ih hL hfits hinit' hclean.2 hsent hm' hrest

theorem Follows.head_incomplete {arrived : List UInt8} {done rest : List BrokerPacket}
    {c : MqttClient} (h : Follows subscriptions alloc glue before arrived done rest c) :
    ∀ b ∈ rest.head?, c.input.inBuffer.length < b.bytes.length := by
  intro b hb
  cases rest with
  | nil => cases hb
  | cons b' rest =>
      cases hb
      exact h.lt.trans_le (Nat.min_le_left _ _)

/-- A connection, from a state in which nothing of it has been read. -/
theorem run_delivers (subscriptions : List (Option GlueSubscription)) (alloc : Nat → Bool)
    (glue : GlueData) {sent : List BrokerPacket} {c d : MqttClient}
    {acts : List MqttAct} (hL : 10 ≤ c.inBufferSize.bytes) (hempty : c.input.inBuffer = [])
    (hfits : ∀ b ∈ sent, b.Fits c.inBufferSize.bytes) (hinit : ∀ act ∈ acts, ¬ act.Opens)
    (hclean : (c.input.transport ++ arrivals acts).Clean)
    (hsent : (c.input.transport ++ arrivals acts).stream <+: sent.flatMap BrokerPacket.bytes)
    (hrun : run step c acts = some d) (hconnected : d.state = .connected) :
    d.inBufferSize = c.inBufferSize ∧ ∃ done rest, done ++ rest = sent ∧
      Follows subscriptions alloc glue (dataEvents c.events)
        (c.input.transport ++ arrivals acts).stream done rest d := by
  have hstart : Follows subscriptions alloc glue (dataEvents c.events)
      c.input.transport.stream [] sent c := by
    refine ⟨(Feed.clean_append.mp hclean).1, ?_, ?_, glue.longData, [], ?_, rfl⟩
    · rw [MqttInput.seen, hempty]
      rfl
    · rw [MqttInput.readLen, hempty]
      exact BrokerPacket.received_pos hL _
    · exact (List.append_nil _).symm
  have hfits' : ∀ b ∈ [] ++ sent, b.Fits c.inBufferSize.bytes := hfits
  rw [Feed.stream_append] at hsent ⊢
  exact run_follows hL hfits' hinit (Feed.clean_append.mp hclean).2 hsent hstart hrun hconnected

/-- **Every PUBLISH reaches its subscribers, once, in order and whole**, if
no packet of the broker is fragile: in whatever pieces their stream comes,
and whatever calls other tasks and the callbacks make, as long as a
connection lasts the callbacks made are those of the first packets of the
broker, for a message in pieces as far as there was memory. What has come is
the bytes of these packets and what is still to be read, and less than the
whole of the next packet is in `in_buffer`. -/
theorem publishes_delivered_in_order (subscriptions : List (Option GlueSubscription))
    (alloc : Nat → Bool) (glue : GlueData) {sent : List BrokerPacket}
    {c d : MqttClient} {acts : List MqttAct} (hL : 10 ≤ c.inBufferSize.bytes)
    (hempty : c.input.inBuffer = []) (hfits : ∀ b ∈ sent, b.Fits c.inBufferSize.bytes)
    (hinit : ∀ act ∈ acts, ¬ act.Opens) (hclean : (c.input.transport ++ arrivals acts).Clean)
    (hsent : (c.input.transport ++ arrivals acts).stream <+: sent.flatMap BrokerPacket.bytes)
    (hrun : run step c acts = some d) (hconnected : d.state = .connected) :
    ∃ done rest kept heard, done ++ rest = sent ∧
      dataEvents d.events = dataEvents c.events ++ heard ∧
      handleDataEvents subscriptions alloc glue heard =
        some (kept, deliveriesOf subscriptions
          (BrokerPacket.told c.inBufferSize.bytes alloc glue.asked done)) ∧
      done.flatMap BrokerPacket.bytes ++ (d.input.inBuffer ++ d.input.transport.stream) =
        (c.input.transport ++ arrivals acts).stream ∧
      ∀ b ∈ rest.head?, d.input.inBuffer.length < b.bytes.length := by
  obtain ⟨hsize, done, rest, heq, hd⟩ :=
    run_delivers subscriptions alloc glue hL hempty hfits hinit hclean hsent hrun hconnected
  obtain ⟨kept, heard, hheard, hcalls⟩ := hd.told
  exact ⟨done, rest, _, heard, heq, hheard, hsize ▸ hcalls, hd.seen, hd.head_incomplete⟩

/-- Three bytes on the topic "a". -/
def publicationA : Publication :=
  (properPublish_topicA (show 0 < 3 by decide)).publication (by decide) (fun _ => 7) 1

/-- They come between two PINGRESPs, in two pieces. -/
def arrivalActs : List MqttAct :=
  [.arrive (some [0xd0, 0, 0x30, 6]), .pass (.steady 1 []) false [],
    .arrive (some [0, 1, 0x61, 7, 7, 7, 0xd0]),
    .pass (.steady 2 []) false [], .pass (.steady 3 []) false []]

theorem arrivalActs_run :
    (run step connectedClient arrivalActs).map (fun d => d.state) = some .connected := by
  decide +kernel

theorem publicationA_delivered :
    ∃ d done rest kept, run step connectedClient arrivalActs = some d ∧
      done ++ rest = [.pingresp, .publish publicationA, .pingresp] ∧
      handleDataEvents [some ⟨topicA, 4⟩] (fun _ => true) ⟨none, 0⟩ (dataEvents d.events) =
        some (kept, deliveriesOf [some ⟨topicA, 4⟩]
          (BrokerPacket.told 1460 (fun _ => true) 0 done)) := by
  obtain ⟨d, hd, hconnected⟩ := Option.map_eq_some_iff.mp arrivalActs_run
  have hping : BrokerPacket.pingresp.Fits connectedClient.inBufferSize.bytes :=
    BrokerPacket.fits_pingresp (by decide)
  have hpublish : (BrokerPacket.publish publicationA).Fits connectedClient.inBufferSize.bytes :=
    ⟨⟨by decide, .inl (by decide)⟩, by decide, .inl (by decide), by decide⟩
  have hfits : ∀ b ∈ [.pingresp, .publish publicationA, .pingresp],
      BrokerPacket.Fits connectedClient.inBufferSize.bytes b := by simp [hping, hpublish]
  obtain ⟨done, rest, kept, heard, heq, hheard, hcalls, -⟩ :=
    publishes_delivered_in_order [some ⟨topicA, 4⟩] (fun _ => true) ⟨none, 0⟩ (by decide) rfl
      hfits (by simp [arrivalActs, MqttAct.Opens]) (by unfold Feed.Clean; decide) (by decide) hd
      hconnected
  refine ⟨d, done, rest, kept, hd, heq, ?_⟩
  rw [hheard]
  exact hcalls

end Runs

end MqttClient

end LiveWireSwitch
