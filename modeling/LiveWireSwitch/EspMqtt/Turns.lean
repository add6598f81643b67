import LiveWireSwitch.EspMqtt.Moves
import LiveWireSwitch.Lib.Pool

/-!
# EspMqtt.Turns — the client's task, turn by turn

A pass of the task, a connection being made, and the turns of a run, in
terms of the moves and of what comes in.
-/

namespace LiveWireSwitch

open Lib Relation MqttConnection

/-- Two readings of an id, by the length of the packet and by the size of
the buffer, agree on every packet that has one but a PUBLISH. -/
theorem mqttGetId_eq_of_ne {buffer : List UInt8} {l n : Nat}
    (htype : mqttGetType buffer ≠ some .publish) (h : mqttGetId buffer l ≠ 0) (hn : 4 ≤ n) :
    mqttGetId buffer n = mqttGetId buffer l := by
  unfold mqttGetId at h ⊢
  by_cases hl : l < 1
  · rw [if_pos hl] at h
    exact absurd rfl h
  · rw [if_neg hl] at h ⊢
    rw [if_neg (by omega)]
    cases ht : mqttGetType buffer with
    | none => rfl
    | some type =>
        rw [ht] at h htype
        have hsame : (if l ≥ 4 ∧ bufferAt buffer 1 &&& 0x80 = 0 then
            UInt16.ofNat (msbLsbAt buffer 2) else 0) ≠ 0 →
            (if n ≥ 4 ∧ bufferAt buffer 1 &&& 0x80 = 0 then
              UInt16.ofNat (msbLsbAt buffer 2) else 0) =
            (if l ≥ 4 ∧ bufferAt buffer 1 &&& 0x80 = 0 then
              UInt16.ofNat (msbLsbAt buffer 2) else 0) := by
          intro hne
          by_cases hid : l ≥ 4 ∧ bufferAt buffer 1 &&& 0x80 = 0
          · rw [if_pos hid, if_pos ⟨hn, hid.2⟩]
          · rw [if_neg hid] at hne
            exact absurd rfl hne
        cases type with
        | publish => exact absurd rfl htype
        | puback => exact hsame h
        | pubrec => exact hsame h
        | pubrel => exact hsame h
        | pubcomp => exact hsame h
        | subscribe => exact hsame h
        | suback => exact hsame h
        | unsubscribe => exact hsame h
        | unsuback => exact hsame h
        | connect => rfl
        | connack => rfl
        | pingreq => rfl
        | pingresp => rfl
        | disconnect => rfl

namespace MqttClient

section Pass

variable {proper short : Prop}

/-! ## A packet that is not a PUBLISH -/

theorem acknowledge_moves (c : MqttClient) {msgType : MqttMessageType}
    {event : UInt16 → MqttEvent} (hplain : ∀ msgId, (event msgId).Plain)
    (hends : ∀ item : OutboxItem, item.msgType = msgType → (event item.msgId).Ends item)
    (htype : mqttGetType c.input.inBuffer ≠ some .publish) :
    Moves proper short c
      (c.acknowledge msgType (mqttGetId c.input.inBuffer c.input.messageLength) event) := by
  unfold acknowledge isValidMqttMsg
  by_cases hcount : c.pendingMsgCount = 0
  · simp only [if_pos hcount]
    exact .refl
  · simp only [if_neg hcount]
    cases hdelete : outboxDelete c.outbox
        (mqttGetId c.input.inBuffer c.input.messageLength) msgType with
    | none => exact .refl
    | some outbox =>
        obtain ⟨i, item, hi, hid, htype', rfl⟩ := outboxDelete_eq_some hdelete
        refine .single (.settle c i item _ hi (hplain _) fun hne hsize => ?_)
        rw [mqttGetId_eq_of_ne htype (hid ▸ hne) hsize, ← hid]
        exact hends item htype'

/-- The switch of `mqtt_process_receive`, but for a PUBLISH. -/
theorem processPacket_moves (c : MqttClient) (during : List MqttCall)
    (htype : mqttGetType c.input.inBuffer ≠ some .publish) :
    Moves proper short c (c.processPacket during).2 := by
  unfold processPacket
  cases ht : mqttGetType c.input.inBuffer with
  | none => exact .refl
  | some type =>
      cases type with
      | publish => exact absurd ht htype
      | suback =>
          exact acknowledge_moves c (fun _ => trivial) (fun item h => ⟨h, rfl⟩) htype
      | unsuback =>
          exact acknowledge_moves c (fun _ => trivial) (fun item h => ⟨h, rfl⟩) htype
      | puback =>
          exact acknowledge_moves c (fun _ => trivial) (fun item h => ⟨h, rfl⟩) htype
      | pubcomp =>
          exact acknowledge_moves c (fun _ => trivial) (fun item h => ⟨h, rfl⟩) htype
      | pubrec =>
          generalize mqttGetId c.input.inBuffer c.input.messageLength = msgId
          have hmakes := mqttMsgId_makes c.connection .pubrel 1 msgId
          by_cases hnil :
              (c.setConnection (mqttMsgPubrel c.connection msgId)).connection.message.data = []
          · simp only [if_pos hnil]
            exact .single (Makes.move hmakes)
          · simp only [if_neg hnil]
            have hmark : Moves proper short c
                { c with outbox := outboxSetPending c.outbox msgId .acknowledged } :=
              outboxSetPending_moves c msgId .acknowledged (by decide)
            have hemit : Emits proper short
                { c with outbox := outboxSetPending c.outbox msgId .acknowledged }
                ({ c with outbox := outboxSetPending c.outbox msgId .acknowledged : MqttClient
                  }.setConnection (mqttMsgPubrel c.connection msgId)).mqttWriteData.2 :=
              Makes.emits hmakes hnil
            exact hmark.tail (.emit hemit)
      | pubrel =>
          generalize mqttGetId c.input.inBuffer c.input.messageLength = msgId
          have hmakes := mqttMsgId_makes c.connection .pubcomp 0 msgId
          by_cases hnil :
              (c.setConnection (mqttMsgPubcomp c.connection msgId)).connection.message.data = []
          · simp only [if_pos hnil]
            exact .single (Makes.move hmakes)
          · simp only [if_neg hnil]
            exact .single (.emit (Makes.emits hmakes hnil))
      | pingresp => exact .note ⟨rfl, rfl, rfl, rfl, rfl, rfl, rfl, rfl⟩
      | connect => exact .refl
      | connack => exact .refl
      | subscribe => exact .refl
      | unsubscribe => exact .refl
      | pingreq => exact .refl
      | disconnect => exact .refl

/-! ## A PUBLISH -/

/-- What has been delivered, and what is left of the transport. -/
def delivered (c : MqttClient) : MqttClient :=
  { c with
    input := { c.input with transport := (deliverPublish c.inBufferSize c.input).2.2 }
    events := c.events ++ (deliverPublish c.inBufferSize c.input).2.1.map MqttEvent.data }

theorem responseTo_makes (c : MqttClient) {msgQos : Nat} {msgId : UInt16}
    (h : msgQos = 1 ∨ msgQos = 2) : Makes c.connection (c.responseTo msgQos msgId) := by
  unfold responseTo
  split
  · exact mqttMsgId_makes c.connection .puback 0 msgId
  · rw [if_pos (by omega)]
    exact mqttMsgId_makes c.connection .pubrec 0 msgId

/-- The switch on a PUBLISH: what has been delivered is followed by the
calls of the callbacks and the answer, when nothing failed. -/
theorem processPacket_publish (c : MqttClient) (during : List MqttCall)
    (htype : mqttGetType c.input.inBuffer = some .publish) :
    Moves (AllProper during) (AllShort c.connection.bufferLength during) c.delivered
        (c.processPacket during).2 ∧
      ((deliverPublish c.inBufferSize c.input).1 ≠ .ok → (c.processPacket during).1 = .fail) := by
  have hcalls := calls_moves c.delivered during
  unfold processPacket
  simp only [htype]
  by_cases herr : (deliverPublish c.inBufferSize c.input).1 ≠ .ok
  · simp only [if_pos herr]
    exact ⟨hcalls, fun _ => trivial⟩
  · simp only [if_neg herr]
    refine ⟨?_, fun hbad => absurd hbad herr⟩
    generalize mqttGetQos c.input.inBuffer = msgQos
    generalize mqttGetId c.input.inBuffer c.input.messageLength = msgId
    generalize hd : c.delivered.calls during = d at hcalls
    have hd' : { c with
        input := { c.input with transport := (deliverPublish c.inBufferSize c.input).2.2 }
        events := c.events ++ (deliverPublish c.inBufferSize c.input).2.1.map MqttEvent.data
        : MqttClient }.calls during = d := hd
    simp only [hd']
    by_cases hq : msgQos = 1 ∨ msgQos = 2
    · have hmakes : Makes d.connection (d.responseTo msgQos msgId) := d.responseTo_makes hq
      simp only [if_pos hq]
      by_cases hnil : (d.setConnection (d.responseTo msgQos msgId)).connection.message.data = []
      · simp only [if_pos hnil]
        exact hcalls.tail (Makes.move hmakes)
      · simp only [if_neg hnil]
        exact hcalls.tail (.emit (Makes.emits hmakes hnil))
    · have hsame : d.responseTo msgQos msgId = d.connection := by
        rw [responseTo, if_neg (fun h => hq (.inl h)), if_neg (fun h => hq (.inr h))]
      simp only [if_neg hq, hsame]
      split
      · exact hcalls
      · exact hcalls

/-! ## The rest of a pass -/

theorem deleteExpiredLoop_pendingMsgCount (k : Nat) (c : MqttClient) :
    (deleteExpiredLoop k c).2.pendingMsgCount = c.pendingMsgCount := by
  induction k generalizing c with
  | zero => rfl
  | succ k ih =>
      unfold deleteExpiredLoop
      dsimp only
      split
      · exact ih _
      · rfl

/-- The loop over the expired items; `count` is what `pending_msg_count`
would be if it were kept up to date. -/
theorem deleteExpiredLoop_moves (k : Nat) (c : MqttClient) (count : Int) :
    Moves proper short { c with pendingMsgCount := count }
      { (deleteExpiredLoop k c).2 with
        pendingMsgCount := count - (deleteExpiredLoop k c).1 } := by
  induction k generalizing c count with
  | zero =>
      simp only [deleteExpiredLoop, sub_zero]
      exact .refl
  | succ k ih =>
      have hread : Moves proper short { c with pendingMsgCount := count }
          { c.platformTickGetMs.2 with pendingMsgCount := count } :=
        .note ⟨rfl, rfl, rfl, rfl, rfl, rfl, rfl, rfl⟩
      obtain hnone | ⟨i, item, hi, hsome⟩ :=
        outboxDeleteSingleExpired_cases c.outbox (c.clock 0) 30000
      · simp only [deleteExpiredLoop, platformTickGetMs, hnone, show ¬ ((-1 : Int) > 0) by decide,
          if_false, sub_zero]
        exact hread
      · simp only [deleteExpiredLoop, platformTickGetMs, hsome]
        by_cases hid : (item.msgId.toNat : Int) > 0
        · simp only [if_pos hid]
          have hfirst := hread.tail (.settle _ i item (.deleted item.msgId.toNat) hi trivial
            fun _ _ => rfl)
          have hmoves := hfirst.trans (ih
            ({ c.platformTickGetMs.2 with outbox := c.outbox.eraseIdx i : MqttClient
              }.dispatch (.deleted item.msgId.toNat)) (count - 1))
          rw [sub_sub, add_comm] at hmoves
          exact hmoves
        · simp only [if_neg hid, sub_zero]
          have hzero : item.msgId = 0 := by
            rw [← UInt16.toNat_inj, UInt16.toNat_zero]
            omega
          exact hread.tail (.drop _ i item hi (.inl hzero))

theorem mqttDeleteExpiredMessages_moves (c : MqttClient) :
    Moves proper short c c.mqttDeleteExpiredMessages := by
  have hloop : Moves proper short { c with pendingMsgCount := c.pendingMsgCount } _ :=
    deleteExpiredLoop_moves (c.outbox.length + 1) c c.pendingMsgCount
  have hmoves := hloop.tail (.clamp _)
  unfold mqttDeleteExpiredMessages
  simp only [deleteExpiredLoop_pendingMsgCount]
  exact hmoves

/-- `mqtt_resend_queued`. -/
theorem mqttResendQueued_moves (c : MqttClient) {i : Nat} {item : OutboxItem}
    (hi : c.outbox[i]? = some item) : Moves proper short c (c.mqttResendQueued i item).2 := by
  generalize hbuffer : (if item.msgType = .publish ∧ item.msgQos > 0 then
    mqttSetDup item.buffer else item.buffer) = buffer
  have hmarked : item.Marked { item with buffer := buffer } := by
    refine ⟨?_, rfl, rfl, rfl, fun hc => hc⟩
    by_cases hdup : item.msgType = .publish ∧ item.msgQos > 0
    · rw [if_pos hdup] at hbuffer
      exact .inr ⟨hdup.1, hdup.2, hbuffer.symm⟩
    · rw [if_neg hdup] at hbuffer
      exact .inl hbuffer.symm
  have hset : Moves proper short c
      { c with outbox := c.outbox.set i { item with buffer := buffer } } :=
    .single (.mark c i item _ hi hmarked)
  have hmark : Moves proper short c
      { c with
        outbox := c.outbox.set i { item with buffer := buffer }
        pendingMsgId := item.msgId
        pendingMsgType := item.msgType
        pendingPublishQos := item.msgQos } :=
    hset.tail (.note ⟨rfl, rfl, rfl, rfl, rfl, rfl, rfl, rfl⟩)
  generalize hd : ({ c with
    outbox := c.outbox.set i { item with buffer := buffer }
    pendingMsgId := item.msgId
    pendingMsgType := item.msgType
    pendingPublishQos := item.msgQos } : MqttClient) = d at hmark
  have hdi : d.outbox[i]? = some { item with buffer := buffer } := by
    rw [← hd]
    exact getElem?_set_of_getElem? hi
  have hconn : d.connection = c.connection := by rw [← hd]
  -- the outbound message is the item's buffer
  have hemit : Emits proper short d
      (d.setConnection { c.connection with message :=
        { c.connection.message with data := buffer } }).mqttWriteData.2 := by
    rw [← hconn]
    refine mqttWriteData_emits rfl fun hsound _ => ⟨⟨?_, ?_⟩, ?_⟩
    · exact hsound.settled.total_eq
    · exact hsound.settled.offset_le
    · exact hsound.isPacket _ (List.mem_of_getElem? hdi)
  unfold mqttResendQueued
  simp only [hbuffer, hd]
  generalize (d.setConnection { c.connection with message :=
    { c.connection.message with data := buffer } }).mqttWriteData = r at hemit
  have hwritten := hmark.tail (.emit hemit)
  obtain ⟨err, e⟩ := r
  dsimp only at hemit hwritten ⊢
  by_cases herr : err ≠ .ok
  · simp only [if_pos herr]
    exact hwritten.tail (.abort _)
  · simp only [if_neg herr]
    by_cases hqos : item.msgType = .publish ∧ item.msgQos = 0
    · simp only [if_pos hqos]
      have hei : e.outbox[i]? = some { item with buffer := buffer } := by
        rw [hemit.same.outbox_eq, hdi]
      exact hwritten.tail (.drop _ i _ hei (.inr (.inl hqos)))
    · simp only [if_neg hqos]
      exact hwritten

theorem platformTickGetMs_moves (c : MqttClient) : Moves proper short c c.platformTickGetMs.2 :=
  .note ⟨rfl, rfl, rfl, rfl, rfl, rfl, rfl, rfl⟩

theorem resend_moves (c : MqttClient) : Moves proper short c c.resend := by
  unfold resend
  split
  · split
    · rename_i item hi
      have hmoves : Moves proper short c (c.mqttResendQueued _ item).2 :=
        mqttResendQueued_moves c hi
      dsimp only
      split
      · exact hmoves.trans (outboxSetPending_moves _ _ .transmitted (by decide))
      · exact hmoves
    · exact .refl
  · have hread : Moves proper short c c.platformTickGetMs.2 := platformTickGetMs_moves c
    dsimp only
    split
    · -- the second reading is kept
      have hnote : Moves proper short c
          { c.platformTickGetMs.2.platformTickGetMs.2 with
            lastRetransmit := c.platformTickGetMs.2.platformTickGetMs.1.toUInt64 } :=
        hread.tail (.note ⟨rfl, rfl, rfl, rfl, rfl, rfl, rfl, rfl⟩)
      split
      · split
        · rename_i item hi
          split
          · exact hnote.trans (mqttResendQueued_moves _ hi)
          · exact hnote
        · exact hnote
      · exact hnote
    · exact hread

theorem keepAlive_moves (c : MqttClient) : Moves proper short c c.keepAlive.2 := by
  have hread : Moves proper short c c.platformTickGetMs.2 := platformTickGetMs_moves c
  unfold keepAlive
  dsimp only
  split
  · split
    · exact hread.tail (.abort _)
    · have hping := hread.trans (espMqttClientPing_moves c.platformTickGetMs.2)
      split
      · exact hping.tail (.abort _)
      · exact hping.tail (.note ⟨rfl, rfl, rfl, rfl, rfl, rfl, rfl, rfl⟩)
  · exact hread

theorem outboxCleanup_moves (c : MqttClient) (maxSize k : Nat) :
    Moves proper short c { c with outbox := outboxCleanup maxSize k c.outbox } := by
  induction k generalizing c with
  | zero => exact .refl
  | succ k ih =>
      unfold outboxCleanup
      split
      · split
        · rename_i i h
          obtain ⟨item, hi, hconfirmed⟩ := getElem?_of_findIdx? h
          have hloose : item.Loose := .inr (.inr (by simpa using hconfirmed))
          exact .head (.drop c i item hi hloose) (ih { c with outbox := c.outbox.eraseIdx i })
        · exact .refl
      · exact .refl

end Pass

/-! ## A connection is made -/

/-- What the attempt to connect leaves as it is, and what it tells of. -/
structure Handshake (c c' : MqttClient) : Prop where
  state_eq : c'.state = c.state
  outbox_eq : c'.outbox = c.outbox
  pendingMsgCount_eq : c'.pendingMsgCount = c.pendingMsgCount
  inBufferSize_eq : c'.inBufferSize = c.inBufferSize
  bufferLength_eq : c'.connection.bufferLength = c.connection.bufferLength
  settled : c.connection.Settled → c'.connection.Settled
  events_eq : ∃ es, c'.events = c.events ++ es ∧ ∀ e ∈ es, e.Plain

theorem Handshake.trans {c d e : MqttClient} (h : Handshake c d) (h' : Handshake d e) :
    Handshake c e where
  state_eq := h'.state_eq.trans h.state_eq
  outbox_eq := h'.outbox_eq.trans h.outbox_eq
  pendingMsgCount_eq := h'.pendingMsgCount_eq.trans h.pendingMsgCount_eq
  inBufferSize_eq := h'.inBufferSize_eq.trans h.inBufferSize_eq
  bufferLength_eq := h'.bufferLength_eq.trans h.bufferLength_eq
  settled := fun hc => h'.settled (h.settled hc)
  events_eq := by
    obtain ⟨es, hes, hplain⟩ := h.events_eq
    obtain ⟨es', hes', hplain'⟩ := h'.events_eq
    refine ⟨es ++ es', by rw [hes', hes, List.append_assoc], fun e he => ?_⟩
    obtain he | he := List.mem_append.mp he
    · exact hplain e he
    · exact hplain' e he

theorem Handshake.dispatch (c : MqttClient) {e : MqttEvent} (he : e.Plain) :
    Handshake c (c.dispatch e) :=
  ⟨rfl, rfl, rfl, rfl, rfl, fun hc => hc, [e], rfl, by simpa using he⟩

theorem Handshake.receive (c : MqttClient) (input : MqttInput) :
    Handshake c { c with input := input } :=
  ⟨rfl, rfl, rfl, rfl, rfl, fun hc => hc, [], by simp, by simp⟩

/-- The wait for the CONNACK. -/
theorem awaitConnack_spec (polls : Nat) (c : MqttClient) :
    Handshake c (c.awaitConnack polls).2 ∧ (c.awaitConnack polls).2.wire = c.wire ∧
      ((c.awaitConnack polls).1 = .ok → (c.awaitConnack polls).2.input.inBuffer = []) := by
  unfold awaitConnack
  dsimp only
  split
  · exact ⟨.receive c _, rfl, fun hbad => by cases hbad⟩
  · rename_i r input _
    by_cases hr : r ≤ 0
    · rw [if_pos hr]
      exact ⟨(Handshake.receive c input).trans (.dispatch _ trivial), rfl,
        fun hbad => by cases hbad⟩
    · rw [if_neg hr]
      split
      · exact ⟨.receive c input, rfl, fun hbad => by cases hbad⟩
      · split
        · exact ⟨.receive c { input with inBuffer := [] }, rfl, fun _ => rfl⟩
        · exact ⟨(Handshake.receive c { input with inBuffer := [] }).trans (.dispatch _ trivial),
            rfl, fun hbad => by cases hbad⟩

/-- The client with its CONNECT ready. -/
def readyToConnect (c : MqttClient) (k : MqttConnection) : MqttClient :=
  { c with
    waitForPingResp := false
    connection := k
    pendingMsgType := .connect
    pendingMsgId := mqttGetId k.message.data k.message.data.length }

theorem espMqttConnect_eq (info : MqttConnectInfo) (polls : Nat) (c : MqttClient) :
    c.espMqttConnect info polls =
      if (mqttMsgConnect c.connection info).message.data = [] then
        (.fail,
          { c with waitForPingResp := false }.setConnection (mqttMsgConnect c.connection info))
      else if ¬ (c.readyToConnect (mqttMsgConnect c.connection info)).write.1 then
        (.fail, (c.readyToConnect (mqttMsgConnect c.connection info)).write.2)
      else (c.readyToConnect (mqttMsgConnect c.connection info)).write.2.awaitConnack polls :=
  rfl

/-- `esp_mqtt_connect`. -/
theorem espMqttConnect_spec (info : MqttConnectInfo) (polls : Nat) (c : MqttClient) :
    Handshake c (c.espMqttConnect info polls).2 ∧
      ((c.espMqttConnect info polls).1 = .ok →
        (c.espMqttConnect info polls).2.input.inBuffer = [] ∧
          (c.connection.Settled →
            ∃ p : Packet, (c.espMqttConnect info polls).2.wire = c.wire ++ p.bytes)) := by
  have hmakes := mqttMsgConnect_makes c.connection info
  rw [espMqttConnect_eq]
  generalize mqttMsgConnect c.connection info = k at hmakes
  by_cases hnil : k.message.data = []
  · rw [if_pos hnil]
    exact ⟨⟨rfl, rfl, rfl, rfl, hmakes.bufferLength_eq, hmakes.settled, [],
      (List.append_nil _).symm, by simp⟩, fun hbad => by cases hbad⟩
  · rw [if_neg hnil]
    have hready : Handshake c (c.readyToConnect k).write.2 :=
      ⟨rfl, rfl, rfl, rfl, hmakes.bufferLength_eq, hmakes.settled, [],
        (List.append_nil _).symm, by simp⟩
    by_cases hsent : (c.readyToConnect k).write.1
    · rw [if_neg (not_not.mpr hsent)]
      obtain ⟨hwait, hwire, hempty⟩ := awaitConnack_spec polls (c.readyToConnect k).write.2
      refine ⟨hready.trans hwait, fun hok => ⟨hempty hok, fun hsettled => ?_⟩⟩
      obtain ⟨p, hp⟩ := hmakes.isPacket hsettled hnil
      refine ⟨p, ?_⟩
      rw [hwire, ← hp]
      show c.wire ++ (espMqttWrite c.results k.message.data).2.1 = _
      rw [(espMqttWrite_spec c.results k.message.data).2 hsent]
    · rw [if_pos hsent]
      exact ⟨hready, fun hbad => by cases hbad⟩

/-! ## The turns -/

/-- A connection is made, or the attempt ends. -/
structure Opens (c c' : MqttClient) : Prop where
  outbox_eq : c'.outbox = c.outbox
  pendingMsgCount_eq : c'.pendingMsgCount = c.pendingMsgCount
  inBufferSize_eq : c'.inBufferSize = c.inBufferSize
  bufferLength_eq : c'.connection.bufferLength = c.connection.bufferLength
  settled : c.connection.Settled → c'.connection.Settled
  events_eq : ∃ es, c'.events = c.events ++ .beforeConnect :: es ∧ ∀ e ∈ es, e.Plain
  connected : c'.state = .connected → c'.input.inBuffer = [] ∧
    (c.connection.Settled → ∃ p : Packet, c'.wire = p.bytes)

/-- What happens in a turn: a move, something comes in, a connection is
made, the client is started again, or the task ends, if the turn is its
last (`last`). -/
inductive Turn (proper short last : Prop) : MqttClient → MqttClient → Prop
  | move {c c' : MqttClient} (h : Move proper short c c') : Turn proper short last c c'
  | receive (c : MqttClient) (input : MqttInput) (ds : List MqttDataEvent) :
      Turn proper short last c
        { c with input := input, events := c.events ++ ds.map MqttEvent.data }
  | opens {c c' : MqttClient} (h : Opens c c') : Turn proper short last c c'
  | start (c : MqttClient) : Turn proper short last c { c with state := .init }
  | ends (c : MqttClient) (h : last) : Turn proper short last c c.taskEnds

abbrev Turns (proper short last : Prop) : MqttClient → MqttClient → Prop :=
  ReflTransGen (Turn proper short last)

section Turns

variable {proper short last : Prop}

theorem Moves.turns {c c' : MqttClient} (h : Moves proper short c c') :
    Turns proper short last c c' :=
  ReflTransGen.mono (fun _ _ => Turn.move) _ _ h

/-- Bytes are read, and nothing is told of. -/
theorem Turn.read (c : MqttClient) (input : MqttInput) :
    Turn proper short last c { c with input := input } := by
  have h : Turn proper short last c
      { c with input := input, events := c.events ++ [].map MqttEvent.data } := .receive c input []
  rwa [List.map_nil, List.append_nil] at h

theorem processPacket_turns (c : MqttClient) (during : List MqttCall) :
    Turns (AllProper during) (AllShort c.connection.bufferLength during) last c
      (c.processPacket during).2 := by
  by_cases htype : mqttGetType c.input.inBuffer = some .publish
  · exact .head (.receive c _ _) (Moves.turns (processPacket_publish c during htype).1)
  · exact Moves.turns (processPacket_moves c during htype)

theorem mqttProcessReceive_turns (c : MqttClient) (during : List MqttCall) :
    Turns (AllProper during) (AllShort c.connection.bufferLength during) last c
      (c.mqttProcessReceive during).2 := by
  have hread : Turns (AllProper during) (AllShort c.connection.bufferLength during) last c
      { c with input := (mqttMessageReceive c.inBufferSize.bytes c.input).2 } :=
    .single (.read c _)
  unfold mqttProcessReceive
  dsimp only
  split
  · exact hread.tail (.move (.tell _ .error trivial))
  · split
    · exact hread
    · have hpacket := hread.trans (processPacket_turns
        { c with input := (mqttMessageReceive c.inBufferSize.bytes c.input).2 } during)
      split
      · exact hpacket
      · exact hpacket.tail (.read _ _)

/-- What comes behind the reading in a pass. -/
def afterReceive (c : MqttClient) : MqttClient :=
  let r := c.mqttDeleteExpiredMessages.resend.keepAlive
  if r.1 then { r.2 with outbox := outboxCleanup (4 * 1024) r.2.outbox.length r.2.outbox } else r.2

theorem afterReceive_moves (c : MqttClient) : Moves proper short c c.afterReceive := by
  have hmoves : Moves proper short c c.mqttDeleteExpiredMessages.resend.keepAlive.2 :=
    ((mqttDeleteExpiredMessages_moves c).trans (resend_moves _)).trans (keepAlive_moves _)
  unfold afterReceive
  dsimp only
  split
  · exact hmoves.trans (outboxCleanup_moves _ _ _)
  · exact hmoves

theorem connectedPass_eq (c : MqttClient) (disconnectBit : Bool) (during : List MqttCall) :
    c.connectedPass disconnectBit during =
      if disconnectBit then c.espMqttAbortConnection
      else if (c.mqttProcessReceive during).1 = .fail then
        (c.mqttProcessReceive during).2.espMqttAbortConnection
      else (c.mqttProcessReceive during).2.afterReceive := by
  unfold connectedPass afterReceive
  dsimp only

theorem connectedPass_turns (c : MqttClient) (disconnectBit : Bool) (during : List MqttCall) :
    Turns (AllProper during) (AllShort c.connection.bufferLength during) last c
      (c.connectedPass disconnectBit during) := by
  rw [connectedPass_eq]
  split
  · exact .single (.move (.abort c))
  · split
    · exact (mqttProcessReceive_turns c during).tail (.move (.abort _))
    · exact (mqttProcessReceive_turns c during).trans (Moves.turns (afterReceive_moves _))

/-- The client before an attempt to connect. -/
def beforeConnect (c : MqttClient) (transport : Feed UInt8) : MqttClient :=
  { c.dispatch .beforeConnect with
    wire := []
    input := { c.input with transport := transport } }

/-- An attempt, and the event it ends with. -/
theorem Handshake.opens {c d e : MqttClient} {transport : Feed UInt8} {event : MqttEvent}
    (h : Handshake (c.beforeConnect transport) d) (hplain : event.Plain)
    (houtbox : e.outbox = d.outbox) (hcount : e.pendingMsgCount = d.pendingMsgCount)
    (hsize : e.inBufferSize = d.inBufferSize) (hk : e.connection = d.connection)
    (hevents : e.events = d.events ++ [event])
    (hconnected : e.state = .connected → e.input.inBuffer = [] ∧
      (c.connection.Settled → ∃ p : Packet, e.wire = p.bytes)) : Opens c e := by
  obtain ⟨es, hes, hes'⟩ := h.events_eq
  refine ⟨houtbox.trans h.outbox_eq, hcount.trans h.pendingMsgCount_eq,
    hsize.trans h.inBufferSize_eq, by rw [hk, h.bufferLength_eq]; rfl,
    fun hc => by rw [hk]; exact h.settled hc, ⟨es ++ [event], ?_, ?_⟩, hconnected⟩
  · rw [hevents, hes]
    simp [beforeConnect, MqttClient.dispatch]
  · intro e' he'
    obtain he' | he' := List.mem_append.mp he'
    · exact hes' e' he'
    · rw [List.mem_singleton.mp he']
      exact hplain

theorem initPass_eq (c : MqttClient) (transportConnects : Bool) (info : MqttConnectInfo)
    (polls : Nat) (topics : List CString) (transport : Feed UInt8) :
    c.initPass transportConnects info polls topics transport =
      if ¬ transportConnects then
        ((c.beforeConnect transport).dispatch .error).espMqttAbortConnection
      else if ((c.beforeConnect transport).espMqttConnect info polls).1 ≠ .ok then
        ((c.beforeConnect transport).espMqttConnect info polls).2.espMqttAbortConnection
      else
        ({ ((c.beforeConnect transport).espMqttConnect info polls).2 with
          state := .connected }.dispatch .connected).calls
          (topics.map fun topic => .subscribe topic 1) :=
  rfl

theorem allProper_subscribe (topics : List CString) :
    AllProper (topics.map fun topic => .subscribe topic 1) := by
  intro call hcall
  obtain ⟨topic, -, rfl⟩ := List.mem_map.mp hcall
  trivial

theorem allShort_subscribe (bufferLength : Nat) (topics : List CString) :
    AllShort bufferLength (topics.map fun topic => .subscribe topic 1) := by
  intro call hcall
  obtain ⟨topic, -, rfl⟩ := List.mem_map.mp hcall
  trivial

theorem initPass_turns (c : MqttClient) (transportConnects : Bool) (info : MqttConnectInfo)
    (polls : Nat) (topics : List CString) (transport : Feed UInt8) :
    Turns proper short last c (c.initPass transportConnects info polls topics transport) := by
  obtain ⟨hshake, hok⟩ := espMqttConnect_spec info polls (c.beforeConnect transport)
  rw [initPass_eq]
  split
  · have herror : Handshake (c.beforeConnect transport)
        ((c.beforeConnect transport).dispatch .error) := .dispatch _ trivial
    have hplain : MqttEvent.disconnected.Plain := trivial
    exact .single (.opens (herror.opens hplain rfl rfl rfl rfl rfl (fun hbad => by cases hbad)))
  · split
    · have hplain : MqttEvent.disconnected.Plain := trivial
      exact .single (.opens (hshake.opens hplain rfl rfl rfl rfl rfl (fun hbad => by cases hbad)))
    · rename_i hconnect
      have hplain : MqttEvent.connected.Plain := trivial
      obtain ⟨hempty, hwire⟩ := hok (not_not.mp hconnect)
      have hopens : Opens c ({ ((c.beforeConnect transport).espMqttConnect info polls).2 with
          state := .connected }.dispatch .connected) :=
        hshake.opens hplain rfl rfl rfl rfl rfl (fun _ => ⟨hempty, hwire⟩)
      have hcalls := calls_moves ({ ((c.beforeConnect transport).espMqttConnect info polls).2 with
        state := .connected }.dispatch .connected) (topics.map fun topic => .subscribe topic 1)
      have hcalls' := hcalls.mono (fun _ : proper => allProper_subscribe topics)
        (fun _ : short => allShort_subscribe _ topics)
      exact .head (.opens hopens) (Moves.turns hcalls')

theorem espMqttClientStop_turns (c : MqttClient) (h : last) :
    Turns proper short last c c.espMqttClientStop := by
  have hmakes := mqttMsgDisconnect_makes c.connection
  unfold espMqttClientStop
  split
  · dsimp only
    split
    · exact .single (.move (Makes.move hmakes))
    · rename_i hnil
      exact .tail (.single (.move (.emit (Makes.emits hmakes hnil)))) (.ends _ h)
  · exact .single (.ends c h)

end Turns

end MqttClient

/-- The calls of a turn. -/
def MqttAct.calls : MqttAct → List MqttCall
  | .call _ c => [c]
  | .pass _ _ during => during
  | .arrive _ | .pollFails | .init .. | .ends | .start | .stop _ => []

def MqttAct.Proper (act : MqttAct) : Prop := MqttClient.AllProper act.calls

def MqttAct.Short (bufferLength : Nat) (act : MqttAct) : Prop :=
  MqttClient.AllShort bufferLength act.calls

/-- It is the last turn of the task. -/
def MqttAct.Last : MqttAct → Prop
  | .ends | .stop _ => True
  | _ => False

namespace MqttClient

theorem inEnv_moves {proper short : Prop} (c : MqttClient) (env : MqttEnv) :
    Moves proper short c (c.inEnv env) :=
  .note ⟨rfl, rfl, rfl, rfl, rfl, rfl, rfl, rfl⟩

/-- **Every step of a run** is made of these. -/
theorem step_turns {c c' : MqttClient} {act : MqttAct} (h : c.step act = some c') :
    Turns act.Proper (act.Short c.connection.bufferLength) act.Last c c' := by
  cases act with
  | call env call =>
      simp only [step, Option.some.injEq] at h
      subst h
      have hcall := call_moves (c.inEnv env) call
      have hcall' := hcall.mono
        (fun hprop : MqttAct.Proper (.call env call) => hprop call (by simp [MqttAct.calls]))
        (fun hshort : MqttAct.Short c.connection.bufferLength (.call env call) =>
          hshort call (by simp [MqttAct.calls]))
      exact Moves.turns ((inEnv_moves c env).trans hcall')
  | arrive piece =>
      simp only [step, Option.some.injEq] at h
      subst h
      exact .single (.read c _)
  | pass env disconnectBit during =>
      simp only [step] at h
      split at h
      · cases h
        exact (Moves.turns (inEnv_moves c env)).trans
          (connectedPass_turns (c.inEnv env) disconnectBit during)
      · cases h
  | pollFails =>
      simp only [step] at h
      split at h
      · cases h
        exact .single (.move (.abort c))
      · cases h
  | init env transportConnects info polls topics transport =>
      simp only [step] at h
      split at h
      · cases h
        exact (Moves.turns (inEnv_moves c env)).trans (initPass_turns _ _ _ _ _ _)
      · cases h
  | ends =>
      simp only [step] at h
      split at h
      · cases h
        exact .single (.ends c trivial)
      · cases h
  | start =>
      simp only [step] at h
      split at h
      · cases h
        have hnote : SameButNotes { c with state := .init }
            { c with state := .init, lastRetransmit := 0 } :=
          ⟨rfl, rfl, rfl, rfl, rfl, rfl, rfl, rfl⟩
        exact .tail (.single (.start c)) (.move (.note hnote))
      · cases h
  | stop env =>
      simp only [step] at h
      split at h
      · cases h
      · cases h
        exact (Moves.turns (inEnv_moves c env)).trans (espMqttClientStop_turns _ trivial)

end MqttClient

end LiveWireSwitch
