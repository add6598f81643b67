import LiveWireSwitch.EspMqtt.Builders
import Mathlib.Logic.Relation

/-!
# EspMqtt.Moves — what a turn of the client is made of

Every turn is a sequence of a few kinds of moves: bookkeeping, an event, a
packet built or written, and what is done to an item of the outbox. Each
function of the client is taken apart once, here; an invariant is then a
matter of the moves. Two conditions go with a turn, for what only holds
under them: its calls are `proper`, and `short`.
-/

namespace LiveWireSwitch

open Lib Relation MqttConnection

/-! ## The moves -/

/-- An event that says nothing of what was received, nor that a connection
is to be made. -/
def MqttEvent.Plain : MqttEvent → Prop
  | .beforeConnect | .data _ => False
  | _ => True

/-- The event that tells of the end of a packet in the outbox. -/
def MqttEvent.Ends (item : OutboxItem) : MqttEvent → Prop
  | .published msgId => item.msgType = .publish ∧ msgId = item.msgId
  | .subscribed msgId => item.msgType = .subscribe ∧ msgId = item.msgId
  | .unsubscribed msgId => item.msgType = .unsubscribe ∧ msgId = item.msgId
  | .deleted msgId => msgId = item.msgId.toNat
  | _ => False

/-- An item that has been sent again, or marked: it is the same packet, but
for the duplicate flag. -/
structure OutboxItem.Marked (item item' : OutboxItem) : Prop where
  buffer_eq : item'.buffer = item.buffer ∨
    (item.msgType = .publish ∧ 0 < item.msgQos ∧ item'.buffer = mqttSetDup item.buffer)
  msgId_eq : item'.msgId = item.msgId
  msgType_eq : item'.msgType = item.msgType
  msgQos_eq : item'.msgQos = item.msgQos
  confirmed : item'.pending = .confirmed → item.pending = .confirmed

/-- An item that may go without an event: none that the client puts in. -/
def OutboxItem.Loose (item : OutboxItem) : Prop :=
  item.msgId = 0 ∨ (item.msgType = .publish ∧ item.msgQos = 0) ∨ item.pending = .confirmed

namespace MqttClient

/-- The outbound side is in order. -/
structure Sound (c : MqttClient) : Prop where
  settled : c.connection.Settled
  isPacket : ∀ item ∈ c.outbox, IsPacket item.buffer

/-- The client but for its environment, its clocks, flags and the pending
message. -/
structure SameButNotes (c c' : MqttClient) : Prop where
  state_eq : c'.state = c.state
  connection_eq : c'.connection = c.connection
  input_eq : c'.input = c.input
  inBufferSize_eq : c'.inBufferSize = c.inBufferSize
  outbox_eq : c'.outbox = c.outbox
  pendingMsgCount_eq : c'.pendingMsgCount = c.pendingMsgCount
  wire_eq : c'.wire = c.wire
  events_eq : c'.events = c.events

/-- Writing: a whole packet, or an error is told of. -/
structure Emits (proper short : Prop) (c c' : MqttClient) : Prop where
  same : SameButMessage c c'
  ending :
    c'.events = c.events ∧
        (c.Sound → proper → c'.connection.Settled ∧ ∃ p : Packet, c'.wire = c.wire ++ p.bytes) ∨
      c'.events = c.events ++ [.error] ∧ (c.Sound → proper → short → c'.connection.Settled)

inductive Move (proper short : Prop) : MqttClient → MqttClient → Prop
  | note {c c' : MqttClient} (h : SameButNotes c c') : Move proper short c c'
  | tell (c : MqttClient) (e : MqttEvent) (he : e.Plain) : Move proper short c (c.dispatch e)
  | abort (c : MqttClient) : Move proper short c c.espMqttAbortConnection
  | build (c : MqttClient) (k : MqttConnection)
      (hlen : k.bufferLength = c.connection.bufferLength) (h : c.Sound → proper → k.Settled) :
      Move proper short c (c.setConnection k)
  | emit {c c' : MqttClient} (h : Emits proper short c c') : Move proper short c c'
  | enqueue (c : MqttClient) (item : OutboxItem) (stored : Bool) (hid : item.msgId ≠ 0)
      (hqos : item.msgType = .publish → 0 < item.msgQos) (hqueued : item.pending = .queued)
      (h : c.Sound → proper → IsPacket item.buffer) :
      Move proper short c (c.withPending item stored)
  | mark (c : MqttClient) (i : Nat) (item item' : OutboxItem) (hi : c.outbox[i]? = some item)
      (h : item.Marked item') : Move proper short c { c with outbox := c.outbox.set i item' }
  | drop (c : MqttClient) (i : Nat) (item : OutboxItem) (hi : c.outbox[i]? = some item)
      (h : item.Loose) : Move proper short c { c with outbox := c.outbox.eraseIdx i }
  | settle (c : MqttClient) (i : Nat) (item : OutboxItem) (e : MqttEvent)
      (hi : c.outbox[i]? = some item) (he : e.Plain)
      (h : item.msgId ≠ 0 → 4 ≤ c.inBufferSize.bytes → e.Ends item) :
      Move proper short c
        ({ c with
          outbox := c.outbox.eraseIdx i
          pendingMsgCount := c.pendingMsgCount - 1 }.dispatch e)
  /-- the count does not fall below 0 -/
  | clamp (c : MqttClient) :
      Move proper short c { c with pendingMsgCount := max 0 c.pendingMsgCount }

abbrev Moves (proper short : Prop) : MqttClient → MqttClient → Prop :=
  ReflTransGen (Move proper short)

section Basic

variable {proper short : Prop} {c c' : MqttClient}

/-- What holds under two conditions holds under stronger ones. -/
theorem Move.mono {proper' short' : Prop} (hp : proper' → proper) (hs : short' → short)
    (h : Move proper short c c') : Move proper' short' c c' := by
  cases h with
  | note h => exact .note h
  | tell e he => exact .tell _ e he
  | abort => exact .abort _
  | build k hlen h => exact .build _ k hlen fun hsound hprop => h hsound (hp hprop)
  | emit h =>
      refine .emit ⟨h.same, ?_⟩
      obtain ⟨hevents, hall⟩ | ⟨hevents, hall⟩ := h.ending
      · exact .inl ⟨hevents, fun hsound hprop => hall hsound (hp hprop)⟩
      · exact .inr ⟨hevents, fun hsound hprop hshort => hall hsound (hp hprop) (hs hshort)⟩
  | enqueue item stored hid hqos hqueued h =>
      exact .enqueue _ item stored hid hqos hqueued fun hsound hprop => h hsound (hp hprop)
  | mark i item item' hi h => exact .mark _ i item item' hi h
  | drop i item hi h => exact .drop _ i item hi h
  | settle i item e hi he h => exact .settle _ i item e hi he h
  | clamp => exact .clamp _

theorem Moves.mono {proper' short' : Prop} (hp : proper' → proper) (hs : short' → short)
    (h : Moves proper short c c') : Moves proper' short' c c' :=
  ReflTransGen.mono (fun _ _ hmove => hmove.mono hp hs) _ _ h

theorem Moves.note (h : SameButNotes c c') : Moves proper short c c' := .single (.note h)

/-- Reading the clock, and asking for memory. -/
theorem Moves.withEnv (c : MqttClient) (clock : Nat → Int64) (alloc : Nat → Bool) :
    Moves proper short c (c.withEnv clock alloc) :=
  .note ⟨rfl, rfl, rfl, rfl, rfl, rfl, rfl, rfl⟩

/-- Nothing that moves changes the size of the output buffer. -/
theorem Move.bufferLength_eq (h : Move proper short c c') :
    c'.connection.bufferLength = c.connection.bufferLength := by
  cases h with
  | note h => rw [h.connection_eq]
  | build k hlen h => exact hlen
  | emit h => exact h.same.bufferLength_eq
  | _ => rfl

theorem Moves.bufferLength_eq (h : Moves proper short c c') :
    c'.connection.bufferLength = c.connection.bufferLength := by
  induction h with
  | refl => rfl
  | tail _ hmove ih => exact hmove.bufferLength_eq.trans ih

end Basic

/-! ## Writing -/

@[simp] theorem setConnection_connection (c : MqttClient) (k : MqttConnection) :
    (c.setConnection k).connection = k := rfl

section Functions

variable {proper short : Prop}

/-- A packet that is ready goes out in one write. -/
theorem mqttWriteData_emits {c : MqttClient} {k : MqttConnection}
    (hlen : k.bufferLength = c.connection.bufferLength)
    (h : c.Sound → proper → k.Settled ∧ IsPacket k.message.data) :
    Emits proper short c (c.setConnection k).mqttWriteData.2 := by
  obtain ⟨hsame, part, -, hwire, hcases⟩ := mqttWriteData_spec (c.setConnection k)
  have hmessage := hsame.sameButMessage
  refine ⟨⟨hmessage.state_eq, hmessage.input_eq, hmessage.inBufferSize_eq, hmessage.outbox_eq,
    hmessage.pendingMsgCount_eq, hmessage.bufferLength_eq.trans hlen⟩, ?_⟩
  rw [hsame.connection_eq]
  obtain ⟨-, hpart, hevents⟩ | ⟨-, hevents⟩ := hcases
  · refine .inl ⟨hevents, fun hsound hprop => ?_⟩
    obtain ⟨hk, p, hp⟩ := h hsound hprop
    refine ⟨hk, p, ?_⟩
    rw [hwire, hpart, ← hp]
    rfl
  · exact .inr ⟨hevents, fun hsound hprop _ => (h hsound hprop).1⟩

/-- A packet is built and goes out. -/
theorem Makes.emits {c : MqttClient} {k : MqttConnection} (h : Makes c.connection k)
    (hne : k.message.data ≠ []) : Emits proper short c (c.setConnection k).mqttWriteData.2 :=
  mqttWriteData_emits h.bufferLength_eq fun hsound _ =>
    ⟨h.settled hsound.settled, h.isPacket hsound.settled hne⟩

theorem Makes.move {c : MqttClient} {k : MqttConnection} (h : Makes c.connection k) :
    Move proper short c (c.setConnection k) :=
  .build c k h.bufferLength_eq fun hsound _ => h.settled hsound.settled

theorem espMqttClientPing_moves (c : MqttClient) : Moves proper short c c.espMqttClientPing.2 := by
  have h := mqttMsgPingreq_makes c.connection
  unfold espMqttClientPing
  by_cases hne : (mqttMsgPingreq c.connection).message.data = []
  · simp only [if_pos hne]
    exact .single (Makes.move h)
  · simp only [if_neg hne]
    exact .single (.emit (Makes.emits h hne))

/-! ## The outbox -/

theorem outboxSetPending_moves (c : MqttClient) (msgId : UInt16) (pending : PendingState)
    (hp : pending ≠ .confirmed) :
    Moves proper short c { c with outbox := outboxSetPending c.outbox msgId pending } := by
  obtain h | ⟨i, item, hi, h⟩ := outboxSetPending_cases c.outbox msgId pending
  · rw [h]
  · rw [h]
    exact .single (.mark c i item _ hi ⟨.inl rfl, rfl, rfl, rfl, fun hbad => absurd hbad hp⟩)

theorem outboxSetTick_moves (c : MqttClient) (msgId : UInt16) (tick : Int64) :
    Moves proper short c { c with outbox := outboxSetTick c.outbox msgId tick } := by
  obtain h | ⟨i, item, hi, h⟩ := outboxSetTick_cases c.outbox msgId tick
  · rw [h]
  · rw [h]
    exact .single (.mark c i item _ hi ⟨.inl rfl, rfl, rfl, rfl, fun hc => hc⟩)

/-! ## Requests -/

/-- `esp_mqtt_client_subscribe` and `esp_mqtt_client_unsubscribe`, on the
packet they have built. -/
theorem requestOutbound_moves (c : MqttClient) {msgType : MqttMessageType}
    (htype : msgType ≠ .publish) {built : UInt16 × MqttConnection}
    (h : RequestMakes c.connection built) :
    Moves proper short c (c.requestOutbound msgType built).2 := by
  unfold requestOutbound
  by_cases hne : built.2.message.data = []
  · simp only [if_pos hne]
    exact .single (Makes.move h.makes)
  · simp only [if_neg hne]
    -- the item that `mqtt_enqueue` would put in, whether it does or not
    let item : OutboxItem :=
      { buffer := built.2.message.data ++ []
        msgId := built.1
        msgType := msgType
        msgQos := c.pendingPublishQos
        tick := c.clock 0
        pending := .queued }
    have hpacket : c.Sound → proper → IsPacket item.buffer := by
      intro hsound _
      show IsPacket (built.2.message.data ++ [])
      rw [List.append_nil]
      exact h.makes.isPacket hsound.settled hne
    obtain ⟨clock, alloc, stored, hstored⟩ : ∃ clock alloc stored,
        { c.setConnection built.2 with
          pendingMsgId := built.1
          pendingMsgType := msgType
          pendingMsgCount := c.pendingMsgCount + 1 : MqttClient }.mqttEnqueue =
        ((c.withEnv clock alloc).withPending item stored).setConnection built.2 := by
      by_cases hcount : 0 < c.pendingMsgCount + 1
      · exact ⟨fun i => c.clock (i + 1), fun i => c.alloc (i + 1), c.alloc 0,
          by rw [mqttEnqueue_of_pos hcount]; rfl⟩
      · exact ⟨c.clock, c.alloc, false, by rw [mqttEnqueue_of_not_pos hcount]; rfl⟩
    generalize hpending : (c.withEnv clock alloc).withPending item stored = c₁ at hstored
    have henq : Moves proper short c c₁ := by
      rw [← hpending]
      exact (Moves.withEnv c clock alloc).tail
        (.enqueue _ item stored (h.id_ne hne) (fun hbad => absurd hbad htype) rfl
          fun hsound => hpacket ⟨hsound.settled, hsound.isPacket⟩)
    have hmark : Moves proper short c₁
        { c₁ with outbox := outboxSetPending c₁.outbox built.1 .transmitted } :=
      outboxSetPending_moves _ built.1 .transmitted (by decide)
    have hmakes : Makes
        { c₁ with
          outbox := outboxSetPending c₁.outbox built.1 .transmitted : MqttClient }.connection
        built.2 := by
      rw [← hpending]
      exact h.makes
    have hmoves := (henq.trans hmark).tail (.emit (Makes.emits hmakes hne))
    subst hpending
    have hid : (((c.withEnv clock alloc).withPending item stored).setConnection
        built.2).pendingMsgId = built.1 := rfl
    simp only [show (c.setConnection built.2).pendingMsgCount = c.pendingMsgCount from rfl,
      hstored, hid]
    split
    · exact hmoves
    · exact hmoves

end Functions

/-! ## PUBLISH -/

/-- All the writes of a PUBLISH, from the packet that is built. -/
theorem transmit_emits {c₀ : MqttClient} {k built : MqttConnection} {topic : CString}
    {data : Pointer} {len : Int} {qos retain : Nat}
    (hbuilt : (mqttMsgPublish c₀.connection topic data (publishLength data len) qos retain).2 =
      built)
    (hne : built.message.data ≠ []) (hk : SameMessage built k) :
    Emits (ProperPublish topic len qos retain)
      (ShortPublish c₀.connection.bufferLength topic len) c₀
      ((c₀.setConnection k).transmit data len).2 := by
  obtain ⟨hsame, hwrote, hleft⟩ := transmit_spec (c₀.setConnection k) data len
  have hlen : built.bufferLength = c₀.connection.bufferLength := by
    rw [← hbuilt, mqttMsgPublish_bufferLength]
  refine ⟨⟨hsame.state_eq, hsame.input_eq, hsame.inBufferSize_eq, hsame.outbox_eq,
    hsame.pendingMsgCount_eq, ?_⟩, ?_⟩
  · exact hsame.bufferLength_eq.trans (hk.bufferLength_eq.trans hlen)
  · obtain ⟨hsent, hevents, hwire⟩ | ⟨hsent, hevents⟩ := hwrote
    · refine .inl ⟨hevents, fun hsound hprop => ?_⟩
      obtain ⟨m, hn, hargs, -, hm⟩ := hprop.built hbuilt hne
      have hpos := hprop.len_pos
      have hoffset := hsound.settled.offset_le
      constructor
      · obtain ⟨-, hbad⟩ | ⟨htotal, hzero⟩ := hleft
        · rw [hsent] at hbad
          cases hbad
        · exact ⟨htotal, hzero.le⟩
      · have hwhole : (publishLength data len : Int) = len ∨ len ≤ 0 := by omega
        have hbytes := (hm.writes_iff hargs.payload_eq hargs.room hwhole).mpr
          (by split <;> omega)
        refine ⟨m.packet, ?_⟩
        rw [hwire]
        show c₀.wire ++ (k.message.data ++ readAt data
          ((k.message.data.length : Int) - k.message.fragmentedMsgDataOffset)
          (len - ((k.message.data.length : Int) - k.message.fragmentedMsgDataOffset)).toNat) = _
        rw [hk.data_eq, hk.offset_eq, List.append_right_inj]
        exact hbytes
    · refine .inr ⟨hevents, fun hsound hprop hshort => ?_⟩
      obtain ⟨m, hn, hargs, hvar, hm⟩ := hprop.built hbuilt hne
      have hoffset := hsound.settled.offset_le
      obtain ⟨hfrag, -⟩ | ⟨htotal, hzero⟩ := hleft
      · obtain ⟨-, htotal, hdown⟩ | ⟨hlong, -⟩ := hm.fragments_eq
        · refine ⟨hfrag.1.trans ?_, ?_⟩
          · obtain h0 | h0 := hk.total_eq
            · exact h0
            · exact h0.trans htotal
          · rw [hfrag.2]
            show k.message.fragmentedMsgDataOffset ≤ 0
            rw [hk.offset_eq, hdown]
            omega
        · unfold ShortPublish at hshort
          omega
      · exact ⟨htotal, hzero.le⟩

/-- The part of a call in front of its writes: the copy for the outbox. -/
theorem mqttClientEnqueuePriv_moves {c : MqttClient} {topic : CString} {data : Pointer}
    {len : Int} {qos retain : Nat} {built : UInt16 × MqttConnection}
    (hbuilt : mqttMsgPublish c.connection topic data (publishLength data len) qos retain = built)
    (hne : built.2.message.data ≠ []) :
    ∃ c₀ k, c.mqttClientEnqueuePriv topic data (publishLength data len) qos retain =
        (some built.1, c₀.setConnection k) ∧
      SameMessage built.2 k ∧ c₀.connection = c.connection ∧
      Moves (ProperPublish topic len qos retain)
        (ShortPublish c.connection.bufferLength topic len) c c₀ := by
  obtain ⟨clock, alloc, k, stored, hk, -, hpriv⟩ :=
    mqttClientEnqueuePriv_eq (c := c) (hbuilt ▸ hne)
  rw [hbuilt] at hk hpriv
  by_cases hq : qos > 0
  · rw [if_pos hq] at hpriv
    refine ⟨_, k, hpriv, hk, rfl,
      (Moves.withEnv c clock alloc).tail (.enqueue _ _ stored ?_ (fun _ => hq) rfl ?_)⟩
    · have hid := mqttMsgPublish_id_ne hq (hbuilt ▸ hne)
      rwa [hbuilt] at hid
    · intro _ hprop
      obtain ⟨m, -, hargs, -, hm⟩ := hprop.built (congrArg Prod.snd hbuilt) hne
      exact ⟨m.packet, hm.append_remainingData hargs.payload_eq⟩
  · rw [if_neg hq] at hpriv
    exact ⟨c, k, hpriv, hk, rfl, .refl⟩

/-- The call from its writes on. -/
theorem writes_moves {proper short : Prop} {c c₀ : MqttClient} {k : MqttConnection}
    {topic : CString} {data : Pointer} {len : Int} {qos retain : Nat} {id : UInt16}
    (hstate : c.state = .connected)
    (hpriv : c.mqttClientEnqueuePriv topic data (publishLength data len) qos retain =
      (some id, c₀.setConnection k))
    (hemit : Emits proper short c₀ ((c₀.setConnection k).transmit data len).2) :
    Moves proper short c₀ (c.espMqttClientPublish topic data len qos retain).2 := by
  have hwritten : Moves proper short c₀ ((c₀.setConnection k).transmit data len).2 :=
    .single (.emit hemit)
  cases hsent : ((c₀.setConnection k).transmit data len).1 with
  | true =>
      rw [espMqttClientPublish_sent hstate hpriv hsent]
      by_cases hq : qos > 0
      · simp only [if_pos hq]
        exact ((hwritten.trans (outboxSetTick_moves _ id _)).trans
          (outboxSetPending_moves _ id .transmitted (by decide))).trans (Moves.withEnv _ _ _)
      · simp only [if_neg hq]
        exact hwritten
  | false =>
      obtain ⟨k', heq, hlen, hoffset, htotal⟩ := espMqttClientPublish_notSent hstate hpriv hsent
      rw [heq]
      refine (hwritten.tail (.abort _)).tail (.build _ k' hlen fun hsound _ => ⟨?_, ?_⟩)
      · obtain h0 | h0 := htotal
        · exact h0
        · exact h0.trans hsound.settled.total_eq
      · rw [hoffset]
        exact hsound.settled.offset_le

/-- `esp_mqtt_client_publish`. -/
theorem espMqttClientPublish_moves (c : MqttClient) (topic : CString) (data : Pointer) (len : Int)
    (qos retain : Nat) :
    Moves (ProperPublish topic len qos retain) (ShortPublish c.connection.bufferLength topic len) c
      (c.espMqttClientPublish topic data len qos retain).2 := by
  by_cases hstate : c.state = .connected
  · generalize hbuilt : mqttMsgPublish c.connection topic data (publishLength data len) qos
      retain = built
    by_cases hnil : built.2.message.data = []
    · have hpriv : c.mqttClientEnqueuePriv topic data (publishLength data len) qos retain =
          (none, c.setConnection built.2) := by
        unfold mqttClientEnqueuePriv
        simp only [hbuilt]
        rw [if_pos hnil]
      rw [espMqttClientPublish, if_neg (fun hbad => hbad hstate), hpriv]
      refine .single (.build c built.2 ?_ fun hsound hprop => ?_)
      · rw [← hbuilt, mqttMsgPublish_bufferLength]
      · exact hprop.settled (congrArg Prod.snd hbuilt) hnil hsound.settled
    · obtain ⟨c₀, k, hpriv, hk, hconn, hmoves⟩ := mqttClientEnqueuePriv_moves hbuilt hnil
      have hbuilt₀ : (mqttMsgPublish c₀.connection topic data (publishLength data len) qos
          retain).2 = built.2 := by rw [hconn, hbuilt]
      have hemit := transmit_emits hbuilt₀ hnil hk
      rw [hconn] at hemit
      exact hmoves.trans (writes_moves hstate hpriv hemit)
  · rw [espMqttClientPublish, if_pos hstate]

end MqttClient

/-! ## Calls -/

def MqttCall.Proper : MqttCall → Prop
  | .publish topic _ len qos retain => ProperPublish topic len qos retain
  | .subscribe _ _ | .unsubscribe _ => True

def MqttCall.Short (bufferLength : Nat) : MqttCall → Prop
  | .publish topic _ len _ _ => ShortPublish bufferLength topic len
  | .subscribe _ _ | .unsubscribe _ => True

namespace MqttClient

theorem call_moves (c : MqttClient) (call : MqttCall) :
    Moves call.Proper (call.Short c.connection.bufferLength) c (c.call call).2 := by
  cases call with
  | publish topic data len qos retain =>
      exact espMqttClientPublish_moves c topic data len qos retain
  | subscribe topic qos =>
      show Moves _ _ c (c.espMqttClientSubscribe topic qos).2
      unfold espMqttClientSubscribe
      split
      · exact .refl
      · exact requestOutbound_moves c (by decide) (mqttMsgSubscribe_makes c.connection topic qos)
  | unsubscribe topic =>
      show Moves _ _ c (c.espMqttClientUnsubscribe topic).2
      unfold espMqttClientUnsubscribe
      split
      · exact .refl
      · exact requestOutbound_moves c (by decide) (mqttMsgUnsubscribe_makes c.connection topic)

/-- What the calls of a turn are to be. -/
def AllProper (cs : List MqttCall) : Prop := ∀ call ∈ cs, call.Proper

def AllShort (bufferLength : Nat) (cs : List MqttCall) : Prop :=
  ∀ call ∈ cs, call.Short bufferLength

theorem calls_moves (c : MqttClient) (cs : List MqttCall) :
    Moves (AllProper cs) (AllShort c.connection.bufferLength cs) c (c.calls cs) := by
  induction cs generalizing c with
  | nil => exact .refl
  | cons call cs ih =>
      have hfirst := call_moves c call
      have hrest := ih (c.call call).2
      rw [hfirst.bufferLength_eq] at hrest
      have hfirst' : Moves (AllProper (call :: cs))
          (AllShort c.connection.bufferLength (call :: cs)) c (c.call call).2 :=
        hfirst.mono (fun h => h call (by simp)) (fun h => h call (by simp))
      exact hfirst'.trans
        (hrest.mono (fun h d hd => h d (by simp [hd])) (fun h d hd => h d (by simp [hd])))

end MqttClient

end LiveWireSwitch
