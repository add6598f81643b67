import LiveWireSwitch.EspMqtt.Turns
import LiveWireSwitch.Lib.Runs

/-!
# EspMqtt.Kept — no packet in the outbox gets lost in silence

A PUBLISH with QoS 1 or 2 goes into the outbox before it is sent. It stays
there, through failed writes, resends and other packets, until its answer
comes or its time is over, and both are told of. Only the end of the
client's task, after a lost connection or a stop, empties the outbox without
a word.
-/

namespace LiveWireSwitch

open Lib Relation MqttConnection

/-! ## The outbox and the count of what is pending -/

namespace MqttClient

/-- What holds of the outbox in every state a run reaches. -/
structure Tended (c : MqttClient) : Prop where
  /-- an answer to anything in the outbox is waited for -/
  length_le : (c.outbox.length : Int) ≤ c.pendingMsgCount
  not_loose : ∀ item ∈ c.outbox, ¬ item.Loose

theorem Tended.count_nonneg {c : MqttClient} (h : Tended c) : 0 ≤ c.pendingMsgCount := by
  have := h.length_le
  omega

theorem Tended.congr {c c' : MqttClient} (h : Tended c) (houtbox : c'.outbox = c.outbox)
    (hcount : c'.pendingMsgCount = c.pendingMsgCount) : Tended c' := by
  refine ⟨?_, ?_⟩
  · rw [houtbox, hcount]
    exact h.length_le
  · rw [houtbox]
    exact h.not_loose

theorem OutboxItem.Marked.not_loose {item item' : OutboxItem} (h : item.Marked item')
    (hi : ¬ item.Loose) : ¬ item'.Loose := by
  rintro (hid | hqos | hconfirmed)
  · exact hi (.inl (h.msgId_eq ▸ hid))
  · exact hi (.inr (.inl ⟨h.msgType_eq ▸ hqos.1, h.msgQos_eq ▸ hqos.2⟩))
  · exact hi (.inr (.inr (h.confirmed hconfirmed)))

section Tended

variable {proper short last : Prop}

theorem Move.tended {c c' : MqttClient} (hmove : Move proper short c c') (h : Tended c) :
    Tended c' := by
  have hlength := h.length_le
  cases hmove with
  | note hsame => exact h.congr hsame.outbox_eq hsame.pendingMsgCount_eq
  | tell e he => exact h.congr rfl rfl
  | abort => exact h.congr rfl rfl
  | build k hlen hk => exact h.congr rfl rfl
  | emit hemit => exact h.congr hemit.same.outbox_eq hemit.same.pendingMsgCount_eq
  | enqueue item stored hid hqos hqueued hpacket =>
      have hitem : ¬ item.Loose := by
        rintro (h0 | ⟨htype, h0⟩ | hconfirmed)
        · exact hid h0
        · have := hqos htype
          omega
        · rw [hqueued] at hconfirmed
          cases hconfirmed
      cases stored with
      | true =>
          refine ⟨?_, ?_⟩
          · show ((c.outbox ++ [item]).length : Int) ≤ c.pendingMsgCount + 1
            rw [List.length_append, List.length_singleton]
            omega
          · intro other hother
            obtain hother | hother := List.mem_append.mp hother
            · exact h.not_loose other hother
            · rw [List.mem_singleton.mp hother]
              exact hitem
      | false =>
          refine ⟨?_, h.not_loose⟩
          show (c.outbox.length : Int) ≤ c.pendingMsgCount + 1
          omega
  | mark i item item' hi hmarked =>
      refine ⟨?_, ?_⟩
      · show ((c.outbox.set i item').length : Int) ≤ c.pendingMsgCount
        rw [List.length_set]
        exact hlength
      · exact forall_mem_set h.not_loose
          (OutboxItem.Marked.not_loose hmarked (h.not_loose item (List.mem_of_getElem? hi)))
  | drop i item hi hloose =>
      exact absurd hloose (h.not_loose item (List.mem_of_getElem? hi))
  | settle i item e hi he hends =>
      have hi' := (List.getElem?_eq_some_iff.mp hi).1
      refine ⟨?_, ?_⟩
      · show ((c.outbox.eraseIdx i).length : Int) ≤ c.pendingMsgCount - 1
        rw [List.length_eraseIdx_of_lt hi']
        omega
      · exact fun other hother => h.not_loose other (List.mem_of_mem_eraseIdx hother)
  | clamp =>
      refine ⟨?_, h.not_loose⟩
      show (c.outbox.length : Int) ≤ max 0 c.pendingMsgCount
      omega

theorem Turn.tended {c c' : MqttClient} (hturn : Turn proper short last c c') (h : Tended c) :
    Tended c' := by
  cases hturn with
  | move hmove => exact hmove.tended h
  | receive input ds => exact h.congr rfl rfl
  | opens hopens => exact h.congr hopens.outbox_eq hopens.pendingMsgCount_eq
  | start => exact h.congr rfl rfl
  | ends hlast =>
      refine ⟨?_, fun item hitem => by cases hitem⟩
      show ((0 : Nat) : Int) ≤ c.pendingMsgCount
      exact h.count_nonneg

theorem Turns.tended {c c' : MqttClient} (hturns : Turns proper short last c c') (h : Tended c) :
    Tended c' := by
  induction hturns with
  | refl => exact h
  | tail _ hturn ih => exact hturn.tended ih

end Tended

theorem step_tended {c : MqttClient} {act : MqttAct} {c' : MqttClient} (h : Tended c)
    (hstep : c.step act = some c') : Tended c' := (step_turns hstep).tended h

theorem initial_tended (outBufferLength : Nat) (room : mqttMaxFixedHeaderSize ≤ outBufferLength)
    (inBufferSize : InBufferSize) (now : Int64) :
    Tended (initial outBufferLength room inBufferSize now) :=
  ⟨le_rfl, fun item hitem => by cases hitem⟩

theorem run_tended {c c' : MqttClient} {acts : List MqttAct} (h : Tended c)
    (hrun : run step c acts = some c') : Tended c' :=
  run_invariant (fun _ _ _ h hstep => step_tended h hstep) h hrun

/-- Three bytes on the topic "a", with QoS 1. -/
def publishTurn : MqttAct :=
  .call (.steady 0 [100]) (.publish topicA (fun _ => 7) 3 1 0)

/-- **Every answer is taken**: in every state a run reaches, the packet that
an answer is for is found exactly when it is in the outbox. The count that
is tested first never stands in the way. -/
theorem answer_taken_iff {outBufferLength : Nat} {room : mqttMaxFixedHeaderSize ≤ outBufferLength}
    {inBufferSize : InBufferSize} {now : Int64} {acts : List MqttAct} {c : MqttClient}
    (hrun : run step (initial outBufferLength room inBufferSize now) acts = some c)
    (msgType : MqttMessageType) (msgId : UInt16) :
    (c.isValidMqttMsg msgType msgId).1 = true ↔
      ∃ item ∈ c.outbox, item.msgId = msgId ∧ item.msgType = msgType := by
  have h := run_tended (initial_tended outBufferLength room inBufferSize now) hrun
  unfold isValidMqttMsg
  constructor
  · intro hvalid
    by_cases hcount : c.pendingMsgCount = 0
    · rw [if_pos hcount] at hvalid
      cases hvalid
    · rw [if_neg hcount] at hvalid
      cases hdelete : outboxDelete c.outbox msgId msgType with
      | none =>
          rw [hdelete] at hvalid
          cases hvalid
      | some outbox =>
          obtain ⟨i, item, hi, hid, htype, -⟩ := outboxDelete_eq_some hdelete
          exact ⟨item, List.mem_of_getElem? hi, hid, htype⟩
  · rintro ⟨item, hitem, hid, htype⟩
    have hpos : 0 < c.outbox.length := List.length_pos_of_mem hitem
    have hlength := h.length_le
    rw [if_neg (by omega)]
    cases hdelete : outboxDelete c.outbox msgId msgType with
    | none => exact absurd ⟨hid, htype⟩ (outboxDelete_eq_none.mp hdelete item hitem)
    | some outbox => rfl

/-- The answer to a first PUBLISH is. -/
theorem first_answer_taken :
    ∃ c, run step (initial 1024 (by decide) ⟨1460, by decide⟩ 0) [connectTurn, publishTurn] =
        some c ∧
      ∃ item ∈ c.outbox, item.msgId = 1 ∧ item.msgType = .publish := by
  have hrun : ∃ c, run step (initial 1024 (by decide) ⟨1460, by decide⟩ 0)
      [connectTurn, publishTurn] = some c ∧ (c.isValidMqttMsg .publish 1).1 = true :=
    ⟨_, rfl, rfl⟩
  obtain ⟨c, hc, hvalid⟩ := hrun
  exact ⟨c, hc, (answer_taken_iff hc .publish 1).mp hvalid⟩

/-! ## What becomes of an item -/

end MqttClient

/-- The same packet, but for the duplicate flag. -/
structure OutboxItem.SamePacket (item item' : OutboxItem) : Prop where
  buffer_eq : item'.buffer = item.buffer ∨ item'.buffer = mqttSetDup item.buffer
  msgId_eq : item'.msgId = item.msgId
  msgType_eq : item'.msgType = item.msgType

theorem OutboxItem.SamePacket.refl (item : OutboxItem) : item.SamePacket item :=
  ⟨.inl rfl, rfl, rfl⟩

/-- To set the flag twice is to set it once. -/
theorem mqttSetDup_mqttSetDup (bs : List UInt8) : mqttSetDup (mqttSetDup bs) = mqttSetDup bs := by
  cases bs with
  | nil => rfl
  | cons b bs =>
      have h : b ||| 0x08 ||| 0x08 = b ||| 0x08 := by rw [UInt8.or_assoc]; rfl
      rw [mqttSetDup, mqttSetDup, h]

theorem OutboxItem.SamePacket.trans {a b d : OutboxItem} (h : a.SamePacket b)
    (h' : b.SamePacket d) : a.SamePacket d := by
  refine ⟨?_, h'.msgId_eq.trans h.msgId_eq, h'.msgType_eq.trans h.msgType_eq⟩
  obtain hab | hab := h.buffer_eq
  · obtain hbd | hbd := h'.buffer_eq
    · exact .inl (hbd.trans hab)
    · exact .inr (by rw [hbd, hab])
  · obtain hbd | hbd := h'.buffer_eq
    · exact .inr (hbd.trans hab)
    · exact .inr (by rw [hbd, hab, mqttSetDup_mqttSetDup])

theorem OutboxItem.Marked.samePacket {item item' : OutboxItem} (h : item.Marked item') :
    item.SamePacket item' := by
  refine ⟨?_, h.msgId_eq, h.msgType_eq⟩
  obtain hsame | ⟨-, -, hdup⟩ := h.buffer_eq
  · exact .inl hsame
  · exact .inr hdup

/-- Its end is told of by the same event. -/
theorem OutboxItem.SamePacket.ends {item item' : OutboxItem} (h : item.SamePacket item')
    {e : MqttEvent} (he : e.Ends item') : e.Ends item := by
  unfold MqttEvent.Ends at he ⊢
  rw [h.msgId_eq, h.msgType_eq] at he
  exact he

namespace MqttClient

/-- The item is still in the outbox, or an event has told of its end. -/
def Accounted (item : OutboxItem) (c c' : MqttClient) : Prop :=
  ∃ es, c'.events = c.events ++ es ∧
    ((∃ item' ∈ c'.outbox, item.SamePacket item') ∨ ∃ e ∈ es, e.Ends item)

theorem accounted_refl {item : OutboxItem} {c : MqttClient} (h : item ∈ c.outbox) :
    Accounted item c c :=
  ⟨[], (List.append_nil _).symm, .inl ⟨item, h, .refl item⟩⟩

/-- Nothing is done to the outbox. -/
theorem accounted_of_mem {item : OutboxItem} {c c' : MqttClient} {es : List MqttEvent}
    (h : item ∈ c'.outbox) (hes : c'.events = c.events ++ es) : Accounted item c c' :=
  ⟨es, hes, .inl ⟨item, h, .refl item⟩⟩

/-- Nor is anything told of. -/
theorem accounted_of_same {item : OutboxItem} {c c' : MqttClient} (h : item ∈ c'.outbox)
    (hevents : c'.events = c.events) : Accounted item c c' :=
  ⟨[], by rw [hevents, List.append_nil], .inl ⟨item, h, .refl item⟩⟩

section Accounted

variable {proper short last : Prop}

/-- What is not at the place that is deleted stays. -/
theorem mem_eraseIdx_or {outbox : Outbox} {i : Nat} {item other : OutboxItem}
    (hitem : item ∈ outbox) (hi : outbox[i]? = some other) :
    item ∈ outbox.eraseIdx i ∨ item = other := by
  obtain ⟨j, hj⟩ := List.mem_iff_getElem?.mp hitem
  by_cases hji : j = i
  · subst hji
    rw [hi, Option.some.injEq] at hj
    exact .inr hj.symm
  · exact .inl (List.mem_eraseIdx_iff_getElem?.mpr ⟨j, hji, hj⟩)

theorem Move.accounted {c c' : MqttClient} (hmove : Move proper short c c')
    (hsize : 4 ≤ c.inBufferSize.bytes) {item : OutboxItem} (hitem : item ∈ c.outbox)
    (hloose : ¬ item.Loose) : Accounted item c c' := by
  cases hmove with
  | note h => exact accounted_of_same (by rwa [h.outbox_eq]) h.events_eq
  | tell e he => exact accounted_of_mem hitem rfl
  | abort => exact accounted_of_mem hitem rfl
  | build k hlen h => exact accounted_of_same hitem rfl
  | emit h =>
      have hmem : item ∈ c'.outbox := by rwa [h.same.outbox_eq]
      obtain ⟨hes, -⟩ | ⟨hes, -⟩ := h.ending
      · exact accounted_of_same hmem hes
      · exact accounted_of_mem hmem hes
  | enqueue new stored hid hqos hqueued h =>
      refine accounted_of_same ?_ rfl
      cases stored with
      | true => exact List.mem_append_left _ hitem
      | false => exact hitem
  | mark i old new hi h =>
      refine ⟨[], (List.append_nil _).symm, .inl ?_⟩
      obtain ⟨j, hj⟩ := List.mem_iff_getElem?.mp hitem
      by_cases hji : j = i
      · subst hji
        rw [hi, Option.some.injEq] at hj
        subst hj
        exact ⟨new, List.mem_of_getElem? (getElem?_set_of_getElem? hi), h.samePacket⟩
      · refine ⟨item, List.mem_iff_getElem?.mpr ⟨j, ?_⟩, .refl item⟩
        show (c.outbox.set i new)[j]? = some item
        rw [List.getElem?_set_ne (Ne.symm hji), hj]
  | drop i other hi h =>
      obtain hmem | rfl := mem_eraseIdx_or hitem hi
      · exact accounted_of_same hmem rfl
      · exact absurd h hloose
  | settle i other e hi he h =>
      obtain hmem | rfl := mem_eraseIdx_or hitem hi
      · exact accounted_of_mem hmem rfl
      · have hid : item.msgId ≠ 0 := fun hbad => hloose (.inl hbad)
        exact ⟨[e], rfl, .inr ⟨e, by simp, h hid hsize⟩⟩
  | clamp => exact accounted_of_same hitem rfl

theorem Turn.accounted {c c' : MqttClient} (hturn : Turn proper short last c c') (hlast : ¬ last)
    (hsize : 4 ≤ c.inBufferSize.bytes) {item : OutboxItem} (hitem : item ∈ c.outbox)
    (hloose : ¬ item.Loose) : Accounted item c c' := by
  cases hturn with
  | move hmove => exact hmove.accounted hsize hitem hloose
  | receive input ds => exact accounted_of_mem hitem rfl
  | opens h =>
      obtain ⟨es, hes, -⟩ := h.events_eq
      exact accounted_of_mem (by rwa [h.outbox_eq]) hes
  | start => exact accounted_of_same hitem rfl
  | ends h => exact absurd h hlast

theorem Move.inBufferSize_eq {c c' : MqttClient} (h : Move proper short c c') :
    c'.inBufferSize = c.inBufferSize := by
  cases h with
  | note h => exact h.inBufferSize_eq
  | emit h => exact h.same.inBufferSize_eq
  | _ => rfl

theorem Turn.inBufferSize_eq {c c' : MqttClient} (h : Turn proper short last c c') :
    c'.inBufferSize = c.inBufferSize := by
  cases h with
  | move h => exact h.inBufferSize_eq
  | opens h => exact h.inBufferSize_eq
  | _ => rfl

theorem Turns.inBufferSize_eq {c c' : MqttClient} (h : Turns proper short last c c') :
    c'.inBufferSize = c.inBufferSize := by
  induction h with
  | refl => rfl
  | tail _ hturn ih => exact hturn.inBufferSize_eq.trans ih

/-- The events are only added to. -/
theorem Move.events_grow {c c' : MqttClient} (h : Move proper short c c') :
    c.events <+: c'.events := by
  cases h with
  | note h => rw [h.events_eq]
  | tell e he => exact List.prefix_append _ _
  | abort => exact List.prefix_append _ _
  | emit h =>
      obtain ⟨hes, -⟩ | ⟨hes, -⟩ := h.ending
      · rw [hes]
      · exact hes ▸ List.prefix_append _ _
  | settle i item e hi he h => exact List.prefix_append _ _
  | build k hlen h => exact List.prefix_rfl
  | enqueue item stored hid hqos hqueued h => exact List.prefix_rfl
  | mark i item item' hi h => exact List.prefix_rfl
  | drop i item hi h => exact List.prefix_rfl
  | clamp => exact List.prefix_rfl

theorem Moves.events_grow {c c' : MqttClient} (h : Moves proper short c c') :
    c.events <+: c'.events := by
  induction h with
  | refl => exact List.prefix_rfl
  | tail _ hmove ih => exact ih.trans hmove.events_grow

theorem Turn.events_grow {c c' : MqttClient} (h : Turn proper short last c c') :
    c.events <+: c'.events := by
  cases h with
  | move h => exact h.events_grow
  | receive input ds => exact List.prefix_append _ _
  | opens h =>
      obtain ⟨es, hes, -⟩ := h.events_eq
      exact hes ▸ List.prefix_append _ _
  | start => exact List.prefix_rfl
  | ends h => exact List.prefix_rfl

/-- One after the other. -/
theorem Accounted.trans {item : OutboxItem} {c d e : MqttClient} (h : Accounted item c d)
    (h' : ∀ item' ∈ d.outbox, item.SamePacket item' → Accounted item' d e)
    (hevents : d.events <+: e.events) : Accounted item c e := by
  obtain ⟨es, hcd, ⟨item', hitem', hsame⟩ | ⟨ev, hev, hends⟩⟩ := h
  · obtain ⟨es', hde, ⟨item'', hitem'', hsame'⟩ | ⟨ev, hev, hends⟩⟩ := h' item' hitem' hsame
    · exact ⟨es ++ es', by rw [hde, hcd, List.append_assoc],
        .inl ⟨item'', hitem'', hsame.trans hsame'⟩⟩
    · exact ⟨es ++ es', by rw [hde, hcd, List.append_assoc],
        .inr ⟨ev, List.mem_append_right _ hev, hsame.ends hends⟩⟩
  · obtain ⟨es', hde⟩ := hevents
    exact ⟨es ++ es', by rw [← hde, hcd, List.append_assoc],
      .inr ⟨ev, List.mem_append_left _ hev, hends⟩⟩

/-- What a sequence of turns does to an item. -/
theorem Turns.accounted {c c' : MqttClient} (hturns : Turns proper short last c c')
    (hlast : ¬ last) (hsize : 4 ≤ c.inBufferSize.bytes) (h : Tended c) {item : OutboxItem}
    (hitem : item ∈ c.outbox) : Accounted item c c' := by
  induction hturns with
  | refl => exact accounted_refl hitem
  | tail hturns hturn ih =>
      have hsize' := hsize
      rw [← Turns.inBufferSize_eq hturns] at hsize'
      have htended := Turns.tended hturns h
      refine ih.trans (fun item' hitem' _ => ?_) hturn.events_grow
      exact hturn.accounted hlast hsize' hitem' (htended.not_loose item' hitem')

theorem Turns.events_grow {c c' : MqttClient} (hturns : Turns proper short last c c') :
    c.events <+: c'.events := by
  induction hturns with
  | refl => exact List.prefix_rfl
  | tail _ hturn ih => exact ih.trans hturn.events_grow

end Accounted

theorem step_events_grow {c c' : MqttClient} {act : MqttAct} (hstep : c.step act = some c') :
    c.events <+: c'.events := (step_turns hstep).events_grow

theorem run_events_grow {c d : MqttClient} {acts : List MqttAct}
    (hrun : run step c acts = some d) : c.events <+: d.events :=
  run_invariant (I := fun d => c.events <+: d.events)
    (fun _ _ _ h hstep => h.trans (step_events_grow hstep)) List.prefix_rfl hrun

/-- What a run does to an item, as long as the task does not end. -/
theorem run_accounted {c d : MqttClient} {acts : List MqttAct} (h : Tended c)
    (hsize : 4 ≤ c.inBufferSize.bytes) (hlast : ∀ act ∈ acts, ¬ act.Last)
    (hrun : run step c acts = some d) {item : OutboxItem} (hitem : item ∈ c.outbox) :
    Accounted item c d := by
  induction acts generalizing c item with
  | nil =>
      cases hrun
      exact accounted_refl hitem
  | cons act acts ih =>
      obtain ⟨m, hm, hrest⟩ := run_cons_some.mp hrun
      have hturns := step_turns hm
      have hsize' : 4 ≤ m.inBufferSize.bytes := by rwa [hturns.inBufferSize_eq]
      have hfirst := hturns.accounted (hlast act (by simp)) hsize h hitem
      refine hfirst.trans (fun item' hitem' _ => ?_) (run_events_grow hrest)
      exact ih (step_tended h hm) hsize' (fun a ha => hlast a (by simp [ha])) hrest hitem'

/-! ## A PUBLISH -/

end MqttClient

theorem typeByte_or_dup {qos retain : Nat} (hq : qos < 4) (hr : retain ≤ 1) :
    typeByte .publish 0 qos retain ||| 0x08 = typeByte .publish 1 qos retain := by
  have hall : ∀ (q : Fin 4) (r : Fin 2),
      typeByte .publish 0 q r ||| 0x08 = typeByte .publish 1 q r := by decide
  exact hall ⟨qos, hq⟩ ⟨retain, by omega⟩

/-- The flag of the copy that is sent again. -/
def Publication.again (m : Publication) : Publication :=
  { m with dup := 1, dup_le := le_rfl }

theorem Publication.mqttSetDup_bytes {m : Publication} (h : m.dup = 0) :
    mqttSetDup m.bytes = m.again.bytes := by
  have hhead : m.packet.head ||| 0x08 = m.again.packet.head := by
    show typeByte .publish m.dup m.qos m.retain ||| 0x08 = typeByte .publish 1 m.qos m.retain
    have hq := m.qos_lt
    rw [h, typeByte_or_dup (by omega) m.retain_le]
  show (m.packet.head ||| 0x08) :: (m.packet.lens ++ m.packet.body) = m.again.bytes
  rw [hhead]
  rfl

namespace MqttClient

/-- The item of a call with QoS 1 and 2. -/
def publishItem (c : MqttClient) (m : Publication) : OutboxItem where
  buffer := m.bytes
  msgId := m.id
  msgType := .publish
  msgQos := m.qos
  tick := c.clock 0
  pending := .queued

/-- The call puts its packet into the outbox before it writes. -/
theorem espMqttClientPublish_stored {c : MqttClient} {m : Publication} {topic : CString}
    {data : Pointer} {len : Int} {qos retain : Nat} (h : Tended c) (hstate : c.state = .connected)
    (halloc : c.alloc 0 = true)
    (hargs : PublishArgs m c.connection topic data (publishLength data len) qos retain)
    (hq : 0 < qos) :
    ∃ c₁, c.publishItem m ∈ c₁.outbox ∧ c₁.events = c.events ∧
      Moves (ProperPublish topic len qos retain) (ShortPublish c.connection.bufferLength topic len)
        c c₁ ∧
      Moves (ProperPublish topic len qos retain) (ShortPublish c.connection.bufferLength topic len)
        c₁ (c.espMqttClientPublish topic data len qos retain).2 := by
  obtain rfl := hargs.qos_eq
  obtain ⟨hid, hbuilt⟩ := mqttMsgPublish_spec hargs
  have hne := hbuilt.data_ne_nil
  obtain ⟨clock, alloc, k, stored, hk, hstored, hpriv⟩ := mqttClientEnqueuePriv_eq hne
  obtain rfl : stored = true := (hstored h.count_nonneg).trans halloc
  rw [if_pos hq, hid, if_pos hq, hbuilt.append_remainingData hargs.payload_eq] at hpriv
  have hmid : m.id ≠ 0 := by
    rw [hargs.id_eq hq]
    exact nextMessageId_ne_zero _
  refine ⟨(c.withEnv clock alloc).withPending (c.publishItem m) true, ?_, rfl, ?_, ?_⟩
  · exact List.mem_append_right _ (List.mem_singleton.mpr rfl)
  · exact (Moves.withEnv c clock alloc).tail
      (.enqueue _ (c.publishItem m) true hmid (fun _ => hq) rfl fun _ _ => m.packet.isPacket)
  · have hk₀ : ((c.withEnv clock alloc).withPending (c.publishItem m) true).connection =
        c.connection := rfl
    rw [← hk₀]
    exact writes_moves hstate hpriv (transmit_emits rfl hne hk)

/-- What becomes of its item. -/
theorem publishItem_accounted {c d : MqttClient} {m : Publication} {topic : CString}
    {data : Pointer} {len : Int} {qos retain : Nat} {after : List MqttAct} (h : Tended c)
    (hsize : 4 ≤ c.inBufferSize.bytes) (hstate : c.state = .connected) (halloc : c.alloc 0 = true)
    (hargs : PublishArgs m c.connection topic data (publishLength data len) qos retain)
    (hq : 0 < qos) (hlast : ∀ act ∈ after, ¬ act.Last)
    (hafter : run step (c.espMqttClientPublish topic data len qos retain).2 after = some d) :
    Accounted (c.publishItem m) c d := by
  obtain ⟨c₁, hmem, hevents, hstored, hwrites⟩ :=
    espMqttClientPublish_stored h hstate halloc hargs hq
  have hstored' : Turns (ProperPublish topic len qos retain)
      (ShortPublish c.connection.bufferLength topic len) False c c₁ := hstored.turns
  have hwrites' : Turns (ProperPublish topic len qos retain)
      (ShortPublish c.connection.bufferLength topic len) False c₁
      (c.espMqttClientPublish topic data len qos retain).2 := hwrites.turns
  have htended := hstored'.tended h
  have hsize₁ : 4 ≤ c₁.inBufferSize.bytes := by
    rw [hstored'.inBufferSize_eq]
    exact hsize
  have hcall := hwrites'.accounted not_false hsize₁ htended hmem
  have htended' := hwrites'.tended htended
  have hsize' : 4 ≤ (c.espMqttClientPublish topic data len qos retain).2.inBufferSize.bytes := by
    rw [hwrites'.inBufferSize_eq]
    exact hsize₁
  have hall := hcall.trans
    (fun item' hitem' _ => run_accounted htended' hsize' hlast hafter hitem')
    (run_events_grow hafter)
  unfold Accounted at hall ⊢
  rwa [hevents] at hall

/-- **No PUBLISH with QoS 1 or 2 is lost in silence**: in whatever state of
a run it is made while connected and with memory for the copy, and whatever
comes of its writes, after any further run in which the task does not end
its packet is in the outbox, but for the duplicate flag, or an event since
the call has told of its answer or of the end of its time. -/
theorem publication_kept {outBufferLength : Nat}
    {room : mqttMaxFixedHeaderSize ≤ outBufferLength} {inBufferSize : InBufferSize}
    {now : Int64} {before after : List MqttAct} {c d : MqttClient} {env : MqttEnv}
    {m : Publication} {topic : CString} {data : Pointer} {len : Int} {qos retain : Nat}
    (hbefore : run step (initial outBufferLength room inBufferSize now) before = some c)
    (hsize : 4 ≤ inBufferSize.bytes) (hstate : c.state = .connected)
    (halloc : env.alloc 0 = true)
    (hargs : PublishArgs m c.connection topic data (publishLength data len) qos retain)
    (hq : 0 < qos) (hlast : ∀ act ∈ after, ¬ act.Last)
    (hafter : run step c (.call env (.publish topic data len qos retain) :: after) = some d) :
    (∃ item ∈ d.outbox, item.msgId = m.id ∧ item.msgType = .publish ∧
        (item.buffer = m.bytes ∨ item.buffer = m.again.bytes)) ∨
      ∃ e ∈ d.events.drop c.events.length, e = .published m.id ∨ e = .deleted m.id.toNat := by
  have htended := run_tended (initial_tended outBufferLength room inBufferSize now) hbefore
  have hsize₀ : c.inBufferSize = inBufferSize :=
    run_invariant (I := fun c => c.inBufferSize = inBufferSize)
      (fun _ _ _ h hstep => (step_turns hstep).inBufferSize_eq.trans h) rfl hbefore
  obtain ⟨c', hstep, hrest⟩ := run_cons_some.mp hafter
  obtain rfl := Option.some.inj hstep
  have htended' : Tended (c.inEnv env) := htended.congr rfl rfl
  obtain ⟨es, hes, ⟨item, hitem, hsame⟩ | ⟨e, he, hends⟩⟩ :=
    publishItem_accounted (c := c.inEnv env) htended' (hsize₀ ▸ hsize) hstate halloc hargs hq
      hlast hrest
  · left
    refine ⟨item, hitem, hsame.msgId_eq, hsame.msgType_eq, ?_⟩
    rw [← Publication.mqttSetDup_bytes hargs.dup_eq]
    exact hsame.buffer_eq
  · right
    have hes' : d.events = c.events ++ es := hes
    refine ⟨e, ?_, ?_⟩
    · rwa [hes', List.drop_left]
    · cases e with
      | published id => exact .inl (congrArg _ hends.2)
      | deleted id => exact .inr (congrArg _ hends)
      | subscribed id => cases hends.1
      | unsubscribed id => cases hends.1
      | beforeConnect => exact hends.elim
      | error => exact hends.elim
      | connected => exact hends.elim
      | disconnected => exact hends.elim
      | data event => exact hends.elim

/-- A first PUBLISH: its PUBACK comes and is read. -/
theorem first_publication_told :
    ∃ d, run step connectedClient
        [publishTurn, .arrive (some [0x40, 2, 0, 1]), .pass (.steady 9 [100]) false []] = some d ∧
      ∃ e ∈ d.events.drop connectedClient.events.length, e = .published 1 ∨ e = .deleted 1 := by
  have hbefore : run step (initial 1024 (by decide) ⟨1460, by decide⟩ 0) [connectTurn] =
      some connectedClient := rfl
  have hafter : ∃ d, run step connectedClient
      [publishTurn, .arrive (some [0x40, 2, 0, 1]), .pass (.steady 9 [100]) false []] = some d ∧
        d.outbox = [] := ⟨_, rfl, rfl⟩
  obtain ⟨d, hd, hempty⟩ := hafter
  have hargs := (properPublish_topicA (show 1 < 3 by decide)).args (by decide) (fun _ => 7)
    (k := connectedClient.connection) (by decide)
  have hkept := publication_kept hbefore (by decide) rfl rfl hargs (by decide)
    (by simp [MqttAct.Last]) hd
  refine ⟨d, hd, hkept.resolve_left ?_⟩
  rw [hempty]
  rintro ⟨item, hitem, -⟩
  cases hitem

end MqttClient

end LiveWireSwitch
