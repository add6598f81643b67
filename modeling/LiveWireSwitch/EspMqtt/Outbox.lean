import LiveWireSwitch.EspMqtt.Msg
import LiveWireSwitch.RmakerParam

/-!
# EspMqtt.Outbox — the packets that wait for an answer (`mqtt_outbox.c`)

A queue of copies of packets, the oldest first. A handle is the place of an
item in the queue.
-/

namespace LiveWireSwitch

/-- `pending_state_t` -/
inductive PendingState where
  | queued
  | transmitted
  | acknowledged
  | confirmed
deriving DecidableEq, Repr

/-- `outbox_item_t` -/
structure OutboxItem where
  buffer : List UInt8
  msgId : UInt16
  msgType : MqttMessageType
  msgQos : Nat
  /-- `outbox_tick_t`, a `long long` -/
  tick : Int64
  pending : PendingState
deriving DecidableEq

/-- `outbox_message_t` -/
structure OutboxMessage where
  data : List UInt8
  msgId : UInt16
  msgQos : Nat
  msgType : MqttMessageType
  remainingData : List UInt8

abbrev Outbox := List OutboxItem

/-- `outbox_enqueue`; `alloc` says whether there is memory for the item and
its buffer. -/
def outboxEnqueue (alloc : Bool) (outbox : Outbox) (message : OutboxMessage) (tick : Int64) :
    Outbox :=
  if alloc then
    outbox ++ [{ buffer := message.data ++ message.remainingData
                 msgId := message.msgId
                 msgType := message.msgType
                 msgQos := message.msgQos
                 tick := tick
                 pending := .queued }]
  else outbox

/-- `outbox_get` -/
def outboxGet (outbox : Outbox) (msgId : UInt16) : Option Nat :=
  outbox.findIdx? fun item => item.msgId = msgId

/-- `outbox_dequeue` -/
def outboxDequeue (outbox : Outbox) (pending : PendingState) : Option Nat :=
  outbox.findIdx? fun item => item.pending = pending

/-- `outbox_delete_item` -/
def outboxDeleteItem (outbox : Outbox) (item : Nat) : Outbox := outbox.eraseIdx item

/-- `outbox_delete`, `none` for its `ESP_FAIL` -/
def outboxDelete (outbox : Outbox) (msgId : UInt16) (msgType : MqttMessageType) : Option Outbox :=
  (outbox.findIdx? fun item => item.msgId = msgId ∧ item.msgType = msgType).map outbox.eraseIdx

/-- `outbox_set_pending`; without such an item it fails and nothing
changes. -/
def outboxSetPending (outbox : Outbox) (msgId : UInt16) (pending : PendingState) : Outbox :=
  match outboxGet outbox msgId with
  | some i => outbox.modify i fun item => { item with pending := pending }
  | none => outbox

/-- `outbox_set_tick` -/
def outboxSetTick (outbox : Outbox) (msgId : UInt16) (tick : Int64) : Outbox :=
  match outboxGet outbox msgId with
  | some i => outbox.modify i fun item => { item with tick := tick }
  | none => outbox

/-- `outbox_delete_single_expired`: the id of the item it deletes, −1
without one. -/
def outboxDeleteSingleExpired (outbox : Outbox) (currentTick timeout : Int64) : Int × Outbox :=
  match outbox.findIdx? fun item => decide (currentTick - item.tick > timeout) with
  | some i => ((outbox[i]?.map fun item => (item.msgId.toNat : Int)).getD (-1), outbox.eraseIdx i)
  | none => (-1, outbox)

/-- `outbox_get_size` -/
def outboxGetSize (outbox : Outbox) : Nat := (outbox.map fun item => item.buffer.length).sum

/-- `outbox_cleanup`, item by item; each pass deletes one, so there are no
more passes than items. -/
def outboxCleanup (maxSize : Nat) : Nat → Outbox → Outbox
  | 0, outbox => outbox
  | k + 1, outbox =>
      if outboxGetSize outbox > maxSize then
        match outboxDequeue outbox .confirmed with
        | some i => outboxCleanup maxSize k (outbox.eraseIdx i)
        | none => outbox
      else outbox

/-- `outbox_delete_all_items` -/
def outboxDeleteAllItems : Outbox := []

/-! ## What they do to the queue -/

theorem getElem?_of_findIdx? {outbox : Outbox} {p : OutboxItem → Bool} {i : Nat}
    (h : outbox.findIdx? p = some i) : ∃ item, outbox[i]? = some item ∧ p item = true := by
  obtain ⟨hi, hp, -⟩ := List.findIdx?_eq_some_iff_getElem.mp h
  exact ⟨outbox[i], List.getElem?_eq_getElem hi, hp⟩

theorem modify_of_getElem? {outbox : Outbox} {i : Nat} {item : OutboxItem}
    (h : outbox[i]? = some item) (f : OutboxItem → OutboxItem) :
    outbox.modify i f = outbox.set i (f item) := by
  obtain ⟨hi, hitem⟩ := List.getElem?_eq_some_iff.mp h
  rw [List.modify_eq_take_cons_drop hi, List.set_eq_take_append_cons_drop, if_pos hi, hitem]

/-- One item with the id is changed, or there is none. -/
theorem outboxSetPending_cases (outbox : Outbox) (msgId : UInt16) (pending : PendingState) :
    outboxSetPending outbox msgId pending = outbox ∨
      ∃ i item, outbox[i]? = some item ∧
        outboxSetPending outbox msgId pending = outbox.set i { item with pending := pending } := by
  unfold outboxSetPending
  cases h : outboxGet outbox msgId with
  | none => exact .inl rfl
  | some i =>
      obtain ⟨item, hitem, -⟩ := getElem?_of_findIdx? h
      exact .inr ⟨i, item, hitem, modify_of_getElem? hitem _⟩

theorem outboxSetTick_cases (outbox : Outbox) (msgId : UInt16) (tick : Int64) :
    outboxSetTick outbox msgId tick = outbox ∨
      ∃ i item, outbox[i]? = some item ∧
        outboxSetTick outbox msgId tick = outbox.set i { item with tick := tick } := by
  unfold outboxSetTick
  cases h : outboxGet outbox msgId with
  | none => exact .inl rfl
  | some i =>
      obtain ⟨item, hitem, -⟩ := getElem?_of_findIdx? h
      exact .inr ⟨i, item, hitem, modify_of_getElem? hitem _⟩

theorem outboxDelete_eq_some {outbox outbox' : Outbox} {msgId : UInt16}
    {msgType : MqttMessageType} (h : outboxDelete outbox msgId msgType = some outbox') :
    ∃ i item, outbox[i]? = some item ∧ item.msgId = msgId ∧ item.msgType = msgType ∧
      outbox' = outbox.eraseIdx i := by
  unfold outboxDelete at h
  obtain ⟨i, hi, rfl⟩ := Option.map_eq_some_iff.mp h
  obtain ⟨item, hitem, hp⟩ := getElem?_of_findIdx? hi
  simp only [decide_eq_true_eq] at hp
  exact ⟨i, item, hitem, hp.1, hp.2, rfl⟩

/-- It fails exactly when no item has the id and the type. -/
theorem outboxDelete_eq_none {outbox : Outbox} {msgId : UInt16} {msgType : MqttMessageType} :
    outboxDelete outbox msgId msgType = none ↔
      ∀ item ∈ outbox, ¬ (item.msgId = msgId ∧ item.msgType = msgType) := by
  simp [outboxDelete, List.findIdx?_eq_none_iff]

theorem outboxDeleteSingleExpired_cases (outbox : Outbox) (currentTick timeout : Int64) :
    outboxDeleteSingleExpired outbox currentTick timeout = (-1, outbox) ∨
      ∃ i item, outbox[i]? = some item ∧
        outboxDeleteSingleExpired outbox currentTick timeout =
          ((item.msgId.toNat : Int), outbox.eraseIdx i) := by
  unfold outboxDeleteSingleExpired
  split
  · rename_i i h
    obtain ⟨item, hitem, -⟩ := getElem?_of_findIdx? h
    exact .inr ⟨i, item, hitem, by rw [hitem]; rfl⟩
  · exact .inl rfl

end LiveWireSwitch
