import LiveWireSwitch.EspMqtt.Client
import LiveWireSwitch.EspMqtt.Resume

/-!
# EspMqtt.Publish — a PUBLISH on the wire and in the outbox

A PUBLISH that does not fit into the output buffer leaves in several
writes. The receiver is not to see it: what a call puts on the connection
is one packet, and the copy in the outbox is the same packet. The loop
tells how much data a write took from an offset that all packets share,
and that is where it can go wrong.
-/

namespace LiveWireSwitch

open Lib

/-! ## Memory -/

theorem length_readAt (p : Pointer) (offset : Int) (n : Nat) :
    (readAt p offset n).length = n := by
  simp [readAt]

theorem readAt_add (p : Pointer) (offset : Int) (a b : Nat) :
    readAt p offset (a + b) = readAt p offset a ++ readAt p (offset + a) b := by
  simp only [readAt, List.range_add, List.map_append, List.map_map]
  congr 1
  apply List.map_congr_left
  intro i _
  simp only [Function.comp_apply]
  congr 1
  push_cast
  ring

/-! ## The packet that is built -/

/-- What a call of `mqtt_msg_publish` is to say. -/
structure PublishArgs (m : Publication) (connection : MqttConnection) (topic : CString)
    (data : Pointer) (dataLength qos retain : Nat) : Prop where
  topic_eq : m.topic = topic.bytes
  payload_eq : m.payload = readAt data 0 dataLength
  dup_eq : m.dup = 0
  qos_eq : m.qos = qos
  retain_eq : m.retain = retain
  id_eq : 0 < qos → m.id = nextMessageId connection.lastMessageId
  /-- the header fits -/
  room : mqttMaxFixedHeaderSize + m.varHeader.length ≤ connection.bufferLength

theorem nextMessageId_ne_zero (last : UInt16) : nextMessageId last ≠ 0 := by
  unfold nextMessageId
  split
  · rename_i h
    rw [h]
    decide
  · assumption

/-- A PUBLISH within the limits of MQTT, whose length is given. -/
structure ProperPublish (topic : CString) (len : Int) (qos retain : Nat) : Prop where
  topic_lt : topic.bytes.length < 2 ^ 16
  len_pos : 0 < len
  len_lt : len < 2 ^ 27
  qos_lt : qos < 3
  retain_le : retain ≤ 1

/-- What such a call is to say. -/
def ProperPublish.publication {topic : CString} {len : Int} {qos retain : Nat}
    (h : ProperPublish topic len qos retain) (htopic : topic.bytes ≠ []) (data : Pointer)
    (id : UInt16) : Publication where
  topic := topic.bytes
  payload := readAt data 0 len.toNat
  dup := 0
  qos := qos
  retain := retain
  id := id
  topic_ne := htopic
  topic_short := h.topic_lt
  dup_le := by decide
  qos_lt := h.qos_lt
  retain_le := h.retain_le
  short := by
    have := h.topic_lt
    have := h.len_lt
    rw [length_readAt]
    omega

theorem ProperPublish.length_varHeader {topic : CString} {len : Int} {qos retain : Nat}
    (h : ProperPublish topic len qos retain) (htopic : topic.bytes ≠ []) (data : Pointer)
    (id : UInt16) :
    (h.publication htopic data id).varHeader.length =
      topic.bytes.length + 2 + if qos > 0 then 2 else 0 := by
  have hid := (h.publication htopic data id).length_idBytes
  simp only [Publication.varHeader, List.length_append, length_msbLsb, hid]
  show 2 + topic.bytes.length + (if qos > 0 then 2 else 0) = _
  omega

theorem ProperPublish.args {topic : CString} {len : Int} {qos retain : Nat}
    (h : ProperPublish topic len qos retain) (htopic : topic.bytes ≠ []) (data : Pointer)
    {k : MqttConnection}
    (hroom : topic.bytes.length + 7 + (if qos > 0 then 2 else 0) ≤ k.bufferLength) :
    PublishArgs (h.publication htopic data (nextMessageId k.lastMessageId)) k topic data len.toNat
      qos retain where
  topic_eq := rfl
  payload_eq := rfl
  dup_eq := rfl
  qos_eq := rfl
  retain_eq := rfl
  id_eq := fun _ => rfl
  room := by
    rw [h.length_varHeader, mqttMaxFixedHeaderSize]
    omega

/-- What `fini_message` does for a PUBLISH whose length it knows. -/
theorem finiMessage_publish {m : Publication} {d : MqttDraft} (rest : List UInt8)
    (hbody : d.body = m.varHeader ++ rest) (hdup : m.dup = 0)
    (htotal : (if d.connection.message.fragmentedMsgTotalLength ≠ 0 then
      d.connection.message.fragmentedMsgTotalLength - mqttMaxFixedHeaderSize
      else d.body.length) = m.packet.body.length) :
    finiMessage d .publish 0 m.qos m.retain =
      { d.connection with message :=
        { d.connection.message with
          data := m.header ++ rest
          fragmentedMsgDataOffset :=
            d.connection.message.fragmentedMsgDataOffset - (5 - m.packet.fixedLen : Nat) } } := by
  have hlens := m.packet.lens_length_le
  have hpos := m.packet.lens_length_pos
  have hhead : typeByte .publish 0 m.qos m.retain = m.packet.head := by
    rw [← hdup]
    rfl
  have hoff : mqttMaxFixedHeaderSize - 1 - m.packet.lens.length = 5 - m.packet.fixedLen := by
    simp only [Packet.fixedLen, mqttMaxFixedHeaderSize]
    omega
  have hfits : ¬ m.packet.lens.length + 1 > mqttMaxFixedHeaderSize := by
    simp only [mqttMaxFixedHeaderSize]
    omega
  unfold finiMessage
  simp only [htotal]
  rw [show VarInt.encode 4 m.packet.body.length = m.packet.lens from rfl, if_neg hfits, hbody,
    hhead, hoff]
  simp [Publication.header]

/-- The connection after `mqtt_msg_publish`. -/
structure Built (m : Publication) (before after : MqttConnection) (data : Pointer)
    (dataLength : Nat) : Prop where
  bufferLength_eq : after.bufferLength = before.bufferLength
  data_eq : after.message.data = m.header ++
    readAt data 0 (min dataLength (before.bufferLength - (5 + m.varHeader.length)))
  /-- all of it, or the beginning -/
  fragments_eq :
    (5 + m.varHeader.length + dataLength ≤ before.bufferLength ∧
      after.message.fragmentedMsgTotalLength = 0 ∧
      after.message.fragmentedMsgDataOffset =
        before.message.fragmentedMsgDataOffset - (5 - m.packet.fixedLen : Nat)) ∨
    (before.bufferLength < 5 + m.varHeader.length + dataLength ∧
      after.message.fragmentedMsgTotalLength ≠ 0 ∧
      after.message.fragmentedMsgDataOffset = m.header.length)

theorem appendString_of_room {d : MqttDraft} {string : List UInt8}
    (h : d.length + string.length + 2 ≤ d.connection.bufferLength) :
    appendString d string = some (d.append (msbLsb string.length ++ string)) := by
  rw [appendString, if_neg (by omega)]

/-- A fresh id is put in, and is used up. -/
theorem appendMessageId_of_room {d : MqttDraft}
    (h : d.length + 2 ≤ d.connection.bufferLength) :
    appendMessageId d 0 =
      (nextMessageId d.connection.lastMessageId,
        { connection :=
            { d.connection with lastMessageId := nextMessageId d.connection.lastMessageId }
          body := d.body ++ msbLsb (nextMessageId d.connection.lastMessageId).toNat }) := by
  unfold appendMessageId
  simp only [if_true]
  rw [if_neg]
  · rfl
  · simp only [MqttDraft.length] at h ⊢
    omega

/-- The draft in front of the payload. -/
structure HeaderDrafted (m : Publication) (connection : MqttConnection) (d : MqttDraft) :
    Prop where
  body_eq : d.body = m.varHeader
  message_eq : d.connection.message = connection.message
  bufferLength_eq : d.connection.bufferLength = connection.bufferLength

/-- The last part of `mqtt_msg_publish`, which puts the payload in or begins
with it. -/
theorem built_of_headerDrafted {m : Publication} (connection : MqttConnection) {d : MqttDraft}
    (hd : HeaderDrafted m connection d) (hdup : m.dup = 0) {data : Pointer} {dataLength : Nat}
    (hpayload : m.payload = readAt data 0 dataLength)
    (hroom : 5 + m.varHeader.length ≤ connection.bufferLength) :
    Built m connection
      (finiMessage
        (if d.length + dataLength > d.connection.bufferLength then
          { d with
            connection := { d.connection with message :=
              { d.connection.message with
                fragmentedMsgDataOffset := d.length
                fragmentedMsgTotalLength := dataLength + d.length } }
            body := d.body ++ readAt data 0 (d.connection.bufferLength - d.length) }
        else
          { d with
            connection := { d.connection with message :=
              { d.connection.message with fragmentedMsgTotalLength := 0 } }
            body := d.body ++ readAt data 0 dataLength })
        .publish 0 m.qos m.retain) data dataLength := by
  have hlength : d.length = 5 + m.varHeader.length := by
    rw [MqttDraft.length, hd.body_eq]
    rfl
  have hpacket : m.packet.body.length = m.varHeader.length + dataLength := by
    show (m.varHeader ++ m.payload).length = _
    rw [List.length_append, hpayload, length_readAt]
  have hheader : m.header.length = m.packet.fixedLen + m.varHeader.length := by
    simp only [Publication.header, Packet.fixedLen, List.length_cons, List.length_append]
    omega
  have hfixed := m.packet.fixedLen_le
  rw [hlength, hd.bufferLength_eq]
  by_cases hfits : 5 + m.varHeader.length + dataLength > connection.bufferLength
  · rw [if_pos hfits, finiMessage_publish (m := m)
      (readAt data 0 (connection.bufferLength - (5 + m.varHeader.length)))
      (by rw [hd.body_eq]) hdup]
    · refine ⟨hd.bufferLength_eq, ?_, .inr ⟨by omega, ?_, ?_⟩⟩
      · show m.header ++ _ = _
        rw [show min dataLength (connection.bufferLength - (5 + m.varHeader.length)) =
          connection.bufferLength - (5 + m.varHeader.length) by omega]
      · show dataLength + (5 + m.varHeader.length) ≠ 0
        omega
      · show ((5 + m.varHeader.length : Nat) : Int) - _ = _
        omega
    · show (if dataLength + (5 + m.varHeader.length) ≠ 0 then
        dataLength + (5 + m.varHeader.length) - mqttMaxFixedHeaderSize else _) = _
      rw [if_pos (by omega), mqttMaxFixedHeaderSize, hpacket]
      omega
  · rw [if_neg hfits, finiMessage_publish (m := m) (readAt data 0 dataLength)
      (by rw [hd.body_eq]) hdup]
    · refine ⟨hd.bufferLength_eq, ?_, .inl ⟨by omega, rfl, ?_⟩⟩
      · show m.header ++ _ = _
        rw [show min dataLength (connection.bufferLength - (5 + m.varHeader.length)) =
          dataLength by omega]
      · rw [← hd.message_eq]
    · show (if 0 ≠ 0 then _ else (d.body ++ readAt data 0 dataLength).length) = _
      rw [if_neg (by decide), List.length_append, hd.body_eq, length_readAt, hpacket]

/-- **The packet that is built**, whole or begun. -/
theorem mqttMsgPublish_spec {m : Publication} {connection : MqttConnection} {topic : CString}
    {data : Pointer} {dataLength qos retain : Nat}
    (h : PublishArgs m connection topic data dataLength qos retain) :
    (mqttMsgPublish connection topic data dataLength qos retain).1 =
        (if qos > 0 then m.id else 0) ∧
      Built m connection (mqttMsgPublish connection topic data dataLength qos retain).2 data
        dataLength := by
  have htopic : topic.bytes ≠ [] := h.topic_eq ▸ m.topic_ne
  have hroom : 5 + m.varHeader.length ≤ connection.bufferLength := h.room
  have hvar : m.varHeader = msbLsb topic.bytes.length ++ topic.bytes ++ m.idBytes := by
    rw [Publication.varHeader, h.topic_eq]
  have hlen : m.varHeader.length = 2 + topic.bytes.length + m.idBytes.length := by
    rw [hvar, List.length_append, List.length_append, length_msbLsb]
  have hstring : appendString (initMessage connection) topic.bytes =
      some ((initMessage connection).append (msbLsb topic.bytes.length ++ topic.bytes)) :=
    appendString_of_room (by
      show 5 + 0 + _ + 2 ≤ connection.bufferLength
      omega)
  obtain rfl := h.qos_eq
  obtain rfl := h.retain_eq
  unfold mqttMsgPublish
  rw [if_neg htopic, hstring]
  dsimp only
  by_cases hq : m.qos > 0
  · have hid : m.idBytes = msbLsb m.id.toNat := if_pos hq
    have hid2 : m.idBytes.length = 2 := by rw [hid, length_msbLsb]
    have happend := appendMessageId_of_room
      (d := (initMessage connection).append (msbLsb topic.bytes.length ++ topic.bytes)) (by
        show 5 + (msbLsb topic.bytes.length ++ topic.bytes).length + 2 ≤
          connection.bufferLength
        rw [List.length_append, length_msbLsb]
        omega)
    rw [if_pos hq, happend]
    dsimp only
    rw [if_neg (fun hbad => nextMessageId_ne_zero _ hbad.2), if_pos hq]
    refine ⟨(h.id_eq hq).symm, ?_⟩
    refine built_of_headerDrafted connection ⟨?_, rfl, rfl⟩ h.dup_eq h.payload_eq
      hroom
    rw [hvar, hid, h.id_eq hq]
    rfl
  · have hid : m.idBytes = [] := if_neg hq
    simp only [if_neg hq]
    rw [if_neg (fun hbad => hq hbad.1)]
    refine ⟨rfl, ?_⟩
    refine built_of_headerDrafted connection ⟨?_, rfl, rfl⟩ h.dup_eq h.payload_eq
      hroom
    rw [hvar, hid, List.append_nil]
    rfl

theorem Built.data_ne_nil {m : Publication} {before after : MqttConnection} {data : Pointer}
    {n : Nat} (h : Built m before after data n) : after.message.data ≠ [] := by
  rw [h.data_eq]
  simp [Publication.header]

/-- The data that is in the buffer, and the packet it is the beginning of. -/
theorem Built.append_rest {m : Publication} {before after : MqttConnection} {data : Pointer}
    {n : Nat} (h : Built m before after data n) (hpayload : m.payload = readAt data 0 n) :
    after.message.data ++
      readAt data (min n (before.bufferLength - (5 + m.varHeader.length)) : Nat)
        (n - min n (before.bufferLength - (5 + m.varHeader.length))) = m.bytes := by
  rw [h.data_eq, m.bytes_eq, hpayload, List.append_assoc]
  congr 1
  have hn : n = min n (before.bufferLength - (5 + m.varHeader.length)) +
      (n - min n (before.bufferLength - (5 + m.varHeader.length))) := by omega
  conv_rhs => rw [hn, readAt_add]
  rw [Int.zero_add]

theorem Built.length_data {m : Publication} {before after : MqttConnection} {data : Pointer}
    {n : Nat} (h : Built m before after data n) :
    after.message.data.length =
      m.header.length + min n (before.bufferLength - (5 + m.varHeader.length)) := by
  rw [h.data_eq, List.length_append, length_readAt]

/-- The data that is not in the buffer, as `mqtt_client_enqueue_priv` hands
it on. -/
def remainingData (connection : MqttConnection) (data : Pointer) (n : Nat) : List UInt8 :=
  if connection.message.fragmentedMsgTotalLength = 0 then []
  else
    let firstFragment :=
      (connection.message.data.length : Int) - connection.message.fragmentedMsgDataOffset
    readAt data firstFragment ((n : Int) - firstFragment).toNat

/-- **The copy is the packet**, also of one that is only begun. -/
theorem Built.append_remainingData {m : Publication} {before after : MqttConnection}
    {data : Pointer} {n : Nat} (h : Built m before after data n)
    (hpayload : m.payload = readAt data 0 n) :
    after.message.data ++ remainingData after data n = m.bytes := by
  have hrest := h.append_rest hpayload
  have hlen := h.length_data
  obtain ⟨hfits, htotal, -⟩ | ⟨-, htotal, hoffset⟩ := h.fragments_eq
  · have hnone : n - min n (before.bufferLength - (5 + m.varHeader.length)) = 0 := by omega
    rw [hnone] at hrest
    rw [remainingData, if_pos htotal]
    exact hrest
  · have hfirst : (after.message.data.length : Int) - after.message.fragmentedMsgDataOffset =
        (min n (before.bufferLength - (5 + m.varHeader.length)) : Nat) := by
      rw [hlen, hoffset]
      omega
    have hleft : ((n : Int) -
        (min n (before.bufferLength - (5 + m.varHeader.length)) : Nat)).toNat =
        n - min n (before.bufferLength - (5 + m.varHeader.length)) := by omega
    rw [remainingData, if_neg htotal]
    simp only [hfirst, hleft]
    exact hrest

theorem readAt_inj {p : Pointer} {offset : Int} {a b : Nat} :
    readAt p offset a = readAt p offset b ↔ a = b := by
  constructor
  · intro h
    have hlen := congrArg List.length h
    rwa [length_readAt, length_readAt] at hlen
  · rintro rfl
    rfl

/-- The data a call writes behind the buffer, by what it takes for already
sent, and when this makes the packet. -/
theorem Built.writes_iff {m : Publication} {before after : MqttConnection} {data : Pointer}
    {n : Nat} (h : Built m before after data n) (hpayload : m.payload = readAt data 0 n)
    (hroom : 5 + m.varHeader.length ≤ before.bufferLength) {len : Int}
    (hlen : (n : Int) = len ∨ len ≤ 0) :
    after.message.data ++ readAt data
        (after.message.data.length - after.message.fragmentedMsgDataOffset)
        (len - (after.message.data.length - after.message.fragmentedMsgDataOffset)).toNat =
      m.bytes ↔
      if 5 + m.varHeader.length + n ≤ before.bufferLength then
        len + before.message.fragmentedMsgDataOffset ≤ n + (5 + m.varHeader.length : Nat)
      else 0 < len := by
  have hdata := h.length_data
  have hheader : m.header.length = m.packet.fixedLen + m.varHeader.length := by
    simp only [Publication.header, Packet.fixedLen, List.length_cons, List.length_append]
    omega
  have hfixed := m.packet.fixedLen_le
  -- what is written behind the buffer, against what is left of the packet
  rw [← h.append_rest hpayload, List.append_right_inj]
  obtain ⟨hfits, -, hoffset⟩ | ⟨hfrag, -, hoffset⟩ := h.fragments_eq
  · have hnone : n - min n (before.bufferLength - (5 + m.varHeader.length)) = 0 := by omega
    have hnil : ∀ {a b : Int} {k : Nat}, readAt data a k = readAt data b 0 ↔ k = 0 := by
      intro a b k
      rw [show readAt data b 0 = [] from rfl, ← List.length_eq_zero_iff, length_readAt]
    rw [if_pos hfits, hnone, hnil, hdata, hoffset]
    omega
  · have hsent : (after.message.data.length : Int) - after.message.fragmentedMsgDataOffset =
        (min n (before.bufferLength - (5 + m.varHeader.length)) : Nat) := by
      rw [hdata, hoffset]
      omega
    rw [if_neg (by omega), hsent, readAt_inj]
    omega

/-! ## Writing -/

/-- All of the data is written, or a part that it begins with. -/
theorem espMqttWrite_spec (results : List Int) (data : List UInt8) :
    (espMqttWrite results data).2.1 <+: data ∧
      ((espMqttWrite results data).1 = true → (espMqttWrite results data).2.1 = data) := by
  induction results generalizing data with
  | nil => cases data <;> simp [espMqttWrite]
  | cons w results ih =>
      cases data with
      | nil => simp [espMqttWrite]
      | cons b bs =>
          unfold espMqttWrite
          by_cases hw : w ≤ 0
          · simp [hw]
          · obtain ⟨hpre, hall⟩ := ih ((b :: bs).drop w.toNat)
            simp only [if_neg hw]
            constructor
            · calc (b :: bs).take w.toNat ++ (espMqttWrite results ((b :: bs).drop w.toNat)).2.1
                  <+: (b :: bs).take w.toNat ++ (b :: bs).drop w.toNat :=
                    (List.prefix_append_right_inj _).mpr hpre
                _ = b :: bs := List.take_append_drop _ _
            · intro hsent
              rw [hall hsent, List.take_append_drop]

namespace MqttClient

/-- What a write leaves as it is. -/
structure SameButWire (c c' : MqttClient) : Prop where
  state_eq : c'.state = c.state
  connection_eq : c'.connection = c.connection
  input_eq : c'.input = c.input
  inBufferSize_eq : c'.inBufferSize = c.inBufferSize
  outbox_eq : c'.outbox = c.outbox
  pendingMsgId_eq : c'.pendingMsgId = c.pendingMsgId
  pendingMsgCount_eq : c'.pendingMsgCount = c.pendingMsgCount

theorem SameButWire.trans {c d e : MqttClient} (h : SameButWire c d) (h' : SameButWire d e) :
    SameButWire c e where
  state_eq := h'.state_eq.trans h.state_eq
  connection_eq := h'.connection_eq.trans h.connection_eq
  input_eq := h'.input_eq.trans h.input_eq
  inBufferSize_eq := h'.inBufferSize_eq.trans h.inBufferSize_eq
  outbox_eq := h'.outbox_eq.trans h.outbox_eq
  pendingMsgId_eq := h'.pendingMsgId_eq.trans h.pendingMsgId_eq
  pendingMsgCount_eq := h'.pendingMsgCount_eq.trans h.pendingMsgCount_eq

/-- **One write.** -/
theorem mqttWriteData_spec (c : MqttClient) :
    SameButWire c c.mqttWriteData.2 ∧
      ∃ part, part <+: c.connection.message.data ∧
        c.mqttWriteData.2.wire = c.wire ++ part ∧
        (c.mqttWriteData.1 = .ok ∧ part = c.connection.message.data ∧
            c.mqttWriteData.2.events = c.events ∨
          c.mqttWriteData.1 = .fail ∧ c.mqttWriteData.2.events = c.events ++ [.error]) := by
  obtain ⟨hpre, hall⟩ := espMqttWrite_spec c.results c.connection.message.data
  unfold mqttWriteData write
  by_cases hsent : (espMqttWrite c.results c.connection.message.data).1 = true
  · simp only [hsent, if_true]
    exact ⟨⟨rfl, rfl, rfl, rfl, rfl, rfl, rfl⟩, _, hpre, rfl,
      .inl ⟨trivial, hall hsent, rfl⟩⟩
  · simp only [hsent]
    exact ⟨⟨rfl, rfl, rfl, rfl, rfl, rfl, rfl⟩, _, hpre, rfl, .inr ⟨rfl, rfl⟩⟩

/-- What the writes of a call leave as it is. -/
structure SameButMessage (c c' : MqttClient) : Prop where
  state_eq : c'.state = c.state
  input_eq : c'.input = c.input
  inBufferSize_eq : c'.inBufferSize = c.inBufferSize
  outbox_eq : c'.outbox = c.outbox
  pendingMsgCount_eq : c'.pendingMsgCount = c.pendingMsgCount
  bufferLength_eq : c'.connection.bufferLength = c.connection.bufferLength

theorem SameButMessage.trans {c d e : MqttClient} (h : SameButMessage c d)
    (h' : SameButMessage d e) : SameButMessage c e where
  state_eq := h'.state_eq.trans h.state_eq
  input_eq := h'.input_eq.trans h.input_eq
  inBufferSize_eq := h'.inBufferSize_eq.trans h.inBufferSize_eq
  outbox_eq := h'.outbox_eq.trans h.outbox_eq
  pendingMsgCount_eq := h'.pendingMsgCount_eq.trans h.pendingMsgCount_eq
  bufferLength_eq := h'.bufferLength_eq.trans h.bufferLength_eq

theorem SameButWire.sameButMessage {c c' : MqttClient} (h : SameButWire c c') :
    SameButMessage c c' where
  state_eq := h.state_eq
  input_eq := h.input_eq
  inBufferSize_eq := h.inBufferSize_eq
  outbox_eq := h.outbox_eq
  pendingMsgCount_eq := h.pendingMsgCount_eq
  bufferLength_eq := by rw [h.connection_eq]

/-- The message says the same about its fragments. -/
def SameFragments (k k' : MqttConnection) : Prop :=
  k'.message.fragmentedMsgTotalLength = k.message.fragmentedMsgTotalLength ∧
    k'.message.fragmentedMsgDataOffset = k.message.fragmentedMsgDataOffset

/-- How writing ends: all of `bytes` is out, or an error is dispatched. -/
def Wrote (bytes : List UInt8) (sent : Bool) (c c' : MqttClient) : Prop :=
  sent = true ∧ c'.events = c.events ∧ c'.wire = c.wire ++ bytes ∨
    sent = false ∧ c'.events = c.events ++ [.error]

/-- A round. -/
theorem sendRound_spec (c : MqttClient) (data : Pointer) (current : Int) (n : Nat) :
    SameButMessage c (c.sendRound data current n).2 ∧
      SameFragments c.connection (c.sendRound data current n).2.connection ∧
      ∃ sent, ((c.sendRound data current n).1 = .ok ↔ sent = true) ∧
        Wrote (readAt data current n) sent c (c.sendRound data current n).2 := by
  obtain ⟨hsame, part, -, hwire, hcases⟩ := mqttWriteData_spec
    (c.setConnection { c.connection with message :=
      { c.connection.message with data := readAt data current n } })
  refine ⟨⟨hsame.state_eq, hsame.input_eq, hsame.inBufferSize_eq, hsame.outbox_eq,
    hsame.pendingMsgCount_eq, ?_⟩, ?_, ?_⟩
  · rw [sendRound, hsame.connection_eq]
    rfl
  · rw [sendRound, hsame.connection_eq]
    exact ⟨rfl, rfl⟩
  · obtain ⟨hok, hpart, hevents⟩ | ⟨hfail, hevents⟩ := hcases
    · refine ⟨true, by rw [sendRound, hok]; simp, .inl ⟨rfl, hevents, ?_⟩⟩
      rw [sendRound, hwire, hpart]
      rfl
    · exact ⟨false, by rw [sendRound, hfail]; simp, .inr ⟨rfl, hevents⟩⟩

/-- The rounds behind the first write. -/
theorem sendRest_spec {data : Pointer} {k : Nat} (c : MqttClient) (current remaining : Int)
    (hk : remaining.toNat ≤ k) :
    SameButMessage c (sendRest data k c current remaining).2 ∧
      SameFragments c.connection (sendRest data k c current remaining).2.connection ∧
      Wrote (readAt data current remaining.toNat) (sendRest data k c current remaining).1 c
        (sendRest data k c current remaining).2 := by
  induction k generalizing c current remaining with
  | zero =>
      rw [show remaining.toNat = 0 by omega]
      refine ⟨⟨rfl, rfl, rfl, rfl, rfl, rfl⟩, ⟨rfl, rfl⟩, .inl ⟨rfl, rfl, ?_⟩⟩
      simp [readAt, sendRest]
  | succ k ih =>
      rw [sendRest]
      by_cases hpos : remaining > 0
      · have hroom : 5 ≤ c.connection.bufferLength := c.connection.room
        simp only [if_pos hpos]
        obtain ⟨hsame, hfrag, sent, hiff, hwrote⟩ :=
          c.sendRound_spec data current (min remaining.toNat c.connection.bufferLength)
        cases sent with
        | true =>
            rw [if_pos (hiff.mpr rfl)]
            have hleft : remaining.toNat = min remaining.toNat c.connection.bufferLength +
                (remaining - (min remaining.toNat c.connection.bufferLength : Nat)).toNat := by
              omega
            obtain ⟨hsame', hfrag', hwrote'⟩ :=
              ih (c.sendRound data current (min remaining.toNat c.connection.bufferLength)).2
                (current + (min remaining.toNat c.connection.bufferLength : Nat))
                (remaining - (min remaining.toNat c.connection.bufferLength : Nat)) (by omega)
            refine ⟨hsame.trans hsame', ⟨hfrag'.1.trans hfrag.1, hfrag'.2.trans hfrag.2⟩, ?_⟩
            obtain ⟨-, hevents, hwire⟩ | ⟨hbad, -⟩ := hwrote
            · obtain ⟨hsent, hevents', hwire'⟩ | ⟨hsent, hevents'⟩ := hwrote'
              · refine .inl ⟨hsent, hevents'.trans hevents, ?_⟩
                rw [hwire', hwire, List.append_assoc, ← readAt_add, ← hleft]
              · exact .inr ⟨hsent, by rw [hevents', hevents]⟩
            · cases hbad
        | false =>
            rw [if_neg (fun hok => Bool.false_ne_true (hiff.mp hok))]
            obtain ⟨hbad, -⟩ | ⟨-, hevents⟩ := hwrote
            · cases hbad
            · exact ⟨hsame, hfrag, .inr ⟨rfl, hevents⟩⟩
      · rw [if_neg hpos, show remaining.toNat = 0 by omega]
        refine ⟨⟨rfl, rfl, rfl, rfl, rfl, rfl⟩, ⟨rfl, rfl⟩, .inl ⟨rfl, rfl, ?_⟩⟩
        simp [readAt]

/-- The writes of `esp_mqtt_client_publish`, from the outbound message on. -/
def transmit (c : MqttClient) (data : Pointer) (len : Int) : Bool × MqttClient :=
  let r := c.mqttWriteData
  if r.1 ≠ .ok then (false, r.2)
  else
    let dataSent := (r.2.connection.message.data.length : Int) -
      r.2.connection.message.fragmentedMsgDataOffset
    sendRest data (len - dataSent).toNat (r.2.setFragments 0 0) dataSent (len - dataSent)

/-- What a call has written when it says so, and what it leaves in the
message. -/
theorem transmit_spec (c : MqttClient) (data : Pointer) (len : Int) :
    let dataSent :=
      (c.connection.message.data.length : Int) - c.connection.message.fragmentedMsgDataOffset
    SameButMessage c (c.transmit data len).2 ∧
      Wrote (c.connection.message.data ++ readAt data dataSent (len - dataSent).toNat)
        (c.transmit data len).1 c (c.transmit data len).2 ∧
      (SameFragments c.connection (c.transmit data len).2.connection ∧
          (c.transmit data len).1 = false ∨
        (c.transmit data len).2.connection.message.fragmentedMsgTotalLength = 0 ∧
          (c.transmit data len).2.connection.message.fragmentedMsgDataOffset = 0) := by
  intro dataSent
  obtain ⟨hsame, part, -, hwire, ⟨hok, hpart, hevents⟩ | ⟨hfail, hevents⟩⟩ := mqttWriteData_spec c
  · have heq : c.transmit data len = sendRest data (len - dataSent).toNat
        (c.mqttWriteData.2.setFragments 0 0) dataSent (len - dataSent) := by
      rw [transmit, hok, if_neg (fun hne => hne rfl)]
      simp only [hsame.connection_eq]
      rfl
    obtain ⟨hrest, hfrag, hwrote⟩ :=
      sendRest_spec (c.mqttWriteData.2.setFragments 0 0) dataSent
        (len - dataSent) le_rfl
    rw [heq]
    refine ⟨?_, ?_, .inr hfrag⟩
    · exact hsame.sameButMessage.trans
        ⟨hrest.state_eq, hrest.input_eq, hrest.inBufferSize_eq, hrest.outbox_eq,
          hrest.pendingMsgCount_eq, hrest.bufferLength_eq⟩
    · obtain ⟨hsent, hevents', hwire'⟩ | ⟨hsent, hevents'⟩ := hwrote
      · refine .inl ⟨hsent, hevents'.trans hevents, ?_⟩
        rw [hwire']
        show c.mqttWriteData.2.wire ++ _ = _
        rw [hwire, hpart, List.append_assoc]
      · refine .inr ⟨hsent, ?_⟩
        rw [hevents']
        show c.mqttWriteData.2.events ++ _ = _
        rw [hevents]
  · have heq : c.transmit data len = (false, c.mqttWriteData.2) := by
      rw [transmit, hfail, if_pos (by decide)]
    rw [heq]
    refine ⟨hsame.sameButMessage, .inr ⟨rfl, hevents⟩, .inl ⟨?_, rfl⟩⟩
    rw [hsame.connection_eq]
    exact ⟨rfl, rfl⟩

/-- The call, by how its writes end. -/
theorem espMqttClientPublish_sent {c c₁ : MqttClient} {topic : CString} {data : Pointer}
    {len : Int} {qos retain : Nat} {id : UInt16} (hstate : c.state = .connected)
    (hpriv : c.mqttClientEnqueuePriv topic data (publishLength data len) qos retain = (some id, c₁))
    (hsent : (c₁.transmit data len).1 = true) :
    c.espMqttClientPublish topic data len qos retain =
      ((id.toNat : Int),
        if qos > 0 then
          let c₂ := (c₁.transmit data len).2
          { c₂ with
            outbox := outboxSetPending (outboxSetTick c₂.outbox id (c₂.clock 0)) id .transmitted
            clock := fun k => c₂.clock (k + 1) }
        else (c₁.transmit data len).2) := by
  unfold transmit at hsent ⊢
  unfold espMqttClientPublish
  rw [if_neg (fun hne => hne hstate), hpriv]
  dsimp only
  by_cases herr : c₁.mqttWriteData.1 ≠ .ok
  · rw [if_pos herr] at hsent
    cases hsent
  · rw [if_neg herr] at hsent ⊢
    rw [if_neg herr, if_pos hsent]
    split
    · rfl
    · rfl

/-- It aborts the connection when they fail, and forgets the message. -/
theorem espMqttClientPublish_notSent {c c₁ : MqttClient} {topic : CString} {data : Pointer}
    {len : Int} {qos retain : Nat} {id : UInt16} (hstate : c.state = .connected)
    (hpriv : c.mqttClientEnqueuePriv topic data (publishLength data len) qos retain = (some id, c₁))
    (hsent : (c₁.transmit data len).1 = false) :
    ∃ k, c.espMqttClientPublish topic data len qos retain =
        (-1, (c₁.transmit data len).2.espMqttAbortConnection.setConnection k) ∧
      k.bufferLength = (c₁.transmit data len).2.connection.bufferLength ∧
      k.message.fragmentedMsgDataOffset =
        (c₁.transmit data len).2.connection.message.fragmentedMsgDataOffset ∧
      (k.message.fragmentedMsgTotalLength = 0 ∨
        k.message.fragmentedMsgTotalLength =
          (c₁.transmit data len).2.connection.message.fragmentedMsgTotalLength) := by
  unfold transmit at hsent ⊢
  unfold espMqttClientPublish
  rw [if_neg (fun hne => hne hstate), hpriv]
  dsimp only
  by_cases herr : c₁.mqttWriteData.1 ≠ .ok
  · rw [if_pos herr, if_pos herr]
    exact ⟨_, rfl, rfl, rfl, .inl rfl⟩
  · rw [if_neg herr] at hsent ⊢
    rw [if_neg herr, hsent]
    exact ⟨_, rfl, rfl, rfl, .inr rfl⟩

/-! ## The copy in the outbox -/

/-- The message is as it was built, but for the length of the whole. -/
structure SameMessage (a b : MqttConnection) : Prop where
  data_eq : b.message.data = a.message.data
  offset_eq : b.message.fragmentedMsgDataOffset = a.message.fragmentedMsgDataOffset
  bufferLength_eq : b.bufferLength = a.bufferLength
  total_eq : b.message.fragmentedMsgTotalLength = 0 ∨
    b.message.fragmentedMsgTotalLength = a.message.fragmentedMsgTotalLength

/-- The client with a packet that waits for its answer: `stored` when there
was memory for the copy. -/
def withPending (c : MqttClient) (item : OutboxItem) (stored : Bool) : MqttClient :=
  { c with
    outbox := if stored then c.outbox ++ [item] else c.outbox
    pendingMsgId := item.msgId
    pendingMsgType := item.msgType
    pendingPublishQos := item.msgQos
    pendingMsgCount := c.pendingMsgCount + 1 }

/-- The item of the pending message. -/
def pendingItem (c : MqttClient) (remaining : List UInt8) : OutboxItem where
  buffer := c.connection.message.data ++ remaining
  msgId := c.pendingMsgId
  msgType := c.pendingMsgType
  msgQos := c.pendingPublishQos
  tick := c.clock 0
  pending := .queued

/-- The client when readings of the clock and allocations have been used
up. -/
def withEnv (c : MqttClient) (clock : Nat → Int64) (alloc : Nat → Bool) : MqttClient :=
  { c with clock := clock, alloc := alloc }

theorem enqueueOutbound_eq (c : MqttClient) (remaining : List UInt8) :
    c.enqueueOutbound remaining =
      { c with
        outbox := if c.alloc 0 then c.outbox ++ [c.pendingItem remaining] else c.outbox
        clock := fun k => c.clock (k + 1)
        alloc := fun k => c.alloc (k + 1) } :=
  rfl

theorem mqttEnqueue_of_pos {c : MqttClient} (h : 0 < c.pendingMsgCount) :
    c.mqttEnqueue = c.enqueueOutbound [] := if_pos h

theorem mqttEnqueue_of_not_pos {c : MqttClient} (h : ¬ 0 < c.pendingMsgCount) :
    c.mqttEnqueue = c := if_neg h

/-- **`mqtt_client_enqueue_priv`**, once the packet is built: with QoS 1 and
2 a copy goes into the outbox if there is memory for it. -/
theorem mqttClientEnqueuePriv_eq {c : MqttClient} {topic : CString} {data : Pointer}
    {n qos retain : Nat}
    (h : (mqttMsgPublish c.connection topic data n qos retain).2.message.data ≠ []) :
    ∃ clock alloc k stored, SameMessage (mqttMsgPublish c.connection topic data n qos retain).2 k ∧
      (0 ≤ c.pendingMsgCount → stored = c.alloc 0) ∧
      c.mqttClientEnqueuePriv topic data n qos retain =
        (some (mqttMsgPublish c.connection topic data n qos retain).1,
          if qos > 0 then
            ((c.withEnv clock alloc).withPending
              { buffer := (mqttMsgPublish c.connection topic data n qos retain).2.message.data ++
                  remainingData (mqttMsgPublish c.connection topic data n qos retain).2 data n
                msgId := (mqttMsgPublish c.connection topic data n qos retain).1
                msgType := .publish
                msgQos := qos
                tick := c.clock 0
                pending := .queued }
              stored).setConnection k
          else c.setConnection k) := by
  generalize hbuilt : mqttMsgPublish c.connection topic data n qos retain = built at h
  let clock : Nat → Int64 := fun i => c.clock (i + 1)
  let alloc : Nat → Bool := fun i => c.alloc (i + 1)
  unfold mqttClientEnqueuePriv
  simp only [hbuilt]
  rw [if_neg h]
  by_cases hq : qos > 0
  · simp only [if_pos hq]
    by_cases htotal : built.2.message.fragmentedMsgTotalLength = 0
    · rw [if_pos htotal, remainingData, if_pos htotal]
      by_cases hcount : 0 < c.pendingMsgCount + 1
      · rw [mqttEnqueue_of_pos hcount, enqueueOutbound_eq]
        exact ⟨clock, alloc, built.2, c.alloc 0, ⟨rfl, rfl, rfl, .inr rfl⟩, fun _ => rfl, rfl⟩
      · rw [mqttEnqueue_of_not_pos hcount]
        exact ⟨c.clock, c.alloc, built.2, false, ⟨rfl, rfl, rfl, .inr rfl⟩,
          fun hbad => absurd hbad (by omega), rfl⟩
    · rw [if_neg htotal, remainingData, if_neg htotal]
      let k : MqttConnection :=
        { built.2 with message := { built.2.message with fragmentedMsgTotalLength := 0 } }
      exact ⟨clock, alloc, k, c.alloc 0, ⟨rfl, rfl, rfl, .inl rfl⟩, fun _ => rfl, rfl⟩
  · simp only [if_neg hq]
    exact ⟨clock, alloc, built.2, c.alloc 0, ⟨rfl, rfl, rfl, .inr rfl⟩, fun _ => rfl, rfl⟩

/-! ## What a call puts on the connection -/

/-- The writes of a call that returns an id. -/
theorem espMqttClientPublish_ok {m : Publication} {c : MqttClient} {topic : CString}
    {data : Pointer} {len : Int} {qos retain : Nat}
    (h : PublishArgs m c.connection topic data (publishLength data len) qos retain)
    (hok : 0 ≤ (c.espMqttClientPublish topic data len qos retain).1) :
    ∃ built, Built m c.connection built data (publishLength data len) ∧
      let dataSent := (built.message.data.length : Int) - built.message.fragmentedMsgDataOffset
      (c.espMqttClientPublish topic data len qos retain).2.wire =
        c.wire ++ (built.message.data ++ readAt data dataSent (len - dataSent).toNat) := by
  obtain ⟨hid, hbuilt⟩ := mqttMsgPublish_spec h
  refine ⟨_, hbuilt, ?_⟩
  obtain ⟨_, _, k, stored, hk, -, hpriv⟩ := mqttClientEnqueuePriv_eq (c := c) hbuilt.data_ne_nil
  by_cases hstate : c.state = .connected
  · generalize hc₁ : (if qos > 0 then _ else c.setConnection k) = c₁ at hpriv
    have hmessage : c₁.connection = k := by
      rw [← hc₁]
      split <;> rfl
    have hwire : c₁.wire = c.wire := by
      rw [← hc₁]
      split <;> rfl
    obtain ⟨-, hwrote, -⟩ := transmit_spec c₁ data len
    rw [hmessage, hk.data_eq, hk.offset_eq] at hwrote
    obtain ⟨hsent, -, hwrote⟩ | ⟨hsent, -⟩ := hwrote
    · rw [espMqttClientPublish_sent hstate hpriv hsent]
      rw [hwire] at hwrote
      dsimp only
      split
      · exact hwrote
      · exact hwrote
    · obtain ⟨k', heq, -⟩ := espMqttClientPublish_notSent hstate hpriv hsent
      rw [heq] at hok
      exact absurd hok (show ¬ (0 : Int) ≤ -1 by decide)
  · rw [espMqttClientPublish, if_pos hstate] at hok
    exact absurd hok (show ¬ (0 : Int) ≤ -1 by decide)

/-- **Exactly when a PUBLISH goes out as one packet**, whether in one write
or in many. For a packet that fits, `len` and the offset left by earlier
packets make no more than the payload and the room of its header; one that
does not fit needs its length to be given. -/
theorem publish_wire_iff {m : Publication} {c : MqttClient} {topic : CString} {data : Pointer}
    {len : Int} {qos retain : Nat}
    (h : PublishArgs m c.connection topic data (publishLength data len) qos retain)
    (hok : 0 ≤ (c.espMqttClientPublish topic data len qos retain).1) :
    (c.espMqttClientPublish topic data len qos retain).2.wire = c.wire ++ m.bytes ↔
      if 5 + m.varHeader.length + publishLength data len ≤ c.connection.bufferLength then
        len + c.connection.message.fragmentedMsgDataOffset ≤
          publishLength data len + (5 + m.varHeader.length : Nat)
      else 0 < len := by
  obtain ⟨built, hbuilt, hwire⟩ := espMqttClientPublish_ok h hok
  have hlen : (publishLength data len : Int) = len ∨ len ≤ 0 := by
    unfold publishLength
    split <;> omega
  rw [hwire, List.append_right_inj]
  exact hbuilt.writes_iff h.payload_eq h.room hlen

/-- The CONNECT of a node, and its first turn with a broker that takes it. -/
def nodeConnect : MqttConnectInfo where
  clientId := ⟨[0x6e], by decide⟩
  username := ⟨[], by decide⟩
  password := ⟨[], by decide⟩
  willTopic := ⟨[], by decide⟩
  willMessage := []
  keepalive := 120
  willQos := 0
  willRetain := false
  cleanSession := true
  protocolV31 := false

def connectTurn : MqttAct :=
  .init (.steady 0 [100]) true nodeConnect 1 [] [some [0x20, 2, 0, 0]]

/-- A client that has been taken in. -/
def connectedClient : MqttClient :=
  ((initial 1024 (by decide) ⟨1460, by decide⟩ 0).inEnv (.steady 0 [100])).initPass true
    nodeConnect 1 [] [some [0x20, 2, 0, 0]]

/-- The topic "a". -/
def topicA : CString := ⟨[0x61], by decide⟩

/-- Three bytes on it. -/
theorem properPublish_topicA {qos : Nat} (h : qos < 3) : ProperPublish topicA 3 qos 0 :=
  ⟨by decide, by decide, by decide, h, by decide⟩

/-- A PUBLISH that is begun and fails on its first write leaves its offset
behind, also for the next connection. -/
def staleClient : MqttClient :=
  (run step (initial 64 (by decide) ⟨1460, by decide⟩ 0)
    [connectTurn,
      .call (.steady 0 []) (.publish ⟨List.replicate 20 0x61, by decide⟩ (fun _ => 7) 50 0 0),
      .ends, .start, connectTurn]).get (by decide +kernel)

/-- The three bytes of the next one are followed by others. -/
theorem stale_offset_sends_more :
    ((staleClient.inEnv (.steady 0 [100, 100])).espMqttClientPublish topicA (fun _ => 7) 3 0
        0).2.wire ≠
      staleClient.wire ++ ((properPublish_topicA (show 0 < 3 by decide)).publication (by decide)
        (fun _ => 7) 1).bytes := by
  have hargs := (properPublish_topicA (show 0 < 3 by decide)).args (by decide) (fun _ => 7)
    (k := (staleClient.inEnv (.steady 0 [100, 100])).connection) (by decide)
  exact (publish_wire_iff hargs (by decide)).not.mpr (by decide)

end MqttClient

end LiveWireSwitch
