import LiveWireSwitch.EspMqtt.Publish

/-!
# EspMqtt.Builders — what a builder makes of the connection

Every packet is built in the one buffer, over what the last one left there.
Two fields of the last one matter to the next: the length of a message that
was only begun, which `fini_message` takes for its own, and the offset of
its data, which every packet goes on counting down.
-/

namespace LiveWireSwitch

open Lib

/-- The bytes of one packet. -/
def IsPacket (bs : List UInt8) : Prop := ∃ p : Packet, bs = p.bytes

theorem Packet.isPacket (p : Packet) : IsPacket p.bytes := ⟨p, rfl⟩

/-- The packet with the duplicate flag set is a packet. -/
theorem IsPacket.mqttSetDup {bs : List UInt8} (h : IsPacket bs) : IsPacket (mqttSetDup bs) := by
  obtain ⟨p, rfl⟩ := h
  exact ⟨{ p with head := p.head ||| 0x08 }, rfl⟩

namespace MqttConnection

/-- Nothing of the last message is left that the next one could take for
its own. -/
structure Settled (k : MqttConnection) : Prop where
  total_eq : k.message.fragmentedMsgTotalLength = 0
  offset_le : k.message.fragmentedMsgDataOffset ≤ 0

/-- What a builder does: it makes a packet, or shows by a length of 0 that
it cannot. -/
structure Makes (k k' : MqttConnection) : Prop where
  bufferLength_eq : k'.bufferLength = k.bufferLength
  settled : k.Settled → k'.Settled
  isPacket : k.Settled → k'.message.data ≠ [] → IsPacket k'.message.data

/-- The connection but for the ids that have been used. -/
structure SameButId (k k' : MqttConnection) : Prop where
  message_eq : k'.message = k.message
  bufferLength_eq : k'.bufferLength = k.bufferLength

theorem SameButId.settled {k k' : MqttConnection} (h : SameButId k k') (hk : k.Settled) :
    k'.Settled := by
  obtain ⟨htotal, hoffset⟩ := hk
  rw [← h.message_eq] at htotal hoffset
  exact ⟨htotal, hoffset⟩

theorem SameButId.failMessage {k k' : MqttConnection} (h : SameButId k k') :
    Makes k (failMessage k') := by
  refine ⟨h.bufferLength_eq, fun hk => ?_, fun _ hne => absurd rfl hne⟩
  obtain ⟨htotal, hoffset⟩ := h.settled hk
  exact ⟨htotal, hoffset⟩

theorem finiMessage_bufferLength (d : MqttDraft) (type : MqttMessageType) (dup qos retain : Nat) :
    (LiveWireSwitch.finiMessage d type dup qos retain).bufferLength =
      d.connection.bufferLength := by
  unfold LiveWireSwitch.finiMessage
  dsimp only
  split_ifs <;> rfl

theorem finiMessage_settled {d : MqttDraft} (h : d.connection.Settled) (type : MqttMessageType)
    (dup qos retain : Nat) :
    (LiveWireSwitch.finiMessage d type dup qos retain).Settled where
  total_eq := by
    rw [← h.total_eq]
    unfold LiveWireSwitch.finiMessage
    dsimp only
    split_ifs <;> rfl
  offset_le := (finiMessage_offset d type dup qos retain).1.trans h.offset_le

/-- A draft over a settled connection becomes a packet, or is too long. -/
theorem SameButId.finiMessage {k : MqttConnection} {d : MqttDraft} (h : SameButId k d.connection)
    (type : MqttMessageType) (dup qos retain : Nat) :
    Makes k (finiMessage d type dup qos retain) := by
  refine ⟨?_, fun hk => finiMessage_settled (h.settled hk) type dup qos retain, ?_⟩
  · rw [finiMessage_bufferLength, h.bufferLength_eq]
  · intro hk hne
    have htotal := (h.settled hk).total_eq
    have hlen : (if d.connection.message.fragmentedMsgTotalLength ≠ 0 then
        d.connection.message.fragmentedMsgTotalLength - mqttMaxFixedHeaderSize
        else d.body.length) = d.body.length := if_neg (fun hne => hne htotal)
    unfold LiveWireSwitch.finiMessage at hne ⊢
    simp only [hlen] at hne ⊢
    by_cases hlong : (VarInt.encode 4 d.body.length).length + 1 > mqttMaxFixedHeaderSize
    · rw [if_pos hlong] at hne
      exact absurd rfl hne
    · rw [if_neg hlong]
      have hshort : d.body.length < 128 ^ 4 := by
        apply VarInt.lt_of_encode_length_le (by decide : 3 < 4)
        simp only [mqttMaxFixedHeaderSize] at hlong
        omega
      exact ⟨⟨typeByte type dup qos retain, d.body, hshort⟩, rfl⟩

end MqttConnection

open MqttConnection
open MqttClient (publishLength)

/-! ## The parts of a draft -/

theorem sameButId_initMessage (k : MqttConnection) : SameButId k (initMessage k).connection :=
  ⟨rfl, rfl⟩

theorem sameButId_append {k : MqttConnection} {d : MqttDraft} (h : SameButId k d.connection)
    (bs : List UInt8) : SameButId k (d.append bs).connection := h

theorem sameButId_orFlag {k : MqttConnection} {d : MqttDraft} (h : SameButId k d.connection)
    (offset : Nat) (flag : UInt8) : SameButId k (d.orFlag offset flag).connection := h

theorem sameButId_appendString {k : MqttConnection} {d d' : MqttDraft}
    (h : SameButId k d.connection) {string : List UInt8} (hd : appendString d string = some d') :
    SameButId k d'.connection := by
  unfold appendString at hd
  split at hd
  · cases hd
  · cases hd
    exact h

theorem sameButId_appendMessageId {k : MqttConnection} {d : MqttDraft}
    (h : SameButId k d.connection) (messageId : UInt16) :
    SameButId k (appendMessageId d messageId).2.connection := by
  unfold appendMessageId
  by_cases h0 : messageId = 0
  · simp only [if_pos h0]
    split
    · exact ⟨h.message_eq, h.bufferLength_eq⟩
    · exact ⟨h.message_eq, h.bufferLength_eq⟩
  · simp only [if_neg h0]
    split
    · exact h
    · exact h

/-! ## The builders -/

theorem mqttMsgId_makes (k : MqttConnection) (type : MqttMessageType) (qos : Nat)
    (messageId : UInt16) : Makes k (mqttMsgId k type qos messageId) := by
  have h := sameButId_appendMessageId (sameButId_initMessage k) messageId
  unfold mqttMsgId
  dsimp only
  split
  · exact h.failMessage
  · exact h.finiMessage type 0 qos 0

theorem mqttMsgPingreq_makes (k : MqttConnection) : Makes k (mqttMsgPingreq k) :=
  (sameButId_initMessage k).finiMessage .pingreq 0 0 0

theorem mqttMsgDisconnect_makes (k : MqttConnection) : Makes k (mqttMsgDisconnect k) :=
  (sameButId_initMessage k).finiMessage .disconnect 0 0 0

/-- What holds of the packet a request makes, and of its id. -/
structure RequestMakes (k : MqttConnection) (built : UInt16 × MqttConnection) : Prop where
  makes : Makes k built.2
  id_ne : built.2.message.data ≠ [] → built.1 ≠ 0

theorem RequestMakes.fail {k k' : MqttConnection} (h : SameButId k k') (id : UInt16) :
    RequestMakes k (id, failMessage k') :=
  ⟨h.failMessage, fun hne => absurd rfl hne⟩

theorem mqttMsgSubscribe_makes (k : MqttConnection) (topic : CString) (qos : Nat) :
    RequestMakes k (mqttMsgSubscribe k topic qos) := by
  have h := sameButId_appendMessageId (sameButId_initMessage k) 0
  unfold mqttMsgSubscribe
  by_cases htopic : topic.bytes = []
  · rw [if_pos htopic]
    exact .fail ⟨rfl, rfl⟩ _
  · rw [if_neg htopic]
    dsimp only
    by_cases hid : (appendMessageId (initMessage k) 0).1 = 0
    · rw [if_pos hid]
      exact .fail h _
    · rw [if_neg hid]
      cases hs : appendString (appendMessageId (initMessage k) 0).2 topic.bytes with
      | none => exact .fail h _
      | some d =>
          have hd := sameButId_appendString h hs
          dsimp only
          split
          · exact .fail hd _
          · exact ⟨(sameButId_append hd _).finiMessage .subscribe 0 1 0, fun _ => hid⟩

theorem mqttMsgUnsubscribe_makes (k : MqttConnection) (topic : CString) :
    RequestMakes k (mqttMsgUnsubscribe k topic) := by
  have h := sameButId_appendMessageId (sameButId_initMessage k) 0
  unfold mqttMsgUnsubscribe
  by_cases htopic : topic.bytes = []
  · rw [if_pos htopic]
    exact .fail ⟨rfl, rfl⟩ _
  · rw [if_neg htopic]
    dsimp only
    by_cases hid : (appendMessageId (initMessage k) 0).1 = 0
    · rw [if_pos hid]
      exact .fail h _
    · rw [if_neg hid]
      cases hs : appendString (appendMessageId (initMessage k) 0).2 topic.bytes with
      | none => exact .fail h _
      | some d => exact ⟨(sameButId_appendString h hs).finiMessage .unsubscribe 0 1 0, fun _ => hid⟩

/-! ## CONNECT -/

/-- A part of the CONNECT keeps the connection. -/
theorem sameButId_appendWill {k : MqttConnection} {d d' : MqttDraft} (h : SameButId k d.connection)
    {info : MqttConnectInfo} {flagsOffset : Nat} (hd : appendWill d info flagsOffset = some d') :
    SameButId k d'.connection := by
  unfold appendWill at hd
  split at hd
  · cases hd
    exact h
  · simp only [Option.bind_eq_bind, Option.bind_eq_some_iff, Option.some.injEq] at hd
    obtain ⟨d₁, h₁, d₂, h₂, rfl⟩ := hd
    have hd₂ := sameButId_appendString (sameButId_appendString h h₁) h₂
    split
    · exact hd₂
    · exact hd₂

theorem sameButId_appendCredentials {k : MqttConnection} {d d' : MqttDraft}
    (h : SameButId k d.connection) {info : MqttConnectInfo} {flagsOffset : Nat}
    (hd : appendCredentials d info flagsOffset = some d') : SameButId k d'.connection := by
  unfold appendCredentials at hd
  by_cases hu : info.username.bytes = []
  · by_cases hp : info.password.bytes = []
    · simp only [if_pos hu, if_pos hp, Option.bind_eq_bind, Option.bind_some,
        Option.some.injEq] at hd
      rw [← hd]
      exact h
    · simp only [if_pos hu, if_neg hp, Option.bind_eq_bind, Option.bind_some,
        Option.bind_eq_some_iff, Option.some.injEq] at hd
      obtain ⟨d₁, h₁, d₂, h₂, rfl⟩ := hd
      have hd₁ := sameButId_orFlag (sameButId_appendString h h₁) flagsOffset mqttConnectFlagUsername
      exact sameButId_orFlag (sameButId_appendString hd₁ h₂) _ _
  · by_cases hp : info.password.bytes = []
    · simp only [if_neg hu, if_pos hp, Option.bind_eq_bind, Option.bind_some,
        Option.bind_eq_some_iff, Option.some.injEq] at hd
      obtain ⟨d₁, h₁, rfl⟩ := hd
      exact sameButId_orFlag (sameButId_appendString h h₁) _ _
    · simp only [if_neg hu, if_neg hp, Option.bind_eq_bind, Option.bind_some,
        Option.bind_eq_some_iff, Option.some.injEq] at hd
      obtain ⟨d₁, h₁, d₂, h₂, rfl⟩ := hd
      have hd₁ := sameButId_orFlag (sameButId_appendString h h₁) flagsOffset mqttConnectFlagUsername
      exact sameButId_orFlag (sameButId_appendString hd₁ h₂) _ _

theorem mqttMsgConnect_makes (k : MqttConnection) (info : MqttConnectInfo) :
    Makes k (mqttMsgConnect k info) := by
  unfold mqttMsgConnect
  dsimp only
  split
  · exact SameButId.failMessage ⟨rfl, rfl⟩
  · split
    · exact SameButId.failMessage ⟨rfl, rfl⟩
    · rename_i d hd
      by_cases hclient : info.clientId.bytes = []
      · simp [hclient] at hd
      · simp only [if_neg hclient, Option.bind_eq_bind, Option.bind_eq_some_iff] at hd
        obtain ⟨d₁, h₁, d₂, h₂, h₃⟩ := hd
        have hd₁ : SameButId k d₁.connection := by
          refine sameButId_appendString ?_ h₁
          split
          · exact ⟨rfl, rfl⟩
          · exact ⟨rfl, rfl⟩
        have hd₃ := sameButId_appendCredentials (sameButId_appendWill hd₁ h₂) h₃
        exact hd₃.finiMessage .connect 0 0 0

/-! ## PUBLISH -/

/-- It fits into the buffer, whatever its QoS. -/
def ShortPublish (bufferLength : Nat) (topic : CString) (len : Int) : Prop :=
  topic.bytes.length + len.toNat + 9 ≤ bufferLength

/-- Without room for the header there is no packet. -/
theorem mqttMsgPublish_of_no_room {k : MqttConnection} {topic : CString} (data : Pointer)
    (n : Nat) {qos : Nat} (retain : Nat)
    (h : topic.bytes = [] ∨
      k.bufferLength < topic.bytes.length + 7 + if qos > 0 then 2 else 0) :
    ∃ k', SameButId k k' ∧ (mqttMsgPublish k topic data n qos retain).2 = failMessage k' := by
  unfold mqttMsgPublish
  by_cases htopic : topic.bytes = []
  · rw [if_pos htopic]
    exact ⟨k, ⟨rfl, rfl⟩, rfl⟩
  · rw [if_neg htopic]
    have hroom := h.resolve_left htopic
    by_cases hstring : (initMessage k).length + topic.bytes.length + 2 > k.bufferLength
    · have hs : appendString (initMessage k) topic.bytes = none := if_pos hstring
      rw [hs]
      exact ⟨k, ⟨rfl, rfl⟩, rfl⟩
    · have hs : appendString (initMessage k) topic.bytes =
          some ((initMessage k).append (msbLsb topic.bytes.length ++ topic.bytes)) :=
        if_neg hstring
      have hlen : (initMessage k).length = 5 := rfl
      by_cases hq : qos > 0
      · -- there is room for the topic, but not for the id
        rw [if_pos hq] at hroom
        have hid := sameButId_appendMessageId (k := k)
          (sameButId_append (sameButId_initMessage k) (msbLsb topic.bytes.length ++ topic.bytes)) 0
        have hzero : (appendMessageId
            ((initMessage k).append (msbLsb topic.bytes.length ++ topic.bytes)) 0).1 = 0 := by
          unfold appendMessageId
          simp only [if_true]
          rw [if_pos]
          show 5 + (msbLsb topic.bytes.length ++ topic.bytes).length + 2 > k.bufferLength
          rw [List.length_append, length_msbLsb]
          omega
        simp only [hs, if_pos hq]
        rw [if_pos ⟨hq, hzero⟩]
        exact ⟨_, hid, rfl⟩
      · rw [if_neg hq] at hroom
        omega

/-- **Under the limits**, a call that makes anything makes its packet, or
begins it. -/
theorem ProperPublish.built {topic : CString} {len : Int} {qos retain : Nat}
    (h : ProperPublish topic len qos retain) {data : Pointer} {k built : MqttConnection}
    (hbuilt : (mqttMsgPublish k topic data (publishLength data len) qos retain).2 = built)
    (hne : built.message.data ≠ []) :
    ∃ m, publishLength data len = len.toNat ∧
      PublishArgs m k topic data (publishLength data len) qos retain ∧
      m.varHeader.length ≤ topic.bytes.length + 4 ∧
      Built m k built data (publishLength data len) := by
  have hpos := h.len_pos
  have hn : publishLength data len = len.toNat := by rw [publishLength, if_neg (by omega)]
  by_cases hroom : topic.bytes = [] ∨
      k.bufferLength < topic.bytes.length + 7 + if qos > 0 then 2 else 0
  · obtain ⟨k', -, hfail⟩ :=
      mqttMsgPublish_of_no_room data (publishLength data len) retain hroom
    rw [← hbuilt, hfail] at hne
    exact absurd rfl hne
  · rw [not_or, not_lt] at hroom
    have hargs := h.args hroom.1 data hroom.2
    rw [← hn] at hargs
    refine ⟨_, hn, hargs, (h.publication hroom.1 data _).length_varHeader_le, ?_⟩
    rw [← hbuilt]
    exact (mqttMsgPublish_spec hargs).2

/-- One that makes nothing leaves the connection as settled as it was. -/
theorem ProperPublish.settled {topic : CString} {len : Int} {qos retain : Nat}
    (h : ProperPublish topic len qos retain) {data : Pointer} {k built : MqttConnection}
    (hbuilt : (mqttMsgPublish k topic data (publishLength data len) qos retain).2 = built)
    (hnil : built.message.data = []) (hk : k.Settled) : built.Settled := by
  have hpos := h.len_pos
  have hn : publishLength data len = len.toNat := by rw [publishLength, if_neg (by omega)]
  by_cases hroom : topic.bytes = [] ∨
      k.bufferLength < topic.bytes.length + 7 + if qos > 0 then 2 else 0
  · obtain ⟨k', hk', hfail⟩ :=
      mqttMsgPublish_of_no_room data (publishLength data len) retain hroom
    rw [← hbuilt, hfail]
    exact hk'.failMessage.settled hk
  · rw [not_or, not_lt] at hroom
    have hm := (mqttMsgPublish_spec (h.args hroom.1 data hroom.2)).2
    rw [← hn, hbuilt] at hm
    exact absurd hnil hm.data_ne_nil

theorem mqttMsgPublish_bufferLength (k : MqttConnection) (topic : CString) (data : Pointer)
    (n qos retain : Nat) :
    (mqttMsgPublish k topic data n qos retain).2.bufferLength = k.bufferLength := by
  unfold mqttMsgPublish
  by_cases htopic : topic.bytes = []
  · rw [if_pos htopic]
    rfl
  · rw [if_neg htopic]
    cases hs : appendString (initMessage k) topic.bytes with
    | none => rfl
    | some d =>
        have hd := sameButId_appendString (sameButId_initMessage k) hs
        have hid := sameButId_appendMessageId hd 0
        by_cases hq : qos > 0
        · simp only [if_pos hq]
          split
          · exact hid.bufferLength_eq
          · rw [finiMessage_bufferLength]
            split
            · exact hid.bufferLength_eq
            · exact hid.bufferLength_eq
        · simp only [if_neg hq]
          rw [if_neg (fun hbad => hq hbad.1), finiMessage_bufferLength]
          split
          · exact hd.bufferLength_eq
          · exact hd.bufferLength_eq

/-- No id, no packet, with QoS 1 and 2. -/
theorem mqttMsgPublish_id_ne {k : MqttConnection} {topic : CString} {data : Pointer}
    {dataLength qos retain : Nat} (hq : qos > 0)
    (h : (mqttMsgPublish k topic data dataLength qos retain).2.message.data ≠ []) :
    (mqttMsgPublish k topic data dataLength qos retain).1 ≠ 0 := by
  unfold mqttMsgPublish at h ⊢
  by_cases htopic : topic.bytes = []
  · rw [if_pos htopic] at h
    exact absurd rfl h
  · rw [if_neg htopic] at h ⊢
    cases hs : appendString (initMessage k) topic.bytes with
    | none =>
        rw [hs] at h
        exact absurd rfl h
    | some d =>
        simp only [hs, if_pos hq] at h ⊢
        by_cases hid : (appendMessageId d 0).1 = 0
        · rw [if_pos ⟨hq, hid⟩] at h
          exact absurd rfl h
        · rw [if_neg fun hbad => hid hbad.2]
          exact hid

end LiveWireSwitch
