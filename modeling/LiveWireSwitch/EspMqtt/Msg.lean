import LiveWireSwitch.Lib.VarInt

/-!
# EspMqtt.Msg — the control packets (`mqtt_msg.c`, `mqtt_msg.h`)

The client builds every packet in one buffer behind five bytes kept free
for the fixed header, whose length is known last. A PUBLISH that does not
fit is begun only: the buffer takes the first of its data, the header
announces all of it, and `esp_mqtt_client_publish` sends the rest.
-/

namespace LiveWireSwitch

open Lib

/-! ## The first byte (`mqtt_msg.h`) -/

/-- `enum mqtt_message_type` -/
inductive MqttMessageType where
  | connect
  | connack
  | publish
  | puback
  | pubrec
  | pubrel
  | pubcomp
  | subscribe
  | suback
  | unsubscribe
  | unsuback
  | pingreq
  | pingresp
  | disconnect
deriving DecidableEq, Repr

namespace MqttMessageType

def code : MqttMessageType → Nat
  | connect => 1
  | connack => 2
  | publish => 3
  | puback => 4
  | pubrec => 5
  | pubrel => 6
  | pubcomp => 7
  | subscribe => 8
  | suback => 9
  | unsubscribe => 10
  | unsuback => 11
  | pingreq => 12
  | pingresp => 13
  | disconnect => 14

/-- No type for 0 and 15, which fall to the `default` of every switch. -/
def ofCode : Nat → Option MqttMessageType
  | 1 => some connect
  | 2 => some connack
  | 3 => some publish
  | 4 => some puback
  | 5 => some pubrec
  | 6 => some pubrel
  | 7 => some pubcomp
  | 8 => some subscribe
  | 9 => some suback
  | 10 => some unsubscribe
  | 11 => some unsuback
  | 12 => some pingreq
  | 13 => some pingresp
  | 14 => some disconnect
  | _ => none

end MqttMessageType

/-- `buffer[i]`; no modelled call reads past the end. -/
def bufferAt (buffer : List UInt8) (i : Nat) : UInt8 := buffer.getD i 0

/-- `mqtt_get_type` -/
def mqttGetType (buffer : List UInt8) : Option MqttMessageType :=
  MqttMessageType.ofCode ((bufferAt buffer 0 &&& 0xf0) >>> 4).toNat

/-- `mqtt_get_dup` -/
def mqttGetDup (buffer : List UInt8) : Nat := ((bufferAt buffer 0 &&& 0x08) >>> 3).toNat

/-- `mqtt_get_qos` -/
def mqttGetQos (buffer : List UInt8) : Nat := ((bufferAt buffer 0 &&& 0x06) >>> 1).toNat

/-- `mqtt_get_retain` -/
def mqttGetRetain (buffer : List UInt8) : Nat := (bufferAt buffer 0 &&& 0x01).toNat

/-- `mqtt_set_dup` -/
def mqttSetDup : List UInt8 → List UInt8
  | [] => []
  | b :: bs => (b ||| 0x08) :: bs

/-- `((type & 0x0f) << 4) | ((dup & 1) << 3) | ((qos & 3) << 1) | (retain & 1)` -/
def typeByte (type : MqttMessageType) (dup qos retain : Nat) : UInt8 :=
  .ofNat ((type.code &&& 0x0f) <<< 4 ||| (dup &&& 1) <<< 3 ||| (qos &&& 3) <<< 1 |||
    (retain &&& 1))

/-- `mqtt_has_valid_msg_hdr` -/
def mqttHasValidMsgHdr (buffer : List UInt8) (length : Nat) : Bool :=
  if length < 1 then false
  else
    match mqttGetType buffer with
    | some .connect | some .connack | some .puback | some .pubrec | some .pubcomp
    | some .suback | some .unsuback | some .pingreq | some .pingresp | some .disconnect =>
        decide (bufferAt buffer 0 &&& 0x0f = 0)
    | some .pubrel | some .subscribe | some .unsubscribe =>
        decide (bufferAt buffer 0 &&& 0x0f = 0x02)
    | some .publish =>
        decide (mqttGetQos buffer < 3 ∧ (0 < mqttGetQos buffer ∨ mqttGetDup buffer = 0))
    | none => false

/-! ## The output buffer -/

/-- A C string: no byte of it is 0. -/
structure CString where
  bytes : List UInt8
  noNul : 0 ∉ bytes

instance : DecidableEq CString := fun s t =>
  decidable_of_iff (s.bytes = t.bytes) (by cases s; cases t; simp)

/-- A byte of memory by its distance from a pointer. -/
abbrev Pointer := Int → UInt8

/-- The `n` bytes from `p + offset` on. -/
def readAt (p : Pointer) (offset : Int) (n : Nat) : List UInt8 :=
  (List.range n).map fun i : Nat => p (offset + i)

/-- `mqtt_message_t`. `data` is `data[0 .. length)`. The offset of the data
is a `size_t` that is 0 at first and after every PUBLISH that was sent;
every packet lowers it, by 3 at the most (`finiMessage_offset`). It is only
read as `length - offset` put into an `int`, where the wrapping of both
cancels out as long as the number is one of an `int`: for all lengths below
2 ^ 30, up to 2 ^ 28 packets without a PUBLISH between them. -/
structure MqttMessage where
  data : List UInt8
  fragmentedMsgTotalLength : Nat
  fragmentedMsgDataOffset : Int

/-- `MQTT_MAX_FIXED_HEADER_SIZE` -/
def mqttMaxFixedHeaderSize : Nat := 5

/-- `mqtt_connection_t`, over a buffer with room for a fixed header. -/
structure MqttConnection where
  message : MqttMessage
  lastMessageId : UInt16
  bufferLength : Nat
  room : mqttMaxFixedHeaderSize ≤ bufferLength

/-- A packet being built: `body` is `buffer[5 .. message.length)`. -/
structure MqttDraft where
  connection : MqttConnection
  body : List UInt8

namespace MqttDraft

/-- `connection->message.length` -/
def length (d : MqttDraft) : Nat := mqttMaxFixedHeaderSize + d.body.length

/-- Bytes put behind those of the draft, after the check that they fit. -/
def append (d : MqttDraft) (bs : List UInt8) : MqttDraft := { d with body := d.body ++ bs }

end MqttDraft

/-- `mqtt_msg_init`, with the check of the buffer's size left to the type. -/
def mqttMsgInit (bufferLength : Nat) (room : mqttMaxFixedHeaderSize ≤ bufferLength) :
    MqttConnection :=
  ⟨⟨[], 0, 0⟩, 0, bufferLength, room⟩

/-- A 16-bit number, its high byte first. -/
def msbLsb (n : Nat) : List UInt8 := [.ofNat (n >>> 8), .ofNat (n &&& 0xff)]

/-- `init_message` -/
def initMessage (connection : MqttConnection) : MqttDraft := ⟨connection, []⟩

/-- `fail_message` -/
def failMessage (connection : MqttConnection) : MqttConnection :=
  { connection with message := { connection.message with data := [] } }

/-- `append_string`, `none` for its −1 -/
def appendString (d : MqttDraft) (string : List UInt8) : Option MqttDraft :=
  if d.length + string.length + 2 > d.connection.bufferLength then none
  else some (d.append (msbLsb string.length ++ string))

/-- `while (message_id == 0) message_id = ++connection->last_message_id;` -/
def nextMessageId (last : UInt16) : UInt16 := if last + 1 = 0 then last + 1 + 1 else last + 1

/-- `append_message_id`: the id it puts in, 0 when there is no room, and
the draft, whose connection has used the id up in both cases. -/
def appendMessageId (d : MqttDraft) (messageId : UInt16) : UInt16 × MqttDraft :=
  let d :=
    if messageId = 0 then
      { d with connection :=
          { d.connection with lastMessageId := nextMessageId d.connection.lastMessageId } }
    else d
  let id := if messageId = 0 then d.connection.lastMessageId else messageId
  if d.length + 2 > d.connection.bufferLength then (0, d)
  else (id, d.append (msbLsb id.toNat))

/-- `fini_message`. Five length bytes would not fit before the body (nor in
`encoded_lens`). -/
def finiMessage (d : MqttDraft) (type : MqttMessageType) (dup qos retain : Nat) :
    MqttConnection :=
  let message := d.connection.message
  let totalLength :=
    if message.fragmentedMsgTotalLength ≠ 0 then
      message.fragmentedMsgTotalLength - mqttMaxFixedHeaderSize
    else d.body.length
  let encodedLens := VarInt.encode 4 totalLength
  let lenBytes := encodedLens.length
  if lenBytes + 1 > mqttMaxFixedHeaderSize then failMessage d.connection
  else
    let offs := mqttMaxFixedHeaderSize - 1 - lenBytes
    { d.connection with message :=
        { message with
          data := typeByte type dup qos retain :: encodedLens ++ d.body
          fragmentedMsgDataOffset := message.fragmentedMsgDataOffset - offs } }

/-- The header is shorter than the room that is kept for it by 3 bytes at
the most. -/
theorem finiMessage_offset (d : MqttDraft) (type : MqttMessageType) (dup qos retain : Nat) :
    (finiMessage d type dup qos retain).message.fragmentedMsgDataOffset ≤
        d.connection.message.fragmentedMsgDataOffset ∧
      d.connection.message.fragmentedMsgDataOffset - 3 ≤
        (finiMessage d type dup qos retain).message.fragmentedMsgDataOffset := by
  unfold finiMessage
  dsimp only
  generalize (if d.connection.message.fragmentedMsgTotalLength ≠ 0 then
    d.connection.message.fragmentedMsgTotalLength - mqttMaxFixedHeaderSize
    else d.body.length) = totalLength
  have hpos := VarInt.encode_length_pos 4 totalLength
  by_cases hlong : (VarInt.encode 4 totalLength).length + 1 > mqttMaxFixedHeaderSize
  · rw [if_pos hlong]
    exact ⟨Int.le_refl _, Int.sub_le_self _ (by decide)⟩
  · rw [if_neg hlong]
    simp only [mqttMaxFixedHeaderSize]
    omega

/-! ## The packets -/

/-- `mqtt_connect_info_t`; a string that is empty stands for `NULL` too,
which the code does not tell apart. -/
structure MqttConnectInfo where
  clientId : CString
  username : CString
  password : CString
  willTopic : CString
  willMessage : List UInt8
  keepalive : Nat
  willQos : Nat
  willRetain : Bool
  cleanSession : Bool
  /-- `protocol_ver == MQTT_PROTOCOL_V_3_1` -/
  protocolV31 : Bool

/-- `enum mqtt_connect_flag` -/
def mqttConnectFlagUsername : UInt8 := (1 : UInt8) <<< 7
def mqttConnectFlagPassword : UInt8 := (1 : UInt8) <<< 6
def mqttConnectFlagWillRetain : UInt8 := (1 : UInt8) <<< 5
def mqttConnectFlagWill : UInt8 := (1 : UInt8) <<< 2
def mqttConnectFlagCleanSession : UInt8 := (1 : UInt8) <<< 1

/-- The name and the level of the protocol, in front of the flags. -/
def MqttConnectInfo.protocol (info : MqttConnectInfo) : List UInt8 :=
  if info.protocolV31 then [0, 6, 0x4d, 0x51, 0x49, 0x73, 0x64, 0x70, 3]
  else [0, 4, 0x4d, 0x51, 0x54, 0x54, 4]

/-- `variable_header[flags_offset] |= flag` -/
def MqttDraft.orFlag (d : MqttDraft) (flagsOffset : Nat) (flag : UInt8) : MqttDraft :=
  { d with body := d.body.modify flagsOffset (· ||| flag) }

/-- The will, when there is a topic for it. -/
def appendWill (d : MqttDraft) (info : MqttConnectInfo) (flagsOffset : Nat) :
    Option MqttDraft :=
  if info.willTopic.bytes = [] then some d
  else do
    let d ← appendString d info.willTopic.bytes
    let d ← appendString d info.willMessage
    let d := d.orFlag flagsOffset mqttConnectFlagWill
    let d := if info.willRetain then d.orFlag flagsOffset mqttConnectFlagWillRetain else d
    some (d.orFlag flagsOffset (.ofNat ((info.willQos &&& 3) <<< 3)))

/-- The user name and the password; a password alone comes behind an empty
user name. -/
def appendCredentials (d : MqttDraft) (info : MqttConnectInfo) (flagsOffset : Nat) :
    Option MqttDraft := do
  let d ←
    if info.username.bytes = [] then some d
    else do
      let d ← appendString d info.username.bytes
      some (d.orFlag flagsOffset mqttConnectFlagUsername)
  if info.password.bytes = [] then some d
  else do
    let d ←
      if info.username.bytes = [] then do
        let d ← appendString d []
        some (d.orFlag flagsOffset mqttConnectFlagUsername)
      else some d
    let d ← appendString d info.password.bytes
    some (d.orFlag flagsOffset mqttConnectFlagPassword)

/-- `mqtt_msg_connect` -/
def mqttMsgConnect (connection : MqttConnection) (info : MqttConnectInfo) : MqttConnection :=
  let d := initMessage connection
  let flagsOffset := info.protocol.length
  let header := info.protocol ++ [0] ++ msbLsb info.keepalive
  if d.length + header.length > connection.bufferLength then failMessage connection
  else
    let d := d.append header
    let d := if info.cleanSession then d.orFlag flagsOffset mqttConnectFlagCleanSession else d
    let built := do
      let d ← if info.clientId.bytes = [] then none else appendString d info.clientId.bytes
      let d ← appendWill d info flagsOffset
      appendCredentials d info flagsOffset
    match built with
    | none => failMessage connection
    | some d => finiMessage d .connect 0 0 0

/-- `mqtt_msg_publish`: the id of the message (0 with QoS 0) and the
connection. -/
def mqttMsgPublish (connection : MqttConnection) (topic : CString) (data : Pointer)
    (dataLength qos retain : Nat) : UInt16 × MqttConnection :=
  if topic.bytes = [] then (0, failMessage connection)
  else
    match appendString (initMessage connection) topic.bytes with
    | none => (0, failMessage connection)
    | some d =>
        let (messageId, d) := if qos > 0 then appendMessageId d 0 else (0, d)
        if qos > 0 ∧ messageId = 0 then (0, failMessage d.connection)
        else
          let message := d.connection.message
          let d :=
            if d.length + dataLength > d.connection.bufferLength then
              -- not enough room in the buffer: begin the message only
              { d with
                connection := { d.connection with message :=
                  { message with
                    fragmentedMsgDataOffset := d.length
                    fragmentedMsgTotalLength := dataLength + d.length } }
                body := d.body ++ readAt data 0 (d.connection.bufferLength - d.length) }
            else
              { d with
                connection := { d.connection with message :=
                  { message with fragmentedMsgTotalLength := 0 } }
                body := d.body ++ readAt data 0 dataLength }
          (messageId, finiMessage d .publish 0 qos retain)

/-- The packets that carry an id only. -/
def mqttMsgId (connection : MqttConnection) (type : MqttMessageType) (qos : Nat)
    (messageId : UInt16) : MqttConnection :=
  let (id, d) := appendMessageId (initMessage connection) messageId
  if id = 0 then failMessage d.connection else finiMessage d type 0 qos 0

/-- `mqtt_msg_puback` -/
def mqttMsgPuback (connection : MqttConnection) (messageId : UInt16) : MqttConnection :=
  mqttMsgId connection .puback 0 messageId

/-- `mqtt_msg_pubrec` -/
def mqttMsgPubrec (connection : MqttConnection) (messageId : UInt16) : MqttConnection :=
  mqttMsgId connection .pubrec 0 messageId

/-- `mqtt_msg_pubrel` -/
def mqttMsgPubrel (connection : MqttConnection) (messageId : UInt16) : MqttConnection :=
  mqttMsgId connection .pubrel 1 messageId

/-- `mqtt_msg_pubcomp` -/
def mqttMsgPubcomp (connection : MqttConnection) (messageId : UInt16) : MqttConnection :=
  mqttMsgId connection .pubcomp 0 messageId

/-- `mqtt_msg_subscribe` -/
def mqttMsgSubscribe (connection : MqttConnection) (topic : CString) (qos : Nat) :
    UInt16 × MqttConnection :=
  if topic.bytes = [] then (0, failMessage connection)
  else
    let (id, d) := appendMessageId (initMessage connection) 0
    if id = 0 then (0, failMessage d.connection)
    else
      match appendString d topic.bytes with
      | none => (id, failMessage d.connection)
      | some d =>
          if d.length + 1 > d.connection.bufferLength then (id, failMessage d.connection)
          else (id, finiMessage (d.append [.ofNat qos]) .subscribe 0 1 0)

/-- `mqtt_msg_unsubscribe` -/
def mqttMsgUnsubscribe (connection : MqttConnection) (topic : CString) :
    UInt16 × MqttConnection :=
  if topic.bytes = [] then (0, failMessage connection)
  else
    let (id, d) := appendMessageId (initMessage connection) 0
    if id = 0 then (0, failMessage d.connection)
    else
      match appendString d topic.bytes with
      | none => (id, failMessage d.connection)
      | some d => (id, finiMessage d .unsubscribe 0 1 0)

/-- `mqtt_msg_pingreq` -/
def mqttMsgPingreq (connection : MqttConnection) : MqttConnection :=
  finiMessage (initMessage connection) .pingreq 0 0 0

/-- `mqtt_msg_disconnect` -/
def mqttMsgDisconnect (connection : MqttConnection) : MqttConnection :=
  finiMessage (initMessage connection) .disconnect 0 0 0

/-! ## Reading a packet -/

/-- The loop over the length bytes, from `buffer[i]` on: what it adds to
`totlen`, and how many bytes it passes. -/
def lengthLoop : Nat → List UInt8 → Nat × Nat
  | _, [] => (0, 0)
  | i, b :: bs =>
      let here := (b &&& 0x7f).toNat <<< (7 * (i - 1))
      if b &&& 0x80 = 0 then (here, 1)
      else (here + (lengthLoop (i + 1) bs).1, (lengthLoop (i + 1) bs).2 + 1)

/-- The bytes `buffer[1 .. length)` the loop runs over. -/
def lengthBytes (buffer : List UInt8) (length : Nat) : List UInt8 := (buffer.take length).drop 1

/-- `i` behind the loop: the length of the fixed header. -/
def fixedHeaderLen (buffer : List UInt8) (length : Nat) : Nat :=
  1 + (lengthLoop 1 (lengthBytes buffer length)).2

/-- `mqtt_get_total_length`, a `size_t` -/
def mqttGetTotalLength (buffer : List UInt8) (length : Nat) : Nat :=
  ((lengthLoop 1 (lengthBytes buffer length)).1 + fixedHeaderLen buffer length) % 2 ^ 32

/-- A 32-bit number read as an `int`. -/
def toInt32 (n : Nat) : Int := Int.bmod n (2 ^ 32)

/-- `buffer[i] << 8 | buffer[i + 1]` -/
def msbLsbAt (buffer : List UInt8) (i : Nat) : Nat :=
  (bufferAt buffer i).toNat <<< 8 ||| (bufferAt buffer (i + 1)).toNat

/-- `mqtt_get_publish_topic`, `none` for `NULL` -/
def mqttGetPublishTopic (buffer : List UInt8) (length : Nat) : Option (List UInt8) :=
  let i := fixedHeaderLen buffer length
  if i + 2 ≥ length then none
  else
    let topiclen := msbLsbAt buffer i
    let i := i + 2
    if i + topiclen > length then none else some ((buffer.drop i).take topiclen)

/-- `mqtt_get_publish_data`, `none` for `NULL`, which comes with a length
of 0 -/
def mqttGetPublishData (buffer : List UInt8) (blength : Nat) : Option (List UInt8) :=
  let i := fixedHeaderLen buffer blength
  let totlen := toInt32 (mqttGetTotalLength buffer blength)
  if i + 2 ≥ blength then none
  else
    let topiclen := msbLsbAt buffer i
    let i := i + 2
    if i + topiclen ≥ blength then none
    else
      let i := i + topiclen
      if mqttGetQos buffer > 0 ∧ i + 2 ≥ blength then none
      else
        let i := if mqttGetQos buffer > 0 then i + 2 else i
        if totlen < i then none
        else
          let length := if totlen ≤ blength then totlen - i else blength - i
          some ((buffer.drop i).take length.toNat)

/-- `mqtt_get_id` -/
def mqttGetId (buffer : List UInt8) (length : Nat) : UInt16 :=
  if length < 1 then 0
  else
    match mqttGetType buffer with
    | some .publish =>
        let i := fixedHeaderLen buffer length
        if i + 2 ≥ length then 0
        else
          let topiclen := msbLsbAt buffer i
          let i := i + 2
          if i + topiclen > length then 0
          else
            let i := i + topiclen
            if mqttGetQos buffer > 0 then
              if i + 2 > length then 0 else .ofNat (msbLsbAt buffer i)
            else 0
    | some .puback | some .pubrec | some .pubrel | some .pubcomp | some .suback
    | some .unsuback | some .subscribe | some .unsubscribe =>
        if length ≥ 4 ∧ bufferAt buffer 1 &&& 0x80 = 0 then .ofNat (msbLsbAt buffer 2) else 0
    | _ => 0

end LiveWireSwitch
