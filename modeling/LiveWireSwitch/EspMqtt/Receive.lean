import LiveWireSwitch.EspMqtt.Packet
import LiveWireSwitch.Lib.Feed

/-!
# EspMqtt.Receive — reading a packet (`mqtt_client.c`)

`mqtt_message_receive` is called again and again from the client's task and
never waits: what has arrived of a packet stays in `in_buffer`, and the
next call goes on from there. The transport is a `Feed`: where TCP and TLS
cut the stream, and when nothing has come yet, is not up to the client.
-/

namespace LiveWireSwitch

open Lib

/-- The input side of `mqtt_state_t`. `inBuffer` is the first
`in_buffer_read_len` bytes of `in_buffer`. -/
structure MqttInput where
  inBuffer : List UInt8
  messageLength : Nat
  transport : Feed UInt8

/-- How a part of `mqtt_message_receive` ends: `goto err`, `return 0`, or
on to the next part. -/
inductive RecvFlow where
  | err (s : MqttInput)
  | wait (s : MqttInput)
  | go (s : MqttInput)

namespace RecvFlow

def andThen : RecvFlow → (MqttInput → RecvFlow) → RecvFlow
  | err s, _ => err s
  | wait s, _ => wait s
  | go s, f => f s

/-- What the function returns, 1 when it comes to its end. -/
def result : RecvFlow → Int × MqttInput
  | err s => (-1, s)
  | wait s => (0, s)
  | go s => (1, s)

@[simp] theorem andThen_err (s : MqttInput) (f : MqttInput → RecvFlow) :
    (err s).andThen f = err s := rfl

@[simp] theorem andThen_wait (s : MqttInput) (f : MqttInput → RecvFlow) :
    (wait s).andThen f = wait s := rfl

@[simp] theorem andThen_go (s : MqttInput) (f : MqttInput → RecvFlow) :
    (go s).andThen f = f s := rfl

end RecvFlow

namespace MqttInput

/-- `in_buffer_read_len` -/
def readLen (s : MqttInput) : Nat := s.inBuffer.length

/-- `client->mqtt_state.message_length = n;` -/
def setMessageLength (s : MqttInput) (n : Nat) : MqttInput := { s with messageLength := n }

@[simp] theorem setMessageLength_inBuffer (s : MqttInput) (n : Nat) :
    (s.setMessageLength n).inBuffer = s.inBuffer := rfl

@[simp] theorem setMessageLength_readLen (s : MqttInput) (n : Nat) :
    (s.setMessageLength n).readLen = s.readLen := rfl

/-- `esp_transport_read` of `n` bytes behind those already there, with the
tests for an error and for no data that follow every call. -/
def read (s : MqttInput) (n : Nat) : RecvFlow :=
  match s.transport.read n with
  | (none, t) => .err { s with transport := t }
  | (some [], t) => .wait { s with transport := t }
  | (some (b :: bs), t) => .go { s with inBuffer := s.inBuffer ++ b :: bs, transport := t }

end MqttInput

/-- The first byte, unless it is there already. A byte that is no valid
header is not counted. -/
def receiveFirst (s : MqttInput) : RecvFlow :=
  if s.readLen = 0 then
    (s.read 1).andThen fun s' =>
      if mqttHasValidMsgHdr s'.inBuffer 1 then .go s' else .err { s' with inBuffer := s.inBuffer }
  else .go s

/-- The test in front of and at the end of the loop over the length bytes. -/
def InLengthLoop (buffer : List UInt8) : Prop :=
  buffer.length = 1 ∨ (buffer.length < 6 ∧ bufferAt buffer (buffer.length - 1) &&& 0x80 ≠ 0)

instance (buffer : List UInt8) : Decidable (InLengthLoop buffer) :=
  inferInstanceAs (Decidable (_ ∨ _))

/-- The loop over the length bytes; it takes five of them at most. -/
def receiveLength : Nat → MqttInput → RecvFlow
  | 0, s => .go s
  | k + 1, s =>
      if InLengthLoop s.inBuffer then (s.read 1).andThen (receiveLength k) else .go s

/-- A read of `n` bytes, unless `target` bytes are there already, after
which they have to be. -/
def receiveUpTo (target n : Nat) (s : MqttInput) : RecvFlow :=
  if s.readLen < target then
    (s.read n).andThen fun s => if s.readLen < target then .wait s else .go s
  else .go s

/-- "read next 2 bytes - topic length to get minimum portion of publish packet" -/
def receiveTopicLen (fixedHeaderLen : Nat) (s : MqttInput) : RecvFlow :=
  receiveUpTo (fixedHeaderLen + 2) (s.readLen - fixedHeaderLen + 2) s

/-- "read the rest of the mqtt message" -/
def receiveRest (totalLen : Nat) (s : MqttInput) : RecvFlow :=
  receiveUpTo totalLen (totalLen - s.readLen) s

/-- A PUBLISH that does not fit: "we only need to read full topic, data can
be split to multiple data event". -/
def receiveLong (inBufferLength fixedHeaderLen : Nat) (s : MqttInput) : RecvFlow :=
  (receiveTopicLen fixedHeaderLen s).andThen fun s =>
    let topicLen := msbLsbAt s.inBuffer fixedHeaderLen
    let totalLen := fixedHeaderLen + topicLen + if mqttGetQos s.inBuffer > 0 then 2 else 0
    if inBufferLength < totalLen then .err s else receiveRest inBufferLength s

/-- What follows the fixed header. `total_len` is compared with the size of
the buffer as an `int`, and with what has been read as a `size_t`. -/
def receiveBody (inBufferLength : Nat) (s : MqttInput) : RecvFlow :=
  let totalLen := mqttGetTotalLength s.inBuffer s.readLen
  let fixedHeaderLen := fixedHeaderLen s.inBuffer s.readLen
  let s := s.setMessageLength totalLen
  if (inBufferLength : Int) < toInt32 totalLen then
    if mqttGetType s.inBuffer = some .publish then receiveLong inBufferLength fixedHeaderLen s
    else .err s
  else receiveRest totalLen s

/-- `mqtt_message_receive` -/
def mqttMessageReceive (inBufferLength : Nat) (s : MqttInput) : Int × MqttInput :=
  ((receiveFirst (s.setMessageLength 0)).andThen fun s =>
    (receiveLength 5 s).andThen (receiveBody inBufferLength)).result

/-- The calls up to the first that does not return 0. -/
def receiveMessage (inBufferLength : Nat) : Nat → MqttInput → Option (Int × MqttInput)
  | 0, _ => none
  | n + 1, s =>
      let r := mqttMessageReceive inBufferLength s
      if r.1 = 0 then receiveMessage inBufferLength n r.2 else some r

/-! ## One read -/

namespace MqttInput

/-- All there is of the stream: what has been read and what can be. -/
def seen (s : MqttInput) : List UInt8 := s.inBuffer ++ s.transport.stream

/-- `s'` comes after some reads from `s`: nothing of the stream is lost or
put twice. -/
structure After (s s' : MqttInput) : Prop where
  seen_eq : s'.seen = s.seen
  clean : s'.transport.Clean
  le : s.readLen ≤ s'.readLen
  pieces_le : s'.transport.length ≤ s.transport.length

theorem After.refl {s : MqttInput} (h : s.transport.Clean) : After s s :=
  ⟨rfl, h, le_rfl, le_rfl⟩

theorem After.trans {s t u : MqttInput} (h : After s t) (h' : After t u) : After s u :=
  ⟨h'.seen_eq.trans h.seen_eq, h'.clean, h.le.trans h'.le, h'.pieces_le.trans h.pieces_le⟩

/-- The buffer is always the beginning of the stream. -/
theorem After.inBuffer_eq {s s' : MqttInput} (h : After s s') :
    s'.inBuffer = s.seen.take s'.readLen := by
  rw [← h.seen_eq, seen, readLen, List.take_left]

theorem length_seen (s : MqttInput) : s.seen.length = s.readLen + s.transport.stream.length := by
  simp [seen, readLen]

/-- What the buffer gains, the transport loses. -/
theorem After.weight_add_le {s s' : MqttInput} (h : After s s') :
    s'.transport.weight + s'.readLen ≤ s.transport.weight + s.readLen := by
  have hs := s.length_seen
  have hs' := s'.length_seen
  have := h.pieces_le
  rw [h.seen_eq] at hs'
  simp only [Feed.weight]
  omega

/-- **One read.** It waits where it is and uses a piece up, or brings up to
`n` bytes. -/
theorem read_spec {s : MqttInput} (h : s.transport.Clean) {n : Nat} (hn : 0 < n) :
    (∃ s', s.read n = .wait s' ∧ After s s' ∧ s'.readLen = s.readLen ∧
        s'.messageLength = s.messageLength ∧
        (0 < s.transport.weight → s'.transport.weight < s.transport.weight)) ∨
      ∃ s', s.read n = .go s' ∧ After s s' ∧ s.readLen < s'.readLen ∧
        s'.readLen ≤ s.readLen + n ∧ s'.messageLength = s.messageLength := by
  obtain ⟨got, hgot, hlen, hstream, hclean, hpieces, hnone⟩ := Feed.read_of_clean (n := n) h
  have hr : s.transport.read n = (some got, (s.transport.read n).2) := Prod.ext hgot rfl
  cases got with
  | nil =>
      left
      refine ⟨{ s with transport := (s.transport.read n).2 }, by rw [read, hr],
        ⟨?_, hclean, le_rfl, hpieces⟩, rfl, rfl, fun hw => ?_⟩
      · simp only [seen, hstream, List.nil_append]
      · have := hnone hn rfl hw
        simp only [Feed.weight, hstream, List.nil_append]
        omega
  | cons b bs =>
      right
      refine ⟨{ s with inBuffer := s.inBuffer ++ b :: bs, transport := (s.transport.read n).2 },
        by rw [read, hr], ⟨?_, hclean, ?_, hpieces⟩, ?_, ?_, rfl⟩
      · simp only [seen, hstream, List.append_assoc]
      · simp [readLen]
      · simp [readLen]
      · simp only [readLen, List.length_append]
        omega

end MqttInput

end LiveWireSwitch
