import LiveWireSwitch.EspMqtt.Msg
import Mathlib.Data.Nat.Bitwise

/-!
# EspMqtt.Packet — what a packet is on the wire

The form that MQTT 3.1.1 gives to a control packet, on its own: a type
byte, the length of the rest in groups of seven bits, and the rest. What
`mqtt_msg.c` writes is compared with it, and what it reads out of a buffer
is what the packet was made of.
-/

namespace LiveWireSwitch

open Lib

/-- A control packet; four length bytes are enough for it. -/
structure Packet where
  head : UInt8
  body : List UInt8
  short : body.length < 128 ^ 4

namespace Packet

/-- The remaining length. -/
def lens (p : Packet) : List UInt8 := VarInt.encode 4 p.body.length

def bytes (p : Packet) : List UInt8 := p.head :: (p.lens ++ p.body)

/-- How many bytes the fixed header takes. -/
def fixedLen (p : Packet) : Nat := 1 + p.lens.length

end Packet

/-- What a PUBLISH says. -/
structure Publication where
  topic : List UInt8
  payload : List UInt8
  dup : Nat
  qos : Nat
  retain : Nat
  id : UInt16
  topic_ne : topic ≠ []
  topic_short : topic.length < 2 ^ 16
  dup_le : dup ≤ 1
  qos_lt : qos < 3
  retain_le : retain ≤ 1
  short : topic.length + payload.length + 4 < 128 ^ 4

namespace Publication

/-- The id of the message, which QoS 0 does without. -/
def idBytes (m : Publication) : List UInt8 := if m.qos > 0 then msbLsb m.id.toNat else []

/-- The variable header. -/
def varHeader (m : Publication) : List UInt8 := msbLsb m.topic.length ++ m.topic ++ m.idBytes

theorem length_varHeader_le (m : Publication) : m.varHeader.length ≤ m.topic.length + 4 := by
  simp only [varHeader, idBytes, msbLsb]
  split <;> simp

def packet (m : Publication) : Packet where
  head := typeByte .publish m.dup m.qos m.retain
  body := m.varHeader ++ m.payload
  short := by
    have := m.length_varHeader_le
    have := m.short
    rw [List.length_append]
    omega

def bytes (m : Publication) : List UInt8 := m.packet.bytes

/-- Everything in front of the payload. -/
def header (m : Publication) : List UInt8 :=
  m.packet.head :: (m.packet.lens ++ m.varHeader)

theorem bytes_eq (m : Publication) : m.bytes = m.header ++ m.payload := by
  simp [bytes, Packet.bytes, header, packet]

end Publication

/-! ## Two bytes for a number -/

theorem and_ff (n : Nat) : n &&& 0xff = n % 256 := Nat.and_two_pow_sub_one_eq_mod n 8

theorem or_of_shift (a b : Nat) (hb : b < 256) : a <<< 8 ||| b = a * 256 + b := by
  rw [Nat.shiftLeft_eq, show a * 2 ^ 8 = 2 ^ 8 * a by omega]
  rw [← Nat.two_pow_add_eq_or_of_lt (i := 8) (by omega) a]
  omega

@[simp] theorem length_msbLsb (n : Nat) : (msbLsb n).length = 2 := rfl

theorem bufferAt_append_left {xs ys : List UInt8} {i : Nat} (h : i < xs.length) :
    bufferAt (xs ++ ys) i = bufferAt xs i := by
  simp [bufferAt, List.getD_eq_getElem?_getD, List.getElem?_append_left h]

theorem bufferAt_append_right (xs ys : List UInt8) (i : Nat) :
    bufferAt (xs ++ ys) (xs.length + i) = bufferAt ys i := by
  simp [bufferAt, List.getD_eq_getElem?_getD, List.getElem?_append_right]

theorem msbLsbAt_msbLsb {n : Nat} (hn : n < 2 ^ 16) (front rest : List UInt8) :
    msbLsbAt (front ++ (msbLsb n ++ rest)) front.length = n := by
  have h0 : bufferAt (front ++ (msbLsb n ++ rest)) front.length = .ofNat (n >>> 8) := by
    simp [msbLsb, bufferAt]
  have h1 : bufferAt (front ++ (msbLsb n ++ rest)) (front.length + 1) = .ofNat (n &&& 0xff) := by
    simp [msbLsb, bufferAt]
  rw [msbLsbAt, h0, h1, UInt8.toNat_ofNat', UInt8.toNat_ofNat', and_ff, Nat.shiftRight_eq_div_pow]
  rw [or_of_shift _ _ (by omega)]
  omega

theorem toInt32_of_lt {n : Nat} (h : n < 2 ^ 31) : toInt32 n = n := by
  show Int.bmod n 4294967296 = n
  rw [Int.bmod_eq_of_le]
  · show -(4294967296 / 2 : Int) ≤ n
    omega
  · show (n : Int) < (4294967296 + 1) / 2
    omega

/-! ## The fixed header -/

theorem lengthLoop_eq (i : Nat) (bs : List UInt8) :
    lengthLoop (i + 1) bs = ((VarInt.scan bs).1 * 128 ^ i, (VarInt.scan bs).2) := by
  induction bs generalizing i with
  | nil => simp [lengthLoop]
  | cons b bs ih =>
      have hpow : 2 ^ (7 * (i + 1 - 1)) = 128 ^ i := by
        rw [Nat.add_sub_cancel, pow_mul]
        rfl
      have hhere : (b &&& 0x7f).toNat <<< (7 * (i + 1 - 1)) = VarInt.group b * 128 ^ i := by
        rw [Nat.shiftLeft_eq, hpow, VarInt.group]
      simp only [lengthLoop, hhere]
      by_cases h : VarInt.More b
      · rw [if_neg h, VarInt.scan_cons_more h, ih (i + 1)]
        simp only [Prod.mk.injEq, and_true, pow_succ]
        ring
      · rw [if_pos (not_not.mp h), VarInt.scan_cons_last h]

namespace Packet

theorem lens_length_pos (p : Packet) : 0 < p.lens.length := VarInt.encode_length_pos 4 _

theorem lens_length_le (p : Packet) : p.lens.length ≤ 4 :=
  (VarInt.encode_length_le_iff (by have := p.short; omega) (by decide)).mpr p.short

theorem scan_lens (p : Packet) (rest : List UInt8) :
    VarInt.scan (p.lens ++ rest) = (p.body.length, p.lens.length) :=
  VarInt.scan_encode (by have := p.short; omega) rest

theorem length_bytes (p : Packet) : p.bytes.length = p.fixedLen + p.body.length := by
  simp [bytes, fixedLen]
  omega

/-- The loop over the length bytes, once it has all of them before it. -/
theorem lengthLoop_lengthBytes (p : Packet) (rest : List UInt8) {n : Nat}
    (hn : p.fixedLen ≤ n) :
    lengthLoop 1 (lengthBytes (p.head :: (p.lens ++ rest)) n) =
      (p.body.length, p.lens.length) := by
  obtain ⟨m, rfl⟩ : ∃ m, n = (1 + p.lens.length) + m := ⟨n - p.fixedLen, by
    have : p.fixedLen = 1 + p.lens.length := rfl
    omega⟩
  have hb : lengthBytes (p.head :: (p.lens ++ rest)) (1 + p.lens.length + m) =
      p.lens ++ rest.take m := by
    rw [lengthBytes, show 1 + p.lens.length + m = (p.lens.length + m) + 1 by omega,
      List.take_succ_cons, List.drop_one, List.tail_cons, List.take_length_add_append]
  rw [hb, lengthLoop_eq 0, p.scan_lens]
  simp

theorem fixedHeaderLen_eq (p : Packet) (rest : List UInt8) {n : Nat} (hn : p.fixedLen ≤ n) :
    fixedHeaderLen (p.head :: (p.lens ++ rest)) n = p.fixedLen := by
  rw [fixedHeaderLen, p.lengthLoop_lengthBytes rest hn, fixedLen]

theorem mqttGetTotalLength_eq (p : Packet) (rest : List UInt8) {n : Nat}
    (hn : p.fixedLen ≤ n) :
    mqttGetTotalLength (p.head :: (p.lens ++ rest)) n = p.bytes.length := by
  have := p.short
  have := p.lens_length_le
  rw [mqttGetTotalLength, p.fixedHeaderLen_eq rest hn, p.lengthLoop_lengthBytes rest hn,
    p.length_bytes, Nat.add_comm, Nat.mod_eq_of_lt]
  simp only [fixedLen]
  omega

end Packet

/-! ## The type byte -/

/-- The fields of a type byte, over all of its values. -/
theorem typeByte_fields (type : MqttMessageType) {dup qos retain : Nat} (hd : dup ≤ 1)
    (hq : qos < 4) (hr : retain ≤ 1) (bs : List UInt8) :
    let buffer := typeByte type dup qos retain :: bs
    mqttGetType buffer = some type ∧ mqttGetDup buffer = dup ∧ mqttGetQos buffer = qos ∧
      mqttGetRetain buffer = retain := by
  have hall : ∀ (d : Fin 2) (q : Fin 4) (r : Fin 2),
      MqttMessageType.ofCode ((typeByte type d q r &&& 0xf0) >>> 4).toNat = some type ∧
      ((typeByte type d q r &&& 0x08) >>> 3).toNat = d ∧
      ((typeByte type d q r &&& 0x06) >>> 1).toNat = q ∧
      (typeByte type d q r &&& 0x01).toNat = r := by
    cases type <;> decide
  exact hall ⟨dup, by omega⟩ ⟨qos, hq⟩ ⟨retain, by omega⟩

namespace Publication

theorem head_fields (m : Publication) (bs : List UInt8) :
    mqttGetType (m.packet.head :: bs) = some .publish ∧ mqttGetDup (m.packet.head :: bs) = m.dup ∧
      mqttGetQos (m.packet.head :: bs) = m.qos ∧ mqttGetRetain (m.packet.head :: bs) = m.retain :=
  typeByte_fields .publish m.dup_le (by have := m.qos_lt; omega) m.retain_le bs

@[simp] theorem mqttGetType_header (m : Publication) (bs : List UInt8) :
    mqttGetType (m.header ++ bs) = some .publish := (m.head_fields _).1

@[simp] theorem mqttGetQos_header (m : Publication) (bs : List UInt8) :
    mqttGetQos (m.header ++ bs) = m.qos := (m.head_fields _).2.2.1

/-! ## The header of a PUBLISH in a buffer -/

theorem length_header (m : Publication) :
    m.header.length = m.packet.fixedLen + 2 + m.topic.length + m.idBytes.length := by
  simp only [header, varHeader, Packet.fixedLen, List.length_cons, List.length_append,
    length_msbLsb]
  omega

theorem length_idBytes (m : Publication) : m.idBytes.length = if m.qos > 0 then 2 else 0 := by
  unfold idBytes
  split <;> rfl

theorem fixedHeaderLen_header (m : Publication) (bs : List UInt8) {n : Nat}
    (hn : m.packet.fixedLen ≤ n) : fixedHeaderLen (m.header ++ bs) n = m.packet.fixedLen := by
  have := m.packet.fixedHeaderLen_eq (m.varHeader ++ bs) hn
  simpa [header] using this

theorem mqttGetTotalLength_header (m : Publication) (bs : List UInt8) {n : Nat}
    (hn : m.packet.fixedLen ≤ n) : mqttGetTotalLength (m.header ++ bs) n = m.bytes.length := by
  have := m.packet.mqttGetTotalLength_eq (m.varHeader ++ bs) hn
  simpa [header, bytes] using this

/-- The header, cut where its fixed part ends. -/
theorem header_append (m : Publication) (bs : List UInt8) :
    m.header ++ bs = (m.packet.head :: m.packet.lens) ++
      (msbLsb m.topic.length ++ (m.topic ++ (m.idBytes ++ bs))) := by
  simp [header, varHeader]

theorem length_fixed (m : Publication) :
    (m.packet.head :: m.packet.lens).length = m.packet.fixedLen := by
  simp [Packet.fixedLen]
  omega

theorem msbLsbAt_topic (m : Publication) (bs : List UInt8) :
    msbLsbAt (m.header ++ bs) m.packet.fixedLen = m.topic.length := by
  rw [m.header_append, ← m.length_fixed]
  exact msbLsbAt_msbLsb m.topic_short _ _

theorem drop_topic (m : Publication) (bs : List UInt8) :
    (m.header ++ bs).drop (m.packet.fixedLen + 2) = m.topic ++ (m.idBytes ++ bs) := by
  have h : (m.packet.head :: m.packet.lens ++ msbLsb m.topic.length).length =
      m.packet.fixedLen + 2 := by
    rw [List.length_append, m.length_fixed, length_msbLsb]
  rw [m.header_append, ← List.append_assoc, ← h, List.drop_left]

/-- The topic is read back from any part of a buffer that has the header. -/
theorem mqttGetPublishTopic_header (m : Publication) (bs : List UInt8) {n : Nat}
    (hn : m.header.length ≤ n) : mqttGetPublishTopic (m.header ++ bs) n = some m.topic := by
  have htopic : 0 < m.topic.length := List.length_pos_of_ne_nil m.topic_ne
  have hlen := m.length_header
  rw [mqttGetPublishTopic, m.fixedHeaderLen_header bs (by omega), m.msbLsbAt_topic]
  dsimp only
  rw [if_neg (by omega), if_neg (by omega), m.drop_topic, List.take_left]

/-- So is the id, with QoS 1 and 2. -/
theorem mqttGetId_header (m : Publication) (bs : List UInt8) {n : Nat}
    (hn : m.header.length ≤ n) :
    mqttGetId (m.header ++ bs) n = if m.qos > 0 then m.id else 0 := by
  have htopic : 0 < m.topic.length := List.length_pos_of_ne_nil m.topic_ne
  have hlen := m.length_header
  have hid := m.length_idBytes
  unfold mqttGetId
  simp only [m.mqttGetType_header, m.mqttGetQos_header,
    m.fixedHeaderLen_header bs (by omega : m.packet.fixedLen ≤ n), m.msbLsbAt_topic]
  rw [if_neg (by omega), if_neg (by omega), if_neg (by omega)]
  by_cases hq : m.qos > 0
  · rw [if_pos hq] at hid
    rw [if_pos hq, if_pos hq, if_neg (by omega)]
    have hfront : (m.packet.head :: m.packet.lens ++ msbLsb m.topic.length ++ m.topic).length =
        m.packet.fixedLen + 2 + m.topic.length := by
      rw [List.length_append, List.length_append, m.length_fixed, length_msbLsb]
    have hcut : m.header ++ bs = (m.packet.head :: m.packet.lens ++ msbLsb m.topic.length ++
        m.topic) ++ (msbLsb m.id.toNat ++ bs) := by
      simp [header, varHeader, idBytes, if_pos hq]
    rw [hcut, ← hfront, msbLsbAt_msbLsb m.id.toNat_lt]
    exact UInt16.ofNat_toNat
  · rw [if_neg hq, if_neg hq]

theorem length_bytes (m : Publication) : m.bytes.length = m.header.length + m.payload.length := by
  rw [m.bytes_eq, List.length_append]

theorem length_bytes_lt (m : Publication) : m.bytes.length < 2 ^ 28 + 5 := by
  have := m.packet.short
  have := m.packet.lens_length_le
  have := m.packet.length_bytes
  simp only [Packet.fixedLen] at this
  show m.packet.bytes.length < 2 ^ 28 + 5
  omega

theorem drop_header (m : Publication) (bs : List UInt8) :
    (m.header ++ bs).drop m.header.length = bs := List.drop_left

/-- And the payload, or what has arrived of it. -/
theorem mqttGetPublishData_header (m : Publication) (bs : List UInt8) {n : Nat}
    (hn : m.header.length ≤ n) :
    (mqttGetPublishData (m.header ++ bs) n).getD [] =
      bs.take (min n m.bytes.length - m.header.length) := by
  have htopic : 0 < m.topic.length := List.length_pos_of_ne_nil m.topic_ne
  have hlen := m.length_header
  have hid := m.length_idBytes
  have htotal := m.length_bytes
  have hint : toInt32 m.bytes.length = m.bytes.length :=
    toInt32_of_lt (by have := m.length_bytes_lt; omega)
  unfold mqttGetPublishData
  simp only [m.mqttGetQos_header, m.fixedHeaderLen_header bs (by omega : m.packet.fixedLen ≤ n),
    m.mqttGetTotalLength_header bs (by omega : m.packet.fixedLen ≤ n), m.msbLsbAt_topic, hint]
  -- the offset of the payload, with and without an id
  have hi : (if m.qos > 0 then m.packet.fixedLen + 2 + m.topic.length + 2
      else m.packet.fixedLen + 2 + m.topic.length) = m.header.length := by
    split at hid <;> simp_all
  rw [if_neg (by omega), hi]
  by_cases hfull : n = m.header.length
  · have hnil : min n m.bytes.length - m.header.length = 0 := by omega
    rw [hnil, List.take_zero]
    by_cases hq : m.qos > 0
    · rw [if_pos hq] at hid
      rw [if_neg (by omega), if_pos ⟨hq, by omega⟩]
      rfl
    · rw [if_neg hq] at hid
      rw [if_pos (by omega)]
      rfl
  · have hlt : m.header.length < n := by omega
    rw [if_neg (by omega)]
    rw [if_neg (by split at hid <;> omega), if_neg (by omega), m.drop_header]
    have hcount : (if (m.bytes.length : Int) ≤ n then (m.bytes.length : Int) - m.header.length
        else n - m.header.length).toNat = min n m.bytes.length - m.header.length := by
      split <;> omega
    rw [hcount, Option.getD_some]

end Publication

end LiveWireSwitch
