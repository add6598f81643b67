import LiveWireSwitch.EspMqtt.Receive

/-!
# EspMqtt.Resume — a packet that arrives in several calls

What one call of `mqtt_message_receive` does with the packet it is in, from
any byte of it and however the transport cuts the stream. A call that goes
on from an earlier one tests the last byte it has as if that were a length
byte. The test is harmless unless it goes on past the end of the packet,
which only a packet of at most five bytes allows.
-/

namespace LiveWireSwitch

open Lib
open VarInt (More)

namespace Packet

/-- The packet is short and its last two bytes look like length bytes that
are not the last. -/
def Fragile (p : Packet) : Prop :=
  p.bytes.length < 6 ∧ 2 ≤ p.body.length ∧ More (bufferAt p.body (p.body.length - 2)) ∧
    More (bufferAt p.body (p.body.length - 1))

instance (p : Packet) : Decidable p.Fragile := inferInstanceAs (Decidable (_ ∧ _))

/-- What `mqtt_message_receive` takes: a valid first byte, and room for the
packet or, of a PUBLISH, for its header as `mqtt_message_receive` counts
it (without the two bytes of the topic's length). -/
def Accepted (inBufferLength : Nat) (p : Packet) : Prop :=
  mqttHasValidMsgHdr p.bytes 1 ∧
    (p.bytes.length ≤ inBufferLength ∨
      mqttGetType p.bytes = some .publish ∧
        p.fixedLen + msbLsbAt p.bytes p.fixedLen + (if mqttGetQos p.bytes > 0 then 2 else 0) ≤
          inBufferLength)

/-- How much of the packet is in the buffer when the call returns 1. -/
def received (inBufferLength : Nat) (p : Packet) : Nat := min p.bytes.length inBufferLength

/-! ## The bytes of a packet by their places -/

theorem fixedLen_le (p : Packet) : p.fixedLen ≤ 5 := by
  have := p.lens_length_le
  simp only [fixedLen]
  omega

theorem two_le_fixedLen (p : Packet) : 2 ≤ p.fixedLen := by
  have := p.lens_length_pos
  simp only [fixedLen]
  omega

theorem bufferAt_lens (p : Packet) {i : Nat} (hi : i < p.lens.length) :
    bufferAt p.bytes (i + 1) = bufferAt p.lens i := by
  have h : bufferAt p.bytes (i + 1) = bufferAt (p.lens ++ p.body) i := by simp [bytes, bufferAt]
  rw [h, bufferAt_append_left hi]

theorem bufferAt_body (p : Packet) (i : Nat) :
    bufferAt p.bytes (p.fixedLen + i) = bufferAt p.body i := by
  have h : bufferAt p.bytes (p.fixedLen + i) = bufferAt (p.lens ++ p.body) (p.lens.length + i) := by
    rw [bytes, fixedLen, show 1 + p.lens.length + i = (p.lens.length + i) + 1 by omega]
    rfl
  rw [h, bufferAt_append_right]

/-- The length bytes but the last have the top bit. -/
theorem more_lens (p : Packet) {i : Nat} (hi : 1 ≤ i) (hlt : i + 1 < p.fixedLen) :
    More (bufferAt p.bytes i) := by
  obtain ⟨front, last, hf, hmore, -⟩ := VarInt.encode_shape 4 p.body.length
  have hlen : p.lens = front ++ [last] := hf
  have hfront : i - 1 < front.length := by
    simp only [fixedLen, hlen, List.length_append, List.length_singleton] at hlt
    omega
  obtain ⟨j, rfl⟩ : ∃ j, i = j + 1 := ⟨i - 1, by omega⟩
  rw [p.bufferAt_lens (by simp only [fixedLen] at hlt; omega), hlen,
    bufferAt_append_left (by simpa using hfront)]
  apply hmore
  simp only [Nat.add_sub_cancel] at hfront
  simp [bufferAt, List.getD_eq_getElem?_getD, hfront]

/-- The last length byte has not. -/
theorem not_more_lens (p : Packet) : ¬ More (bufferAt p.bytes (p.fixedLen - 1)) := by
  obtain ⟨front, last, hf, -, hlast⟩ := VarInt.encode_shape 4 p.body.length
  have hlen : p.lens = front ++ [last] := hf
  have hi : p.fixedLen - 1 = front.length + 1 := by
    simp only [fixedLen, hlen, List.length_append, List.length_singleton]
    omega
  rw [hi, p.bufferAt_lens (by simp [hlen]), hlen]
  have := bufferAt_append_right front [last] 0
  rw [Nat.add_zero] at this
  rw [this]
  exact hlast

end Packet

/-! ## The test of the loop, by the number of bytes read -/

/-- `InLengthLoop` on the first `i` bytes of a packet. -/
def Packet.LoopAt (p : Packet) (i : Nat) : Prop :=
  i = 1 ∨ (i < 6 ∧ More (bufferAt p.bytes (i - 1)))

theorem inLengthLoop_take (p : Packet) {i : Nat} (hi : 1 ≤ i) (hle : i ≤ p.bytes.length) :
    InLengthLoop (p.bytes.take i) ↔ p.LoopAt i := by
  have hlen : (p.bytes.take i).length = i := by
    rw [List.length_take]
    omega
  have hbyte : bufferAt (p.bytes.take i) (i - 1) = bufferAt p.bytes (i - 1) := by
    simp only [bufferAt, List.getD_eq_getElem?_getD]
    rw [List.getElem?_take_of_lt (by omega)]
  rw [InLengthLoop, hlen, hbyte]
  rfl

namespace Packet

/-- The loop does not end inside the fixed header. -/
theorem fixedLen_le_of_not_loopAt (p : Packet) {i : Nat} (hi : 1 ≤ i) (h : ¬ p.LoopAt i) :
    p.fixedLen ≤ i := by
  by_contra hlt
  have hfixed := p.fixedLen_le
  apply h
  by_cases h1 : i = 1
  · exact .inl h1
  · exact .inr ⟨by omega, p.more_lens (by omega) (by omega)⟩

/-- **It does not go past the end** of a packet that is not fragile. -/
theorem not_loopAt_length (p : Packet) (h : ¬ p.Fragile) {i : Nat} (hi : p.LoopAt i)
    (hlast : i + 1 = p.bytes.length) : ¬ p.LoopAt p.bytes.length := by
  have hfixed := p.two_le_fixedLen
  have hlen := p.length_bytes
  rintro (h1 | ⟨h6, hmore⟩)
  · omega
  · -- how far the last byte is behind the length bytes
    by_cases hb : 2 ≤ p.body.length
    · apply h
      refine ⟨h6, hb, ?_, ?_⟩
      · rw [← p.bufferAt_body]
        obtain h1 | ⟨-, hm⟩ := hi
        · omega
        · rwa [show i - 1 = p.fixedLen + (p.body.length - 2) by omega] at hm
      · rwa [← p.bufferAt_body, show p.fixedLen + (p.body.length - 1) = p.bytes.length - 1 by omega]
    · have hn := p.not_more_lens
      by_cases hb0 : p.body.length = 0
      · apply hn
        rwa [show p.fixedLen - 1 = p.bytes.length - 1 by omega]
      · obtain h1 | ⟨-, hm⟩ := hi
        · omega
        · apply hn
          rwa [show p.fixedLen - 1 = i - 1 by omega]

end Packet

/-! ## The parts of a call -/

/-- The stream goes on with the packet, as far as it has come. -/
def MqttInput.Agrees (s : MqttInput) (p : Packet) : Prop :=
  ∃ later rest, s.seen ++ later = p.bytes ++ rest

namespace MqttInput

theorem Agrees.after {s s' : MqttInput} {p : Packet} (h : s.Agrees p) (ha : After s s') :
    s'.Agrees p := by
  obtain ⟨later, rest, h⟩ := h
  exact ⟨later, rest, by rw [ha.seen_eq, h]⟩

theorem Agrees.inBuffer_eq {s : MqttInput} {p : Packet} (h : s.Agrees p)
    (hle : s.readLen ≤ p.bytes.length) : s.inBuffer = p.bytes.take s.readLen := by
  obtain ⟨later, rest, h⟩ := h
  have hs : s.inBuffer = (s.seen ++ later).take s.readLen := by
    rw [seen, readLen, List.append_assoc, List.take_left]
  rw [hs, h, List.take_append_of_le_length hle]

end MqttInput

open MqttInput

/-- A part of the call returns 0: less than `most` bytes are there, and
something has been taken from the transport if it had anything. -/
structure Waits (s : MqttInput) (most : Nat) (s' : MqttInput) : Prop where
  after : After s s'
  lt : s'.readLen < most
  progress : 0 < s.transport.weight → s'.transport.weight < s.transport.weight

theorem Waits.of_after {s t u : MqttInput} {most : Nat} (h : After s t) (h' : Waits t most u) :
    Waits s most u where
  after := h.trans h'.after
  lt := h'.lt
  progress := fun hs => by
    have := h.weight_add_le
    have := h.le
    have := h'.after.weight_add_le
    have := h'.after.le
    by_cases ht : 0 < t.transport.weight
    · have := h'.progress ht
      omega
    · omega

/-- A part of the call ends with `least` bytes or more, and not more than
`most`. -/
structure Goes (s : MqttInput) (least most : Nat) (s' : MqttInput) : Prop where
  after : After s s'
  least_le : least ≤ s'.readLen
  le_most : s'.readLen ≤ most

/-- The loop over the length bytes, anywhere in a packet that is not
fragile. -/
theorem receiveLength_spec {p : Packet} (hp : ¬ p.Fragile) {s : MqttInput}
    (hclean : s.transport.Clean) (hs : s.Agrees p) (h1 : 1 ≤ s.readLen)
    (hle : s.readLen ≤ p.bytes.length)
    (hend : s.readLen = p.bytes.length → ¬ p.LoopAt s.readLen) {k : Nat}
    (hk : 6 ≤ k + s.readLen) :
    (∃ s', receiveLength k s = .wait s' ∧ Waits s (min 6 p.bytes.length) s') ∨
      ∃ s', receiveLength k s = .go s' ∧
        Goes s p.fixedLen (min (max s.readLen 6) p.bytes.length) s' := by
  induction k generalizing s with
  | zero =>
      right
      have := p.fixedLen_le
      exact ⟨s, rfl, .refl hclean, by omega, by omega⟩
  | succ k ih =>
      have htest : InLengthLoop s.inBuffer ↔ p.LoopAt s.readLen := by
        rw [hs.inBuffer_eq hle]
        exact inLengthLoop_take p h1 hle
      by_cases hloop : p.LoopAt s.readLen
      · have hlt : s.readLen < p.bytes.length := by
          by_contra hge
          exact hend (by omega) hloop
        have hsix : s.readLen < 6 := by
          obtain h | h := hloop
          · omega
          · exact h.1
        rw [receiveLength, if_pos (htest.mpr hloop)]
        obtain ⟨t, ht, ha, hlen, -, hw⟩ | ⟨t, ht, ha, hgt, hlen, -⟩ :=
          read_spec (n := 1) hclean (by decide)
        · left
          exact ⟨t, by rw [ht]; rfl, ha, by omega, hw⟩
        · have hnext : t.readLen = s.readLen + 1 := by omega
          rw [ht, RecvFlow.andThen_go]
          have hend' : t.readLen = p.bytes.length → ¬ p.LoopAt t.readLen := by
            intro hlast
            rw [hlast]
            exact p.not_loopAt_length hp hloop (by omega)
          obtain ⟨u, hu, hwaits⟩ | ⟨u, hu, hgoes⟩ :=
            ih ha.clean (hs.after ha) (by omega) (by omega) hend' (by omega)
          · left
            exact ⟨u, hu, .of_after ha hwaits⟩
          · right
            have := hgoes.le_most
            exact ⟨u, hu, ha.trans hgoes.after, hgoes.least_le, by omega⟩
      · right
        rw [receiveLength, if_neg (htest.not.mpr hloop)]
        exact ⟨s, rfl, .refl hclean, p.fixedLen_le_of_not_loopAt h1 hloop, by omega⟩

/-- A read up to `target`. -/
theorem receiveUpTo_spec {s : MqttInput} (hclean : s.transport.Clean) (target n : Nat)
    (hn : s.readLen < target → 0 < n) :
    (∃ s', receiveUpTo target n s = .wait s' ∧ Waits s target s') ∨
      ∃ s', receiveUpTo target n s = .go s' ∧
        Goes s target (if s.readLen < target then s.readLen + n else s.readLen) s' ∧
        s'.messageLength = s.messageLength := by
  unfold receiveUpTo
  by_cases hlt : s.readLen < target
  · rw [if_pos hlt, if_pos hlt]
    obtain ⟨t, ht, ha, hlen, -, hw⟩ | ⟨t, ht, ha, hgt, hlen, hml⟩ := read_spec hclean (hn hlt)
    · left
      exact ⟨t, by rw [ht]; rfl, ha, by omega, hw⟩
    · rw [ht, RecvFlow.andThen_go]
      by_cases hdone : t.readLen < target
      · left
        rw [if_pos hdone]
        refine ⟨t, rfl, ha, hdone, fun _ => ?_⟩
        have := ha.weight_add_le
        omega
      · right
        rw [if_neg hdone]
        exact ⟨t, rfl, ⟨ha, by omega, hlen⟩, hml⟩
  · right
    rw [if_neg hlt, if_neg hlt]
    exact ⟨s, rfl, ⟨.refl hclean, by omega, le_rfl⟩, rfl⟩

/-! ## What the call reads in the part of the packet it has -/

theorem bufferAt_take {bs : List UInt8} {i n : Nat} (h : i < n) :
    bufferAt (bs.take n) i = bufferAt bs i := by
  simp only [bufferAt, List.getD_eq_getElem?_getD]
  rw [List.getElem?_take_of_lt h]

theorem mqttGetType_take {bs : List UInt8} {n : Nat} (h : 0 < n) :
    mqttGetType (bs.take n) = mqttGetType bs := by
  rw [mqttGetType, bufferAt_take h, mqttGetType]

theorem mqttGetQos_take {bs : List UInt8} {n : Nat} (h : 0 < n) :
    mqttGetQos (bs.take n) = mqttGetQos bs := by
  rw [mqttGetQos, bufferAt_take h, mqttGetQos]

theorem mqttHasValidMsgHdr_take {bs : List UInt8} {n : Nat} (h : 0 < n) :
    mqttHasValidMsgHdr (bs.take n) 1 = mqttHasValidMsgHdr bs 1 := by
  unfold mqttHasValidMsgHdr
  rw [mqttGetType_take h, mqttGetQos_take h, mqttGetDup, bufferAt_take h, mqttGetDup]

theorem msbLsbAt_take {bs : List UInt8} {i n : Nat} (h : i + 1 < n) :
    msbLsbAt (bs.take n) i = msbLsbAt bs i := by
  rw [msbLsbAt, bufferAt_take (by omega), bufferAt_take h, msbLsbAt]

namespace Packet

/-- A part of the packet with its fixed header. -/
theorem bytes_take (p : Packet) {n : Nat} (hn : p.fixedLen ≤ n) :
    p.bytes.take n = p.head :: (p.lens ++ p.body.take (n - p.fixedLen)) := by
  obtain ⟨m, rfl⟩ : ∃ m, n = (p.lens.length + m) + 1 :=
    ⟨n - p.fixedLen, by simp only [fixedLen] at hn ⊢; omega⟩
  rw [bytes, List.take_succ_cons, List.take_length_add_append]
  simp only [fixedLen]
  rw [show p.lens.length + m + 1 - (1 + p.lens.length) = m by omega]

theorem fixedHeaderLen_take (p : Packet) {n : Nat} (hn : p.fixedLen ≤ n) :
    fixedHeaderLen (p.bytes.take n) n = p.fixedLen := by
  rw [p.bytes_take hn, p.fixedHeaderLen_eq _ hn]

theorem mqttGetTotalLength_take (p : Packet) {n : Nat} (hn : p.fixedLen ≤ n) :
    mqttGetTotalLength (p.bytes.take n) n = p.bytes.length := by
  rw [p.bytes_take hn, p.mqttGetTotalLength_eq _ hn]

theorem length_bytes_lt (p : Packet) : p.bytes.length < 2 ^ 28 + 5 := by
  have := p.short
  have := p.fixedLen_le
  have := p.length_bytes
  omega

end Packet

/-- The packet is in the buffer, or as much of it as fits. -/
structure Arrived (inBufferLength : Nat) (p : Packet) (s s' : MqttInput) : Prop where
  after : After s s'
  readLen_eq : s'.readLen = p.received inBufferLength
  messageLength_eq : s'.messageLength = p.bytes.length

theorem receiveRest_spec {s : MqttInput} (hclean : s.transport.Clean) {totalLen : Nat}
    (hle : s.readLen ≤ totalLen) :
    (∃ s', receiveRest totalLen s = .wait s' ∧ Waits s totalLen s') ∨
      ∃ s', receiveRest totalLen s = .go s' ∧ After s s' ∧ s'.readLen = totalLen ∧
        s'.messageLength = s.messageLength := by
  obtain h | ⟨s', hs', hgoes, hml⟩ :=
    receiveUpTo_spec hclean totalLen (totalLen - s.readLen) (by omega)
  · exact .inl h
  · refine .inr ⟨s', hs', hgoes.after, ?_, hml⟩
    have := hgoes.least_le
    have := hgoes.le_most
    split at this <;> omega

/-- What `message_length` is set to does not change what there is to read. -/
theorem MqttInput.After.of_setMessageLength {s s' : MqttInput} {n : Nat}
    (h : After (s.setMessageLength n) s') : After s s' :=
  ⟨h.seen_eq, h.clean, h.le, h.pieces_le⟩

theorem Waits.of_setMessageLength {s s' : MqttInput} {n most : Nat}
    (h : Waits (s.setMessageLength n) most s') : Waits s most s' :=
  ⟨h.after.of_setMessageLength, h.lt, h.progress⟩

theorem Waits.mono {s s' : MqttInput} {m n : Nat} (h : Waits s m s') (hmn : m ≤ n) :
    Waits s n s' :=
  ⟨h.after, h.lt.trans_le hmn, h.progress⟩

/-- The call on the part of a packet behind the fixed header. -/
theorem receiveBody_eq {p : Packet} {s : MqttInput} (hs : s.Agrees p)
    (hfixed : p.fixedLen ≤ s.readLen) (hle : s.readLen ≤ p.bytes.length) (inBufferLength : Nat) :
    receiveBody inBufferLength s =
      if inBufferLength < p.bytes.length then
        if mqttGetType p.bytes = some .publish then
          receiveLong inBufferLength p.fixedLen (s.setMessageLength p.bytes.length)
        else .err (s.setMessageLength p.bytes.length)
      else receiveRest p.bytes.length (s.setMessageLength p.bytes.length) := by
  have htwo := p.two_le_fixedLen
  have hbuf : s.inBuffer = p.bytes.take s.readLen := hs.inBuffer_eq hle
  have htotal : mqttGetTotalLength s.inBuffer s.readLen = p.bytes.length := by
    rw [hbuf, p.mqttGetTotalLength_take hfixed]
  have hfl : fixedHeaderLen s.inBuffer s.readLen = p.fixedLen := by
    rw [hbuf, p.fixedHeaderLen_take hfixed]
  have htype : mqttGetType s.inBuffer = mqttGetType p.bytes := by
    rw [hbuf, mqttGetType_take (by omega)]
  have hint : toInt32 p.bytes.length = p.bytes.length :=
    toInt32_of_lt (by have := p.length_bytes_lt; omega)
  unfold receiveBody
  simp only [setMessageLength_inBuffer, htotal, hint, hfl, htype, Nat.cast_lt]

/-- Only the header of a long PUBLISH has to fit. -/
theorem receiveLong_spec {p : Packet} {inBufferLength : Nat} (hL : 10 ≤ inBufferLength)
    (hlong : inBufferLength < p.bytes.length)
    (hroom : p.fixedLen + msbLsbAt p.bytes p.fixedLen +
      (if mqttGetQos p.bytes > 0 then 2 else 0) ≤ inBufferLength)
    {s : MqttInput} (hclean : s.transport.Clean) (hs : s.Agrees p)
    (hfixed : p.fixedLen ≤ s.readLen) (hle : s.readLen ≤ inBufferLength) :
    (∃ s', receiveLong inBufferLength p.fixedLen s = .wait s' ∧ Waits s inBufferLength s') ∨
      ∃ s', receiveLong inBufferLength p.fixedLen s = .go s' ∧ After s s' ∧
        s'.readLen = inBufferLength ∧ s'.messageLength = s.messageLength := by
  have htwo := p.two_le_fixedLen
  have hfive := p.fixedLen_le
  unfold receiveLong
  obtain ⟨t, ht, hwaits⟩ | ⟨t, ht, hgoes, hml⟩ :=
    receiveUpTo_spec hclean (p.fixedLen + 2) (s.readLen - p.fixedLen + 2) (by omega)
  · left
    exact ⟨t, by rw [receiveTopicLen, ht]; rfl, hwaits.mono (by omega)⟩
  · have hleast := hgoes.least_le
    have hmost : t.readLen ≤ inBufferLength := by
      have := hgoes.le_most
      split at this <;> omega
    have hbuf : t.inBuffer = p.bytes.take t.readLen :=
      (hs.after hgoes.after).inBuffer_eq (by omega)
    have htopic : msbLsbAt t.inBuffer p.fixedLen = msbLsbAt p.bytes p.fixedLen := by
      rw [hbuf, msbLsbAt_take (by omega)]
    have hqos : mqttGetQos t.inBuffer = mqttGetQos p.bytes := by
      rw [hbuf, mqttGetQos_take (by omega)]
    rw [receiveTopicLen, ht, RecvFlow.andThen_go]
    simp only [htopic, hqos]
    rw [if_neg (by omega)]
    obtain ⟨u, hu, hwaits⟩ | ⟨u, hu, ha, hlen, hml'⟩ :=
      receiveRest_spec hgoes.after.clean hmost
    · left
      exact ⟨u, hu, .of_after hgoes.after hwaits⟩
    · right
      exact ⟨u, hu, hgoes.after.trans ha, hlen, hml'.trans hml⟩

/-- From the fixed header on. -/
theorem receiveBody_spec {p : Packet} {inBufferLength : Nat} (hL : 10 ≤ inBufferLength)
    (hp : p.Accepted inBufferLength) {s : MqttInput} (hclean : s.transport.Clean)
    (hs : s.Agrees p) (hfixed : p.fixedLen ≤ s.readLen)
    (hle : s.readLen ≤ p.received inBufferLength) :
    (∃ s', receiveBody inBufferLength s = .wait s' ∧ Waits s (p.received inBufferLength) s') ∨
      ∃ s', receiveBody inBufferLength s = .go s' ∧ Arrived inBufferLength p s s' := by
  have hlen : s.readLen ≤ p.bytes.length := hle.trans (Nat.min_le_left _ _)
  rw [receiveBody_eq hs hfixed hlen]
  by_cases hlong : inBufferLength < p.bytes.length
  · have hrec : p.received inBufferLength = inBufferLength := Nat.min_eq_right hlong.le
    obtain hfits | ⟨htype, hroom⟩ := hp.2
    · omega
    · rw [if_pos hlong, if_pos htype, hrec]
      obtain ⟨u, hu, hwaits⟩ | ⟨u, hu, ha, hlen, hml⟩ :=
        receiveLong_spec hL hlong hroom (s := s.setMessageLength p.bytes.length) hclean hs hfixed
          (hle.trans hrec.le)
      · exact .inl ⟨u, hu, hwaits.of_setMessageLength⟩
      · exact .inr ⟨u, hu, ha.of_setMessageLength, hlen.trans hrec.symm, hml⟩
  · have hrec : p.received inBufferLength = p.bytes.length := Nat.min_eq_left (by omega)
    rw [if_neg hlong, hrec]
    obtain ⟨u, hu, hwaits⟩ | ⟨u, hu, ha, hlen, hml⟩ :=
      receiveRest_spec (s := s.setMessageLength p.bytes.length) hclean hlen
    · exact .inl ⟨u, hu, hwaits.of_setMessageLength⟩
    · exact .inr ⟨u, hu, ha.of_setMessageLength, hlen.trans hrec.symm, hml⟩

/-! ## A call -/

/-- The first byte. -/
theorem receiveFirst_spec {p : Packet} (hp : mqttHasValidMsgHdr p.bytes 1) {s : MqttInput}
    (hclean : s.transport.Clean) (hs : s.Agrees p) :
    (∃ s', receiveFirst s = .wait s' ∧ Waits s 1 s') ∨
      ∃ s', receiveFirst s = .go s' ∧ Goes s 1 (max s.readLen 1) s' := by
  unfold receiveFirst
  by_cases h0 : s.readLen = 0
  · rw [if_pos h0]
    obtain ⟨t, ht, ha, hlen, -, hw⟩ | ⟨t, ht, ha, hgt, hlen, -⟩ :=
      read_spec (n := 1) hclean (by decide)
    · left
      exact ⟨t, by rw [ht]; rfl, ha, by omega, hw⟩
    · right
      have htwo := p.two_le_fixedLen
      have hbytes := p.length_bytes
      have hbuf : t.inBuffer = p.bytes.take t.readLen := (hs.after ha).inBuffer_eq (by omega)
      have hvalid : mqttHasValidMsgHdr t.inBuffer 1 := by
        rwa [hbuf, mqttHasValidMsgHdr_take (by omega)]
      rw [ht, RecvFlow.andThen_go, if_pos hvalid]
      exact ⟨t, rfl, ha, by omega, by omega⟩
  · right
    rw [if_neg h0]
    exact ⟨s, rfl, .refl hclean, by omega, by omega⟩

/-- **One call on a packet**, from wherever the last one left it: the call
returns 0 inside the packet or 1 at its end, and takes nothing that is not
the packet's. -/
theorem mqttMessageReceive_spec {p : Packet} {inBufferLength : Nat} (hL : 10 ≤ inBufferLength)
    (hp : p.Accepted inBufferLength) (hf : ¬ p.Fragile) {s : MqttInput}
    (hclean : s.transport.Clean) (hs : s.Agrees p)
    (hlt : s.readLen < p.received inBufferLength) :
    (∃ s', mqttMessageReceive inBufferLength s = (0, s') ∧
        Waits s (p.received inBufferLength) s') ∨
      ∃ s', mqttMessageReceive inBufferLength s = (1, s') ∧ Arrived inBufferLength p s s' := by
  have htwo := p.two_le_fixedLen
  have hbytes := p.length_bytes
  have hrec : p.received inBufferLength = min p.bytes.length inBufferLength := rfl
  unfold mqttMessageReceive
  obtain ⟨t, ht, hwaits⟩ | ⟨t, ht, hfirst⟩ :=
    receiveFirst_spec (s := s.setMessageLength 0) hp.1 hclean hs
  · left
    exact ⟨t, by rw [ht]; rfl, (hwaits.mono (by omega)).of_setMessageLength⟩
  · have hfirst' := hfirst.le_most
    have hleast := hfirst.least_le
    have hafter : After s t := hfirst.after.of_setMessageLength
    rw [setMessageLength_readLen] at hfirst'
    rw [ht, RecvFlow.andThen_go]
    have hend : t.readLen = p.bytes.length → ¬ p.LoopAt t.readLen := by
      intro h
      omega
    obtain ⟨u, hu, hwaits⟩ | ⟨u, hu, hgoes⟩ :=
      receiveLength_spec hf hfirst.after.clean (hs.after hafter) hleast (by omega) hend (k := 5)
        (by omega)
    · left
      exact ⟨u, by rw [hu]; rfl, .of_after hafter (hwaits.mono (by omega))⟩
    · have hmost := hgoes.le_most
      have hafter' : After s u := hafter.trans hgoes.after
      rw [hu, RecvFlow.andThen_go]
      obtain ⟨v, hv, hwaits⟩ | ⟨v, hv, harr⟩ :=
        receiveBody_spec hL hp hgoes.after.clean (hs.after hafter') hgoes.least_le (by omega)
      · left
        exact ⟨v, by rw [hv]; rfl, .of_after hafter' hwaits⟩
      · right
        exact ⟨v, by rw [hv]; rfl, hafter'.trans harr.after, harr.readLen_eq,
          harr.messageLength_eq⟩

/-! ## Call after call -/

/-- What has come of the packet and what is to come are one stream. -/
theorem receiveMessage_spec {p : Packet} {inBufferLength : Nat} (hL : 10 ≤ inBufferLength)
    (hp : p.Accepted inBufferLength) (hf : ¬ p.Fragile) {n : Nat} {s : MqttInput}
    (hclean : s.transport.Clean) {next : List UInt8} (hs : s.seen = p.bytes ++ next)
    (hlt : s.readLen < p.received inBufferLength) (hn : s.transport.weight ≤ n) :
    ∃ s', receiveMessage inBufferLength n s = some (1, s') ∧ Arrived inBufferLength p s s' := by
  have hrec : p.received inBufferLength ≤ p.bytes.length := Nat.min_le_left _ _
  have hagrees : ∀ {t : MqttInput}, After s t → t.Agrees p := fun ha =>
    ⟨[], next, by rw [List.append_nil, ha.seen_eq, hs]⟩
  -- while bytes of the packet are missing, the transport has them
  have hweight : ∀ {t : MqttInput}, After s t → t.readLen < p.received inBufferLength →
      0 < t.transport.weight := by
    intro t ha ht
    have hseen := t.length_seen
    rw [ha.seen_eq, hs, List.length_append] at hseen
    simp only [Feed.weight]
    omega
  induction n generalizing s with
  | zero =>
      have := hweight (.refl hclean) hlt
      omega
  | succ n ih =>
      simp only [receiveMessage]
      obtain ⟨t, ht, hwaits⟩ | ⟨t, ht, harr⟩ :=
        mqttMessageReceive_spec hL hp hf hclean (hagrees (.refl hclean)) hlt
      · have hless := hwaits.progress (hweight (.refl hclean) hlt)
        rw [ht, if_pos rfl]
        obtain ⟨u, hu, harr⟩ := ih hwaits.after.clean (hwaits.after.seen_eq.trans hs) hwaits.lt
          (by omega) (fun ha => hagrees (hwaits.after.trans ha))
          (fun ha => hweight (hwaits.after.trans ha))
        exact ⟨u, hu, hwaits.after.trans harr.after, harr.readLen_eq, harr.messageLength_eq⟩
      · rw [ht, if_neg (show ¬ (1 : Int) = 0 by decide)]
        exact ⟨t, rfl, harr⟩

/-- The packet has been read and what follows it has not. -/
def CutAfter (inBufferLength : Nat) (p : Packet) (next : List UInt8) (s : MqttInput) : Prop :=
  s.inBuffer = p.bytes.take (p.received inBufferLength) ∧
    s.transport.stream = p.bytes.drop (p.received inBufferLength) ++ next ∧
    s.messageLength = p.bytes.length

theorem Arrived.cutAfter {inBufferLength : Nat} {p : Packet} {s s' : MqttInput}
    {next : List UInt8} (h : Arrived inBufferLength p s s') (hs : s.seen = p.bytes ++ next) :
    CutAfter inBufferLength p next s' := by
  have hrec : p.received inBufferLength ≤ p.bytes.length := Nat.min_le_left _ _
  have hseen : s'.inBuffer ++ s'.transport.stream = p.bytes ++ next := h.after.seen_eq.trans hs
  have hbuf : s'.inBuffer = p.bytes.take (p.received inBufferLength) := by
    rw [h.after.inBuffer_eq, hs, h.readLen_eq, List.take_append_of_le_length hrec]
  refine ⟨hbuf, ?_, h.messageLength_eq⟩
  rw [hbuf] at hseen
  have hcut : p.bytes.take (p.received inBufferLength) ++ s'.transport.stream =
      p.bytes.take (p.received inBufferLength) ++
        (p.bytes.drop (p.received inBufferLength) ++ next) := by
    rw [hseen, ← List.append_assoc, List.take_append_drop]
  exact List.append_cancel_left hcut

end LiveWireSwitch
