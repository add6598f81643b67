import LiveWireSwitch.EspMqtt.Resume

/-!
# EspMqtt.Fragile — the packets that a cut can break

A packet of four or five bytes whose last two both have the top bit, such
as the PUBACK of id 0x8080: cut between the two, the call that goes on
takes them for length bytes and eats the first byte of the next packet.
-/

namespace LiveWireSwitch

open Lib
open VarInt (More)

/-- The length byte of a packet with a body of two or three bytes. -/
theorem lengthLoop_small {n : UInt8} (hn : ¬ More n) (bs : List UInt8) :
    lengthLoop 1 (n :: bs) = (n.toNat, 1) := by
  have h : VarInt.group n = n.toNat := by
    rw [VarInt.more_iff] at hn
    rw [VarInt.group_eq]
    omega
  rw [lengthLoop_eq 0, VarInt.scan_cons_last hn, h]
  simp

theorem receiveBody_small {L : Nat} (hL : 10 ≤ L) {h n : UInt8} {bs : List UInt8}
    (hn : n.toNat ≤ 3) (ml : Nat) (f : Feed UInt8) :
    receiveBody L ⟨h :: n :: bs, ml, f⟩ =
      receiveRest (n.toNat + 2) ⟨h :: n :: bs, n.toNat + 2, f⟩ := by
  have hloop : lengthLoop 1 (lengthBytes (h :: n :: bs) (bs.length + 2)) = (n.toNat, 1) := by
    have : lengthBytes (h :: n :: bs) (bs.length + 2) = n :: bs := by simp [lengthBytes]
    rw [this, lengthLoop_small (by rw [VarInt.more_iff]; omega)]
  have htotal : mqttGetTotalLength (h :: n :: bs) (bs.length + 2) = n.toNat + 2 := by
    rw [mqttGetTotalLength, fixedHeaderLen, hloop]
    omega
  have hint : ¬ ((L : Int) < toInt32 (n.toNat + 2)) := by
    rw [toInt32_of_lt (by omega)]
    omega
  unfold receiveBody
  simp only [MqttInput.readLen, List.length_cons, htotal]
  rw [if_neg hint]
  rfl

theorem receiveLength_go {k : Nat} {s : MqttInput} (h : ¬ InLengthLoop s.inBuffer) :
    receiveLength k s = .go s := by
  cases k with
  | zero => rfl
  | succ k => rw [receiveLength, if_neg h]

theorem receiveLength_byte {k : Nat} {s : MqttInput} (h : InLengthLoop s.inBuffer) {b : UInt8}
    {bs : List UInt8} {f : Feed UInt8} (hs : s.transport = some (b :: bs) :: f) :
    receiveLength (k + 1) s =
      receiveLength k
        ⟨s.inBuffer ++ [b], s.messageLength, if bs = [] then f else some bs :: f⟩ := by
  rw [receiveLength, if_pos h]
  cases bs <;> simp [MqttInput.read, hs, Feed.read]

theorem inLengthLoop_append (bs : List UInt8) (b : UInt8) :
    InLengthLoop (bs ++ [b]) ↔ bs = [] ∨ (bs.length < 5 ∧ More b) := by
  have hb : bufferAt (bs ++ [b]) bs.length = b := by
    have := bufferAt_append_right bs [b] 0
    rw [Nat.add_zero] at this
    exact this
  have hlen : bs.length + 1 < 6 ↔ bs.length < 5 := by omega
  simp [InLengthLoop, hb, More, hlen]

/-- A call that gets all of a short packet but its last byte. -/
theorem mqttMessageReceive_cut {L : Nat} (hL : 10 ≤ L) {h n : UInt8}
    (hv : mqttHasValidMsgHdr [h] 1) (hn : n.toNat ≤ 3) {b : UInt8} {bs : List UInt8}
    (hlen : (b :: bs).length + 1 = n.toNat) (f : Feed UInt8) :
    mqttMessageReceive L ⟨[], 0, some (h :: n :: b :: bs) :: f⟩ =
      (0, ⟨h :: n :: b :: bs, n.toNat + 2, f⟩) := by
  have hnm : ¬ More n := by rw [VarInt.more_iff]; omega
  have hfirst : receiveFirst
      ((⟨[], 0, some (h :: n :: b :: bs) :: f⟩ : MqttInput).setMessageLength 0) =
      .go ⟨[h], 0, some (n :: b :: bs) :: f⟩ := by
    simp [receiveFirst, MqttInput.readLen, MqttInput.read, Feed.read,
      MqttInput.setMessageLength, hv]
  have hlength : receiveLength 5 ⟨[h], 0, some (n :: b :: bs) :: f⟩ =
      .go ⟨[h, n], 0, some (b :: bs) :: f⟩ := by
    rw [receiveLength_byte (by simp [InLengthLoop]) rfl]
    exact receiveLength_go ((inLengthLoop_append [h] n).not.mpr (by simp [hnm]))
  have hrest : receiveRest (n.toNat + 2) ⟨[h, n], n.toNat + 2, some (b :: bs) :: f⟩ =
      .wait ⟨h :: n :: b :: bs, n.toNat + 2, f⟩ := by
    simp only [List.length_cons] at hlen
    have htake : (b :: bs).take n.toNat = b :: bs := List.take_of_length_le (by simp; omega)
    simp only [receiveRest, receiveUpTo, MqttInput.readLen, MqttInput.read, Feed.read,
      List.length_cons, List.length_nil, Nat.add_sub_cancel]
    rw [if_pos (by omega), htake, if_pos (by omega)]
    simp
    omega
  rw [mqttMessageReceive, hfirst, RecvFlow.andThen_go, hlength, RecvFlow.andThen_go,
    receiveBody_small hL hn, hrest]
  rfl

/-- The call after it, when two bytes that look like length bytes end the
packet: it takes a byte of the next one. -/
theorem mqttMessageReceive_over {L : Nat} (hL : 10 ≤ L) {h n x y : UInt8} {bs : List UInt8}
    (hn : n.toNat ≤ 3) (hlen : bs.length + 2 = n.toNat) (hx : More x) (hy : More y) (ml : Nat) :
    mqttMessageReceive L ⟨h :: n :: (bs ++ [x]), ml, [some [y, 0]]⟩ =
      (1, ⟨h :: n :: (bs ++ [x, y, 0]), n.toNat + 2, []⟩) := by
  have hlength : receiveLength 5 ⟨h :: n :: (bs ++ [x]), 0, [some [y, 0]]⟩ =
      .go ⟨h :: n :: (bs ++ [x, y, 0]), 0, []⟩ := by
    have h0 : InLengthLoop (h :: n :: (bs ++ [x])) :=
      (inLengthLoop_append (h :: n :: bs) x).mpr (.inr ⟨by simp; omega, hx⟩)
    have h1 : InLengthLoop (h :: n :: (bs ++ [x]) ++ [y]) :=
      (inLengthLoop_append (h :: n :: (bs ++ [x])) y).mpr (.inr ⟨by simp; omega, hy⟩)
    have h2 : ¬ InLengthLoop (h :: n :: (bs ++ [x]) ++ [y] ++ [0]) :=
      (inLengthLoop_append _ 0).not.mpr (by simp [VarInt.more_iff])
    rw [receiveLength_byte h0 rfl, receiveLength_byte h1 rfl]
    rw [receiveLength_go h2]
    simp
  have hrest : receiveRest (n.toNat + 2) ⟨h :: n :: (bs ++ [x, y, 0]), n.toNat + 2, []⟩ =
      .go ⟨h :: n :: (bs ++ [x, y, 0]), n.toNat + 2, []⟩ := by
    rw [receiveRest, receiveUpTo, if_neg]
    simp only [MqttInput.readLen, List.length_cons, List.length_append, List.length_nil]
    omega
  rw [mqttMessageReceive, receiveFirst, if_neg (by simp [MqttInput.readLen]), RecvFlow.andThen_go,
    MqttInput.setMessageLength, hlength, RecvFlow.andThen_go, receiveBody_small hL hn, hrest]
  rfl

/-- A fragile packet, byte by byte. -/
theorem Packet.Fragile.bytes_eq {p : Packet} (hp : p.Fragile) :
    ∃ n x y bs, p.bytes = p.head :: n :: (bs ++ [x, y]) ∧ n.toNat = bs.length + 2 ∧ n.toNat ≤ 3 ∧
      More x ∧ More y := by
  obtain ⟨hshort, htwo, hx, hy⟩ := hp
  have hfixed := p.two_le_fixedLen
  have hbytes := p.length_bytes
  have hlens : p.lens = [.ofNat (p.body.length % 128)] := by
    rw [Packet.lens, VarInt.encode, if_pos (by omega)]
  have hn : (UInt8.ofNat (p.body.length % 128)).toNat = p.body.length := by
    rw [VarInt.toNat_last]
    omega
  have hbody : ∃ bs x y, p.body = bs ++ [x, y] ∧ More x ∧ More y := by
    have hcases : p.body.length = 2 ∨ p.body.length = 3 := by omega
    obtain h | h := hcases
    · obtain ⟨x, y, hxy⟩ := List.length_eq_two.mp h
      rw [hxy] at hx hy
      exact ⟨[], x, y, hxy, hx, hy⟩
    · obtain ⟨w, x, y, hxy⟩ := List.length_eq_three.mp h
      rw [hxy] at hx hy
      exact ⟨[w], x, y, hxy, hx, hy⟩
  obtain ⟨bs, x, y, hbs, hx, hy⟩ := hbody
  have hlen : p.body.length = bs.length + 2 := by simp [hbs]
  refine ⟨_, x, y, bs, ?_, hn.trans hlen, by omega, hx, hy⟩
  rw [Packet.bytes, hlens, hbs]
  rfl

/-- **Exactly the packets that are not fragile survive every cut**: from an
empty buffer, with any pieces and empty reads, the calls up to the one that
returns 1 read the packet (or as much as fits) and leave what follows. -/
theorem cut_anywhere_iff_not_fragile {p : Packet} {inBufferLength : Nat}
    (hL : 10 ≤ inBufferLength) (hp : p.Accepted inBufferLength) :
    (∀ (f : Feed UInt8) (next : List UInt8), f.Clean → f.stream = p.bytes ++ next →
      ∃ s', receiveMessage inBufferLength f.weight ⟨[], 0, f⟩ = some (1, s') ∧
        CutAfter inBufferLength p next s') ↔ ¬ p.Fragile := by
  constructor
  · intro h hf
    obtain ⟨n, x, y, bs, hbytes, hn, hn3, hx, hy⟩ := hf.bytes_eq
    -- the cut is between the last two bytes; one byte follows
    have hv : mqttHasValidMsgHdr [p.head] 1 := by
      have := hp.1
      rwa [hbytes, ← mqttHasValidMsgHdr_take (n := 1) (by decide)] at this
    obtain ⟨s', hs', hcut⟩ := h [some (p.head :: n :: (bs ++ [x])), some [y, 0]] [0] (by simp)
      (by simp [hbytes])
    have hfirst : mqttMessageReceive inBufferLength
        ⟨[], 0, [some (p.head :: n :: (bs ++ [x])), some [y, 0]]⟩ =
        (0, ⟨p.head :: n :: (bs ++ [x]), n.toNat + 2, [some [y, 0]]⟩) := by
      cases bs with
      | nil => exact mqttMessageReceive_cut hL hv hn3 (by simp [hn]) _
      | cons b bs => exact mqttMessageReceive_cut hL hv hn3 (by simp [hn]) _
    have hsecond : mqttMessageReceive inBufferLength
        ⟨p.head :: n :: (bs ++ [x]), n.toNat + 2, [some [y, 0]]⟩ =
        (1, ⟨p.head :: n :: (bs ++ [x, y, 0]), n.toNat + 2, []⟩) :=
      mqttMessageReceive_over hL hn3 hn.symm hx hy _
    have hweight : Feed.weight [some (p.head :: n :: (bs ++ [x])), some [y, 0]] =
        bs.length + 5 + 1 + 1 := by
      simp [Feed.weight]
      omega
    rw [hweight] at hs'
    simp only [receiveMessage, hfirst, hsecond, if_true] at hs'
    rw [if_neg (show ¬ (1 : Int) = 0 by decide)] at hs'
    obtain rfl := (Prod.mk.inj (Option.some.inj hs')).2
    have hlen := congrArg List.length hcut.1
    rw [List.length_take, hbytes] at hlen
    simp only [List.length_cons, List.length_append, List.length_nil] at hlen
    omega
  · intro hf f next hclean hs
    have htwo := p.two_le_fixedLen
    have hbytes := p.length_bytes
    have hlt : 0 < p.received inBufferLength := by
      simp only [Packet.received]
      omega
    obtain ⟨s', hs', harr⟩ :=
      receiveMessage_spec (s := ⟨[], 0, f⟩) hL hp hf hclean hs hlt le_rfl
    exact ⟨s', hs', harr.cutAfter hs⟩

/-- A PUBACK of id 0x8080 does not. -/
theorem puback_cut_loses_byte :
    ¬ ∀ (f : Feed UInt8) (next : List UInt8), f.Clean →
      f.stream = (⟨0x40, [0x80, 0x80], by decide⟩ : Packet).bytes ++ next →
      ∃ s', receiveMessage 1460 f.weight ⟨[], 0, f⟩ = some (1, s') ∧
        CutAfter 1460 ⟨0x40, [0x80, 0x80], by decide⟩ next s' := fun h =>
  (cut_anywhere_iff_not_fragile (by decide) ⟨by decide, .inl (by decide)⟩).mp h (by decide)

end LiveWireSwitch
