import Mathlib.Data.UInt
import Mathlib.Tactic.Ring

/-!
# VarInt — numbers in groups of seven bits

A number is cut into groups of seven bits, the lowest group first; a byte
carries one group, and its top bit says that another byte follows. Here are
the writer, the reader that stops at the first byte with a clear top bit,
and how the two fit together.
-/

namespace LiveWireSwitch.Lib.VarInt

/-- The group a byte carries. -/
def group (b : UInt8) : Nat := (b &&& 0x7f).toNat

/-- The top bit: another byte follows. -/
def More (b : UInt8) : Prop := b &&& 0x80 ≠ 0

instance (b : UInt8) : Decidable (More b) := inferInstanceAs (Decidable (_ ≠ _))

/-- The groups of a number, `k + 1` of them at most. -/
def encode : Nat → Nat → List UInt8
  | 0, n => [.ofNat (n % 128)]
  | k + 1, n =>
      if n / 128 = 0 then [.ofNat (n % 128)]
      else (.ofNat (n % 128) ||| 0x80) :: encode k (n / 128)

/-- The number that the leading groups of the bytes spell, and how many
bytes they take: all of them when no top bit is clear. -/
def scan : List UInt8 → Nat × Nat
  | [] => (0, 0)
  | b :: bs => if More b then (group b + 128 * (scan bs).1, (scan bs).2 + 1) else (group b, 1)

/-! ## Bytes as numbers -/

theorem group_eq (b : UInt8) : group b = b.toNat % 128 := by
  rw [group, UInt8.toNat_and]
  exact Nat.and_two_pow_sub_one_eq_mod b.toNat 7

/-- The top bit of a byte, among its 256 values. -/
theorem and_topBit (n : Nat) (h : n < 256) : n &&& 128 = n / 128 * 128 := by
  have := (by decide +kernel : ∀ i : Fin 256, i.val &&& 128 = i.val / 128 * 128)
  exact this ⟨n, h⟩

theorem more_iff (b : UInt8) : More b ↔ 128 ≤ b.toNat := by
  have htop : (b &&& 0x80).toNat = b.toNat / 128 * 128 := by
    rw [UInt8.toNat_and]
    exact and_topBit b.toNat b.toNat_lt
  unfold More
  rw [← not_iff_not, not_not, ← UInt8.toNat_inj, htop]
  simp

theorem toNat_last {n : Nat} : (UInt8.ofNat (n % 128)).toNat = n % 128 := by
  rw [UInt8.toNat_ofNat']
  omega

theorem toNat_more {n : Nat} : (UInt8.ofNat (n % 128) ||| 0x80).toNat = n % 128 + 128 := by
  have h : 2 ^ 7 * 1 + n % 128 = 2 ^ 7 * 1 ||| n % 128 :=
    Nat.two_pow_add_eq_or_of_lt (Nat.mod_lt n (by decide)) 1
  rw [UInt8.toNat_or, toNat_last, Nat.or_comm]
  show 2 ^ 7 * 1 ||| n % 128 = n % 128 + 128
  rw [← h]
  omega

theorem not_more_last (n : Nat) : ¬ More (.ofNat (n % 128)) := by
  rw [more_iff, toNat_last]
  omega

theorem more_more (n : Nat) : More (.ofNat (n % 128) ||| 0x80) := by
  rw [more_iff, toNat_more]
  omega

theorem group_last (n : Nat) : group (.ofNat (n % 128)) = n % 128 := by
  rw [group_eq, toNat_last]
  omega

theorem group_more (n : Nat) : group (.ofNat (n % 128) ||| 0x80) = n % 128 := by
  rw [group_eq, toNat_more]
  omega

/-! ## The writer -/

theorem encode_ne_nil (k n : Nat) : encode k n ≠ [] := by
  cases k with
  | zero => simp [encode]
  | succ k =>
      simp only [encode]
      split <;> simp

theorem encode_length_pos (k n : Nat) : 0 < (encode k n).length :=
  List.length_pos_of_ne_nil (encode_ne_nil k n)

/-- Where `k + 1` groups hold the number, the writer takes no more than
`j + 1` of them exactly when these hold it. -/
theorem encode_length_le_iff {k j n : Nat} (hn : n < 128 ^ (k + 1)) (hj : j ≤ k) :
    (encode k n).length ≤ j + 1 ↔ n < 128 ^ (j + 1) := by
  induction k generalizing j n with
  | zero =>
      obtain rfl : j = 0 := by omega
      simp only [encode, List.length_singleton]
      simpa using hn
  | succ k ih =>
      simp only [encode]
      by_cases h : n / 128 = 0
      · rw [if_pos h]
        have hpow : 128 ≤ 128 ^ (j + 1) := by
          rw [pow_succ]
          exact Nat.le_mul_of_pos_left 128 (Nat.pow_pos (by decide))
        simp only [List.length_singleton]
        omega
      · rw [if_neg h]
        have hdiv : n / 128 < 128 ^ (k + 1) := by
          rw [Nat.div_lt_iff_lt_mul (by decide), ← pow_succ]
          exact hn
        cases j with
        | zero =>
            have := encode_length_pos k (n / 128)
            simp only [List.length_cons, Nat.zero_add, pow_one]
            omega
        | succ j =>
            rw [pow_succ 128 (j + 1), ← Nat.div_lt_iff_lt_mul (by decide)]
            simp only [List.length_cons, Nat.add_le_add_iff_right]
            exact ih hdiv (by omega)

/-- A short code is never that of a number cut off. -/
theorem lt_of_encode_length_le {k j n : Nat} (hj : j < k) (h : (encode k n).length ≤ j + 1) :
    n < 128 ^ (j + 1) := by
  induction k generalizing j n with
  | zero => omega
  | succ k ih =>
      rw [encode] at h
      by_cases h0 : n / 128 = 0
      · have hpow : 128 ^ 1 ≤ 128 ^ (j + 1) := Nat.pow_le_pow_right (by decide) (by omega)
        omega
      · rw [if_neg h0, List.length_cons] at h
        have hpos := encode_length_pos k (n / 128)
        obtain ⟨i, rfl⟩ : ∃ i, j = i + 1 := ⟨j - 1, by omega⟩
        have hlen : (encode k (n / 128)).length ≤ i + 1 := by omega
        have hrest := ih (by omega) hlen
        rw [pow_succ]
        omega

/-- Every byte but the last says that another follows. -/
theorem encode_shape (k n : Nat) :
    ∃ front last, encode k n = front ++ [last] ∧ (∀ b ∈ front, More b) ∧ ¬ More last := by
  induction k generalizing n with
  | zero => exact ⟨[], _, rfl, by simp, not_more_last n⟩
  | succ k ih =>
      simp only [encode]
      by_cases h : n / 128 = 0
      · rw [if_pos h]
        exact ⟨[], _, rfl, by simp, not_more_last n⟩
      · rw [if_neg h]
        obtain ⟨front, last, hf, hmore, hlast⟩ := ih (n / 128)
        refine ⟨_ :: front, last, by rw [hf]; rfl, ?_, hlast⟩
        intro b hb
        obtain rfl | hb := List.mem_cons.mp hb
        · exact more_more n
        · exact hmore b hb

/-! ## The reader on what the writer wrote -/

@[simp] theorem scan_nil : scan [] = (0, 0) := rfl

theorem scan_cons_more {b : UInt8} (h : More b) (bs : List UInt8) :
    scan (b :: bs) = (group b + 128 * (scan bs).1, (scan bs).2 + 1) := by
  rw [scan, if_pos h]

theorem scan_cons_last {b : UInt8} (h : ¬ More b) (bs : List UInt8) :
    scan (b :: bs) = (group b, 1) := by
  rw [scan, if_neg h]

/-- **Round trip**, whatever comes behind. -/
theorem scan_encode {k n : Nat} (hn : n < 128 ^ (k + 1)) (rest : List UInt8) :
    scan (encode k n ++ rest) = (n, (encode k n).length) := by
  induction k generalizing n with
  | zero =>
      have : n % 128 = n := Nat.mod_eq_of_lt (by simpa using hn)
      simp only [encode, List.singleton_append, List.length_singleton]
      rw [scan_cons_last (not_more_last n), group_last, this]
  | succ k ih =>
      simp only [encode]
      by_cases h : n / 128 = 0
      · rw [if_pos h, List.singleton_append, scan_cons_last (not_more_last n), group_last]
        rw [show n % 128 = n by omega]
        rfl
      · have hdiv : n / 128 < 128 ^ (k + 1) := by
          rw [Nat.div_lt_iff_lt_mul (by decide), ← pow_succ]
          exact hn
        rw [if_neg h, List.cons_append, scan_cons_more (more_more n), ih hdiv, group_more]
        simp only [List.length_cons, Prod.mk.injEq, and_true]
        omega

end LiveWireSwitch.Lib.VarInt
