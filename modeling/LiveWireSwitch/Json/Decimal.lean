import LiveWireSwitch.Json.Parser
import LiveWireSwitch.Lib.FloatText
import Mathlib.Data.List.Induction
import Mathlib.Tactic.Ring

/-!
# Decimal — digits as they are written

The digits `snprintf` writes for a whole number, and for the places behind
the point of a float, and the number a run of digits denotes.
-/

namespace LiveWireSwitch

/-! ## The number of a run of digits -/

theorem digitsValue_concat (ds : List UInt8) (d : UInt8) :
    digitsValue (ds ++ [d]) = 10 * digitsValue ds + (d.toNat - 48) := by
  rw [digitsValue, digitsValue, List.foldl_append]
  rfl

theorem digitsValue_append (ds es : List UInt8) :
    digitsValue (ds ++ es) = digitsValue ds * 10 ^ es.length + digitsValue es := by
  induction es using List.reverseRecOn with
  | nil =>
      rw [List.append_nil, List.length_nil, pow_zero, Nat.mul_one]
      rfl
  | append_singleton es e ih =>
      rw [← List.append_assoc, digitsValue_concat, digitsValue_concat, ih, List.length_append,
        List.length_singleton, pow_succ]
      ring

/-- The ten digits. -/
theorem digit_cases {d : UInt8} (h : isDigit d = true) : ∃ k < 10, d = .ofNat (48 + k) := by
  rw [isDigit, Bool.and_eq_true, decide_eq_true_eq, decide_eq_true_eq, UInt8.le_iff_toNat_le,
    UInt8.le_iff_toNat_le] at h
  have hlow : 48 ≤ d.toNat := h.1
  have hhigh : d.toNat ≤ 57 := h.2
  refine ⟨d.toNat - 48, by omega, ?_⟩
  rw [Nat.add_sub_cancel' hlow, UInt8.ofNat_toNat]

/-- A digit is no space and no sign, it may begin a primitive and be in one,
and it does not end one. -/
theorem digit_facts {d : UInt8} (h : isDigit d = true) :
    isCSpace d = false ∧ d ≠ '-'.toUInt8 ∧ d ≠ '+'.toUInt8 ∧ startsPrimitive d ∧
      32 ≤ d ∧ d < 127 ∧ ¬ isDelimiter d := by
  obtain ⟨k, hk, rfl⟩ := digit_cases h
  revert k
  decide

/-! ## What is written -/

/-- What holds of the decimal digits of `n`. -/
structure DigitsOf (n : Nat) (ds : List UInt8) : Prop where
  ne_nil : ds ≠ []
  digits : ∀ d ∈ ds, isDigit d = true
  value : digitsValue ds = n
  /-- no zero is needless -/
  zero : ds.head? = some '0'.toUInt8 → ds.length = 1

/-- One digit. -/
theorem repr_digit {n : Nat} (h : n < 10) :
    ∃ d, cBytes n.repr = [d] ∧ isDigit d = true ∧ digitsValue [d] = n := by
  have hall : ∀ k < 10, cBytes k.repr = [.ofNat (48 + k)] ∧ isDigit (.ofNat (48 + k)) = true ∧
      digitsValue [.ofNat (48 + k)] = k := by decide +kernel
  exact ⟨_, hall n h⟩

/-- The digits of a number, by what its last digit is. -/
theorem digitsOf_repr (n : Nat) : DigitsOf n (cBytes n.repr) := by
  induction n using Nat.strong_induction_on with
  | h n ih =>
      rcases Nat.lt_or_ge n 10 with hlt | hge
      · obtain ⟨d, hd, hdigit, hvalue⟩ := repr_digit hlt
        rw [hd]
        refine ⟨List.cons_ne_nil _ _, ?_, hvalue, fun _ => rfl⟩
        intro e he
        rw [List.mem_singleton.mp he, hdigit]
      · have hfront := ih (n / 10) (by omega)
        obtain ⟨d, hd, hdigit, hvalue⟩ := repr_digit (Nat.mod_lt n (by omega) : n % 10 < 10)
        rw [Nat.repr_eq_repr_append_repr hge, cBytes_append, hd]
        refine ⟨by simp, ?_, ?_, ?_⟩
        · intro e he
          rcases List.mem_append.mp he with he | he
          · exact hfront.digits e he
          · rw [List.mem_singleton.mp he, hdigit]
        · rw [digitsValue_append, hfront.value, hvalue, List.length_singleton, pow_one]
          omega
        -- a zero in front would be all that stands before the last digit
        · intro hzero
          have hfirst := hfront.value
          rw [List.head?_append_of_ne_nil _ hfront.ne_nil] at hzero
          obtain ⟨c, hc⟩ := List.length_eq_one_iff.mp (hfront.zero hzero)
          rw [hc] at hzero hfirst
          cases hzero
          have hnone : digitsValue ['0'.toUInt8] = 0 := rfl
          omega

/-- The last digits of a number. -/
theorem lastDigits_digits (k n : Nat) :
    (cBytes (Lib.lastDigits k n)).length = k ∧
      (∀ d ∈ cBytes (Lib.lastDigits k n), isDigit d = true) ∧
      digitsValue (cBytes (Lib.lastDigits k n)) = n % 10 ^ k := by
  induction k generalizing n with
  | zero => exact ⟨rfl, nofun, (Nat.mod_one n).symm⟩
  | succ k ih =>
      obtain ⟨hlength, hdigits, hvalue⟩ := ih (n / 10)
      obtain ⟨d, hd, hdigit, hlast⟩ := repr_digit (Nat.mod_lt n (by omega) : n % 10 < 10)
      rw [Lib.lastDigits, cBytes_append, hd]
      refine ⟨by rw [List.length_append, hlength, List.length_singleton], ?_, ?_⟩
      · intro e he
        rcases List.mem_append.mp he with he | he
        · exact hdigits e he
        · rw [List.mem_singleton.mp he, hdigit]
      · rw [digitsValue_append, hvalue, hlast, List.length_singleton, pow_one, pow_succ,
          Nat.mul_comm (10 ^ k), Nat.mod_mul]
        omega

end LiveWireSwitch
