import LiveWireSwitch.Ic2Ctrl
import Mathlib.Algebra.Order.BigOperators.Group.List

/-!
# Ic2Ctrl — Averaging

The reading of a pass: a hundred results of `adc1_get_raw` are added to
a `uint32_t`, and the sum divided and narrowed to a `uint16_t`. A failed
conversion returns -1, which the unsigned sum takes for 2^32 - 1, so the
sum wraps around and comes out right as long as the failures do not
outweigh the other results; when they do it is just below 2^32.
-/

namespace LiveWireSwitch

/-- `#define GET_ADC_TIMES 100` -/
def getAdcTimes : Nat := 100

/-- The results of `adc1_get_raw` in one pass: 0 to 4095, or -1 for a
failed conversion. -/
structure AdcBatch where
  raws : List Int
  length_eq : raws.length = getAdcTimes
  range : ∀ r ∈ raws, r = -1 ∨ (0 ≤ r ∧ r ≤ 4095)

/-- `adc1_reading_sum += adc1_get_raw(..)` for each result. -/
def addRaws (adc1ReadingSum : UInt32) (raws : List Int) : UInt32 :=
  raws.foldl (fun sum raw => sum + UInt32.ofInt raw) adc1ReadingSum

/-- `adc1_reading = adc1_reading_sum / GET_ADC_TIMES`, the sum having
started at 0. -/
def AdcBatch.adc1Reading (b : AdcBatch) : UInt16 :=
  (addRaws 0 b.raws / UInt32.ofNat getAdcTimes).toUInt16

/-- The reading is at most the largest non-negative result, at least the
smallest result if none is negative, and above 2330 only if a result
is. -/
structure AdcBatch.Sound (b : AdcBatch) : Prop where
  most : ∃ r ∈ b.raws, 0 ≤ r ∧ (b.adc1Reading.toNat : Int) ≤ r
  least : (∀ r ∈ b.raws, 0 ≤ r) → ∃ r ∈ b.raws, r ≤ b.adc1Reading.toNat
  healthy : 2330 < b.adc1Reading → ∃ r ∈ b.raws, 2330 < r

/-- The unsigned sum is the sum modulo 2^32. -/
theorem addRaws_eq (sum : UInt32) (raws : List Int) :
    addRaws sum raws = sum + UInt32.ofInt raws.sum := by
  induction raws generalizing sum with
  | nil =>
      show sum = sum + 0
      rw [UInt32.add_zero]
  | cons raw raws ih =>
      show addRaws (sum + UInt32.ofInt raw) raws = _
      rw [ih, List.sum_cons, UInt32.ofInt_add, UInt32.add_assoc]

theorem toNat_addRaws (raws : List Int) : (addRaws 0 raws).toNat = (raws.sum % 2 ^ 32).toNat := by
  rw [addRaws_eq, UInt32.zero_add, UInt32.ofInt, UInt32.toNat_ofNat']
  omega

namespace AdcBatch

variable (b : AdcBatch)

theorem toNat_adc1Reading :
    b.adc1Reading.toNat = (b.raws.sum % 2 ^ 32).toNat / 100 % 2 ^ 16 := by
  have hsum := toNat_addRaws b.raws
  show (addRaws 0 b.raws / 100).toUInt16.toNat = _
  rw [UInt32.toNat_toUInt16, UInt32.toNat_div, hsum]
  rfl

theorem le_sum {m : Int} (h : ∀ r ∈ b.raws, m ≤ r) : 100 * m ≤ b.raws.sum := by
  have hsum := List.card_nsmul_le_sum b.raws m h
  rw [b.length_eq, nsmul_eq_mul] at hsum
  exact hsum

theorem sum_le {m : Int} (h : ∀ r ∈ b.raws, r ≤ m) : b.raws.sum ≤ 100 * m := by
  have hsum := List.sum_le_card_nsmul b.raws m h
  rw [b.length_eq, nsmul_eq_mul] at hsum
  exact hsum

theorem sum_bounds : -100 ≤ b.raws.sum ∧ b.raws.sum ≤ 409500 := by
  constructor
  · refine b.le_sum (m := -1) ?_
    intro r hr
    rcases b.range r hr with h | h <;> omega
  · refine b.sum_le (m := 4095) ?_
    intro r hr
    rcases b.range r hr with h | h <;> omega

/-- While the failures do not outweigh the other results the reading is
the average. -/
theorem adc1Reading_of_nonneg (h : 0 ≤ b.raws.sum) :
    (b.adc1Reading.toNat : Int) = b.raws.sum / 100 := by
  have hbounds := b.sum_bounds
  rw [b.toNat_adc1Reading]
  omega

/-- When they do, the reading is far above any result. -/
theorem adc1Reading_of_neg (h : b.raws.sum < 0) :
    b.adc1Reading.toNat = 23592 ∨ b.adc1Reading.toNat = 23591 := by
  have hbounds := b.sum_bounds
  rw [b.toNat_adc1Reading]
  omega

theorem sound_of_nonneg (h : 0 ≤ b.raws.sum) : b.Sound := by
  have havg := b.adc1Reading_of_nonneg h
  have hmost : ∃ r ∈ b.raws, 0 ≤ r ∧ (b.adc1Reading.toNat : Int) ≤ r := by
    by_contra hnone
    -- every result would be below the average
    have hbelow : ∀ r ∈ b.raws, r ≤ b.adc1Reading.toNat - 1 := by
      intro r hr
      by_contra hr'
      exact hnone ⟨r, hr, by omega, by omega⟩
    have hsum := b.sum_le hbelow
    omega
  refine ⟨hmost, fun _ => ?_, fun hhigh => ?_⟩
  · by_contra hnone
    have habove : ∀ r ∈ b.raws, (b.adc1Reading.toNat : Int) + 1 ≤ r := by
      intro r hr
      by_contra hr'
      exact hnone ⟨r, hr, by omega⟩
    have hsum := b.le_sum habove
    omega
  · obtain ⟨r, hr, -, hle⟩ := hmost
    have hhigh' : 2330 < b.adc1Reading.toNat := hhigh
    exact ⟨r, hr, by omega⟩

theorem not_sound_of_neg (h : b.raws.sum < 0) : ¬ b.Sound := by
  intro hsound
  obtain ⟨r, hr, -, hle⟩ := hsound.most
  have havg := b.adc1Reading_of_neg h
  rcases b.range r hr with hr' | hr' <;> omega

end AdcBatch

/-- **Averaging is sound exactly when** the results of the batch, failed
conversions counted as -1, do not add up to less than 0. -/
theorem averaging_sound_iff (b : AdcBatch) : b.Sound ↔ 0 ≤ b.raws.sum := by
  constructor
  · intro hsound
    by_contra hneg
    exact b.not_sound_of_neg (by omega) hsound
  · exact b.sound_of_nonneg

/-- One failed conversion among zeros. -/
def AdcBatch.oneFailed : AdcBatch where
  raws := -1 :: List.replicate 99 0
  length_eq := by rw [List.length_cons, List.length_replicate, getAdcTimes]
  range := by
    intro r hr
    rcases List.mem_cons.mp hr with rfl | hr
    · exact .inl rfl
    · rw [List.eq_of_mem_replicate hr]
      exact .inr (by decide)

theorem failed_conversion_reads_high : ¬ ∀ b : AdcBatch, b.Sound := by
  intro h
  refine AdcBatch.oneFailed.not_sound_of_neg ?_ (h AdcBatch.oneFailed)
  show (-1 :: List.replicate 99 (0 : Int)).sum < 0
  rw [List.sum_cons, List.sum_replicate]
  decide

/-- **A batch outweighed by failures passes for a healthy supply**: the
pass starts Wi-Fi when its counter has run down to 1. -/
theorem failures_start_wifi (b : AdcBatch) (h : b.raws.sum < 0) :
    .espWifiStart ∈ (singleReadPass b.adc1Reading 1).2 := by
  have hhigh : 2330 < b.adc1Reading := by
    have havg := b.adc1Reading_of_neg h
    show 2330 < b.adc1Reading.toNat
    omega
  rw [singleReadPass, if_neg (by simp), if_pos hhigh]
  simp

end LiveWireSwitch
