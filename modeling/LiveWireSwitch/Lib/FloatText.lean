import Mathlib.Algebra.Ring.Nat
import Mathlib.Data.List.Basic

/-!
# FloatText — floats in decimal

A single-precision number as C's `%.*f` writes it, rounded to some decimal
places, and the float that is nearest to a decimal or binary fraction.
-/

namespace LiveWireSwitch.Lib

open Float.Model

/-! ## Writing -/

/-- `n / d` to the nearest whole number, a tie to the even one. -/
def roundHalfEven (n d : Nat) : Nat :=
  let q := n / d
  let r := n % d
  if 2 * r < d then q else if d < 2 * r then q + 1 else q + q % 2

/-- The last `k` decimal digits of `n`. -/
def lastDigits : (k : Nat) → (n : Nat) → String
  | 0, _ => ""
  | k + 1, n => lastDigits k (n / 10) ++ (n % 10).repr

/-- `n` units of the last of `places` decimal places, one place or more. -/
def fixedText (places n : Nat) : String :=
  (n / 10 ^ places).repr ++ "." ++ lastDigits places n

/-- `m * 2 ^ e` in units of the last of `places` decimal places. -/
def inUnits (places m : Nat) (e : Int) : Nat :=
  roundHalfEven (m * 2 ^ e.toNat * 10 ^ places) (2 ^ (-e).toNat)

def signText : UnpackedFloat.Sign → String
  | .positive => ""
  | .negative => "-"

/-- What `%.*f` writes. -/
def floatText (places : Nat) (f : Float32) : String :=
  match f.toModel.unpack with
  | .infinity s => signText s ++ "inf"
  | .notANumber => "nan"
  | .zero s => signText s ++ fixedText places 0
  | .finite s m e _ => signText s ++ fixedText places (inUnits places m e)

/-- What `snprintf` leaves of a text in a buffer of `size` bytes, one byte or
more; the text is ASCII. -/
def snprintf (size : Nat) (text : String) : String := String.ofList (text.toList.take (size - 1))

theorem snprintf_of_fits {size : Nat} {text : String} (h : text.length < size) :
    snprintf size text = text := by
  rw [snprintf, List.take_of_length_le (by rw [String.length_toList]; omega), String.ofList_toList]

/-! ## Reading -/

/-- The float nearest to `m * 10 ^ e`, or to its negative. -/
def ofDecimal (minus : Bool) (m : Nat) (e : Int) : Float32 :=
  let x :=
    if 0 ≤ e then Float32.ofScientific m false e.toNat else Float32.ofScientific m true (-e).toNat
  if minus then -x else x

/-- The float nearest to `m * 2 ^ e`, or to its negative. -/
def ofBinary (minus : Bool) (m : Nat) (e : Int) : Float32 :=
  let x := Float32.ofModel (.pack (.round .binary32 .positive m e))
  if minus then -x else x

/-- The float nearest to what `%.*f` writes of a float. -/
def rounded (places : Nat) (f : Float32) : Float32 :=
  match f.toModel.unpack with
  | .zero s => ofDecimal (s == .negative) 0 (-places)
  | .finite s m e _ => ofDecimal (s == .negative) (inUnits places m e) (-places)
  | _ => f

/-- It is neither infinite nor not a number. -/
def Finite (f : Float32) : Prop :=
  match f.toModel.unpack with
  | .infinity _ | .notANumber => False
  | .zero _ | .finite .. => True

/-- The text of a finite float is a sign and a number of units, and it is
rounded to these. -/
theorem floatText_of_finite {f : Float32} (h : Finite f) (places : Nat) :
    ∃ (s : UnpackedFloat.Sign) (n : Nat), floatText places f = signText s ++ fixedText places n ∧
      rounded places f = ofDecimal (s == .negative) n (-places) := by
  unfold Finite at h
  unfold floatText rounded
  cases hf : f.toModel.unpack with
  | infinity s =>
      rw [hf] at h
      exact h.elim
  | notANumber =>
      rw [hf] at h
      exact h.elim
  | zero s => exact ⟨s, 0, rfl, rfl⟩
  | finite s m e _ => exact ⟨s, _, rfl, rfl⟩

/-- An eighth at two places, and the tie. -/
example : floatText 2 (Float32.ofScientific 125 true 3) = "0.12" := by decide +kernel

end LiveWireSwitch.Lib
