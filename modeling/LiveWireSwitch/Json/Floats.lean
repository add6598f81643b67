import LiveWireSwitch.Json.Parser
import LiveWireSwitch.Lib.FloatText

/-!
# Floats — `strtof`, and floats in a JSON text

`json_generator.c` writes a float with `%.*f` into a buffer of its own, and
`json_parser.c` reads one with `strtof`. What `strtof` takes is more than a
number of JSON: needless zeros, a point without digits on one side,
hexadecimal numbers, `inf` and `nan`.
-/

namespace LiveWireSwitch

/-! ## Writing -/

/-- `JSON_FLOAT_PRECISION` -/
def jsonFloatPrecision : Nat := 5

/-- `MAX_FLOAT_IN_STR` -/
def maxFloatInStr : Nat := 30

/-- `snprintf(str, MAX_FLOAT_IN_STR, "%.*f", JSON_FLOAT_PRECISION, val)` -/
def jsonFloatText (val : Float32) : String :=
  Lib.snprintf maxFloatInStr (Lib.floatText jsonFloatPrecision val)

/-! ## `strtof` -/

def lowerCase (c : UInt8) : UInt8 := if 'A'.toUInt8 ≤ c ∧ c ≤ 'Z'.toUInt8 then c + 32 else c

/-- `strncasecmp(s, word, strlen(word)) == 0`, of a word in lower case -/
def startsWithWord (word : String) (s : List UInt8) : Prop :=
  (s.take (cBytes word).length).map lowerCase = cBytes word

instance (word : String) (s : List UInt8) : Decidable (startsWithWord word s) :=
  inferInstanceAs (Decidable (_ = _))

/-- A letter or digit of the characters in `nan(...)`. -/
def isWordChar (c : UInt8) : Bool :=
  isDigit c || ('a'.toUInt8 ≤ lowerCase c && lowerCase c ≤ 'z'.toUInt8) || c = '_'.toUInt8

/-- What can stand in a number, `inf` or `nan(...)`. -/
def isFloatChar (c : UInt8) : Bool :=
  isWordChar c || c = '.'.toUInt8 || c = '+'.toUInt8 || c = '-'.toUInt8 || c = '('.toUInt8 ||
    c = ')'.toUInt8

/-- Digits with an optional point: those before it, those behind it, and the
length of all; there is at least one digit, or the length is 0. -/
def pointedDigits (digit : UInt8 → Bool) (s : List UInt8) : List UInt8 × List UInt8 × Nat :=
  let int := s.takeWhile digit
  let rest := s.dropWhile digit
  if rest.head? = some '.'.toUInt8 then
    let frac := rest.tail.takeWhile digit
    if int = [] ∧ frac = [] then ([], [], 0) else (int, frac, int.length + 1 + frac.length)
  else (int, [], int.length)

/-- The optional exponent behind the digits: its value and its length. -/
def exponentOf (mark : UInt8) (s : List UInt8) : Int × Nat :=
  match s with
  | [] => (0, 0)
  | c :: cs =>
      if lowerCase c = mark then
        let sign := signOf cs
        let ds := (cs.drop sign.2).takeWhile isDigit
        if ds = [] then (0, 0)
        else
          (if sign.1 then -(digitsValue ds : Int) else digitsValue ds, 1 + sign.2 + ds.length)
      else (0, 0)

def decimalFloat (minus : Bool) (s : List UInt8) : Float32 × Nat :=
  let m := pointedDigits isDigit s
  if m.2.2 = 0 then (0, 0)
  else
    let e := exponentOf 'e'.toUInt8 (s.drop m.2.2)
    (Lib.ofDecimal minus (digitsValue (m.1 ++ m.2.1)) (e.1 - m.2.1.length), m.2.2 + e.2)

/-- The number a run of hexadecimal digits denotes. -/
def hexValue (ds : List UInt8) : Nat :=
  ds.foldl (fun n d =>
    16 * n + (if isDigit d then d.toNat - 48 else (lowerCase d).toNat - 97 + 10)) 0

/-- What stands behind `0x`. -/
def hexFloat (minus : Bool) (s : List UInt8) : Float32 × Nat :=
  let m := pointedDigits (fun c => decide (isHexDigit c)) s
  if m.2.2 = 0 then (0, 0)
  else
    let e := exponentOf 'p'.toUInt8 (s.drop m.2.2)
    (Lib.ofBinary minus (hexValue (m.1 ++ m.2.1)) (e.1 - 4 * m.2.1.length), m.2.2 + e.2)

/-- The length of `nan` with what may follow it in parentheses. -/
def nanLength (s : List UInt8) : Nat :=
  match s.drop 3 with
  | [] => 3
  | c :: cs =>
      let chars := (cs.takeWhile isWordChar).length
      if c = '('.toUInt8 ∧ (cs.drop chars).head? = some ')'.toUInt8 then 3 + 1 + chars + 1 else 3

/-- What stands behind the sign: the value and its length, 0 for none. -/
def unsignedFloat (minus : Bool) (s : List UInt8) : Float32 × Nat :=
  if startsWithWord "nan" s then (.ofBits 0x7fc00000, nanLength s)
  else if startsWithWord "infinity" s then
    (.ofBits (if minus then 0xff800000 else 0x7f800000), 8)
  else if startsWithWord "inf" s then (.ofBits (if minus then 0xff800000 else 0x7f800000), 3)
  else if startsWithWord "0x" s ∧ (hexFloat minus (s.drop 2)).2 ≠ 0 then
    ((hexFloat minus (s.drop 2)).1, 2 + (hexFloat minus (s.drop 2)).2)
  else decimalFloat minus s

/-- `strtof(s, &endptr)`: the value, and how far `endptr` is from `s`. It
looks no further than the characters that can stand in a number. -/
def strtof (s : List UInt8) : Float32 × Nat :=
  let space := (s.takeWhile isCSpace).length
  let run := (s.drop space).takeWhile isFloatChar
  let sign := signOf run
  let r := unsignedFloat sign.1 (run.drop sign.2)
  if r.2 = 0 then (0, 0) else (r.1, space + sign.2 + r.2)

/-- `json_tok_to_float` -/
def jsonTokToFloat (js : List UInt8) (tok : JsmnTok) : Option Float32 :=
  let r := strtof (js.drop tok.start)
  if r.2 = tok.length then some r.1 else none

/-- `json_obj_get_float` -/
def jsonObjGetFloat (jctx : JparseCtx) (name : List UInt8) : Option (Option Float32) :=
  jsonObjGet jctx name .primitive (jsonTokToFloat jctx.js)

/-- A mantissa with an exponent, a hexadecimal number, and a word that is
not all taken. -/
example : strtof (cBytes "-12.5e-1,") = (Lib.ofDecimal true 125 (-2), 8) ∧
    strtof (cBytes "0x1.8p1]") = (Lib.ofDecimal false 3 0, 7) ∧
    (strtof (cBytes "nano ")).2 = 3 := by decide +kernel

end LiveWireSwitch
