import LiveWireSwitch.Json.Decimal
import LiveWireSwitch.Json.Reading
import Mathlib.Data.List.TakeWhile

/-!
# Numbers — the numbers of JSON

A number of JSON by its parts and the value they give it, and what
`json_tok_to_int` and `json_tok_to_float` make of its text. A float comes
out as it is written; an integer only if it fits into 32 bits, since
`strtoul` takes the sign itself and stops at the largest `unsigned long`,
and if it has neither point nor exponent.
-/

namespace LiveWireSwitch

/-! ## The grammar -/

/-- A number by its parts. -/
structure JsonNumber where
  minus : Bool
  int : List UInt8
  /-- the digits behind the point; without any there is no point -/
  frac : List UInt8
  /-- what stands before the exponent, its sign included -/
  mark : List UInt8
  exp : List UInt8
deriving DecidableEq

/-- The integer in 32 bits, if it is one of these. -/
def int32Of (i : Int) : Option Int32 :=
  if -2147483648 ≤ i ∧ i ≤ 2147483647 then some (.ofInt i) else none

namespace JsonNumber

def minusText (minus : Bool) : List UInt8 := if minus then ['-'.toUInt8] else []

def fracText : List UInt8 → List UInt8
  | [] => []
  | frac => '.'.toUInt8 :: frac

theorem length_fracText {frac : List UInt8} (h : frac ≠ []) :
    (fracText frac).length = 1 + frac.length := by
  cases frac with
  | nil => exact absurd rfl h
  | cons d ds =>
      rw [fracText, List.length_cons, Nat.add_comm]
      exact nofun

/-- What stands behind the integer part. -/
def tailText (n : JsonNumber) : List UInt8 := fracText n.frac ++ (n.mark ++ n.exp)

def text (n : JsonNumber) : List UInt8 := minusText n.minus ++ (n.int ++ n.tailText)

/-- The ways to mark an exponent. -/
def marks : List (List UInt8) :=
  ['e'.toUInt8, 'E'.toUInt8].flatMap fun e => [[e], [e, '+'.toUInt8], [e, '-'.toUInt8]]

/-- The rules of JSON: no digit is missing, and no zero is needless. -/
structure Valid (n : JsonNumber) : Prop where
  int_ne : n.int ≠ []
  int_digits : ∀ c ∈ n.int, isDigit c = true
  int_zero : n.int.head? = some '0'.toUInt8 → n.int.length = 1
  frac_digits : ∀ c ∈ n.frac, isDigit c = true
  exp_digits : ∀ c ∈ n.exp, isDigit c = true
  exponent : n.mark ∈ marks ∧ n.exp ≠ [] ∨ n.mark = [] ∧ n.exp = []

instance (n : JsonNumber) : Decidable n.Valid :=
  decidable_of_iff
    (n.int ≠ [] ∧ n.int.all isDigit = true ∧
      (n.int.head? = some '0'.toUInt8 → n.int.length = 1) ∧ n.frac.all isDigit = true ∧
      n.exp.all isDigit = true ∧ (n.mark ∈ marks ∧ n.exp ≠ [] ∨ n.mark = [] ∧ n.exp = []))
    ⟨fun ⟨h₁, h₂, h₃, h₄, h₅, h₆⟩ => ⟨h₁, List.all_eq_true.mp h₂, h₃, List.all_eq_true.mp h₄,
        List.all_eq_true.mp h₅, h₆⟩,
      fun ⟨h₁, h₂, h₃, h₄, h₅, h₆⟩ => ⟨h₁, List.all_eq_true.mpr h₂, h₃, List.all_eq_true.mpr h₄,
        List.all_eq_true.mpr h₅, h₆⟩⟩

/-- The power of ten, for all digits read as one number. -/
def exponentValue (n : JsonNumber) : Int :=
  (if '-'.toUInt8 ∈ n.mark then -(digitsValue n.exp : Int) else digitsValue n.exp) - n.frac.length

/-- The whole number it is, if it is one: `5e1` and `50.0` are 50 too. -/
def toInt? (n : JsonNumber) : Option Int :=
  let m := digitsValue (n.int ++ n.frac)
  let e := n.exponentValue
  let size :=
    if 0 ≤ e then some (m * 10 ^ e.toNat)
    else if 10 ^ (-e).toNat ∣ m then some (m / 10 ^ (-e).toNat)
    else none
  size.map fun k => if n.minus then -(k : Int) else k

/-- If it is a whole number, it is written without point and exponent just
if it fits into 32 bits. -/
def AsInt32 (n : JsonNumber) : Prop :=
  ∀ i ∈ n.toInt?, n.tailText = [] ↔ -2147483648 ≤ i ∧ i ≤ 2147483647

instance (n : JsonNumber) : Decidable n.AsInt32 :=
  inferInstanceAs (Decidable (∀ i ∈ n.toInt?, _))

/-- The float nearest to a number. -/
def toFloat (n : JsonNumber) : Float32 :=
  Lib.ofDecimal n.minus (digitsValue (n.int ++ n.frac)) n.exponentValue

theorem toInt?_plain {n : JsonNumber} (h : n.tailText = []) :
    n.toInt? = some (if n.minus then -(digitsValue n.int : Int) else digitsValue n.int) := by
  obtain ⟨hfrac, hmark, hexp⟩ : n.frac = [] ∧ n.mark = [] ∧ n.exp = [] := by
    rw [tailText, List.append_eq_nil_iff, List.append_eq_nil_iff] at h
    refine ⟨?_, h.2⟩
    by_contra hne
    have hlength := length_fracText hne
    rw [h.1, List.length_nil] at hlength
    omega
  have hexponent : n.exponentValue = 0 := by
    rw [exponentValue, hmark, hexp, hfrac]
    rfl
  simp [toInt?, hexponent, hfrac]

/-- The parts a text would have if it is a number. -/
def split (w : List UInt8) : JsonNumber :=
  let minus := w.head? = some '-'.toUInt8
  let rest := if minus then w.tail else w
  let more := rest.dropWhile isDigit
  let point := more.head? = some '.'.toUInt8
  let last := if point then more.tail.dropWhile isDigit else more
  { minus := decide minus
    int := rest.takeWhile isDigit
    frac := if point then more.tail.takeWhile isDigit else []
    mark := last.takeWhile fun c => !isDigit c
    exp := last.dropWhile fun c => !isDigit c }

/-- The number a text is. -/
def ofText (w : List UInt8) : Option JsonNumber :=
  if (split w).Valid ∧ (split w).text = w then some (split w) else none

/-! ## Its text is taken apart again -/

theorem takeWhile_append_head {τ : Type} {p : τ → Bool} {l rest : List τ} (hl : ∀ c ∈ l, p c = true)
    (hrest : ∀ c ∈ rest.head?, p c = false) :
    (l ++ rest).takeWhile p = l ∧ (l ++ rest).dropWhile p = rest := by
  rw [List.takeWhile_append_of_pos hl, List.dropWhile_append_of_pos hl]
  cases rest with
  | nil => exact ⟨List.append_nil l, rfl⟩
  | cons c rest =>
      have hc : p c = false := hrest c rfl
      simp [hc]

/-- An `e` and perhaps a sign. -/
theorem marks_cases {mark : List UInt8} (h : mark ∈ marks) :
    ∃ e sign, mark = e :: sign ∧ (e = 'e'.toUInt8 ∨ e = 'E'.toUInt8) ∧
      (sign = [] ∨ sign = ['+'.toUInt8] ∨ sign = ['-'.toUInt8]) := by
  rw [marks, List.mem_flatMap] at h
  obtain ⟨e, he, hmark⟩ := h
  simp only [List.mem_cons, List.not_mem_nil, or_false] at he hmark
  rcases hmark with rfl | rfl | rfl
  · exact ⟨e, _, rfl, he, .inl rfl⟩
  · exact ⟨e, _, rfl, he, .inr (.inl rfl)⟩
  · exact ⟨e, _, rfl, he, .inr (.inr rfl)⟩

theorem marks_chars :
    ∀ mark ∈ marks, ∀ c ∈ mark,
      isDigit c = false ∧ isFloatChar c = true ∧ 32 ≤ c ∧ c < 127 ∧ ¬ isDelimiter c := by
  decide +kernel

section Valid

variable {n : JsonNumber} (h : n.Valid)
include h

/-- What an exponent begins with. -/
theorem Valid.mark_head : ∀ c ∈ (n.mark ++ n.exp).head?, c = 'e'.toUInt8 ∨ c = 'E'.toUInt8 := by
  intro c hc
  obtain ⟨hmark, -⟩ | ⟨hmark, hexp⟩ := h.exponent
  · obtain ⟨e, sign, hmark, he, -⟩ := marks_cases hmark
    rw [hmark, List.cons_append, List.head?_cons] at hc
    cases hc
    exact he
  · rw [hmark, hexp] at hc
    cases hc

/-- What the part behind the integer begins with. -/
theorem Valid.tail_head :
    ∀ c ∈ n.tailText.head?, c = '.'.toUInt8 ∨ c = 'e'.toUInt8 ∨ c = 'E'.toUInt8 := by
  intro c hc
  rw [tailText] at hc
  cases hfrac : n.frac with
  | nil =>
      rw [hfrac] at hc
      exact .inr (h.mark_head c hc)
  | cons d ds =>
      rw [hfrac] at hc
      cases hc
      exact .inl rfl

theorem Valid.tail_stops : ∀ c ∈ n.tailText.head?, isDigit c = false := by
  intro c hc
  obtain rfl | rfl | rfl := h.tail_head c hc <;> decide

theorem Valid.mark_stops : ∀ c ∈ (n.mark ++ n.exp).head?, isDigit c = false := by
  intro c hc
  obtain rfl | rfl := h.mark_head c hc <;> decide

/-- The first digit. -/
theorem Valid.exists_int : ∃ d ds, n.int = d :: ds ∧ isDigit d = true := by
  cases hint : n.int with
  | nil => exact absurd hint h.int_ne
  | cons d ds => exact ⟨d, ds, rfl, h.int_digits d (hint ▸ List.mem_cons_self)⟩

/-- There is a point where there are digits behind it. -/
theorem Valid.head_eq_point : n.tailText.head? = some '.'.toUInt8 ↔ n.frac ≠ [] := by
  rw [tailText]
  cases hfrac : n.frac with
  | nil =>
      simp only [fracText, List.nil_append, ne_eq, not_true_eq_false, iff_false]
      intro hbad
      obtain hbad | hbad := h.mark_head _ hbad
      · exact absurd hbad (by decide)
      · exact absurd hbad (by decide)
  | cons a as => simp [fracText]

theorem Valid.tail_of_point (hpoint : n.tailText.head? = some '.'.toUInt8) :
    n.tailText.tail = n.frac ++ (n.mark ++ n.exp) := by
  cases hcons : n.frac with
  | nil => exact absurd hcons (h.head_eq_point.mp hpoint)
  | cons a as =>
      rw [tailText, hcons]
      rfl

theorem Valid.head_eq_minus : n.text.head? = some '-'.toUInt8 ↔ n.minus = true := by
  obtain ⟨d, ds, hint, hd⟩ := h.exists_int
  rw [text, hint]
  cases n.minus with
  | true => simp [minusText]
  | false =>
      have hne : d ≠ '-'.toUInt8 := by
        rintro rfl
        exact absurd hd (by decide)
      simp [minusText, hne]

theorem Valid.behind_minus :
    (if n.text.head? = some '-'.toUInt8 then n.text.tail else n.text) = n.int ++ n.tailText := by
  by_cases hm : n.minus = true
  · rw [if_pos (h.head_eq_minus.mpr hm), text, minusText, if_pos hm]
    rfl
  · rw [if_neg (fun hbad => hm (h.head_eq_minus.mp hbad)), text, minusText, if_neg hm]
    rfl

theorem Valid.fraction_parts :
    (if n.tailText.head? = some '.'.toUInt8 then n.tailText.tail.takeWhile isDigit else []) =
        n.frac ∧
      (if n.tailText.head? = some '.'.toUInt8 then n.tailText.tail.dropWhile isDigit
        else n.tailText) = n.mark ++ n.exp := by
  obtain ⟨htake, hdrop⟩ := takeWhile_append_head h.frac_digits h.mark_stops
  by_cases hpoint : n.tailText.head? = some '.'.toUInt8
  · rw [if_pos hpoint, if_pos hpoint, h.tail_of_point hpoint, htake, hdrop]
    exact ⟨rfl, rfl⟩
  · have hnil : n.frac = [] := not_not.mp fun hne => hpoint (h.head_eq_point.mpr hne)
    rw [if_neg hpoint, if_neg hpoint, tailText, hnil]
    exact ⟨rfl, rfl⟩

/-- The mark, which has no digit, and the digits. -/
theorem Valid.exponent_parts :
    (n.mark ++ n.exp).takeWhile (fun c => !isDigit c) = n.mark ∧
      (n.mark ++ n.exp).dropWhile (fun c => !isDigit c) = n.exp := by
  refine takeWhile_append_head ?_ ?_
  · intro c hc
    obtain ⟨hmark, -⟩ | ⟨hmark, -⟩ := h.exponent
    · rw [(marks_chars _ hmark c hc).1]
      rfl
    · rw [hmark] at hc
      cases hc
  · intro c hc
    rw [h.exp_digits c (List.mem_of_mem_head? hc)]
    rfl

/-- **A number is taken apart again.** -/
theorem split_text : split n.text = n := by
  obtain ⟨hintTake, hintDrop⟩ := takeWhile_append_head h.int_digits h.tail_stops
  obtain ⟨hfrac, hlast⟩ := h.fraction_parts
  obtain ⟨hmark, hexp⟩ := h.exponent_parts
  have hparts : split n.text = ⟨decide (n.minus = true), n.int, n.frac, n.mark, n.exp⟩ := by
    simp only [split, h.behind_minus, hintTake, hintDrop, hfrac, hlast, hmark, hexp]
    rw [decide_eq_decide.mpr h.head_eq_minus]
  rw [hparts, Bool.decide_eq_true]

end Valid

/-- **The numbers among the texts.** -/
theorem ofText_eq_some {w : List UInt8} {n : JsonNumber} :
    ofText w = some n ↔ n.Valid ∧ n.text = w := by
  rw [ofText]
  constructor
  · intro hsome
    split at hsome
    · next hparts =>
        cases hsome
        exact hparts
    · cases hsome
  · rintro ⟨hvalid, rfl⟩
    rw [split_text hvalid, if_pos ⟨hvalid, rfl⟩]

/-! ## The tokeniser and the parser read it -/

section Valid

variable {n : JsonNumber} (h : n.Valid)
include h

/-- What stands behind the sign begins with a digit. -/
theorem Valid.exists_body : ∃ d cs, n.int ++ n.tailText = d :: cs ∧ isDigit d = true := by
  obtain ⟨d, ds, hint, hd⟩ := h.exists_int
  exact ⟨d, ds ++ n.tailText, by rw [hint, List.cons_append], hd⟩

theorem Valid.chars_body : ∀ c ∈ n.int ++ n.tailText,
    isFloatChar c = true ∧ 32 ≤ c ∧ c < 127 ∧ ¬ isDelimiter c := by
  have hdigit : ∀ c, isDigit c = true →
      isFloatChar c = true ∧ 32 ≤ c ∧ c < 127 ∧ ¬ isDelimiter c := by
    intro c hc
    exact ⟨by simp [isFloatChar, isWordChar, hc], (digit_facts hc).2.2.2.2⟩
  have hmark : ∀ c ∈ n.mark ++ n.exp,
      isFloatChar c = true ∧ 32 ≤ c ∧ c < 127 ∧ ¬ isDelimiter c := by
    intro c hc
    rcases List.mem_append.mp hc with hc | hc
    · obtain ⟨hmark, -⟩ | ⟨hmark, -⟩ := h.exponent
      · exact (marks_chars _ hmark c hc).2
      · rw [hmark] at hc
        cases hc
    · exact hdigit c (h.exp_digits c hc)
  intro c hc
  rcases List.mem_append.mp hc with hc | hc
  · exact hdigit c (h.int_digits c hc)
  · rw [tailText] at hc
    rcases List.mem_append.mp hc with hc | hc
    · cases hfrac : n.frac with
      | nil =>
          rw [hfrac] at hc
          cases hc
      | cons d ds =>
          rw [hfrac] at hc
          rcases List.mem_cons.mp (show c ∈ '.'.toUInt8 :: d :: ds from hc) with rfl | hc
          · decide
          · exact hdigit c (h.frac_digits c (hfrac ▸ hc))
    · exact hmark c hc

theorem Valid.signOf_text : signOf n.text = (n.minus, (minusText n.minus).length) := by
  obtain ⟨d, cs, hbody, hd⟩ := h.exists_body
  obtain ⟨-, hminus, hplus, -⟩ := digit_facts hd
  rw [text, hbody]
  cases n.minus with
  | true => rfl
  | false =>
      show signOf (d :: cs) = _
      rw [signOf, if_neg hminus, if_neg hplus]
      rfl

theorem Valid.not_space : ∀ c ∈ n.text.head?, isCSpace c = false := by
  obtain ⟨d, cs, hbody, hd⟩ := h.exists_body
  rw [text, hbody]
  cases n.minus with
  | true =>
      rintro c ⟨⟩
      decide
  | false =>
      rintro c ⟨⟩
      exact (digit_facts hd).1

/-- It is a primitive. -/
theorem Valid.exists_primitive : ∃ t : PrimitiveText, t.text = n.text := by
  obtain ⟨d, cs, hbody, hd⟩ := h.exists_body
  have hchars := h.chars_body
  rw [text]
  rw [hbody] at hchars ⊢
  cases n.minus with
  | true => exact ⟨⟨'-'.toUInt8, d :: cs, .inl rfl, fun c hc => (hchars c hc).2⟩, rfl⟩
  | false =>
      exact ⟨⟨d, cs, (digit_facts hd).2.2.2.1,
        fun c hc => (hchars c (List.mem_cons_of_mem d hc)).2⟩, rfl⟩

/-- `strtoul` takes the sign and the integer part. -/
theorem strtoul_text :
    strtoul n.text =
      (if 4294967295 < digitsValue n.int then 4294967295
        else if n.minus then -.ofNat (digitsValue n.int) else .ofNat (digitsValue n.int),
        (minusText n.minus).length + n.int.length) := by
  have hspace := takeWhile_append_head (p := isCSpace) (l := []) nofun h.not_space
  have hdrop : n.text.drop (minusText n.minus).length = n.int ++ n.tailText := by
    rw [text, List.drop_left]
  have hdigits := (takeWhile_append_head h.int_digits h.tail_stops).1
  rw [List.nil_append] at hspace
  simp only [strtoul, hspace.1, List.length_nil, List.drop_zero, Nat.zero_add, h.signOf_text,
    hdrop, hdigits, if_neg h.int_ne]

/-- `exponentOf` takes the mark and all digits behind it. -/
theorem exponentOf_text :
    exponentOf 'e'.toUInt8 (n.mark ++ n.exp) =
      (if '-'.toUInt8 ∈ n.mark then -(digitsValue n.exp : Int) else digitsValue n.exp,
        (n.mark ++ n.exp).length) := by
  obtain ⟨hmark, hexp⟩ | ⟨hmark, hexp⟩ := h.exponent
  · obtain ⟨e, sign, hmark, he, hsign⟩ := marks_cases hmark
    have hlow : lowerCase e = 'e'.toUInt8 := by rcases he with rfl | rfl <;> decide
    have hne : '-'.toUInt8 ≠ e := by rcases he with rfl | rfl <;> decide
    have hsignOf : signOf (sign ++ n.exp) = (decide ('-'.toUInt8 ∈ sign), sign.length) := by
      rcases hsign with rfl | rfl | rfl
      · cases hcons : n.exp with
        | nil => exact absurd hcons hexp
        | cons d ds =>
            obtain ⟨-, hminus, hplus, -⟩ :=
              digit_facts (h.exp_digits d (hcons ▸ List.mem_cons_self))
            rw [List.nil_append, signOf, if_neg hminus, if_neg hplus]
            rfl
      · rfl
      · rfl
    have htake : n.exp.takeWhile isDigit = n.exp := List.takeWhile_eq_self_iff.mpr h.exp_digits
    rw [hmark, List.cons_append, exponentOf, if_pos hlow, hsignOf]
    dsimp only
    rw [List.drop_left, htake, if_neg hexp]
    simp only [decide_eq_true_eq, List.mem_cons, hne, false_or, List.length_cons,
      List.length_append]
    congr 1
    omega
  · rw [hmark, hexp]
    rfl

theorem pointedDigits_text :
    pointedDigits isDigit (n.int ++ n.tailText) =
      (n.int, n.frac, n.int.length + (fracText n.frac).length) := by
  obtain ⟨htake, hdrop⟩ := takeWhile_append_head h.int_digits h.tail_stops
  obtain ⟨hfracTake, -⟩ := takeWhile_append_head h.frac_digits h.mark_stops
  simp only [pointedDigits, htake, hdrop]
  by_cases hpoint : n.tailText.head? = some '.'.toUInt8
  · have hfrac := h.head_eq_point.mp hpoint
    rw [if_pos hpoint, h.tail_of_point hpoint, hfracTake, if_neg fun hnil => hfrac hnil.2,
      length_fracText hfrac, Nat.add_assoc]
  · have hfrac : n.frac = [] := not_not.mp fun hne => hpoint (h.head_eq_point.mpr hne)
    rw [if_neg hpoint, hfrac]
    rfl

/-- `strtof` begins with no word and with no hexadecimal number. -/
theorem Valid.not_word {word : String} {c : UInt8} (hword : (cBytes word).head? = some c)
    (hc : ∀ k < 10, lowerCase (.ofNat (48 + k)) ≠ c) :
    ¬ startsWithWord word (n.int ++ n.tailText) := by
  obtain ⟨d, ds, hbody, hd⟩ := h.exists_body
  obtain ⟨k, hk, rfl⟩ := digit_cases hd
  cases hcs : cBytes word with
  | nil =>
      rw [hcs] at hword
      cases hword
  | cons e es =>
      rw [hcs] at hword
      rw [startsWithWord, hcs, hbody, List.length_cons, List.take_succ_cons, List.map_cons]
      intro hsame
      exact hc k hk ((List.cons.inj hsame).1.trans (Option.some.inj hword))

theorem Valid.not_hex : ¬ startsWithWord "0x" (n.int ++ n.tailText) := by
  have hword : cBytes "0x" = ['0'.toUInt8, 'x'.toUInt8] := by decide
  have hsecond : ∀ c ∈ (n.int ++ n.tailText)[1]?, lowerCase c ≠ 'x'.toUInt8 := by
    obtain ⟨d, ds, hint, -⟩ := h.exists_int
    rw [hint]
    intro c hc
    cases ds with
    | nil =>
        rw [List.singleton_append, List.getElem?_cons_succ, ← List.head?_eq_getElem?] at hc
        obtain rfl | rfl | rfl := h.tail_head c hc <;> decide
    | cons e es =>
        cases hc
        obtain ⟨k, hk, rfl⟩ := digit_cases (h.int_digits c (hint ▸ by simp))
        have hall : ∀ k < 10, lowerCase (.ofNat (48 + k)) ≠ 'x'.toUInt8 := by decide
        exact hall k hk
  rw [startsWithWord, hword]
  intro hsame
  have hget : (((n.int ++ n.tailText).take 2).map lowerCase)[1]? = some 'x'.toUInt8 :=
    congrArg (·[1]?) hsame
  rw [List.getElem?_map, List.getElem?_take_of_lt Nat.one_lt_two, Option.map_eq_some_iff] at hget
  obtain ⟨c, hc, hx⟩ := hget
  exact hsecond c hc hx

/-- `strtof` takes all of it. -/
theorem strtof_text : strtof n.text = (n.toFloat, n.text.length) := by
  have hspace := takeWhile_append_head (p := isCSpace) (l := []) nofun h.not_space
  rw [List.nil_append] at hspace
  have hrun : n.text.takeWhile isFloatChar = n.text := by
    rw [List.takeWhile_eq_self_iff, text]
    intro c hc
    rcases List.mem_append.mp hc with hc | hc
    · rw [minusText] at hc
      split at hc
      · rw [List.mem_singleton.mp hc]
        decide
      · cases hc
    · exact (h.chars_body c hc).1
  have hdrop : n.text.drop (minusText n.minus).length = n.int ++ n.tailText := by
    rw [text, List.drop_left]
  have hpos : 0 < n.int.length := List.length_pos_of_ne_nil h.int_ne
  have hdecimal : decimalFloat n.minus (n.int ++ n.tailText) =
      (n.toFloat, (n.int ++ n.tailText).length) := by
    have hbehind : (n.int ++ n.tailText).drop (n.int.length + (fracText n.frac).length) =
        n.mark ++ n.exp := by
      rw [tailText, ← List.append_assoc, ← List.length_append, List.drop_left]
    simp only [decimalFloat, pointedDigits_text h, hbehind, exponentOf_text h]
    rw [if_neg (by omega), toFloat, exponentValue, tailText]
    simp only [List.length_append, Nat.add_assoc]
  have hunsigned : unsignedFloat n.minus (n.int ++ n.tailText) =
      (n.toFloat, (n.int ++ n.tailText).length) := by
    rw [unsignedFloat, if_neg (h.not_word (c := 'n'.toUInt8) (by decide) (by decide)),
      if_neg (h.not_word (c := 'i'.toUInt8) (by decide) (by decide)),
      if_neg (h.not_word (c := 'i'.toUInt8) (by decide) (by decide)),
      if_neg fun hhex => h.not_hex hhex.1, hdecimal]
  simp only [strtof, hspace.1, List.length_nil, List.drop_zero, Nat.zero_add, hrun, h.signOf_text,
    hdrop, hunsigned]
  rw [if_neg (by rw [List.length_append]; omega)]
  conv_rhs => rw [text, List.length_append]

/-- **A number is read as a float as it is written.** -/
theorem floatOf_text : floatOf n.text = some n.toFloat := by
  rw [floatOf, strtof_text h]
  exact if_pos rfl

/-- `json_tok_to_int` takes an integer of any size, and no other number. -/
theorem intOf_text :
    intOf n.text =
      if n.tailText = [] then
        some (if 4294967295 < digitsValue n.int then (4294967295 : UInt32)
          else if n.minus then -.ofNat (digitsValue n.int)
          else .ofNat (digitsValue n.int)).toInt32
      else none := by
  have hlength : n.text.length = (minusText n.minus).length + n.int.length + n.tailText.length := by
    rw [text, List.length_append, List.length_append, Nat.add_assoc]
  rw [intOf, strtoul_text h]
  by_cases htail : n.tailText = []
  · have hzero : n.tailText.length = 0 := by rw [htail, List.length_nil]
    rw [if_pos htail]
    exact if_pos (by omega)
  · have hpos : 0 < n.tailText.length := List.length_pos_of_ne_nil htail
    rw [if_neg htail]
    exact if_neg (by dsimp only; omega)

/-- **An integer parameter is given the number that is written** just if
that fits and is written plainly, or is nothing for the parameter. -/
theorem intOf_text_iff : intOf n.text = n.toInt?.bind int32Of ↔ n.AsInt32 := by
  rw [intOf_text h, AsInt32]
  by_cases htail : n.tailText = []
  · simp only [htail, true_iff, if_true]
    rw [toInt?_plain htail, Option.bind_some]
    obtain ⟨i, hi⟩ : ∃ i : Int, i = if n.minus then -(digitsValue n.int : Int)
      else digitsValue n.int := ⟨_, rfl⟩
    rw [← hi]
    constructor
    · intro heq j hj
      cases hj
      by_contra hunfit
      rw [int32Of, if_neg hunfit] at heq
      cases heq
    · intro hall
      have hfits := hall i rfl
      rw [int32Of, if_pos hfits]
      cases hminus : n.minus with
      | true =>
          simp only [hminus, if_true] at hi ⊢
          rw [if_neg (by omega), hi, UInt32.toInt32_neg, UInt32.toInt32_ofNat', Int32.ofInt_neg]
          rfl
      | false =>
          simp only [hminus, Bool.false_eq_true, if_false] at hi ⊢
          rw [if_neg (by omega), hi, UInt32.toInt32_ofNat']
          rfl
  · simp only [htail, false_iff, if_false]
    constructor
    · intro heq i hi hfits
      rw [Option.mem_def.mp hi, Option.bind_some, int32Of, if_pos hfits] at heq
      cases heq
    · intro hall
      cases hi : n.toInt? with
      | none => rfl
      | some i => rw [Option.bind_some, int32Of, if_neg (hall i hi)]

end Valid

/-! ## The numbers that are written -/

/-- An integer. -/
def ofInt (i : Int) : JsonNumber := ⟨decide (i < 0), cBytes i.natAbs.repr, [], [], []⟩

theorem ofInt_valid (i : Int) : (ofInt i).Valid := by
  have hdigits := digitsOf_repr i.natAbs
  exact ⟨hdigits.ne_nil, hdigits.digits, hdigits.zero, nofun, nofun, .inr ⟨rfl, rfl⟩⟩

theorem ofInt_text (i : Int) : (ofInt i).text = cBytes (toString i) := by
  have hminus : cBytes "-" = ['-'.toUInt8] := by decide
  rw [Int.toString_eq_repr, Int.repr_eq_if, text]
  by_cases hneg : i < 0
  · rw [if_neg (by omega), cBytes_append, hminus, show (-i).toNat = i.natAbs by omega]
    simp [ofInt, minusText, tailText, fracText, hneg]
  · rw [if_pos (by omega), show i.toNat = i.natAbs by omega]
    simp [ofInt, minusText, tailText, fracText, hneg]

theorem ofInt_toInt (i : Int) : (ofInt i).toInt? = some i := by
  have hvalue : digitsValue (ofInt i).int = i.natAbs := (digitsOf_repr i.natAbs).value
  rw [toInt?_plain rfl, hvalue]
  congr 1
  by_cases hneg : i < 0
  · rw [if_pos (by simp [ofInt, hneg])]
    omega
  · rw [if_neg (by simp [ofInt, hneg])]
    omega

/-- An integer of 32 bits is read back. -/
theorem intOf_ofInt (i : Int32) : intOf (ofInt i.toInt).text = some i := by
  have hlow := i.le_toInt
  have hhigh := i.toInt_lt
  have hfits : (ofInt i.toInt).AsInt32 := by
    intro j hj
    rw [ofInt_toInt] at hj
    cases hj
    exact ⟨fun _ => by omega, fun _ => rfl⟩
  rw [(intOf_text_iff (ofInt_valid _)).mpr hfits, ofInt_toInt, Option.bind_some, int32Of,
    if_pos (by omega), Int32.ofInt_toInt]

/-- `n` units of the last of `places` decimal places. -/
def fixed (minus : Bool) (places n : Nat) : JsonNumber :=
  ⟨minus, cBytes (n / 10 ^ places).repr, cBytes (Lib.lastDigits places n), [], []⟩

theorem fixed_valid (minus : Bool) (places n : Nat) : (fixed minus places n).Valid := by
  have hdigits := digitsOf_repr (n / 10 ^ places)
  exact ⟨hdigits.ne_nil, hdigits.digits, hdigits.zero, (lastDigits_digits places n).2.1, nofun,
    .inr ⟨rfl, rfl⟩⟩

theorem fixed_text (s : Float.Model.UnpackedFloat.Sign) {places : Nat} (hplaces : 0 < places)
    (n : Nat) :
    (fixed (s == .negative) places n).text =
      cBytes (Lib.signText s ++ Lib.fixedText places n) := by
  have hminus : cBytes "-" = ['-'.toUInt8] := by decide
  have hpoint : cBytes "." = ['.'.toUInt8] := by decide
  have hsign : cBytes (Lib.signText s) = minusText (s == .negative) := by
    cases s with
    | positive => decide
    | negative => exact hminus
  have hfrac : fracText (cBytes (Lib.lastDigits places n)) =
      '.'.toUInt8 :: cBytes (Lib.lastDigits places n) := by
    have hlength := (lastDigits_digits places n).1
    cases hcons : cBytes (Lib.lastDigits places n) with
    | nil =>
        rw [hcons, List.length_nil] at hlength
        omega
    | cons d ds => rfl
  rw [Lib.fixedText, cBytes_append, cBytes_append, cBytes_append, hsign, hpoint]
  simp [fixed, text, tailText, hfrac]

theorem fixed_toFloat (minus : Bool) (places n : Nat) :
    (fixed minus places n).toFloat = Lib.ofDecimal minus n (-places) := by
  obtain ⟨hlength, -, hvalue⟩ := lastDigits_digits places n
  have hall : digitsValue ((fixed minus places n).int ++ (fixed minus places n).frac) = n := by
    rw [fixed, digitsValue_append, (digitsOf_repr _).value, hvalue, hlength]
    exact Nat.div_add_mod' n (10 ^ places)
  have hexponent : (fixed minus places n).exponentValue = -places := by
    have hzero : digitsValue [] = 0 := rfl
    simp [exponentValue, fixed, hlength, hzero]
  rw [toFloat, hall, hexponent]
  rfl

end JsonNumber

end LiveWireSwitch
