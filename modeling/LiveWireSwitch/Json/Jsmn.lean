import Mathlib.Data.List.Basic

/-!
# Jsmn — the tokeniser

`jsmn.h`, compiled with `JSMN_STRICT` and `JSMN_PARENT_LINKS`: one pass
over a JSON text that appends a token for every object, array, string
and primitive. The same function also runs with `tokens == NULL` to count
the tokens first.

Positions and links are `Nat`, and `none` is the source's −1. `toknext`
is the number of tokens allocated, so it is the length of the list.
`js[pos] .. js[len - 1]` is a list that the loops walk down.
-/

namespace LiveWireSwitch

/-! ## Tokens -/

/-- `jsmntype_t`; no token that has been filled is `JSMN_UNDEFINED`. -/
inductive JsmnType where
  | object
  | array
  | string
  | primitive
deriving DecidableEq, Repr

/-- `enum jsmnerr`. The last is none of the source's: a token outside
`tokens` is read or written. -/
inductive JsmnErr where
  | noMem
  | inval
  | part
  | wild
deriving DecidableEq, Repr

/-- `jsmntok_t`; `stop` is its `end`. -/
structure JsmnTok where
  type : JsmnType
  start : Nat
  stop : Option Nat
  size : Nat
  parent : Option Nat
deriving DecidableEq, Repr

/-- `jsmn_parser` with the tokens, and the count `jsmn_parse` returns. -/
structure JsmnParser where
  tokens : List JsmnTok
  toksuper : Option Nat
  count : Nat
deriving DecidableEq, Repr

/-- `jsmn_init` -/
def jsmnInit : JsmnParser := ⟨[], none, 0⟩

/-- `&tokens[i]` -/
def tokAt (tokens : List JsmnTok) (i : Nat) : Except JsmnErr JsmnTok :=
  match tokens[i]? with
  | some t => .ok t
  | none => .error .wild

/-- `jsmn_alloc_token` and `jsmn_fill_token` -/
def jsmnAllocToken (numTokens : Nat) (t : JsmnTok) (tokens : List JsmnTok) :
    Except JsmnErr (List JsmnTok) :=
  if numTokens ≤ tokens.length then .error .noMem else .ok (tokens ++ [t])

def JsmnTok.grow (t : JsmnTok) : JsmnTok := { t with size := t.size + 1 }

def JsmnTok.close (pos : Nat) (t : JsmnTok) : JsmnTok := { t with stop := some (pos + 1) }

/-- `tokens[i].size++`, unless `i` is −1 -/
def sizeIncr (tokens : List JsmnTok) : Option Nat → Except JsmnErr (List JsmnTok)
  | none => .ok tokens
  | some i => if i < tokens.length then .ok (tokens.modify i .grow) else .error .wild

/-! ## Characters -/

/-- `'\t'`, `'\r'`, `'\n'`, `' '` -/
def isSpace (c : UInt8) : Prop :=
  c = '\t'.toUInt8 ∨ c = '\r'.toUInt8 ∨ c = '\n'.toUInt8 ∨ c = ' '.toUInt8

instance : DecidablePred isSpace := fun _ => inferInstanceAs (Decidable (_ ∨ _))

/-- What ends a primitive. -/
def isDelimiter (c : UInt8) : Prop :=
  isSpace c ∨ c = ','.toUInt8 ∨ c = ']'.toUInt8 ∨ c = '}'.toUInt8

instance : DecidablePred isDelimiter := fun _ => inferInstanceAs (Decidable (_ ∨ _))

/-- What a primitive starts with. -/
def startsPrimitive (c : UInt8) : Prop :=
  c = '-'.toUInt8 ∨ ('0'.toUInt8 ≤ c ∧ c ≤ '9'.toUInt8) ∨
    c = 't'.toUInt8 ∨ c = 'f'.toUInt8 ∨ c = 'n'.toUInt8

instance : DecidablePred startsPrimitive := fun _ => inferInstanceAs (Decidable (_ ∨ _))

def isHexDigit (c : UInt8) : Prop :=
  (48 ≤ c ∧ c ≤ 57) ∨ (65 ≤ c ∧ c ≤ 70) ∨ (97 ≤ c ∧ c ≤ 102)

instance : DecidablePred isHexDigit := fun _ => inferInstanceAs (Decidable (_ ∨ _))

/-- The escapes of one character after the backslash. -/
def isEscaped (c : UInt8) : Prop :=
  c = '"'.toUInt8 ∨ c = '/'.toUInt8 ∨ c = '\\'.toUInt8 ∨ c = 'b'.toUInt8 ∨ c = 'f'.toUInt8 ∨
    c = 'r'.toUInt8 ∨ c = 'n'.toUInt8 ∨ c = 't'.toUInt8

instance : DecidablePred isEscaped := fun _ => inferInstanceAs (Decidable (_ ∨ _))

/-! ## Strings and primitives -/

/-- The loop of `jsmn_parse_primitive`: how many bytes come before the
delimiter. -/
def primitiveLength : List UInt8 → Except JsmnErr Nat
  | [] => .error .part
  | c :: cs =>
      if c = 0 then .error .part
      else if isDelimiter c then .ok 0
      else if c < 32 ∨ 127 ≤ c then .error .inval
      else (primitiveLength cs).map (· + 1)

/-- The loop of `jsmn_parse_string`: how many bytes come before the
closing quote. `hex` counts the digits of a `\uXXXX` still to come. -/
def stringLength : (hex : Nat) → List UInt8 → Except JsmnErr Nat
  | _, [] => .error .part
  | hex + 1, c :: cs =>
      if c = 0 then .error .part
      else if isHexDigit c then (stringLength hex cs).map (· + 1)
      else .error .inval
  | 0, c :: cs =>
      if c = 0 then .error .part
      else if c = '"'.toUInt8 then .ok 0
      else if c = '\\'.toUInt8 then
        match cs with
        -- a backslash that ends the text is no escape
        | [] => .error .part
        | e :: cs =>
            if isEscaped e then (stringLength 0 cs).map (· + 2)
            else if e = 'u'.toUInt8 then (stringLength 4 cs).map (· + 2)
            else .error .inval
      else (stringLength 0 cs).map (· + 1)

/-- A token of `n` bytes from `start` on, child of `toksuper`; with the
increments of `jsmn_parse` after it. -/
def jsmnLeaf (num : Option Nat) (type : JsmnType) (start n : Nat) (p : JsmnParser) :
    Except JsmnErr JsmnParser :=
  match num with
  | none => .ok { p with count := p.count + 1 }
  | some num => do
      let tokens ← jsmnAllocToken num ⟨type, start, some (start + n), 0, p.toksuper⟩ p.tokens
      let tokens ← sizeIncr tokens p.toksuper
      return { p with tokens, count := p.count + 1 }

/-- Whether the token at `toksuper` takes a child; where there are no
tokens or no such token, nothing is asked. -/
def superTakes (num : Option Nat) (p : JsmnParser) (ok : JsmnTok → Prop) [DecidablePred ok] :
    Except JsmnErr Unit :=
  match num, p.toksuper with
  | some _, some s => do
      let t ← tokAt p.tokens s
      if ok t then .ok () else .error .inval
  | _, _ => .ok ()

/-- An object or array cannot become a key. -/
def TakesContainer (t : JsmnTok) : Prop := t.type ≠ .object

instance : DecidablePred TakesContainer := fun _ => inferInstanceAs (Decidable (_ ≠ _))

/-- Primitives must not be keys of the object, nor the second value of a
key. -/
def TakesPrimitive (t : JsmnTok) : Prop := ¬ (t.type = .object ∨ (t.type = .string ∧ t.size ≠ 0))

instance : DecidablePred TakesPrimitive := fun _ => inferInstanceAs (Decidable (¬ _))

/-! ## Brackets, colons and commas -/

/-- `case '{': case '['`. The size of the new token's parent is a field
the allocation does not touch, so it may be counted after the test. -/
def jsmnOpen (num : Option Nat) (type : JsmnType) (pos : Nat) (p : JsmnParser) :
    Except JsmnErr JsmnParser :=
  match num with
  | none => .ok { p with count := p.count + 1 }
  | some n => do
      let tokens ← jsmnAllocToken n ⟨type, pos, none, 0, p.toksuper⟩ p.tokens
      superTakes num p TakesContainer
      let tokens ← sizeIncr tokens p.toksuper
      return ⟨tokens, some p.tokens.length, p.count + 1⟩

/-- The walk up the parents from token `i`: the token that is closed, or
`none` when it ends at a token without a parent that is closed already.
A token's parent comes before it; were it not so, the walk would not
end. -/
def jsmnCloser (type : JsmnType) (tokens : List JsmnTok) (toksuper : Option Nat) (i : Nat) :
    Except JsmnErr (Option Nat) :=
  match tokens[i]? with
  | none => .error .wild
  | some t =>
      if t.stop = none then
        if t.type ≠ type then .error .inval else .ok (some i)
      else
        match t.parent with
        | none => if t.type ≠ type ∨ toksuper = none then .error .inval else .ok none
        | some q => if q < i then jsmnCloser type tokens toksuper q else .error .wild
termination_by i

/-- `case '}': case ']'` -/
def jsmnClose (num : Option Nat) (type : JsmnType) (pos : Nat) (p : JsmnParser) :
    Except JsmnErr JsmnParser :=
  match num with
  | none => .ok p
  | some _ =>
      if p.tokens = [] then .error .inval
      else do
        let closed ← jsmnCloser type p.tokens p.toksuper (p.tokens.length - 1)
        match closed with
        | none => return p
        | some i =>
            let t ← tokAt p.tokens i
            return { p with tokens := p.tokens.modify i (.close pos), toksuper := t.parent }

/-- `case ':'` -/
def jsmnColon (p : JsmnParser) : JsmnParser :=
  { p with toksuper := if p.tokens = [] then none else some (p.tokens.length - 1) }

/-- `case ','` -/
def jsmnComma (num : Option Nat) (p : JsmnParser) : Except JsmnErr JsmnParser :=
  match num, p.toksuper with
  | some _, some s => do
      let t ← tokAt p.tokens s
      return if t.type ≠ .array ∧ t.type ≠ .object then { p with toksuper := t.parent } else p
  | _, _ => .ok p

/-! ## `jsmn_parse` -/

/-- Its loop over the text, from `pos` on. -/
def jsmnLoop (num : Option Nat) (js : List UInt8) (pos : Nat) (p : JsmnParser) :
    Except JsmnErr JsmnParser :=
  match js with
  | [] => .ok p
  | c :: cs =>
      if c = 0 then .ok p
      else if c = '{'.toUInt8 then
        jsmnOpen num .object pos p >>= jsmnLoop num cs (pos + 1)
      else if c = '['.toUInt8 then
        jsmnOpen num .array pos p >>= jsmnLoop num cs (pos + 1)
      else if c = '}'.toUInt8 then
        jsmnClose num .object pos p >>= jsmnLoop num cs (pos + 1)
      else if c = ']'.toUInt8 then
        jsmnClose num .array pos p >>= jsmnLoop num cs (pos + 1)
      else if c = '"'.toUInt8 then
        stringLength 0 cs >>= fun n =>
          jsmnLeaf num .string (pos + 1) n p >>= jsmnLoop num (cs.drop (n + 1)) (pos + n + 2)
      else if isSpace c then jsmnLoop num cs (pos + 1) p
      else if c = ':'.toUInt8 then jsmnLoop num cs (pos + 1) (jsmnColon p)
      else if c = ','.toUInt8 then jsmnComma num p >>= jsmnLoop num cs (pos + 1)
      else if startsPrimitive c then
        superTakes num p TakesPrimitive >>= fun _ => primitiveLength cs >>= fun n =>
          jsmnLeaf num .primitive pos (n + 1) p >>= jsmnLoop num (cs.drop n) (pos + n + 1)
      else .error .inval
termination_by js.length
decreasing_by
  all_goals
    simp only [List.length_cons, List.length_drop]
    omega

theorem stringLength_quote (cs : List UInt8) : stringLength 0 ('"'.toUInt8 :: cs) = .ok 0 := by
  unfold stringLength
  rw [if_neg (by decide), if_pos rfl]

theorem stringLength_plain {c : UInt8} (hc : c ≠ 0 ∧ c ≠ '"'.toUInt8 ∧ c ≠ '\\'.toUInt8)
    (cs : List UInt8) : stringLength 0 (c :: cs) = (stringLength 0 cs).map (· + 1) := by
  conv => lhs; unfold stringLength
  rw [if_neg hc.1, if_neg hc.2.1, if_neg hc.2.2]

theorem stringLength_escape {e : UInt8} (he : isEscaped e) (cs : List UInt8) :
    stringLength 0 ('\\'.toUInt8 :: e :: cs) = (stringLength 0 cs).map (· + 2) := by
  conv => lhs; unfold stringLength
  rw [if_neg (by decide), if_neg (by decide), if_pos rfl]
  dsimp only
  rw [if_pos he]

theorem stringLength_unicode (cs : List UInt8) :
    stringLength 0 ('\\'.toUInt8 :: 'u'.toUInt8 :: cs) = (stringLength 4 cs).map (· + 2) := by
  conv => lhs; unfold stringLength
  rw [if_neg (by decide), if_neg (by decide), if_pos rfl]
  dsimp only
  rw [if_neg (by decide), if_pos rfl]

theorem stringLength_hex {hex : Nat} {c : UInt8} (hc : isHexDigit c) (cs : List UInt8) :
    stringLength (hex + 1) (c :: cs) = (stringLength hex cs).map (· + 1) := by
  have hne : c ≠ 0 := by
    rintro rfl
    revert hc
    decide
  rw [stringLength, if_neg hne, if_pos hc]

section Loop

variable (num : Option Nat) (cs : List UInt8) (pos : Nat) (p : JsmnParser)

@[simp] theorem jsmnLoop_nil : jsmnLoop num [] pos p = .ok p := by
  rw [jsmnLoop]

theorem jsmnLoop_nul : jsmnLoop num (0 :: cs) pos p = .ok p := by
  rw [jsmnLoop, if_pos rfl]

theorem jsmnLoop_openObject : jsmnLoop num ('{'.toUInt8 :: cs) pos p
    = jsmnOpen num .object pos p >>= jsmnLoop num cs (pos + 1) := by
  rw [jsmnLoop, if_neg (by decide), if_pos rfl]

theorem jsmnLoop_openArray : jsmnLoop num ('['.toUInt8 :: cs) pos p
    = jsmnOpen num .array pos p >>= jsmnLoop num cs (pos + 1) := by
  rw [jsmnLoop, if_neg (by decide), if_neg (by decide), if_pos rfl]

theorem jsmnLoop_closeObject : jsmnLoop num ('}'.toUInt8 :: cs) pos p
    = jsmnClose num .object pos p >>= jsmnLoop num cs (pos + 1) := by
  rw [jsmnLoop, if_neg (by decide), if_neg (by decide), if_neg (by decide), if_pos rfl]

theorem jsmnLoop_closeArray : jsmnLoop num (']'.toUInt8 :: cs) pos p
    = jsmnClose num .array pos p >>= jsmnLoop num cs (pos + 1) := by
  rw [jsmnLoop, if_neg (by decide), if_neg (by decide), if_neg (by decide), if_neg (by decide),
    if_pos rfl]

theorem jsmnLoop_quote : jsmnLoop num ('"'.toUInt8 :: cs) pos p
    = stringLength 0 cs >>= fun n =>
        jsmnLeaf num .string (pos + 1) n p >>= jsmnLoop num (cs.drop (n + 1)) (pos + n + 2) := by
  rw [jsmnLoop, if_neg (by decide), if_neg (by decide), if_neg (by decide), if_neg (by decide),
    if_neg (by decide), if_pos rfl]

theorem jsmnLoop_colon : jsmnLoop num (':'.toUInt8 :: cs) pos p
    = jsmnLoop num cs (pos + 1) (jsmnColon p) := by
  rw [jsmnLoop, if_neg (by decide), if_neg (by decide), if_neg (by decide), if_neg (by decide),
    if_neg (by decide), if_neg (by decide), if_neg (by decide), if_pos rfl]

theorem jsmnLoop_comma : jsmnLoop num (','.toUInt8 :: cs) pos p
    = jsmnComma num p >>= jsmnLoop num cs (pos + 1) := by
  rw [jsmnLoop, if_neg (by decide), if_neg (by decide), if_neg (by decide), if_neg (by decide),
    if_neg (by decide), if_neg (by decide), if_neg (by decide), if_neg (by decide), if_pos rfl]

theorem jsmnLoop_space {c : UInt8} (hc : isSpace c) :
    jsmnLoop num (c :: cs) pos p = jsmnLoop num cs (pos + 1) p := by
  have hne : ∀ d : UInt8, ¬ isSpace d → c ≠ d := fun d hd h => hd (h ▸ hc)
  rw [jsmnLoop, if_neg (hne _ (by decide)), if_neg (hne _ (by decide)),
    if_neg (hne _ (by decide)), if_neg (hne _ (by decide)), if_neg (hne _ (by decide)),
    if_neg (hne _ (by decide)), if_pos hc]

theorem jsmnLoop_primitive {c : UInt8} (hc : startsPrimitive c) :
    jsmnLoop num (c :: cs) pos p
      = superTakes num p TakesPrimitive >>= fun _ => primitiveLength cs >>= fun n =>
          jsmnLeaf num .primitive pos (n + 1) p >>= jsmnLoop num (cs.drop n) (pos + n + 1) := by
  have hne : ∀ d : UInt8, ¬ startsPrimitive d → c ≠ d := fun d hd h => hd (h ▸ hc)
  have hspace : ¬ isSpace c := by
    rintro (h | h | h | h) <;> exact hne _ (by decide) h
  rw [jsmnLoop, if_neg (hne _ (by decide)), if_neg (hne _ (by decide)),
    if_neg (hne _ (by decide)), if_neg (hne _ (by decide)), if_neg (hne _ (by decide)),
    if_neg (hne _ (by decide)), if_neg hspace, if_neg (hne _ (by decide)),
    if_neg (hne _ (by decide)), if_pos hc]

end Loop

/-- `jsmn_parse` after `jsmn_init`; `num` is `none` for
`tokens == NULL`. -/
def jsmnParse (num : Option Nat) (js : List UInt8) : Except JsmnErr JsmnParser := do
  let p ← jsmnLoop num js 0 jsmnInit
  if p.tokens.any fun t => t.stop.isNone then throw .part
  return p

theorem jsmnParse_eq_ok {num : Option Nat} {js : List UInt8} {p : JsmnParser} :
    jsmnParse num js = .ok p ↔
      jsmnLoop num js 0 jsmnInit = .ok p ∧ ∀ t ∈ p.tokens, t.stop ≠ none := by
  unfold jsmnParse
  cases hl : jsmnLoop num js 0 jsmnInit with
  | error e =>
      simp only [bind, Except.bind, reduceCtorEq, false_and]
  | ok q =>
      simp only [bind, Except.bind]
      by_cases hopen : q.tokens.any (fun t => t.stop.isNone) = true
      · rw [if_pos hopen]
        obtain ⟨t, ht, hnone⟩ := List.any_eq_true.mp hopen
        constructor
        · intro h
          cases h
        · rintro ⟨h, hclosed⟩
          cases h
          exact absurd (Option.isNone_iff_eq_none.mp hnone) (hclosed t ht)
      · rw [if_neg hopen]
        constructor
        · intro h
          cases h
          refine ⟨rfl, ?_⟩
          intro t ht hnone
          exact hopen (List.any_eq_true.mpr ⟨t, ht, Option.isNone_iff_eq_none.mpr hnone⟩)
        · rintro ⟨h, -⟩
          exact h

end LiveWireSwitch
