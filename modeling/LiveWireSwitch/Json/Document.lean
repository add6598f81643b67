import LiveWireSwitch.Json.Parser

/-!
# Document — JSON texts and their tokens

A JSON value as it is written, white space included, with two readings:
the bytes of its text, and the tokens that describe it (each node before
its children, a key being the parent of its value). That the tokeniser
makes the second out of the first is in `Tokens`.
-/

namespace LiveWireSwitch

/-! ## The parts of a text -/

/-- White space between tokens. -/
structure Gap where
  text : List UInt8
  space : ∀ c ∈ text, isSpace c

def Gap.empty : Gap := ⟨[], fun _ h => nomatch h⟩

/-- A number, `true`, `false` or `null`, as far as the tokeniser looks at
it. -/
structure PrimitiveText where
  first : UInt8
  rest : List UInt8
  starts : startsPrimitive first
  plain : ∀ c ∈ rest, 32 ≤ c ∧ c < 127 ∧ ¬ isDelimiter c

def PrimitiveText.text (t : PrimitiveText) : List UInt8 := t.first :: t.rest

theorem forall_mem_of_all {P : UInt8 → Prop} [DecidablePred P] {text : List UInt8}
    (h : text.all (fun c => decide (P c)) = true) : ∀ c ∈ text, P c := by
  intro c hc
  exact of_decide_eq_true (List.all_eq_true.mp h c hc)

/-- What may stand between two quotes. -/
inductive StringBody : List UInt8 → Prop where
  | nil : StringBody []
  | plain {c : UInt8} {cs : List UInt8} (hc : c ≠ 0 ∧ c ≠ '"'.toUInt8 ∧ c ≠ '\\'.toUInt8)
      (hcs : StringBody cs) : StringBody (c :: cs)
  | escape {e : UInt8} {cs : List UInt8} (he : isEscaped e) (hcs : StringBody cs) :
      StringBody ('\\'.toUInt8 :: e :: cs)
  | unicode {a b c d : UInt8} {cs : List UInt8} (ha : isHexDigit a) (hb : isHexDigit b)
      (hc : isHexDigit c) (hd : isHexDigit d) (hcs : StringBody cs) :
      StringBody ('\\'.toUInt8 :: 'u'.toUInt8 :: a :: b :: c :: d :: cs)

theorem stringBody_of_plain {text : List UInt8}
    (h : text.all (fun c => c ≠ 0 ∧ c ≠ '"'.toUInt8 ∧ c ≠ '\\'.toUInt8) = true) :
    StringBody text := by
  induction text with
  | nil => exact .nil
  | cons c cs ih =>
      rw [List.all_cons, Bool.and_eq_true, decide_eq_true_eq] at h
      exact .plain h.1 (ih h.2)

/-- The bytes of a string, escapes and all, without its quotes. -/
structure StringText where
  text : List UInt8
  body : StringBody text

/-! ## Values -/

mutual

/-- A JSON value as it is written. -/
inductive Json where
  | primitive (t : PrimitiveText)
  | string (t : StringText)
  | array (items : Items)
  | object (members : Members)

/-- What an array has between its brackets. -/
inductive Items where
  | nil (gap : Gap)
  | cons (before : Gap) (v : Json) (after : Gap) (rest : Items)

/-- What an object has between its braces. -/
inductive Members where
  | nil (gap : Gap)
  | cons (before : Gap) (key : StringText) (afterKey beforeValue : Gap) (v : Json) (after : Gap)
      (rest : Members)

end

/-- The comma before the rest, if there is a rest. -/
def Items.comma : Items → List UInt8
  | .nil _ => []
  | .cons .. => [','.toUInt8]

def Members.comma : Members → List UInt8
  | .nil _ => []
  | .cons .. => [','.toUInt8]

/-- A string with its quotes. -/
def StringText.quoted (t : StringText) : List UInt8 :=
  '"'.toUInt8 :: (t.text ++ ['"'.toUInt8])

mutual

def Json.text : Json → List UInt8
  | .primitive t => t.text
  | .string t => t.quoted
  | .array items => '['.toUInt8 :: (items.text ++ [']'.toUInt8])
  | .object members => '{'.toUInt8 :: (members.text ++ ['}'.toUInt8])

def Items.text : Items → List UInt8
  | .nil gap => gap.text
  | .cons before v after rest => before.text ++ v.text ++ after.text ++ rest.comma ++ rest.text

def Members.text : Members → List UInt8
  | .nil gap => gap.text
  | .cons before key afterKey beforeValue v after rest =>
      before.text ++ key.quoted ++ afterKey.text ++ ':'.toUInt8 :: beforeValue.text ++ v.text ++
        after.text ++ rest.comma ++ rest.text

end

/-! ## Tokens -/

def Items.count : Items → Nat
  | .nil _ => 0
  | .cons _ _ _ rest => rest.count + 1

def Members.count : Members → Nat
  | .nil _ => 0
  | .cons _ _ _ _ _ _ rest => rest.count + 1

mutual

/-- How many tokens a value takes. -/
def Json.size : Json → Nat
  | .primitive _ => 1
  | .string _ => 1
  | .array items => items.size + 1
  | .object members => members.size + 1

def Items.size : Items → Nat
  | .nil _ => 0
  | .cons _ v _ rest => v.size + rest.size

def Members.size : Members → Nat
  | .nil _ => 0
  | .cons _ _ _ _ v _ rest => v.size + 1 + rest.size

end

/-- The token of a string whose opening quote is at `start`. -/
def StringText.token (t : StringText) (start size : Nat) (parent : Option Nat) : JsmnTok :=
  ⟨.string, start + 1, some (start + 1 + t.text.length), size, parent⟩

mutual

/-- The tokens of a value whose text starts at `start`; the first of them
has index `index`. -/
def Json.tokens (start : Nat) (parent : Option Nat) (index : Nat) : Json → List JsmnTok
  | .primitive t => [⟨.primitive, start, some (start + t.text.length), 0, parent⟩]
  | .string t => [t.token start 0 parent]
  | .array items =>
      ⟨.array, start, some (start + items.text.length + 2), items.count, parent⟩ ::
        items.tokens (start + 1) index (index + 1)
  | .object members =>
      ⟨.object, start, some (start + members.text.length + 2), members.count, parent⟩ ::
        members.tokens (start + 1) index (index + 1)

def Items.tokens (start parent index : Nat) : Items → List JsmnTok
  | .nil _ => []
  | .cons before v after rest =>
      v.tokens (start + before.text.length) (some parent) index ++
        rest.tokens
          (start + before.text.length + v.text.length + after.text.length + rest.comma.length)
          parent (index + v.size)

def Members.tokens (start parent index : Nat) : Members → List JsmnTok
  | .nil _ => []
  | .cons before key afterKey beforeValue v after rest =>
      let valueStart := start + before.text.length + key.quoted.length + afterKey.text.length + 1 +
        beforeValue.text.length
      key.token (start + before.text.length) 1 (some parent) ::
        (v.tokens valueStart (some index) (index + 1) ++
          rest.tokens (valueStart + v.text.length + after.text.length + rest.comma.length) parent
            (index + 1 + v.size))

end

mutual

@[simp] theorem Json.length_tokens (start : Nat) (parent : Option Nat) (index : Nat) :
    (v : Json) → (v.tokens start parent index).length = v.size
  | .primitive _ => rfl
  | .string _ => rfl
  | .array items => by
      rw [Json.tokens, List.length_cons, Items.length_tokens, Json.size]
  | .object members => by
      rw [Json.tokens, List.length_cons, Members.length_tokens, Json.size]

@[simp] theorem Items.length_tokens (start parent index : Nat) :
    (items : Items) → (items.tokens start parent index).length = items.size
  | .nil _ => rfl
  | .cons before v after rest => by
      rw [Items.tokens, List.length_append, Json.length_tokens, Items.length_tokens, Items.size]

@[simp] theorem Members.length_tokens (start parent index : Nat) :
    (members : Members) → (members.tokens start parent index).length = members.size
  | .nil _ => rfl
  | .cons before key afterKey beforeValue v after rest => by
      rw [Members.tokens, List.length_cons, List.length_append, Json.length_tokens,
        Members.length_tokens, Members.size]
      omega

end

theorem Json.size_pos (v : Json) : 0 < v.size := by
  cases v with
  | primitive t => exact Nat.one_pos
  | string t => exact Nat.one_pos
  | array items => exact Nat.succ_pos _
  | object members => exact Nat.succ_pos _

mutual

/-- The tokens of a value are one whole tree. -/
theorem Json.complete_tokens (start : Nat) (parent : Option Nat) (index : Nat) :
    (v : Json) → Lib.Complete JsmnTok.size 1 (v.tokens start parent index)
  | .primitive _ => .node _ .nil
  | .string _ => .node _ .nil
  | .array items => .node _ (Items.complete_tokens (start + 1) index (index + 1) items)
  | .object members => .node _ (Members.complete_tokens (start + 1) index (index + 1) members)

theorem Items.complete_tokens (start parent index : Nat) :
    (items : Items) → Lib.Complete JsmnTok.size items.count (items.tokens start parent index)
  | .nil _ => .nil
  | .cons _ v _ rest => by
      rw [Items.count, Nat.add_comm, Items.tokens]
      exact (Json.complete_tokens _ _ _ v).append _ (Items.complete_tokens _ _ _ rest)

theorem Members.complete_tokens (start parent index : Nat) :
    (members : Members) →
      Lib.Complete JsmnTok.size members.count (members.tokens start parent index)
  | .nil _ => .nil
  | .cons _ key _ _ v _ rest =>
      .cons (t := key.token _ 1 _) (Json.complete_tokens _ _ _ v)
        (Members.complete_tokens _ _ _ rest)

end

end LiveWireSwitch
