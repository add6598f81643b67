import LiveWireSwitch.Json.Numbers

/-!
# Meaning — what a JSON document says

What JSON makes of a text, whatever reads it: the characters of a string
with its escapes resolved, in UTF-8, and the members of an object by the
name that their keys mean. `json_parser.c` takes the bytes as they are
written, which is the same as long as nothing is escaped.
-/

namespace LiveWireSwitch

/-! ## Strings -/

/-- What a string is written with: bytes that stand for themselves, and
escaped UTF-16 code units. -/
inductive Piece where
  | byte (c : UInt8)
  | unit (u : Nat)
deriving DecidableEq

/-- What stands behind a backslash, if it is no `u`. -/
def escapedByte (e : UInt8) : UInt8 :=
  if e = 'b'.toUInt8 then 8
  else if e = 'f'.toUInt8 then 12
  else if e = 'n'.toUInt8 then 10
  else if e = 'r'.toUInt8 then 13
  else if e = 't'.toUInt8 then 9
  else e

def stringPieces : List UInt8 → List Piece
  | [] => []
  | c :: cs =>
      if c = '\\'.toUInt8 then
        match cs with
        | [] => []
        | e :: es =>
            if e = 'u'.toUInt8 then
              match es with
              | u₁ :: u₂ :: u₃ :: u₄ :: rest =>
                  .unit (hexValue [u₁, u₂, u₃, u₄]) :: stringPieces rest
              | _ => []
            else .byte (escapedByte e) :: stringPieces es
      else .byte c :: stringPieces cs

/-- A character in UTF-8; half of a pair is none. -/
def utf8Of (u : Nat) : List UInt8 :=
  String.utf8EncodeChar (if u.isValidChar then .ofNat u else .ofNat 0xfffd)

/-- The bytes of the characters: two code units can be one character. -/
def joinPieces : List Piece → List UInt8
  | [] => []
  | .byte c :: ps => c :: joinPieces ps
  | .unit u :: .unit v :: ps =>
      if (0xd800 ≤ u ∧ u < 0xdc00) ∧ 0xdc00 ≤ v ∧ v < 0xe000 then
        utf8Of (0x10000 + (u - 0xd800) * 0x400 + (v - 0xdc00)) ++ joinPieces ps
      else utf8Of u ++ joinPieces (.unit v :: ps)
  | .unit u :: ps => utf8Of u ++ joinPieces ps

/-- The string that is meant. -/
def StringText.decoded (t : StringText) : List UInt8 := joinPieces (stringPieces t.text)

/-- No character takes as many bytes as its escape. -/
def Piece.weight : Piece → Nat
  | .byte _ => 1
  | .unit _ => 5

theorem length_utf8Of_le (u : Nat) : (utf8Of u).length ≤ 4 := by
  rw [utf8Of, String.length_utf8EncodeChar]
  exact Char.utf8Size_le_four _

theorem length_joinPieces_le (ps : List Piece) :
    (joinPieces ps).length ≤ (ps.map Piece.weight).sum := by
  fun_induction joinPieces ps with
  | case1 => exact Nat.le_refl _
  | case2 c ps ih =>
      simp only [List.length_cons, List.map_cons, List.sum_cons, Piece.weight]
      omega
  | case3 u v rest hpair ih =>
      have hchar := length_utf8Of_le (0x10000 + (u - 0xd800) * 0x400 + (v - 0xdc00))
      simp only [List.length_append, List.map_cons, List.sum_cons, Piece.weight]
      omega
  | case4 u v rest hpair ih =>
      have hchar := length_utf8Of_le u
      simp only [List.map_cons, List.sum_cons, Piece.weight] at ih
      simp only [List.length_append, List.map_cons, List.sum_cons, Piece.weight]
      omega
  | case5 u ps hno ih =>
      have hchar := length_utf8Of_le u
      simp only [List.length_append, List.map_cons, List.sum_cons, Piece.weight]
      omega

/-- Every backslash costs more than it gives. -/
theorem weight_stringPieces (w : List UInt8) :
    ((stringPieces w).map Piece.weight).sum ≤ w.length ∧
      ('\\'.toUInt8 ∈ w → ((stringPieces w).map Piece.weight).sum < w.length) := by
  fun_induction stringPieces w with
  | case1 => exact ⟨Nat.le_refl _, nofun⟩
  | case2 => exact ⟨Nat.zero_le _, fun _ => Nat.one_pos⟩
  | case3 u₁ u₂ u₃ u₄ rest ih =>
      simp only [List.map_cons, List.sum_cons, List.length_cons, Piece.weight]
      omega
  | case4 es hno => exact ⟨Nat.zero_le _, fun _ => Nat.succ_pos _⟩
  | case5 e es hne ih =>
      simp only [List.map_cons, List.sum_cons, List.length_cons, Piece.weight]
      omega
  | case6 c cs hne ih =>
      simp only [List.map_cons, List.sum_cons, List.length_cons, Piece.weight]
      refine ⟨by omega, ?_⟩
      intro hmem
      have hlt := ih.2 ((List.mem_cons.mp hmem).resolve_left fun heq => hne heq.symm)
      omega

theorem stringPieces_of_plain {w : List UInt8} (h : '\\'.toUInt8 ∉ w) :
    stringPieces w = w.map .byte := by
  induction w with
  | nil => rfl
  | cons c cs ih =>
      rw [List.mem_cons, not_or] at h
      rw [stringPieces.eq_def]
      dsimp only
      rw [if_neg fun heq => h.1 heq.symm, ih h.2, List.map_cons]

theorem joinPieces_bytes (w : List UInt8) : joinPieces (w.map .byte) = w := by
  induction w with
  | nil => rfl
  | cons c cs ih => rw [List.map_cons, joinPieces, ih]

/-- **A string means what is written** just if nothing in it is escaped. -/
theorem StringText.decoded_eq_iff (t : StringText) :
    t.decoded = t.text ↔ '\\'.toUInt8 ∉ t.text := by
  constructor
  · intro heq hmem
    have hle := length_joinPieces_le (stringPieces t.text)
    have hlt := (weight_stringPieces t.text).2 hmem
    have hlength : (joinPieces (stringPieces t.text)).length = t.text.length :=
      congrArg List.length heq
    omega
  · intro hplain
    rw [StringText.decoded, stringPieces_of_plain hplain, joinPieces_bytes]

/-- An escape of two bytes, a character above 16 bits, and half of one. -/
example : joinPieces (stringPieces (cBytes "\\n\\ud83d\\ude00\\udc00")) =
    10 :: (String.utf8EncodeChar (.ofNat 0x1f600) ++ String.utf8EncodeChar (.ofNat 0xfffd)) := by
  decide +kernel

/-! ## Members -/

/-- The value of the first member whose key means the name. -/
def Members.member (name : List UInt8) : Members → Option Json
  | .nil _ => none
  | .cons _ key _ _ v _ rest => if key.decoded = name then some v else rest.member name

def Json.member (name : List UInt8) : Json → Option Json
  | .object members => members.member name
  | _ => none

/-- A key that means the name is written as the name. -/
def Members.Spells (name : List UInt8) : Members → Prop
  | .nil _ => True
  | .cons _ key _ _ _ _ rest => (key.decoded = name ↔ key.text = name) ∧ rest.Spells name

def Json.Spells (name : List UInt8) : Json → Prop
  | .object members => members.Spells name
  | _ => True

instance Members.decidableSpells (name : List UInt8) :
    (members : Members) → Decidable (members.Spells name)
  | .nil _ => .isTrue trivial
  | .cons _ key _ _ _ _ rest =>
      have := rest.decidableSpells name
      inferInstanceAs (Decidable ((key.decoded = name ↔ key.text = name) ∧ rest.Spells name))

instance (name : List UInt8) : (v : Json) → Decidable (v.Spells name)
  | .object members => inferInstanceAs (Decidable (members.Spells name))
  | .primitive _ | .string _ | .array _ => .isTrue trivial

theorem Members.find_eq_member {name : List UInt8} {members : Members} (h : members.Spells name) :
    members.find name = members.member name := by
  cases members with
  | nil gap => rfl
  | cons gap key afterKey beforeValue v gapAfter rest =>
      obtain ⟨hkey, hrest⟩ := h
      rw [Members.find, Members.member, Members.find_eq_member hrest]
      exact if_congr hkey.symm rfl rfl
termination_by structural members

theorem Json.find_eq_member {name : List UInt8} {v : Json} (h : v.Spells name) :
    v.find name = v.member name := by
  cases v with
  | object members => exact Members.find_eq_member h
  | _ => rfl

/-! ## Documents -/

mutual

/-- The primitives in a value, at any depth. -/
def Json.primitives : Json → List PrimitiveText
  | .primitive t => [t]
  | .string _ => []
  | .array items => items.primitives
  | .object members => members.primitives

def Items.primitives : Items → List PrimitiveText
  | .nil _ => []
  | .cons _ v _ rest => v.primitives ++ rest.primitives

def Members.primitives : Members → List PrimitiveText
  | .nil _ => []
  | .cons _ _ _ _ v _ rest => v.primitives ++ rest.primitives

end

/-- The literal names of JSON. -/
def jsonWords : List (List UInt8) := ["true", "false", "null"].map cBytes

/-- What JSON has for a primitive; the tokeniser takes more. -/
def PrimitiveText.Proper (t : PrimitiveText) : Prop :=
  t.text ∈ jsonWords ∨ (JsonNumber.ofText t.text).isSome

instance (t : PrimitiveText) : Decidable t.Proper := inferInstanceAs (Decidable (_ ∨ _))

/-- All of it is JSON. -/
def Json.Proper (v : Json) : Prop := ∀ t ∈ v.primitives, t.Proper

instance (v : Json) : Decidable v.Proper := inferInstanceAs (Decidable (∀ t ∈ _, _))

theorem Members.primitives_of_member {name : List UInt8} {members : Members} {v : Json}
    (h : members.member name = some v) : ∀ t ∈ v.primitives, t ∈ members.primitives := by
  cases members with
  | nil gap => cases h
  | cons gap key afterKey beforeValue w gapAfter rest =>
      intro t ht
      rw [Members.member] at h
      rw [Members.primitives, List.mem_append]
      split at h
      · cases h
        exact .inl ht
      · exact .inr (Members.primitives_of_member h t ht)
termination_by structural members

theorem Json.Proper.member {name : List UInt8} {v w : Json} (h : v.Proper)
    (hmember : v.member name = some w) : w.Proper := by
  cases v with
  | object members =>
      intro t ht
      exact h t (Members.primitives_of_member hmember t ht)
  | primitive => cases hmember
  | string => cases hmember
  | array => cases hmember

end LiveWireSwitch
