import LiveWireSwitch.Json.Meaning
import LiveWireSwitch.RmakerParam.Requests

/-!
# RmakerParam — Asked

What a request asks for, by the meaning of JSON: a boolean is `true` or
`false`, a number is its value, and strings and keys are the characters
that are meant. The code agrees with that as long as the names the node
has are written without escapes, and so are the strings it takes, no `1` or
`0` stands where a boolean should, and the whole numbers for integers
have 32 bits and are written as such.
-/

namespace LiveWireSwitch

/-! ## Values -/

/-- The truth value. -/
def Json.toBool? : Json → Option Bool
  | .primitive t =>
      if t.text = cBytes "true" then some true
      else if t.text = cBytes "false" then some false
      else none
  | _ => none

/-- The whole number. -/
def Json.toInt? : Json → Option Int
  | .primitive t => (JsonNumber.ofText t.text).bind JsonNumber.toInt?
  | _ => none

/-- The number, as a float. -/
def Json.toFloat? : Json → Option Float32
  | .primitive t => (JsonNumber.ofText t.text).map JsonNumber.toFloat
  | _ => none

/-- The value of that type that `w` is. -/
def Json.meaning (w : Json) : ValType → Option ReqVal
  | .boolean => w.toBool?.map .boolean
  | .integer => (w.toInt?.bind int32Of).map .integer
  | .float => w.toFloat?.map .float
  | .string =>
      match w with
      | .string t => some (.string t.decoded)
      | _ => none
  | .object => if w.type = .object then some (.object w.text) else none
  | .array => if w.type = .array then some (.array w.text) else none

/-- It is written so that the code takes it for what it is. -/
def Json.Regular (w : Json) : ValType → Prop
  | .boolean => w.type = .primitive → w.bytes ≠ cBytes "1" ∧ w.bytes ≠ cBytes "0"
  | .integer => w.type = .primitive → ∀ n ∈ JsonNumber.ofText w.bytes, n.AsInt32
  | .string => w.type = .string → '\\'.toUInt8 ∉ w.bytes
  | .float | .object | .array => True

instance (w : Json) : (type : ValType) → Decidable (w.Regular type)
  | .boolean => inferInstanceAs (Decidable (_ → _ ∧ _))
  | .integer => inferInstanceAs (Decidable (_ → ∀ n ∈ JsonNumber.ofText w.bytes, n.AsInt32))
  | .string => inferInstanceAs (Decidable (_ → _ ∉ _))
  | .float | .object | .array => .isTrue trivial

/-- The literal names are no numbers, to JSON and to the code. -/
theorem jsonWords_no_number :
    ∀ w ∈ jsonWords, JsonNumber.ofText w = none ∧ intOf w = none ∧ floatOf w = none := by
  decide +kernel

theorem boolOf_eq_iff (w : List UInt8) :
    boolOf w = (if w = cBytes "true" then some true
        else if w = cBytes "false" then some false else none) ↔
      w ≠ cBytes "1" ∧ w ≠ cBytes "0" := by
  have htrue : cBytes "1" ≠ cBytes "true" ∧ cBytes "1" ≠ cBytes "false" := by decide
  have hfalse : cBytes "0" ≠ cBytes "true" ∧ cBytes "0" ≠ cBytes "false" ∧
      cBytes "0" ≠ cBytes "1" := by decide
  rw [boolOf]
  by_cases hone : w = cBytes "1"
  · rw [hone, if_pos (.inr rfl), if_neg htrue.1, if_neg htrue.2]
    exact iff_of_false (Option.some_ne_none true) fun hne => hne.1 rfl
  · by_cases hzero : w = cBytes "0"
    · rw [hzero, if_neg (not_or.mpr ⟨hfalse.1, hfalse.2.2⟩), if_pos (.inr rfl), if_neg hfalse.1,
        if_neg hfalse.2.1]
      exact iff_of_false (Option.some_ne_none false) fun hne => hne.2 rfl
    · simp only [hone, hzero, or_false, ne_eq, not_false_eq_true, and_self]

/-- The token of a value of that type. -/
def ValType.token : ValType → JsmnType
  | .boolean | .integer | .float => .primitive
  | .string => .string
  | .object => .object
  | .array => .array

/-- Any other value is none to both. -/
theorem Json.valueOf_of_type_ne {w : Json} {type : ValType} (h : w.type ≠ type.token) :
    w.valueOf type = none ∧ w.meaning type = none ∧ w.Regular type := by
  cases w <;> cases type <;> first
    | exact absurd rfl h
    | exact ⟨rfl, rfl, trivial⟩
    | exact ⟨rfl, rfl, nofun⟩

section Primitive

variable {t : PrimitiveText} (h : t.Proper)

theorem valueOf_boolean_iff :
    (Json.primitive t).valueOf .boolean = (Json.primitive t).meaning .boolean ↔
      (Json.primitive t).Regular .boolean := by
  show (boolOf t.text).map ReqVal.boolean = Option.map _ _ ↔ (_ → _)
  rw [(Option.map_injective fun _ _ hsame => ReqVal.boolean.inj hsame).eq_iff, Json.toBool?,
    boolOf_eq_iff]
  exact ⟨fun hne _ => hne, fun hne => hne rfl⟩

include h

theorem valueOf_integer_iff :
    (Json.primitive t).valueOf .integer = (Json.primitive t).meaning .integer ↔
      (Json.primitive t).Regular .integer := by
  show (intOf t.text).map ReqVal.integer = Option.map ReqVal.integer _ ↔
    (_ → ∀ n ∈ JsonNumber.ofText t.text, n.AsInt32)
  rw [(Option.map_injective fun _ _ hsame => ReqVal.integer.inj hsame).eq_iff, Json.toInt?]
  obtain hword | hnumber := h
  · obtain ⟨hnone, hint, -⟩ := jsonWords_no_number _ hword
    rw [hnone, hint]
    exact ⟨fun _ _ => nofun, fun _ => rfl⟩
  · obtain ⟨n, hn⟩ := Option.isSome_iff_exists.mp hnumber
    obtain ⟨hvalid, htext⟩ := JsonNumber.ofText_eq_some.mp hn
    have hiff := JsonNumber.intOf_text_iff hvalid
    rw [htext] at hiff
    rw [hn, Option.bind_some, hiff]
    constructor
    · rintro hplain - m ⟨⟩
      exact hplain
    · intro hall
      exact hall rfl n rfl

theorem valueOf_float :
    (Json.primitive t).valueOf .float = (Json.primitive t).meaning .float := by
  show (floatOf t.text).map ReqVal.float = Option.map _ _
  congr 1
  rw [Json.toFloat?]
  obtain hword | hnumber := h
  · obtain ⟨hnone, -, hfloat⟩ := jsonWords_no_number _ hword
    rw [hnone, hfloat]
    rfl
  · obtain ⟨n, hn⟩ := Option.isSome_iff_exists.mp hnumber
    obtain ⟨hvalid, htext⟩ := JsonNumber.ofText_eq_some.mp hn
    have hfloat := JsonNumber.floatOf_text hvalid
    rw [htext] at hfloat
    rw [hn, hfloat]
    rfl

end Primitive

theorem valueOf_string_iff (t : StringText) :
    (Json.string t).valueOf .string = (Json.string t).meaning .string ↔
      (Json.string t).Regular .string := by
  show some (ReqVal.string t.text) = some (.string t.decoded) ↔ (_ → _)
  rw [Option.some.injEq, ReqVal.string.injEq, eq_comm, t.decoded_eq_iff]
  exact ⟨fun hplain _ => hplain, fun hplain => hplain rfl⟩

/-- **A value is taken for what it is** just if it is regular. -/
theorem Json.valueOf_eq_meaning_iff {w : Json} (h : w.Proper) (type : ValType) :
    w.valueOf type = w.meaning type ↔ w.Regular type := by
  by_cases htype : w.type = type.token
  · cases w with
    | primitive t =>
        have ht : t.Proper := h t (List.mem_singleton.mpr rfl)
        cases type with
        | boolean => exact valueOf_boolean_iff
        | integer => exact valueOf_integer_iff ht
        | float => exact iff_of_true (valueOf_float ht) trivial
        | _ => cases htype
    | string t =>
        cases type with
        | string => exact valueOf_string_iff t
        | _ => cases htype
    | array items =>
        cases type with
        | array => exact iff_of_true rfl trivial
        | _ => cases htype
    | object members =>
        cases type with
        | object => exact iff_of_true rfl trivial
        | _ => cases htype
  · obtain ⟨hvalue, hmeaning, hregular⟩ := Json.valueOf_of_type_ne htype
    exact iff_of_true (hvalue.trans hmeaning.symm) hregular

/-! ## Requests -/

section Node

variable {α : Type} (node : SetNode α)

/-- The meaning of a document. -/
def SetNode.meant : Reading α where
  device root d := (root.member (cBytes d.name.text)).filter fun v => decide (v.type = .object)
  param v p := (v.member (cBytes (node.paramName p).text)).bind fun w => w.meaning (node.valType p)

/-- What the node takes from a document is written as the code reads it:
the keys and the values. -/
def SetNode.Understood (root : Json) : Prop :=
  ∀ d ∈ node.devices, root.Spells (cBytes d.name.text) ∧
    ∀ v ∈ node.meant.device root d, ∀ p ∈ d.params,
      v.Spells (cBytes (node.paramName p).text) ∧
        ∀ w ∈ v.member (cBytes (node.paramName p).text), w.Regular (node.valType p)

instance (root : Json) : Decidable (node.Understood root) :=
  inferInstanceAs (Decidable (∀ d ∈ node.devices, _ ∧ ∀ v ∈ node.meant.device root d, _))

/-- The calls a document asks for. -/
def SetNode.asked (calloc : α → Bool) (root : Json) : List (SetCall α) :=
  node.calls node.meant calloc root

/-- Two readings that agree on what the node takes lead to the same
calls. -/
theorem calls_congr {r r' : Reading α} {root : Json}
    (hdevice : ∀ d ∈ node.devices, r.device root d = r'.device root d)
    (hparam : ∀ d ∈ node.devices, ∀ v ∈ r'.device root d, ∀ p ∈ d.params,
      r.param v p = r'.param v p) (calloc : α → Bool) :
    node.calls r calloc root = node.calls r' calloc root := by
  refine List.flatMap_congr ?_
  intro d hd
  rw [hdevice d hd]
  cases hv : r'.device root d with
  | none => rfl
  | some v =>
      have hsame := hparam d hd v hv
      have htake : ∀ params : List α, (∀ p ∈ params, p ∈ d.params) →
          (params.takeWhile fun p => !decide (node.Starves r calloc v p)).flatMap
              (node.paramCalls r d v) =
            (params.takeWhile fun p => !decide (node.Starves r' calloc v p)).flatMap
              (node.paramCalls r' d v) := by
        intro params
        induction params with
        | nil => exact fun _ => rfl
        | cons p ps ih =>
            intro hmem
            have hp := hsame p (hmem p List.mem_cons_self)
            have hstarves : decide (node.Starves r calloc v p) =
                decide (node.Starves r' calloc v p) := by
              rw [decide_eq_decide, SetNode.Starves, SetNode.Starves, hp]
            have hcalls : node.paramCalls r d v p = node.paramCalls r' d v p := by
              rw [SetNode.paramCalls, SetNode.paramCalls, hp]
            rw [List.takeWhile_cons, List.takeWhile_cons, hstarves]
            split
            · rw [List.flatMap_cons, List.flatMap_cons, hcalls,
                ih fun q hq => hmem q (List.mem_cons_of_mem p hq)]
            · rfl
      exact htake d.params fun _ hp => hp

/-- Both readings are one. -/
theorem calls_literal {root : Json} (hproper : root.Proper) (h : node.Understood root)
    (calloc : α → Bool) : node.calls node.literal calloc root = node.asked calloc root := by
  refine calls_congr node ?_ ?_ calloc
  · intro d hd
    show root.findOf _ _ = _
    rw [Json.findOf, Json.find_eq_member (h d hd).1]
    rfl
  · intro d hd v hv p hp
    obtain ⟨hspells, hregular⟩ := (h d hd).2 v hv p hp
    have hv' : v.Proper := hproper.member (Option.mem_filter_iff.mp hv).1
    rw [SetNode.literal_param, Json.find_eq_member hspells]
    refine Option.bind_congr fun w hw => ?_
    exact (Json.valueOf_eq_meaning_iff (hv'.member hw) _).mpr (hregular w hw)

end Node

/-- A document that sets parameters of the light. -/
def lightDocument (params : Members) : Document where
  before := .empty
  root := .object (.cons .empty ⟨cBytes "Light", stringBody_of_plain (by decide)⟩ .empty .empty
    (.object params) .empty (.nil .empty))
  after := .empty
  notPrimitive := id

/-- `"Power":true` -/
def powerTrue (rest : Members) : Members :=
  .cons .empty ⟨cBytes "Power", stringBody_of_plain (by decide)⟩ .empty .empty
    (.primitive ⟨'t'.toUInt8, cBytes "rue", by decide, forall_mem_of_all (by decide)⟩) .empty rest

/-- `{"Light":{"Brightness":40,"Power":true,"Name":"Lamp"}}` -/
def lampRequest : Document :=
  lightDocument
    (.cons .empty ⟨cBytes "Brightness", stringBody_of_plain (by decide)⟩ .empty .empty
      (.primitive ⟨'4'.toUInt8, cBytes "0", by decide, forall_mem_of_all (by decide)⟩) .empty
    (powerTrue
    (.cons .empty ⟨cBytes "Name", stringBody_of_plain (by decide)⟩ .empty .empty
      (.string ⟨cBytes "Lamp", stringBody_of_plain (by decide)⟩) .empty
      (.nil .empty))))

end LiveWireSwitch
