import LiveWireSwitch.Json.Reading
import LiveWireSwitch.RmakerParam.SetParams
import Mathlib.Data.List.TakeWhile

/-!
# RmakerParam — Requests

The calls `esp_rmaker_handle_set_params` makes on the text of a document.
They follow from what is read for each device of the node and, in that,
for each of its parameters, in the node's order, not the document's. Here
the document is read as the code does it: names are compared byte by byte,
and values are what the conversions of `json_parser.c` give.
-/

namespace LiveWireSwitch

/-! ## Readings -/

/-- How a document is read: what it has for a device, and the value this
has for a parameter. -/
structure Reading (α : Type) where
  device : Json → RmakerDevice α → Option Json
  param : Json → α → Option ReqVal

/-- A value that `esp_rmaker_device_set_params` copies. -/
def ValType.Copied : ValType → Prop
  | .string | .object | .array => True
  | .boolean | .integer | .float => False

instance : DecidablePred ValType.Copied
  | .string | .object | .array => .isTrue trivial
  | .boolean | .integer | .float => .isFalse id

section Calls

variable {α : Type} (node : SetNode α) (reading : Reading α)

/-- There is a value to copy and no memory for it. -/
def SetNode.Starves (calloc : α → Bool) (v : Json) (p : α) : Prop :=
  (reading.param v p).isSome ∧ (node.valType p).Copied ∧ calloc p = false

instance (calloc : α → Bool) (v : Json) (p : α) : Decidable (node.Starves reading calloc v p) :=
  inferInstanceAs (Decidable (_ ∧ _ ∧ _))

/-- The calls for one parameter. -/
def SetNode.paramCalls (device : RmakerDevice α) (v : Json) (p : α) : List (SetCall α) :=
  match reading.param v p with
  | none => []
  | some val => node.dispatch device p val

/-- The calls for one device: those of its parameters, up to the first for
which there is no memory. -/
def SetNode.deviceCalls (calloc : α → Bool) (device : RmakerDevice α) (v : Json) :
    List (SetCall α) :=
  (device.params.takeWhile fun p => !decide (node.Starves reading calloc v p)).flatMap
    (node.paramCalls reading device v)

/-- The calls for a document. -/
def SetNode.calls (calloc : α → Bool) (root : Json) : List (SetCall α) :=
  node.devices.flatMap fun device =>
    match reading.device root device with
    | none => []
    | some v => node.deviceCalls reading calloc device v

/-- There is memory for every value. -/
theorem deviceCalls_enough {calloc : α → Bool} {d : RmakerDevice α} {v : Json}
    (h : ∀ p ∈ d.params, ¬ node.Starves reading calloc v p) :
    node.deviceCalls reading calloc d v = d.params.flatMap (node.paramCalls reading d v) := by
  have hall : d.params.takeWhile (fun p => !decide (node.Starves reading calloc v p)) =
      d.params := by
    rw [List.takeWhile_eq_self_iff]
    intro p hp
    rw [decide_eq_false (h p hp)]
    rfl
  rw [SetNode.deviceCalls, hall]

end Calls

/-! ## The code's reading -/

/-- The value the code reads from a document for a parameter of that type and name. -/
def Json.request (v : Json) (name : List UInt8) : ValType → Option ReqVal
  | .boolean => ((v.findOf name .primitive).bind fun w => boolOf w.bytes).map .boolean
  | .integer => ((v.findOf name .primitive).bind fun w => intOf w.bytes).map .integer
  | .float => ((v.findOf name .primitive).bind fun w => floatOf w.bytes).map .float
  | .string => (v.findOf name .string).map fun w => .string w.bytes
  | .object => (v.findOf name .object).map fun w => .object w.bytes
  | .array => (v.findOf name .array).map fun w => .array w.bytes

/-- The value the code takes from `w`. -/
def Json.valueOf (w : Json) : ValType → Option ReqVal
  | .boolean => if w.type = .primitive then (boolOf w.bytes).map .boolean else none
  | .integer => if w.type = .primitive then (intOf w.bytes).map .integer else none
  | .float => if w.type = .primitive then (floatOf w.bytes).map .float else none
  | .string => if w.type = .string then some (.string w.bytes) else none
  | .object => if w.type = .object then some (.object w.bytes) else none
  | .array => if w.type = .array then some (.array w.bytes) else none

theorem Json.request_eq_bind (v : Json) (name : List UInt8) (type : ValType) :
    v.request name type = (v.find name).bind fun w => w.valueOf type := by
  cases hfind : v.find name with
  | none => cases type <;> simp [Json.request, Json.findOf, hfind]
  | some w =>
      cases type <;>
        simp only [Json.request, Json.findOf, hfind, Option.filter_some, Option.bind_some,
          Json.valueOf, decide_eq_true_eq] <;>
        split <;> rfl

section Node

variable {α : Type} (node : SetNode α)

/-- Byte by byte. -/
def SetNode.literal : Reading α where
  device root d := root.findOf (cBytes d.name.text) .object
  param v p := v.request (cBytes (node.paramName p).text) (node.valType p)

theorem SetNode.literal_param (v : Json) (p : α) :
    node.literal.param v p =
      (v.find (cBytes (node.paramName p).text)).bind fun w => w.valueOf (node.valType p) :=
  v.request_eq_bind _ _

/-- The three cases that allocate. -/
theorem readBytes_eq (calloc : Bool) (found : Option Json) (mk : List UInt8 → ReqVal)
    (type : ValType) (h : type.Copied) :
    readBytes calloc (some (found.bind fun w => some w.bytes.length))
        (fun size => some (found.bind fun w =>
          if w.bytes.length + 1 > size then none else some w.bytes)) mk
      = some (match found.map fun w => mk w.bytes with
        | none => .absent
        | some val => if type.Copied ∧ calloc = false then .noMem else .found val) := by
  cases found with
  | none => rfl
  | some w =>
      rw [readBytes, Option.map_some, Option.bind_some, Option.bind_some]
      dsimp only
      cases calloc with
      | false => simp [h]
      | true => simp

theorem ParamRead.ofValue_eq {β : Type} (mk : β → ReqVal) (found : Option β) (calloc : Bool)
    (type : ValType) (h : ¬ type.Copied) :
    some (ParamRead.ofValue mk found)
      = some (match found.map mk with
        | none => .absent
        | some val => if type.Copied ∧ calloc = false then .noMem else .found val) := by
  cases found with
  | none => rfl
  | some b => simp [ParamRead.ofValue, h]

/-- **Reading a parameter** from the object a document has for the
device. -/
theorem readParam_placed {js : List UInt8} {tokens : List JsmnTok} {v : Json} {cur : Nat}
    {parent : Option Nat} (h : Placed js tokens v cur parent) (calloc : Bool) (type : ValType)
    (name : List UInt8) :
    readParam calloc ⟨js, tokens, cur⟩ type name
      = some (match v.request name type with
        | none => .absent
        | some val => if type.Copied ∧ calloc = false then .noMem else .found val) := by
  have hlength := fun {type : JsmnType} =>
    jsonObjGet_placed h name type (fun tok => some tok.length) (fun w => some w.bytes.length)
      fun _ hcovers _ => by rw [hcovers.length]
  have hbytes := fun {type : JsmnType} (size : Nat) =>
    jsonObjGet_placed h name type (fun tok => jsonTokToString js tok size)
      (fun w => if w.bytes.length + 1 > size then none else some w.bytes)
      fun _ hcovers _ => jsonTokToString_eq hcovers size
  cases type with
  | boolean =>
      have hget := jsonObjGet_placed h name .primitive (jsonTokToBool js)
        (fun w => boolOf w.bytes) fun _ hcovers _ => jsonTokToBool_eq hcovers
      rw [readParam, jsonObjGetBool, hget, Option.map_some]
      exact ParamRead.ofValue_eq _ _ _ _ id
  | integer =>
      have hget := jsonObjGet_placed h name .primitive (jsonTokToInt js)
        (fun w => intOf w.bytes) (by
          intro w t post hw hcovers hpost
          cases w with
          | primitive text => exact jsonTokToInt_eq hcovers (hpost trivial)
          | _ => cases hw)
      rw [readParam, jsonObjGetInt, hget, Option.map_some]
      exact ParamRead.ofValue_eq _ _ _ _ id
  | float =>
      have hget := jsonObjGet_placed h name .primitive (jsonTokToFloat js)
        (fun w => floatOf w.bytes) (by
          intro w t post hw hcovers hpost
          cases w with
          | primitive text => exact jsonTokToFloat_eq hcovers (hpost trivial)
          | _ => cases hw)
      rw [readParam, jsonObjGetFloat, hget, Option.map_some]
      exact ParamRead.ofValue_eq _ _ _ _ id
  | string =>
      have hget : jsonObjGetString ⟨js, tokens, cur⟩ name = _ := funext fun size => hbytes size
      rw [readParam, jsonObjGetStrlen, hlength, hget]
      exact readBytes_eq calloc _ .string .string trivial
  | object =>
      have hget : jsonObjGetObjectStr ⟨js, tokens, cur⟩ name = _ := funext fun size => hbytes size
      rw [readParam, jsonObjGetObjectStrlen, hlength, hget]
      exact readBytes_eq calloc _ .object .object trivial
  | array =>
      have hget : jsonObjGetArrayStr ⟨js, tokens, cur⟩ name = _ := funext fun size => hbytes size
      rw [readParam, jsonObjGetArrayStrlen, hlength, hget]
      exact readBytes_eq calloc _ .array .array trivial

theorem deviceSetParams_placed {js : List UInt8} {tokens : List JsmnTok} {v : Json} {cur : Nat}
    {parent : Option Nat} (h : Placed js tokens v cur parent) (calloc : α → Bool)
    (device : RmakerDevice α) (params : List α) :
    espRmakerDeviceSetParams node calloc device ⟨js, tokens, cur⟩ params
      = some ((params.takeWhile fun p => !decide (node.Starves node.literal calloc v p)).flatMap
          (node.paramCalls node.literal device v)) := by
  induction params with
  | nil => rfl
  | cons p ps ih =>
      have hread : readParam (calloc p) ⟨js, tokens, cur⟩ (node.valType p)
          (cBytes (node.paramName p).text) = some (match node.literal.param v p with
            | none => .absent
            | some val =>
                if (node.valType p).Copied ∧ calloc p = false then .noMem else .found val) :=
        readParam_placed h (calloc p) (node.valType p) _
      rw [espRmakerDeviceSetParams, hread, Option.bind_some, List.takeWhile_cons]
      cases hrequest : node.literal.param v p with
      | none =>
          have hcalls : node.paramCalls node.literal device v p = [] := by
            rw [SetNode.paramCalls, hrequest]
          have hstarves : ¬ node.Starves node.literal calloc v p := by
            rintro ⟨hsome, -⟩
            rw [hrequest] at hsome
            cases hsome
          dsimp only
          rw [ih, decide_eq_false hstarves]
          simp [hcalls]
      | some val =>
          dsimp only
          by_cases hmem : (node.valType p).Copied ∧ calloc p = false
          · have hstarves : node.Starves node.literal calloc v p := ⟨by rw [hrequest]; rfl, hmem⟩
            rw [if_pos hmem, decide_eq_true hstarves]
            rfl
          · have hstarves : ¬ node.Starves node.literal calloc v p := fun h => hmem h.2
            have hcalls : node.paramCalls node.literal device v p = node.dispatch device p val := by
              rw [SetNode.paramCalls, hrequest]
            rw [if_neg hmem, decide_eq_false hstarves]
            dsimp only
            rw [ih]
            simp [hcalls]

theorem setDevices_placed {js : List UInt8} {tokens : List JsmnTok} {v : Json} {cur : Nat}
    {parent : Option Nat} (h : Placed js tokens v cur parent) (calloc : α → Bool)
    (devices : List (RmakerDevice α)) :
    setDevices node calloc devices ⟨js, tokens, cur⟩
      = some (devices.flatMap fun device =>
          match v.findOf (cBytes device.name.text) .object with
          | none => []
          | some w => node.deviceCalls node.literal calloc device w) := by
  induction devices with
  | nil => rfl
  | cons device devices ih =>
      have hobject := jsonObjGetObject_placed h (cBytes device.name.text)
      rw [setDevices, List.flatMap_cons]
      cases hfind : v.findOf (cBytes device.name.text) .object with
      | none =>
          rw [hfind] at hobject
          rw [show jsonObjGetObject ⟨js, tokens, cur⟩ (cBytes device.name.text) = some none
            from hobject]
          exact ih
      | some w =>
          rw [hfind] at hobject
          obtain ⟨i, q, hget, hplaced, hleave⟩ := hobject
          rw [hget, Option.bind_some]
          dsimp only
          rw [deviceSetParams_placed node hplaced, Option.bind_some, hleave, Option.bind_some, ih]
          rfl

/-- **The calls on the text of any document**, wherever memory runs
out. -/
theorem handleSetParams_document (callocTokens : Bool) (calloc : α → Bool) (doc : Document) :
    espRmakerHandleSetParams node callocTokens calloc doc.text
      = some (if callocTokens then some (node.calls node.literal calloc doc.root) else none) := by
  rw [espRmakerHandleSetParams]
  cases callocTokens with
  | true =>
      rw [jsonParseStart_document, Option.bind_some]
      dsimp only
      rw [setDevices_placed node doc.placed]
      rfl
  | false =>
      rw [jsonParseStart_noMem]
      rfl

end Node

end LiveWireSwitch
