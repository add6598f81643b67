import LiveWireSwitch.Json.Jsmn
import LiveWireSwitch.Lib.Arity

/-!
# Parser — reading values out of a JSON text

`json_parser.c` over the tokens: finding a key in the object at `cur`,
entering and leaving objects, and turning a token's bytes into a value.

Tokens are named by their index. A function here returns `none` when it
reads a token outside the array; what it returns itself is inside, with
`none` for `-OS_FAIL` and for `NULL`.
-/

namespace LiveWireSwitch

/-- `jparse_ctx_t`: `js`, `tokens` and `cur`. -/
structure JparseCtx where
  js : List UInt8
  tokens : List JsmnTok
  cur : Nat
deriving DecidableEq, Repr

/-- `tok->end - tok->start`; every token of a parsed text is closed. -/
def JsmnTok.length (t : JsmnTok) : Nat := t.stop.getD t.start - t.start

/-- The bytes of a token. -/
def JsmnTok.text (js : List UInt8) (t : JsmnTok) : List UInt8 :=
  (js.drop t.start).take t.length

/-- The bytes of a C string. -/
def cBytes (s : String) : List UInt8 := s.toByteArray.data.toList

theorem cBytes_append (s t : String) : cBytes (s ++ t) = cBytes s ++ cBytes t := by
  simp [cBytes, String.toByteArray_append]

/-- `token_matches_str`: the first comparison is `strncmp`. -/
def tokenMatchesStr (js : List UInt8) (tok : JsmnTok) (str : List UInt8) : Prop :=
  (js.drop tok.start).take str.length = str ∧ str.length = tok.length

instance (js : List UInt8) (tok : JsmnTok) (str : List UInt8) :
    Decidable (tokenMatchesStr js tok str) := inferInstanceAs (Decidable (_ ∧ _))

/-! ## Values -/

/-- `json_tok_to_bool` -/
def jsonTokToBool (js : List UInt8) (tok : JsmnTok) : Option Bool :=
  if tokenMatchesStr js tok (cBytes "true") ∨ tokenMatchesStr js tok (cBytes "1") then some true
  else if tokenMatchesStr js tok (cBytes "false") ∨ tokenMatchesStr js tok (cBytes "0") then
    some false
  else none

def isDigit (c : UInt8) : Bool := '0'.toUInt8 ≤ c && c ≤ '9'.toUInt8

/-- `isspace` -/
def isCSpace (c : UInt8) : Bool := c = ' '.toUInt8 || (9 ≤ c && c ≤ 13)

/-- The number a run of digits denotes. -/
def digitsValue (ds : List UInt8) : Nat :=
  ds.foldl (fun n d => 10 * n + (d.toNat - 48)) 0

/-- The optional sign of a number: whether it is `-`, and its length. -/
def signOf : List UInt8 → Bool × Nat
  | [] => (false, 0)
  | c :: _ =>
      if c = '-'.toUInt8 then (true, 1) else if c = '+'.toUInt8 then (false, 1) else (false, 0)

/-- `strtoul(s, &endptr, 10)` with 32-bit `unsigned long`: the value, and
how far `endptr` is from `s`. -/
def strtoul (s : List UInt8) : UInt32 × Nat :=
  let space := (s.takeWhile isCSpace).length
  let sign := signOf (s.drop space)
  let ds := (s.drop (space + sign.2)).takeWhile isDigit
  if ds = [] then (0, 0)
  else
    let n := digitsValue ds
    (if 4294967295 < n then 4294967295 else if sign.1 then -UInt32.ofNat n else UInt32.ofNat n,
      space + sign.2 + ds.length)

/-- `json_tok_to_int` -/
def jsonTokToInt (js : List UInt8) (tok : JsmnTok) : Option Int32 :=
  let r := strtoul (js.drop tok.start)
  if r.2 = tok.length then some r.1.toInt32 else none

/-- `json_tok_to_string` into `size` bytes: the string without its
terminator. -/
def jsonTokToString (js : List UInt8) (tok : JsmnTok) (size : Nat) : Option (List UInt8) :=
  if tok.length + 1 > size then none else some (tok.text js)

/-! ## Finding a key -/

/-- `json_skip_elem`: the last token of the element that starts with
`token`; `Lib.skipEach` is `while (cnt--) { cur++; cur = ..(cur); }`. It
calls itself for later tokens only, so it goes no deeper than there are
tokens. -/
def jsonSkipElem (tokens : List JsmnTok) : (depth : Nat) → (token : Nat) → Option Nat
  | 0, _ => none
  | depth + 1, token =>
      tokens[token]?.bind fun t => Lib.skipEach (jsonSkipElem tokens depth) t.size token

/-- Tokens are trees in prefix notation. -/
theorem jsonSkipElem_eq (tokens : List JsmnTok) (depth : Nat) :
    jsonSkipElem tokens depth = Lib.skipNode JsmnTok.size tokens depth := by
  induction depth with
  | zero => rfl
  | succ depth ih =>
      funext token
      rw [jsonSkipElem, Lib.skipNode, ih]

/-- The loop of `json_obj_search`, `size` keys to go after `tok`. -/
def searchFrom (js : List UInt8) (tokens : List JsmnTok) (key : List UInt8) :
    (size : Nat) → (tok : Nat) → Option (Option Nat)
  | 0, _ => some none
  | size + 1, tok =>
      tokens[tok + 1]?.bind fun t =>
        if tokenMatchesStr js t key then some (some (tok + 1))
        else (jsonSkipElem tokens tokens.length (tok + 1)).bind (searchFrom js tokens key size)

/-- `json_obj_search` -/
def jsonObjSearch (jctx : JparseCtx) (key : List UInt8) : Option (Option Nat) :=
  jctx.tokens[jctx.cur]?.bind fun tok =>
    if tok.size = 0 then some none
    else if tok.type ≠ .object then some none
    else searchFrom jctx.js jctx.tokens key tok.size jctx.cur

/-- `json_obj_get_val_tok`: the token after the key. -/
def jsonObjGetValTok (jctx : JparseCtx) (name : List UInt8) (type : JsmnType) :
    Option (Option Nat) :=
  (jsonObjSearch jctx name).bind fun found =>
    match found with
    | none => some none
    | some tok =>
        jctx.tokens[tok + 1]?.bind fun t =>
          if t.type ≠ type then some none else some (some (tok + 1))

/-- What the `json_obj_get_*` functions do with the token they find. -/
def jsonObjGet {β : Type} (jctx : JparseCtx) (name : List UInt8) (type : JsmnType)
    (value : JsmnTok → Option β) : Option (Option β) :=
  (jsonObjGetValTok jctx name type).bind fun found =>
    match found with
    | none => some none
    | some tok => jctx.tokens[tok]?.map value

/-- `json_obj_get_bool` -/
def jsonObjGetBool (jctx : JparseCtx) (name : List UInt8) : Option (Option Bool) :=
  jsonObjGet jctx name .primitive (jsonTokToBool jctx.js)

/-- `json_obj_get_int` -/
def jsonObjGetInt (jctx : JparseCtx) (name : List UInt8) : Option (Option Int32) :=
  jsonObjGet jctx name .primitive (jsonTokToInt jctx.js)

/-- `json_obj_get_strlen` -/
def jsonObjGetStrlen (jctx : JparseCtx) (name : List UInt8) : Option (Option Nat) :=
  jsonObjGet jctx name .string fun tok => some tok.length

/-- `json_obj_get_string` -/
def jsonObjGetString (jctx : JparseCtx) (name : List UInt8) (size : Nat) :
    Option (Option (List UInt8)) :=
  jsonObjGet jctx name .string fun tok => jsonTokToString jctx.js tok size

/-- `json_obj_get_object_strlen` -/
def jsonObjGetObjectStrlen (jctx : JparseCtx) (name : List UInt8) : Option (Option Nat) :=
  jsonObjGet jctx name .object fun tok => some tok.length

/-- `json_obj_get_object_str` -/
def jsonObjGetObjectStr (jctx : JparseCtx) (name : List UInt8) (size : Nat) :
    Option (Option (List UInt8)) :=
  jsonObjGet jctx name .object fun tok => jsonTokToString jctx.js tok size

/-- `json_obj_get_array_strlen` -/
def jsonObjGetArrayStrlen (jctx : JparseCtx) (name : List UInt8) : Option (Option Nat) :=
  jsonObjGet jctx name .array fun tok => some tok.length

/-- `json_obj_get_array_str` -/
def jsonObjGetArrayStr (jctx : JparseCtx) (name : List UInt8) (size : Nat) :
    Option (Option (List UInt8)) :=
  jsonObjGet jctx name .array fun tok => jsonTokToString jctx.js tok size

/-! ## Objects -/

/-- `json_obj_get_object` -/
def jsonObjGetObject (jctx : JparseCtx) (name : List UInt8) : Option (Option JparseCtx) :=
  (jsonObjGetValTok jctx name .object).map fun found =>
    found.map fun tok => { jctx with cur := tok }

/-- `jctx->cur = &jctx->tokens[jctx->cur->parent]`, unless there is no
parent; with whether there is. -/
def leaveToken (jctx : JparseCtx) : Option (Bool × JparseCtx) :=
  jctx.tokens[jctx.cur]?.map fun t =>
    match t.parent with
    | none => (false, jctx)
    | some q => (true, { jctx with cur := q })

/-- `json_obj_leave_object`: the object's parent is the key, and the
key's is the object around it. -/
def jsonObjLeaveObject (jctx : JparseCtx) : Option (Bool × JparseCtx) :=
  (leaveToken jctx).bind fun r => if r.1 then leaveToken r.2 else some r

/-! ## Start and end -/

/-- `json_parse_start`; `calloc` is whether the tokens can be
allocated. -/
def jsonParseStart (calloc : Bool) (js : List UInt8) : Option (Option JparseCtx) :=
  match jsmnParse none js with
  | .error .wild => none
  | .error _ => some none
  | .ok counted =>
      if counted.count = 0 then some none
      else if calloc = false then some none
      else
        match jsmnParse (some counted.count) js with
        | .error .wild => none
        | .error _ => some none
        | .ok p => if p.count = 0 then some none else some (some ⟨js, p.tokens, 0⟩)

end LiveWireSwitch
