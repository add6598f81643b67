import LiveWireSwitch.Json.Floats

/-!
# Generator — a JSON text in a buffer

`json_generator.c`: strings are appended to a buffer. When it is full, a
callback takes what it holds, if there is a callback; else the rest is
dropped and the call returns −1. With no buffer at all the length is
counted only.

The result of a call here is `none` where the call does not come back: a
buffer of no bytes, for which `memmove` gets a negative length, or one of
one byte, which is flushed for ever.
-/

namespace LiveWireSwitch

/-- `json_gen_str_t`; `written` is what lies between `buf` and
`free_ptr`. -/
structure JsonGenStr where
  /-- `buf_size`, `none` for `buf == NULL` -/
  bufSize : Option Nat
  /-- `flush_cb` is set -/
  flushCb : Bool
  written : List UInt8
  commaReq : Bool
  totalLen : Nat
  /-- what `flush_cb` has been given -/
  flushed : List (List UInt8)
deriving DecidableEq, Repr

/-- What a call returns, true for 0, and leaves. -/
abbrev JsonGenResult := Option (Bool × JsonGenStr)

/-- The next call; what the one before returned is not looked at. -/
def JsonGenResult.next (r : JsonGenResult) (f : JsonGenStr → JsonGenResult) : JsonGenResult :=
  r.bind fun r => f r.2

/-- The loop of `json_gen_add_to_str`. -/
def jsonGenAddLoop (bufSize : Nat) :
    (rounds : Nat) → (cur : List UInt8) → JsonGenStr → JsonGenResult
  | 0, _, _ => none
  | rounds + 1, cur, s =>
      if bufSize ≤ s.written.length then none
      else
        let lenRemaining := bufSize - s.written.length - 1
        let s := { s with written := s.written ++ cur.take lenRemaining }
        if cur.drop lenRemaining = [] then some (true, s)
        else if s.flushCb = false then some (false, s)
        else jsonGenAddLoop bufSize rounds (cur.drop lenRemaining)
          { s with written := [], flushed := s.flushed ++ [s.written] }

/-- `json_gen_add_to_str`; `str` may be `NULL`. A round with an empty
buffer of two bytes or more takes a byte, so that there are no more rounds
than bytes and one. -/
def jsonGenAddToStr (str : Option (List UInt8)) (s : JsonGenStr) : JsonGenResult :=
  match str with
  | none => some (true, s)
  | some str =>
      let s := { s with totalLen := s.totalLen + str.length }
      match s.bufSize with
      | none => some (true, s)
      | some bufSize => jsonGenAddLoop bufSize (str.length + 1) str s

/-- `json_gen_str_start` -/
def jsonGenStrStart (bufSize : Option Nat) (flushCb : Bool) : JsonGenStr :=
  ⟨bufSize, flushCb, [], false, 0, []⟩

/-- `json_gen_str_end`: what it returns, and what the callback has been
given in the end. -/
def jsonGenStrEnd (s : JsonGenStr) : Nat × List (List UInt8) :=
  (s.totalLen + 1,
    if s.bufSize.isSome ∧ s.flushCb then s.flushed ++ [s.written] else s.flushed)

/-- `json_gen_handle_comma` -/
def jsonGenHandleComma (s : JsonGenStr) : JsonGenResult :=
  if s.commaReq then jsonGenAddToStr (some (cBytes ",")) s else some (true, s)

/-- `json_gen_handle_name` -/
def jsonGenHandleName (name : List UInt8) (s : JsonGenStr) : JsonGenResult :=
  ((jsonGenAddToStr (some (cBytes "\"")) s).next (jsonGenAddToStr (some name))).next
    (jsonGenAddToStr (some (cBytes "\":")))

/-- `jstr->comma_req = b;` -/
def jsonGenSetComma (b : Bool) (s : JsonGenStr) : JsonGenResult :=
  some (true, { s with commaReq := b })

/-- What opens an object or array: a comma where one is due, its name if
it has one, and the bracket. -/
def jsonGenOpen (name : Option (List UInt8)) (bracket : String) (s : JsonGenStr) : JsonGenResult :=
  (((jsonGenHandleComma s).next fun s =>
    match name with
    | none => some (true, s)
    | some name => jsonGenHandleName name s).next
      (jsonGenSetComma false)).next (jsonGenAddToStr (some (cBytes bracket)))

/-- What closes it. -/
def jsonGenClose (bracket : String) (s : JsonGenStr) : JsonGenResult :=
  (jsonGenSetComma true s).next (jsonGenAddToStr (some (cBytes bracket)))

/-- A value in an object or array, in the strings it is added in. -/
def jsonGenValue (name : Option (List UInt8)) (strs : List (Option (List UInt8)))
    (s : JsonGenStr) : JsonGenResult :=
  strs.foldl (fun r str => r.next (jsonGenAddToStr str))
    (((jsonGenHandleComma s).next fun s =>
      match name with
      | none => some (true, s)
      | some name => jsonGenHandleName name s).next (jsonGenSetComma true))

/-- `json_gen_start_object` -/
def jsonGenStartObject : JsonGenStr → JsonGenResult := jsonGenOpen none "\x7b"

/-- `json_gen_end_object` -/
def jsonGenEndObject : JsonGenStr → JsonGenResult := jsonGenClose "\x7d"

/-- `json_gen_start_array` -/
def jsonGenStartArray : JsonGenStr → JsonGenResult := jsonGenOpen none "["

/-- `json_gen_end_array` -/
def jsonGenEndArray : JsonGenStr → JsonGenResult := jsonGenClose "]"

/-- `json_gen_push_object` -/
def jsonGenPushObject (name : List UInt8) : JsonGenStr → JsonGenResult :=
  jsonGenOpen (some name) "\x7b"

/-- `json_gen_pop_object` -/
def jsonGenPopObject : JsonGenStr → JsonGenResult := jsonGenClose "\x7d"

/-- `json_gen_push_array` -/
def jsonGenPushArray (name : List UInt8) : JsonGenStr → JsonGenResult :=
  jsonGenOpen (some name) "["

/-- `json_gen_pop_array` -/
def jsonGenPopArray : JsonGenStr → JsonGenResult := jsonGenClose "]"

/-- `json_gen_push_object_str` -/
def jsonGenPushObjectStr (name : List UInt8) (objectStr : Option (List UInt8)) :
    JsonGenStr → JsonGenResult := jsonGenValue (some name) [objectStr]

/-- `json_gen_push_array_str` -/
def jsonGenPushArrayStr (name : List UInt8) (arrayStr : Option (List UInt8)) :
    JsonGenStr → JsonGenResult := jsonGenValue (some name) [arrayStr]

/-- `json_gen_set_bool` adds this. -/
def boolText (val : Bool) : List UInt8 := if val then cBytes "true" else cBytes "false"

/-- `json_gen_obj_set_bool` -/
def jsonGenObjSetBool (name : List UInt8) (val : Bool) : JsonGenStr → JsonGenResult :=
  jsonGenValue (some name) [some (boolText val)]

/-- `json_gen_arr_set_bool` -/
def jsonGenArrSetBool (val : Bool) : JsonGenStr → JsonGenResult :=
  jsonGenValue none [some (boolText val)]

/-- `snprintf(str, MAX_INT_IN_STR, "%d", val)`; 24 bytes are enough. -/
def intText (val : Int32) : List UInt8 := cBytes (toString val.toInt)

/-- `json_gen_obj_set_int` -/
def jsonGenObjSetInt (name : List UInt8) (val : Int32) : JsonGenStr → JsonGenResult :=
  jsonGenValue (some name) [some (intText val)]

/-- `json_gen_arr_set_int` -/
def jsonGenArrSetInt (val : Int32) : JsonGenStr → JsonGenResult :=
  jsonGenValue none [some (intText val)]

/-- `json_gen_set_float` adds this. -/
def floatBytes (val : Float32) : List UInt8 := cBytes (jsonFloatText val)

/-- `json_gen_obj_set_float` -/
def jsonGenObjSetFloat (name : List UInt8) (val : Float32) : JsonGenStr → JsonGenResult :=
  jsonGenValue (some name) [some (floatBytes val)]

/-- `json_gen_arr_set_float` -/
def jsonGenArrSetFloat (val : Float32) : JsonGenStr → JsonGenResult :=
  jsonGenValue none [some (floatBytes val)]

/-- `json_gen_set_string` adds these. -/
def stringTexts (val : Option (List UInt8)) : List (Option (List UInt8)) :=
  [some (cBytes "\""), val, some (cBytes "\"")]

/-- `json_gen_obj_set_string` -/
def jsonGenObjSetString (name : List UInt8) (val : Option (List UInt8)) :
    JsonGenStr → JsonGenResult := jsonGenValue (some name) (stringTexts val)

/-- `json_gen_arr_set_string` -/
def jsonGenArrSetString (val : Option (List UInt8)) : JsonGenStr → JsonGenResult :=
  jsonGenValue none (stringTexts val)

/-- `json_gen_obj_start_long_string`: the first part, with no closing quote. -/
def jsonGenObjStartLongString (name : List UInt8) (val : Option (List UInt8)) :
    JsonGenStr → JsonGenResult := jsonGenValue (some name) [some (cBytes "\""), val]

/-- `json_gen_arr_start_long_string` -/
def jsonGenArrStartLongString (val : Option (List UInt8)) : JsonGenStr → JsonGenResult :=
  jsonGenValue none [some (cBytes "\""), val]

/-- `json_gen_add_to_long_string` -/
def jsonGenAddToLongString (val : Option (List UInt8)) : JsonGenStr → JsonGenResult :=
  jsonGenAddToStr val

/-- `json_gen_end_long_string` -/
def jsonGenEndLongString : JsonGenStr → JsonGenResult := jsonGenAddToStr (some (cBytes "\""))

/-- `json_gen_obj_set_null` -/
def jsonGenObjSetNull (name : List UInt8) : JsonGenStr → JsonGenResult :=
  jsonGenValue (some name) [some (cBytes "null")]

/-- `json_gen_arr_set_null` -/
def jsonGenArrSetNull : JsonGenStr → JsonGenResult := jsonGenValue none [some (cBytes "null")]

/-! ## What is held -/

/-- The buffer holds what has been generated: all of it counted, and of
its bytes those that have not been flushed, or the first that fit. -/
structure JsonGenStr.Holds (size : Option Nat) (cb : Bool) (text : List UInt8) (comma : Bool)
    (s : JsonGenStr) : Prop where
  bufSize : s.bufSize = size
  flushCb : s.flushCb = cb
  commaReq : s.commaReq = comma
  totalLen : s.totalLen = text.length
  flushed : ∀ n, size = some n → cb = true →
    s.flushed.flatten ++ s.written = text ∧ (∀ c ∈ s.flushed, c.length + 1 = n) ∧
      s.written.length < n
  cutOff : ∀ n, size = some n → cb = false →
    s.flushed = [] ∧ s.written = text.take (n - 1)

/-- The buffer has room for a terminator, and with a callback for one
more byte. -/
def Roomy (size : Option Nat) (cb : Bool) : Prop :=
  ∀ n, size = some n → 0 < n ∧ (cb = true → 1 < n)

/-- Whether a text of that length fits, or is flushed. -/
def TakesAll (size : Option Nat) (cb : Bool) (length : Nat) : Prop :=
  ∀ n, size = some n → cb = false → length < n

section Holds

variable {size : Option Nat} {cb comma : Bool} {text : List UInt8} {s : JsonGenStr}

theorem jsonGenStrStart_holds (hroom : Roomy size cb) :
    (jsonGenStrStart size cb).Holds size cb [] false where
  bufSize := rfl
  flushCb := rfl
  commaReq := rfl
  totalLen := rfl
  flushed := by
    intro n hn _
    exact ⟨rfl, nofun, (hroom n hn).1⟩
  cutOff := by
    intro n hn _
    exact ⟨rfl, List.take_nil.symm⟩

/-- The loop with a callback: the chunks before the last are full. -/
theorem jsonGenAddLoop_flushes {n : Nat} (hn : 1 < n) (rounds : Nat) {cur : List UInt8}
    (hcb : s.flushCb = true) (hfull : ∀ c ∈ s.flushed, c.length + 1 = n)
    (hroom : s.written.length < n) (hpos : 0 < rounds)
    (hrounds : cur.length + (if s.written.length + 1 = n then 1 else 0) ≤ rounds) :
    ∃ written flushed,
      jsonGenAddLoop n rounds cur s = some (true, { s with written, flushed }) ∧
        flushed.flatten ++ written = s.flushed.flatten ++ s.written ++ cur ∧
        (∀ c ∈ flushed, c.length + 1 = n) ∧ written.length < n := by
  induction rounds generalizing cur s with
  | zero => omega
  | succ rounds ih =>
      rw [jsonGenAddLoop, if_neg (Nat.not_le.mpr hroom)]
      dsimp only
      split
      · next hdone =>
          have hall : cur.take (n - s.written.length - 1) = cur := by
            rw [List.take_eq_self_iff]
            exact List.drop_eq_nil_iff.mp hdone
          have hlen := List.drop_eq_nil_iff.mp hdone
          refine ⟨_, _, rfl, ?_, hfull, ?_⟩
          · rw [hall, List.append_assoc]
          · rw [List.length_append, hall]
            omega
      · next hmore =>
          have hlen : n - s.written.length - 1 < cur.length := by
            rw [List.drop_eq_nil_iff] at hmore
            omega
          rw [if_neg (by rw [hcb]; exact Bool.noConfusion)]
          have hchunk : (s.written ++ cur.take (n - s.written.length - 1)).length + 1 = n := by
            rw [List.length_append, List.length_take]
            omega
          obtain ⟨written, flushed, hloop, htext, hfull', hroom'⟩ :=
            @ih { s with
                written := []
                flushed := s.flushed ++ [s.written ++ cur.take (n - s.written.length - 1)] }
              (cur.drop (n - s.written.length - 1)) hcb (by
                intro c hc
                rcases List.mem_append.mp hc with hc | hc
                · exact hfull c hc
                · rw [List.mem_singleton] at hc
                  rw [hc, hchunk]) (Nat.lt_trans Nat.one_pos hn) (by
                split at hrounds
                · omega
                · omega) (by
                rw [List.length_drop, if_neg (by rw [List.length_nil]; omega)]
                split at hrounds
                · omega
                · omega)
          refine ⟨written, flushed, hloop, ?_, hfull', hroom'⟩
          rw [htext]
          simp

/-- The loop without a callback: one round, and what does not fit is
dropped. -/
theorem jsonGenAddLoop_cutOff {n : Nat} (hn : 0 < n) (rounds : Nat) (cur : List UInt8)
    (hcb : s.flushCb = false) (hwritten : s.written = text.take (n - 1)) :
    jsonGenAddLoop n (rounds + 1) cur s
      = some (decide (cur = [] ∨ text.length + cur.length < n),
          { s with written := (text ++ cur).take (n - 1) }) := by
  have hlength : s.written.length = min (n - 1) text.length := by
    rw [hwritten, List.length_take]
  have htake : s.written ++ cur.take (n - s.written.length - 1) = (text ++ cur).take (n - 1) := by
    rw [List.take_append, hwritten]
    congr 2
    rw [List.length_take]
    omega
  have hdrop : cur.drop (n - s.written.length - 1) = [] ↔
      cur = [] ∨ text.length + cur.length < n := by
    rw [List.drop_eq_nil_iff, ← List.length_eq_zero_iff]
    omega
  rw [jsonGenAddLoop, if_neg (by omega)]
  dsimp only
  rw [htake]
  by_cases hdone : cur = [] ∨ text.length + cur.length < n
  · rw [if_pos (hdrop.mpr hdone), decide_eq_true hdone]
  · rw [if_neg (fun h => hdone (hdrop.mp h)), if_pos hcb, decide_eq_false hdone]

theorem jsonGenAddToStr_of_none (h : s.bufSize = none) (str : List UInt8) :
    jsonGenAddToStr (some str) s = some (true, { s with totalLen := s.totalLen + str.length }) := by
  unfold jsonGenAddToStr
  dsimp only
  split
  · rfl
  · next m hm =>
      rw [h] at hm
      cases hm

theorem jsonGenAddToStr_of_some {n : Nat} (h : s.bufSize = some n) (str : List UInt8) :
    jsonGenAddToStr (some str) s
      = jsonGenAddLoop n (str.length + 1) str { s with totalLen := s.totalLen + str.length } := by
  unfold jsonGenAddToStr
  dsimp only
  split
  · next hm =>
      rw [h] at hm
      cases hm
  · next m hm =>
      rw [h] at hm
      cases hm
      rfl

/-- **A string is appended**, and the call returns 0 unless there is
something to drop. -/
theorem jsonGenAddToStr_holds (hroom : Roomy size cb) (h : s.Holds size cb text comma)
    (str : Option (List UInt8)) :
    ∃ ok s', jsonGenAddToStr str s = some (ok, s') ∧
      s'.Holds size cb (text ++ str.getD []) comma ∧
      (ok = true ↔ str.getD [] = [] ∨ TakesAll size cb (text ++ str.getD []).length) := by
  cases str with
  | none =>
      refine ⟨true, s, rfl, ?_, by simp⟩
      rw [Option.getD_none, List.append_nil]
      exact h
  | some str =>
      have hlen : s.totalLen + str.length = (text ++ str).length := by
        rw [h.totalLen, List.length_append]
      cases size with
      | none =>
          refine ⟨true, _, jsonGenAddToStr_of_none h.bufSize str, ?_, by simp [TakesAll]⟩
          exact ⟨h.bufSize, h.flushCb, h.commaReq, hlen, nofun, nofun⟩
      | some n =>
          obtain ⟨hpos, htwo⟩ := hroom n rfl
          rw [jsonGenAddToStr_of_some h.bufSize]
          cases cb with
          | true =>
              obtain ⟨htext, hfull, hlt⟩ := h.flushed n rfl rfl
              have hrounds : str.length + (if s.written.length + 1 = n then 1 else 0)
                  ≤ str.length + 1 := by
                split
                · exact Nat.le_refl _
                · exact Nat.le_succ _
              obtain ⟨written, flushed, hloop, htext', hfull', hlt'⟩ :=
                jsonGenAddLoop_flushes (s := { s with totalLen := s.totalLen + str.length })
                  (htwo rfl) (str.length + 1) h.flushCb hfull hlt (Nat.succ_pos _) hrounds
              refine ⟨true, _, hloop, ⟨h.bufSize, h.flushCb, h.commaReq, hlen, ?_, nofun⟩, ?_⟩
              · intro m hm _
                cases hm
                refine ⟨?_, hfull', hlt'⟩
                rw [htext', Option.getD_some, ← htext]
              · simp [TakesAll]
          | false =>
              obtain ⟨hflushed, hwritten⟩ := h.cutOff n rfl rfl
              have hloop := jsonGenAddLoop_cutOff
                (s := { s with totalLen := s.totalLen + str.length }) hpos str.length str h.flushCb
                hwritten
              refine ⟨_, _, hloop, ⟨h.bufSize, h.flushCb, h.commaReq, hlen, nofun, ?_⟩, ?_⟩
              · intro m hm _
                cases hm
                exact ⟨hflushed, rfl⟩
              · simp [TakesAll]

end Holds

/-! ## What a call adds -/

/-- `f` comes back, has added `out` to the text, and has taken
`comma_req` from `comma` to `comma'`. -/
def Emits (size : Option Nat) (cb : Bool) (f : JsonGenStr → JsonGenResult) (comma comma' : Bool)
    (out : List UInt8) : Prop :=
  ∀ (s : JsonGenStr) (text : List UInt8), s.Holds size cb text comma →
    ∃ ok s', f s = some (ok, s') ∧ s'.Holds size cb (text ++ out) comma'

section Emits

variable {size : Option Nat} {cb c c' c'' : Bool} {f g : JsonGenStr → JsonGenResult}
  {out out' : List UInt8}

theorem Emits.next (hf : Emits size cb f c c' out) (hg : Emits size cb g c' c'' out') :
    Emits size cb (fun s => (f s).next g) c c'' (out ++ out') := by
  intro s text h
  obtain ⟨ok, s₁, h₁, hs₁⟩ := hf s text h
  obtain ⟨ok', s₂, h₂, hs₂⟩ := hg s₁ _ hs₁
  refine ⟨ok', s₂, ?_, ?_⟩
  · dsimp only
    rw [h₁]
    exact h₂
  · rwa [List.append_assoc] at hs₂

theorem emits_setComma (b : Bool) : Emits size cb (jsonGenSetComma b) c b [] := by
  intro s text h
  refine ⟨true, _, rfl, ?_⟩
  rw [List.append_nil]
  exact ⟨h.bufSize, h.flushCb, rfl, h.totalLen, h.flushed, h.cutOff⟩

theorem emits_nothing : Emits size cb (fun s => some (true, s)) c c [] := by
  intro s text h
  rw [List.append_nil]
  exact ⟨true, s, rfl, h⟩

variable (hroom : Roomy size cb)
include hroom

theorem emits_add (str : Option (List UInt8)) :
    Emits size cb (jsonGenAddToStr str) c c (str.getD []) := by
  intro s text h
  obtain ⟨ok, s', hs', hholds, -⟩ := jsonGenAddToStr_holds hroom h str
  exact ⟨ok, s', hs', hholds⟩

/-- The comma, where one is due. -/
def commaText (comma : Bool) : List UInt8 := if comma then cBytes "," else []

theorem emits_handleComma : Emits size cb jsonGenHandleComma c c (commaText c) := by
  intro s text h
  rw [jsonGenHandleComma, h.commaReq]
  cases c with
  | false => exact emits_nothing s text h
  | true => exact emits_add hroom (some (cBytes ",")) s text h

/-- The name with its quotes and the colon. -/
def nameText : Option (List UInt8) → List UInt8
  | none => []
  | some name => cBytes "\"" ++ name ++ cBytes "\":"

theorem emits_name (name : Option (List UInt8)) :
    Emits size cb (fun s =>
      match name with
      | none => some (true, s)
      | some name => jsonGenHandleName name s) c c (nameText name) := by
  cases name with
  | none => exact emits_nothing
  | some name =>
      exact ((emits_add hroom (some (cBytes "\""))).next (emits_add hroom (some name))).next
        (emits_add hroom (some (cBytes "\":")))

theorem emits_open (name : Option (List UInt8)) (bracket : String) :
    Emits size cb (jsonGenOpen name bracket) c false
      (commaText c ++ nameText name ++ [] ++ cBytes bracket) :=
  (((emits_handleComma hroom).next (emits_name hroom name)).next (emits_setComma false)).next
    (emits_add hroom (some (cBytes bracket)))

theorem emits_close (bracket : String) :
    Emits size cb (jsonGenClose bracket) c true ([] ++ cBytes bracket) :=
  (emits_setComma true).next (emits_add hroom (some (cBytes bracket)))

theorem emits_strs (strs : List (Option (List UInt8))) (hf : Emits size cb f c c' out) :
    Emits size cb (fun s => strs.foldl (fun r str => r.next (jsonGenAddToStr str)) (f s)) c c'
      (out ++ strs.flatMap fun str => str.getD []) := by
  induction strs generalizing f out with
  | nil =>
      rw [List.flatMap_nil, List.append_nil]
      exact hf
  | cons str strs ih =>
      rw [List.flatMap_cons, ← List.append_assoc]
      exact ih (hf.next (emits_add hroom str))

theorem emits_value (name : Option (List UInt8)) (strs : List (Option (List UInt8))) :
    Emits size cb (jsonGenValue name strs) c true
      (commaText c ++ nameText name ++ [] ++ strs.flatMap fun str => str.getD []) :=
  emits_strs hroom strs
    (((emits_handleComma hroom).next (emits_name hroom name)).next (emits_setComma true))

end Emits

/-! ## Whole texts -/

/-- A call of the generator. A `name` that is NULL adds nothing, as an empty
one does. -/
inductive JsonGenCall where
  | startObject
  | endObject
  | startArray
  | endArray
  | pushObject (name : List UInt8)
  | popObject
  | pushArray (name : List UInt8)
  | popArray
  | pushObjectStr (name : List UInt8) (str : Option (List UInt8))
  | pushArrayStr (name : List UInt8) (str : Option (List UInt8))
  | objSetBool (name : List UInt8) (val : Bool)
  | arrSetBool (val : Bool)
  | objSetInt (name : List UInt8) (val : Int32)
  | arrSetInt (val : Int32)
  | objSetFloat (name : List UInt8) (val : Float32)
  | arrSetFloat (val : Float32)
  | objSetString (name : List UInt8) (val : Option (List UInt8))
  | arrSetString (val : Option (List UInt8))
  | objStartLongString (name : List UInt8) (val : Option (List UInt8))
  | arrStartLongString (val : Option (List UInt8))
  | addToLongString (val : Option (List UInt8))
  | endLongString
  | objSetNull (name : List UInt8)
  | arrSetNull

def JsonGenCall.call : JsonGenCall → JsonGenStr → JsonGenResult
  | .startObject => jsonGenStartObject
  | .endObject => jsonGenEndObject
  | .startArray => jsonGenStartArray
  | .endArray => jsonGenEndArray
  | .pushObject name => jsonGenPushObject name
  | .popObject => jsonGenPopObject
  | .pushArray name => jsonGenPushArray name
  | .popArray => jsonGenPopArray
  | .pushObjectStr name str => jsonGenPushObjectStr name str
  | .pushArrayStr name str => jsonGenPushArrayStr name str
  | .objSetBool name val => jsonGenObjSetBool name val
  | .arrSetBool val => jsonGenArrSetBool val
  | .objSetInt name val => jsonGenObjSetInt name val
  | .arrSetInt val => jsonGenArrSetInt val
  | .objSetFloat name val => jsonGenObjSetFloat name val
  | .arrSetFloat val => jsonGenArrSetFloat val
  | .objSetString name val => jsonGenObjSetString name val
  | .arrSetString val => jsonGenArrSetString val
  | .objStartLongString name val => jsonGenObjStartLongString name val
  | .arrStartLongString val => jsonGenArrStartLongString val
  | .addToLongString val => jsonGenAddToLongString val
  | .endLongString => jsonGenEndLongString
  | .objSetNull name => jsonGenObjSetNull name
  | .arrSetNull => jsonGenArrSetNull

/-- Some calls, one after the other. -/
def jsonGenCalls (calls : List JsonGenCall) (s : JsonGenStr) : JsonGenResult :=
  calls.foldl (fun r call => r.next call.call) (some (true, s))

/-- `comma_req` after a call: the parts of a long string behind its first
leave it as it is. -/
def JsonGenCall.commaAfter (c : Bool) : JsonGenCall → Bool
  | .startObject | .startArray | .pushObject _ | .pushArray _ => false
  | .addToLongString _ | .endLongString => c
  | _ => true

/-- What a call adds depends on `comma_req` alone, not on the buffer. -/
theorem JsonGenCall.emits (call : JsonGenCall) (c : Bool) :
    ∃ out, ∀ {size : Option Nat} {cb : Bool}, Roomy size cb →
      Emits size cb call.call c (call.commaAfter c) out := by
  cases call with
  | startObject => exact ⟨_, fun hroom => emits_open hroom none _⟩
  | endObject => exact ⟨_, fun hroom => emits_close hroom _⟩
  | startArray => exact ⟨_, fun hroom => emits_open hroom none _⟩
  | endArray => exact ⟨_, fun hroom => emits_close hroom _⟩
  | pushObject name => exact ⟨_, fun hroom => emits_open hroom (some name) _⟩
  | popObject => exact ⟨_, fun hroom => emits_close hroom _⟩
  | pushArray name => exact ⟨_, fun hroom => emits_open hroom (some name) _⟩
  | popArray => exact ⟨_, fun hroom => emits_close hroom _⟩
  | pushObjectStr name str => exact ⟨_, fun hroom => emits_value hroom (some name) _⟩
  | pushArrayStr name str => exact ⟨_, fun hroom => emits_value hroom (some name) _⟩
  | objSetBool name val => exact ⟨_, fun hroom => emits_value hroom (some name) _⟩
  | arrSetBool val => exact ⟨_, fun hroom => emits_value hroom none _⟩
  | objSetInt name val => exact ⟨_, fun hroom => emits_value hroom (some name) _⟩
  | arrSetInt val => exact ⟨_, fun hroom => emits_value hroom none _⟩
  | objSetFloat name val => exact ⟨_, fun hroom => emits_value hroom (some name) _⟩
  | arrSetFloat val => exact ⟨_, fun hroom => emits_value hroom none _⟩
  | objSetString name val => exact ⟨_, fun hroom => emits_value hroom (some name) _⟩
  | arrSetString val => exact ⟨_, fun hroom => emits_value hroom none _⟩
  | objStartLongString name val => exact ⟨_, fun hroom => emits_value hroom (some name) _⟩
  | arrStartLongString val => exact ⟨_, fun hroom => emits_value hroom none _⟩
  | addToLongString val => exact ⟨_, fun hroom => emits_add hroom val⟩
  | endLongString => exact ⟨_, fun hroom => emits_add hroom (some (cBytes "\""))⟩
  | objSetNull name => exact ⟨_, fun hroom => emits_value hroom (some name) _⟩
  | arrSetNull => exact ⟨_, fun hroom => emits_value hroom none _⟩

theorem calls_emit (calls : List JsonGenCall) {f : JsonGenStr → JsonGenResult} {c c' : Bool}
    {out : List UInt8}
    (hf : ∀ {size : Option Nat} {cb : Bool}, Roomy size cb → Emits size cb f c c' out) :
    ∃ c'' out', ∀ {size : Option Nat} {cb : Bool}, Roomy size cb →
      Emits size cb (fun s => calls.foldl (fun r call => r.next call.call) (f s)) c c'' out' := by
  induction calls generalizing f c' out with
  | nil => exact ⟨c', out, fun hroom => hf hroom⟩
  | cons call calls ih =>
      obtain ⟨out₁, hout⟩ := call.emits c'
      exact ih fun hroom => (hf hroom).next (hout hroom)

/-- **One text for every buffer.** However small the buffer, with a
callback or without, the same calls generate the same text: it comes out
of the callback in chunks that fill the buffer, all but the last; without
a callback the buffer holds as much of it as fits; and
`json_gen_str_end` returns its size in either case, and where there is no
buffer at all. -/
theorem one_text_for_every_buffer (calls : List JsonGenCall) :
    ∃ text : List UInt8, ∀ (size : Option Nat) (cb : Bool), Roomy size cb →
      ∃ ok s, jsonGenCalls calls (jsonGenStrStart size cb) = some (ok, s) ∧
        (jsonGenStrEnd s).1 = text.length + 1 ∧
        ∀ n, size = some n →
          if cb then
            (jsonGenStrEnd s).2.flatten = text ∧
              (∀ c ∈ (jsonGenStrEnd s).2.dropLast, c.length + 1 = n) ∧
              ∀ c ∈ (jsonGenStrEnd s).2, c.length < n
          else s.written = text.take (n - 1) := by
  obtain ⟨c', text, hemits⟩ := calls_emit calls (c := false) fun _ => emits_nothing
  refine ⟨text, ?_⟩
  intro size cb hroom
  obtain ⟨ok, s, hs, hholds⟩ := hemits hroom _ _ (jsonGenStrStart_holds hroom)
  rw [List.nil_append] at hholds
  refine ⟨ok, s, hs, ?_, ?_⟩
  · rw [jsonGenStrEnd, hholds.totalLen]
  · intro n hn
    cases cb with
    | false => exact (hholds.cutOff n hn rfl).2
    | true =>
        obtain ⟨htext, hfull, hlt⟩ := hholds.flushed n hn rfl
        have hend : (jsonGenStrEnd s).2 = s.flushed ++ [s.written] := by
          rw [jsonGenStrEnd, hholds.bufSize, hn, hholds.flushCb]
          rfl
        rw [if_pos rfl, hend]
        refine ⟨?_, ?_, ?_⟩
        · rw [← htext]
          simp
        · rw [List.dropLast_concat]
          exact hfull
        · intro c hc
          rcases List.mem_append.mp hc with hc | hc
          · have := hfull c hc
            omega
          · rw [List.mem_singleton] at hc
            rw [hc]
            exact hlt

end LiveWireSwitch
