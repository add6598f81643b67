import LiveWireSwitch.Json.Bounds
import LiveWireSwitch.Json.Floats
import LiveWireSwitch.Json.Tokens

/-!
# Reading — a document is read as it is written

`json_parse_start` on the text of a document, and what `json_parser.c`
then finds in its objects: for a key the value of the first member of that
name, if it has the type that is asked for.
-/

namespace LiveWireSwitch

/-! ## The start -/

/-- A JSON text: a value that is no primitive, and white space around
it. -/
structure Document where
  before : Gap
  root : Json
  after : Gap
  notPrimitive : ¬ root.IsPrimitive

def Document.text (doc : Document) : List UInt8 :=
  doc.before.text ++ (doc.root.text ++ doc.after.text)

def Document.tokens (doc : Document) : List JsmnTok :=
  doc.root.tokens doc.before.text.length none 0

theorem Json.closed_tokens (v : Json) (start index : Nat) (parent : Option Nat) :
    ∀ t ∈ v.tokens start parent index, t.stop ≠ none := by
  have hkids : ∀ {o base : Nat} {kids : List JsmnTok}, Settled o base kids →
      ∀ t ∈ kids, t.stop ≠ none := by
    intro o base kids h t ht
    obtain ⟨i, hi⟩ := List.mem_iff_getElem?.mp ht
    exact (h i t hi).1
  intro t ht
  cases v with
  | primitive text =>
      rw [Json.tokens, List.mem_singleton] at ht
      rw [ht]
      exact nofun
  | string text =>
      rw [Json.tokens, List.mem_singleton] at ht
      rw [ht]
      exact nofun
  | array items =>
      rw [Json.tokens, List.mem_cons] at ht
      rcases ht with rfl | ht
      · exact nofun
      · exact hkids (Items.settled_tokens (Nat.le_refl _) (Nat.lt_succ_self _) _ items) t ht
  | object members =>
      rw [Json.tokens, List.mem_cons] at ht
      rcases ht with rfl | ht
      · exact nofun
      · exact hkids (Members.settled_tokens (Nat.le_refl _) (Nat.lt_succ_self _) _ members) t ht

/-- **The tokeniser reads a document.** -/
theorem jsmnParse_document (doc : Document) :
    jsmnParse (some doc.root.size) doc.text = .ok ⟨doc.tokens, none, doc.root.size⟩ := by
  have hslot : Slot [] none := nofun
  have hloop := Json.loop doc.root.size hslot doc.after.text doc.before.text.length 0 doc.root
    (by simp) fun h => absurd h doc.notPrimitive
  have hafter := jsmnLoop_gap (some doc.root.size) doc.after []
    (doc.before.text.length + doc.root.text.length) ⟨doc.tokens, none, doc.root.size⟩
  rw [List.append_nil, jsmnLoop_nil] at hafter
  have hall : jsmnLoop (some doc.root.size) doc.text 0 jsmnInit
      = .ok ⟨doc.tokens, none, doc.root.size⟩ := by
    rw [Document.text, jsmnLoop_gap, Nat.zero_add, jsmnInit, hloop, ← hafter, Nat.zero_add]
    rfl
  exact jsmnParse_eq_ok.mpr ⟨hall, doc.root.closed_tokens _ _ _⟩

/-- The first pass, which counts the tokens. -/
theorem jsmnParse_none_document (doc : Document) :
    jsmnParse none doc.text = .ok ⟨[], none, doc.root.size⟩ := by
  have hloop : jsmnLoop none doc.text 0 ⟨[], none, 0⟩ = .ok ⟨[], none, doc.root.size⟩ :=
    jsmnLoop_first _ _ _ (jsmnParse_eq_ok.mp (jsmnParse_document doc)).1
  exact jsmnParse_eq_ok.mpr ⟨hloop, nofun⟩

/-- Both passes, and the tokens they end with. -/
theorem jsonParseStart_document (doc : Document) :
    jsonParseStart true doc.text = some (some ⟨doc.text, doc.tokens, 0⟩) := by
  have hpos := doc.root.size_pos
  rw [jsonParseStart, jsmnParse_none_document]
  dsimp only
  rw [if_neg (by omega), if_neg Bool.noConfusion, jsmnParse_document]
  dsimp only
  rw [if_neg (by omega)]

/-- There is no memory for the tokens. -/
theorem jsonParseStart_noMem (doc : Document) : jsonParseStart false doc.text = some none := by
  rw [jsonParseStart, jsmnParse_none_document]
  dsimp only
  rw [if_pos rfl, ite_self]

/-! ## Where a value is -/

/-- `v` is written in `js`, and its tokens begin at an index. -/
inductive Placed (js : List UInt8) (tokens : List JsmnTok) :
    (v : Json) → (index : Nat) → (parent : Option Nat) → Prop where
  | mk {pre post : List UInt8} {before after : List JsmnTok} {v : Json} {parent : Option Nat}
      (hjs : js = pre ++ (v.text ++ post))
      (htokens : tokens = before ++ (v.tokens pre.length parent before.length ++ after))
      (hpost : v.IsPrimitive → Delimited post) : Placed js tokens v before.length parent

theorem Document.placed (doc : Document) : Placed doc.text doc.tokens doc.root 0 none := by
  have htokens : doc.tokens = [] ++ (doc.root.tokens doc.before.text.length none 0 ++ []) := by
    simp [Document.tokens]
  exact .mk rfl htokens fun h => absurd h doc.notPrimitive

def Json.type : Json → JsmnType
  | .primitive _ => .primitive
  | .string _ => .string
  | .array _ => .array
  | .object _ => .object

/-- The bytes the token of a value stands for: a string's are those
between its quotes. -/
def Json.bytes : Json → List UInt8
  | .primitive t => t.text
  | .string t => t.text
  | .array items => (Json.array items).text
  | .object members => (Json.object members).text

/-- A token stands for the bytes `w` of the text, with `post` behind
them. -/
structure Covers (js : List UInt8) (t : JsmnTok) (w post : List UInt8) : Prop where
  rest : js.drop t.start = w ++ post
  length : t.length = w.length

theorem Covers.text {js w post : List UInt8} {t : JsmnTok} (h : Covers js t w post) :
    t.text js = w := by
  rw [JsmnTok.text, h.rest, h.length, List.take_left]

theorem Covers.matches_iff {js w post : List UInt8} {t : JsmnTok} (h : Covers js t w post)
    (str : List UInt8) : tokenMatchesStr js t str ↔ w = str := by
  rw [tokenMatchesStr, h.rest, h.length]
  constructor
  · rintro ⟨htake, hlength⟩
    rw [hlength, List.take_left] at htake
    exact htake
  · rintro rfl
    exact ⟨List.take_left, rfl⟩

theorem StringText.covers (t : StringText) (pre post : List UInt8) (size : Nat)
    (parent : Option Nat) :
    Covers (pre ++ (t.quoted ++ post)) (t.token pre.length size parent) t.text
      ('"'.toUInt8 :: post) where
  rest := by
    rw [StringText.token, StringText.quoted]
    simp
  length := by
    simp [StringText.token, JsmnTok.length]

/-- A token that spans a whole text. -/
theorem covers_text {pre w post : List UInt8} {t : JsmnTok} (hstart : t.start = pre.length)
    (hstop : t.stop = some (pre.length + w.length)) : Covers (pre ++ (w ++ post)) t w post where
  rest := by rw [hstart, List.drop_left]
  length := by
    rw [JsmnTok.length, hstop, hstart]
    simp

/-- **The first token of a value** says what the value is. -/
theorem Placed.token {js : List UInt8} {tokens : List JsmnTok} {v : Json} {i : Nat}
    {parent : Option Nat} (h : Placed js tokens v i parent) :
    ∃ t post, tokens[i]? = some t ∧ t.type = v.type ∧ t.parent = parent ∧
      Covers js t v.bytes post ∧ (v.IsPrimitive → Delimited post) := by
  obtain @⟨pre, post, before, after, _, _, rfl, rfl, hpost⟩ := h
  have hget : ∀ {t : JsmnTok} {ts : List JsmnTok},
      v.tokens pre.length parent before.length = t :: ts →
      (before ++ (v.tokens pre.length parent before.length ++ after))[before.length]? = some t := by
    intro t ts heq
    rw [heq, List.getElem?_append_right (Nat.le_refl _)]
    simp
  cases v with
  | primitive t => exact ⟨_, post, hget rfl, rfl, rfl, covers_text rfl rfl, hpost⟩
  | string t => exact ⟨_, _, hget rfl, rfl, rfl, t.covers pre post 0 parent, False.elim⟩
  | array items =>
      refine ⟨_, post, hget rfl, rfl, rfl, covers_text rfl ?_, hpost⟩
      simp only [Json.text, List.length_cons, List.length_append, List.length_nil]
      congr 1
  | object members =>
      refine ⟨_, post, hget rfl, rfl, rfl, covers_text rfl ?_, hpost⟩
      simp only [Json.text, List.length_cons, List.length_append, List.length_nil]
      congr 1

/-! ## Finding a key -/

/-- The value of the first member of that name. -/
def Members.find (name : List UInt8) : Members → Option Json
  | .nil _ => none
  | .cons _ key _ _ v _ rest => if key.text = name then some v else rest.find name

/-- What the search from behind token `cur` should find: the key of `v`,
which is a child of token `o`. -/
def Finds (js : List UInt8) (tokens : List JsmnTok) (o : Nat) (found : Option (Option Nat)) :
    Option Json → Prop
  | none => found = some none
  | some v => ∃ k t, found = some (some k) ∧ tokens[k]? = some t ∧ t.parent = some o ∧
      Placed js tokens v (k + 1) (some k)

/-- **The search finds the first member of the name**, wherever the
members stand. -/
theorem searchFrom_finds {js post : List UInt8} {tokens after : List JsmnTok} {o : Nat}
    (name : List UInt8) (members : Members) {pre : List UInt8} {before : List JsmnTok} {cur : Nat}
    (hjs : js = pre ++ (members.text ++ '}'.toUInt8 :: post))
    (htokens : tokens = before ++ (members.tokens pre.length o before.length ++ after))
    (hcur : before.length = cur + 1) :
    Finds js tokens o (searchFrom js tokens name members.count cur) (members.find name) := by
  cases members with
  | nil gap => rfl
  | cons gap key afterKey beforeValue v gapAfter more =>
      -- what is written before the key, its value and the other members
      obtain ⟨keyPre, hkeyPre⟩ : ∃ l, l = pre ++ gap.text := ⟨_, rfl⟩
      obtain ⟨valuePre, hvaluePre⟩ : ∃ l, l = keyPre ++ (key.quoted ++ (afterKey.text ++
          ':'.toUInt8 :: beforeValue.text)) := ⟨_, rfl⟩
      obtain ⟨morePre, hmorePre⟩ : ∃ l, l = valuePre ++ (v.text ++ (gapAfter.text ++ more.comma)) :=
        ⟨_, rfl⟩
      have hkeyJs : js = keyPre ++ (key.quoted ++ (afterKey.text ++ ':'.toUInt8 ::
          (beforeValue.text ++ (v.text ++ (gapAfter.text ++ (more.comma ++ (more.text ++
            '}'.toUInt8 :: post))))))) := by
        rw [hjs, hkeyPre, Members.text]
        simp
      have hvalueJs : js = valuePre ++ (v.text ++ (gapAfter.text ++ (more.comma ++ more.text ++
          '}'.toUInt8 :: post))) := by
        rw [hkeyJs, hvaluePre]
        simp
      have hmoreJs : js = morePre ++ (more.text ++ '}'.toUInt8 :: post) := by
        rw [hvalueJs, hmorePre]
        simp
      -- and where their tokens are
      have hvalueLength : valuePre.length = pre.length + gap.text.length + key.quoted.length
          + afterKey.text.length + 1 + beforeValue.text.length := by
        rw [hvaluePre, hkeyPre]
        simp only [List.length_append, List.length_cons]
        omega
      have hmoreLength : morePre.length = pre.length + gap.text.length + key.quoted.length
          + afterKey.text.length + 1 + beforeValue.text.length + v.text.length
          + gapAfter.text.length + more.comma.length := by
        rw [hmorePre, List.length_append, hvalueLength]
        simp only [List.length_append]
        omega
      obtain ⟨t, ht⟩ : ∃ t, t = key.token keyPre.length 1 (some o) := ⟨_, rfl⟩
      obtain ⟨V, hV⟩ : ∃ V, V = v.tokens valuePre.length (some before.length) (before.length + 1) :=
        ⟨_, rfl⟩
      have htoks : tokens = before ++ t :: (V ++
          (more.tokens morePre.length o (before.length + 1 + v.size) ++ after)) := by
        rw [htokens, Members.tokens, ht, hV, hkeyPre, hvalueLength, hmoreLength,
          List.length_append]
        simp
      have hget : tokens[cur + 1]? = some t := by
        rw [htoks, ← hcur, List.getElem?_append_right (Nat.le_refl _)]
        simp
      have hkey : tokenMatchesStr js t name ↔ key.text = name := by
        rw [hkeyJs, ht]
        exact (key.covers keyPre _ 1 (some o)).matches_iff name
      rw [Members.count, searchFrom, hget, Option.bind_some, Members.find]
      by_cases hname : key.text = name
      · rw [if_pos (hkey.mpr hname), if_pos hname]
        refine ⟨cur + 1, t, rfl, hget, by rw [ht]; rfl, ?_⟩
        have hvalueToks : tokens = (before ++ [t]) ++ (v.tokens valuePre.length (some (cur + 1))
            (before ++ [t]).length ++
              (more.tokens morePre.length o (before.length + 1 + v.size) ++ after)) := by
          rw [htoks, hV, List.length_append, List.length_singleton, hcur]
          simp
        have hplaced := Placed.mk hvalueJs hvalueToks fun _ =>
          delimited_gap gapAfter (more.delimited post)
        rw [List.length_append, List.length_singleton, hcur] at hplaced
        exact hplaced
      · rw [if_neg (fun h => hname (hkey.mp h)), if_neg hname]
        have hcomplete : Lib.Complete JsmnTok.size t.size V := by
          rw [ht, hV]
          exact v.complete_tokens _ _ _
        have hdepth : V.length < tokens.length := by
          rw [htoks]
          simp
          omega
        have hskip := Lib.skipNode_complete JsmnTok.size hcomplete before
          (more.tokens morePre.length o (before.length + 1 + v.size) ++ after) hdepth
        have hlist : before ++ t :: V ++
            (more.tokens morePre.length o (before.length + 1 + v.size) ++ after) = tokens := by
          rw [htoks]
          simp
        rw [hlist, hcur] at hskip
        rw [jsonSkipElem_eq, hskip, Option.bind_some]
        have hbefore : (before ++ t :: V).length = before.length + 1 + v.size := by
          rw [List.length_append, List.length_cons, hV, Json.length_tokens]
          omega
        have hmoreToks : tokens = (before ++ t :: V) ++
            (more.tokens morePre.length o (before ++ t :: V).length ++ after) := by
          rw [hbefore, htoks]
          simp
        refine searchFrom_finds name more hmoreJs hmoreToks ?_
        rw [hbefore, hV, Json.length_tokens]
        omega
termination_by structural members

theorem Members.find_of_count {name : List UInt8} {members : Members} (h : members.count = 0) :
    members.find name = none := by
  cases members with
  | nil gap => rfl
  | cons gap key afterKey beforeValue v gapAfter more => exact absurd h (Nat.succ_ne_zero _)

/-- What is found in a value that need not be an object. -/
def Json.find (name : List UInt8) : Json → Option Json
  | .object members => members.find name
  | _ => none

/-- `json_obj_search` in a document. -/
theorem jsonObjSearch_placed {js : List UInt8} {tokens : List JsmnTok} {v : Json} {cur : Nat}
    {parent : Option Nat} (h : Placed js tokens v cur parent) (name : List UInt8) :
    Finds js tokens cur (jsonObjSearch ⟨js, tokens, cur⟩ name) (v.find name) := by
  obtain ⟨t, _, hget, htype, -, -, -⟩ := h.token
  rw [jsonObjSearch, hget, Option.bind_some]
  by_cases hobject : t.type = .object
  · obtain ⟨members, rfl⟩ : ∃ members, v = .object members := by
      rw [htype] at hobject
      cases v with
      | object members => exact ⟨members, rfl⟩
      | _ => cases hobject
    obtain @⟨pre, post, before, after, _, _, hjs, htokens, -⟩ := h
    have hsize : t.size = members.count := by
      rw [htokens, Json.tokens, List.getElem?_append_right (Nat.le_refl _)] at hget
      simp only [Nat.sub_self, List.cons_append, List.getElem?_cons_zero, Option.some.injEq] at hget
      rw [← hget]
    rw [hsize, if_neg (not_not.mpr hobject)]
    split
    · next hcount =>
        rw [Json.find, Members.find_of_count hcount]
        rfl
    · have hinnerJs : js = (pre ++ ['{'.toUInt8]) ++ (members.text ++ '}'.toUInt8 :: post) := by
        rw [hjs, Json.text]
        simp
      obtain ⟨x, hx⟩ : ∃ x : JsmnTok, x = ⟨.object, pre.length,
          some (pre.length + members.text.length + 2), members.count, parent⟩ := ⟨_, rfl⟩
      have hinnerToks : tokens = (before ++ [x]) ++ (members.tokens (pre ++ ['{'.toUInt8]).length
          before.length (before ++ [x]).length ++ after) := by
        rw [htokens, Json.tokens, ← hx]
        simp
      exact searchFrom_finds name members hinnerJs hinnerToks (by simp)
  · have hnone : v.find name = none := by
      cases v with
      | object members => exact absurd htype hobject
      | _ => rfl
    rw [hnone]
    split
    · rfl
    · rfl

/-- The value of the first member of that name, if it is of that type. -/
def Json.findOf (name : List UInt8) (type : JsmnType) (v : Json) : Option Json :=
  (v.find name).filter fun w => w.type = type

/-- What `json_obj_get_val_tok` should find, seen from token `o`. -/
def FindsValue (js : List UInt8) (tokens : List JsmnTok) (o : Nat)
    (found : Option (Option Nat)) : Option Json → Prop
  | none => found = some none
  | some v => ∃ k t, found = some (some (k + 1)) ∧ tokens[k]? = some t ∧ t.parent = some o ∧
      Placed js tokens v (k + 1) (some k)

/-- **`json_obj_get_val_tok` in a document.** -/
theorem jsonObjGetValTok_placed {js : List UInt8} {tokens : List JsmnTok} {v : Json} {cur : Nat}
    {parent : Option Nat} (h : Placed js tokens v cur parent) (name : List UInt8)
    (type : JsmnType) :
    FindsValue js tokens cur (jsonObjGetValTok ⟨js, tokens, cur⟩ name type)
      (v.findOf name type) := by
  have hsearch := jsonObjSearch_placed h name
  rw [jsonObjGetValTok, Json.findOf]
  cases hfind : v.find name with
  | none =>
      rw [hfind] at hsearch
      rw [show jsonObjSearch ⟨js, tokens, cur⟩ name = some none from hsearch]
      rfl
  | some w =>
      rw [hfind] at hsearch
      obtain ⟨k, t, hk, hget, hparent, hplaced⟩ := hsearch
      obtain ⟨u, _, hu, htype, -, -, -⟩ := hplaced.token
      rw [hk, Option.bind_some]
      dsimp only
      rw [hu, Option.bind_some, htype]
      by_cases hw : w.type = type
      · rw [if_neg (not_not.mpr hw), Option.filter_some, if_pos (by simpa using hw)]
        exact ⟨k, t, rfl, hget, hparent, hplaced⟩
      · rw [if_pos hw, Option.filter_some, if_neg (by simpa using hw)]
        rfl

/-- The `json_obj_get_*` functions in a document, by what their
conversion makes of the first token of a value. -/
theorem jsonObjGet_placed {js : List UInt8} {tokens : List JsmnTok} {v : Json} {cur : Nat}
    {parent : Option Nat} (h : Placed js tokens v cur parent) (name : List UInt8)
    (type : JsmnType) {β : Type} (value : JsmnTok → Option β) (f : Json → Option β)
    (hvalue : ∀ {w : Json} {t : JsmnTok} {post : List UInt8}, w.type = type →
      Covers js t w.bytes post → (w.IsPrimitive → Delimited post) → value t = f w) :
    jsonObjGet ⟨js, tokens, cur⟩ name type value = some ((v.findOf name type).bind f) := by
  have hfinds := jsonObjGetValTok_placed h name type
  rw [jsonObjGet]
  cases hfind : v.findOf name type with
  | none =>
      rw [hfind] at hfinds
      rw [show jsonObjGetValTok ⟨js, tokens, cur⟩ name type = some none from hfinds]
      rfl
  | some w =>
      have hw : w.type = type := by
        have := (Option.filter_eq_some_iff.mp hfind).2
        simpa using this
      rw [hfind] at hfinds
      obtain ⟨k, -, hk, -, -, hplaced⟩ := hfinds
      obtain ⟨t, post, ht, -, -, hcovers, hpost⟩ := hplaced.token
      rw [hk, Option.bind_some]
      dsimp only
      rw [ht, Option.map_some, hvalue hw hcovers hpost]
      rfl

/-! ## Going in and out of an object -/

/-- **`json_obj_get_object` and `json_obj_leave_object` in a document**:
what is entered is the object of that name, and leaving it goes back. -/
theorem jsonObjGetObject_placed {js : List UInt8} {tokens : List JsmnTok} {v : Json} {cur : Nat}
    {parent : Option Nat} (h : Placed js tokens v cur parent) (name : List UInt8) :
    match v.findOf name .object with
    | none => jsonObjGetObject ⟨js, tokens, cur⟩ name = some none
    | some w => ∃ i q, jsonObjGetObject ⟨js, tokens, cur⟩ name = some (some ⟨js, tokens, i⟩) ∧
        Placed js tokens w i q ∧
        jsonObjLeaveObject ⟨js, tokens, i⟩ = some (true, ⟨js, tokens, cur⟩) := by
  have hfinds := jsonObjGetValTok_placed h name .object
  cases hfind : v.findOf name .object with
  | none =>
      rw [hfind] at hfinds
      dsimp only
      rw [jsonObjGetObject, show jsonObjGetValTok ⟨js, tokens, cur⟩ name .object = some none
        from hfinds]
      rfl
  | some w =>
      rw [hfind] at hfinds
      obtain ⟨k, t, hk, hget, hparent, hplaced⟩ := hfinds
      obtain ⟨u, _, hu, -, huparent, -, -⟩ := hplaced.token
      refine ⟨k + 1, some k, ?_, hplaced, ?_⟩
      · rw [jsonObjGetObject, hk]
        rfl
      · simp [jsonObjLeaveObject, leaveToken, hu, huparent, hget, hparent]

/-! ## Values -/

/-- What `json_tok_to_bool` makes of a token's bytes. -/
def boolOf (w : List UInt8) : Option Bool :=
  if w = cBytes "true" ∨ w = cBytes "1" then some true
  else if w = cBytes "false" ∨ w = cBytes "0" then some false
  else none

theorem jsonTokToBool_eq {js w post : List UInt8} {t : JsmnTok} (h : Covers js t w post) :
    jsonTokToBool js t = boolOf w := by
  simp only [jsonTokToBool, boolOf, h.matches_iff]

/-- What `json_tok_to_int` makes of a token's bytes: all of them have to
be the number. -/
def intOf (w : List UInt8) : Option Int32 :=
  let r := strtoul w
  if r.2 = w.length then some r.1.toInt32 else none

theorem takeWhile_append_stop {τ : Type} {p : τ → Bool} {d : τ} (hd : p d = false)
    (l ds : List τ) : (l ++ d :: ds).takeWhile p = l.takeWhile p := by
  induction l with
  | nil => simp [hd]
  | cons a l ih =>
      rw [List.cons_append, List.takeWhile_cons, List.takeWhile_cons, ih]

theorem length_spaces {c : UInt8} (hc : isCSpace c = false) (l : List UInt8) :
    ((c :: l).takeWhile isCSpace).length = 0 := by
  rw [List.takeWhile_cons, hc]
  rfl

/-- `strtoul` does not look beyond a delimiter. -/
theorem strtoul_append {c d : UInt8} (hc : isCSpace c = false) (hd : isDelimiter d)
    (cs ds : List UInt8) : strtoul (c :: cs ++ d :: ds) = strtoul (c :: cs) := by
  have hdigit : isDigit d = false := by
    rcases hd with (rfl | rfl | rfl | rfl) | rfl | rfl | rfl <;> decide
  have hsign : (signOf (c :: cs)).2 ≤ (c :: cs).length := by
    rw [signOf, List.length_cons]
    split
    · exact Nat.le_add_left 1 _
    · split
      · exact Nat.le_add_left 1 _
      · exact Nat.zero_le _
  simp only [strtoul, List.cons_append, length_spaces hc, List.drop_zero, Nat.zero_add]
  have hsame : signOf (c :: (cs ++ d :: ds)) = signOf (c :: cs) := rfl
  rw [hsame, ← List.cons_append, List.drop_append_of_le_length hsign, takeWhile_append_stop hdigit]

/-- A primitive begins with no white space. -/
theorem PrimitiveText.not_space (w : PrimitiveText) : isCSpace w.first = false := by
  rcases w.starts with h | ⟨hlow, -⟩ | h | h | h
  · rw [h]
    decide
  · have h48 : 48 ≤ w.first.toNat := hlow
    have h32 : w.first ≠ ' '.toUInt8 := by
      intro h
      rw [h] at h48
      revert h48
      decide
    have h13 : ¬ w.first ≤ 13 := by
      rw [UInt8.le_iff_toNat_le]
      exact Nat.not_le.mpr (Nat.lt_of_lt_of_le (by decide) h48)
    simp [isCSpace, h32, h13]
  · rw [h]
    decide
  · rw [h]
    decide
  · rw [h]
    decide

theorem jsonTokToInt_eq {js post : List UInt8} {t : JsmnTok} {w : PrimitiveText}
    (h : Covers js t w.text post) (hpost : Delimited post) : jsonTokToInt js t = intOf w.text := by
  obtain ⟨d, ds, rfl, hd⟩ := hpost
  rw [jsonTokToInt, h.rest, h.length, PrimitiveText.text, strtoul_append w.not_space hd]
  rfl

/-- What `json_tok_to_float` makes of a token's bytes. -/
def floatOf (w : List UInt8) : Option Float32 :=
  let r := strtof w
  if r.2 = w.length then some r.1 else none

/-- Nor does `strtof`. -/
theorem strtof_append {c d : UInt8} (hc : isCSpace c = false) (hd : isDelimiter d)
    (cs ds : List UInt8) : strtof (c :: cs ++ d :: ds) = strtof (c :: cs) := by
  have hfloat : isFloatChar d = false := by
    rcases hd with (rfl | rfl | rfl | rfl) | rfl | rfl | rfl <;> decide
  simp only [strtof, List.cons_append, length_spaces hc, List.drop_zero]
  rw [← List.cons_append, takeWhile_append_stop hfloat]

theorem jsonTokToFloat_eq {js post : List UInt8} {t : JsmnTok} {w : PrimitiveText}
    (h : Covers js t w.text post) (hpost : Delimited post) :
    jsonTokToFloat js t = floatOf w.text := by
  obtain ⟨d, ds, rfl, hd⟩ := hpost
  rw [jsonTokToFloat, h.rest, h.length, PrimitiveText.text, strtof_append w.not_space hd]
  rfl

theorem jsonTokToString_eq {js w post : List UInt8} {t : JsmnTok} (h : Covers js t w post)
    (size : Nat) :
    jsonTokToString js t size = if w.length + 1 > size then none else some w := by
  rw [jsonTokToString, h.length, h.text]

end LiveWireSwitch
