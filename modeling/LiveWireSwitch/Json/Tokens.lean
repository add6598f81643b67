import LiveWireSwitch.Json.Document

/-!
# Tokens — the tokeniser reads documents

On the text of a JSON value the loop of `jsmn_parse` appends the tokens of
the value and stands behind it, with `toksuper` where it was. Inside a
container the invariant is that the container is the only open token from
its own index on.
-/

namespace LiveWireSwitch

/-! ## White space, strings, primitives -/

theorem jsmnLoop_gap (num : Option Nat) (gap : Gap) (rest : List UInt8) (pos : Nat)
    (p : JsmnParser) :
    jsmnLoop num (gap.text ++ rest) pos p = jsmnLoop num rest (pos + gap.text.length) p := by
  obtain ⟨text, hspace⟩ := gap
  induction text generalizing pos with
  | nil => rfl
  | cons c cs ih =>
      rw [List.cons_append, jsmnLoop_space _ _ _ _ (hspace c List.mem_cons_self),
        ih (pos + 1) fun d hd => hspace d (List.mem_cons_of_mem _ hd)]
      congr 1
      show pos + 1 + cs.length = pos + (cs.length + 1)
      omega

/-- The scan of a string stops at its closing quote. -/
theorem stringLength_body {text : List UInt8} (h : StringBody text) (rest : List UInt8) :
    stringLength 0 (text ++ '"'.toUInt8 :: rest) = .ok text.length := by
  induction h with
  | nil => exact stringLength_quote rest
  | plain hc _ ih =>
      rw [List.cons_append, stringLength_plain hc, ih]
      rfl
  | escape he _ ih =>
      rw [List.cons_append, List.cons_append, stringLength_escape he, ih]
      rfl
  | unicode ha hb hc hd _ ih =>
      simp only [List.cons_append]
      rw [stringLength_unicode, stringLength_hex ha, stringLength_hex hb, stringLength_hex hc,
        stringLength_hex hd, ih]
      rfl

/-- The scan of a primitive stops at the delimiter. -/
theorem primitiveLength_plain {text : List UInt8}
    (h : ∀ c ∈ text, 32 ≤ c ∧ c < 127 ∧ ¬ isDelimiter c) {d : UInt8} (hd : isDelimiter d)
    (rest : List UInt8) : primitiveLength (text ++ d :: rest) = .ok text.length := by
  induction text with
  | nil =>
      have hne : d ≠ 0 := by
        rintro rfl
        revert hd
        decide
      rw [List.nil_append, primitiveLength, if_neg hne, if_pos hd]
      rfl
  | cons c cs ih =>
      obtain ⟨hlow, hhigh, hnot⟩ := h c List.mem_cons_self
      have hne : c ≠ 0 := by
        rintro rfl
        revert hlow
        decide
      have hplain : ¬ (c < 32 ∨ 127 ≤ c) := by
        rintro (hlt | hge)
        · exact absurd hlow (UInt8.not_le.mpr hlt)
        · exact absurd hhigh (UInt8.not_lt.mpr hge)
      rw [List.cons_append, primitiveLength, if_neg hne, if_neg hnot, if_neg hplain,
        ih fun e he => h e (List.mem_cons_of_mem _ he)]
      rfl

/-! ## A token more -/

theorem modify_append_of_lt {τ : Type} {l : List τ} (r : List τ) {i : Nat} (h : i < l.length)
    (f : τ → τ) : (l ++ r).modify i f = l.modify i f ++ r := by
  induction l generalizing i with
  | nil => cases h
  | cons a l ih =>
      cases i with
      | zero => rfl
      | succ i =>
          rw [List.cons_append, List.modify_succ_cons, List.modify_succ_cons, List.cons_append,
            ih (Nat.lt_of_succ_lt_succ h)]

theorem modify_append_length {τ : Type} (l : List τ) (a : τ) (r : List τ) (f : τ → τ) :
    (l ++ a :: r).modify l.length f = l ++ f a :: r := by
  induction l with
  | nil => rfl
  | cons b l ih =>
      rw [List.cons_append, List.length_cons, List.modify_succ_cons, ih, List.cons_append]

/-- The tokens after one more child of `toksuper`. -/
def grown (tokens : List JsmnTok) : Option Nat → List JsmnTok
  | none => tokens
  | some s => tokens.modify s .grow

@[simp] theorem length_grown (tokens : List JsmnTok) (s : Option Nat) :
    (grown tokens s).length = tokens.length := by
  cases s with
  | none => rfl
  | some s => simp [grown]

theorem sizeIncr_grown {tokens : List JsmnTok} {toksuper : Option Nat}
    (hsuper : ∀ s, toksuper = some s → s < tokens.length) (t : JsmnTok) :
    sizeIncr (tokens ++ [t]) toksuper = .ok (grown tokens toksuper ++ [t]) := by
  cases toksuper with
  | none => rfl
  | some s =>
      have hlt := hsuper s rfl
      rw [sizeIncr, if_pos (by rw [List.length_append]; omega), grown,
        modify_append_of_lt _ hlt]

theorem jsmnLeaf_eq {num : Nat} {tokens : List JsmnTok} {toksuper : Option Nat}
    (hsuper : ∀ s, toksuper = some s → s < tokens.length) (hnum : tokens.length < num)
    (type : JsmnType) (start n count : Nat) :
    jsmnLeaf (some num) type start n ⟨tokens, toksuper, count⟩
      = .ok ⟨grown tokens toksuper ++ [⟨type, start, some (start + n), 0, toksuper⟩], toksuper,
          count + 1⟩ := by
  rw [jsmnLeaf, jsmnAllocToken, if_neg (Nat.not_le.mpr hnum)]
  simp only [bind, Except.bind, sizeIncr_grown hsuper]
  rfl

/-- `toksuper` is where a value may go: an array, or a key without a
value. -/
def Slot (tokens : List JsmnTok) (toksuper : Option Nat) : Prop :=
  ∀ s, toksuper = some s →
    ∃ t, tokens[s]? = some t ∧ (t.type = .array ∨ t.type = .string ∧ t.size = 0)

theorem Slot.lt {tokens : List JsmnTok} {toksuper : Option Nat} (h : Slot tokens toksuper) (s : Nat)
    (hs : toksuper = some s) : s < tokens.length := by
  obtain ⟨t, ht, -⟩ := h s hs
  exact (List.getElem?_eq_some_iff.mp ht).1

theorem Slot.superTakes {tokens : List JsmnTok} {toksuper : Option Nat}
    (h : Slot tokens toksuper) (num : Option Nat) (count : Nat) (ok : JsmnTok → Prop)
    [DecidablePred ok]
    (hok : ∀ t : JsmnTok, (t.type = .array ∨ t.type = .string ∧ t.size = 0) → ok t) :
    LiveWireSwitch.superTakes num ⟨tokens, toksuper, count⟩ ok = .ok () := by
  unfold LiveWireSwitch.superTakes
  split
  · next s hs =>
      obtain ⟨t, ht, hslot⟩ := h s hs
      simp only [tokAt, ht, bind, Except.bind]
      rw [if_pos (hok t hslot)]
  · rfl

theorem jsmnOpen_eq {num : Nat} {tokens : List JsmnTok} {toksuper : Option Nat}
    (hslot : Slot tokens toksuper) (hnum : tokens.length < num) (type : JsmnType)
    (pos count : Nat) :
    jsmnOpen (some num) type pos ⟨tokens, toksuper, count⟩
      = .ok ⟨grown tokens toksuper ++ [⟨type, pos, none, 0, toksuper⟩], some tokens.length,
          count + 1⟩ := by
  have htakes := hslot.superTakes (some num) count TakesContainer (by
    rintro t (harray | ⟨hstring, -⟩)
    · simp [TakesContainer, harray]
    · simp [TakesContainer, hstring])
  rw [jsmnOpen, jsmnAllocToken, if_neg (Nat.not_le.mpr hnum)]
  simp only [bind, Except.bind, htakes, sizeIncr_grown hslot.lt]
  rfl

/-! ## Closing -/

/-- Tokens from index `base` on that are closed, and whose links lead
back no further than to `o`. -/
def Settled (o base : Nat) (kids : List JsmnTok) : Prop :=
  ∀ (i : Nat) (t : JsmnTok), kids[i]? = some t →
    t.stop ≠ none ∧ ∃ q, t.parent = some q ∧ o ≤ q ∧ q < base + i

theorem settled_nil (o base : Nat) : Settled o base [] := by
  intro i t ht
  cases ht

theorem Settled.cons {o base : Nat} {t : JsmnTok} {kids : List JsmnTok} (hstop : t.stop ≠ none)
    {q : Nat} (hparent : t.parent = some q) (hlow : o ≤ q) (hhigh : q < base)
    (h : Settled o (base + 1) kids) : Settled o base (t :: kids) := by
  intro i u hu
  cases i with
  | zero =>
      cases hu
      exact ⟨hstop, q, hparent, hlow, hhigh⟩
  | succ i =>
      obtain ⟨hstop', q', hq', hlow', hhigh'⟩ := h i u hu
      exact ⟨hstop', q', hq', hlow', by omega⟩

theorem Settled.append {o base : Nat} {kids more : List JsmnTok} (h : Settled o base kids)
    (hmore : Settled o (base + kids.length) more) : Settled o base (kids ++ more) := by
  intro i t ht
  rcases Nat.lt_or_ge i kids.length with hlt | hge
  · rw [List.getElem?_append_left hlt] at ht
    exact h i t ht
  · rw [List.getElem?_append_right hge] at ht
    obtain ⟨hstop, q, hq, hlow, hhigh⟩ := hmore _ t ht
    exact ⟨hstop, q, hq, hlow, by omega⟩

theorem Settled.mono {o o' base : Nat} {kids : List JsmnTok} (h : Settled o base kids)
    (hle : o' ≤ o) : Settled o' base kids := by
  intro i t ht
  obtain ⟨hstop, q, hq, hlow, hhigh⟩ := h i t ht
  exact ⟨hstop, q, hq, Nat.le_trans hle hlow, hhigh⟩

mutual

theorem Json.settled_tokens {o q index : Nat} (hlow : o ≤ q) (hhigh : q < index) (start : Nat) :
    (v : Json) → Settled o index (v.tokens start (some q) index)
  | .primitive _ => (settled_nil _ _).cons nofun rfl hlow hhigh
  | .string _ => (settled_nil _ _).cons nofun rfl hlow hhigh
  | .array items =>
      (Items.settled_tokens (by omega) (Nat.lt_succ_self index) _ items).cons nofun rfl hlow hhigh
  | .object members =>
      (Members.settled_tokens (by omega) (Nat.lt_succ_self index) _ members).cons nofun rfl hlow
        hhigh

theorem Items.settled_tokens {o q index : Nat} (hlow : o ≤ q) (hhigh : q < index) (start : Nat) :
    (items : Items) → Settled o index (items.tokens start q index)
  | .nil _ => settled_nil _ _
  | .cons _ v _ rest => by
      refine (Json.settled_tokens hlow hhigh _ v).append ?_
      rw [Json.length_tokens]
      exact Items.settled_tokens hlow (by omega) _ rest

theorem Members.settled_tokens {o q index : Nat} (hlow : o ≤ q) (hhigh : q < index)
    (start : Nat) : (members : Members) → Settled o index (members.tokens start q index)
  | .nil _ => settled_nil _ _
  | .cons _ key _ _ v _ rest => by
      refine Settled.cons nofun rfl hlow hhigh ?_
      refine (Json.settled_tokens (by omega) (Nat.lt_succ_self index) _ v).append ?_
      rw [Json.length_tokens]
      exact Members.settled_tokens hlow (by omega) _ rest

end

/-- **The walk finds the open container**, from any token behind it. -/
theorem jsmnCloser_eq {before kids : List JsmnTok} {x : JsmnTok} (hopen : x.stop = none)
    (hkids : Settled before.length (before.length + 1) kids) (toksuper : Option Nat) (i : Nat)
    (hlow : before.length ≤ i) (hhigh : i < before.length + 1 + kids.length) :
    jsmnCloser x.type (before ++ x :: kids) toksuper i = .ok (some before.length) := by
  induction i using Nat.strongRecOn with
  | ind i ih =>
      unfold jsmnCloser
      rw [List.getElem?_append_right hlow]
      rcases Nat.eq_or_lt_of_le hlow with rfl | hlt
      · simp [hopen]
      · obtain ⟨k, hk⟩ : ∃ k, i - before.length = k + 1 := ⟨i - before.length - 1, by omega⟩
        have hklt : k < kids.length := by omega
        rw [hk, List.getElem?_cons_succ, List.getElem?_eq_getElem hklt]
        obtain ⟨hstop, q, hq, hqlow, hqhigh⟩ := hkids k _ (List.getElem?_eq_getElem hklt)
        dsimp only
        rw [if_neg hstop, hq]
        dsimp only
        rw [if_pos (by omega)]
        exact ih q (by omega) hqlow (by omega)

theorem jsmnClose_eq {before kids : List JsmnTok} {x : JsmnTok} (hopen : x.stop = none)
    (hkids : Settled before.length (before.length + 1) kids) (num : Nat) (toksuper : Option Nat)
    (pos count : Nat) :
    jsmnClose (some num) x.type pos ⟨before ++ x :: kids, toksuper, count⟩
      = .ok ⟨before ++ x.close pos :: kids, x.parent, count⟩ := by
  have hlast : (before ++ x :: kids).length - 1 = before.length + kids.length := by
    rw [List.length_append, List.length_cons]
    omega
  have hcloser := jsmnCloser_eq hopen hkids toksuper (before.length + kids.length) (by omega)
    (by omega)
  have hget : (before ++ x :: kids)[before.length]? = some x := by
    rw [List.getElem?_append_right (Nat.le_refl _)]
    simp
  rw [jsmnClose, if_neg (by simp), hlast, hcloser]
  simp only [bind, Except.bind, tokAt, hget]
  rw [modify_append_length]
  rfl

/-! ## Values -/

/-- A string, be it a key or a value. -/
theorem jsmnLoop_quoted {num : Nat} {tokens : List JsmnTok} {toksuper : Option Nat}
    (hsuper : ∀ s, toksuper = some s → s < tokens.length) (hnum : tokens.length < num)
    (t : StringText) (rest : List UInt8) (pos count : Nat) :
    jsmnLoop (some num) (t.quoted ++ rest) pos ⟨tokens, toksuper, count⟩
      = jsmnLoop (some num) rest (pos + t.quoted.length)
          ⟨grown tokens toksuper ++ [t.token pos 0 toksuper], toksuper, count + 1⟩ := by
  have htext : t.quoted ++ rest = '"'.toUInt8 :: (t.text ++ '"'.toUInt8 :: rest) := by
    simp [StringText.quoted]
  have hdrop : (t.text ++ '"'.toUInt8 :: rest).drop (t.text.length + 1) = rest := by
    rw [List.drop_append]
    simp
  have hlength : pos + t.text.length + 2 = pos + t.quoted.length := by
    simp [StringText.quoted]
    omega
  rw [htext, jsmnLoop_quote, stringLength_body t.body]
  simp only [bind, Except.bind]
  rw [jsmnLeaf_eq hsuper hnum]
  dsimp only
  rw [hdrop, hlength]
  rfl

def Json.IsPrimitive : Json → Prop
  | .primitive _ => True
  | _ => False

/-- What follows a value in a container: a delimiter. -/
def Delimited (rest : List UInt8) : Prop := ∃ d ds, rest = d :: ds ∧ isDelimiter d

theorem delimited_gap (gap : Gap) {rest : List UInt8} (h : Delimited rest) :
    Delimited (gap.text ++ rest) := by
  obtain ⟨text, hspace⟩ := gap
  cases text with
  | nil => exact h
  | cons c cs => exact ⟨c, cs ++ rest, rfl, .inl (hspace c List.mem_cons_self)⟩

/-- `x` after `n` more children, closed by the bracket at `pos`. -/
def JsmnTok.finish (x : JsmnTok) (n pos : Nat) : JsmnTok :=
  { x with size := x.size + n, stop := some (pos + 1) }

theorem StringText.grow_token (t : StringText) (start size : Nat) (parent : Option Nat) :
    (t.token start size parent).grow = t.token start (size + 1) parent := rfl

theorem JsmnTok.finish_grow (x : JsmnTok) (n pos : Nat) :
    x.grow.finish n pos = x.finish (n + 1) pos := by
  simp only [JsmnTok.finish, JsmnTok.grow, Nat.add_assoc, Nat.add_comm 1 n]

theorem Items.delimited (items : Items) (rest : List UInt8) :
    Delimited (items.comma ++ items.text ++ ']'.toUInt8 :: rest) := by
  cases items with
  | nil gap => exact delimited_gap gap ⟨_, _, rfl, by decide⟩
  | cons before v after more => exact ⟨_, _, rfl, by decide⟩

theorem Members.delimited (members : Members) (rest : List UInt8) :
    Delimited (members.comma ++ members.text ++ '}'.toUInt8 :: rest) := by
  cases members with
  | nil gap => exact delimited_gap gap ⟨_, _, rfl, by decide⟩
  | cons before key afterKey beforeValue v after more => exact ⟨_, _, rfl, by decide⟩

theorem jsmnComma_eq {tokens : List JsmnTok} {s : Nat} {t : JsmnTok} (h : tokens[s]? = some t)
    (num count : Nat) :
    jsmnComma (some num) ⟨tokens, some s, count⟩
      = .ok (if t.type ≠ .array ∧ t.type ≠ .object then ⟨tokens, t.parent, count⟩
          else ⟨tokens, some s, count⟩) := by
  unfold jsmnComma
  simp only [tokAt, h, bind, Except.bind, pure, Except.pure]

/-- A comma in an array leaves the array where it is. -/
theorem Items.loop_comma {num : Nat} {before kids : List JsmnTok} {x : JsmnTok}
    (harray : x.type = .array) (items : Items) (rest : List UInt8) (pos count : Nat) :
    jsmnLoop (some num) (items.comma ++ rest) pos ⟨before ++ x :: kids, some before.length, count⟩
      = jsmnLoop (some num) rest (pos + items.comma.length)
          ⟨before ++ x :: kids, some before.length, count⟩ := by
  cases items with
  | nil gap => rfl
  | cons gap v after more =>
      have hget : (before ++ x :: kids)[before.length]? = some x := by
        rw [List.getElem?_append_right (Nat.le_refl _)]
        simp
      rw [Items.comma, List.singleton_append, jsmnLoop_comma, jsmnComma_eq hget,
        if_neg fun h => h.1 harray]
      rfl

/-- A key with the colon after it: the new token is where the value
goes. -/
theorem jsmnLoop_key {num : Nat} {before kids : List JsmnTok} {x : JsmnTok}
    (hnum : (before ++ x :: kids).length < num) (key : StringText) (afterKey beforeValue : Gap)
    (rest : List UInt8) (pos count : Nat) :
    jsmnLoop (some num)
        (key.quoted ++ (afterKey.text ++ (':'.toUInt8 :: (beforeValue.text ++ rest)))) pos
        ⟨before ++ x :: kids, some before.length, count⟩
      = jsmnLoop (some num) rest
          (pos + key.quoted.length + afterKey.text.length + 1 + beforeValue.text.length)
          ⟨(before ++ x.grow :: kids) ++ [key.token pos 0 (some before.length)],
            some (before ++ x.grow :: kids).length, count + 1⟩ := by
  have hsuper : ∀ s, some before.length = some s → s < (before ++ x :: kids).length := by
    intro s hs
    cases hs
    rw [List.length_append, List.length_cons]
    omega
  rw [jsmnLoop_quoted hsuper hnum, grown, modify_append_length, jsmnLoop_gap, jsmnLoop_colon,
    jsmnLoop_gap, jsmnColon, if_neg (by simp)]
  dsimp only
  rw [List.length_append, List.length_singleton, Nat.add_sub_cancel]

/-- The last token, when it is a key without a value. -/
theorem slot_key (tokens : List JsmnTok) (key : StringText) (start : Nat) (parent : Option Nat) :
    Slot (tokens ++ [key.token start 0 parent]) (some tokens.length) := by
  intro s hs
  cases hs
  refine ⟨key.token start 0 parent, ?_, .inr ⟨rfl, rfl⟩⟩
  rw [List.getElem?_append_right (Nat.le_refl _)]
  simp

/-- A comma after the value of a key goes back to the object. -/
theorem Members.loop_comma {tokens : List JsmnTok} {j o : Nat} {key : JsmnTok}
    (hget : tokens[j]? = some key) (hstring : key.type = .string) (hparent : key.parent = some o)
    (members : Members) (num : Nat) (rest : List UInt8) (pos count : Nat) :
    ∃ toksuper, (members.count ≠ 0 → toksuper = some o) ∧
      jsmnLoop (some num) (members.comma ++ rest) pos ⟨tokens, some j, count⟩
        = jsmnLoop (some num) rest (pos + members.comma.length) ⟨tokens, toksuper, count⟩ := by
  cases members with
  | nil gap => exact ⟨some j, fun h => absurd rfl h, rfl⟩
  | cons gap key' afterKey beforeValue v after more =>
      refine ⟨some o, fun _ => rfl, ?_⟩
      have hneither : key.type ≠ .array ∧ key.type ≠ .object := by
        rw [hstring]
        exact ⟨JsmnType.noConfusion, JsmnType.noConfusion⟩
      rw [Members.comma, List.singleton_append, jsmnLoop_comma, jsmnComma_eq hget,
        if_pos hneither, hparent]
      rfl

mutual

/-- **A value is read**, where a value may stand. -/
theorem Json.loop (num : Nat) {tokens : List JsmnTok} {toksuper : Option Nat}
    (hslot : Slot tokens toksuper) (rest : List UInt8) (pos count : Nat) :
    (v : Json) → tokens.length + v.size ≤ num → (v.IsPrimitive → Delimited rest) →
    jsmnLoop (some num) (v.text ++ rest) pos ⟨tokens, toksuper, count⟩
      = jsmnLoop (some num) rest (pos + v.text.length)
          ⟨grown tokens toksuper ++ v.tokens pos toksuper tokens.length, toksuper,
            count + v.size⟩
  | .primitive t => by
      intro hnum hrest
      obtain ⟨d, ds, rfl, hd⟩ := hrest trivial
      have htakes := hslot.superTakes (some num) count TakesPrimitive (by
        rintro t (harray | ⟨hstring, hsize⟩)
        · simp [TakesPrimitive, harray]
        · simp [TakesPrimitive, hstring, hsize])
      rw [Json.text, PrimitiveText.text, List.cons_append, jsmnLoop_primitive _ _ _ _ t.starts,
        htakes, primitiveLength_plain t.plain hd]
      simp only [bind, Except.bind]
      rw [jsmnLeaf_eq hslot.lt (Nat.lt_of_succ_le hnum)]
      dsimp only
      rw [List.drop_left]
      simp [Json.tokens, Json.size, PrimitiveText.text, Nat.add_assoc]
  | .string t => by
      intro hnum _
      rw [Json.text, jsmnLoop_quoted hslot.lt (Nat.lt_of_succ_le hnum)]
      rfl
  | .array items => by
      intro hnum _
      rw [Json.size] at hnum
      have htext : (Json.array items).text ++ rest
          = '['.toUInt8 :: (items.text ++ ']'.toUInt8 :: rest) := by
        simp [Json.text]
      rw [htext, jsmnLoop_openArray, jsmnOpen_eq hslot (by omega)]
      have hitems := Items.loop num (grown tokens toksuper) ⟨.array, pos, none, 0, toksuper⟩ [] rfl
        rfl (settled_nil _ _) rest (pos + 1) (count + 1) items (by simp; omega)
      rw [length_grown] at hitems
      simp only [bind, Except.bind]
      rw [hitems]
      have hpos : pos + 1 + items.text.length + 1 = pos + (Json.array items).text.length := by
        simp only [Json.text, List.length_cons, List.length_append, List.length_nil]
        omega
      have hstop : pos + 1 + items.text.length + 1 = pos + items.text.length + 2 := by omega
      rw [hpos]
      simp only [JsmnTok.finish, hstop, Json.tokens, Json.size, List.nil_append, Nat.zero_add,
        List.length_nil, Nat.add_zero]
      rw [Nat.add_right_comm count]
      rfl
  | .object members => by
      intro hnum _
      rw [Json.size] at hnum
      have htext : (Json.object members).text ++ rest
          = '{'.toUInt8 :: (members.text ++ '}'.toUInt8 :: rest) := by
        simp [Json.text]
      rw [htext, jsmnLoop_openObject, jsmnOpen_eq hslot (by omega)]
      have hmembers := Members.loop num (grown tokens toksuper)
        ⟨.object, pos, none, 0, toksuper⟩ [] rfl rfl (settled_nil _ _) rest (pos + 1) (count + 1)
        (some tokens.length) members (fun _ => by simp) (by simp; omega)
      rw [length_grown] at hmembers
      simp only [bind, Except.bind]
      rw [hmembers]
      have hpos : pos + 1 + members.text.length + 1 = pos + (Json.object members).text.length := by
        simp only [Json.text, List.length_cons, List.length_append, List.length_nil]
        omega
      have hstop : pos + 1 + members.text.length + 1 = pos + members.text.length + 2 := by omega
      rw [hpos]
      simp only [JsmnTok.finish, hstop, Json.tokens, Json.size, List.nil_append, Nat.zero_add,
        List.length_nil, Nat.add_zero]
      rw [Nat.add_right_comm count]
      rfl

theorem Items.loop (num : Nat) (before : List JsmnTok) (x : JsmnTok) (kids : List JsmnTok)
    (harray : x.type = .array) (hopen : x.stop = none)
    (hkids : Settled before.length (before.length + 1) kids) (rest : List UInt8)
    (pos count : Nat) :
    (items : Items) → before.length + 1 + kids.length + items.size ≤ num →
    jsmnLoop (some num) (items.text ++ ']'.toUInt8 :: rest) pos
        ⟨before ++ x :: kids, some before.length, count⟩
      = jsmnLoop (some num) rest (pos + items.text.length + 1)
          ⟨before ++ x.finish items.count (pos + items.text.length) ::
              (kids ++ items.tokens pos before.length (before.length + 1 + kids.length)),
            x.parent, count + items.size⟩
  | .nil gap => by
      intro _
      rw [Items.text, jsmnLoop_gap, jsmnLoop_closeArray, ← harray, jsmnClose_eq hopen hkids]
      simp [bind, Except.bind, JsmnTok.finish, JsmnTok.close, Items.tokens, Items.count, Items.size]
  | .cons gap v after more => by
      intro hnum
      rw [Items.size] at hnum
      have hslot : Slot (before ++ x :: kids) (some before.length) := by
        intro s hs
        cases hs
        refine ⟨x, ?_, .inl harray⟩
        rw [List.getElem?_append_right (Nat.le_refl _)]
        simp
      have htext : (Items.cons gap v after more).text ++ ']'.toUInt8 :: rest
          = gap.text ++ (v.text ++ (after.text ++ (more.comma ++
              (more.text ++ ']'.toUInt8 :: rest)))) := by
        simp [Items.text]
      have hdelimited : Delimited (after.text ++ (more.comma ++
          (more.text ++ ']'.toUInt8 :: rest))) := by
        rw [← List.append_assoc more.comma]
        exact delimited_gap after (more.delimited rest)
      have hlength : (before ++ x :: kids).length = before.length + 1 + kids.length := by
        rw [List.length_append, List.length_cons]
        omega
      have hv := Json.loop num hslot _ (pos + gap.text.length) count v (by omega)
        fun _ => hdelimited
      rw [grown, modify_append_length, hlength, List.append_assoc, List.cons_append] at hv
      have hkids' := hkids.append
        (Json.settled_tokens (Nat.le_refl _) (by omega) (pos + gap.text.length) v)
      have hmore := Items.loop num _ x.grow _ harray hopen hkids' rest
        (pos + gap.text.length + v.text.length + after.text.length + more.comma.length)
        (count + v.size) more (by simp; omega)
      rw [htext, jsmnLoop_gap, hv, jsmnLoop_gap, Items.loop_comma (by exact harray), hmore]
      have hpos : pos + gap.text.length + v.text.length + after.text.length + more.comma.length
            + more.text.length = pos + (Items.cons gap v after more).text.length := by
        simp only [Items.text, List.length_append]
        omega
      have hindex : before.length + 1 + (kids ++ v.tokens (pos + gap.text.length)
            (some before.length) (before.length + 1 + kids.length)).length
          = before.length + 1 + kids.length + v.size := by
        rw [List.length_append, Json.length_tokens]
        omega
      rw [hpos, hindex, JsmnTok.finish_grow, List.append_assoc, Nat.add_assoc count, Items.tokens,
        Items.count, Items.size]
      rfl

theorem Members.loop (num : Nat) (before : List JsmnTok) (x : JsmnTok) (kids : List JsmnTok)
    (hobject : x.type = .object) (hopen : x.stop = none)
    (hkids : Settled before.length (before.length + 1) kids) (rest : List UInt8) (pos count : Nat)
    (toksuper : Option Nat) :
    (members : Members) → (members.count ≠ 0 → toksuper = some before.length) →
    before.length + 1 + kids.length + members.size ≤ num →
    jsmnLoop (some num) (members.text ++ '}'.toUInt8 :: rest) pos
        ⟨before ++ x :: kids, toksuper, count⟩
      = jsmnLoop (some num) rest (pos + members.text.length + 1)
          ⟨before ++ x.finish members.count (pos + members.text.length) ::
              (kids ++ members.tokens pos before.length (before.length + 1 + kids.length)),
            x.parent, count + members.size⟩
  | .nil gap => by
      intro _ _
      rw [Members.text, jsmnLoop_gap, jsmnLoop_closeObject, ← hobject, jsmnClose_eq hopen hkids]
      simp [bind, Except.bind, JsmnTok.finish, JsmnTok.close, Members.tokens, Members.count,
        Members.size]
  | .cons gap key afterKey beforeValue v after more => by
      intro hsuper hnum
      rw [Members.size] at hnum
      obtain rfl := hsuper (Nat.succ_ne_zero _)
      have hlength : ∀ y : JsmnTok,
          (before ++ y :: kids).length = before.length + 1 + kids.length := by
        intro y
        rw [List.length_append, List.length_cons]
        omega
      have htext : (Members.cons gap key afterKey beforeValue v after more).text ++
            '}'.toUInt8 :: rest
          = gap.text ++ (key.quoted ++ (afterKey.text ++ (':'.toUInt8 :: (beforeValue.text ++
              (v.text ++ (after.text ++ (more.comma ++
                (more.text ++ '}'.toUInt8 :: rest)))))))) := by
        simp [Members.text]
      have hdelimited : Delimited (after.text ++ (more.comma ++
          (more.text ++ '}'.toUInt8 :: rest))) := by
        rw [← List.append_assoc more.comma]
        exact delimited_gap after (more.delimited rest)
      rw [htext, jsmnLoop_gap, jsmnLoop_key (by rw [hlength]; omega)]
      -- the value of the key
      rw [Json.loop num (slot_key _ key (pos + gap.text.length) (some before.length)) _ _ _ v
        (by rw [List.length_append, hlength, List.length_singleton]; omega) fun _ => hdelimited,
        grown, modify_append_length, jsmnLoop_gap]
      have hget : ∀ V : List JsmnTok,
          ((before ++ x.grow :: kids) ++ [(key.token (pos + gap.text.length) 0
            (some before.length)).grow] ++ V)[(before ++ x.grow :: kids).length]?
            = some (key.token (pos + gap.text.length) 1 (some before.length)) := by
        intro V
        rw [StringText.grow_token, List.append_assoc, List.getElem?_append_right (Nat.le_refl _)]
        simp
      obtain ⟨toksuper, hsuper, hcomma⟩ := Members.loop_comma (hget _) rfl rfl more num
        (more.text ++ '}'.toUInt8 :: rest) _ _
      have hkids' := hkids.append (Settled.cons (t := key.token (pos + gap.text.length) 1
        (some before.length)) nofun rfl (Nat.le_refl _) (by omega)
        (Json.settled_tokens (q := before.length + 1 + kids.length) (by omega) (by omega)
          (pos + gap.text.length + key.quoted.length + afterKey.text.length + 1
            + beforeValue.text.length) v))
      have hmore := Members.loop num _ x.grow _ hobject hopen hkids' rest
        (pos + gap.text.length + key.quoted.length + afterKey.text.length + 1
          + beforeValue.text.length + v.text.length + after.text.length + more.comma.length)
        (count + 1 + v.size) _ more hsuper (by simp; omega)
      have hshape : ∀ (t : JsmnTok) (V : List JsmnTok),
          before ++ x.grow :: kids ++ [t] ++ V = before ++ x.grow :: (kids ++ t :: V) := by
        simp
      have hlength' : ∀ t : JsmnTok,
          (before ++ x.grow :: kids ++ [t]).length = before.length + 1 + kids.length + 1 := by
        intro t
        rw [List.length_append, hlength, List.length_singleton]
      rw [hcomma, hshape, hlength', hlength, StringText.grow_token, hmore]
      have hpos : pos + gap.text.length + key.quoted.length + afterKey.text.length + 1
            + beforeValue.text.length + v.text.length + after.text.length + more.comma.length
            + more.text.length
          = pos + (Members.cons gap key afterKey beforeValue v after more).text.length := by
        simp only [Members.text, List.length_append, List.length_cons]
        omega
      rw [hpos, JsmnTok.finish_grow, List.length_append, List.length_cons, Json.length_tokens,
        List.append_assoc, Members.tokens, Members.count, Members.size]
      have hindex : before.length + 1 + (kids.length + (v.size + 1))
          = before.length + 1 + kids.length + 1 + v.size := by omega
      have hcount : count + 1 + v.size + more.size = count + (v.size + 1 + more.size) := by omega
      rw [hindex, hcount]
      rfl

end

end LiveWireSwitch
