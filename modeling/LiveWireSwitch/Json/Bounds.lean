import LiveWireSwitch.Json.Parser

/-!
# Bounds — the tokens of any text

What holds of the tokens whatever bytes come in: links go back, no token
counts more children than there are tokens after it, and the pass that
fills the tokens needs exactly as many as the pass that counts them. So
neither the tokeniser nor the walk over its tokens leaves the array.
-/

namespace LiveWireSwitch

open Lib

/-! ## The invariant -/

structure JsmnParser.Ok (p : JsmnParser) : Prop where
  count : p.tokens.length = p.count
  super : ∀ s, p.toksuper = some s → s < p.tokens.length
  parent : ∀ (i : Nat) (t : JsmnTok) (q : Nat),
    p.tokens[i]? = some t → t.parent = some q → q < i
  balanced : Balanced JsmnTok.size p.tokens

/-- What may come of a parser whose invariant holds, when `count` tokens
are to be counted in the end: the invariant and that count, or a failure
that is no stray access and is `noMem` only with fewer tokens at hand. -/
def StepOk (numTokens count : Nat) : Except JsmnErr JsmnParser → Prop
  | .ok p => p.Ok ∧ p.count = count
  | .error .wild => False
  | .error .noMem => numTokens < count
  | .error _ => True

theorem jsmnInit_ok : jsmnInit.Ok where
  count := rfl
  super := by
    intro s hs
    cases hs
  parent := by
    intro i t q ht
    cases ht
  balanced := balanced_nil _

theorem JsmnParser.Ok.tokAt {p : JsmnParser} (h : p.Ok) {s : Nat} (hs : p.toksuper = some s) :
    ∃ t, p.tokens[s]? = some t ∧ LiveWireSwitch.tokAt p.tokens s = .ok t := by
  have hlt := h.super s hs
  refine ⟨p.tokens[s], List.getElem?_eq_getElem hlt, ?_⟩
  rw [LiveWireSwitch.tokAt, List.getElem?_eq_getElem hlt]

/-- Asking the token at `toksuper` never goes astray. -/
theorem JsmnParser.Ok.superTakes {p : JsmnParser} (h : p.Ok) (num : Option Nat)
    (ok : JsmnTok → Prop) [DecidablePred ok] :
    LiveWireSwitch.superTakes num p ok = .ok () ∨
      LiveWireSwitch.superTakes num p ok = .error .inval := by
  unfold LiveWireSwitch.superTakes
  split
  · next s hs =>
      obtain ⟨t, -, ht⟩ := h.tokAt hs
      rw [ht]
      by_cases hok : ok t
      · exact .inl (if_pos hok)
      · exact .inr (if_neg hok)
  · exact .inl rfl

/-- The tokens after a new one that counts as a child of `toksuper`. -/
def withChild (tokens : List JsmnTok) (t : JsmnTok) : Option Nat → List JsmnTok
  | none => tokens ++ [t]
  | some s => (tokens ++ [t]).modify s .grow

theorem sizeIncr_eq {p : JsmnParser} (h : p.Ok) (t : JsmnTok) :
    sizeIncr (p.tokens ++ [t]) p.toksuper = .ok (withChild p.tokens t p.toksuper) := by
  cases hs : p.toksuper with
  | none => rfl
  | some s =>
      have hlt := h.super s hs
      rw [sizeIncr, if_pos (by rw [List.length_append]; omega)]
      rfl

theorem length_withChild (tokens : List JsmnTok) (t : JsmnTok) (s : Option Nat) :
    (withChild tokens t s).length = tokens.length + 1 := by
  cases s with
  | none => simp [withChild]
  | some s => simp [withChild]

/-- Growing a token keeps its links. -/
theorem parent_of_modify {tokens : List JsmnTok} {s i q : Nat} {t : JsmnTok} {f : JsmnTok → JsmnTok}
    (hf : ∀ t, (f t).parent = t.parent) (ht : (tokens.modify s f)[i]? = some t)
    (hq : t.parent = some q) : ∃ t', tokens[i]? = some t' ∧ t'.parent = some q := by
  rw [List.getElem?_modify] at ht
  split at ht
  · obtain ⟨t', ht', rfl⟩ := Option.map_eq_some_iff.mp ht
    exact ⟨t', ht', (hf t').symm.trans hq⟩
  · exact ⟨t, by simpa using ht, hq⟩

/-- **A new token** whose parent is `toksuper`. -/
theorem JsmnParser.Ok.withChild {p : JsmnParser} (h : p.Ok) {t : JsmnTok} (hsize : t.size = 0)
    (hparent : t.parent = p.toksuper) {toksuper : Option Nat}
    (hsuper : ∀ s, toksuper = some s → s < p.tokens.length + 1) :
    JsmnParser.Ok ⟨LiveWireSwitch.withChild p.tokens t p.toksuper, toksuper, p.count + 1⟩ where
  count := by
    rw [length_withChild, h.count]
  super := by
    intro s hs
    rw [length_withChild]
    exact hsuper s hs
  parent := by
    have hnew : ∀ (i : Nat) (u : JsmnTok) (q : Nat),
        (p.tokens ++ [t])[i]? = some u → u.parent = some q → q < i := by
      intro i u q hu hq
      rcases Nat.lt_or_ge i p.tokens.length with hlt | hge
      · rw [List.getElem?_append_left hlt] at hu
        exact h.parent i u q hu hq
      · rw [List.getElem?_append_right hge] at hu
        obtain ⟨hi, rfl⟩ := List.getElem?_eq_some_iff.mp hu
        have hq' : p.toksuper = some q := by simpa [hparent] using hq
        exact Nat.lt_of_lt_of_le (h.super q hq') hge
    intro i u q hu hq
    cases hs : p.toksuper with
    | none =>
        rw [hs] at hu
        exact hnew i u q hu hq
    | some s =>
        rw [hs] at hu
        obtain ⟨u', hu', hq'⟩ := parent_of_modify (f := .grow) (fun _ => rfl) hu hq
        exact hnew i u' q hu' hq'
  balanced := by
    cases hs : p.toksuper with
    | none => exact h.balanced.concat _ hsize
    | some s => exact h.balanced.adopt _ hsize (h.super s hs) fun _ => rfl

/-- Closing a token or moving `toksuper` keeps the invariant. -/
theorem JsmnParser.Ok.modify {p : JsmnParser} (h : p.Ok) (i : Nat) {f : JsmnTok → JsmnTok}
    (hsize : ∀ t, (f t).size = t.size) (hparent : ∀ t, (f t).parent = t.parent)
    {toksuper : Option Nat} (hsuper : ∀ s, toksuper = some s → s < p.tokens.length) :
    JsmnParser.Ok ⟨p.tokens.modify i f, toksuper, p.count⟩ where
  count := by
    rw [List.length_modify, h.count]
  super := by
    intro s hs
    rw [List.length_modify]
    exact hsuper s hs
  parent := by
    intro j t q ht hq
    obtain ⟨t', ht', hq'⟩ := parent_of_modify hparent ht hq
    exact h.parent j t' q ht' hq'
  balanced := by
    have hsizes : (p.tokens.modify i f).map JsmnTok.size = p.tokens.map JsmnTok.size := by
      apply List.ext_getElem?
      intro j
      rw [List.getElem?_map, List.getElem?_map, List.getElem?_modify]
      split
      · cases p.tokens[j]? <;> simp [hsize]
      · simp
    intro j hj
    rw [List.length_modify] at hj ⊢
    have hchildren : children JsmnTok.size (p.tokens.modify i f) j
        = children JsmnTok.size p.tokens j := by
      rw [children, children, List.map_drop, List.map_drop, hsizes]
    rw [hchildren]
    exact h.balanced j hj

/-! ## Each step -/

theorem jsmnLeaf_ok {p : JsmnParser} (h : p.Ok) (numTokens : Nat) (type : JsmnType)
    (start n : Nat) :
    StepOk numTokens (p.count + 1) (jsmnLeaf (some numTokens) type start n p) := by
  rw [jsmnLeaf, jsmnAllocToken]
  split
  · next hfull => exact Nat.lt_succ_of_le (h.count ▸ hfull)
  · simp only [bind, Except.bind, sizeIncr_eq h]
    exact ⟨h.withChild rfl rfl fun s hs => Nat.lt_succ_of_lt (h.super s hs), rfl⟩

theorem jsmnOpen_ok {p : JsmnParser} (h : p.Ok) (numTokens : Nat) (type : JsmnType) (pos : Nat) :
    StepOk numTokens (p.count + 1) (jsmnOpen (some numTokens) type pos p) := by
  rw [jsmnOpen, jsmnAllocToken]
  split
  · next hfull => exact Nat.lt_succ_of_le (h.count ▸ hfull)
  · rcases h.superTakes (some numTokens) TakesContainer with htakes | hrefuses
    · simp only [bind, Except.bind, htakes, sizeIncr_eq h]
      refine ⟨h.withChild rfl rfl ?_, rfl⟩
      intro s hs
      cases hs
      exact Nat.lt_succ_self _
    · simp only [bind, Except.bind, hrefuses]
      trivial

/-- **The walk ends at a token of the array**, or with an error that is
one. -/
theorem jsmnCloser_ok {p : JsmnParser} (h : p.Ok) (type : JsmnType) (toksuper : Option Nat)
    (i : Nat) (hi : i < p.tokens.length) :
    (∃ c, jsmnCloser type p.tokens toksuper i = .ok c ∧ ∀ j, c = some j → j < p.tokens.length) ∨
      jsmnCloser type p.tokens toksuper i = .error .inval := by
  induction i using Nat.strongRecOn with
  | ind i ih =>
      unfold jsmnCloser
      rw [List.getElem?_eq_getElem hi]
      dsimp only
      split
      · split
        · exact .inr rfl
        · refine .inl ⟨some i, rfl, ?_⟩
          intro j hj
          cases hj
          exact hi
      · split
        · split
          · exact .inr rfl
          · refine .inl ⟨none, rfl, ?_⟩
            intro j hj
            cases hj
        · next q hq =>
            have hlt := h.parent i _ q (List.getElem?_eq_getElem hi) hq
            rw [if_pos hlt]
            exact ih q hlt (Nat.lt_trans hlt hi)

theorem jsmnClose_ok {p : JsmnParser} (h : p.Ok) (numTokens : Nat) (type : JsmnType) (pos : Nat) :
    StepOk numTokens p.count (jsmnClose (some numTokens) type pos p) := by
  rw [jsmnClose]
  split
  · trivial
  · next hne =>
      have hpos := List.length_pos_iff.mpr hne
      rcases jsmnCloser_ok h type p.toksuper (p.tokens.length - 1) (by omega) with
        ⟨c, hc, hin⟩ | hinval
      · rw [hc]
        cases c with
        | none => exact ⟨h, rfl⟩
        | some i =>
            have hi := hin i rfl
            have ht : tokAt p.tokens i = .ok p.tokens[i] := by
              rw [tokAt, List.getElem?_eq_getElem hi]
            simp only [bind, Except.bind, ht]
            refine ⟨h.modify i (f := .close pos) (fun _ => rfl) (fun _ => rfl) ?_, rfl⟩
            intro s hs
            exact Nat.lt_trans (h.parent i _ s (List.getElem?_eq_getElem hi) hs) hi
      · rw [hinval]
        trivial

theorem jsmnColon_ok {p : JsmnParser} (h : p.Ok) :
    (jsmnColon p).Ok ∧ (jsmnColon p).count = p.count := by
  refine ⟨⟨h.count, ?_, h.parent, h.balanced⟩, rfl⟩
  intro s hs
  rw [jsmnColon] at hs
  dsimp only at hs
  split at hs
  · cases hs
  · next hne =>
      cases hs
      have := List.length_pos_iff.mpr hne
      show p.tokens.length - 1 < p.tokens.length
      omega

theorem jsmnComma_ok {p : JsmnParser} (h : p.Ok) (numTokens : Nat) :
    StepOk numTokens p.count (jsmnComma (some numTokens) p) := by
  unfold jsmnComma
  split
  · next s _ hs =>
      obtain ⟨t, hget, ht⟩ := h.tokAt hs
      simp only [bind, Except.bind, ht, pure, Except.pure]
      split
      · refine ⟨⟨h.count, ?_, h.parent, h.balanced⟩, rfl⟩
        intro q hq
        exact Nat.lt_trans (h.parent s t q hget hq) (h.super s hs)
      · exact ⟨h, rfl⟩
  · exact ⟨h, rfl⟩

/-! ## The two passes -/

/-- A step and what follows it. -/
theorem StepOk.bind {numTokens mid count : Nat} {r : Except JsmnErr JsmnParser}
    {k : JsmnParser → Except JsmnErr JsmnParser} (hr : StepOk numTokens mid r)
    (hle : mid ≤ count)
    (hk : ∀ p, p.Ok → p.count = mid → StepOk numTokens count (k p)) :
    StepOk numTokens count (r >>= k) := by
  cases r with
  | error e =>
      cases e with
      | noMem => exact Nat.lt_of_lt_of_le hr hle
      | inval => trivial
      | part => trivial
      | wild => exact hr.elim
  | ok p => exact hk p hr.1 hr.2

/-- The first pass only counts up. -/
theorem le_count_of_first (js : List UInt8) (pos : Nat) (p : JsmnParser) {q : JsmnParser}
    (h : jsmnLoop none js pos p = .ok q) : p.count ≤ q.count := by
  fun_induction jsmnLoop none js pos p with
  | case1 pos p =>
      cases h
      exact Nat.le_refl _
  | case2 pos p =>
      cases h
      exact Nat.le_refl _
  | case3 pos p cs _ ih => exact Nat.le_of_succ_le (ih _ h)
  | case4 pos p cs _ _ ih => exact Nat.le_of_succ_le (ih _ h)
  | case5 pos p cs _ _ _ ih => exact ih _ h
  | case6 pos p cs _ _ _ _ ih => exact ih _ h
  | case7 pos p cs _ _ _ _ _ ih =>
      cases hn : stringLength 0 cs with
      | error e =>
          rw [hn] at h
          cases h
      | ok n =>
          rw [hn] at h
          exact Nat.le_of_succ_le (ih n _ h)
  | case8 pos p c cs _ _ _ _ _ _ _ ih => exact ih h
  | case9 pos p cs _ _ _ _ _ _ _ ih => exact ih h
  | case10 pos p cs _ _ _ _ _ _ _ _ ih => exact ih _ h
  | case11 pos p c cs _ _ _ _ _ _ _ _ _ hstart ih =>
      cases hn : primitiveLength cs with
      | error e =>
          rw [hn] at h
          cases h
      | ok n =>
          rw [hn] at h
          exact Nat.le_of_succ_le (ih n _ h)
  | case12 => cases h

/-- A step, and the rest of the text by what the first pass makes of
it. -/
theorem StepOk.loop {numTokens mid pos : Nat} {cs : List UInt8} {r : Except JsmnErr JsmnParser}
    {q : JsmnParser} (hr : StepOk numTokens mid r)
    (hfirst : jsmnLoop none cs pos ⟨[], none, mid⟩ = .ok q)
    (ih : ∀ p, p.Ok → ∀ {q}, jsmnLoop none cs pos ⟨[], none, p.count⟩ = .ok q →
      StepOk numTokens q.count (jsmnLoop (some numTokens) cs pos p)) :
    StepOk numTokens q.count (r >>= jsmnLoop (some numTokens) cs pos) := by
  refine hr.bind (le_count_of_first cs pos ⟨[], none, mid⟩ hfirst) ?_
  intro p hp hcount
  exact ih p hp (by rw [hcount]; exact hfirst)

/-- **The second pass on a text that the first has counted.** -/
theorem jsmnLoop_ok (numTokens : Nat) (js : List UInt8) (pos : Nat) (p : JsmnParser) (h : p.Ok)
    {q : JsmnParser} (hfirst : jsmnLoop none js pos ⟨[], none, p.count⟩ = .ok q) :
    StepOk numTokens q.count (jsmnLoop (some numTokens) js pos p) := by
  fun_induction jsmnLoop (some numTokens) js pos p generalizing q with
  | case1 pos p =>
      rw [jsmnLoop_nil] at hfirst
      cases hfirst
      exact ⟨h, rfl⟩
  | case2 pos p =>
      rw [jsmnLoop_nul] at hfirst
      cases hfirst
      exact ⟨h, rfl⟩
  | case3 pos p cs _ ih =>
      rw [jsmnLoop_openObject] at hfirst
      exact (jsmnOpen_ok h numTokens .object pos).loop hfirst ih
  | case4 pos p cs _ _ ih =>
      rw [jsmnLoop_openArray] at hfirst
      exact (jsmnOpen_ok h numTokens .array pos).loop hfirst ih
  | case5 pos p cs _ _ _ ih =>
      rw [jsmnLoop_closeObject] at hfirst
      exact (jsmnClose_ok h numTokens .object pos).loop hfirst ih
  | case6 pos p cs _ _ _ _ ih =>
      rw [jsmnLoop_closeArray] at hfirst
      exact (jsmnClose_ok h numTokens .array pos).loop hfirst ih
  | case7 pos p cs _ _ _ _ _ ih =>
      rw [jsmnLoop_quote] at hfirst
      cases hn : stringLength 0 cs with
      | error e =>
          rw [hn] at hfirst
          cases hfirst
      | ok n =>
          rw [hn] at hfirst
          exact (jsmnLeaf_ok h numTokens .string (pos + 1) n).loop hfirst (ih n)
  | case8 pos p c cs _ _ _ _ _ _ hspace ih =>
      rw [jsmnLoop_space _ _ _ _ hspace] at hfirst
      exact ih h hfirst
  | case9 pos p cs _ _ _ _ _ _ _ ih =>
      rw [jsmnLoop_colon] at hfirst
      obtain ⟨hcolon, hcount⟩ := jsmnColon_ok h
      exact ih hcolon (by rw [hcount]; exact hfirst)
  | case10 pos p cs _ _ _ _ _ _ _ _ ih =>
      rw [jsmnLoop_comma] at hfirst
      exact (jsmnComma_ok h numTokens).loop hfirst ih
  | case11 pos p c cs _ _ _ _ _ _ _ _ _ hstart ih =>
      rw [jsmnLoop_primitive _ _ _ _ hstart] at hfirst
      cases hn : primitiveLength cs with
      | error e =>
          rw [hn] at hfirst
          cases hfirst
      | ok n =>
          rw [hn] at hfirst
          rcases h.superTakes (some numTokens) TakesPrimitive with htakes | hrefuses
          · rw [htakes]
            exact (jsmnLeaf_ok h numTokens .primitive pos (n + 1)).loop hfirst (ih n)
          · rw [hrefuses]
            trivial
  | case12 => trivial

/-- What a step that succeeds adds to the count. -/
def Adds (n : Nat) (p : JsmnParser) (r : Except JsmnErr JsmnParser) : Prop :=
  ∀ p', r = .ok p' → p'.count = p.count + n

theorem jsmnOpen_adds (num : Nat) (type : JsmnType) (pos : Nat) (p : JsmnParser) :
    Adds 1 p (jsmnOpen (some num) type pos p) := by
  intro p' h
  unfold jsmnOpen at h
  simp only [bind, Except.bind] at h
  split at h
  · cases h
  · split at h
    · cases h
    · split at h
      · cases h
      · cases h
        rfl

theorem jsmnLeaf_adds (num : Nat) (type : JsmnType) (start n : Nat) (p : JsmnParser) :
    Adds 1 p (jsmnLeaf (some num) type start n p) := by
  intro p' h
  unfold jsmnLeaf at h
  simp only [bind, Except.bind] at h
  split at h
  · cases h
  · split at h
    · cases h
    · cases h
      rfl

theorem jsmnClose_adds (num : Nat) (type : JsmnType) (pos : Nat) (p : JsmnParser) :
    Adds 0 p (jsmnClose (some num) type pos p) := by
  intro p' h
  unfold jsmnClose at h
  simp only [bind, Except.bind] at h
  split at h
  · cases h
  · split at h
    · cases h
    · split at h
      · cases h
        rfl
      · split at h
        · cases h
        · cases h
          rfl

theorem jsmnComma_adds (num : Nat) (p : JsmnParser) : Adds 0 p (jsmnComma (some num) p) := by
  intro p' h
  unfold jsmnComma at h
  simp only [bind, Except.bind] at h
  split at h
  · split at h
    · cases h
    · cases h
      split
      · rfl
      · rfl
  · cases h
    rfl

/-- A step and the rest of the text, seen by the first pass. -/
theorem Adds.first {num n : Nat} {cs : List UInt8} {pos : Nat} {p q : JsmnParser}
    {r : Except JsmnErr JsmnParser} (hr : Adds n p r)
    (ih : ∀ p', jsmnLoop (some num) cs pos p' = .ok q →
      jsmnLoop none cs pos ⟨[], none, p'.count⟩ = .ok ⟨[], none, q.count⟩)
    (h : r >>= jsmnLoop (some num) cs pos = .ok q) :
    jsmnLoop none cs pos ⟨[], none, p.count + n⟩ = .ok ⟨[], none, q.count⟩ := by
  cases r with
  | error e => cases h
  | ok p' =>
      rw [← hr p' rfl]
      exact ih p' h

/-- **A text that the second pass accepts is one that the first has
counted right.** -/
theorem jsmnLoop_first {num : Nat} (js : List UInt8) (pos : Nat) (p : JsmnParser) {q : JsmnParser}
    (h : jsmnLoop (some num) js pos p = .ok q) :
    jsmnLoop none js pos ⟨[], none, p.count⟩ = .ok ⟨[], none, q.count⟩ := by
  fun_induction jsmnLoop (some num) js pos p with
  | case1 pos p =>
      cases h
      rw [jsmnLoop_nil]
  | case2 pos p =>
      cases h
      rw [jsmnLoop_nul]
  | case3 pos p cs _ ih =>
      rw [jsmnLoop_openObject]
      exact (jsmnOpen_adds num _ pos p).first ih h
  | case4 pos p cs _ _ ih =>
      rw [jsmnLoop_openArray]
      exact (jsmnOpen_adds num _ pos p).first ih h
  | case5 pos p cs _ _ _ ih =>
      rw [jsmnLoop_closeObject]
      exact (jsmnClose_adds num _ pos p).first ih h
  | case6 pos p cs _ _ _ _ ih =>
      rw [jsmnLoop_closeArray]
      exact (jsmnClose_adds num _ pos p).first ih h
  | case7 pos p cs _ _ _ _ _ ih =>
      rw [jsmnLoop_quote]
      cases hn : stringLength 0 cs with
      | error e =>
          rw [hn] at h
          cases h
      | ok n =>
          rw [hn] at h
          exact (jsmnLeaf_adds num _ _ n p).first (ih n) h
  | case8 pos p c cs _ _ _ _ _ _ hspace ih =>
      rw [jsmnLoop_space _ _ _ _ hspace]
      exact ih h
  | case9 pos p cs _ _ _ _ _ _ _ ih =>
      rw [jsmnLoop_colon]
      exact ih h
  | case10 pos p cs _ _ _ _ _ _ _ _ ih =>
      rw [jsmnLoop_comma]
      exact (jsmnComma_adds num p).first ih h
  | case11 pos p c cs _ _ _ _ _ _ _ _ _ hstart ih =>
      rw [jsmnLoop_primitive _ _ _ _ hstart]
      cases hn : primitiveLength cs with
      | error e =>
          rw [hn] at h
          cases ht : superTakes (some num) p TakesPrimitive with
          | error e =>
              rw [ht] at h
              cases h
          | ok u =>
              rw [ht] at h
              cases h
      | ok n =>
          rw [hn] at h
          cases ht : superTakes (some num) p TakesPrimitive with
          | error e =>
              rw [ht] at h
              cases h
          | ok u =>
              rw [ht] at h
              exact (jsmnLeaf_adds num _ _ (n + 1) p).first (ih n) h
  | case12 => cases h

/-- The array is as long as it has to be: after a first pass that counts
`q.count` tokens, the second with as many at hand fills them all or fails
with one of the source's errors, and not for want of tokens. -/
theorem jsmnParse_ok {js : List UInt8} {q : JsmnParser} (hfirst : jsmnParse none js = .ok q) :
    (∃ p, jsmnParse (some q.count) js = .ok p ∧ p.Ok ∧ p.count = q.count) ∨
      jsmnParse (some q.count) js = .error .inval ∨ jsmnParse (some q.count) js = .error .part := by
  have hloop : jsmnLoop none js 0 ⟨[], none, 0⟩ = .ok q := (jsmnParse_eq_ok.mp hfirst).1
  have hsecond := jsmnLoop_ok q.count js 0 jsmnInit jsmnInit_ok hloop
  unfold jsmnParse
  cases hp : jsmnLoop (some q.count) js 0 jsmnInit with
  | error e =>
      rw [hp] at hsecond
      cases e with
      | noMem => exact absurd hsecond (Nat.lt_irrefl _)
      | inval => exact .inr (.inl rfl)
      | part => exact .inr (.inr rfl)
      | wild => exact hsecond.elim
  | ok p =>
      rw [hp] at hsecond
      simp only [bind, Except.bind]
      split
      · exact .inr (.inr rfl)
      · exact .inl ⟨p, rfl, hsecond⟩

/-! ## Walking over the tokens -/

/-- What a context keeps while it is used. -/
structure JparseCtx.Ok (c : JparseCtx) : Prop where
  cur : c.cur < c.tokens.length
  parent : ∀ (i : Nat) (t : JsmnTok) (q : Nat),
    c.tokens[i]? = some t → t.parent = some q → q < i
  balanced : Balanced JsmnTok.size c.tokens

theorem map_ne_wild {β γ : Type} {r : Except JsmnErr β} (f : β → γ) (h : r ≠ .error .wild) :
    r.map f ≠ .error .wild := by
  cases r with
  | error e =>
      intro he
      cases he
      exact h rfl
  | ok b => exact nofun

theorem primitiveLength_ne_wild (cs : List UInt8) : primitiveLength cs ≠ .error .wild := by
  fun_induction primitiveLength cs with
  | case5 c cs _ _ _ ih => exact map_ne_wild _ ih
  | _ => exact nofun

theorem stringLength_ne_wild (hex : Nat) (cs : List UInt8) :
    stringLength hex cs ≠ .error .wild := by
  fun_induction stringLength hex cs with
  | case3 hex c cs _ _ ih => exact map_ne_wild _ ih
  | case8 _ _ e cs _ ih => exact map_ne_wild _ ih
  | case9 _ _ cs _ ih => exact map_ne_wild _ ih
  | case11 c cs _ _ _ ih => exact map_ne_wild _ ih
  | _ => exact nofun

/-- The first pass has no tokens to miss. -/
theorem jsmnLoop_none_ne_wild (js : List UInt8) (pos : Nat) (p : JsmnParser) :
    jsmnLoop none js pos p ≠ .error .wild := by
  fun_induction jsmnLoop none js pos p with
  | case3 pos p cs _ ih => exact ih _
  | case4 pos p cs _ _ ih => exact ih _
  | case5 pos p cs _ _ _ ih => exact ih _
  | case6 pos p cs _ _ _ _ ih => exact ih _
  | case7 pos p cs _ _ _ _ _ ih =>
      have hne := stringLength_ne_wild 0 cs
      cases hn : stringLength 0 cs with
      | error e =>
          intro he
          cases he
          exact hne hn
      | ok n => exact ih n _
  | case8 pos p c cs _ _ _ _ _ _ _ ih => exact ih
  | case9 pos p cs _ _ _ _ _ _ _ ih => exact ih
  | case10 pos p cs _ _ _ _ _ _ _ _ ih => exact ih _
  | case11 pos p c cs _ _ _ _ _ _ _ _ _ _ ih =>
      have hne := primitiveLength_ne_wild cs
      cases hn : primitiveLength cs with
      | error e =>
          intro he
          cases he
          exact hne hn
      | ok n => exact ih n _
  | _ => exact nofun

theorem jsmnParse_none_ne_wild (js : List UInt8) : jsmnParse none js ≠ .error .wild := by
  have hne := jsmnLoop_none_ne_wild js 0 jsmnInit
  unfold jsmnParse
  cases hp : jsmnLoop none js 0 jsmnInit with
  | error e =>
      intro he
      cases he
      exact hne hp
  | ok p =>
      simp only [bind, Except.bind]
      split
      · exact nofun
      · exact nofun

theorem jsonParseStart_ok (calloc : Bool) (js : List UInt8) :
    ∃ r, jsonParseStart calloc js = some r ∧
      ∀ c, r = some c → c.Ok ∧ c.js = js ∧ c.cur = 0 := by
  rw [jsonParseStart]
  cases hfirst : jsmnParse none js with
  | error e =>
      cases e with
      | wild => exact absurd hfirst (jsmnParse_none_ne_wild js)
      | noMem => exact ⟨none, rfl, nofun⟩
      | inval => exact ⟨none, rfl, nofun⟩
      | part => exact ⟨none, rfl, nofun⟩
  | ok counted =>
      dsimp only
      split
      · exact ⟨none, rfl, nofun⟩
      · next hcount =>
          split
          · exact ⟨none, rfl, nofun⟩
          · rcases jsmnParse_ok hfirst with ⟨p, hp, hok, hsame⟩ | hinval | hpart
            · rw [hp]
              dsimp only
              rw [if_neg (hsame ▸ hcount)]
              refine ⟨_, rfl, ?_⟩
              intro c hc
              cases hc
              refine ⟨⟨?_, hok.parent, hok.balanced⟩, rfl, rfl⟩
              have := hok.count
              show 0 < p.tokens.length
              omega
            · rw [hinval]
              exact ⟨none, rfl, nofun⟩
            · rw [hpart]
              exact ⟨none, rfl, nofun⟩

/-- The tokens that are searched lie behind one another in the array. -/
theorem searchFrom_ok {js : List UInt8} {tokens : List JsmnTok} (key : List UInt8) (size : Nat)
    {tok : Nat}
    (hroom : children JsmnTok.size tokens (tok + 1) + size + (tok + 1) ≤ tokens.length) :
    ∃ r, searchFrom js tokens key size tok = some r ∧
      ∀ i, r = some i → ∃ t, tokens[i]? = some t ∧ tokenMatchesStr js t key := by
  induction size generalizing tok with
  | zero => exact ⟨none, rfl, fun i hi => by cases hi⟩
  | succ size ih =>
      have hlt : tok + 1 < tokens.length := by omega
      have ht : tokens[tok + 1]? = some tokens[tok + 1] := List.getElem?_eq_getElem hlt
      rw [searchFrom, ht, Option.bind_some]
      split
      · next hmatch =>
          refine ⟨some (tok + 1), rfl, ?_⟩
          intro i hi
          cases hi
          exact ⟨_, ht, hmatch⟩
      · obtain ⟨j, hj, hle, hjlt, hsum⟩ :=
          skipNode_spec JsmnTok.size tokens.length hlt (by omega) (by omega)
        rw [jsonSkipElem_eq, hj, Option.bind_some]
        exact ih (by omega)

theorem jsonObjSearch_ok {c : JparseCtx} (h : c.Ok) (key : List UInt8) :
    ∃ r, jsonObjSearch c key = some r ∧
      ∀ i, r = some i → ∃ t, c.tokens[i]? = some t ∧ tokenMatchesStr c.js t key := by
  have hcur := h.cur
  have ht : c.tokens[c.cur]? = some c.tokens[c.cur] := List.getElem?_eq_getElem hcur
  rw [jsonObjSearch, ht, Option.bind_some]
  split
  · exact ⟨none, rfl, fun i hi => by cases hi⟩
  · split
    · exact ⟨none, rfl, fun i hi => by cases hi⟩
    · have hroom := h.balanced c.cur h.cur
      have hsplit := children_eq JsmnTok.size ht
      exact searchFrom_ok key _ (by omega)

/-- The name of the last token, the only one whose value would lie
outside. -/
def JparseCtx.LastIs (c : JparseCtx) (name : List UInt8) : Prop :=
  ∃ t, c.tokens.getLast? = some t ∧ tokenMatchesStr c.js t name

/-- **The value of a key lies inside**, unless the key is the last
token. -/
theorem jsonObjGetValTok_ok {c : JparseCtx} (h : c.Ok) (name : List UInt8) (type : JsmnType) :
    (∃ r, jsonObjGetValTok c name type = some r ∧ ∀ i, r = some i → i < c.tokens.length) ∨
      (jsonObjGetValTok c name type = none ∧ c.LastIs name) := by
  obtain ⟨r, hr, hin⟩ := jsonObjSearch_ok h name
  rw [jsonObjGetValTok, hr, Option.bind_some]
  cases r with
  | none => exact .inl ⟨none, rfl, fun i hi => by cases hi⟩
  | some tok =>
      dsimp only
      obtain ⟨t, ht, hmatch⟩ := hin tok rfl
      have hlt := (List.getElem?_eq_some_iff.mp ht).1
      cases hval : c.tokens[tok + 1]? with
      | none =>
          refine .inr ⟨rfl, t, ?_, hmatch⟩
          have hge := List.getElem?_eq_none_iff.mp hval
          rw [List.getLast?_eq_getElem?, ← ht]
          congr 1
          omega
      | some v =>
          left
          rw [Option.bind_some]
          split
          · exact ⟨none, rfl, fun i hi => by cases hi⟩
          · refine ⟨some (tok + 1), rfl, ?_⟩
            intro i hi
            cases hi
            exact (List.getElem?_eq_some_iff.mp hval).1

theorem jsonObjGet_ok {c : JparseCtx} (h : c.Ok) {name : List UInt8} (type : JsmnType) {β : Type}
    (value : JsmnTok → Option β) (hlast : ¬ c.LastIs name) :
    ∃ r, jsonObjGet c name type value = some r := by
  rcases jsonObjGetValTok_ok h name type with ⟨r, hr, hin⟩ | ⟨-, hkey⟩
  · rw [jsonObjGet, hr, Option.bind_some]
    cases r with
    | none => exact ⟨none, rfl⟩
    | some i =>
        dsimp only
        rw [List.getElem?_eq_getElem (hin i rfl)]
        exact ⟨_, rfl⟩
  · exact absurd hkey hlast

theorem jsonObjGetObject_ok {c : JparseCtx} (h : c.Ok) {name : List UInt8}
    (hlast : ¬ c.LastIs name) :
    ∃ r, jsonObjGetObject c name = some r ∧
      ∀ c', r = some c' → c'.Ok ∧ c'.js = c.js ∧ c'.tokens = c.tokens := by
  rcases jsonObjGetValTok_ok h name .object with ⟨r, hr, hin⟩ | ⟨-, hkey⟩
  · rw [jsonObjGetObject, hr]
    refine ⟨_, rfl, ?_⟩
    intro c' hc'
    obtain ⟨i, hi, rfl⟩ := Option.map_eq_some_iff.mp hc'
    exact ⟨⟨hin i hi, h.parent, h.balanced⟩, rfl, rfl⟩
  · exact absurd hkey hlast

theorem leaveToken_ok {c : JparseCtx} (h : c.Ok) :
    ∃ b c', leaveToken c = some (b, c') ∧ c'.Ok ∧ c'.js = c.js ∧ c'.tokens = c.tokens := by
  have hcur := h.cur
  rw [leaveToken, List.getElem?_eq_getElem hcur, Option.map_some]
  cases hq : c.tokens[c.cur].parent with
  | none => exact ⟨false, c, rfl, h, rfl, rfl⟩
  | some q =>
      have hlt := h.parent c.cur _ q (List.getElem?_eq_getElem h.cur) hq
      exact ⟨true, _, rfl, ⟨Nat.lt_trans hlt h.cur, h.parent, h.balanced⟩, rfl, rfl⟩

theorem jsonObjLeaveObject_ok {c : JparseCtx} (h : c.Ok) :
    ∃ r, jsonObjLeaveObject c = some r ∧ r.2.Ok ∧ r.2.js = c.js ∧ r.2.tokens = c.tokens := by
  obtain ⟨b, c₁, h₁, hok₁, hjs₁, htokens₁⟩ := leaveToken_ok h
  rw [jsonObjLeaveObject, h₁, Option.bind_some]
  cases b with
  | false => exact ⟨_, rfl, hok₁, hjs₁, htokens₁⟩
  | true =>
      obtain ⟨b, c₂, h₂, hok₂, hjs₂, htokens₂⟩ := leaveToken_ok hok₁
      exact ⟨_, h₂, hok₂, hjs₂.trans hjs₁, htokens₂.trans htokens₁⟩

end LiveWireSwitch
