import Mathlib.Data.List.Basic

/-!
# Scan — a fixed window moved over a sequence

A scanner looks at the next `window` elements. When its test recognises
something there it emits it and moves on by `stride`; when it does not,
it moves on by one; when fewer than `window` elements are left it stops.
The one question asked here is what becomes of the result when the
sequence is cut into pieces that are scanned separately.
-/

namespace LiveWireSwitch.Lib

universe u v

/-- The test and its two lengths. A stride never jumps over the window,
and the test sees nothing beyond it. -/
structure Scanner (α : Type u) (β : Type v) where
  window : Nat
  stride : Nat
  hit : List α → Option β
  stride_pos : 0 < stride
  stride_le : stride ≤ window
  hit_take : ∀ xs, hit (xs.take window) = hit xs

namespace Scanner

variable {α : Type u} {β : Type v}

theorem window_pos (S : Scanner α β) : 0 < S.window :=
  Nat.lt_of_lt_of_le S.stride_pos S.stride_le

/-- The hits in `xs`, each with its offset counted from `i`. -/
def scanFrom (S : Scanner α β) (i : Nat) (xs : List α) : List (Nat × β) :=
  if S.window ≤ xs.length then
    match S.hit xs with
    | some b => (i, b) :: S.scanFrom (i + S.stride) (xs.drop S.stride)
    | none => S.scanFrom (i + 1) (xs.drop 1)
  else []
termination_by xs.length
decreasing_by
  all_goals
    have := S.window_pos
    have := S.stride_pos
    simp only [List.length_drop]
    omega

/-- The hits in `xs`. -/
def scan (S : Scanner α β) (xs : List α) : List β := (S.scanFrom 0 xs).map Prod.snd

variable {S : Scanner α β}

theorem scanFrom_short {i : Nat} {xs : List α} (h : xs.length < S.window) :
    S.scanFrom i xs = [] := by
  rw [scanFrom, if_neg (by omega)]

theorem scanFrom_hit {i : Nat} {xs : List α} {b : β} (h : S.window ≤ xs.length)
    (hb : S.hit xs = some b) :
    S.scanFrom i xs = (i, b) :: S.scanFrom (i + S.stride) (xs.drop S.stride) := by
  rw [scanFrom, if_pos h, hb]

theorem scanFrom_miss {i : Nat} {xs : List α} (h : S.window ≤ xs.length)
    (hb : S.hit xs = none) : S.scanFrom i xs = S.scanFrom (i + 1) (xs.drop 1) := by
  rw [scanFrom, if_pos h, hb]

/-- The test only sees the window, so it may be asked about the first
part of a sequence instead of the whole. -/
theorem hit_append {xs ys : List α} (h : S.window ≤ xs.length) :
    S.hit (xs ++ ys) = S.hit xs := by
  rw [← S.hit_take (xs ++ ys), ← S.hit_take xs, List.take_append_of_le_length h]

/-- Offsets are relative: counting from `i + d` shifts every hit by
`d`. -/
theorem scanFrom_shift (d : Nat) (i : Nat) (xs : List α) :
    S.scanFrom (i + d) xs = (S.scanFrom i xs).map fun h => (h.1 + d, h.2) := by
  induction i, xs using Scanner.scanFrom.induct (S := S) with
  | case1 i xs hlen b hb ih =>
      rw [scanFrom_hit hlen hb, scanFrom_hit hlen hb, List.map_cons, ← ih,
        Nat.add_right_comm]
  | case2 i xs hlen hb ih =>
      rw [scanFrom_miss hlen hb, scanFrom_miss hlen hb, ← ih, Nat.add_right_comm]
  | case3 i xs hlen =>
      rw [scanFrom_short (by omega), scanFrom_short (by omega), List.map_nil]

theorem map_snd_scanFrom (i : Nat) (xs : List α) :
    (S.scanFrom i xs).map Prod.snd = S.scan xs := by
  have h := S.scanFrom_shift i 0 xs
  rw [Nat.zero_add] at h
  rw [h, scan, List.map_map]
  rfl

/-! ## Cutting the sequence -/

/-- No hit has its window on both sides of offset `p`. -/
def Clear (hits : List (Nat × β)) (w p : Nat) : Prop :=
  ∀ h ∈ hits, p ≤ h.1 ∨ h.1 + w ≤ p

instance (hits : List (Nat × β)) (w p : Nat) : Decidable (Clear hits w p) :=
  inferInstanceAs (Decidable (∀ h ∈ hits, _))

/-- A rest too short for a window is walked off its end, one element at
a time, when no hit opens in it. -/
theorem scanFrom_short_append {i : Nat} {xs ys : List α} (hlen : xs.length < S.window)
    (hc : Clear (S.scanFrom i (xs ++ ys)) S.window (i + xs.length)) :
    S.scanFrom i (xs ++ ys) = S.scanFrom (i + xs.length) ys := by
  induction xs generalizing i with
  | nil => rfl
  | cons x xs ih =>
      rw [List.length_cons] at hlen hc ⊢
      rcases Nat.lt_or_ge (x :: xs ++ ys).length S.window with hshort | hfull
      · rw [scanFrom_short hshort, scanFrom_short]
        simp only [List.length_append, List.length_cons] at hshort
        omega
      · cases hb : S.hit (x :: xs ++ ys) with
        | some b =>
            -- a hit at `i` would straddle the cut
            rw [scanFrom_hit hfull hb] at hc
            have := hc (i, b) List.mem_cons_self
            omega
        | none =>
            rw [scanFrom_miss hfull hb] at hc ⊢
            rw [show i + (xs.length + 1) = i + 1 + xs.length by omega] at hc ⊢
            exact ih (by omega) hc

/-- **One cut**: where no hit of the whole straddles the cut, the two
parts scanned separately give the hits of the whole. -/
theorem scanFrom_append {i : Nat} {xs ys : List α}
    (hc : Clear (S.scanFrom i (xs ++ ys)) S.window (i + xs.length)) :
    S.scanFrom i (xs ++ ys) = S.scanFrom i xs ++ S.scanFrom (i + xs.length) ys := by
  have hs := S.stride_le
  have hs' := S.stride_pos
  induction i, xs using Scanner.scanFrom.induct (S := S) with
  | case1 i xs hlen b hb ih =>
      -- the window lies before the cut, so the whole has the same hit
      have hlen' : S.window ≤ (xs ++ ys).length := by simp only [List.length_append]; omega
      have hb' : S.hit (xs ++ ys) = some b := by rw [hit_append hlen, hb]
      have hoff : i + S.stride + (xs.drop S.stride).length = i + xs.length := by
        rw [List.length_drop]; omega
      rw [scanFrom_hit hlen' hb', List.drop_append_of_le_length (by omega)] at hc ⊢
      rw [hoff] at ih
      rw [scanFrom_hit hlen hb, ih (fun h hh => hc h (List.mem_cons_of_mem _ hh)),
        List.cons_append]
  | case2 i xs hlen hb ih =>
      have hlen' : S.window ≤ (xs ++ ys).length := by simp only [List.length_append]; omega
      have hb' : S.hit (xs ++ ys) = none := by rw [hit_append hlen, hb]
      have hoff : i + 1 + (xs.drop 1).length = i + xs.length := by
        rw [List.length_drop]; omega
      rw [scanFrom_miss hlen' hb', List.drop_append_of_le_length (by omega)] at hc ⊢
      rw [hoff] at ih
      rw [scanFrom_miss hlen hb, ih hc]
  | case3 i xs hlen =>
      -- no window fits before the cut any more
      have hnil : S.scanFrom i xs = [] := scanFrom_short (by omega)
      rw [hnil, List.nil_append]
      exact scanFrom_short_append (by omega) hc

/-- The offsets at which the pieces of a cut sequence end, counted from
`i`. -/
def cuts : Nat → List (List α) → List Nat
  | _, [] => []
  | i, c :: cs => (i + c.length) :: cuts (i + c.length) cs

theorem scanFrom_flatten {i : Nat} {cs : List (List α)}
    (hc : ∀ p ∈ cuts i cs, Clear (S.scanFrom i cs.flatten) S.window p) :
    (S.scanFrom i cs.flatten).map Prod.snd = cs.flatMap S.scan := by
  induction cs generalizing i with
  | nil =>
      have hnil : S.scanFrom i [] = [] := scanFrom_short S.window_pos
      rw [List.flatten_nil, hnil]
      rfl
  | cons c cs ih =>
      rw [List.flatten_cons] at hc ⊢
      have hhead := scanFrom_append (hc _ List.mem_cons_self)
      rw [hhead, List.map_append, map_snd_scanFrom, List.flatMap_cons, ih]
      intro p hp h hh
      refine hc p (List.mem_cons_of_mem _ hp) h ?_
      rw [hhead]
      exact List.mem_append_right _ hh

/-- **Any number of cuts**: scanning the pieces one by one gives the
hits of the whole, where no hit of the whole straddles a cut. -/
theorem scan_flatten {cs : List (List α)}
    (hc : ∀ p ∈ cuts 0 cs, Clear (S.scanFrom 0 cs.flatten) S.window p) :
    S.scan cs.flatten = cs.flatMap S.scan := scanFrom_flatten hc

end Scanner

end LiveWireSwitch.Lib
