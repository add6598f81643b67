import Mathlib.Data.List.Basic

/-!
# Feed — a stream that arrives in pieces

A reader asks for at most `n` elements of a stream and takes what has
arrived: some of them, none (nothing came in time), or an error. A `Feed`
is what a sequence of reads will meet, piece by piece; its `stream` is what
the pieces say when the cuts between them are forgotten.
-/

namespace LiveWireSwitch.Lib

universe u

/-- The pieces still to come: an error for `none`, a timeout for an empty
piece. -/
abbrev Feed (α : Type u) := List (Option (List α))

namespace Feed

variable {α : Type u}

/-- A read of at most `n` elements. It never goes past a cut. -/
def read (n : Nat) : Feed α → Option (List α) × Feed α
  | [] => (some [], [])
  | none :: f => (none, f)
  | some xs :: f =>
      (some (xs.take n), if xs.length ≤ n then f else some (xs.drop n) :: f)

/-- What the pieces say, errors and cuts forgotten. -/
def stream : Feed α → List α
  | [] => []
  | none :: f => stream f
  | some xs :: f => xs ++ stream f

/-- No read fails. -/
def Clean (f : Feed α) : Prop := none ∉ f

/-- What is left to read: every piece, and every element in one. -/
def weight (f : Feed α) : Nat := f.length + f.stream.length

@[simp] theorem stream_nil : stream ([] : Feed α) = [] := rfl

@[simp] theorem stream_none (f : Feed α) : stream (none :: f) = stream f := rfl

@[simp] theorem stream_some (xs : List α) (f : Feed α) :
    stream (some xs :: f) = xs ++ stream f := rfl

@[simp] theorem clean_nil : Clean ([] : Feed α) := by simp [Clean]

@[simp] theorem clean_some {xs : List α} {f : Feed α} : Clean (some xs :: f) ↔ Clean f := by
  simp [Clean]

@[simp] theorem not_clean_none {f : Feed α} : ¬ Clean (none :: f) := by simp [Clean]

theorem stream_append (f g : Feed α) : stream (f ++ g) = stream f ++ stream g := by
  induction f with
  | nil => rfl
  | cons p f ih =>
      cases p with
      | none => exact ih
      | some xs => rw [List.cons_append, stream_some, stream_some, ih, List.append_assoc]

theorem clean_append {f g : Feed α} : Clean (f ++ g) ↔ Clean f ∧ Clean g := by
  simp [Clean]

/-- **A read takes a prefix of the stream**, no longer than what it asks
for. One that brings nothing uses a piece up. -/
theorem read_of_clean {n : Nat} {f : Feed α} (h : Clean f) :
    ∃ got, (f.read n).1 = some got ∧ got.length ≤ n ∧ f.stream = got ++ (f.read n).2.stream ∧
      Clean (f.read n).2 ∧ (f.read n).2.length ≤ f.length ∧
      (0 < n → got = [] → 0 < f.weight → (f.read n).2.length < f.length) := by
  cases f with
  | nil => exact ⟨[], rfl, by simp, rfl, clean_nil,
        Nat.le_refl _, fun _ _ hf => absurd hf (by simp [weight])⟩
  | cons p f =>
      cases p with
      | none => exact absurd h not_clean_none
      | some xs =>
          have hclean : Clean f := clean_some.mp h
          by_cases hx : xs.length ≤ n
          · refine ⟨xs.take n, rfl, List.length_take_le n xs, ?_, ?_, ?_, ?_⟩
            · simp [read, if_pos hx, List.take_of_length_le hx]
            · simpa [read, if_pos hx] using hclean
            · simp [read, if_pos hx]
            · simp [read, if_pos hx]
          · refine ⟨xs.take n, rfl, List.length_take_le n xs, ?_, ?_, ?_, fun hn hnil => ?_⟩
            · simp [read, if_neg hx, ← List.append_assoc]
            · simpa [read, if_neg hx] using hclean
            · simp [read, if_neg hx]
            · have hlen : (xs.take n).length = 0 := by rw [hnil, List.length_nil]
              rw [List.length_take] at hlen
              omega

/-- No read comes too early. -/
def Prompt (f : Feed α) : Prop := some [] ∉ f

theorem Prompt.read {f : Feed α} (h : Prompt f) (n : Nat) : Prompt (f.read n).2 := by
  cases f with
  | nil => exact h
  | cons p f =>
      have hf : Prompt f := fun hmem => h (List.mem_cons_of_mem p hmem)
      cases p with
      | none => exact hf
      | some xs =>
          by_cases hx : xs.length ≤ n
          · simpa [Feed.read, if_pos hx] using hf
          · intro hmem
            simp only [Feed.read, if_neg hx, List.mem_cons, Option.some.injEq] at hmem
            obtain hnil | hmem := hmem
            · have hlen : (xs.drop n).length = 0 := by rw [← hnil, List.length_nil]
              rw [List.length_drop] at hlen
              omega
            · exact hf hmem

/-- A prompt feed gives something as long as it lasts. -/
theorem Prompt.read_ne_nil {f : Feed α} (h : Prompt f) (hne : f ≠ []) {n : Nat} (hn : 0 < n) :
    (f.read n).1 ≠ some [] := by
  cases f with
  | nil => exact absurd rfl hne
  | cons p f =>
      cases p with
      | none => simp [Feed.read]
      | some xs =>
          have hxs : xs ≠ [] := by
            rintro rfl
            exact h (by simp)
          have hlen := List.length_pos_of_ne_nil hxs
          intro hnil
          have htake : xs.take n = [] := Option.some.inj hnil
          have hlen' : (xs.take n).length = 0 := by rw [htake, List.length_nil]
          rw [List.length_take] at hlen'
          omega

/-- A read, whatever it brings, leaves less. -/
theorem weight_read_lt {n : Nat} (hn : 0 < n) {f : Feed α} (hf : f ≠ []) :
    (f.read n).2.weight < f.weight := by
  cases f with
  | nil => exact absurd rfl hf
  | cons p f =>
      cases p with
      | none => simp [Feed.read, Feed.weight]
      | some xs =>
          by_cases hx : xs.length ≤ n
          · simp only [Feed.read, Feed.weight, if_pos hx, List.length_cons, stream_some,
              List.length_append]
            omega
          · simp only [Feed.read, Feed.weight, if_neg hx, List.length_cons, stream_some,
              List.length_append, List.length_drop]
            omega

end Feed

end LiveWireSwitch.Lib
