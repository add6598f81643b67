import Mathlib.Data.List.Basic

/-!
# Runs — executing a labelled partial step function

A system is a function `step : σ → α → Option σ`: the label names which
party moves and with which input, and `none` says that the move is not
enabled in that state. A run is a list of labels. This module has the
two questions asked of a run, "does `P` hold in every state it passes
through" (`Always`) and "does every step it takes meet a condition"
(`Guarded`), and the induction rules that connect them. A condition may
look at more of the past than the state keeps: `noting` adds a history.
-/

namespace LiveWireSwitch.Lib

universe u v

variable {σ : Type u} {α : Type v}

/-- The state after the labels of a run, `none` when one of them is not
enabled where the run reaches it. -/
def run (step : σ → α → Option σ) : σ → List α → Option σ
  | s, [] => some s
  | s, a :: as => (step s a).bind fun s' => run step s' as

/-- `P` holds in the start state and in every state the run reaches, up
to a label that is not enabled. -/
def Always (step : σ → α → Option σ) (P : σ → Prop) : σ → List α → Prop
  | s, [] => P s
  | s, a :: as => P s ∧ ∀ s' ∈ step s a, Always step P s' as

/-- Every step the run takes meets `ok` in the state it is taken from. -/
def Guarded (step : σ → α → Option σ) (ok : σ → α → Prop) : σ → List α → Prop
  | _, [] => True
  | s, a :: as => ∀ s' ∈ step s a, ok s a ∧ Guarded step ok s' as

section Basic

variable {step : σ → α → Option σ}

@[simp] theorem run_nil (s : σ) : run step s [] = some s := rfl

@[simp] theorem run_cons (s : σ) (a : α) (as : List α) :
    run step s (a :: as) = (step s a).bind fun s' => run step s' as := rfl

theorem run_cons_some {s s' : σ} {a : α} {as : List α} :
    run step s (a :: as) = some s' ↔ ∃ m, step s a = some m ∧ run step m as = some s' := by
  simp [Option.bind_eq_some_iff]

theorem run_append (s : σ) (as bs : List α) :
    run step s (as ++ bs) = (run step s as).bind fun m => run step m bs := by
  induction as generalizing s with
  | nil => rfl
  | cons a as ih =>
      rw [List.cons_append, run_cons, run_cons]
      cases step s a with
      | none => rfl
      | some m => exact ih m

@[simp] theorem always_nil {P : σ → Prop} (s : σ) : Always step P s [] ↔ P s := Iff.rfl

theorem Always.head {P : σ → Prop} {s : σ} {as : List α} (h : Always step P s as) : P s := by
  cases as with
  | nil => exact h
  | cons a as => exact h.1

@[simp] theorem always_cons {P : σ → Prop} {s : σ} {a : α} {as : List α} :
    Always step P s (a :: as) ↔ P s ∧ ∀ s' ∈ step s a, Always step P s' as := Iff.rfl

@[simp] theorem guarded_nil {ok : σ → α → Prop} (s : σ) : Guarded step ok s [] := trivial

@[simp] theorem guarded_cons {ok : σ → α → Prop} {s : σ} {a : α} {as : List α} :
    Guarded step ok s (a :: as) ↔ ∀ s' ∈ step s a, ok s a ∧ Guarded step ok s' as := Iff.rfl

/-- What guards a run guards what is left of it. -/
theorem Guarded.rest {ok : σ → α → Prop} {s m : σ} {as bs : List α}
    (h : Guarded step ok s (as ++ bs)) (hrun : run step s as = some m) :
    Guarded step ok m bs := by
  induction as generalizing s with
  | nil =>
      cases hrun
      exact h
  | cons a as ih =>
      obtain ⟨s', hs', hr⟩ := run_cons_some.mp hrun
      exact ih (h s' hs').2 hr

instance decidableGuarded {ok : σ → α → Prop} [∀ s a, Decidable (ok s a)] :
    (s : σ) → (as : List α) → Decidable (Guarded step ok s as)
  | _, [] => .isTrue trivial
  | s, a :: as =>
      match h : step s a with
      | none => .isTrue (by simp [h])
      | some m =>
          haveI : Decidable (Guarded step ok m as) := decidableGuarded m as
          decidable_of_iff (ok s a ∧ Guarded step ok m as) (by simp [h])

/-- `Always` says what its name says: `P` holds after every prefix of
the run. -/
theorem always_iff_prefix {P : σ → Prop} {s : σ} {as : List α} :
    Always step P s as ↔ ∀ bs, bs <+: as → ∀ s', run step s bs = some s' → P s' := by
  induction as generalizing s with
  | nil =>
      simp only [always_nil, List.prefix_nil]
      constructor
      · rintro h bs rfl s' hs'
        cases hs'
        exact h
      · intro h
        exact h [] rfl s rfl
  | cons a as ih =>
      simp only [always_cons, ih]
      constructor
      · rintro ⟨hs, h⟩ bs hbs s' hs'
        cases bs with
        | nil => cases hs'; exact hs
        | cons b bs =>
            obtain ⟨rfl, htail⟩ := List.cons_prefix_cons.mp hbs
            obtain ⟨m, hm, hr⟩ := run_cons_some.mp hs'
            exact h m hm bs htail s' hr
      · intro h
        refine ⟨h [] (List.nil_prefix) s rfl, fun m hm bs hbs s' hs' => ?_⟩
        exact h (a :: bs) (List.cons_prefix_cons.mpr ⟨rfl, hbs⟩) s'
          (run_cons_some.mpr ⟨m, hm, hs'⟩)

end Basic

/-! ## Induction rules -/

section Rules

variable {step : σ → α → Option σ} {I P : σ → Prop} {ok : σ → α → Prop}

/-- **The invariant rule.** -/
theorem run_invariant (hstep : ∀ s a s', I s → step s a = some s' → I s') {s s' : σ}
    {as : List α} (hI : I s) (h : run step s as = some s') : I s' := by
  induction as generalizing s with
  | nil => cases h; exact hI
  | cons a as ih =>
      obtain ⟨m, hm, hr⟩ := run_cons_some.mp h
      exact ih (hstep s a m hI hm) hr

/-- A property of every state that follows from an invariant. -/
theorem always_of_invariant (hP : ∀ s, I s → P s)
    (hstep : ∀ s a s', I s → step s a = some s' → I s') {s : σ} (as : List α) (hI : I s) :
    Always step P s as := by
  induction as generalizing s with
  | nil => exact hP s hI
  | cons a as ih => exact ⟨hP s hI, fun m hm => ih (hstep s a m hI hm)⟩

/-- A property of every step that follows from an invariant. -/
theorem guarded_of_invariant (hok : ∀ s a s', I s → step s a = some s' → ok s a)
    (hstep : ∀ s a s', I s → step s a = some s' → I s') {s : σ} (as : List α) (hI : I s) :
    Guarded step ok s as := by
  induction as generalizing s with
  | nil => trivial
  | cons a as ih => exact fun m hm => ⟨hok s a m hI hm, ih (hstep s a m hI hm)⟩

/-- `Always` for guarded runs. -/
theorem always_of_guarded (hP : ∀ s, I s → P s)
    (hstep : ∀ s a s', I s → ok s a → step s a = some s' → I s') {s : σ} {as : List α}
    (hI : I s) (hg : Guarded step ok s as) : Always step P s as := by
  induction as generalizing s with
  | nil => exact hP s hI
  | cons a as ih =>
      refine ⟨hP s hI, fun m hm => ?_⟩
      obtain ⟨hok, hg'⟩ := hg m hm
      exact ih (hstep s a m hI hok hm) hg'

/-- A property of every step of a guarded run. -/
theorem guarded_of_guarded {ok' : σ → α → Prop}
    (hok : ∀ s a s', I s → ok s a → step s a = some s' → ok' s a)
    (hstep : ∀ s a s', I s → ok s a → step s a = some s' → I s') {s : σ} {as : List α}
    (hI : I s) (hg : Guarded step ok s as) : Guarded step ok' s as := by
  induction as generalizing s with
  | nil => trivial
  | cons a as ih =>
      intro m hm
      obtain ⟨hsa, hg'⟩ := hg m hm
      exact ⟨hok s a m hI hsa hm, ih (hstep s a m hI hsa hm) hg'⟩

/-- **The exact rule.** Where, from a state that has the invariant and
the property, a step keeps the invariant and keeps the property exactly
when it meets `ok`, the property holds all along a run exactly when the
run is guarded. -/
theorem always_iff_guarded (hI : ∀ s a s', I s → step s a = some s' → I s')
    (hP : ∀ s a s', I s → P s → step s a = some s' → (P s' ↔ ok s a))
    {s : σ} (as : List α) (hIs : I s) (hPs : P s) :
    Always step P s as ↔ Guarded step ok s as := by
  induction as generalizing s with
  | nil => simp [hPs]
  | cons a as ih =>
      simp only [always_cons, guarded_cons, hPs, true_and]
      refine forall₂_congr fun m hm => ?_
      constructor
      · intro h
        have hPm : P m := h.head
        exact ⟨(hP s a m hIs hPs hm).mp hPm, (ih (hI s a m hIs hm) hPm).mp h⟩
      · rintro ⟨hok, hg⟩
        exact (ih (hI s a m hIs hm) ((hP s a m hIs hPs hm).mpr hok)).mpr hg

/-- Two conditions that agree in every step guard the same runs. -/
theorem guarded_congr {ok' : σ → α → Prop} (h : ∀ s a, ok s a ↔ ok' s a) {s : σ} (as : List α) :
    Guarded step ok s as ↔ Guarded step ok' s as := by
  induction as generalizing s with
  | nil => exact Iff.rfl
  | cons a as ih =>
      simp only [guarded_cons]
      exact forall₂_congr fun m _ => and_congr (h s a) ih

end Rules

/-! ## Simulation -/

/-- Where every step of one system is matched by a run of another, so is
every run. -/
theorem run_simulated {τ β : Type*} {step : σ → α → Option σ} {step' : τ → β → Option τ}
    {R : σ → τ → Prop}
    (hstep : ∀ s a s' t, R s t → step s a = some s' → ∃ bs t', run step' t bs = some t' ∧ R s' t')
    {s s' : σ} {t : τ} {as : List α} (hR : R s t) (hrun : run step s as = some s') :
    ∃ bs t', run step' t bs = some t' ∧ R s' t' := by
  induction as generalizing s t with
  | nil =>
      cases hrun
      exact ⟨[], t, rfl, hR⟩
  | cons a as ih =>
      obtain ⟨m, hm, hr⟩ := run_cons_some.mp hrun
      obtain ⟨bs, u, hu, hRu⟩ := hstep s a m t hR hm
      obtain ⟨cs, t', ht', hR'⟩ := ih hRu hr
      refine ⟨bs ++ cs, t', ?_, hR'⟩
      rw [run_append, hu]
      exact ht'

/-! ## History variables -/

section History

variable {η : Type*} {step : σ → α → Option σ} {note : σ → α → η → η}

/-- The system with a history beside its state: `note` looks at each
step before it is taken and the step does not look at the history. -/
def noting (step : σ → α → Option σ) (note : σ → α → η → η) (s : σ × η) (a : α) :
    Option (σ × η) :=
  (step s.1 a).map fun s' => (s', note s.1 a s.2)

theorem noting_eq_some {s s' : σ × η} {a : α} :
    noting step note s a = some s' ↔ step s.1 a = some s'.1 ∧ s'.2 = note s.1 a s.2 := by
  rw [noting, Option.map_eq_some_iff]
  constructor
  · rintro ⟨m, hm, rfl⟩
    exact ⟨hm, rfl⟩
  · rintro ⟨hm, hh⟩
    exact ⟨s'.1, hm, Prod.ext rfl hh.symm⟩

/-- A history changes nothing of what holds along a run. -/
theorem always_noting {P : σ → Prop} {s : σ} {h : η} (as : List α) :
    Always (noting step note) (fun q => P q.1) (s, h) as ↔ Always step P s as := by
  induction as generalizing s h with
  | nil => exact Iff.rfl
  | cons a as ih =>
      rw [always_cons, always_cons]
      refine and_congr Iff.rfl ?_
      constructor
      · intro hall m hm
        exact ih.mp (hall (m, note s a h) (noting_eq_some.mpr ⟨hm, rfl⟩))
      · intro hall m hm
        obtain ⟨hstep, hnote⟩ := noting_eq_some.mp hm
        obtain ⟨m, h'⟩ := m
        exact ih.mpr (hall m hstep)

end History

end LiveWireSwitch.Lib
