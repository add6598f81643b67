import Mathlib.Algebra.Ring.Nat
import Mathlib.Data.List.Basic

/-!
# Pool — a list of parties of which one moves

Parties that run the same code are a list of places, a step of party `k`
a `set` at index `k`. What the others are at does not change, and the
number of parties at a place changes by the mover alone. Counting is
stated without subtraction, so that `omega` can use it.
-/

namespace LiveWireSwitch.Lib

universe u

variable {α : Type u} {l : List α} {k : Nat}

/-- After a move of `k` a party is the mover or where it was. -/
theorem getElem?_set_cases {x y : α} {j : Nat} (h : (l.set k x)[j]? = some y) :
    (j = k ∧ y = x) ∨ (j ≠ k ∧ l[j]? = some y) := by
  by_cases hjk : j = k
  · subst hjk
    rw [List.getElem?_set_self'] at h
    obtain ⟨z, -, rfl⟩ := Option.map_eq_some_iff.mp h
    exact .inl ⟨rfl, rfl⟩
  · rw [List.getElem?_set_ne (Ne.symm hjk)] at h
    exact .inr ⟨hjk, h⟩

theorem getElem?_set_of_getElem? {x y : α} (h : l[k]? = some x) :
    (l.set k y)[k]? = some y := by
  rw [List.getElem?_set_self (List.getElem?_eq_some_iff.mp h).1]

/-- What holds of everybody, and of the mover at its new place, holds
after the move. -/
theorem forall_mem_set {P : α → Prop} {x : α} (h : ∀ y ∈ l, P y) (hx : P x) :
    ∀ y ∈ l.set k x, P y := by
  intro y hy
  rcases List.mem_or_eq_of_mem_set hy with hy | rfl
  · exact h y hy
  · exact hx

/-- Of a place the mover does not go to, who is at it was there. -/
theorem mem_of_mem_set {P : α → Prop} {x y : α} (h : y ∈ l.set k x) (hy : P y) (hx : ¬ P x) :
    y ∈ l := by
  rcases List.mem_or_eq_of_mem_set h with hold | rfl
  · exact hold
  · exact absurd hy hx

/-- A party at the place is counted. -/
theorem countP_pos_of_getElem? {x : α} (h : l[k]? = some x) {p : α → Bool} (hp : p x = true) :
    0 < l.countP p :=
  List.countP_pos_iff.mpr ⟨x, List.mem_of_getElem? h, hp⟩

/-- **Counting after a move**: the mover leaves its old place and takes
its new one. -/
theorem countP_set_add {x : α} (h : l[k]? = some x) (p : α → Bool) (y : α) :
    (l.set k y).countP p + (p x).toNat = l.countP p + (p y).toNat := by
  obtain ⟨hk, hx⟩ := List.getElem?_eq_some_iff.mp h
  rw [List.countP_set hk, hx]
  cases hp : p x with
  | false => cases p y <;> simp
  | true =>
      have hpos := countP_pos_of_getElem? h hp
      cases p y <;> simp <;> omega

/-- Adding up after a move, for a measure of what is left to do. -/
theorem sum_map_set_add {x : α} (h : l[k]? = some x) (f : α → Nat) (y : α) :
    ((l.set k y).map f).sum + f x = (l.map f).sum + f y := by
  induction l generalizing k with
  | nil => cases h
  | cons z l ih =>
      cases k with
      | zero =>
          rw [List.getElem?_cons_zero, Option.some.injEq] at h
          rw [List.set_cons_zero, List.map_cons, List.map_cons, List.sum_cons, List.sum_cons, h]
          omega
      | succ k =>
          rw [List.getElem?_cons_succ] at h
          have htail := ih h
          rw [List.set_cons_succ, List.map_cons, List.map_cons, List.sum_cons, List.sum_cons]
          omega

/-- Where at most one party is counted, the one counted is the one. -/
theorem eq_of_countP_le_one {p : α → Bool} (h : l.countP p ≤ 1) {i j : Nat} {x y : α}
    (hx : l[i]? = some x) (hy : l[j]? = some y) (hpx : p x = true) (hpy : p y = true) : i = j := by
  induction l generalizing i j with
  | nil => cases hx
  | cons z l ih =>
      rw [List.countP_cons] at h
      cases i with
      | zero =>
          cases j with
          | zero => rfl
          | succ j =>
              rw [List.getElem?_cons_zero, Option.some.injEq] at hx
              rw [List.getElem?_cons_succ] at hy
              have hpos := countP_pos_of_getElem? hy hpy
              rw [hx, if_pos hpx] at h
              omega
      | succ i =>
          rw [List.getElem?_cons_succ] at hx
          cases j with
          | zero =>
              rw [List.getElem?_cons_zero, Option.some.injEq] at hy
              have hpos := countP_pos_of_getElem? hx hpx
              rw [hy, if_pos hpy] at h
              omega
          | succ j =>
              rw [List.getElem?_cons_succ] at hy
              rw [ih (by omega) hx hy]

theorem getElem?_append_cases {x y : α} {j : Nat} (h : (l ++ [x])[j]? = some y) :
    (j = l.length ∧ y = x) ∨ l[j]? = some y := by
  rw [List.getElem?_append] at h
  split at h
  · exact .inr h
  · rw [List.getElem?_singleton] at h
    split at h
    · cases h
      exact .inl ⟨by omega, rfl⟩
    · cases h

end LiveWireSwitch.Lib
