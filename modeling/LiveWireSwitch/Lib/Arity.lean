import Mathlib.Algebra.BigOperators.Group.List.Basic
import Mathlib.Algebra.Ring.Nat
import Mathlib.Data.List.Basic

/-!
# Arity — trees in prefix notation

A tree laid out in a list, a node before its children, each node with the
number of its children (its arity). `skipNode` finds the end of a subtree
by counting. Two things are known of such lists here: `Complete` ones are
built from whole trees, and `skipNode` finds exactly their ends; `Balanced`
ones need only have no node with more children than there are nodes after
it to be them, taken over every suffix, and `skipNode` stays inside them.
-/

namespace LiveWireSwitch.Lib

universe u

/-! ## Skipping -/

/-- Skip `cnt` nodes, one after the other, from the one after `cur` on. -/
def skipEach (skip : Nat → Option Nat) : (cnt : Nat) → (cur : Nat) → Option Nat
  | 0, cur => some cur
  | cnt + 1, cur => (skip (cur + 1)).bind (skipEach skip cnt)

section Skip

variable {τ : Type u} (arity : τ → Nat)

/-- The last node of the subtree at `i`; `none` where the list ends
first. `depth` bounds the height of the subtree. -/
def skipNode (l : List τ) : (depth : Nat) → (i : Nat) → Option Nat
  | 0, _ => none
  | depth + 1, i => l[i]?.bind fun t => skipEach (skipNode l depth) (arity t) i

theorem skipNode_succ {l : List τ} {depth i : Nat} {t : τ} (h : l[i]? = some t) :
    skipNode arity l (depth + 1) i = skipEach (skipNode arity l depth) (arity t) i := by
  rw [skipNode, h]
  rfl

/-! ## Balanced lists -/

/-- The children from node `i` on. -/
def children (l : List τ) (i : Nat) : Nat := ((l.drop i).map arity).sum

/-- From every node on there are fewer children than nodes. -/
def Balanced (l : List τ) : Prop := ∀ i, i < l.length → children arity l i + i < l.length

theorem children_eq {l : List τ} {i : Nat} {t : τ} (h : l[i]? = some t) :
    children arity l i = arity t + children arity l (i + 1) := by
  obtain ⟨hi, rfl⟩ := List.getElem?_eq_some_iff.mp h
  rw [children, children, List.drop_eq_getElem_cons hi, List.map_cons, List.sum_cons]

/-- Skipping `cnt` nodes passes as many children as nodes, less `cnt`. -/
theorem skipEach_spec {l : List τ} {depth : Nat}
    (hskip : ∀ i, i < l.length → l.length ≤ depth + i → children arity l i + i < l.length →
      ∃ j, skipNode arity l depth i = some j ∧ i ≤ j ∧ j < l.length ∧
        children arity l i = children arity l (j + 1) + (j - i))
    (cnt cur : Nat) (hdepth : l.length ≤ depth + (cur + 1))
    (hroom : children arity l (cur + 1) + cnt + (cur + 1) ≤ l.length) :
    ∃ j, skipEach (skipNode arity l depth) cnt cur = some j ∧ cur ≤ j ∧ j < l.length ∧
      children arity l (cur + 1) + cnt = children arity l (j + 1) + (j - cur) := by
  induction cnt generalizing cur with
  | zero => exact ⟨cur, rfl, Nat.le_refl _, by omega, by omega⟩
  | succ cnt ih =>
      obtain ⟨m, hm, hle, hlt, hsum⟩ := hskip (cur + 1) (by omega) hdepth (by omega)
      obtain ⟨j, hj, hmj, hjlt, hsum'⟩ := ih m (by omega) (by omega)
      refine ⟨j, ?_, by omega, hjlt, by omega⟩
      rw [skipEach, hm]
      exact hj

/-- **Skipping stays inside.** -/
theorem skipNode_spec {l : List τ} (depth : Nat) {i : Nat} (hi : i < l.length)
    (hdepth : l.length ≤ depth + i) (hroom : children arity l i + i < l.length) :
    ∃ j, skipNode arity l depth i = some j ∧ i ≤ j ∧ j < l.length ∧
      children arity l i = children arity l (j + 1) + (j - i) := by
  induction depth generalizing i with
  | zero => omega
  | succ depth ih =>
      have ht : l[i]? = some l[i] := List.getElem?_eq_getElem hi
      have hsplit := children_eq arity ht
      obtain ⟨j, hj, hle, hlt, hsum⟩ :=
        skipEach_spec arity (fun i => ih) (arity l[i]) i (by omega) (by omega)
      refine ⟨j, ?_, hle, hlt, by omega⟩
      rw [skipNode_succ arity ht]
      exact hj

theorem balanced_nil : Balanced arity ([] : List τ) := by
  intro i hi
  cases hi

/-- A new node without children. -/
theorem Balanced.concat {l : List τ} (h : Balanced arity l) {t : τ} (ht : arity t = 0) :
    Balanced arity (l ++ [t]) := by
  intro i hi
  rw [List.length_append, List.length_singleton] at hi ⊢
  rcases Nat.lt_succ_iff_lt_or_eq.mp hi with hlt | rfl
  · have := h i hlt
    have hsame : children arity (l ++ [t]) i = children arity l i := by
      rw [children, children, List.drop_append_of_le_length (by omega), List.map_append,
        List.sum_append]
      simp [ht]
    omega
  · have hzero : children arity (l ++ [t]) l.length = 0 := by
      rw [children, List.drop_left]
      simp [ht]
    omega

/-- One node gets one more child. -/
theorem sum_map_modify {l : List τ} {f : τ → τ} (hf : ∀ t, arity (f t) = arity t + 1) {s : Nat}
    (hs : s < l.length) : ((l.modify s f).map arity).sum = (l.map arity).sum + 1 := by
  induction l generalizing s with
  | nil => cases hs
  | cons t l ih =>
      cases s with
      | zero =>
          rw [List.modify_zero_cons, List.map_cons, List.sum_cons, List.map_cons, List.sum_cons, hf]
          omega
      | succ s =>
          rw [List.modify_succ_cons, List.map_cons, List.sum_cons, List.map_cons, List.sum_cons,
            ih (Nat.lt_of_succ_lt_succ hs)]
          omega

/-- A new node that becomes a child of node `s`. -/
theorem Balanced.adopt {l : List τ} (h : Balanced arity l) {t : τ} (ht : arity t = 0) {s : Nat}
    (hs : s < l.length) {f : τ → τ} (hf : ∀ t, arity (f t) = arity t + 1) :
    Balanced arity ((l ++ [t]).modify s f) := by
  intro i hi
  have hall := h.concat arity ht
  rw [List.length_modify] at hi ⊢
  rcases Nat.lt_or_ge s i with hlt | hge
  · -- what comes after the parent is as before
    rw [children, List.drop_modify_of_lt _ _ _ _ hlt]
    exact hall i hi
  · have hsum : children arity ((l ++ [t]).modify s f) i = children arity l i + 1 := by
      have hs' : s - i < ((l ++ [t]).drop i).length := by
        rw [List.length_drop, List.length_append]
        omega
      rw [children, List.drop_modify_of_ge _ _ _ _ hge, sum_map_modify arity hf hs',
        List.drop_append_of_le_length (by omega), List.map_append, List.sum_append, children]
      simp [ht]
    have := h i (by omega)
    rw [hsum, List.length_append, List.length_singleton]
    omega

/-! ## Complete lists -/

/-- `l` lays out `k` whole trees. -/
inductive Complete : Nat → List τ → Prop where
  | nil : Complete 0 []
  | cons {t : τ} {below rest : List τ} {k : Nat} (hbelow : Complete (arity t) below)
      (hrest : Complete k rest) : Complete (k + 1) (t :: (below ++ rest))

/-- A single tree. -/
theorem Complete.node {t : τ} {below : List τ} (h : Complete arity (arity t) below) :
    Complete arity 1 (t :: below) := by
  have hnode : Complete arity 1 (t :: (below ++ [])) := .cons h .nil
  rwa [List.append_nil] at hnode

theorem Complete.append {k m : Nat} {l l' : List τ} (h : Complete arity k l)
    (h' : Complete arity m l') : Complete arity (k + m) (l ++ l') := by
  induction h with
  | nil => rwa [Nat.zero_add]
  | @cons t below rest k hbelow hrest _ ih =>
      rw [List.cons_append, List.append_assoc, Nat.add_right_comm]
      exact .cons hbelow ih

/-- **Skipping finds the end of a subtree.** After `k` whole trees laid
out behind node `cur`, the walk stands on the last of their nodes. -/
theorem skipEach_complete {k : Nat} {l : List τ} (h : Complete arity k l) (before after : List τ)
    (cur depth : Nat) (hcur : before.length = cur + 1) (hdepth : l.length ≤ depth) :
    skipEach (skipNode arity (before ++ l ++ after) depth) k cur = some (cur + l.length) := by
  induction h generalizing before after cur depth with
  | nil => rfl
  | @cons t below rest k hbelow hrest ihbelow ihrest =>
      rw [List.length_cons, List.length_append] at hdepth ⊢
      cases depth with
      | zero => omega
      | succ depth =>
          have hnode : (before ++ t :: (below ++ rest) ++ after)[cur + 1]? = some t := by
            rw [List.append_assoc, ← hcur, List.getElem?_append_right (Nat.le_refl _)]
            simp
          -- the node's own children, then its siblings
          have hin := ihbelow (before ++ [t]) (rest ++ after) (cur + 1) depth (by simp [hcur])
            (by omega)
          have hnext := ihrest (before ++ t :: below) after (cur + 1 + below.length) (depth + 1)
            (by simp [hcur]; omega) (by omega)
          rw [skipEach, skipNode_succ arity hnode]
          have hlist : before ++ t :: (below ++ rest) ++ after
              = before ++ [t] ++ below ++ (rest ++ after) := by simp
          have hlist' : before ++ t :: (below ++ rest) ++ after
              = before ++ t :: below ++ rest ++ after := by simp
          rw [hlist, hin, Option.bind_some, ← hlist, hlist', hnext]
          congr 1
          omega

/-- **Skipping a whole tree.** -/
theorem skipNode_complete {t : τ} {below : List τ} (h : Complete arity (arity t) below)
    (before after : List τ) {depth : Nat} (hdepth : below.length < depth) :
    skipNode arity (before ++ t :: below ++ after) depth before.length
      = some (before.length + below.length) := by
  cases depth with
  | zero => omega
  | succ depth =>
      have hnode : (before ++ t :: below ++ after)[before.length]? = some t := by
        rw [List.append_assoc, List.getElem?_append_right (Nat.le_refl _)]
        simp
      have hin := skipEach_complete arity h (before ++ [t]) after before.length depth (by simp)
        (by omega)
      rw [skipNode_succ arity hnode]
      simpa using hin

end Skip

end LiveWireSwitch.Lib
