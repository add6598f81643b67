import LiveWireSwitch.AppUart.DealWith

/-!
# AppUart — LoopBounds

The `for` loop of `uart_deal_with` as what it does to its index, an
eight-bit one compared in `int` with `num - 4`, and to which bytes it
reads. `DealWith` bounds its loop by a number of passes; here it is
shown that the bound is never met, and that what the loop does depends on
the bytes it reads and no others.
-/

namespace LiveWireSwitch

section

variable (str : List UInt8) (num : UInt8)

/-- `i += 4` after a header, `i++` otherwise. -/
def stride (i : UInt8) : UInt8 := if headerAt str i.toNat then 4 else 1

/-- One pass: the loop test, and the index it leaves. -/
def nextIndex (i : UInt8) : Option UInt8 :=
  if inBuffer num i then some (i + stride str i) else none

/-- The offsets of the bytes a pass reads: two for its trace and the
header test, and behind a header the command and its data byte (which is
left unread behind a command that is not known). -/
def bytesRead (i : UInt8) : List Nat :=
  if inBuffer num i then
    if headerAt str i.toNat then [i.toNat, i.toNat + 1, i.toNat + 2, i.toNat + 3]
    else [i.toNat, i.toNat + 1]
  else []

/-- The index after `n` passes, `none` if there are not that many. -/
def indexAfter : Nat → Option UInt8
  | 0 => some 0
  | n + 1 => (indexAfter n).bind (nextIndex str num)

/-- The loop ends, no pass wraps the index around, and every byte read
lies below `num`. -/
structure ScanSafe : Prop where
  terminates : ∃ n i, n ≤ num.toNat ∧ indexAfter str num n = some i ∧ nextIndex str num i = none
  noWrap : ∀ n i j, indexAfter str num n = some i → nextIndex str num i = some j →
    j.toNat = i.toNat + (stride str i).toNat
  inBounds : ∀ n i, indexAfter str num n = some i → ∀ k ∈ bytesRead str num i, k < num.toNat

end

section Passes

variable {str : List UInt8} {num : UInt8}

theorem stride_cases (str : List UInt8) (i : UInt8) :
    (stride str i).toNat = 4 ∨ (stride str i).toNat = 1 := by
  rw [stride]
  split
  · exact .inl rfl
  · exact .inr rfl

/-- **A pass** advances the index by its stride. -/
theorem nextIndex_some {i j : UInt8} (h : nextIndex str num i = some j) :
    inBuffer num i ∧ j.toNat = i.toNat + (stride str i).toNat := by
  rw [nextIndex] at h
  split at h
  · next hin =>
      cases h
      refine ⟨hin, toNat_add_of_inBuffer hin ?_⟩
      rcases stride_cases str i with hs | hs <;> omega
  · cases h

theorem bytesRead_lt {i : UInt8} {k : Nat} (h : k ∈ bytesRead str num i) : k < num.toNat := by
  rw [bytesRead] at h
  split at h
  · next hin =>
      rw [inBuffer_iff] at hin
      split at h <;> simp at h <;> omega
  · cases h

/-- Every pass advances the index, and leaves it below `num`. -/
theorem le_indexAfter {n : Nat} {i : UInt8} (h : indexAfter str num n = some i) :
    n ≤ i.toNat ∧ i.toNat ≤ num.toNat := by
  induction n generalizing i with
  | zero =>
      cases h
      exact ⟨Nat.le_refl 0, Nat.zero_le _⟩
  | succ n ih =>
      obtain ⟨m, hm, hi⟩ := Option.bind_eq_some_iff.mp h
      obtain ⟨hin, hadd⟩ := nextIndex_some hi
      have hbefore := ih hm
      rw [inBuffer_iff] at hin
      rcases stride_cases str m with hs | hs <;> omega

/-- The loop makes at most `num` passes. -/
theorem exists_last_pass (str : List UInt8) (num : UInt8) :
    ∃ n i, n ≤ num.toNat ∧ indexAfter str num n = some i ∧ nextIndex str num i = none := by
  by_contra hnone
  -- otherwise every pass up to number `num` would be followed by another
  have hgoes : ∀ n, n ≤ num.toNat + 1 → ∃ i, indexAfter str num n = some i := by
    intro n
    induction n with
    | zero => exact fun _ => ⟨0, rfl⟩
    | succ n ih =>
        intro hn
        obtain ⟨i, hi⟩ := ih (by omega)
        cases hnext : nextIndex str num i with
        | none => exact absurd ⟨n, i, by omega, hi, hnext⟩ hnone
        | some j => exact ⟨j, by rw [indexAfter, hi, Option.bind_some, hnext]⟩
  obtain ⟨i, hi⟩ := hgoes (num.toNat + 1) (Nat.le_refl _)
  have hbounds := le_indexAfter hi
  omega

end Passes

/-! ## The loop makes these passes -/

/-- The loop of `DealWith` takes its index through these passes. -/
theorem uartDealWithFrom_succ (w : UInt8) (str : List UInt8) (num : UInt8) (passes : Nat)
    (i : UInt8) (l : Light) :
    uartDealWithFrom w str num (passes + 1) i l = match nextIndex str num i with
      | none => (l, [])
      | some j =>
          let r := if headerAt str i.toNat then dealFrame w (cmdAt str i.toNat) l else (l, [])
          let r' := uartDealWithFrom w str num passes j r.1
          (r'.1, r.2 ++ r'.2) := by
  rw [uartDealWithFrom, nextIndex, stride]
  by_cases hin : inBuffer num i
  · by_cases hh : headerAt str i.toNat
    · simp only [if_pos hin, if_pos hh]
    · simp only [if_pos hin, if_neg hh, List.nil_append]
  · simp only [if_neg hin]

/-- More passes than there are bytes left make no difference. -/
theorem uartDealWithFrom_enough (w : UInt8) (str : List UInt8) (num : UInt8) {passes more : Nat}
    {i : UInt8} (henough : num.toNat ≤ i.toNat + passes) (hmore : passes ≤ more) (l : Light) :
    uartDealWithFrom w str num more i l = uartDealWithFrom w str num passes i l := by
  induction passes generalizing more i l with
  | zero =>
      have hend : nextIndex str num i = none := by
        rw [nextIndex, if_neg]
        rw [inBuffer_iff]
        omega
      cases more with
      | zero => rfl
      | succ more =>
          rw [uartDealWithFrom_succ, hend]
          rfl
  | succ passes ih =>
      cases more with
      | zero => omega
      | succ more =>
          rw [uartDealWithFrom_succ, uartDealWithFrom_succ]
          cases hnext : nextIndex str num i with
          | none => rfl
          | some j =>
              obtain ⟨-, hadd⟩ := nextIndex_some hnext
              have hleft : num.toNat ≤ j.toNat + passes := by
                rcases stride_cases str i with hs | hs <;> omega
              simp only [ih hleft (Nat.le_of_succ_le_succ hmore)]

/-- **The bound on the passes is never met**: with any other bound from
`num` on `uart_deal_with` does the same. -/
theorem uartDealWith_of_passes (w : UInt8) (str : List UInt8) (num : UInt8) {passes : Nat}
    (h : num.toNat ≤ passes) (l : Light) :
    uartDealWithFrom w str num passes 0 l = uartDealWith w str num l := by
  have hnum := num.toNat_lt
  have hzero : (0 : UInt8).toNat = 0 := rfl
  have henough : num.toNat ≤ (0 : UInt8).toNat + num.toNat := by omega
  have hmax : num.toNat ≤ maxPasses := Nat.le_of_lt hnum
  rw [uartDealWithFrom_enough w str num henough h, uartDealWith,
    uartDealWithFrom_enough w str num henough hmax]

section Locality

variable {str str' : List UInt8} {num : UInt8}

/-- A pass is the same on a buffer that agrees on the bytes it reads. -/
theorem pass_local {i : UInt8} (hin : inBuffer num i)
    (h : ∀ k ∈ bytesRead str num i, byteAt str' k = byteAt str k) :
    (headerAt str' i.toNat ↔ headerAt str i.toNat) ∧
      (headerAt str i.toNat → cmdAt str' i.toNat = cmdAt str i.toNat) := by
  rw [bytesRead, if_pos hin] at h
  by_cases hh : headerAt str i.toNat
  · rw [if_pos hh] at h
    have h0 := h i.toNat (by simp)
    have h1 := h (i.toNat + 1) (by simp)
    have h2 := h (i.toNat + 2) (by simp)
    have h3 := h (i.toNat + 3) (by simp)
    rw [headerAt, headerAt, cmdAt, cmdAt, h0, h1, h2, h3]
    exact ⟨Iff.rfl, fun _ => rfl⟩
  · rw [if_neg hh] at h
    have h0 := h i.toNat (by simp)
    have h1 := h (i.toNat + 1) (by simp)
    refine ⟨?_, fun hbad => absurd hbad hh⟩
    rw [headerAt, headerAt, h0, h1]

/-- The loop, from any index it comes to. -/
theorem uartDealWithFrom_local (w : UInt8)
    (h : ∀ n i, indexAfter str num n = some i →
      ∀ k ∈ bytesRead str num i, byteAt str' k = byteAt str k)
    (passes : Nat) {n : Nat} {i : UInt8} (hi : indexAfter str num n = some i) (l : Light) :
    uartDealWithFrom w str' num passes i l = uartDealWithFrom w str num passes i l := by
  induction passes generalizing n i l with
  | zero => rfl
  | succ passes ih =>
      rw [uartDealWithFrom_succ, uartDealWithFrom_succ]
      by_cases hin : inBuffer num i
      · obtain ⟨hheader, hcmd⟩ := pass_local hin (h n i hi)
        have hnext : nextIndex str' num i = nextIndex str num i := by
          rw [nextIndex, nextIndex, stride, stride, if_congr hheader rfl rfl]
        rw [hnext]
        cases hj : nextIndex str num i with
        | none => rfl
        | some j =>
            have hafter : indexAfter str num (n + 1) = some j := by
              rw [indexAfter, hi, Option.bind_some, hj]
            dsimp only
            by_cases hh : headerAt str i.toNat
            · rw [if_pos hh, if_pos (hheader.mpr hh), hcmd hh, ih hafter]
            · rw [if_neg hh, if_neg (mt hheader.mp hh), ih hafter]
      · rw [nextIndex, nextIndex, if_neg hin, if_neg hin]

/-- **`uart_deal_with` depends on no other byte** than those its passes
read. -/
theorem uartDealWith_local (w : UInt8)
    (h : ∀ n i, indexAfter str num n = some i →
      ∀ k ∈ bytesRead str num i, byteAt str' k = byteAt str k) (l : Light) :
    uartDealWith w str' num l = uartDealWith w str num l :=
  uartDealWithFrom_local w h maxPasses (n := 0) rfl l

/-- Nor on one from `num` on. -/
theorem uartDealWith_below (w : UInt8)
    (h : ∀ k < num.toNat, byteAt str' k = byteAt str k) (l : Light) :
    uartDealWith w str' num l = uartDealWith w str num l :=
  uartDealWith_local w (fun _ _ _ k hk => h k (bytesRead_lt hk)) l

end Locality

/-- **The frame scanner is safe on any input.** `uartDealWithFrom_succ` and
`uartDealWith_of_passes` say that these are the passes of
`uart_deal_with`, and `uartDealWith_local` that it looks at no other
byte. -/
theorem scanner_safe (str : List UInt8) (num : UInt8) : ScanSafe str num where
  terminates := exists_last_pass str num
  noWrap := by
    intro n i j _ hj
    exact (nextIndex_some hj).2
  inBounds := by
    intro n i _ k hk
    exact bytesRead_lt hk

end LiveWireSwitch
