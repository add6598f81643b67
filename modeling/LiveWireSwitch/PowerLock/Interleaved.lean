import LiveWireSwitch.Lib.Pool
import LiveWireSwitch.PowerLock

/-!
# PowerLock — Interleaved

`stop_power_save` and `start_power_save` a statement at a time, for any
number of calls: each tests `lock_status`, assigns it, and only then
acquires or releases the `esp_pm` lock. Between its test and its
assignment a call relies on the status it has found, and a
`stop_power_save` relies on the status it has assigned until it has
acquired; from its assignment on, a `start_power_save` has only a
release to make, which may be late.
-/

namespace LiveWireSwitch

open Lib

/-! ## The two functions -/

inductive LockFn where
  | stopPowerSave
  | startPowerSave
deriving DecidableEq, Repr

/-- The statement a call is about to execute. -/
inductive LockPc where
  /-- `if (s_pm_cpu_lock != NULL && lock_status == ..)` -/
  | guard
  /-- `lock_status = ..` -/
  | assign
  /-- `esp_pm_lock_acquire` or `esp_pm_lock_release` -/
  | operate
  | returned
deriving DecidableEq, Repr

structure LockCall where
  fn : LockFn
  pc : LockPc
deriving DecidableEq, Repr

/-- The lock, the calls made so far, and whether an `ESP_ERROR_CHECK`
has aborted the firmware. -/
structure LockWorld where
  lock : PowerLock
  calls : List LockCall
  aborted : Bool
deriving DecidableEq

def LockWorld.boot : LockWorld := ⟨⟨false, 0, 0⟩, [], false⟩

/-- `app_pm_config` creates the lock, a task calls one of the functions,
or call `k` executes its next statement. -/
inductive LockAct where
  | create
  | enter (fn : LockFn)
  | call (k : Nat)
deriving DecidableEq, Repr

/-- Call `k` goes to its next statement. -/
def LockWorld.callTo (s : LockWorld) (k : Nat) (c : LockCall) (pc : LockPc) : LockWorld :=
  { s with calls := s.calls.set k { c with pc := pc } }

/-- The next statement of call `k`. Releasing a lock whose count is 0 is
an error. -/
def LockWorld.callStep (k : Nat) (s : LockWorld) : Option LockWorld :=
  match s.calls[k]? with
  | none => none
  | some c =>
    match c.pc, c.fn with
    | .guard, .stopPowerSave =>
        if s.lock.created ∧ s.lock.lockStatus = 0 then some (s.callTo k c .assign)
        else some (s.callTo k c .returned)
    | .guard, .startPowerSave =>
        if s.lock.created ∧ s.lock.lockStatus = 1 then some (s.callTo k c .assign)
        else some (s.callTo k c .returned)
    | .assign, .stopPowerSave =>
        some ({ s with lock := { s.lock with lockStatus := 1 } }.callTo k c .operate)
    | .assign, .startPowerSave =>
        some ({ s with lock := { s.lock with lockStatus := 0 } }.callTo k c .operate)
    | .operate, .stopPowerSave =>
        some ({ s with lock := { s.lock with count := s.lock.count + 1 } }.callTo k c .returned)
    | .operate, .startPowerSave =>
        if s.lock.count = 0 then some { s with aborted := true }
        else
          some ({ s with lock := { s.lock with count := s.lock.count - 1 } }.callTo k c .returned)
    | .returned, _ => none

/-- One statement; an aborted firmware executes none. -/
def lockStep (s : LockWorld) (a : LockAct) : Option LockWorld :=
  if s.aborted then none
  else match a with
    | .create => some { s with lock := { s.lock with created := true } }
    | .enter fn => some { s with calls := s.calls ++ [⟨fn, .guard⟩] }
    | .call k => s.callStep k

theorem lockStep_call {s : LockWorld} (h : s.aborted = false) (k : Nat) :
    lockStep s (.call k) = s.callStep k := by
  unfold lockStep
  rw [if_neg (by rw [h]; exact Bool.noConfusion)]

/-- A call that nobody interrupts is `stopPowerSave`. -/
theorem run_stopPowerSave {s : LockWorld} (hrunning : s.aborted = false) :
    ∃ n, run lockStep s (.enter .stopPowerSave :: List.replicate n (.call s.calls.length))
      = some { s with
        lock := stopPowerSave s.lock
        calls := s.calls ++ [⟨.stopPowerSave, .returned⟩] } := by
  by_cases hpass : s.lock.created ∧ s.lock.lockStatus = 0
  · refine ⟨3, ?_⟩
    simp [List.replicate, lockStep, LockWorld.callStep, LockWorld.callTo, stopPowerSave, hrunning,
      hpass]
  · refine ⟨1, ?_⟩
    simp only [List.replicate, run_cons, lockStep, LockWorld.callStep, LockWorld.callTo,
      stopPowerSave, hrunning, if_neg hpass]
    simp [hpass]

/-- A call that nobody interrupts is `startPowerSave`, its abort
included. -/
theorem run_startPowerSave {s : LockWorld} (hrunning : s.aborted = false) :
    ∃ n s', run lockStep s (.enter .startPowerSave :: List.replicate n (.call s.calls.length))
        = some s' ∧
      match startPowerSave s.lock with
      | none => s'.aborted = true
      | some lock => s' = { s with
          lock := lock
          calls := s.calls ++ [⟨.startPowerSave, .returned⟩] } := by
  by_cases hpass : s.lock.created ∧ s.lock.lockStatus = 1
  · by_cases hfree : s.lock.count = 0
    · refine ⟨3, { s with
        lock := { s.lock with lockStatus := 0 }
        calls := s.calls ++ [⟨.startPowerSave, .operate⟩]
        aborted := true }, ?_, ?_⟩
      · simp [List.replicate, lockStep, LockWorld.callStep, LockWorld.callTo, hrunning, hpass,
          hfree]
      · simp [startPowerSave, hpass, hfree]
    · refine ⟨3, { s with
        lock := { s.lock with lockStatus := 0, count := s.lock.count - 1 }
        calls := s.calls ++ [⟨.startPowerSave, .returned⟩] }, ?_, ?_⟩
      · simp [List.replicate, lockStep, LockWorld.callStep, LockWorld.callTo, hrunning, hpass,
          hfree]
      · simp [startPowerSave, hpass, hfree]
  · refine ⟨1, { s with calls := s.calls ++ [⟨.startPowerSave, .returned⟩] }, ?_, ?_⟩
    · simp only [List.replicate, run_cons, lockStep, LockWorld.callStep, LockWorld.callTo,
        hrunning]
      simp [hpass]
    · simp [startPowerSave, hpass]

/-- No release was executed with count 0, and at rest the count is the
status. -/
structure LockWorld.Sound (s : LockWorld) : Prop where
  running : s.aborted = false
  rest : (∀ c ∈ s.calls, c.pc = .returned) → s.lock.count = s.lock.lockStatus.toNat

/-! ## What a call relies on -/

/-- The `lock_status` that a call past its guard counts on, until its
assignment and its acquire are done. -/
def LockCall.relies : LockCall → Option UInt8
  | ⟨.stopPowerSave, .assign⟩ => some 0
  | ⟨.stopPowerSave, .operate⟩ => some 1
  | ⟨.startPowerSave, .assign⟩ => some 1
  | _ => none

/-- The call finds the status its guard asks for. -/
def LockWorld.Passes (s : LockWorld) (c : LockCall) : Prop :=
  s.lock.created = true ∧ s.lock.lockStatus = match c.fn with
    | .stopPowerSave => 0
    | .startPowerSave => 1

instance (s : LockWorld) (c : LockCall) : Decidable (s.Passes c) :=
  inferInstanceAs (Decidable (_ ∧ _))

/-- A call passes its guard only when every other call past its own is a
`start_power_save` with nothing but its release left. -/
def PassesAlone (s : LockWorld) : LockAct → Prop
  | .call k => ∀ c ∈ s.calls[k]?, c.pc = .guard → s.Passes c → ∀ d ∈ s.calls, d.relies = none
  | _ => True

instance : (s : LockWorld) → (a : LockAct) → Decidable (PassesAlone s a)
  | _, .create => .isTrue trivial
  | _, .enter _ => .isTrue trivial
  | s, .call k =>
      match h : s.calls[k]? with
      | none => .isTrue (by simp [PassesAlone, h])
      | some c =>
          decidable_of_iff (c.pc = .guard → s.Passes c → ∀ d ∈ s.calls, d.relies = none)
            (by simp [PassesAlone, h])

/-- A `stop_power_save` that has assigned and not acquired. -/
def LockCall.acquiring (c : LockCall) : Bool := decide (c = ⟨.stopPowerSave, .operate⟩)

/-- A `start_power_save` that has assigned and not released. -/
def LockCall.releasing (c : LockCall) : Bool := decide (c = ⟨.startPowerSave, .operate⟩)

/-- At most one call relies on the status, which is what that call
relies on; and the count is the status, less the acquire and plus the
releases that are still to come, and `n` more. -/
structure Balanced (n : Nat) (s : LockWorld) : Prop where
  running : s.aborted = false
  alone : s.calls.countP (fun c => c.relies.isSome) ≤ 1
  relied : ∀ c ∈ s.calls, ∀ v, c.relies = some v → s.lock.lockStatus = v
  account : s.lock.count + s.calls.countP LockCall.acquiring
    = s.lock.lockStatus.toNat + s.calls.countP LockCall.releasing + n

/-- The steps of a call at `c`. -/
inductive LockMove (s : LockWorld) (k : Nat) (c : LockCall) : LockWorld → Prop where
  | pass (at_pc : c.pc = .guard) (passes : s.Passes c) : LockMove s k c (s.callTo k c .assign)
  | skip (at_pc : c.pc = .guard) : LockMove s k c (s.callTo k c .returned)
  | assignStop (at_pc : c = ⟨.stopPowerSave, .assign⟩) : LockMove s k c
      ({ s with lock := { s.lock with lockStatus := 1 } }.callTo k c .operate)
  | assignStart (at_pc : c = ⟨.startPowerSave, .assign⟩) : LockMove s k c
      ({ s with lock := { s.lock with lockStatus := 0 } }.callTo k c .operate)
  | acquire (at_pc : c = ⟨.stopPowerSave, .operate⟩) : LockMove s k c
      ({ s with lock := { s.lock with count := s.lock.count + 1 } }.callTo k c .returned)
  | release (at_pc : c = ⟨.startPowerSave, .operate⟩) (held : s.lock.count ≠ 0) : LockMove s k c
      ({ s with lock := { s.lock with count := s.lock.count - 1 } }.callTo k c .returned)
  | abort (at_pc : c = ⟨.startPowerSave, .operate⟩) (free : s.lock.count = 0) : LockMove s k c
      { s with aborted := true }

theorem LockWorld.callStep_cases {s s' : LockWorld} {k : Nat} (h : s.callStep k = some s') :
    ∃ c, s.calls[k]? = some c ∧ LockMove s k c s' := by
  unfold LockWorld.callStep at h
  cases hc : s.calls[k]? with
  | none =>
      rw [hc] at h
      cases h
  | some c =>
      refine ⟨c, rfl, ?_⟩
      rw [hc] at h
      obtain ⟨fn, pc⟩ := c
      cases pc <;> cases fn <;> simp only at h
      case guard.stopPowerSave =>
        split at h
        · cases h; exact .pass rfl ‹_›
        · cases h; exact .skip rfl
      case guard.startPowerSave =>
        split at h
        · cases h; exact .pass rfl ‹_›
        · cases h; exact .skip rfl
      case assign.stopPowerSave => cases h; exact .assignStop rfl
      case assign.startPowerSave => cases h; exact .assignStart rfl
      case operate.stopPowerSave => cases h; exact .acquire rfl
      case operate.startPowerSave =>
        split at h
        · cases h; exact .abort rfl ‹_›
        · cases h; exact .release rfl ‹_›
      case returned.stopPowerSave => cases h
      case returned.startPowerSave => cases h

/-! ## The balance -/

theorem boot_balanced : Balanced 0 LockWorld.boot where
  running := rfl
  alone := Nat.zero_le 1
  relied := by
    rintro c ⟨⟩
  account := rfl

section Steps

variable {n : Nat} {s s' : LockWorld} {k : Nat} {c : LockCall}

/-- Call `k` moves to `c'` and leaves the lock as `lock'`. -/
theorem Balanced.move (h : Balanced n s) {m : Nat}
    (hc : s.calls[k]? = some c) (c' : LockCall) (lock' : PowerLock)
    (halone : c'.relies.isSome → c.relies.isSome ∨ ∀ d ∈ s.calls, d.relies = none)
    (hself : ∀ v, c'.relies = some v → lock'.lockStatus = v)
    (hothers : lock'.lockStatus = s.lock.lockStatus ∨ c.relies.isSome)
    (haccount : lock'.count + c'.acquiring.toNat + s.lock.lockStatus.toNat + c.releasing.toNat + n
      = s.lock.count + c.acquiring.toNat + lock'.lockStatus.toNat + c'.releasing.toNat + m) :
    Balanced m { s with lock := lock', calls := s.calls.set k c' } where
  running := h.running
  alone := by
    have hcount := countP_set_add hc (fun d => d.relies.isSome) c'
    have hle := h.alone
    cases hnew : c'.relies.isSome with
    | false =>
        rw [hnew, Bool.toNat_false] at hcount
        show (s.calls.set k c').countP _ ≤ 1
        omega
    | true =>
        rw [hnew, Bool.toNat_true] at hcount
        show (s.calls.set k c').countP _ ≤ 1
        rcases halone hnew with hold | hnone
        · rw [hold, Bool.toNat_true] at hcount
          omega
        · have hzero : s.calls.countP (fun d => d.relies.isSome) = 0 := by
            rw [List.countP_eq_zero]
            intro d hd
            simp [hnone d hd]
          omega
  relied := by
    intro d hd v hv
    obtain ⟨j, hj⟩ := List.getElem?_of_mem hd
    rcases getElem?_set_cases hj with ⟨rfl, rfl⟩ | ⟨hjk, hj⟩
    · exact hself v hv
    · rcases hothers with hsame | hold
      · show lock'.lockStatus = v
        rw [hsame]
        exact h.relied d (List.mem_of_getElem? hj) v hv
      · -- nobody relies on the status beside the call that moves
        exact absurd (eq_of_countP_le_one h.alone hj hc (by simp [hv]) hold) hjk
  account := by
    have hacquiring := countP_set_add hc LockCall.acquiring c'
    have hreleasing := countP_set_add hc LockCall.releasing c'
    have hold := h.account
    show lock'.count + (s.calls.set k c').countP LockCall.acquiring
      = lock'.lockStatus.toNat + (s.calls.set k c').countP LockCall.releasing + m
    omega

/-- **A release finds the lock held.** -/
theorem Balanced.held (h : Balanced n s)
    (hk : s.calls[k]? = some ⟨.startPowerSave, .operate⟩) : s.lock.count ≠ 0 := by
  intro hfree
  have haccount := h.account
  have hreleasing := countP_pos_of_getElem? hk (p := LockCall.releasing) rfl
  have hle : s.calls.countP LockCall.acquiring ≤ s.calls.countP (fun d => d.relies.isSome) := by
    apply List.countP_mono_left
    intro d _ hd
    simp only [LockCall.acquiring, decide_eq_true_eq] at hd
    rw [hd]
    rfl
  have halone := h.alone
  -- somebody is still to acquire, and so the status is 1
  obtain ⟨d, hd, hacquiring⟩ := List.countP_pos_iff.mp
    (show 0 < s.calls.countP LockCall.acquiring by omega)
  simp only [LockCall.acquiring, decide_eq_true_eq] at hacquiring
  have hstatus : s.lock.lockStatus = 1 := h.relied d hd 1 (by rw [hacquiring]; rfl)
  have hone : s.lock.lockStatus.toNat = 1 := by rw [hstatus]; rfl
  omega

theorem Balanced.call (h : Balanced n s) (hok : PassesAlone s (.call k))
    (hs : s.callStep k = some s') : Balanced n s' := by
  obtain ⟨c, hc, hmove⟩ := LockWorld.callStep_cases hs
  cases hmove with
  | pass hpc hpasses =>
      have hnone := hok c hc hpc hpasses
      obtain ⟨fn, pc⟩ := c
      cases hpc
      refine h.move hc ⟨fn, .assign⟩ s.lock (fun _ => .inr hnone) ?_ (.inl rfl) ?_
      · intro v hv
        have hstatus := hpasses.2
        cases fn <;> cases hv <;> exact hstatus
      · cases fn <;> rfl
  | skip hpc =>
      obtain ⟨fn, pc⟩ := c
      cases hpc
      refine h.move hc ⟨fn, .returned⟩ s.lock ?_ ?_ (.inl rfl) ?_
      · cases fn <;> exact fun hnew => absurd hnew Bool.noConfusion
      · cases fn <;> rintro v ⟨⟩
      · cases fn <;> rfl
  | assignStop hat =>
      subst hat
      have hstatus : s.lock.lockStatus = 0 := h.relied _ (List.mem_of_getElem? hc) 0 rfl
      refine h.move hc ⟨.stopPowerSave, .operate⟩ { s.lock with lockStatus := 1 }
        (fun _ => .inl rfl) ?_ (.inr rfl) ?_
      · rintro v ⟨⟩
        rfl
      · rw [hstatus]
        rfl
  | assignStart hat =>
      subst hat
      have hstatus : s.lock.lockStatus = 1 := h.relied _ (List.mem_of_getElem? hc) 1 rfl
      refine h.move hc ⟨.startPowerSave, .operate⟩ { s.lock with lockStatus := 0 }
        (fun _ => .inl rfl) ?_ (.inr rfl) ?_
      · rintro v ⟨⟩
      · rw [hstatus]
        rfl
  | acquire hat =>
      subst hat
      refine h.move hc ⟨.stopPowerSave, .returned⟩ { s.lock with count := s.lock.count + 1 }
        (fun _ => .inl rfl) ?_ (.inl rfl) ?_
      · rintro v ⟨⟩
      · show s.lock.count + 1 + 0 + s.lock.lockStatus.toNat + 0 + n
          = s.lock.count + 1 + s.lock.lockStatus.toNat + 0 + n
        omega
  | release hat hheld =>
      subst hat
      refine h.move hc ⟨.startPowerSave, .returned⟩ { s.lock with count := s.lock.count - 1 }
        ?_ ?_ (.inl rfl) ?_
      · exact fun hnew => absurd hnew Bool.noConfusion
      · rintro v ⟨⟩
      · show s.lock.count - 1 + 0 + s.lock.lockStatus.toNat + 1 + n
          = s.lock.count + 0 + s.lock.lockStatus.toNat + 0 + n
        omega
  | abort hat hfree =>
      subst hat
      exact absurd hfree (h.held hc)

theorem lockStep_balanced {a : LockAct} (h : Balanced n s) (hok : PassesAlone s a)
    (hs : lockStep s a = some s') : Balanced n s' := by
  have hrunning : ¬ s.aborted = true := by rw [h.running]; exact Bool.noConfusion
  unfold lockStep at hs
  rw [if_neg hrunning] at hs
  cases a with
  | create =>
      cases hs
      exact ⟨h.running, h.alone, h.relied, h.account⟩
  | enter fn =>
      cases hs
      refine ⟨h.running, ?_, ?_, ?_⟩
      · show (s.calls ++ [LockCall.mk fn .guard]).countP _ ≤ 1
        have halone := h.alone
        rw [List.countP_append]
        cases fn <;> exact halone
      · intro c hc v hv
        rcases List.mem_append.mp hc with hc | hc
        · exact h.relied c hc v hv
        · rw [List.mem_singleton.mp hc] at hv
          cases fn <;> cases hv
      · show s.lock.count + (s.calls ++ [LockCall.mk fn .guard]).countP _
          = s.lock.lockStatus.toNat + (s.calls ++ [LockCall.mk fn .guard]).countP _ + n
        have haccount := h.account
        rw [List.countP_append, List.countP_append]
        cases fn <;> exact haccount
  | call k => exact h.call hok hs

/-- At rest no call has its acquire or its release to make. -/
theorem countP_operate_eq_zero {l : List LockCall} (hreturned : ∀ c ∈ l, c.pc = .returned)
    (fn : LockFn) : l.countP (fun c => decide (c = ⟨fn, .operate⟩)) = 0 := by
  rw [List.countP_eq_zero]
  intro c hc hat
  have hpc := hreturned c hc
  rw [of_decide_eq_true hat] at hpc
  cases hpc

/-- At rest the count is `n` above the status. -/
theorem Balanced.rest (h : Balanced n s) (hreturned : ∀ c ∈ s.calls, c.pc = .returned) :
    s.lock.count = s.lock.lockStatus.toNat + n := by
  have haccount := h.account
  have hacquiring : s.calls.countP LockCall.acquiring = 0 :=
    countP_operate_eq_zero hreturned .stopPowerSave
  have hreleasing : s.calls.countP LockCall.releasing = 0 :=
    countP_operate_eq_zero hreturned .startPowerSave
  omega

end Steps

/-- **Power-lock calls never abort the firmware**, and leave the count at
the status, in every run in which they pass their guards alone. -/
theorem power_lock_sound (as : List LockAct)
    (halone : Guarded lockStep PassesAlone LockWorld.boot as) :
    Always lockStep LockWorld.Sound LockWorld.boot as :=
  always_of_guarded (fun _ h => ⟨h.running, h.rest⟩)
    (fun _ _ _ h hok hs => lockStep_balanced h hok hs) boot_balanced halone

/-- A release that is overtaken by a whole `stop_power_save`. -/
theorem power_lock_sound_overtaken :
    ∃ s, run lockStep LockWorld.boot
        ([.create, .enter .stopPowerSave, .call 0, .call 0, .call 0, .enter .startPowerSave,
          .call 1, .call 1, .enter .stopPowerSave, .call 2, .call 2, .call 2, .call 1]) = some s ∧
      s.Sound := by
  refine ⟨_, rfl, ?_⟩
  have hall := power_lock_sound
    [.create, .enter .stopPowerSave, .call 0, .call 0, .call 0, .enter .startPowerSave,
      .call 1, .call 1, .enter .stopPowerSave, .call 2, .call 2, .call 2, .call 1] (by decide)
  exact always_iff_prefix.mp hall _ (List.prefix_refl _) _ rfl

/-- A `start_power_save` that comes between the assignment and the
acquire of a `stop_power_save` releases a lock nobody holds. -/
theorem power_lock_aborts : ¬ ∀ as, Always lockStep LockWorld.Sound LockWorld.boot as := by
  intro h
  have hend := always_iff_prefix.mp (h
    [.create, .enter .stopPowerSave, .call 0, .call 0, .enter .startPowerSave,
      .call 1, .call 1, .call 1]) _ (List.prefix_refl _) _ rfl
  exact absurd hend.running (by decide)

/-! ## What a step outside the condition leads to -/

/-- The statements a call has left. -/
def LockPc.left : LockPc → Nat
  | .guard => 3
  | .assign => 2
  | .operate => 1
  | .returned => 0

theorem LockWorld.callStep_enabled {s : LockWorld} {k : Nat} {c : LockCall}
    (hc : s.calls[k]? = some c) (hpc : c.pc ≠ .returned) : ∃ s', s.callStep k = some s' := by
  unfold LockWorld.callStep
  rw [hc]
  obtain ⟨fn, pc⟩ := c
  cases pc with
  | guard =>
      cases fn with
      | stopPowerSave =>
          dsimp only
          split
          · exact ⟨_, rfl⟩
          · exact ⟨_, rfl⟩
      | startPowerSave =>
          dsimp only
          split
          · exact ⟨_, rfl⟩
          · exact ⟨_, rfl⟩
  | assign => cases fn <;> exact ⟨_, rfl⟩
  | operate =>
      cases fn with
      | stopPowerSave => exact ⟨_, rfl⟩
      | startPowerSave =>
          dsimp only
          split
          · exact ⟨_, rfl⟩
          · exact ⟨_, rfl⟩
  | returned => exact absurd rfl hpc

/-- The statements all calls have left. -/
def LockWorld.left (s : LockWorld) : Nat := (s.calls.map fun c => c.pc.left).sum

theorem left_callTo {s : LockWorld} {k : Nat} {c : LockCall} (hc : s.calls[k]? = some c)
    (pc : LockPc) (h : pc.left < c.pc.left) (lock' : PowerLock) :
    ({ s with lock := lock' }.callTo k c pc).left < s.left := by
  have hsum := sum_map_set_add hc (fun c => c.pc.left) { c with pc := pc }
  show ((s.calls.set k { c with pc := pc }).map _).sum < (s.calls.map _).sum
  dsimp only at hsum
  omega

theorem LockMove.left_lt {s s' : LockWorld} {k : Nat} {c : LockCall}
    (hc : s.calls[k]? = some c) (h : LockMove s k c s') (hrunning : s'.aborted = false) :
    s'.left < s.left := by
  cases h with
  | pass hpc _ => exact left_callTo hc .assign (by rw [hpc]; decide) s.lock
  | skip hpc => exact left_callTo hc .returned (by rw [hpc]; decide) s.lock
  | assignStop hat => exact left_callTo hc .operate (by rw [hat]; decide) _
  | assignStart hat => exact left_callTo hc .operate (by rw [hat]; decide) _
  | acquire hat => exact left_callTo hc .returned (by rw [hat]; decide) _
  | release hat _ => exact left_callTo hc .returned (by rw [hat]; decide) _
  | abort _ _ => cases hrunning

/-- Before all calls are at their ends there is one whose next statement
meets the condition: one past its guard, or any when there is none. -/
theorem exists_passesAlone {s : LockWorld} (h : ¬ ∀ c ∈ s.calls, c.pc = .returned) :
    ∃ k c, s.calls[k]? = some c ∧ c.pc ≠ .returned ∧ PassesAlone s (.call k) := by
  by_cases hpast : ∃ c ∈ s.calls, c.pc ≠ .returned ∧ c.pc ≠ .guard
  · obtain ⟨c, hmem, hpc, hguard⟩ := hpast
    obtain ⟨k, hc⟩ := List.getElem?_of_mem hmem
    refine ⟨k, c, hc, hpc, ?_⟩
    intro d hd hat
    rw [Option.mem_def, hc] at hd
    cases hd
    exact absurd hat hguard
  · simp only [not_forall] at h
    obtain ⟨c, hmem, hpc⟩ := h
    obtain ⟨k, hc⟩ := List.getElem?_of_mem hmem
    refine ⟨k, c, hc, hpc, ?_⟩
    intro _ _ _ _ d hd
    obtain ⟨fn, pc⟩ := d
    have hidle : ¬ (pc ≠ .returned ∧ pc ≠ .guard) := fun hd' => hpast ⟨_, hd, hd'⟩
    cases pc with
    | guard => cases fn <;> rfl
    | returned => cases fn <;> rfl
    | assign => exact absurd ⟨LockPc.noConfusion, LockPc.noConfusion⟩ hidle
    | operate => exact absurd ⟨LockPc.noConfusion, LockPc.noConfusion⟩ hidle

/-- **A balanced state can be brought to rest**: first the calls past
their guards go to their ends, then the others one by one. -/
theorem Balanced.comes_to_rest {n : Nat} {s : LockWorld} (h : Balanced n s) :
    ∃ as s', run lockStep s as = some s' ∧ Balanced n s' ∧ ∀ c ∈ s'.calls, c.pc = .returned := by
  -- by induction on the statements the calls have left
  induction hl : s.left using Nat.strong_induction_on generalizing s with
  | h l ih =>
      by_cases hall : ∀ c ∈ s.calls, c.pc = .returned
      · exact ⟨[], s, rfl, h, hall⟩
      · obtain ⟨k, c, hc, hpc, hok⟩ := exists_passesAlone hall
        obtain ⟨m, hm⟩ := LockWorld.callStep_enabled hc hpc
        have hbalanced := h.call hok hm
        obtain ⟨c', hc', hmove⟩ := LockWorld.callStep_cases hm
        have hless := hmove.left_lt hc' hbalanced.running
        obtain ⟨as, s', hrun, hrest⟩ := ih m.left (by omega) hbalanced rfl
        refine ⟨.call k :: as, s', run_cons_some.mpr ⟨m, ?_, hrun⟩, hrest⟩
        rw [lockStep_call h.running]
        exact hm

theorem exists_releasing {s : LockWorld} (h : 0 < s.calls.countP LockCall.releasing) :
    ∃ k : Nat, s.calls[k]? = some ⟨.startPowerSave, .operate⟩ := by
  obtain ⟨c, hmem, hat⟩ := List.countP_pos_iff.mp h
  simp only [LockCall.releasing, decide_eq_true_eq] at hat
  subst hat
  exact List.getElem?_of_mem hmem

/-- **More releases to come than the count** end in an abort. -/
theorem aborts_of_overdrawn {s : LockWorld} (hrunning : s.aborted = false)
    (h : s.lock.count < s.calls.countP LockCall.releasing) :
    ∃ as s', run lockStep s as = some s' ∧ s'.aborted = true := by
  induction hn : s.lock.count generalizing s with
  | zero =>
      obtain ⟨k, hc⟩ := exists_releasing (Nat.lt_of_le_of_lt (Nat.zero_le _) h)
      refine ⟨[.call k], { s with aborted := true }, ?_, rfl⟩
      rw [run_cons, lockStep_call hrunning]
      simp [LockWorld.callStep, hc, hn]
  | succ n ih =>
      obtain ⟨k, hc⟩ := exists_releasing (Nat.lt_of_le_of_lt (Nat.zero_le _) h)
      have hcount := countP_set_add hc LockCall.releasing ⟨.startPowerSave, .returned⟩
      have hm : s.callStep k = some ({ s with lock := { s.lock with count := n } }.callTo
          k ⟨.startPowerSave, .operate⟩ .returned) := by
        simp [LockWorld.callStep, hc, hn]
      have hmore : n < (s.calls.set k ⟨.startPowerSave, .returned⟩).countP LockCall.releasing := by
        simp only [LockCall.releasing, decide_true, Bool.toNat_true] at hcount
        omega
      obtain ⟨as, s', hrun, habort⟩ := ih (s := { s with lock := { s.lock with count := n } }.callTo
        k ⟨.startPowerSave, .operate⟩ .returned) hrunning hmore rfl
      refine ⟨.call k :: as, s', run_cons_some.mpr ⟨_, ?_, hrun⟩, habort⟩
      rw [lockStep_call hrunning, hm]

/-- The assignment of a `start_power_save` adds a release. -/
theorem run_assignStart {s : LockWorld} (hrunning : s.aborted = false) {k : Nat}
    (hk : s.calls[k]? = some ⟨.startPowerSave, .assign⟩) :
    lockStep s (.call k) = some { s with
      lock := { s.lock with lockStatus := 0 }
      calls := s.calls.set k ⟨.startPowerSave, .operate⟩ } := by
  rw [lockStep_call hrunning]
  simp [LockWorld.callStep, LockWorld.callTo, hk]

/-- A `start_power_save` that passes its guard while another call relies
on the status makes one release too many. -/
theorem start_aborts {s : LockWorld} (h : Balanced 0 s) {k : Nat}
    (hk : s.calls[k]? = some ⟨.startPowerSave, .guard⟩) (hstatus : s.lock.lockStatus = 1)
    {d : LockCall} (hd : d ∈ s.calls) (hrelies : d.relies = some 1) :
    ∃ as s', run lockStep (s.callTo k ⟨.startPowerSave, .guard⟩ .assign) as = some s' ∧
      s'.aborted = true := by
  have haccount := h.account
  have hone : s.lock.lockStatus.toNat = 1 := by rw [hstatus]; rfl
  have hmoved : (s.callTo k ⟨.startPowerSave, .guard⟩ .assign).calls[k]?
      = some ⟨.startPowerSave, .assign⟩ := getElem?_set_of_getElem? hk
  have hassign := run_assignStart (s := s.callTo k ⟨.startPowerSave, .guard⟩ .assign)
    h.running hmoved
  have hset : (s.calls.set k ⟨.startPowerSave, .assign⟩).set k ⟨.startPowerSave, .operate⟩
      = s.calls.set k ⟨.startPowerSave, .operate⟩ := List.set_set _
  have hrel : (s.calls.set k ⟨.startPowerSave, .operate⟩).countP LockCall.releasing
      = s.calls.countP LockCall.releasing + 1 :=
    countP_set_add hk LockCall.releasing ⟨.startPowerSave, .operate⟩
  obtain ⟨fn, pc⟩ := d
  cases pc with
  | guard => cases fn <;> cases hrelies
  | returned => cases fn <;> cases hrelies
  | operate =>
      cases fn with
      | startPowerSave => cases hrelies
      | stopPowerSave =>
          -- the acquire that the status stands for has not been made
          have hacquiring : 0 < s.calls.countP LockCall.acquiring :=
            List.countP_pos_iff.mpr ⟨_, hd, rfl⟩
          obtain ⟨as, s', hrun, habort⟩ := aborts_of_overdrawn (s := { s with
            lock := { s.lock with lockStatus := 0 }
            calls := s.calls.set k ⟨.startPowerSave, .operate⟩ }) h.running
            (by show s.lock.count < (s.calls.set k _).countP _; omega)
          refine ⟨.call k :: as, s', run_cons_some.mpr ⟨_, hassign, ?_⟩, habort⟩
          rw [← hset] at hrun
          exact hrun
  | assign =>
      cases fn with
      | stopPowerSave => cases hrelies
      | startPowerSave =>
          -- two releases are made for one status
          obtain ⟨j, hj⟩ := List.getElem?_of_mem hd
          have hjk : k ≠ j := by
            rintro rfl
            rw [hk] at hj
            cases hj
          have hj' : (s.calls.set k ⟨.startPowerSave, .operate⟩)[j]?
              = some ⟨.startPowerSave, .assign⟩ := by
            rw [List.getElem?_set_ne hjk]
            exact hj
          have hrel' : ((s.calls.set k ⟨.startPowerSave, .operate⟩).set j
              ⟨.startPowerSave, .operate⟩).countP LockCall.releasing
              = (s.calls.set k ⟨.startPowerSave, .operate⟩).countP LockCall.releasing + 1 :=
            countP_set_add hj' LockCall.releasing ⟨.startPowerSave, .operate⟩
          have hassign' := run_assignStart (s := { s with
            lock := { s.lock with lockStatus := 0 }
            calls := s.calls.set k ⟨.startPowerSave, .operate⟩ }) h.running hj'
          obtain ⟨as, s', hrun, habort⟩ := aborts_of_overdrawn (s := { s with
            lock := { s.lock with lockStatus := 0 }
            calls := (s.calls.set k ⟨.startPowerSave, .operate⟩).set j
              ⟨.startPowerSave, .operate⟩ }) h.running
            (by show s.lock.count < (List.set _ j _).countP _; omega)
          refine ⟨.call k :: .call j :: as, s', run_cons_some.mpr ⟨_, hassign, ?_⟩, habort⟩
          rw [← hset] at hassign' hrun
          exact run_cons_some.mpr ⟨_, hassign', hrun⟩

/-- A `stop_power_save` that passes its guard while another call relies
on the status acquires the lock twice for one status. -/
theorem stop_acquires_twice {s : LockWorld} (h : Balanced 0 s) {k : Nat}
    (hk : s.calls[k]? = some ⟨.stopPowerSave, .guard⟩) (hstatus : s.lock.lockStatus = 0)
    {d : LockCall} (hd : d ∈ s.calls) (hrelies : d.relies = some 0) :
    ∃ as s', run lockStep (s.callTo k ⟨.stopPowerSave, .guard⟩ .assign) as = some s' ∧
      Balanced 1 s' := by
  -- the other call is about to assign 1 as well
  have hassigns : d = ⟨.stopPowerSave, .assign⟩ := by
    obtain ⟨fn, pc⟩ := d
    cases fn <;> cases pc <;> cases hrelies
    rfl
  subst hassigns
  obtain ⟨j, hj⟩ := List.getElem?_of_mem hd
  have hkj : j ≠ k := by
    rintro rfl
    rw [hk] at hj
    cases hj
  have hother := h.move (m := 0) hj ⟨.stopPowerSave, .returned⟩
    { s.lock with lockStatus := 1, count := s.lock.count + 1 }
    (fun _ => .inl rfl) (by rintro v ⟨⟩) (.inr rfl) (by rw [hstatus]; rfl)
  have hk' : (s.calls.set j ⟨.stopPowerSave, .returned⟩)[k]? = some ⟨.stopPowerSave, .guard⟩ := by
    rw [List.getElem?_set_ne hkj]
    exact hk
  have hboth := hother.move (m := 1) hk' ⟨.stopPowerSave, .returned⟩
    { s.lock with lockStatus := 1, count := s.lock.count + 2 }
    (fun hnew => absurd hnew Bool.noConfusion) (by rintro v ⟨⟩) (.inl rfl) rfl
  refine ⟨[.call j, .call j, .call k, .call k], _, ?_, hboth⟩
  have hrunning := h.running
  obtain ⟨hklt, hk⟩ := List.getElem?_eq_some_iff.mp hk
  obtain ⟨hjlt, hj⟩ := List.getElem?_eq_some_iff.mp hj
  simp [lockStep, LockWorld.callStep, LockWorld.callTo, hrunning, hklt, hjlt, hj, hkj,
    List.getElem_set]
  rw [List.set_comm _ _ (Ne.symm hkj), List.set_set]

/-- **A step outside `PassesAlone`** can be continued to a state that is not
`Sound`. -/
theorem unsound_of_not_alone {s s' : LockWorld} {a : LockAct} (h : Balanced 0 s)
    (hok : ¬ PassesAlone s a) (hs : lockStep s a = some s') :
    ∃ as s'', run lockStep s' as = some s'' ∧ ¬ s''.Sound := by
  cases a with
  | create => exact absurd trivial hok
  | enter fn => exact absurd trivial hok
  | call k =>
      simp only [PassesAlone, not_forall] at hok
      obtain ⟨c, hc, hpc, ⟨hcreated, hstatus⟩, d, hd, hrelies⟩ := hok
      rw [Option.mem_def] at hc
      rw [lockStep_call h.running] at hs
      obtain ⟨v, hv⟩ := Option.ne_none_iff_exists'.mp hrelies
      have hagree := h.relied d hd v hv
      obtain ⟨fn, pc⟩ := c
      cases hpc
      cases fn with
      | startPowerSave =>
          have hstatus : s.lock.lockStatus = 1 := hstatus
          have hv : d.relies = some 1 := by rw [hv, ← hagree, hstatus]
          have hs' : s.callTo k ⟨.startPowerSave, .guard⟩ .assign = s' := by
            simpa [LockWorld.callStep, hc, hcreated, hstatus] using hs
          rw [← hs']
          obtain ⟨as, s'', hrun, habort⟩ := start_aborts h hc hstatus hd hv
          refine ⟨as, s'', hrun, fun hsound => ?_⟩
          rw [hsound.running] at habort
          cases habort
      | stopPowerSave =>
          have hstatus : s.lock.lockStatus = 0 := hstatus
          have hv : d.relies = some 0 := by rw [hv, ← hagree, hstatus]
          have hs' : s.callTo k ⟨.stopPowerSave, .guard⟩ .assign = s' := by
            simpa [LockWorld.callStep, hc, hcreated, hstatus] using hs
          rw [← hs']
          obtain ⟨as, m, hrun, hbalanced⟩ :=
            stop_acquires_twice h hc hstatus hd hv
          obtain ⟨bs, s'', hrest, hend, hreturned⟩ := hbalanced.comes_to_rest
          refine ⟨as ++ bs, s'', ?_, fun hsound => ?_⟩
          · rw [run_append, hrun]
            exact hrest
          · have hcount := hsound.rest hreturned
            have hcount' := hend.rest hreturned
            omega

end LiveWireSwitch
