import LiveWireSwitch.AppUart.Statements

/-!
# AppUart — SenderLife

`ucSendTaskHandle_Flag` is set after the `xTaskCreate` it stands for and
cleared before the `vTaskDelete`, so there are two stretches of code in
which it does not tell whether a task exists: a call in the first is
`owing`, a task in the second is `exiting`. As long as nobody looks at
the flag, or clears it, in somebody else's stretch, flag, owing calls
and exiting tasks account for the tasks there are (`Owned.account`).
-/

namespace LiveWireSwitch

open Lib

/-- The task exists. -/
def SendTask.alive (x : SendTask) : Bool := decide (x.pc ≠ .deleted)

/-- Between `ucSendTaskHandle_Flag = 0` and `vTaskDelete`. -/
def SendTask.exiting (x : SendTask) : Bool := decide (x.pc = .taskDelete)

/-- Between `xTaskCreate` and `ucSendTaskHandle_Flag = 1`. -/
def SendCall.owing (q : SendCall) : Bool := decide (q.pc = .setHandleFlag)

/-- At most one task, a handle flag that is right whenever no call is in
progress, and no task that has deleted another one. -/
structure SendWorld.OneSender (s : SendWorld) : Prop where
  one : s.tasks.countP SendTask.alive ≤ 1
  flag : (∀ q ∈ s.calls, q.pc = .returned) →
    (s.ucSendTaskHandleFlag = true ↔ ∃ x ∈ s.tasks, x.pc ≠ .deleted)
  own : ∀ x ∈ s.tasks, x.pc ≠ .returned

/-- No call is between its `xTaskCreate` and its assignment of 1 when a
test finds 0 or a task assigns 0, and no task is between its assignment
of 0 and its `vTaskDelete` when a test finds 0. -/
def Undivided (s : SendWorld) : StatementAct → Prop
  | .call _ k => (s.calls[k]?).map SendCall.pc = some .test → s.ucSendTaskHandleFlag = false →
      (∀ q ∈ s.calls, q.pc ≠ .setHandleFlag) ∧ ∀ x ∈ s.tasks, x.pc ≠ .taskDelete
  | .task _ t => (s.tasks[t]?).map SendTask.pc = some .clearHandleFlag →
      ∀ q ∈ s.calls, q.pc ≠ .setHandleFlag
  | _ => True

/-- Moreover a task assigns 0 only while a call is in progress. -/
def ExitsInCall (s : SendWorld) (a : StatementAct) : Prop :=
  Undivided s a ∧ match a with
    | .task _ t => (s.tasks[t]?).map SendTask.pc = some .clearHandleFlag →
        ∃ q ∈ s.calls, q.pc ≠ .returned
    | _ => True

instance : (s : SendWorld) → (a : StatementAct) → Decidable (ExitsInCall s a)
  | _, .enter _ => .isTrue ⟨trivial, trivial⟩
  | _, .call _ _ => inferInstanceAs (Decidable ((_ → _ → _ ∧ _) ∧ True))
  | _, .task _ _ => inferInstanceAs (Decidable ((_ → _) ∧ (_ → _)))
  | _, .rxFlag _ => .isTrue ⟨trivial, trivial⟩

/-! ## The account of the tasks -/

/-- The one task there may be is accounted for by the flag, by itself
when it is exiting, or by the call that created it, and the handle is
its own. -/
structure Owned (s : SendWorld) : Prop where
  account : s.ucSendTaskHandleFlag.toNat + s.tasks.countP SendTask.exiting
    + s.calls.countP SendCall.owing = s.tasks.countP SendTask.alive
  one : s.tasks.countP SendTask.alive ≤ 1
  handle : ∀ (t : Nat) (x : SendTask), s.tasks[t]? = some x → x.pc ≠ .deleted →
    s.ucSendTaskHandle = some t
  own : ∀ x ∈ s.tasks, x.pc ≠ .returned

theorem boot_owned : Owned SendWorld.boot where
  account := rfl
  one := Nat.zero_le 1
  handle := by
    rintro t x ⟨⟩
  own := by
    rintro x ⟨⟩

theorem countP_owing_eq_zero {l : List SendCall} :
    l.countP SendCall.owing = 0 ↔ ∀ q ∈ l, q.pc ≠ .setHandleFlag := by
  rw [List.countP_eq_zero]
  simp [SendCall.owing]

theorem countP_exiting_eq_zero {l : List SendTask} :
    l.countP SendTask.exiting = 0 ↔ ∀ x ∈ l, x.pc ≠ .taskDelete := by
  rw [List.countP_eq_zero]
  simp [SendTask.exiting]

theorem countP_alive_eq_zero {l : List SendTask} :
    l.countP SendTask.alive = 0 ↔ ∀ x ∈ l, x.pc = .deleted := by
  rw [List.countP_eq_zero]
  simp [SendTask.alive]

/-- A task that is not exiting is alive beside those that are. -/
theorem countP_exiting_lt_alive {l : List SendTask} {t : Nat} {x : SendTask}
    (hx : l[t]? = some x) (hrunning : x.pc.Running) :
    l.countP SendTask.exiting < l.countP SendTask.alive := by
  -- where `x` put to `exiting`, there would still be no more exiting than alive
  have hle : (l.set t { x with pc := .taskDelete }).countP SendTask.exiting
      ≤ (l.set t { x with pc := .taskDelete }).countP SendTask.alive := by
    apply List.countP_mono_left
    intro y _ hy
    simp only [SendTask.exiting, decide_eq_true_eq] at hy
    simp [SendTask.alive, hy]
  have hexiting : (l.set t { x with pc := .taskDelete }).countP SendTask.exiting
      = l.countP SendTask.exiting + 1 := by
    simpa [SendTask.exiting, hrunning.1] using
      countP_set_add hx SendTask.exiting { x with pc := .taskDelete }
  have halive : (l.set t { x with pc := .taskDelete }).countP SendTask.alive
      = l.countP SendTask.alive := by
    simpa [SendTask.alive, hrunning.2.1] using
      countP_set_add hx SendTask.alive { x with pc := .taskDelete }
  omega

/-- A step that moves a call past no `xTaskCreate` and no assignment. -/
theorem Owned.callMoves {s s' : SendWorld} (h : Owned s)
    (hflag : s'.ucSendTaskHandleFlag = s.ucSendTaskHandleFlag)
    (hhandle : s'.ucSendTaskHandle = s.ucSendTaskHandle) (htasks : s'.tasks = s.tasks)
    (howing : s'.calls.countP SendCall.owing = s.calls.countP SendCall.owing) : Owned s' where
  account := by rw [hflag, htasks, howing]; exact h.account
  one := by rw [htasks]; exact h.one
  handle := by rw [htasks, hhandle]; exact h.handle
  own := by rw [htasks]; exact h.own

/-- A task that exists moves to `y`, and the handle flag makes up for
what it was and is in the account. -/
theorem Owned.taskMoves {s s' : SendWorld} (h : Owned s) {t : Nat} {x y : SendTask}
    (hx : s.tasks[t]? = some x) (hxalive : x.pc ≠ .deleted) (hyown : y.pc ≠ .returned)
    (hflag : s'.ucSendTaskHandleFlag.toNat + y.exiting.toNat + 1
      = s.ucSendTaskHandleFlag.toNat + x.exiting.toNat + y.alive.toNat)
    (hhandle : s'.ucSendTaskHandle = s.ucSendTaskHandle) (hcalls : s'.calls = s.calls)
    (htasks : s'.tasks = s.tasks.set t y) : Owned s' := by
  have halive := countP_set_add hx SendTask.alive y
  have hexiting := countP_set_add hx SendTask.exiting y
  have hxa : x.alive.toNat = 1 := by simp [SendTask.alive, hxalive]
  have hya : y.alive.toNat ≤ 1 := Bool.toNat_le y.alive
  have haccount := h.account
  have hone := h.one
  refine ⟨?_, ?_, ?_, ?_⟩
  · rw [hcalls, htasks]
    omega
  · rw [htasks]
    omega
  · intro j z hz hzalive
    rw [htasks] at hz
    rw [hhandle]
    rcases getElem?_set_cases hz with ⟨rfl, -⟩ | ⟨-, hz⟩
    · exact h.handle j x hx hxalive
    · exact h.handle j z hz hzalive
  · rw [htasks]
    exact forall_mem_set h.own hyown

/-- A step of a task that stays this side of its assignment of 0. -/
theorem Owned.taskRuns {s s' : SendWorld} (h : Owned s) {t : Nat} {x y : SendTask}
    (hx : s.tasks[t]? = some x) (hrunning : x.pc.Running) (hstays : y.pc.Running)
    (hflag : s'.ucSendTaskHandleFlag = s.ucSendTaskHandleFlag)
    (hhandle : s'.ucSendTaskHandle = s.ucSendTaskHandle) (hcalls : s'.calls = s.calls)
    (htasks : s'.tasks = s.tasks.set t y) : Owned s' := by
  refine h.taskMoves hx hrunning.2.1 hstays.2.2 ?_ hhandle hcalls htasks
  have hxe : x.exiting = false := by simp [SendTask.exiting, hrunning.1]
  have hye : y.exiting = false := by simp [SendTask.exiting, hstays.1]
  have hya : y.alive = true := by simp [SendTask.alive, hstays.2.1]
  rw [hflag, hxe, hye, hya]
  rfl

/-- A call that neither was nor is owing leaves the number of those that
are. -/
theorem countP_owing_set {l : List SendCall} {k : Nat} {q : SendCall} (hq : l[k]? = some q)
    {pc : CallPc} (hbefore : q.pc ≠ .setHandleFlag) (hafter : pc ≠ .setHandleFlag) :
    (l.set k { q with pc := pc }).countP SendCall.owing = l.countP SendCall.owing := by
  simpa [SendCall.owing, hbefore, hafter] using countP_set_add hq SendCall.owing { q with pc := pc }

/-- **A call keeps the account.** -/
theorem Owned.call {s s' : SendWorld} (h : Owned s) {created : Bool} {k : Nat}
    (hok : Undivided s (.call created k)) (hs : s.callStep created k = some s') : Owned s' := by
  obtain ⟨q, hq, hmove⟩ := callStep_cases hs
  have haccount := h.account
  have hone := h.one
  -- a call that moves to `pc` leaves its place among the owing and takes its new one
  have howing := fun pc => countP_set_add hq SendCall.owing { q with pc := pc }
  cases hmove with
  | storeCmd hpc =>
      exact h.callMoves rfl rfl rfl (countP_owing_set hq (by simp [hpc]) CallPc.noConfusion)
  | storeDat hpc =>
      exact h.callMoves rfl rfl rfl (countP_owing_set hq (by simp [hpc]) CallPc.noConfusion)
  | storeSum hpc =>
      exact h.callMoves rfl rfl rfl (countP_owing_set hq (by simp [hpc]) CallPc.noConfusion)
  | setFlag hpc =>
      exact h.callMoves rfl rfl rfl (countP_owing_set hq (by simp [hpc]) CallPc.noConfusion)
  | leave hpc =>
      exact h.callMoves rfl rfl rfl (countP_owing_set hq (by simp [hpc]) CallPc.noConfusion)
  | create hpc hflag =>
      -- the flag is down and nobody is in the way: there is no task
      obtain ⟨howes, hexits⟩ := hok (by rw [hq, Option.map_some, hpc]) hflag
      have hnoOwing := countP_owing_eq_zero.mpr howes
      have hnoExiting := countP_exiting_eq_zero.mpr hexits
      rw [hflag, hnoOwing, hnoExiting] at haccount
      have hnone : s.tasks.countP SendTask.alive = 0 := haccount.symm
      have howes' : (s.calls.set k { q with pc := .setHandleFlag }).countP SendCall.owing = 1 := by
        have hcount := howing .setHandleFlag
        rw [hnoOwing] at hcount
        simpa [SendCall.owing, hpc] using hcount
      have hexits' : (s.tasks ++ [SendTask.created]).countP SendTask.exiting = 0 := by
        rw [List.countP_append, hnoExiting]
        rfl
      have halive' : (s.tasks ++ [SendTask.created]).countP SendTask.alive = 1 := by
        rw [List.countP_append, hnone]
        rfl
      refine ⟨?_, Nat.le_of_eq halive', ?_, ?_⟩
      · show s.ucSendTaskHandleFlag.toNat + (s.tasks ++ [SendTask.created]).countP SendTask.exiting
          + (s.calls.set k { q with pc := .setHandleFlag }).countP SendCall.owing
          = (s.tasks ++ [SendTask.created]).countP SendTask.alive
        rw [hflag, hexits', howes', halive']
        rfl
      · intro t x hx halive
        rcases getElem?_append_cases hx with ⟨rfl, rfl⟩ | hx
        · rfl
        · exact absurd (countP_alive_eq_zero.mp hnone x (List.mem_of_getElem? hx)) halive
      · intro x hx
        rcases List.mem_append.mp hx with hx | hx
        · exact h.own x hx
        · rw [List.mem_singleton.mp hx]
          exact SendPc.noConfusion
  | setHandleFlag hpc =>
      -- the flag takes over what the call owed
      have hcount : (s.calls.set k { q with pc := .returned }).countP SendCall.owing + 1
          = s.calls.countP SendCall.owing := by
        simpa [SendCall.owing, hpc] using howing .returned
      have hflag : s.ucSendTaskHandleFlag.toNat = 0 := by omega
      refine ⟨?_, hone, h.handle, h.own⟩
      show 1 + s.tasks.countP SendTask.exiting
        + (s.calls.set k { q with pc := .returned }).countP SendCall.owing
        = s.tasks.countP SendTask.alive
      omega

/-- **A task keeps the account.** -/
theorem Owned.task {s s' : SendWorld} (h : Owned s) {w : UInt8} {t : Nat}
    (hok : Undivided s (.task w t)) (hs : s.taskStep w t = some s') : Owned s' := by
  obtain ⟨x, hx, hmove⟩ := taskStep_cases hs
  cases hmove with
  | memcpy hpc =>
      exact h.taskRuns hx (by simp [hpc, SendPc.Running]) (by simp [SendPc.Running])
        rfl rfl rfl rfl
  | write hpc =>
      exact h.taskRuns hx (by simp [hpc, SendPc.Running]) (by simp [SendPc.Running])
        rfl rfl rfl rfl
  | stampError hpc =>
      exact h.taskRuns hx (by simp [hpc, SendPc.Running]) (by simp [SendPc.Running])
        rfl rfl rfl rfl
  | quiet y flag es hquiet hafter _ _ =>
      exact h.taskRuns hx hquiet.running hafter rfl rfl rfl rfl
  | clearHandleFlag hpc =>
      -- the task takes over what the flag stood for
      have hup : s.ucSendTaskHandleFlag.toNat = 1 := by
        have haccount := h.account
        have hone := h.one
        have hnoOwing := countP_owing_eq_zero.mpr (hok (by rw [hx, Option.map_some, hpc]))
        have hrunning : x.pc.Running := by simp [hpc, SendPc.Running]
        have hapart := countP_exiting_lt_alive hx hrunning
        omega
      refine h.taskMoves hx (by simp [hpc]) SendPc.noConfusion ?_ rfl rfl rfl
      rw [hup]
      simp [SendTask.exiting, SendTask.alive, SendWorld.taskTo, hpc]
  | taskDelete hpc =>
      have hself : s.vTaskDelete t x = s.taskTo t x .deleted := by
        simp [SendWorld.vTaskDelete, h.handle t x hx (by simp [hpc])]
      rw [hself]
      refine h.taskMoves hx (by simp [hpc]) SendPc.noConfusion ?_ rfl rfl rfl
      simp [SendTask.exiting, SendTask.alive, SendWorld.taskTo, hpc]

theorem statementStep_owned {s s' : SendWorld} {a : StatementAct} (h : Owned s)
    (hok : Undivided s a) (hs : statementStep s a = some s') : Owned s' := by
  cases a with
  | enter c =>
      cases hs
      refine h.callMoves rfl rfl rfl ?_
      rw [List.countP_append]
      rfl
  | call created k => exact h.call hok hs
  | task w t => exact h.task hok hs
  | rxFlag b =>
      cases hs
      exact h.callMoves rfl rfl rfl rfl

/-- Without regard to whether calls are in progress when a task exits,
the account holds all along an undivided run. -/
theorem owned_of_undivided (as : List StatementAct)
    (hundivided : Guarded statementStep Undivided SendWorld.boot as) :
    Always statementStep Owned SendWorld.boot as :=
  always_of_guarded (fun _ h => h) (fun _ _ _ h hok hs => statementStep_owned h hok hs) boot_owned
    hundivided

/-! ## What the flag tells -/

/-- An exiting task is the one the account is about. -/
theorem Owned.exiting {s : SendWorld} (h : Owned s) {x : SendTask} (hx : x ∈ s.tasks)
    (hpc : x.pc = .taskDelete) :
    s.ucSendTaskHandleFlag = false ∧ ∀ q ∈ s.calls, q.pc ≠ .setHandleFlag := by
  have hpos : 0 < s.tasks.countP SendTask.exiting :=
    List.countP_pos_iff.mpr ⟨x, hx, by simp [SendTask.exiting, hpc]⟩
  have haccount := h.account
  have hone := h.one
  constructor
  · cases hflag : s.ucSendTaskHandleFlag with
    | false => rfl
    | true =>
        rw [hflag, Bool.toNat_true] at haccount
        omega
  · rw [← countP_owing_eq_zero]
    omega

/-- In a state with no call between its `xTaskCreate` and its assignment
of 1 the flag tells whether a task runs that has not assigned 0. -/
theorem Owned.flag_iff {s : SendWorld} (h : Owned s)
    (howes : ∀ q ∈ s.calls, q.pc ≠ .setHandleFlag) :
    s.ucSendTaskHandleFlag = true ↔ ∃ x ∈ s.tasks, x.pc.Running := by
  have haccount := h.account
  have hone := h.one
  rw [countP_owing_eq_zero.mpr howes] at haccount
  constructor
  · intro hflag
    rw [hflag, Bool.toNat_true] at haccount
    have hpos : 0 < s.tasks.countP SendTask.alive := by omega
    have hnoExiting : s.tasks.countP SendTask.exiting = 0 := by omega
    obtain ⟨x, hx, halive⟩ := List.countP_pos_iff.mp hpos
    refine ⟨x, hx, countP_exiting_eq_zero.mp hnoExiting x hx, ?_, h.own x hx⟩
    simpa [SendTask.alive] using halive
  · rintro ⟨x, hx, hrunning⟩
    by_contra hdown
    rw [Bool.not_eq_true] at hdown
    rw [hdown, Bool.toNat_false] at haccount
    -- the flag is down, so the task that runs would have to be the exiting one
    have hpos : 0 < s.tasks.countP SendTask.alive :=
      List.countP_pos_iff.mpr ⟨x, hx, by simp [SendTask.alive, hrunning.2.1]⟩
    obtain ⟨y, hy, hexiting⟩ := List.countP_pos_iff.mp
      (show 0 < s.tasks.countP SendTask.exiting by omega)
    have hypc : y.pc = .taskDelete := by simpa [SendTask.exiting] using hexiting
    obtain ⟨i, hi⟩ := List.getElem?_of_mem hx
    obtain ⟨j, hj⟩ := List.getElem?_of_mem hy
    have hi' := h.handle i x hi hrunning.2.1
    have hj' := h.handle j y hj (by simp [hypc])
    rw [hi'] at hj'
    cases hj'
    rw [hi] at hj
    cases hj
    exact hrunning.1 hypc

/-- A call that has not made its test will find the flag of an exiting
task. -/
def Awaited (s : SendWorld) : Prop :=
  ∀ x ∈ s.tasks, x.pc = .taskDelete → ∃ q ∈ s.calls, q.pc.rank ≤ CallPc.test.rank

/-- A call that moves up to its test still has it before it. -/
theorem untested_callTo {calls : List SendCall} {k : Nat} {q : SendCall}
    (hq : calls[k]? = some q) (pc : CallPc) (hpc : pc.rank ≤ CallPc.test.rank) :
    ∃ r ∈ calls.set k { q with pc := pc }, r.pc.rank ≤ CallPc.test.rank :=
  ⟨{ q with pc := pc }, List.mem_of_getElem? (getElem?_set_of_getElem? hq), hpc⟩

theorem Awaited.call {s s' : SendWorld} (h : Owned s) {created : Bool} {k : Nat}
    (hok : Undivided s (.call created k)) (hs : s.callStep created k = some s') : Awaited s' := by
  obtain ⟨q, hq, hmove⟩ := callStep_cases hs
  intro x hx hxpc
  have hold : x ∈ s.tasks := by
    rcases hmove.frame.2 with htasks | htasks
    · rwa [htasks] at hx
    · rw [htasks, List.mem_append, List.mem_singleton] at hx
      rcases hx with hx | rfl
      · exact hx
      · cases hxpc
  obtain ⟨hflag, howes⟩ := h.exiting hold hxpc
  cases hmove with
  | storeCmd _ => exact untested_callTo hq .storeDat (by decide)
  | storeDat _ => exact untested_callTo hq .storeSum (by decide)
  | storeSum _ => exact untested_callTo hq .setFlag (by decide)
  | setFlag _ => exact untested_callTo hq .test (by decide)
  | create hpc _ =>
      -- no test finds 0 while a task is exiting
      exact absurd hxpc ((hok (by rw [hq, Option.map_some, hpc]) hflag).2 x hold)
  | leave hpc => exact absurd hxpc ((hok (by rw [hq, Option.map_some, hpc]) hflag).2 x hold)
  | setHandleFlag hpc => exact absurd hpc (howes q (List.mem_of_getElem? hq))

theorem Awaited.of_set {s : SendWorld} (hc : Awaited s) {t : Nat} {z y : SendTask}
    (hz : z.pc ≠ .taskDelete) (hy : y ∈ s.tasks.set t z) (hypc : y.pc = .taskDelete) :
    ∃ q ∈ s.calls, q.pc.rank ≤ CallPc.test.rank :=
  hc y (mem_of_mem_set (P := fun x => x.pc = .taskDelete) hy hypc hz) hypc

theorem Awaited.task {s s' : SendWorld} (hc : Awaited s) {w : UInt8} {t : Nat}
    (hok : ExitsInCall s (.task w t)) (hs : s.taskStep w t = some s') : Awaited s' := by
  obtain ⟨x, hx, hmove⟩ := taskStep_cases hs
  intro y hy hypc
  rw [hmove.calls]
  cases hmove with
  | memcpy _ => exact hc.of_set SendPc.noConfusion hy hypc
  | write _ => exact hc.of_set SendPc.noConfusion hy hypc
  | stampError _ => exact hc.of_set SendPc.noConfusion hy hypc
  | quiet z flag es _ hafter _ _ => exact hc.of_set hafter.1 hy hypc
  | clearHandleFlag hpc =>
      have hat : (s.tasks[t]?).map SendTask.pc = some .clearHandleFlag := by
        rw [hx, Option.map_some, hpc]
      obtain ⟨q, hq, hprogress⟩ := hok.2 hat
      have hnot := hok.1 hat q hq
      refine ⟨q, hq, ?_⟩
      cases hqpc : q.pc with
      | setHandleFlag => exact absurd hqpc hnot
      | returned => exact absurd hqpc hprogress
      | _ => decide
  | taskDelete hpc => exact hc x (List.mem_of_getElem? hx) hpc

theorem statementStep_awaited {s s' : SendWorld} {a : StatementAct} (h : Owned s)
    (hc : Awaited s) (hok : ExitsInCall s a) (hs : statementStep s a = some s') : Awaited s' := by
  cases a with
  | enter c =>
      cases hs
      intro x _ _
      exact ⟨⟨c, .storeCmd⟩, List.mem_append_right _ (List.mem_singleton.mpr rfl), Nat.zero_le _⟩
  | call created k => exact .call h hok.1 hs
  | task w t => exact hc.task hok hs
  | rxFlag b =>
      cases hs
      exact hc

theorem Owned.oneSender {s : SendWorld} (h : Owned s) (hc : Awaited s) : s.OneSender where
  one := h.one
  flag := by
    intro hreturned
    have howes : ∀ q ∈ s.calls, q.pc ≠ .setHandleFlag := by
      intro q hq
      rw [hreturned q hq]
      exact CallPc.noConfusion
    rw [h.flag_iff howes]
    constructor
    · rintro ⟨x, hx, hrunning⟩
      exact ⟨x, hx, hrunning.2.1⟩
    · rintro ⟨x, hx, halive⟩
      refine ⟨x, hx, fun hexiting => ?_, halive, h.own x hx⟩
      obtain ⟨q, hq, hrank⟩ := hc x hx hexiting
      rw [hreturned q hq] at hrank
      exact absurd hrank (by decide)
  own := h.own

/-- **At most one sender, and never a dead one believed alive**, in every
run whose tasks are created, tested for and ended undivided. -/
theorem one_sender (as : List StatementAct)
    (hundivided : Guarded statementStep ExitsInCall SendWorld.boot as) :
    Always statementStep SendWorld.OneSender SendWorld.boot as :=
  always_of_guarded (I := fun s => Owned s ∧ Awaited s) (fun _ h => h.1.oneSender h.2)
    (fun _ _ _ h hok hs => ⟨statementStep_owned h.1 hok.1 hs, statementStep_awaited h.1 h.2 hok hs⟩)
    ⟨boot_owned, by rintro x ⟨⟩⟩ hundivided

/-- A command is sent, and the next call comes while the task is on its
way out. -/
theorem one_sender_two_calls :
    ∃ s, run statementStep SendWorld.boot
        (.enter ⟨0, 1⟩ :: List.replicate 6 (.call true 0) ++ List.replicate 9 (.task 1 0)
          ++ .enter ⟨1, 50⟩ :: List.replicate 2 (.task 1 0) ++ List.replicate 6 (.call true 1))
        = some s ∧ s.OneSender := by
  refine ⟨_, rfl, ?_⟩
  have hall := one_sender
    (.enter ⟨0, 1⟩ :: List.replicate 6 (.call true 0) ++ List.replicate 9 (.task 1 0)
      ++ .enter ⟨1, 50⟩ :: List.replicate 2 (.task 1 0) ++ List.replicate 6 (.call true 1))
    (by decide)
  exact always_iff_prefix.mp hall _ (List.prefix_refl _) _ rfl

/-- One call, whose task runs to its end before the call gets to its
assignment of 1. -/
theorem dead_sender_believed_alive :
    ¬ ∀ as, Always statementStep SendWorld.OneSender SendWorld.boot as := by
  intro h
  have hend := always_iff_prefix.mp (h
    (.enter ⟨0, 1⟩ :: List.replicate 5 (.call true 0) ++ List.replicate 11 (.task 1 0)
      ++ [.call true 0])) _ (List.prefix_refl _) _ rfl
  have halive := (hend.flag (by decide)).mp rfl
  revert halive
  decide

/-! ## A sender believed alive -/

/-- The handle flag is 1 and there is no task. -/
def SendWorld.Dead (s : SendWorld) : Prop :=
  s.ucSendTaskHandleFlag = true ∧ ∀ x ∈ s.tasks, x.pc = .deleted

theorem statementStep_dead {s s' : SendWorld} {a : StatementAct} (h : s.Dead)
    (hs : statementStep s a = some s') : s'.Dead ∧ s'.effects = s.effects := by
  obtain ⟨hflag, hgone⟩ := h
  cases a with
  | enter c =>
      cases hs
      exact ⟨⟨hflag, hgone⟩, rfl⟩
  | rxFlag b =>
      cases hs
      exact ⟨⟨hflag, hgone⟩, rfl⟩
  | call created k =>
      obtain ⟨q, hq, hmove⟩ := callStep_cases hs
      refine ⟨?_, hmove.frame.1⟩
      cases hmove with
      | create _ hdown =>
          rw [hflag] at hdown
          cases hdown
      | setHandleFlag _ => exact ⟨rfl, hgone⟩
      | _ => exact ⟨hflag, hgone⟩
  | task w t =>
      have hs : s.taskStep w t = some s' := hs
      unfold SendWorld.taskStep at hs
      cases hx : s.tasks[t]? with
      | none =>
          rw [hx] at hs
          cases hs
      | some x =>
          simp only [hx, hgone x (List.mem_of_getElem? hx)] at hs
          cases hs

/-- **A sender believed alive is never replaced**: whatever is called
from then on, no frame is written any more. -/
theorem dead_for_good {s s' : SendWorld} {as : List StatementAct} (h : s.Dead)
    (hrun : run statementStep s as = some s') : s'.Dead ∧ s'.effects = s.effects := by
  induction as generalizing s with
  | nil =>
      cases hrun
      exact ⟨h, rfl⟩
  | cons a as ih =>
      obtain ⟨m, hm, hr⟩ := run_cons_some.mp hrun
      obtain ⟨hdead, heffects⟩ := statementStep_dead h hm
      have hrest := ih hdead hr
      exact ⟨hrest.1, hrest.2.trans heffects⟩

/-- With the flag up a call goes on and starts nothing. -/
theorem call_goes_on {s : SendWorld} {k : Nat} {q : SendCall} (hq : s.calls[k]? = some q)
    (hpc : q.pc ≠ .returned) (hflag : s.ucSendTaskHandleFlag = true) :
    ∃ pc s', statementStep s (.call true k) = some s' ∧ q.pc.rank < pc.rank ∧
      s'.calls = s.calls.set k { q with pc := pc } ∧ s'.tasks = s.tasks ∧
      s'.ucSendTaskHandleFlag = true := by
  obtain ⟨s', hs⟩ := callStep_enabled hq hpc true
  obtain ⟨r, hr, hmove⟩ := callStep_cases hs
  rw [hq] at hr
  cases hr
  cases hmove with
  | storeCmd hpc => exact ⟨.storeDat, _, hs, by simp [hpc, CallPc.rank], rfl, rfl, hflag⟩
  | storeDat hpc => exact ⟨.storeSum, _, hs, by simp [hpc, CallPc.rank], rfl, rfl, hflag⟩
  | storeSum hpc => exact ⟨.setFlag, _, hs, by simp [hpc, CallPc.rank], rfl, rfl, hflag⟩
  | setFlag hpc => exact ⟨.test, _, hs, by simp [hpc, CallPc.rank], rfl, rfl, hflag⟩
  | create _ hdown =>
      rw [hflag] at hdown
      cases hdown
  | leave hpc => exact ⟨.returned, _, hs, by simp [hpc, CallPc.rank], rfl, rfl, hflag⟩
  | setHandleFlag hpc => exact ⟨.returned, _, hs, by simp [hpc, CallPc.rank], rfl, rfl, rfl⟩

/-- With the flag up all calls can be run to their ends. -/
theorem all_return {s : SendWorld} (hflag : s.ucSendTaskHandleFlag = true) :
    ∃ as s', run statementStep s as = some s' ∧ (∀ q ∈ s'.calls, q.pc = .returned) ∧
      s'.tasks = s.tasks ∧ s'.ucSendTaskHandleFlag = true := by
  -- by induction on the number of statements the calls have left
  induction hn : (s.calls.map fun q => 6 - q.pc.rank).sum using Nat.strong_induction_on
    generalizing s with
  | h n ih =>
      by_cases hall : ∀ q ∈ s.calls, q.pc = .returned
      · exact ⟨[], s, rfl, hall, rfl, hflag⟩
      · simp only [not_forall] at hall
        obtain ⟨q, hmem, hpc⟩ := hall
        obtain ⟨k, hq⟩ := List.getElem?_of_mem hmem
        obtain ⟨pc, m, hm, hrank, hcalls, htasks, hflag'⟩ := call_goes_on hq hpc hflag
        have hle : pc.rank ≤ 6 := by cases pc <;> decide
        have hsum : (m.calls.map fun q => 6 - q.pc.rank).sum + (6 - q.pc.rank)
            = (s.calls.map fun q => 6 - q.pc.rank).sum + (6 - pc.rank) := by
          rw [hcalls]
          exact sum_map_set_add hq _ _
        obtain ⟨as, s', hr, hreturned, htasks', hflag''⟩ := ih _ (by omega) hflag' rfl
        exact ⟨.call true k :: as, s', run_cons_some.mpr ⟨m, hm, hr⟩, hreturned,
          htasks'.trans htasks, hflag''⟩

/-! ## What a step outside the condition leads to -/

/-- A creation that divides another one's, or an exit, makes a second
task. -/
theorem second_sender {s s' : SendWorld} (h : Owned s) {k : Nat}
    (hok : ¬ Undivided s (.call true k)) (hs : s.callStep true k = some s') : ¬ s'.OneSender := by
  rw [Undivided, Classical.not_imp, Classical.not_imp, not_and_or] at hok
  obtain ⟨hat, hflag, hother⟩ := hok
  obtain ⟨q, hq, hpc⟩ := Option.map_eq_some_iff.mp hat
  have haccount := h.account
  rw [hflag, Bool.toNat_false] at haccount
  have hpos : 0 < s.tasks.countP SendTask.alive := by
    rcases hother with howes | hexits
    · have hne := mt countP_owing_eq_zero.mp howes
      omega
    · have hne := mt countP_exiting_eq_zero.mp hexits
      omega
  simp only [SendWorld.callStep, hq, hpc, hflag, if_true] at hs
  cases hs
  intro hone
  have hle : (s.tasks ++ [SendTask.created]).countP SendTask.alive ≤ 1 := hone.one
  rw [List.countP_append] at hle
  have hnew : [SendTask.created].countP SendTask.alive = 1 := rfl
  omega

/-- An exit while no call is in progress leaves the flag down for a task
that is still there. -/
theorem exit_without_call {s : SendWorld} {t : Nat} {x : SendTask} (hx : s.tasks[t]? = some x)
    (hcalls : ∀ q ∈ s.calls, q.pc = .returned) :
    ¬ ({ s with ucSendTaskHandleFlag := false }.taskTo t x .taskDelete).OneSender := by
  intro hone
  have hmem : (⟨.taskDelete, x.ucSendBuffTemp⟩ : SendTask) ∈ s.tasks.set t _ :=
    List.mem_of_getElem? (getElem?_set_of_getElem? hx)
  have hup := (hone.flag hcalls).mpr ⟨_, hmem, SendPc.noConfusion⟩
  cases hup

/-- An exit between a creation and its assignment of 1 ends with the
flag up for a task that is gone. -/
theorem exit_in_creation {s s' : SendWorld} (h : Owned s) {w : UInt8} {t : Nat}
    (hok : ¬ Undivided s (.task w t)) (hs : s.taskStep w t = some s') :
    ∃ as s'', run statementStep s' as = some s'' ∧ s''.Dead ∧ ¬ s''.OneSender := by
  rw [Undivided, Classical.not_imp] at hok
  obtain ⟨hat, howes⟩ := hok
  obtain ⟨x, hx, hpc⟩ := Option.map_eq_some_iff.mp hat
  simp only [not_forall, not_not] at howes
  obtain ⟨q, hmem, hq⟩ := howes
  obtain ⟨k, hk⟩ := List.getElem?_of_mem hmem
  simp only [SendWorld.taskStep, hx, hpc, Option.some.injEq] at hs
  subst hs
  -- the task deletes itself, being the one of the handle
  have hhandle := h.handle t x hx (by simp [hpc])
  have hdelete : statementStep
      ({ s with ucSendTaskHandleFlag := false }.taskTo t x .taskDelete) (.task w t)
      = some ({ s with ucSendTaskHandleFlag := false }.taskTo t x .deleted) := by
    have hx' := getElem?_set_of_getElem? (y := { x with pc := SendPc.taskDelete }) hx
    simp [statementStep, SendWorld.taskStep, SendWorld.vTaskDelete, SendWorld.taskTo, hx', hhandle]
  have hgone : ∀ y ∈ s.tasks.set t { x with pc := .deleted }, y.pc = .deleted := by
    have halive : (s.tasks.set t { x with pc := .deleted }).countP SendTask.alive + 1
        = s.tasks.countP SendTask.alive := by
      simpa [SendTask.alive, hpc] using countP_set_add hx SendTask.alive { x with pc := .deleted }
    have hone := h.one
    rw [← countP_alive_eq_zero]
    omega
  -- the call puts the flag up, and the others come to their ends
  have hassign : statementStep ({ s with ucSendTaskHandleFlag := false }.taskTo t x .deleted)
      (.call true k)
      = some (({ s with ucSendTaskHandleFlag := true }.taskTo t x .deleted).callTo
          k q .returned) := by
    simp [statementStep, SendWorld.callStep, SendWorld.taskTo, SendWorld.callTo, hk, hq]
  obtain ⟨as, s'', hrun, hreturned, htasks, hflag⟩ := all_return
    (s := ({ s with ucSendTaskHandleFlag := true }.taskTo t x .deleted).callTo k q .returned) rfl
  have hdead : ∀ y ∈ s''.tasks, y.pc = .deleted := by
    rw [htasks]
    exact hgone
  refine ⟨.task w t :: .call true k :: as, s'', ?_, ⟨hflag, hdead⟩, ?_⟩
  · rw [run_cons, hdelete, Option.bind_some, run_cons, hassign]
    exact hrun
  · intro hone
    obtain ⟨y, hy, halive⟩ := (hone.flag hreturned).mp hflag
    exact halive (hdead y hy)

/-- **A step outside `ExitsInCall`** can be continued to a state without
`OneSender`, when an `xTaskCreate` it makes succeeds. -/
theorem breaks_of_divided {s s' : SendWorld} {a : StatementAct} (h : Owned s)
    (hok : ¬ ExitsInCall s a) (ha : ∀ k, a ≠ .call false k) (hs : statementStep s a = some s') :
    ∃ as s'', run statementStep s' as = some s'' ∧ ¬ s''.OneSender := by
  cases a with
  | enter c => exact absurd ⟨trivial, trivial⟩ hok
  | rxFlag b => exact absurd ⟨trivial, trivial⟩ hok
  | call created k =>
      cases created with
      | false => exact absurd rfl (ha k)
      | true => exact ⟨[], s', rfl, second_sender h (fun hu => hok ⟨hu, trivial⟩) hs⟩
  | task w t =>
      by_cases hu : Undivided s (.task w t)
      · have hout : ¬ ((s.tasks[t]?).map SendTask.pc = some .clearHandleFlag →
            ∃ q ∈ s.calls, q.pc ≠ .returned) := fun hin => hok ⟨hu, hin⟩
        obtain ⟨hat, hcalls⟩ := Classical.not_imp.mp hout
        obtain ⟨x, hx, hpc⟩ := Option.map_eq_some_iff.mp hat
        have hs : s.taskStep w t = some s' := hs
        simp only [SendWorld.taskStep, hx, hpc, Option.some.injEq] at hs
        subst hs
        refine ⟨[], _, rfl, exit_without_call hx ?_⟩
        intro q hq
        by_contra hne
        exact hcalls ⟨q, hq, hne⟩
      · obtain ⟨as, s'', hrun, -, hbreaks⟩ := exit_in_creation h hu hs
        exact ⟨as, s'', hrun, hbreaks⟩

end LiveWireSwitch
