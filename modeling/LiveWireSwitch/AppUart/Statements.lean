import LiveWireSwitch.AppUart.SendTask
import LiveWireSwitch.Lib.Pool

/-!
# AppUart — Statements

`send_bri_ctrl_info` and `send_uart_info_task` again, a statement at a
time. In `SendTask` a call is one step and there is one task; here any
number of calls and of tasks are each at a place of their own in the
code, and whoever moves executes one C statement. The `xTaskCreate` goes
with the test it stands under, since the new task has the higher
priority and may run before its creator gets to the assignment after it.

Calls and tasks are never taken off their lists, so an index names one
call or one task for a whole run.
-/

namespace LiveWireSwitch

open Lib

/-! ## Places in the code -/

/-- The statement of `send_bri_ctrl_info` a call is about to execute. -/
inductive CallPc where
  | storeCmd
  | storeDat
  /-- the checksum -/
  | storeSum
  | setFlag
  /-- `if (0 == ucSendTaskHandle_Flag)` and the `xTaskCreate` in it -/
  | test
  /-- `ucSendTaskHandle_Flag = 1` -/
  | setHandleFlag
  | returned
deriving DecidableEq, Repr

/-- How far a call has come. -/
def CallPc.rank : CallPc → Nat
  | .storeCmd => 0
  | .storeDat => 1
  | .storeSum => 2
  | .setFlag => 3
  | .test => 4
  | .setHandleFlag => 5
  | .returned => 6

/-- A call with its arguments. -/
structure SendCall where
  arg : Cmd
  pc : CallPc
deriving DecidableEq, Repr

/-- The statement of `send_uart_info_task` a task is about to execute. -/
inductive SendPc where
  | memcpy
  /-- the first `ucSendFlag = 0` -/
  | clearFlag
  | checkHead
  /-- `while (ucRxTaskHandle_Flag)` -/
  | rxWait
  | write
  | report
  /-- the second `ucSendFlag = 0` -/
  | clearAgain
  /-- after the delay, `if (0 == ucSendFlag)` -/
  | testFlag
  /-- `ucSendBuff[2] = ERRORCMD` -/
  | stampError
  /-- `ucSendTaskHandle_Flag = 0` -/
  | clearHandleFlag
  /-- `vTaskDelete(ucSendTaskHandle)` -/
  | taskDelete
  | deleted
  /-- past a `vTaskDelete` that deleted another task -/
  | returned
deriving DecidableEq, Repr

/-- A task with its `ucSendBuff_temp`. -/
structure SendTask where
  pc : SendPc
  ucSendBuffTemp : Frame
deriving DecidableEq, Repr

/-- A task that `xTaskCreate` has just made. -/
def SendTask.created : SendTask := ⟨.memcpy, ⟨0, 0, 0, 0, 0⟩⟩

/-- The static variables, the calls made so far, the tasks created so
far and the effects of the tasks. A task handle is the index of a
task. -/
structure SendWorld where
  ucSendBuff : Frame
  ucSendFlag : Bool
  ucSendTaskHandleFlag : Bool
  ucSendTaskHandle : Option Nat
  ucRxTaskHandleFlag : Bool
  calls : List SendCall
  tasks : List SendTask
  effects : List Effect
deriving DecidableEq

def SendWorld.boot : SendWorld := ⟨Frame.blank, false, false, none, false, [], [], []⟩

/-! ## Statements -/

/-- Call `k` goes to its next statement. -/
def SendWorld.callTo (s : SendWorld) (k : Nat) (q : SendCall) (pc : CallPc) : SendWorld :=
  { s with calls := s.calls.set k { q with pc := pc } }

/-- Task `t` goes to its next statement. -/
def SendWorld.taskTo (s : SendWorld) (t : Nat) (x : SendTask) (pc : SendPc) : SendWorld :=
  { s with tasks := s.tasks.set t { x with pc := pc } }

/-- The next statement of call `k`; `created` is whether the
`xTaskCreate` it may come to succeeds. -/
def SendWorld.callStep (created : Bool) (k : Nat) (s : SendWorld) : Option SendWorld :=
  match s.calls[k]? with
  | none => none
  | some q =>
    match q.pc with
    | .storeCmd =>
        some ({ s with ucSendBuff := { s.ucSendBuff with cmd := q.arg.cmd } }.callTo k q .storeDat)
    | .storeDat =>
        some ({ s with ucSendBuff := { s.ucSendBuff with dat := q.arg.dat } }.callTo k q .storeSum)
    | .storeSum =>
        some ({ s with ucSendBuff := { s.ucSendBuff with sum := s.ucSendBuff.checksum } }.callTo
          k q .setFlag)
    | .setFlag => some ({ s with ucSendFlag := true }.callTo k q .test)
    | .test =>
        if s.ucSendTaskHandleFlag = false then
          if created then
            some ({ s with
              ucSendTaskHandle := some s.tasks.length
              tasks := s.tasks ++ [SendTask.created] }.callTo k q .setHandleFlag)
          else some (s.callTo k q .returned)
        else some (s.callTo k q .returned)
    | .setHandleFlag => some ({ s with ucSendTaskHandleFlag := true }.callTo k q .returned)
    | .returned => none

/-- `vTaskDelete(ucSendTaskHandle)` in task `t`: the task of the handle
is gone, and when that is another one the caller goes on. A null handle
stands for the caller. -/
def SendWorld.vTaskDelete (s : SendWorld) (t : Nat) (x : SendTask) : SendWorld :=
  match s.ucSendTaskHandle with
  | none => s.taskTo t x .deleted
  | some j =>
      if j = t then s.taskTo t x .deleted
      else
        { s with tasks := s.tasks.modify j fun y => { y with pc := .deleted } }.taskTo t x .returned

/-- The next statement of task `t`, `w` being `s_wifi_init_end_flag`. -/
def SendWorld.taskStep (w : UInt8) (t : Nat) (s : SendWorld) : Option SendWorld :=
  match s.tasks[t]? with
  | none => none
  | some x =>
    match x.pc with
    | .memcpy => some (s.taskTo t { x with ucSendBuffTemp := s.ucSendBuff } .clearFlag)
    | .clearFlag => some ({ s with ucSendFlag := false }.taskTo t x .checkHead)
    | .checkHead =>
        if x.ucSendBuffTemp.head1 ≠ sendHead1 ∨ x.ucSendBuffTemp.head2 ≠ sendHead2 then
          some (s.taskTo t { x with ucSendBuffTemp := { x.ucSendBuffTemp with cmd := errorCmd } }
            .clearHandleFlag)
        else some (s.taskTo t x .rxWait)
    | .rxWait => if s.ucRxTaskHandleFlag then some s else some (s.taskTo t x .write)
    | .write =>
        some ({ s with effects := s.effects ++ transmit x.ucSendBuffTemp }.taskTo t x .report)
    | .report =>
        some ({ s with
          effects := s.effects
            ++ forward w x.ucSendBuffTemp.cmd x.ucSendBuffTemp.dat.toUInt32 }.taskTo
          t x .clearAgain)
    | .clearAgain => some ({ s with ucSendFlag := false }.taskTo t x .testFlag)
    | .testFlag =>
        if s.ucSendFlag = false then some (s.taskTo t x .stampError)
        else some (s.taskTo t x .memcpy)
    | .stampError =>
        some ({ s with ucSendBuff := { s.ucSendBuff with cmd := errorCmd } }.taskTo
          t x .clearHandleFlag)
    | .clearHandleFlag => some ({ s with ucSendTaskHandleFlag := false }.taskTo t x .taskDelete)
    | .taskDelete => some (s.vTaskDelete t x)
    | .deleted => none
    | .returned => none

/-- Who moves: a new caller, a call, a task, or whoever sets the flag
the tasks wait on. -/
inductive StatementAct where
  | enter (c : Cmd)
  | call (created : Bool) (k : Nat)
  | task (sWifiInitEndFlag : UInt8) (t : Nat)
  | rxFlag (b : Bool)
deriving DecidableEq, Repr

/-- One C statement. -/
def statementStep (s : SendWorld) : StatementAct → Option SendWorld
  | .enter c => some { s with calls := s.calls ++ [⟨c, .storeCmd⟩] }
  | .call created k => s.callStep created k
  | .task w t => s.taskStep w t
  | .rxFlag b => some { s with ucRxTaskHandleFlag := b }

/-! ## What a statement can do -/

/-- The statements up to the assignment of 0 to the handle flag. -/
def SendPc.Running (pc : SendPc) : Prop :=
  pc ≠ .taskDelete ∧ pc ≠ .deleted ∧ pc ≠ .returned

/-- The statements that touch no variable a call or another task looks
at, but for the pending flag. -/
def SendPc.Quiet (pc : SendPc) : Prop :=
  pc = .clearFlag ∨ pc = .checkHead ∨ pc = .rxWait ∨ pc = .report ∨ pc = .clearAgain ∨
    pc = .testFlag

theorem SendPc.Quiet.running {pc : SendPc} (h : pc.Quiet) : pc.Running := by
  rcases h with rfl | rfl | rfl | rfl | rfl | rfl <;> simp [SendPc.Running]

/-- The task has copied the mailbox and not yet written the copy. -/
def SendTask.Holds (x : SendTask) : Prop :=
  x.pc = .clearFlag ∨ x.pc = .checkHead ∨ x.pc = .rxWait ∨ x.pc = .write

/-- The steps of a call at `q`. -/
inductive CallMove (s : SendWorld) (k : Nat) (q : SendCall) : SendWorld → Prop where
  | storeCmd (at_pc : q.pc = .storeCmd) : CallMove s k q
      ({ s with ucSendBuff := { s.ucSendBuff with cmd := q.arg.cmd } }.callTo k q .storeDat)
  | storeDat (at_pc : q.pc = .storeDat) : CallMove s k q
      ({ s with ucSendBuff := { s.ucSendBuff with dat := q.arg.dat } }.callTo k q .storeSum)
  | storeSum (at_pc : q.pc = .storeSum) : CallMove s k q
      ({ s with ucSendBuff := { s.ucSendBuff with sum := s.ucSendBuff.checksum } }.callTo
        k q .setFlag)
  | setFlag (at_pc : q.pc = .setFlag) : CallMove s k q
      ({ s with ucSendFlag := true }.callTo k q .test)
  | create (at_pc : q.pc = .test) (flag : s.ucSendTaskHandleFlag = false) : CallMove s k q
      ({ s with
        ucSendTaskHandle := some s.tasks.length
        tasks := s.tasks ++ [SendTask.created] }.callTo k q .setHandleFlag)
  | leave (at_pc : q.pc = .test) : CallMove s k q (s.callTo k q .returned)
  | setHandleFlag (at_pc : q.pc = .setHandleFlag) : CallMove s k q
      ({ s with ucSendTaskHandleFlag := true }.callTo k q .returned)

theorem callStep_cases {s s' : SendWorld} {created : Bool} {k : Nat}
    (h : s.callStep created k = some s') : ∃ q, s.calls[k]? = some q ∧ CallMove s k q s' := by
  unfold SendWorld.callStep at h
  cases hq : s.calls[k]? with
  | none =>
      rw [hq] at h
      cases h
  | some q =>
      refine ⟨q, rfl, ?_⟩
      rw [hq] at h
      cases hpc : q.pc <;> simp only [hpc] at h
      case storeCmd => cases h; exact .storeCmd hpc
      case storeDat => cases h; exact .storeDat hpc
      case storeSum => cases h; exact .storeSum hpc
      case setFlag => cases h; exact .setFlag hpc
      case test =>
        split at h
        · split at h
          · cases h; exact .create hpc ‹_›
          · cases h; exact .leave hpc
        · cases h; exact .leave hpc
      case setHandleFlag => cases h; exact .setHandleFlag hpc
      case returned => cases h

/-- A call that has not returned can move. -/
theorem callStep_enabled {s : SendWorld} {k : Nat} {q : SendCall} (hq : s.calls[k]? = some q)
    (hpc : q.pc ≠ .returned) (created : Bool) : ∃ s', s.callStep created k = some s' := by
  unfold SendWorld.callStep
  rw [hq]
  cases hat : q.pc with
  | test =>
      simp only [hat]
      split
      · split
        · exact ⟨_, rfl⟩
        · exact ⟨_, rfl⟩
      · exact ⟨_, rfl⟩
  | returned => exact absurd hat hpc
  | _ =>
      simp only [hat]
      exact ⟨_, rfl⟩

/-- The steps of a task at `x`. -/
inductive TaskMove (s : SendWorld) (t : Nat) (x : SendTask) : SendWorld → Prop where
  | memcpy (at_pc : x.pc = .memcpy) : TaskMove s t x
      (s.taskTo t { x with ucSendBuffTemp := s.ucSendBuff } .clearFlag)
  | write (at_pc : x.pc = .write) : TaskMove s t x
      ({ s with effects := s.effects ++ transmit x.ucSendBuffTemp }.taskTo t x .report)
  | stampError (at_pc : x.pc = .stampError) : TaskMove s t x
      ({ s with ucSendBuff := { s.ucSendBuff with cmd := errorCmd } }.taskTo t x .clearHandleFlag)
  | clearHandleFlag (at_pc : x.pc = .clearHandleFlag) : TaskMove s t x
      ({ s with ucSendTaskHandleFlag := false }.taskTo t x .taskDelete)
  | taskDelete (at_pc : x.pc = .taskDelete) : TaskMove s t x (s.vTaskDelete t x)
  | quiet (y : SendTask) (flag : Bool) (es : List Effect) (before : x.pc.Quiet)
      (after : y.pc.Running) (holds : y.Holds → x.Holds ∧ y.ucSendBuffTemp = x.ucSendBuffTemp)
      (silent : writtenFrames es = []) : TaskMove s t x
      { s with ucSendFlag := flag, effects := s.effects ++ es, tasks := s.tasks.set t y }

theorem TaskMove.quiet_to {s : SendWorld} {t : Nat} {x : SendTask} (pc : SendPc) (flag : Bool)
    (before : x.pc.Quiet) (after : pc.Running) (holds : SendTask.Holds ⟨pc, x.2⟩ → x.Holds) :
    TaskMove s t x ({ s with ucSendFlag := flag }.taskTo t x pc) := by
  have h : TaskMove s t x _ := .quiet { x with pc := pc } flag [] before after
    (fun hy => ⟨holds hy, rfl⟩) rfl
  rw [List.append_nil] at h
  exact h

theorem taskTo_self {s : SendWorld} {t : Nat} {x : SendTask} (h : s.tasks[t]? = some x) :
    s.taskTo t x x.pc = s := by
  obtain ⟨ht, rfl⟩ := List.getElem?_eq_some_iff.mp h
  show { s with tasks := s.tasks.set t s.tasks[t] } = s
  rw [List.set_getElem_self]

theorem taskStep_cases {s s' : SendWorld} {w : UInt8} {t : Nat} (h : s.taskStep w t = some s') :
    ∃ x, s.tasks[t]? = some x ∧ TaskMove s t x s' := by
  unfold SendWorld.taskStep at h
  cases hx : s.tasks[t]? with
  | none =>
      rw [hx] at h
      cases h
  | some x =>
      refine ⟨x, rfl, ?_⟩
      rw [hx] at h
      cases hpc : x.pc <;> simp only [hpc] at h
      case memcpy => cases h; exact .memcpy hpc
      case clearFlag =>
        cases h
        exact .quiet_to .checkHead false (by simp [hpc, SendPc.Quiet]) (by simp [SendPc.Running])
          (fun _ => .inl hpc)
      case checkHead =>
        have hquiet : x.pc.Quiet := by simp [hpc, SendPc.Quiet]
        split at h
        · -- the copy is given up and with it the loop
          cases h
          have hgone : ¬ SendTask.Holds
              ⟨.clearHandleFlag, { x.ucSendBuffTemp with cmd := errorCmd }⟩ := by
            simp [SendTask.Holds]
          have hmove : TaskMove s t x _ := .quiet
            ⟨.clearHandleFlag, { x.ucSendBuffTemp with cmd := errorCmd }⟩ s.ucSendFlag [] hquiet
            (by simp [SendPc.Running]) (fun hy => absurd hy hgone) rfl
          rw [List.append_nil] at hmove
          exact hmove
        · cases h
          exact .quiet_to .rxWait s.ucSendFlag hquiet (by simp [SendPc.Running])
            (fun _ => .inr (.inl hpc))
      case rxWait =>
        have hquiet : x.pc.Quiet := by simp [hpc, SendPc.Quiet]
        split at h
        · cases h
          have hstays : TaskMove s t x (s.taskTo t x x.pc) := .quiet_to x.pc s.ucSendFlag hquiet
            (by simp [hpc, SendPc.Running]) (fun hy => hy)
          rw [taskTo_self hx] at hstays
          exact hstays
        · cases h
          exact .quiet_to .write s.ucSendFlag hquiet (by simp [SendPc.Running])
            (fun _ => .inr (.inr (.inl hpc)))
      case write => cases h; exact .write hpc
      case report =>
        cases h
        exact .quiet { x with pc := .clearAgain } _ _ (by simp [hpc, SendPc.Quiet])
          (by simp [SendPc.Running]) (by simp [SendTask.Holds]) (writtenFrames_forward _ _ _)
      case clearAgain =>
        cases h
        exact .quiet_to .testFlag false (by simp [hpc, SendPc.Quiet]) (by simp [SendPc.Running])
          (by simp [SendTask.Holds])
      case testFlag =>
        have hquiet : x.pc.Quiet := by simp [hpc, SendPc.Quiet]
        split at h
        · cases h
          exact .quiet_to .stampError s.ucSendFlag hquiet (by simp [SendPc.Running])
            (by simp [SendTask.Holds])
        · cases h
          exact .quiet_to .memcpy s.ucSendFlag hquiet (by simp [SendPc.Running])
            (by simp [SendTask.Holds])
      case stampError => cases h; exact .stampError hpc
      case clearHandleFlag => cases h; exact .clearHandleFlag hpc
      case taskDelete => cases h; exact .taskDelete hpc
      case deleted => cases h
      case returned => cases h

/-! ## Frames of every step -/

/-- Every call of `l` is in `l'`, with its arguments and no further
back. -/
def Onwards (l l' : List SendCall) : Prop :=
  ∀ (k : Nat) (q : SendCall), l[k]? = some q → ∃ pc, l'[k]? = some ⟨q.arg, pc⟩ ∧ q.pc.rank ≤ pc.rank

theorem Onwards.refl (l : List SendCall) : Onwards l l := by
  intro k q hq
  exact ⟨q.pc, hq, Nat.le_refl _⟩

theorem Onwards.append (l l' : List SendCall) : Onwards l (l ++ l') := by
  intro k q hq
  have hk : k < l.length := (List.getElem?_eq_some_iff.mp hq).1
  refine ⟨q.pc, ?_, Nat.le_refl _⟩
  rw [List.getElem?_append_left hk]
  exact hq

theorem Onwards.set {l : List SendCall} {k : Nat} {q : SendCall} (h : l[k]? = some q) {pc : CallPc}
    (hpc : q.pc.rank ≤ pc.rank) : Onwards l (l.set k { q with pc := pc }) := by
  intro j r hr
  by_cases hjk : j = k
  · subst hjk
    rw [h] at hr
    cases hr
    exact ⟨pc, getElem?_set_of_getElem? h, hpc⟩
  · refine ⟨r.pc, ?_, Nat.le_refl _⟩
    rw [List.getElem?_set_ne (Ne.symm hjk)]
    exact hr

theorem CallMove.onwards {s s' : SendWorld} {k : Nat} {q : SendCall} (hq : s.calls[k]? = some q)
    (h : CallMove s k q s') : Onwards s.calls s'.calls := by
  cases h with
  | storeCmd hpc => exact .set hq (by simp [hpc, CallPc.rank])
  | storeDat hpc => exact .set hq (by simp [hpc, CallPc.rank])
  | storeSum hpc => exact .set hq (by simp [hpc, CallPc.rank])
  | setFlag hpc => exact .set hq (by simp [hpc, CallPc.rank])
  | create hpc _ => exact .set hq (by simp [hpc, CallPc.rank])
  | leave hpc => exact .set hq (by simp [hpc, CallPc.rank])
  | setHandleFlag hpc => exact .set hq (by simp [hpc, CallPc.rank])

/-- `vTaskDelete` touches no variable but the tasks. -/
theorem vTaskDelete_eq (s : SendWorld) (t : Nat) (x : SendTask) :
    s.vTaskDelete t x = { s with tasks := (s.vTaskDelete t x).tasks } := by
  unfold SendWorld.vTaskDelete
  split
  · rfl
  · split <;> rfl

/-- A task leaves the calls alone. -/
theorem TaskMove.calls {s s' : SendWorld} {t : Nat} {x : SendTask} (h : TaskMove s t x s') :
    s'.calls = s.calls := by
  cases h with
  | taskDelete _ => rw [vTaskDelete_eq]
  | _ => rfl

/-- A call leaves the effects alone, and the tasks but for the one it
creates. -/
theorem CallMove.frame {s s' : SendWorld} {k : Nat} {q : SendCall} (h : CallMove s k q s') :
    s'.effects = s.effects ∧ (s'.tasks = s.tasks ∨ s'.tasks = s.tasks ++ [SendTask.created]) := by
  cases h with
  | create _ _ => exact ⟨rfl, .inr rfl⟩
  | _ => exact ⟨rfl, .inl rfl⟩

/-- `vTaskDelete` only ends tasks. -/
theorem mem_vTaskDelete {s : SendWorld} {t : Nat} {x y : SendTask}
    (h : y ∈ (s.vTaskDelete t x).tasks) : y ∈ s.tasks ∨ y.pc = .deleted ∨ y.pc = .returned := by
  unfold SendWorld.vTaskDelete at h
  split at h
  · rcases List.mem_or_eq_of_mem_set h with hy | rfl
    · exact .inl hy
    · exact .inr (.inl rfl)
  · split at h
    · rcases List.mem_or_eq_of_mem_set h with hy | rfl
      · exact .inl hy
      · exact .inr (.inl rfl)
    · rcases List.mem_or_eq_of_mem_set h with hy | rfl
      · obtain ⟨i, hi⟩ := List.getElem?_of_mem hy
        rw [List.getElem?_modify, Option.map_eq_map, Option.map_eq_some_iff] at hi
        obtain ⟨z, hz, rfl⟩ := hi
        split
        · exact .inr (.inl rfl)
        · exact .inl (List.mem_of_getElem? hz)
      · exact .inr (.inr rfl)

end LiveWireSwitch
