import LiveWireSwitch.AppUart.DealWith
import LiveWireSwitch.Lib.Runs

/-!
# AppUart — SendTask

The transmit side of `app_uart.c`. `send_bri_ctrl_info` leaves a command
in a mailbox of one slot (`ucSendBuff` with the pending flag
`ucSendFlag`) and starts `send_uart_info_task` if none is alive; the
task copies the slot, transmits the copy, reports it and looks whether
more is pending. The task's program is cut at the points where a call
can fall, so every interleaving of calls and task is a run of the system
below.

The task clears the pending flag twice, after its copy and again after
its report. `last_written_iff` says what the second one costs.
-/

namespace LiveWireSwitch

open Lib

/-! ## The mailbox and the task -/

/-- Where `send_uart_info_task` is; `exited` when there is no task. -/
inductive TaskPc where
  | exited
  /-- top of the loop, before the `memcpy` -/
  | copy
  /-- `while (ucRxTaskHandle_Flag)` -/
  | wait
  | write
  | report
  /-- before the second `ucSendFlag = 0` -/
  | clear
  /-- after the delay, before `if (0 == ucSendFlag)` -/
  | test
deriving DecidableEq, Repr

/-- The mailbox and the task with its local copy. The two flags hold
only 0 and 1. -/
structure Sender where
  ucSendBuff : Frame
  ucSendFlag : Bool
  ucSendTaskHandleFlag : Bool
  pc : TaskPc
  ucSendBuffTemp : Frame
deriving DecidableEq, Repr

def Sender.boot : Sender := ⟨Frame.blank, false, false, .exited, ⟨0, 0, 0, 0, 0⟩⟩

/-- `send_bri_ctrl_info(cmd, dat)`; the first argument is whether
`xTaskCreate` succeeds. -/
def sendBriCtrlInfo (created : Bool) (c : Cmd) (s : Sender) : Sender :=
  let s := { s with ucSendBuff := s.ucSendBuff.fill c, ucSendFlag := true }
  if s.ucSendTaskHandleFlag = false then
    if created then
      { s with ucSendTaskHandleFlag := true, pc := .copy, ucSendBuffTemp := ⟨0, 0, 0, 0, 0⟩ }
    else s
  else s

/-- The commands for which the MCU is woken first and waited for
after. -/
def wakesMcu (b : Frame) : Prop :=
  b.cmd = onOffCmd ∨ b.cmd = wifiInitStartCmd ∨ b.cmd = wifiInitEndCmd

instance (b : Frame) : Decidable (wakesMcu b) := inferInstanceAs (Decidable (_ ∨ _ ∨ _))

/-- The transmission of a copied frame. -/
def transmit (b : Frame) : List Effect :=
  (if wakesMcu b then [.wakeupMcuInfoConfig, .wakeupMcuInfo] else [])
    ++ [.stopPowerSave, .uartWriteBytes b, .uartWaitTxDone, .startPowerSave]
    ++ (if wakesMcu b then [.waitForMcuInfoConfig] else [])

/-- `ucSendTaskHandle_Flag = 0; vTaskDelete(ucSendTaskHandle);` -/
def Sender.exit (s : Sender) : Sender := { s with ucSendTaskHandleFlag := false, pc := .exited }

/-- The task's next step, given `ucRxTaskHandle_Flag` and
`s_wifi_init_end_flag` as the step reads them. A task that waits stays
where it is. -/
def taskStep (rxFlag : Bool) (w : UInt8) (s : Sender) : Option (Sender × List Effect) :=
  match s.pc with
  | .exited => none
  | .copy =>
      let s := { s with ucSendBuffTemp := s.ucSendBuff, ucSendFlag := false }
      if s.ucSendBuffTemp.head1 ≠ sendHead1 ∨ s.ucSendBuffTemp.head2 ≠ sendHead2 then
        some ({ s with ucSendBuffTemp := { s.ucSendBuffTemp with cmd := errorCmd } }.exit, [])
      else some ({ s with pc := .wait }, [])
  | .wait => if rxFlag then some (s, []) else some ({ s with pc := .write }, [])
  | .write => some ({ s with pc := .report }, transmit s.ucSendBuffTemp)
  | .report =>
      some ({ s with pc := .clear },
        forward w s.ucSendBuffTemp.cmd s.ucSendBuffTemp.dat.toUInt32)
  | .clear => some ({ s with ucSendFlag := false, pc := .test }, [])
  | .test =>
      if s.ucSendFlag = false then
        some ({ s with ucSendBuff := { s.ucSendBuff with cmd := errorCmd } }.exit, [])
      else some ({ s with pc := .copy }, [])

/-- **The effects of a step of the task**: the transmission, the report,
or none. -/
theorem taskStep_effects {rxFlag : Bool} {w : UInt8} {q : Sender} {r : Sender × List Effect}
    (h : taskStep rxFlag w q = some r) :
    (q.pc = .write ∧ r.2 = transmit q.ucSendBuffTemp) ∨
      (q.pc = .report ∧ r.2 = forward w q.ucSendBuffTemp.cmd q.ucSendBuffTemp.dat.toUInt32) ∨
      (q.pc ≠ .write ∧ q.pc ≠ .report ∧ r.2 = []) := by
  cases hpc : q.pc with
  | exited =>
      rw [taskStep, hpc] at h
      cases h
  | copy =>
      simp only [taskStep, hpc] at h
      split at h <;> cases h <;> exact .inr (.inr ⟨TaskPc.noConfusion, TaskPc.noConfusion, rfl⟩)
  | wait =>
      simp only [taskStep, hpc] at h
      split at h <;> cases h <;> exact .inr (.inr ⟨TaskPc.noConfusion, TaskPc.noConfusion, rfl⟩)
  | write =>
      simp only [taskStep, hpc] at h
      cases h
      exact .inl ⟨rfl, rfl⟩
  | report =>
      simp only [taskStep, hpc] at h
      cases h
      exact .inr (.inl ⟨rfl, rfl⟩)
  | clear =>
      simp only [taskStep, hpc] at h
      cases h
      exact .inr (.inr ⟨TaskPc.noConfusion, TaskPc.noConfusion, rfl⟩)
  | test =>
      simp only [taskStep, hpc] at h
      split at h <;> cases h <;> exact .inr (.inr ⟨TaskPc.noConfusion, TaskPc.noConfusion, rfl⟩)

/-! ## Calls and task as one system -/

/-- The sender, the flag it waits on and the frames written so far. -/
structure SendLine where
  sender : Sender
  ucRxTaskHandleFlag : Bool
  written : List Frame
deriving DecidableEq

def SendLine.boot : SendLine := ⟨Sender.boot, false, []⟩

/-- Who moves: a caller, the task, or whoever sets the flag it waits
on. -/
inductive SendAct where
  | call (c : Cmd)
  | task (sWifiInitEndFlag : UInt8)
  | rxFlag (b : Bool)
deriving DecidableEq, Repr

/-- The frames among the effects that go out on the UART. -/
def writtenFrames (es : List Effect) : List Frame :=
  es.filterMap fun e => match e with
    | .uartWriteBytes b => some b
    | _ => none

/-- One step, `xTaskCreate` succeeding. -/
def sendStep (s : SendLine) : SendAct → Option SendLine
  | .call c => some { s with sender := sendBriCtrlInfo true c s.sender }
  | .task w => (taskStep s.ucRxTaskHandleFlag w s.sender).map fun r =>
      { s with sender := r.1, written := s.written ++ writtenFrames r.2 }
  | .rxFlag b => some { s with ucRxTaskHandleFlag := b }

theorem writtenFrames_append (es fs : List Effect) :
    writtenFrames (es ++ fs) = writtenFrames es ++ writtenFrames fs := List.filterMap_append

@[simp] theorem writtenFrames_transmit (b : Frame) : writtenFrames (transmit b) = [b] := by
  rw [transmit]
  split <;> rfl

@[simp] theorem writtenFrames_forward (w cmd : UInt8) (dat : UInt32) :
    writtenFrames (forward w cmd dat) = [] := by
  rw [forward]
  split <;> rfl

/-! ## The latest command -/

/-- The stretch of the task's loop in which a pending flag set by a call
is cleared before it is tested. -/
def TaskPc.InFlight (pc : TaskPc) : Prop :=
  pc = .wait ∨ pc = .write ∨ pc = .report ∨ pc = .clear

instance (pc : TaskPc) : Decidable pc.InFlight := inferInstanceAs (Decidable (_ ∨ _ ∨ _ ∨ _))

/-- What every state has: the header bytes of the mailbox are never
touched, and behind its write the task's copy is the last frame
written. -/
structure SendLine.Ok (s : SendLine) : Prop where
  head1 : s.sender.ucSendBuff.head1 = sendHead1
  head2 : s.sender.ucSendBuff.head2 = sendHead2
  alive : s.sender.ucSendTaskHandleFlag = true ↔ s.sender.pc ≠ .exited
  sent : s.sender.pc = .report ∨ s.sender.pc = .clear →
    s.written.getLast? = some s.sender.ucSendBuffTemp

/-- The last frame there will be when the task exits, if no more calls
are made. -/
def SendLine.fate (s : SendLine) : Option Frame :=
  match s.sender.pc with
  | .exited => s.written.getLast?
  | .copy => some s.sender.ucSendBuff
  | .wait | .write => some s.sender.ucSendBuffTemp
  | .report | .clear => s.written.getLast?
  | .test => if s.sender.ucSendFlag then some s.sender.ucSendBuff else s.written.getLast?

theorem SendLine.boot_ok : SendLine.boot.Ok where
  head1 := rfl
  head2 := rfl
  alive := by decide
  sent := by decide

/-- A call starts a task where there is none and leaves a living task
alone. -/
theorem call_cases {s : SendLine} (h : s.Ok) (c : Cmd) :
    (s.sender.pc = .exited ∧ sendBriCtrlInfo true c s.sender
        = ⟨s.sender.ucSendBuff.fill c, true, true, .copy, ⟨0, 0, 0, 0, 0⟩⟩) ∨
    (s.sender.pc ≠ .exited ∧ sendBriCtrlInfo true c s.sender
        = { s.sender with ucSendBuff := s.sender.ucSendBuff.fill c, ucSendFlag := true }) := by
  by_cases hpc : s.sender.pc = .exited
  · have hflag : s.sender.ucSendTaskHandleFlag = false := by
      rw [← Bool.not_eq_true, h.alive]
      exact not_not.mpr hpc
    refine .inl ⟨hpc, ?_⟩
    simp [sendBriCtrlInfo, hflag]
  · have hflag : s.sender.ucSendTaskHandleFlag = true := h.alive.mpr hpc
    refine .inr ⟨hpc, ?_⟩
    simp [sendBriCtrlInfo, hflag]

theorem SendLine.Ok.call {s : SendLine} (h : s.Ok) (c : Cmd) :
    ({ s with sender := sendBriCtrlInfo true c s.sender } : SendLine).Ok := by
  rcases call_cases h c with ⟨_, he⟩ | ⟨hpc, he⟩
  · rw [he]
    exact ⟨h.head1, h.head2, by simp, by simp⟩
  · rw [he]
    exact ⟨h.head1, h.head2, h.alive, h.sent⟩

/-- **What a step of the task does to the line**, and that the fate of
the line does not change by it. -/
theorem SendLine.Ok.task {s s' : SendLine} {w : UInt8} (h : s.Ok)
    (hs : sendStep s (.task w) = some s') : s'.Ok ∧ s'.fate = s.fate := by
  obtain ⟨r, hr, rfl⟩ := Option.map_eq_some_iff.mp hs
  have halive := h.alive
  cases hpc : s.sender.pc with
  | exited =>
      simp only [taskStep, hpc] at hr
      cases hr
  | copy =>
      -- with both header bytes in place the task does not give up
      simp only [taskStep, hpc, h.head1, h.head2, ne_eq, not_true_eq_false, or_self,
        if_false, Option.some.injEq] at hr
      subst hr
      refine ⟨⟨h.head1, h.head2, ?_, ?_⟩, ?_⟩
      · simpa [hpc] using halive
      · simp
      · simp [SendLine.fate, hpc]
  | wait =>
      simp only [taskStep, hpc] at hr
      split at hr
      · -- still waiting: nothing has moved
        cases hr
        simpa [writtenFrames] using h
      · cases hr
        refine ⟨⟨h.head1, h.head2, ?_, ?_⟩, ?_⟩
        · simpa [hpc] using halive
        · simp
        · simp [SendLine.fate, hpc]
  | write =>
      -- from here on the copy is the last frame written
      simp only [taskStep, hpc, Option.some.injEq] at hr
      subst hr
      refine ⟨⟨h.head1, h.head2, ?_, ?_⟩, ?_⟩
      · simpa [hpc] using halive
      · simp
      · simp [SendLine.fate, hpc]
  | report =>
      have hsent := h.sent (.inl hpc)
      simp only [taskStep, hpc, Option.some.injEq] at hr
      subst hr
      refine ⟨⟨h.head1, h.head2, ?_, ?_⟩, ?_⟩
      · simpa [hpc] using halive
      · simpa using hsent
      · simp [SendLine.fate, hpc]
  | clear =>
      -- the flag goes down whoever has set it, so the test will end the task
      simp only [taskStep, hpc, Option.some.injEq] at hr
      subst hr
      refine ⟨⟨h.head1, h.head2, ?_, ?_⟩, ?_⟩
      · simpa [hpc] using halive
      · simp
      · simp [SendLine.fate, hpc, writtenFrames]
  | test =>
      simp only [taskStep, hpc] at hr
      split at hr
      · cases hr
        refine ⟨⟨h.head1, h.head2, ?_, ?_⟩, ?_⟩
        · simp [Sender.exit]
        · simp [Sender.exit]
        · simp [SendLine.fate, Sender.exit, writtenFrames, *]
      · cases hr
        refine ⟨⟨h.head1, h.head2, ?_, ?_⟩, ?_⟩
        · simpa [hpc] using halive
        · simp
        · simp [SendLine.fate, *]

/-- After a call the line ends with the frame of the call, unless the
task is in flight with another. -/
theorem SendLine.Ok.fate_call {s : SendLine} (h : s.Ok) (c : Cmd) :
    ({ s with sender := sendBriCtrlInfo true c s.sender } : SendLine).fate
      = some (if s.sender.pc.InFlight then s.sender.ucSendBuffTemp else sendFrame c) := by
  have hfill := Frame.fill_eq_sendFrame h.head1 h.head2 c
  rcases call_cases h c with ⟨hpc, he⟩ | ⟨hne, he⟩
  · simp [SendLine.fate, he, hpc, hfill, TaskPc.InFlight]
  · cases hpc : s.sender.pc with
    | exited => exact absurd hpc hne
    | copy => simp [SendLine.fate, he, hpc, hfill, TaskPc.InFlight]
    | wait => simp [SendLine.fate, he, hpc, TaskPc.InFlight]
    | write => simp [SendLine.fate, he, hpc, TaskPc.InFlight]
    | report => simp [SendLine.fate, he, hpc, TaskPc.InFlight, h.sent (.inl hpc)]
    | clear => simp [SendLine.fate, he, hpc, TaskPc.InFlight, h.sent (.inr hpc)]
    | test => simp [SendLine.fate, he, hpc, hfill, TaskPc.InFlight]

theorem sendStep_ok {s s' : SendLine} {a : SendAct} (h : s.Ok) (hs : sendStep s a = some s') :
    s'.Ok := by
  cases a with
  | call c => cases hs; exact h.call c
  | task w => exact (h.task hs).1
  | rxFlag b => cases hs; exact ⟨h.head1, h.head2, h.alive, h.sent⟩

/-- Without calls the fate of the line is sealed. -/
theorem fate_of_no_call {s s' : SendLine} {as : List SendAct} (h : s.Ok)
    (hcalls : ∀ c, .call c ∉ as) (hrun : run sendStep s as = some s') : s'.fate = s.fate := by
  induction as generalizing s with
  | nil =>
      cases hrun
      rfl
  | cons a as ih =>
      obtain ⟨m, hm, hr⟩ := run_cons_some.mp hrun
      have hrest := ih (sendStep_ok h hm) (fun c hc => hcalls c (List.mem_cons_of_mem a hc)) hr
      rw [hrest]
      cases a with
      | call c => exact absurd List.mem_cons_self (hcalls c)
      | task w => exact (h.task hm).2
      | rxFlag b =>
          cases hm
          rfl

/-- **The last frame written is the latest command's exactly when** the
latest call did not find the task in flight with another frame. -/
theorem last_written_iff {as bs : List SendAct} {c : Cmd} {s s' : SendLine}
    (hbefore : run sendStep SendLine.boot as = some s)
    (hrun : run sendStep SendLine.boot (as ++ .call c :: bs) = some s')
    (hlatest : ∀ d, .call d ∉ bs) (hexited : s'.sender.ucSendTaskHandleFlag = false) :
    s'.written.getLast? = some (sendFrame c) ↔
      (s.sender.pc.InFlight → s.sender.ucSendBuffTemp = sendFrame c) := by
  have hok : s.Ok := run_invariant (fun _ _ _ => sendStep_ok) SendLine.boot_ok hbefore
  rw [run_append, hbefore] at hrun
  have hok' : s'.Ok := run_invariant (fun _ _ _ => sendStep_ok) hok hrun
  have hpc : s'.sender.pc = .exited := by
    by_contra hne
    rw [hok'.alive.mpr hne] at hexited
    cases hexited
  have hfate : s'.fate = s'.written.getLast? := by
    simp only [SendLine.fate, hpc]
  rw [← hfate, fate_of_no_call (hok.call c) hlatest hrun, hok.fate_call c, Option.some.injEq]
  by_cases hin : s.sender.pc.InFlight
  · simp [hin]
  · simp [hin]

/-- One command, transmitted by a task that then exits. -/
theorem last_written_iff_single :
    ∃ s', run sendStep SendLine.boot (.call ⟨0, 1⟩ :: List.replicate 6 (.task 1)) = some s' ∧
      s'.written.getLast? = some (sendFrame ⟨0, 1⟩) := by
  refine ⟨_, rfl, ?_⟩
  exact (@last_written_iff [] (List.replicate 6 (.task 1)) ⟨0, 1⟩ SendLine.boot _ rfl rfl
    (by simp) rfl).mpr (by decide)

/-- A brightness posted while a switch command is being reported is
never transmitted. -/
theorem latest_command_lost :
    ¬ ∀ (as bs : List SendAct) (c : Cmd) (s' : SendLine),
      run sendStep SendLine.boot (as ++ .call c :: bs) = some s' → (∀ d, .call d ∉ bs) →
        s'.sender.ucSendTaskHandleFlag = false → s'.written.getLast? = some (sendFrame c) := by
  intro h
  have hlast := h (.call ⟨0, 1⟩ :: List.replicate 3 (.task 1)) (List.replicate 3 (.task 1))
    ⟨1, 50⟩ _ rfl (by simp) rfl
  revert hlast
  decide

end LiveWireSwitch
