import LiveWireSwitch.AppUart.Statements

/-!
# AppUart — Uninterrupted

`SendTask` takes a call for one step, and the statements of the task
between two of its blocking calls for one. Each of these steps is a run
of statements with nobody in between, so every run of `SendTask` is a
run of `Statements`: what goes wrong there goes wrong here.
-/

namespace LiveWireSwitch

open Lib

/-- The statement at which a place of `SendTask` begins. -/
def TaskPc.start : TaskPc → SendPc
  | .exited => .deleted
  | .copy => .memcpy
  | .wait => .rxWait
  | .write => .write
  | .report => .report
  | .clear => .clearAgain
  | .test => .testFlag

/-- The statics are those of `q`, and its task, if there is one, is task
`t`. -/
structure SendWorld.Shows (s : SendWorld) (t : Nat) (q : Sender) : Prop where
  ucSendBuff : s.ucSendBuff = q.ucSendBuff
  ucSendFlag : s.ucSendFlag = q.ucSendFlag
  ucSendTaskHandleFlag : s.ucSendTaskHandleFlag = q.ucSendTaskHandleFlag
  task : q.pc ≠ .exited →
    s.ucSendTaskHandle = some t ∧ s.tasks[t]? = some ⟨q.pc.start, q.ucSendBuffTemp⟩

/-! ## The steps -/

theorem SendWorld.Shows.at_start {s : SendWorld} {t : Nat} {q : Sender} (h : s.Shows t q)
    (hne : q.pc ≠ .exited) :
    ∃ ht : t < s.tasks.length, s.tasks[t] = ⟨q.pc.start, q.ucSendBuffTemp⟩ :=
  List.getElem?_eq_some_iff.mp (h.task hne).2

/-- **A step of the task is a run of its statements.** -/
theorem task_uninterrupted {s : SendWorld} {t : Nat} {q : Sender} (h : s.Shows t q) {w : UInt8}
    {r : Sender × List Effect} (hr : taskStep s.ucRxTaskHandleFlag w q = some r) :
    ∃ n s', run statementStep s (List.replicate n (.task w t)) = some s' ∧ s'.Shows t r.1 ∧
      s'.effects = s.effects ++ r.2 ∧ s'.ucRxTaskHandleFlag = s.ucRxTaskHandleFlag := by
  have hne : q.pc ≠ .exited := by
    intro hpc
    rw [taskStep, hpc] at hr
    cases hr
  obtain ⟨ht, hx⟩ := h.at_start hne
  obtain ⟨hbuff, hflag, hhandleFlag, htask⟩ := h
  have hhandle : s.ucSendTaskHandle = some t := (htask hne).1
  cases hpc : q.pc <;> rw [hpc, TaskPc.start] at hx <;> simp only [taskStep, hpc] at hr
  case exited => exact absurd hpc hne
  case copy =>
    split at hr
    · next hhead =>
        -- past the bad header the task clears its flag and deletes itself
        cases hr
        refine ⟨5, { s with
          ucSendFlag := false
          ucSendTaskHandleFlag := false
          tasks := s.tasks.set t ⟨.deleted, { q.ucSendBuff with cmd := errorCmd }⟩ }, ?_, ?_, ?_,
          rfl⟩
        · simp [List.replicate, statementStep, SendWorld.taskStep, SendWorld.taskTo, hx, ht,
            hbuff, hhead, SendWorld.vTaskDelete, hhandle]
        · exact ⟨hbuff, rfl, rfl, fun hne => absurd rfl hne⟩
        · simp
    · next hhead =>
        cases hr
        refine ⟨3, { s with
          ucSendFlag := false
          tasks := s.tasks.set t ⟨.rxWait, q.ucSendBuff⟩ }, ?_, ?_, ?_, rfl⟩
        · simp [List.replicate, statementStep, SendWorld.taskStep, SendWorld.taskTo, hx, ht,
            hbuff, hhead]
        · exact ⟨hbuff, rfl, hhandleFlag, fun _ => ⟨hhandle, by simp [ht, TaskPc.start]⟩⟩
        · simp
  case wait =>
    split at hr
    · next hrx =>
        cases hr
        refine ⟨1, s, ?_, ⟨hbuff, hflag, hhandleFlag, htask⟩, ?_, rfl⟩
        · simp [statementStep, SendWorld.taskStep, hx, ht, hrx]
        · simp
    · next hrx =>
        cases hr
        refine ⟨1, { s with tasks := s.tasks.set t ⟨.write, q.ucSendBuffTemp⟩ }, ?_, ?_, ?_, rfl⟩
        · simp [statementStep, SendWorld.taskStep, SendWorld.taskTo, hx, ht, hrx]
        · exact ⟨hbuff, hflag, hhandleFlag, fun _ => ⟨hhandle, by simp [ht, TaskPc.start]⟩⟩
        · simp
  case write =>
    cases hr
    refine ⟨1, { s with
      effects := s.effects ++ transmit q.ucSendBuffTemp
      tasks := s.tasks.set t ⟨.report, q.ucSendBuffTemp⟩ }, ?_, ?_, rfl, rfl⟩
    · simp [statementStep, SendWorld.taskStep, SendWorld.taskTo, hx, ht]
    · exact ⟨hbuff, hflag, hhandleFlag, fun _ => ⟨hhandle, by simp [ht, TaskPc.start]⟩⟩
  case report =>
    cases hr
    refine ⟨1, { s with
      effects := s.effects ++ forward w q.ucSendBuffTemp.cmd q.ucSendBuffTemp.dat.toUInt32
      tasks := s.tasks.set t ⟨.clearAgain, q.ucSendBuffTemp⟩ }, ?_, ?_, rfl, rfl⟩
    · simp [statementStep, SendWorld.taskStep, SendWorld.taskTo, hx, ht]
    · exact ⟨hbuff, hflag, hhandleFlag, fun _ => ⟨hhandle, by simp [ht, TaskPc.start]⟩⟩
  case clear =>
    cases hr
    refine ⟨1, { s with
      ucSendFlag := false
      tasks := s.tasks.set t ⟨.testFlag, q.ucSendBuffTemp⟩ }, ?_, ?_, ?_, rfl⟩
    · simp [statementStep, SendWorld.taskStep, SendWorld.taskTo, hx, ht]
    · exact ⟨hbuff, rfl, hhandleFlag, fun _ => ⟨hhandle, by simp [ht, TaskPc.start]⟩⟩
    · simp
  case test =>
    split at hr
    · next hidle =>
        -- `ucSendBuff[2] = ERRORCMD`, and the way out
        cases hr
        refine ⟨4, { s with
          ucSendBuff := { q.ucSendBuff with cmd := errorCmd }
          ucSendTaskHandleFlag := false
          tasks := s.tasks.set t ⟨.deleted, q.ucSendBuffTemp⟩ }, ?_, ?_, ?_, rfl⟩
        · simp [List.replicate, statementStep, SendWorld.taskStep, SendWorld.taskTo, hx, ht,
            hbuff, hflag, hidle, SendWorld.vTaskDelete, hhandle]
        · exact ⟨rfl, hflag, rfl, fun hne => absurd rfl hne⟩
        · simp
    · next hmore =>
        cases hr
        refine ⟨1, { s with tasks := s.tasks.set t ⟨.memcpy, q.ucSendBuffTemp⟩ }, ?_, ?_, ?_, rfl⟩
        · simp [statementStep, SendWorld.taskStep, SendWorld.taskTo, hx, ht, hflag, hmore]
        · exact ⟨hbuff, hflag, hhandleFlag, fun _ => ⟨hhandle, by simp [ht, TaskPc.start]⟩⟩
        · simp

/-- **A call is a run of its statements.** The task it shows after is
the one it creates, where it creates one. -/
theorem call_uninterrupted {s : SendWorld} {t : Nat} {q : Sender} (h : s.Shows t q) (c : Cmd)
    (created : Bool) :
    ∃ n t' s', run statementStep s (.enter c :: List.replicate n (.call created s.calls.length))
        = some s' ∧ s'.Shows t' (sendBriCtrlInfo created c q) ∧
      s'.effects = s.effects ∧ s'.ucRxTaskHandleFlag = s.ucRxTaskHandleFlag := by
  obtain ⟨hbuff, hflag, hhandleFlag, htask⟩ := h
  simp only [sendBriCtrlInfo]
  split
  · next hnone =>
      split
      · next hcreated =>
          refine ⟨6, s.tasks.length, { s with
            ucSendBuff := q.ucSendBuff.fill c
            ucSendFlag := true
            ucSendTaskHandleFlag := true
            ucSendTaskHandle := some s.tasks.length
            calls := s.calls ++ [⟨c, .returned⟩]
            tasks := s.tasks ++ [SendTask.created] }, ?_, ?_, rfl, rfl⟩
          · simp [List.replicate, statementStep, SendWorld.callStep, SendWorld.callTo, hbuff,
              hhandleFlag, hnone, hcreated, Frame.fill, Frame.checksum]
          · exact ⟨rfl, rfl, rfl, fun _ => ⟨rfl, by simp [TaskPc.start, SendTask.created]⟩⟩
      · next hfailed =>
          refine ⟨5, t, { s with
            ucSendBuff := q.ucSendBuff.fill c
            ucSendFlag := true
            calls := s.calls ++ [⟨c, .returned⟩] }, ?_, ?_, rfl, rfl⟩
          · simp [List.replicate, statementStep, SendWorld.callStep, SendWorld.callTo, hbuff,
              hhandleFlag, hnone, hfailed, Frame.fill, Frame.checksum]
          · exact ⟨rfl, rfl, hhandleFlag, htask⟩
  · next halive =>
      refine ⟨5, t, { s with
        ucSendBuff := q.ucSendBuff.fill c
        ucSendFlag := true
        calls := s.calls ++ [⟨c, .returned⟩] }, ?_, ?_, rfl, rfl⟩
      · simp [List.replicate, statementStep, SendWorld.callStep, SendWorld.callTo, hbuff,
          hhandleFlag, halive, Frame.fill, Frame.checksum]
      · exact ⟨rfl, rfl, hhandleFlag, htask⟩

/-! ## The runs -/

/-- The statement world shows the line: its statics and its task, the
flag the task waits on and the frames on the wire. -/
structure SendLine.ShownBy (l : SendLine) (s : SendWorld) : Prop where
  sender : ∃ t, s.Shows t l.sender
  ucRxTaskHandleFlag : s.ucRxTaskHandleFlag = l.ucRxTaskHandleFlag
  written : writtenFrames s.effects = l.written

theorem SendLine.boot_shown : SendLine.boot.ShownBy SendWorld.boot :=
  ⟨⟨0, rfl, rfl, rfl, fun hne => absurd rfl hne⟩, rfl, rfl⟩

theorem sendStep_uninterrupted {l l' : SendLine} {a : SendAct} {s : SendWorld} (h : l.ShownBy s)
    (hs : sendStep l a = some l') :
    ∃ as s', run statementStep s as = some s' ∧ l'.ShownBy s' := by
  obtain ⟨⟨t, hq⟩, hrx, hwritten⟩ := h
  cases a with
  | call c =>
      cases hs
      obtain ⟨n, t', s', hrun, hq', heffects, hrx'⟩ := call_uninterrupted hq c true
      exact ⟨_, s', hrun, ⟨t', hq'⟩, hrx'.trans hrx, by rw [heffects, hwritten]⟩
  | task w =>
      obtain ⟨r, hr, rfl⟩ := Option.map_eq_some_iff.mp hs
      rw [← hrx] at hr
      obtain ⟨n, s', hrun, hq', heffects, hrx'⟩ := task_uninterrupted hq hr
      exact ⟨_, s', hrun, ⟨t, hq'⟩, hrx'.trans hrx, by
        rw [heffects, writtenFrames_append, hwritten]⟩
  | rxFlag b =>
      cases hs
      refine ⟨[.rxFlag b], { s with ucRxTaskHandleFlag := b }, rfl, ⟨t, ?_⟩, rfl, hwritten⟩
      exact ⟨hq.ucSendBuff, hq.ucSendFlag, hq.ucSendTaskHandleFlag, hq.task⟩

/-- **Every run of the calls and the task is a run of their
statements**, with the same frames on the wire. -/
theorem sendLine_uninterrupted {as : List SendAct} {l : SendLine}
    (hrun : run sendStep SendLine.boot as = some l) :
    ∃ bs s, run statementStep SendWorld.boot bs = some s ∧ l.ShownBy s :=
  run_simulated (R := SendLine.ShownBy) (fun _ _ _ _ hR hs => sendStep_uninterrupted hR hs)
    SendLine.boot_shown hrun

end LiveWireSwitch
