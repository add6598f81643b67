import LiveWireSwitch.AppUart.Acknowledge

/-!
# AppUart — Echo

What becomes of a change that comes from the MCU. `OnOffCMD` goes
through the plain setter, which posts nothing. `BriNowCMD` goes through
`Set_Btight_Pct`, the setter for changes from the cloud: it posts the
value back to the MCU, the send task reports it once more, and a value
it rejects is reported all the same.
-/

namespace LiveWireSwitch

open Lib

/-! ## Reports -/

/-- A call of `esp_rmaker_update`. -/
structure UpdateCall where
  cmdTyed : UInt8
  dat : UInt32
deriving DecidableEq, Repr

/-- The reports among the effects. -/
def reportsOf (es : List Effect) : List UpdateCall :=
  es.filterMap fun e => match e with
    | .espRmakerUpdate cmd dat => some ⟨cmd, dat⟩
    | _ => none

@[simp] theorem reportsOf_append (es fs : List Effect) :
    reportsOf (es ++ fs) = reportsOf es ++ reportsOf fs := List.filterMap_append

@[simp] theorem reportsOf_acknowledge (cmd : UInt8) : reportsOf (acknowledge cmd) = [] := rfl

@[simp] theorem reportsOf_sent (cs : List Cmd) : reportsOf (cs.map .sendBriCtrlInfo) = [] := by
  induction cs with
  | nil => rfl
  | cons c cs ih => exact ih

@[simp] theorem reportsOf_forward (cmd : UInt8) (dat : UInt32) :
    reportsOf (forward 1 cmd dat) = [⟨cmd, dat⟩] := rfl

/-- What the light holds of the value a command sets: `Get_Bri_Status` as
on or off, or `Get_Btight_Pct`. -/
def Light.held (l : Light) (cmd : UInt8) : UInt32 :=
  if cmd = onOffCmd then if getBriStatus l ≠ 0 then 1 else 0 else getBtightPct l

/-- The reports a frame that takes the light from `l` to `l'` calls for:
one if it changes anything. -/
def dueReports (cmd : UInt8) (l l' : Light) : List UpdateCall :=
  if l' = l then [] else [⟨cmd, l'.held cmd⟩]

theorem dueReports_self (cmd : UInt8) (l : Light) : dueReports cmd l l = [] := if_pos rfl

theorem dueReports_of_ne {l l' : Light} (h : l' ≠ l) (cmd : UInt8) :
    dueReports cmd l l' = [⟨cmd, l'.held cmd⟩] := if_neg h

theorem held_setBriStatus (dat : UInt8) (l : Light) :
    (setBriStatus dat.toUInt16 l).held onOffCmd = if dat ≠ 0 then 1 else 0 := by
  have hzero : dat.toUInt16 = 0 ↔ dat = 0 := UInt8.toUInt16_inj (b := 0)
  show (if dat.toUInt16 ≠ 0 then (1 : UInt32) else 0) = _
  simp only [ne_eq, hzero]

/-! ## One frame -/

/-- A switch frame is reported when it is due, and nothing is sent. -/
theorem dealOnOff_reports (dat : UInt8) (l : Light) :
    reportsOf (dealFrame 1 ⟨onOffCmd, dat⟩ l).2
        = dueReports onOffCmd l (dealFrame 1 ⟨onOffCmd, dat⟩ l).1 ∧
      sentCmds (dealFrame 1 ⟨onOffCmd, dat⟩ l).2 = [] := by
  show reportsOf (dealOnOff 1 ⟨onOffCmd, dat⟩ l).2
      = dueReports onOffCmd l (dealOnOff 1 ⟨onOffCmd, dat⟩ l).1 ∧
    sentCmds (dealOnOff 1 ⟨onOffCmd, dat⟩ l).2 = []
  rw [dealOnOff]
  by_cases hne : dat.toUInt16 ≠ getBriStatus l
  · have hchange : setBriStatus dat.toUInt16 l ≠ l := fun h => hne (congrArg Light.briStatus h)
    rw [if_pos hne]
    refine ⟨?_, by rw [sentCmds_append, sentCmds_acknowledge, sentCmds_forward]; rfl⟩
    rw [reportsOf_append, reportsOf_acknowledge, reportsOf_forward,
      dueReports_of_ne hchange, held_setBriStatus, List.nil_append]
  · rw [if_neg hne]
    exact ⟨(dueReports_self _ l).symm, rfl⟩

/-- A brightness frame is ignored, or its value is rejected and reported,
or it is adopted, sent back and reported. -/
theorem dealBriNow_reports (dat : UInt8) (l : Light) :
    ((dat.toUInt32 = getBtightPct l ∨ 100 < dat) ∧
      (dealFrame 1 ⟨briNowCmd, dat⟩ l).1 = l ∧
        reportsOf (dealFrame 1 ⟨briNowCmd, dat⟩ l).2 = [] ∧
          sentCmds (dealFrame 1 ⟨briNowCmd, dat⟩ l).2 = []) ∨
    (¬ (dat.toUInt32 = getBtightPct l ∨ 100 < dat) ∧
      reportsOf (dealFrame 1 ⟨briNowCmd, dat⟩ l).2 = [⟨briNowCmd, dat.toUInt32⟩] ∧
        ((dealFrame 1 ⟨briNowCmd, dat⟩ l).1 = l ∧
            sentCmds (dealFrame 1 ⟨briNowCmd, dat⟩ l).2 = [] ∨
          (dealFrame 1 ⟨briNowCmd, dat⟩ l).1 = { l with briNowPct := dat } ∧
            sentCmds (dealFrame 1 ⟨briNowCmd, dat⟩ l).2 = [⟨briNowCmd, dat⟩])) := by
  rw [dealFrame_briNow, dealBriNow]
  by_cases hne : dat.toUInt32 ≠ getBtightPct l
  · rw [if_pos hne]
    by_cases h100 : dat ≤ 100
    · rw [if_pos h100]
      refine .inr ⟨not_or.mpr ⟨hne, UInt8.not_lt.mpr h100⟩, by simp, ?_⟩
      rcases setBtightPct_cases dat.toUInt32 l with ⟨he, _⟩ | ⟨b, hb, _, _, he⟩
      · rw [he]
        exact .inl ⟨rfl, by simp⟩
      · obtain rfl := UInt8.toUInt32_inj.mp hb
        rw [he]
        exact .inr ⟨rfl, by simp only [sentCmds_append, sentCmds_acknowledge, sentCmds_map,
          sentCmds_forward, List.nil_append, List.append_nil]⟩
    · rw [if_neg h100]
      exact .inl ⟨.inr (UInt8.not_le.mp h100), rfl, rfl, rfl⟩
  · rw [if_neg hne]
    exact .inl ⟨.inl (not_not.mp hne), rfl, rfl, rfl⟩

/-! ## Frames and the send task -/

/-- The UART module with the calls it has made to the agent and to the
sender, and the reports that were due. -/
structure Reporting where
  light : Light
  sender : Sender
  ucRxTaskHandleFlag : Bool
  reported : List UpdateCall
  sent : List Cmd
  due : List UpdateCall

def Reporting.start (l : Light) (q : Sender) (rxFlag : Bool) : Reporting :=
  ⟨l, q, rxFlag, [], [], []⟩

/-- One frame through `uart_deal_with`, with `s_wifi_init_end_flag` at
1. -/
def Reporting.frame (s : Reporting) (c : Cmd) : Reporting :=
  let r := dealFrame 1 c s.light
  { light := r.1
    sender := (sentCmds r.2).foldl (fun q c => sendBriCtrlInfo true c q) s.sender
    ucRxTaskHandleFlag := rxFlagAfter r.2 s.ucRxTaskHandleFlag
    reported := s.reported ++ reportsOf r.2
    sent := s.sent ++ sentCmds r.2
    due := s.due ++ dueReports c.cmd s.light r.1 }

/-- Who moves: the MCU with a frame, the send task, or the wake line. -/
inductive ReportAct where
  | onOff (dat : UInt8)
  | briNow (dat : UInt8)
  | task
  | rxFlag (b : Bool)
deriving DecidableEq, Repr

def reportStep (s : Reporting) : ReportAct → Option Reporting
  | .onOff dat => some (s.frame ⟨onOffCmd, dat⟩)
  | .briNow dat => some (s.frame ⟨briNowCmd, dat⟩)
  | .task => (taskStep s.ucRxTaskHandleFlag 1 s.sender).map fun r =>
      { s with sender := r.1, reported := s.reported ++ reportsOf r.2 }
  | .rxFlag b => some { s with ucRxTaskHandleFlag := b }

/-- No value has been sent back to the MCU. -/
def Reporting.Silent (s : Reporting) : Prop :=
  ∀ c ∈ s.sent, c.cmd ≠ onOffCmd ∧ c.cmd ≠ briNowCmd

/-- Without a send task, what was reported is what was due; and no value
has been sent back. -/
def Reporting.Adopts (s : Reporting) : Prop :=
  (s.sender.pc = .exited → s.reported = s.due) ∧ s.Silent

/-- **The condition.** A brightness frame carries the brightness the
light has, or a value above 100. -/
def NothingToAdopt (s : Reporting) : ReportAct → Prop
  | .briNow dat => dat.toUInt32 = getBtightPct s.light ∨ 100 < dat
  | _ => True

instance : (s : Reporting) → (a : ReportAct) → Decidable (NothingToAdopt s a)
  | s, .briNow dat => inferInstanceAs (Decidable (dat.toUInt32 = getBtightPct s.light ∨ 100 < dat))
  | _, .onOff _ => .isTrue trivial
  | _, .task => .isTrue trivial
  | _, .rxFlag _ => .isTrue trivial

/-- A frame that has nothing sent leaves the sender alone. -/
theorem frame_of_unsent {s : Reporting} {c : Cmd}
    (h : sentCmds (dealFrame 1 c s.light).2 = []) :
    (s.frame c).sender = s.sender ∧ (s.frame c).sent = s.sent := by
  simp only [Reporting.frame, h, List.foldl_nil, List.append_nil, and_self]

/-- A brightness sent back ends the silence. -/
theorem not_silent_frame {s : Reporting} {c : Cmd} {dat : UInt8}
    (h : sentCmds (dealFrame 1 c s.light).2 = [⟨briNowCmd, dat⟩]) : ¬ (s.frame c).Silent := by
  intro hsilent
  have hmem : ⟨briNowCmd, dat⟩ ∈ (s.frame c).sent := by
    show _ ∈ s.sent ++ sentCmds (dealFrame 1 c s.light).2
    rw [h]
    exact List.mem_append_right _ (List.mem_singleton_self _)
  exact (hsilent _ hmem).2 rfl

/-- There is a task only if a value was sent back. -/
def Reporting.Idle (s : Reporting) : Prop := s.Silent → s.sender.pc = .exited

theorem Reporting.Idle.frame {s : Reporting} (h : s.Idle) {c : Cmd}
    (hsent : sentCmds (dealFrame 1 c s.light).2 = []) : (s.frame c).Idle := by
  obtain ⟨hsender, hlist⟩ := frame_of_unsent hsent
  rw [Reporting.Idle, Reporting.Silent, hsender, hlist]
  exact h

theorem reportStep_idle {s s' : Reporting} {a : ReportAct} (h : s.Idle)
    (hs : reportStep s a = some s') : s'.Idle := by
  cases a with
  | onOff dat =>
      cases hs
      exact h.frame (dealOnOff_reports dat s.light).2
  | briNow dat =>
      cases hs
      rcases dealBriNow_reports dat s.light with ⟨_, _, _, hsent⟩ | ⟨_, _, ⟨_, hsent⟩ | ⟨_, hsent⟩⟩
      · exact h.frame hsent
      · exact h.frame hsent
      · exact fun hsilent => absurd hsilent (not_silent_frame hsent)
  | task =>
      obtain ⟨r, hr, rfl⟩ := Option.map_eq_some_iff.mp hs
      intro hsilent
      rw [taskStep, h hsilent] at hr
      cases hr
  | rxFlag b =>
      cases hs
      exact h

/-- With nothing sent, the account stays straight exactly when the frame
is reported as it is due. -/
theorem adopts_frame_iff {s : Reporting} (hidle : s.Idle) (h : s.Adopts) {c : Cmd}
    (hsent : sentCmds (dealFrame 1 c s.light).2 = []) :
    (s.frame c).Adopts ↔ reportsOf (dealFrame 1 c s.light).2
      = dueReports c.cmd s.light (dealFrame 1 c s.light).1 := by
  obtain ⟨hsender, hlist⟩ := frame_of_unsent hsent
  have hpc : s.sender.pc = .exited := hidle h.2
  have hsilent : (s.frame c).Silent := by
    rw [Reporting.Silent, hlist]
    exact h.2
  rw [Reporting.Adopts, and_iff_left hsilent, hsender, forall_prop_of_true hpc]
  show s.reported ++ _ = s.due ++ _ ↔ _
  rw [h.1 hpc]
  exact List.append_right_inj s.due

/-- **One step keeps the account straight exactly when** it brings no
brightness to adopt or to reject. -/
theorem reportStep_adopts {s s' : Reporting} {a : ReportAct} (hidle : s.Idle) (h : s.Adopts)
    (hs : reportStep s a = some s') : s'.Adopts ↔ NothingToAdopt s a := by
  cases a with
  | onOff dat =>
      cases hs
      obtain ⟨hrep, hsent⟩ := dealOnOff_reports dat s.light
      exact iff_of_true ((adopts_frame_iff hidle h hsent).mpr hrep) trivial
  | briNow dat =>
      cases hs
      rcases dealBriNow_reports dat s.light with ⟨hcond, hl, hrep, hsent⟩ |
        ⟨hcond, hrep, ⟨hl, hsent⟩ | ⟨_, hsent⟩⟩
      · refine iff_of_true ((adopts_frame_iff hidle h hsent).mpr ?_) hcond
        rw [hrep, hl, dueReports_self]
      · -- rejected by the setter, reported by the parser
        refine iff_of_false (mt (adopts_frame_iff hidle h hsent).mp ?_) hcond
        rw [hrep, hl, dueReports_self]
        exact List.cons_ne_nil _ _
      · exact iff_of_false (fun ha => not_silent_frame hsent ha.2) hcond
  | task =>
      -- without a task there is no step of it
      obtain ⟨r, hr, _⟩ := Option.map_eq_some_iff.mp hs
      rw [taskStep, hidle h.2] at hr
      cases hr
  | rxFlag b =>
      cases hs
      exact iff_of_true h trivial

/-- **The MCU's changes are adopted, reported once each and not sent back
exactly in the runs** in which no brightness frame carries a new value up
to 100. -/
theorem adopts_iff (l : Light) {q : Sender} (hq : q.pc = .exited) (rxFlag : Bool)
    (as : List ReportAct) :
    Always reportStep Reporting.Adopts (Reporting.start l q rxFlag) as ↔
      Guarded reportStep NothingToAdopt (Reporting.start l q rxFlag) as :=
  always_iff_guarded (fun _ _ _ => reportStep_idle) (fun _ _ _ => reportStep_adopts) as
    (fun _ => hq) ⟨fun _ => rfl, fun c hc => by cases hc⟩

/-- The light switched on by the MCU, and a brightness it cannot have. -/
theorem adopts_iff_switched_on :
    Always reportStep Reporting.Adopts (Reporting.start Light.boot Sender.boot false)
        [.onOff 1, .briNow 101] ↔
      Guarded reportStep NothingToAdopt (Reporting.start Light.boot Sender.boot false)
        [.onOff 1, .briNow 101] :=
  adopts_iff Light.boot rfl false _

/-- **What happens to an adopted brightness**: by the time the send task
has exited, it has been reported twice and sent back. -/
theorem adopted_brightness_echoed {l : Light} {dat : UInt8}
    (hnew : ¬ (dat.toUInt32 = getBtightPct l ∨ 100 < dat))
    (hadopt : (dealFrame 1 ⟨briNowCmd, dat⟩ l).1 ≠ l) :
    ∃ s', run reportStep (Reporting.start l Sender.boot false)
        (.briNow dat :: List.replicate 6 .task) = some s' ∧
      s'.sender.pc = .exited ∧ s'.sent = [⟨briNowCmd, dat⟩] ∧
        s'.due = [⟨briNowCmd, dat.toUInt32⟩] ∧
          s'.reported = [⟨briNowCmd, dat.toUInt32⟩, ⟨briNowCmd, dat.toUInt32⟩] := by
  rcases dealBriNow_reports dat l with ⟨hold, _⟩ | ⟨_, hrep, ⟨hl, _⟩ | ⟨hl, hsent⟩⟩
  · exact absurd hold hnew
  · exact absurd hl hadopt
  · have hflag : rxFlagAfter (dealFrame 1 ⟨briNowCmd, dat⟩ l).2 false = false := by
      rw [rxFlagAfter_dealFrame, ite_self]
    have hdue : dueReports briNowCmd l { l with briNowPct := dat }
        = [⟨briNowCmd, dat.toUInt32⟩] := by
      rw [hl] at hadopt
      exact dueReports_of_ne hadopt _
    have hframe : (Reporting.start l Sender.boot false).frame ⟨briNowCmd, dat⟩
        = ⟨{ l with briNowPct := dat }, sendBriCtrlInfo true ⟨briNowCmd, dat⟩ Sender.boot, false,
          [⟨briNowCmd, dat.toUInt32⟩], [⟨briNowCmd, dat⟩], [⟨briNowCmd, dat.toUInt32⟩]⟩ := by
      simp only [Reporting.frame, Reporting.start, hl, hrep, hsent, hflag, hdue, List.foldl_cons,
        List.foldl_nil, List.nil_append]
    rw [run_cons, reportStep, hframe]
    exact ⟨_, rfl, rfl, rfl, rfl, rfl⟩

/-- A knob movement to 60 is sent back to the MCU. -/
theorem knob_movement_echoed :
    ¬ ∀ (l : Light) (q : Sender) (rxFlag : Bool) (as : List ReportAct), q.pc = .exited →
      Always reportStep Reporting.Adopts (Reporting.start l q rxFlag) as := by
  intro h
  have hend := (h Light.boot Sender.boot false [.briNow 60] rfl).2 _ rfl
  exact absurd (hend.2 ⟨briNowCmd, 60⟩ (List.mem_singleton_self _)).2 (by decide)

end LiveWireSwitch
