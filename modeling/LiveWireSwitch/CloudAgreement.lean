import LiveWireSwitch.AppUart.Framing
import LiveWireSwitch.AppUart.SendTask
import LiveWireSwitch.RmakerParam.Reports
import LiveWireSwitch.AppRainmaker

/-!
# CloudAgreement — the light, the send task and the cloud parameters

Three writers update the Power and Brightness parameters: the write
callback, the UART parser and the send task. The first two report what
the firmware holds at that moment; the send task reports its private
copy of a command that may be older than the light state. The parameters
agree with the firmware as long as what the task reports is still true.
-/

namespace LiveWireSwitch

open Lib

/-! ## The system -/

/-- The RainMaker side: the agent, and which parameters have been
updated since start-up. -/
structure CloudSide where
  agent : RmakerAgent LightParam
  updated : LightParam → Bool

/-- A call of `esp_rmaker_param_update_and_report`. -/
def CloudSide.update (c : CloudSide) (u : ParamUpdate) : CloudSide where
  agent := (espRmakerParamUpdateAndReport lightNode .enough u.param u.val c.agent).2
  updated := fun q => decide (q = u.param) || c.updated q

structure Firmware where
  light : Light
  sender : Sender
  ucRxTaskHandleFlag : Bool
  cloud : CloudSide

/-- RainMaker started and connected, nothing updated yet. -/
def Firmware.boot : Firmware := ⟨Light.boot, Sender.boot, false, ⟨lightAgent, fun _ => false⟩⟩

/-- The updates among the effects, through `esp_rmaker_update`. -/
def updatesOf (es : List Effect) : List ParamUpdate :=
  es.flatMap fun e => match e with
    | .espRmakerUpdate cmd dat => espRmakerUpdate cmd dat
    | _ => []

/-- Commands posted and parameters updated, each in order. The effects
on the sender, on the flag and on the cloud do not meet. -/
def Firmware.perform (s : Firmware) (cmds : List Cmd) (us : List ParamUpdate) : Firmware :=
  { s with
    sender := cmds.foldl (fun q c => sendBriCtrlInfo true c q) s.sender
    cloud := us.foldl CloudSide.update s.cloud }

/-- Who moves: the cloud, the UART event task, the send task, or the
wake line, which sets the flag the send task waits on. -/
inductive FirmwareAct where
  | cloudWrite (w : CloudWrite)
  | uartData (bytes : List UInt8)
  | task
  | rxFlag (b : Bool)

/-- One step, with `s_wifi_init_end_flag` at 1. -/
def firmwareStep (s : Firmware) : FirmwareAct → Option Firmware
  | .cloudWrite w =>
      let r := writeCb w s.light
      some ({ s with light := r.1 }.perform r.2.1 r.2.2)
  | .uartData bytes =>
      let r := uartDataEvent 1 bytes s.light
      some ({ s with
        light := r.1
        ucRxTaskHandleFlag := rxFlagAfter r.2 s.ucRxTaskHandleFlag }.perform
          (sentCmds r.2) (updatesOf r.2))
  | .task => (taskStep s.ucRxTaskHandleFlag 1 s.sender).map fun r =>
      { s with sender := r.1 }.perform [] (updatesOf r.2)
  | .rxFlag b => some { s with ucRxTaskHandleFlag := b }

/-! ## Agreement -/

/-- What a parameter should say of the light; the name says nothing. -/
def Light.paramVal (l : Light) : LightParam → Option Val
  | .name => none
  | .power => some (.boolean (decide (getBriStatus l ≠ 0)))
  | .brightness => some (.integer (getBtightPct l).toInt32)

/-- Every parameter that was updated says what is true of the light. -/
def Agree (l : Light) (c : CloudSide) : Prop :=
  ∀ q v, l.paramVal q = some v → c.updated q = true → (c.agent.param q).val = v

/-- No send task is alive; the other steps are atomic. -/
def Firmware.Quiescent (s : Firmware) : Prop := s.sender.pc = .exited

def Firmware.AgreesAtRest (s : Firmware) : Prop := s.Quiescent → Agree s.light s.cloud

/-- What the task is about to report is what the light has. -/
def Fresh (l : Light) (b : Frame) : Prop :=
  ∀ u ∈ espRmakerUpdate b.cmd b.dat.toUInt32, l.paramVal u.param = some u.val

instance (l : Light) (b : Frame) : Decidable (Fresh l b) :=
  inferInstanceAs (Decidable (∀ u ∈ _, _))

/-- The condition on a step: a report of the send task is fresh. -/
def ReportsFresh (s : Firmware) : FirmwareAct → Prop
  | .task => s.sender.pc = .report → Fresh s.light s.sender.ucSendBuffTemp
  | _ => True

instance : (s : Firmware) → (a : FirmwareAct) → Decidable (ReportsFresh s a)
  | _, .cloudWrite _ => .isTrue trivial
  | _, .uartData _ => .isTrue trivial
  | s, .task => inferInstanceAs (Decidable (s.sender.pc = .report → _))
  | _, .rxFlag _ => .isTrue trivial

/-- The type a parameter is created with. -/
def LightParam.type : LightParam → ValType
  | .name => .string
  | .power => .boolean
  | .brightness => .integer

/-- Parameters keep the type they were created with. -/
def CloudSide.Typed (c : CloudSide) : Prop := ∀ q, (c.agent.param q).val.type = q.type

/-- An update of the parameter's own type. -/
def ParamUpdate.Typed (u : ParamUpdate) : Prop := u.val.type = u.param.type

/-! ## One update -/

section Update

variable {l l' : Light} {c : CloudSide} {u : ParamUpdate}

theorem update_val (hc : c.Typed) (hu : u.Typed) (q : LightParam) :
    ((c.update u).agent.param q).val = if q = u.param then u.val else (c.agent.param q).val :=
  updateAndReport_val lightNode ⟨(hc u.param).trans hu.symm, fun _ => rfl⟩ q

theorem CloudSide.Typed.update (hc : c.Typed) (hu : u.Typed) : (c.update u).Typed := by
  intro q
  rw [update_val hc hu]
  by_cases hq : q = u.param
  · rw [if_pos hq, hq]
    exact hu
  · rw [if_neg hq]
    exact hc q

theorem CloudSide.Typed.updates {us : List ParamUpdate} (hc : c.Typed) (hus : ∀ u ∈ us, u.Typed) :
    (us.foldl CloudSide.update c).Typed := by
  induction us generalizing c with
  | nil => exact hc
  | cons u us ih =>
      exact ih (hc.update (hus u List.mem_cons_self)) fun v hv =>
        hus v (List.mem_cons_of_mem u hv)

/-- **A change reported as it is made keeps the agreement.** -/
theorem Agree.update (h : Agree l c) (hc : c.Typed) (hu : u.Typed)
    (hother : ∀ q, q ≠ u.param → l'.paramVal q = l.paramVal q)
    (hval : ∀ v, l'.paramVal u.param = some v → u.val = v) : Agree l' (c.update u) := by
  intro q v hv hup
  rw [update_val hc hu]
  by_cases hq : q = u.param
  · subst hq
    rw [if_pos rfl]
    exact hval v hv
  · rw [if_neg hq]
    rw [hother q hq] at hv
    have hold : c.updated q = true := by
      simpa [CloudSide.update, hq] using hup
    exact h q v hv hold

end Update

/-! ## What a writer tells the cloud -/

/-- A writer takes the light from `l` to `l'` and makes the updates
`us`: it leaves the limits alone, and its updates tell the cloud what it
changed. -/
structure Tells (l l' : Light) (us : List ParamUpdate) : Prop where
  typed : ∀ u ∈ us, u.Typed
  min : l'.briMinPct = l.briMinPct
  max : l'.briMaxPct = l.briMaxPct
  agree : ∀ c : CloudSide, c.Typed → Agree l c → Agree l' (us.foldl CloudSide.update c)

theorem Tells.nothing (l : Light) : Tells l l [] where
  typed := fun _ h => by cases h
  min := rfl
  max := rfl
  agree := fun _ _ h => h

theorem Tells.append {l l' l'' : Light} {us vs : List ParamUpdate} (h : Tells l l' us)
    (h' : Tells l' l'' vs) : Tells l l'' (us ++ vs) where
  typed := fun u hu => (List.mem_append.mp hu).elim (h.typed u) (h'.typed u)
  min := h'.min.trans h.min
  max := h'.max.trans h.max
  agree := fun c hc ha => by
    rw [List.foldl_append]
    exact h'.agree _ (hc.updates h.typed) (h.agree c hc ha)

theorem tells_power (l : Light) (status : UInt16) {b : Bool} (hb : b = decide (status ≠ 0)) :
    Tells l (setBriStatus status l) [⟨.power, .boolean b⟩] where
  typed := fun u hu => by
    rw [List.mem_singleton.mp hu]
    rfl
  min := rfl
  max := rfl
  agree := fun c hc ha => by
    refine ha.update hc rfl (fun q hq => ?_) fun v hv => ?_
    · cases q with
      | name => rfl
      | power => exact absurd rfl hq
      | brightness => rfl
    · rw [hb]
      exact Option.some.inj hv

theorem tells_brightness (l : Light) (now : UInt8) {i : Int32} (hi : i = now.toUInt32.toInt32) :
    Tells l { l with briNowPct := now } [⟨.brightness, .integer i⟩] where
  typed := fun u hu => by
    rw [List.mem_singleton.mp hu]
    rfl
  min := rfl
  max := rfl
  agree := fun c hc ha => by
    refine ha.update hc rfl (fun q hq => ?_) fun v hv => ?_
    · cases q with
      | name => rfl
      | power => rfl
      | brightness => exact absurd rfl hq
    · rw [hi]
      exact Option.some.inj hv

theorem tells_name (l : Light) (s : String) : Tells l l [⟨.name, .string (some s)⟩] where
  typed := fun u hu => by
    rw [List.mem_singleton.mp hu]
    rfl
  min := rfl
  max := rfl
  agree := fun c hc ha => by
    refine ha.update hc rfl (fun _ _ => rfl) fun v hv => ?_
    cases hv

/-! ## The write callback and the parser -/

theorem writeCb_tells (w : CloudWrite) (l : Light) :
    Tells l (writeCb w l).1 (writeCb w l).2.2 := by
  cases w with
  | power b =>
      cases b with
      | true => exact tells_power l 1 rfl
      | false => exact tells_power l 0 rfl
  | brightness i =>
      rw [writeCb]
      by_cases hon : getBriStatus l ≠ 0
      · rw [if_pos hon]
        rcases setBtightPct_cases i.toUInt32 l with ⟨he, _⟩ | ⟨b, _, _, _, he⟩
        · rw [he]
          exact tells_brightness l l.briNowPct rfl
        · rw [he]
          exact tells_brightness l b rfl
      · rw [if_neg hon]
        exact Tells.nothing l
  | name s => exact tells_name l s

@[simp] theorem updatesOf_append (es fs : List Effect) :
    updatesOf (es ++ fs) = updatesOf es ++ updatesOf fs := List.flatMap_append

@[simp] theorem updatesOf_acknowledge (cmd : UInt8) : updatesOf (acknowledge cmd) = [] := rfl

@[simp] theorem updatesOf_sent (cs : List Cmd) : updatesOf (cs.map .sendBriCtrlInfo) = [] := by
  induction cs with
  | nil => rfl
  | cons c cs ih => exact ih

@[simp] theorem updatesOf_forward (cmd : UInt8) (dat : UInt32) :
    updatesOf (forward 1 cmd dat) = espRmakerUpdate cmd dat := by
  rw [forward, if_pos (by decide), updatesOf, List.flatMap_singleton]

@[simp] theorem updatesOf_transmit (b : Frame) : updatesOf (transmit b) = [] := by
  rw [transmit]
  split <;> rfl

theorem dealOnOff_tells {c : Cmd} (hcmd : c.cmd = onOffCmd) (l : Light) :
    Tells l (dealOnOff 1 c l).1 (updatesOf (dealOnOff 1 c l).2) := by
  rw [dealOnOff]
  by_cases hne : c.dat.toUInt16 ≠ getBriStatus l
  · rw [if_pos hne, updatesOf_append, updatesOf_acknowledge, updatesOf_forward, hcmd]
    refine tells_power l c.dat.toUInt16 ?_
    have hzero : c.dat.toUInt16 = 0 ↔ c.dat = 0 := UInt8.toUInt16_inj (b := 0)
    by_cases hd : c.dat = 0
    · simp [hd]
    · simp [hd, hzero]
  · rw [if_neg hne]
    exact Tells.nothing l

/-- With the limits of start-up every brightness up to 100 is taken, so
what is reported is what was set. -/
theorem dealBriNow_tells {c : Cmd} (hcmd : c.cmd = briNowCmd) {l : Light}
    (hmin : l.briMinPct = 0) (hmax : l.briMaxPct = 100) :
    Tells l (dealBriNow 1 c l).1 (updatesOf (dealBriNow 1 c l).2) := by
  rw [dealBriNow]
  by_cases hne : c.dat.toUInt32 ≠ getBtightPct l
  · rw [if_pos hne]
    by_cases h100 : c.dat ≤ 100
    · rw [if_pos h100]
      simp only [updatesOf_append, updatesOf_acknowledge, updatesOf_sent, updatesOf_forward,
        List.nil_append, hcmd]
      rcases setBtightPct_cases c.dat.toUInt32 l with ⟨_, hout⟩ | ⟨b, hb, _, _, he⟩
      · rw [hmin, hmax] at hout
        rcases hout with hhi | hlo
        · exact absurd h100 (UInt8.not_le.mpr (UInt8.toUInt32_lt.mp hhi))
        · exact absurd (UInt8.toUInt32_lt.mp hlo) (UInt8.not_lt.mpr (UInt8.zero_le))
      · rw [he]
        refine tells_brightness l b ?_
        rw [hb]
    · rw [if_neg h100]
      exact Tells.nothing l
  · rw [if_neg hne]
    exact Tells.nothing l

theorem dealFrame_tells (c : Cmd) {l : Light} (hmin : l.briMinPct = 0)
    (hmax : l.briMaxPct = 100) :
    Tells l (dealFrame 1 c l).1 (updatesOf (dealFrame 1 c l).2) := by
  rw [dealFrame]
  split
  · exact dealOnOff_tells ‹_› l
  · split
    · exact dealBriNow_tells ‹_› hmin hmax
    · split
      · exact Tells.nothing l
      · exact Tells.nothing l

theorem dealAll_tells (cs : List Cmd) {l : Light} (hmin : l.briMinPct = 0)
    (hmax : l.briMaxPct = 100) :
    Tells l (dealAll 1 cs l).1 (updatesOf (dealAll 1 cs l).2) := by
  induction cs generalizing l with
  | nil => exact Tells.nothing l
  | cons c cs ih =>
      have hhead := dealFrame_tells c hmin hmax
      simp only [dealAll, updatesOf_append]
      exact hhead.append (ih (hhead.min.trans hmin) (hhead.max.trans hmax))

theorem uartDataEvent_tells (bytes : List UInt8) {l : Light} (hmin : l.briMinPct = 0)
    (hmax : l.briMaxPct = 100) :
    Tells l (uartDataEvent 1 bytes l).1 (updatesOf (uartDataEvent 1 bytes l).2) := by
  rw [uartDataEvent, uartDealWith_eq]
  exact dealAll_tells _ hmin hmax

/-! ## Runs -/

/-- `esp_rmaker_update` makes at most one update, of Power or of
Brightness, with a value of its type. -/
theorem espRmakerUpdate_cases (cmd : UInt8) (dat : UInt32) :
    espRmakerUpdate cmd dat = [] ∨
      ∃ u : ParamUpdate, espRmakerUpdate cmd dat = [u] ∧ u.Typed ∧ u.param ≠ .name := by
  by_cases h0 : cmd = onOffCmd
  · exact .inr ⟨⟨.power, .boolean (decide (dat ≠ 0))⟩, by rw [espRmakerUpdate, if_pos h0], rfl,
      LightParam.noConfusion⟩
  · by_cases h1 : cmd = briNowCmd
    · exact .inr ⟨⟨.brightness, .integer dat.toInt32⟩,
        by rw [espRmakerUpdate, if_neg h0, if_pos h1], rfl, LightParam.noConfusion⟩
    · exact .inl (by rw [espRmakerUpdate, if_neg h0, if_neg h1])

theorem typed_espRmakerUpdate {cmd : UInt8} {dat : UInt32} {u : ParamUpdate}
    (hu : u ∈ espRmakerUpdate cmd dat) : u.Typed := by
  rcases espRmakerUpdate_cases cmd dat with h | ⟨v, h, htyped, _⟩
  · rw [h] at hu
    cases hu
  · rw [h, List.mem_singleton] at hu
    rwa [hu]

/-- What holds in every state, whatever the task reports. -/
structure Firmware.Ok (s : Firmware) : Prop where
  typed : s.cloud.Typed
  min : s.light.briMinPct = 0
  max : s.light.briMaxPct = 100

theorem Firmware.boot_ok : Firmware.boot.Ok where
  typed := fun q => by cases q <;> decide
  min := rfl
  max := rfl

/-- The updates of a step of the task are those of its report. -/
theorem taskStep_updates {rxFlag : Bool} {q : Sender} {r : Sender × List Effect}
    (h : taskStep rxFlag 1 q = some r) :
    (q.pc = .report ∧ updatesOf r.2
        = espRmakerUpdate q.ucSendBuffTemp.cmd q.ucSendBuffTemp.dat.toUInt32) ∨
      (q.pc ≠ .report ∧ updatesOf r.2 = []) := by
  rcases taskStep_effects h with ⟨hpc, he⟩ | ⟨hpc, he⟩ | ⟨_, hpc, he⟩
  · refine .inr ⟨?_, by rw [he, updatesOf_transmit]⟩
    rw [hpc]
    exact TaskPc.noConfusion
  · exact .inl ⟨hpc, by rw [he, updatesOf_forward]⟩
  · exact .inr ⟨hpc, by rw [he]; rfl⟩

theorem firmwareStep_ok {s s' : Firmware} {a : FirmwareAct} (h : s.Ok)
    (hs : firmwareStep s a = some s') : s'.Ok := by
  cases a with
  | cloudWrite w =>
      cases hs
      have ht := writeCb_tells w s.light
      exact ⟨h.typed.updates ht.typed, ht.min.trans h.min, ht.max.trans h.max⟩
  | uartData bytes =>
      cases hs
      have ht := uartDataEvent_tells bytes h.min h.max
      exact ⟨h.typed.updates ht.typed, ht.min.trans h.min, ht.max.trans h.max⟩
  | task =>
      obtain ⟨r, hr, rfl⟩ := Option.map_eq_some_iff.mp hs
      refine ⟨h.typed.updates fun u hu => ?_, h.min, h.max⟩
      rcases taskStep_updates hr with ⟨_, hup⟩ | ⟨_, hup⟩
      · rw [hup] at hu
        exact typed_espRmakerUpdate hu
      · rw [hup] at hu
        cases hu
  | rxFlag b =>
      cases hs
      exact ⟨h.typed, h.min, h.max⟩

/-- Fresh reports change nothing that was agreed. -/
theorem Agree.fresh {l : Light} {c : CloudSide} (h : Agree l c) (hc : c.Typed)
    {us : List ParamUpdate} (hus : ∀ u ∈ us, u.Typed ∧ l.paramVal u.param = some u.val) :
    Agree l (us.foldl CloudSide.update c) := by
  induction us generalizing c with
  | nil => exact h
  | cons u us ih =>
      obtain ⟨htyped, hval⟩ := hus u List.mem_cons_self
      refine ih (h.update hc htyped (fun _ _ => rfl) fun v hv => ?_) (hc.update htyped)
        fun v hv => hus v (List.mem_cons_of_mem u hv)
      rw [hval] at hv
      exact Option.some.inj hv

theorem firmwareStep_agree {s s' : Firmware} {a : FirmwareAct} (h : s.Ok ∧ Agree s.light s.cloud)
    (hfresh : ReportsFresh s a) (hs : firmwareStep s a = some s') :
    s'.Ok ∧ Agree s'.light s'.cloud := by
  obtain ⟨hok, ha⟩ := h
  refine ⟨firmwareStep_ok hok hs, ?_⟩
  cases a with
  | cloudWrite w =>
      cases hs
      exact (writeCb_tells w s.light).agree s.cloud hok.typed ha
  | uartData bytes =>
      cases hs
      exact (uartDataEvent_tells bytes hok.min hok.max).agree s.cloud hok.typed ha
  | task =>
      -- the task tells the cloud something in its report step only
      obtain ⟨r, hr, rfl⟩ := Option.map_eq_some_iff.mp hs
      refine ha.fresh hok.typed fun u hu => ?_
      rcases taskStep_updates hr with ⟨hpc, hup⟩ | ⟨_, hup⟩
      · rw [hup] at hu
        exact ⟨typed_espRmakerUpdate hu, hfresh hpc u hu⟩
      · rw [hup] at hu
        cases hu
  | rxFlag b =>
      cases hs
      exact ha

/-- **In a run whose reports are all fresh, the parameters agree with the
light in every state without a send task.** -/
theorem agrees_at_rest (as : List FirmwareAct)
    (hfresh : Guarded firmwareStep ReportsFresh Firmware.boot as) :
    Always firmwareStep Firmware.AgreesAtRest Firmware.boot as := by
  refine always_of_guarded (fun s h _ => h.2) (fun _ _ _ => firmwareStep_agree) ?_ hfresh
  exact ⟨Firmware.boot_ok, fun _ _ _ hup => Bool.noConfusion hup⟩

/-- The light switched on from the cloud, and transmitted. -/
theorem agrees_at_rest_switched_on :
    Always firmwareStep Firmware.AgreesAtRest Firmware.boot
      (.cloudWrite (.power true) :: List.replicate 6 .task) :=
  agrees_at_rest _ (by decide)

/-- A report that says something else than the light breaks the
agreement. -/
theorem not_agree_update {l : Light} {c : CloudSide} {u : ParamUpdate} (hc : c.Typed)
    (hu : u.Typed) (hname : u.param ≠ .name) (hstale : l.paramVal u.param ≠ some u.val) :
    ¬ Agree l (c.update u) := by
  intro ha
  obtain ⟨v, hv⟩ : ∃ v, l.paramVal u.param = some v := by
    cases hp : u.param with
    | name => exact absurd hp hname
    | power => exact ⟨_, rfl⟩
    | brightness => exact ⟨_, rfl⟩
  have hval := ha u.param v hv (by simp [CloudSide.update])
  rw [update_val hc hu, if_pos rfl] at hval
  rw [hv, hval] at hstale
  exact hstale rfl

/-- With no call in between, the task reports, clears the pending flag
and exits. -/
theorem run_report {s : Firmware} (hpc : s.sender.pc = .report) :
    ∃ q : Sender, q.pc = .exited ∧ run firmwareStep s [.task, .task, .task]
      = some { s with
          sender := q
          cloud := (espRmakerUpdate s.sender.ucSendBuffTemp.cmd
            s.sender.ucSendBuffTemp.dat.toUInt32).foldl CloudSide.update s.cloud } := by
  have hreport : firmwareStep s .task
      = some ({ s with sender := { s.sender with pc := .clear } }.perform []
          (espRmakerUpdate s.sender.ucSendBuffTemp.cmd
            s.sender.ucSendBuffTemp.dat.toUInt32)) := by
    simp only [firmwareStep, taskStep, hpc, Option.map_some, updatesOf_forward]
  refine ⟨{ s.sender with
    ucSendBuff := { s.sender.ucSendBuff with cmd := errorCmd }
    ucSendFlag := false
    pc := .test }.exit, rfl, ?_⟩
  rw [run_cons, hreport]
  rfl

/-- **A stale report is never put right by the task**: it exits with the
parameter and the light in disagreement. -/
theorem stale_report_disagrees {s : Firmware} (h : s.Ok) (hpc : s.sender.pc = .report)
    (hstale : ¬ Fresh s.light s.sender.ucSendBuffTemp) :
    ∃ s', run firmwareStep s [.task, .task, .task] = some s' ∧ s'.Quiescent ∧
      ¬ Agree s'.light s'.cloud := by
  obtain ⟨q, hexited, hrun⟩ := run_report hpc
  refine ⟨_, hrun, hexited, ?_⟩
  rcases espRmakerUpdate_cases s.sender.ucSendBuffTemp.cmd
    s.sender.ucSendBuffTemp.dat.toUInt32 with hnone | ⟨u, hone, htyped, hname⟩
  · rw [Fresh, hnone] at hstale
    exact absurd (fun u hu => by cases hu) hstale
  · rw [Fresh, hone] at hstale
    rw [hone]
    refine not_agree_update h.typed htyped hname fun hval => hstale fun v hv => ?_
    rw [List.mem_singleton.mp hv]
    exact hval

/-- Switched off while the switching on is being transmitted: the cloud
ends up with a light that is on. -/
theorem stale_command_reported :
    ¬ ∀ as : List FirmwareAct, Always firmwareStep Firmware.AgreesAtRest Firmware.boot as := by
  intro h
  have hrest := always_iff_prefix.mp (h (.cloudWrite (.power true) :: List.replicate 3 .task
    ++ .cloudWrite (.power false) :: List.replicate 3 .task)) _ (List.prefix_refl _) _ rfl
  exact absurd (hrest rfl .power _ rfl rfl) (by decide)

end LiveWireSwitch
