import LiveWireSwitch.PowerLock

/-!
# WakeLine — the wake-up pin and its interrupt

One pin serves both directions of the wake-up handshake. As an input it
interrupts when the MCU moves the line, and `wakeup_io_isr_handler`
tells from `wakeup_io_intr_type`, a copy of the interrupt type kept in
software, which way the line has gone. Before an on/off or Wi-Fi command
the send task makes the pin an output to wake the MCU, and afterwards an
input that interrupts on a rising edge, and leaves the copy as it is.

An interrupt that is enabled and whose condition holds comes before any
other step.
-/

namespace LiveWireSwitch

open Lib

/-! ## The pin -/

/-- Where `send_uart_info_task` is with a command that wakes the MCU. -/
inductive WakePc where
  /-- before its test of `ucRxTaskHandle_Flag` -/
  | idle
  /-- the flag was 0 -/
  | tested
  /-- past `wakeup_mcu_info_config` -/
  | configured
  /-- past `wakeup_mcu_info` -/
  | woken
deriving DecidableEq, Repr

structure WakeLine where
  /-- what the MCU drives -/
  mcuLevel : Bool
  /-- `GPIO_MODE_OUTPUT`, otherwise `GPIO_MODE_INPUT` -/
  output : Bool
  /-- what `gpio_set_level` has set for an output -/
  outLevel : Bool
  /-- the interrupt type of the pin, `none` for `GPIO_INTR_DISABLE` -/
  intrType : Option GpioIntrType
  /-- a rising edge that has not been handled -/
  edge : Bool
  /-- the handler is installed -/
  installed : Bool
  wakeupIoIntrType : GpioIntrType
  ucRxTaskHandleFlag : Bool
  wakeupIoStartTimer : EspTimer
  wakeupIoStopTimer : EspTimer
  task : WakePc
deriving DecidableEq

namespace WakeLine

/-- Before `wakeup_io_intr_init`; the timers have been created. -/
def boot (mcuLevel : Bool) : WakeLine where
  mcuLevel := mcuLevel
  output := false
  outLevel := false
  intrType := none
  edge := false
  installed := false
  wakeupIoIntrType := .highLevel
  ucRxTaskHandleFlag := false
  wakeupIoStartTimer := .stopped
  wakeupIoStopTimer := .stopped
  task := .idle

/-- The level of the line. -/
def level (s : WakeLine) : Bool := if s.output then s.outLevel else s.mcuLevel

/-- The MCU drives the line. A rising edge is seen by an input of type
`GPIO_INTR_POSEDGE`. -/
def drive (b : Bool) (s : WakeLine) : WakeLine :=
  let s' := { s with mcuLevel := b }
  { s' with edge := s.edge || (s.intrType == some .posedge && !s.level && s'.level) }

/-- The interrupt is enabled and its condition holds. -/
def Fires (s : WakeLine) : Prop :=
  s.installed = true ∧ match s.intrType with
    | none => False
    | some .posedge => s.edge = true
    | some .highLevel => s.level = true
    | some .lowLevel => s.level = false

instance (s : WakeLine) : Decidable s.Fires :=
  match h : s.intrType with
  | none => decidable_of_iff (s.installed = true ∧ False) (by simp [Fires, h])
  | some .posedge => decidable_of_iff (s.installed = true ∧ s.edge = true) (by simp [Fires, h])
  | some .highLevel => decidable_of_iff (s.installed = true ∧ s.level = true) (by simp [Fires, h])
  | some .lowLevel => decidable_of_iff (s.installed = true ∧ s.level = false) (by simp [Fires, h])

/-! ## The code (`app_uart.c`) -/

/-- `wait_for_mcu_info_config(MCU_WAJEUP_IO)` -/
def waitForMcuInfoConfig (s : WakeLine) : WakeLine :=
  { s with output := false, intrType := some .posedge }

/-- `wakeup_mcu_info_config` -/
def wakeupMcuInfoConfig (s : WakeLine) : WakeLine :=
  { s with output := true, outLevel := true, intrType := none }

/-- `wakeup_mcu_info` -/
def wakeupMcuInfo (s : WakeLine) : WakeLine := { s with outLevel := true }

/-- `wakeup_io_intr_init`; `b` is whether `gpio_wakeup_enable(..,
GPIO_INTR_HIGH_LEVEL)` also makes that the interrupt type of the pin. -/
def wakeupIoIntrInit (b : Bool) (s : WakeLine) : WakeLine :=
  let s := s.waitForMcuInfoConfig
  let s := if s.level = false then { s with wakeupIoIntrType := .posedge } else s
  let s := { s with installed := true }
  if b then { s with intrType := some .highLevel } else s

/-- `wakeup_io_isr_handler`, the interrupt status cleared. -/
def isr (s : WakeLine) : WakeLine :=
  let s := { s with edge := false }
  if s.wakeupIoIntrType = .lowLevel then
    { s with
      wakeupIoIntrType := .highLevel
      intrType := some .highLevel
      ucRxTaskHandleFlag := false
      wakeupIoStartTimer := s.wakeupIoStartTimer.stop.startOnce (1 * 1000) }
  else if s.wakeupIoIntrType = .highLevel then
    { s with
      wakeupIoIntrType := .lowLevel
      intrType := some .lowLevel
      ucRxTaskHandleFlag := true
      wakeupIoStopTimer := s.wakeupIoStopTimer.stop.startOnce (1 * 1000) }
  else { s with wakeupIoIntrType := .highLevel, intrType := some .highLevel }

end WakeLine

inductive WakeAct where
  /-- `wakeup_io_intr_init`, once, before anything is sent -/
  | init (wakeupEnableSetsType : Bool)
  /-- the MCU raises or lowers the line -/
  | drive (b : Bool)
  /-- the send task finds `ucRxTaskHandle_Flag` 0 -/
  | test
  | wakeupMcuInfoConfig
  | wakeupMcuInfo
  | waitForMcuInfoConfig
  /-- `uart_deal_with` or `wifi_start_init` clears `ucRxTaskHandle_Flag` -/
  | clearRxFlag
  /-- a timer expires -/
  | startTimer
  | stopTimer
  | isr
deriving DecidableEq, Repr

/-- A step other than the interrupt. -/
def WakeLine.threadStep (s : WakeLine) : WakeAct → Option WakeLine
  | .init b => if s.installed then none else some (s.wakeupIoIntrInit b)
  | .drive b => some (s.drive b)
  | .test =>
      if s.installed ∧ s.task = .idle ∧ s.ucRxTaskHandleFlag = false then
        some { s with task := .tested }
      else none
  | .wakeupMcuInfoConfig =>
      if s.task = .tested then some { s.wakeupMcuInfoConfig with task := .configured } else none
  | .wakeupMcuInfo =>
      if s.task = .configured then some { s.wakeupMcuInfo with task := .woken } else none
  | .waitForMcuInfoConfig =>
      if s.task = .woken then some { s.waitForMcuInfoConfig with task := .idle } else none
  | .clearRxFlag => some { s with ucRxTaskHandleFlag := false }
  | .startTimer => s.wakeupIoStartTimer.expire.map fun t => { s with wakeupIoStartTimer := t }
  | .stopTimer => s.wakeupIoStopTimer.expire.map fun t => { s with wakeupIoStopTimer := t }
  | .isr => none

/-- One step: the interrupt while it fires, any other otherwise. -/
def wakeStep (s : WakeLine) (a : WakeAct) : Option WakeLine :=
  if s.Fires then if a = .isr then some s.isr else none
  else s.threadStep a

/-- The handler takes its HIGH_LEVEL branch only on a high line and its
LOW_LEVEL branch only on a low one. -/
def RightBranch (s : WakeLine) : WakeAct → Prop
  | .isr => (s.wakeupIoIntrType = .highLevel → s.level = true) ∧
      (s.wakeupIoIntrType = .lowLevel → s.level = false)
  | _ => True

instance : (s : WakeLine) → (a : WakeAct) → Decidable (RightBranch s a)
  | _, .isr => inferInstanceAs (Decidable ((_ → _) ∧ (_ → _)))
  | _, .init _ | _, .drive _ | _, .test | _, .wakeupMcuInfoConfig | _, .wakeupMcuInfo
  | _, .waitForMcuInfoConfig | _, .clearRxFlag | _, .startTimer | _, .stopTimer => .isTrue trivial

/-- `wakeup_mcu_info_config` runs only when `wakeup_io_intr_type` is not
`GPIO_INTR_LOW_LEVEL`. -/
def WakesIdleLine (s : WakeLine) : WakeAct → Prop
  | .wakeupMcuInfoConfig => s.wakeupIoIntrType ≠ .lowLevel
  | _ => True

instance : (s : WakeLine) → (a : WakeAct) → Decidable (WakesIdleLine s a)
  | _, .wakeupMcuInfoConfig => inferInstanceAs (Decidable (_ ≠ _))
  | _, .init _ | _, .drive _ | _, .test | _, .wakeupMcuInfo | _, .waitForMcuInfoConfig
  | _, .clearRxFlag | _, .startTimer | _, .stopTimer | _, .isr => .isTrue trivial

/-! ## The handler of `PowerLock` -/

/-- The variables this module shares with `PowerSystem`. -/
structure WakeLine.Shares (s : WakeLine) (p : PowerSystem) : Prop where
  wakeupIoIntrType : s.wakeupIoIntrType = p.wakeupIoIntrType
  ucRxTaskHandleFlag : s.ucRxTaskHandleFlag = p.ucRxTaskHandleFlag
  wakeupIoStartTimer : s.wakeupIoStartTimer = p.wakeupIoStartTimer
  wakeupIoStopTimer : s.wakeupIoStopTimer = p.wakeupIoStopTimer

/-- To these variables the handler does here what it does there. -/
theorem WakeLine.Shares.isr {s : WakeLine} {p : PowerSystem} (h : s.Shares p) :
    s.isr.Shares (wakeupIoIsrHandler p) := by
  have hcopy := h.wakeupIoIntrType
  unfold WakeLine.isr wakeupIoIsrHandler
  cases hp : p.wakeupIoIntrType with
  | lowLevel =>
      rw [hp] at hcopy
      simp only [hcopy, if_true]
      exact ⟨rfl, rfl, by rw [h.wakeupIoStartTimer], h.wakeupIoStopTimer⟩
  | highLevel =>
      rw [hp] at hcopy
      simp only [hcopy, reduceCtorEq, if_true, if_false]
      exact ⟨rfl, rfl, h.wakeupIoStartTimer, by rw [h.wakeupIoStopTimer]⟩
  | posedge =>
      rw [hp] at hcopy
      simp only [hcopy, reduceCtorEq, if_false]
      exact ⟨rfl, h.ucRxTaskHandleFlag, h.wakeupIoStartTimer, h.wakeupIoStopTimer⟩

/-! ## The copy and the pin -/

/-- The copy says LOW_LEVEL exactly when the pin interrupts on a low
level, an unhandled edge is on a line still high, and the pin does not
interrupt while the task has it for an output. -/
structure WakeLine.Ok (s : WakeLine) : Prop where
  low : s.wakeupIoIntrType = .lowLevel ↔ s.intrType = some .lowLevel
  edge : s.edge = true → s.installed = true ∧ s.intrType = some .posedge ∧ s.level = true
  away : s.task = .configured ∨ s.task = .woken → s.intrType = none
  before : s.installed = false → s.wakeupIoIntrType ≠ .lowLevel ∧ s.intrType = none ∧
    s.task = .idle

theorem WakeLine.boot_ok (b : Bool) : (WakeLine.boot b).Ok where
  low := by simp [WakeLine.boot]
  edge := by simp [WakeLine.boot]
  away := by simp [WakeLine.boot]
  before := by simp [WakeLine.boot]

/-- An edge that has not been handled is about to be. -/
theorem WakeLine.Ok.no_edge {s : WakeLine} (h : s.Ok) (hquiet : ¬ s.Fires) : s.edge = false := by
  cases hedge : s.edge with
  | false => rfl
  | true =>
      obtain ⟨hinstalled, htype, -⟩ := h.edge hedge
      exact absurd ⟨hinstalled, by rw [htype]; exact hedge⟩ hquiet

/-- **The handler takes the right branch.** -/
theorem WakeLine.Ok.rightBranch {s : WakeLine} (h : s.Ok) (hfires : s.Fires) :
    RightBranch s .isr := by
  obtain ⟨-, hcond⟩ := hfires
  constructor
  · intro hcopy
    cases htype : s.intrType with
    | none =>
        rw [htype] at hcond
        exact hcond.elim
    | some t =>
        rw [htype] at hcond
        cases t with
        | highLevel => exact hcond
        | posedge => exact (h.edge hcond).2.2
        | lowLevel =>
            rw [h.low.mpr htype] at hcopy
            cases hcopy
  · intro hcopy
    rw [h.low.mp hcopy] at hcond
    exact hcond

/-- An installed pin that is not away and has no edge pending. -/
theorem WakeLine.ok_of_installed {s : WakeLine} (hinstalled : s.installed = true)
    (hedge : s.edge = false) (haway : ¬ (s.task = .configured ∨ s.task = .woken))
    (low : s.wakeupIoIntrType = .lowLevel ↔ s.intrType = some .lowLevel) : s.Ok where
  low := low
  edge := by
    intro hpending
    rw [hedge] at hpending
    cases hpending
  away := by
    intro htask
    exact absurd htask haway
  before := by
    intro hnot
    rw [hinstalled] at hnot
    cases hnot

/-- Whichever branch it takes, the handler leaves no edge behind and the
task where it is. -/
theorem WakeLine.isr_keeps (s : WakeLine) :
    s.isr.installed = s.installed ∧ s.isr.edge = false ∧ s.isr.task = s.task := by
  unfold WakeLine.isr
  dsimp only
  split
  · exact ⟨rfl, rfl, rfl⟩
  · split
    · exact ⟨rfl, rfl, rfl⟩
    · exact ⟨rfl, rfl, rfl⟩

/-- Every branch sets the copy and the pin to one type. -/
theorem WakeLine.isr_low (s : WakeLine) :
    s.isr.wakeupIoIntrType = .lowLevel ↔ s.isr.intrType = some .lowLevel := by
  unfold WakeLine.isr
  dsimp only
  split
  · simp
  · split
    · simp
    · simp

theorem WakeLine.Ok.isr {s : WakeLine} (h : s.Ok) (hfires : s.Fires) : s.isr.Ok := by
  obtain ⟨hinstalled, hedge, htask⟩ := s.isr_keeps
  refine ok_of_installed (hinstalled.trans hfires.1) hedge ?_ s.isr_low
  -- a pin that is away does not interrupt
  intro haway
  rw [htask] at haway
  have hcond := hfires.2
  rw [h.away haway] at hcond
  exact hcond

/-- The MCU moves the line: an edge that comes of it leaves it high. -/
theorem WakeLine.Ok.drive {s : WakeLine} (h : s.Ok) (hquiet : ¬ s.Fires) (b : Bool) :
    (s.drive b).Ok where
  low := h.low
  edge := by
    intro hedge
    have hrise : s.intrType = some .posedge ∧ s.level = false ∧ (s.drive b).level = true := by
      have hnone := h.no_edge hquiet
      simpa [WakeLine.drive, WakeLine.level, hnone, and_assoc] using hedge
    refine ⟨?_, hrise.1, hrise.2.2⟩
    show s.installed = true
    by_contra hnot
    have htype := (h.before (Bool.not_eq_true _ ▸ hnot)).2.1
    rw [hrise.1] at htype
    cases htype
  away := h.away
  before := h.before

theorem wakeupIoIntrInit_eq (s : WakeLine) (b : Bool) :
    s.wakeupIoIntrInit b = { s with
      output := false
      intrType := some (if b then .highLevel else .posedge)
      installed := true
      wakeupIoIntrType := if s.mcuLevel = false then .posedge else s.wakeupIoIntrType } := by
  -- the pin is an input by now, so its level is what the MCU drives
  obtain ⟨mcuLevel, _, _, _, _, _, _, _, _, _, _⟩ := s
  cases mcuLevel <;> cases b <;> rfl

theorem WakeLine.Ok.init {s : WakeLine} (h : s.Ok) (hnot : s.installed = false)
    (hquiet : ¬ s.Fires) (b : Bool) : (s.wakeupIoIntrInit b).Ok := by
  obtain ⟨hcopy, -, htask⟩ := h.before hnot
  rw [wakeupIoIntrInit_eq]
  refine ok_of_installed rfl (h.no_edge hquiet) (by simp [htask]) ?_
  -- neither says LOW_LEVEL
  cases b <;> cases s.mcuLevel <;> simp [hcopy]

/-- The task is only busy with a pin that is installed. -/
theorem WakeLine.Ok.idle {s : WakeLine} (h : s.Ok) (hnot : s.installed = false)
    (htask : s.task ≠ .idle) : False := htask (h.before hnot).2.2

/-- **A step of a thread keeps the copy in line**, when the task does not
take the pin away from a LOW_LEVEL interrupt. -/
theorem WakeLine.Ok.threadStep {s s' : WakeLine} {a : WakeAct} (h : s.Ok) (hquiet : ¬ s.Fires)
    (hok : WakesIdleLine s a) (hs : s.threadStep a = some s') : s'.Ok := by
  have hnone : ¬ s.edge = true := by
    rw [h.no_edge hquiet]
    exact Bool.noConfusion
  cases a with
  | init b =>
      simp only [WakeLine.threadStep] at hs
      split at hs
      · cases hs
      · next hnot =>
          cases hs
          exact h.init (Bool.not_eq_true _ ▸ hnot) hquiet b
  | drive b =>
      cases hs
      exact h.drive hquiet b
  | test =>
      simp only [WakeLine.threadStep] at hs
      split at hs
      · next htest =>
          cases hs
          refine ⟨h.low, h.edge, by simp, fun hnot => ?_⟩
          rw [htest.1] at hnot
          cases hnot
      · cases hs
  | wakeupMcuInfoConfig =>
      simp only [WakeLine.threadStep] at hs
      split at hs
      · next htask =>
          cases hs
          refine ⟨?_, fun hedge => absurd hedge hnone, fun _ => rfl,
            fun hnot => (h.idle hnot (by simp [htask])).elim⟩
          simpa [WakeLine.wakeupMcuInfoConfig, WakesIdleLine] using hok
      · cases hs
  | wakeupMcuInfo =>
      simp only [WakeLine.threadStep] at hs
      split at hs
      · next htask =>
          cases hs
          exact ⟨h.low, fun hedge => absurd hedge hnone, fun _ => h.away (.inl htask),
            fun hnot => (h.idle hnot (by simp [htask])).elim⟩
      · cases hs
  | waitForMcuInfoConfig =>
      simp only [WakeLine.threadStep] at hs
      split at hs
      · next htask =>
          cases hs
          -- the copy was not LOW_LEVEL when the pin was taken away, and no interrupt came since
          have hcopy : s.wakeupIoIntrType ≠ .lowLevel := by
            rw [Ne, h.low, h.away (.inr htask)]
            simp
          refine ⟨?_, fun hedge => absurd hedge hnone, by simp,
            fun hnot => (h.idle hnot (by simp [htask])).elim⟩
          simpa [WakeLine.waitForMcuInfoConfig] using hcopy
      · cases hs
  | clearRxFlag =>
      cases hs
      exact ⟨h.low, h.edge, h.away, h.before⟩
  | startTimer =>
      obtain ⟨t, -, rfl⟩ := Option.map_eq_some_iff.mp hs
      exact ⟨h.low, h.edge, h.away, h.before⟩
  | stopTimer =>
      obtain ⟨t, -, rfl⟩ := Option.map_eq_some_iff.mp hs
      exact ⟨h.low, h.edge, h.away, h.before⟩
  | isr => cases hs

theorem wakeStep_ok {s s' : WakeLine} {a : WakeAct} (h : s.Ok) (hok : WakesIdleLine s a)
    (hs : wakeStep s a = some s') : s'.Ok := by
  unfold wakeStep at hs
  by_cases hfires : s.Fires
  · rw [if_pos hfires] at hs
    split at hs
    · cases hs
      exact h.isr hfires
    · cases hs
  · rw [if_neg hfires] at hs
    exact h.threadStep hfires hok hs

theorem wakeStep_rightBranch {s s' : WakeLine} {a : WakeAct} (h : s.Ok)
    (hs : wakeStep s a = some s') : RightBranch s a := by
  cases a with
  | isr =>
      unfold wakeStep at hs
      by_cases hfires : s.Fires
      · exact h.rightBranch hfires
      · rw [if_neg hfires] at hs
        cases hs
  | _ => trivial

/-- **The wake-line interrupt is classified correctly**, in every run in
which the send task takes the pin for an output only while the copy does
not say LOW_LEVEL. -/
theorem isr_right_branch (mcuLevel : Bool) (as : List WakeAct)
    (hidle : Guarded wakeStep WakesIdleLine (WakeLine.boot mcuLevel) as) :
    Guarded wakeStep RightBranch (WakeLine.boot mcuLevel) as :=
  guarded_of_guarded (I := WakeLine.Ok) (fun _ _ _ h _ hs => wakeStep_rightBranch h hs)
    (fun _ _ _ h hok hs => wakeStep_ok h hok hs) (WakeLine.boot_ok mcuLevel) hidle

/-- The MCU asks to send and ends, then a command wakes it and it asks
again. -/
theorem isr_right_branch_handshake :
    Guarded wakeStep RightBranch (WakeLine.boot false)
      [.init true, .drive true, .isr, .isr, .drive false, .isr, .test, .wakeupMcuInfoConfig,
        .wakeupMcuInfo, .waitForMcuInfoConfig, .drive true, .isr, .drive false, .isr] :=
  isr_right_branch false
    [.init true, .drive true, .isr, .isr, .drive false, .isr, .test, .wakeupMcuInfoConfig,
      .wakeupMcuInfo, .waitForMcuInfoConfig, .drive true, .isr, .drive false, .isr] (by decide)

/-- While the line is high a received frame clears the flag, and a
command takes the pin for an output and back. The line goes low
unnoticed, and its next rising edge is taken for the falling one. -/
theorem isr_takes_wrong_branch :
    ¬ ∀ (mcuLevel : Bool) (as : List WakeAct),
      Guarded wakeStep RightBranch (WakeLine.boot mcuLevel) as := by
  intro h
  have hrun := h true [.init true, .isr, .clearRxFlag, .test, .wakeupMcuInfoConfig,
    .wakeupMcuInfo, .waitForMcuInfoConfig, .drive false, .drive true, .isr]
  revert hrun
  decide

/-! ## What taking the pin away leads to -/

/-- **A task that takes the pin away from a LOW_LEVEL interrupt** can leave
the handler to take its LOW_LEVEL branch on a rising edge. -/
theorem wrong_branch_of_not_idle {s s' : WakeLine} {a : WakeAct} (h : s.Ok)
    (hok : ¬ WakesIdleLine s a) (hs : wakeStep s a = some s') :
    ∃ as, ¬ Guarded wakeStep RightBranch s' as := by
  cases a with
  | wakeupMcuInfoConfig =>
      have hcopy : s.wakeupIoIntrType = .lowLevel := not_not.mp hok
      have hinstalled : s.installed = true := by
        by_contra hnot
        exact (h.before (Bool.not_eq_true _ ▸ hnot)).1 hcopy
      have hquiet : ¬ s.Fires := by
        intro hfires
        rw [wakeStep, if_pos hfires, if_neg WakeAct.noConfusion] at hs
        cases hs
      have hnone := h.no_edge hquiet
      rw [wakeStep, if_neg hquiet] at hs
      simp only [WakeLine.threadStep] at hs
      split at hs
      · cases hs
        refine ⟨[.wakeupMcuInfo, .waitForMcuInfoConfig, .drive false, .drive true] ++ [.isr], ?_⟩
        intro hguarded
        -- the copy still says LOW_LEVEL when the rising edge comes
        have hedge : ∃ m, run wakeStep { s.wakeupMcuInfoConfig with task := .configured }
            [.wakeupMcuInfo, .waitForMcuInfoConfig, .drive false, .drive true] = some m ∧
            m.Fires ∧ m.wakeupIoIntrType = .lowLevel ∧ m.level = true := by
          refine ⟨{ s with
            mcuLevel := true
            output := false
            outLevel := true
            intrType := some .posedge
            edge := true
            task := .idle }, ?_, ⟨hinstalled, rfl⟩, hcopy, rfl⟩
          simp [wakeStep, WakeLine.Fires, WakeLine.threadStep, WakeLine.wakeupMcuInfoConfig,
            WakeLine.wakeupMcuInfo, WakeLine.waitForMcuInfoConfig, WakeLine.drive, WakeLine.level,
            hnone]
        obtain ⟨m, hrun, hfires, hmcopy, hlevel⟩ := hedge
        have hisr : wakeStep m .isr = some m.isr := by rw [wakeStep, if_pos hfires, if_pos rfl]
        have hlast := (hguarded.rest hrun m.isr hisr).1
        rw [hlast.2 hmcopy] at hlevel
        cases hlevel
      · cases hs
  | _ => exact absurd trivial hok

end LiveWireSwitch
