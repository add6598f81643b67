import LiveWireSwitch.AppUart.Framing
import LiveWireSwitch.AppUart.SendTask
import LiveWireSwitch.Timers

/-!
# PowerLock — the power-management lock and its clients

`stop_power_save` and `start_power_save` (`app_main.c`) share one
boolean among the send task, the UART event task and the two wake-line
timer callbacks, so a release by one client ends the protection of every
other. Here each client has a list of the calls it still has to make,
and executes them one at a time, in any interleaving with the others and
with the wake-line interrupt.
-/

namespace LiveWireSwitch

open Lib

/-! ## The lock (`app_main.c`) -/

/-- `s_pm_cpu_lock`, `lock_status`, and the count of the `esp_pm` lock
itself. -/
structure PowerLock where
  /-- `s_pm_cpu_lock != NULL` -/
  created : Bool
  lockStatus : UInt8
  count : Nat
deriving DecidableEq, Repr

/-- `stop_power_save` -/
def stopPowerSave (k : PowerLock) : PowerLock :=
  if k.created ∧ k.lockStatus = 0 then { k with lockStatus := 1, count := k.count + 1 } else k

/-- `start_power_save`; releasing a lock that nobody holds is an error,
which `ESP_ERROR_CHECK` turns into an abort. -/
def startPowerSave (k : PowerLock) : Option PowerLock :=
  if k.created ∧ k.lockStatus = 1 then
    if k.count = 0 then none else some { k with lockStatus := 0, count := k.count - 1 }
  else some k

/-! ## The wake line (`app_uart.c`) -/

/-- The values `wakeup_io_intr_type` takes. -/
inductive GpioIntrType where
  | highLevel
  | lowLevel
  | posedge
deriving DecidableEq, Repr

/-- `wakeup_io_stop_power_timer_callback` -/
def wakeupIoStopPowerTimerCallback : List Effect :=
  [.stopPowerSave, .uartWriteBytes (sendFrame ⟨uartSendAllow, 1⟩), .uartWaitTxDone]

/-- `wakeup_io_start_power_timer_callback`, which takes no lock of its
own. -/
def wakeupIoStartPowerTimerCallback : List Effect :=
  [.uartWriteBytes (sendFrame ⟨uartAcceptEnd, 1⟩), .uartWaitTxDone, .startPowerSave]

/-! ## The system -/

/-- The threads that call into the lock; `esp_timer` runs both callbacks
in one task. -/
inductive Client where
  | sendTask
  | uartTask
  | timerTask
deriving DecidableEq, Repr

instance {p : Client → Prop} [DecidablePred p] : Decidable (∀ c, p c) :=
  decidable_of_iff (p .sendTask ∧ p .uartTask ∧ p .timerTask)
    ⟨fun h c => by cases c <;> simp [h], fun h => ⟨h _, h _, h _⟩⟩

/-- Each client with the calls it has still to make. -/
structure PowerSystem where
  lock : PowerLock
  todo : Client → List Effect
  sender : Sender
  ucRxTaskHandleFlag : Bool
  wakeupIoIntrType : GpioIntrType
  wakeupIoStartTimer : EspTimer
  wakeupIoStopTimer : EspTimer

/-- After `bri_ctrl_uart_init`, which runs before `app_pm_config`
creates the lock; the interrupt type depends on the level of the line. -/
def PowerSystem.boot (t : GpioIntrType) : PowerSystem where
  lock := ⟨false, 0, 0⟩
  todo := fun _ => []
  sender := Sender.boot
  ucRxTaskHandleFlag := false
  wakeupIoIntrType := t
  wakeupIoStartTimer := .stopped
  wakeupIoStopTimer := .stopped

def PowerSystem.setTodo (s : PowerSystem) (c : Client) (es : List Effect) : PowerSystem :=
  { s with todo := fun d => if d = c then es else s.todo d }

/-- `wakeup_io_isr_handler` -/
def wakeupIoIsrHandler (s : PowerSystem) : PowerSystem :=
  if s.wakeupIoIntrType = .lowLevel then
    { s with
      wakeupIoIntrType := .highLevel
      ucRxTaskHandleFlag := false
      wakeupIoStartTimer := s.wakeupIoStartTimer.stop.startOnce (1 * 1000) }
  else if s.wakeupIoIntrType = .highLevel then
    { s with
      wakeupIoIntrType := .lowLevel
      ucRxTaskHandleFlag := true
      wakeupIoStopTimer := s.wakeupIoStopTimer.stop.startOnce (1 * 1000) }
  else { s with wakeupIoIntrType := .highLevel }

inductive PowerAct where
  /-- `app_pm_config` creates the lock -/
  | createLock
  /-- somebody posts a command -/
  | call (c : Cmd)
  /-- `wifi_start_init()` -/
  | wifiStartInit
  /-- the send task goes on, with the flag it reads -/
  | sendTask (sWifiInitEndFlag : UInt8)
  /-- the UART task takes up a frame, with the flag and the light it finds -/
  | frame (sWifiInitEndFlag : UInt8) (c : Cmd) (l : Light)
  | isr
  /-- a wake-line timer expires and its callback starts -/
  | stopTimer
  | startTimer
  /-- a client makes its next call -/
  | exec (c : Client)
deriving DecidableEq, Repr

/-- One call, as far as it concerns this system. -/
def perform (s : PowerSystem) : Effect → Option PowerSystem
  | .stopPowerSave => some { s with lock := stopPowerSave s.lock }
  | .startPowerSave => (startPowerSave s.lock).map fun k => { s with lock := k }
  | .ucRxTaskHandleFlag b => some { s with ucRxTaskHandleFlag := b }
  | .sendBriCtrlInfo c => some { s with sender := sendBriCtrlInfo true c s.sender }
  | _ => some s

def powerStep (s : PowerSystem) : PowerAct → Option PowerSystem
  | .createLock => some { s with lock := { s.lock with created := true } }
  | .call c => some { s with sender := sendBriCtrlInfo true c s.sender }
  | .wifiStartInit =>
      some { s with
        ucRxTaskHandleFlag := false
        sender := sendBriCtrlInfo true ⟨wifiInitStartCmd, 1⟩ s.sender }
  | .sendTask w =>
      if s.todo .sendTask = [] then
        (taskStep s.ucRxTaskHandleFlag w s.sender).map fun r =>
          { s with sender := r.1 }.setTodo .sendTask r.2
      else none
  | .frame w c l =>
      if s.todo .uartTask = [] then some (s.setTodo .uartTask (dealFrame w c l).2) else none
  | .isr => some (wakeupIoIsrHandler s)
  | .stopTimer =>
      if s.todo .timerTask = [] then
        s.wakeupIoStopTimer.expire.map fun t =>
          { s with wakeupIoStopTimer := t }.setTodo .timerTask wakeupIoStopPowerTimerCallback
      else none
  | .startTimer =>
      if s.todo .timerTask = [] then
        s.wakeupIoStartTimer.expire.map fun t =>
          { s with wakeupIoStartTimer := t }.setTodo .timerTask wakeupIoStartPowerTimerCallback
      else none
  | .exec c =>
      match s.todo c with
      | [] => none
      | e :: es => (perform s e).map fun s => s.setTodo c es

/-! ## Transmitting and the need for the lock -/

/-- The client has written and its `uart_wait_tx_done` has not returned:
in every client the wait follows the write. -/
def Transmitting (es : List Effect) : Prop := es.head? = some .uartWaitTxDone

instance (es : List Effect) : Decidable (Transmitting es) := inferInstanceAs (Decidable (_ = _))

/-- Once the lock exists, whoever transmits has it held. -/
def PowerSystem.Protected (s : PowerSystem) : Prop :=
  s.lock.created = true → ∀ c, Transmitting (s.todo c) → s.lock.lockStatus = 1

/-- The next thing a client does with the UART or the lock is to write
or to wait: it counts on the lock being held. -/
def needsLock : List Effect → Bool
  | [] => false
  | .stopPowerSave :: _ => false
  | .startPowerSave :: _ => false
  | .uartWriteBytes _ :: _ => true
  | .uartWaitTxDone :: _ => true
  | _ :: es => needsLock es

/-- **The condition.** The lock is created and released only while no
client counts on it, and the start-power callback begins only while it
is held. -/
def RespectsClients (s : PowerSystem) : PowerAct → Prop
  | .createLock => s.lock.created = false → ∀ c, needsLock (s.todo c) = false
  | .startTimer => s.lock.created = true → s.lock.lockStatus = 1
  | .exec c => (s.todo c).head? = some .startPowerSave → s.lock.created = true →
      ∀ d, needsLock (s.todo d) = false
  | _ => True

instance : (s : PowerSystem) → (a : PowerAct) → Decidable (RespectsClients s a)
  | s, .createLock => inferInstanceAs (Decidable (s.lock.created = false → ∀ _, _))
  | s, .startTimer => inferInstanceAs (Decidable (s.lock.created = true → _))
  | s, .exec c => inferInstanceAs (Decidable ((s.todo c).head? = _ → _ → ∀ _, _))
  | _, .call _ => .isTrue trivial
  | _, .wifiStartInit => .isTrue trivial
  | _, .sendTask _ => .isTrue trivial
  | _, .frame _ _ _ => .isTrue trivial
  | _, .isr => .isTrue trivial
  | _, .stopTimer => .isTrue trivial

/-! ## What a client's calls look like -/

/-- Every write is followed by its wait, and only a write or a wait
counts on the lock. -/
def Tidy : List Effect → Prop
  | [] => True
  | .stopPowerSave :: es => Tidy es
  | .uartWriteBytes _ :: es => Transmitting es ∧ Tidy es
  | _ :: es => needsLock es = false ∧ Tidy es

theorem Tidy.tail {e : Effect} {es : List Effect} (h : Tidy (e :: es)) : Tidy es := by
  cases e <;> first | exact h | exact h.2

theorem needsLock_of_transmitting {es : List Effect} (h : Transmitting es) :
    needsLock es = true := by
  match es, h with
  | .uartWaitTxDone :: es, _ => rfl

/-- A client that counts on the lock is about to write or to wait. -/
theorem Tidy.needsLock_cases {es : List Effect} (h : Tidy es) (hn : needsLock es = true) :
    (∃ b rest, es = .uartWriteBytes b :: rest ∧ Transmitting rest) ∨ Transmitting es := by
  cases es with
  | nil => cases hn
  | cons e es =>
      cases e with
      | stopPowerSave => cases hn
      | startPowerSave => cases hn
      | uartWriteBytes b => exact .inl ⟨b, es, rfl, h.1⟩
      | uartWaitTxDone => exact .inr rfl
      | _ =>
          have hno : needsLock es = false := h.1
          have hyes : needsLock es = true := hn
          rw [hno] at hyes
          cases hyes

theorem needsLock_append {es fs : List Effect} (h : needsLock fs = false) :
    needsLock (es ++ fs) = needsLock es := by
  induction es with
  | nil => exact h
  | cons e es ih =>
      cases e with
      | stopPowerSave => rfl
      | startPowerSave => rfl
      | uartWriteBytes b => rfl
      | uartWaitTxDone => rfl
      | _ => exact ih

theorem Tidy.append {es fs : List Effect} (hes : Tidy es) (hfs : Tidy fs)
    (hn : needsLock fs = false) : Tidy (es ++ fs) := by
  induction es with
  | nil => exact hfs
  | cons e es ih =>
      have hrest := ih hes.tail
      cases e with
      | stopPowerSave => exact hrest
      | uartWriteBytes b =>
          refine ⟨?_, hrest⟩
          have hwait : Transmitting es := hes.1
          cases es with
          | nil => cases hwait
          | cons e es => exact hwait
      | _ => exact ⟨(needsLock_append hn).trans hes.1, hrest⟩

/-- Calls that have nothing to do with the lock or the UART. -/
def Effect.Quiet : Effect → Prop
  | .stopPowerSave | .startPowerSave | .uartWriteBytes _ | .uartWaitTxDone => False
  | _ => True

theorem tidy_of_quiet {es : List Effect} (h : ∀ e ∈ es, e.Quiet) :
    Tidy es ∧ needsLock es = false := by
  induction es with
  | nil => exact ⟨trivial, rfl⟩
  | cons e es ih =>
      obtain ⟨htidy, hn⟩ := ih fun f hf => h f (List.mem_cons_of_mem e hf)
      have he := h e List.mem_cons_self
      cases e with
      | stopPowerSave => exact he.elim
      | startPowerSave => exact he.elim
      | uartWriteBytes b => exact he.elim
      | uartWaitTxDone => exact he.elim
      | _ => exact ⟨⟨hn, htidy⟩, hn⟩

theorem needsLock_of_tail {e : Effect} {es : List Effect} (hstop : e ≠ .stopPowerSave)
    (hstart : e ≠ .startPowerSave) (h : needsLock es = true) : needsLock (e :: es) = true := by
  cases e with
  | stopPowerSave => exact absurd rfl hstop
  | startPowerSave => exact absurd rfl hstart
  | uartWriteBytes b => rfl
  | uartWaitTxDone => rfl
  | _ => exact h

theorem tidy_transmit (b : Frame) : Tidy (transmit b) ∧ needsLock (transmit b) = false := by
  rw [transmit]
  split <;> simp [Tidy, needsLock, Transmitting]

theorem tidy_stopCallback :
    Tidy wakeupIoStopPowerTimerCallback ∧ needsLock wakeupIoStopPowerTimerCallback = false := by
  simp [wakeupIoStopPowerTimerCallback, Tidy, needsLock, Transmitting]

theorem tidy_startCallback : Tidy wakeupIoStartPowerTimerCallback := by
  simp [wakeupIoStartPowerTimerCallback, Tidy, needsLock, Transmitting]

theorem Effect.Onward.quiet {e : Effect} (h : e.Onward) : e.Quiet := by
  cases e <;> first | exact h.elim | trivial

/-- Releases count on nothing. -/
theorem tidy_releases {es : List Effect} (h : ∀ e ∈ es, e = .startPowerSave) :
    Tidy es ∧ needsLock es = false := by
  induction es with
  | nil => exact ⟨trivial, rfl⟩
  | cons e es ih =>
      obtain ⟨htidy, hn⟩ := ih fun f hf => h f (List.mem_cons_of_mem e hf)
      rw [h e List.mem_cons_self]
      exact ⟨⟨hn, htidy⟩, rfl⟩

/-- An acknowledgement with something quiet after it. -/
theorem tidy_acknowledge (cmd : UInt8) {es : List Effect} (h : ∀ e ∈ es, e.Quiet) :
    Tidy (acknowledge cmd ++ es) ∧ needsLock (acknowledge cmd ++ es) = false := by
  obtain ⟨htidy, hn⟩ := tidy_of_quiet h
  refine ⟨Tidy.append ?_ htidy hn, (needsLock_append hn).trans rfl⟩
  simp [acknowledge, Tidy, needsLock, Transmitting]

theorem tidy_dealFrame (w : UInt8) (c : Cmd) (l : Light) :
    Tidy (dealFrame w c l).2 ∧ needsLock (dealFrame w c l).2 = false := by
  rcases dealFrame_cases w c l with ⟨_, es, hes, hon⟩ | ⟨_, _, hes⟩
  · rw [hes]
    exact tidy_acknowledge _ fun e he => (hon e he).quiet
  · exact tidy_releases hes

theorem tidy_taskStep {rxFlag : Bool} {w : UInt8} {q : Sender} {r : Sender × List Effect}
    (h : taskStep rxFlag w q = some r) : Tidy r.2 ∧ needsLock r.2 = false := by
  rcases taskStep_effects h with ⟨_, he⟩ | ⟨_, he⟩ | ⟨_, _, he⟩
  · rw [he]
    exact tidy_transmit _
  · rw [he]
    exact tidy_of_quiet fun e hf => (onward_forward e hf).quiet
  · rw [he]
    exact ⟨trivial, rfl⟩

/-! ## Runs -/

/-- The boolean tells the count of the lock, and is clear before the
lock exists. -/
structure PowerLock.Ok (k : PowerLock) : Prop where
  count : (k.lockStatus = 0 ∧ k.count = 0) ∨ (k.lockStatus = 1 ∧ k.count = 1)
  uncreated : k.created = false → k.lockStatus = 0

theorem PowerLock.Ok.stop {k : PowerLock} (h : k.Ok) :
    (stopPowerSave k).Ok ∧ (stopPowerSave k).created = k.created ∧
      (k.created = true → (stopPowerSave k).lockStatus = 1) := by
  rw [stopPowerSave]
  split
  next hfree =>
    rcases h.count with ⟨_, hcount⟩ | ⟨hheld, _⟩
    · refine ⟨⟨.inr ⟨rfl, by simp [hcount]⟩, fun hno => ?_⟩, rfl, fun _ => rfl⟩
      rw [hfree.1] at hno
      cases hno
    · rw [hfree.2] at hheld
      cases hheld
  next hbusy =>
    refine ⟨h, rfl, fun hcreated => ?_⟩
    rcases h.count with ⟨hfree, _⟩ | ⟨hheld, _⟩
    · exact absurd ⟨hcreated, hfree⟩ hbusy
    · exact hheld

/-- With the boolean telling the count, a release never aborts. -/
theorem PowerLock.Ok.start {k : PowerLock} (h : k.Ok) :
    ∃ k', startPowerSave k = some k' ∧ k'.Ok ∧ k'.created = k.created ∧ k'.lockStatus = 0 := by
  rw [startPowerSave]
  split
  next hheld =>
    rcases h.count with ⟨hfree, _⟩ | ⟨_, hcount⟩
    · rw [hheld.2] at hfree
      cases hfree
    · exact ⟨_, if_neg (by omega), ⟨.inl ⟨rfl, by simp [hcount]⟩, fun _ => rfl⟩, rfl, rfl⟩
  next hfree =>
    refine ⟨k, rfl, h, rfl, ?_⟩
    rcases h.count with ⟨hstatus, _⟩ | ⟨hstatus, _⟩
    · exact hstatus
    · cases hcreated : k.created with
      | true => exact absurd ⟨hcreated, hstatus⟩ hfree
      | false => exact h.uncreated hcreated

/-- What every state has. -/
structure PowerSystem.Ok (s : PowerSystem) : Prop where
  tidy : ∀ c, Tidy (s.todo c)
  lock : s.lock.Ok

/-- Once the lock exists, whoever counts on it has it held. -/
def PowerSystem.Held (s : PowerSystem) : Prop :=
  s.lock.created = true → ∀ c, needsLock (s.todo c) = true → s.lock.lockStatus = 1

theorem PowerSystem.Held.isProtected {s : PowerSystem} (h : s.Held) : s.Protected :=
  fun hcreated c hc => h hcreated c (needsLock_of_transmitting hc)

theorem PowerSystem.boot_ok (t : GpioIntrType) : (PowerSystem.boot t).Ok where
  tidy := fun _ => trivial
  lock := ⟨.inl ⟨rfl, rfl⟩, fun _ => rfl⟩

theorem PowerSystem.boot_held (t : GpioIntrType) : (PowerSystem.boot t).Held :=
  fun _ _ hn => by cases hn

@[simp] theorem setTodo_lock (s : PowerSystem) (c : Client) (es : List Effect) :
    (s.setTodo c es).lock = s.lock := rfl

@[simp] theorem setTodo_self (s : PowerSystem) (c : Client) (es : List Effect) :
    (s.setTodo c es).todo c = es := if_pos rfl

theorem setTodo_ne (s : PowerSystem) {c d : Client} (es : List Effect) (h : d ≠ c) :
    (s.setTodo c es).todo d = s.todo d := if_neg h

/-- The two invariants look at the lock and at the calls to come only. -/
theorem PowerSystem.Ok.congr {s s' : PowerSystem} (h : s.Ok) (hlock : s'.lock = s.lock)
    (htodo : s'.todo = s.todo) : s'.Ok where
  tidy := by
    rw [htodo]
    exact h.tidy
  lock := by
    rw [hlock]
    exact h.lock

theorem PowerSystem.Held.congr {s s' : PowerSystem} (h : s.Held) (hlock : s'.lock = s.lock)
    (htodo : s'.todo = s.todo) : s'.Held := by
  intro hcreated c hc
  rw [hlock] at hcreated ⊢
  rw [htodo] at hc
  exact h hcreated c hc

/-- A client that starts on calls of its own. -/
theorem PowerSystem.Ok.setTodo {s : PowerSystem} (h : s.Ok) {c : Client} {es : List Effect}
    (hes : Tidy es) : (s.setTodo c es).Ok where
  tidy := fun d => by
    by_cases hd : d = c
    · rw [hd, setTodo_self]
      exact hes
    · rw [setTodo_ne s es hd]
      exact h.tidy d
  lock := h.lock

theorem PowerSystem.Held.setTodo {s : PowerSystem} (h : s.Held) {c : Client} {es : List Effect}
    (hes : needsLock es = true → s.lock.created = true → s.lock.lockStatus = 1) :
    (s.setTodo c es).Held := by
  intro hcreated d hd
  by_cases hdc : d = c
  · rw [hdc, setTodo_self] at hd
    exact hes hd hcreated
  · rw [setTodo_ne s es hdc] at hd
    exact h hcreated d hd

theorem powerStep_exec {s s' : PowerSystem} {c : Client}
    (h : powerStep s (.exec c) = some s') :
    ∃ e es m, s.todo c = e :: es ∧ perform s e = some m ∧ s' = m.setTodo c es := by
  rw [powerStep] at h
  cases htodo : s.todo c with
  | nil =>
      rw [htodo] at h
      cases h
  | cons e es =>
      rw [htodo] at h
      obtain ⟨m, hm, rfl⟩ := Option.map_eq_some_iff.mp h
      exact ⟨e, es, m, rfl, hm, rfl⟩

/-- What a call does to the lock. -/
theorem perform_cases {s m : PowerSystem} {e : Effect} (h : s.Ok) (hm : perform s e = some m) :
    m.todo = s.todo ∧ m.lock.Ok ∧ m.lock.created = s.lock.created ∧
      ((e = .stopPowerSave ∧ (s.lock.created = true → m.lock.lockStatus = 1)) ∨
        (e = .startPowerSave ∧ m.lock.lockStatus = 0) ∨
        (e ≠ .stopPowerSave ∧ e ≠ .startPowerSave ∧ m.lock = s.lock)) := by
  cases e with
  | stopPowerSave =>
      cases hm
      obtain ⟨hok, hcreated, hheld⟩ := h.lock.stop
      exact ⟨rfl, hok, hcreated, .inl ⟨rfl, hheld⟩⟩
  | startPowerSave =>
      obtain ⟨k, hk, hok, hcreated, hfree⟩ := h.lock.start
      rw [perform, hk] at hm
      cases hm
      exact ⟨rfl, hok, hcreated, .inr (.inl ⟨rfl, hfree⟩)⟩
  | _ =>
      cases hm
      exact ⟨rfl, h.lock, rfl, .inr (.inr ⟨Effect.noConfusion, Effect.noConfusion, rfl⟩)⟩

theorem isr_frame (s : PowerSystem) :
    (wakeupIoIsrHandler s).lock = s.lock ∧ (wakeupIoIsrHandler s).todo = s.todo := by
  rw [wakeupIoIsrHandler]
  split
  · exact ⟨rfl, rfl⟩
  · split <;> exact ⟨rfl, rfl⟩

/-- **What a step does to the lock and to the clients**: nothing, or it
creates the lock, or gives an idle client the calls to make, or makes
the next call of a client. -/
theorem powerStep_cases {s s' : PowerSystem} {a : PowerAct} (hs : powerStep s a = some s') :
    (s'.lock = s.lock ∧ s'.todo = s.todo) ∨
      (a = .createLock ∧ s'.lock = { s.lock with created := true } ∧ s'.todo = s.todo) ∨
      (∃ c es, s'.lock = s.lock ∧ s'.todo = (s.setTodo c es).todo ∧ Tidy es ∧
        (needsLock es = true → a = .startTimer)) ∨
      ∃ c e es m, a = .exec c ∧ s.todo c = e :: es ∧ perform s e = some m ∧
        s' = m.setTodo c es := by
  have hidle : ∀ {c : Client} {es : List Effect}, Tidy es ∧ needsLock es = false →
      s'.lock = s.lock → s'.todo = (s.setTodo c es).todo →
        ∃ c es, s'.lock = s.lock ∧ s'.todo = (s.setTodo c es).todo ∧ Tidy es ∧
          (needsLock es = true → a = .startTimer) := by
    intro c es hes hlock htodo
    refine ⟨c, es, hlock, htodo, hes.1, fun hn => ?_⟩
    rw [hes.2] at hn
    cases hn
  cases a with
  | createLock =>
      cases hs
      exact .inr (.inl ⟨rfl, rfl, rfl⟩)
  | call c =>
      cases hs
      exact .inl ⟨rfl, rfl⟩
  | wifiStartInit =>
      cases hs
      exact .inl ⟨rfl, rfl⟩
  | sendTask w =>
      rw [powerStep] at hs
      split at hs
      · obtain ⟨r, hr, rfl⟩ := Option.map_eq_some_iff.mp hs
        exact .inr (.inr (.inl (hidle (tidy_taskStep hr) rfl rfl)))
      · cases hs
  | frame w c l =>
      rw [powerStep] at hs
      split at hs
      · cases hs
        exact .inr (.inr (.inl (hidle (tidy_dealFrame w c l) rfl rfl)))
      · cases hs
  | isr =>
      cases hs
      exact .inl (isr_frame s)
  | stopTimer =>
      rw [powerStep] at hs
      split at hs
      · obtain ⟨t, _, rfl⟩ := Option.map_eq_some_iff.mp hs
        exact .inr (.inr (.inl (hidle tidy_stopCallback rfl rfl)))
      · cases hs
  | startTimer =>
      -- the one program that counts on a lock taken by somebody else
      rw [powerStep] at hs
      split at hs
      · obtain ⟨t, _, rfl⟩ := Option.map_eq_some_iff.mp hs
        exact .inr (.inr (.inl ⟨.timerTask, _, rfl, rfl, tidy_startCallback, fun _ => rfl⟩))
      · cases hs
  | exec c =>
      obtain ⟨e, es, m, hexec⟩ := powerStep_exec hs
      exact .inr (.inr (.inr ⟨c, e, es, m, rfl, hexec⟩))

theorem powerStep_ok {s s' : PowerSystem} {a : PowerAct} (h : s.Ok)
    (hs : powerStep s a = some s') : s'.Ok := by
  rcases powerStep_cases hs with ⟨hlock, htodo⟩ | ⟨_, hlock, htodo⟩ |
    ⟨c, es, hlock, htodo, hes, _⟩ | ⟨c, e, es, m, _, htodo, hm, rfl⟩
  · exact h.congr hlock htodo
  · refine ⟨by rw [htodo]; exact h.tidy, ?_⟩
    rw [hlock]
    exact ⟨h.lock.count, fun hno => Bool.noConfusion hno⟩
  · have hok : (s.setTodo c es).Ok := h.setTodo hes
    exact hok.congr hlock htodo
  · obtain ⟨hsame, hlock, _, _⟩ := perform_cases h hm
    have hok : m.Ok := ⟨by rw [hsame]; exact h.tidy, hlock⟩
    have htidy := h.tidy c
    rw [htodo] at htidy
    exact hok.setTodo htidy.tail

/-- A call that respects the clients. The call that ends a protection is
a release, and by the condition nobody counts on the lock then. -/
theorem exec_held {s m : PowerSystem} {c : Client} {e : Effect} {es : List Effect} (h : s.Ok)
    (hheld : s.Held) (hr : RespectsClients s (.exec c)) (htodo : s.todo c = e :: es)
    (hm : perform s e = some m) : (m.setTodo c es).Held := by
  obtain ⟨hsame, _, hcreated, hcase⟩ := perform_cases h hm
  intro hc d hd
  rw [setTodo_lock, hcreated] at hc
  rw [setTodo_lock]
  rcases hcase with ⟨_, hstatus⟩ | ⟨rfl, _⟩ | ⟨hstop, hstart, hlock⟩
  · exact hstatus hc
  · have hnone := hr (by rw [htodo]; rfl) hc
    by_cases hdc : d = c
    · -- nothing after a client's own release counts on the lock
      have htidy := h.tidy c
      rw [htodo] at htidy
      rw [hdc, setTodo_self, htidy.1] at hd
      cases hd
    · rw [setTodo_ne m es hdc, hsame, hnone d] at hd
      cases hd
  · -- the lock is as it was, and whoever counts on it did before
    rw [hlock]
    by_cases hdc : d = c
    · rw [hdc, setTodo_self] at hd
      refine hheld hc c ?_
      rw [htodo]
      exact needsLock_of_tail hstop hstart hd
    · rw [setTodo_ne m es hdc, hsame] at hd
      exact hheld hc d hd

/-- **A step that respects the clients keeps the lock held for those who
count on it.** -/
theorem powerStep_held {s s' : PowerSystem} {a : PowerAct} (h : s.Ok) (hheld : s.Held)
    (hr : RespectsClients s a) (hs : powerStep s a = some s') : s'.Held := by
  rcases powerStep_cases hs with ⟨hlock, htodo⟩ | ⟨rfl, hlock, htodo⟩ |
    ⟨c, es, hlock, htodo, _, hes⟩ | ⟨c, e, es, m, rfl, htodo, hm, rfl⟩
  · exact hheld.congr hlock htodo
  · intro _ c hc
    rw [htodo] at hc
    rw [hlock]
    cases hcreated : s.lock.created with
    | true => exact hheld hcreated c hc
    | false =>
        rw [hr hcreated c] at hc
        cases hc
  · refine (hheld.setTodo fun hn hcreated => ?_).congr hlock htodo
    have ha := hes hn
    subst ha
    exact hr hcreated
  · exact exec_held h hheld hr htodo hm

/-- **In a run that respects the clients, whoever transmits has the lock
held**, in every state after the lock is created. -/
theorem transmits_protected (t : GpioIntrType) (as : List PowerAct)
    (h : Guarded powerStep RespectsClients (PowerSystem.boot t) as) :
    Always powerStep PowerSystem.Protected (PowerSystem.boot t) as := by
  have hstart : (PowerSystem.boot t).Ok ∧ (PowerSystem.boot t).Held :=
    ⟨PowerSystem.boot_ok t, PowerSystem.boot_held t⟩
  refine always_of_guarded (fun s (hs : s.Ok ∧ s.Held) => hs.2.isProtected)
    (fun s a s' hs hr hstep => ?_) hstart h
  exact ⟨powerStep_ok hs.1 hstep, powerStep_held hs.1 hs.2 hr hstep⟩

/-- The lock created, then the MCU wakes the firmware, which allows it to
send. -/
theorem transmits_protected_handshake :
    Always powerStep PowerSystem.Protected (PowerSystem.boot .highLevel)
      [.createLock, .isr, .stopTimer, .exec .timerTask, .exec .timerTask, .exec .timerTask] :=
  transmits_protected .highLevel _ (by decide)

/-- An ordinary handshake: the acknowledgement of the MCU's frame gives
the lock back, and the start-power callback transmits without it. -/
theorem handshake_transmits_unprotected :
    ¬ ∀ (t : GpioIntrType) (as : List PowerAct),
      Always powerStep PowerSystem.Protected (PowerSystem.boot t) as := by
  intro h
  have hprot := always_iff_prefix.mp (h .highLevel
    ([.createLock, .isr, .stopTimer] ++ List.replicate 3 (.exec .timerTask)
      ++ .frame 1 ⟨onOffCmd, 1⟩ Light.boot :: List.replicate 5 (.exec .uartTask)
      ++ [.isr, .startTimer, .exec .timerTask])) _ (List.prefix_refl _) _ rfl
  exact absurd (hprot rfl .timerTask rfl) (by decide)

/-! ## What a step outside the condition leads to -/

/-- A client that counts on a lock that is not held transmits without it,
at the latest after its next call. -/
theorem unprotected_of_needsLock {s : PowerSystem} (h : s.Ok) (hcreated : s.lock.created = true)
    (hfree : s.lock.lockStatus = 0) {c : Client} (hn : needsLock (s.todo c) = true) :
    ∃ as s', run powerStep s as = some s' ∧ ¬ s'.Protected := by
  have hno : ∀ {s' : PowerSystem}, s'.lock = s.lock → Transmitting (s'.todo c) →
      ¬ s'.Protected := by
    intro s' hlock htrans hprot
    have hheld := hprot (by rw [hlock]; exact hcreated) c htrans
    rw [hlock, hfree] at hheld
    cases hheld
  rcases (h.tidy c).needsLock_cases hn with ⟨b, rest, htodo, hwait⟩ | htrans
  · refine ⟨[.exec c], s.setTodo c rest, ?_, hno rfl ?_⟩
    · rw [run_cons, powerStep, htodo]
      rfl
    · rw [setTodo_self]
      exact hwait
  · exact ⟨[], s, rfl, hno rfl htrans⟩

/-- **A step that does not respect the clients** can be continued to a
transmission without the lock. -/
theorem unprotected_of_disrespect {s s' : PowerSystem} {a : PowerAct} (h : s.Ok)
    (hr : ¬ RespectsClients s a) (hs : powerStep s a = some s') :
    ∃ as s'', run powerStep s' as = some s'' ∧ ¬ s''.Protected := by
  have hok' := powerStep_ok h hs
  cases a with
  | createLock =>
      rw [RespectsClients, Classical.not_imp, not_forall] at hr
      obtain ⟨hcreated, c, hn⟩ := hr
      cases hs
      exact unprotected_of_needsLock hok' rfl (h.lock.uncreated hcreated)
        (Bool.not_eq_false _ ▸ hn)
  | startTimer =>
      rw [RespectsClients, Classical.not_imp] at hr
      obtain ⟨hcreated, hfree⟩ := hr
      rw [powerStep] at hs
      split at hs
      · obtain ⟨t, _, rfl⟩ := Option.map_eq_some_iff.mp hs
        have hzero : s.lock.lockStatus = 0 :=
          h.lock.count.elim (fun hc => hc.1) fun hc => absurd hc.1 hfree
        refine unprotected_of_needsLock hok' hcreated hzero (c := .timerTask) ?_
        rw [setTodo_self]
        rfl
      · cases hs
  | exec c =>
      rw [RespectsClients, Classical.not_imp, Classical.not_imp, not_forall] at hr
      obtain ⟨hhead, hcreated, d, hn⟩ := hr
      obtain ⟨e, es, m, htodo, hm, rfl⟩ := powerStep_exec hs
      obtain ⟨hsame, _, hcreated', hcase⟩ := perform_cases h hm
      rw [htodo, List.head?_cons, Option.some.injEq] at hhead
      subst hhead
      have hfree : m.lock.lockStatus = 0 := by
        rcases hcase with ⟨he, _⟩ | ⟨_, hfree⟩ | ⟨_, he, _⟩
        · cases he
        · exact hfree
        · exact absurd rfl he
      have hdc : d ≠ c := by
        rintro rfl
        rw [htodo] at hn
        exact hn rfl
      refine unprotected_of_needsLock hok' (hcreated'.trans hcreated) hfree (c := d) ?_
      rw [setTodo_ne m es hdc, hsame]
      exact Bool.not_eq_false _ ▸ hn
  | call _ => exact absurd trivial hr
  | wifiStartInit => exact absurd trivial hr
  | sendTask _ => exact absurd trivial hr
  | frame _ _ _ => exact absurd trivial hr
  | isr => exact absurd trivial hr
  | stopTimer => exact absurd trivial hr

end LiveWireSwitch
