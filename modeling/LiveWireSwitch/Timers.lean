import Mathlib.Data.List.Basic

/-!
# Timers — `esp_timer` handles

A timer variable of the firmware and what the `esp_timer` calls do to
it. A call that `esp_timer` refuses (on a handle that is still `NULL`,
arming an armed timer, stopping a stopped one) returns an error that
none of the callers here looks at, and changes nothing.
-/

namespace LiveWireSwitch

/-- An `esp_timer_handle_t` variable with the timer behind it. -/
inductive EspTimer where
  /-- `NULL` -/
  | null
  | stopped
  /-- running, with its timeout in microseconds -/
  | armed (us : Int)
deriving DecidableEq, Repr

namespace EspTimer

/-- `esp_timer_create(&args, &handle)`, which has the memory it needs. -/
def create (_ : EspTimer) : EspTimer := .stopped

/-- `esp_timer_start_once(handle, us)` -/
def startOnce (us : Int) : EspTimer → EspTimer
  | .stopped => .armed us
  | t => t

/-- `esp_timer_start_periodic(handle, us)` -/
def startPeriodic (us : Int) : EspTimer → EspTimer
  | .stopped => .armed us
  | t => t

/-- `esp_timer_stop(handle)` -/
def stop : EspTimer → EspTimer
  | .armed _ => .stopped
  | t => t

/-- A one-shot timer expires: it is no longer armed when its callback
runs. -/
def expire : EspTimer → Option EspTimer
  | .armed _ => some .stopped
  | _ => none

def Armed (t : EspTimer) : Prop := ∃ us, t = .armed us

instance (t : EspTimer) : Decidable t.Armed :=
  match t with
  | .armed us => .isTrue ⟨us, rfl⟩
  | .stopped => .isFalse (by rintro ⟨_, h⟩; cases h)
  | .null => .isFalse (by rintro ⟨_, h⟩; cases h)

@[simp] theorem not_armed_stopped : ¬ EspTimer.stopped.Armed := by decide

theorem not_armed_stop (t : EspTimer) : ¬ t.stop.Armed := by
  cases t with
  | null => decide
  | stopped => decide
  | armed us => exact not_armed_stopped

theorem stop_ne_null {t : EspTimer} (h : t ≠ .null) : t.stop ≠ .null := by
  cases t with
  | null => exact absurd rfl h
  | stopped => exact EspTimer.noConfusion
  | armed us => exact EspTimer.noConfusion

theorem Armed.ne_null {t : EspTimer} (h : t.Armed) : t ≠ .null := by
  obtain ⟨us, rfl⟩ := h
  exact EspTimer.noConfusion

/-- Only an armed timer expires, and then it is at rest. -/
theorem expire_some {t t' : EspTimer} (h : t.expire = some t') : t.Armed ∧ t' = .stopped := by
  cases t with
  | null => cases h
  | stopped => cases h
  | armed us =>
      cases h
      exact ⟨⟨us, rfl⟩, rfl⟩

/-- Arming a timer that exists leaves it armed, accepted or refused. -/
theorem armed_startOnce {t : EspTimer} (h : t ≠ .null) (us : Int) : (t.startOnce us).Armed := by
  cases t with
  | null => exact absurd rfl h
  | stopped => exact ⟨us, rfl⟩
  | armed us' => exact ⟨us', rfl⟩

end EspTimer

/-! ## The RainMaker reconnect timer (`app_rainmaker.c`) -/

/-- `#define APP_RAINMAKER_MQTT_RECONNECT_TIMEOUT (60)` -/
def appRainmakerMqttReconnectTimeout : Int := 60

/-- `app_rainmaker_reconnect_timer_start` -/
def appRainmakerReconnectTimerStart (t : EspTimer) : EspTimer :=
  let t := if t = .null then t.create else t
  t.startOnce (appRainmakerMqttReconnectTimeout * 1000 * 1000)

/-- `app_rainmaker_reconnect_timer_stop` -/
def appRainmakerReconnectTimerStop (t : EspTimer) : EspTimer :=
  if t ≠ .null then t.stop else t

theorem armed_reconnectTimerStart (t : EspTimer) : (appRainmakerReconnectTimerStart t).Armed := by
  refine EspTimer.armed_startOnce ?_ _
  split
  · exact EspTimer.noConfusion
  · assumption

end LiveWireSwitch
