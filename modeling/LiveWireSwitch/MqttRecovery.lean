import LiveWireSwitch.AppEvent.Forwarding
import LiveWireSwitch.RmakerParam

/-!
# MqttRecovery — the hand-made MQTT reconnect

The product disables the auto-reconnect of the MQTT client and drives it
from a one-shot timer instead (`app_rainmaker.c`): Wi-Fi events arm and
stop the timer, a delivered disconnect event arms it, and its callback
asks the client to reconnect. The client is the one of the patched
`mqtt_client.c`, from its first start on.
-/

namespace LiveWireSwitch

open Lib

/-! ## The MQTT client (`mqtt_client.c`, `esp-mqtt-glue.c`) -/

/-- `mqtt_client_state_t` -/
inductive MqttState where
  | init
  | disconnected
  | connected
  | waitReconnect
deriving DecidableEq, Repr

/-- `esp_mqtt_client_is_connected` -/
def espMqttClientIsConnected (m : MqttState) : Int := if m = .connected then 1 else 0

/-- `esp_mqtt_client_reconnect`. It sets `RECONNECT_BIT` and clears
`wait_timeout_ms`, which the task reads with auto-reconnect only. -/
def espMqttClientReconnect (m : MqttState) : EspErr :=
  if m ≠ .waitReconnect then .fail else .ok

/-- `esp_mqtt_client_start`. `taskCreated` is the outcome of
`xTaskCreate`; the new task first sets `MQTT_STATE_INIT`, which is taken
as part of the start. -/
def espMqttClientStart (taskCreated : Bool) (m : MqttState) : EspErr × MqttState :=
  if m ≠ .init ∧ m ≠ .disconnected then (.fail, m)
  else if taskCreated then (.ok, .init)
  else (.fail, m)

/-- `esp_mqtt_glue_reconnect` -/
def espMqttGlueReconnect (taskCreated : Bool) (m : MqttState) : EspErr × MqttState :=
  let err := espMqttClientReconnect m
  if err ≠ .ok then (err, (espMqttClientStart taskCreated m).2) else (err, m)

/-! ## The recovery (`app_rainmaker.c`) -/

/-- The events the glue posts when a connection comes and goes. -/
inductive RmakerCommonEvent where
  | mqttConnected
  | mqttDisconnected
deriving DecidableEq, Repr

structure Recovery where
  net : Network
  mqttState : MqttState
  sntpEnabled : Bool
  /-- posted and not yet delivered, the oldest first -/
  queue : List RmakerCommonEvent

/-- The client has just been started for the first time. -/
def Recovery.started (n : Network) (sntpEnabled : Bool) : Recovery := ⟨n, .init, sntpEnabled, []⟩

def Recovery.setTimer (s : Recovery) (t : EspTimer) : Recovery :=
  { s with net := { s.net with rmakerReconnectTimer := t } }

/-- `rmaker_reconnect_timer_callback` -/
def rmakerReconnectTimerCallback (taskCreated : Bool) (s : Recovery) : Recovery :=
  if espMqttClientIsConnected s.mqttState ≠ 0 ∨ wifiIsConnected s.net = 0 then s
  else { s with mqttState := (espMqttGlueReconnect taskCreated s.mqttState).2 }

/-- `event_handler` on the MQTT events. -/
def eventHandler (s : Recovery) : RmakerCommonEvent → Recovery
  | .mqttConnected => if s.sntpEnabled then { s with sntpEnabled := true } else s
  | .mqttDisconnected =>
      if wifiIsConnected s.net ≠ 0 then
        { s with sntpEnabled := false }.setTimer
          (appRainmakerReconnectTimerStart s.net.rmakerReconnectTimer)
      else s

/-- The handler is registered for `RMAKER_MQTT_EVENT_DISCONNECTED` only. -/
def eventHandlerRegistered (e : RmakerCommonEvent) : Bool := e = .mqttDisconnected

inductive RecoveryAct where
  /-- a Wi-Fi or IP event is handled -/
  | network (e : NetworkEvent)
  /-- the reconnect timer expires and its callback runs -/
  | timer (taskCreated : Bool)
  /-- the event loop takes the oldest event -/
  | deliver
  /-- the client task connects, fails to, loses its connection, or finds
  itself in `WAIT_RECONNECT` and ends -/
  | connect
  | connectFails
  | broken
  | shutdown
deriving DecidableEq, Repr

/-- `esp_mqtt_abort_connection` -/
def espMqttAbortConnection (s : Recovery) : Recovery :=
  { s with mqttState := .waitReconnect, queue := s.queue ++ [.mqttDisconnected] }

def recoveryStep (s : Recovery) : RecoveryAct → Option Recovery
  | .network e => some { s with net := (networkEventHandler s.net e).1 }
  | .timer taskCreated =>
      s.net.rmakerReconnectTimer.expire.map fun t =>
        rmakerReconnectTimerCallback taskCreated (s.setTimer t)
  | .deliver =>
      match s.queue with
      | [] => none
      | e :: es =>
          let s := { s with queue := es }
          some (if eventHandlerRegistered e then eventHandler s e else s)
  | .connect =>
      if s.mqttState = .init then
        some { s with mqttState := .connected, queue := s.queue ++ [.mqttConnected] }
      else none
  | .connectFails => if s.mqttState = .init then some (espMqttAbortConnection s) else none
  | .broken => if s.mqttState = .connected then some (espMqttAbortConnection s) else none
  | .shutdown =>
      if s.mqttState = .waitReconnect then some { s with mqttState := .disconnected } else none

/-! ## Never stuck -/

/-- Something is still to come that makes the client reconnect. -/
def Recovery.Pending (s : Recovery) : Prop :=
  s.net.rmakerReconnectTimer.Armed ∨ .mqttDisconnected ∈ s.queue

/-- Online with the client down, the recovery goes on. -/
def Recovery.NotStuck (s : Recovery) : Prop :=
  wifiIsConnected s.net = 1 → s.mqttState = .disconnected → s.Pending

/-- **The condition.** With Wi-Fi up and no disconnect event queued, the
timer does not expire while the client is still in `WAIT_RECONNECT`, and
when it expires on a client that is down, the new client task can be
created. -/
def InTime (s : Recovery) : RecoveryAct → Prop
  | .timer taskCreated =>
      wifiIsConnected s.net = 1 → .mqttDisconnected ∉ s.queue →
        s.mqttState ≠ .waitReconnect ∧ (s.mqttState = .disconnected → taskCreated = true)
  | _ => True

instance : (s : Recovery) → (a : RecoveryAct) → Decidable (InTime s a)
  | s, .timer taskCreated =>
      inferInstanceAs (Decidable (wifiIsConnected s.net = 1 → _ ∉ s.queue →
        s.mqttState ≠ .waitReconnect ∧ (s.mqttState = .disconnected → taskCreated = true)))
  | _, .network _ => .isTrue trivial
  | _, .deliver => .isTrue trivial
  | _, .connect => .isTrue trivial
  | _, .connectFails => .isTrue trivial
  | _, .broken => .isTrue trivial
  | _, .shutdown => .isTrue trivial

/-- The invariant. It asks for the recovery in `WAIT_RECONNECT` already:
the client leaves that state by itself. -/
def Recovery.Backed (s : Recovery) : Prop :=
  wifiIsConnected s.net = 1 → s.mqttState = .waitReconnect ∨ s.mqttState = .disconnected →
    s.Pending

theorem Recovery.Backed.notStuck {s : Recovery} (h : s.Backed) : s.NotStuck :=
  fun hwifi hdown => h hwifi (.inr hdown)

theorem started_backed (n : Network) (sntpEnabled : Bool) :
    (Recovery.started n sntpEnabled).Backed := by
  intro _ hdown
  rcases hdown with h | h <;> cases h

/-- A step that leaves Wi-Fi and the client as they were keeps the
recovery backed when it keeps what is pending. -/
theorem Recovery.Backed.of_pending {s s' : Recovery} (h : s.Backed)
    (hnet : wifiIsConnected s'.net = wifiIsConnected s.net) (hstate : s'.mqttState = s.mqttState)
    (hpend : wifiIsConnected s.net = 1 → s.Pending → s'.Pending) : s'.Backed := by
  intro hwifi hdown
  rw [hnet] at hwifi
  rw [hstate] at hdown
  exact hpend hwifi (h hwifi hdown)

theorem abort_backed (s : Recovery) : (espMqttAbortConnection s).Backed :=
  fun _ _ => .inr (List.mem_append_right _ List.mem_cons_self)

theorem network_backed {s : Recovery} (h : s.Backed) (e : NetworkEvent) :
    ({ s with net := (networkEventHandler s.net e).1 } : Recovery).Backed := by
  by_cases hdrop : e = .staDisconnected
  · -- offline nothing is asked of the recovery
    intro hwifi
    rw [hdrop] at hwifi
    have hoff := wifiIsConnected_disconnected s.net
    rw [hwifi] at hoff
    cases hoff
  · by_cases hip : e = .staGotIp
    · intro _ _
      refine .inl ?_
      rw [hip]
      exact armed_reconnectTimerStart _
    · rw [networkEventHandler_other hdrop hip]
      exact h

/-- A delivered event is gone from the queue, but a disconnect with Wi-Fi
up leaves the timer armed, whether or not arming it was refused. -/
theorem deliver_backed {s s' : Recovery} (h : s.Backed)
    (hs : recoveryStep s .deliver = some s') : s'.Backed := by
  rw [recoveryStep] at hs
  cases hq : s.queue with
  | nil =>
      rw [hq] at hs
      cases hs
  | cons e es =>
      rw [hq] at hs
      cases e with
      | mqttConnected =>
          cases hs
          refine h.of_pending rfl rfl fun _ hpend => ?_
          refine hpend.imp_right fun hmem => ?_
          rw [hq] at hmem
          exact (List.mem_cons.mp hmem).resolve_left RmakerCommonEvent.noConfusion
      | mqttDisconnected =>
          have hdef : s' = eventHandler { s with queue := es } .mqttDisconnected := by
            cases hs
            rfl
          subst hdef
          rw [eventHandler]
          split
          next =>
            exact h.of_pending rfl rfl fun _ _ => .inl (armed_reconnectTimerStart _)
          next hoff =>
            intro hwifi
            refine absurd ?_ hoff
            show wifiIsConnected s.net ≠ 0
            have hone : wifiIsConnected s.net = 1 := hwifi
            omega

/-- What the callback does to a client that is not connected. -/
theorem callback_state {s : Recovery} (taskCreated : Bool) (hwifi : wifiIsConnected s.net = 1) :
    (rmakerReconnectTimerCallback taskCreated s).mqttState =
      if s.mqttState = .disconnected ∧ taskCreated = true then .init else s.mqttState := by
  have hon : ¬ wifiIsConnected s.net = 0 := by omega
  cases hstate : s.mqttState <;> cases taskCreated <;>
    simp [rmakerReconnectTimerCallback, espMqttClientIsConnected, espMqttGlueReconnect,
      espMqttClientReconnect, espMqttClientStart, hstate, hon]

/-- The callback changes nothing but the state of the client. -/
theorem callback_frame (taskCreated : Bool) (s : Recovery) :
    (rmakerReconnectTimerCallback taskCreated s).net = s.net ∧
      (rmakerReconnectTimerCallback taskCreated s).queue = s.queue := by
  rw [rmakerReconnectTimerCallback]
  split
  · exact ⟨rfl, rfl⟩
  · exact ⟨rfl, rfl⟩

theorem timer_cases {s s' : Recovery} {taskCreated : Bool}
    (hs : recoveryStep s (.timer taskCreated) = some s') :
    s'.net = { s.net with rmakerReconnectTimer := .stopped } ∧ s'.queue = s.queue ∧
      (wifiIsConnected s.net = 1 → s'.mqttState =
        if s.mqttState = .disconnected ∧ taskCreated = true then .init else s.mqttState) := by
  rw [recoveryStep] at hs
  obtain ⟨t, ht, rfl⟩ := Option.map_eq_some_iff.mp hs
  obtain ⟨_, rfl⟩ := EspTimer.expire_some ht
  obtain ⟨hnet, hqueue⟩ := callback_frame taskCreated (s.setTimer .stopped)
  exact ⟨hnet, hqueue, fun hwifi => callback_state taskCreated hwifi⟩

theorem timer_backed {s s' : Recovery} {taskCreated : Bool}
    (hok : InTime s (.timer taskCreated)) (hs : recoveryStep s (.timer taskCreated) = some s') :
    s'.Backed := by
  obtain ⟨hnet, hqueue, hstate⟩ := timer_cases hs
  intro hwifi hdown
  rw [hnet] at hwifi
  have hwifi : wifiIsConnected s.net = 1 := hwifi
  by_cases hmem : .mqttDisconnected ∈ s.queue
  · refine .inr ?_
    rw [hqueue]
    exact hmem
  · -- the timer is spent: the client must have got going again
    obtain ⟨hwait, hcreated⟩ := hok hwifi hmem
    rw [hstate hwifi] at hdown
    by_cases hd : s.mqttState = .disconnected
    · rw [if_pos ⟨hd, hcreated hd⟩] at hdown
      rcases hdown with h | h <;> cases h
    · rw [if_neg fun hboth => hd hboth.1] at hdown
      exact absurd hdown (not_or.mpr ⟨hwait, hd⟩)

/-- **A step in time keeps the recovery backed.** -/
theorem recoveryStep_backed {s s' : Recovery} {a : RecoveryAct} (h : s.Backed)
    (hok : InTime s a) (hs : recoveryStep s a = some s') : s'.Backed := by
  cases a with
  | network e =>
      cases hs
      exact network_backed h e
  | timer taskCreated => exact timer_backed hok hs
  | deliver => exact deliver_backed h hs
  | connect =>
      rw [recoveryStep] at hs
      split at hs
      · cases hs
        intro _ hdown
        rcases hdown with h | h <;> cases h
      · cases hs
  | connectFails =>
      rw [recoveryStep] at hs
      split at hs
      · cases hs
        exact abort_backed s
      · cases hs
  | broken =>
      rw [recoveryStep] at hs
      split at hs
      · cases hs
        exact abort_backed s
      · cases hs
  | shutdown =>
      rw [recoveryStep] at hs
      split at hs
      next hwait =>
        -- what `Backed` asked for in `WAIT_RECONNECT` is what it asks for now
        cases hs
        exact fun hwifi _ => h hwifi (.inl hwait)
      next => cases hs

/-- **In a run whose timer expires in time, the recovery never gets
stuck.** -/
theorem recovery_not_stuck (n : Network) (sntpEnabled : Bool) (as : List RecoveryAct)
    (h : Guarded recoveryStep InTime (Recovery.started n sntpEnabled) as) :
    Always recoveryStep Recovery.NotStuck (Recovery.started n sntpEnabled) as :=
  always_of_guarded (fun _ hs => hs.notStuck) (fun _ _ _ hs hok hstep =>
    recoveryStep_backed hs hok hstep) (started_backed n sntpEnabled) h

/-- The first connection fails, the client shuts down, and the timer
brings it back. -/
theorem recovery_not_stuck_restart :
    Always recoveryStep Recovery.NotStuck (Recovery.started Network.boot false)
      [.network .staGotIp, .connectFails, .deliver, .shutdown, .timer true, .connect] :=
  recovery_not_stuck Network.boot false _ (by decide)

/-- The timer expires between the failure and the shutdown of the client:
the client accepts to reconnect and ends all the same. -/
theorem recovery_gets_stuck :
    ¬ ∀ (n : Network) (sntpEnabled : Bool) (as : List RecoveryAct),
      Always recoveryStep Recovery.NotStuck (Recovery.started n sntpEnabled) as := by
  intro h
  have hend := always_iff_prefix.mp (h Network.boot false
    [.network .staGotIp, .connectFails, .deliver, .timer true, .shutdown]) _
    (List.prefix_refl _) _ rfl
  rcases hend rfl rfl with harmed | hqueued
  · exact absurd harmed (by decide)
  · exact absurd hqueued (by decide)

/-! ## What an expiry out of time leads to -/

/-- **A timer that expires out of time** can leave the client stuck, at the
latest after the client has shut down. -/
theorem stuck_of_not_inTime {s s' : Recovery} {a : RecoveryAct} (hok : ¬ InTime s a)
    (hs : recoveryStep s a = some s') :
    ∃ as s'', run recoveryStep s' as = some s'' ∧ ¬ s''.NotStuck := by
  cases a with
  | timer taskCreated =>
      rw [InTime, Classical.not_imp, Classical.not_imp, not_and_or, not_not,
        Classical.not_imp] at hok
      obtain ⟨hwifi, hmem, hlate⟩ := hok
      obtain ⟨hnet, hqueue, hstate⟩ := timer_cases hs
      have hstate := hstate hwifi
      have hwifi' : wifiIsConnected s'.net = 1 := by
        rw [hnet]
        exact hwifi
      have hspent : ¬ s'.Pending := by
        rintro (harmed | hqueued)
        · rw [hnet] at harmed
          exact EspTimer.not_armed_stopped harmed
        · rw [hqueue] at hqueued
          exact hmem hqueued
      rcases hlate with hwait | ⟨hdown, hcreated⟩
      · -- the request to reconnect is accepted and comes to nothing
        rw [hwait, if_neg fun hboth => MqttState.noConfusion hboth.1] at hstate
        refine ⟨[.shutdown], { s' with mqttState := .disconnected }, ?_,
          fun h => hspent (h hwifi' rfl)⟩
        rw [run_cons, recoveryStep, if_pos hstate]
        rfl
      · rw [if_neg fun hboth => hcreated hboth.2] at hstate
        exact ⟨[], s', rfl, fun h => hspent (h hwifi' (hstate.trans hdown))⟩
  | network _ => exact absurd trivial hok
  | deliver => exact absurd trivial hok
  | connect => exact absurd trivial hok
  | connectFails => exact absurd trivial hok
  | broken => exact absurd trivial hok
  | shutdown => exact absurd trivial hok

end LiveWireSwitch
