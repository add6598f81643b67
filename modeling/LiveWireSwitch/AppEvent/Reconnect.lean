import LiveWireSwitch.AppEvent.Backoff
import LiveWireSwitch.AppEvent.Forwarding

/-!
# AppEvent — Reconnect

The handlers and the reconnect timer with the station they drive. The
station is started and stopped by others (the supply monitor among
them), also with a reconnect pending; a connection attempt lasts until
it ends in an address or a disconnect. However these come about, a
station that is started and not connected has an attempt or the timer
under way.
-/

namespace LiveWireSwitch

open Lib

/-! ## The station -/

structure Station where
  net : Network
  started : Bool
  /-- `esp_wifi_connect` was called and neither a disconnect nor an
  address came since -/
  outstanding : Bool

/-- After `app_event_register_init`, Wi-Fi not started. -/
def Station.boot (n : Network) : Station := ⟨n.initStrategy, false, false⟩

/-- `esp_wifi_connect` does nothing on a stopped station. -/
def espWifiConnect (s : Station) : Station :=
  if s.started then { s with outstanding := true } else s

def Station.call (s : Station) : WifiCall → Station
  | .setMaxTxPower _ => s
  | .connect => espWifiConnect s

/-- `network_event_handler`, its calls made. -/
def Station.handle (s : Station) (e : NetworkEvent) : Station :=
  let r := networkEventHandler s.net e
  r.2.foldl Station.call { s with net := r.1 }

/-- What an event says of the station. -/
def Station.driver (s : Station) : NetworkEvent → Station
  | .staStart => { s with started := true }
  | .staDisconnected => { s with outstanding := false }
  | .staGotIp => { s with outstanding := false }
  | _ => s

inductive StationAct where
  | event (e : NetworkEvent)
  /-- `WIFI_EVENT_STA_STOP`, which the handler has no case for -/
  | staStop (eventId : Int)
  /-- the reconnect timer expires; its callback is
  `wifi_reconnect_timer_callback` -/
  | timer
deriving DecidableEq, Repr

def Station.setTimer (s : Station) (t : EspTimer) : Station :=
  { s with net := { s.net with
      connectStrategy := { s.net.connectStrategy with wifiReconnectTimer := t } } }

def stationStep (s : Station) : StationAct → Option Station
  | .event e => some ((s.driver e).handle e)
  | .staStop eventId => some (({ s with started := false } : Station).handle
      (.wifiUnhandled eventId))
  | .timer => s.net.connectStrategy.wifiReconnectTimer.expire.map fun t =>
      espWifiConnect (s.setTimer t)

/-! ## What holds -/

/-- Not connected, a started station tries or is going to; connected, the
back-off is at its start and the timer at rest. -/
structure Station.Moving (s : Station) : Prop where
  down : s.started = true → wifiIsConnected s.net = 0 →
    s.outstanding = true ∨ s.net.connectStrategy.wifiReconnectTimer.Armed
  up : wifiIsConnected s.net = 1 → s.net.connectStrategy.curPhase = .phase0 ∧
    (∀ i, (s.net.connectStrategy.phase i).connectCnt = 0) ∧
    ¬ s.net.connectStrategy.wifiReconnectTimer.Armed

/-- With it, that the timer exists. -/
structure Station.Ok (s : Station) : Prop where
  moving : s.Moving
  timer : s.net.connectStrategy.wifiReconnectTimer ≠ .null

theorem Station.boot_ok (n : Network) : (Station.boot n).Ok where
  moving :=
    { down := fun h => by cases h
      up := fun h => by cases h }
  timer := EspTimer.noConfusion

/-- A failure arms the timer, or finds it armed. -/
theorem fail_timer {n : Network} (h : n.connectStrategy.wifiReconnectTimer ≠ .null) :
    (wifiCustomConnectFail n).connectStrategy.wifiReconnectTimer.Armed := by
  rw [fail_requests]
  exact EspTimer.armed_startOnce h _

theorem disconnected_ok {s : Station} (h : s.Ok) :
    ((s.driver .staDisconnected).handle .staDisconnected).Ok := by
  have harmed : ((s.driver .staDisconnected).handle
      .staDisconnected).net.connectStrategy.wifiReconnectTimer.Armed := fail_timer h.timer
  refine ⟨⟨fun _ _ => .inr harmed, fun hup => ?_⟩, harmed.ne_null⟩
  have hoff : wifiIsConnected ((s.driver .staDisconnected).handle .staDisconnected).net = 0 :=
    wifiIsConnected_disconnected s.net
  rw [hup] at hoff
  cases hoff

theorem gotIp_ok {s : Station} (h : s.Ok) : ((s.driver .staGotIp).handle .staGotIp).Ok where
  moving :=
    { down := fun _ hoff => by cases hoff
      up := fun _ => ⟨rfl, fun _ => rfl, EspTimer.not_armed_stop _⟩ }
  timer := EspTimer.stop_ne_null h.timer

/-- `esp_wifi_connect` on a station that is started starts an attempt. -/
theorem espWifiConnect_ok {s : Station}
    (up : wifiIsConnected s.net = 1 → s.net.connectStrategy.curPhase = .phase0 ∧
      (∀ i, (s.net.connectStrategy.phase i).connectCnt = 0) ∧
      ¬ s.net.connectStrategy.wifiReconnectTimer.Armed)
    (timer : s.net.connectStrategy.wifiReconnectTimer ≠ .null) : (espWifiConnect s).Ok := by
  rw [espWifiConnect]
  split
  next => exact ⟨⟨fun _ _ => .inl rfl, up⟩, timer⟩
  next hstopped => exact ⟨⟨fun hstarted => absurd hstarted hstopped, up⟩, timer⟩

/-- An expired timer is spent, but its callback tries to connect. -/
theorem timer_ok {s s' : Station} (h : s.Ok) (hs : stationStep s .timer = some s') : s'.Ok := by
  rw [stationStep] at hs
  obtain ⟨t, ht, rfl⟩ := Option.map_eq_some_iff.mp hs
  obtain ⟨_, rfl⟩ := EspTimer.expire_some ht
  refine espWifiConnect_ok (fun hup => ?_) EspTimer.noConfusion
  obtain ⟨hphase, hcnt, _⟩ := h.moving.up hup
  exact ⟨hphase, hcnt, EspTimer.not_armed_stopped⟩

theorem stationStep_ok {s s' : Station} {a : StationAct} (h : s.Ok)
    (hs : stationStep s a = some s') : s'.Ok := by
  cases a with
  | event e =>
      cases hs
      cases e with
      | staStart => exact espWifiConnect_ok (s := s.driver .staStart) h.moving.up h.timer
      | staDisconnected => exact disconnected_ok h
      | staGotIp => exact gotIp_ok h
      | staConnected => exact h
      | wifiUnhandled _ => exact h
      | ipUnhandled _ => exact h
  | staStop eventId =>
      cases hs
      refine ⟨⟨fun hstarted => ?_, h.moving.up⟩, h.timer⟩
      cases hstarted
  | timer => exact timer_ok h hs

/-- **Reconnection never stalls**, whatever the order of events and
expiries. -/
theorem reconnection_never_stalls (n : Network) (as : List StationAct) :
    Always stationStep Station.Moving (Station.boot n) as :=
  always_of_invariant (fun _ h => h.moving) (fun _ _ _ => stationStep_ok) as (Station.boot_ok n)

end LiveWireSwitch
