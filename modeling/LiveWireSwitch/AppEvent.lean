import LiveWireSwitch.Timers
import Mathlib.Data.UInt

/-!
# AppEvent — Wi-Fi and IP events

`app_event.c`: the connect strategy with its three back-off phases, and
the handlers of the Wi-Fi and IP events, with the two functions of
`app_led.c` that touch `s_wifi_init_end_flag` and the last statement of
`app_main`. Handlers return the new state with the calls they make into
the Wi-Fi driver.
-/

namespace LiveWireSwitch

/-! ## The connect strategy -/

inductive WifiConnectPhase where
  | phase0
  | phase1
  | phase2
deriving DecidableEq, Repr

/-- `connect_strategy_context_t` -/
structure ConnectStrategyContext where
  connectCnt : Int
  connectMax : Int
  /-- seconds -/
  connectTimeout : Int
deriving DecidableEq, Repr

/-- `wifi_custom_connect_strategy_t` -/
structure WifiCustomConnectStrategy where
  isConnected : Int
  curPhase : WifiConnectPhase
  wifiReconnectTimer : EspTimer
  phase : WifiConnectPhase → ConnectStrategyContext

def phase1Duration : Int := 3600
def phase1Timeout : Int := 300
def phase2Timeout : Int := 80

/-- `wifi_custom_connect_strategy_init` -/
def wifiCustomConnectStrategyInit (timer : EspTimer) : WifiCustomConnectStrategy where
  isConnected := 0
  curPhase := .phase0
  wifiReconnectTimer := timer.create
  phase
    | .phase0 => ⟨0, 3, 0⟩
    | .phase1 => ⟨0, phase1Duration / phase1Timeout, phase1Timeout⟩
    | .phase2 => ⟨0, 3, phase2Timeout⟩

/-- `p->phase[ph].connect_cnt = cnt` -/
def WifiCustomConnectStrategy.setCnt (p : WifiCustomConnectStrategy) (ph : WifiConnectPhase)
    (cnt : Int) : WifiCustomConnectStrategy :=
  { p with phase := fun i => if i = ph then { p.phase i with connectCnt := cnt } else p.phase i }

/-- Where a phase goes when its attempts are used up. -/
def WifiConnectPhase.next : WifiConnectPhase → WifiConnectPhase
  | .phase0 => .phase1
  | .phase1 => .phase2
  | .phase2 => .phase1

/-- The three cases of the `switch (p->cur_phase)`, which differ in the
phase they move to. -/
def countFailure (p : WifiCustomConnectStrategy) : WifiCustomConnectStrategy :=
  let p := p.setCnt p.curPhase ((p.phase p.curPhase).connectCnt + 1)
  if (p.phase p.curPhase).connectCnt ≥ (p.phase p.curPhase).connectMax then
    let p := p.setCnt p.curPhase 0
    { p with curPhase := p.curPhase.next }
  else p

/-! ## The network state -/

/-- What the network handlers change: the strategy, the RainMaker
reconnect timer, the flag the UART module reads, and the LED timer. -/
structure Network where
  connectStrategy : WifiCustomConnectStrategy
  rmakerReconnectTimer : EspTimer
  sWifiInitEndFlag : UInt8
  deviceLedTimer : EspTimer

/-- After `app_event_register_init`. `app_led_init` is not called, so
`device_led_timer` stays `NULL`. -/
def Network.boot : Network := ⟨wifiCustomConnectStrategyInit .null, .null, 0, .null⟩

/-- `wifi_is_connected()` -/
def wifiIsConnected (n : Network) : Int := n.connectStrategy.isConnected

/-- `wifi_custom_connect_fail` -/
def wifiCustomConnectFail (n : Network) : Network :=
  let p := countFailure { n.connectStrategy with isConnected := 0 }
  let rmakerReconnectTimer := appRainmakerReconnectTimerStop n.rmakerReconnectTimer
  let us := (p.phase p.curPhase).connectTimeout * 1000 * 1000
  { n with
    connectStrategy := { p with wifiReconnectTimer := p.wifiReconnectTimer.startOnce us }
    rmakerReconnectTimer }

/-- `wifi_custom_connect_success` -/
def wifiCustomConnectSuccess (n : Network) : Network :=
  let p := n.connectStrategy
  { n with
    connectStrategy :=
      { isConnected := 1
        curPhase := .phase0
        wifiReconnectTimer := p.wifiReconnectTimer.stop
        phase := fun i => { p.phase i with connectCnt := 0 } }
    rmakerReconnectTimer := appRainmakerReconnectTimerStart n.rmakerReconnectTimer }

/-! ## The flag (`app_led.c`, `app_main.c`) -/

/-- `single_fire_led_blink_on`. Nothing calls its counterpart
`single_fire_led_blink_off`, which sets the flag: the call in
`app_wifi_init_end` is commented out. -/
def singleFireLedBlinkOn (n : Network) : Network :=
  { n with
    sWifiInitEndFlag := 0
    deviceLedTimer := n.deviceLedTimer.stop.startPeriodic (1500 * 1000) }

/-- The last statement of `app_main`. -/
def appMainEnd (n : Network) : Network := { n with sWifiInitEndFlag := 1 }

/-! ## Events -/

/-- An event as `network_event_handler` tells them apart. -/
inductive NetworkEvent where
  | staStart
  | staDisconnected
  | staConnected
  | wifiUnhandled (eventId : Int)
  | staGotIp
  | ipUnhandled (eventId : Int)
deriving DecidableEq, Repr

/-- A call into the Wi-Fi driver. -/
inductive WifiCall where
  | setMaxTxPower (power : Int)
  | connect
deriving DecidableEq, Repr

/-- `network_event_handler`, with `handle_wifi_events` and
`handle_ip_events`. -/
def networkEventHandler (n : Network) : NetworkEvent → Network × List WifiCall
  | .staStart => (n, [.setMaxTxPower 44, .connect])
  | .staDisconnected => (singleFireLedBlinkOn (wifiCustomConnectFail n), [])
  | .staConnected => (n, [])
  | .wifiUnhandled _ => (n, [])
  | .staGotIp => (wifiCustomConnectSuccess n, [])
  | .ipUnhandled _ => (n, [])

def networkStep (n : Network) (e : NetworkEvent) : Option Network :=
  some (networkEventHandler n e).1

end LiveWireSwitch
