import LiveWireSwitch.MqttRecovery

/-!
# TimeSync — SNTP across MQTT reconnects

`event_handler` stops SNTP on an MQTT disconnect and would start it on
the next connect. The start never comes: the handler is registered for
the disconnect event only, and where it handles a connect it asks
whether SNTP is enabled before it initialises it.
-/

namespace LiveWireSwitch

open Lib

/-! ## The SNTP calls of the handler -/

inductive SntpCall where
  | init
  | stop
deriving DecidableEq, Repr

/-- What `event_handler` calls on an MQTT event. -/
def sntpCalls (s : Recovery) : RmakerCommonEvent → List SntpCall
  | .mqttConnected => if s.sntpEnabled then [.init] else []
  | .mqttDisconnected => if wifiIsConnected s.net ≠ 0 then [.stop] else []

/-- `sntp_enabled()` after a call. -/
def SntpCall.enabled : SntpCall → Bool
  | .init => true
  | .stop => false

theorem eventHandler_sntpEnabled (s : Recovery) (e : RmakerCommonEvent) :
    (eventHandler s e).sntpEnabled
      = (sntpCalls s e).foldl (fun _ c => c.enabled) s.sntpEnabled := by
  cases e with
  | mqttConnected =>
      rw [eventHandler, sntpCalls]
      split <;> rfl
  | mqttDisconnected =>
      rw [eventHandler, sntpCalls]
      split <;> rfl

/-- The handler never starts SNTP again, whichever event it is given. -/
theorem eventHandler_stopped {s : Recovery} (h : s.sntpEnabled = false) (e : RmakerCommonEvent) :
    (eventHandler s e).sntpEnabled = false := by
  cases e with
  | mqttConnected =>
      rw [eventHandler, h, if_neg Bool.false_ne_true]
      exact h
  | mqttDisconnected =>
      rw [eventHandler]
      split
      · rfl
      · exact h

/-! ## Connects, disconnects and Wi-Fi -/

inductive SyncAct where
  /-- `mqtt_event_handler` posts an event -/
  | post (e : RmakerCommonEvent)
  | deliver
  | network (e : NetworkEvent)
deriving DecidableEq, Repr

/-- The state of the client that goes with an event. -/
def RmakerCommonEvent.state : RmakerCommonEvent → MqttState
  | .mqttConnected => .connected
  | .mqttDisconnected => .waitReconnect

def syncStep (s : Recovery) : SyncAct → Option Recovery
  | .post e => some { s with mqttState := e.state, queue := s.queue ++ [e] }
  | .deliver => recoveryStep s .deliver
  | .network e => recoveryStep s (.network e)

/-- Connected and up to date with its events, the device has SNTP
running. -/
def Recovery.InSync (s : Recovery) : Prop :=
  s.mqttState = .connected → s.queue = [] → s.sntpEnabled = true

/-- **The condition.** No MQTT disconnect is delivered while Wi-Fi is
up. -/
def DeliversOffline (s : Recovery) : SyncAct → Prop
  | .deliver => s.queue.head? = some .mqttDisconnected → wifiIsConnected s.net = 0
  | _ => True

instance : (s : Recovery) → (a : SyncAct) → Decidable (DeliversOffline s a)
  | s, .deliver => inferInstanceAs (Decidable (s.queue.head? = _ → _))
  | _, .post _ => .isTrue trivial
  | _, .network _ => .isTrue trivial

/-- `sntp_init` is called on a stopped SNTP only. -/
def InitsStopped (s : Recovery) : SyncAct → Prop
  | .deliver => ∀ e ∈ s.queue.head?, eventHandlerRegistered e = true →
      .init ∈ sntpCalls s e → s.sntpEnabled = false
  | _ => True

/-- What a delivery does. -/
theorem deliver_cases {s s' : Recovery} (hs : recoveryStep s .deliver = some s') :
    (∃ es, s.queue = .mqttConnected :: es ∧ s' = { s with queue := es }) ∨
      ∃ es, s.queue = .mqttDisconnected :: es ∧
        s' = eventHandler { s with queue := es } .mqttDisconnected := by
  rw [recoveryStep] at hs
  cases hq : s.queue with
  | nil =>
      rw [hq] at hs
      cases hs
  | cons e es =>
      rw [hq] at hs
      cases e with
      | mqttConnected =>
          cases hs
          exact .inl ⟨es, rfl, rfl⟩
      | mqttDisconnected =>
          cases hs
          exact .inr ⟨es, rfl, rfl⟩

/-- Delivered offline, a disconnect leaves SNTP as it is. -/
theorem syncStep_enabled {s s' : Recovery} {a : SyncAct} (h : s.sntpEnabled = true)
    (hok : DeliversOffline s a) (hs : syncStep s a = some s') : s'.sntpEnabled = true := by
  cases a with
  | post e =>
      cases hs
      exact h
  | network e =>
      cases hs
      exact h
  | deliver =>
      rcases deliver_cases hs with ⟨es, _, rfl⟩ | ⟨es, hq, rfl⟩
      · exact h
      · have hoff := hok (by rw [hq]; rfl)
        rw [eventHandler, if_neg (not_not.mpr hoff)]
        exact h

/-- Stopped, SNTP stays stopped. -/
theorem syncStep_stopped {s s' : Recovery} {a : SyncAct} (h : s.sntpEnabled = false)
    (hs : syncStep s a = some s') : s'.sntpEnabled = false := by
  cases a with
  | post e =>
      cases hs
      exact h
  | network e =>
      cases hs
      exact h
  | deliver =>
      rcases deliver_cases hs with ⟨es, _, rfl⟩ | ⟨es, _, rfl⟩
      · exact h
      · exact eventHandler_stopped (s := { s with queue := es }) h .mqttDisconnected

theorem initsStopped (s : Recovery) (a : SyncAct) : InitsStopped s a := by
  cases a with
  | post e => trivial
  | network e => trivial
  | deliver =>
      intro e _ hreg hinit
      cases e with
      | mqttConnected => exact absurd hreg (by decide)
      | mqttDisconnected =>
          rw [sntpCalls] at hinit
          split at hinit <;> simp at hinit

/-- **In a run that delivers disconnects only offline, SNTP runs
whenever the device is connected and up to date**, and is initialised
only when stopped. -/
theorem time_sync_survives (n : Network) (as : List SyncAct)
    (h : Guarded syncStep DeliversOffline (Recovery.started n true) as) :
    Always syncStep Recovery.InSync (Recovery.started n true) as ∧
      Guarded syncStep InitsStopped (Recovery.started n true) as :=
  ⟨always_of_guarded (fun _ hs _ _ => hs) (fun _ _ _ => syncStep_enabled) rfl h,
    guarded_of_invariant (I := fun _ => True) (fun s a _ _ _ => initsStopped s a)
      (fun _ _ _ _ _ => trivial) as trivial⟩

/-- Connected, then Wi-Fi lost before the disconnect is delivered, and
connected again. -/
theorem time_sync_survives_outage :
    Always syncStep Recovery.InSync (Recovery.started Network.boot true)
        [.network .staGotIp, .post .mqttConnected, .deliver, .post .mqttDisconnected,
          .network .staDisconnected, .deliver, .network .staGotIp, .post .mqttConnected,
          .deliver] ∧
      Guarded syncStep InitsStopped (Recovery.started Network.boot true)
        [.network .staGotIp, .post .mqttConnected, .deliver, .post .mqttDisconnected,
          .network .staDisconnected, .deliver, .network .staGotIp, .post .mqttConnected,
          .deliver] :=
  time_sync_survives Network.boot _ (by decide)

/-- One MQTT reconnect with Wi-Fi up, and SNTP is off for good. -/
theorem time_sync_lost :
    ¬ ∀ (n : Network) (as : List SyncAct),
      Always syncStep Recovery.InSync (Recovery.started n true) as := by
  intro h
  have hend := always_iff_prefix.mp (h Network.boot
    [.network .staGotIp, .post .mqttConnected, .deliver, .post .mqttDisconnected, .deliver,
      .post .mqttConnected, .deliver]) _ (List.prefix_refl _) _ rfl
  exact absurd (hend rfl rfl) (by decide)

/-! ## What a disconnect with Wi-Fi up leads to -/

theorem eventHandler_queue (s : Recovery) (e : RmakerCommonEvent) :
    (eventHandler s e).queue = s.queue ∧ (eventHandler s e).mqttState = s.mqttState := by
  cases e with
  | mqttConnected =>
      rw [eventHandler]
      split <;> exact ⟨rfl, rfl⟩
  | mqttDisconnected =>
      rw [eventHandler]
      split <;> exact ⟨rfl, rfl⟩

/-- A delivery takes the first event and leaves the client's state. -/
theorem deliver_cons {s : Recovery} {e : RmakerCommonEvent} {es : List RmakerCommonEvent}
    (hq : s.queue = e :: es) :
    ∃ s', syncStep s .deliver = some s' ∧ s'.queue = es ∧ s'.mqttState = s.mqttState := by
  rw [syncStep, recoveryStep, hq]
  refine ⟨_, rfl, ?_⟩
  split
  · exact eventHandler_queue { s with queue := es } e
  · exact ⟨rfl, rfl⟩

/-- Events are delivered as long as there are any. -/
theorem run_deliver_all (es : List RmakerCommonEvent) :
    ∀ s : Recovery, s.queue = es →
      ∃ s', run syncStep s (List.replicate es.length .deliver) = some s' ∧
        s'.queue = [] ∧ s'.mqttState = s.mqttState := by
  induction es with
  | nil => exact fun s hq => ⟨s, rfl, hq, rfl⟩
  | cons e es ih =>
      intro s hq
      obtain ⟨s₁, h₁, hq₁, hm₁⟩ := deliver_cons hq
      obtain ⟨s₂, h₂, hq₂, hm₂⟩ := ih s₁ hq₁
      refine ⟨s₂, ?_, hq₂, hm₂.trans hm₁⟩
      rw [List.length_cons, List.replicate_succ]
      exact run_cons_some.mpr ⟨s₁, h₁, h₂⟩

/-- **A disconnect delivered with Wi-Fi up ends time synchronisation**:
in every later state SNTP is off, and one of them is connected and up to
date. -/
theorem sync_lost_of_online {s s' : Recovery} (hok : ¬ DeliversOffline s .deliver)
    (hs : syncStep s .deliver = some s') :
    (∀ as s'', run syncStep s' as = some s'' → s''.sntpEnabled = false) ∧
      ∃ as s'', run syncStep s' as = some s'' ∧ ¬ s''.InSync := by
  have hoff : ∀ as s'', run syncStep s' as = some s'' → s''.sntpEnabled = false := by
    intro as s'' hrun
    refine run_invariant (I := fun s : Recovery => s.sntpEnabled = false)
      (fun _ _ _ => syncStep_stopped) ?_ hrun
    rcases deliver_cases hs with ⟨es, hq, _⟩ | ⟨es, _, rfl⟩
    · refine absurd (fun h => ?_) hok
      rw [hq] at h
      cases h
    · have hup : wifiIsConnected s.net ≠ 0 := fun h => hok fun _ => h
      rw [eventHandler, if_pos hup]
      rfl
  refine ⟨hoff, ?_⟩
  -- the client connects, and everything posted is delivered
  obtain ⟨s₂, h₂, hq₂, hm₂⟩ := run_deliver_all _
    { s' with mqttState := .connected, queue := s'.queue ++ [.mqttConnected] } rfl
  have hrun : run syncStep s' (.post .mqttConnected :: List.replicate _ .deliver) = some s₂ :=
    run_cons_some.mpr ⟨_, rfl, h₂⟩
  refine ⟨_, s₂, hrun, fun hsync => ?_⟩
  rw [Recovery.InSync, hoff _ _ hrun] at hsync
  exact absurd (hsync hm₂ hq₂) Bool.false_ne_true

end LiveWireSwitch
