import LiveWireSwitch.AppEvent
import LiveWireSwitch.AppUart.SendTask

/-!
# AppEvent — Forwarding

A change made at the wall switch reaches RainMaker only while
`s_wifi_init_end_flag` is set. A disconnect clears the flag, the end of
`app_main` sets it, and nothing sets it again: after the first dropped
connection that comes back, the device is online and forwards nothing.
-/

namespace LiveWireSwitch

open Lib

/-! ## The three readers of the flag -/

/-- Every change at the wall switch is passed to `esp_rmaker_update`: an
accepted switch frame, an accepted brightness frame, and a command the
send task has transmitted. -/
structure WallChangesForwarded (w : UInt8) : Prop where
  onOff : ∀ c l, c.dat.toUInt16 ≠ getBriStatus l →
    .espRmakerUpdate c.cmd (if c.dat ≠ 0 then 1 else 0) ∈ (dealOnOff w c l).2
  briNow : ∀ c l, c.dat.toUInt32 ≠ getBtightPct l → c.dat ≤ 100 →
    .espRmakerUpdate c.cmd c.dat.toUInt32 ∈ (dealBriNow w c l).2
  sent : ∀ rxFlag s r, s.pc = .report → taskStep rxFlag w s = some r →
    .espRmakerUpdate s.ucSendBuffTemp.cmd s.ucSendBuffTemp.dat.toUInt32 ∈ r.2

theorem mem_forward_iff {w cmd : UInt8} {dat : UInt32} :
    .espRmakerUpdate cmd dat ∈ forward w cmd dat ↔ w ≠ 0 := by
  by_cases h : w ≠ 0
  · simp [forward, h]
  · simp [forward, h]

theorem wallChangesForwarded_iff (w : UInt8) : WallChangesForwarded w ↔ w ≠ 0 := by
  constructor
  · intro h
    have hon := h.onOff ⟨onOffCmd, 1⟩ Light.boot (by decide)
    rw [dealOnOff, if_pos (by decide), List.mem_append] at hon
    rcases hon with hack | hfwd
    · exact absurd hack (by decide)
    · exact mem_forward_iff.mp hfwd
  · intro hw
    constructor
    · intro c l hne
      rw [dealOnOff, if_pos hne]
      exact List.mem_append_right _ (mem_forward_iff.mpr hw)
    · intro c l hne hle
      rw [dealBriNow, if_pos hne, if_pos hle]
      exact List.mem_append_right _ (mem_forward_iff.mpr hw)
    · intro rxFlag s r hpc hr
      simp only [taskStep, hpc, Option.some.injEq] at hr
      subst hr
      exact mem_forward_iff.mpr hw

/-! ## Drops and reconnects -/

/-- Online, the flag is set and the wall switch is heard. -/
def Network.ForwardsOnline (n : Network) : Prop :=
  wifiIsConnected n = 1 → n.sWifiInitEndFlag = 1 ∧ WallChangesForwarded n.sWifiInitEndFlag

/-- No connection that was dropped comes back. -/
def NoReconnect (events : List NetworkEvent) : Prop :=
  events.Pairwise fun a b => ¬ (a = .staDisconnected ∧ b = .staGotIp)

instance (events : List NetworkEvent) : Decidable (NoReconnect events) :=
  inferInstanceAs (Decidable (List.Pairwise _ _))

theorem forwardsOnline_of_flag {n : Network} (h : n.sWifiInitEndFlag = 1) : n.ForwardsOnline := by
  intro _
  refine ⟨h, (wallChangesForwarded_iff _).mpr ?_⟩
  rw [h]
  decide

/-- An event other than a drop and a new address leaves the connection
and the flag as they are. -/
theorem networkEventHandler_other {n : Network} {e : NetworkEvent} (h₁ : e ≠ .staDisconnected)
    (h₂ : e ≠ .staGotIp) : (networkEventHandler n e).1 = n := by
  cases e with
  | staStart => rfl
  | staDisconnected => exact absurd rfl h₁
  | staConnected => rfl
  | wifiUnhandled _ => rfl
  | staGotIp => exact absurd rfl h₂
  | ipUnhandled _ => rfl

@[simp] theorem setCnt_isConnected (p : WifiCustomConnectStrategy) (ph : WifiConnectPhase)
    (cnt : Int) : (p.setCnt ph cnt).isConnected = p.isConnected := rfl

@[simp] theorem countFailure_isConnected (p : WifiCustomConnectStrategy) :
    (countFailure p).isConnected = p.isConnected := by
  simp only [countFailure]
  split <;> rfl

theorem wifiIsConnected_disconnected (n : Network) :
    wifiIsConnected (networkEventHandler n .staDisconnected).1 = 0 := by
  simp [wifiIsConnected, networkEventHandler, singleFireLedBlinkOn, wifiCustomConnectFail]

/-- Offline with the flag cleared, the next address is the end of
forwarding. -/
theorem always_forwards_offline {n : Network} {events : List NetworkEvent}
    (hflag : n.sWifiInitEndFlag = 0) (hconn : wifiIsConnected n = 0) :
    Always networkStep Network.ForwardsOnline n events ↔ .staGotIp ∉ events := by
  have hnow : n.ForwardsOnline := by
    intro h
    rw [hconn] at h
    cases h
  induction events generalizing n with
  | nil => simpa using hnow
  | cons e events ih =>
      simp only [always_cons, hnow, true_and, networkStep, Option.mem_def, Option.some.injEq,
        forall_eq', List.mem_cons, not_or]
      by_cases hip : e = .staGotIp
      · -- connected again, and nobody has set the flag
        subst hip
        refine iff_of_false (fun h => ?_) (fun h => h.1 rfl)
        have hcleared := (h.head rfl).1
        rw [show (networkEventHandler n .staGotIp).1.sWifiInitEndFlag = n.sWifiInitEndFlag
          from rfl, hflag] at hcleared
        cases hcleared
      · have hne : NetworkEvent.staGotIp ≠ e := fun h => hip h.symm
        simp only [hne, not_false_eq_true, true_and]
        by_cases hdisc : e = .staDisconnected
        · -- another drop clears the flag once more
          subst hdisc
          have hoff := wifiIsConnected_disconnected n
          refine ih rfl hoff ?_
          intro h
          rw [hoff] at h
          cases h
        · rw [networkEventHandler_other hdisc hip]
          exact ih hflag hconn hnow

/-- With the flag set, forwarding lasts until a drop is followed by a
new address. -/
theorem always_forwards_flagged {n : Network} {events : List NetworkEvent}
    (hflag : n.sWifiInitEndFlag = 1) :
    Always networkStep Network.ForwardsOnline n events ↔ NoReconnect events := by
  induction events generalizing n with
  | nil => simpa [NoReconnect] using forwardsOnline_of_flag hflag
  | cons e events ih =>
      simp only [always_cons, forwardsOnline_of_flag hflag, true_and, networkStep,
        Option.mem_def, Option.some.injEq, forall_eq', NoReconnect, List.pairwise_cons]
      by_cases hdisc : e = .staDisconnected
      · -- the rest runs offline; a reconnect pairs with this very event
        subst hdisc
        rw [always_forwards_offline rfl (wifiIsConnected_disconnected n)]
        constructor
        · intro hno
          refine ⟨fun b hb h => hno (h.2 ▸ hb), List.pairwise_of_forall_mem_list ?_⟩
          exact fun a _ b hb h => hno (h.2 ▸ hb)
        · intro h hip
          exact h.1 _ hip ⟨rfl, rfl⟩
      · simp only [hdisc, false_and, not_false_eq_true, implies_true, true_and]
        by_cases hip : e = .staGotIp
        · subst hip
          exact ih hflag
        · rw [networkEventHandler_other hdisc hip]
          exact ih hflag

/-- **After `app_main`, changes at the wall switch are forwarded in
every state in which Wi-Fi is up exactly when** no dropped connection
comes back, whatever the state at its end. -/
theorem forwards_online_iff (n : Network) (events : List NetworkEvent) :
    Always networkStep Network.ForwardsOnline (appMainEnd n) events ↔ NoReconnect events :=
  always_forwards_flagged rfl

/-- One drop, and the device comes back deaf. -/
theorem reconnect_forwards_nothing :
    ¬ ∀ (earlier events : List NetworkEvent) (n : Network),
      run networkStep Network.boot earlier = some n →
        Always networkStep Network.ForwardsOnline (appMainEnd n) events := by
  intro h
  have hrun := h [.staStart, .staGotIp] [.staDisconnected, .staGotIp] _ rfl
  have hend := ((hrun.2 _ rfl).2 _ rfl).head
  exact absurd (hend rfl).1 (by decide)

end LiveWireSwitch
