import LiveWireSwitch.AppEvent
import LiveWireSwitch.Lib.Runs

/-!
# AppEvent — Backoff

The delays between attempts to connect. Three failures in phase 0 lead
to phase 1, and from there phases 1 and 2 take turns with twelve and
three failures each. The phase is moved before its delay is looked up,
so the third failure already waits as phase 1 does.
-/

namespace LiveWireSwitch

open Lib

/-- The two calls that count. -/
inductive StrategyCall where
  | fail
  | success
deriving DecidableEq, Repr

def strategyStep (n : Network) : StrategyCall → Option Network
  | .fail => some (wifiCustomConnectFail n)
  | .success => some (wifiCustomConnectSuccess n)

/-- `wifi_custom_connect_strategy_init(get_strategy_ref())` -/
def Network.initStrategy (n : Network) : Network :=
  { n with connectStrategy := wifiCustomConnectStrategyInit n.connectStrategy.wifiReconnectTimer }

/-- The `connect_timeout` that `wifi_custom_connect_fail` passes to
`esp_timer_start_once`, in seconds. -/
def requestedDelay (n : Network) : Int :=
  let p := countFailure { n.connectStrategy with isConnected := 0 }
  (p.phase p.curPhase).connectTimeout

theorem fail_requests (n : Network) :
    (wifiCustomConnectFail n).connectStrategy.wifiReconnectTimer
      = n.connectStrategy.wifiReconnectTimer.startOnce (requestedDelay n * 1000 * 1000) := by
  simp only [wifiCustomConnectFail, requestedDelay, countFailure]
  split <;> rfl

/-! ## What is set once -/

/-- The `connect_max` and `connect_timeout` of a phase, as
`wifi_custom_connect_strategy_init` sets them. -/
def WifiConnectPhase.context (ph : WifiConnectPhase) : ConnectStrategyContext :=
  (wifiCustomConnectStrategyInit .null).phase ph

/-- The constants `WIFI_CONNECT_PHASE_0` to `WIFI_CONNECT_PHASE_2`. -/
def WifiConnectPhase.code : WifiConnectPhase → Int
  | .phase0 => 0
  | .phase1 => 1
  | .phase2 => 2

/-- The strategy is in phase `ph` with `cnt` failures counted. -/
structure WifiCustomConnectStrategy.At (p : WifiCustomConnectStrategy) (ph : WifiConnectPhase)
    (cnt : Int) : Prop where
  curPhase : p.curPhase = ph
  count : ∀ i, (p.phase i).connectCnt = if i = ph then cnt else 0
  max : ∀ i, (p.phase i).connectMax = i.context.connectMax
  timeout : ∀ i, (p.phase i).connectTimeout = i.context.connectTimeout

theorem strategyInit_at (t : EspTimer) : (wifiCustomConnectStrategyInit t).At .phase0 0 where
  curPhase := rfl
  count := fun i => by cases i <;> rfl
  max := fun i => by cases i <;> rfl
  timeout := fun i => by cases i <;> rfl

/-! ## One call -/

section Calls

variable {p : WifiCustomConnectStrategy} {ph : WifiConnectPhase} {cnt : Int}

/-- A failure that does not use up the phase is counted. -/
theorem WifiCustomConnectStrategy.At.counted (h : p.At ph cnt)
    (hlt : cnt + 1 < ph.context.connectMax) : (countFailure p).At ph (cnt + 1) := by
  have hcnt : (p.phase ph).connectCnt = cnt := by rw [h.count, if_pos rfl]
  have hstay : ¬ (p.phase ph).connectMax ≤ cnt + 1 := by
    rw [h.max]
    omega
  have he : countFailure p = p.setCnt ph (cnt + 1) := by
    simp [countFailure, WifiCustomConnectStrategy.setCnt, h.curPhase, hstay, hcnt]
  rw [he]
  refine ⟨h.curPhase, fun i => ?_, fun i => ?_, fun i => ?_⟩
  · by_cases hi : i = ph
    · simp [WifiCustomConnectStrategy.setCnt, hi]
    · simp [WifiCustomConnectStrategy.setCnt, hi, h.count]
  · rw [← h.max i, WifiCustomConnectStrategy.setCnt]
    dsimp only
    split <;> rfl
  · rw [← h.timeout i, WifiCustomConnectStrategy.setCnt]
    dsimp only
    split <;> rfl

/-- The last failure of a phase moves on to the next phase. -/
theorem WifiCustomConnectStrategy.At.moved (h : p.At ph cnt)
    (hge : ph.context.connectMax ≤ cnt + 1) : (countFailure p).At ph.next 0 := by
  have hcnt : (p.phase ph).connectCnt = cnt := by rw [h.count, if_pos rfl]
  have hmove : (p.phase ph).connectMax ≤ cnt + 1 := by
    rw [h.max]
    exact hge
  have he : countFailure p
      = { (p.setCnt ph (cnt + 1)).setCnt ph 0 with curPhase := ph.next } := by
    simp [countFailure, WifiCustomConnectStrategy.setCnt, h.curPhase, hmove, hcnt]
  rw [he]
  refine ⟨rfl, fun i => ?_, fun i => ?_, fun i => ?_⟩
  · by_cases hi : i = ph
    · simp [WifiCustomConnectStrategy.setCnt, hi]
    · simp [WifiCustomConnectStrategy.setCnt, hi, h.count]
  · rw [← h.max i]
    simp only [WifiCustomConnectStrategy.setCnt]
    split <;> rfl
  · rw [← h.timeout i]
    simp only [WifiCustomConnectStrategy.setCnt]
    split <;> rfl

theorem WifiCustomConnectStrategy.At.disconnected (h : p.At ph cnt) :
    ({ p with isConnected := 0 } : WifiCustomConnectStrategy).At ph cnt :=
  ⟨h.curPhase, h.count, h.max, h.timeout⟩

/-- The delay is that of the phase the call leaves the strategy in. -/
theorem requestedDelay_of_at {n : Network}
    (h : (countFailure { n.connectStrategy with isConnected := 0 }).At ph cnt) :
    requestedDelay n = ph.context.connectTimeout := by
  rw [requestedDelay, h.curPhase]
  exact h.timeout ph

theorem fail_at {n : Network}
    (h : (countFailure { n.connectStrategy with isConnected := 0 }).At ph cnt) :
    (wifiCustomConnectFail n).connectStrategy.At ph cnt :=
  ⟨h.curPhase, h.count, h.max, h.timeout⟩

theorem success_at {n : Network} (h : n.connectStrategy.At ph cnt) :
    (wifiCustomConnectSuccess n).connectStrategy.At .phase0 0 where
  curPhase := rfl
  count := fun _ => (ite_self _).symm
  max := h.max
  timeout := h.timeout

end Calls

/-! ## Every reachable state -/

/-- A count that leaves at least one more failure to its phase. -/
def WifiCustomConnectStrategy.Counting (p : WifiCustomConnectStrategy) : Prop :=
  ∃ ph cnt, p.At ph cnt ∧ 0 ≤ cnt ∧ cnt < ph.context.connectMax

/-- What every reachable strategy has. -/
structure WifiCustomConnectStrategy.Bounded (p : WifiCustomConnectStrategy) : Prop where
  phase : p.curPhase.code = 0 ∨ p.curPhase.code = 1 ∨ p.curPhase.code = 2
  count : ∀ i, 0 ≤ (p.phase i).connectCnt ∧ (p.phase i).connectCnt < (p.phase i).connectMax
  others : ∀ i, i ≠ p.curPhase → (p.phase i).connectCnt = 0
  /-- `connect_timeout * 1000 * 1000` fits an `int`, step by step -/
  product : ∀ i, 0 ≤ (p.phase i).connectTimeout * 1000 ∧
    0 ≤ (p.phase i).connectTimeout * 1000 * 1000 ∧
    (p.phase i).connectTimeout * 1000 < 2 ^ 31 ∧
    (p.phase i).connectTimeout * 1000 * 1000 < 2 ^ 31

theorem WifiCustomConnectStrategy.Counting.bounded {p : WifiCustomConnectStrategy}
    (h : p.Counting) : p.Bounded := by
  obtain ⟨ph, cnt, hat, hpos, hlt⟩ := h
  refine ⟨?_, fun i => ?_, fun i hi => ?_, fun i => ?_⟩
  · cases p.curPhase <;> simp [WifiConnectPhase.code]
  · rw [hat.count, hat.max]
    by_cases hi : i = ph
    · rw [if_pos hi, hi]
      exact ⟨hpos, hlt⟩
    · rw [if_neg hi]
      refine ⟨Int.le_refl 0, ?_⟩
      cases i <;> decide
  · rw [hat.count, if_neg]
    rwa [← hat.curPhase]
  · rw [hat.timeout]
    cases i <;> decide

theorem strategyStep_counting {n n' : Network} {c : StrategyCall}
    (h : n.connectStrategy.Counting) (hs : strategyStep n c = some n') :
    n'.connectStrategy.Counting := by
  obtain ⟨ph, cnt, hat, hpos, hlt⟩ := h
  cases c with
  | fail =>
      cases hs
      by_cases hstay : cnt + 1 < ph.context.connectMax
      · exact ⟨ph, cnt + 1, fail_at (hat.disconnected.counted hstay), by omega, hstay⟩
      · refine ⟨ph.next, 0, fail_at (hat.disconnected.moved (by omega)), Int.le_refl 0, ?_⟩
        cases ph <;> decide
  | success =>
      cases hs
      exact ⟨.phase0, 0, success_at hat, Int.le_refl 0, by decide⟩

/-! ## The schedule -/

/-- Phase and count after `k` failures in a row. -/
def afterFailures (k : Nat) : WifiConnectPhase × Int :=
  if k < 3 then (.phase0, k)
  else if (k - 3) % 15 < 12 then (.phase1, ((k - 3) % 15 : Nat))
  else (.phase2, ((k - 3) % 15 - 12 : Nat))

/-- The delay before the attempt that follows the `k`-th failure. -/
def backoffDelay (k : Nat) : Int :=
  if k = 1 ∨ k = 2 then 0
  else if (k - 3) % 15 < 12 then 300
  else 80

theorem afterFailures_phase0 {k : Nat} (h : k < 3) : afterFailures k = (.phase0, (k : Int)) :=
  if_pos h

theorem afterFailures_phase1 {k m : Nat} (hk : 3 ≤ k) (hm : (k - 3) % 15 = m) (h : m < 12) :
    afterFailures k = (.phase1, (m : Int)) := by
  rw [afterFailures, if_neg (by omega), hm, if_pos h]

theorem afterFailures_phase2 {k m : Nat} (hk : 3 ≤ k) (hm : (k - 3) % 15 = m) (h : 12 ≤ m) :
    afterFailures k = (.phase2, ((m - 12 : Nat) : Int)) := by
  rw [afterFailures, if_neg (by omega), hm, if_neg (by omega)]

/-- **One more failure.** The phases change at the third failure, and
then when the count modulo 15 passes 12 and comes back to 0. -/
theorem countFailure_afterFailures {p : WifiCustomConnectStrategy} {k : Nat}
    (h : p.At (afterFailures k).1 (afterFailures k).2) :
    (countFailure p).At (afterFailures (k + 1)).1 (afterFailures (k + 1)).2 := by
  have max0 : WifiConnectPhase.phase0.context.connectMax = 3 := rfl
  have max1 : WifiConnectPhase.phase1.context.connectMax = 12 := rfl
  have max2 : WifiConnectPhase.phase2.context.connectMax = 3 := rfl
  rcases Nat.lt_or_ge k 3 with hk | hk
  · rw [afterFailures_phase0 hk] at h
    rcases Nat.lt_or_ge (k + 1) 3 with hk' | hk'
    · rw [afterFailures_phase0 hk']
      have hlt : (k : Int) + 1 < WifiConnectPhase.phase0.context.connectMax := by
        rw [max0]
        omega
      exact_mod_cast h.counted hlt
    · rw [afterFailures_phase1 (m := 0) hk' (by omega) (by omega)]
      refine h.moved ?_
      rw [max0]
      show (3 : Int) ≤ (k : Int) + 1
      omega
  · obtain ⟨m, hm⟩ : ∃ m, (k - 3) % 15 = m := ⟨_, rfl⟩
    have hm15 : m < 15 := hm ▸ Nat.mod_lt _ (by omega)
    rcases Nat.lt_or_ge m 12 with h1 | h2
    · rw [afterFailures_phase1 hk hm h1] at h
      rcases Nat.lt_or_ge (m + 1) 12 with h1' | h2'
      · rw [afterFailures_phase1 (m := m + 1) (by omega) (by omega) h1']
        have hlt : (m : Int) + 1 < WifiConnectPhase.phase1.context.connectMax := by
          rw [max1]
          omega
        exact_mod_cast h.counted hlt
      · rw [afterFailures_phase2 (m := 12) (by omega) (by omega) (by omega)]
        refine h.moved ?_
        rw [max1]
        show (12 : Int) ≤ (m : Int) + 1
        omega
    · rw [afterFailures_phase2 hk hm h2] at h
      rcases Nat.lt_or_ge (m + 1) 15 with h2' | h3'
      · rw [afterFailures_phase2 (m := m + 1) (by omega) (by omega) (by omega)]
        have hlt : ((m - 12 : Nat) : Int) + 1 < WifiConnectPhase.phase2.context.connectMax := by
          rw [max2]
          omega
        have hnext := h.counted hlt
        rwa [show ((m - 12 : Nat) : Int) + 1 = ((m + 1 - 12 : Nat) : Int) by omega] at hnext
      · rw [afterFailures_phase1 (m := 0) (by omega) (by omega) (by omega)]
        refine h.moved ?_
        rw [max2]
        show (3 : Int) ≤ ((m - 12 : Nat) : Int) + 1
        omega

/-- The delay the `k`-th failure asks for is that of the phase it ends
in. -/
theorem timeout_afterFailures {k : Nat} (hk : 1 ≤ k) :
    (afterFailures k).1.context.connectTimeout = backoffDelay k := by
  rcases Nat.lt_or_ge k 3 with h | h
  · rw [afterFailures_phase0 h, backoffDelay, if_pos (by omega)]
    rfl
  · rw [backoffDelay, if_neg (by omega)]
    obtain ⟨m, hm⟩ : ∃ m, (k - 3) % 15 = m := ⟨_, rfl⟩
    rcases Nat.lt_or_ge m 12 with h1 | h2
    · rw [afterFailures_phase1 h hm h1, hm, if_pos h1]
      rfl
    · rw [afterFailures_phase2 h hm h2, hm, if_neg (by omega)]
      rfl

/-- After `k` failures in a row. -/
theorem run_failures {n s : Network} {k : Nat} (h : n.connectStrategy.At .phase0 0)
    (hrun : run strategyStep n (List.replicate k .fail) = some s) :
    s.connectStrategy.At (afterFailures k).1 (afterFailures k).2 := by
  induction k generalizing s with
  | zero =>
      cases hrun
      exact h
  | succ k ih =>
      rw [List.replicate_succ', run_append] at hrun
      obtain ⟨m, hm, hlast⟩ := Option.bind_eq_some_iff.mp hrun
      cases hlast
      exact fail_at (countFailure_afterFailures (ih hm).disconnected)

theorem initStrategy_counting (n : Network) : n.initStrategy.connectStrategy.Counting :=
  ⟨.phase0, 0, strategyInit_at _, Int.le_refl 0, by decide⟩

/-- A history that ends in a success, or has just begun, leaves the
strategy at the start of phase 0. -/
theorem run_reset {n m : Network} {history : List StrategyCall}
    (hend : history = [] ∨ history.getLast? = some .success)
    (hrun : run strategyStep n.initStrategy history = some m) :
    m.connectStrategy.At .phase0 0 := by
  rcases hend with rfl | hlast
  · cases hrun
    exact strategyInit_at _
  · obtain ⟨earlier, rfl⟩ := List.getLast?_eq_some_iff.mp hlast
    rw [run_append] at hrun
    obtain ⟨q, hq, hsuccess⟩ := Option.bind_eq_some_iff.mp hrun
    obtain ⟨ph, cnt, hat, _, _⟩ := run_invariant
      (I := fun s : Network => s.connectStrategy.Counting)
      (fun _ _ _ => strategyStep_counting) (initStrategy_counting n) hq
    cases hsuccess
    exact success_at hat

/-- **The back-off schedule.** The `k`-th failure in a row, counted from
a success or from the start, asks for the delay of the schedule, and in
every reachable state the phase and the counts are in bounds and the
delay in microseconds fits an `int`. -/
theorem backoff_schedule (n : Network) :
    (∀ (history : List StrategyCall) (k : Nat) (s : Network), 1 ≤ k →
      (history = [] ∨ history.getLast? = some .success) →
      run strategyStep n.initStrategy (history ++ List.replicate (k - 1) .fail) = some s →
        requestedDelay s = backoffDelay k ∧
        (wifiCustomConnectFail s).connectStrategy.wifiReconnectTimer
          = s.connectStrategy.wifiReconnectTimer.startOnce (backoffDelay k * 1000 * 1000)) ∧
    ∀ history : List StrategyCall,
      Always strategyStep (fun s => s.connectStrategy.Bounded) n.initStrategy history := by
  constructor
  · intro history k s hk hend hrun
    rw [run_append] at hrun
    obtain ⟨m, hm, hfails⟩ := Option.bind_eq_some_iff.mp hrun
    have hat := countFailure_afterFailures
      (run_failures (run_reset hend hm) hfails).disconnected
    rw [Nat.sub_add_cancel hk] at hat
    have hdelay : requestedDelay s = backoffDelay k :=
      (requestedDelay_of_at hat).trans (timeout_afterFailures hk)
    exact ⟨hdelay, by rw [fail_requests, hdelay]⟩
  · intro history
    exact always_of_invariant (I := fun s : Network => s.connectStrategy.Counting)
      (fun _ h => h.bounded) (fun _ _ _ => strategyStep_counting) history
      (initStrategy_counting n)

/-- The fifteenth failure in a row, after a connection: the first delay
of phase 2. -/
theorem backoff_schedule_fifteenth :
    ∃ s, run strategyStep Network.boot.initStrategy (.success :: List.replicate 14 .fail)
      = some s ∧ requestedDelay s = 80 := by
  refine ⟨_, rfl, ?_⟩
  exact ((backoff_schedule Network.boot).1 [.success] 15 _ (by decide) (.inr rfl) rfl).1

end LiveWireSwitch
