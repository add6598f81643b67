import LiveWireSwitch.Lib.Runs
import Mathlib.Data.UInt

/-!
# Ic2Ctrl — the supply monitor

The endless loop of `single_read` (`ic2_ctrl.c`), one pass at a time. A
pass takes the average of a batch of ADC conversions and the counter
`ic2_cnt`: below the lower threshold Wi-Fi is stopped and the counter
loaded, and above the upper threshold the counter runs down until Wi-Fi
is started again.

What the loop does to Wi-Fi is right in every order of readings
(`supply_hysteresis`). Its branches do not cover every reading, though,
and a pass that meets none of them does not wait (`gives_up_cpu_iff`).
-/

namespace LiveWireSwitch

open Lib

/-! ## One pass -/

/-- A call the loop makes. -/
inductive MonitorCall where
  | espWifiStop
  | espWifiStart
  | singleFireLedBlinkOnAdc
  | singleFireLedBlinkOffAdc
  /-- with its argument before `pdMS_TO_TICKS` -/
  | vTaskDelay (ms : Nat)
deriving DecidableEq, Repr

/-- `#define GET_ADC_DEALY 2*60` -/
def getAdcDealy : Nat := 2 * 60

/-- The body of the loop after the conversions: the new `ic2_cnt` and
the calls. -/
def singleReadPass (adc1Reading : UInt16) (ic2Cnt : Int) : Int × List MonitorCall :=
  if 2189 < adc1Reading ∧ 0 = ic2Cnt then (ic2Cnt, [.vTaskDelay (getAdcDealy * 1000)])
  else if 2330 < adc1Reading then
    (ic2Cnt - 1,
      (if 1 = ic2Cnt then [.espWifiStart, .singleFireLedBlinkOffAdc] else [])
        ++ [.vTaskDelay (30 * 1000)])
  else if 2189 > adc1Reading then
    (3,
      (if 0 = ic2Cnt then [.espWifiStop, .singleFireLedBlinkOnAdc] else [])
        ++ [.vTaskDelay (30 * 1000)])
  else (ic2Cnt, [])

/-- The loop with its past. -/
structure Monitor where
  ic2Cnt : Int
  readings : List UInt16
  calls : List MonitorCall

def Monitor.start : Monitor := ⟨0, [], []⟩

def monitorStep (s : Monitor) (adc1Reading : UInt16) : Option Monitor :=
  let r := singleReadPass adc1Reading s.ic2Cnt
  some ⟨r.1, s.readings ++ [adc1Reading], s.calls ++ r.2⟩

/-! ## Hysteresis -/

/-- The calls that stop and start Wi-Fi. -/
def wifiCalls (calls : List MonitorCall) : List MonitorCall :=
  calls.filter fun c => c = .espWifiStop ∨ c = .espWifiStart

/-- `esp_wifi_stop` and `esp_wifi_start` in turn, `esp_wifi_stop`
first. -/
def Alternates (calls : List MonitorCall) : Prop :=
  ∀ i c, (wifiCalls calls)[i]? = some c →
    c = if i % 2 = 0 then .espWifiStop else .espWifiStart

/-- Wi-Fi was stopped and not started since. -/
def Stopped (calls : List MonitorCall) : Prop :=
  (wifiCalls calls).getLast? = some .espWifiStop

instance (calls : List MonitorCall) : Decidable (Stopped calls) :=
  inferInstanceAs (Decidable (_ = _))

/-- `k` readings above 2330 since the most recent reading below 2189. -/
def HighsSinceLow (readings : List UInt16) (k : Nat) : Prop :=
  ∃ before low after, readings = before ++ low :: after ∧ low < 2189 ∧
    (∀ r ∈ after, ¬ r < 2189) ∧ after.countP (fun r => 2330 < r) = k

/-- What holds between passes. -/
structure Monitor.Steady (s : Monitor) : Prop where
  range : s.ic2Cnt = 0 ∨ s.ic2Cnt = 1 ∨ s.ic2Cnt = 2 ∨ s.ic2Cnt = 3
  alternates : Alternates s.calls
  stopped : Stopped s.calls ↔ 0 < s.ic2Cnt

/-- Wi-Fi is stopped and started on the readings it should be. -/
structure CallsOnTime (s : Monitor) (adc1Reading : UInt16) : Prop where
  stop : .espWifiStop ∈ (singleReadPass adc1Reading s.ic2Cnt).2 → adc1Reading < 2189
  start : .espWifiStart ∈ (singleReadPass adc1Reading s.ic2Cnt).2 →
    2330 < adc1Reading ∧ HighsSinceLow (s.readings ++ [adc1Reading]) 3

/-- The calls of a pass with a low reading. -/
def lowCalls (cnt : Int) : List MonitorCall :=
  (if 0 = cnt then [.espWifiStop, .singleFireLedBlinkOnAdc] else []) ++ [.vTaskDelay 30000]

/-- The calls of a pass with a high reading, the counter running. -/
def highCalls (cnt : Int) : List MonitorCall :=
  (if 1 = cnt then [.espWifiStart, .singleFireLedBlinkOffAdc] else []) ++ [.vTaskDelay 30000]

theorem start_not_mem_lowCalls (cnt : Int) : .espWifiStart ∉ lowCalls cnt := by
  rw [lowCalls]
  split <;> simp

theorem stop_not_mem_highCalls (cnt : Int) : .espWifiStop ∉ highCalls cnt := by
  rw [highCalls]
  split <;> simp

/-- Wi-Fi is started in the pass in which the counter runs out. -/
theorem start_mem_highCalls {cnt : Int} (h : .espWifiStart ∈ highCalls cnt) : cnt = 1 := by
  rw [highCalls] at h
  split at h
  next hone => exact hone.symm
  next => simp at h

/-- **What a pass does**, by the reading and the counter. -/
theorem singleReadPass_cases (r : UInt16) (cnt : Int) :
    (r < 2189 ∧ singleReadPass r cnt = (3, lowCalls cnt)) ∨
    (2189 < r ∧ cnt = 0 ∧ singleReadPass r cnt = (0, [.vTaskDelay 120000])) ∨
    (2330 < r ∧ cnt ≠ 0 ∧ singleReadPass r cnt = (cnt - 1, highCalls cnt)) ∨
    (¬ r < 2189 ∧ ¬ 2330 < r ∧ (r = 2189 ∨ cnt ≠ 0) ∧ singleReadPass r cnt = (cnt, [])) := by
  by_cases hlow : r < 2189
  · have h₁ : ¬ (2189 < r ∧ 0 = cnt) := fun h => UInt16.lt_asymm hlow h.1
    have h₂ : ¬ 2330 < r := fun h => by
      have : (2330 : UInt16) < 2189 := UInt16.lt_trans h hlow
      exact absurd this (by decide)
    exact .inl ⟨hlow, by rw [singleReadPass, if_neg h₁, if_neg h₂, if_pos hlow]; rfl⟩
  · by_cases hidle : 2189 < r ∧ 0 = cnt
    · obtain ⟨hr, rfl⟩ := hidle
      exact .inr (.inl ⟨hr, rfl, by rw [singleReadPass, if_pos ⟨hr, rfl⟩]; rfl⟩)
    · by_cases hhigh : 2330 < r
      · have hcnt : cnt ≠ 0 := fun h =>
          hidle ⟨UInt16.lt_trans (by decide) hhigh, h.symm⟩
        refine .inr (.inr (.inl ⟨hhigh, hcnt, ?_⟩))
        rw [singleReadPass, if_neg hidle, if_pos hhigh]
        rfl
      · refine .inr (.inr (.inr ⟨hlow, hhigh, ?_, ?_⟩))
        · by_cases hcnt : cnt = 0
          · refine .inl (UInt16.le_antisymm ?_ (UInt16.not_lt.mp hlow))
            exact UInt16.not_lt.mp fun h => hidle ⟨h, hcnt.symm⟩
          · exact .inr hcnt
        · rw [singleReadPass, if_neg hidle, if_neg hhigh, if_neg hlow]

/-! ## The Wi-Fi calls -/

theorem wifiCalls_append (calls more : List MonitorCall) :
    wifiCalls (calls ++ more) = wifiCalls calls ++ wifiCalls more := List.filter_append ..

/-- In turn, the last call was `esp_wifi_stop` exactly when their number
is odd. -/
theorem Alternates.stopped_iff {calls : List MonitorCall} (h : Alternates calls) :
    Stopped calls ↔ (wifiCalls calls).length % 2 = 1 := by
  rw [Stopped, List.getLast?_eq_getElem?]
  rcases Nat.eq_zero_or_pos (wifiCalls calls).length with hnil | hpos
  · rw [List.length_eq_zero_iff.mp hnil]
    simp
  · have hget := List.getElem?_eq_getElem
      (show (wifiCalls calls).length - 1 < (wifiCalls calls).length by omega)
    have hlast := h _ _ hget
    rw [hget, hlast, Option.some.injEq]
    split
    next => exact iff_of_true rfl (by omega)
    next => exact iff_of_false MonitorCall.noConfusion (by omega)

/-- No Wi-Fi call is made. -/
theorem Alternates.append_none {calls : List MonitorCall} (h : Alternates calls)
    (more : List MonitorCall) (hmore : wifiCalls more = []) :
    Alternates (calls ++ more) ∧ (Stopped (calls ++ more) ↔ Stopped calls) := by
  have hsame : wifiCalls (calls ++ more) = wifiCalls calls := by
    rw [wifiCalls_append, hmore, List.append_nil]
  rw [Alternates, Stopped, hsame]
  exact ⟨h, Iff.rfl⟩

/-- The call whose turn it is is made. -/
theorem Alternates.append_one {calls : List MonitorCall} (h : Alternates calls)
    (more : List MonitorCall) {c : MonitorCall} (hmore : wifiCalls more = [c])
    (hturn : c = if Stopped calls then .espWifiStart else .espWifiStop) :
    Alternates (calls ++ more) ∧ (Stopped (calls ++ more) ↔ ¬ Stopped calls) := by
  have hcalls : wifiCalls (calls ++ more) = wifiCalls calls ++ [c] := by
    rw [wifiCalls_append, hmore]
  constructor
  · intro i d hd
    rw [hcalls] at hd
    rcases Nat.lt_trichotomy i (wifiCalls calls).length with hlt | heq | hgt
    · rw [List.getElem?_append_left hlt] at hd
      exact h i d hd
    · rw [heq, List.getElem?_concat_length, Option.some.injEq] at hd
      rw [← hd, hturn, heq]
      by_cases hs : Stopped calls
      · rw [if_pos hs, if_neg (by have := h.stopped_iff.mp hs; omega)]
      · rw [if_neg hs, if_pos (by have := mt h.stopped_iff.mpr hs; omega)]
    · rw [List.getElem?_eq_none (by simp; omega)] at hd
      cases hd
  · rw [Stopped, hcalls, List.getLast?_concat, Option.some.injEq, hturn]
    by_cases hs : Stopped calls
    · simp [hs]
    · simp [hs]

/-! ## Readings since the last low one -/

theorem highsSinceLow_low (readings : List UInt16) {r : UInt16} (h : r < 2189) :
    HighsSinceLow (readings ++ [r]) 0 :=
  ⟨readings, r, [], rfl, h, List.forall_mem_nil _, rfl⟩

theorem HighsSinceLow.concat {readings : List UInt16} {k : Nat} (h : HighsSinceLow readings k)
    {r : UInt16} (hr : ¬ r < 2189) :
    HighsSinceLow (readings ++ [r]) (k + if 2330 < r then 1 else 0) := by
  obtain ⟨before, low, after, rfl, hlow, hafter, rfl⟩ := h
  refine ⟨before, low, after ++ [r], by simp, hlow, fun x hx => ?_, ?_⟩
  · rcases List.mem_append.mp hx with hx | hx
    · exact hafter x hx
    · rw [List.mem_singleton.mp hx]
      exact hr
  · by_cases hhigh : 2330 < r
    · simp [List.countP_append, hhigh]
    · simp [List.countP_append, hhigh]

/-! ## Runs -/

/-- The counter and the readings above 2330 since the last low one make
three. -/
structure Monitor.Ok (s : Monitor) : Prop where
  steady : s.Steady
  counted : 0 < s.ic2Cnt → ∃ k : Nat, HighsSinceLow s.readings k ∧ (k : Int) + s.ic2Cnt = 3

theorem Monitor.start_ok : Monitor.start.Ok where
  steady :=
    { range := .inl rfl
      alternates := fun _ _ h => by cases h
      stopped := by decide }
  counted := fun h => by cases h

theorem monitorStep_of_pass {s s' : Monitor} {r : UInt16} {cnt : Int} {more : List MonitorCall}
    (hpass : singleReadPass r s.ic2Cnt = (cnt, more)) (hs : monitorStep s r = some s') :
    s' = ⟨cnt, s.readings ++ [r], s.calls ++ more⟩ := by
  rw [monitorStep, hpass] at hs
  exact (Option.some.inj hs).symm

/-- On a low reading Wi-Fi is stopped, unless it is. -/
theorem Monitor.Steady.calls_low {s : Monitor} (h : s.Steady) :
    Alternates (s.calls ++ lowCalls s.ic2Cnt) ∧ Stopped (s.calls ++ lowCalls s.ic2Cnt) := by
  by_cases hzero : 0 = s.ic2Cnt
  · have hrun : ¬ Stopped s.calls := by
      rw [h.stopped]
      omega
    rw [lowCalls, if_pos hzero]
    obtain ⟨halt, hstop⟩ := h.alternates.append_one
      ([MonitorCall.espWifiStop, .singleFireLedBlinkOnAdc] ++ [.vTaskDelay 30000])
      (c := .espWifiStop) rfl (by rw [if_neg hrun])
    exact ⟨halt, hstop.mpr hrun⟩
  · have hcnt : 0 < s.ic2Cnt := by
      have := h.range
      omega
    rw [lowCalls, if_neg hzero]
    obtain ⟨halt, hstop⟩ := h.alternates.append_none ([] ++ [.vTaskDelay 30000]) rfl
    exact ⟨halt, hstop.mpr (h.stopped.mpr hcnt)⟩

/-- On a high reading with the counter running Wi-Fi is started when the
counter runs out. -/
theorem Monitor.Steady.calls_high {s : Monitor} (h : s.Steady) (hcnt : s.ic2Cnt ≠ 0) :
    Alternates (s.calls ++ highCalls s.ic2Cnt) ∧
      (Stopped (s.calls ++ highCalls s.ic2Cnt) ↔ 0 < s.ic2Cnt - 1) := by
  have hrange := h.range
  have hdown : Stopped s.calls := h.stopped.mpr (by omega)
  by_cases hone : 1 = s.ic2Cnt
  · rw [highCalls, if_pos hone]
    obtain ⟨halt, hstop⟩ := h.alternates.append_one
      ([MonitorCall.espWifiStart, .singleFireLedBlinkOffAdc] ++ [.vTaskDelay 30000])
      (c := .espWifiStart) rfl (by rw [if_pos hdown])
    exact ⟨halt, iff_of_false (fun hs => hstop.mp hs hdown) (by omega)⟩
  · rw [highCalls, if_neg hone]
    obtain ⟨halt, hstop⟩ := h.alternates.append_none ([] ++ [.vTaskDelay 30000]) rfl
    exact ⟨halt, iff_of_true (hstop.mpr hdown) (by omega)⟩

/-- A reading above the upper threshold is not below the lower one. -/
theorem not_low_of_high {r : UInt16} (h : 2330 < r) : ¬ r < 2189 :=
  fun hlow => absurd (UInt16.lt_trans h hlow) (by decide)

theorem monitorStep_ok {s s' : Monitor} {r : UInt16} (h : s.Ok)
    (hs : monitorStep s r = some s') : s'.Ok := by
  have hrange := h.steady.range
  rcases singleReadPass_cases r s.ic2Cnt with ⟨hlow, hpass⟩ | ⟨_, hzero, hpass⟩ |
    ⟨hhigh, hcnt, hpass⟩ | ⟨hlow, hhigh, _, hpass⟩
  · -- the counter is loaded and the readings are counted afresh
    obtain rfl := monitorStep_of_pass hpass hs
    obtain ⟨halt, hstop⟩ := h.steady.calls_low
    refine ⟨⟨.inr (.inr (.inr rfl)), halt, iff_of_true hstop ?_⟩, fun _ => ?_⟩
    · show (0 : Int) < 3
      omega
    · exact ⟨0, highsSinceLow_low s.readings hlow, rfl⟩
  · -- nothing to count
    obtain rfl := monitorStep_of_pass hpass hs
    obtain ⟨halt, hstop⟩ := h.steady.alternates.append_none [.vTaskDelay 120000] rfl
    refine ⟨⟨.inl rfl, halt, ?_⟩, fun hpos => absurd hpos (Int.lt_irrefl 0)⟩
    rw [hstop, h.steady.stopped, hzero]
  · -- one more high reading, and one less to wait for
    obtain rfl := monitorStep_of_pass hpass hs
    obtain ⟨halt, hstop⟩ := h.steady.calls_high hcnt
    refine ⟨⟨?_, halt, hstop⟩, fun _ => ?_⟩
    · show s.ic2Cnt - 1 = 0 ∨ s.ic2Cnt - 1 = 1 ∨ s.ic2Cnt - 1 = 2 ∨ s.ic2Cnt - 1 = 3
      omega
    · obtain ⟨k, hk, hsum⟩ := h.counted (by omega)
      have hnext := hk.concat (not_low_of_high hhigh)
      rw [if_pos hhigh] at hnext
      refine ⟨k + 1, hnext, ?_⟩
      show ((k + 1 : Nat) : Int) + (s.ic2Cnt - 1) = 3
      omega
  · -- between the thresholds nothing happens
    obtain rfl := monitorStep_of_pass hpass hs
    obtain ⟨halt, hstop⟩ := h.steady.alternates.append_none [] rfl
    refine ⟨⟨hrange, halt, hstop.trans h.steady.stopped⟩, fun hpos => ?_⟩
    obtain ⟨k, hk, hsum⟩ := h.counted hpos
    have hnext := hk.concat hlow
    rw [if_neg hhigh] at hnext
    exact ⟨k, hnext, hsum⟩

/-- The counter reaches 1 on the second high reading after a low one, so
the reading that starts Wi-Fi is the third. -/
theorem Monitor.Ok.callsOnTime {s : Monitor} (h : s.Ok) (r : UInt16) : CallsOnTime s r := by
  rcases singleReadPass_cases r s.ic2Cnt with ⟨hlow, hpass⟩ | ⟨_, _, hpass⟩ |
    ⟨hhigh, _, hpass⟩ | ⟨_, _, _, hpass⟩
  · refine ⟨fun _ => hlow, fun hc => ?_⟩
    rw [hpass] at hc
    exact absurd hc (start_not_mem_lowCalls s.ic2Cnt)
  · refine ⟨fun hc => ?_, fun hc => ?_⟩
    · rw [hpass] at hc
      simp at hc
    · rw [hpass] at hc
      simp at hc
  · refine ⟨fun hc => ?_, fun hc => ⟨hhigh, ?_⟩⟩
    · rw [hpass] at hc
      exact absurd hc (stop_not_mem_highCalls s.ic2Cnt)
    · rw [hpass] at hc
      have hone := start_mem_highCalls hc
      obtain ⟨k, hk, hsum⟩ := h.counted (by omega)
      have hnext := hk.concat (not_low_of_high hhigh)
      rw [if_pos hhigh] at hnext
      rwa [show k + 1 = 3 by omega] at hnext
  · refine ⟨fun hc => ?_, fun hc => ?_⟩
    · rw [hpass] at hc
      cases hc
    · rw [hpass] at hc
      cases hc

/-- The hysteresis over a sequence of readings. -/
def Hysteresis (readings : List UInt16) : Prop :=
  Always monitorStep Monitor.Steady Monitor.start readings ∧
    Guarded monitorStep CallsOnTime Monitor.start readings

/-- **The supply hysteresis**: over every sequence of readings, finite or
infinite, the counter stays between 0 and 3, Wi-Fi is stopped and
started in turn and is stopped exactly while the counter runs, and both
happen on the readings they should. -/
theorem supply_hysteresis :
    (∀ readings : List UInt16, Hysteresis readings) ∧
      ∀ (readings : Nat → UInt16) (n : Nat), Hysteresis ((List.range n).map readings) := by
  have hall : ∀ readings : List UInt16, Hysteresis readings := fun readings =>
    ⟨always_of_invariant (fun _ h => h.steady) (fun _ _ _ => monitorStep_ok) readings
        Monitor.start_ok,
      guarded_of_invariant (fun _ r _ h _ => h.callsOnTime r) (fun _ _ _ => monitorStep_ok)
        readings Monitor.start_ok⟩
  exact ⟨hall, fun readings n => hall _⟩

/-! ## Giving up the CPU -/

/-- The call is a delay of at least `ms` milliseconds. -/
def MonitorCall.Delays (ms : Nat) : MonitorCall → Prop
  | .vTaskDelay d => ms ≤ d
  | _ => False

instance (ms : Nat) : DecidablePred (MonitorCall.Delays ms)
  | .vTaskDelay d => inferInstanceAs (Decidable (ms ≤ d))
  | .espWifiStop | .espWifiStart => .isFalse id
  | .singleFireLedBlinkOnAdc | .singleFireLedBlinkOffAdc => .isFalse id

/-- The pass waits for 30 s or more before the next conversions. -/
def GivesUpCpu (s : Monitor) (adc1Reading : UInt16) : Prop :=
  ∃ c ∈ (singleReadPass adc1Reading s.ic2Cnt).2, c.Delays (30 * 1000)

instance (s : Monitor) (adc1Reading : UInt16) : Decidable (GivesUpCpu s adc1Reading) :=
  inferInstanceAs (Decidable (∃ c ∈ _, MonitorCall.Delays _ c))

/-- Some branch takes the reading: it lies outside the two thresholds,
or above the lower one with the counter at rest. -/
def Covered (s : Monitor) (adc1Reading : UInt16) : Prop :=
  adc1Reading < 2189 ∨ 2330 < adc1Reading ∨ (2189 < adc1Reading ∧ s.ic2Cnt = 0)

/-- **A pass waits exactly when a branch takes the reading.** -/
theorem givesUpCpu_iff (s : Monitor) (r : UInt16) : GivesUpCpu s r ↔ Covered s r := by
  rw [GivesUpCpu]
  rcases singleReadPass_cases r s.ic2Cnt with ⟨hlow, hpass⟩ | ⟨hr, hzero, hpass⟩ |
    ⟨hhigh, _, hpass⟩ | ⟨hlow, hhigh, hout, hpass⟩
  · rw [hpass]
    refine iff_of_true ⟨.vTaskDelay 30000, List.mem_append_right _ List.mem_cons_self, ?_⟩
      (.inl hlow)
    exact Nat.le_refl _
  · rw [hpass]
    refine iff_of_true ⟨.vTaskDelay 120000, List.mem_cons_self, ?_⟩ (.inr (.inr ⟨hr, hzero⟩))
    show 30 * 1000 ≤ 120000
    omega
  · rw [hpass]
    refine iff_of_true ⟨.vTaskDelay 30000, List.mem_append_right _ List.mem_cons_self, ?_⟩
      (.inr (.inl hhigh))
    exact Nat.le_refl _
  · rw [hpass]
    refine iff_of_false (fun ⟨c, hc, _⟩ => by cases hc) ?_
    rintro (h | h | ⟨hr, hzero⟩)
    · exact hlow h
    · exact hhigh h
    · rcases hout with rfl | hcnt
      · exact UInt16.lt_irrefl _ hr
      · exact hcnt hzero

/-- **The loop waits in every pass of a run exactly when** every reading
is one its branches take. -/
theorem gives_up_cpu_iff (readings : List UInt16) :
    Guarded monitorStep GivesUpCpu Monitor.start readings ↔
      Guarded monitorStep Covered Monitor.start readings :=
  guarded_congr givesUpCpu_iff readings

/-- A reading between the thresholds while Wi-Fi is stopped. -/
theorem spins_while_recovering :
    ¬ ∀ readings : List UInt16, Guarded monitorStep GivesUpCpu Monitor.start readings := by
  intro h
  have hsecond := (h [2000, 2250] _ rfl).2 _ rfl
  exact absurd hsecond.1 (by decide)

/-- While the counter runs, readings between the thresholds leave it as
it is, so the loop goes on without ever waiting for as long as they
last. -/
theorem spins_between_thresholds {s : Monitor} (hcnt : s.ic2Cnt ≠ 0) {readings : List UInt16}
    (hband : ∀ r ∈ readings, ¬ r < 2189 ∧ ¬ 2330 < r) :
    Guarded monitorStep (fun s r => ¬ GivesUpCpu s r) s readings := by
  induction readings generalizing s with
  | nil => trivial
  | cons r readings ih =>
      obtain ⟨hlow, hhigh⟩ := hband r List.mem_cons_self
      have hno : ¬ Covered s r := by
        rintro (h | h | ⟨_, hzero⟩)
        · exact hlow h
        · exact hhigh h
        · exact hcnt hzero
      have hpass : singleReadPass r s.ic2Cnt = (s.ic2Cnt, []) := by
        rw [singleReadPass, if_neg fun h => hcnt h.2.symm, if_neg hhigh, if_neg hlow]
      intro s' hs
      obtain rfl := monitorStep_of_pass hpass hs
      exact ⟨mt (givesUpCpu_iff s r).mp hno,
        ih hcnt fun x hx => hband x (List.mem_cons_of_mem r hx)⟩

end LiveWireSwitch
