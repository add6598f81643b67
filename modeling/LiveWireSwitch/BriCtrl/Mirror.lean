import LiveWireSwitch.BriCtrl
import LiveWireSwitch.Lib.Runs

/-!
# BriCtrl — Mirror

The dimmer MCU knows the light state only from the commands it is sent.
Here it keeps a copy of the four variables and follows the commands by
the meanings `app_uart.h` gives them; the question is when the copy is
right. `Set_Btight_Min_Pct` and `Set_Btight_Max_Pct` post the present
brightness where the limit belongs, so it is right exactly as long as
every new limit reaches or passes the present brightness.
-/

namespace LiveWireSwitch

open Lib

/-- What a command tells the MCU (`app_uart.h`). -/
def Light.follow (m : Light) (c : Cmd) : Light :=
  if c.cmd = onOffCmd then { m with briStatus := c.dat.toUInt16 }
  else if c.cmd = briNowCmd then { m with briNowPct := c.dat }
  else if c.cmd = briMaxCmd then { m with briMaxPct := c.dat }
  else if c.cmd = briMinCmd then { m with briMinPct := c.dat }
  else m

section Follow

variable (m : Light) (dat : UInt8)

@[simp] theorem follow_onOff :
    m.follow ⟨onOffCmd, dat⟩ = { m with briStatus := dat.toUInt16 } := rfl

@[simp] theorem follow_briNow : m.follow ⟨briNowCmd, dat⟩ = { m with briNowPct := dat } := rfl

@[simp] theorem follow_briMax : m.follow ⟨briMaxCmd, dat⟩ = { m with briMaxPct := dat } := rfl

@[simp] theorem follow_briMin : m.follow ⟨briMinCmd, dat⟩ = { m with briMinPct := dat } := rfl

end Follow

/-- The firmware's variables and the MCU's copy. -/
structure Mirrored where
  firmware : Light
  mirror : Light
deriving DecidableEq

/-- One operation of the firmware, its commands followed in order and
without loss. -/
def mirrorStep (s : Mirrored) (op : BriOp) : Option Mirrored :=
  some ⟨(op.call s.firmware).1, (op.call s.firmware).2.foldl Light.follow s.mirror⟩

def Mirrored.Agree (s : Mirrored) : Prop := s.mirror = s.firmware

instance (s : Mirrored) : Decidable s.Agree := inferInstanceAs (Decidable (_ = _))

/-- The limit an operation sets does not fall short of the present
brightness. -/
def LimitReachesNow (l : Light) : BriOp → Prop
  | .setBtightMinPct pct => 100 < pct ∨ l.briNowPct.toUInt32 ≤ pct
  | .setBtightMaxPct pct => 100 < pct ∨ pct ≤ l.briNowPct.toUInt32
  | _ => True

/-- The commands of an operation take an exact copy to an exact copy. -/
def Follows (op : BriOp) (l : Light) : Prop :=
  (op.call l).2.foldl Light.follow l = (op.call l).1

theorem follows_open (l : Light) : Follows .openTheLights l := rfl

theorem follows_close (l : Light) : Follows .closeTheLights l := rfl

theorem follows_toggle (l : Light) : Follows .toggleTheLights l := by
  by_cases h : l.briStatus ≠ 0
  · simp only [Follows, BriOp.call, toggleTheLights, if_pos h]
    exact follows_close l
  · simp only [Follows, BriOp.call, toggleTheLights, if_neg h]
    exact follows_open l

theorem follows_rmakerInit (l : Light) : Follows .dimmerRmakerInit l := by
  by_cases h : l.briStatus ≠ 0
  · simp only [Follows, BriOp.call, dimmerRmakerInit, if_pos h]
    exact follows_open l
  · simp only [Follows, BriOp.call, dimmerRmakerInit, if_neg h]
    exact follows_close l

theorem follows_setNow (pct : UInt32) (l : Light) : Follows (.setBtightPct pct) l := by
  simp only [Follows, BriOp.call]
  rcases setBtightPct_cases pct l with ⟨h, _⟩ | ⟨b, _, _, _, h⟩
  · rw [h]
    rfl
  · rw [h]
    rfl

theorem follows_subShort (l : Light) : Follows .brightSubShortPress l := by
  simp only [Follows, BriOp.call, brightSubShortPress]
  split <;> rfl

theorem follows_subLong (l : Light) : Follows .brightSubLongPress l := by
  simp only [Follows, BriOp.call, brightSubLongPress]
  split <;> rfl

theorem follows_addShort (l : Light) : Follows .brightAddShortPress l := by
  simp only [Follows, BriOp.call, brightAddShortPress]
  split <;> rfl

theorem follows_addLong (l : Light) : Follows .brightAddLongPress l := by
  simp only [Follows, BriOp.call, brightAddLongPress]
  split <;> rfl

/-! ## The two limit setters -/

theorem follows_setMin_iff (pct : UInt32) (l : Light) :
    Follows (.setBtightMinPct pct) l ↔ LimitReachesNow l (.setBtightMinPct pct) := by
  simp only [Follows, BriOp.call, setBtightMinPct, LimitReachesNow]
  by_cases h100 : 100 < pct
  · simp [h100]
  · obtain ⟨b, rfl, hb, _⟩ := exists_pct_of_le h100
    rw [if_neg h100, hb]
    by_cases hlt : l.briNowPct < b
    · simp only [if_pos hlt, List.foldl_cons, List.foldl_nil, follow_briNow, follow_briMin,
        UInt8.toUInt32_le, true_iff]
      exact .inr (UInt8.le_of_lt hlt)
    · -- the mirror's limit becomes the present brightness, the firmware's `b`
      simp only [if_neg hlt, List.foldl_cons, List.foldl_nil, follow_briMin, Light.mk.injEq,
        true_and, and_true, h100, false_or, UInt8.toUInt32_le]
      exact ⟨UInt8.le_of_eq, fun h => UInt8.le_antisymm h (UInt8.not_lt.mp hlt)⟩

theorem follows_setMax_iff (pct : UInt32) (l : Light) :
    Follows (.setBtightMaxPct pct) l ↔ LimitReachesNow l (.setBtightMaxPct pct) := by
  simp only [Follows, BriOp.call, setBtightMaxPct, LimitReachesNow]
  by_cases h100 : 100 < pct
  · simp [h100]
  · obtain ⟨b, rfl, hb, _⟩ := exists_pct_of_le h100
    rw [if_neg h100, hb]
    by_cases hlt : l.briNowPct > b
    · simp only [if_pos hlt, List.foldl_cons, List.foldl_nil, follow_briNow, follow_briMax,
        UInt8.toUInt32_le, true_iff]
      exact .inr (UInt8.le_of_lt hlt)
    · simp only [if_neg hlt, List.foldl_cons, List.foldl_nil, follow_briMax, Light.mk.injEq,
        true_and, and_true, h100, false_or, UInt8.toUInt32_le]
      exact ⟨fun h => UInt8.le_of_eq h.symm, fun h => UInt8.le_antisymm (UInt8.not_lt.mp hlt) h⟩

/-! ## Runs -/

/-- Nine operations always post what they changed, and the two limit
setters do when the new limit reaches the present brightness. -/
theorem follows_iff (op : BriOp) (l : Light) : Follows op l ↔ LimitReachesNow l op := by
  cases op with
  | openTheLights => exact iff_of_true (follows_open l) trivial
  | closeTheLights => exact iff_of_true (follows_close l) trivial
  | toggleTheLights => exact iff_of_true (follows_toggle l) trivial
  | dimmerRmakerInit => exact iff_of_true (follows_rmakerInit l) trivial
  | setBtightPct pct => exact iff_of_true (follows_setNow pct l) trivial
  | setBtightMinPct pct => exact follows_setMin_iff pct l
  | setBtightMaxPct pct => exact follows_setMax_iff pct l
  | brightSubShortPress => exact iff_of_true (follows_subShort l) trivial
  | brightSubLongPress => exact iff_of_true (follows_subLong l) trivial
  | brightAddShortPress => exact iff_of_true (follows_addShort l) trivial
  | brightAddLongPress => exact iff_of_true (follows_addLong l) trivial

theorem mirrorStep_agree {s s' : Mirrored} {op : BriOp} (h : s.Agree)
    (hs : mirrorStep s op = some s') : s'.Agree ↔ LimitReachesNow s.firmware op := by
  cases hs
  rw [← follows_iff, Follows, Mirrored.Agree, h]

/-- **The copy is right all along a run exactly when** no operation sets
a limit that falls short of the present brightness. -/
theorem mirror_agrees_iff (l : Light) (ops : List BriOp) :
    Always mirrorStep Mirrored.Agree ⟨l, l⟩ ops ↔
      Guarded mirrorStep (fun s op => LimitReachesNow s.firmware op) ⟨l, l⟩ ops :=
  always_iff_guarded (I := fun _ => True) (fun _ _ _ _ _ => trivial)
    (fun _ _ _ _ h hs => mirrorStep_agree h hs) ops trivial rfl

/-- From the initial state, a lower limit of 20 reaches the MCU as 50. -/
theorem mirror_loses_min_limit :
    ¬ ∀ (l : Light) (ops : List BriOp), Always mirrorStep Mirrored.Agree ⟨l, l⟩ ops := by
  intro h
  have hrun := (h Light.boot [.setBtightMinPct 20]).2 _ rfl
  exact absurd hrun.head (by decide)

end LiveWireSwitch
