import LiveWireSwitch.AppUart.DealWith
import LiveWireSwitch.Lib.Runs

/-!
# BriCtrl — Limits

Does the brightness stay inside its limits? Every operation that moves
the brightness keeps it there, with the byte arithmetic of the short
presses wrapping on the way. The two limit setters check a new limit
against 100 and not against the other limit, and a lower limit above the
upper one takes the brightness along.
-/

namespace LiveWireSwitch

open Lib

/-- What can change the brightness or a limit: an operation of
`bri_ctrl.c`, or a received brightness frame. -/
inductive LimitAct where
  | op (o : BriOp)
  | briNowFrame (dat : UInt8)
deriving DecidableEq, Repr

/-- An act with `s_wifi_init_end_flag` at `w`, and the commands it
posts. -/
def LimitAct.call (w : UInt8) : LimitAct → Light → Light × List Cmd
  | .op o, l => o.call l
  | .briNowFrame dat, l =>
      let r := dealFrame w ⟨briNowCmd, dat⟩ l
      (r.1, sentCmds r.2)

/-- The light state and the commands posted on the way into it. -/
structure Dimmed where
  light : Light
  posted : List Cmd
deriving DecidableEq

def limitStep (w : UInt8) (s : Dimmed) (a : LimitAct) : Option Dimmed :=
  some ⟨(a.call w s.light).1, (a.call w s.light).2⟩

/-- The limits are in order and enclose the brightness. -/
structure Light.Within (l : Light) : Prop where
  min_le : l.briMinPct ≤ l.briNowPct
  le_max : l.briNowPct ≤ l.briMaxPct
  max_le : l.briMaxPct ≤ 100

instance (l : Light) : Decidable l.Within :=
  decidable_of_iff (l.briMinPct ≤ l.briNowPct ∧ l.briNowPct ≤ l.briMaxPct ∧ l.briMaxPct ≤ 100)
    ⟨fun h => ⟨h.1, h.2.1, h.2.2⟩, fun h => ⟨h.min_le, h.le_max, h.max_le⟩⟩

/-- A brightness is posted only as a value inside the limits. -/
def Dimmed.Within (s : Dimmed) : Prop :=
  s.light.Within ∧ ∀ c ∈ s.posted, c.cmd = briNowCmd →
    s.light.briMinPct ≤ c.dat ∧ c.dat ≤ s.light.briMaxPct

instance (s : Dimmed) : Decidable s.Within := inferInstanceAs (Decidable (_ ∧ _))

/-- A new limit does not cross the other one. -/
def KeepsOrder (l : Light) : LimitAct → Prop
  | .op (.setBtightMinPct pct) => 100 < pct ∨ pct ≤ l.briMaxPct.toUInt32
  | .op (.setBtightMaxPct pct) => 100 < pct ∨ l.briMinPct.toUInt32 ≤ pct
  | _ => True

/-! ## What is posted -/

/-- Whatever brightness an act posts is the brightness it leaves. -/
def PostsNow (r : Light × List Cmd) : Prop := ∀ c ∈ r.2, c.cmd = briNowCmd → c.dat = r.1.briNowPct

theorem postsNow_call (o : BriOp) (l : Light) : PostsNow (o.call l) := by
  cases o with
  | openTheLights => simp [PostsNow, BriOp.call, openTheLights, onOffCmd, briNowCmd]
  | closeTheLights => simp [PostsNow, BriOp.call, closeTheLights, onOffCmd, briNowCmd]
  | toggleTheLights =>
      simp only [BriOp.call, toggleTheLights]
      split <;> simp [PostsNow, openTheLights, closeTheLights, onOffCmd, briNowCmd]
  | dimmerRmakerInit =>
      simp only [BriOp.call, dimmerRmakerInit]
      split <;> simp [PostsNow, openTheLights, closeTheLights, onOffCmd, briNowCmd]
  | setBtightPct pct =>
      simp only [BriOp.call, setBtightPct]
      split <;> simp [PostsNow]
  | setBtightMinPct pct =>
      simp only [BriOp.call, setBtightMinPct]
      split
      · simp [PostsNow]
      · split <;> simp [PostsNow, briMinCmd, briNowCmd]
  | setBtightMaxPct pct =>
      simp only [BriOp.call, setBtightMaxPct]
      split
      · simp [PostsNow]
      · split <;> simp [PostsNow, briMaxCmd, briNowCmd]
  | brightSubShortPress => simp [PostsNow, BriOp.call, brightSubShortPress]
  | brightSubLongPress =>
      simp only [BriOp.call, brightSubLongPress]
      split <;> simp [PostsNow]
  | brightAddShortPress => simp [PostsNow, BriOp.call, brightAddShortPress]
  | brightAddLongPress =>
      simp only [BriOp.call, brightAddLongPress]
      split <;> simp [PostsNow]

/-- A received brightness is `Set_Btight_Pct` of the byte, or nothing. -/
theorem briNowFrame_call (w : UInt8) (dat : UInt8) (l : Light) :
    LimitAct.call w (.briNowFrame dat) l = setBtightPct dat.toUInt32 l ∨
      LimitAct.call w (.briNowFrame dat) l = (l, []) := by
  simp only [LimitAct.call, dealFrame_briNow, dealBriNow]
  by_cases hd : dat.toUInt32 ≠ getBtightPct l
  · by_cases h100 : dat ≤ 100
    · refine .inl ?_
      simp [if_pos hd, if_pos h100]
    · refine .inr ?_
      simp [if_pos hd, if_neg h100]
  · refine .inr ?_
    rw [if_neg hd]
    rfl

theorem postsNow_act (w : UInt8) (a : LimitAct) (l : Light) : PostsNow (a.call w l) := by
  cases a with
  | op o => exact postsNow_call o l
  | briNowFrame dat =>
      rcases briNowFrame_call w dat l with h | h
      · rw [h]
        exact postsNow_call (.setBtightPct dat.toUInt32) l
      · rw [h]
        simp [PostsNow]

/-! ## One act -/

section Acts

variable {l : Light}

theorem Light.Within.setNow (h : l.Within) (pct : UInt32) : (setBtightPct pct l).1.Within := by
  rcases setBtightPct_cases pct l with ⟨he, _⟩ | ⟨b, _, hmin, hmax, he⟩
  · rw [he]
    exact h
  · rw [he]
    exact ⟨hmin, hmax, h.max_le⟩

theorem Light.Within.subShort (h : l.Within) : (brightSubShortPress l).1.Within := by
  obtain ⟨h₁, h₂, h₃⟩ := h
  simp only [brightSubShortPress]
  split
  · exact ⟨UInt8.le_refl _, UInt8.le_trans h₁ h₂, h₃⟩
  · -- the subtraction did not wrap, or it was above 101
    constructor <;> grind

theorem Light.Within.subLong (h : l.Within) : (brightSubLongPress l).1.Within := by
  obtain ⟨h₁, h₂, h₃⟩ := h
  simp only [brightSubLongPress]
  split
  · constructor <;> grind
  · exact ⟨h₁, h₂, h₃⟩

theorem Light.Within.addShort (h : l.Within) : (brightAddShortPress l).1.Within := by
  obtain ⟨h₁, h₂, h₃⟩ := h
  simp only [brightAddShortPress]
  split
  · exact ⟨UInt8.le_trans h₁ h₂, UInt8.le_refl _, h₃⟩
  · constructor <;> grind

theorem Light.Within.addLong (h : l.Within) : (brightAddLongPress l).1.Within := by
  obtain ⟨h₁, h₂, h₃⟩ := h
  simp only [brightAddLongPress]
  split
  · constructor <;> grind
  · exact ⟨h₁, h₂, h₃⟩

/-- A lower limit keeps the order exactly when it does not pass the
upper one. -/
theorem Light.Within.setMin_iff (h : l.Within) (pct : UInt32) :
    (setBtightMinPct pct l).1.Within ↔ 100 < pct ∨ pct ≤ l.briMaxPct.toUInt32 := by
  obtain ⟨h₁, h₂, h₃⟩ := h
  rw [setBtightMinPct]
  by_cases h100 : 100 < pct
  · rw [if_pos h100]
    exact iff_of_true ⟨h₁, h₂, h₃⟩ (.inl h100)
  · obtain ⟨b, rfl, hb, _⟩ := exists_pct_of_le h100
    simp only [hb, h100, false_or, UInt8.toUInt32_le]
    by_cases hlt : l.briNowPct < b
    · rw [if_pos hlt]
      exact ⟨fun hw => hw.le_max, fun hb => ⟨UInt8.le_refl _, hb, h₃⟩⟩
    · rw [if_neg hlt]
      have hle := UInt8.not_lt.mp hlt
      exact iff_of_true ⟨hle, h₂, h₃⟩ (UInt8.le_trans hle h₂)

/-- An upper limit keeps the order exactly when it does not pass the
lower one. -/
theorem Light.Within.setMax_iff (h : l.Within) (pct : UInt32) :
    (setBtightMaxPct pct l).1.Within ↔ 100 < pct ∨ l.briMinPct.toUInt32 ≤ pct := by
  obtain ⟨h₁, h₂, h₃⟩ := h
  rw [setBtightMaxPct]
  by_cases h100 : 100 < pct
  · rw [if_pos h100]
    exact iff_of_true ⟨h₁, h₂, h₃⟩ (.inl h100)
  · obtain ⟨b, rfl, hb, hb100⟩ := exists_pct_of_le h100
    simp only [hb, h100, false_or, UInt8.toUInt32_le]
    by_cases hlt : l.briNowPct > b
    · rw [if_pos hlt]
      exact ⟨fun hw => hw.min_le, fun hb => ⟨hb, UInt8.le_refl _, hb100⟩⟩
    · rw [if_neg hlt]
      have hle := UInt8.not_lt.mp hlt
      exact iff_of_true ⟨h₁, hle, hb100⟩ (UInt8.le_trans h₁ hle)

theorem Light.Within.op_iff (h : l.Within) (o : BriOp) :
    (o.call l).1.Within ↔ KeepsOrder l (.op o) := by
  cases o with
  | openTheLights => exact iff_of_true ⟨h.min_le, h.le_max, h.max_le⟩ trivial
  | closeTheLights => exact iff_of_true ⟨h.min_le, h.le_max, h.max_le⟩ trivial
  | toggleTheLights =>
      refine iff_of_true ?_ trivial
      simp only [BriOp.call, toggleTheLights]
      split <;> exact ⟨h.min_le, h.le_max, h.max_le⟩
  | dimmerRmakerInit =>
      refine iff_of_true ?_ trivial
      simp only [BriOp.call, dimmerRmakerInit]
      split <;> exact ⟨h.min_le, h.le_max, h.max_le⟩
  | setBtightPct pct => exact iff_of_true (h.setNow pct) trivial
  | setBtightMinPct pct => exact h.setMin_iff pct
  | setBtightMaxPct pct => exact h.setMax_iff pct
  | brightSubShortPress => exact iff_of_true h.subShort trivial
  | brightSubLongPress => exact iff_of_true h.subLong trivial
  | brightAddShortPress => exact iff_of_true h.addShort trivial
  | brightAddLongPress => exact iff_of_true h.addLong trivial

theorem Light.Within.act_iff (h : l.Within) (w : UInt8) (a : LimitAct) :
    (a.call w l).1.Within ↔ KeepsOrder l a := by
  cases a with
  | op o => exact h.op_iff o
  | briNowFrame dat =>
      refine iff_of_true ?_ trivial
      rcases briNowFrame_call w dat l with he | he
      · rw [he]
        exact h.setNow dat.toUInt32
      · rw [he]
        exact h

end Acts

/-! ## Runs -/

theorem limitStep_within {w : UInt8} {s s' : Dimmed} {a : LimitAct} (h : s.Within)
    (hs : limitStep w s a = some s') : s'.Within ↔ KeepsOrder s.light a := by
  cases hs
  rw [← h.1.act_iff w a]
  refine ⟨fun hw => hw.1, fun hw => ⟨hw, fun c hc hcmd => ?_⟩⟩
  have hnow := postsNow_act w a s.light c hc hcmd
  rw [hnow]
  exact ⟨hw.min_le, hw.le_max⟩

/-- **The brightness stays inside its limits all along a run exactly
when** no new limit crosses the other one. -/
theorem within_limits_iff (w : UInt8) (as : List LimitAct) :
    Always (limitStep w) Dimmed.Within ⟨Light.boot, []⟩ as ↔
      Guarded (limitStep w) (fun s a => KeepsOrder s.light a) ⟨Light.boot, []⟩ as :=
  always_iff_guarded (I := fun _ => True) (fun _ _ _ _ _ => trivial)
    (fun _ _ _ _ h hs => limitStep_within h hs) as trivial (by decide)

/-- With the upper limit at 20, a lower limit of 60 leaves the
brightness at 60. -/
theorem limits_cross :
    ¬ ∀ (w : UInt8) (as : List LimitAct),
      Always (limitStep w) Dimmed.Within ⟨Light.boot, []⟩ as := by
  intro h
  have hrun := (h 1 [.op (.setBtightMaxPct 20), .op (.setBtightMinPct 60)]).2 _ rfl
  exact absurd (hrun.2 _ rfl).head (by decide)

end LiveWireSwitch
