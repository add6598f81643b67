import LiveWireSwitch.Frame

/-!
# BriCtrl — the light state and its setters

`bri_ctrl.c`: four globals and the functions that change them. A
function here returns the new globals with the commands it passes to
`send_bri_ctrl_info`, in order; what becomes of those commands is the
business of `SendTask`. `char` is unsigned on the ESP32-C3, so the three
percentages are bytes that wrap.
-/

namespace LiveWireSwitch

/-- The globals of `bri_ctrl.c`. -/
structure Light where
  briStatus : UInt16
  briMinPct : UInt8
  briMaxPct : UInt8
  briNowPct : UInt8
deriving DecidableEq, Repr

/-- The initialisers; `Bri_Ctrl_Init` sets `Bri_Status` to 0 again. -/
def Light.boot : Light := ⟨0, 0, 100, 50⟩

def setBriStatus (status : UInt16) (l : Light) : Light := { l with briStatus := status }

def getBriStatus (l : Light) : UInt16 := l.briStatus

def getBtightPct (l : Light) : UInt32 := l.briNowPct.toUInt32

/-! ## The three setters -/

def setBtightPct (pct : UInt32) (l : Light) : Light × List Cmd :=
  if l.briMaxPct.toUInt32 < pct ∨ l.briMinPct.toUInt32 > pct then (l, [])
  else
    let l := { l with briNowPct := pct.toUInt8 }
    (l, [⟨briNowCmd, l.briNowPct⟩])

/-- The last command carries `Bri_Now_Pct`, as the source has it. -/
def setBtightMinPct (pct : UInt32) (l : Light) : Light × List Cmd :=
  if 100 < pct then (l, [])
  else
    let l := { l with briMinPct := pct.toUInt8 }
    if l.briNowPct < l.briMinPct then
      let l := { l with briNowPct := l.briMinPct }
      (l, [⟨briNowCmd, l.briNowPct⟩, ⟨briMinCmd, l.briNowPct⟩])
    else (l, [⟨briMinCmd, l.briNowPct⟩])

/-- The last command carries `Bri_Now_Pct`, as the source has it. -/
def setBtightMaxPct (pct : UInt32) (l : Light) : Light × List Cmd :=
  if 100 < pct then (l, [])
  else
    let l := { l with briMaxPct := pct.toUInt8 }
    if l.briNowPct > l.briMaxPct then
      let l := { l with briNowPct := l.briMaxPct }
      (l, [⟨briNowCmd, l.briNowPct⟩, ⟨briMaxCmd, l.briNowPct⟩])
    else (l, [⟨briMaxCmd, l.briNowPct⟩])

/-! ## The four presses -/

def brightSubShortPress (l : Light) : Light × List Cmd :=
  let l := { l with briNowPct := l.briNowPct - 10 }
  let l := if l.briNowPct < l.briMinPct ∨ l.briNowPct > 101 then
      { l with briNowPct := l.briMinPct } else l
  (l, [⟨briNowCmd, l.briNowPct⟩])

def brightSubLongPress (l : Light) : Light × List Cmd :=
  if l.briNowPct > l.briMinPct then
    let l := { l with briNowPct := l.briNowPct - 1 }
    (l, [⟨briNowCmd, l.briNowPct⟩])
  else (l, [])

def brightAddShortPress (l : Light) : Light × List Cmd :=
  let l := { l with briNowPct := l.briNowPct + 10 }
  let l := if l.briNowPct > l.briMaxPct then { l with briNowPct := l.briMaxPct } else l
  (l, [⟨briNowCmd, l.briNowPct⟩])

def brightAddLongPress (l : Light) : Light × List Cmd :=
  if l.briNowPct < l.briMaxPct then
    let l := { l with briNowPct := l.briNowPct + 1 }
    (l, [⟨briNowCmd, l.briNowPct⟩])
  else (l, [])

/-! ## On and off -/

def openTheLights (l : Light) : Light × List Cmd :=
  let l := { l with briStatus := 1 }
  (l, [⟨onOffCmd, l.briStatus.toUInt8⟩])

/-- `stop_button_check` does nothing here: `button2_timer` is never
created. -/
def closeTheLights (l : Light) : Light × List Cmd :=
  let l := { l with briStatus := 0 }
  (l, [⟨onOffCmd, l.briStatus.toUInt8⟩])

def toggleTheLights (l : Light) : Light × List Cmd :=
  if l.briStatus ≠ 0 then closeTheLights l else openTheLights l

def dimmerRmakerInit (l : Light) : Light × List Cmd :=
  if l.briStatus ≠ 0 then openTheLights l else closeTheLights l

/-! ## The operations as one type -/

/-- The eleven functions of `bri_ctrl.c` that may post a command. -/
inductive BriOp where
  | openTheLights
  | closeTheLights
  | toggleTheLights
  | dimmerRmakerInit
  | setBtightPct (pct : UInt32)
  | setBtightMinPct (pct : UInt32)
  | setBtightMaxPct (pct : UInt32)
  | brightSubShortPress
  | brightSubLongPress
  | brightAddShortPress
  | brightAddLongPress
deriving DecidableEq, Repr

def BriOp.call : BriOp → Light → Light × List Cmd
  | .openTheLights, l => LiveWireSwitch.openTheLights l
  | .closeTheLights, l => LiveWireSwitch.closeTheLights l
  | .toggleTheLights, l => LiveWireSwitch.toggleTheLights l
  | .dimmerRmakerInit, l => LiveWireSwitch.dimmerRmakerInit l
  | .setBtightPct pct, l => LiveWireSwitch.setBtightPct pct l
  | .setBtightMinPct pct, l => LiveWireSwitch.setBtightMinPct pct l
  | .setBtightMaxPct pct, l => LiveWireSwitch.setBtightMaxPct pct l
  | .brightSubShortPress, l => LiveWireSwitch.brightSubShortPress l
  | .brightSubLongPress, l => LiveWireSwitch.brightSubLongPress l
  | .brightAddShortPress, l => LiveWireSwitch.brightAddShortPress l
  | .brightAddLongPress, l => LiveWireSwitch.brightAddLongPress l

/-! ## Narrowing an `unsigned int` to a percentage -/

/-- Below a byte, the assignment to a `char` loses nothing. -/
theorem toUInt8_toUInt32_of_le {p : UInt32} {b : UInt8} (h : ¬ b.toUInt32 < p) :
    p.toUInt8.toUInt32 = p := by
  have hb := UInt8.toNat_lt b
  apply UInt32.toNat_inj.mp
  simp only [UInt32.lt_iff_toNat_lt, UInt8.toNat_toUInt32] at h
  simp only [UInt8.toNat_toUInt32, UInt32.toNat_toUInt8]
  omega

/-- An accepted limit fits a percentage. -/
theorem exists_pct_of_le {pct : UInt32} (h : ¬ 100 < pct) :
    ∃ b : UInt8, b.toUInt32 = pct ∧ pct.toUInt8 = b ∧ b ≤ 100 := by
  have hb := toUInt8_toUInt32_of_le (b := 100) h
  refine ⟨pct.toUInt8, hb, rfl, ?_⟩
  rw [← UInt8.toUInt32_le, hb]
  exact UInt32.not_lt.mp h

/-- What `Set_Btight_Pct` does, by whether the value lies in the
limits. -/
theorem setBtightPct_cases (pct : UInt32) (l : Light) :
    (setBtightPct pct l = (l, []) ∧
      (l.briMaxPct.toUInt32 < pct ∨ pct < l.briMinPct.toUInt32)) ∨
    (∃ b : UInt8, b.toUInt32 = pct ∧ l.briMinPct ≤ b ∧ b ≤ l.briMaxPct ∧
      setBtightPct pct l = ({ l with briNowPct := b }, [⟨briNowCmd, b⟩])) := by
  by_cases h : l.briMaxPct.toUInt32 < pct ∨ l.briMinPct.toUInt32 > pct
  · exact .inl ⟨by rw [setBtightPct, if_pos h], h⟩
  · obtain ⟨hmax, hmin⟩ := not_or.mp h
    have hb := toUInt8_toUInt32_of_le hmax
    refine .inr ⟨pct.toUInt8, hb, ?_, ?_, by rw [setBtightPct, if_neg h]⟩
    · rw [← UInt8.toUInt32_le, hb]
      exact UInt32.not_lt.mp hmin
    · rw [← UInt8.toUInt32_le, hb]
      exact UInt32.not_lt.mp hmax

end LiveWireSwitch
