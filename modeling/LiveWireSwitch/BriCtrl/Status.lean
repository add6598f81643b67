import LiveWireSwitch.AppUart.Acknowledge
import LiveWireSwitch.AppRainmaker

/-!
# BriCtrl — Status

Is the light on? `Bri_Status` is a 16-bit number, and its readers ask in
three ways: whether it is nonzero, whether it is 1, and whether it is
the byte of a frame. They agree on 0 and 1 only. Constants and booleans
write nothing else; `uart_deal_with` writes the byte it received.
-/

namespace LiveWireSwitch

open Lib

/-- `#define Light_OFF 0` -/
def lightOff : UInt16 := 0

/-- `#define Light_ON 1` -/
def lightOn : UInt16 := 1

/-! ## The three tests -/

/-- `Bri_Status` as a condition: `write_cb`, `Toggle_The_Lights`,
`dimmer_rmaker_init` and the report of Power. -/
def Light.Nonzero (l : Light) : Prop := getBriStatus l ≠ 0

/-- `1 == Bri_Status`, before the button ISRs turn the brightness. -/
def Light.IsOne (l : Light) : Prop := 1 = l.briStatus

/-- `str[i+3] != Get_Bri_Status()` is false: the byte of an `OnOffCMD`
frame passes for the present state. -/
def Light.Matches (l : Light) (dat : UInt8) : Prop := dat.toUInt16 = getBriStatus l

instance (l : Light) : Decidable l.Nonzero := inferInstanceAs (Decidable (_ ≠ _))

/-- The data byte that stands for the present state. -/
def Light.onOffByte (l : Light) : UInt8 := if l.Nonzero then 1 else 0

/-- The light is on or off, the three tests say which, and a frame that
says so too is recognised as no change. -/
structure ReadersAgree (w : UInt8) (l : Light) : Prop where
  binary : l.briStatus = lightOff ∨ l.briStatus = lightOn
  isOne : l.IsOne ↔ l.Nonzero
  matches_on : l.Matches 1 ↔ l.Nonzero
  matches_off : l.Matches 0 ↔ ¬ l.Nonzero
  resent : dealFrame w ⟨onOffCmd, l.onOffByte⟩ l = (l, [.startPowerSave])

/-- A frame with the byte it matches only has the lock released. -/
theorem dealOnOff_of_matches {l : Light} {dat : UInt8} (h : l.Matches dat) (w : UInt8) :
    dealFrame w ⟨onOffCmd, dat⟩ l = (l, [.startPowerSave]) := by
  have hsame : dat.toUInt16 = getBriStatus l := h
  show dealOnOff w ⟨onOffCmd, dat⟩ l = _
  rw [dealOnOff, if_neg (not_not.mpr hsame)]

/-- Zero and one are all it takes. -/
theorem readersAgree_iff (w : UInt8) (l : Light) :
    ReadersAgree w l ↔ l.briStatus = lightOff ∨ l.briStatus = lightOn := by
  refine ⟨ReadersAgree.binary, fun hbin => ?_⟩
  rcases l with ⟨status, min, max, now⟩
  rcases hbin with rfl | rfl
  · have hoff : Light.Matches ⟨lightOff, min, max, now⟩ 0 := rfl
    refine ⟨.inl rfl, ?_, ?_, ?_, dealOnOff_of_matches hoff w⟩
    · show (1 : UInt16) = 0 ↔ (0 : UInt16) ≠ 0
      decide
    · show (1 : UInt16) = 0 ↔ (0 : UInt16) ≠ 0
      decide
    · show (0 : UInt16) = 0 ↔ ¬ (0 : UInt16) ≠ 0
      decide
  · have hon : Light.Matches ⟨lightOn, min, max, now⟩ 1 := rfl
    refine ⟨.inr rfl, ?_, ?_, ?_, dealOnOff_of_matches hon w⟩
    · show (1 : UInt16) = 1 ↔ (1 : UInt16) ≠ 0
      decide
    · show (1 : UInt16) = 1 ↔ (1 : UInt16) ≠ 0
      decide
    · show (0 : UInt16) = 1 ↔ ¬ (1 : UInt16) ≠ 0
      decide

/-! ## The writers -/

/-- The light with the sender. -/
structure Switch where
  light : Light
  sender : Sender
  ucRxTaskHandleFlag : Bool

def Switch.boot : Switch := ⟨Light.boot, Sender.boot, false⟩

/-- Who moves: the MCU with a switch frame, the cloud, a caller of
`Toggle_The_Lights` or `dimmer_rmaker_init`, a caller of the sender, the
send task, or the wake line. -/
inductive SwitchAct where
  | onOffFrame (dat : UInt8)
  | powerWrite (b : Bool)
  | toggleTheLights
  | dimmerRmakerInit
  | sendBriCtrlInfo (c : Cmd)
  | task
  | rxFlag (b : Bool)
deriving DecidableEq, Repr

/-- A light and the commands that go to the sender. -/
def Switch.post (s : Switch) (l : Light) (cmds : List Cmd) : Switch :=
  { s with
    light := l
    sender := cmds.foldl (fun q c => LiveWireSwitch.sendBriCtrlInfo true c q) s.sender }

def switchStep (w : UInt8) (s : Switch) : SwitchAct → Option Switch
  | .onOffFrame dat =>
      let r := dealFrame w ⟨onOffCmd, dat⟩ s.light
      some ({ s with
        ucRxTaskHandleFlag := rxFlagAfter r.2 s.ucRxTaskHandleFlag }.post r.1 (sentCmds r.2))
  | .powerWrite b =>
      let r := writeCb (.power b) s.light
      some (s.post r.1 r.2.1)
  | .toggleTheLights =>
      let r := LiveWireSwitch.toggleTheLights s.light
      some (s.post r.1 r.2)
  | .dimmerRmakerInit =>
      let r := LiveWireSwitch.dimmerRmakerInit s.light
      some (s.post r.1 r.2)
  | .sendBriCtrlInfo c => some (s.post s.light [c])
  | .task => (taskStep s.ucRxTaskHandleFlag w s.sender).map fun r => { s with sender := r.1 }
  | .rxFlag b => some { s with ucRxTaskHandleFlag := b }

/-- **The condition.** A switch frame says 0 or 1. -/
def BinaryFrame : SwitchAct → Prop
  | .onOffFrame dat => dat = 0 ∨ dat = 1
  | _ => True

theorem open_briStatus (l : Light) : (openTheLights l).1.briStatus = lightOn := rfl

theorem close_briStatus (l : Light) : (closeTheLights l).1.briStatus = lightOff := rfl

theorem toggle_binary (l : Light) :
    (toggleTheLights l).1.briStatus = lightOff ∨ (toggleTheLights l).1.briStatus = lightOn := by
  rw [toggleTheLights]
  split
  · exact .inl (close_briStatus l)
  · exact .inr (open_briStatus l)

theorem rmakerInit_binary (l : Light) :
    (dimmerRmakerInit l).1.briStatus = lightOff ∨ (dimmerRmakerInit l).1.briStatus = lightOn := by
  rw [dimmerRmakerInit]
  split
  · exact .inr (open_briStatus l)
  · exact .inl (close_briStatus l)

theorem powerWrite_binary (b : Bool) (l : Light) :
    (writeCb (.power b) l).1.briStatus = lightOff ∨
      (writeCb (.power b) l).1.briStatus = lightOn := by
  cases b with
  | true => exact .inr (open_briStatus l)
  | false => exact .inl (close_briStatus l)

/-- A switch frame leaves its byte in `Bri_Status`. -/
theorem onOffFrame_briStatus (w dat : UInt8) (l : Light) :
    (dealFrame w ⟨onOffCmd, dat⟩ l).1.briStatus = dat.toUInt16 := by
  by_cases h : l.Matches dat
  · rw [dealOnOff_of_matches h]
    exact h.symm
  · have hnew : dat.toUInt16 ≠ getBriStatus l := h
    show (dealOnOff w ⟨onOffCmd, dat⟩ l).1.briStatus = dat.toUInt16
    rw [dealOnOff, if_pos hnew]
    rfl

/-- **One step keeps the readers in agreement exactly when** it is no
frame with another byte than 0 or 1. -/
theorem switchStep_agree {w : UInt8} {s s' : Switch} {a : SwitchAct}
    (h : ReadersAgree w s.light) (hs : switchStep w s a = some s') :
    ReadersAgree w s'.light ↔ BinaryFrame a := by
  cases a with
  | onOffFrame dat =>
      cases hs
      rw [readersAgree_iff]
      show (dealFrame w ⟨onOffCmd, dat⟩ s.light).1.briStatus = lightOff ∨
        (dealFrame w ⟨onOffCmd, dat⟩ s.light).1.briStatus = lightOn ↔ dat = 0 ∨ dat = 1
      rw [onOffFrame_briStatus]
      exact or_congr (UInt8.toUInt16_inj (b := 0)) (UInt8.toUInt16_inj (b := 1))
  | powerWrite b =>
      cases hs
      exact iff_of_true ((readersAgree_iff w _).mpr (powerWrite_binary b s.light)) trivial
  | toggleTheLights =>
      cases hs
      exact iff_of_true ((readersAgree_iff w _).mpr (toggle_binary s.light)) trivial
  | dimmerRmakerInit =>
      cases hs
      exact iff_of_true ((readersAgree_iff w _).mpr (rmakerInit_binary s.light)) trivial
  | sendBriCtrlInfo c =>
      cases hs
      exact iff_of_true h trivial
  | task =>
      obtain ⟨r, _, rfl⟩ := Option.map_eq_some_iff.mp hs
      exact iff_of_true h trivial
  | rxFlag b =>
      cases hs
      exact iff_of_true h trivial

/-- **All readers agree on whether the light is on exactly in the runs**
whose switch frames carry 0 or 1. -/
theorem readers_agree_iff (w : UInt8) (as : List SwitchAct) :
    Always (switchStep w) (fun s => ReadersAgree w s.light) Switch.boot as ↔
      Guarded (switchStep w) (fun _ a => BinaryFrame a) Switch.boot as :=
  always_iff_guarded (I := fun _ => True) (fun _ _ _ _ _ => trivial)
    (fun _ _ _ _ h hs => switchStep_agree h hs) as trivial
    ((readersAgree_iff w Light.boot).mpr (.inl rfl))

/-- Switched on with the byte 2, the light is on for the cloud and off
for the knob. -/
theorem readers_disagree_on_two :
    ¬ ∀ (w : UInt8) (as : List SwitchAct),
      Always (switchStep w) (fun s => ReadersAgree w s.light) Switch.boot as := by
  intro h
  have hend := (h 1 [.onOffFrame 2]).2 _ rfl
  have hone : ¬ (⟨2, 0, 100, 50⟩ : Light).IsOne := by
    show ¬ (1 : UInt16) = 2
    decide
  exact hone (hend.isOne.mpr (by decide))

end LiveWireSwitch
