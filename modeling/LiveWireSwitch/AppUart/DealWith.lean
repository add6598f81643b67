import LiveWireSwitch.BriCtrl
import LiveWireSwitch.Lib.Scan

/-!
# AppUart — DealWith

The receive side of `app_uart.c`: `uart_deal_with` scans the bytes of
one UART event for frames and handles each. Handling a frame changes the
light state and calls other parts of the firmware; the calls are
returned as a list of `Effect`s in program order, for the systems that
interpret them.

The last section reads the index loop as a scan of a byte sequence
(`headers_eq_scan`), which is how the framing results see it.
-/

namespace LiveWireSwitch

/-- What the functions of `app_uart.c` do outside the light state:
calls, and the one flag other tasks wait on. -/
inductive Effect where
  | stopPowerSave
  | startPowerSave
  | uartWriteBytes (b : Frame)
  | uartWaitTxDone
  /-- `ucRxTaskHandle_Flag = b` -/
  | ucRxTaskHandleFlag (b : Bool)
  | sendBriCtrlInfo (c : Cmd)
  | espRmakerUpdate (cmdTyed : UInt8) (dat : UInt32)
  | espRmakerFactoryReset (resetSeconds rebootSeconds : Int)
  | wakeupMcuInfoConfig
  | wakeupMcuInfo
  | waitForMcuInfoConfig
deriving DecidableEq, Repr

/-! ## Handling one frame -/

/-- The acknowledgement, as each branch has it: write it under the power
lock and let a waiting sender go on. -/
def acknowledge (cmd : UInt8) : List Effect :=
  [.stopPowerSave, .uartWriteBytes (ackFrame cmd), .uartWaitTxDone, .startPowerSave,
    .ucRxTaskHandleFlag false]

/-- `if (s_wifi_init_end_flag) esp_rmaker_update(cmd, dat);` -/
def forward (sWifiInitEndFlag : UInt8) (cmd : UInt8) (dat : UInt32) : List Effect :=
  if sWifiInitEndFlag ≠ 0 then [.espRmakerUpdate cmd dat] else []

/-- `case OnOffCMD` -/
def dealOnOff (sWifiInitEndFlag : UInt8) (c : Cmd) (l : Light) : Light × List Effect :=
  if c.dat.toUInt16 ≠ getBriStatus l then
    (setBriStatus c.dat.toUInt16 l,
      acknowledge c.cmd ++ forward sWifiInitEndFlag c.cmd (if c.dat ≠ 0 then 1 else 0))
  else (l, [.startPowerSave])

/-- `case BriNowCMD` -/
def dealBriNow (sWifiInitEndFlag : UInt8) (c : Cmd) (l : Light) : Light × List Effect :=
  if c.dat.toUInt32 ≠ getBtightPct l then
    if c.dat ≤ 100 then
      let r := setBtightPct c.dat.toUInt32 l
      (r.1, acknowledge c.cmd ++ r.2.map .sendBriCtrlInfo
        ++ forward sWifiInitEndFlag c.cmd c.dat.toUInt32)
    else (l, acknowledge c.cmd)
  else (l, [.startPowerSave])

/-- `#define REBOOT_DELAY 2` -/
def rebootDelay : Int := 2

/-- `case WIFIRESETCMD` -/
def dealWifiReset (c : Cmd) (l : Light) : Light × List Effect :=
  (l, acknowledge c.cmd ++ [.espRmakerFactoryReset 0 rebootDelay])

/-- The `switch (str[i + 2])` of `uart_deal_with`. -/
def dealFrame (sWifiInitEndFlag : UInt8) (c : Cmd) (l : Light) : Light × List Effect :=
  if c.cmd = onOffCmd then dealOnOff sWifiInitEndFlag c l
  else if c.cmd = briNowCmd then dealBriNow sWifiInitEndFlag c l
  else if c.cmd = wifiResetCmd then dealWifiReset c l
  else (l, [])

/-- The commands `uart_deal_with` has a case for. -/
def Cmd.Known (c : Cmd) : Prop :=
  c.cmd = onOffCmd ∨ c.cmd = briNowCmd ∨ c.cmd = wifiResetCmd

instance (c : Cmd) : Decidable c.Known := inferInstanceAs (Decidable (_ ∨ _ ∨ _))

theorem dealFrame_unknown {c : Cmd} (h : ¬ c.Known) (w : UInt8) (l : Light) :
    dealFrame w c l = (l, []) := by
  simp only [Cmd.Known, not_or] at h
  rw [dealFrame, if_neg h.1, if_neg h.2.1, if_neg h.2.2]

/-! ## What the effects leave behind -/

/-- `ucRxTaskHandle_Flag` after the effects. -/
def rxFlagAfter (es : List Effect) (rxFlag : Bool) : Bool :=
  es.foldl (fun f e => match e with
    | .ucRxTaskHandleFlag b => b
    | _ => f) rxFlag

/-- The commands among the effects that go to `send_bri_ctrl_info`. -/
def sentCmds (es : List Effect) : List Cmd :=
  es.filterMap fun e => match e with
    | .sendBriCtrlInfo c => some c
    | _ => none

@[simp] theorem sentCmds_append (es fs : List Effect) :
    sentCmds (es ++ fs) = sentCmds es ++ sentCmds fs := List.filterMap_append

@[simp] theorem sentCmds_map (cs : List Cmd) : sentCmds (cs.map .sendBriCtrlInfo) = cs := by
  induction cs with
  | nil => rfl
  | cons c cs ih => exact congrArg (c :: ·) ih

@[simp] theorem sentCmds_acknowledge (cmd : UInt8) : sentCmds (acknowledge cmd) = [] := rfl

@[simp] theorem sentCmds_forward (w cmd : UInt8) (dat : UInt32) :
    sentCmds (forward w cmd dat) = [] := by
  rw [forward]
  split <;> rfl

theorem dealFrame_briNow (w dat : UInt8) (l : Light) :
    dealFrame w ⟨briNowCmd, dat⟩ l = dealBriNow w ⟨briNowCmd, dat⟩ l := rfl

/-! ## The loop -/

/-- `str[i]`. The event task clears the rest of its buffer, so what lies
behind the bytes of the event is zero. -/
def byteAt (str : List UInt8) (i : Nat) : UInt8 := str.getD i 0

/-- `i < num - 4`, computed in `int`. -/
def inBuffer (num i : UInt8) : Prop := (i.toNat : Int) < (num.toNat : Int) - 4

instance (num i : UInt8) : Decidable (inBuffer num i) := inferInstanceAs (Decidable (_ < _))

/-- `ReceivedHead1 == str[i] && ReceivedHead2 == str[i+1]` -/
def headerAt (str : List UInt8) (i : Nat) : Prop :=
  receivedHead1 = byteAt str i ∧ receivedHead2 = byteAt str (i + 1)

instance (str : List UInt8) (i : Nat) : Decidable (headerAt str i) :=
  inferInstanceAs (Decidable (_ ∧ _))

/-- `str[i+2]` and `str[i+3]`. -/
def cmdAt (str : List UInt8) (i : Nat) : Cmd := ⟨byteAt str (i + 2), byteAt str (i + 3)⟩

/-- The `for` loop from index `i` on; the index is a `uint8_t`. The
first argument bounds the number of passes. -/
def uartDealWithFrom (w : UInt8) (str : List UInt8) (num : UInt8) :
    Nat → UInt8 → Light → Light × List Effect
  | 0, _, l => (l, [])
  | passes + 1, i, l =>
      if inBuffer num i then
        if headerAt str i.toNat then
          let r := dealFrame w (cmdAt str i.toNat) l
          let r' := uartDealWithFrom w str num passes (i + 4) r.1
          (r'.1, r.2 ++ r'.2)
        else uartDealWithFrom w str num passes (i + 1) l
      else (l, [])

/-- The passes an eight-bit index can make without coming back to where
it was. -/
def maxPasses : Nat := 256

/-- `uart_deal_with(str, num)` in a light state, with the value of
`s_wifi_init_end_flag` it sees. -/
def uartDealWith (w : UInt8) (str : List UInt8) (num : UInt8) (l : Light) :
    Light × List Effect :=
  uartDealWithFrom w str num maxPasses 0 l

/-! ## The frames the loop finds -/

/-- The offsets at which the loop finds a header. -/
def headersFrom (str : List UInt8) (num : UInt8) : Nat → UInt8 → List Nat
  | 0, _ => []
  | passes + 1, i =>
      if inBuffer num i then
        if headerAt str i.toNat then
          i.toNat :: headersFrom str num passes (i + 4)
        else headersFrom str num passes (i + 1)
      else []

def headers (str : List UInt8) (num : UInt8) : List Nat := headersFrom str num maxPasses 0

/-- Frames handled one after the other. -/
def dealAll (w : UInt8) : List Cmd → Light → Light × List Effect
  | [], l => (l, [])
  | c :: cs, l =>
      let r := dealFrame w c l
      let r' := dealAll w cs r.1
      (r'.1, r.2 ++ r'.2)

theorem uartDealWithFrom_eq (w : UInt8) (str : List UInt8) (num : UInt8) (passes : Nat)
    (i : UInt8) (l : Light) :
    uartDealWithFrom w str num passes i l
      = dealAll w ((headersFrom str num passes i).map (cmdAt str)) l := by
  induction passes generalizing i l with
  | zero => rfl
  | succ passes ih =>
      rw [uartDealWithFrom, headersFrom]
      by_cases hin : inBuffer num i
      · by_cases hh : headerAt str i.toNat
        · simp only [if_pos hin, if_pos hh, List.map_cons, dealAll, ih]
        · simp only [if_pos hin, if_neg hh, ih]
      · simp only [if_neg hin, List.map_nil, dealAll]

/-- **`uart_deal_with` is its frames handled in order.** -/
theorem uartDealWith_eq (w : UInt8) (str : List UInt8) (num : UInt8) (l : Light) :
    uartDealWith w str num l = dealAll w ((headers str num).map (cmdAt str)) l :=
  uartDealWithFrom_eq w str num maxPasses 0 l

theorem dealAll_append (w : UInt8) (cs ds : List Cmd) (l : Light) :
    dealAll w (cs ++ ds) l
      = ((dealAll w ds (dealAll w cs l).1).1,
          (dealAll w cs l).2 ++ (dealAll w ds (dealAll w cs l).1).2) := by
  induction cs generalizing l with
  | nil => rfl
  | cons c cs ih => simp only [List.cons_append, dealAll, ih, List.append_assoc]

/-- Frames without a case leave no trace. -/
theorem dealAll_filter_known (w : UInt8) (cs : List Cmd) (l : Light) :
    dealAll w (cs.filter fun c => decide c.Known) l = dealAll w cs l := by
  induction cs generalizing l with
  | nil => rfl
  | cons c cs ih =>
      by_cases hk : c.Known
      · simp only [List.filter_cons, hk, decide_true, if_true, dealAll, ih]
      · simp only [List.filter_cons, hk, decide_false, Bool.false_eq_true, if_false, dealAll,
          dealFrame_unknown hk, List.nil_append, ih]

/-! ## The loop bounds -/

theorem inBuffer_iff {num i : UInt8} : inBuffer num i ↔ i.toNat + 5 ≤ num.toNat := by
  rw [inBuffer]
  omega

/-- Neither stride wraps the index while the loop test holds. -/
theorem toNat_add_of_inBuffer {num i : UInt8} (h : inBuffer num i) {d : UInt8}
    (hd : d.toNat ≤ 4) : (i + d).toNat = i.toNat + d.toNat := by
  have hn := UInt8.toNat_lt num
  rw [inBuffer_iff] at h
  rw [UInt8.toNat_add]
  omega

/-! ## The loop as a scan -/

/-- The header test on a byte sequence. -/
def frameHit : List UInt8 → Option Cmd
  | a :: b :: c :: d :: _ =>
      if receivedHead1 = a ∧ receivedHead2 = b then some ⟨c, d⟩ else none
  | _ => none

theorem frameHit_take (xs : List UInt8) : frameHit (xs.take 5) = frameHit xs := by
  match xs with
  | [] => rfl
  | [_] => rfl
  | [_, _] => rfl
  | [_, _, _] => rfl
  | _ :: _ :: _ :: _ :: _ => rfl

/-- The scanner of `uart_deal_with`: a window of five bytes, and a
stride of only four after a header. -/
def frameScanner : Lib.Scanner UInt8 Cmd where
  window := 5
  stride := 4
  hit := frameHit
  stride_pos := by decide
  stride_le := by decide
  hit_take := frameHit_take

theorem frameHit_drop {str : List UInt8} {i : Nat} (h : i + 5 ≤ str.length) :
    frameHit (str.drop i) = if headerAt str i then some (cmdAt str i) else none := by
  have hget : ∀ k, k < 4 → str.getD (i + k) 0 = (str.drop i).getD k 0 := by
    intro k _
    simp [List.getD_eq_getElem?_getD, List.getElem?_drop]
  have h0 := hget 0 (by omega)
  have h1 := hget 1 (by omega)
  have h2 := hget 2 (by omega)
  have h3 := hget 3 (by omega)
  have hlen : 5 ≤ (str.drop i).length := by rw [List.length_drop]; omega
  match hx : str.drop i, hlen with
  | a :: b :: c :: d :: _, _ =>
      simp only [hx, Nat.add_zero, List.getD_cons_zero, List.getD_cons_succ] at h0 h1 h2 h3
      simp only [frameHit, headerAt, cmdAt, byteAt, h0, h1, h2, h3]

/-- Where the loop test holds, header and command are read from the
first `num` bytes. -/
theorem frameHit_drop_take {str : List UInt8} {num i : UInt8} (hnum : num.toNat ≤ str.length)
    (hin : inBuffer num i) :
    frameHit ((str.take num.toNat).drop i.toNat)
      = if headerAt str i.toNat then some (cmdAt str i.toNat) else none := by
  have hle := inBuffer_iff.mp hin
  have hbyte : ∀ {k : Nat}, k < num.toNat → byteAt (str.take num.toNat) k = byteAt str k := by
    intro k hk
    simp [byteAt, List.getD_eq_getElem?_getD, hk]
  have hhead : headerAt (str.take num.toNat) i.toNat ↔ headerAt str i.toNat := by
    rw [headerAt, headerAt, hbyte (by omega), hbyte (by omega)]
  have hcmd : cmdAt (str.take num.toNat) i.toNat = cmdAt str i.toNat := by
    rw [cmdAt, cmdAt, hbyte (by omega), hbyte (by omega)]
  have hlen : i.toNat + 5 ≤ (str.take num.toNat).length := by
    rw [List.length_take_of_le hnum]
    exact hle
  rw [frameHit_drop hlen]
  simp only [hhead, hcmd]

/-- The loop and the scanner find the same frames, given passes
enough. -/
theorem headersFrom_eq_scanFrom {str : List UInt8} {num : UInt8} (hnum : num.toNat ≤ str.length)
    (passes : Nat) (i : UInt8) (hp : num.toNat < i.toNat + passes + 5) :
    (headersFrom str num passes i).map (fun j => (j, cmdAt str j))
      = frameScanner.scanFrom i.toNat ((str.take num.toNat).drop i.toNat) := by
  have hrest : ∀ j, ((str.take num.toNat).drop j).length = num.toNat - j := by
    intro j
    rw [List.length_drop, List.length_take_of_le hnum]
  have hshort : ∀ {j : Nat}, num.toNat < j + 5 →
      frameScanner.scanFrom j ((str.take num.toNat).drop j) = [] := by
    intro j hj
    refine Lib.Scanner.scanFrom_short ?_
    rw [hrest]
    show num.toNat - j < 5
    omega
  induction passes generalizing i with
  | zero =>
      -- out of passes only with less than a window left
      rw [headersFrom, List.map_nil, hshort (by omega)]
  | succ passes ih =>
      rw [headersFrom]
      by_cases hin : inBuffer num i
      · have hle := inBuffer_iff.mp hin
        have hwin : frameScanner.window ≤ ((str.take num.toNat).drop i.toNat).length := by
          rw [hrest]
          show 5 ≤ num.toNat - i.toNat
          omega
        have hhit : frameScanner.hit ((str.take num.toNat).drop i.toNat)
            = if headerAt str i.toNat then some (cmdAt str i.toNat) else none :=
          frameHit_drop_take hnum hin
        by_cases hh : headerAt str i.toNat
        · -- a header: both go on four bytes further
          rw [if_pos hh] at hhit
          have h4 := toNat_add_of_inBuffer hin (d := 4) (by decide)
          rw [if_pos hin, if_pos hh, List.map_cons, ih (i + 4) (by rw [h4]; simp; omega),
            Lib.Scanner.scanFrom_hit hwin hhit, List.drop_drop, h4]
          rfl
        · rw [if_neg hh] at hhit
          have h1 := toNat_add_of_inBuffer hin (d := 1) (by decide)
          rw [if_pos hin, if_neg hh, ih (i + 1) (by rw [h1]; simp; omega),
            Lib.Scanner.scanFrom_miss hwin hhit, List.drop_drop, h1]
          rfl
      · rw [if_neg hin, List.map_nil, hshort]
        have := mt inBuffer_iff.mpr hin
        omega

/-- **The index loop is the scan of the first `num` bytes.** -/
theorem headers_eq_scan {str : List UInt8} {num : UInt8} (hnum : num.toNat ≤ str.length) :
    (headers str num).map (fun j => (j, cmdAt str j))
      = frameScanner.scanFrom 0 (str.take num.toNat) := by
  have hn := UInt8.toNat_lt num
  have h := headersFrom_eq_scanFrom hnum maxPasses 0
    (by simp only [maxPasses, UInt8.toNat_zero]; omega)
  rw [headers, h, UInt8.toNat_zero, List.drop_zero]

end LiveWireSwitch
