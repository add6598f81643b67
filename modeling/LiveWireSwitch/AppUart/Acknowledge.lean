import LiveWireSwitch.AppUart.Bursts
import LiveWireSwitch.AppUart.SendTask

/-!
# AppUart — Acknowledge

What `uart_deal_with` answers. The `OnOffCMD` and `BriNowCMD` branches
compare the data byte with the present value first, and where it is the
same they only release the power lock. So it is the obeyed frames that
are acknowledged, and a repeated frame is one only if the first had no
lasting effect.
-/

namespace LiveWireSwitch

/-! ## One frame -/

theorem writtenFrames_acknowledge (cmd : UInt8) (es : List Effect) :
    writtenFrames (acknowledge cmd ++ es) = ackFrame cmd :: writtenFrames es := rfl

theorem rxFlagAfter_acknowledge (cmd : UInt8) (es : List Effect) (rxFlag : Bool) :
    rxFlagAfter (acknowledge cmd ++ es) rxFlag = rxFlagAfter es false := rfl

/-- Passing a command on writes no frame and leaves the flag. -/
theorem onward_silent {es : List Effect} (h : ∀ e ∈ es, e.Onward) :
    writtenFrames es = [] ∧ ∀ rxFlag, rxFlagAfter es rxFlag = rxFlag := by
  induction es with
  | nil => exact ⟨rfl, fun _ => rfl⟩
  | cons e es ih =>
      have hrest := ih fun e' he => h e' (List.mem_cons_of_mem e he)
      have he := h e List.mem_cons_self
      cases e with
      | sendBriCtrlInfo _ => exact hrest
      | espRmakerUpdate _ _ => exact hrest
      | espRmakerFactoryReset _ _ => exact hrest
      | _ => exact he.elim

theorem idle_silent {es : List Effect} (h : ∀ e ∈ es, e = .startPowerSave) :
    writtenFrames es = [] ∧ ∀ rxFlag, rxFlagAfter es rxFlag = rxFlag := by
  obtain ⟨n, rfl⟩ : ∃ n, es = List.replicate n .startPowerSave :=
    ⟨es.length, List.eq_replicate_of_mem h⟩
  induction n with
  | zero => exact ⟨rfl, fun _ => rfl⟩
  | succ n ih => exact ih fun e he => List.eq_of_mem_replicate he

/-- The answer to a frame. -/
theorem writtenFrames_dealFrame (w : UInt8) (c : Cmd) (l : Light) :
    writtenFrames (dealFrame w c l).2 = if Obeys l c then [ackFrame c.cmd] else [] := by
  rcases dealFrame_cases w c l with ⟨hob, es, hes, hon⟩ | ⟨hob, _, hes⟩
  · rw [if_pos hob, hes, writtenFrames_acknowledge, (onward_silent hon).1]
  · rw [if_neg hob, (idle_silent hes).1]

/-- The flag a waiting sender looks at, after a frame. -/
theorem rxFlagAfter_dealFrame (w : UInt8) (c : Cmd) (l : Light) (rxFlag : Bool) :
    rxFlagAfter (dealFrame w c l).2 rxFlag = if Obeys l c then false else rxFlag := by
  rcases dealFrame_cases w c l with ⟨hob, es, hes, hon⟩ | ⟨hob, _, hes⟩
  · rw [if_pos hob, hes, rxFlagAfter_acknowledge, (onward_silent hon).2]
  · rw [if_neg hob, (idle_silent hes).2]

/-! ## The frames of a buffer -/

/-- Frames with the light state each of them meets. -/
def met (w : UInt8) : List Cmd → Light → List (Light × Cmd)
  | [], _ => []
  | c :: cs, l => (l, c) :: met w cs (dealFrame w c l).1

theorem rxFlagAfter_append (es fs : List Effect) (rxFlag : Bool) :
    rxFlagAfter (es ++ fs) rxFlag = rxFlagAfter fs (rxFlagAfter es rxFlag) := List.foldl_append

theorem writtenFrames_dealAll (w : UInt8) (cs : List Cmd) (l : Light) :
    writtenFrames (dealAll w cs l).2
      = ((met w cs l).filter fun m => decide (Obeys m.1 m.2)).map fun m => ackFrame m.2.cmd := by
  induction cs generalizing l with
  | nil => rfl
  | cons c cs ih =>
      simp only [dealAll, met, writtenFrames_append, writtenFrames_dealFrame, ih]
      by_cases hob : Obeys l c
      · simp only [List.filter_cons, hob, decide_true, if_true, List.map_cons, List.cons_append,
          List.nil_append]
      · simp only [List.filter_cons, hob, decide_false, Bool.false_eq_true, if_false,
          List.nil_append]

/-! ## A repeated frame -/

/-- A frame leaves the light as it is, or as it asks for. -/
theorem dealFrame_settles (w : UInt8) (c : Cmd) (l : Light) :
    (dealFrame w c l).1 = l ∨ ¬ Obeys (dealFrame w c l).1 c := by
  by_cases h0 : c.cmd = onOffCmd
  · by_cases hd : c.dat.toUInt16 ≠ getBriStatus l
    · right
      rw [obeys_onOff h0, not_not]
      simp only [dealFrame, if_pos h0, dealOnOff, if_pos hd]
      rfl
    · exact .inl (by simp only [dealFrame, if_pos h0, dealOnOff, if_neg hd])
  by_cases h1 : c.cmd = briNowCmd
  · by_cases hd : c.dat.toUInt32 ≠ getBtightPct l ∧ c.dat ≤ 100
    · simp only [dealFrame, if_neg h0, if_pos h1, dealBriNow, if_pos hd.1, if_pos hd.2]
      rcases setBtightPct_cases c.dat.toUInt32 l with ⟨he, _⟩ | ⟨b, hb, _, _, he⟩
      · exact .inl (by rw [he])
      · right
        rw [he, obeys_briNow h1, not_not, ← hb]
        rfl
    · left
      simp only [dealFrame, if_neg h0, if_pos h1, dealBriNow]
      split
      · rw [if_neg fun h100 => hd ⟨‹_›, h100⟩]
      · rfl
  · left
    simp only [dealFrame, if_neg h0, if_neg h1, dealWifiReset]
    split <;> rfl

/-- Handled again at once, a frame changes nothing more. -/
theorem dealFrame_twice (w : UInt8) (c : Cmd) (l : Light) :
    (dealFrame w c (dealFrame w c l).1).1 = (dealFrame w c l).1 := by
  rcases dealFrame_settles w c l with h | h
  · rw [h, h]
  · rcases dealFrame_cases w c (dealFrame w c l).1 with ⟨hob, _⟩ | ⟨_, hl, _⟩
    · exact absurd hob h
    · exact hl

/-- A frame not obeyed is not obeyed the second time either. -/
theorem obeys_of_twice {w : UInt8} {c : Cmd} {l : Light} (h : Obeys (dealFrame w c l).1 c) :
    Obeys l c := by
  rcases dealFrame_settles w c l with hl | hn
  · rwa [hl] at h
  · exact absurd h hn

/-- **The acknowledgements are those of the obeyed frames**, in order;
after one of these the flag is down, any other leaves it. Delivered a
second time, a frame leaves light and flag as the first time did, and is
acknowledged again only if it is still obeyed. -/
theorem acknowledges_obeyed (w : UInt8) (str : List UInt8) (num : UInt8) (l : Light) :
    writtenFrames (uartDealWith w str num l).2
        = ((met w ((headers str num).map (cmdAt str)) l).filter
            fun m => decide (Obeys m.1 m.2)).map (fun m => ackFrame m.2.cmd) ∧
      (∀ m ∈ met w ((headers str num).map (cmdAt str)) l, ∀ rxFlag,
        rxFlagAfter (dealFrame w m.2 m.1).2 rxFlag = if Obeys m.1 m.2 then false else rxFlag) ∧
      ∀ (c : Cmd) (rxFlag : Bool),
        (uartDataEvents w [received c, received c] l).1
            = (uartDataEvents w [received c] l).1 ∧
          rxFlagAfter (uartDataEvents w [received c, received c] l).2 rxFlag
            = rxFlagAfter (uartDataEvents w [received c] l).2 rxFlag ∧
          writtenFrames (uartDataEvents w [received c, received c] l).2
            = writtenFrames (uartDataEvents w [received c] l).2
              ++ if Obeys (uartDataEvents w [received c] l).1 c then [ackFrame c.cmd] else [] := by
  refine ⟨?_, fun m _ rxFlag => rxFlagAfter_dealFrame w m.2 m.1 rxFlag, fun c rxFlag => ?_⟩
  · rw [uartDealWith_eq, writtenFrames_dealAll]
  · have honce : uartDataEvents w [received c] l = dealFrame w c l := by
      simp only [uartDataEvents, uartDataEvent_received, List.append_nil]
    have htwice : uartDataEvents w [received c, received c] l
        = ((dealFrame w c (dealFrame w c l).1).1,
          (dealFrame w c l).2 ++ (dealFrame w c (dealFrame w c l).1).2) := by
      simp only [uartDataEvents, uartDataEvent_received, List.append_nil]
    rw [honce, htwice]
    refine ⟨dealFrame_twice w c l, ?_, ?_⟩
    · rw [rxFlagAfter_append, rxFlagAfter_dealFrame, rxFlagAfter_dealFrame]
      -- obeyed twice, the frame was obeyed once
      by_cases hob : Obeys l c
      · rw [if_pos hob]
        split <;> rfl
      · rw [if_neg hob, if_neg (mt obeys_of_twice hob)]
    · rw [writtenFrames_append, writtenFrames_dealFrame w c (dealFrame w c l).1]

/-- An off-frame for a light that is off goes unanswered. -/
theorem repeated_frame_unanswered :
    ¬ ∀ (w : UInt8) (str : List UInt8) (num : UInt8) (l : Light),
      writtenFrames (uartDealWith w str num l).2
        = (((headers str num).map (cmdAt str)).filter fun c => decide c.Known).map
            fun c => ackFrame c.cmd := by
  intro h
  have hack := h 1 (received ⟨onOffCmd, 0⟩) 5 Light.boot
  revert hack
  decide

end LiveWireSwitch
