import LiveWireSwitch.AppUart.DealWith

/-!
# AppUart — Framing

What `uart_deal_with` takes for a frame. The parser keeps nothing from
one UART event to the next (the buffer meant for that, `ucReceiveData`,
is commented out) and never looks at a received checksum. So a frame is
found only when its five bytes lie in one event, and four bytes decide
what is done.
-/

namespace LiveWireSwitch

/-! ## One event after another -/

/-- A `UART_DATA` event: `uart_deal_with(dtmp, event.size)` on the bytes
of the event, the size passed as a `uint8_t`. -/
def uartDataEvent (w : UInt8) (bytes : List UInt8) (l : Light) : Light × List Effect :=
  uartDealWith w bytes (UInt8.ofNat bytes.length) l

/-- The `(cmd, dat)` pairs of an event that reach a case of the
`switch`, in order. -/
def actedOn (bytes : List UInt8) : List Cmd :=
  ((headers bytes (UInt8.ofNat bytes.length)).map (cmdAt bytes)).filter
    fun c => decide c.Known

/-- The events `uart_event_task` takes from its queue, one by one. -/
def uartDataEvents (w : UInt8) : List (List UInt8) → Light → Light × List Effect
  | [], l => (l, [])
  | bytes :: events, l =>
      let r := uartDataEvent w bytes l
      let r' := uartDataEvents w events r.1
      (r'.1, r.2 ++ r'.2)

/-- The pairs acted on determine everything the events do. -/
theorem uartDataEvents_eq (w : UInt8) (events : List (List UInt8)) (l : Light) :
    uartDataEvents w events l = dealAll w (events.flatMap actedOn) l := by
  induction events generalizing l with
  | nil => rfl
  | cons bytes events ih =>
      have hhead : uartDataEvent w bytes l = dealAll w (actedOn bytes) l := by
        rw [uartDataEvent, uartDealWith_eq, actedOn, dealAll_filter_known]
      simp only [uartDataEvents, List.flatMap_cons, dealAll_append, hhead, ih]

/-! ## Cutting the stream -/

/-- A cutting of a stream into the events the driver can make of it. -/
structure Cutting (stream : List UInt8) (events : List (List UInt8)) : Prop where
  whole : events.flatten = stream
  sizes : ∀ bytes ∈ events, 1 ≤ bytes.length ∧ bytes.length ≤ 255

instance (stream : List UInt8) (events : List (List UInt8)) :
    Decidable (Cutting stream events) :=
  decidable_of_iff (events.flatten = stream ∧
    ∀ bytes ∈ events, 1 ≤ bytes.length ∧ bytes.length ≤ 255)
    ⟨fun h => ⟨h.1, h.2⟩, fun h => ⟨h.whole, h.sizes⟩⟩

/-- The frames of an uncut stream, with their offsets. -/
def frames (stream : List UInt8) : List (Nat × Cmd) := frameScanner.scanFrom 0 stream

/-- No cut falls inside the five bytes of a frame of the stream. -/
def KeepsFrames (stream : List UInt8) (events : List (List UInt8)) : Prop :=
  ∀ p ∈ Lib.Scanner.cuts 0 events, Lib.Scanner.Clear (frames stream) 5 p

/-- On a stream of at most one event the index loop finds the frames. -/
theorem frames_eq_headers {stream : List UInt8} (h : stream.length ≤ 255) :
    frames stream
      = (headers stream (UInt8.ofNat stream.length)).map fun j => (j, cmdAt stream j) := by
  have hnum : (UInt8.ofNat stream.length).toNat = stream.length := by
    rw [UInt8.toNat_ofNat']
    omega
  rw [headers_eq_scan (Nat.le_of_eq hnum), hnum, List.take_length, frames]

theorem actedOn_eq_scan {bytes : List UInt8} (h : bytes.length ≤ 255) :
    actedOn bytes = (frameScanner.scan bytes).filter fun c => decide c.Known := by
  rw [actedOn, Lib.Scanner.scan, ← frames, frames_eq_headers h, List.map_map]
  rfl

/-- **A cutting that keeps the frames gives the frames of the
stream.** -/
theorem Cutting.actedOn_eq {stream : List UInt8} {events : List (List UInt8)}
    (h : Cutting stream events) (hk : KeepsFrames stream events) :
    events.flatMap actedOn
      = ((frames stream).map Prod.snd).filter fun c => decide c.Known := by
  have hevents : events.flatMap actedOn
      = (events.flatMap frameScanner.scan).filter fun c => decide c.Known := by
    rw [List.filter_flatMap]
    exact List.flatMap_congr fun bytes hb => actedOn_eq_scan (h.sizes bytes hb).2
  have hclear : ∀ p ∈ Lib.Scanner.cuts 0 events,
      Lib.Scanner.Clear (frameScanner.scanFrom 0 events.flatten) frameScanner.window p := by
    rw [h.whole]
    exact hk
  rw [hevents, ← Lib.Scanner.scan_flatten hclear, h.whole]
  rfl

/-- What such a cutting does to the light, and which calls it makes, can
be read off the stream. -/
theorem Cutting.uartDataEvents_eq {stream : List UInt8} {events : List (List UInt8)}
    (h : Cutting stream events) (hk : KeepsFrames stream events) (w : UInt8) (l : Light) :
    uartDataEvents w events l = dealAll w ((frames stream).map Prod.snd) l := by
  rw [LiveWireSwitch.uartDataEvents_eq, h.actedOn_eq hk, dealAll_filter_known]

/-- **Framing is independent of the cutting as long as no cut falls
inside a frame**: two such cuttings of a stream make the parser act on
the same pairs. -/
theorem actedOn_cut_invariant {stream : List UInt8} {events₁ events₂ : List (List UInt8)}
    (h₁ : Cutting stream events₁) (h₂ : Cutting stream events₂)
    (hk₁ : KeepsFrames stream events₁) (hk₂ : KeepsFrames stream events₂) :
    events₁.flatMap actedOn = events₂.flatMap actedOn := by
  rw [h₁.actedOn_eq hk₁, h₂.actedOn_eq hk₂]

/-- An on-frame and a brightness frame, in one event or one each. -/
theorem actedOn_cut_invariant_two_frames :
    [[0x55, 0xaa, 0x00, 0x01, 0x00, 0x55, 0xaa, 0x01, 0x32, 0x32]].flatMap actedOn
      = [[0x55, 0xaa, 0x00, 0x01, 0x00], [0x55, 0xaa, 0x01, 0x32, 0x32]].flatMap actedOn := by
  have hone : Cutting [0x55, 0xaa, 0x00, 0x01, 0x00, 0x55, 0xaa, 0x01, 0x32, 0x32]
      [[0x55, 0xaa, 0x00, 0x01, 0x00, 0x55, 0xaa, 0x01, 0x32, 0x32]] := by decide
  have htwo : Cutting [0x55, 0xaa, 0x00, 0x01, 0x00, 0x55, 0xaa, 0x01, 0x32, 0x32]
      [[0x55, 0xaa, 0x00, 0x01, 0x00], [0x55, 0xaa, 0x01, 0x32, 0x32]] := by decide
  refine actedOn_cut_invariant hone htwo ?_ ?_
  · rw [KeepsFrames, frames_eq_headers (by decide)]
    decide
  · rw [KeepsFrames, frames_eq_headers (by decide)]
    decide

/-- A cut between the two header bytes makes the parser lose the
frame. -/
theorem actedOn_depends_on_cut :
    ¬ ∀ (stream : List UInt8) (events₁ events₂ : List (List UInt8)),
      Cutting stream events₁ → Cutting stream events₂ →
        events₁.flatMap actedOn = events₂.flatMap actedOn := by
  intro h
  have := h [0x55, 0xaa, 0x00, 0x01, 0x00] [[0x55, 0xaa, 0x00, 0x01, 0x00]]
    [[0x55], [0xaa, 0x00, 0x01, 0x00]] (by decide) (by decide)
  revert this
  decide

/-! ## What makes the loop execute a command -/

/-- One pass of the loop: the index it looks at, the light state before
and after it, and the calls it makes. -/
structure Pass where
  index : Nat
  before : Light
  after : Light
  effects : List Effect

/-- The passes the loop makes, pass by pass as in `uartDealWithFrom`. -/
def passesFrom (w : UInt8) (str : List UInt8) (num : UInt8) :
    Nat → UInt8 → Light → List Pass
  | 0, _, _ => []
  | passes + 1, i, l =>
      if inBuffer num i then
        if headerAt str i.toNat then
          let r := dealFrame w (cmdAt str i.toNat) l
          ⟨i.toNat, l, r.1, r.2⟩ :: passesFrom w str num passes (i + 4) r.1
        else ⟨i.toNat, l, l, []⟩ :: passesFrom w str num passes (i + 1) l
      else []

/-- The passes of `uart_deal_with(str, num)`. -/
def passes (w : UInt8) (str : List UInt8) (num : UInt8) (l : Light) : List Pass :=
  passesFrom w str num maxPasses 0 l

/-- The calls of the loop are those of its passes. -/
theorem effects_eq_passesFrom (w : UInt8) (str : List UInt8) (num : UInt8) (n : Nat) (i : UInt8)
    (l : Light) :
    (uartDealWithFrom w str num n i l).2 = (passesFrom w str num n i l).flatMap Pass.effects := by
  induction n generalizing i l with
  | zero => rfl
  | succ n ih =>
      rw [uartDealWithFrom, passesFrom]
      by_cases hin : inBuffer num i
      · by_cases hh : headerAt str i.toNat
        · simp only [if_pos hin, if_pos hh, List.flatMap_cons, ih]
        · simp only [if_pos hin, if_neg hh, List.flatMap_cons, ih, List.nil_append]
      · simp only [if_neg hin, List.flatMap_nil]

/-- The light goes through the passes: each begins with what the one before
has left. -/
theorem light_passesFrom (w : UInt8) (str : List UInt8) (num : UInt8) (n : Nat) (i : UInt8)
    (l : Light) :
    (passesFrom w str num n i l).map Pass.before ++ [(uartDealWithFrom w str num n i l).1] =
      l :: (passesFrom w str num n i l).map Pass.after := by
  induction n generalizing i l with
  | zero => rfl
  | succ n ih =>
      rw [uartDealWithFrom, passesFrom]
      by_cases hin : inBuffer num i
      · by_cases hh : headerAt str i.toNat
        · simp only [if_pos hin, if_pos hh, List.map_cons, List.cons_append, ih]
        · simp only [if_pos hin, if_neg hh, List.map_cons, List.cons_append, ih]
      · simp only [if_neg hin, List.map_nil, List.nil_append]

/-- **The passes are what `uart_deal_with` does**: their calls, and the
light they lead to. -/
theorem uartDealWith_eq_passes (w : UInt8) (str : List UInt8) (num : UInt8) (l : Light) :
    (uartDealWith w str num l).2 = (passes w str num l).flatMap Pass.effects ∧
      (passes w str num l).map Pass.before ++ [(uartDealWith w str num l).1] =
        l :: (passes w str num l).map Pass.after :=
  ⟨effects_eq_passesFrom w str num maxPasses 0 l, light_passesFrom w str num maxPasses 0 l⟩

/-- What counts as executing a command: the light changes, an
acknowledgement is written, or the device is reset. -/
def Pass.Executes (p : Pass) : Prop :=
  p.after.briStatus ≠ p.before.briStatus ∨ p.after.briNowPct ≠ p.before.briNowPct ∨
    (∃ b, .uartWriteBytes b ∈ p.effects) ∨
      .espRmakerFactoryReset 0 rebootDelay ∈ p.effects

/-- The frames a light state obeys: a switch command or a brightness
that is not what it has, and the reset command. -/
def Obeys (l : Light) (c : Cmd) : Prop :=
  c.cmd = onOffCmd ∧ c.dat.toUInt16 ≠ getBriStatus l ∨
    c.cmd = briNowCmd ∧ c.dat.toUInt32 ≠ getBtightPct l ∨ c.cmd = wifiResetCmd

instance (l : Light) (c : Cmd) : Decidable (Obeys l c) :=
  inferInstanceAs (Decidable (_ ∧ _ ∨ _ ∧ _ ∨ _))

theorem obeys_onOff {c : Cmd} (h : c.cmd = onOffCmd) (l : Light) :
    Obeys l c ↔ c.dat.toUInt16 ≠ getBriStatus l := by
  simp [Obeys, h, onOffCmd, briNowCmd, wifiResetCmd]

theorem obeys_briNow {c : Cmd} (h : c.cmd = briNowCmd) (l : Light) :
    Obeys l c ↔ c.dat.toUInt32 ≠ getBtightPct l := by
  simp [Obeys, h, onOffCmd, briNowCmd, wifiResetCmd]

/-- A pass that leaves the light alone and writes nothing executes
nothing. -/
theorem not_executes_idle {i : Nat} {l : Light} {es : List Effect}
    (h : ∀ e ∈ es, e = .startPowerSave) : ¬ Pass.Executes ⟨i, l, l, es⟩ := by
  rintro (hs | hn | ⟨b, hb⟩ | hr)
  · exact hs rfl
  · exact hn rfl
  · cases h _ hb
  · cases h _ hr

/-- A pass that starts with an acknowledgement executes something. -/
theorem executes_of_acknowledge {i : Nat} {l l' : Light} {cmd : UInt8} {es : List Effect} :
    Pass.Executes ⟨i, l, l', acknowledge cmd ++ es⟩ := by
  refine .inr (.inr (.inl ⟨ackFrame cmd, ?_⟩))
  exact List.mem_append_left _ (by simp [acknowledge])

/-- The effects that pass a command on to the rest of the firmware. -/
def Effect.Onward : Effect → Prop
  | .sendBriCtrlInfo _ | .espRmakerUpdate _ _ | .espRmakerFactoryReset _ _ => True
  | _ => False

theorem onward_forward {w cmd : UInt8} {dat : UInt32} : ∀ e ∈ forward w cmd dat, e.Onward := by
  intro e he
  rw [forward] at he
  split at he
  · rw [List.mem_singleton.mp he]
    trivial
  · cases he

/-- **A frame is obeyed or has no effect**: obeyed, it is acknowledged
first and passed on after that. -/
theorem dealFrame_cases (w : UInt8) (c : Cmd) (l : Light) :
    (Obeys l c ∧ ∃ es, (dealFrame w c l).2 = acknowledge c.cmd ++ es ∧ ∀ e ∈ es, e.Onward) ∨
      (¬ Obeys l c ∧ (dealFrame w c l).1 = l ∧
        ∀ e ∈ (dealFrame w c l).2, e = .startPowerSave) := by
  by_cases h0 : c.cmd = onOffCmd
  · rw [obeys_onOff h0]
    by_cases hd : c.dat.toUInt16 ≠ getBriStatus l
    · simp only [dealFrame, if_pos h0, dealOnOff, if_pos hd]
      exact .inl ⟨hd, _, rfl, onward_forward⟩
    · -- the state the light is in already: only the lock is released
      simp only [dealFrame, if_pos h0, dealOnOff, if_neg hd]
      exact .inr ⟨hd, trivial, by simp⟩
  by_cases h1 : c.cmd = briNowCmd
  · rw [obeys_briNow h1]
    by_cases hd : c.dat.toUInt32 ≠ getBtightPct l
    · -- acknowledged, whether or not the value is taken
      refine .inl ⟨hd, ?_⟩
      by_cases h100 : c.dat ≤ 100
      · simp only [dealFrame, if_neg h0, if_pos h1, dealBriNow, if_pos hd, if_pos h100,
          List.append_assoc]
        refine ⟨_, rfl, fun e he => ?_⟩
        rcases List.mem_append.mp he with he | he
        · obtain ⟨c, _, rfl⟩ := List.mem_map.mp he
          trivial
        · exact onward_forward e he
      · simp only [dealFrame, if_neg h0, if_pos h1, dealBriNow, if_pos hd, if_neg h100]
        exact ⟨[], (List.append_nil _).symm, fun e he => by cases he⟩
    · simp only [dealFrame, if_neg h0, if_pos h1, dealBriNow, if_neg hd]
      exact .inr ⟨hd, trivial, by simp⟩
  by_cases h5 : c.cmd = wifiResetCmd
  · simp only [dealFrame, if_neg h0, if_neg h1, if_pos h5, dealWifiReset]
    refine .inl ⟨.inr (.inr h5), _, rfl, fun e he => ?_⟩
    rw [List.mem_singleton.mp he]
    trivial
  · have hk : ¬ c.Known := by simp [Cmd.Known, h0, h1, h5]
    rw [dealFrame_unknown hk]
    exact .inr ⟨by simp [Obeys, h0, h1, h5], rfl, by simp⟩

theorem executes_dealFrame (w : UInt8) (c : Cmd) (l : Light) (i : Nat) :
    Pass.Executes ⟨i, l, (dealFrame w c l).1, (dealFrame w c l).2⟩ ↔ Obeys l c := by
  rcases dealFrame_cases w c l with ⟨hob, es, hes, _⟩ | ⟨hob, hl, hes⟩
  · rw [hes]
    exact iff_of_true executes_of_acknowledge hob
  · rw [hl]
    exact iff_of_false (not_executes_idle hes) hob

/-- A pass looks at a header inside the buffer, or does nothing. -/
theorem passesFrom_cases {w : UInt8} {str : List UInt8} {num : UInt8} {n : Nat} {i : UInt8}
    {l : Light} {p : Pass} (hp : p ∈ passesFrom w str num n i l) :
    p.index + 5 ≤ num.toNat ∧
      (p.Executes ↔ headerAt str p.index ∧ Obeys p.before (cmdAt str p.index)) := by
  induction n generalizing i l with
  | zero => cases hp
  | succ n ih =>
      rw [passesFrom] at hp
      by_cases hin : inBuffer num i
      · by_cases hh : headerAt str i.toNat
        · rw [if_pos hin, if_pos hh, List.mem_cons] at hp
          rcases hp with rfl | hp
          · refine ⟨inBuffer_iff.mp hin, ?_⟩
            rw [executes_dealFrame]
            exact ⟨fun h => ⟨hh, h⟩, fun h => h.2⟩
          · exact ih hp
        · rw [if_pos hin, if_neg hh, List.mem_cons] at hp
          rcases hp with rfl | hp
          · exact ⟨inBuffer_iff.mp hin,
              iff_of_false (not_executes_idle (by simp)) fun h => hh h.1⟩
          · exact ih hp
      · rw [if_neg hin] at hp
        cases hp

/-- **The loop executes a command at an offset exactly when** it gets
there with five bytes left, the two header bytes are there and the third
and fourth make a command the light obeys. The fifth byte has no say. -/
theorem executes_iff (w : UInt8) (str : List UInt8) (num : UInt8) (l : Light) (i : Nat) :
    (∃ p ∈ passes w str num l, p.index = i ∧ p.Executes) ↔
      ∃ p ∈ passes w str num l, p.index = i ∧ i + 5 ≤ num.toNat ∧
        byteAt str i = 0x55 ∧ byteAt str (i + 1) = 0xaa ∧
          Obeys p.before ⟨byteAt str (i + 2), byteAt str (i + 3)⟩ := by
  constructor
  · rintro ⟨p, hp, rfl, hex⟩
    obtain ⟨hle, hiff⟩ := passesFrom_cases hp
    obtain ⟨⟨h₁, h₂⟩, hob⟩ := hiff.mp hex
    exact ⟨p, hp, rfl, hle, h₁.symm, h₂.symm, hob⟩
  · rintro ⟨p, hp, rfl, _, h₁, h₂, hob⟩
    obtain ⟨_, hiff⟩ := passesFrom_cases hp
    exact ⟨p, hp, rfl, hiff.mpr ⟨⟨h₁.symm, h₂.symm⟩, hob⟩⟩

/-- A frame with the wrong sum erases the device. -/
theorem executes_with_wrong_sum :
    ¬ ∀ (w : UInt8) (str : List UInt8) (num : UInt8) (l : Light),
      ∀ p ∈ passes w str num l, p.Executes →
        p.index + 5 ≤ num.toNat ∧ byteAt str p.index = 0x55 ∧
          byteAt str (p.index + 1) = 0xaa ∧
            byteAt str (p.index + 4) = byteAt str p.index + byteAt str (p.index + 1)
              + byteAt str (p.index + 2) + byteAt str (p.index + 3) := by
  intro h
  have hp : (⟨0, Light.boot, Light.boot, acknowledge wifiResetCmd
        ++ [.espRmakerFactoryReset 0 rebootDelay]⟩ : Pass)
      ∈ passes 1 [0x55, 0xaa, 0x05, 0x00, 0x00] 5 Light.boot := List.mem_cons_self
  have hsum := (h _ _ _ _ _ hp executes_of_acknowledge).2.2.2
  revert hsum
  decide

end LiveWireSwitch
