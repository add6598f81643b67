import LiveWireSwitch.AppUart.Framing

/-!
# AppUart — Bursts

Well-formed frames inside an event: one behind arbitrary bytes, and many
back to back. `uart_deal_with` takes any header for a frame and goes on
four bytes further, so bytes in front of a frame can hide it or be taken
for one. A clean burst keeps the scan in step. What it does not survive
is the event size, a `size_t`, in the `uint8_t` parameter `num`.
-/

namespace LiveWireSwitch

/-! ## Well-formed frames -/

/-- The five bytes of a buffer. -/
def Frame.bytes (b : Frame) : List UInt8 := [b.head1, b.head2, b.cmd, b.dat, b.sum]

/-- The frame the MCU sends for a command: header, command, data and
their sum. -/
def receivedFrame (c : Cmd) : Frame := Frame.fill ⟨receivedHead1, receivedHead2, 0, 0, 0⟩ c

/-- The bytes of that frame. -/
def received (c : Cmd) : List UInt8 := (receivedFrame c).bytes

/-- What `uart_deal_with` takes for frames in an event, each with its
offset. -/
def takenUp (bytes : List UInt8) : List (Nat × Cmd) :=
  (headers bytes (UInt8.ofNat bytes.length)).map fun j => (j, cmdAt bytes j)

theorem uartDataEvent_eq_takenUp (w : UInt8) (bytes : List UInt8) (l : Light) :
    uartDataEvent w bytes l = dealAll w ((takenUp bytes).map Prod.snd) l := by
  rw [uartDataEvent, uartDealWith_eq, takenUp, List.map_map]
  rfl

/-- The scan of the bytes `num` counts. -/
theorem takenUp_eq_scan (bytes : List UInt8) :
    takenUp bytes = frameScanner.scanFrom 0 (bytes.take (bytes.length % 256)) := by
  have hnum : (UInt8.ofNat bytes.length).toNat = bytes.length % 256 := UInt8.toNat_ofNat'
  rw [takenUp, headers_eq_scan (by rw [hnum]; exact Nat.mod_le _ _), hnum]

/-! ## The scan, byte by byte -/

/-- A header starts with `a`. -/
def HeaderStart (a : UInt8) (xs : List UInt8) : Prop :=
  receivedHead1 = a ∧ xs.head? = some receivedHead2

instance (a : UInt8) (xs : List UInt8) : Decidable (HeaderStart a xs) :=
  inferInstanceAs (Decidable (_ ∧ _))

theorem frameHit_cons {a : UInt8} {xs : List UInt8} (h : ¬ HeaderStart a xs) :
    frameHit (a :: xs) = none := by
  match xs with
  | [] => rfl
  | [_] => rfl
  | [_, _] => rfl
  | b :: c :: d :: _ =>
      rw [frameHit, if_neg]
      exact fun hab => h ⟨hab.1, congrArg some hab.2.symm⟩

/-- No header: one byte further. -/
theorem scanFrom_skip {a : UInt8} {xs : List UInt8} (h : ¬ HeaderStart a xs) (i : Nat) :
    frameScanner.scanFrom i (a :: xs) = frameScanner.scanFrom (i + 1) xs := by
  by_cases hlen : frameScanner.window ≤ (a :: xs).length
  · exact Lib.Scanner.scanFrom_miss hlen (frameHit_cons h)
  · rw [List.length_cons] at hlen
    rw [Lib.Scanner.scanFrom_short, Lib.Scanner.scanFrom_short]
    · omega
    · rw [List.length_cons]
      omega

/-- A header with a window behind it: four bytes further. -/
theorem scanFrom_header (c d : UInt8) {xs : List UInt8} (h : xs ≠ []) (i : Nat) :
    frameScanner.scanFrom i (receivedHead1 :: receivedHead2 :: c :: d :: xs)
      = (i, ⟨c, d⟩) :: frameScanner.scanFrom (i + 4) xs := by
  have hlen : frameScanner.window
      ≤ (receivedHead1 :: receivedHead2 :: c :: d :: xs).length := by
    have hpos := List.length_pos_iff.mpr h
    simp only [List.length_cons]
    show 5 ≤ xs.length + 1 + 1 + 1 + 1
    omega
  rw [Lib.Scanner.scanFrom_hit hlen (b := ⟨c, d⟩) rfl]
  rfl

theorem received_ne_nil (c : Cmd) : received c ≠ [] := List.cons_ne_nil _ _

/-- A frame is read with the scan standing at it; then the scan stands
at its sum. -/
theorem scanFrom_received (c : Cmd) (xs : List UInt8) (i : Nat) :
    frameScanner.scanFrom i (received c ++ xs)
      = (i, c) :: frameScanner.scanFrom (i + 4) ((receivedFrame c).sum :: xs) :=
  scanFrom_header c.cmd c.dat (List.cons_ne_nil _ _) i

/-! ## Bytes in front of a frame -/

/-- Bytes that do not keep `uart_deal_with` from the frame behind them:
bytes that start no header, and headers with a command that has no case,
these with both bytes that go with them. -/
inductive Harmless : List UInt8 → Prop where
  | nil : Harmless []
  | skip {a : UInt8} {g : List UInt8} (h : ¬ HeaderStart a g) (hg : Harmless g) :
      Harmless (a :: g)
  | unknown {c d : UInt8} {g : List UInt8} (h : ¬ Cmd.Known ⟨c, d⟩) (hg : Harmless g) :
      Harmless (receivedHead1 :: receivedHead2 :: c :: d :: g)

theorem harmless_skip {a : UInt8} {g : List UInt8} (h : ¬ HeaderStart a g) :
    Harmless (a :: g) ↔ Harmless g := by
  refine ⟨fun hg => ?_, .skip h⟩
  cases hg with
  | skip _ hg => exact hg
  | unknown _ _ => exact absurd ⟨rfl, rfl⟩ h

theorem harmless_header {c d : UInt8} {g : List UInt8} :
    Harmless (receivedHead1 :: receivedHead2 :: c :: d :: g)
      ↔ ¬ Cmd.Known ⟨c, d⟩ ∧ Harmless g := by
  refine ⟨fun hg => ?_, fun h => .unknown h.1 h.2⟩
  cases hg with
  | skip h _ => exact absurd ⟨rfl, rfl⟩ h
  | unknown h hg => exact ⟨h, hg⟩

/-- Bytes without a header are harmless. -/
theorem harmless_of_no_header {g : List UInt8} (h : ∀ i, ¬ headerAt g i) : Harmless g := by
  induction g with
  | nil => exact .nil
  | cons a g ih =>
      refine .skip (fun hs => h 0 ⟨hs.1, ?_⟩) (ih fun i => h (i + 1))
      obtain ⟨xs, rfl⟩ := List.head?_eq_some_iff.mp hs.2
      rfl

/-- Among these hits, the one at `i` is there, and no other has a
case. -/
def OnlyHit (hits : List (Nat × Cmd)) (i : Nat) (c : Cmd) : Prop :=
  (i, c) ∈ hits ∧ ∀ m ∈ hits, m.2.Known → m = (i, c)

theorem onlyHit_cons {hits : List (Nat × Cmd)} {m : Nat × Cmd} {i : Nat} {c : Cmd}
    (h : m.1 ≠ i) : OnlyHit (m :: hits) i c ↔ ¬ m.2.Known ∧ OnlyHit hits i c := by
  have hne : m ≠ (i, c) := fun he => h (congrArg Prod.fst he)
  simp only [OnlyHit, List.mem_cons, forall_eq_or_imp, hne, hne.symm, false_or, imp_false]
  exact and_left_comm

/-- A header with less than a window behind its four bytes is the last
hit. -/
theorem scanFrom_last (c d : UInt8) {xs : List UInt8} (h : xs ≠ []) (hlen : xs.length < 5)
    (i : Nat) :
    frameScanner.scanFrom i (receivedHead1 :: receivedHead2 :: c :: d :: xs) = [(i, ⟨c, d⟩)] := by
  rw [scanFrom_header c d h, Lib.Scanner.scanFrom_short hlen]

theorem scanFrom_received_alone (c : Cmd) (i : Nat) :
    frameScanner.scanFrom i (received c) = [(i, c)] :=
  scanFrom_last c.cmd c.dat (List.cons_ne_nil _ _) (by simp) i

/-- A header that starts in the last three bytes before a frame swallows
it. -/
theorem not_onlyHit_swallowed (c d : UInt8) {xs : List UInt8} (h : xs ≠ []) (hlen : xs.length < 5)
    {i j : Nat} (hij : i ≠ j) (f : Cmd) :
    ¬ OnlyHit (frameScanner.scanFrom i (receivedHead1 :: receivedHead2 :: c :: d :: xs)) j f := by
  rw [scanFrom_last c d h hlen, onlyHit_cons hij]
  rintro ⟨_, hmem, _⟩
  cases hmem

theorem not_harmless_header {g : List UInt8} (h : g.length < 2) :
    ¬ Harmless (receivedHead1 :: receivedHead2 :: g) := by
  intro hg
  cases hg with
  | skip hs _ => exact hs ⟨rfl, rfl⟩
  | unknown _ _ =>
      simp only [List.length_cons] at h
      omega

theorem not_headerStart_append {a : UInt8} {g : List UInt8} (h : ¬ HeaderStart a g) (c : Cmd) :
    ¬ HeaderStart a (g ++ received c) := by
  rintro ⟨h₁, h₂⟩
  cases g with
  | nil => exact absurd (Option.some.inj h₂) (show receivedHead1 ≠ receivedHead2 by decide)
  | cons b g => exact h ⟨h₁, h₂⟩

/-- The scan of bytes and a frame behind them finds the frame and
nothing else with a case exactly when the bytes are harmless. -/
theorem onlyHit_scanFrom_iff (c : Cmd) (n : Nat) :
    ∀ g : List UInt8, g.length = n → ∀ i,
      OnlyHit (frameScanner.scanFrom i (g ++ received c)) (i + g.length) c ↔ Harmless g := by
  induction n using Nat.strong_induction_on with
  | _ n ih =>
    intro g hn i
    match g with
    | [] =>
        rw [List.nil_append, scanFrom_received_alone]
        exact iff_of_true ⟨List.mem_singleton_self _, fun m hm _ => List.mem_singleton.mp hm⟩
          .nil
    | a :: g =>
        rw [List.length_cons] at hn ⊢
        by_cases hs : HeaderStart a g
        · obtain ⟨rfl, hhead⟩ := hs
          obtain ⟨g, rfl⟩ := List.head?_eq_some_iff.mp hhead
          match g with
          | [] =>
              -- the header bytes of the frame pass for command and data
              exact iff_of_false
                (not_onlyHit_swallowed receivedHead1 receivedHead2 (List.cons_ne_nil _ _)
                  (by simp) (by simp) c)
                (not_harmless_header (by simp))
          | [x] =>
              -- its first header byte passes for the data
              exact iff_of_false
                (not_onlyHit_swallowed x receivedHead1 (List.cons_ne_nil _ _)
                  (by simp) (by simp) c)
                (not_harmless_header (by simp))
          | x :: y :: g =>
              -- the header takes its own four bytes and no more
              simp only [List.length_cons] at hn ⊢
              have hrest : g ++ received c ≠ [] :=
                List.append_ne_nil_of_right_ne_nil _ (received_ne_nil c)
              have hoff : i + (g.length + 1 + 1 + 1 + 1) = i + 4 + g.length := by omega
              rw [harmless_header, ← ih g.length (by omega) g rfl (i + 4), hoff]
              show OnlyHit (frameScanner.scanFrom i
                (receivedHead1 :: receivedHead2 :: x :: y :: (g ++ received c))) _ c ↔ _
              rw [scanFrom_header x y hrest, onlyHit_cons (by show i ≠ i + 4 + g.length; omega)]
        · have hoff : i + (g.length + 1) = i + 1 + g.length := by omega
          rw [List.cons_append, scanFrom_skip (not_headerStart_append hs c), harmless_skip hs, hoff,
            ih g.length (by omega) g rfl (i + 1)]

/-- Behind harmless bytes only the frame is handled. -/
theorem filter_known_scanFrom {g : List UInt8} (hg : Harmless g) (c : Cmd) (i : Nat) :
    ((frameScanner.scanFrom i (g ++ received c)).map Prod.snd).filter (fun c => decide c.Known)
      = [c].filter fun c => decide c.Known := by
  induction hg generalizing i with
  | nil =>
      rw [List.nil_append, scanFrom_received_alone]
      rfl
  | skip h _ ih =>
      rw [List.cons_append, scanFrom_skip (not_headerStart_append h c), ih]
  | @unknown x y g h _ ih =>
      have hrest : g ++ received c ≠ [] :=
        List.append_ne_nil_of_right_ne_nil _ (received_ne_nil c)
      rw [List.cons_append, List.cons_append, List.cons_append, List.cons_append,
        scanFrom_header x y hrest, List.map_cons, List.filter_cons, if_neg (by simpa using h), ih]

/-- `uart_deal_with` takes the frame at `i` up and acts on no other. -/
def ActsOnlyOn (bytes : List UInt8) (i : Nat) (c : Cmd) : Prop := OnlyHit (takenUp bytes) i c

/-- In an event of at most 255 bytes all of them are scanned. -/
theorem takenUp_eq_frames {bytes : List UInt8} (h : bytes.length ≤ 255) :
    takenUp bytes = frames bytes := by
  rw [takenUp_eq_scan, Nat.mod_eq_of_lt (by omega), List.take_length, frames]

/-- A frame in an event of its own. -/
theorem uartDataEvent_received (w : UInt8) (c : Cmd) (l : Light) :
    uartDataEvent w (received c) l = dealFrame w c l := by
  have hlen : (received c).length ≤ 255 := by
    show 5 ≤ 255
    omega
  rw [uartDataEvent_eq_takenUp, takenUp_eq_frames hlen, frames, scanFrom_received_alone]
  simp only [List.map_cons, List.map_nil, dealAll, List.append_nil]

/-- **The parser finds a frame behind other bytes, and acts on nothing
else, exactly when these are harmless**, and then handling the event is
handling the frame. -/
theorem resynchronises_iff (g : List UInt8) (c : Cmd) (h : g.length + 5 ≤ 255) :
    (ActsOnlyOn (g ++ received c) g.length c ↔ Harmless g) ∧
      (Harmless g → ∀ (w : UInt8) (l : Light),
        uartDataEvent w (g ++ received c) l = dealFrame w c l) := by
  have hlen : (g ++ received c).length ≤ 255 := by
    rw [List.length_append]
    exact h
  have hscan : takenUp (g ++ received c) = frameScanner.scanFrom 0 (g ++ received c) :=
    takenUp_eq_frames hlen
  refine ⟨?_, fun hg w l => ?_⟩
  · rw [ActsOnlyOn, hscan, ← onlyHit_scanFrom_iff c g.length g rfl 0, Nat.zero_add]
  · rw [uartDataEvent_eq_takenUp, hscan, ← dealAll_filter_known, filter_known_scanFrom hg,
      dealAll_filter_known]
    simp only [dealAll, List.append_nil]

/-- A byte of noise, a group with an unknown command and an on-frame. -/
theorem resynchronises_iff_noise :
    (ActsOnlyOn ([0x13, 0x55, 0xaa, 0x77, 0x00] ++ received ⟨onOffCmd, 1⟩) 5 ⟨onOffCmd, 1⟩
      ↔ Harmless [0x13, 0x55, 0xaa, 0x77, 0x00]) ∧
      (Harmless [0x13, 0x55, 0xaa, 0x77, 0x00] → ∀ (w : UInt8) (l : Light),
        uartDataEvent w ([0x13, 0x55, 0xaa, 0x77, 0x00] ++ received ⟨onOffCmd, 1⟩) l
          = dealFrame w ⟨onOffCmd, 1⟩ l) :=
  resynchronises_iff [0x13, 0x55, 0xaa, 0x77, 0x00] ⟨onOffCmd, 1⟩ (by decide)

/-- A header with the right sum at its end. -/
def WellFormedAt (str : List UInt8) (i : Nat) : Prop :=
  i + 5 ≤ str.length ∧ headerAt str i ∧
    byteAt str (i + 4)
      = byteAt str i + byteAt str (i + 1) + byteAt str (i + 2) + byteAt str (i + 3)

instance (str : List UInt8) (i : Nat) : Decidable (WellFormedAt str i) :=
  inferInstanceAs (Decidable (_ ∧ _))

/-- A header cut off after its two bytes swallows the on-frame behind
it. -/
theorem header_swallows_frame :
    ¬ ∀ (g : List UInt8) (c : Cmd),
      (∀ i, WellFormedAt (g ++ received c) i → i = g.length) → g.length + 5 ≤ 255 →
        ActsOnlyOn (g ++ received c) g.length c := by
  intro h
  have honly : ∀ i, WellFormedAt ([0x55, 0xaa] ++ received ⟨onOffCmd, 1⟩) i → i = 2 := by
    intro i hi
    have hle : i + 5 ≤ 7 := hi.1
    have hcases : i = 0 ∨ i = 1 ∨ i = 2 := by omega
    rcases hcases with rfl | rfl | rfl
    · exact absurd hi (by decide)
    · exact absurd hi (by decide)
    · rfl
  have htaken := (h _ _ honly (by decide)).1
  revert htaken
  decide

/-! ## Frames back to back -/

/-- Frames sent without a pause, as one event delivers them. -/
def burst (cs : List Cmd) : List UInt8 := cs.flatMap received

theorem burst_length (cs : List Cmd) : (burst cs).length = 5 * cs.length := by
  induction cs with
  | nil => rfl
  | cons c cs ih =>
      rw [burst, List.flatMap_cons, List.length_append, ← burst, ih, List.length_cons]
      show 5 + 5 * cs.length = 5 * (cs.length + 1)
      omega

/-- Behind a sum, `0x55` or not, comes the first header byte, never the
second. -/
theorem not_headerStart_burst (b : UInt8) (cs : List Cmd) (n : Nat) :
    ¬ HeaderStart b ((burst cs).take n) := by
  rintro ⟨_, h⟩
  cases cs with
  | nil => simp [burst] at h
  | cons c cs =>
      cases n with
      | zero => simp at h
      | succ n => exact absurd (Option.some.inj h) (show receivedHead1 ≠ receivedHead2 by decide)

/-- The scan of the first `n` bytes of a burst finds the frames that lie
in them. -/
theorem scanFrom_burst (cs : List Cmd) (n i : Nat) :
    (frameScanner.scanFrom i ((burst cs).take n)).map Prod.snd = cs.take (n / 5) := by
  induction cs generalizing n i with
  | nil =>
      rw [burst, List.flatMap_nil, List.take_nil, List.take_nil,
        Lib.Scanner.scanFrom_short (by show 0 < 5; omega), List.map_nil]
  | cons c cs ih =>
      rcases Nat.lt_or_ge n 5 with hn | hn
      · have hshort : ((burst (c :: cs)).take n).length < 5 := by
          rw [List.length_take]
          omega
        rw [Lib.Scanner.scanFrom_short hshort, Nat.div_eq_of_lt hn, List.map_nil, List.take_zero]
      · obtain ⟨n, rfl⟩ := Nat.exists_eq_add_of_le' hn
        have htake : (burst (c :: cs)).take (n + 5) = received c ++ (burst cs).take n := rfl
        -- the frame, its sum, and the rest of the burst
        rw [htake, scanFrom_received, scanFrom_skip (not_headerStart_burst _ cs n), List.map_cons,
          ih, Nat.add_div_right n (by decide), List.take_succ_cons]

theorem takenUp_burst (cs : List Cmd) :
    (takenUp (burst cs)).map Prod.snd = cs.take (5 * cs.length % 256 / 5) := by
  rw [takenUp_eq_scan, scanFrom_burst, burst_length]

/-- **A clean burst is taken up whole exactly when its length fits the
eight bits of `num`**, with 51 frames at most, and is then handled frame
by frame. -/
theorem burst_taken_up_iff (cs : List Cmd) :
    ((takenUp (burst cs)).map Prod.snd = cs ↔ 5 * cs.length ≤ 255) ∧
      (5 * cs.length ≤ 255 → ∀ (w : UInt8) (l : Light),
        uartDataEvent w (burst cs) l = dealAll w cs l) := by
  have hiff : (takenUp (burst cs)).map Prod.snd = cs ↔ 5 * cs.length ≤ 255 := by
    rw [takenUp_burst, List.take_eq_self_iff]
    omega
  refine ⟨hiff, fun h w l => ?_⟩
  rw [uartDataEvent_eq_takenUp, hiff.mpr h]

/-- Fifty-two frames in an event count as four bytes. -/
theorem burst_missed :
    ¬ ∀ cs : List Cmd, 5 * cs.length ≤ 1024 → (takenUp (burst cs)).map Prod.snd = cs := by
  intro h
  have hall := h (List.replicate 52 ⟨onOffCmd, 1⟩) (by decide)
  rw [takenUp_burst] at hall
  exact absurd hall (by decide)

end LiveWireSwitch
