import LiveWireSwitch.AppUart.Statements

/-!
# AppUart — TornFrames

The mailbox is filled byte by byte, by as many calls as there are, while
tasks copy it and overwrite its command with ERRORCMD. Which call made
the last store to each byte is kept as a history beside the run. A copy
taken when one call made all three is the frame of that call
(`Intact.sum`): the checksum it stored was computed from bytes of its
own, since whoever had stored over one of them would be its last writer
now.
-/

namespace LiveWireSwitch

open Lib

/-- The calls that made the last stores to `ucSendBuff[2]`, `[3]` and
`[4]`; `none` where there was no store yet, and for a command that a
task has overwritten. -/
structure LastStores where
  cmd : Option Nat
  dat : Option Nat
  sum : Option Nat
deriving DecidableEq, Repr

def LastStores.boot : LastStores := ⟨none, none, none⟩

/-- The stores of a statement. -/
def noteStores (s : SendWorld) (a : StatementAct) (p : LastStores) : LastStores :=
  match a with
  | .call _ k =>
      match (s.calls[k]?).map SendCall.pc with
      | some .storeCmd => { p with cmd := some k }
      | some .storeDat => { p with dat := some k }
      | some .storeSum => { p with sum := some k }
      | _ => p
  | .task _ t =>
      if (s.tasks[t]?).map SendTask.pc = some .stampError then { p with cmd := none } else p
  | _ => p

/-- The last stores were all made by one call. -/
def LastStores.Whole (p : LastStores) : Prop := p.cmd ≠ none ∧ p.dat = p.cmd ∧ p.sum = p.cmd

instance (p : LastStores) : Decidable p.Whole := inferInstanceAs (Decidable (_ ∧ _ ∧ _))

/-- A task executes its `memcpy` only when the last stores to the
mailbox were all made by one call. -/
def CopiesWhole (s : SendWorld × LastStores) : StatementAct → Prop
  | .task _ t => (s.1.tasks[t]?).map SendTask.pc = some .memcpy → s.2.Whole
  | _ => True

instance : (s : SendWorld × LastStores) → (a : StatementAct) → Decidable (CopiesWhole s a)
  | _, .enter _ => .isTrue trivial
  | _, .call _ _ => .isTrue trivial
  | _, .task _ _ => inferInstanceAs (Decidable (_ → _))
  | _, .rxFlag _ => .isTrue trivial

/-- The frame of a call that has been made. -/
def OfCall (calls : List SendCall) (b : Frame) : Prop := ∃ q ∈ calls, b = sendFrame q.arg

/-- Every frame written so far is the frame of a call. -/
def SendWorld.FramesOfCalls (s : SendWorld) : Prop :=
  ∀ b ∈ writtenFrames s.effects, OfCall s.calls b

/-! ## The mailbox -/

/-- Call `k` has the arguments `c` and is at least at statement `n`. -/
def Reached (calls : List SendCall) (n k : Nat) (c : Cmd) : Prop :=
  ∃ pc, calls[k]? = some ⟨c, pc⟩ ∧ n ≤ pc.rank

theorem Reached.onwards {l l' : List SendCall} (h : Onwards l l') {n k : Nat} {c : Cmd}
    (hr : Reached l n k c) : Reached l' n k c := by
  obtain ⟨pc, hk, hn⟩ := hr
  obtain ⟨pc', hk', hle⟩ := h k _ hk
  exact ⟨pc', hk', Nat.le_trans hn hle⟩

theorem Reached.unique {l : List SendCall} {n m k : Nat} {c d : Cmd} (hc : Reached l n k c)
    (hd : Reached l m k d) : c = d := by
  obtain ⟨_, hk, _⟩ := hc
  obtain ⟨_, hk', _⟩ := hd
  rw [hk] at hk'
  cases hk'
  rfl

/-- A call that stands at an earlier statement has not reached `n`. -/
theorem Reached.not_at {l : List SendCall} {n k : Nat} {c : Cmd} (h : Reached l n k c)
    {q : SendCall} (hq : l[k]? = some q) : n ≤ q.pc.rank := by
  obtain ⟨pc, hk, hn⟩ := h
  rw [hk] at hq
  cases hq
  exact hn

theorem OfCall.onwards {l l' : List SendCall} (h : Onwards l l') {b : Frame} (hb : OfCall l b) :
    OfCall l' b := by
  obtain ⟨q, hq, rfl⟩ := hb
  obtain ⟨k, hk⟩ := List.getElem?_of_mem hq
  obtain ⟨pc, hk', _⟩ := h k q hk
  exact ⟨⟨q.arg, pc⟩, List.mem_of_getElem? hk', rfl⟩

theorem Reached.ofCall {l : List SendCall} {n k : Nat} {c : Cmd} (h : Reached l n k c) :
    OfCall l (sendFrame c) := by
  obtain ⟨pc, hk, _⟩ := h
  exact ⟨_, List.mem_of_getElem? hk, rfl⟩

/-- What the last stores say about the mailbox: a byte is the one its
last writer stores, and a mailbox with one last writer is that call's
frame. -/
structure Filled (b : Frame) (calls : List SendCall) (p : LastStores) : Prop where
  head1 : b.head1 = sendHead1
  head2 : b.head2 = sendHead2
  cmd : ∀ k, p.cmd = some k → ∃ c, Reached calls 1 k c ∧ b.cmd = c.cmd
  dat : ∀ k, p.dat = some k → ∃ c, Reached calls 2 k c ∧ b.dat = c.dat
  sum : ∀ k, p.sum = some k → ∃ c, Reached calls 3 k c ∧
    (p.cmd = some k → p.dat = some k → b = sendFrame c)

section Stores

variable {b : Frame} {l : List SendCall} {p : LastStores}

theorem Filled.onwards (h : Filled b l p) {l' : List SendCall} (ho : Onwards l l') :
    Filled b l' p where
  head1 := h.head1
  head2 := h.head2
  cmd := by
    intro k hk
    obtain ⟨c, hr, hb⟩ := h.cmd k hk
    exact ⟨c, hr.onwards ho, hb⟩
  dat := by
    intro k hk
    obtain ⟨c, hr, hb⟩ := h.dat k hk
    exact ⟨c, hr.onwards ho, hb⟩
  sum := by
    intro k hk
    obtain ⟨c, hr, hb⟩ := h.sum k hk
    exact ⟨c, hr.onwards ho, hb⟩

/-- The mailbox of one call. -/
theorem Filled.whole (h : Filled b l p) (hp : p.Whole) : OfCall l b := by
  obtain ⟨hsome, hdat, hsum⟩ := hp
  obtain ⟨k, hk⟩ := Option.ne_none_iff_exists'.mp hsome
  obtain ⟨c, hr, hb⟩ := h.sum k (hsum.trans hk)
  rw [hb hk (hdat.trans hk)]
  exact hr.ofCall

variable {k : Nat} {q : SendCall}

/-- A call that has still to store its checksum has not. -/
theorem Filled.sum_ne (h : Filled b l p) (hq : l[k]? = some q) (hpc : q.pc.rank < 3) :
    p.sum ≠ some k := by
  intro hk
  obtain ⟨c, hr, -⟩ := h.sum k hk
  have hrank := hr.not_at hq
  omega

theorem Filled.storeCmd (h : Filled b l p) (hq : l[k]? = some q) (hpc : q.pc = .storeCmd) :
    Filled { b with cmd := q.arg.cmd } (l.set k { q with pc := .storeDat })
      { p with cmd := some k } := by
  have ho : Onwards l (l.set k { q with pc := .storeDat }) := .set hq (by simp [hpc, CallPc.rank])
  refine ⟨h.head1, h.head2, ?_, (h.onwards ho).dat, ?_⟩
  · rintro j ⟨⟩
    exact ⟨q.arg, ⟨_, getElem?_set_of_getElem? hq, Nat.le_refl 1⟩, rfl⟩
  · intro j hj
    obtain ⟨c, hr, -⟩ := (h.onwards ho).sum j hj
    refine ⟨c, hr, ?_⟩
    rintro ⟨⟩ -
    exact absurd hj (h.sum_ne hq (by simp [hpc, CallPc.rank]))

theorem Filled.storeDat (h : Filled b l p) (hq : l[k]? = some q) (hpc : q.pc = .storeDat) :
    Filled { b with dat := q.arg.dat } (l.set k { q with pc := .storeSum })
      { p with dat := some k } := by
  have ho : Onwards l (l.set k { q with pc := .storeSum }) := .set hq (by simp [hpc, CallPc.rank])
  refine ⟨h.head1, h.head2, (h.onwards ho).cmd, ?_, ?_⟩
  · rintro j ⟨⟩
    exact ⟨q.arg, ⟨_, getElem?_set_of_getElem? hq, Nat.le_refl 2⟩, rfl⟩
  · intro j hj
    obtain ⟨c, hr, -⟩ := (h.onwards ho).sum j hj
    refine ⟨c, hr, ?_⟩
    rintro - ⟨⟩
    exact absurd hj (h.sum_ne hq (by simp [hpc, CallPc.rank]))

/-- The checksum of a call that made the last stores of the two bytes
before it completes its frame. -/
theorem Filled.storeSum (h : Filled b l p) (hq : l[k]? = some q) (hpc : q.pc = .storeSum) :
    Filled { b with sum := b.checksum } (l.set k { q with pc := .setFlag })
      { p with sum := some k } := by
  have ho : Onwards l (l.set k { q with pc := .setFlag }) := .set hq (by simp [hpc, CallPc.rank])
  refine ⟨h.head1, h.head2, (h.onwards ho).cmd, (h.onwards ho).dat, ?_⟩
  rintro j ⟨⟩
  refine ⟨q.arg, ⟨_, getElem?_set_of_getElem? hq, Nat.le_refl 3⟩, ?_⟩
  intro hcmd hdat
  have hself : Reached l 2 k q.arg := ⟨q.pc, hq, by simp [hpc, CallPc.rank]⟩
  obtain ⟨c, hc, hbcmd⟩ := h.cmd k hcmd
  obtain ⟨d, hd, hbdat⟩ := h.dat k hdat
  have hbcmd' : b.cmd = q.arg.cmd := by rw [hbcmd, hc.unique hself]
  have hbdat' : b.dat = q.arg.dat := by rw [hbdat, hd.unique hself]
  simp [sendFrame, Frame.fill, Frame.blank, Frame.checksum, h.head1, h.head2, hbcmd', hbdat']

theorem Filled.stampError (h : Filled b l p) :
    Filled { b with cmd := errorCmd } l { p with cmd := none } where
  head1 := h.head1
  head2 := h.head2
  cmd := by
    rintro k ⟨⟩
  dat := h.dat
  sum := by
    intro k hk
    obtain ⟨c, hr, -⟩ := h.sum k hk
    exact ⟨c, hr, by rintro ⟨⟩⟩

end Stores

/-! ## The run -/

/-- The mailbox, the copies that are still to be written and the frames
that have been. -/
structure Intact (s : SendWorld × LastStores) : Prop where
  filled : Filled s.1.ucSendBuff s.1.calls s.2
  copies : ∀ x ∈ s.1.tasks, x.Holds → OfCall s.1.calls x.ucSendBuffTemp
  frames : s.1.FramesOfCalls

theorem boot_intact : Intact (SendWorld.boot, LastStores.boot) where
  filled := ⟨rfl, rfl, by rintro k ⟨⟩, by rintro k ⟨⟩, by rintro k ⟨⟩⟩
  copies := by
    intro x hx
    cases hx
  frames := by
    intro b hb
    cases hb

/-- With the mailbox accounted for, a step has to see to the copies and
the frames it makes. -/
theorem Intact.next {s s' : SendWorld} {p p' : LastStores} (h : Intact (s, p))
    (filled : Filled s'.ucSendBuff s'.calls p') (ho : Onwards s.calls s'.calls)
    (copies : ∀ x ∈ s'.tasks, x.Holds → x ∈ s.tasks ∨ OfCall s'.calls x.ucSendBuffTemp)
    (frames : ∀ b ∈ writtenFrames s'.effects,
      b ∈ writtenFrames s.effects ∨ OfCall s'.calls b) : Intact (s', p') where
  filled := filled
  copies := by
    intro x hx hholds
    rcases copies x hx hholds with hold | hnew
    · exact (h.copies x hold hholds).onwards ho
    · exact hnew
  frames := by
    intro b hb
    rcases frames b hb with hold | hnew
    · exact (h.frames b hold).onwards ho
    · exact hnew

theorem noteStores_call {s : SendWorld} {k : Nat} {q : SendCall} (hq : s.calls[k]? = some q)
    (created : Bool) (p : LastStores) :
    noteStores s (.call created k) p = match q.pc with
      | .storeCmd => { p with cmd := some k }
      | .storeDat => { p with dat := some k }
      | .storeSum => { p with sum := some k }
      | _ => p := by
  rw [noteStores, hq]
  cases hpc : q.pc <;> simp [hpc]

theorem CallMove.filled {s s' : SendWorld} {k : Nat} {q : SendCall} {p : LastStores}
    (hq : s.calls[k]? = some q) (hmove : CallMove s k q s') (created : Bool)
    (h : Filled s.ucSendBuff s.calls p) :
    Filled s'.ucSendBuff s'.calls (noteStores s (.call created k) p) := by
  have hrest : Filled s.ucSendBuff s'.calls p := h.onwards (hmove.onwards hq)
  rw [noteStores_call hq]
  cases hmove with
  | storeCmd hpc =>
      rw [hpc]
      exact h.storeCmd hq hpc
  | storeDat hpc =>
      rw [hpc]
      exact h.storeDat hq hpc
  | storeSum hpc =>
      rw [hpc]
      exact h.storeSum hq hpc
  | setFlag hpc =>
      rw [hpc]
      exact hrest
  | create hpc _ =>
      rw [hpc]
      exact hrest
  | leave hpc =>
      rw [hpc]
      exact hrest
  | setHandleFlag hpc =>
      rw [hpc]
      exact hrest

theorem Intact.call {s s' : SendWorld} {p : LastStores} (h : Intact (s, p)) {created : Bool}
    {k : Nat} (hs : s.callStep created k = some s') :
    Intact (s', noteStores s (.call created k) p) := by
  obtain ⟨q, hq, hmove⟩ := callStep_cases hs
  obtain ⟨heffects, htasks⟩ := hmove.frame
  refine h.next (hmove.filled hq created h.filled) (hmove.onwards hq) ?_ ?_
  · intro x hx hholds
    rcases htasks with htasks | htasks
    · rw [htasks] at hx
      exact .inl hx
    · -- a task that has just been created holds no copy
      rw [htasks, List.mem_append, List.mem_singleton] at hx
      rcases hx with hx | rfl
      · exact .inl hx
      · exact absurd hholds (by simp [SendTask.Holds, SendTask.created])
  · intro b hb
    rw [heffects] at hb
    exact .inl hb

theorem noteStores_task {s : SendWorld} {t : Nat} {x : SendTask} (hx : s.tasks[t]? = some x)
    (w : UInt8) (p : LastStores) :
    noteStores s (.task w t) p = if x.pc = .stampError then { p with cmd := none } else p := by
  simp [noteStores, hx]

theorem TaskMove.filled {s s' : SendWorld} {t : Nat} {x : SendTask} {p : LastStores}
    (hx : s.tasks[t]? = some x) (hmove : TaskMove s t x s') (w : UInt8)
    (h : Filled s.ucSendBuff s.calls p) :
    Filled s'.ucSendBuff s'.calls (noteStores s (.task w t) p) := by
  rw [noteStores_task hx, hmove.calls]
  cases hmove with
  | memcpy hpc =>
      rw [if_neg (by simp [hpc])]
      exact h
  | write hpc =>
      rw [if_neg (by simp [hpc])]
      exact h
  | stampError hpc =>
      rw [if_pos hpc]
      exact h.stampError
  | clearHandleFlag hpc =>
      rw [if_neg (by simp [hpc])]
      exact h
  | taskDelete hpc =>
      rw [if_neg (by simp [hpc]), vTaskDelete_eq]
      exact h
  | quiet y flag es hquiet _ _ _ =>
      rw [if_neg (fun hpc => by simp [hpc, SendPc.Quiet] at hquiet)]
      exact h

/-- A copy taken whole is the frame of a call, a copy that is written
was one of those held, and nothing else makes a copy or a frame. -/
theorem Intact.task {s s' : SendWorld} {p : LastStores} (h : Intact (s, p)) {w : UInt8} {t : Nat}
    (hok : CopiesWhole (s, p) (.task w t)) (hs : s.taskStep w t = some s') :
    Intact (s', noteStores s (.task w t) p) := by
  obtain ⟨x, hx, hmove⟩ := taskStep_cases hs
  have hmem : x ∈ s.tasks := List.mem_of_getElem? hx
  have ho : Onwards s.calls s'.calls := by
    rw [hmove.calls]
    exact Onwards.refl _
  refine h.next (hmove.filled hx w h.filled) ho ?_ ?_
  · intro y hy hholds
    cases hmove with
    | memcpy hpc =>
        rcases List.mem_or_eq_of_mem_set hy with hy | rfl
        · exact .inl hy
        · refine .inr (h.filled.whole (hok ?_))
          show (s.tasks[t]?).map SendTask.pc = some .memcpy
          rw [hx, Option.map_some, hpc]
    | write hpc =>
        exact .inl (mem_of_mem_set (P := SendTask.Holds) hy hholds (by simp [SendTask.Holds]))
    | stampError hpc =>
        exact .inl (mem_of_mem_set (P := SendTask.Holds) hy hholds (by simp [SendTask.Holds]))
    | clearHandleFlag hpc =>
        exact .inl (mem_of_mem_set (P := SendTask.Holds) hy hholds (by simp [SendTask.Holds]))
    | taskDelete hpc =>
        rcases mem_vTaskDelete hy with hy | hgone | hgone
        · exact .inl hy
        · exact absurd hholds (by simp [SendTask.Holds, hgone])
        · exact absurd hholds (by simp [SendTask.Holds, hgone])
    | quiet z flag es hquiet hafter hkept hsilent =>
        rcases List.mem_or_eq_of_mem_set hy with hy | rfl
        · exact .inl hy
        · obtain ⟨hxholds, htemp⟩ := hkept hholds
          rw [htemp]
          exact .inr (h.copies x hmem hxholds)
  · intro b hb
    cases hmove with
    | write hpc =>
        rw [SendWorld.taskTo, writtenFrames_append, writtenFrames_transmit, List.mem_append,
          List.mem_singleton] at hb
        rcases hb with hb | rfl
        · exact .inl hb
        · exact .inr (h.copies x hmem (.inr (.inr (.inr hpc))))
    | quiet z flag es hquiet hafter hkept hsilent =>
        rw [writtenFrames_append, hsilent, List.append_nil] at hb
        exact .inl hb
    | taskDelete hpc =>
        rw [vTaskDelete_eq] at hb
        exact .inl hb
    | memcpy hpc => exact .inl hb
    | stampError hpc => exact .inl hb
    | clearHandleFlag hpc => exact .inl hb

theorem statementStep_intact {s s' : SendWorld × LastStores} {a : StatementAct} (h : Intact s)
    (hok : CopiesWhole s a) (hs : noting statementStep noteStores s a = some s') :
    Intact s' := by
  obtain ⟨hstep, hnote⟩ := noting_eq_some.mp hs
  obtain ⟨s, p⟩ := s
  obtain ⟨s', p'⟩ := s'
  subst hnote
  cases a with
  | enter c =>
      cases hstep
      have ho := Onwards.append s.calls [⟨c, .storeCmd⟩]
      exact h.next (h.filled.onwards ho) ho (fun x hx _ => .inl hx) (fun b hb => .inl hb)
  | call created k => exact h.call hstep
  | task w t => exact h.task hok hstep
  | rxFlag b =>
      cases hstep
      exact h.next h.filled (Onwards.refl _) (fun x hx _ => .inl hx) (fun b hb => .inl hb)

/-- **Frames are never a mix of two commands**, in every run in which
the tasks copy the mailbox only when its last stores were made by one
call. -/
theorem frames_of_calls (as : List StatementAct)
    (hwhole : Guarded (noting statementStep noteStores) CopiesWhole
      (SendWorld.boot, LastStores.boot) as) :
    Always statementStep SendWorld.FramesOfCalls SendWorld.boot as := by
  have hall := always_of_guarded (P := fun q : SendWorld × LastStores => q.1.FramesOfCalls)
    (fun _ h => h.frames) (fun _ _ _ h hok hs => statementStep_intact h hok hs) boot_intact hwhole
  exact (always_noting as).mp hall

/-- A call from its entry to its return, with a test that finds no
task. -/
def wholeCall (c : Cmd) (k : Nat) : List StatementAct :=
  .enter c :: List.replicate 6 (.call true k)

/-- Two calls in turn, the second after the first has been written. -/
theorem frames_of_calls_in_turn :
    ∃ s, run statementStep SendWorld.boot
        (wholeCall ⟨1, 50⟩ 0 ++ List.replicate 5 (.task 1 0) ++ .enter ⟨0, 1⟩ ::
          List.replicate 5 (.call true 1) ++ List.replicate 4 (.task 1 0)) = some s ∧
      s.FramesOfCalls := by
  refine ⟨_, rfl, ?_⟩
  have hall := frames_of_calls
    (wholeCall ⟨1, 50⟩ 0 ++ List.replicate 5 (.task 1 0) ++ .enter ⟨0, 1⟩ ::
      List.replicate 5 (.call true 1) ++ List.replicate 4 (.task 1 0)) (by decide)
  exact always_iff_prefix.mp hall _ (List.prefix_refl _) _ rfl

/-- A brightness call is interrupted after its first store by a switch
call; when that one has been written the interrupted call goes on, and
the next frame is an OnOffCMD with the brightness for its data byte and
a valid checksum. -/
theorem torn_frame_written :
    ¬ ∀ as, Always statementStep SendWorld.FramesOfCalls SendWorld.boot as := by
  intro h
  have hend := always_iff_prefix.mp (h
    (.enter ⟨1, 50⟩ :: .call true 0 :: wholeCall ⟨0, 1⟩ 1 ++ List.replicate 7 (.task 1 0)
      ++ List.replicate 4 (.call true 0) ++ List.replicate 6 (.task 1 0))) _
    (List.prefix_refl _) _ rfl
  obtain ⟨q, hq, hframe⟩ := hend ⟨0xaa, 0x55, 0, 50, 49⟩ (by decide)
  revert hframe
  revert q
  decide

/-! ## What a torn copy leads to -/

theorem noting_filled {s s' : SendWorld × LastStores} {a : StatementAct}
    (h : Filled s.1.ucSendBuff s.1.calls s.2)
    (hs : noting statementStep noteStores s a = some s') :
    Filled s'.1.ucSendBuff s'.1.calls s'.2 := by
  obtain ⟨hstep, hnote⟩ := noting_eq_some.mp hs
  obtain ⟨s', p'⟩ := s'
  subst hnote
  cases a with
  | enter c =>
      cases hstep
      exact h.onwards (Onwards.append _ _)
  | call created k =>
      obtain ⟨q, hq, hmove⟩ := callStep_cases hstep
      exact hmove.filled hq created h
  | task w t =>
      obtain ⟨x, hx, hmove⟩ := taskStep_cases hstep
      exact hmove.filled hx w h
  | rxFlag b =>
      cases hstep
      exact h

/-- What a task copies it writes, when it is left alone. -/
theorem run_copy_to_report {s : SendWorld} {t : Nat} {x : SendTask} (hx : s.tasks[t]? = some x)
    (hpc : x.pc = .memcpy) (h₁ : s.ucSendBuff.head1 = sendHead1)
    (h₂ : s.ucSendBuff.head2 = sendHead2) :
    run statementStep s (.rxFlag false :: List.replicate 5 (.task 0 t)) = some { s with
      ucSendFlag := false
      ucRxTaskHandleFlag := false
      tasks := s.tasks.set t ⟨.report, s.ucSendBuff⟩
      effects := s.effects ++ transmit s.ucSendBuff } := by
  obtain ⟨ht, rfl⟩ := List.getElem?_eq_some_iff.mp hx
  simp [List.replicate, statementStep, SendWorld.taskStep, SendWorld.taskTo, hpc, ht, h₁, h₂]

theorem filled_of_run {as : List StatementAct} {s : SendWorld} {p : LastStores}
    (h : run (noting statementStep noteStores) (SendWorld.boot, LastStores.boot) as = some (s, p)) :
    Filled s.ucSendBuff s.calls p :=
  run_invariant (I := fun q : SendWorld × LastStores => Filled q.1.ucSendBuff q.1.calls q.2)
    (fun _ _ _ h hs => noting_filled h hs) boot_intact.filled h

/-- **A torn copy is written**: a task that copies a mailbox holding the
frame of no call can go on to transmit it, and of such a mailbox the last
stores were not made by one call. The stores of several calls may still
make the frame of one; a copy of that is not torn. -/
theorem torn_copy_is_written {as : List StatementAct} {s : SendWorld} {p : LastStores}
    (hrun : run (noting statementStep noteStores) (SendWorld.boot, LastStores.boot) as
      = some (s, p))
    {t : Nat} {x : SendTask} (hx : s.tasks[t]? = some x) (hpc : x.pc = .memcpy)
    (htorn : ¬ OfCall s.calls s.ucSendBuff) :
    ¬ p.Whole ∧ ∃ bs s', run statementStep s bs = some s' ∧ ¬ s'.FramesOfCalls := by
  have hfilled := filled_of_run hrun
  refine ⟨fun hp => htorn (hfilled.whole hp), _, _,
    run_copy_to_report hx hpc hfilled.head1 hfilled.head2, ?_⟩
  intro hframes
  apply htorn
  apply hframes
  rw [writtenFrames_append, writtenFrames_transmit]
  exact List.mem_append_right _ (List.mem_singleton.mpr rfl)

end LiveWireSwitch
