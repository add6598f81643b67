import LiveWireSwitch.RmakerParam

/-!
# RmakerParam — Reports

What a report contains, when one gets built, and from these what
`esp_rmaker_param_update_and_report` does, case by case.
-/

namespace LiveWireSwitch

variable {α : Type} [DecidableEq α] (node : RmakerNode α)

/-! ## The contents of a report -/

theorem lookup_included {flags : UInt8} {param : α → ParamState} {d : RmakerDevice α} {p : α}
    {v : Val} : (d.included flags param).lookup p = some v ↔
      p ∈ d.params ∧ Included flags (param p) ∧ (param p).val = v := by
  by_cases h : p ∈ d.params.filter fun q => decide (Included flags (param q))
  · rw [RmakerDevice.included, List.lookup_graph (fun q => (param q).val) h]
    rw [List.mem_filter, decide_eq_true_eq] at h
    simp [h]
  · have hnone : (d.included flags param).lookup p = none := by
      rw [List.lookup_eq_none_iff]
      intro e he
      obtain ⟨q, hq, rfl⟩ := List.mem_map.mp he
      exact bne_iff_ne.mpr fun heq => h (heq ▸ hq)
    rw [hnone]
    rw [List.mem_filter, decide_eq_true_eq] at h
    simp only [reduceCtorEq, false_iff]
    exact fun hall => h ⟨hall.1, hall.2.1⟩

omit [DecidableEq α] in
/-- The devices of a report. -/
theorem mem_report {flags : UInt8} {param : α → ParamState} {r : DeviceReport α} :
    r ∈ node.report flags param ↔
      ∃ d ∈ node.devices, d.included flags param ≠ [] ∧ r = ⟨d.name, d.included flags param⟩ := by
  simp only [RmakerNode.report, List.mem_filterMap]
  refine exists_congr fun d => and_congr_right fun _ => ?_
  by_cases h : d.included flags param = []
  · simp [h]
  · simp [h, eq_comm]

/-- **A report gives exactly the included parameters of the node, with
their values.** -/
theorem report_value? {flags : UInt8} {param : α → ParamState} {p : α} {v : Val} :
    (node.report flags param).value? p = some v ↔
      node.Has p ∧ Included flags (param p) ∧ (param p).val = v := by
  have hforward : ∀ {w}, (node.report flags param).value? p = some w →
      node.Has p ∧ Included flags (param p) ∧ (param p).val = w := by
    intro w h
    obtain ⟨r, hr, hlookup⟩ := List.exists_of_findSome?_eq_some h
    obtain ⟨d, hd, _, rfl⟩ := (mem_report node).mp hr
    obtain ⟨hp, hinc, hv⟩ := lookup_included.mp hlookup
    exact ⟨⟨d, hd, hp⟩, hinc, hv⟩
  refine ⟨hforward, ?_⟩
  rintro ⟨⟨d, hd, hp⟩, hinc, rfl⟩
  -- the device of `p` has an entry for it, so the search finds one
  have hlookup : (d.included flags param).lookup p = some (param p).val :=
    lookup_included.mpr ⟨hp, hinc, rfl⟩
  have hne : d.included flags param ≠ [] := by
    intro hnil
    rw [hnil] at hlookup
    cases hlookup
  have hmem := (mem_report node).mpr ⟨d, hd, hne, rfl⟩
  have hsome : ((node.report flags param).value? p).isSome := by
    rw [Report.value?, List.findSome?_isSome_iff]
    exact ⟨_, hmem, by rw [hlookup]; rfl⟩
  obtain ⟨w, hw⟩ := Option.isSome_iff_exists.mp hsome
  rw [hw, (hforward hw).2.2]

/-! ## The size of its text -/

theorem size_le_joinComma {a : String} {as : List String} (h : a ∈ as) :
    a.utf8ByteSize ≤ (joinComma as).utf8ByteSize := by
  induction as with
  | nil => cases h
  | cons b bs ih =>
      cases bs with
      | nil =>
          rw [List.mem_singleton] at h
          rw [h, joinComma]
      | cons c cs =>
          have hstep : (joinComma (b :: c :: cs)).utf8ByteSize
              = b.utf8ByteSize + 1 + (joinComma (c :: cs)).utf8ByteSize := by
            rw [joinComma, String.utf8ByteSize_append, String.utf8ByteSize_append]
            · rfl
            · exact List.cons_ne_nil c cs
          rcases List.mem_cons.mp h with rfl | h
          · omega
          · have := ih h
            omega

theorem size_jsonMember (name : Name) (value : String) :
    (jsonMember name value).utf8ByteSize = name.text.utf8ByteSize + 3 + value.utf8ByteSize := by
  simp only [jsonMember, String.utf8ByteSize_append]
  have h₁ : "\"".utf8ByteSize = 1 := rfl
  have h₂ : "\":".utf8ByteSize = 2 := rfl
  omega

theorem size_jsonObject (members : List String) :
    (jsonObject members).utf8ByteSize = (joinComma members).utf8ByteSize + 2 := by
  simp only [jsonObject, String.utf8ByteSize_append]
  have h₁ : "\x7b".utf8ByteSize = 1 := rfl
  have h₂ : "\x7d".utf8ByteSize = 1 := rfl
  omega

omit [DecidableEq α] in
/-- A report with a parameter in it passes the length test of
`esp_rmaker_report_param_internal`. -/
theorem size_report {r : Report α} {d : DeviceReport α} (hd : d ∈ r) (hp : d.params ≠ []) :
    10 < (r.text node).utf8ByteSize := by
  obtain ⟨e, he⟩ := List.exists_mem_of_ne_nil _ hp
  have hparam := size_le_joinComma (List.mem_map_of_mem
    (f := fun e => jsonMember (node.paramName e.1) e.2.text) he)
  have hdevice := size_le_joinComma (List.mem_map_of_mem (f := DeviceReport.text node) hd)
  rw [size_jsonMember] at hparam
  rw [DeviceReport.text, size_jsonMember, size_jsonObject] at hdevice
  rw [Report.text, size_jsonObject]
  have := (node.paramName e.1).ne_empty
  have := d.name.ne_empty
  omega

theorem size_report_of_included {flags : UInt8} (param : α → ParamState) {p : α}
    (hp : node.Has p) (hinc : Included flags (param p)) :
    10 < ((node.report flags param).text node).utf8ByteSize := by
  obtain ⟨d, hd, hmem⟩ := hp
  have hlookup : (d.included flags param).lookup p = some (param p).val :=
    lookup_included.mpr ⟨hmem, hinc, rfl⟩
  have hne : d.included flags param ≠ [] := by
    intro hnil
    rw [hnil] at hlookup
    cases hlookup
  exact size_report node ((mem_report node).mpr ⟨d, hd, hne, rfl⟩) hne

/-! ## Building and publishing -/

/-- The buffer for a report can be had: there is one or it can be
allocated, and the text fits or a larger one can be. -/
def Builds (mem : Memory) (flags : UInt8) (s : RmakerAgent α) : Prop :=
  (s.nodeParamsBuf.isSome ∨ mem.callocFirst = true) ∧
    (((node.report flags s.param).text node).utf8ByteSize + 1 ≤ s.maxNodeParamsSize ∨
      mem.callocAgain = true)

instance (mem : Memory) (flags : UInt8) (s : RmakerAgent α) : Decidable (Builds node mem flags s) :=
  inferInstanceAs (Decidable (_ ∧ _))

/-- A text that fits is put in the buffer. -/
theorem populate_of_fits {bufLen : Nat} {flags : UInt8} {reset : Bool} {s : RmakerAgent α}
    (h : ((node.report flags s.param).text node).utf8ByteSize + 1 ≤ bufLen) :
    espRmakerPopulateParams node bufLen flags reset s
      = (.ok, ((node.report flags s.param).text node).utf8ByteSize + 1, { s with
          nodeParamsBuf := some (node.report flags s.param)
          param := if reset then node.resetFlags flags s.param else s.param }) := by
  rw [espRmakerPopulateParams, if_pos h]

theorem populate_of_not_fits {bufLen : Nat} {flags : UInt8} {reset : Bool} {s : RmakerAgent α}
    (h : ¬ ((node.report flags s.param).text node).utf8ByteSize + 1 ≤ bufLen) :
    espRmakerPopulateParams node bufLen flags reset s
      = (.noMem, ((node.report flags s.param).text node).utf8ByteSize + 1, s) := by
  rw [espRmakerPopulateParams, if_neg h]

/-- **A report that can be built is**, and then the flags are reset. -/
theorem allocate_of_builds {mem : Memory} {flags : UInt8} (reset : Bool) {s : RmakerAgent α}
    (h : Builds node mem flags s) :
    ∃ size, espRmakerAllocateAndPopulateParams node mem flags reset s
      = (.ok, { s with
          nodeParamsBuf := some (node.report flags s.param)
          maxNodeParamsSize := size
          param := if reset then node.resetFlags flags s.param else s.param }) := by
  obtain ⟨hbuf, hsize⟩ := h
  have hfirst : ¬ (s.nodeParamsBuf.isNone ∧ mem.callocFirst = false) := by
    rintro ⟨hnone, hcalloc⟩
    rcases hbuf with hsome | hcalloc'
    · rw [Option.isNone_iff_eq_none] at hnone
      rw [hnone] at hsome
      cases hsome
    · rw [hcalloc] at hcalloc'
      cases hcalloc'
  by_cases hfits : ((node.report flags s.param).text node).utf8ByteSize + 1 ≤ s.maxNodeParamsSize
  · refine ⟨s.maxNodeParamsSize, ?_⟩
    simp only [espRmakerAllocateAndPopulateParams, if_neg hfirst]
    rw [populate_of_fits node (by exact hfits)]
    simp
  · have hagain : ¬ mem.callocAgain = false := by
      rw [hsize.resolve_left hfits]
      exact Bool.noConfusion
    refine ⟨((node.report flags s.param).text node).utf8ByteSize + 1 + rmakerParamsSizeMargin, ?_⟩
    simp only [espRmakerAllocateAndPopulateParams, if_neg hfirst]
    rw [populate_of_not_fits node (by exact hfits)]
    simp only [if_true, if_neg hagain]
    rw [populate_of_fits node (by exact Nat.le_add_right _ _)]

/-- A report that cannot be built leaves the parameters as they are. -/
theorem allocate_of_not_builds {mem : Memory} {flags : UInt8} (reset : Bool)
    {s : RmakerAgent α} (h : ¬ Builds node mem flags s) :
    ∃ buf size, espRmakerAllocateAndPopulateParams node mem flags reset s
      = (.noMem, { s with nodeParamsBuf := buf, maxNodeParamsSize := size }) := by
  by_cases hfirst : s.nodeParamsBuf.isNone ∧ mem.callocFirst = false
  · exact ⟨s.nodeParamsBuf, s.maxNodeParamsSize, by
      rw [espRmakerAllocateAndPopulateParams, if_pos hfirst]⟩
  · have hbuf : s.nodeParamsBuf.isSome ∨ mem.callocFirst = true := by
      cases hb : s.nodeParamsBuf with
      | some r => exact .inl rfl
      | none =>
          refine .inr ?_
          rw [hb] at hfirst
          simpa using hfirst
    have hfail := mt (And.intro hbuf) h
    rw [not_or] at hfail
    refine ⟨none,
      ((node.report flags s.param).text node).utf8ByteSize + 1 + rmakerParamsSizeMargin, ?_⟩
    simp only [espRmakerAllocateAndPopulateParams, if_neg hfirst]
    rw [populate_of_not_fits node (by exact hfail.1)]
    simp only [if_true, if_pos (Bool.eq_false_iff.mpr hfail.2)]

/-! ## A value written and reported -/

/-- What makes `esp_rmaker_param_update` take a value. -/
def Accepted (mem : Memory) (p : α) (v : Val) (s : RmakerAgent α) : Prop :=
  (s.param p).val.type = v.type ∧ (v.copied → mem.strdup = true)

instance (mem : Memory) (p : α) (v : Val) (s : RmakerAgent α) : Decidable (Accepted mem p v s) :=
  inferInstanceAs (Decidable (_ ∧ _))

/-- The value is written and the parameter flagged; nothing is reported
yet. -/
def RmakerAgent.marked (s : RmakerAgent α) (p : α) (v : Val) : RmakerAgent α :=
  (s.setVal p v).orFlags p rmakerParamFlagValueChange

theorem marked_self (s : RmakerAgent α) (p : α) (v : Val) :
    (s.marked p v).param p = ⟨v, (s.param p).flags ||| rmakerParamFlagValueChange⟩ := by
  simp [RmakerAgent.marked, RmakerAgent.orFlags, RmakerAgent.setVal]

theorem marked_ne (s : RmakerAgent α) {p q : α} (v : Val) (h : q ≠ p) :
    (s.marked p v).param q = s.param q := by
  simp [RmakerAgent.marked, RmakerAgent.orFlags, RmakerAgent.setVal, h]

theorem or_and_self (f c : UInt8) : (f ||| c) &&& c = c := by
  rw [← UInt8.toBitVec_inj]
  ext i
  simp only [UInt8.toBitVec_and, UInt8.toBitVec_or, BitVec.getElem_and, BitVec.getElem_or,
    Bool.and_eq_right_iff_imp, Bool.or_eq_true]
  exact .inr

/-- A marked parameter is flagged. -/
theorem flagged_marked (s : RmakerAgent α) (p : α) (v : Val) :
    ((s.marked p v).param p).Flagged rmakerParamFlagValueChange := by
  rw [marked_self, ParamState.Flagged, or_and_self]
  decide

theorem update_rejected {mem : Memory} {p : α} {v : Val} {s : RmakerAgent α}
    (h : ¬ Accepted mem p v s) :
    (espRmakerParamUpdate mem p v s).1 ≠ .ok ∧ (espRmakerParamUpdate mem p v s).2 = s := by
  rw [espRmakerParamUpdate]
  by_cases htype : (s.param p).val.type ≠ v.type
  · rw [if_pos htype]
    exact ⟨EspErr.noConfusion, rfl⟩
  · have hcopy : v.copied ∧ mem.strdup = false := by
      rw [Accepted, not_and, Classical.not_imp] at h
      obtain ⟨hcopied, hdup⟩ := h (not_not.mp htype)
      exact ⟨hcopied, Bool.eq_false_iff.mpr hdup⟩
    rw [if_neg htype, if_pos hcopy]
    exact ⟨EspErr.noConfusion, rfl⟩

theorem update_accepted {mem : Memory} {p : α} {v : Val} {s : RmakerAgent α}
    (h : Accepted mem p v s) : espRmakerParamUpdate mem p v s = (.ok, s.setVal p v) := by
  have hcopy : ¬ (v.copied ∧ mem.strdup = false) := by
    rintro ⟨hcopied, hdup⟩
    rw [h.2 hcopied] at hdup
    cases hdup
  rw [espRmakerParamUpdate, if_neg (not_not.mpr h.1), if_neg hcopy]

theorem updateAndReport_rejected {mem : Memory} {p : α} {v : Val} {s : RmakerAgent α}
    (h : ¬ Accepted mem p v s) : (espRmakerParamUpdateAndReport node mem p v s).2 = s := by
  obtain ⟨herr, hs⟩ := update_rejected h
  rw [espRmakerParamUpdateAndReport, if_neg (fun hok => herr hok.1), hs]

/-- An accepted call, once RainMaker is started, is a report of the
marked state. -/
theorem updateAndReport_accepted {mem : Memory} {p : α} {v : Val} {s : RmakerAgent α}
    (h : Accepted mem p v s) (hstarted : s.started = true) :
    espRmakerParamUpdateAndReport node mem p v s
      = espRmakerReportParamInternal node mem rmakerParamFlagValueChange (s.marked p v) := by
  simp only [espRmakerParamUpdateAndReport, update_accepted h]
  rw [if_pos ⟨trivial, hstarted⟩, espRmakerParamReport]
  rfl

theorem updateAndReport_unbuilt {mem : Memory} {p : α} {v : Val} {s : RmakerAgent α}
    (h : Accepted mem p v s) (hstarted : s.started = true)
    (hb : ¬ Builds node mem rmakerParamFlagValueChange (s.marked p v)) :
    ∃ buf size, (espRmakerParamUpdateAndReport node mem p v s).2
      = { s.marked p v with nodeParamsBuf := buf, maxNodeParamsSize := size } := by
  obtain ⟨buf, size, he⟩ := allocate_of_not_builds node true hb
  refine ⟨buf, size, ?_⟩
  rw [updateAndReport_accepted node h hstarted, espRmakerReportParamInternal, he,
    if_neg EspErr.noConfusion]

/-- **A report that gets built clears every flag, and reaches the cloud
only while MQTT is connected.** -/
theorem updateAndReport_built {mem : Memory} {p : α} {v : Val} {s : RmakerAgent α}
    (hp : node.Has p) (h : Accepted mem p v s) (hstarted : s.started = true)
    (hinit : s.espRmakerParamsMqttInitDone = true)
    (hb : Builds node mem rmakerParamFlagValueChange (s.marked p v)) :
    ∃ size, (espRmakerParamUpdateAndReport node mem p v s).2
      = { s.marked p v with
          nodeParamsBuf := some (node.report rmakerParamFlagValueChange (s.marked p v).param)
          maxNodeParamsSize := size
          param := node.resetFlags rmakerParamFlagValueChange (s.marked p v).param
          published :=
            if s.mqttConnected then
              (.paramsLocal, node.report rmakerParamFlagValueChange (s.marked p v).param)
                :: s.published
            else s.published } := by
  obtain ⟨size, he⟩ := allocate_of_builds node true hb
  have hlen := size_report_of_included node (s.marked p v).param hp
    (.inr (flagged_marked s p v))
  refine ⟨size, ?_⟩
  rw [updateAndReport_accepted node h hstarted, espRmakerReportParamInternal, he]
  have hconn : (s.marked p v).mqttConnected = s.mqttConnected := rfl
  have hdone : (s.marked p v).espRmakerParamsMqttInitDone = true := hinit
  simp only [if_true, RmakerAgent.bufLength, if_pos hlen, publishBuf, hdone,
    Option.getD_some, espRmakerMqttPublish, hconn]
  split <;> rfl

/-! ## Values -/

omit [DecidableEq α] in
theorem publishBuf_param (topic : ReportTopic) (s : RmakerAgent α) :
    (publishBuf topic s).param = s.param := by
  rw [publishBuf, espRmakerMqttPublish]
  split
  · split <;> rfl
  · rfl

@[simp] theorem resetFlags_val (flags : UInt8) (param : α → ParamState) (p : α) :
    (node.resetFlags flags param p).val = (param p).val := by
  rw [RmakerNode.resetFlags]
  split <;> rfl

/-- Building a report does not touch a value. -/
theorem allocate_val (mem : Memory) (flags : UInt8) (reset : Bool) (s : RmakerAgent α) (p : α) :
    ((espRmakerAllocateAndPopulateParams node mem flags reset s).2.param p).val
      = (s.param p).val := by
  by_cases hb : Builds node mem flags s
  · obtain ⟨size, he⟩ := allocate_of_builds node reset hb
    rw [he]
    cases reset with
    | true => exact resetFlags_val node flags s.param p
    | false => rfl
  · obtain ⟨buf, size, he⟩ := allocate_of_not_builds node reset hb
    rw [he]

theorem reportParamInternal_val (mem : Memory) (flags : UInt8) (s : RmakerAgent α) (p : α) :
    ((espRmakerReportParamInternal node mem flags s).2.param p).val = (s.param p).val := by
  rw [← allocate_val node mem flags true s p, espRmakerReportParamInternal]
  split
  · split
    · split
      · rw [publishBuf_param]
      · split
        · rw [publishBuf_param]
        · rfl
    · rfl
  · rfl

/-- **An accepted value is the parameter's value afterwards**, whatever
becomes of the report; the other parameters keep theirs. -/
theorem updateAndReport_val {mem : Memory} {p : α} {v : Val} {s : RmakerAgent α}
    (h : Accepted mem p v s) (q : α) :
    ((espRmakerParamUpdateAndReport node mem p v s).2.param q).val
      = if q = p then v else (s.param q).val := by
  have hset : ((s.setVal p v).param q).val = if q = p then v else (s.param q).val := by
    by_cases hq : q = p
    · simp [RmakerAgent.setVal, hq]
    · simp [RmakerAgent.setVal, hq]
  simp only [espRmakerParamUpdateAndReport, update_accepted h]
  split
  · rw [espRmakerParamReport, reportParamInternal_val, ← hset, RmakerAgent.orFlags]
    by_cases hq : q = p
    · simp [hq]
    · simp [hq]
  · exact hset

end LiveWireSwitch
