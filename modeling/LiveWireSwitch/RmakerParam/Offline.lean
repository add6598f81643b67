import LiveWireSwitch.RmakerParam.Reports
import LiveWireSwitch.AppRainmaker
import LiveWireSwitch.Lib.Runs

/-!
# RmakerParam — Offline

Whether a change made while MQTT is down is reported later. The change
flag is what a later report would find it by, and
`esp_rmaker_report_param_internal` resets the flags when the text is
built and drops the result of the publish, so a report built offline
forgets everything it contains.
-/

namespace LiveWireSwitch

open Lib

variable {α : Type} [DecidableEq α] (node : RmakerNode α)

/-- What happens to the agent after start-up: an update is made and
reported, or the connection changes. -/
inductive AgentAct (α : Type) where
  | updateAndReport (mem : Memory) (p : α) (v : Val)
  | mqtt (connected : Bool)

def agentStep (s : RmakerAgent α) : AgentAct α → Option (RmakerAgent α)
  | .updateAndReport mem p v =>
      if node.Has p then some (espRmakerParamUpdateAndReport node mem p v s).2 else none
  | .mqtt connected => some { s with mqttConnected := connected }

/-- The cloud has the value a parameter has. -/
def RmakerAgent.CloudHas (s : RmakerAgent α) (p : α) : Prop :=
  s.lastPublished p = some (s.param p).val

instance (s : RmakerAgent α) (p : α) : Decidable (s.CloudHas p) :=
  inferInstanceAs (Decidable (_ = _))

/-- No change is forgotten: what the cloud does not have is flagged. -/
def NothingForgotten (s : RmakerAgent α) : Prop :=
  ∀ p, node.Has p → ¬ s.CloudHas p → (s.param p).Flagged rmakerParamFlagValueChange

/-- RainMaker is started, the parameters are subscribed to and the cloud
has them all. -/
structure NodeStateReported (s : RmakerAgent α) : Prop where
  started : s.started = true
  initDone : s.espRmakerParamsMqttInitDone = true
  known : ∀ p, node.Has p → s.CloudHas p

/-- The report of an update has nothing in it that the cloud lacks, or
reaches the cloud, or is not built. -/
def LosesNothing (s : RmakerAgent α) : AgentAct α → Prop
  | .updateAndReport mem p v =>
      s.mqttConnected = true ∨ ¬ Accepted mem p v s ∨
        ¬ Builds node mem rmakerParamFlagValueChange (s.marked p v) ∨
          ∀ q, node.Has q → ((s.marked p v).param q).Flagged rmakerParamFlagValueChange →
            (s.marked p v).CloudHas q
  | .mqtt _ => True

/-! ## The last successful publish -/

theorem lastPublished_cons (s : RmakerAgent α) (topic : ReportTopic) (r : Report α) (p : α) :
    ({ s with published := (topic, r) :: s.published } : RmakerAgent α).lastPublished p
      = (r.value? p).or (s.lastPublished p) := by
  simp only [RmakerAgent.lastPublished, List.findSome?_cons]
  cases r.value? p <;> rfl

theorem cloudHas_congr {s t : RmakerAgent α} {p : α} (hpub : s.published = t.published)
    (hval : (s.param p).val = (t.param p).val) : s.CloudHas p ↔ t.CloudHas p := by
  rw [RmakerAgent.CloudHas, RmakerAgent.CloudHas, RmakerAgent.lastPublished,
    RmakerAgent.lastPublished, hpub, hval]

/-- After a report is published, a parameter is known that was in it or
was known before. -/
theorem cloudHas_published {s : RmakerAgent α} {flags : UInt8} {p : α} (topic : ReportTopic)
    (hp : node.Has p) (h : Included flags (s.param p) ∨ s.CloudHas p) :
    (({ s with published := (topic, node.report flags s.param) :: s.published } :
      RmakerAgent α)).CloudHas p := by
  rw [RmakerAgent.CloudHas, lastPublished_cons]
  by_cases hinc : Included flags (s.param p)
  · rw [(report_value? node).mpr ⟨hp, hinc, rfl⟩]
    rfl
  · have hnone : (node.report flags s.param).value? p = none := by
      rw [← Option.not_isSome_iff_eq_none, Option.isSome_iff_exists]
      rintro ⟨v, hv⟩
      exact hinc ((report_value? node).mp hv).2.1
    rw [hnone]
    exact h.resolve_left hinc

/-- `esp_rmaker_params_mqtt_init` while connected, with RainMaker
started, leaves a node whose state is reported. -/
theorem paramsMqttInit_reported {mem : Memory} {s : RmakerAgent α} (hstarted : s.started = true)
    (hconn : s.mqttConnected = true) (hb : Builds node mem 0 s) :
    NodeStateReported node (espRmakerParamsMqttInit node .ok mem s).2.1 := by
  have hb' : Builds node mem 0 { s with espRmakerParamsMqttInitDone := true } := hb
  obtain ⟨size, he⟩ := allocate_of_builds node false hb'
  simp only [espRmakerParamsMqttInit, if_true, espRmakerReportNodeState, he, RmakerAgent.bufLength]
  by_cases hlen : 10 < ((node.report 0 s.param).text node).utf8ByteSize
  · simp only [if_pos hlen, publishBuf, if_true, espRmakerMqttPublish, hconn, Option.getD_some]
    exact ⟨hstarted, rfl, fun p hp => cloudHas_published node _ hp (.inl (.inl rfl))⟩
  · rw [if_neg hlen]
    -- a node without parameters
    refine ⟨hstarted, rfl, fun p hp => ?_⟩
    exact absurd (size_report_of_included node s.param hp (.inl rfl)) hlen

/-! ## Resetting the flags -/

theorem not_flagged_resetFlags {flags : UInt8} {param : α → ParamState} {p : α}
    (hp : node.Has p) : ¬ (node.resetFlags flags param p).Flagged flags := by
  rw [RmakerNode.resetFlags, if_pos hp, ParamState.Flagged, UInt8.and_assoc, UInt8.not_and_self,
    UInt8.and_zero]
  exact not_not.mpr rfl

/-! ## One step -/

theorem agentStep_started {s s' : RmakerAgent α} {a : AgentAct α}
    (h : s.started = true ∧ s.espRmakerParamsMqttInitDone = true)
    (hs : agentStep node s a = some s') :
    s'.started = true ∧ s'.espRmakerParamsMqttInitDone = true := by
  cases a with
  | mqtt connected =>
      cases hs
      exact h
  | updateAndReport mem p v =>
      rw [agentStep] at hs
      by_cases hp : node.Has p
      · rw [if_pos hp, Option.some.injEq] at hs
        subst hs
        by_cases hacc : Accepted mem p v s
        · by_cases hb : Builds node mem rmakerParamFlagValueChange (s.marked p v)
          · obtain ⟨size, he⟩ := updateAndReport_built node hp hacc h.1 h.2 hb
            rw [he]
            exact h
          · obtain ⟨buf, size, he⟩ := updateAndReport_unbuilt node hacc h.1 hb
            rw [he]
            exact h
        · rw [updateAndReport_rejected node hacc]
          exact h
      · rw [if_neg hp] at hs
        cases hs

/-- Marking one parameter does not make the cloud lose another. -/
theorem cloudHas_marked {s : RmakerAgent α} (hP : NothingForgotten node s) {p q : α} {v : Val}
    (hq : node.Has q) (h : ¬ ((s.marked p v).param q).Flagged rmakerParamFlagValueChange) :
    (s.marked p v).CloudHas q := by
  have hne : q ≠ p := by
    rintro rfl
    exact h (flagged_marked s q v)
  rw [marked_ne s v hne] at h
  have hknown : s.CloudHas q := by
    by_contra hno
    exact h (hP q hq hno)
  rw [RmakerAgent.CloudHas, marked_ne s v hne]
  exact hknown

/-- A report built while connected leaves nothing the cloud lacks. -/
theorem cloudHas_reported_online {s : RmakerAgent α} {mem : Memory} {p : α} {v : Val}
    (h : s.started = true ∧ s.espRmakerParamsMqttInitDone = true)
    (hP : NothingForgotten node s) (hp : node.Has p) (hacc : Accepted mem p v s)
    (hb : Builds node mem rmakerParamFlagValueChange (s.marked p v))
    (hconn : s.mqttConnected = true) {q : α} (hq : node.Has q) :
    (espRmakerParamUpdateAndReport node mem p v s).2.CloudHas q := by
  obtain ⟨size, he⟩ := updateAndReport_built node hp hacc h.1 h.2 hb
  -- what is flagged is in the report, and what is not was never missing
  have hknown : Included rmakerParamFlagValueChange ((s.marked p v).param q) ∨
      (s.marked p v).CloudHas q := by
    by_cases hf : ((s.marked p v).param q).Flagged rmakerParamFlagValueChange
    · exact .inl (.inr hf)
    · exact .inr (cloudHas_marked node hP hq hf)
  have hpub := cloudHas_published node .paramsLocal hq hknown
  rw [he, hconn]
  refine (cloudHas_congr ?_ ?_).mpr hpub
  · rfl
  · exact resetFlags_val node _ _ q

/-- A report built offline takes every flag away, so afterwards nothing
is forgotten only if there was nothing the cloud lacked. -/
theorem nothingForgotten_reported_offline {s : RmakerAgent α} {mem : Memory} {p : α} {v : Val}
    (h : s.started = true ∧ s.espRmakerParamsMqttInitDone = true) (hp : node.Has p)
    (hacc : Accepted mem p v s) (hb : Builds node mem rmakerParamFlagValueChange (s.marked p v))
    (hconn : s.mqttConnected = false) :
    NothingForgotten node (espRmakerParamUpdateAndReport node mem p v s).2 ↔
      ∀ q, node.Has q → (s.marked p v).CloudHas q := by
  obtain ⟨size, he⟩ := updateAndReport_built node hp hacc h.1 h.2 hb
  have hsame : ∀ q, (espRmakerParamUpdateAndReport node mem p v s).2.CloudHas q ↔
      (s.marked p v).CloudHas q := by
    intro q
    rw [he, hconn]
    refine cloudHas_congr ?_ ?_
    · rfl
    · exact resetFlags_val node _ _ q
  constructor
  · intro hnone q hq
    by_contra hno
    have hflag := hnone q hq (mt (hsame q).mp hno)
    rw [he] at hflag
    exact not_flagged_resetFlags node hq hflag
  · intro hall q hq hno
    exact absurd ((hsame q).mpr (hall q hq)) hno

/-- **An update and report keeps the property exactly when** it loses
nothing. -/
theorem nothingForgotten_step {s s' : RmakerAgent α} {a : AgentAct α}
    (h : s.started = true ∧ s.espRmakerParamsMqttInitDone = true)
    (hP : NothingForgotten node s) (hs : agentStep node s a = some s') :
    NothingForgotten node s' ↔ LosesNothing node s a := by
  cases a with
  | mqtt connected =>
      cases hs
      exact iff_of_true hP trivial
  | updateAndReport mem p v =>
      rw [agentStep] at hs
      by_cases hp : node.Has p
      · rw [if_pos hp, Option.some.injEq] at hs
        subst hs
        by_cases hacc : Accepted mem p v s
        · by_cases hb : Builds node mem rmakerParamFlagValueChange (s.marked p v)
          · cases hconn : s.mqttConnected with
            | true =>
                refine iff_of_true (fun q hq hno => absurd ?_ hno) (.inl hconn)
                exact cloudHas_reported_online node h hP hp hacc hb hconn hq
            | false =>
                rw [nothingForgotten_reported_offline node h hp hacc hb hconn]
                simp only [LosesNothing, hconn, hacc, hb, not_true_eq_false, false_or,
                  Bool.false_eq_true]
                refine forall₂_congr fun q hq => ⟨fun hhas _ => hhas, fun hflagged => ?_⟩
                by_contra hno
                exact hno (cloudHas_marked node hP hq (mt hflagged hno))
          · -- not built: the flag stays
            obtain ⟨buf, size, he⟩ := updateAndReport_unbuilt node hacc h.1 hb
            rw [he]
            refine iff_of_true (fun q hq hno => ?_) (.inr (.inr (.inl hb)))
            by_contra hf
            exact hno (cloudHas_marked node hP hq hf)
        · rw [updateAndReport_rejected node hacc]
          exact iff_of_true hP (.inr (.inl hacc))
      · rw [if_neg hp] at hs
        cases hs

/-- **Once the node state is reported, no change is forgotten in any
state of a run exactly when** every report built offline holds only what
the cloud has. -/
theorem nothing_forgotten_iff {s : RmakerAgent α} (h : NodeStateReported node s)
    (acts : List (AgentAct α)) :
    Always (agentStep node) (NothingForgotten node) s acts ↔
      Guarded (agentStep node) (LosesNothing node) s acts :=
  always_iff_guarded (fun _ _ _ => agentStep_started node)
    (fun _ _ _ => nothingForgotten_step node) acts ⟨h.started, h.initDone⟩
    fun p hp hno => absurd (h.known p hp) hno

theorem lightAgent_reported : NodeStateReported lightNode lightAgent :=
  paramsMqttInit_reported lightNode rfl rfl ⟨.inr rfl, .inr rfl⟩

/-- The light switched on while MQTT is up. -/
theorem nothing_forgotten_iff_online :
    Always (agentStep lightNode) (NothingForgotten lightNode) lightAgent
      [.updateAndReport .enough .power (.boolean true)] :=
  (nothing_forgotten_iff lightNode lightAgent_reported _).mpr fun _ _ => ⟨.inl rfl, trivial⟩

/-- The light switched on while MQTT is down is not reported when it
comes back. -/
theorem offline_change_forgotten :
    ¬ ∀ (s : RmakerAgent LightParam) (acts : List (AgentAct LightParam)),
      NodeStateReported lightNode s →
        Always (agentStep lightNode) (NothingForgotten lightNode) s acts := by
  intro h
  have hrun := h lightAgent [.mqtt false, .updateAndReport .enough .power (.boolean true)]
    lightAgent_reported
  have hend := ((hrun.2 _ rfl).2 _ rfl).head
  exact absurd (hend .power (lightNode_has .power) (by decide)) (by decide)

end LiveWireSwitch
