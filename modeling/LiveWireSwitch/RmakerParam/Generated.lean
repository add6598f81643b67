import LiveWireSwitch.AppRainmaker
import LiveWireSwitch.Json.Generator
import LiveWireSwitch.RmakerParam.Reports

/-!
# RmakerParam — Generated

`esp_rmaker_populate_params` call by call, with `device_added` and the
generator's `comma_req`: it writes the text of the report, and the step
that takes the whole text at once is right about the size and about
whether it fits. `esp_rmaker_get_node_params` calls it twice, for the size
and for the text.
-/

namespace LiveWireSwitch

/-- `esp_rmaker_report_value` -/
def espRmakerReportValue (val : Val) (key : List UInt8) : JsonGenStr → JsonGenResult :=
  match val with
  | .boolean b => jsonGenObjSetBool key b
  | .integer i => jsonGenObjSetInt key i
  | .float f => jsonGenObjSetFloat key f
  | .string s => jsonGenObjSetString key (s.map cBytes)
  | .object s => jsonGenPushObjectStr key (s.map cBytes)
  | .array s => jsonGenPushArrayStr key (s.map cBytes)

/-- `if (!device_added) json_gen_push_object(&jstr, device->name);` -/
def pushDevice (name : Name) (deviceAdded : Bool) (s : JsonGenStr) : JsonGenResult :=
  if deviceAdded then some (true, s) else jsonGenPushObject (cBytes name.text) s

/-- `if (device_added) json_gen_pop_object(&jstr);` -/
def popDevice (deviceAdded : Bool) (s : JsonGenStr) : JsonGenResult :=
  if deviceAdded then jsonGenPopObject s else some (true, s)

section Node

variable {α : Type} (node : RmakerNode α) (flags : UInt8) (param : α → ParamState)

/-- `while (param)`, with `device_added` before and after it. -/
def populateDevice (name : Name) : (deviceAdded : Bool) → List α → JsonGenStr → JsonGenResult
  | deviceAdded, [], s => some (deviceAdded, s)
  | deviceAdded, p :: ps, s =>
      if Included flags (param p) then
        ((pushDevice name deviceAdded s).next
          (espRmakerReportValue (param p).val (cBytes (node.paramName p).text))).next
            (populateDevice name true ps)
      else populateDevice name deviceAdded ps s

/-- `while (device)` -/
def populateDevices : List (RmakerDevice α) → JsonGenStr → JsonGenResult
  | [], s => some (true, s)
  | d :: ds, s =>
      (populateDevice node flags param d.name false d.params s).bind fun r =>
        (popDevice r.1 r.2).next (populateDevices ds)

/-- `esp_rmaker_populate_params` up to the flags: whether
`json_gen_end_object` returns 0, `*buf_len`, and what is in the buffer. -/
def populateBuffer (buf : Option Nat) : Option (Bool × Nat × List UInt8) :=
  (((jsonGenStartObject (jsonGenStrStart buf false)).next
    (populateDevices node flags param node.devices)).next jsonGenEndObject).map fun r =>
      (r.1, (jsonGenStrEnd r.2).1, r.2.written)

end Node

/-! ## The text -/

theorem joinComma_cons (a b : String) (as : List String) :
    joinComma (a :: b :: as) = a ++ "," ++ joinComma (b :: as) := rfl

/-- Members behind others, each with its comma. -/
def moreMembers (members : List String) : List UInt8 :=
  members.flatMap fun m => cBytes "," ++ cBytes m

theorem cBytes_joinComma (m : String) (ms : List String) :
    cBytes (joinComma (m :: ms)) = cBytes m ++ moreMembers ms := by
  induction ms generalizing m with
  | nil => exact (List.append_nil _).symm
  | cons a as ih =>
      rw [joinComma_cons, cBytes_append, cBytes_append, ih a, moreMembers, moreMembers,
        List.flatMap_cons]
      simp

section Emits

variable {size : Option Nat} {cb : Bool} (hroom : Roomy size cb)
include hroom

theorem emits_reportValue (val : Val) (key : Name) (c : Bool) :
    Emits size cb (espRmakerReportValue val (cBytes key.text)) c true
      (commaText c ++ cBytes (jsonMember key val.text)) := by
  have hname : nameText (some (cBytes key.text)) = cBytes ("\"" ++ key.text ++ "\":") := by
    rw [nameText, cBytes_append, cBytes_append]
  have htext : ∀ strs : List (Option (List UInt8)),
      (strs.flatMap fun str => str.getD []) = cBytes val.text →
      commaText c ++ nameText (some (cBytes key.text)) ++ [] ++
          (strs.flatMap fun str => str.getD [])
        = commaText c ++ cBytes (jsonMember key val.text) := by
    intro strs hstrs
    rw [hstrs, hname, List.append_nil, List.append_assoc, ← cBytes_append, jsonMember]
  have hgetD : ∀ s : Option String, (s.map cBytes).getD [] = cBytes (s.getD "") := by
    intro s
    cases s with
    | none => rfl
    | some s => rfl
  cases val with
  | boolean b =>
      rw [← htext [some (boolText b)] (by cases b <;> rfl)]
      exact emits_value hroom (some _) [some (boolText b)]
  | integer i =>
      rw [← htext [some (intText i)] (List.append_nil _)]
      exact emits_value hroom (some _) [some (intText i)]
  | float f =>
      rw [← htext [some (floatBytes f)] (List.append_nil _)]
      exact emits_value hroom (some _) [some (floatBytes f)]
  | string s =>
      rw [← htext (stringTexts (s.map cBytes)) (by
        rw [Val.text, cBytes_append, cBytes_append, ← hgetD]
        simp [stringTexts])]
      exact emits_value hroom (some _) (stringTexts (s.map cBytes))
  | object s =>
      rw [← htext [s.map cBytes] (by rw [Val.text, ← hgetD]; simp)]
      exact emits_value hroom (some _) [s.map cBytes]
  | array s =>
      rw [← htext [s.map cBytes] (by rw [Val.text, ← hgetD]; simp)]
      exact emits_value hroom (some _) [s.map cBytes]

theorem emits_push (name : Name) (c : Bool) :
    Emits size cb (jsonGenPushObject (cBytes name.text)) c false
      (commaText c ++ cBytes ("\"" ++ name.text ++ "\":\x7b")) := by
  have htext : commaText c ++ nameText (some (cBytes name.text)) ++ [] ++ cBytes "\x7b"
      = commaText c ++ cBytes ("\"" ++ name.text ++ "\":\x7b") := by
    have hsplit : "\"" ++ name.text ++ "\":\x7b" = "\"" ++ name.text ++ "\":" ++ "\x7b" := by
      rw [String.append_assoc, String.append_assoc, String.append_assoc]
      rfl
    rw [nameText, hsplit, cBytes_append, cBytes_append, cBytes_append]
    simp
  rw [← htext]
  exact emits_open hroom (some _) "\x7b"

variable {α : Type} (node : RmakerNode α) (flags : UInt8) (param : α → ParamState)

/-- What the report says of a parameter. -/
def memberText (e : α × Val) : String := jsonMember (node.paramName e.1) e.2.text

/-- The parameters among `ps` that go into the report. -/
def includedIn (ps : List α) : List (α × Val) :=
  (ps.filter fun p => decide (Included flags (param p))).map fun p => (p, (param p).val)

omit hroom in
theorem includedIn_cons (p : α) (ps : List α) :
    includedIn flags param (p :: ps)
      = (if Included flags (param p) then [(p, (param p).val)] else [])
          ++ includedIn flags param ps := by
  by_cases hinc : Included flags (param p)
  · rw [includedIn, List.filter_cons_of_pos (by simpa using hinc), if_pos hinc]
    rfl
  · rw [includedIn, List.filter_cons_of_neg (by simpa using hinc), if_neg hinc]
    rfl

/-- **The rest of a device**, behind a first parameter. -/
theorem populateDevice_more (name : Name) (ps : List α) {s : JsonGenStr} {text : List UInt8}
    (h : s.Holds size cb text true) :
    ∃ s', populateDevice node flags param name true ps s = some (true, s') ∧
      s'.Holds size cb
        (text ++ moreMembers ((includedIn flags param ps).map (memberText node))) true := by
  induction ps generalizing s text with
  | nil =>
      refine ⟨s, rfl, ?_⟩
      rw [includedIn, List.filter_nil, List.map_nil, List.map_nil, moreMembers, List.flatMap_nil,
        List.append_nil]
      exact h
  | cons p ps ih =>
      rw [populateDevice, includedIn_cons]
      by_cases hinc : Included flags (param p)
      · obtain ⟨ok, s₁, h₁, hs₁⟩ :=
          emits_reportValue hroom (param p).val (node.paramName p) true s text h
        obtain ⟨s', hs', hholds⟩ := ih hs₁
        rw [if_pos hinc, if_pos hinc]
        refine ⟨s', ?_, ?_⟩
        · rw [pushDevice, if_pos rfl]
          show (espRmakerReportValue _ _ s).next _ = _
          rw [h₁]
          exact hs'
        · rw [List.append_assoc] at hholds
          exact hholds
      · rw [if_neg hinc, if_neg hinc]
        exact ih h

/-- **A device from its start on**: nothing, or its name and its included
parameters. -/
theorem populateDevice_first (name : Name) (ps : List α) {s : JsonGenStr} {text : List UInt8}
    {c : Bool} (h : s.Holds size cb text c) :
    (includedIn flags param ps = [] ∧
      populateDevice node flags param name false ps s = some (false, s)) ∨
    ∃ e es s', includedIn flags param ps = e :: es ∧
      populateDevice node flags param name false ps s = some (true, s') ∧
      s'.Holds size cb (text ++ (commaText c ++ cBytes ("\"" ++ name.text ++ "\":\x7b") ++
        (cBytes (memberText node e) ++ moreMembers (es.map (memberText node))))) true := by
  induction ps with
  | nil => exact .inl ⟨rfl, rfl⟩
  | cons p ps ih =>
      rw [populateDevice, includedIn_cons]
      by_cases hinc : Included flags (param p)
      · obtain ⟨ok, s₁, h₁, hs₁⟩ := emits_push hroom name c s text h
        obtain ⟨ok₂, s₂, h₂, hs₂⟩ :=
          emits_reportValue hroom (param p).val (node.paramName p) false s₁ _ hs₁
        obtain ⟨s', hs', hholds⟩ := populateDevice_more hroom node flags param name ps hs₂
        rw [if_pos hinc, if_pos hinc]
        refine .inr ⟨_, _, s', rfl, ?_, ?_⟩
        · rw [pushDevice, if_neg Bool.noConfusion, h₁]
          show (espRmakerReportValue _ _ s₁).next _ = _
          rw [h₂]
          exact hs'
        · simpa [commaText, memberText] using hholds
      · rw [if_neg hinc, if_neg hinc]
        exact ih

/-- Members from the start on, or behind others. -/
def membersText (c : Bool) : List String → List UInt8
  | [] => []
  | m :: ms => commaText c ++ cBytes m ++ moreMembers ms

omit hroom in
theorem membersText_true (ms : List String) : membersText true ms = moreMembers ms := by
  cases ms with
  | nil => rfl
  | cons m ms => rfl

omit hroom in
theorem membersText_false (ms : List String) : membersText false ms = cBytes (joinComma ms) := by
  cases ms with
  | nil => rfl
  | cons m ms =>
      rw [cBytes_joinComma]
      rfl

omit hroom in
theorem report_cons (d : RmakerDevice α) (ds : List (RmakerDevice α)) :
    RmakerNode.report ⟨d :: ds, node.paramName⟩ flags param
      = (if d.included flags param = [] then [] else [⟨d.name, d.included flags param⟩])
          ++ RmakerNode.report ⟨ds, node.paramName⟩ flags param := by
  by_cases hnil : d.included flags param = []
  · simp [RmakerNode.report, hnil]
  · simp [RmakerNode.report, hnil]

omit hroom in
theorem cBytes_deviceText (d : DeviceReport α) {e : α × Val} {es : List (α × Val)}
    (h : d.params = e :: es) :
    cBytes (d.text node) = cBytes ("\"" ++ d.name.text ++ "\":\x7b") ++
      (cBytes (memberText node e) ++ moreMembers (es.map (memberText node))) ++ cBytes "\x7d" := by
  have hjoin : joinComma ((e :: es).map (memberText node))
      = joinComma (memberText node e :: es.map (memberText node)) := rfl
  have hsplit : d.text node
      = "\"" ++ d.name.text ++ "\":\x7b" ++ joinComma ((e :: es).map (memberText node))
          ++ "\x7d" := by
    rw [DeviceReport.text, h, jsonMember, jsonObject]
    have hcolon : "\":\x7b" = "\":" ++ "\x7b" := rfl
    rw [hcolon]
    simp only [String.append_assoc]
    rfl
  rw [hsplit, hjoin, cBytes_append, cBytes_append, cBytes_joinComma]

/-- **All devices.** -/
theorem populateDevices_holds (ds : List (RmakerDevice α)) {s : JsonGenStr} {text : List UInt8}
    {c : Bool} (h : s.Holds size cb text c) :
    ∃ ok s' c', populateDevices node flags param ds s = some (ok, s') ∧
      s'.Holds size cb (text ++ membersText c
        ((RmakerNode.report ⟨ds, node.paramName⟩ flags param).map
          (DeviceReport.text node))) c' := by
  induction ds generalizing s text c with
  | nil =>
      refine ⟨true, s, c, rfl, ?_⟩
      rw [RmakerNode.report, List.filterMap_nil, List.map_nil, membersText, List.append_nil]
      exact h
  | cons d ds ih =>
      rw [populateDevices, report_cons]
      rcases populateDevice_first hroom node flags param d.name d.params h with
        ⟨hnil, hsame⟩ | ⟨e, es, s₁, hincluded, h₁, hs₁⟩
      · have hnil' : d.included flags param = [] := hnil
        rw [hsame, if_pos hnil', List.nil_append]
        exact ih h
      · have hcons : d.included flags param = e :: es := hincluded
        have hne : ¬ d.included flags param = [] := by
          rw [hcons]
          exact List.cons_ne_nil _ _
        obtain ⟨ok₂, s₂, h₂, hs₂⟩ := emits_close hroom "\x7d" s₁ _ hs₁
        obtain ⟨ok, s', c', hs', hholds⟩ := ih hs₂
        have hpop : jsonGenPopObject s₁ = some (ok₂, s₂) := h₂
        refine ⟨ok, s', c', ?_, ?_⟩
        · rw [h₁, Option.bind_some, popDevice, if_pos rfl, hpop]
          exact hs'
        · rw [if_neg hne, List.singleton_append, List.map_cons, membersText,
            cBytes_deviceText node ⟨d.name, d.included flags param⟩ hcons]
          rw [membersText_true] at hholds
          simpa using hholds

end Emits

/-! ## The whole call -/

variable {α : Type} (node : RmakerNode α)

theorem length_cBytes (s : String) : (cBytes s).length = s.utf8ByteSize := rfl

/-- The calls of `esp_rmaker_populate_params`, with any buffer and with
none. -/
theorem populate_holds (flags : UInt8) (param : α → ParamState) {size : Option Nat}
    (hroom : Roomy size false) :
    ∃ ok s, ((jsonGenStartObject (jsonGenStrStart size false)).next
        (populateDevices node flags param node.devices)).next jsonGenEndObject = some (ok, s) ∧
      s.Holds size false (cBytes ((node.report flags param).text node)) true ∧
      (ok = true ↔
        TakesAll size false (cBytes ((node.report flags param).text node)).length) := by
  have htext : cBytes "\x7b" ++ membersText false
      ((node.report flags param).map (DeviceReport.text node)) ++ cBytes "\x7d"
      = cBytes ((node.report flags param).text node) := by
    rw [membersText_false, Report.text, jsonObject, cBytes_append, cBytes_append]
  obtain ⟨ok, s₁, h₁, hs₁⟩ := emits_open hroom none "\x7b" _ _ (jsonGenStrStart_holds hroom)
  obtain ⟨ok₂, s₂, c, h₂, hs₂⟩ := populateDevices_holds hroom node flags param node.devices hs₁
  obtain ⟨ok₃, s₃, h₃, hs₃⟩ := emits_setComma true s₂ _ hs₂
  obtain ⟨ok₄, s₄, h₄, hs₄, hok⟩ := jsonGenAddToStr_holds hroom hs₃ (some (cBytes "\x7d"))
  have hall : [] ++ (commaText false ++ nameText none ++ [] ++ cBytes "\x7b") ++ membersText false
      ((RmakerNode.report ⟨node.devices, node.paramName⟩ flags param).map
        (DeviceReport.text node)) ++ [] ++ (some (cBytes "\x7d")).getD []
      = cBytes ((node.report flags param).text node) := by
    rw [← htext]
    simp [commaText, nameText]
  rw [hall] at hs₄ hok
  have hstart : jsonGenStartObject (jsonGenStrStart size false) = some (ok, s₁) := h₁
  have hend : jsonGenEndObject s₂ = some (ok₄, s₄) := by
    show (jsonGenSetComma true s₂).next (jsonGenAddToStr (some (cBytes "\x7d"))) = _
    rw [h₃]
    exact h₄
  refine ⟨ok₄, s₄, ?_, hs₄, hok.trans ?_⟩
  · rw [hstart]
    show (populateDevices node flags param node.devices s₁).next jsonGenEndObject = _
    rw [h₂]
    exact hend
  · exact or_iff_right (by decide)

/-- **`esp_rmaker_populate_params` writes the text of the report**, or as
much of it as fits, returns its size, and fails exactly when it does not
fit. -/
theorem populateBuffer_eq (flags : UInt8) (param : α → ParamState) {n : Nat} (hn : 0 < n) :
    populateBuffer node flags param (some n)
      = some (decide (((node.report flags param).text node).utf8ByteSize + 1 ≤ n),
          ((node.report flags param).text node).utf8ByteSize + 1,
          (cBytes ((node.report flags param).text node)).take (n - 1)) := by
  have hroom : Roomy (some n) false := by
    intro m hm
    cases hm
    exact ⟨hn, Bool.noConfusion⟩
  obtain ⟨ok, s, hcalls, hholds, hok⟩ := populate_holds node flags param hroom
  have hcode : ok = decide (((node.report flags param).text node).utf8ByteSize + 1 ≤ n) := by
    rw [Bool.eq_iff_iff, hok, decide_eq_true_eq, length_cBytes]
    constructor
    · intro htakes
      exact htakes n rfl rfl
    · intro hfits m hm _
      cases hm
      exact hfits
  rw [populateBuffer, hcalls, Option.map_some, hcode, (hholds.cutOff n rfl rfl).2, jsonGenStrEnd,
    hholds.totalLen, length_cBytes]

/-- With no buffer only the size is found. -/
theorem populateBuffer_size (flags : UInt8) (param : α → ParamState) :
    ∃ bytes, populateBuffer node flags param none
      = some (true, ((node.report flags param).text node).utf8ByteSize + 1, bytes) := by
  obtain ⟨ok, s, hcalls, hholds, hok⟩ := populate_holds node flags param (nofun : Roomy none false)
  refine ⟨s.written, ?_⟩
  rw [populateBuffer, hcalls, Option.map_some, hok.mpr nofun, jsonGenStrEnd, hholds.totalLen,
    length_cBytes]

/-- A buffer of no bytes is written before its start. -/
theorem populateBuffer_zero (flags : UInt8) (param : α → ParamState) :
    populateBuffer node flags param (some 0) = none := rfl

/-- `esp_rmaker_get_node_params`: the buffer it returns, or `NULL`. The
values may be others when it is filled than when its size was found. -/
def espRmakerGetNodeParams (calloc : Bool) (sized filled : α → ParamState) :
    Option (Option (List UInt8)) :=
  (populateBuffer node 0 sized none).bind fun found =>
    if found.1 = false then some none
    else if calloc = false then some none
    else
      (populateBuffer node 0 filled (some (found.2.1 + rmakerParamsSizeMargin))).map fun r =>
        if r.1 then some r.2.2 else none

/-- **The whole report or none.** It is none only without memory, or when
the text has outgrown the margin since its size was found. -/
theorem get_node_params_eq (calloc : Bool) (sized filled : α → ParamState) :
    espRmakerGetNodeParams node calloc sized filled
      = some (if calloc = true ∧ ((node.report 0 filled).text node).utf8ByteSize
            ≤ ((node.report 0 sized).text node).utf8ByteSize + rmakerParamsSizeMargin then
          some (cBytes ((node.report 0 filled).text node))
        else none) := by
  obtain ⟨bytes, hsized⟩ := populateBuffer_size node 0 sized
  rw [espRmakerGetNodeParams, hsized, Option.bind_some, if_neg Bool.noConfusion]
  cases calloc with
  | false => rfl
  | true =>
      rw [if_neg Bool.noConfusion]
      dsimp only
      rw [populateBuffer_eq node 0 filled (by omega), Option.map_some]
      dsimp only
      by_cases hfits : ((node.report 0 filled).text node).utf8ByteSize
          ≤ ((node.report 0 sized).text node).utf8ByteSize + rmakerParamsSizeMargin
      · have hroom : ((node.report 0 filled).text node).utf8ByteSize + 1
            ≤ ((node.report 0 sized).text node).utf8ByteSize + 1 + rmakerParamsSizeMargin := by
          omega
        rw [decide_eq_true hroom, if_pos rfl, if_pos ⟨rfl, hfits⟩, List.take_of_length_le]
        rw [length_cBytes]
        omega
      · have hroom : ¬ ((node.report 0 filled).text node).utf8ByteSize + 1
            ≤ ((node.report 0 sized).text node).utf8ByteSize + 1 + rmakerParamsSizeMargin := by
          omega
        rw [decide_eq_false hroom, if_neg Bool.noConfusion, if_neg fun h => hfits h.2]

/-- **The step that takes the text as a whole agrees with the calls.** -/
theorem populate_params_refined [DecidableEq α] (flags : UInt8) (resetFlags : Bool) {n : Nat}
    (hn : 0 < n) (s : RmakerAgent α) :
    ∃ fits reqSize bytes, populateBuffer node flags s.param (some n) = some (fits, reqSize, bytes) ∧
      (espRmakerPopulateParams node n flags resetFlags s).1 = (if fits then .ok else .noMem) ∧
      (espRmakerPopulateParams node n flags resetFlags s).2.1 = reqSize ∧
      (fits = true → (espRmakerPopulateParams node n flags resetFlags s).2.2.nodeParamsBuf.map
        (fun r => cBytes (r.text node)) = some bytes) := by
  refine ⟨_, _, _, populateBuffer_eq node flags s.param hn, ?_⟩
  rw [espRmakerPopulateParams]
  by_cases hfits : ((node.report flags s.param).text node).utf8ByteSize + 1 ≤ n
  · rw [if_pos hfits, decide_eq_true hfits]
    refine ⟨rfl, rfl, ?_⟩
    intro _
    have hlength : (cBytes ((node.report flags s.param).text node)).length ≤ n - 1 := by
      rw [length_cBytes]
      omega
    rw [List.take_of_length_le hlength]
    rfl
  · rw [if_neg hfits, decide_eq_false hfits]
    exact ⟨rfl, rfl, Bool.noConfusion⟩

/-- The first report of the switch, in the buffer it starts with. -/
theorem light_report_populated :
    ∃ fits reqSize bytes,
      populateBuffer lightNode 0 lightAgentInit.param (some 1024) = some (fits, reqSize, bytes) ∧
      (espRmakerPopulateParams lightNode 1024 0 true lightAgentInit).1
        = (if fits then .ok else .noMem) ∧
      (espRmakerPopulateParams lightNode 1024 0 true lightAgentInit).2.1 = reqSize ∧
      (fits = true →
        (espRmakerPopulateParams lightNode 1024 0 true lightAgentInit).2.2.nodeParamsBuf.map
          (fun r => cBytes (r.text lightNode)) = some bytes) :=
  populate_params_refined lightNode 0 true (by decide) lightAgentInit

end LiveWireSwitch
