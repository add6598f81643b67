import LiveWireSwitch.Json.Numbers
import LiveWireSwitch.RmakerParam.Generated
import LiveWireSwitch.RmakerParam.Requests

/-!
# RmakerParam — RoundTrip

What the device reports, sent back to it as a request, leads to the calls
for every reported parameter with the value it has, a float being rounded
to the places that are written. This holds as long as names and strings
are what may stand between two quotes (the generator escapes nothing), the
values of objects and arrays are JSON themselves, and floats are finite and
not too long for their buffer.
-/

namespace LiveWireSwitch

/-! ## Members from a list -/

/-- What is found is a value with the property `Q`, if anything is. -/
def Found {β : Type} (Q : β → Json → Prop) : Option β → Option Json → Prop
  | none, found => found = none
  | some b, found => ∃ w, found = some w ∧ Q b w

/-- The members of an object are those of a list whose elements have a
name each, and a value with the property `Q`. -/
def FindsIn {β : Type} (name : β → Name) (Q : β → Json → Prop) (l : List β) (members : Members) :
    Prop :=
  ∀ key : List UInt8,
    Found Q (l.find? fun b => decide (cBytes (name b).text = key)) (members.find key)

theorem cBytes_jsonMember (name : Name) (value : String) :
    cBytes (jsonMember name value)
      = '"'.toUInt8 :: (cBytes name.text ++ ['"'.toUInt8] ++ ':'.toUInt8 :: cBytes value) := by
  have hquote : cBytes "\"" = ['"'.toUInt8] := by decide
  have hcolon : cBytes "\":" = ['"'.toUInt8, ':'.toUInt8] := by decide
  rw [jsonMember, cBytes_append, cBytes_append, cBytes_append, hquote, hcolon]
  simp

theorem cBytes_jsonObject (members : List String) :
    cBytes (jsonObject members)
      = '{'.toUInt8 :: (cBytes (joinComma members) ++ ['}'.toUInt8]) := by
  have hopen : cBytes "\x7b" = ['{'.toUInt8] := by decide
  have hclose : cBytes "\x7d" = ['}'.toUInt8] := by decide
  rw [jsonObject, cBytes_append, cBytes_append, hopen, hclose]
  rfl

/-- **An object with the members of a list**, in its order. -/
theorem exists_members {β : Type} (name : β → Name) (value : β → String) (Q : β → Json → Prop)
    (l : List β)
    (h : ∀ b ∈ l, StringBody (cBytes (name b).text) ∧ ∃ j, j.text = cBytes (value b) ∧ Q b j) :
    ∃ members : Members,
      members.text = cBytes (joinComma (l.map fun b => jsonMember (name b) (value b))) ∧
        members.comma = (if l = [] then [] else [','.toUInt8]) ∧ FindsIn name Q l members := by
  induction l with
  | nil => exact ⟨.nil .empty, rfl, rfl, fun key => rfl⟩
  | cons b l ih =>
      obtain ⟨hname, j, hj, hQ⟩ := h b List.mem_cons_self
      obtain ⟨rest, htext, hcomma, hfinds⟩ := ih fun c hc => h c (List.mem_cons_of_mem _ hc)
      refine ⟨.cons .empty ⟨_, hname⟩ .empty .empty j .empty rest, ?_, rfl, ?_⟩
      · rw [Members.text, htext, hcomma, hj, List.map_cons]
        cases l with
        | nil =>
            have hempty : cBytes (joinComma []) = [] := by decide
            have hone : joinComma [jsonMember (name b) (value b)] = jsonMember (name b) (value b) :=
              rfl
            rw [List.map_nil, hempty, hone, cBytes_jsonMember]
            simp [Gap.empty, StringText.quoted]
        | cons c l =>
            have hsep : cBytes "," = [','.toUInt8] := by decide
            rw [List.map_cons, joinComma_cons, cBytes_append, cBytes_append,
              cBytes_jsonMember (name b), hsep]
            simp [Gap.empty, StringText.quoted]
      · intro key
        rw [List.find?_cons]
        by_cases hkey : cBytes (name b).text = key
        · rw [decide_eq_true hkey]
          exact ⟨j, by rw [Members.find, if_pos hkey], hQ⟩
        · rw [decide_eq_false hkey, Members.find, if_neg hkey]
          exact hfinds key

/-! ## One value -/

/-- The value as a request gives it: a float to the places that are
written. -/
def Val.req : Val → ReqVal
  | .boolean b => .boolean b
  | .integer i => .integer i
  | .float f => .float (Lib.rounded jsonFloatPrecision f)
  | .string s => .string (cBytes (s.getD ""))
  | .object s => .object (cBytes (s.getD ""))
  | .array s => .array (cBytes (s.getD ""))

/-- What `esp_rmaker_report_value` writes for it is a JSON value of its
kind. -/
def Val.Written : Val → Prop
  | .boolean _ | .integer _ => True
  | .float f => Lib.Finite f ∧ (Lib.floatText jsonFloatPrecision f).length < maxFloatInStr
  | .string s => StringBody (cBytes (s.getD ""))
  | .object s => ∃ members, (Json.object members).text = cBytes (s.getD "")
  | .array s => ∃ items, (Json.array items).text = cBytes (s.getD "")

/-- **A value is read back.** -/
theorem Val.Written.exists_json {v : Val} (h : v.Written) :
    ∃ j : Json, j.text = cBytes v.text ∧ j.valueOf v.type = some v.req := by
  cases v with
  | boolean b =>
      cases b with
      | false =>
          refine ⟨.primitive ⟨'f'.toUInt8, cBytes "alse", by decide, forall_mem_of_all (by decide)⟩,
            by decide, ?_⟩
          decide
      | true =>
          refine ⟨.primitive ⟨'t'.toUInt8, cBytes "rue", by decide, forall_mem_of_all (by decide)⟩,
            by decide, ?_⟩
          decide
  | integer i =>
      have hvalid := JsonNumber.ofInt_valid i.toInt
      obtain ⟨t, ht⟩ := hvalid.exists_primitive
      refine ⟨.primitive t, ht.trans (JsonNumber.ofInt_text i.toInt), ?_⟩
      show (intOf t.text).map ReqVal.integer = some (.integer i)
      rw [ht, JsonNumber.intOf_ofInt]
      rfl
  | float f =>
      obtain ⟨hfinite, hfits⟩ := h
      obtain ⟨s, n, htext, hrounded⟩ := Lib.floatText_of_finite hfinite jsonFloatPrecision
      have hvalid := JsonNumber.fixed_valid (s == .negative) jsonFloatPrecision n
      obtain ⟨t, ht⟩ := hvalid.exists_primitive
      refine ⟨.primitive t, ?_, ?_⟩
      · rw [Val.text, jsonFloatText, Lib.snprintf_of_fits hfits, htext]
        exact ht.trans (JsonNumber.fixed_text s (by decide) n)
      · show (floatOf t.text).map ReqVal.float = _
        rw [ht, JsonNumber.floatOf_text hvalid, JsonNumber.fixed_toFloat, ← hrounded]
        rfl
  | string s =>
      refine ⟨.string ⟨_, h⟩, ?_, rfl⟩
      have hquote : cBytes "\"" = ['"'.toUInt8] := by decide
      rw [Val.text, cBytes_append, cBytes_append, hquote]
      rfl
  | object s =>
      obtain ⟨members, hm⟩ := h
      refine ⟨.object members, hm, ?_⟩
      show some (ReqVal.object (Json.object members).text) = _
      rw [hm]
      rfl
  | array s =>
      obtain ⟨items, hi⟩ := h
      refine ⟨.array items, hi, ?_⟩
      show some (ReqVal.array (Json.array items).text) = _
      rw [hi]
      rfl

/-! ## The whole report -/

/-- A list with a key for each element, no two the same, is searched
after it has been filtered. -/
theorem find?_filter_map {β γ : Type} (key : β → List UInt8) (f : β → γ) (key' : γ → List UInt8)
    (hkey : ∀ b, key' (f b) = key b) (keep : β → Bool) {l : List β} (h : (l.map key).Nodup) {b : β}
    (hb : b ∈ l) :
    ((l.filter keep).map f).find? (fun c => decide (key' c = key b))
      = if keep b then some (f b) else none := by
  induction l with
  | nil => cases hb
  | cons a l ih =>
      rw [List.map_cons, List.nodup_cons] at h
      rcases List.mem_cons.mp hb with rfl | hb
      · by_cases hkeep : keep b = true
        · rw [List.filter_cons_of_pos hkeep, List.map_cons, if_pos hkeep]
          exact List.find?_cons_of_pos (decide_eq_true (hkey b))
        · rw [List.filter_cons_of_neg hkeep, if_neg hkeep, List.find?_eq_none]
          intro c hc heq
          obtain ⟨d, hd, rfl⟩ := List.mem_map.mp hc
          have hsame : key d = key b := (hkey d).symm.trans (of_decide_eq_true heq)
          exact h.1 (hsame ▸ List.mem_map_of_mem (List.mem_filter.mp hd).1)
      · have hne : key a ≠ key b := by
          intro heq
          exact h.1 (heq ▸ List.mem_map_of_mem hb)
        by_cases hkeep : keep a = true
        · rw [List.filter_cons_of_pos hkeep, List.map_cons, List.find?_cons_of_neg]
          · exact ih h.2 hb
          · rw [hkey, decide_eq_true_eq]
            exact hne
        · rw [List.filter_cons_of_neg hkeep]
          exact ih h.2 hb

variable {α : Type}

theorem report_eq_map (node : RmakerNode α) (flags : UInt8) (param : α → ParamState) :
    node.report flags param
      = (node.devices.filter fun d => !decide (d.included flags param = [])).map
          fun d => ⟨d.name, d.included flags param⟩ := by
  rw [RmakerNode.report]
  induction node.devices with
  | nil => rfl
  | cons d ds ih =>
      by_cases hnil : d.included flags param = []
      · rw [List.filter_cons_of_neg (by simp [hnil]), ← ih]
        simp [hnil]
      · rw [List.filter_cons_of_pos (by simp [hnil]), List.map_cons, ← ih]
        simp [hnil]

/-- `esp_rmaker_node_add_device` and `esp_rmaker_device_add_param` refuse
a name that is there already; that a name needs no escaping nobody
checks. -/
structure SetNode.Proper (node : SetNode α) : Prop where
  devices : (node.devices.map fun d => cBytes d.name.text).Nodup
  params : ∀ d ∈ node.devices, (d.params.map fun p => cBytes (node.paramName p).text).Nodup
  deviceName : ∀ d ∈ node.devices, StringBody (cBytes d.name.text)
  paramName : ∀ d ∈ node.devices, ∀ p ∈ d.params, StringBody (cBytes (node.paramName p).text)

/-- What a report says of a device. -/
def DeviceReport.ReadsBack (node : RmakerNode α) (d : DeviceReport α) (j : Json) : Prop :=
  ∃ members, j = .object members ∧
    FindsIn (fun e => node.paramName e.1) (fun e w => w.valueOf e.2.type = some e.2.req) d.params
      members

/-- The text of a report is a document. -/
theorem exists_document {node : SetNode α} (hproper : node.Proper) {flags : UInt8}
    {param : α → ParamState}
    (hwritten : ∀ d ∈ node.devices, ∀ p ∈ d.params, Included flags (param p) →
      (param p).val.Written) :
    ∃ (doc : Document) (members : Members), doc.root = .object members ∧
      doc.text = cBytes ((node.report flags param).text node.toRmakerNode) ∧
      FindsIn DeviceReport.name (DeviceReport.ReadsBack node.toRmakerNode) (node.report flags param)
        members := by
  obtain ⟨members, htext, -, hfinds⟩ := exists_members DeviceReport.name
    (fun d => jsonObject (d.params.map fun e => jsonMember (node.paramName e.1) e.2.text))
    (DeviceReport.ReadsBack node.toRmakerNode) (node.report flags param) (by
      intro r hr
      obtain ⟨d, hd, -, rfl⟩ := (mem_report node.toRmakerNode).mp hr
      refine ⟨hproper.deviceName d hd, ?_⟩
      obtain ⟨inner, hinner, -, hfinds⟩ := exists_members (fun e => node.paramName e.1)
        (fun e => e.2.text) (fun e w => w.valueOf e.2.type = some e.2.req) (d.included flags param)
        (by
          intro e he
          obtain ⟨p, hp, rfl⟩ := List.mem_map.mp he
          rw [List.mem_filter, decide_eq_true_eq] at hp
          exact ⟨hproper.paramName d hd p hp.1, (hwritten d hd p hp.1 hp.2).exists_json⟩)
      exact ⟨.object inner, by rw [Json.text, hinner, cBytes_jsonObject], inner, rfl, hfinds⟩)
  refine ⟨⟨.empty, .object members, .empty, id⟩, members, rfl, ?_, hfinds⟩
  have hobject := cBytes_jsonObject ((node.report flags param).map
    (DeviceReport.text node.toRmakerNode))
  rw [Report.text, hobject, Document.text, Json.text, htext]
  simp [Gap.empty]
  rfl

theorem flatMap_filter_map {β γ δ : Type} {keep : β → Bool} {f : β → γ} {g : β → List δ}
    {h : γ → List δ} {l : List β} (hg : ∀ b ∈ l, g b = if keep b then h (f b) else []) :
    l.flatMap g = ((l.filter keep).map f).flatMap h := by
  induction l with
  | nil => rfl
  | cons b l ih =>
      have htail := ih fun c hc => hg c (List.mem_cons_of_mem _ hc)
      rw [List.flatMap_cons, hg b List.mem_cons_self, htail]
      by_cases hkeep : keep b = true
      · rw [if_pos hkeep, List.filter_cons_of_pos hkeep, List.map_cons, List.flatMap_cons]
      · rw [if_neg hkeep, List.filter_cons_of_neg hkeep, List.nil_append]

/-- The calls for a device, when the document has its report. -/
theorem paramCalls_report {node : SetNode α} (hproper : node.Proper) {flags : UInt8}
    {param : α → ParamState} {d : RmakerDevice α} (hd : d ∈ node.devices)
    (htyped : ∀ p ∈ d.params, node.valType p = (param p).val.type) {members : Members}
    (hfinds : FindsIn (fun e => node.paramName e.1)
      (fun e w => w.valueOf e.2.type = some e.2.req) (d.included flags param) members) :
    node.deviceCalls node.literal (fun _ => true) d (.object members)
      = (d.included flags param).flatMap fun e => node.dispatch d e.1 e.2.req := by
  rw [deviceCalls_enough node _ fun p _ hstarves => Bool.noConfusion hstarves.2.2,
    RmakerDevice.included]
  refine flatMap_filter_map ?_
  intro p hp
  have hlookup := find?_filter_map (fun p => cBytes (node.paramName p).text)
    (fun p => (p, (param p).val)) (fun e => cBytes (node.paramName e.1).text) (fun _ => rfl)
    (fun p => decide (Included flags (param p))) (hproper.params d hd) hp
  have hfind := hfinds (cBytes (node.paramName p).text)
  rw [RmakerDevice.included, hlookup] at hfind
  by_cases hinc : Included flags (param p)
  · rw [if_pos (decide_eq_true hinc)] at hfind ⊢
    obtain ⟨j, hj, hval⟩ := hfind
    have hjson : (Json.object members).find (cBytes (node.paramName p).text) = some j := hj
    have hrequest : node.literal.param (.object members) p = some (param p).val.req := by
      rw [SetNode.literal_param, hjson, Option.bind_some, htyped p hp, hval]
    rw [SetNode.paramCalls, hrequest]
  · rw [if_neg (by rw [decide_eq_true_eq]; exact hinc)] at hfind ⊢
    have hjson : (Json.object members).find (cBytes (node.paramName p).text) = none := hfind
    have hrequest : node.literal.param (.object members) p = none := by
      rw [SetNode.literal_param, hjson, Option.bind_none]
    rw [SetNode.paramCalls, hrequest]

/-- The text of a report as a request. -/
theorem handleSetParams_report {node : SetNode α} (hproper : node.Proper) {flags : UInt8}
    {param : α → ParamState}
    (htyped : ∀ d ∈ node.devices, ∀ p ∈ d.params, node.valType p = (param p).val.type)
    (hwritten : ∀ d ∈ node.devices, ∀ p ∈ d.params, Included flags (param p) →
      (param p).val.Written) :
    espRmakerHandleSetParams node true (fun _ => true)
        (cBytes ((node.report flags param).text node.toRmakerNode))
      = some (some (node.devices.flatMap fun d =>
          (d.included flags param).flatMap fun e => node.dispatch d e.1 e.2.req)) := by
  obtain ⟨doc, members, hroot, htext, hfinds⟩ := exists_document hproper hwritten
  rw [← htext, handleSetParams_document, if_pos rfl, hroot]
  congr 2
  refine List.flatMap_congr ?_
  intro d hd
  have hlookup := find?_filter_map (fun d => cBytes d.name.text)
    (fun d => (⟨d.name, d.included flags param⟩ : DeviceReport α)) (fun r => cBytes r.name.text)
    (fun _ => rfl) (fun d => !decide (d.included flags param = [])) hproper.devices hd
  have hfind := hfinds (cBytes d.name.text)
  rw [report_eq_map, hlookup] at hfind
  by_cases hnil : d.included flags param = []
  · rw [if_neg (by simp [hnil])] at hfind
    have hnone : node.literal.device (.object members) d = none := by
      show (Json.object members).findOf (cBytes d.name.text) .object = none
      rw [Json.findOf, Json.find, hfind]
      rfl
    rw [hnone, hnil]
    rfl
  · rw [if_pos (by simp [hnil])] at hfind
    obtain ⟨_, hj, inner, rfl, hinner⟩ := hfind
    have hsome : node.literal.device (.object members) d = some (.object inner) := by
      show (Json.object members).findOf (cBytes d.name.text) .object = _
      rw [Json.findOf, Json.find, hj]
      rfl
    rw [hsome]
    exact paramCalls_report hproper hd (htyped d hd) hinner

/-- **What is reported can be set again.** The bytes
`esp_rmaker_populate_params` leaves in a buffer they fit, sent back as a
request, lead to the calls for every reported parameter, with the value it
has, if every allocation succeeds. -/
theorem report_reads_back {node : SetNode α} (hproper : node.Proper) {flags : UInt8}
    {param : α → ParamState}
    (htyped : ∀ d ∈ node.devices, ∀ p ∈ d.params, node.valType p = (param p).val.type)
    (hwritten : ∀ d ∈ node.devices, ∀ p ∈ d.params, Included flags (param p) →
      (param p).val.Written) {n reqSize : Nat} {bytes : List UInt8}
    (hfits : populateBuffer node.toRmakerNode flags param (some n) = some (true, reqSize, bytes)) :
    espRmakerHandleSetParams node true (fun _ => true) bytes
      = some (some (node.devices.flatMap fun d =>
          (d.included flags param).flatMap fun e => node.dispatch d e.1 e.2.req)) := by
  cases n with
  | zero =>
      rw [populateBuffer_zero] at hfits
      cases hfits
  | succ n =>
      rw [populateBuffer_eq _ _ _ (Nat.succ_pos n)] at hfits
      simp only [Option.some.injEq, Prod.mk.injEq, decide_eq_true_eq] at hfits
      obtain ⟨hsize, -, rfl⟩ := hfits
      rw [List.take_of_length_le (by rw [length_cBytes]; omega)]
      exact handleSetParams_report hproper htyped hwritten

theorem lightSetNode_proper : lightSetNode.Proper where
  devices := by decide
  params := by decide
  deviceName := by
    intro d hd
    refine stringBody_of_plain ?_
    revert d
    decide
  paramName := by
    intro d hd p hp
    refine stringBody_of_plain ?_
    revert d p
    decide

/-- The first report of the switch. -/
theorem light_report_reads_back :
    espRmakerHandleSetParams lightSetNode true (fun _ => true)
        (cBytes "\x7b\"Light\":\x7b\"Name\":\"Light\",\"Power\":false,\"Brightness\":25\x7d\x7d")
      = some (some (lightSetNode.devices.flatMap fun d =>
          (d.included 0 lightParamInit).flatMap fun e => lightSetNode.dispatch d e.1 e.2.req)) :=
  report_reads_back (n := 1024) lightSetNode_proper (by decide) (by
    intro d hd p hp _
    cases p with
    | name => exact stringBody_of_plain (by decide)
    | power => trivial
    | brightness => trivial) (by decide +kernel : _ = some (true, 57, _))

end LiveWireSwitch
