import LiveWireSwitch.Frame
import LiveWireSwitch.Json.Floats

/-!
# RmakerParam — parameters and their reports

The part of `esp_rmaker_param.c` that writes a parameter and reports
it: the type check and the change flag, the JSON text built from the
flagged parameters in a buffer that is allocated and grown on demand,
and the publish whose result is dropped. `α` is the type of parameter
handles (pointers to `_esp_rmaker_param_t`).

Allocation may fail, so every call takes the outcomes it meets as an
input.
-/

namespace LiveWireSwitch

/-! ## Values and names -/

/-- `esp_rmaker_val_type_t`; `esp_rmaker_bool`, `esp_rmaker_int` and the
others that make a value give it one of these, never
`RMAKER_VAL_TYPE_INVALID`. -/
inductive ValType where
  | boolean
  | integer
  | float
  | string
  | object
  | array
deriving DecidableEq, Repr

/-- `esp_rmaker_param_val_t`; a string pointer may be `NULL`. -/
inductive Val where
  | boolean (b : Bool)
  | integer (i : Int32)
  | float (f : Float32)
  | string (s : Option String)
  | object (s : Option String)
  | array (s : Option String)
deriving DecidableEq

def Val.type : Val → ValType
  | .boolean _ => .boolean
  | .integer _ => .integer
  | .float _ => .float
  | .string _ => .string
  | .object _ => .object
  | .array _ => .array

/-- A device or parameter name. -/
structure Name where
  text : String
  ne_empty : 0 < text.utf8ByteSize
deriving DecidableEq

/-- Error codes; the callers only tell `ESP_OK` and `ESP_ERR_NO_MEM`
from the rest. -/
inductive EspErr where
  | ok
  | fail
  | noMem
  | invalidArg
deriving DecidableEq, Repr

/-! ## The node -/

/-- `_esp_rmaker_device_t` with its list of parameters. -/
structure RmakerDevice (α : Type) where
  name : Name
  params : List α

/-- The node: its list of devices, and the name of each parameter. -/
structure RmakerNode (α : Type) where
  devices : List (RmakerDevice α)
  paramName : α → Name

/-- The fields of `_esp_rmaker_param_t` that change. -/
structure ParamState where
  val : Val
  flags : UInt8

/-- `RMAKER_PARAM_FLAG_VALUE_CHANGE (1 << 0)` -/
def rmakerParamFlagValueChange : UInt8 := 1

/-- `RMAKER_PARAM_FLAG_VALUE_NOTIFY (1 << 1)` -/
def rmakerParamFlagValueNotify : UInt8 := 2

/-- `param->flags & flags` -/
def ParamState.Flagged (flags : UInt8) (p : ParamState) : Prop := p.flags &&& flags ≠ 0

instance (flags : UInt8) (p : ParamState) : Decidable (p.Flagged flags) :=
  inferInstanceAs (Decidable (_ ≠ _))

variable {α : Type}

/-- A parameter of one of the node's devices. -/
def RmakerNode.Has (node : RmakerNode α) (p : α) : Prop := ∃ d ∈ node.devices, p ∈ d.params

instance [DecidableEq α] (node : RmakerNode α) (p : α) : Decidable (node.Has p) :=
  inferInstanceAs (Decidable (∃ d ∈ node.devices, p ∈ d.params))

/-! ## The report -/

/-- What a report says of one device. -/
structure DeviceReport (α : Type) where
  name : Name
  params : List (α × Val)

/-- A report is a JSON object of devices; `Report.text` is its text. -/
abbrev Report (α : Type) := List (DeviceReport α)

/-- `!flags || (param->flags & flags)` -/
def Included (flags : UInt8) (p : ParamState) : Prop := flags = 0 ∨ p.Flagged flags

instance (flags : UInt8) (p : ParamState) : Decidable (Included flags p) :=
  inferInstanceAs (Decidable (_ ∨ _))

/-- The parameters of a device that go into a report. -/
def RmakerDevice.included (flags : UInt8) (param : α → ParamState) (d : RmakerDevice α) :
    List (α × Val) :=
  (d.params.filter fun p => decide (Included flags (param p))).map fun p => (p, (param p).val)

/-- The object `esp_rmaker_populate_params` generates: a device appears
when one of its parameters does. -/
def RmakerNode.report (node : RmakerNode α) (flags : UInt8) (param : α → ParamState) : Report α :=
  node.devices.filterMap fun d =>
    if d.included flags param = [] then none else some ⟨d.name, d.included flags param⟩

/-- The text `esp_rmaker_report_value` generates for a value. -/
def Val.text : Val → String
  | .boolean b => if b then "true" else "false"
  | .integer i => toString i.toInt
  | .float f => jsonFloatText f
  | .string s => "\"" ++ s.getD "" ++ "\""
  | .object s => s.getD ""
  | .array s => s.getD ""

/-- The separators of `json_gen_handle_comma`. -/
def joinComma : List String → String
  | [] => ""
  | [a] => a
  | a :: as => a ++ "," ++ joinComma as

/-- `json_gen_handle_name` with what follows the colon. -/
def jsonMember (name : Name) (value : String) : String := "\"" ++ name.text ++ "\":" ++ value

def jsonObject (members : List String) : String := "\x7b" ++ joinComma members ++ "\x7d"

def DeviceReport.text (node : RmakerNode α) (d : DeviceReport α) : String :=
  jsonMember d.name
    (jsonObject (d.params.map fun e => jsonMember (node.paramName e.1) e.2.text))

def Report.text (node : RmakerNode α) (r : Report α) : String :=
  jsonObject (r.map (DeviceReport.text node))

/-- The value a report gives a parameter. -/
def Report.value? [DecidableEq α] (r : Report α) (p : α) : Option Val :=
  r.findSome? fun d => d.params.lookup p

/-! ## The agent -/

/-- The topics a report goes to. -/
inductive ReportTopic where
  | paramsLocal
  | paramsLocalInit
  | alert
deriving DecidableEq, Repr

/-- The state behind parameters and reports. `published` holds the
successful publishes, the latest first; `node_params_buf` is kept as the
object it is the text of. -/
structure RmakerAgent (α : Type) where
  param : α → ParamState
  nodeParamsBuf : Option (Report α)
  maxNodeParamsSize : Nat
  /-- `esp_rmaker_get_state() == ESP_RMAKER_STATE_STARTED` -/
  started : Bool
  espRmakerParamsMqttInitDone : Bool
  mqttConnected : Bool
  published : List (ReportTopic × Report α)

/-- Whether the allocations of a call succeed: the copy of a string
value, the first buffer, and the larger one. -/
structure Memory where
  strdup : Bool
  callocFirst : Bool
  callocAgain : Bool
deriving DecidableEq, Repr

def Memory.enough : Memory := ⟨true, true, true⟩

/-- `esp_rmaker_mqtt_publish`, down to `esp_mqtt_client_publish`, which
refuses while the client is not connected
(`CONFIG_MQTT_SKIP_PUBLISH_IF_DISCONNECTED`). -/
def espRmakerMqttPublish (topic : ReportTopic) (r : Report α) (s : RmakerAgent α) :
    EspErr × RmakerAgent α :=
  if s.mqttConnected then (.ok, { s with published := (topic, r) :: s.published })
  else (.fail, s)

section Agent

variable [DecidableEq α] (node : RmakerNode α)

/-- `param->flags &= ~flags` for every parameter of the node. -/
def RmakerNode.resetFlags (flags : UInt8) (param : α → ParamState) : α → ParamState :=
  fun p => if node.Has p then { param p with flags := (param p).flags &&& ~~~flags } else param p

/-- `esp_rmaker_populate_params` into a buffer of `bufLen` bytes, with
the size the text needs. A text that does not fit is cut off, and the
caller throws it away. -/
def espRmakerPopulateParams (bufLen : Nat) (flags : UInt8) (resetFlags : Bool)
    (s : RmakerAgent α) : EspErr × Nat × RmakerAgent α :=
  let r := node.report flags s.param
  let reqSize := (r.text node).utf8ByteSize + 1
  if reqSize ≤ bufLen then
    (.ok, reqSize, { s with
      nodeParamsBuf := some r
      param := if resetFlags then node.resetFlags flags s.param else s.param })
  else (.noMem, reqSize, s)

/-- `#define RMAKER_PARAMS_SIZE_MARGIN 50` -/
def rmakerParamsSizeMargin : Nat := 50

/-- `esp_rmaker_allocate_and_populate_params` -/
def espRmakerAllocateAndPopulateParams (mem : Memory) (flags : UInt8) (resetFlags : Bool)
    (s : RmakerAgent α) : EspErr × RmakerAgent α :=
  if s.nodeParamsBuf.isNone ∧ mem.callocFirst = false then (.noMem, s)
  else
    let s := { s with nodeParamsBuf := some (s.nodeParamsBuf.getD []) }
    let r := espRmakerPopulateParams node s.maxNodeParamsSize flags resetFlags s
    if r.1 = .noMem then
      let s := { r.2.2 with maxNodeParamsSize := r.2.1 + rmakerParamsSizeMargin }
      if mem.callocAgain = false then (.noMem, { s with nodeParamsBuf := none })
      else
        let r := espRmakerPopulateParams node s.maxNodeParamsSize flags resetFlags s
        (r.1, r.2.2)
    else (r.1, r.2.2)

/-- `strlen(node_params_buf)` -/
def RmakerAgent.bufLength (s : RmakerAgent α) : Nat :=
  match s.nodeParamsBuf with
  | some r => (r.text node).utf8ByteSize
  | none => 0

/-- Publish the buffer if there is something in it; what
`esp_rmaker_mqtt_publish` returns is not looked at. -/
def publishBuf (topic : ReportTopic) (s : RmakerAgent α) : RmakerAgent α :=
  if s.espRmakerParamsMqttInitDone then
    (espRmakerMqttPublish topic (s.nodeParamsBuf.getD []) s).2
  else s

/-- `esp_rmaker_report_param_internal` -/
def espRmakerReportParamInternal (mem : Memory) (flags : UInt8) (s : RmakerAgent α) :
    EspErr × RmakerAgent α :=
  let r := espRmakerAllocateAndPopulateParams node mem flags true s
  if r.1 = .ok then
    if 10 < r.2.bufLength node then
      if flags = rmakerParamFlagValueChange then (.ok, publishBuf .paramsLocal r.2)
      else if flags = rmakerParamFlagValueNotify then (.ok, publishBuf .alert r.2)
      else (.fail, r.2)
    else (.ok, r.2)
  else r

/-- `esp_rmaker_report_node_state`, with the command it passes to
`send_bri_ctrl_info` by way of `app_wifi_init_end`. -/
def espRmakerReportNodeState (mem : Memory) (s : RmakerAgent α) :
    EspErr × RmakerAgent α × List Cmd :=
  let r := espRmakerAllocateAndPopulateParams node mem 0 false s
  if r.1 = .ok then
    if 10 < r.2.bufLength node then
      (.ok, publishBuf .paramsLocalInit r.2, [⟨wifiInitEndCmd, 1⟩])
    else (.ok, r.2, [])
  else (r.1, r.2, [])

/-- `esp_rmaker_params_mqtt_init`; the first argument is what the
subscription returns. -/
def espRmakerParamsMqttInit (subscribed : EspErr) (mem : Memory) (s : RmakerAgent α) :
    EspErr × RmakerAgent α × List Cmd :=
  if subscribed = .ok then
    let r := espRmakerReportNodeState node mem { s with espRmakerParamsMqttInitDone := true }
    (.ok, r.2)
  else (subscribed, s, [])

/-- `_param->val = val` -/
def RmakerAgent.setVal (s : RmakerAgent α) (p : α) (v : Val) : RmakerAgent α :=
  { s with param := fun q => if q = p then { s.param p with val := v } else s.param q }

/-- `param->flags |= flags` -/
def RmakerAgent.orFlags (s : RmakerAgent α) (p : α) (flags : UInt8) : RmakerAgent α :=
  { s with param := fun q =>
      if q = p then { s.param p with flags := (s.param p).flags ||| flags } else s.param q }

/-- Whether a value is copied with `strdup`. -/
def Val.copied : Val → Prop
  | .string (some _) | .object (some _) | .array (some _) => True
  | _ => False

instance : DecidablePred Val.copied
  | .boolean _ | .integer _ | .float _ | .string none | .object none | .array none => .isFalse id
  | .string (some _) | .object (some _) | .array (some _) => .isTrue trivial

/-- `esp_rmaker_param_update`, less the copy in flash. -/
def espRmakerParamUpdate (mem : Memory) (p : α) (v : Val) (s : RmakerAgent α) :
    EspErr × RmakerAgent α :=
  if (s.param p).val.type ≠ v.type then (.invalidArg, s)
  else if v.copied ∧ mem.strdup = false then (.fail, s)
  else (.ok, s.setVal p v)

/-- `esp_rmaker_param_report` -/
def espRmakerParamReport (mem : Memory) (p : α) (s : RmakerAgent α) : EspErr × RmakerAgent α :=
  espRmakerReportParamInternal node mem rmakerParamFlagValueChange
    (s.orFlags p rmakerParamFlagValueChange)

/-- `esp_rmaker_param_update_and_report` -/
def espRmakerParamUpdateAndReport (mem : Memory) (p : α) (v : Val) (s : RmakerAgent α) :
    EspErr × RmakerAgent α :=
  let r := espRmakerParamUpdate mem p v s
  if r.1 = .ok ∧ r.2.started then espRmakerParamReport node mem p r.2 else r

/-- The value of a parameter in the last successful publish that
contained it. -/
def RmakerAgent.lastPublished (s : RmakerAgent α) (p : α) : Option Val :=
  s.published.findSome? fun m => m.2.value? p

end Agent

end LiveWireSwitch
