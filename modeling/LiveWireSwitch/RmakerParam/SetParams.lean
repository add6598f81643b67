import LiveWireSwitch.AppRainmaker
import LiveWireSwitch.Json.Parser

/-!
# RmakerParam — SetParams

`esp_rmaker_handle_set_params`: a JSON text from the cloud is searched
for every device of the node and, in the object it has for the device,
for every parameter of the device. What is found goes to the device's
write callback, or to `esp_rmaker_param_update_and_report` for a
parameter that is the device's name. The result here is the list of these
calls, in order. None of them touches what the search looks at: the lists
of devices and parameters, their names and the types of the values.
-/

namespace LiveWireSwitch

/-- `esp_rmaker_param_val_t` as `esp_rmaker_device_set_params` fills it:
a string is the bytes of the token. -/
inductive ReqVal where
  | boolean (b : Bool)
  | integer (i : Int32)
  | float (f : Float32)
  | string (s : List UInt8)
  | object (s : List UInt8)
  | array (s : List UInt8)
deriving DecidableEq, Repr

/-- The node with what else is looked at. -/
structure SetNode (α : Type) extends RmakerNode α where
  valType : α → ValType
  /-- `param->type` is `ESP_RMAKER_PARAM_NAME` -/
  isName : α → Bool
  /-- `device->write_cb` is set -/
  hasWriteCb : RmakerDevice α → Bool

/-- A call that a value from the text leads to. -/
inductive SetCall (α : Type) where
  /-- `esp_rmaker_param_update_and_report` -/
  | updateAndReport (param : α) (val : ReqVal)
  /-- `device->write_cb` -/
  | writeCb (device : Name) (param : α) (val : ReqVal)
deriving DecidableEq

/-- The outcome of the `switch` for one parameter. -/
inductive ParamRead where
  /-- `param_found` is false -/
  | absent
  | found (val : ReqVal)
  /-- `calloc` has failed -/
  | noMem
deriving DecidableEq, Repr

/-- `param_found` with the value. -/
def ParamRead.ofValue {β : Type} (mk : β → ReqVal) : Option β → ParamRead
  | none => .absent
  | some v => .found (mk v)

/-- The three cases that allocate: the length first, then the bytes, into
a buffer of that length and a terminator that `calloc` has cleared. -/
def readBytes (calloc : Bool) (strlen : Option (Option Nat))
    (get : Nat → Option (Option (List UInt8))) (mk : List UInt8 → ReqVal) : Option ParamRead :=
  strlen.bind fun found =>
    match found with
    | none => some .absent
    | some valSize =>
        if calloc = false then some .noMem
        else (get (valSize + 1)).map fun s => .found (mk (s.getD []))

/-- `switch(param->val.type)` -/
def readParam (calloc : Bool) (jptr : JparseCtx) (type : ValType) (name : List UInt8) :
    Option ParamRead :=
  match type with
  | .boolean => (jsonObjGetBool jptr name).map (ParamRead.ofValue .boolean)
  | .integer => (jsonObjGetInt jptr name).map (ParamRead.ofValue .integer)
  | .float => (jsonObjGetFloat jptr name).map (ParamRead.ofValue .float)
  | .string => readBytes calloc (jsonObjGetStrlen jptr name) (jsonObjGetString jptr name) .string
  | .object =>
      readBytes calloc (jsonObjGetObjectStrlen jptr name) (jsonObjGetObjectStr jptr name) .object
  | .array =>
      readBytes calloc (jsonObjGetArrayStrlen jptr name) (jsonObjGetArrayStr jptr name) .array

section Node

variable {α : Type} (node : SetNode α)

/-- What is done with a value that has been found. -/
def SetNode.dispatch (device : RmakerDevice α) (param : α) (val : ReqVal) : List (SetCall α) :=
  if node.isName param then [.updateAndReport param val]
  else if node.hasWriteCb device then [.writeCb device.name param val]
  else []

/-- `esp_rmaker_device_set_params`, for the parameters still to come;
`calloc` says for which of them it succeeds. -/
def espRmakerDeviceSetParams (calloc : α → Bool) (device : RmakerDevice α) (jptr : JparseCtx) :
    List α → Option (List (SetCall α))
  | [] => some []
  | param :: params =>
      (readParam (calloc param) jptr (node.valType param)
          (cBytes (node.paramName param).text)).bind fun read =>
        match read with
        | .noMem => some []
        | .absent => espRmakerDeviceSetParams calloc device jptr params
        | .found val =>
            (espRmakerDeviceSetParams calloc device jptr params).map
              (node.dispatch device param val ++ ·)

/-- The loop of `esp_rmaker_handle_set_params`, for the devices still to
come. What `esp_rmaker_device_set_params` and `json_obj_leave_object`
return is not looked at. -/
def setDevices (calloc : α → Bool) :
    List (RmakerDevice α) → JparseCtx → Option (List (SetCall α))
  | [], _ => some []
  | device :: devices, jctx =>
      (jsonObjGetObject jctx (cBytes device.name.text)).bind fun found =>
        match found with
        | none => setDevices calloc devices jctx
        | some jptr =>
            (espRmakerDeviceSetParams node calloc device jptr device.params).bind fun calls =>
              (jsonObjLeaveObject jptr).bind fun left =>
                (setDevices calloc devices left.2).map (calls ++ ·)

/-- `esp_rmaker_handle_set_params`: the calls it makes, `none` for
`ESP_FAIL`; `callocTokens` is whether `json_parse_start` gets its
tokens. -/
def espRmakerHandleSetParams (callocTokens : Bool) (calloc : α → Bool) (data : List UInt8) :
    Option (Option (List (SetCall α))) :=
  (jsonParseStart callocTokens data).bind fun started =>
    match started with
    | none => some none
    | some jctx => (setDevices node calloc node.devices jctx).map some

end Node

/-- The node of the switch. -/
def lightSetNode : SetNode LightParam where
  devices := lightNode.devices
  paramName := lightNode.paramName
  valType
    | .name => .string
    | .power => .boolean
    | .brightness => .integer
  isName p := p = .name
  hasWriteCb _ := true

end LiveWireSwitch
