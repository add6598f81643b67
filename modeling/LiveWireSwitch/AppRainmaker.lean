import LiveWireSwitch.BriCtrl
import LiveWireSwitch.RmakerParam

/-!
# AppRainmaker — the light as a RainMaker device

`app_rainmaker.c`: the device "Light" with its three parameters, the
write callback, and `esp_rmaker_update`, through which the UART module
reports. Both end in `esp_rmaker_param_update_and_report` calls, which
are returned as the parameter and value they write.
-/

namespace LiveWireSwitch

/-- The parameters of the lightbulb device, in the order they are
added. -/
inductive LightParam where
  | name
  | power
  | brightness
deriving DecidableEq, Repr

/-- `switch_device` in a node of its own; the services the product adds
have parameters no function here touches. -/
def lightNode : RmakerNode LightParam where
  devices := [⟨⟨"Light", by decide⟩, [.name, .power, .brightness]⟩]
  paramName
    | .name => ⟨"Name", by decide⟩
    | .power => ⟨"Power", by decide⟩
    | .brightness => ⟨"Brightness", by decide⟩

/-- The parameters as `app_rainmaker_init` creates them. -/
def lightParamInit : LightParam → ParamState
  | .name => ⟨.string (some "Light"), 0⟩
  | .power => ⟨.boolean false, 0⟩
  | .brightness => ⟨.integer 25, 0⟩

theorem lightNode_has (p : LightParam) : lightNode.Has p := by
  refine ⟨_, List.mem_cons_self, ?_⟩
  cases p <;> simp

/-- RainMaker started with these parameters, connected and nothing
reported yet. -/
def lightAgentInit : RmakerAgent LightParam where
  param := lightParamInit
  nodeParamsBuf := none
  maxNodeParamsSize := 1024
  started := true
  espRmakerParamsMqttInitDone := false
  mqttConnected := true
  published := []

/-- The same after `esp_rmaker_params_mqtt_init`. -/
def lightAgent : RmakerAgent LightParam :=
  (espRmakerParamsMqttInit lightNode .ok .enough lightAgentInit).2.1

/-- A write request: `esp_rmaker_device_set_params` reads a value of the
parameter's own type. -/
inductive CloudWrite where
  | power (b : Bool)
  | brightness (i : Int32)
  | name (s : String)
deriving DecidableEq, Repr

/-- A call of `esp_rmaker_param_update_and_report`. -/
structure ParamUpdate where
  param : LightParam
  val : Val
deriving DecidableEq

/-- `write_cb`: the light state after it, what it passes to
`send_bri_ctrl_info`, and the parameter it updates after that. -/
def writeCb : CloudWrite → Light → Light × List Cmd × List ParamUpdate
  | .power b, l =>
      let r := if b then openTheLights l else closeTheLights l
      (r.1, r.2, [⟨.power, .boolean (decide (getBriStatus r.1 ≠ 0))⟩])
  | .brightness i, l =>
      if getBriStatus l ≠ 0 then
        let r := setBtightPct i.toUInt32 l
        (r.1, r.2, [⟨.brightness, .integer (getBtightPct r.1).toInt32⟩])
      else (l, [], [])
  | .name s, l => (l, [], [⟨.name, .string (some s)⟩])

/-- `esp_rmaker_update` -/
def espRmakerUpdate (cmdTyed : UInt8) (dat : UInt32) : List ParamUpdate :=
  if cmdTyed = onOffCmd then [⟨.power, .boolean (decide (dat ≠ 0))⟩]
  else if cmdTyed = briNowCmd then [⟨.brightness, .integer dat.toInt32⟩]
  else []

end LiveWireSwitch
