import LiveWireSwitch.Json.Bounds
import LiveWireSwitch.RmakerParam.SetParams

/-!
# RmakerParam — Payloads

`esp_rmaker_handle_set_params` on a payload of any bytes: which reads of
the token array may go past its end.
-/

namespace LiveWireSwitch

variable {α : Type} (node : SetNode α)

/-- A name the node looks for. -/
def SetNode.LooksFor (name : List UInt8) : Prop :=
  ∃ d ∈ node.devices, name = cBytes d.name.text ∨
    ∃ p ∈ d.params, name = cBytes (node.paramName p).text

theorem readBytes_some {calloc : Bool} {strlen : Option (Option Nat)}
    {get : Nat → Option (Option (List UInt8))} (mk : List UInt8 → ReqVal)
    (hstrlen : ∃ r, strlen = some r) (hget : ∀ n, ∃ r, get n = some r) :
    ∃ r, readBytes calloc strlen get mk = some r := by
  obtain ⟨found, rfl⟩ := hstrlen
  rw [readBytes, Option.bind_some]
  cases found with
  | none => exact ⟨_, rfl⟩
  | some n =>
      dsimp only
      split
      · exact ⟨_, rfl⟩
      · obtain ⟨r, hr⟩ := hget (n + 1)
        rw [hr]
        exact ⟨_, rfl⟩

/-- A parameter is read inside the array unless its name is the last
token. -/
theorem readParam_some {c : JparseCtx} (h : c.Ok) (calloc : Bool) (type : ValType)
    {name : List UInt8} (hlast : ¬ c.LastIs name) :
    ∃ r, readParam calloc c type name = some r := by
  have hget := fun {β : Type} (type : JsmnType) (value : JsmnTok → Option β) =>
    jsonObjGet_ok h type value hlast
  cases type with
  | boolean =>
      obtain ⟨r, hr⟩ := hget .primitive (jsonTokToBool c.js)
      rw [readParam, jsonObjGetBool, hr]
      exact ⟨_, rfl⟩
  | integer =>
      obtain ⟨r, hr⟩ := hget .primitive (jsonTokToInt c.js)
      rw [readParam, jsonObjGetInt, hr]
      exact ⟨_, rfl⟩
  | float =>
      obtain ⟨r, hr⟩ := hget .primitive (jsonTokToFloat c.js)
      rw [readParam, jsonObjGetFloat, hr]
      exact ⟨_, rfl⟩
  | string => exact readBytes_some _ (hget .string _) fun n => hget .string _
  | object => exact readBytes_some _ (hget .object _) fun n => hget .object _
  | array => exact readBytes_some _ (hget .array _) fun n => hget .array _

theorem deviceSetParams_some {c : JparseCtx} (h : c.Ok) (calloc : α → Bool)
    (device : RmakerDevice α) (params : List α)
    (hlast : ∀ p ∈ params, ¬ c.LastIs (cBytes (node.paramName p).text)) :
    ∃ calls, espRmakerDeviceSetParams node calloc device c params = some calls := by
  induction params with
  | nil => exact ⟨[], rfl⟩
  | cons p ps ih =>
      obtain ⟨rest, hrest⟩ := ih fun q hq => hlast q (List.mem_cons_of_mem _ hq)
      obtain ⟨r, hr⟩ := readParam_some h (calloc p) (node.valType p) (hlast p List.mem_cons_self)
      rw [espRmakerDeviceSetParams, hr, Option.bind_some]
      cases r with
      | absent => exact ⟨rest, hrest⟩
      | found val =>
          dsimp only
          rw [hrest]
          exact ⟨_, rfl⟩
      | noMem => exact ⟨[], rfl⟩

theorem setDevices_some (calloc : α → Bool) (devices : List (RmakerDevice α)) {c : JparseCtx}
    (h : c.Ok) (hdevice : ∀ d ∈ devices, ¬ c.LastIs (cBytes d.name.text))
    (hparam : ∀ d ∈ devices, ∀ p ∈ d.params, ¬ c.LastIs (cBytes (node.paramName p).text)) :
    ∃ calls, setDevices node calloc devices c = some calls := by
  induction devices generalizing c with
  | nil => exact ⟨[], rfl⟩
  | cons d ds ih =>
      -- what is asked of a context is asked of its text and tokens
      have hkeep : ∀ {c' : JparseCtx} {name : List UInt8}, c'.js = c.js → c'.tokens = c.tokens →
          ¬ c.LastIs name → ¬ c'.LastIs name := by
        intro c' name hjs htokens hnot hlast
        rw [JparseCtx.LastIs, hjs, htokens] at hlast
        exact hnot hlast
      have hrest : ∀ {c' : JparseCtx}, c'.Ok → c'.js = c.js → c'.tokens = c.tokens →
          ∃ calls, setDevices node calloc ds c' = some calls := by
        intro c' hc' hjs htokens
        refine ih hc' ?_ ?_
        · intro e he
          exact hkeep hjs htokens (hdevice e (List.mem_cons_of_mem _ he))
        · intro e he p hp
          exact hkeep hjs htokens (hparam e (List.mem_cons_of_mem _ he) p hp)
      obtain ⟨r, hr, hin⟩ := jsonObjGetObject_ok h (hdevice d List.mem_cons_self)
      rw [setDevices, hr, Option.bind_some]
      cases r with
      | none => exact hrest h rfl rfl
      | some c₁ =>
          dsimp only
          obtain ⟨hok₁, hjs₁, htokens₁⟩ := hin c₁ rfl
          obtain ⟨calls, hcalls⟩ := deviceSetParams_some node hok₁ calloc d d.params fun p hp =>
            hkeep hjs₁ htokens₁ (hparam d List.mem_cons_self p hp)
          obtain ⟨left, hleft, hok₂, hjs₂, htokens₂⟩ := jsonObjLeaveObject_ok hok₁
          obtain ⟨more, hmore⟩ := hrest hok₂ (hjs₂.trans hjs₁) (htokens₂.trans htokens₁)
          rw [hcalls, Option.bind_some, hleft, Option.bind_some, hmore]
          exact ⟨_, rfl⟩

/-- **A payload never leads outside the token array**, whatever its bytes
are, unless it is a text whose last token is a name the node looks for:
such a key has no value. -/
theorem set_params_stays_inside (callocTokens : Bool) (calloc : α → Bool) (data : List UInt8)
    (hout : espRmakerHandleSetParams node callocTokens calloc data = none) :
    ∃ jctx name, jsonParseStart callocTokens data = some (some jctx) ∧ node.LooksFor name ∧
      jctx.LastIs name := by
  obtain ⟨r, hr, hin⟩ := jsonParseStart_ok callocTokens data
  rw [espRmakerHandleSetParams, hr, Option.bind_some] at hout
  cases r with
  | none => cases hout
  | some jctx =>
      by_contra hnot
      have hname : ∀ name, node.LooksFor name → ¬ jctx.LastIs name := by
        intro name hlooks hlast
        exact hnot ⟨jctx, name, hr, hlooks, hlast⟩
      obtain ⟨calls, hcalls⟩ := setDevices_some node calloc node.devices (hin jctx rfl).1
        (fun d hd => hname _ ⟨d, hd, .inl rfl⟩)
        fun d hd p hp => hname _ ⟨d, hd, .inr ⟨p, hp, rfl⟩⟩
      dsimp only at hout
      rw [hcalls] at hout
      cases hout

/-- A text of one key, the device's name, without a value. -/
theorem light_key_reads_outside :
    ∃ jctx name, jsonParseStart true (cBytes "\x7b\"Light\"\x7d") = some (some jctx) ∧
      lightSetNode.LooksFor name ∧ jctx.LastIs name :=
  set_params_stays_inside lightSetNode true (fun _ => true) (cBytes "\x7b\"Light\"\x7d")
    (Option.isNone_iff_eq_none.mp (by decide +kernel))

end LiveWireSwitch
