import LiveWireSwitch.RemoteRequests

/-!
# LightRequests — what a request does to the light

`write_cb` on the calls a document leads to, up to its calls of
`send_bri_ctrl_info`. The node has Power before Brightness, so a request
with both switches first and dims then, in whatever order it names them; a
brightness is taken by a light that is on and within its limits.
-/

namespace LiveWireSwitch

/-! ## What is asked for -/

/-- The Power that a document asks for the light. -/
def Json.power (v : Json) : Option Bool := (v.member (cBytes "Power")).bind Json.toBool?

/-- The Brightness, any whole number. -/
def Json.brightness (v : Json) : Option Int := (v.member (cBytes "Brightness")).bind Json.toInt?

/-- What the device of the light is asked for; with no memory for its new
name it is asked for nothing. -/
def lightAsked (memory : RequestMemory LightParam) (root : Json) : Option Bool × Option Int :=
  match root.member (cBytes "Light") with
  | none => (none, none)
  | some v =>
      if memory.tokens = true ∧ ¬ lightSetNode.Starves lightSetNode.meant memory.value v .name then
        (v.power, v.brightness)
      else (none, none)

/-- The light has that brightness to offer. -/
def Light.Takes (l : Light) (pct : Int) : Prop :=
  l.briStatus ≠ 0 ∧ (l.briMinPct.toNat : Int) ≤ pct ∧ pct ≤ l.briMaxPct.toNat

instance (l : Light) (pct : Int) : Decidable (l.Takes pct) :=
  inferInstanceAs (Decidable (_ ∧ _ ∧ _))

/-- The light on or off, and the command for that. -/
def Light.switch (l : Light) : Option Bool → Light × List Cmd
  | none => (l, [])
  | some b => ({ l with briStatus := if b then 1 else 0 }, [⟨onOffCmd, if b then 1 else 0⟩])

/-- The light brighter or darker, and the command for that. -/
def Light.dim (l : Light) : Option Int → Light × List Cmd
  | none => (l, [])
  | some pct =>
      if l.Takes pct then
        ({ l with briNowPct := .ofNat pct.toNat }, [⟨briNowCmd, .ofNat pct.toNat⟩])
      else (l, [])

/-- Both. -/
def Light.obey (l : Light) (asked : Option Bool × Option Int) : Light × List Cmd :=
  let switched := l.switch asked.1
  let dimmed := switched.1.dim asked.2
  (dimmed.1, switched.2 ++ dimmed.2)

/-- Requests one after the other. -/
def Light.obeyAll (memory : Nat → RequestMemory LightParam) :
    Nat → List Document → Light → Light × List Cmd
  | _, [], l => (l, [])
  | k, doc :: docs, l =>
      let first := l.obey (lightAsked (memory k) doc.root)
      let others := first.1.obeyAll memory (k + 1) docs
      (others.1, first.2 ++ others.2)

/-! ## What is done -/

/-- What `write_cb` is told; a new name does not come to it. -/
def SetCall.cloudWrite : SetCall LightParam → Option CloudWrite
  | .writeCb _ .power (.boolean b) => some (.power b)
  | .writeCb _ .brightness (.integer i) => some (.brightness i)
  | _ => none

/-- `write_cb`, once for each: the light, and the calls of
`send_bri_ctrl_info`. -/
def writeCbs : List CloudWrite → Light → Light × List Cmd
  | [], l => (l, [])
  | w :: ws, l =>
      let first := writeCb w l
      let others := writeCbs ws first.1
      (others.1, first.2.1 ++ others.2)

theorem writeCbs_append (ws ws' : List CloudWrite) (l : Light) :
    writeCbs (ws ++ ws') l
      = ((writeCbs ws' (writeCbs ws l).1).1,
          (writeCbs ws l).2 ++ (writeCbs ws' (writeCbs ws l).1).2) := by
  induction ws generalizing l with
  | nil => rfl
  | cons w ws ih =>
      simp only [List.cons_append, writeCbs, ih, List.append_assoc]

/-! ## It is the same -/

theorem toInt_eq_cond (pct : Int32) :
    pct.toInt = if 2 * pct.toUInt32.toNat < 2 ^ 32 then (pct.toUInt32.toNat : Int)
      else pct.toUInt32.toNat - 2 ^ 32 := BitVec.toInt_eq_toNat_cond _

/-- A negative brightness is above every limit. -/
theorem takes_iff (l : Light) (pct : Int32) :
    l.Takes pct.toInt ↔ getBriStatus l ≠ 0 ∧
      ¬ (l.briMaxPct.toUInt32 < pct.toUInt32 ∨ l.briMinPct.toUInt32 > pct.toUInt32) := by
  have hpct := toInt_eq_cond pct
  have hlt := pct.toUInt32.toNat_lt
  have hmax := l.briMaxPct.toNat_lt
  have hmin := l.briMinPct.toNat_lt
  simp only [Light.Takes, getBriStatus, gt_iff_lt, UInt32.lt_iff_toNat_lt, UInt8.toNat_toUInt32]
  refine and_congr_right fun _ => ?_
  split at hpct <;> omega

theorem ofNat_toInt_toNat {l : Light} {pct : Int32} (h : l.Takes pct.toInt) :
    UInt8.ofNat pct.toInt.toNat = pct.toUInt32.toUInt8 := by
  have hpct := toInt_eq_cond pct
  have hlt := pct.toUInt32.toNat_lt
  have hle := h.2.1
  apply UInt8.toNat_inj.mp
  rw [UInt8.toNat_ofNat', UInt32.toNat_toUInt8]
  split at hpct <;> omega

/-- What a light takes has 32 bits. -/
theorem Light.Takes.exists_int32 {l : Light} {i : Int} (h : l.Takes i) :
    ∃ pct : Int32, int32Of i = some pct ∧ pct.toInt = i := by
  obtain ⟨-, hlow, hhigh⟩ := h
  have hmax := l.briMaxPct.toNat_lt
  exact ⟨.ofInt i, if_pos (by omega), Int32.toInt_ofInt_of_le (by omega) (by omega)⟩

theorem toInt_of_int32Of {i : Int} {pct : Int32} (h : int32Of i = some pct) : pct.toInt = i := by
  rw [int32Of] at h
  split at h
  · next hfits =>
      cases h
      exact Int32.toInt_ofInt_of_le (by omega) (by omega)
  · cases h

theorem writeCbs_power (power : Option Bool) (l : Light) :
    writeCbs (power.toList.map .power) l = l.switch power := by
  cases power with
  | none => rfl
  | some b => cases b <;> rfl

theorem writeCbs_brightness (brightness : Option Int) (l : Light) :
    writeCbs ((brightness.bind int32Of).toList.map .brightness) l = l.dim brightness := by
  cases brightness with
  | none => rfl
  | some i =>
      rw [Option.bind_some]
      by_cases htakes : l.Takes i
      · obtain ⟨pct, hpct, rfl⟩ := htakes.exists_int32
        obtain ⟨hon, hlimits⟩ := (takes_iff l pct).mp htakes
        rw [Light.dim, if_pos htakes, ofNat_toInt_toNat htakes, hpct]
        show writeCbs [.brightness pct] l = _
        simp only [writeCbs, writeCb, if_pos hon, setBtightPct, if_neg hlimits, List.append_nil]
      · rw [Light.dim, if_neg htakes]
        cases hpct : int32Of i with
        | none => rfl
        | some pct =>
            show writeCbs [.brightness pct] l = _
            rw [← toInt_of_int32Of hpct] at htakes
            by_cases hon : getBriStatus l ≠ 0
            · have hlimits := not_not.mp fun hlimits =>
                htakes ((takes_iff l pct).mpr ⟨hon, hlimits⟩)
              simp only [writeCbs, writeCb, if_pos hon, setBtightPct, if_pos hlimits,
                List.append_nil]
            · simp only [writeCbs, writeCb, if_neg hon, List.append_nil]

/-- The calls for the light say what it is asked for. -/
theorem deviceCalls_light (calloc : LightParam → Bool) (d : RmakerDevice LightParam)
    (hparams : d.params = [.name, .power, .brightness]) (v : Json) :
    (lightSetNode.deviceCalls lightSetNode.meant calloc d v).filterMap SetCall.cloudWrite
      = if lightSetNode.Starves lightSetNode.meant calloc v .name then []
        else v.power.toList.map .power ++ (v.brightness.bind int32Of).toList.map .brightness := by
  by_cases hstarves : lightSetNode.Starves lightSetNode.meant calloc v .name
  · rw [if_pos hstarves, SetNode.deviceCalls, hparams, List.takeWhile_cons_of_neg]
    · rfl
    · rw [decide_eq_true hstarves]
      exact Bool.noConfusion
  · have henough : ∀ p ∈ d.params, ¬ lightSetNode.Starves lightSetNode.meant calloc v p := by
      intro p _
      cases p with
      | name => exact hstarves
      | power => exact fun h => h.2.1
      | brightness => exact fun h => h.2.1
    have hname : (lightSetNode.paramCalls lightSetNode.meant d v .name).filterMap
        SetCall.cloudWrite = [] := by
      rw [SetNode.paramCalls]
      cases lightSetNode.meant.param v .name <;> rfl
    have hpower : (lightSetNode.paramCalls lightSetNode.meant d v .power).filterMap
        SetCall.cloudWrite = v.power.toList.map .power := by
      have hvalue : lightSetNode.meant.param v .power = v.power.map .boolean :=
        (Option.map_bind ..).symm
      rw [SetNode.paramCalls, hvalue]
      cases v.power <;> rfl
    have hbrightness : (lightSetNode.paramCalls lightSetNode.meant d v .brightness).filterMap
        SetCall.cloudWrite = (v.brightness.bind int32Of).toList.map .brightness := by
      have hvalue : lightSetNode.meant.param v .brightness =
          (v.brightness.bind int32Of).map .integer := by
        rw [Json.brightness, Option.bind_assoc, Option.map_bind]
        rfl
      rw [SetNode.paramCalls, hvalue]
      cases v.brightness.bind int32Of <;> rfl
    rw [if_neg hstarves, deviceCalls_enough _ _ henough, hparams]
    simp only [List.flatMap_cons, List.flatMap_nil, List.filterMap_append, hname, hpower,
      hbrightness, List.nil_append, List.append_nil]

/-- Nothing is asked with a value that is no object. -/
theorem asked_of_not_object {v : Json} (h : v.type ≠ .object) :
    v.power = none ∧ v.brightness = none := by
  cases v with
  | object members => exact absurd rfl h
  | _ => exact ⟨rfl, rfl⟩

/-- One request. -/
theorem request_obeyed (memory : RequestMemory LightParam) (root : Json) (l : Light) :
    writeCbs ((if memory.tokens then lightSetNode.asked memory.value root else []).filterMap
        SetCall.cloudWrite) l
      = l.obey (lightAsked memory root) := by
  have hcalls : lightSetNode.asked memory.value root
      = (match (root.member (cBytes "Light")).filter fun v => decide (v.type = .object) with
        | none => []
        | some v => lightSetNode.deviceCalls lightSetNode.meant memory.value
            ⟨⟨"Light", by decide⟩, [.name, .power, .brightness]⟩ v) ++ [] := rfl
  have hasked : ∀ asked : Option Bool × Option Int,
      writeCbs (asked.1.toList.map .power ++ (asked.2.bind int32Of).toList.map .brightness) l
        = l.obey asked := by
    intro asked
    rw [writeCbs_append, writeCbs_power, writeCbs_brightness]
    rfl
  rw [← hasked, hcalls, List.append_nil, lightAsked]
  cases root.member (cBytes "Light") with
  | none => cases memory.tokens <;> rfl
  | some v =>
      rw [Option.filter_some]
      dsimp only
      by_cases hobject : v.type = .object
      · rw [if_pos (decide_eq_true hobject)]
        dsimp only
        cases htokens : memory.tokens with
        | false => rfl
        | true =>
            rw [if_pos rfl, deviceCalls_light _ _ rfl]
            by_cases hstarves : lightSetNode.Starves lightSetNode.meant memory.value v .name
            · rw [if_pos hstarves, if_neg fun h => h.2 hstarves]
              rfl
            · rw [if_neg hstarves, if_pos ⟨rfl, hstarves⟩]
      · obtain ⟨hpower, hbrightness⟩ := asked_of_not_object hobject
        rw [decide_eq_false hobject, hpower, hbrightness, ite_self]
        cases memory.tokens <;> rfl

end LiveWireSwitch
