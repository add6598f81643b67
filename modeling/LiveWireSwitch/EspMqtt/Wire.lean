import LiveWireSwitch.EspMqtt.Kept

/-!
# EspMqtt.Wire — what the broker gets to see

Packets from three places share the connection: the calls of other tasks,
the answers to what comes in, and what is sent again from the outbox. Up to
the first error the broker sees whole packets, one behind the other. A
PUBLISH too long for the buffer is the exception to be named: if it fails,
the packets of the next connection can be wrong.
-/

namespace LiveWireSwitch

open Lib Relation MqttConnection

/-- One packet behind the other. -/
def Whole (wire : List UInt8) : Prop := ∃ ps : List Packet, wire = ps.flatMap Packet.bytes

theorem Packet.whole (p : Packet) : Whole p.bytes := ⟨[p], by simp⟩

theorem Whole.append {xs ys : List UInt8} (h : Whole xs) (h' : Whole ys) : Whole (xs ++ ys) := by
  obtain ⟨ps, rfl⟩ := h
  obtain ⟨qs, rfl⟩ := h'
  exact ⟨ps ++ qs, List.flatMap_append.symm⟩

/-! ## Errors -/

/-- What an event says of the connection: it failed, or a new one is made. -/
def MqttEvent.failing : MqttEvent → Bool → Bool
  | .error, _ => true
  | .beforeConnect, _ => false
  | _, failed => failed

/-- An error has been told of since the last connection was begun. -/
def errorSince (events : List MqttEvent) : Bool :=
  events.foldl (fun failed e => e.failing failed) false

theorem errorSince_append_single (es : List MqttEvent) (e : MqttEvent) :
    errorSince (es ++ [e]) = e.failing (errorSince es) := by
  rw [errorSince, List.foldl_append]
  rfl

theorem MqttEvent.Plain.of_failing {e : MqttEvent} (h : e.Plain) {failed : Bool}
    (hfailing : e.failing failed = false) : failed = false := by
  cases e with
  | beforeConnect => exact h.elim
  | error => cases hfailing
  | data event => exact h.elim
  | connected => exact hfailing
  | disconnected => exact hfailing
  | subscribed id => exact hfailing
  | unsubscribed id => exact hfailing
  | published id => exact hfailing
  | deleted id => exact hfailing

/-- Without an error after a plain event there was none before it. -/
theorem errorSince_of_plain {es : List MqttEvent} {e : MqttEvent} (he : e.Plain)
    (h : errorSince (es ++ [e]) = false) : errorSince es = false := by
  rw [errorSince_append_single] at h
  exact he.of_failing h

theorem errorSince_append_data (es : List MqttEvent) (ds : List MqttDataEvent) :
    errorSince (es ++ ds.map MqttEvent.data) = errorSince es := by
  induction ds generalizing es with
  | nil => simp
  | cons d ds ih =>
      rw [List.map_cons, ← List.singleton_append, ← List.append_assoc, ih,
        errorSince_append_single]
      rfl

namespace MqttClient

/-- No error is told of between two states. -/
def NoError (c c' : MqttClient) : Prop := .error ∉ c'.events.drop c.events.length

theorem NoError.left {c d e : MqttClient} (h : NoError c e) (hcd : c.events <+: d.events)
    (hde : d.events <+: e.events) : NoError c d := by
  obtain ⟨es, hes⟩ := hcd
  obtain ⟨es', hes'⟩ := hde
  unfold NoError at h ⊢
  rw [← hes', ← hes, List.append_assoc, List.drop_left, List.mem_append] at h
  rw [← hes, List.drop_left]
  exact fun hbad => h (.inl hbad)

theorem NoError.right {c d e : MqttClient} (h : NoError c e) (hcd : c.events <+: d.events)
    (hde : d.events <+: e.events) : NoError d e := by
  obtain ⟨es, hes⟩ := hcd
  obtain ⟨es', hes'⟩ := hde
  unfold NoError at h ⊢
  rw [← hes', ← hes, List.append_assoc, List.drop_left, List.mem_append] at h
  rw [← hes', List.drop_left]
  exact fun hbad => h (.inr hbad)

/-- The outbound side, with what has gone out. -/
structure Wired (c : MqttClient) : Prop where
  sound : c.Sound
  whole : c.state = .connected → errorSince c.events = false → Whole c.wire

/-- The wire, the state and the outbound side stay, and nothing but a plain
event is told of. -/
theorem Wired.tell {c c' : MqttClient} {e : MqttEvent} (h : Wired c) (he : e.Plain)
    (hsound : c'.Sound) (hstate : c'.state = .connected → c.state = .connected)
    (hwire : c'.wire = c.wire) (hevents : c'.events = c.events ++ [e]) : Wired c' := by
  refine ⟨hsound, fun hconnected herror => ?_⟩
  rw [hevents] at herror
  rw [hwire]
  exact h.whole (hstate hconnected) (errorSince_of_plain he herror)

theorem Wired.keep {c c' : MqttClient} (h : Wired c) (hsound : c'.Sound)
    (hstate : c'.state = c.state) (hwire : c'.wire = c.wire) (hevents : c'.events = c.events) :
    Wired c' := by
  refine ⟨hsound, ?_⟩
  rw [hstate, hwire, hevents]
  exact h.whole

theorem OutboxItem.Marked.isPacket {item item' : OutboxItem} (h : item.Marked item')
    (hitem : IsPacket item.buffer) : IsPacket item'.buffer := by
  obtain hsame | ⟨-, -, hdup⟩ := h.buffer_eq
  · rwa [hsame]
  · rw [hdup]
    exact hitem.mqttSetDup

section Wired

variable {proper short last : Prop}

theorem Move.wired {c c' : MqttClient} (hmove : Move proper short c c') (hproper : proper)
    (hshort : short ∨ NoError c c') (h : Wired c) : Wired c' := by
  have hsettled := h.sound.settled
  have hpackets := h.sound.isPacket
  cases hmove with
  | note hsame =>
      refine h.keep ⟨?_, ?_⟩ hsame.state_eq hsame.wire_eq hsame.events_eq
      · rwa [hsame.connection_eq]
      · rwa [hsame.outbox_eq]
  | tell e he => exact h.tell he ⟨hsettled, hpackets⟩ (fun hc => hc) rfl rfl
  | abort => exact ⟨⟨hsettled, hpackets⟩, fun hbad => by cases hbad⟩
  | build k hlen hk => exact h.keep ⟨hk h.sound hproper, hpackets⟩ rfl rfl rfl
  | emit hemit =>
      obtain ⟨hevents, hout⟩ | ⟨hevents, hout⟩ := hemit.ending
      · -- a whole packet behind whole packets
        obtain ⟨hk, p, hp⟩ := hout h.sound hproper
        refine ⟨⟨hk, by rwa [hemit.same.outbox_eq]⟩, fun hconnected herror => ?_⟩
        rw [hemit.same.state_eq] at hconnected
        rw [hevents] at herror
        rw [hp]
        exact (h.whole hconnected herror).append p.whole
      · -- an error, which only something short may meet
        have hshort' : short := by
          refine hshort.resolve_right fun hno => ?_
          unfold NoError at hno
          rw [hevents, List.drop_left] at hno
          exact hno (List.mem_singleton.mpr rfl)
        refine ⟨⟨hout h.sound hproper hshort', by rwa [hemit.same.outbox_eq]⟩, fun _ herror => ?_⟩
        rw [hevents, errorSince_append_single] at herror
        cases herror
  | enqueue item stored hid hqos hqueued hitem =>
      refine h.keep ⟨hsettled, fun other hother => ?_⟩ rfl rfl rfl
      cases stored with
      | true =>
          obtain hother | hother := List.mem_append.mp hother
          · exact hpackets other hother
          · rw [List.mem_singleton.mp hother]
            exact hitem h.sound hproper
      | false => exact hpackets other hother
  | mark i item item' hi hmarked =>
      refine h.keep ⟨hsettled, ?_⟩ rfl rfl rfl
      exact forall_mem_set hpackets
        (OutboxItem.Marked.isPacket hmarked (hpackets item (List.mem_of_getElem? hi)))
  | drop i item hi hloose =>
      exact h.keep ⟨hsettled, fun other hother => hpackets other (List.mem_of_mem_eraseIdx hother)⟩
        rfl rfl rfl
  | settle i item e hi he hends =>
      exact h.tell he
        ⟨hsettled, fun other hother => hpackets other (List.mem_of_mem_eraseIdx hother)⟩
        (fun hc => hc) rfl rfl
  | clamp => exact h.keep ⟨hsettled, hpackets⟩ rfl rfl rfl

theorem Turn.wired {c c' : MqttClient} (hturn : Turn proper short last c c') (hproper : proper)
    (hshort : short ∨ NoError c c') (h : Wired c) : Wired c' := by
  have hsettled := h.sound.settled
  have hpackets := h.sound.isPacket
  cases hturn with
  | move hmove => exact hmove.wired hproper hshort h
  | receive input ds =>
      refine ⟨⟨hsettled, hpackets⟩, fun hconnected herror => ?_⟩
      have herror' : errorSince (c.events ++ ds.map MqttEvent.data) = false := herror
      rw [errorSince_append_data] at herror'
      exact h.whole hconnected herror'
  | opens hopens =>
      refine ⟨⟨hopens.settled hsettled, by rwa [hopens.outbox_eq]⟩, fun hconnected _ => ?_⟩
      obtain ⟨p, hp⟩ := (hopens.connected hconnected).2 hsettled
      rw [hp]
      exact p.whole
  | start => exact ⟨⟨hsettled, hpackets⟩, fun hbad => by cases hbad⟩
  | ends hlast =>
      exact ⟨⟨hsettled, fun item hitem => by cases hitem⟩, fun hbad => by cases hbad⟩

theorem Turns.wired {c c' : MqttClient} (hturns : Turns proper short last c c')
    (hproper : proper) (hshort : short ∨ NoError c c') (h : Wired c) : Wired c' := by
  induction hturns with
  | refl => exact h
  | tail hturns hturn ih =>
      have hfirst := Turns.events_grow hturns
      have hlast := hturn.events_grow
      have hbefore := ih (hshort.imp_right fun hno => hno.left hfirst hlast)
      exact hturn.wired hproper (hshort.imp_right fun hno => hno.right hfirst hlast) hbefore

end Wired

theorem initial_wired (outBufferLength : Nat) (room : mqttMaxFixedHeaderSize ≤ outBufferLength)
    (inBufferSize : InBufferSize) (now : Int64) :
    Wired (initial outBufferLength room inBufferSize now) :=
  ⟨⟨⟨rfl, le_rfl⟩, fun item hitem => by cases hitem⟩, fun hbad => by cases hbad⟩

/-- A turn that is proper, and short or without an error. -/
def Harmless (c : MqttClient) (act : MqttAct) : Prop :=
  act.Proper ∧
    (act.Short c.connection.bufferLength ∨ ∀ c' ∈ c.step act, NoError c c')

theorem step_wired {c c' : MqttClient} {act : MqttAct} (h : Wired c) (hact : Harmless c act)
    (hstep : c.step act = some c') : Wired c' :=
  (step_turns hstep).wired hact.1 (hact.2.imp_right fun hno => hno c' hstep) h

end MqttClient

end LiveWireSwitch
