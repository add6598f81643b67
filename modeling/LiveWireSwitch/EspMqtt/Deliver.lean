import LiveWireSwitch.EspMqtt.Receive
import LiveWireSwitch.RmakerParam
import Mathlib.Data.List.TakeWhile

/-!
# EspMqtt.Deliver — a PUBLISH on its way to the callbacks

`deliver_publish` turns a PUBLISH into data events: one, or for a packet
longer than `in_buffer` one for what is in the buffer and one for each
further read (`mqtt_client.c`). The event handler of the glue puts long
data together again and calls the subscriptions with the topic
(`esp-mqtt-glue.c`).
-/

namespace LiveWireSwitch

open Lib

/-! ## `deliver_publish` (`mqtt_client.c`) -/

/-- What an `esp_mqtt_event_t` says with `MQTT_EVENT_DATA`. A `topic` of
`NULL` is `none`; `data` is `data[0 .. data_len)`. -/
structure MqttDataEvent where
  topic : Option (List UInt8)
  data : List UInt8
  dataLen : Int
  totalDataLen : Int
  currentDataOffset : Int
  retain : Nat
  msgId : UInt16

/-- `a + b` and `a - b` of two `size_t`. -/
def sizeAdd (a b : Nat) : Nat := (a + b) % 2 ^ 32
def sizeSub (a b : Nat) : Nat := (a + 2 ^ 32 - b) % 2 ^ 32

/-- −1 as a `size_t`, which is what `msg_data_len` is. -/
def sizeMax : Nat := 2 ^ 32 - 1

/-- A size of `in_buffer`; `esp_mqtt_client_init` takes its default for 0
and below. -/
structure InBufferSize where
  bytes : Nat
  pos : 0 < bytes

/-- What `esp_transport_read` returned, as the `size_t` it is put in. -/
def readSize : Option (List UInt8) → Nat
  | none => sizeMax
  | some xs => xs.length

/-- From `post_data_event` on for the second event and later ones: the
reads of what did not fit, one event each. A failed read is not `<= 0`. -/
def deliverRest (size : InBufferSize) (event : MqttDataEvent)
    (msgTotalLen msgReadLen msgDataOffset : Nat) (transport : Feed UInt8) :
    EspErr × List MqttDataEvent × Feed UInt8 :=
  if msgReadLen < msgTotalLen then
    let got := transport.read (min (msgTotalLen - msgReadLen) size.bytes)
    let msgDataLen := readSize got.1
    if _h : msgDataLen = 0 then (.fail, [], got.2)
    else
      let event' := { event with
        topic := none
        data := got.1.getD []
        dataLen := toInt32 msgDataLen
        currentDataOffset := toInt32 msgDataOffset }
      let r := deliverRest size event msgTotalLen (sizeAdd msgReadLen msgDataLen)
        (sizeAdd msgDataOffset msgDataLen) got.2
      (r.1, event' :: r.2.1, r.2.2)
  else (.ok, [], transport)
termination_by transport.weight
decreasing_by
  apply Feed.weight_read_lt
  · have := size.pos
    omega
  · rintro rfl
    exact _h rfl

/-- `deliver_publish`: the events it dispatches, and what it leaves of the
transport. -/
def deliverPublish (size : InBufferSize) (s : MqttInput) :
    EspErr × List MqttDataEvent × Feed UInt8 :=
  match mqttGetPublishTopic s.inBuffer s.readLen with
  | none => (.fail, [], s.transport)
  | some msgTopic =>
      let msgData := (mqttGetPublishData s.inBuffer s.readLen).getD []
      let event : MqttDataEvent :=
        { topic := some msgTopic
          data := msgData
          dataLen := toInt32 msgData.length
          totalDataLen := toInt32 (sizeSub (sizeAdd msgData.length s.messageLength) s.readLen)
          currentDataOffset := 0
          retain := mqttGetRetain s.inBuffer
          msgId := mqttGetId s.inBuffer msgData.length }
      let r := deliverRest size event s.messageLength s.readLen msgData.length s.transport
      (r.1, event :: r.2.1, r.2.2)

/-! ## The event handler (`esp-mqtt-glue.c`) -/

/-- `esp_mqtt_glue_subscription_t`; the callback and its `priv` by a
number. -/
structure GlueSubscription where
  topic : CString
  cb : Nat

/-- A call of a subscription's callback. -/
structure GlueCall where
  cb : Nat
  topic : CString
  payload : List UInt8

/-- `esp_mqtt_glue_long_data_t`. `data` is the whole block. -/
structure GlueLongData where
  data : List UInt8
  topic : CString

/-- `strncmp(s, t, n) == 0` -/
def strncmpEq : Nat → List UInt8 → List UInt8 → Bool
  | 0, _, _ => true
  | n + 1, s, t =>
      s.headD 0 = t.headD 0 && (s.headD 0 = 0 || strncmpEq n s.tail t.tail)

/-- `esp_mqtt_glue_subscribe_callback` -/
def espMqttGlueSubscribeCallback (subscriptions : List (Option GlueSubscription))
    (topic : List UInt8) (data : List UInt8) : List GlueCall :=
  subscriptions.filterMap fun subscription =>
    subscription.bind fun s =>
      if strncmpEq topic.length topic s.topic.bytes ∧ topic.length = s.topic.bytes.length then
        some ⟨s.cb, s.topic, data⟩
      else none

/-- What the glue keeps: the `static long_data` of `mqtt_event_handler`, and
for how many messages in pieces it has asked for memory so far. -/
structure GlueData where
  longData : Option GlueLongData
  asked : Nat

/-- `esp_mqtt_glue_free_long_data` -/
def espMqttGlueFreeLongData : Option GlueLongData := none

/-- `strndup(s, s_len)` of bytes `s[0 .. s_len)`: up to the first NUL. -/
def strndup (s : List UInt8) : CString where
  bytes := s.takeWhile (· ≠ 0)
  noNul := by
    intro h
    simpa using List.mem_takeWhile_imp h

/-- `memcpy(block + offset, data, len)` into a block on the heap, `none`
when it goes past the block. -/
def memcpyBlock (block : List UInt8) (offset : Int) (data : List UInt8) (len : Int) :
    Option (List UInt8) :=
  if 0 ≤ offset ∧ 0 ≤ len ∧ offset + len ≤ block.length then
    some (block.take offset.toNat ++ data.take len.toNat ++ block.drop (offset + len).toNat)
  else none

/-- `esp_mqtt_glue_manage_long_data`: what is kept and the callbacks called,
`none` when it writes past the block. `alloc` says for which messages in
pieces all three allocations succeed. -/
def espMqttGlueManageLongData (subscriptions : List (Option GlueSubscription))
    (alloc : Nat → Bool) (glue : GlueData) (event : MqttDataEvent) :
    Option (GlueData × List GlueCall) :=
  let glue : GlueData :=
    match event.topic with
    | some topic =>
        if alloc glue.asked then
          ⟨some ⟨List.replicate event.totalDataLen.toNat 0, strndup topic⟩, glue.asked + 1⟩
        else ⟨espMqttGlueFreeLongData, glue.asked + 1⟩
    | none => glue
  match glue.longData with
  | none => some (glue, [])
  | some l =>
      (memcpyBlock l.data event.currentDataOffset event.data event.dataLen).map fun data =>
        if event.currentDataOffset + event.dataLen = event.totalDataLen then
          (⟨espMqttGlueFreeLongData, glue.asked⟩,
            espMqttGlueSubscribeCallback subscriptions l.topic.bytes data)
        else (⟨some { l with data := data }, glue.asked⟩, [])

/-- `mqtt_event_handler` on `MQTT_EVENT_DATA`. -/
def mqttEventHandlerData (subscriptions : List (Option GlueSubscription)) (alloc : Nat → Bool)
    (glue : GlueData) (event : MqttDataEvent) : Option (GlueData × List GlueCall) :=
  if event.dataLen = event.totalDataLen then
    some (⟨espMqttGlueFreeLongData, glue.asked⟩,
      espMqttGlueSubscribeCallback subscriptions (event.topic.getD []) event.data)
  else espMqttGlueManageLongData subscriptions alloc glue event

/-- The events of a packet, one after the other. -/
def handleDataEvents (subscriptions : List (Option GlueSubscription)) (alloc : Nat → Bool) :
    GlueData → List MqttDataEvent → Option (GlueData × List GlueCall)
  | glue, [] => some (glue, [])
  | glue, event :: events => do
      let (glue, calls) ← mqttEventHandlerData subscriptions alloc glue event
      let (glue, calls') ← handleDataEvents subscriptions alloc glue events
      some (glue, calls ++ calls')

end LiveWireSwitch
