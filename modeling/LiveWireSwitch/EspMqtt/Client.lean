import LiveWireSwitch.EspMqtt.Deliver
import LiveWireSwitch.EspMqtt.Outbox
import LiveWireSwitch.MqttRecovery

/-!
# EspMqtt.Client — the MQTT client (`mqtt_client.c`)

The client's task and the calls made from other tasks take turns under
`api_lock`. A step of the model is a whole turn; what it puts on the
connection and the events it dispatches are kept, so that a run can be
asked about them. Each reading of the clock and each allocation in a turn
has an outcome of its own. The configuration is the product's: no
auto-reconnect, ids in sequence, deleted packets reported, publishing
skipped while disconnected.
-/

namespace LiveWireSwitch

open Lib

/-! ## Writing -/

/-- `esp_mqtt_write`: whether all went out, what went out, and the results
left. `results` is what `esp_transport_write` will return: how many bytes
it takes, 0 at a timeout, less at an error; nothing is taken behind the
last of them. -/
def espMqttWrite : List Int → List UInt8 → Bool × List UInt8 × List Int
  | results, [] => (true, [], results)
  | [], _ :: _ => (false, [], [])
  | wlen :: results, b :: bs =>
      if wlen ≤ 0 then (false, [], results)
      else
        let data := b :: bs
        let r := espMqttWrite results (data.drop wlen.toNat)
        (r.1, data.take wlen.toNat ++ r.2.1, r.2.2)

/-! ## The client -/

/-- The events a client dispatches. -/
inductive MqttEvent where
  | beforeConnect
  | error
  | connected
  | disconnected
  | subscribed (msgId : UInt16)
  | unsubscribed (msgId : UInt16)
  | published (msgId : UInt16)
  | data (event : MqttDataEvent)
  | deleted (msgId : Int)

/-- `esp_mqtt_client` and its `mqtt_state_t`. `outbound_message` always
points at `connection.message`. -/
structure MqttClient where
  state : MqttState
  connection : MqttConnection
  input : MqttInput
  inBufferSize : InBufferSize
  outbox : Outbox
  pendingMsgId : UInt16
  pendingMsgType : MqttMessageType
  pendingPublishQos : Nat
  pendingMsgCount : Int
  waitForPingResp : Bool
  keepaliveTick : UInt64
  lastRetransmit : UInt64
  /-- what the next readings of the time of day will be; it may be set back -/
  clock : Nat → Int64
  /-- for which of the next outbox items there is memory -/
  alloc : Nat → Bool
  /-- what the writes to come will return -/
  results : List Int
  /-- what has been written on the connection -/
  wire : List UInt8
  /-- the events so far -/
  events : List MqttEvent

namespace MqttClient

/-- `esp_mqtt_dispatch_event` -/
def dispatch (c : MqttClient) (e : MqttEvent) : MqttClient := { c with events := c.events ++ [e] }

/-- `esp_mqtt_write` of the outbound message. -/
def write (c : MqttClient) : Bool × MqttClient :=
  let r := espMqttWrite c.results c.connection.message.data
  (r.1, { c with wire := c.wire ++ r.2.1, results := r.2.2 })

/-- `platform_tick_get_ms`, a `long long` -/
def platformTickGetMs (c : MqttClient) : Int64 × MqttClient :=
  (c.clock 0, { c with clock := fun k => c.clock (k + 1) })

/-- `mqtt_write_data`; an error is dispatched by
`esp_mqtt_client_dispatch_transport_error`. -/
def mqttWriteData (c : MqttClient) : EspErr × MqttClient :=
  let (sent, c) := c.write
  if sent then
    let (tick, c) := c.platformTickGetMs
    (.ok, { c with keepaliveTick := tick.toUInt64 })
  else (.fail, c.dispatch .error)

/-- `esp_mqtt_abort_connection` -/
def espMqttAbortConnection (c : MqttClient) : MqttClient :=
  { c with state := .waitReconnect, waitForPingResp := false }.dispatch .disconnected

/-- `client->mqtt_state.outbound_message = message` -/
def setConnection (c : MqttClient) (connection : MqttConnection) : MqttClient :=
  { c with connection := connection }

/-- `mqtt_enqueue` and `mqtt_enqueue_oversized`, with the data that is not
in the outbound message. -/
def enqueueOutbound (c : MqttClient) (remainingData : List UInt8) : MqttClient :=
  let msg : OutboxMessage :=
    { data := c.connection.message.data
      msgId := c.pendingMsgId
      msgQos := c.pendingPublishQos
      msgType := c.pendingMsgType
      remainingData := remainingData }
  let (tick, c) := c.platformTickGetMs
  { c with
    outbox := outboxEnqueue (c.alloc 0) c.outbox msg tick
    alloc := fun k => c.alloc (k + 1) }

/-- `mqtt_enqueue` -/
def mqttEnqueue (c : MqttClient) : MqttClient :=
  if c.pendingMsgCount > 0 then c.enqueueOutbound [] else c

/-- `mqtt_enqueue_oversized` -/
def mqttEnqueueOversized (c : MqttClient) (remainingData : List UInt8) : MqttClient :=
  c.enqueueOutbound remainingData

/-- `is_valid_mqtt_msg` -/
def isValidMqttMsg (c : MqttClient) (msgType : MqttMessageType) (msgId : UInt16) :
    Bool × MqttClient :=
  if c.pendingMsgCount = 0 then (false, c)
  else
    match outboxDelete c.outbox msgId msgType with
    | some outbox =>
        (true, { c with outbox := outbox, pendingMsgCount := c.pendingMsgCount - 1 })
    | none => (false, c)

/-- `mqtt_delete_expired_messages`: the loop over
`outbox_delete_single_expired`, which deletes an item in each pass; an id
of 0 ends it. -/
def deleteExpiredLoop : Nat → MqttClient → Int × MqttClient
  | 0, c => (0, c)
  | k + 1, c =>
      let (tick, c) := c.platformTickGetMs
      -- `OUTBOX_EXPIRED_TIMEOUT_MS`
      let (msgId, outbox) := outboxDeleteSingleExpired c.outbox tick 30000
      let c := { c with outbox := outbox }
      if msgId > 0 then
        let r := deleteExpiredLoop k (c.dispatch (.deleted msgId))
        (r.1 + 1, r.2)
      else (0, c)

/-- `mqtt_delete_expired_messages` -/
def mqttDeleteExpiredMessages (c : MqttClient) : MqttClient :=
  let (deletedItems, c) := deleteExpiredLoop (c.outbox.length + 1) c
  { c with pendingMsgCount := max 0 (c.pendingMsgCount - deletedItems) }

/-! ## The calls -/

/-- `strlen(data)`, from `data[n]` on; `limit` is the memory there is. -/
def strlen (data : Pointer) : Nat → Nat → Nat
  | 0, n => n
  | limit + 1, n => if data n = 0 then n else strlen data limit (n + 1)

/-- `mqtt_client_enqueue_priv` without `store`: the id of the packet, or
`none` for −1. `length` is `len`, or the length of the string at `data`
when `len` is not positive. -/
def mqttClientEnqueuePriv (c : MqttClient) (topic : CString) (data : Pointer)
    (length qos retain : Nat) : Option UInt16 × MqttClient :=
  let (pendingMsgId, connection) := mqttMsgPublish c.connection topic data length qos retain
  let c := c.setConnection connection
  if connection.message.data = [] then (none, c)
  else if qos > 0 then
    let c :=
      { c with
        pendingMsgType := .publish
        pendingMsgId := pendingMsgId
        pendingPublishQos := qos
        pendingMsgCount := c.pendingMsgCount + 1 }
    if connection.message.fragmentedMsgTotalLength = 0 then (some pendingMsgId, c.mqttEnqueue)
    else
      let firstFragment :=
        (connection.message.data.length : Int) - connection.message.fragmentedMsgDataOffset
      let c := c.mqttEnqueueOversized
        (readAt data firstFragment ((length : Int) - firstFragment).toNat)
      (some pendingMsgId, c.setConnection
        { connection with message := { connection.message with fragmentedMsgTotalLength := 0 } })
  else (some pendingMsgId, c)

/-- The fields of the message about fragments. -/
def setFragments (c : MqttClient) (totalLength : Nat) (dataOffset : Int) : MqttClient :=
  c.setConnection { c.connection with message :=
    { c.connection.message with
      fragmentedMsgTotalLength := totalLength, fragmentedMsgDataOffset := dataOffset } }

/-- The next `n` bytes of the data go into the buffer and out. -/
def sendRound (c : MqttClient) (data : Pointer) (current : Int) (n : Nat) :
    EspErr × MqttClient :=
  let message := { c.connection.message with data := readAt data current n }
  (c.setConnection { c.connection with message := message }).mqttWriteData

/-- The loop of `esp_mqtt_client_publish` from its second round on, when
`fragmented_msg_data_offset` is 0: whether all was written. A round takes a
byte or more, so there are no more rounds than bytes. -/
def sendRest (data : Pointer) : Nat → MqttClient → Int → Int → Bool × MqttClient
  | 0, c, _, _ => (true, c)
  | k + 1, c, current, remaining =>
      if remaining > 0 then
        let n := min remaining.toNat c.connection.bufferLength
        let r := c.sendRound data current n
        if r.1 = .ok then sendRest data k r.2 (current + n) (remaining - n) else (false, r.2)
      else (true, c)

/-- "data valid, len == 0: publish all data, payload len is determined from
string length" -/
def publishLength (data : Pointer) (len : Int) : Nat :=
  if len ≤ 0 then strlen data (2 ^ 32) 0 else len.toNat

/-- `esp_mqtt_client_publish` -/
def espMqttClientPublish (c : MqttClient) (topic : CString) (data : Pointer) (len : Int)
    (qos retain : Nat) : Int × MqttClient :=
  if c.state ≠ .connected then (-1, c)
  else
    match c.mqttClientEnqueuePriv topic data (publishLength data len) qos retain with
    | (none, c) => (-1, c)
    | (some pendingMsgId, c) =>
        let (err, c) := c.mqttWriteData
        let message := c.connection.message
        if err ≠ .ok then
          let c := c.espMqttAbortConnection
          (-1, c.setFragments 0 message.fragmentedMsgDataOffset)
        else
          let dataSent := (message.data.length : Int) - message.fragmentedMsgDataOffset
          let c := c.setFragments 0 0
          let remaining := len - dataSent
          let (sent, c) := sendRest data remaining.toNat c dataSent remaining
          if sent then
            if qos > 0 then
              let (tick, c) := c.platformTickGetMs
              let ticked := outboxSetTick c.outbox pendingMsgId tick
              (pendingMsgId.toNat,
                { c with outbox := outboxSetPending ticked pendingMsgId .transmitted })
            else (pendingMsgId.toNat, c)
          else (-1, c.espMqttAbortConnection)

/-- What `esp_mqtt_client_subscribe` and `esp_mqtt_client_unsubscribe` do
with the packet they have built. -/
def requestOutbound (c : MqttClient) (msgType : MqttMessageType)
    (built : UInt16 × MqttConnection) : Int × MqttClient :=
  let c := c.setConnection built.2
  if built.2.message.data = [] then (-1, c)
  else
    let c := { c with
      pendingMsgId := built.1, pendingMsgType := msgType, pendingMsgCount := c.pendingMsgCount + 1 }
    let c := c.mqttEnqueue
    let c := { c with outbox := outboxSetPending c.outbox c.pendingMsgId .transmitted }
    let (err, c) := c.mqttWriteData
    if err ≠ .ok then (-1, c) else (c.pendingMsgId.toNat, c)

/-- `esp_mqtt_client_subscribe` -/
def espMqttClientSubscribe (c : MqttClient) (topic : CString) (qos : Nat) : Int × MqttClient :=
  if c.state ≠ .connected then (-1, c)
  else c.requestOutbound .subscribe (mqttMsgSubscribe c.connection topic qos)

/-- `esp_mqtt_client_unsubscribe` -/
def espMqttClientUnsubscribe (c : MqttClient) (topic : CString) : Int × MqttClient :=
  if c.state ≠ .connected then (-1, c)
  else c.requestOutbound .unsubscribe (mqttMsgUnsubscribe c.connection topic)

/-- `esp_mqtt_client_ping` -/
def espMqttClientPing (c : MqttClient) : EspErr × MqttClient :=
  let connection := mqttMsgPingreq c.connection
  let c := c.setConnection connection
  if connection.message.data = [] then (.fail, c) else c.mqttWriteData

end MqttClient

/-- The calls other tasks and the event handler make. -/
inductive MqttCall where
  | publish (topic : CString) (data : Pointer) (len : Int) (qos retain : Nat)
  | subscribe (topic : CString) (qos : Nat)
  | unsubscribe (topic : CString)

namespace MqttClient

def call (c : MqttClient) : MqttCall → Int × MqttClient
  | .publish topic data len qos retain => c.espMqttClientPublish topic data len qos retain
  | .subscribe topic qos => c.espMqttClientSubscribe topic qos
  | .unsubscribe topic => c.espMqttClientUnsubscribe topic

/-- Calls made one after the other. -/
def calls (c : MqttClient) (cs : List MqttCall) : MqttClient :=
  cs.foldl (fun c call => (c.call call).2) c

/-! ## The task -/

/-- The packet that answers a PUBLISH, with QoS 1 and 2. -/
def responseTo (c : MqttClient) (msgQos : Nat) (msgId : UInt16) : MqttConnection :=
  if msgQos = 1 then mqttMsgPuback c.connection msgId
  else if msgQos = 2 then mqttMsgPubrec c.connection msgId
  else c.connection

/-- An answer to a packet in the outbox: the packet is deleted and the
event dispatched. -/
def acknowledge (c : MqttClient) (msgType : MqttMessageType) (msgId : UInt16)
    (event : UInt16 → MqttEvent) : MqttClient :=
  let (valid, c) := c.isValidMqttMsg msgType msgId
  if valid then c.dispatch (event (mqttGetId c.input.inBuffer c.inBufferSize.bytes)) else c

/-- The switch of `mqtt_process_receive` on a packet that has been received.
`during` is what the callbacks of a PUBLISH call. -/
def processPacket (during : List MqttCall) (c : MqttClient) : EspErr × MqttClient :=
  let msgQos := mqttGetQos c.input.inBuffer
  let msgId := mqttGetId c.input.inBuffer c.input.messageLength
  match mqttGetType c.input.inBuffer with
  | some .suback => (.ok, c.acknowledge .subscribe msgId .subscribed)
  | some .unsuback => (.ok, c.acknowledge .unsubscribe msgId .unsubscribed)
  | some .publish =>
      let (err, events, transport) := deliverPublish c.inBufferSize c.input
      let c := { c with
        input := { c.input with transport := transport }
        events := c.events ++ events.map MqttEvent.data }
      let c := c.calls during
      if err ≠ .ok then (.fail, c)
      else
        let c := c.setConnection (c.responseTo msgQos msgId)
        if c.connection.message.data = [] then (.fail, c)
        else if msgQos = 1 ∨ msgQos = 2 then
          let (err, c) := c.mqttWriteData
          (if err ≠ .ok then .fail else .ok, c)
        else (.ok, c)
  | some .puback => (.ok, c.acknowledge .publish msgId .published)
  | some .pubrec =>
      let c := c.setConnection (mqttMsgPubrel c.connection msgId)
      if c.connection.message.data = [] then (.fail, c)
      else
        let c := { c with outbox := outboxSetPending c.outbox msgId .acknowledged }
        (.ok, c.mqttWriteData.2)
  | some .pubrel =>
      let c := c.setConnection (mqttMsgPubcomp c.connection msgId)
      if c.connection.message.data = [] then (.fail, c) else (.ok, c.mqttWriteData.2)
  | some .pubcomp => (.ok, c.acknowledge .publish msgId .published)
  | some .pingresp => (.ok, { c with waitForPingResp := false })
  | _ => (.ok, c)

/-- `client->mqtt_state.in_buffer_read_len = 0;` -/
def clearInBuffer (c : MqttClient) : MqttClient :=
  { c with input := { c.input with inBuffer := [] } }

/-- `mqtt_process_receive` -/
def mqttProcessReceive (during : List MqttCall) (c : MqttClient) : EspErr × MqttClient :=
  let r := mqttMessageReceive c.inBufferSize.bytes c.input
  let c := { c with input := r.2 }
  if r.1 < 0 then (.fail, c.dispatch .error)
  else if r.1 = 0 then (.ok, c)
  else
    let (err, c) := c.processPacket during
    if err ≠ .ok then (.fail, c) else (.ok, c.clearInBuffer)

/-- `mqtt_resend_queued` of the item at place `i`. The outbound message is
the item's own buffer, so the duplicate flag stays in the outbox. -/
def mqttResendQueued (c : MqttClient) (i : Nat) (item : OutboxItem) : EspErr × MqttClient :=
  let buffer :=
    if item.msgType = .publish ∧ item.msgQos > 0 then mqttSetDup item.buffer else item.buffer
  let c := { c with
    outbox := c.outbox.set i { item with buffer := buffer }
    pendingMsgId := item.msgId
    pendingMsgType := item.msgType
    pendingPublishQos := item.msgQos }
  let c := c.setConnection
    { c.connection with message := { c.connection.message with data := buffer } }
  let (err, c) := c.mqttWriteData
  if err ≠ .ok then (.fail, c.espMqttAbortConnection)
  else if item.msgType = .publish ∧ item.msgQos = 0 then
    (.ok, { c with outbox := outboxDeleteItem c.outbox i })
  else (.ok, c)

/-- "resend all non-transmitted messages first", and one of the others after
a second. The differences are of `uint64_t`: one that would be negative is
huge. -/
def resend (c : MqttClient) : MqttClient :=
  match outboxDequeue c.outbox .queued with
  | some i =>
      match c.outbox[i]? with
      | some item =>
          let (err, c) := c.mqttResendQueued i item
          if err = .ok then
            { c with outbox := outboxSetPending c.outbox c.pendingMsgId .transmitted }
          else c
      | none => c
  | none =>
      let (tick, c) := c.platformTickGetMs
      if tick.toUInt64 - c.lastRetransmit > 1000 then
        let (tick, c) := c.platformTickGetMs
        let c := { c with lastRetransmit := tick.toUInt64 }
        match outboxDequeue c.outbox .transmitted with
        | some i =>
            match c.outbox[i]? with
            | some item =>
                if c.lastRetransmit - item.tick.toUInt64 > 1000 then (c.mqttResendQueued i item).2
                else c
            | none => c
        | none => c
      else c

/-- `connect_info.keepalive` of the product, in seconds -/
def keepalive : UInt64 := 120

/-- The keep-alive: whether the pass goes on to its end. -/
def keepAlive (c : MqttClient) : Bool × MqttClient :=
  let (tick, c) := c.platformTickGetMs
  if tick.toUInt64 - c.keepaliveTick > keepalive * 1000 / 2 then
    if c.waitForPingResp then (false, c.espMqttAbortConnection)
    else
      let (err, c) := c.espMqttClientPing
      if err = .fail then (false, c.espMqttAbortConnection)
      else (true, { c with waitForPingResp := true })
  else (true, c)

/-- A pass of the task in `MQTT_STATE_CONNECTED`. After a failed resend the
connection is aborted and the pass goes on. -/
def connectedPass (disconnectBit : Bool) (during : List MqttCall) (c : MqttClient) : MqttClient :=
  if disconnectBit then c.espMqttAbortConnection
  else
    let (err, c) := c.mqttProcessReceive during
    if err = .fail then c.espMqttAbortConnection
    else
      let c := c.mqttDeleteExpiredMessages
      let c := c.resend
      let (goesOn, c) := c.keepAlive
      -- `OUTBOX_MAX_SIZE`
      if goesOn then { c with outbox := outboxCleanup (4 * 1024) c.outbox.length c.outbox } else c

/-- The second part of `esp_mqtt_connect`: the wait for the CONNACK, `polls`
calls of `mqtt_message_receive` before the time is over. -/
def awaitConnack (polls : Nat) (c : MqttClient) : EspErr × MqttClient :=
  let c := { c with input := { c.input with inBuffer := [], messageLength := 0 } }
  match receiveMessage c.inBufferSize.bytes polls c.input with
  | none => (.fail, c)
  | some (r, input) =>
      let c := { c with input := input }
      if r ≤ 0 then (.fail, c.dispatch .error)
      else if mqttGetType c.input.inBuffer ≠ some .connack then (.fail, c)
      else
        -- of a CONNACK that ends before it, the code reads what was there
        let returnCode := bufferAt c.input.inBuffer 3
        let c := c.clearInBuffer
        if returnCode = 0 then (.ok, c) else (.fail, c.dispatch .error)

/-- `esp_mqtt_connect`: the CONNECT, and the answer to it. -/
def espMqttConnect (info : MqttConnectInfo) (polls : Nat) (c : MqttClient) :
    EspErr × MqttClient :=
  let c := { c with waitForPingResp := false }
  let c := c.setConnection (mqttMsgConnect c.connection info)
  if c.connection.message.data = [] then (.fail, c)
  else
    let c := { c with
      pendingMsgType := .connect
      pendingMsgId :=
        mqttGetId c.connection.message.data c.connection.message.data.length }
    let (sent, c) := c.write
    if ¬ sent then (.fail, c) else c.awaitConnack polls

/-- `MQTT_STATE_INIT`, on a new transport; `transportConnects` is the
outcome of `esp_transport_connect`. The handler subscribes to `topics`
again when the event of the connection reaches it. -/
def initPass (transportConnects : Bool) (info : MqttConnectInfo) (polls : Nat)
    (topics : List CString) (transport : Feed UInt8) (c : MqttClient) : MqttClient :=
  let c := c.dispatch .beforeConnect
  let c := { c with wire := [], input := { c.input with transport := transport } }
  if ¬ transportConnects then (c.dispatch .error).espMqttAbortConnection
  else
    let (err, c) := c.espMqttConnect info polls
    if err ≠ .ok then c.espMqttAbortConnection
    else
      let c := { c with state := .connected }.dispatch .connected
      c.calls (topics.map fun topic => .subscribe topic 1)

end MqttClient

/-! ## Runs -/

/-- What a turn finds: the time, memory, and what its writes will return. -/
structure MqttEnv where
  clock : Nat → Int64
  alloc : Nat → Bool
  results : List Int

/-- The clock stands still, and there is memory. -/
def MqttEnv.steady (now : Int64) (results : List Int) : MqttEnv :=
  ⟨fun _ => now, fun _ => true, results⟩

/-- The turns under `api_lock`, and what the network does. -/
inductive MqttAct where
  /-- a call from another task -/
  | call (env : MqttEnv) (call : MqttCall)
  /-- bytes reach the transport, or a read will find that none have -/
  | arrive (piece : Option (List UInt8))
  /-- a pass of the task while connected -/
  | pass (env : MqttEnv) (disconnectBit : Bool) (during : List MqttCall)
  /-- `esp_transport_poll_read` fails -/
  | pollFails
  /-- a pass in `MQTT_STATE_INIT` -/
  | init (env : MqttEnv) (transportConnects : Bool) (info : MqttConnectInfo) (polls : Nat)
      (topics : List CString) (transport : Feed UInt8)
  /-- a pass in `MQTT_STATE_WAIT_RECONNECT`: without auto-reconnect the task
  ends -/
  | ends
  /-- `esp_mqtt_client_start` of a client whose task has ended -/
  | start
  /-- `esp_mqtt_client_stop`, up to the end of the task -/
  | stop (env : MqttEnv)

namespace MqttClient

/-- A new client (`esp_mqtt_client_init`). -/
def initial (outBufferLength : Nat) (room : mqttMaxFixedHeaderSize ≤ outBufferLength)
    (inBufferSize : InBufferSize) (now : Int64) : MqttClient where
  state := .init
  connection := mqttMsgInit outBufferLength room
  input := ⟨[], 0, []⟩
  inBufferSize := inBufferSize
  outbox := []
  pendingMsgId := 0
  pendingMsgType := .connect
  pendingPublishQos := 0
  pendingMsgCount := 0
  waitForPingResp := false
  keepaliveTick := now.toUInt64
  lastRetransmit := 0
  clock := fun _ => now
  alloc := fun _ => true
  results := []
  wire := []
  events := []

def inEnv (c : MqttClient) (env : MqttEnv) : MqttClient :=
  { c with clock := env.clock, alloc := env.alloc, results := env.results }

/-- `esp_transport_close` and `outbox_delete_all_items` at the end of the
task. -/
def taskEnds (c : MqttClient) : MqttClient :=
  { c with state := .disconnected, outbox := outboxDeleteAllItems }

/-- `esp_mqtt_client_stop` -/
def espMqttClientStop (c : MqttClient) : MqttClient :=
  if c.state = .connected then
    let connection := mqttMsgDisconnect c.connection
    let c := c.setConnection connection
    if connection.message.data = [] then c else c.mqttWriteData.2.taskEnds
  else c.taskEnds

def step (c : MqttClient) : MqttAct → Option MqttClient
  | .call env call => some ((c.inEnv env).call call).2
  | .arrive piece =>
      some { c with input := { c.input with transport := c.input.transport ++ [piece] } }
  | .pass env disconnectBit during =>
      if c.state = .connected then some ((c.inEnv env).connectedPass disconnectBit during) else none
  | .pollFails => if c.state = .connected then some c.espMqttAbortConnection else none
  | .init env transportConnects info polls topics transport =>
      if c.state = .init then
        some ((c.inEnv env).initPass transportConnects info polls topics transport)
      else none
  | .ends => if c.state = .waitReconnect then some c.taskEnds else none
  | .start =>
      if c.state = .disconnected then some { c with state := .init, lastRetransmit := 0 } else none
  | .stop env => if c.state = .disconnected then none else some (c.inEnv env).espMqttClientStop

end MqttClient

end LiveWireSwitch
