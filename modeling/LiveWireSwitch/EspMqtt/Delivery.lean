import LiveWireSwitch.EspMqtt.Deliver
import LiveWireSwitch.EspMqtt.Resume

/-!
# EspMqtt.Delivery — what reaches the callbacks

One PUBLISH from the buffer to the callbacks: its events carry the payload
once and in order, in whatever pieces the transport gave it, and the glue
calls each subscription of the topic with the whole payload.
-/

namespace LiveWireSwitch

open Lib

/-! ## The specification -/

/-- Whom a publication is for, and what it says. -/
def deliveries (subscriptions : List (Option GlueSubscription)) (topic payload : List UInt8) :
    List GlueCall :=
  subscriptions.filterMap fun subscription =>
    subscription.bind fun s =>
      if topic = s.topic.bytes then some ⟨s.cb, s.topic, payload⟩ else none

theorem strncmpEq_iff {topic t : List UInt8} (ht : 0 ∉ t) (hlen : topic.length = t.length) :
    strncmpEq topic.length topic t ↔ topic = t := by
  induction topic generalizing t with
  | nil =>
      obtain rfl : t = [] := List.length_eq_zero_iff.mp hlen.symm
      simp [strncmpEq]
  | cons a topic ih =>
      cases t with
      | nil => simp at hlen
      | cons b t =>
          simp only [List.mem_cons, not_or] at ht
          have := ih ht.2 (by simpa using hlen)
          have hstep : strncmpEq (a :: topic).length (a :: topic) (b :: t) ↔
              a = b ∧ (a = 0 ∨ strncmpEq topic.length topic t) := by
            simp [strncmpEq]
          rw [hstep, this, List.cons.injEq]
          constructor
          · rintro ⟨rfl, h | h⟩
            · exact absurd h.symm ht.1
            · exact ⟨rfl, h⟩
          · rintro ⟨rfl, rfl⟩
            exact ⟨rfl, .inr rfl⟩

/-- The test of the glue is equality of the topics. -/
theorem espMqttGlueSubscribeCallback_eq (subscriptions : List (Option GlueSubscription))
    (topic data : List UInt8) :
    espMqttGlueSubscribeCallback subscriptions topic data =
      deliveries subscriptions topic data := by
  unfold espMqttGlueSubscribeCallback deliveries
  congr 1
  funext subscription
  congr 1
  funext s
  have htest : (strncmpEq topic.length topic s.topic.bytes ∧
      topic.length = s.topic.bytes.length) ↔ topic = s.topic.bytes := by
    constructor
    · rintro ⟨h, hlen⟩
      exact (strncmpEq_iff s.topic.noNul hlen).mp h
    · intro h
      have hlen : topic.length = s.topic.bytes.length := by rw [h]
      exact ⟨(strncmpEq_iff s.topic.noNul hlen).mpr h, hlen⟩
  by_cases h : topic = s.topic.bytes
  · rw [if_pos (htest.mpr h), if_pos h]
  · rw [if_neg (htest.not.mpr h), if_neg h]

theorem strndup_eq {s : List UInt8} (h : 0 ∉ s) : (strndup s).bytes = s := by
  rw [strndup, List.takeWhile_eq_self_iff]
  intro x hx
  simp only [ne_eq, decide_not, Bool.not_eq_eq_eq_not, Bool.not_true, decide_eq_false_iff_not]
  rintro rfl
  exact h hx

/-! ## The events of the rest of a long packet -/

/-- An event for each piece of data, with its place. -/
def chunkEvents (event : MqttDataEvent) : Nat → List (List UInt8) → List MqttDataEvent
  | _, [] => []
  | offset, c :: cs =>
      { event with topic := none, data := c, dataLen := c.length, currentDataOffset := offset } ::
        chunkEvents event (offset + c.length) cs

/-- What `deliverRest` reads: pieces of the stream, each at most a buffer
long, until all of the packet is there or a read brings nothing. -/
theorem deliverRest_spec (size : InBufferSize) (event : MqttDataEvent)
    (total readLen offset : Nat) (htotal : total < 2 ^ 31) (hoffset : offset ≤ readLen)
    (hle : readLen ≤ total) {f : Feed UInt8} (hclean : f.Clean) :
    ∃ err chunks f', deliverRest size event total readLen offset f =
        (err, chunkEvents event offset chunks, f') ∧
      (∀ c ∈ chunks, c ≠ [] ∧ c.length ≤ size.bytes) ∧
      f.stream = chunks.flatten ++ f'.stream ∧ f'.Clean ∧
      f'.length ≤ f.length ∧ readLen + chunks.flatten.length ≤ total ∧
      (err = .ok ∧ readLen + chunks.flatten.length = total ∨
        err = .fail ∧ readLen + chunks.flatten.length < total ∧
          (f.Prompt → f'.stream = [])) := by
  induction hw : f.weight using Nat.strongRecOn generalizing f readLen offset with
  | ind w ih =>
      unfold deliverRest
      by_cases hlt : readLen < total
      · have hn : 0 < min (total - readLen) size.bytes := by
          have := size.pos
          omega
        obtain ⟨got, hgot, hlen, hstream, hclean', hpieces, -⟩ :=
          Feed.read_of_clean (n := min (total - readLen) size.bytes) hclean
        have hsize : readSize (f.read (min (total - readLen) size.bytes)).1 = got.length := by
          rw [hgot, readSize]
        rw [if_pos hlt]
        simp only [hsize]
        by_cases h0 : got.length = 0
        · obtain rfl : got = [] := List.length_eq_zero_iff.mp h0
          rw [dif_pos h0]
          refine ⟨.fail, [], _, rfl, by simp, hstream, hclean', hpieces, by simpa using hle,
            .inr ⟨rfl, by simpa using hlt, fun hprompt => ?_⟩⟩
          by_cases hf : f = []
          · simp [hf, Feed.read]
          · exact absurd hgot (hprompt.read_ne_nil hf hn)
        · have hne : f ≠ [] := by
            rintro rfl
            have hnil : got = [] := by simpa [Feed.read] using hgot.symm
            exact h0 (by rw [hnil, List.length_nil])
          have hsum : sizeAdd readLen got.length = readLen + got.length := by
            rw [sizeAdd, Nat.mod_eq_of_lt (by omega)]
          have hsum' : sizeAdd offset got.length = offset + got.length := by
            rw [sizeAdd, Nat.mod_eq_of_lt (by omega)]
          rw [dif_neg h0, hsum, hsum', hgot, toInt32_of_lt (by omega : offset < 2 ^ 31),
            toInt32_of_lt (by omega : got.length < 2 ^ 31)]
          obtain ⟨err, chunks, f', hrest, hchunks, hstream', hclean'', hpieces', hle', hcases⟩ :=
            ih _ (hw ▸ Feed.weight_read_lt hn hne) (readLen + got.length)
              (offset + got.length) (by omega) (by omega) hclean' rfl
          have hflat : (got :: chunks).flatten.length = got.length + chunks.flatten.length := by
            rw [List.flatten_cons, List.length_append]
          refine ⟨err, got :: chunks, f', ?_, ?_, ?_, hclean'', hpieces'.trans hpieces,
            by omega, ?_⟩
          · rw [hrest]
            rfl
          · intro c hc
            obtain rfl | hc := List.mem_cons.mp hc
            · exact ⟨fun h => h0 (by rw [h, List.length_nil]), by omega⟩
            · exact hchunks c hc
          · rw [hstream, hstream', List.flatten_cons, List.append_assoc]
          · obtain ⟨herr, hend⟩ | ⟨herr, hend, hprompt'⟩ := hcases
            · exact .inl ⟨herr, by omega⟩
            · exact .inr ⟨herr, by omega, fun hprompt => hprompt' (hprompt.read _)⟩
      · rw [if_neg hlt]
        exact ⟨.ok, [], f, rfl, by simp, by simp, hclean, le_rfl, by simpa using hle,
          .inl ⟨rfl, by simp; omega⟩⟩

/-! ## Putting them together -/

/-- A block in which the first `offset` bytes of the payload have been put. -/
def partBlock (payload : List UInt8) (offset : Nat) : List UInt8 :=
  payload.take offset ++ List.replicate (payload.length - offset) 0

theorem length_partBlock {payload : List UInt8} {offset : Nat} (h : offset ≤ payload.length) :
    (partBlock payload offset).length = payload.length := by
  simp only [partBlock, List.length_append, List.length_take, List.length_replicate]
  omega

theorem partBlock_length (payload : List UInt8) :
    partBlock payload payload.length = payload := by
  simp [partBlock]

/-- The next piece, copied behind those before it. -/
theorem memcpyBlock_partBlock {payload c more : List UInt8} (offset : Nat)
    (hle : offset ≤ payload.length) (hc : payload.drop offset = c ++ more) :
    memcpyBlock (partBlock payload offset) offset c c.length =
      some (partBlock payload (offset + c.length)) := by
  have hlen : offset + c.length ≤ payload.length := by
    have := congrArg List.length hc
    rw [List.length_drop, List.length_append] at this
    omega
  have htake : payload.take (offset + c.length) = payload.take offset ++ c := by
    rw [List.take_add, hc, List.take_left]
  have hoff : (payload.take offset).length = offset := by
    rw [List.length_take]
    omega
  rw [memcpyBlock, length_partBlock hle, if_pos (by omega)]
  congr 1
  rw [partBlock, partBlock, htake, Int.toNat_natCast, Int.toNat_natCast, List.take_length,
    List.take_left' hoff]
  rw [show ((offset : Int) + (c.length : Int)).toNat = offset + c.length by omega,
    List.drop_append, hoff, List.drop_eq_nil_of_le (by omega), List.nil_append,
    List.drop_replicate]
  congr 2
  omega

section Handler

variable (subscriptions : List (Option GlueSubscription)) (alloc : Nat → Bool)

/-- An event that is not all of the payload, while long data is kept. -/
theorem mqttEventHandlerData_chunk {event : MqttDataEvent} {payload c more : List UInt8}
    {offset : Nat} (topic : CString) (asked : Nat) (htotal : event.totalDataLen = payload.length)
    (hle : offset ≤ payload.length) (hc : payload.drop offset = c ++ more)
    (hpart : c.length ≠ payload.length) :
    mqttEventHandlerData subscriptions alloc ⟨some ⟨partBlock payload offset, topic⟩, asked⟩
        { event with
          topic := none, data := c, dataLen := c.length, currentDataOffset := offset } =
      some (if offset + c.length = payload.length then
          (⟨none, asked⟩, deliveries subscriptions topic.bytes payload)
        else (⟨some ⟨partBlock payload (offset + c.length), topic⟩, asked⟩, [])) := by
  unfold mqttEventHandlerData
  simp only [htotal]
  rw [if_neg (by omega)]
  unfold espMqttGlueManageLongData
  simp only [memcpyBlock_partBlock offset hle hc, Option.map_some, Option.some.injEq]
  by_cases hend : offset + c.length = payload.length
  · rw [if_pos (by omega), if_pos hend, espMqttGlueSubscribeCallback_eq, hend, partBlock_length]
    rfl
  · rw [if_neg (by omega), if_neg hend]

/-- The events of the pieces, when none of them is the whole payload. -/
theorem handleDataEvents_chunks (event : MqttDataEvent) {payload more : List UInt8}
    {chunks : List (List UInt8)} (offset : Nat) (topic : CString) (asked : Nat)
    (htotal : event.totalDataLen = payload.length) (hlt : offset < payload.length)
    (hne : ∀ c ∈ chunks, c ≠ []) (hchunks : payload.drop offset = chunks.flatten ++ more)
    (hpart : 0 < offset ∨ ∀ c ∈ chunks.head?, c.length ≠ payload.length) :
    handleDataEvents subscriptions alloc ⟨some ⟨partBlock payload offset, topic⟩, asked⟩
        (chunkEvents event offset chunks) =
      some (if offset + chunks.flatten.length = payload.length then
          (⟨none, asked⟩, deliveries subscriptions topic.bytes payload)
        else (⟨some ⟨partBlock payload (offset + chunks.flatten.length), topic⟩, asked⟩, [])) := by
  induction chunks generalizing offset with
  | nil =>
      have : ¬ offset + ([] : List (List UInt8)).flatten.length = payload.length := by
        simp
        omega
      rw [if_neg this]
      rfl
  | cons c cs ih =>
      have hlen : (c :: cs).flatten.length = c.length + cs.flatten.length := by
        rw [List.flatten_cons, List.length_append]
      have hc : payload.drop offset = c ++ (cs.flatten ++ more) := by
        rw [hchunks, List.flatten_cons, List.append_assoc]
      have hroom : offset + c.length + cs.flatten.length ≤ payload.length := by
        have := congrArg List.length hchunks
        rw [List.length_drop, List.length_append, hlen] at this
        omega
      have hcpos : 0 < c.length := List.length_pos_of_ne_nil (hne c (by simp))
      have hcpart : c.length ≠ payload.length := by
        obtain h | h := hpart
        · omega
        · exact h c (by simp)
      rw [chunkEvents, handleDataEvents, mqttEventHandlerData_chunk subscriptions alloc topic asked
        htotal hlt.le hc hcpart, hlen]
      by_cases hend : offset + c.length = payload.length
      · -- nothing comes after the last byte
        obtain rfl : cs = [] := by
          cases cs with
          | nil => rfl
          | cons d ds =>
              have hd := List.length_pos_of_ne_nil (hne d (by simp))
              rw [List.flatten_cons, List.length_append] at hroom
              omega
        simp [if_pos hend, chunkEvents, handleDataEvents]
      · have hdrop : payload.drop (offset + c.length) = cs.flatten ++ more := by
          rw [← List.drop_drop, hc, List.drop_left]
        have hrest := ih (offset + c.length) (by omega)
          (fun d hd => hne d (List.mem_cons_of_mem c hd)) hdrop (.inl (by omega))
        rw [if_neg hend]
        simp only [Option.bind_eq_bind, Option.bind_some, hrest, ← Nat.add_assoc]
        split <;> simp

end Handler

/-! ## A PUBLISH from the buffer on -/

/-- The publication can be told to the subscriptions: it fits, or its
header leaves room for data, or no read can bring all of the data. -/
def Publication.Deliverable (m : Publication) (inBufferLength : Nat) : Prop :=
  m.bytes.length ≤ inBufferLength ∨ m.header.length < inBufferLength ∨
    (m.header.length = inBufferLength ∧ inBufferLength < m.payload.length)

/-- The first event, with the first `n` bytes of the payload. -/
def Publication.firstEvent (m : Publication) (n : Nat) (msgId : UInt16) : MqttDataEvent where
  topic := some m.topic
  data := m.payload.take n
  dataLen := n
  totalDataLen := m.payload.length
  currentDataOffset := 0
  retain := m.retain
  msgId := msgId

/-- The buffer of a PUBLISH of which the header has arrived. -/
theorem Publication.bytes_take (m : Publication) {n : Nat} (hn : m.header.length ≤ n) :
    m.bytes.take n = m.header ++ m.payload.take (n - m.header.length) := by
  obtain ⟨k, rfl⟩ : ∃ k, n = m.header.length + k := ⟨n - m.header.length, by omega⟩
  rw [m.bytes_eq, List.take_length_add_append, Nat.add_sub_cancel_left]

/-- `deliver_publish` up to its first read. -/
theorem deliverPublish_eq (size : InBufferSize) {m : Publication} {s : MqttInput}
    (hbuf : s.inBuffer = m.bytes.take s.readLen) (hml : s.messageLength = m.bytes.length)
    (hheader : m.header.length ≤ s.readLen) (hle : s.readLen ≤ m.bytes.length) :
    ∃ msgId, deliverPublish size s =
      let event := m.firstEvent (s.readLen - m.header.length) msgId
      let r := deliverRest size event m.bytes.length s.readLen (s.readLen - m.header.length)
        s.transport
      (r.1, event :: r.2.1, r.2.2) := by
  have hlt := m.length_bytes_lt
  have hlen := m.length_bytes
  have hcut := m.bytes_take hheader
  have hdata : (mqttGetPublishData s.inBuffer s.readLen).getD [] =
      m.payload.take (s.readLen - m.header.length) := by
    rw [hbuf, hcut, m.mqttGetPublishData_header _ hheader, List.take_take]
    congr 1
    omega
  have hn : (m.payload.take (s.readLen - m.header.length)).length =
      s.readLen - m.header.length := by
    rw [List.length_take]
    omega
  have htotal : toInt32 (sizeSub (sizeAdd (s.readLen - m.header.length) m.bytes.length) s.readLen) =
      m.payload.length := by
    rw [sizeAdd, Nat.mod_eq_of_lt (by omega), sizeSub]
    rw [show s.readLen - m.header.length + m.bytes.length + 2 ^ 32 - s.readLen =
      m.payload.length + 2 ^ 32 by omega, Nat.add_mod_right, Nat.mod_eq_of_lt (by omega)]
    exact toInt32_of_lt (by omega)
  have hretain : mqttGetRetain s.inBuffer = m.retain := by
    rw [hbuf, hcut]
    exact (m.head_fields _).2.2.2
  have htopic : mqttGetPublishTopic s.inBuffer s.readLen = some m.topic := by
    rw [hbuf, hcut, m.mqttGetPublishTopic_header _ hheader]
  refine ⟨mqttGetId s.inBuffer (s.readLen - m.header.length), ?_⟩
  unfold deliverPublish
  simp only [htopic, hdata, hn, hml, htotal, hretain, Publication.firstEvent,
    toInt32_of_lt (show s.readLen - m.header.length < 2 ^ 31 by omega)]

/-- What comes behind the buffer is the rest of the payload. -/
theorem Publication.stream_eq (m : Publication) {s : MqttInput} (hs : s.Agrees m.packet)
    (hheader : m.header.length ≤ s.readLen) {got rest : List UInt8}
    (hgot : s.transport.stream = got ++ rest)
    (hle : s.readLen + got.length ≤ m.bytes.length) :
    ∃ more, m.payload.drop (s.readLen - m.header.length) = got ++ more := by
  obtain ⟨later, next, hs⟩ := hs
  have hlen := m.length_bytes
  have hall : s.inBuffer ++ (got ++ (rest ++ later)) = m.bytes ++ next := by
    rw [MqttInput.seen, hgot, List.append_assoc, List.append_assoc] at hs
    exact hs
  have hdrop : got ++ (rest ++ later) = m.bytes.drop s.readLen ++ next := by
    have h := congrArg (List.drop s.readLen) hall
    have hbuf : s.inBuffer.length = s.readLen := rfl
    rw [List.drop_left' hbuf, List.drop_append_of_le_length (by omega)] at h
    exact h
  have hpayload : m.bytes.drop s.readLen = m.payload.drop (s.readLen - m.header.length) := by
    rw [m.bytes_eq, List.drop_append, List.drop_eq_nil_of_le hheader, List.nil_append]
  have hprefix : got <+: m.payload.drop (s.readLen - m.header.length) := by
    rw [← hpayload]
    have hgot' : got <+: m.bytes.drop s.readLen ++ next := ⟨rest ++ later, hdrop⟩
    apply List.prefix_of_prefix_length_le hgot' (List.prefix_append _ _)
    rw [List.length_drop]
    omega
  obtain ⟨more, hmore⟩ := hprefix
  exact ⟨more, hmore.symm⟩

section Handler

variable (subscriptions : List (Option GlueSubscription)) (alloc : Nat → Bool)

/-- The first event carries all of the payload. -/
theorem mqttEventHandlerData_first_whole (m : Publication) {n : Nat}
    (hn : n = m.payload.length) (msgId : UInt16) (glue : GlueData) :
    mqttEventHandlerData subscriptions alloc glue (m.firstEvent n msgId) =
      some (⟨none, glue.asked⟩, deliveries subscriptions m.topic m.payload) := by
  subst hn
  simp [mqttEventHandlerData, Publication.firstEvent, espMqttGlueSubscribeCallback_eq,
    espMqttGlueFreeLongData]

/-- Or only a part of it: what was kept of an earlier packet goes. -/
theorem mqttEventHandlerData_first_part (m : Publication) {n : Nat} (hn : n < m.payload.length)
    (msgId : UInt16) (glue : GlueData) :
    mqttEventHandlerData subscriptions alloc glue (m.firstEvent n msgId) =
      some (if alloc glue.asked then
          (⟨some ⟨partBlock m.payload n, strndup m.topic⟩, glue.asked + 1⟩, [])
        else (⟨none, glue.asked + 1⟩, [])) := by
  have hlen : (m.payload.take n).length = n := by
    rw [List.length_take]
    omega
  have hcut : m.payload.drop 0 = m.payload.take n ++ m.payload.drop n := by simp
  have hcopy := memcpyBlock_partBlock 0 (by omega) hcut
  rw [hlen, Nat.zero_add] at hcopy
  have hzero : List.replicate (m.payload.length : Int).toNat (0 : UInt8) =
      partBlock m.payload 0 := by
    simp [partBlock]
  unfold mqttEventHandlerData
  rw [if_neg (by simp only [Publication.firstEvent]; omega)]
  unfold espMqttGlueManageLongData
  simp only [Publication.firstEvent]
  by_cases ha : alloc glue.asked
  · simp only [ha, if_true]
    rw [hzero]
    simp only [Nat.cast_zero] at hcopy
    have hpart : ¬ 0 + (n : Int) = m.payload.length := by omega
    simp only [hcopy, Option.map_some, hpart, if_false]
  · simp only [ha]
    rfl

/-- With no block for the long data its pieces go nowhere. -/
theorem handleDataEvents_chunks_none (event : MqttDataEvent) {chunks : List (List UInt8)}
    (hpart : ∀ c ∈ chunks, (c.length : Int) ≠ event.totalDataLen) (asked offset : Nat) :
    handleDataEvents subscriptions alloc ⟨none, asked⟩ (chunkEvents event offset chunks) =
      some (⟨none, asked⟩, []) := by
  induction chunks generalizing offset with
  | nil => rfl
  | cons c cs ih =>
      have hc : (c.length : Int) ≠ event.totalDataLen := hpart c (by simp)
      have hrest := ih (fun d hd => hpart d (List.mem_cons_of_mem c hd)) (offset + c.length)
      simp only [chunkEvents, handleDataEvents, mqttEventHandlerData, if_neg hc,
        espMqttGlueManageLongData, Option.bind_eq_bind, Option.bind_some, hrest, List.append_nil]

end Handler

/-- How `deliver_publish` ends, on a packet of which `s` has the beginning:
with all of the payload read and told to the subscriptions (a long one only
when there was memory for it), or at a read that brought nothing, with
nobody called. -/
inductive DeliverEnd (subscriptions : List (Option GlueSubscription)) (alloc : Nat → Bool)
    (inBufferLength : Nat) (m : Publication) (s : MqttInput) (glue : GlueData)
    (err : EspErr) (events : List MqttDataEvent) (f : Feed UInt8) : Prop where
  | done (got : List UInt8) (herr : err = .ok) (hgot : s.transport.stream = got ++ f.stream)
      (hlen : s.readLen + got.length = m.bytes.length)
      (hcalls : handleDataEvents subscriptions alloc glue events =
        some (if m.bytes.length ≤ inBufferLength then
            (⟨none, glue.asked⟩, deliveries subscriptions m.topic m.payload)
          else
            (⟨none, glue.asked + 1⟩,
              if alloc glue.asked then deliveries subscriptions m.topic m.payload else [])))
  | stopped (got : List UInt8) (glue' : GlueData) (herr : err = .fail)
      (hgot : s.transport.stream = got ++ f.stream)
      (hlen : s.readLen + got.length < m.bytes.length)
      (hprompt : s.transport.Prompt → f.stream = [])
      (hcalls : handleDataEvents subscriptions alloc glue events = some (glue', []))

/-- **One PUBLISH.** -/
theorem deliverPublish_spec (size : InBufferSize) (subscriptions : List (Option GlueSubscription))
    (alloc : Nat → Bool) {m : Publication} (hd : m.Deliverable size.bytes) (hnul : 0 ∉ m.topic)
    {s : MqttInput} (hclean : s.transport.Clean) (hs : s.Agrees m.packet)
    (hlen : s.readLen = m.packet.received size.bytes) (hml : s.messageLength = m.bytes.length)
    (glue : GlueData) :
    ∃ err events f, deliverPublish size s = (err, events, f) ∧ f.Clean ∧
      f.length ≤ s.transport.length ∧
      DeliverEnd subscriptions alloc size.bytes m s glue err events f := by
  have hrec : s.readLen = min m.bytes.length size.bytes := hlen
  have hbytes := m.length_bytes
  have hle : s.readLen ≤ m.bytes.length := by omega
  have hheader : m.header.length ≤ s.readLen := by
    obtain h | h | h := hd <;> omega
  obtain ⟨msgId, heq⟩ := deliverPublish_eq size (hs.inBuffer_eq hle) hml hheader hle
  obtain ⟨err, chunks, f, hrest, hchunks, hstream, hf, hpieces, hfit, hend⟩ :=
    deliverRest_spec size (m.firstEvent (s.readLen - m.header.length) msgId) m.bytes.length
      s.readLen (s.readLen - m.header.length) (by have := m.length_bytes_lt; omega) (by omega)
      hle hclean
  rw [heq]
  simp only [hrest]
  refine ⟨err, _, f, rfl, hf, hpieces, ?_⟩
  by_cases hshort : m.bytes.length ≤ size.bytes
  · -- nothing is left to read, and the first event is the only one
    have hnil : chunks = [] := by
      cases chunks with
      | nil => rfl
      | cons c cs =>
          have := List.length_pos_of_ne_nil (hchunks c (by simp)).1
          rw [List.flatten_cons, List.length_append] at hfit
          omega
    subst hnil
    obtain ⟨rfl, -⟩ | ⟨-, hlt, -⟩ := hend
    · refine .done [] rfl hstream (by simp; omega) ?_
      rw [if_pos hshort]
      simp [handleDataEvents, chunkEvents,
        mqttEventHandlerData_first_whole subscriptions alloc m
          (show s.readLen - m.header.length = m.payload.length by omega)]
    · simp at hlt
      omega
  · obtain ⟨more, hmore⟩ := m.stream_eq hs hheader hstream hfit
    have hpart : s.readLen - m.header.length < m.payload.length := by omega
    have hsmall : ∀ c ∈ chunks, (c.length : Int) ≠ m.payload.length := by
      intro c hc
      have h1 := (hchunks c hc).2
      have h2 : c.length ≤ chunks.flatten.length :=
        (List.sublist_flatten_of_mem hc).length_le
      obtain h | h | h := hd <;> omega
    have hfirst := mqttEventHandlerData_first_part subscriptions alloc m hpart msgId glue
    -- the pieces behind the first event, with a block and without
    have hcalls : handleDataEvents subscriptions alloc glue
        (m.firstEvent (s.readLen - m.header.length) msgId ::
          chunkEvents (m.firstEvent (s.readLen - m.header.length) msgId)
            (s.readLen - m.header.length) chunks) =
        some (if alloc glue.asked then
            if s.readLen - m.header.length + chunks.flatten.length = m.payload.length then
              (⟨none, glue.asked + 1⟩, deliveries subscriptions m.topic m.payload)
            else
              (⟨some ⟨partBlock m.payload
                (s.readLen - m.header.length + chunks.flatten.length), strndup m.topic⟩,
                glue.asked + 1⟩, [])
          else (⟨none, glue.asked + 1⟩, [])) := by
      by_cases ha : alloc glue.asked
      · have hrest := handleDataEvents_chunks subscriptions alloc
          (m.firstEvent (s.readLen - m.header.length) msgId) (s.readLen - m.header.length)
          (strndup m.topic) (glue.asked + 1) rfl hpart
          (fun c hc => (hchunks c hc).1) hmore
          (.inr fun c hc => by
            have := hsmall c (List.mem_of_mem_head? hc)
            omega)
        rw [strndup_eq hnul] at hrest
        simp only [handleDataEvents, hfirst, ha, if_true, Option.bind_eq_bind, Option.bind_some,
          hrest, List.nil_append]
      · have hrest := handleDataEvents_chunks_none subscriptions alloc
          (m.firstEvent (s.readLen - m.header.length) msgId) hsmall (glue.asked + 1)
          (s.readLen - m.header.length)
        simp only [handleDataEvents, hfirst, ha, Option.bind_eq_bind, Option.bind_some]
        simp [hrest]
    obtain ⟨rfl, hall⟩ | ⟨rfl, hlt, hprompt⟩ := hend
    · refine .done chunks.flatten rfl hstream hall ?_
      rw [hcalls, if_neg hshort, if_pos (show s.readLen - m.header.length +
        chunks.flatten.length = m.payload.length by omega)]
      by_cases ha : alloc glue.asked <;> simp [ha]
    · rw [if_neg (show ¬ s.readLen - m.header.length + chunks.flatten.length =
        m.payload.length by omega)] at hcalls
      by_cases ha : alloc glue.asked
      · rw [if_pos ha] at hcalls
        exact .stopped chunks.flatten _ rfl hstream hlt hprompt hcalls
      · rw [if_neg ha] at hcalls
        exact .stopped chunks.flatten _ rfl hstream hlt hprompt hcalls

end LiveWireSwitch
