import DxFeed.ClientMessageProcessor.Sending
import DxFeed.ServerMessageProcessor.TimeMarks

/-!
# Heartbeats of a connection

`dx::Connection` with its composer and its parser, from the bytes that come in to the marks, and
from the marks to the bytes that go out.  The clock and its milliseconds are arguments.

* `Endpoint.createOutgoingHeartbeat`, `composeHeartbeatMessage`: `dx_send_heartbeat`;
* `Endpoint.receive`: the message is taken from the input stream and processed;
* `exists_composeHeartbeatMessage`: every heartbeat can be composed;
* `receive_composeHeartbeatMessage`: a heartbeat is processed as it was sent;
* `Endpoint.exists_process`: between endpoints of this kind no sum overflows.
-/

namespace DxFeed.ServerMessageProcessor.HeartbeatPayload

/-- `setTimeMillis`. -/
def setTimeMillis (payload : HeartbeatPayload) (timeMillis : UInt64) : HeartbeatPayload :=
  { payload with contentMask := payload.contentMask ||| timeMillisBit, timeMillis := timeMillis }

/-- `setTimeMark`. -/
def setTimeMark (payload : HeartbeatPayload) (timeMark : Int32) : HeartbeatPayload :=
  { payload with contentMask := payload.contentMask ||| timeMarkBit, timeMark := timeMark }

/-- `setDeltaMark`. -/
def setDeltaMark (payload : HeartbeatPayload) (deltaMark : Int32) : HeartbeatPayload :=
  { payload with contentMask := payload.contentMask ||| deltaMarkBit, deltaMark := deltaMark }

/-- `setLagMark`. -/
def setLagMark (payload : HeartbeatPayload) (lagMark : Int32) : HeartbeatPayload :=
  { payload with contentMask := payload.contentMask ||| lagMarkBit, lagMark := lagMark }

end DxFeed.ServerMessageProcessor.HeartbeatPayload

namespace DxFeed.Connection

open Call BufferedIO FixedWidth PrefixCode ServerMessageProcessor ClientMessageProcessor

/-! ### The functions -/

/-- A call of `on_server_heartbeat_notifier`. -/
structure Notification where
  timeMillis : Int64
  lagMark : Int32
  rttMark : Int32
  deriving DecidableEq

/-- What `dx::Connection`, its composer and its parser keep, and the calls of the notifier. -/
structure Endpoint where
  marks : MarkContext
  totalLag : Int32
  parserTimeMark : Int32
  notified : List Notification

namespace Endpoint

/-- A new connection. -/
def init : Endpoint := ⟨.init, 0, 0, []⟩

variable (e : Endpoint)

/-- `Connection::processIncomingHeartbeatPayload`; `none` is a sum that overflows. -/
def processIncomingHeartbeatPayload (clock : Int64) (payload : HeartbeatPayload) :
    Option Endpoint := do
  let (marks, timeMark) ← e.marks.processIncomingHeartbeatPayload clock payload
  return { e with
    marks := marks
    parserTimeMark := timeMark
    notified := e.notified ++
      [⟨payload.timeMillis.toInt64, payload.lagMark, marks.connectionRttMark⟩] }

/-- `Connection::createOutgoingHeartbeat`, up to the composer, whose lag is cleared. -/
def createOutgoingHeartbeat (clock : Int64) (timeMillis : UInt64) : HeartbeatPayload × Endpoint :=
  let payload := ((HeartbeatPayload.empty.setTimeMillis timeMillis).setTimeMark
    (currentTimeMark clock)).setLagMark e.totalLag
  let deltaMark := e.marks.lastDeltaMark
  (if deltaMark ≠ deltaMarkUnknown then payload.setDeltaMark deltaMark else payload,
    { e with totalLag := 0 })

/-- The handlers of a connection on which there are heartbeats only. -/
def heartbeatHandlers (clock : Int64) : Handlers (Option Endpoint) where
  processDataMessage := throw none
  processDescribeRecords := throw none
  processDescribeProtocol := throw none
  processIncomingHeartbeatPayload payload e :=
    e.bind fun e => e.processIncomingHeartbeatPayload clock payload
  clearServerInfo := id

/-- A message is taken from the input stream and processed. -/
def receive (clock : Int64) (bytes : List Int8) : Option Endpoint :=
  match exec readHeader (inputAt [] bytes 0) with
  | (.ok messageType, bicc) =>
      (exec (processMessage (heartbeatHandlers clock) messageType) ⟨bicc, some e⟩).2.state
  | (.error _, _) => some e

end Endpoint

/-- The message of `BinaryQTPComposer::composeHeartbeatMessage` in the buffer of
`dx_send_heartbeat`. -/
def composeHeartbeatMessage (payload : HeartbeatPayload) : Option (List Int8) :=
  match exec (BinaryQTPComposer.writeMessage messageHeartbeat payload.composeTo)
    (outputAt [] (List.replicate 1024 0)) with
  | (.ok _, out) => some (out.writtenFrom 0)
  | (.error _, _) => none

theorem composeHeartbeatMessage_eq (payload : HeartbeatPayload) :
    composeHeartbeatMessage payload =
      composedBytes (List.replicate 1024 0) messageHeartbeat payload.composeTo := by
  have hsame : BinaryQTPComposer.writeMessage messageHeartbeat payload.composeTo =
      composeMessage messageHeartbeat payload.composeTo := rfl
  unfold composeHeartbeatMessage composedBytes
  rcases hexec : exec (composeMessage messageHeartbeat payload.composeTo)
    (outputAt [] (List.replicate 1024 0)) with ⟨_ | ⟨⟨⟩⟩, out⟩
  · simp only [hsame, hexec]
  · simp only [hsame, hexec]

/-! ### Composing -/

/-- A call that writes bytes writes them, where the buffer can grow. -/
theorem exists_exec_of_puts {x : WriteCall Unit} {bs : List Int8} (hx : Puts x bs)
    (pre room : List Int8) (hlen : 2 * (pre.length + bs.length) + 4 ≤ INT_MAX)
    (htotal : pre.length + room.length ≤ INT_MAX) :
    ∃ room', exec x (outputAt pre room) = (.ok (), outputAt (pre ++ bs) room') ∧
      (pre ++ bs).length + room'.length ≤ INT_MAX := by
  obtain ⟨⟨⟩, hok⟩ := hx.returns pre room hlen htotal
  have hexec : exec x (outputAt pre room) = (.ok (), (exec x (outputAt pre room)).2) :=
    Prod.ext hok rfl
  obtain ⟨room', hout, htotal'⟩ := hx.writes pre room _ (by omega) htotal hexec
  exact ⟨room', hexec.trans (by rw [hout]), htotal'⟩

/-- A message with a short body, whose length takes one byte, is composed. -/
theorem exists_composedBytes {room bs : List Int8} {messageType : MessageType}
    {body : WriteCall Unit} (hvalid : isMessageTypeValid messageType = true)
    (hroom : room.length ≤ INT_MAX) (hputs : Puts body bs) (hlen : bs.length < 63) :
    ∃ bytes, composedBytes room messageType body = some bytes := by
  obtain ⟨typeBytes, hputsType, htype⟩ := puts_writeCompactInt messageType
  have hone := length_typeBytes hvalid htype
  have hmax : INT_MAX = 2 ^ 31 - 1 := rfl
  have hputsHeader : Puts (composeMessageHeader messageType) (0 :: typeBytes) :=
    (puts_writeByte 0).bind hputsType
  obtain ⟨headerRoom, hheader, hheaderRoom⟩ := exists_exec_of_puts hputsHeader [] room
    (by rw [List.length_nil, List.length_cons, hone]; omega)
    (by rwa [List.length_nil, Nat.zero_add])
  obtain ⟨bodyRoom, hbody, hbodyRoom⟩ := exists_exec_of_puts hputs (0 :: typeBytes) headerRoom
    (by rw [List.length_cons, hone]; omega) hheaderRoom
  have hcontent : (typeBytes ++ bs).length = 1 + bs.length := by
    rw [List.length_append, hone]
  have hsize : lengthSizeOf (typeBytes ++ bs).length = 1 := by
    rw [hcontent, lengthSizeOf, sizeClass_zero ⟨by norm_num [width]; omega, by
      norm_num [width]; omega⟩]
  have htotal : (typeBytes ++ bs).length + 1 + bodyRoom.length ≤ INT_MAX := hbodyRoom
  -- the byte in front of the message is the one for its length
  obtain ⟨lengthBytes, zeros, hlength, -⟩ := exec_writeLength (typeBytes ++ bs) [0] bodyRoom
    (0 :: (typeBytes ++ bs)).length (by rw [hsize, List.length_singleton])
    (by rw [List.length_append, List.length_append, List.length_singleton]; omega)
  have hfinish : exec finishComposingMessage (outputAt (0 :: (typeBytes ++ bs)) bodyRoom) = _ :=
    (exec_finishComposingMessage (by omega)).trans
      ((if_neg (by rw [hsize]; exact lt_irrefl 1)).trans hlength)
  have hcompose : exec (composeMessage messageType body) (outputAt [] room) = _ :=
    (exec_bind_ok hheader).trans ((exec_bind_ok hbody).trans hfinish)
  unfold composedBytes
  rw [hcompose]
  exact ⟨_, rfl⟩

/-! ### From one endpoint to another -/

open HeartbeatPayload

/-- A heartbeat takes 45 bytes at most, so it is composed. -/
theorem exists_composeHeartbeatMessage {payload : HeartbeatPayload}
    (hmillis : payload.timeMillis.toNat < 2 ^ 63) :
    ∃ bytes, composeHeartbeatMessage payload = some bytes := by
  obtain ⟨bs, hcarries⟩ := exists_carries payload .empty hmillis
  have hbody := hcarries.length_le
  have hroom : (List.replicate 1024 (0 : Int8)).length ≤ INT_MAX := by
    rw [List.length_replicate]
    decide
  rw [composeHeartbeatMessage_eq]
  exact exists_composedBytes rfl hroom hcarries.puts (by omega)

/-- A payload has bytes. -/
theorem length_pos_of_reads {bs : List Int8} {p q : HeartbeatPayload}
    (h : Reads p.parseInto bs q) : 0 < bs.length := by
  rw [List.length_pos_iff]
  rintro rfl
  have hread := h [] [] 0 (by simp)
  obtain ⟨contentMask, mid, hmask, hparts⟩ := exec_bind_eq_ok hread
  have hnone : exec readCompactInt (inputAt [] ([] ++ []) 0) =
      (.error .bufferUnderflow, inputAt [] ([] ++ []) 0) := rfl
  rw [hnone] at hmask
  exact nomatch (Prod.mk.inj hmask).1

/-- A heartbeat is processed as it was composed. -/
theorem receive_composeHeartbeatMessage {payload : HeartbeatPayload} {bytes : List Int8}
    (hmillis : payload.timeMillis.toNat < 2 ^ 63) (h : composeHeartbeatMessage payload = some bytes)
    (e : Endpoint) (clock : Int64) :
    e.receive clock bytes = e.processIncomingHeartbeatPayload clock (readBack payload .empty) := by
  rw [composeHeartbeatMessage_eq] at h
  obtain ⟨bs, hcarries⟩ := exists_carries payload .empty hmillis
  have hbody := hcarries.length_le
  have hpos := length_pos_of_reads hcarries.reads
  have hroom : (List.replicate 1024 (0 : Int8)).length ≤ INT_MAX := by
    rw [List.length_replicate]
    decide
  obtain ⟨lengthBytes, typeBytes, rfl, hlengthBytes, htypeBytes, hread⟩ :=
    parsesBack_of_composedBytes rfl hroom hcarries.puts (by omega) h
  have hfront := length_of_octets hlengthBytes
  have htype := length_of_octets htypeBytes
  have hlen : ([] ++ (lengthBytes ++ (typeBytes ++ bs) ++ [])).length ≤ INT_MAX := by
    simp only [List.length_append, List.length_nil, INT_MAX]
    omega
  have hheader : exec readHeader (inputAt [] (lengthBytes ++ (typeBytes ++ bs) ++ []) 0) = _ :=
    (exec_bind_ok (exec_get _)).trans (hread [] [] 0 hlen)
  rw [List.append_nil] at hheader
  have hparse := hcarries.reads ([] ++ lengthBytes ++ typeBytes) []
    (([] : List Int8).length + (lengthBytes ++ (typeBytes ++ bs)).length) (by simpa using hlen)
  rw [← parseFrom_eq] at hparse
  have hmore : ¬ (inputAt ([] ++ lengthBytes ++ typeBytes) (bs ++ [])
      (([] : List Int8).length + (lengthBytes ++ (typeBytes ++ bs)).length)).inBufferLimit =
      (inputAt ([] ++ lengthBytes ++ typeBytes) (bs ++ [])
        (([] : List Int8).length +
          (lengthBytes ++ (typeBytes ++ bs)).length)).currentInBufferPosition := by
    simp only [inputAt, List.length_append, List.length_nil]
    omega
  unfold Endpoint.receive
  rw [hheader]
  have hprocess : processMessage (Endpoint.heartbeatHandlers clock) messageHeartbeat =
      modify (parseHeartbeat (Endpoint.heartbeatHandlers clock)) := rfl
  dsimp only
  rw [hprocess, exec_modify]
  dsimp only
  unfold parseHeartbeat
  rw [if_neg hmore, hparse]
  rfl

/-! ### No sum overflows -/

theorem bmod_range (x : ℤ) : -2 ^ 29 ≤ x.bmod (2 ^ 30) ∧ x.bmod (2 ^ 30) < 2 ^ 29 := by
  have hlower := Int.le_bmod (x := x) (m := 2 ^ 30) (by norm_num)
  have hupper := Int.bmod_lt (x := x) (m := 2 ^ 30) (by norm_num)
  norm_num at hlower hupper ⊢
  exact ⟨hlower, hupper⟩

/-- The round-trip time stays in range. -/
theorem rtt_range {c : MarkContext} (hrange : c.InRange) (current : Int32)
    (payload : HeartbeatPayload) :
    -2 ^ 29 ≤ c.rtt current payload ∧ c.rtt current payload < 2 ^ 29 := by
  unfold MarkContext.rtt
  split_ifs
  · exact bmod_range _
  · exact ⟨hrange.rtt_lower, hrange.rtt_upper⟩

/-- The marks of a heartbeat that an endpoint of this kind sends at a clock, when its last
difference was `deltaMark`. -/
structure IsSent (clock : Int64) (timeMillis : UInt64) (deltaMark : Int32)
    (payload : HeartbeatPayload) : Prop where
  timeMillis : payload.timeMillis = timeMillis
  hasTimeMark : payload.hasTimeMark = true
  timeMark : payload.timeMark = currentTimeMark clock
  hasDeltaMark : payload.hasDeltaMark = true ↔ deltaMark ≠ deltaMarkUnknown
  deltaMark : deltaMark ≠ deltaMarkUnknown → payload.deltaMark = deltaMark
  lagMark : payload.lagMark = 0

namespace Endpoint

variable {e : Endpoint}

/-- The marks are in range, and there is no lag: nothing adds to it. -/
structure IsSteady (e : Endpoint) : Prop where
  inRange : e.marks.InRange
  totalLag : e.totalLag = 0

theorem isSteady_init : init.IsSteady := ⟨MarkContext.inRange_init, rfl⟩

theorem timeMillis_createOutgoingHeartbeat (clock : Int64) (timeMillis : UInt64) :
    (e.createOutgoingHeartbeat clock timeMillis).1.timeMillis = timeMillis := by
  unfold createOutgoingHeartbeat
  dsimp only
  split_ifs <;> rfl

/-- What is read of a heartbeat that is sent. -/
theorem isSent_createOutgoingHeartbeat (he : e.IsSteady) (clock : Int64) (timeMillis : UInt64) :
    IsSent clock timeMillis e.marks.lastDeltaMark
      (readBack (e.createOutgoingHeartbeat clock timeMillis).1 .empty) := by
  have hlag := he.totalLag
  have hmatches := readBack_matches (e.createOutgoingHeartbeat clock timeMillis).1 .empty
  by_cases hknown : e.marks.lastDeltaMark ≠ deltaMarkUnknown
  · have hpayload : (e.createOutgoingHeartbeat clock timeMillis).1 =
        ⟨0xF, timeMillis, currentTimeMark clock, e.marks.lastDeltaMark, 0⟩ := by
      unfold createOutgoingHeartbeat
      dsimp only
      have hmask : ((0 ||| timeMillisBit) ||| timeMarkBit) ||| lagMarkBit ||| deltaMarkBit =
          0xF := by
        decide
      rw [hlag, if_pos hknown, ← hmask]
      rfl
    rw [hpayload] at hmatches ⊢
    have hmillis : (0xF : UInt32) &&& timeMillisBit ≠ 0 := by decide
    have hmark : (0xF : UInt32) &&& timeMarkBit ≠ 0 := by decide
    have hlagMark : (0xF : UInt32) &&& lagMarkBit ≠ 0 := by decide
    have hdelta : HeartbeatPayload.hasDeltaMark
        ⟨0xF, timeMillis, currentTimeMark clock, e.marks.lastDeltaMark, 0⟩ = true :=
      decide_eq_true (by decide : (0xF : UInt32) &&& deltaMarkBit ≠ 0)
    exact {
      timeMillis := hmatches.timeMillis (decide_eq_true hmillis)
      hasTimeMark := decide_eq_true hmark
      timeMark := hmatches.timeMark (decide_eq_true hmark)
      hasDeltaMark := iff_of_true hdelta hknown
      deltaMark := fun _ => hmatches.deltaMark hdelta
      lagMark := hmatches.lagMark (decide_eq_true hlagMark) }
  · have hpayload : (e.createOutgoingHeartbeat clock timeMillis).1 =
        ⟨0xB, timeMillis, currentTimeMark clock, 0, 0⟩ := by
      unfold createOutgoingHeartbeat
      dsimp only
      have hmask : ((0 ||| timeMillisBit) ||| timeMarkBit) ||| lagMarkBit = 0xB := by decide
      rw [hlag, if_neg hknown, ← hmask]
      rfl
    rw [hpayload] at hmatches ⊢
    have hmillis : (0xB : UInt32) &&& timeMillisBit ≠ 0 := by decide
    have hmark : (0xB : UInt32) &&& timeMarkBit ≠ 0 := by decide
    have hlagMark : (0xB : UInt32) &&& lagMarkBit ≠ 0 := by decide
    have hdelta : ¬ HeartbeatPayload.hasDeltaMark
        ⟨0xB, timeMillis, currentTimeMark clock, 0, 0⟩ = true :=
      fun h => absurd (of_decide_eq_true h) (by decide : ¬ (0xB : UInt32) &&& deltaMarkBit ≠ 0)
    exact {
      timeMillis := hmatches.timeMillis (decide_eq_true hmillis)
      hasTimeMark := decide_eq_true hmark
      timeMark := hmatches.timeMark (decide_eq_true hmark)
      hasDeltaMark := iff_of_false hdelta hknown
      deltaMark := fun h => absurd h hknown
      lagMark := hmatches.lagMark (decide_eq_true hlagMark) }

end Endpoint

/-- The sums that such a heartbeat leads to. -/
theorem IsSent.sumsFit {c : MarkContext} {clock clock' : Int64} {timeMillis : UInt64}
    {deltaMark : Int32} {payload : HeartbeatPayload}
    (h : IsSent clock' timeMillis deltaMark payload)
    (hdelta : deltaMark = deltaMarkUnknown ∨ -2 ^ 29 ≤ deltaMark.toInt ∧ deltaMark.toInt < 2 ^ 29)
    (hrange : c.InRange) : c.SumsFit (currentTimeMark clock) payload := by
  obtain ⟨hlower, hupper⟩ := currentTimeMark_range clock
  obtain ⟨hlower', -⟩ := currentTimeMark_range clock'
  obtain ⟨hrttLower, hrttUpper⟩ := rtt_range hrange (currentTimeMark clock) payload
  have hlag : payload.lagMark.toInt = 0 := by
    rw [h.lagMark]
    rfl
  refine ⟨fun _ => ?_, fun _ hhas => ?_, ?_, ?_⟩
  · rw [h.timeMark]
    omega
  · have hknown := h.hasDeltaMark.mp hhas
    obtain ⟨hmarkLower, hmarkUpper⟩ := hdelta.resolve_left hknown
    have hdiff : -2 ^ 29 ≤ MarkContext.delta (currentTimeMark clock) payload ∧
        MarkContext.delta (currentTimeMark clock) payload < 2 ^ 29 := bmod_range _
    rw [h.deltaMark hknown]
    exact ⟨by omega, by omega⟩
  · rw [hlag]
    omega
  · rw [hlag]
    omega

/-- Such a heartbeat is processed, and no sum overflows. -/
theorem Endpoint.exists_process {e : Endpoint} (he : e.IsSteady) {clock' : Int64}
    {timeMillis : UInt64} {deltaMark : Int32} {payload : HeartbeatPayload}
    (hpayload : IsSent clock' timeMillis deltaMark payload)
    (hdelta : deltaMark = deltaMarkUnknown ∨ -2 ^ 29 ≤ deltaMark.toInt ∧ deltaMark.toInt < 2 ^ 29)
    (clock : Int64) :
    ∃ e', e.processIncomingHeartbeatPayload clock payload = some e' ∧ e'.IsSteady ∧
      e.marks.Marked (currentTimeMark clock) payload e'.marks e'.parserTimeMark ∧
      e'.notified = e.notified ++ [⟨timeMillis.toInt64, 0, e'.marks.connectionRttMark⟩] := by
  have hfits : e.marks.SumsFit (currentTimeMark clock) payload := hpayload.sumsFit hdelta he.inRange
  obtain ⟨marks, timeMark, hprocess⟩ := MarkContext.exists_process hfits
  have hmarked := (MarkContext.process_spec hprocess).2
  refine ⟨{ e with
    marks := marks
    parserTimeMark := timeMark
    notified := e.notified ++ [⟨timeMillis.toInt64, 0, marks.connectionRttMark⟩] }, ?_,
    ⟨he.inRange.marked hmarked, he.totalLag⟩, hmarked, rfl⟩
  unfold Endpoint.processIncomingHeartbeatPayload
  rw [hprocess, Option.bind_eq_bind, Option.bind_some, hpayload.timeMillis, hpayload.lagMark]
  rfl

end DxFeed.Connection
