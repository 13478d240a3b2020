import DxFeed.BufferedIO.Reach

/-!
# The message loop

`dx_process_server_data` appends a portion of bytes to what is left of the earlier ones, and
handles every complete message.  Data messages and descriptions have handlers that are
parameters here; heartbeats, and everything that moves the position from one message to the
next, are those of the source.

* `processMessage`: `dx_process_message`;
* `processLoop`, `processServerData`: the loop, with the messages it hands to `processMessage`;
* `receive`: portions that come one after the other.
-/

namespace DxFeed.ServerMessageProcessor

open Call BufferedIO

/-! ### Message types -/

/-- `dx_message_type_t`. -/
abbrev MessageType := Int32

def messageHeartbeat : MessageType := 0

def messageDescribeProtocol : MessageType := 1

def messageDescribeRecords : MessageType := 2

def messageRawData : MessageType := 5

/-- `dx_is_data_message`: ticker, stream and history data. -/
def isDataMessage (type : MessageType) : Bool :=
  [10, 15, 20].contains type

/-- `dx_is_subscription_message`. -/
def isSubscriptionMessage (type : MessageType) : Bool :=
  [11, 12, 16, 17, 21, 22].contains type

/-- `dx_is_message_type_valid`; besides the messages above these are the reserved description,
the part, raw data, and text. -/
def isMessageTypeValid (type : MessageType) : Bool :=
  [messageHeartbeat, messageDescribeProtocol, messageDescribeRecords, 3, 4, messageRawData, 10, 11,
    12, 15, 16, 17, 20, 21, 22, 61].contains type

/-! ### Heartbeats -/

/-- `HeartbeatPayload`. -/
structure HeartbeatPayload where
  contentMask : UInt32
  timeMillis : UInt64
  timeMark : Int32
  deltaMark : Int32
  lagMark : Int32
  deriving DecidableEq, Repr

/-- A part of the payload, which is there if its content bit is set. -/
def readPart {α : Type} (contentMask bit : UInt32) (part : ReadCall α) (absent : α) :
    ReadCall α :=
  if contentMask &&& bit ≠ 0 then part else return absent

/-- `HeartbeatPayload::parseFrom`. -/
def HeartbeatPayload.parseFrom : ReadCall HeartbeatPayload := do
  let contentMask := (← readCompactInt).toUInt32
  let timeMillis ← readPart contentMask 0x1 (do return (← readCompactLong).toUInt64) 0
  let timeMark ← readPart contentMask 0x2 readCompactInt 0
  let deltaMark ← readPart contentMask 0x4 readCompactInt 0
  let lagMark ← readPart contentMask 0x8 readCompactInt 0
  return ⟨contentMask, timeMillis, timeMark, deltaMark, lagMark⟩

/-! ### Messages -/

/-- The input stream of a connection, and everything else that handlers change. -/
structure Session (σ : Type) where
  bicc : InputContext
  state : σ

/-- A call that fails with `none` fails without setting an error code. -/
abbrev SessionCall (σ : Type) := Call (Option ErrorCode) (Session σ)

/-- The handlers of the messages. -/
structure Handlers (σ : Type) where
  processDataMessage : SessionCall σ Unit
  processDescribeRecords : SessionCall σ Unit
  processDescribeProtocol : SessionCall σ Unit
  processIncomingHeartbeatPayload : HeartbeatPayload → σ → σ
  clearServerInfo : σ → σ

variable {σ : Type} (h : Handlers σ)

/-- `BinaryQTPParser::parseHeartbeat`. -/
def parseHeartbeat (s : Session σ) : Session σ :=
  if s.bicc.inBufferLimit = s.bicc.currentInBufferPosition then s
  else
    match exec HeartbeatPayload.parseFrom s.bicc with
    | (.ok payload, bicc) => ⟨bicc, h.processIncomingHeartbeatPayload payload s.state⟩
    | (.error _, bicc) => { s with bicc := bicc }

/-- An underflow inside of a message means that its length is not valid. -/
def underflowIsInvalidLength : Option ErrorCode → Option ErrorCode
  | some .bufferUnderflow => some .invalidMessageLength
  | e => e

/-- `dx_process_message`. -/
def processMessage (messageType : MessageType) : SessionCall σ Unit :=
  if isDataMessage messageType then
    ExceptT.adapt underflowIsInvalidLength h.processDataMessage
  else if isSubscriptionMessage messageType then throw (some .unexpectedMessageType)
  else if messageType = messageDescribeRecords then
    ExceptT.adapt underflowIsInvalidLength h.processDescribeRecords
  else if messageType = messageDescribeProtocol then
    ExceptT.adapt underflowIsInvalidLength h.processDescribeProtocol
  else if messageType = messageHeartbeat then modify (parseHeartbeat h)
  else throw (some .serverMessageNotSupported)

/-- `dx_read_message_type`. -/
def readMessageType : ReadCall MessageType := do
  let type ← ExceptT.adapt
    (fun e => if e = .bufferUnderflow then .messageIncomplete else e) readCompactLong
  if isMessageTypeValid type.toInt32 then return type.toInt32 else throw .unexpectedMessageType

/-- `dx_read_message_length_and_set_buffer_limit`; a length that cannot be read is not complete. -/
def readMessageLengthAndSetBufferLimit (bufferSize : ℕ) : ReadCall Unit := do
  let messageLength ← ExceptT.adapt (fun _ => .messageIncomplete) readCompactLong
  let context ← get
  let position := context.currentInBufferPosition
  if messageLength < 0 ∨ messageLength.toInt > INT_MAX - position then
    throw .invalidMessageLength
  else
    let messageEndOffset := position + messageLength.toInt.toNat
    if messageEndOffset > bufferSize then throw .messageIncomplete
    else set { context with inBufferLimit := messageEndOffset }

/-! ### The loop -/

/-- A message as the loop hands it over: its type and its body. -/
abbrev Handed := MessageType × List Int8

/-- Where the loop stands.  The messages handed over are recorded. -/
structure Progress (σ : Type) where
  session : Session σ
  processResult : Bool
  handed : List Handed

/-- `dx_set_in_buffer_position`. -/
def Session.setPosition (s : Session σ) (position : ℕ) : Session σ :=
  { s with bicc := { s.bicc with currentInBufferPosition := position } }

/-- The bytes from the position to the limit. -/
def Session.body (s : Session σ) : List Int8 :=
  (s.bicc.buffer.drop s.bicc.currentInBufferPosition).take
    (s.bicc.inBufferLimit - s.bicc.currentInBufferPosition)

/-- A message is handed to `dx_process_message`. -/
def handMessage (bufferSize : ℕ) (messageType : MessageType) (p : Progress σ) : Progress σ :=
  let p := { p with handed := p.handed ++ [(messageType, p.session.body)] }
  match exec (processMessage h messageType) p.session with
  | (.ok _, s) => { p with session := s }
  | (.error (some .serverMessageNotSupported), s) =>
      { p with session := s.setPosition s.bicc.inBufferLimit }
  | (.error _, s) => { p with session := s.setPosition bufferSize, processResult := false }

/-- One round of the loop, and whether the loop goes on. -/
def processRound (bufferSize : ℕ) (p : Progress σ) : Progress σ × Bool :=
  let withInput (bicc : InputContext) : Progress σ :=
    { p with session := { p.session with bicc := bicc } }
  let corrupted (bicc : InputContext) : Progress σ × Bool :=
    ({ p with
        session := { p.session with bicc := { bicc with currentInBufferPosition := bufferSize } }
        processResult := false }, false)
  match exec (readMessageLengthAndSetBufferLimit bufferSize) p.session.bicc with
  | (.error .messageIncomplete, bicc) =>
      -- the rest of the message comes with the next portion
      (withInput { bicc with
        currentInBufferPosition := p.session.bicc.currentInBufferPosition }, false)
  | (.error _, bicc) => corrupted bicc
  | (.ok _, bicc) =>
      if bicc.currentInBufferPosition < bicc.inBufferLimit then
        match exec readMessageType bicc with
        | (.error .unexpectedMessageType, bicc) =>
            (withInput { bicc with currentInBufferPosition := bicc.inBufferLimit }, true)
        | (.error _, bicc) => corrupted bicc
        | (.ok messageType, bicc) => (handMessage h bufferSize messageType (withInput bicc), true)
      else (handMessage h bufferSize messageHeartbeat (withInput bicc), true)

/-- The loop of `dx_process_server_data`; `none` is a loop that does not end in `fuel` rounds. -/
def processLoop (bufferSize : ℕ) : ℕ → Progress σ → Option (Progress σ)
  | 0, _ => none
  | fuel + 1, p =>
      if p.session.bicc.currentInBufferPosition < bufferSize then
        match processRound h bufferSize p with
        | (p, true) => processLoop bufferSize fuel p
        | (p, false) => some p
      else some p

/-- The parts of `dx_server_msg_proc_connection_context_t` that the loop uses, and the messages
it handed over. -/
structure Connection (σ : Type) where
  buffer : List Int8
  bufferPos : ℕ
  session : Session σ
  handed : List Handed

/-- The bytes that wait for the rest of their message. -/
def Connection.unconsumed (c : Connection σ) : List Int8 :=
  c.buffer.drop c.bufferPos

/-- `dx_append_new_data`. -/
def Connection.appendNewData (c : Connection σ) (newBuffer : List Int8) : Connection σ :=
  let buffer := c.unconsumed ++ newBuffer
  { c with
    buffer := buffer
    bufferPos := 0
    session := { c.session with bicc := { c.session.bicc with
      inBuffer := some buffer
      currentInBufferPosition := 0 } } }

/-- `dx_process_server_data`. -/
def processServerData (c : Connection σ) (data : List Int8) : Option (Connection σ × Bool) :=
  if data.isEmpty then some (c, false)
  else
    let c := c.appendNewData data
    let start : Progress σ := ⟨c.session, true, c.handed⟩
    (processLoop h c.buffer.length (c.buffer.length + 1) start).map fun p =>
      ({ c with
        bufferPos := p.session.bicc.currentInBufferPosition
        session := p.session
        handed := p.handed }, p.processResult)

/-- The portions that the socket reader passes on, and the last result; a result that is false
makes the reader stop. -/
def receive : Connection σ → List (List Int8) → Option (Connection σ × Bool)
  | c, [] => some (c, true)
  | c, data :: portions =>
      match processServerData h c data with
      | some (c, true) => receive c portions
      | stopped => stopped

end DxFeed.ServerMessageProcessor
