import DxFeed.BufferedIO.Utf
import DxFeed.Library.Run
import DxFeed.PropertyMap.Operations
import DxFeed.ServerMessageProcessor.Framing
import DxFeed.ServerMessageProcessor.RecordDigests

/-!
# The message types that the server supports

The describe-protocol messages of the server, and what the client reports of it.  The properties are
the content of their map, strings are read up to their terminator, and allocations and locks succeed.

* `isMessageSupportedByServer`: `dx_is_message_supported_by_server`;
* `processDescribeProtocol`: `dx_process_describe_protocol`, which notes the message types that it
  reads;
* `DescribeSession`, `describeStep`: a connection, with the message types of the description that was
  accepted last, and what happens to it.
-/

namespace DxFeed.ServerMessageProcessor

open BufferedIO Call Properties

/-! ### Message types -/

/-- `g_send_msg_roster`. -/
def sendMessageRoster : List MessageType := [11, 12, 16, 17, 21, 22]

/-- `g_recv_msg_roster`. -/
def recvMessageRoster : List MessageType := [10, 15, 20]

/-- `dx_get_message_type_name`. -/
def messageTypeName (type : MessageType) : WString :=
  wideString
    (if type = 0 then "HEARTBEAT"
    else if type = 1 then "DESCRIBE_PROTOCOL"
    else if type = 2 then "DESCRIBE_RECORDS"
    else if type = 10 then "TICKER_DATA"
    else if type = 11 then "TICKER_ADD_SUBSCRIPTION"
    else if type = 12 then "TICKER_REMOVE_SUBSCRIPTION"
    else if type = 15 then "STREAM_DATA"
    else if type = 16 then "STREAM_ADD_SUBSCRIPTION"
    else if type = 17 then "STREAM_REMOVE_SUBSCRIPTION"
    else if type = 20 then "HISTORY_DATA"
    else if type = 21 then "HISTORY_ADD_SUBSCRIPTION"
    else if type = 22 then "HISTORY_REMOVE_SUBSCRIPTION"
    else "UNKNOWN MESSAGE TYPE")

/-- `dx_message_support_status_t`. -/
inductive MessageSupportStatus
  | supported
  | notSupported
  | pending
  | reconnection
  deriving DecidableEq

/-- `dx_get_msg_support_state`. -/
def getMsgSupportState (msg : MessageType) (roster : List MessageType) (bitmask : Int32) : Bool :=
  match roster.findIdx? (· = msg) with
  | none => false
  | some idx => decide (IsSupported bitmask idx)

/-- One of the bitmasks has the bit of the message type. -/
def ServerInfo.supports (info : ServerInfo) (msg : MessageType) : Bool :=
  getMsgSupportState msg sendMessageRoster info.sendMsgsBitmask ||
    getMsgSupportState msg recvMessageRoster info.recvMsgsBitmask

/-- `dx_is_message_supported_by_server`; it fails for a message type that is not valid. -/
def isMessageSupportedByServer (info : ServerInfo) (msg : MessageType) :
    Option MessageSupportStatus :=
  if !isMessageTypeValid msg then none
  else
    match info.describeProtocolStatus with
    | .notSent => some .reconnection
    | .pending => some .pending
    | .received | .notReceived =>
        some (if info.supports msg then .supported else .notSupported)

/-- `dx_legacy_send_msg_bitmask` and `dx_legacy_recv_msg_bitmask`: the messages of a roster that
every server supports. -/
def legacyMsgBitmask (roster legacy : List MessageType) : Int32 :=
  legacy.foldl (fun bitmask msg => bitmask ||| indexBitmask (roster.findIdx (· = msg))) 0

/-! ### Descriptions -/

/-- A message type in a description: its id, and its name, which may be null. -/
abbrev TypeEntry := MessageType × Option WString

/-- The message types that a description lists: the ones that the server sends, and the ones that
it receives. -/
structure Listing where
  send : List TypeEntry
  recv : List TypeEntry
  deriving DecidableEq

/-- The message type is listed with its id and its name: as one that the server sends, if the client
receives it, or as one that the server receives, if the client sends it. -/
def Listing.Lists (listing : Listing) (msg : MessageType) : Prop :=
  msg ∈ sendMessageRoster ∧ (msg, some (messageTypeName msg)) ∈ listing.recv ∨
    msg ∈ recvMessageRoster ∧ (msg, some (messageTypeName msg)) ∈ listing.send

/-- Why a message is not accepted: the input ends or is not well formed, the message is corrupted,
there is a null string where there must be a name, or a login is required or has failed. -/
inductive DescribeFailure
  | input (e : ErrorCode)
  | messageCorrupted
  | nullString
  | loginRequired
  | authenticationError
  deriving DecidableEq

/-- What a message is processed on; `listed` are the message types that have been read. -/
structure DescribeState where
  info : ServerInfo
  recvProps : Content
  input : InputContext
  listed : Listing

abbrev DescribeCall := Call DescribeFailure DescribeState

/-- A call that reads from the input. -/
def readInput {α : Type} (x : ReadCall α) : DescribeCall α :=
  ExceptT.mk fun s =>
    ((exec x s.input).1.mapError .input, { s with input := (exec x s.input).2 })

/-- The place of a message type in a roster, if its name is the one that is expected. -/
def rosterIndex (roster : List MessageType) (entry : TypeEntry) : Option ℕ :=
  match roster.findIdx? (· = entry.1) with
  | none => none
  | some msgIndex => if entry.2 = some (messageTypeName entry.1) then some msgIndex else none

/-- The name of a message type in the roster is compared, which must not be null. -/
def checkName (roster : List MessageType) (entry : TypeEntry) : DescribeCall Unit := do
  if entry.1 ∈ roster ∧ entry.2 = none then throw .nullString

/-- The bitmask with the bit of a message type. -/
def markType (roster : List MessageType) (bitmask : Int32) (entry : TypeEntry) : Int32 :=
  match rosterIndex roster entry with
  | none => bitmask
  | some msgIndex => bitmask ||| indexBitmask msgIndex

/-- `dx_process_server_send_message_type`. -/
def processServerSendMessageType (entry : TypeEntry) : DescribeCall Unit := do
  modify fun s => { s with listed.send := s.listed.send ++ [entry] }
  checkName recvMessageRoster entry
  modify fun s =>
    { s with info.recvMsgsBitmask := markType recvMessageRoster s.info.recvMsgsBitmask entry }

/-- `dx_process_server_recv_message_type`. -/
def processServerRecvMessageType (entry : TypeEntry) : DescribeCall Unit := do
  modify fun s => { s with listed.recv := s.listed.recv ++ [entry] }
  checkName sendMessageRoster entry
  modify fun s =>
    { s with info.sendMsgsBitmask := markType sendMessageRoster s.info.sendMsgsBitmask entry }

/-- The count in front of a list. -/
def readCount : DescribeCall ℕ := do
  let count ← readInput readCompactInt
  if count < 0 then throw .messageCorrupted
  return count.toInt.toNat

/-- The loop of `dx_read_describe_protocol_properties`. -/
def readProperties : ℕ → DescribeCall Unit
  | 0 => pure ()
  | n + 1 => do
      let key ← readInput readText
      let value ← readInput readText
      modify fun s => { s with recvProps := setContent s.recvProps key value }
      readProperties n

/-- `dx_read_describe_protocol_properties`. -/
def readDescribeProtocolProperties : DescribeCall Unit := do
  readProperties (← readCount)

/-- The loop of `dx_read_describe_protocol_message_list`. -/
def readMessageTypes (processor : TypeEntry → DescribeCall Unit) : ℕ → DescribeCall Unit
  | 0 => pure ()
  | n + 1 => do
      let messageId ← readInput readCompactInt
      let messageName ← readInput readText
      processor (messageId, messageName)
      readDescribeProtocolProperties
      readMessageTypes processor n

/-- `dx_read_describe_protocol_message_list`. -/
def readDescribeProtocolMessageList (processor : TypeEntry → DescribeCall Unit) :
    DescribeCall Unit := do
  readMessageTypes processor (← readCount)

/-- `'D', 'X', 'P', '3'`. -/
def readMagic : DescribeCall Unit := do
  let magic ← readInput readInt
  if magic ≠ 0x44585033 then throw .messageCorrupted

/-- The properties and the lists, which are read into a map that was freed. -/
def readDescription : DescribeCall Unit := do
  modify fun s => { s with recvProps := fun _ => none }
  readDescribeProtocolProperties
  readDescribeProtocolMessageList processServerSendMessageType
  readDescribeProtocolMessageList processServerRecvMessageType

/-- A server that was taken for a legacy one is forgiven. -/
def ServerInfo.forgiven (info : ServerInfo) : ServerInfo :=
  if info.describeProtocolStatus = .notReceived then
    { info with sendMsgsBitmask := 0, recvMsgsBitmask := 0 }
  else info

/-- The answer of the server to the login, if there is one. -/
def loginAnswer (recvProps : Content) : Option DescribeFailure :=
  match recvProps (wideString "authentication") with
  | none => none
  | some value =>
      if value = [] then none
      else if wideString "LOGIN " <+: value then some .loginRequired
      else some .authenticationError

/-- The end of `dx_process_describe_protocol`; what is behind the lists is skipped. -/
def acceptDescription : DescribeCall Unit := do
  match loginAnswer (← get).recvProps with
  | some .loginRequired =>
      modify fun s => { s with info.describeProtocolStatus := .pending }
      throw .loginRequired
  | some e => throw e
  | none =>
      modify fun s =>
        { s with
          info.describeProtocolStatus := .received
          input.currentInBufferPosition :=
            max s.input.currentInBufferPosition s.input.inBufferLimit }

/-- `dx_process_describe_protocol`. -/
def processDescribeProtocol : DescribeCall Unit := do
  modify fun s => { s with info := s.info.forgiven }
  readMagic
  readDescription
  acceptDescription

/-! ### Sessions -/

/-- A connection, and the message types of the description that was accepted last. -/
structure DescribeSession where
  info : ServerInfo
  recvProps : Content
  accepted : Option Listing

/-- What happens to the description of the protocol: it is sent, its time is over or not when the
countdown looks, the information about the server is cleared, and a message of the server. -/
inductive DescribeEvent
  | sent
  | countdown (timedOut : Bool)
  | clear
  | message (input : InputContext)

/-- `dx_describe_protocol_sent`. -/
def describeProtocolSent (info : ServerInfo) : ServerInfo :=
  if info.describeProtocolStatus = .notSent then
    { info with describeProtocolStatus := .pending }
  else info

/-- `dx_describe_protocol_timeout_countdown_task`. -/
def describeProtocolTimeoutCountdown (timedOut : Bool) (info : ServerInfo) : ServerInfo :=
  if info.describeProtocolStatus = .pending ∧ timedOut then
    { info with
      describeProtocolStatus := .notReceived
      sendMsgsBitmask := legacyMsgBitmask sendMessageRoster [11, 12, 16, 17, 21, 22]
      recvMsgsBitmask := legacyMsgBitmask recvMessageRoster [10, 15, 20] }
  else info

/-- The processing of a message. -/
def DescribeSession.process (s : DescribeSession) (input : InputContext) :
    Except DescribeFailure Unit × DescribeState :=
  exec processDescribeProtocol ⟨s.info, s.recvProps, input, ⟨[], []⟩⟩

/-- The session after an event, and the result of the processing of a message. -/
def describeStep (s : DescribeSession) :
    DescribeEvent → DescribeSession × List (Except DescribeFailure Unit)
  | .sent => ({ s with info := describeProtocolSent s.info }, [])
  | .countdown timedOut =>
      ({ s with info := describeProtocolTimeoutCountdown timedOut s.info }, [])
  | .clear => ({ s with info := (exec clearServerInfo s.info).2 }, [])
  | .message input =>
      let (result, s') := s.process input
      ({ info := s'.info
         recvProps := s'.recvProps
         accepted := if result.isOk then some s'.listed else s.accepted }, [result])

/-- A new connection. -/
def DescribeSession.start (records : RecordList) : DescribeSession where
  info := .fresh records
  recvProps := fun _ => none
  accepted := none

end DxFeed.ServerMessageProcessor
