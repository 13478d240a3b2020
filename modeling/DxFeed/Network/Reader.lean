import DxFeed.Library.Run
import DxFeed.Network.Attempts

/-!
# The threads of a connection

The reader thread reads from the socket and makes a new connection when one is lost; the queue
thread sends the protocol description, watches the heartbeats of the server, and may fail.  One round
of the reader is a step, and so is what the queue thread does while it has the task queue for itself.

* `ReaderState`: the connection with the flags of the two threads;
* `reestablishConnection`, `notifyConnTermination`, `readerRound`: the functions of the reader;
* `ReaderState.step`: a step of either thread, and the events that can be seen from outside;
* `bindToAddress`: how a connection starts.
-/

namespace DxFeed.Network

open Properties ServerMessageProcessor

variable {E : Type}

/-! ### States and events -/

/-- The error codes that are told apart; `other` is any of the rest. -/
inductive ErrorCode
  | success
  | credentialsRequired
  | authenticationError
  | other
  deriving DecidableEq, Repr

/-- A connection with the states of its threads and the last error of the reader thread. -/
structure ReaderState (E : Type) where
  context : NetworkContext E
  readerThreadState : Bool
  queueThreadState : Bool
  queueThreadError : ErrorCode
  isThreadIdle : Bool
  errorCode : ErrorCode

/-- What can be seen of a connection. -/
inductive Event (E : Type)
  /-- The name server has been asked, with the answer of the call. -/
  | resolved (success : Bool)
  | attempted (attempt : Attempt E)
  /-- `dx_connect_to_resolved_addresses` has a connection. -/
  | connected
  /-- The branch of `dx_reestablish_connection` that keeps the connection. -/
  | loginRepeated
  /-- The notifier of the connection. -/
  | notified
  /-- Bytes have been read from the socket and reported to the receiver. -/
  | received
  /-- The protocol description has been sent to the current address. -/
  | described (properties : Content) (address : Option AddressParser.Address)

/-! ### The reader thread -/

/-- `dx_close_socket`. -/
def closeSocket (context : NetworkContext E) : NetworkContext E :=
  { context with status := .notConnected, socket := false }

/-- `dx_have_credentials`. -/
def haveCredentials (context : NetworkContext E) : Bool :=
  (context.properties propertyAuth).isSome

/-- `dx_get_current_address(context)->is_connection_failed = true`. -/
def markCurrentAddress (context : NetworkContext E) : NetworkContext E :=
  match context.currentAddress with
  | none => context
  | some a => context.setCurrent { a with isConnectionFailed := true }

/-- `dx_notify_conn_termination`. -/
def notifyConnTermination (s : ReaderState E) : ReaderState E × List (Event E) :=
  if s.context.status = .loginRequired ∧ haveCredentials s.context then (s, [])
  else
    let s :=
      if s.context.status = .loginRequired then
        { s with context := markCurrentAddress s.context, errorCode := .credentialsRequired }
      else s
    let context :=
      if s.errorCode = .authenticationError then markCurrentAddress s.context else s.context
    ({ s with isThreadIdle := true, context := closeSocket context }, [.notified])

/-- What the outside world answers to a call of `dx_reestablish_connection`. -/
structure Reconnection (E : Type) where
  answers : ℕ → ℕ → Bool
  resolution : Resolution E
  again : ℕ → ℕ → Bool

/-- `dx_connect_to_resolved_addresses` with its events. -/
def connect (answers : ℕ → ℕ → Bool) (context : NetworkContext E) :
    NetworkContext E × List (Event E) × Bool :=
  let r := connectToResolvedAddresses answers context
  (r.1, r.2.1.map .attempted ++ if r.2.2 then [.connected] else [], r.2.2)

/-- `dx_resolve_address` and `dx_connect_to_resolved_addresses`. -/
def resolveAndConnect (resolution : Resolution E) (answers : ℕ → ℕ → Bool)
    (context : NetworkContext E) : NetworkContext E × List (Event E) × Bool :=
  match resolveAddress resolution context with
  | (context, false) => (context, [.resolved false], false)
  | (context, true) =>
      let r := connect answers context
      (r.1, .resolved true :: r.2.1, r.2.2)

/-- `dx_reestablish_connection`; what it queues behind the connection is not modelled here. -/
def reestablishConnection (world : Reconnection E) (context : NetworkContext E) :
    NetworkContext E × List (Event E) × Bool :=
  if context.status = .loginRequired then (context, [.loginRepeated], true)
  else
    match connect world.answers context with
    | (context, events, true) => (context, events, true)
    | (context, events, false) =>
        let context :=
          { context with addrContext := clearAddrContextData context.addrContext }
        let r := resolveAndConnect world.resolution world.again context
        (r.1, events ++ r.2.1, r.2.2)

/-- What `dx_recv` or `tls_read` and the receiver do in a round. -/
inductive Read
  | failed (errorCode : ErrorCode)
  /-- The receiver sets the connection status, and returns `accepted`. -/
  | data (statuses : List ConnectionStatus) (accepted : Bool) (errorCode : ErrorCode)

/-- The end of a round of `dx_socket_reader`. -/
def readSocket (read : Read) (s : ReaderState E) : ReaderState E × List (Event E) :=
  match read with
  | .failed errorCode => ({ s with readerThreadState := false, errorCode := errorCode }, [])
  | .data statuses accepted errorCode =>
      ({ s with
          context := { s.context with status := statuses.getLast?.getD s.context.status }
          readerThreadState := accepted
          errorCode := if accepted then s.errorCode else errorCode }, [.received])

/-- The start of a round: a failure of the queue thread is taken over. -/
def takeQueueError (s : ReaderState E) : ReaderState E :=
  if s.readerThreadState = true ∧ s.queueThreadState = false then
    { s with readerThreadState := false, queueThreadState := true, errorCode := s.queueThreadError }
  else s

/-- The middle of a round, which notifies once. -/
def noteTermination (s : ReaderState E) : ReaderState E × List (Event E) :=
  if s.readerThreadState = false ∧ s.isThreadIdle = false then notifyConnTermination s
  else (s, [])

/-- A round of the loop of `dx_socket_reader`. -/
def readerRound (world : Reconnection E) (read : Read) (s : ReaderState E) :
    ReaderState E × List (Event E) :=
  let (s, noted) := noteTermination (takeQueueError s)
  if s.isThreadIdle then
    match reestablishConnection world s.context with
    | (context, events, false) => ({ s with context := context }, noted ++ events)
    | (context, events, true) =>
        let s := { s with context := context, readerThreadState := true, isThreadIdle := false }
        let (s, reported) := readSocket read s
        (s, noted ++ events ++ reported)
  else
    let (s, reported) := readSocket read s
    (s, noted ++ reported)

/-! ### The queue thread -/

/-- The properties that `dx_send_protocol_description` sets; the version is that of the build. -/
def withDefaults (libraryVersion : WString) (properties : Content) : Content :=
  setContent (setContent properties (some (wideString "version")) (some libraryVersion))
    (some (wideString "opt")) (some (wideString "hs"))

/-- `dx_send_protocol_description` as a task. -/
def sendProtocolDescription (libraryVersion : WString) (context : NetworkContext E) :
    NetworkContext E × List (Event E) :=
  let context := { context with properties := withDefaults libraryVersion context.properties }
  if context.socket then
    (context, [.described context.properties (context.currentAddress.map (·.toAddress))])
  else (context, [])

/-! ### Runs -/

inductive Step (E : Type)
  | round (world : Reconnection E) (read : Read)
  /-- A task of the queue thread fails. -/
  | queueFails (errorCode : ErrorCode)
  /-- The queue thread has seen no message for too long. -/
  | heartbeatTimeout
  | describeProtocol (libraryVersion : WString)

def ReaderState.step (s : ReaderState E) : Step E → ReaderState E × List (Event E)
  | .round world read => readerRound world read s
  | .queueFails errorCode =>
      ({ s with queueThreadState := false, queueThreadError := errorCode }, [])
  | .heartbeatTimeout => ({ s with context := closeSocket s.context }, [])
  | .describeProtocol libraryVersion =>
      let r := sendProtocolDescription libraryVersion s.context
      ({ s with context := r.1 }, r.2)

/-- The context of a connection with the properties of the API. -/
def newContext (api : Content) : NetworkContext E where
  addrContext := ⟨[], 0⟩
  properties := api
  propBackup := none
  socket := false
  status := .notConnected

/-- `dx_bind_to_address`, up to the start of the reader: the connection and the events, or `none`
where it fails. -/
def bindToAddress (resolution : Resolution E) (answers : ℕ → ℕ → Bool) (api : Content) :
    Option (ReaderState E × List (Event E)) :=
  match resolveAndConnect resolution answers (newContext api) with
  | (_, _, false) => none
  | (context, events, true) => some (⟨context, true, true, .success, false, .success⟩, events)

/-- The events of a connection and the state after some steps. -/
def runFrom (start : ReaderState E × List (Event E)) (steps : List (Step E)) :
    ReaderState E × List (Event E) :=
  let r := Run.run ReaderState.step start.1 steps
  (r.1, start.2 ++ r.2)

end DxFeed.Network
