import DxFeed.Library.Run

/-!
# The task queue of a connection

Four threads share the task queue and the describe-protocol status of a connection: the one that
creates it (`dxf_create_connection_impl`), the socket reader with `dx_reestablish_connection`, the
queue thread with `dx_execute_task_queue`, and the ones that call `dxf_add_symbols`.

* `ConnectionContext`: the shared state, and how far each thread is;
* `describeProtocolSent`, `executeHead`, `resubscribe`: the functions that look at the status;
* `step`: one step of a thread.

A step is what a thread does under one lock.  A task leaves the queue, or the pass over the queue
ends with it, so that a pass is a sequence of steps on the first task.  Allocations succeed, and a
message is sent while the socket is open.
-/

namespace DxFeed.Connection

/-- `dx_describe_protocol_status_t`. -/
inductive DescribeProtocolStatus
  | notSent
  | received
  | notReceived
  | pending
  deriving DecidableEq

/-- The tasks of the queue.  A subscription task subscribes to records, named by their ids. -/
inductive Task
  | describeProtocolSender
  | describeProtocolTimeoutCountdown
  | describeRecordsSender
  | subscribeSymbolsToEvents (records : List ℕ)
  deriving DecidableEq

/-- The messages of a session. -/
inductive Message
  | describeProtocol
  | describeRecords (records : List ℕ)
  | subscription (records : List ℕ)
  deriving DecidableEq

/-- The branches that are marked as ones that must never be taken. -/
inductive MarkedBranch
  | describeProtocolTimeoutCountdown
  | describeProtocolSent
  | subscribeSymbolsToEvents
  deriving DecidableEq

/-- Where the socket reader is: it reads, or it has lost the connection and is in
`dx_reestablish_connection` behind the call that the point names. -/
inductive ReaderPoint
  | reading
  | idle
  | queueCleaned
  | serverInfoCleared
  | connected
  | protocolQueued
  | protocolSent
  | recordsQueued
  deriving DecidableEq

/-- Where `dxf_create_connection_impl` is behind `dx_bind_to_address`. -/
inductive CreatorPoint
  | bound
  | protocolQueued
  | protocolSent
  | done
  | failed
  deriving DecidableEq

/-- Where a call of `dxf_add_symbols` is: behind `dx_load_events_for_subscription`, behind
`dx_send_record_description`, or behind the check of `dx_subscribe_symbols_to_events`. -/
inductive ApiCall
  | eventsLoaded (records : List ℕ)
  | recordsQueued (records : List ℕ)
  | checked (records : List ℕ)
  deriving DecidableEq

/-- A connection.  `recordCount` and `newRecordId` belong to the records list: its size, and the
first record that was not described in the session; `sent` are the messages of the session. -/
structure ConnectionContext where
  status : DescribeProtocolStatus
  queue : List Task
  reader : ReaderPoint
  creator : CreatorPoint
  calls : List ApiCall
  socketOpen : Bool
  loginRequired : Bool
  recordCount : ℕ
  newRecordId : ℕ
  sent : List Message
  deriving DecidableEq

/-- The connection behind `dx_bind_to_address`. -/
def bindToAddress (recordCount : ℕ) : ConnectionContext where
  status := .notSent
  queue := []
  reader := .reading
  creator := .bound
  calls := []
  socketOpen := true
  loginRequired := false
  recordCount := recordCount
  newRecordId := 0
  sent := []

/-- `dx_add_worker_thread_task`. -/
def addWorkerThreadTask (c : ConnectionContext) (task : Task) : ConnectionContext :=
  { c with queue := c.queue ++ [task] }

/-- `dx_send_data`: it fails if the socket is closed. -/
def sendData (c : ConnectionContext) (message : Message) : ConnectionContext :=
  if c.socketOpen then { c with sent := c.sent ++ [message] } else c

/-- `dx_describe_protocol_sent`. -/
def describeProtocolSent (c : ConnectionContext) : ConnectionContext × List MarkedBranch :=
  match c.status with
  | .notReceived | .pending => (c, [.describeProtocolSent])
  | .notSent =>
      (addWorkerThreadTask { c with status := .pending } .describeProtocolTimeoutCountdown, [])
  | .received => (c, [])

@[simp] theorem describeProtocolSent_reader (c : ConnectionContext) :
    (describeProtocolSent c).1.reader = c.reader := by
  unfold describeProtocolSent
  split <;> rfl

@[simp] theorem describeProtocolSent_creator (c : ConnectionContext) :
    (describeProtocolSent c).1.creator = c.creator := by
  unfold describeProtocolSent
  split <;> rfl

/-- `dx_write_event_records`: the records from `newRecordId` on. -/
def writeEventRecords (c : ConnectionContext) : List ℕ :=
  List.range' c.newRecordId (c.recordCount - c.newRecordId)

/-- The queue thread processes the first task.  `timedOut` tells whether the time of the countdown
is over, `supported` whether the server supports the messages of a subscription. -/
def executeHead (c : ConnectionContext) (timedOut supported : Bool) :
    ConnectionContext × List MarkedBranch :=
  match c.queue with
  | [] => (c, [])
  | .describeProtocolSender :: queue => (sendData { c with queue := queue } .describeProtocol, [])
  | .describeProtocolTimeoutCountdown :: queue =>
      match c.status with
      | .notSent | .notReceived => (c, [.describeProtocolTimeoutCountdown])
      | .received => ({ c with queue := queue }, [])
      | .pending =>
          if timedOut then ({ c with queue := queue, status := .notReceived }, []) else (c, [])
  | .describeRecordsSender :: queue =>
      (sendData { c with queue := queue, newRecordId := max c.newRecordId c.recordCount }
        (.describeRecords (writeEventRecords c)), [])
  | .subscribeSymbolsToEvents records :: queue =>
      match c.status with
      | .pending => ({ c with queue := queue }, [.subscribeSymbolsToEvents])
      | .notSent => ({ c with queue := queue }, [])
      | .received | .notReceived =>
          if supported then (sendData { c with queue := queue } (.subscription records), [])
          else ({ c with queue := queue }, [])

/-- A subscription of `dx_process_connection_subscriptions`; its records are added to the list. -/
def resubscribe (c : ConnectionContext) (newRecords : ℕ) (records : List ℕ) : ConnectionContext :=
  let c := { c with recordCount := c.recordCount + newRecords }
  if c.status = .notSent then c else addWorkerThreadTask c (.subscribeSymbolsToEvents records)

/-- The steps of the threads. -/
inductive Label
  /-- `dx_send_protocol_description` of the creating thread, in its two parts. -/
  | createQueuesProtocol
  | createSent
  | createQueuesRecords
  /-- The connection is lost, and the socket closed, or it stays open as a login is required. -/
  | lose (closed : Bool)
  /-- The calls of `dx_reestablish_connection`, which fails and starts again. -/
  | cleanupTaskQueue
  | clearServerInfo
  | connect
  | reestablishFails
  | reestablishQueuesProtocol
  | reestablishSent
  | reestablishQueuesRecords
  | resubscribe (newRecords : ℕ) (records : List ℕ)
  | reestablished
  /-- `dx_process_describe_protocol`. -/
  | receiveDescription (loginRequired : Bool)
  /-- The parts of `dxf_add_symbols`; the number is the place of the call in the list. -/
  | apiLoadsEvents (newRecords : ℕ) (records : List ℕ)
  | apiQueuesRecords (i : ℕ)
  | apiChecks (i : ℕ)
  | apiQueuesSubscription (i : ℕ)
  /-- The queue thread. -/
  | execute (timedOut supported : Bool)
  deriving DecidableEq

/-- The records are in a list of the given size. -/
def InList (recordCount : ℕ) (records : List ℕ) : Prop := ∀ id ∈ records, id < recordCount

instance (recordCount : ℕ) (records : List ℕ) : Decidable (InList recordCount records) :=
  inferInstanceAs (Decidable (∀ _ ∈ _, _))

/-- A step, and the marked branches that it takes.  A thread that is not at the point in front of
the step does nothing. -/
def step (c : ConnectionContext) : Label → ConnectionContext × List MarkedBranch
  | .createQueuesProtocol =>
      if c.creator = .bound then
        ({ addWorkerThreadTask c .describeProtocolSender with creator := .protocolQueued }, [])
      else (c, [])
  | .createSent =>
      if c.creator = .protocolQueued then
        ({ (describeProtocolSent c).1 with
            creator := if (describeProtocolSent c).2 = [] then .protocolSent else .failed },
          (describeProtocolSent c).2)
      else (c, [])
  | .createQueuesRecords =>
      if c.creator = .protocolSent then
        ({ addWorkerThreadTask c .describeRecordsSender with creator := .done }, [])
      else (c, [])
  | .lose closed =>
      if c.reader = .reading ∧ (closed = true ∨ c.loginRequired = true) then
        ({ c with
            reader := .idle
            socketOpen := c.socketOpen && !closed
            loginRequired := c.loginRequired && !closed }, [])
      else (c, [])
  | .cleanupTaskQueue =>
      if c.reader = .idle then ({ c with reader := .queueCleaned, queue := [] }, []) else (c, [])
  | .clearServerInfo =>
      if c.reader = .queueCleaned ∧ c.loginRequired = false then
        ({ c with reader := .serverInfoCleared, status := .notSent, newRecordId := 0 }, [])
      else (c, [])
  | .connect =>
      if c.reader = .serverInfoCleared then
        ({ c with reader := .connected, socketOpen := true, sent := [] }, [])
      else (c, [])
  | .reestablishFails =>
      if c.reader = .serverInfoCleared then ({ c with reader := .idle }, []) else (c, [])
  | .reestablishQueuesProtocol =>
      if c.reader = .connected ∨ c.reader = .queueCleaned ∧ c.loginRequired = true then
        ({ addWorkerThreadTask c .describeProtocolSender with reader := .protocolQueued }, [])
      else (c, [])
  | .reestablishSent =>
      if c.reader = .protocolQueued then
        ({ (describeProtocolSent c).1 with
            reader := if (describeProtocolSent c).2 = [] then .protocolSent else .idle },
          (describeProtocolSent c).2)
      else (c, [])
  | .reestablishQueuesRecords =>
      if c.reader = .protocolSent then
        ({ addWorkerThreadTask c .describeRecordsSender with reader := .recordsQueued }, [])
      else (c, [])
  | .resubscribe newRecords records =>
      if c.reader = .recordsQueued ∧ InList (c.recordCount + newRecords) records then
        (resubscribe c newRecords records, [])
      else (c, [])
  | .reestablished =>
      if c.reader = .recordsQueued then ({ c with reader := .reading }, []) else (c, [])
  | .receiveDescription loginRequired =>
      if c.reader = .reading then
        ({ c with
            status := if loginRequired then .pending else .received
            loginRequired := loginRequired }, [])
      else (c, [])
  | .apiLoadsEvents newRecords records =>
      if c.creator = .done ∧ InList (c.recordCount + newRecords) records then
        ({ c with
            recordCount := c.recordCount + newRecords
            calls := c.calls ++ [.eventsLoaded records] }, [])
      else (c, [])
  | .apiQueuesRecords i =>
      match c.calls[i]? with
      | some (.eventsLoaded records) =>
          ({ addWorkerThreadTask c .describeRecordsSender with
              calls := c.calls.set i (.recordsQueued records) }, [])
      | _ => (c, [])
  | .apiChecks i =>
      match c.calls[i]? with
      | some (.recordsQueued records) =>
          -- a subscription is made again when the connection is reestablished
          if c.status = .notSent then ({ c with calls := c.calls.eraseIdx i }, [])
          else ({ c with calls := c.calls.set i (.checked records) }, [])
      | _ => (c, [])
  | .apiQueuesSubscription i =>
      match c.calls[i]? with
      | some (.checked records) =>
          ({ addWorkerThreadTask c (.subscribeSymbolsToEvents records) with
              calls := c.calls.eraseIdx i }, [])
      | _ => (c, [])
  | .execute timedOut supported => executeHead c timedOut supported

end DxFeed.Connection
