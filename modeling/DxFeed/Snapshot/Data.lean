import DxFeed.Library.Run
import DxFeed.Snapshot.Records

/-!
# Snapshots and their listeners

* `SnapshotData`: the state of a snapshot, with the records of the snapshot and the records of
  the current transaction;
* `eventListener`: what an event does to it, and which listeners it calls;
* `addSnapshotListener`, `addSnapshotIncListener` and the calls that remove listeners;
* `step`: one call of any of these.
-/

namespace DxFeed.Snapshot

open Run

/-- `dx_snapshot_status_t`. -/
inductive Status
  | unknown
  | begin
  | full
  | pending
  deriving DecidableEq, Repr

abbrev ListenerPtr := ℕ

/-- `dx_snapshot_listener_context_t`. -/
structure ListenerContext where
  incremental : Bool
  fullSnapshotSeen : Bool
  listener : ListenerPtr
  userData : ℕ
  deriving DecidableEq, Repr

/-- `dx_snapshot_data_t`. -/
structure SnapshotData (S D : Type) where
  key : ℕ
  kind : SnapshotKind
  eventType : ℕ
  symbol : WString
  status : Status
  fullSnapshotPublished : Bool
  snapshotRecords : SnapshotRecords S D
  lastTxRecords : SnapshotRecords S D
  listeners : List ListenerContext
  hasIncListeners : Bool

/-- A call of a listener; `newSnapshot` is the flag that an incremental listener is given. -/
structure Delivery (S D : Type) where
  incremental : Bool
  listener : ListenerPtr
  userData : ℕ
  newSnapshot : Bool
  eventType : ℕ
  symbol : WString
  records : List (Event S D)

variable {S D : Type}

/-- `dx_create_snapshot`. -/
def createSnapshot (key : ℕ) (kind : SnapshotKind) (eventType : ℕ) (symbol : WString) :
    SnapshotData S D where
  key := key
  kind := kind
  eventType := eventType
  symbol := symbol
  status := .full
  fullSnapshotPublished := true
  snapshotRecords := .empty
  lastTxRecords := .empty
  listeners := []
  hasIncListeners := false

/-! ### Events -/

section Events

variable [Zero S] [DecidableEq S] (snapshotData : SnapshotData S D) (event : Event S D)

/-- `dx_is_zero_event`. -/
def isZeroEvent (eventId : EventId) (data : EventData S D) : Bool :=
  eventId = .order ∧ data.size = 0

/-- The event is classified as a removal. -/
def isRemoval (eventId : EventId) (event : Event S D) : Bool :=
  isFlagSet event.params.flags EventFlag.removeEvent || isZeroEvent eventId event.data

/-- `dx_is_snapshot_event`. -/
def isSnapshotEvent : Bool :=
  snapshotData.key = event.params.snapshotKey

/-- The event begins a snapshot. -/
def isBegin : Bool :=
  isFlagSet event.params.flags EventFlag.snapshotBegin

/-- The event ends a snapshot. -/
def isEnd : Bool :=
  isFlagSet event.params.flags EventFlag.snapshotEnd ||
    isFlagSet event.params.flags EventFlag.snapshotSnip

/-- The event leaves its transaction pending. -/
def isPending : Bool :=
  isFlagSet event.params.flags EventFlag.txPending

/-- The call of one listener in `dx_snapshot_call_listeners`. -/
def callListener (newSnapshot : Bool) (context : ListenerContext) : Delivery S D :=
  let full := !context.incremental || newSnapshot || !context.fullSnapshotSeen
  { incremental := context.incremental
    listener := context.listener
    userData := context.userData
    newSnapshot := full
    eventType := snapshotData.eventType
    symbol := snapshotData.symbol
    records := (if full then snapshotData.snapshotRecords else snapshotData.lastTxRecords).records }

/-- A listener after it has been called. -/
def ListenerContext.called (context : ListenerContext) : ListenerContext :=
  { context with fullSnapshotSeen := context.fullSnapshotSeen || context.incremental }

/-- `dx_snapshot_call_listeners`. -/
def callListeners (newSnapshot : Bool) : SnapshotData S D × List (Delivery S D) :=
  ({ snapshotData with listeners := snapshotData.listeners.map ListenerContext.called },
    snapshotData.listeners.map (callListener snapshotData newSnapshot))

/-- The part of `event_listener` that clears the snapshot if the event begins one. -/
def beginSnapshot : SnapshotData S D :=
  if isBegin event then
    { snapshotData with
      snapshotRecords := .empty
      lastTxRecords := .empty
      status := .begin
      fullSnapshotPublished := false }
  else snapshotData

/-- The part of `event_listener` that puts the event into the stores. -/
def processEvent : SnapshotData S D :=
  { snapshotData with
    snapshotRecords :=
      if isRemoval snapshotData.kind.eventId event then
        removeEventRecords snapshotData.kind snapshotData.snapshotRecords event
      else updateEventRecords snapshotData.kind snapshotData.snapshotRecords event
    lastTxRecords :=
      if snapshotData.hasIncListeners && snapshotData.fullSnapshotPublished then
        updateEventRecords snapshotData.kind snapshotData.lastTxRecords event
      else snapshotData.lastTxRecords }

/-- The status after an event, from the status before it. -/
def nextStatus (status : Status) : Status :=
  let status := if isEnd event then .full else status
  if isPending event && status = .full then .pending
  else if !isPending event && status = .pending then .full
  else status

/-- The end of `event_listener`: the listeners are called at the end of a transaction. -/
def endTransaction : SnapshotData S D × List (Delivery S D) :=
  if snapshotData.status = .full then
    let (called, deliveries) :=
      callListeners snapshotData (!snapshotData.fullSnapshotPublished)
    ({ called with fullSnapshotPublished := true, lastTxRecords := .empty }, deliveries)
  else (snapshotData, [])

/-- `event_listener`. -/
def eventListener : SnapshotData S D × List (Delivery S D) :=
  if isSnapshotEvent snapshotData event then
    let begun := beginSnapshot snapshotData event
    if begun.status = .unknown then (begun, [])
    else
      let processed := processEvent begun event
      endTransaction { processed with status := nextStatus event processed.status }
  else (snapshotData, [])

end Events

/-! ### Listeners -/

section Listeners

variable (snapshotData : SnapshotData S D)

/-- `dx_find_snapshot_listener_in_array`; `none` is a listener that is not there. -/
def findListener (incremental : Bool) (listener : ListenerPtr) : Option ℕ :=
  snapshotData.listeners.findIdx? fun context =>
    context.incremental = incremental ∧ context.listener = listener

/-- `dx_add_snapshot_listener`; a null listener is `none`. -/
def addSnapshotListener (listener : Option ListenerPtr) (userData : ℕ) : SnapshotData S D :=
  match listener with
  | none => snapshotData
  | some listener =>
      match findListener snapshotData false listener with
      | some _ => snapshotData
      | none =>
          { snapshotData with
            listeners := snapshotData.listeners ++ [⟨false, false, listener, userData⟩] }

/-- `dx_remove_snapshot_listener`. -/
def removeSnapshotListener (listener : Option ListenerPtr) : SnapshotData S D :=
  match listener with
  | none => snapshotData
  | some listener =>
      match findListener snapshotData false listener with
      | none => snapshotData
      | some listenerIndex =>
          { snapshotData with listeners := arrayDelete snapshotData.listeners listenerIndex }

/-- `dx_add_snapshot_inc_listener`. -/
def addSnapshotIncListener (listener : Option ListenerPtr) (userData : ℕ) : SnapshotData S D :=
  match listener with
  | none => snapshotData
  | some listener =>
      match findListener snapshotData true listener with
      | some _ => snapshotData
      | none =>
          { snapshotData with
            listeners := snapshotData.listeners ++ [⟨true, false, listener, userData⟩]
            hasIncListeners := true }

/-- `dx_remove_snapshot_inc_listener`.  The loop that looks for other incremental listeners only
runs while the mark is not set, so the mark stays set. -/
def removeSnapshotIncListener (listener : Option ListenerPtr) : SnapshotData S D :=
  match listener with
  | none => snapshotData
  | some listener =>
      match findListener snapshotData true listener with
      | none => snapshotData
      | some listenerIndex =>
          let listeners := arrayDelete snapshotData.listeners listenerIndex
          { snapshotData with
            listeners := listeners
            hasIncListeners :=
              snapshotData.hasIncListeners || listeners.any ListenerContext.incremental }

end Listeners

/-! ### Runs -/

/-- A call on a snapshot. -/
inductive Action (S D : Type)
  | event (event : Event S D)
  | addListener (listener : Option ListenerPtr) (userData : ℕ)
  | removeListener (listener : Option ListenerPtr)
  | addIncListener (listener : Option ListenerPtr) (userData : ℕ)
  | removeIncListener (listener : Option ListenerPtr)

variable [Zero S] [DecidableEq S]

/-- The snapshot after an action, and the calls of listeners that the action makes. -/
def act (snapshotData : SnapshotData S D) : Action S D → SnapshotData S D × List (Delivery S D)
  | .event event => eventListener snapshotData event
  | .addListener listener userData => (addSnapshotListener snapshotData listener userData, [])
  | .removeListener listener => (removeSnapshotListener snapshotData listener, [])
  | .addIncListener listener userData =>
      (addSnapshotIncListener snapshotData listener userData, [])
  | .removeIncListener listener => (removeSnapshotIncListener snapshotData listener, [])

/-- One step of a run, with a record of the action and of its calls. -/
def step (snapshotData : SnapshotData S D) (action : Action S D) :
    SnapshotData S D × List (Action S D × List (Delivery S D)) :=
  let (next, deliveries) := act snapshotData action
  (next, [(action, deliveries)])

end DxFeed.Snapshot
