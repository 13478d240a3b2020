import DxFeed.EventSubscription.ServerInterests

/-!
# The tasks of the subscription calls

A call of `DXFeed.c` puts its messages into tasks, and the queue thread sends them later.  The
server supports the types of the messages, or its description has not come yet when a call is made;
allocations succeed, and the messages of a task are composed and sent.

* `TaskData`, `createTaskData`: a task, with copies of what its messages are made from;
* `Worker`: a connection with the tasks of its queue and the messages of its session, and the calls
  on it;
* `Worker.drained`: the connection after all tasks; a call on it is a call that sends its messages
  at once.
-/

namespace DxFeed.EventSubscription

variable {D : Type}

/-! ### Tasks -/

/-- `dx_event_subscription_task_data_t`. -/
structure TaskData where
  kind : MessageKind
  orderSource : List WString
  symbols : List WString
  eventTypes : ℕ
  subscrFlags : ℕ
  time : ℤ

/-- `dx_create_event_subscription_task_data`: empty symbols are left out. -/
def createTaskData (kind : MessageKind) (s : SubscriptionData) (symbols : List WString)
    (subscrFlags : ℕ) : TaskData where
  kind := kind
  orderSource := s.orderSource
  symbols := symbols.filter (· ≠ [])
  eventTypes := s.eventTypes
  subscrFlags := subscrFlags
  time := s.time

/-- What `dx_subscribe_symbols_to_events_task` sends. -/
def TaskData.messages (task : TaskData) : List Message :=
  subscribeSymbolsToEvents task.kind
    ⟨task.eventTypes, [], [], task.orderSource, task.subscrFlags, task.time⟩ task.symbols
    task.subscrFlags

@[simp] theorem messages_createTaskData (kind : MessageKind) (s : SubscriptionData)
    (symbols : List WString) (subscrFlags : ℕ) :
    (createTaskData kind s symbols subscrFlags).messages =
      subscribeSymbolsToEvents kind s symbols subscrFlags := by
  simp [TaskData.messages, createTaskData, subscribeSymbolsToEvents]

/-! ### Calls -/

/-- The connection, its task queue, and the messages of the session, the oldest first. -/
structure Worker (D : Type) where
  ctx : Context D
  tasks : List TaskData
  sent : List Message

namespace Worker

def empty : Worker D := ⟨Context.empty, [], []⟩

/-- `dx_subscribe_symbols_to_events` outside of the queue thread, where
`dx_get_event_server_support` answers neither `dx_mss_not_supported`, with which the call fails, nor
`dx_mss_reconnection`, with which it succeeds without a task. -/
def subscribe (w : Worker D) (kind : MessageKind) (s : SubscriptionData) (symbols : List WString)
    (subscrFlags : ℕ) : Worker D :=
  { w with tasks := w.tasks ++ [createTaskData kind s symbols subscrFlags] }

/-- `dxf_create_subscription_impl`. -/
def createSubscription (eventTypes subscrFlags : ℕ) (time : ℤ) (w : Worker D) : Worker D :=
  { w with ctx := (w.ctx.createEventSubscription eventTypes subscrFlags time).1 }

variable (id : SubscriptionId)

/-- `dx_close_subscription`. -/
def closeSubscription (w : Worker D) : Worker D × Bool :=
  match w.ctx.subscriptions id with
  | none => (w, false)
  | some s =>
      let w := w.subscribe .remove s s.symbols s.subscriptionFlags
      let (ctx, error) := w.ctx.closeEventSubscription id
      ({ w with ctx := ctx }, error.isNone)

/-- `dxf_clear_symbols`. -/
def clearSymbols (w : Worker D) : Worker D × Bool :=
  match w.ctx.subscriptions id with
  | none => (w, false)
  | some s =>
      let w := w.subscribe .remove s s.symbols s.subscriptionFlags
      match w.ctx.removeSymbols id (s.symbols.map some) with
      | (ctx, some _) => ({ w with ctx := ctx }, false)
      | (ctx, none) =>
          if isFlagSet s.subscriptionFlags SubscrFlag.wildcard then
            let (ctx, error) := ctx.setEventSubscriptionFlags id
              (s.subscriptionFlags ^^^ SubscrFlag.wildcard)
            ({ w with ctx := ctx }, error.isNone)
          else ({ w with ctx := ctx }, true)

/-- The end of `dxf_add_symbols`. -/
def addSubscrSymbols (subscrSymbols : List WString) (subscrFlags : ℕ) (w : Worker D) :
    Worker D × Bool :=
  match w.ctx.subscriptions id with
  | none => (w, false)
  | some s =>
      match w.ctx.addSymbols id (subscrSymbols.map some) with
      | (ctx, some _) => ({ w with ctx := ctx }, false)
      | (ctx, none) =>
          (subscribe { w with ctx := ctx } .add s subscrSymbols subscrFlags, true)

/-- `dxf_add_symbols`. -/
def addSymbols (symbols : List WString) (w : Worker D) : Worker D × Bool :=
  if symbols = [] then (w, true)
  else
    match w.ctx.subscriptions id with
    | none => (w, false)
    | some s =>
        if isFlagSet s.subscriptionFlags SubscrFlag.wildcard then (w, true)
        else if symbols.any isWildcard then
          match clearSymbols id w with
          | (w, false) => (w, false)
          | (w, true) =>
              addSubscrSymbols id [wildcardSymbol] (s.subscriptionFlags ^^^ SubscrFlag.wildcard) w
        else addSubscrSymbols id symbols s.subscriptionFlags w

/-- `dxf_remove_symbols`. -/
def removeSymbols (symbols : List WString) (w : Worker D) : Worker D × Bool :=
  match w.ctx.subscriptions id with
  | none => (w, false)
  | some s =>
      if s.symbols = [] then (w, true)
      else if symbols.any isWildcard then clearSymbols id w
      else if isFlagSet s.subscriptionFlags SubscrFlag.wildcard then (w, true)
      else
        let w := w.subscribe .remove s symbols s.subscriptionFlags
        let (ctx, error) := w.ctx.removeSymbols id (symbols.map some)
        ({ w with ctx := ctx }, error.isNone)

/-- `dxf_set_symbols`. -/
def setSymbols (symbols : List WString) (w : Worker D) : Worker D × Bool :=
  match clearSymbols id w with
  | (w, false) => (w, false)
  | (w, true) => addSymbols id symbols w

/-! ### The queue thread and the reader thread -/

/-- A round of `dx_queue_executor`: one task. -/
def executeTask (w : Worker D) : Worker D :=
  match w.tasks with
  | [] => w
  | task :: tasks => ⟨w.ctx, tasks, w.sent ++ task.messages⟩

/-- `dx_server_event_subscription_refresher`, for a subscription that may be closed. -/
def refreshSubscription (w : Worker D) (id : SubscriptionId) : Worker D :=
  match w.ctx.subscriptions id with
  | none => w
  | some s => w.subscribe .refresh s s.symbols s.subscriptionFlags

/-- `dx_reestablish_connection` on a new session: the tasks of the old one are dropped. -/
def reestablishConnection (w : Worker D) : Worker D :=
  (List.range w.ctx.created).foldl refreshSubscription { w with tasks := [], sent := [] }

/-! ### The connection after all tasks -/

/-- All tasks are done. -/
def drained (w : Worker D) : Client D :=
  ⟨w.ctx, w.sent ++ w.tasks.flatMap TaskData.messages⟩

variable {id} {w : Worker D} {symbols : List WString} {subscrFlags : ℕ}

@[simp] theorem drained_ctx : w.drained.ctx = w.ctx := rfl

/-- A task is as good as its messages. -/
theorem drained_subscribe (kind : MessageKind) (s : SubscriptionData) :
    (w.subscribe kind s symbols subscrFlags).drained =
      ⟨w.ctx, w.drained.sent ++ subscribeSymbolsToEvents kind s symbols subscrFlags⟩ := by
  simp [drained, subscribe]

@[simp] theorem drained_setCtx (ctx : Context D) :
    drained { w with ctx := ctx } = ⟨ctx, w.drained.sent⟩ := rfl

@[simp] theorem drained_executeTask : w.executeTask.drained = w.drained := by
  unfold executeTask
  cases htasks : w.tasks with
  | nil => rfl
  | cons task tasks => simp [drained, htasks]

theorem drained_clearSymbols :
    dxfClearSymbols id w.drained = ((clearSymbols id w).1.drained, (clearSymbols id w).2) := by
  unfold dxfClearSymbols clearSymbols
  simp only [drained_ctx]
  cases w.ctx.subscriptions id with
  | none => rfl
  | some s =>
      simp only [subscribe]
      cases w.ctx.removeSymbols id (s.symbols.map some) with
      | mk ctx error =>
          cases error with
          | some error => simp [drained]
          | none =>
              simp only
              split_ifs
              · simp [drained]
              · simp [drained]

theorem drained_addSubscrSymbols :
    EventSubscription.addSubscrSymbols id symbols subscrFlags w.drained =
      ((addSubscrSymbols id symbols subscrFlags w).1.drained,
        (addSubscrSymbols id symbols subscrFlags w).2) := by
  unfold EventSubscription.addSubscrSymbols addSubscrSymbols
  simp only [drained_ctx]
  cases w.ctx.subscriptions id with
  | none => rfl
  | some s =>
      simp only
      cases w.ctx.addSymbols id (symbols.map some) with
      | mk ctx error =>
          cases error with
          | some error => rfl
          | none => simp [drained, subscribe]

theorem drained_addSymbols :
    dxfAddSymbols id symbols w.drained =
      ((addSymbols id symbols w).1.drained, (addSymbols id symbols w).2) := by
  unfold dxfAddSymbols addSymbols
  simp only [drained_ctx]
  by_cases hnil : symbols = []
  · simp only [if_pos hnil]
  · simp only [if_neg hnil]
    cases w.ctx.subscriptions id with
    | none => rfl
    | some s =>
        simp only
        split_ifs
        · rfl
        · rw [drained_clearSymbols]
          cases clearSymbols id w with
          | mk w' done =>
              cases done with
              | false => rfl
              | true => exact drained_addSubscrSymbols
        · exact drained_addSubscrSymbols

theorem drained_removeSymbols :
    dxfRemoveSymbols id symbols w.drained =
      ((removeSymbols id symbols w).1.drained, (removeSymbols id symbols w).2) := by
  unfold dxfRemoveSymbols removeSymbols
  simp only [drained_ctx]
  cases w.ctx.subscriptions id with
  | none => rfl
  | some s =>
      simp only
      split_ifs
      · rfl
      · exact drained_clearSymbols
      · rfl
      · simp [drained, subscribe]

theorem drained_setSymbols :
    dxfSetSymbols id symbols w.drained =
      ((setSymbols id symbols w).1.drained, (setSymbols id symbols w).2) := by
  unfold dxfSetSymbols setSymbols
  rw [drained_clearSymbols]
  cases clearSymbols id w with
  | mk w' done =>
      cases done with
      | false => rfl
      | true => exact drained_addSymbols

end Worker

end DxFeed.EventSubscription
