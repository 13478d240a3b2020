import DxFeed.EventData

/-!
# Event subscriptions of a connection

The subscriptions of `EventSubscription.cpp` and the calls that change them.

* `Context`: the symbol entries and the subscriptions of one connection;
* `createEventSubscription`, `closeEventSubscription`, `addSymbols`, `removeSymbols`,
  `addListener`, `removeListener`, `addOrderSource`, `clearOrderSource`;
* `processEventData`: which listeners an event calls.

Unordered containers are lists without repetitions, and a symbol entry is found by its name
where the source keeps a pointer to it.  A handle that is closed is as invalid as
`dx_invalid_subscription`.  Allocations succeed, and listeners do not change subscriptions.
-/

namespace DxFeed.EventSubscription

abbrev SubscriptionId := ℕ
abbrev ListenerPtr := ℕ

/-- Symbols and sources are equal if their units are. -/
scoped instance : LawfulBEq WString := inferInstance

/-- The symbol `*`. -/
def wildcardSymbol : WString := [42]

inductive ErrorCode
  | invalidEventType
  | invalidSubscrId
  | invalidListener
  | internalAssertViolation
  deriving DecidableEq, Repr

inductive EventListenerVersion
  | default
  | v2
  deriving DecidableEq, Repr

/-- `ListenerContext`; two of them are equal if they have the same listener. -/
structure ListenerContext where
  listener : ListenerPtr
  version : EventListenerVersion
  userData : ℕ
  deriving DecidableEq, Repr

/-- The data of an event; `source` is the source of an order. -/
structure EventData (D : Type) where
  source : WString
  fields : D
  deriving DecidableEq, Repr

/-- The arguments of `dx_process_event_data`. -/
structure Event (D : Type) where
  eventId : EventId
  symbolName : WString
  data : EventData D
  params : EventParams
  deriving DecidableEq

/-- `SymbolData`; the reference count is in the range of `int`, that is, fewer than 2^31 subscriptions
share a symbol. -/
structure SymbolData (D : Type) where
  refCount : ℤ
  subscriptions : List SubscriptionId
  lastEvents : EventId → Option (EventData D)

/-- `SubscriptionData`. -/
structure SubscriptionData where
  eventTypes : ℕ
  symbols : List WString
  listeners : List ListenerContext
  orderSource : List WString
  subscriptionFlags : ℕ
  time : ℤ
  deriving DecidableEq, Repr

/-- `EventSubscriptionConnectionContext`; `created` counts the handles given out. -/
structure Context (D : Type) where
  symbols : WString → Option (SymbolData D)
  subscriptions : SubscriptionId → Option SubscriptionData
  created : ℕ

variable {D : Type}

/-- `SymbolData::create`. -/
def SymbolData.create : SymbolData D where
  refCount := 0
  subscriptions := []
  lastEvents _ := none

/-- `SymbolData::storeLastSymbolEvent`. -/
def SymbolData.storeLastSymbolEvent (d : SymbolData D) (eventId : EventId) (data : EventData D) :
    SymbolData D :=
  { d with lastEvents := Function.update d.lastEvents eventId (some data) }

namespace Context

/-- The context of a new connection. -/
def empty : Context D where
  symbols _ := none
  subscriptions _ := none
  created := 0

variable (ctx : Context D)

def setSymbol (symbolName : WString) (d : Option (SymbolData D)) : Context D :=
  { ctx with symbols := Function.update ctx.symbols symbolName d }

def setSubscription (id : SubscriptionId) (s : Option SubscriptionData) : Context D :=
  { ctx with subscriptions := Function.update ctx.subscriptions id s }

/-! ### Symbol entries -/

/-- `subscribeSymbol`. -/
def subscribeSymbol (symbolName : WString) (owner : SubscriptionId) : Context D :=
  let res := (ctx.symbols symbolName).getD .create
  if owner ∈ res.subscriptions then ctx.setSymbol symbolName (some res)
  else
    ctx.setSymbol symbolName (some { res with
      subscriptions := res.subscriptions ++ [owner]
      refCount := res.refCount + 1 })

/-- `unsubscribeSymbol`. -/
def unsubscribeSymbol (symbolName : WString) (owner : SubscriptionId) :
    Context D × Option ErrorCode :=
  match ctx.symbols symbolName with
  | none => (ctx, some .internalAssertViolation)
  | some d =>
      let res := if owner ∈ d.subscriptions then none else some .internalAssertViolation
      if d.refCount - 1 = 0 then (ctx.setSymbol symbolName none, res)
      else
        (ctx.setSymbol symbolName (some { d with
          subscriptions := d.subscriptions.erase owner
          refCount := d.refCount - 1 }), res)

/-! ### Order sources -/

/-- `dx_all_order_sources`. -/
def allOrderSources : List WString :=
  ["NTV", "ntv", "NFX", "ESPD", "XNFI", "ICE", "ISE", "DEA", "DEX", "BYX", "BZX", "BATE", "CHIX",
    "CEUX", "BXTR", "IST", "BI20", "ABE", "FAIR", "GLBX", "glbx", "ERIS", "XEUR", "xeur", "CFE",
    "C2OX", "SMFE", "smfe", "iex", "MEMX", "memx"].map fun source =>
      source.toList.map fun c => c.toNat.toUInt16

/-- The end of `dx_add_order_source`. -/
def insertOrderSource (sources : List WString) (source : WString) : List WString :=
  if source ∈ sources then sources else sources ++ [source]

/-- `dx_add_order_source`. -/
def addOrderSource (id : SubscriptionId) (source : WString) : Context D × Option ErrorCode :=
  match ctx.subscriptions id with
  | none => (ctx, some .invalidSubscrId)
  | some s =>
      (ctx.setSubscription id (some { s with
        orderSource := insertOrderSource s.orderSource source }), none)

/-- `dx_clear_order_source`. -/
def clearOrderSource (id : SubscriptionId) : Context D :=
  match ctx.subscriptions id with
  | none => ctx
  | some s => ctx.setSubscription id (some { s with orderSource := [] })

/-! ### Subscriptions -/

/-- The order sources of a new subscription; the empty one is for market makers. -/
def initialOrderSource (eventTypes : ℕ) : List WString :=
  if eventTypes &&& EventId.order.bitMask ≠ 0 then
    (allOrderSources ++ [[]]).foldl insertOrderSource []
  else []

/-- `dx_create_event_subscription`. -/
def createEventSubscription (eventTypes subscrFlags : ℕ) (time : ℤ) :
    Context D × Except ErrorCode SubscriptionId :=
  if eventTypes &&& EventId.unusedMask ≠ 0 then (ctx, .error .invalidEventType)
  else
    ({ ctx with
        subscriptions := Function.update ctx.subscriptions ctx.created
          (some ⟨eventTypes, [], [], initialOrderSource eventTypes, subscrFlags, time⟩)
        created := ctx.created + 1 }, .ok ctx.created)

/-- One round of the loop of `dx_add_symbols`. -/
def addSymbol (id : SubscriptionId) (symbol : Option WString) : Context D :=
  match ctx.subscriptions id, symbol with
  | none, _ | _, none => ctx
  | some s, some symbolName =>
      if symbolName = [] ∨ symbolName ∈ s.symbols then ctx
      else
        (ctx.subscribeSymbol symbolName id).setSubscription id
          (some { s with symbols := s.symbols ++ [symbolName] })

/-- `dx_add_symbols`. -/
def addSymbols (id : SubscriptionId) (symbols : List (Option WString)) :
    Context D × Option ErrorCode :=
  match ctx.subscriptions id with
  | none => (ctx, some .invalidSubscrId)
  | some _ => (symbols.foldl (fun ctx symbol => ctx.addSymbol id symbol) ctx, none)

/-- One round of the loop of `dx_remove_symbols`. -/
def removeSymbol (id : SubscriptionId) (symbol : Option WString) : Context D × Option ErrorCode :=
  match ctx.subscriptions id, symbol with
  | none, _ | _, none => (ctx, none)
  | some s, some symbolName =>
      if symbolName = [] ∨ symbolName ∉ s.symbols then (ctx, none)
      else
        match ctx.unsubscribeSymbol symbolName id with
        | (ctx, some error) => (ctx, some error)
        | (ctx, none) =>
            (ctx.setSubscription id (some { s with symbols := s.symbols.erase symbolName }), none)

/-- The loop of `dx_remove_symbols`. -/
def removeSymbolsLoop (id : SubscriptionId) :
    List (Option WString) → Context D → Context D × Option ErrorCode
  | [], ctx => (ctx, none)
  | symbol :: symbols, ctx =>
      match ctx.removeSymbol id symbol with
      | (ctx, some error) => (ctx, some error)
      | (ctx, none) => removeSymbolsLoop id symbols ctx

/-- `dx_remove_symbols`. -/
def removeSymbols (id : SubscriptionId) (symbols : List (Option WString)) :
    Context D × Option ErrorCode :=
  match ctx.subscriptions id with
  | none => (ctx, some .invalidSubscrId)
  | some _ => removeSymbolsLoop id symbols ctx

/-- The loop of `closeEventSubscription`; an error does not end it. -/
def unsubscribeAll (id : SubscriptionId) :
    List WString → Context D → Context D × Option ErrorCode
  | [], ctx => (ctx, none)
  | symbolName :: symbols, ctx =>
      let (ctx, error) := ctx.unsubscribeSymbol symbolName id
      let (ctx, later) := unsubscribeAll id symbols ctx
      (ctx, later <|> error)

/-- `dx_close_event_subscription`. -/
def closeEventSubscription (id : SubscriptionId) : Context D × Option ErrorCode :=
  match ctx.subscriptions id with
  | none => (ctx, some .invalidSubscrId)
  | some s =>
      let (ctx, error) := unsubscribeAll id s.symbols ctx
      (ctx.setSubscription id none, error)

/-- `dx_set_event_subscription_flags`. -/
def setEventSubscriptionFlags (id : SubscriptionId) (subscrFlags : ℕ) :
    Context D × Option ErrorCode :=
  match ctx.subscriptions id with
  | none => (ctx, some .invalidSubscrId)
  | some s => (ctx.setSubscription id (some { s with subscriptionFlags := subscrFlags }), none)

/-! ### Listeners -/

/-- `dx_add_listener_impl`; `none` is a null pointer. -/
def addListener (id : SubscriptionId) (listener : Option ListenerPtr)
    (version : EventListenerVersion) (userData : ℕ) : Context D × Option ErrorCode :=
  match ctx.subscriptions id, listener with
  | none, _ => (ctx, some .invalidSubscrId)
  | _, none => (ctx, some .invalidListener)
  | some s, some listener =>
      if listener ∈ s.listeners.map ListenerContext.listener then (ctx, none)
      else
        (ctx.setSubscription id (some { s with
          listeners := s.listeners ++ [⟨listener, version, userData⟩] }), none)

/-- `dx_remove_listener_impl`. -/
def removeListener (id : SubscriptionId) (listener : Option ListenerPtr) :
    Context D × Option ErrorCode :=
  match ctx.subscriptions id, listener with
  | none, _ => (ctx, some .invalidSubscrId)
  | _, none => (ctx, some .invalidListener)
  | some s, some listener =>
      (ctx.setSubscription id (some { s with
        listeners := s.listeners.filter fun l => l.listener ≠ listener }), none)

end Context

/-! ### Events -/

/-- A call of a listener, with the subscription on whose behalf it is made. -/
structure ListenerCall (D : Type) where
  subscription : SubscriptionId
  listener : ListenerContext
  eventType : ℕ
  symbolName : WString
  data : EventData D
  params : Option EventParams
  deriving DecidableEq

/-- The call that passes an event to a listener; only the second version takes parameters. -/
def listenerCall (id : SubscriptionId) (event : Event D) (l : ListenerContext) : ListenerCall D where
  subscription := id
  listener := l
  eventType := event.eventId.bitMask
  symbolName := event.symbolName
  data := event.data
  params := match l.version with
    | .default => none
    | .v2 => some event.params

/-- `dx_call_subscr_listeners`. -/
def callSubscrListeners (id : SubscriptionId) (s : SubscriptionData) (event : Event D) :
    List (ListenerCall D) :=
  if event.symbolName ∈ s.symbols then s.listeners.map (listenerCall id event) else []

/-- The round of `pass_event_data_to_listeners` for one subscription. -/
def passToSubscription (ctx : Context D) (event : Event D) (id : SubscriptionId) :
    List (ListenerCall D) :=
  match ctx.subscriptions id with
  | none => []
  | some s =>
      if s.eventTypes &&& event.eventId.bitMask = 0 then []
      else if event.eventId = .order ∧ 0 < s.orderSource.length then
        if event.data.source ∈ s.orderSource then callSubscrListeners id s event else []
      else callSubscrListeners id s event

namespace Context

/-- `pass_event_data_to_listeners` for the entry of `symbolName`, after its last event has been
stored. -/
def passEventDataToListeners (ctx : Context D) (event : Event D) (symbolName : WString) :
    Context D × List (ListenerCall D) :=
  match ctx.symbols symbolName with
  | none => (ctx, [])
  | some d =>
      let d := d.storeLastSymbolEvent event.eventId event.data
      let calls := d.subscriptions.flatMap (passToSubscription ctx event)
      if d.refCount + 1 - 1 = 0 then (ctx.setSymbol symbolName none, calls)
      else (ctx.setSymbol symbolName (some d), calls)

/-- `dx_process_event_data`. -/
def processEventData (ctx : Context D) (event : Event D) : Context D × List (ListenerCall D) :=
  let (ctx, calls) := ctx.passEventDataToListeners event event.symbolName
  let (ctx, wildcardCalls) := ctx.passEventDataToListeners event wildcardSymbol
  (ctx, calls ++ wildcardCalls)

end Context

/-- A call to the subscriptions of a connection. -/
inductive ApiCall (D : Type)
  | createSubscription (eventTypes subscrFlags : ℕ) (time : ℤ)
  | closeSubscription (id : SubscriptionId)
  | addSymbols (id : SubscriptionId) (symbols : List (Option WString))
  | removeSymbols (id : SubscriptionId) (symbols : List (Option WString))
  | setFlags (id : SubscriptionId) (subscrFlags : ℕ)
  | addListener (id : SubscriptionId) (listener : Option ListenerPtr)
      (version : EventListenerVersion) (userData : ℕ)
  | removeListener (id : SubscriptionId) (listener : Option ListenerPtr)
  | addOrderSource (id : SubscriptionId) (source : WString)
  | clearOrderSource (id : SubscriptionId)
  | processEventData (event : Event D)

/-- The context after a call. -/
def Context.apply (ctx : Context D) : ApiCall D → Context D
  | .createSubscription eventTypes subscrFlags time =>
      (ctx.createEventSubscription eventTypes subscrFlags time).1
  | .closeSubscription id => (ctx.closeEventSubscription id).1
  | .addSymbols id symbols => (ctx.addSymbols id symbols).1
  | .removeSymbols id symbols => (ctx.removeSymbols id symbols).1
  | .setFlags id subscrFlags => (ctx.setEventSubscriptionFlags id subscrFlags).1
  | .addListener id listener version userData => (ctx.addListener id listener version userData).1
  | .removeListener id listener => (ctx.removeListener id listener).1
  | .addOrderSource id source => (ctx.addOrderSource id source).1
  | .clearOrderSource id => ctx.clearOrderSource id
  | .processEventData event => (ctx.processEventData event).1

/-- The context of a connection after some calls. -/
def Context.after (calls : List (ApiCall D)) : Context D :=
  calls.foldl Context.apply .empty

end DxFeed.EventSubscription
