import DxFeed.EventSubscription.Context

/-!
# Event subscriptions in memory

The subscriptions of `EventSubscription.cpp` with the pointers between them.  A symbol entry and
a subscription live on the heap: reading one that was freed is a fault, and so is freeing it
again.  The nodes of a set of listeners live there too.

* `SymbolObject`, `SubscriptionObject`, `Heap`;
* `subscribeSymbol`, `unsubscribeSymbol`, `removeSymbolData`;
* `Request`, `Heap.apply`: the calls of a program, or of a listener during its callback.

A program does not pass a handle that it has closed: such a call does nothing here.
-/

namespace DxFeed.EventSubscription

abbrev SymbolPtr := ℕ
abbrev NodePtr := ℕ

/-- A use of memory that was freed. -/
inductive Fault
  | freedSymbolData (p : SymbolPtr)
  | freedSubscription (id : SubscriptionId)
  | erasedListener (id : SubscriptionId) (node : NodePtr)
  deriving DecidableEq, Repr

/-- `SymbolData`, with its name. -/
structure SymbolObject (D : Type) extends SymbolData D where
  name : WString

/-- A node of a set of listeners. -/
structure ListenerNode where
  node : NodePtr
  context : ListenerContext
  deriving DecidableEq, Repr

/-- `SubscriptionData`; `symbols` has the pointers to the entries. -/
structure SubscriptionObject where
  eventTypes : ℕ
  symbols : List (WString × SymbolPtr)
  listeners : List ListenerNode
  orderSource : List WString
  subscriptionFlags : ℕ
  time : ℤ
  deriving DecidableEq, Repr

/-- The symbol entries, the map of the context, and the subscriptions, which are those of the
context; `allocated`, `nodes` and `created` count what was allocated. -/
structure Heap (D : Type) where
  objects : SymbolPtr → Option (SymbolObject D)
  allocated : ℕ
  symbols : WString → Option SymbolPtr
  subscriptions : SubscriptionId → Option SubscriptionObject
  created : ℕ
  nodes : ℕ

/-- The orders that unordered sets choose: where a new listener goes, and in which order a copy
of the subscriptions of an entry is read. -/
structure SetOrder where
  insert : List ListenerNode → ListenerNode → List ListenerNode
  insert_perm : ∀ listeners node, (insert listeners node).Perm (node :: listeners)
  copy : List SubscriptionId → List SubscriptionId
  copy_perm : ∀ subscriptions, (copy subscriptions).Perm subscriptions

/-- New listeners come last, and copies keep the order. -/
def SetOrder.last : SetOrder where
  insert listeners node := listeners ++ [node]
  insert_perm listeners node := List.perm_append_singleton node listeners
  copy := id
  copy_perm _ := List.Perm.refl _

variable {D : Type}

namespace Heap

/-- The heap of a new connection. -/
def empty : Heap D where
  objects _ := none
  allocated := 0
  symbols _ := none
  subscriptions _ := none
  created := 0
  nodes := 0

variable (h : Heap D)

def setObject (p : SymbolPtr) (o : Option (SymbolObject D)) : Heap D :=
  { h with objects := Function.update h.objects p o }

def setSubscription (id : SubscriptionId) (s : Option SubscriptionObject) : Heap D :=
  { h with subscriptions := Function.update h.subscriptions id s }

/-! ### Symbol entries -/

/-- The entry that `subscribeSymbol` finds, or creates. -/
def findOrCreate (symbolName : WString) : Heap D × SymbolPtr :=
  match h.symbols symbolName with
  | some p => (h, p)
  | none =>
      ({ h with
          objects := Function.update h.objects h.allocated
            (some { SymbolData.create with name := symbolName })
          allocated := h.allocated + 1
          symbols := Function.update h.symbols symbolName (some h.allocated) }, h.allocated)

/-- `subscribeSymbol`. -/
def subscribeSymbol (symbolName : WString) (owner : SubscriptionId) :
    Except Fault (Heap D × SymbolPtr) :=
  let (h, p) := h.findOrCreate symbolName
  match h.objects p with
  | none => .error (.freedSymbolData p)
  | some o =>
      if owner ∈ o.subscriptions then .ok (h, p)
      else
        .ok (h.setObject p (some { o with
          subscriptions := o.subscriptions ++ [owner]
          refCount := o.refCount + 1 }), p)

/-- `removeSymbolData`: the entry leaves the map under its name, and is freed. -/
def removeSymbolData (p : SymbolPtr) : Except Fault (Heap D) :=
  match h.objects p with
  | none => .error (.freedSymbolData p)
  | some o =>
      .ok { h with
        symbols := Function.update h.symbols o.name none
        objects := Function.update h.objects p none }

/-- `--(symbolData->refCount) == 0`, and what follows. -/
def release (p : SymbolPtr) : Except Fault (Heap D) :=
  match h.objects p with
  | none => .error (.freedSymbolData p)
  | some o =>
      let h := h.setObject p (some { o with refCount := o.refCount - 1 })
      if o.refCount - 1 = 0 then h.removeSymbolData p else .ok h

/-- `unsubscribeSymbol`, with its result. -/
def unsubscribeSymbol (p : SymbolPtr) (owner : SubscriptionId) : Except Fault (Heap D × Bool) :=
  match h.objects p with
  | none => .error (.freedSymbolData p)
  | some o =>
      let h := h.setObject p (some { o with subscriptions := o.subscriptions.erase owner })
      match h.release p with
      | .error fault => .error fault
      | .ok h => .ok (h, decide (owner ∈ o.subscriptions))

/-! ### Subscriptions -/

/-- `dx_create_event_subscription`. -/
def createEventSubscription (eventTypes subscrFlags : ℕ) (time : ℤ) : Heap D :=
  if eventTypes &&& EventId.unusedMask ≠ 0 then h
  else
    { h with
      subscriptions := Function.update h.subscriptions h.created
        (some ⟨eventTypes, [], [], Context.initialOrderSource eventTypes, subscrFlags, time⟩)
      created := h.created + 1 }

/-- One round of the loop of `dx_add_symbols`. -/
def addSymbol (id : SubscriptionId) (symbol : Option WString) : Except Fault (Heap D) :=
  match h.subscriptions id, symbol with
  | none, _ => .error (.freedSubscription id)
  | _, none => .ok h
  | some s, some symbolName =>
      if symbolName = [] ∨ symbolName ∈ s.symbols.map Prod.fst then .ok h
      else
        match h.subscribeSymbol symbolName id with
        | .error fault => .error fault
        | .ok (h, p) =>
            .ok (h.setSubscription id (some { s with symbols := s.symbols ++ [(symbolName, p)] }))

/-- `dx_add_symbols`. -/
def addSymbols (id : SubscriptionId) : List (Option WString) → Heap D → Except Fault (Heap D)
  | [], h => .ok h
  | symbol :: symbols, h =>
      match h.addSymbol id symbol with
      | .error fault => .error fault
      | .ok h => addSymbols id symbols h

/-- One round of the loop of `dx_remove_symbols`; an entry that does not have the subscription
ends the loop. -/
def removeSymbol (id : SubscriptionId) (symbol : Option WString) :
    Except Fault (Heap D × Bool) :=
  match h.subscriptions id, symbol with
  | none, _ => .error (.freedSubscription id)
  | _, none => .ok (h, true)
  | some s, some symbolName =>
      if symbolName = [] then .ok (h, true)
      else
        match s.symbols.find? fun e => e.1 = symbolName with
        | none => .ok (h, true)
        | some (_, p) =>
            match h.unsubscribeSymbol p id with
            | .error fault => .error fault
            | .ok (h, false) => .ok (h, false)
            | .ok (h, true) =>
                .ok (h.setSubscription id (some { s with
                  symbols := s.symbols.filter fun e => e.1 ≠ symbolName }), true)

/-- `dx_remove_symbols`. -/
def removeSymbols (id : SubscriptionId) : List (Option WString) → Heap D → Except Fault (Heap D)
  | [], h => .ok h
  | symbol :: symbols, h =>
      match h.removeSymbol id symbol with
      | .error fault => .error fault
      | .ok (h, false) => .ok h
      | .ok (h, true) => removeSymbols id symbols h

/-- The loop of `closeEventSubscription`. -/
def unsubscribeAll (id : SubscriptionId) :
    List (WString × SymbolPtr) → Heap D → Except Fault (Heap D)
  | [], h => .ok h
  | (_, p) :: symbols, h =>
      match h.unsubscribeSymbol p id with
      | .error fault => .error fault
      | .ok (h, _) => unsubscribeAll id symbols h

/-- `dx_close_event_subscription`: the subscription is freed, and so are the nodes of its
listeners. -/
def closeEventSubscription (id : SubscriptionId) : Except Fault (Heap D) :=
  match h.subscriptions id with
  | none => .error (.freedSubscription id)
  | some s =>
      match unsubscribeAll id s.symbols h with
      | .error fault => .error fault
      | .ok h => .ok (h.setSubscription id none)

/-! ### Listeners -/

/-- `dx_add_listener_impl`. -/
def addListener (sets : SetOrder) (id : SubscriptionId) (context : ListenerContext) :
    Except Fault (Heap D) :=
  match h.subscriptions id with
  | none => .error (.freedSubscription id)
  | some s =>
      if context.listener ∈ s.listeners.map fun l => l.context.listener then .ok h
      else
        .ok { h.setSubscription id (some { s with
            listeners := sets.insert s.listeners ⟨h.nodes, context⟩ }) with
          nodes := h.nodes + 1 }

/-- `dx_remove_listener_impl`: the node of the listener is freed. -/
def removeListener (id : SubscriptionId) (listener : ListenerPtr) : Except Fault (Heap D) :=
  match h.subscriptions id with
  | none => .error (.freedSubscription id)
  | some s =>
      .ok (h.setSubscription id (some { s with
        listeners := s.listeners.filter fun l => l.context.listener ≠ listener }))

end Heap

/-- A call to the subscriptions of a connection. -/
inductive Request
  | create (eventTypes subscrFlags : ℕ) (time : ℤ)
  | close (id : SubscriptionId)
  | addSymbols (id : SubscriptionId) (symbols : List (Option WString))
  | removeSymbols (id : SubscriptionId) (symbols : List (Option WString))
  | addListener (id : SubscriptionId) (context : ListenerContext)
  | removeListener (id : SubscriptionId) (listener : ListenerPtr)
  deriving DecidableEq

/-- The subscription that a call is about. -/
def Request.target : Request → Option SubscriptionId
  | .create _ _ _ => none
  | .close id => some id
  | .addSymbols id _ => some id
  | .removeSymbols id _ => some id
  | .addListener id _ => some id
  | .removeListener id _ => some id

namespace Heap

/-- The effect of a call on an open subscription. -/
def execute (sets : SetOrder) (h : Heap D) : Request → Except Fault (Heap D)
  | .create eventTypes subscrFlags time =>
      .ok (h.createEventSubscription eventTypes subscrFlags time)
  | .close id => h.closeEventSubscription id
  | .addSymbols id symbols => addSymbols id symbols h
  | .removeSymbols id symbols => removeSymbols id symbols h
  | .addListener id context => h.addListener sets id context
  | .removeListener id listener => h.removeListener id listener

/-- The subscription that the call is about has not been closed. -/
def Usable (h : Heap D) (request : Request) : Prop :=
  ∀ id ∈ request.target, (h.subscriptions id).isSome

instance (h : Heap D) (request : Request) : Decidable (h.Usable request) := by
  unfold Usable
  infer_instance

/-- One call. -/
def apply (sets : SetOrder) (h : Heap D) (request : Request) : Except Fault (Heap D) :=
  if h.Usable request then h.execute sets request else .ok h

/-- A list of calls. -/
def applyAll (sets : SetOrder) : List Request → Heap D → Except Fault (Heap D)
  | [], h => .ok h
  | request :: requests, h =>
      match h.apply sets request with
      | .error fault => .error fault
      | .ok h => applyAll sets requests h

end Heap

end DxFeed.EventSubscription
