import DxFeed.EventData.SubscriptionParams
import DxFeed.EventSubscription.Linked
import DxFeed.EventSubscription.StoredEvents

/-!
# Last events

A symbol entry keeps the last event of every type as a flat copy of the structure of the event, with
pointers to strings that `dx_free_buffers` frees after every record.

* `Feed`: a connection with its string buffers; its actions are calls, events and the freeing of the
  buffers;
* `getLastSymbolEvent`: `dx_get_last_symbol_event`;
* `lastDispatched`: the last event of a type for a symbol since its entry was created;
* `faithful_iff`: the copy is this event if and only if its strings have not been freed.
-/

namespace DxFeed.EventSubscription

open RecordTranscoder ServerMessageProcessor

variable {D : Type}

/-! ### Connections -/

/-- A call of a user of a connection; events come from the server. -/
structure SubscriptionCall (D : Type) where
  call : ApiCall D
  not_processEventData : ∀ event, call ≠ .processEventData event

/-- A connection with its string buffers. -/
structure Feed (D : Type) where
  ctx : Context (StoredFields D)
  buffers : StringBuffers

/-- What happens on a connection: a call, an event of a record, and the end of a record. -/
inductive FeedAction (D : Type)
  | call (c : SubscriptionCall (StoredFields D))
  | processEventData (eventId : EventId) (symbolName : WString) (data : EventFields D)
      (params : EventParams)
  | freeBuffers

/-- The source of an order. -/
def eventSource (data : EventFields D) : WString :=
  match data.lookup "source" with
  | some (.string (some source)) => source
  | _ => []

namespace Feed

/-- A new connection. -/
def empty : Feed D := ⟨.empty, .empty⟩

/-- An event as `dx_process_event_data` gets it. -/
def eventOf (eventId : EventId) (symbolName : WString) (data : EventFields D)
    (stored : StoredFields D) (params : EventParams) : Event (StoredFields D) where
  eventId := eventId
  symbolName := symbolName
  data := ⟨eventSource data, stored⟩
  params := params

/-- A transcoder makes an event and passes it to `dx_process_event_data`. -/
def processEventData (feed : Feed D) (eventId : EventId) (symbolName : WString)
    (data : EventFields D) (params : EventParams) : Feed D :=
  let (buffers, stored) := storeFields feed.buffers data
  ⟨(feed.ctx.processEventData (eventOf eventId symbolName data stored params)).1, buffers⟩

def apply (feed : Feed D) : FeedAction D → Feed D
  | .call c => { feed with ctx := feed.ctx.apply c.call }
  | .processEventData eventId symbolName data params =>
      feed.processEventData eventId symbolName data params
  | .freeBuffers => { feed with buffers := feed.buffers.free }

/-- A connection after some actions. -/
def after (actions : List (FeedAction D)) : Feed D :=
  actions.foldl apply empty

end Feed

/-! ### `dx_get_last_symbol_event` -/

/-- How `dx_get_last_symbol_event` fails: it returns an error, or it reads behind the end of an
array. -/
inductive LastEventError
  | invalidEventType
  | invalidSymbolName
  | overread
  deriving DecidableEq, Repr

/-- `dx_is_only_single_bit_set`. -/
def isOnlySingleBitSet (value : ℕ) : Bool := value ≠ 0 && value &&& (value - 1) = 0

/-- The loop of `dx_get_event_id_by_bitmask`. -/
def eventIdLoop (eventBitmask eventId : ℕ) : ℕ :=
  if eventBitmask >>> 1 = 0 then eventId else eventIdLoop (eventBitmask >>> 1) (eventId + 1)
termination_by eventBitmask
decreasing_by
  rw [Nat.shiftRight_eq_div_pow] at *
  omega

/-- `dx_get_event_id_by_bitmask`; `none` is `dx_eid_invalid`. -/
def getEventIdByBitmask (eventBitmask : ℕ) : Option ℕ :=
  if isOnlySingleBitSet eventBitmask then some (eventIdLoop eventBitmask 0) else none

/-- `dx_get_last_symbol_event`: the caller gets a copy of the structure in the entry. -/
def getLastSymbolEvent (ctx : Context (StoredFields D)) (symbolName : WString) (eventType : ℕ) :
    Except LastEventError (StoredFields D) :=
  match getEventIdByBitmask eventType with
  | none => .error .invalidEventType
  | some eventId =>
      match ctx.symbols symbolName with
      | none => .error .invalidSymbolName
      | some d =>
          match EventId.all[eventId]? with
          | none => .error .overread
          | some eventId => .ok (((d.lastEvents eventId).map EventData.fields).getD [])

theorem eventIdLoop_shiftLeft (k eventId : ℕ) : eventIdLoop (1 <<< k) eventId = eventId + k := by
  induction k generalizing eventId with
  | zero =>
      rw [eventIdLoop]
      simp
  | succ k ih =>
      have hshift : (1 <<< (k + 1)) >>> 1 = 1 <<< k := by
        rw [Nat.shiftLeft_succ, Nat.shiftRight_one, Nat.mul_div_cancel_left _ two_pos]
      rw [eventIdLoop, hshift, if_neg (by simp [Nat.shiftLeft_eq]), ih]
      omega

/-- The type of an event leads back to it. -/
theorem getEventIdByBitmask_bitMask (eventId : EventId) :
    getEventIdByBitmask eventId.bitMask = some eventId.toNat := by
  have hbit : isOnlySingleBitSet eventId.bitMask = true := by
    cases eventId <;> decide
  rw [getEventIdByBitmask, if_pos hbit, EventId.bitMask, eventIdLoop_shiftLeft, Nat.zero_add]

theorem getElem?_all (eventId : EventId) : EventId.all[eventId.toNat]? = some eventId := by
  cases eventId <;> rfl

/-! ### Entries -/

/-- The events in the entry of a symbol; a new entry has none. -/
def Context.lastEventsOf (ctx : Context D) (symbolName : WString) :
    EventId → Option (EventData D) :=
  ((ctx.symbols symbolName).getD .create).lastEvents

/-- Entries are dropped, and the others keep their events. -/
def Context.Shrinks (ctx ctx' : Context D) : Prop :=
  ∀ n, ctx'.symbols n = none ∨
    (ctx.symbols n ≠ none ∧ ctx'.lastEventsOf n = ctx.lastEventsOf n)

/-- Every entry that is there has the events that it had. -/
def Context.KeepsEvents (ctx ctx' : Context D) : Prop :=
  ∀ n, ctx'.symbols n = none ∨ ctx'.lastEventsOf n = ctx.lastEventsOf n

section Entries

variable {ctx ctx' ctx₁ ctx₂ ctx₃ : Context D} {symbolName : WString} {id owner : SubscriptionId}

theorem Context.Shrinks.refl (ctx : Context D) : ctx.Shrinks ctx := by
  intro n
  cases hentry : ctx.symbols n with
  | none => exact .inl rfl
  | some d => exact .inr ⟨by simp, rfl⟩

theorem Context.Shrinks.trans (h : ctx₁.Shrinks ctx₂) (h' : ctx₂.Shrinks ctx₃) :
    ctx₁.Shrinks ctx₃ := by
  intro n
  rcases h' n with hnone | ⟨hsome, hevents⟩
  · exact .inl hnone
  · rcases h n with hnone | ⟨hsome₁, hevents₁⟩
    · exact absurd hnone hsome
    · exact .inr ⟨hsome₁, hevents.trans hevents₁⟩

theorem Context.Shrinks.keepsEvents (h : ctx.Shrinks ctx') : ctx.KeepsEvents ctx' :=
  fun n => (h n).imp_right And.right

theorem Context.Shrinks.of_symbols (h : ctx'.symbols = ctx.symbols) : ctx.Shrinks ctx' := by
  have hrefl := Context.Shrinks.refl ctx
  unfold Context.Shrinks Context.lastEventsOf at *
  rwa [h]

theorem keepsEvents_of_lastEventsOf (h : ctx'.lastEventsOf = ctx.lastEventsOf) :
    ctx.KeepsEvents ctx' :=
  fun n => .inr (congrFun h n)

theorem keepsEvents_of_symbols (h : ctx'.symbols = ctx.symbols) : ctx.KeepsEvents ctx' :=
  (Context.Shrinks.of_symbols h).keepsEvents

theorem lastEventsOf_setSymbol (o : Option (SymbolData D)) :
    (ctx.setSymbol symbolName o).lastEventsOf =
      Function.update ctx.lastEventsOf symbolName (o.getD .create).lastEvents := by
  funext n
  by_cases hn : n = symbolName
  · subst hn
    simp [Context.lastEventsOf, Context.setSymbol]
  · simp [Context.lastEventsOf, Context.setSymbol, hn]

theorem lastEventsOf_subscribeSymbol :
    (ctx.subscribeSymbol symbolName owner).lastEventsOf = ctx.lastEventsOf := by
  unfold Context.subscribeSymbol
  dsimp only
  split_ifs
  · rw [lastEventsOf_setSymbol]
    exact Function.update_eq_self _ _
  · rw [lastEventsOf_setSymbol]
    exact Function.update_eq_self _ _

theorem lastEventsOf_addSymbol (symbol : Option WString) :
    (ctx.addSymbol id symbol).lastEventsOf = ctx.lastEventsOf := by
  unfold Context.addSymbol
  split
  · rfl
  · rfl
  · split_ifs
    · rfl
    · exact lastEventsOf_subscribeSymbol

/-- Symbols are added without a change of events; a new entry has none. -/
theorem lastEventsOf_addSymbols (symbols : List (Option WString)) :
    (ctx.addSymbols id symbols).1.lastEventsOf = ctx.lastEventsOf := by
  have hfold : (symbols.foldl (fun ctx symbol => ctx.addSymbol id symbol) ctx).lastEventsOf =
      ctx.lastEventsOf := by
    induction symbols generalizing ctx with
    | nil => rfl
    | cons symbol symbols ih => exact ih.trans (lastEventsOf_addSymbol symbol)
  unfold Context.addSymbols
  split
  · rfl
  · exact hfold

/-- An entry is dropped, or changed in another respect. -/
theorem shrinks_setSymbol {d : SymbolData D} (hentry : ctx.symbols symbolName = some d)
    {o : Option (SymbolData D)} (ho : ∀ d', o = some d' → d'.lastEvents = d.lastEvents) :
    ctx.Shrinks (ctx.setSymbol symbolName o) := by
  intro n
  by_cases hn : n = symbolName
  · subst hn
    cases o with
    | none => exact .inl (by simp [Context.setSymbol])
    | some d' =>
        refine .inr ⟨by simp [hentry], ?_⟩
        rw [lastEventsOf_setSymbol, Function.update_self, Context.lastEventsOf, hentry]
        exact ho d' rfl
  · rw [lastEventsOf_setSymbol, Function.update_of_ne hn]
    simpa [Context.setSymbol, hn] using Context.Shrinks.refl ctx n

theorem shrinks_unsubscribeSymbol : ctx.Shrinks (ctx.unsubscribeSymbol symbolName owner).1 := by
  unfold Context.unsubscribeSymbol
  cases hentry : ctx.symbols symbolName with
  | none => exact .refl ctx
  | some d =>
      dsimp only
      by_cases hlast : d.refCount - 1 = 0
      · rw [if_pos hlast]
        exact shrinks_setSymbol hentry (by simp)
      · rw [if_neg hlast]
        refine shrinks_setSymbol hentry ?_
        rintro _ heq
        obtain rfl := Option.some.inj heq
        rfl

theorem shrinks_removeSymbol (symbol : Option WString) :
    ctx.Shrinks (ctx.removeSymbol id symbol).1 := by
  cases hopen : ctx.subscriptions id with
  | none => simpa only [Context.removeSymbol, hopen] using Context.Shrinks.refl ctx
  | some s =>
  cases symbol with
  | none => simpa only [Context.removeSymbol, hopen] using Context.Shrinks.refl ctx
  | some symbolName =>
      simp only [Context.removeSymbol, hopen]
      split_ifs
      · exact .refl ctx
      have hunsubscribe : ctx.Shrinks (ctx.unsubscribeSymbol symbolName id).1 :=
        shrinks_unsubscribeSymbol
      generalize ctx.unsubscribeSymbol symbolName id = result at hunsubscribe
      rcases result with ⟨ctx', _ | error⟩
      · exact hunsubscribe.trans (.of_symbols rfl)
      · exact hunsubscribe

theorem shrinks_removeSymbolsLoop (symbols : List (Option WString)) :
    ctx.Shrinks (Context.removeSymbolsLoop id symbols ctx).1 := by
  induction symbols generalizing ctx with
  | nil => exact .refl ctx
  | cons symbol symbols ih =>
      have hremove : ctx.Shrinks (ctx.removeSymbol id symbol).1 := shrinks_removeSymbol symbol
      rw [Context.removeSymbolsLoop]
      generalize ctx.removeSymbol id symbol = result at hremove
      rcases result with ⟨ctx', _ | error⟩
      · exact hremove.trans ih
      · exact hremove

theorem shrinks_removeSymbols (symbols : List (Option WString)) :
    ctx.Shrinks (ctx.removeSymbols id symbols).1 := by
  unfold Context.removeSymbols
  split
  · exact .refl ctx
  · exact shrinks_removeSymbolsLoop symbols

theorem shrinks_unsubscribeAll (symbols : List WString) :
    ctx.Shrinks (Context.unsubscribeAll id symbols ctx).1 := by
  induction symbols generalizing ctx with
  | nil => exact .refl ctx
  | cons symbolName symbols ih =>
      exact shrinks_unsubscribeSymbol.trans ih

theorem shrinks_closeEventSubscription : ctx.Shrinks (ctx.closeEventSubscription id).1 := by
  unfold Context.closeEventSubscription
  split
  · exact .refl ctx
  · exact (shrinks_unsubscribeAll _).trans (.of_symbols rfl)

theorem symbols_createEventSubscription (eventTypes subscrFlags : ℕ) (time : ℤ) :
    (ctx.createEventSubscription eventTypes subscrFlags time).1.symbols = ctx.symbols := by
  unfold Context.createEventSubscription
  split_ifs
  · rfl
  · rfl

theorem symbols_setEventSubscriptionFlags (subscrFlags : ℕ) :
    (ctx.setEventSubscriptionFlags id subscrFlags).1.symbols = ctx.symbols := by
  unfold Context.setEventSubscriptionFlags
  split <;> rfl

theorem symbols_addListener (listener : Option ListenerPtr) (version : EventListenerVersion)
    (userData : ℕ) : (ctx.addListener id listener version userData).1.symbols = ctx.symbols := by
  unfold Context.addListener
  split
  · rfl
  · rfl
  · split_ifs <;> rfl

theorem symbols_removeListener (listener : Option ListenerPtr) :
    (ctx.removeListener id listener).1.symbols = ctx.symbols := by
  unfold Context.removeListener
  split <;> rfl

theorem symbols_addOrderSource (source : WString) :
    (ctx.addOrderSource id source).1.symbols = ctx.symbols := by
  unfold Context.addOrderSource
  split <;> rfl

theorem symbols_clearOrderSource : (ctx.clearOrderSource id).symbols = ctx.symbols := by
  unfold Context.clearOrderSource
  split <;> rfl

/-- No call of a user changes the events of an entry. -/
theorem keepsEvents_apply (c : SubscriptionCall D) : ctx.KeepsEvents (ctx.apply c.call) := by
  obtain ⟨call, hcall⟩ := c
  cases call with
  | createSubscription eventTypes subscrFlags time =>
      exact keepsEvents_of_symbols (symbols_createEventSubscription eventTypes subscrFlags time)
  | closeSubscription id => exact shrinks_closeEventSubscription.keepsEvents
  | addSymbols id symbols => exact keepsEvents_of_lastEventsOf (lastEventsOf_addSymbols symbols)
  | removeSymbols id symbols => exact (shrinks_removeSymbols symbols).keepsEvents
  | setFlags id subscrFlags =>
      exact keepsEvents_of_symbols (symbols_setEventSubscriptionFlags subscrFlags)
  | addListener id listener version userData =>
      exact keepsEvents_of_symbols (symbols_addListener listener version userData)
  | removeListener id listener =>
      exact keepsEvents_of_symbols (symbols_removeListener listener)
  | addOrderSource id source =>
      exact keepsEvents_of_symbols (symbols_addOrderSource source)
  | clearOrderSource id => exact keepsEvents_of_symbols symbols_clearOrderSource
  | processEventData event => exact absurd rfl (hcall event)

/-- An event goes to the entry of a symbol, which is referenced and stays. -/
theorem symbols_passEventDataToListeners (h : Linked ctx) (event : Event D)
    (symbolName : WString) :
    (ctx.passEventDataToListeners event symbolName).1.symbols =
      Function.update ctx.symbols symbolName ((ctx.symbols symbolName).map fun d =>
        d.storeLastSymbolEvent event.eventId event.data) := by
  unfold Context.passEventDataToListeners
  cases hentry : ctx.symbols symbolName with
  | none => exact (Function.update_eq_self_iff.mpr (by simp [hentry])).symm
  | some d =>
      have hd := h.entries symbolName d hentry
      dsimp only [SymbolData.storeLastSymbolEvent]
      rw [if_neg hd.referenced]
      rfl

/-- The event is for the entry of a symbol. -/
def Event.reaches (event : Event D) (symbolName : WString) : Prop :=
  event.symbolName = symbolName ∨ symbolName = wildcardSymbol

instance (event : Event D) (symbolName : WString) : Decidable (event.reaches symbolName) :=
  inferInstanceAs (Decidable (_ ∨ _))

theorem symbols_processEventData (h : Linked ctx) (event : Event D) (n : WString) :
    (ctx.processEventData event).1.symbols n =
      if event.reaches n then
        (ctx.symbols n).map fun d => d.storeLastSymbolEvent event.eventId event.data
      else ctx.symbols n := by
  obtain ⟨h₁, -, -⟩ := passEventDataToListeners_fst h event event.symbolName
  have hfirst := symbols_passEventDataToListeners h event event.symbolName
  have hsecond := symbols_passEventDataToListeners h₁ event wildcardSymbol
  unfold Context.processEventData
  dsimp only
  rw [hsecond, hfirst]
  unfold Event.reaches
  by_cases hwild : n = wildcardSymbol
  · subst hwild
    by_cases hname : event.symbolName = wildcardSymbol
    · cases hentry : ctx.symbols wildcardSymbol <;>
        simp [hname, hentry, SymbolData.storeLastSymbolEvent]
    · simp [Function.update_of_ne (Ne.symm hname)]
  · by_cases hname : event.symbolName = n
    · subst hname
      simp [hwild]
    · simp [hwild, hname, Function.update_of_ne (Ne.symm hname)]

end Entries

/-! ### The last event -/

/-- An event that was dispatched, and whether `dx_free_buffers` has been called since. -/
structure LastEvent (D : Type) where
  data : EventFields D
  freed : Bool
  deriving DecidableEq

/-- The symbol is in an open subscription. -/
def Context.Subscribed (ctx : Context D) (symbolName : WString) : Prop :=
  ∃ id s, ctx.subscriptions id = some s ∧ symbolName ∈ s.symbols

/-- The last event of a type for a symbol after one more action; `feed` is the connection behind the
action.  Without an entry there is none. -/
def noteAction (symbolName : WString) (eventId : EventId) (feed : Feed D)
    (last : Option (LastEvent D)) (action : FeedAction D) : Option (LastEvent D) :=
  if feed.ctx.symbols symbolName = none then none
  else
    match action with
    | .call _ => last
    | .processEventData id name data _ =>
        if id = eventId ∧ (name = symbolName ∨ symbolName = wildcardSymbol) then some ⟨data, false⟩
        else last
    | .freeBuffers => last.map fun event => { event with freed := true }

/-- The last event of a type that was dispatched for a symbol since its entry was created. -/
def lastDispatched (symbolName : WString) (eventId : EventId) (actions : List (FeedAction D)) :
    Option (LastEvent D) :=
  (actions.foldl (fun state action =>
    let feed := state.1.apply action
    (feed, noteAction symbolName eventId feed state.2 action)) (Feed.empty, none)).2

/-- The event that `dx_get_last_symbol_event` returns is read as some event. -/
def Feed.LastEventIs (feed : Feed D) (symbolName : WString) (eventId : EventId)
    (data : EventFields D) : Prop :=
  ∃ stored, getLastSymbolEvent feed.ctx symbolName eventId.bitMask = .ok stored ∧
    readFields feed.buffers stored = some data

/-- `dx_get_last_symbol_event` returns the last event, in all its fields. -/
def Faithful (actions : List (FeedAction D)) (symbolName : WString) (eventId : EventId) : Prop :=
  (Feed.after actions).LastEventIs symbolName eventId
    (((lastDispatched symbolName eventId actions).map LastEvent.data).getD [])

/-- The structure in an entry stands for the last event. -/
def StandsFor (buffers : StringBuffers) :
    Option (EventData (StoredFields D)) → Option (LastEvent D) → Prop
  | none, none => True
  | some stored, some last => List.Forall₂ (Refers buffers last.freed) stored.fields last.data
  | _, _ => False

section LastEvent

variable {buffers buffers' : StringBuffers} {stored : Option (EventData (StoredFields D))}
  {last : Option (LastEvent D)} {symbolName : WString} {eventId : EventId}

theorem Feed.after_concat (actions : List (FeedAction D)) (action : FeedAction D) :
    Feed.after (actions ++ [action]) = (Feed.after actions).apply action :=
  List.foldl_concat ..

theorem lastDispatched_concat (actions : List (FeedAction D)) (action : FeedAction D) :
    lastDispatched symbolName eventId (actions ++ [action]) =
      noteAction symbolName eventId (Feed.after (actions ++ [action]))
        (lastDispatched symbolName eventId actions) action := by
  have hfst : ∀ l : List (FeedAction D), (l.foldl (fun state action =>
      let feed := state.1.apply action
      (feed, noteAction symbolName eventId feed state.2 action)) (Feed.empty, none)).1 =
        Feed.after l := by
    intro l
    induction l using List.reverseRecOn with
    | nil => rfl
    | append_singleton l a ih => rw [List.foldl_concat, Feed.after_concat, ih]
  rw [Feed.after_concat, ← hfst actions]
  exact congrArg Prod.snd (List.foldl_concat ..)

theorem StandsFor.extends (h : StandsFor buffers stored last) (hext : buffers.Extends buffers') :
    StandsFor buffers' stored last := by
  cases stored with
  | none =>
      cases last with
      | none => exact h
      | some last => exact h.elim
  | some stored =>
      cases last with
      | none => exact h.elim
      | some last => exact List.Forall₂.imp (fun _ _ hfield => hfield.extends hext) h

theorem StandsFor.free (h : StandsFor buffers stored last) :
    StandsFor buffers.free stored (last.map fun event => { event with freed := true }) := by
  cases stored with
  | none =>
      cases last with
      | none => exact h
      | some last => exact h.elim
  | some stored =>
      cases last with
      | none => exact h.elim
      | some last => exact List.Forall₂.imp (fun _ _ hfield => hfield.free) h

/-- The structure is read as the last event if and only if no text of the event has been freed. -/
theorem StandsFor.readFields_iff (h : StandsFor buffers stored last) :
    readFields buffers ((stored.map EventData.fields).getD []) =
        some ((last.map LastEvent.data).getD []) ↔
      ∀ event, last = some event → event.freed = true →
        ∀ field ∈ event.data, fieldText field = none := by
  cases stored with
  | none =>
      cases last with
      | none => simp [readFields]
      | some last => exact h.elim
  | some stored =>
      cases last with
      | none => exact h.elim
      | some last =>
          simp only [Option.map_some, Option.getD_some, Option.some.injEq, forall_eq']
          exact readFields_eq_some_iff h

theorem linked_feed_after (actions : List (FeedAction D)) : Linked (Feed.after actions).ctx := by
  induction actions using List.reverseRecOn with
  | nil => exact linked_empty
  | append_singleton actions action ih =>
      rw [Feed.after_concat]
      cases action with
      | call c => exact linked_apply ih c.call
      | processEventData id name data params => exact linked_processEventData ih _
      | freeBuffers => exact ih

/-- The entry of a subscribed symbol is there. -/
theorem symbols_ne_none {ctx : Context D} (hlinked : Linked ctx) (h : ctx.Subscribed symbolName) :
    ctx.symbols symbolName ≠ none := by
  obtain ⟨id, s, hopen, hmem⟩ := h
  intro hnone
  have hsubscriber : id ∈ ctx.subscribers symbolName := by
    rw [hlinked.subscribed, symbolsOf_eq hopen]
    exact hmem
  simp [Context.subscribers, hnone] at hsubscriber

/-- Without an entry there is no last event. -/
theorem standsFor_of_symbols_eq_none {feed : Feed D} (action : FeedAction D)
    (h : feed.ctx.symbols symbolName = none) :
    StandsFor feed.buffers (feed.ctx.lastEventsOf symbolName eventId)
      (noteAction symbolName eventId feed last action) := by
  unfold noteAction
  rw [if_pos h, Context.lastEventsOf, h]
  trivial

/-- An event goes to the entries that it reaches, with pointers to its texts. -/
theorem standsFor_processEventData {feed : Feed D} (hlinked : Linked feed.ctx) (id : EventId)
    (name : WString) (data : EventFields D) (params : EventParams)
    (h : StandsFor feed.buffers (feed.ctx.lastEventsOf symbolName eventId) last)
    (hentry : (feed.processEventData id name data params).ctx.symbols symbolName ≠ none) :
    StandsFor (feed.processEventData id name data params).buffers
      ((feed.processEventData id name data params).ctx.lastEventsOf symbolName eventId)
      (if id = eventId ∧ (name = symbolName ∨ symbolName = wildcardSymbol) then some ⟨data, false⟩
        else last) := by
  obtain ⟨hext, hfields⟩ := storeFields_spec feed.buffers data
  unfold Feed.processEventData at hentry ⊢
  dsimp only at hentry ⊢
  generalize hstored : storeFields feed.buffers data = result at hext hfields hentry ⊢
  obtain ⟨buffers', stored⟩ := result
  have hsymbols := symbols_processEventData hlinked (Feed.eventOf id name data stored params)
    symbolName
  unfold Context.lastEventsOf
  rw [hsymbols] at hentry ⊢
  cases hbefore : feed.ctx.symbols symbolName with
  | none => simp [hbefore] at hentry
  | some d =>
      have hold : StandsFor buffers' (d.lastEvents eventId) last := by
        rw [Context.lastEventsOf, hbefore] at h
        exact h.extends hext
      by_cases hreaches : (Feed.eventOf id name data stored params).reaches symbolName
      · rw [if_pos hreaches]
        by_cases hid : id = eventId
        · subst hid
          rw [if_pos ⟨rfl, hreaches⟩]
          simpa [SymbolData.storeLastSymbolEvent, Feed.eventOf, StandsFor] using hfields
        · rw [if_neg fun hboth => hid hboth.1]
          simpa [SymbolData.storeLastSymbolEvent, Feed.eventOf, Function.update_of_ne (Ne.symm hid)]
            using hold
      · rw [if_neg hreaches, if_neg fun hboth => hreaches hboth.2]
        exact hold

/-- After every sequence of actions the structure in an entry stands for the last event. -/
theorem standsFor_after (actions : List (FeedAction D)) (symbolName : WString) (eventId : EventId) :
    StandsFor (Feed.after actions).buffers
      ((Feed.after actions).ctx.lastEventsOf symbolName eventId)
      (lastDispatched symbolName eventId actions) := by
  induction actions using List.reverseRecOn with
  | nil => trivial
  | append_singleton actions action ih =>
      have hlinked := linked_feed_after actions
      rw [lastDispatched_concat, Feed.after_concat]
      generalize Feed.after actions = feed at ih hlinked ⊢
      generalize lastDispatched symbolName eventId actions = last at ih ⊢
      by_cases hentry : (feed.apply action).ctx.symbols symbolName = none
      · exact standsFor_of_symbols_eq_none action hentry
      unfold noteAction
      rw [if_neg hentry]
      cases action with
      | call c =>
          have hkeep := (keepsEvents_apply c symbolName).resolve_left hentry
          exact (congrFun hkeep eventId).symm ▸ ih
      | processEventData id name data params =>
          exact standsFor_processEventData hlinked id name data params ih hentry
      | freeBuffers => exact ih.free

/-- What `dx_get_last_symbol_event` returns for a symbol with an entry. -/
theorem getLastSymbolEvent_eq {ctx : Context (StoredFields D)}
    (hentry : ctx.symbols symbolName ≠ none) (eventId : EventId) :
    getLastSymbolEvent ctx symbolName eventId.bitMask =
      .ok (((ctx.lastEventsOf symbolName eventId).map EventData.fields).getD []) := by
  obtain ⟨d, hd⟩ := Option.ne_none_iff_exists'.mp hentry
  rw [getLastSymbolEvent, getEventIdByBitmask_bitMask]
  dsimp only
  rw [hd, getElem?_all, Context.lastEventsOf, hd]
  rfl

/-- What a reader makes of the structure in the entry of a subscribed symbol. -/
theorem faithful_iff_readFields {actions : List (FeedAction D)}
    (hsubscribed : (Feed.after actions).ctx.Subscribed symbolName) :
    Faithful actions symbolName eventId ↔
      readFields (Feed.after actions).buffers
          ((((Feed.after actions).ctx.lastEventsOf symbolName eventId).map
            EventData.fields).getD []) =
        some (((lastDispatched symbolName eventId actions).map LastEvent.data).getD []) := by
  have hentry := symbols_ne_none (linked_feed_after actions) hsubscribed
  unfold Faithful Feed.LastEventIs
  rw [getLastSymbolEvent_eq hentry]
  simp

/-- **The last event of a type for a subscribed symbol is returned in all its fields if and only if
`dx_free_buffers` has not been called since it was dispatched, or the event has no texts.** -/
theorem faithful_iff (actions : List (FeedAction D)) (symbolName : WString) (eventId : EventId)
    (hsubscribed : (Feed.after actions).ctx.Subscribed symbolName) :
    Faithful actions symbolName eventId ↔
      ∀ last, lastDispatched symbolName eventId actions = some last → last.freed = true →
        ∀ field ∈ last.data, fieldText field = none := by
  rw [faithful_iff_readFields hsubscribed]
  exact (standsFor_after actions symbolName eventId).readFields_iff

end LastEvent

/-! ### An order -/

/-- The symbol `IBM`. -/
def ibm : WString := wideString "IBM"

/-- An order of `NTV` from the market maker `NSDQ`; its numbers are zero. -/
def orderOfNsdq : EventFields Unit :=
  [("source", .string (some (wideString "NTV"))),
    ("market_maker", .string (some (wideString "NSDQ")))]

/-- A subscription for the orders of a symbol is made, and an order is dispatched. -/
def orderActions : List (FeedAction Unit) :=
  [.call ⟨.createSubscription EventId.order.bitMask 0 0, by simp⟩,
    .call ⟨.addSymbols 0 [some ibm], by simp⟩,
    .processEventData .order ibm orderOfNsdq ⟨0, 0, 0⟩]

theorem subscribed_orderActions : (Feed.after orderActions).ctx.Subscribed ibm :=
  ⟨0, _, rfl, by decide⟩

/-- As long as a record is processed, its order is the last one. -/
theorem faithful_orderActions : Faithful orderActions ibm .order :=
  (faithful_iff orderActions ibm .order subscribed_orderActions).mpr (by decide)

/-- After the record, the name of the market maker is in memory that has been freed. -/
theorem not_faithful_freeBuffers :
    (Feed.after (orderActions ++ [.freeBuffers])).ctx.Subscribed ibm ∧
      ¬ Faithful (orderActions ++ [.freeBuffers]) ibm .order := by
  have hsubscribed : (Feed.after (orderActions ++ [.freeBuffers])).ctx.Subscribed ibm :=
    ⟨0, _, rfl, by decide⟩
  refine ⟨hsubscribed, ?_⟩
  rw [faithful_iff_readFields hsubscribed]
  decide

/-! ### Data records -/

section DataRecords

/-- A call of a user, or a data record with the events that its transcoder makes. -/
inductive FeedStep (D : Type)
  | call (c : SubscriptionCall (StoredFields D))
  | dataRecord (events : List (RecordEvent D))

/-- The events of a record are dispatched, and `dx_free_buffers` is called. -/
def FeedStep.actions : FeedStep D → List (FeedAction D)
  | .call c => [.call c]
  | .dataRecord events =>
      (events.map fun event =>
        .processEventData event.eventId (event.symbolName.getD []) event.data event.params) ++
        [.freeBuffers]

/-- Between two records the texts of the last event have been freed. -/
theorem freed_of_lastDispatched {steps : List (FeedStep D)} {symbolName : WString}
    {eventId : EventId} {last : LastEvent D}
    (h : lastDispatched symbolName eventId (steps.flatMap FeedStep.actions) = some last) :
    last.freed = true := by
  induction steps using List.reverseRecOn generalizing last with
  | nil => simp [lastDispatched] at h
  | append_singleton steps step ih =>
      rw [List.flatMap_append, List.flatMap_singleton] at h
      cases step with
      | call c =>
          rw [FeedStep.actions, lastDispatched_concat] at h
          unfold noteAction at h
          split_ifs at h
          exact ih h
      | dataRecord events =>
          rw [FeedStep.actions, ← List.append_assoc, lastDispatched_concat] at h
          unfold noteAction at h
          split_ifs at h
          obtain ⟨event, -, rfl⟩ := Option.map_eq_some_iff.mp h
          rfl

/-- Between two records the last event is returned in all its fields if and only if it has no
texts. -/
theorem faithful_steps_iff (steps : List (FeedStep D)) (symbolName : WString) (eventId : EventId)
    (hsubscribed : (Feed.after (steps.flatMap FeedStep.actions)).ctx.Subscribed symbolName) :
    Faithful (steps.flatMap FeedStep.actions) symbolName eventId ↔
      ∀ last, lastDispatched symbolName eventId (steps.flatMap FeedStep.actions) = some last →
        ∀ field ∈ last.data, fieldText field = none := by
  rw [faithful_iff_readFields hsubscribed, (standsFor_after _ _ _).readFields_iff]
  exact ⟨fun h last hlast => h last hlast (freed_of_lastDispatched hlast),
    fun h last hlast _ => h last hlast⟩

end DataRecords

end DxFeed.EventSubscription
