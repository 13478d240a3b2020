import DxFeed.EventSubscription.WildcardMode
import DxFeed.Library.SetLog

/-!
# What the server sends data for

The server keeps a set of records of symbols, which the messages of the client add to and remove
from.

* `Interest`, `serverInterests`: a record of a symbol with its kind of messages, and the set that
  the messages of a session leave at the server;
* `needed`, `neededByOthers`: what the open subscriptions need;
* `serverInterests_add`, `serverInterests_remove`: the messages of a call;
* `Moves`: a call that changes one subscription of a connection.
-/

namespace DxFeed.EventSubscription

variable {D : Type}

/-! ### Interests -/

/-- A record of a symbol, and the kind of messages that it is sent with. -/
structure Interest where
  subscriptionType : SubscriptionType
  recordName : WString
  symbol : WString
  deriving DecidableEq

/-- What a message is about. -/
def Message.interest (m : Message) : Interest :=
  ⟨m.subscriptionType, m.recordName, m.symbol⟩

/-- What a message does to the set of the server. -/
def Message.entry (m : Message) : SetLog.Entry Interest :=
  if m.kind = .remove then .remove m.interest else .add m.interest

/-- What the server sends data for, after the messages of a session. -/
def serverInterests (sent : List Message) : Set Interest :=
  SetLog.after ∅ (sent.map Message.entry)

/-- The records of some symbols, for the events and the sources of a subscription. -/
def SubscriptionData.interests (s : SubscriptionData) (symbols : List WString) (subscrFlags : ℕ) :
    Set Interest :=
  {i | (i.symbol ∈ symbols ∧ i.symbol ≠ []) ∧
    ⟨i.recordName, i.subscriptionType⟩ ∈ subscriptionParams s.orderSource s.eventTypes subscrFlags}

/-- What a subscription needs. -/
def SubscriptionData.needs (s : SubscriptionData) : Set Interest :=
  s.interests s.symbols s.subscriptionFlags

/-- What the open subscriptions need. -/
def needed (ctx : Context D) : Set Interest :=
  {i | ∃ id, ∃ s ∈ ctx.subscriptions id, i ∈ s.needs}

/-- What the other open subscriptions need. -/
def neededByOthers (ctx : Context D) (id : SubscriptionId) : Set Interest :=
  {i | ∃ other ≠ id, ∃ s ∈ ctx.subscriptions other, i ∈ s.needs}

/-! ### Messages and sets -/

section Messages

variable {s : SubscriptionData} {symbols : List WString} {subscrFlags : ℕ} {sent : List Message}

/-- The interests of the messages of a call, one for each message. -/
def SubscriptionData.interestList (s : SubscriptionData) (symbols : List WString)
    (subscrFlags : ℕ) : List Interest :=
  (symbols.filter (· ≠ [])).flatMap fun symbol =>
    (subscriptionParams s.orderSource s.eventTypes subscrFlags).map fun param =>
      ⟨param.subscriptionType, param.recordName, symbol⟩

theorem mem_interestList (i : Interest) :
    i ∈ s.interestList symbols subscrFlags ↔ i ∈ s.interests symbols subscrFlags := by
  constructor
  · intro h
    obtain ⟨symbol, hsymbol, hi⟩ := List.mem_flatMap.mp h
    obtain ⟨param, hparam, rfl⟩ := List.mem_map.mp hi
    obtain ⟨hmem, hne⟩ := List.mem_filter.mp hsymbol
    exact ⟨⟨hmem, by simpa using hne⟩, hparam⟩
  · rintro ⟨⟨hmem, hne⟩, hparam⟩
    refine List.mem_flatMap.mpr ⟨i.symbol, List.mem_filter.mpr ⟨hmem, by simpa using hne⟩, ?_⟩
    exact List.mem_map.mpr ⟨_, hparam, rfl⟩

/-- All messages of a call are of the same kind. -/
theorem entries_subscribeSymbolsToEvents (kind : MessageKind) :
    (subscribeSymbolsToEvents kind s symbols subscrFlags).map Message.entry =
      (s.interestList symbols subscrFlags).map
        (if kind = .remove then SetLog.Entry.remove else SetLog.Entry.add) := by
  rw [subscribeSymbolsToEvents, SubscriptionData.interestList, List.map_flatMap, List.map_flatMap]
  congr 1
  funext symbol
  rw [List.map_map, List.map_map]
  congr 1
  funext param
  cases kind <;> rfl

theorem serverInterests_append (later : List Message) :
    serverInterests (sent ++ later) =
      SetLog.after (serverInterests sent) (later.map Message.entry) := by
  rw [serverInterests, List.map_append, SetLog.after_append]
  rfl

theorem setOf_mem_interestList :
    {i | i ∈ s.interestList symbols subscrFlags} = s.interests symbols subscrFlags := by
  ext i
  exact mem_interestList i

/-- The messages of a call that adds symbols. -/
theorem serverInterests_add {kind : MessageKind} (hkind : kind ≠ .remove) :
    serverInterests (sent ++ subscribeSymbolsToEvents kind s symbols subscrFlags) =
      serverInterests sent ∪ s.interests symbols subscrFlags := by
  rw [serverInterests_append, entries_subscribeSymbolsToEvents, if_neg hkind, SetLog.after_adds,
    setOf_mem_interestList]

/-- The messages of a call that removes symbols. -/
theorem serverInterests_remove :
    serverInterests (sent ++ subscribeSymbolsToEvents .remove s symbols subscrFlags) =
      serverInterests sent \ s.interests symbols subscrFlags := by
  rw [serverInterests_append, entries_subscribeSymbolsToEvents, if_pos rfl, SetLog.after_removes,
    setOf_mem_interestList]

end Messages

/-! ### Contexts -/

section Contexts

variable {ctx ctx' : Context D} {id : SubscriptionId} {s s' : SubscriptionData}
  {symbols : List WString}

/-- The call changes the subscription, to the given one, and no other. -/
structure Moves (id : SubscriptionId) (s' : Option SubscriptionData) (ctx ctx' : Context D) : Prop
    where
  linked : Linked ctx'
  subscriptions : ctx'.subscriptions = Function.update ctx.subscriptions id s'

theorem neededByOthers_eq {o : Option SubscriptionData}
    (h : ctx'.subscriptions = Function.update ctx.subscriptions id o) :
    neededByOthers ctx' id = neededByOthers ctx id := by
  ext i
  constructor
  · rintro ⟨other, hne, s, hs, hi⟩
    rw [h, Function.update_of_ne hne] at hs
    exact ⟨other, hne, s, hs, hi⟩
  · rintro ⟨other, hne, s, hs, hi⟩
    refine ⟨other, hne, s, ?_, hi⟩
    rwa [h, Function.update_of_ne hne]

/-- What is needed, by the subscription or by others. -/
theorem needed_eq (hopen : ctx.subscriptions id = some s) :
    needed ctx = neededByOthers ctx id ∪ s.needs := by
  ext i
  constructor
  · rintro ⟨other, t, ht, hi⟩
    by_cases hother : other = id
    · subst hother
      obtain rfl := Option.some.inj (hopen.symm.trans ht)
      exact Or.inr hi
    · exact Or.inl ⟨other, hother, t, ht, hi⟩
  · rintro (⟨other, -, t, ht, hi⟩ | hi)
    · exact ⟨other, t, ht, hi⟩
    · exact ⟨id, s, hopen, hi⟩

theorem needed_eq_of_none (hnone : ctx.subscriptions id = none) :
    needed ctx = neededByOthers ctx id := by
  ext i
  constructor
  · rintro ⟨other, t, ht, hi⟩
    refine ⟨other, ?_, t, ht, hi⟩
    rintro rfl
    exact absurd (hnone.symm.trans ht) nofun
  · rintro ⟨other, -, t, ht, hi⟩
    exact ⟨other, t, ht, hi⟩

theorem Moves.needed (h : Moves id (some s') ctx ctx') :
    EventSubscription.needed ctx' = neededByOthers ctx id ∪ s'.needs := by
  have hopen : ctx'.subscriptions id = some s' := by
    rw [h.subscriptions]
    exact Function.update_self ..
  rw [needed_eq hopen, neededByOthers_eq h.subscriptions]

theorem Moves.needed_of_none (h : Moves id none ctx ctx') :
    EventSubscription.needed ctx' = neededByOthers ctx id := by
  have hnone : ctx'.subscriptions id = none := by
    rw [h.subscriptions]
    exact Function.update_self ..
  rw [needed_eq_of_none hnone, neededByOthers_eq h.subscriptions]

theorem subscriptions_subscribeSymbol (symbolName : WString) (owner : SubscriptionId) :
    (ctx.subscribeSymbol symbolName owner).subscriptions = ctx.subscriptions := by
  unfold Context.subscribeSymbol
  simp only
  split_ifs <;> rfl

theorem subscriptions_unsubscribeSymbol (symbolName : WString) (owner : SubscriptionId) :
    (ctx.unsubscribeSymbol symbolName owner).1.subscriptions = ctx.subscriptions := by
  unfold Context.unsubscribeSymbol
  split
  · rfl
  · simp only
    split_ifs <;> rfl

theorem frame_addSymbol (symbol : Option WString) {other : SubscriptionId} (hne : other ≠ id) :
    (ctx.addSymbol id symbol).subscriptions other = ctx.subscriptions other := by
  unfold Context.addSymbol
  split
  · rfl
  · rfl
  · split_ifs
    · rfl
    · refine (Function.update_of_ne hne _ _).trans ?_
      rw [subscriptions_subscribeSymbol]

theorem frame_removeSymbol (symbol : Option WString) {other : SubscriptionId} (hne : other ≠ id) :
    (ctx.removeSymbol id symbol).1.subscriptions other = ctx.subscriptions other := by
  unfold Context.removeSymbol
  split
  · rfl
  · rfl
  · rename_i t symbolName _
    split_ifs
    · rfl
    · have hframe : (ctx.unsubscribeSymbol symbolName id).1.subscriptions = ctx.subscriptions :=
        subscriptions_unsubscribeSymbol symbolName id
      cases hcall : ctx.unsubscribeSymbol symbolName id with
      | mk ctx₁ error =>
          rw [hcall] at hframe
          cases error with
          | some error => exact congrFun hframe other
          | none =>
              simp only [Context.setSubscription, Function.update_of_ne hne]
              exact congrFun hframe other

theorem frame_removeSymbolsLoop (symbols : List (Option WString)) {other : SubscriptionId}
    (hne : other ≠ id) :
    (Context.removeSymbolsLoop id symbols ctx).1.subscriptions other = ctx.subscriptions other := by
  induction symbols generalizing ctx with
  | nil => rfl
  | cons symbol symbols ih =>
      have hframe : (ctx.removeSymbol id symbol).1.subscriptions other = ctx.subscriptions other :=
        frame_removeSymbol symbol hne
      rw [Context.removeSymbolsLoop]
      cases hcall : ctx.removeSymbol id symbol with
      | mk ctx₁ error =>
          rw [hcall] at hframe
          cases error with
          | some error => exact hframe
          | none => exact ih.trans hframe

theorem frame_unsubscribeAll (symbols : List WString) :
    (Context.unsubscribeAll id symbols ctx).1.subscriptions = ctx.subscriptions := by
  induction symbols generalizing ctx with
  | nil => rfl
  | cons symbolName symbols ih =>
      exact ih.trans (subscriptions_unsubscribeSymbol symbolName id)

/-- Equal functions, at the subscription and elsewhere. -/
theorem eq_update {f g : SubscriptionId → Option SubscriptionData} {o : Option SubscriptionData}
    (hid : f id = o) (hother : ∀ other ≠ id, f other = g other) :
    f = Function.update g id o := by
  funext other
  by_cases hne : other = id
  · subst hne
    rw [hid, Function.update_self]
  · rw [hother other hne, Function.update_of_ne hne]

theorem moves_addSymbols (h : Linked ctx) (hopen : ctx.subscriptions id = some s)
    (symbols : List WString) :
    ∃ ctx', ctx.addSymbols id (symbols.map some) = (ctx', none) ∧
      Moves id (some { s with symbols := symbols.foldl insertSymbol s.symbols }) ctx ctx' := by
  obtain ⟨ctx', hcall, hlinked, hopen'⟩ := addSymbols_spec h hopen symbols
  refine ⟨ctx', hcall, hlinked, eq_update hopen' fun other hne => ?_⟩
  have hfold : ∀ (l : List (Option WString)) (c : Context D),
      (l.foldl (fun ctx symbol => ctx.addSymbol id symbol) c).subscriptions other =
        c.subscriptions other := by
    intro l
    induction l with
    | nil => exact fun _ => rfl
    | cons symbol l ih => exact fun c => (ih _).trans (frame_addSymbol symbol hne)
  rw [Context.addSymbols, hopen] at hcall
  rw [← (Prod.mk.inj hcall).1, hfold]

theorem moves_removeSymbols (h : Linked ctx) (hopen : ctx.subscriptions id = some s)
    (symbols : List WString) :
    ∃ ctx', ctx.removeSymbols id (symbols.map some) = (ctx', none) ∧
      Moves id (some { s with symbols := symbols.foldl eraseSymbol s.symbols }) ctx ctx' := by
  obtain ⟨ctx', hcall, hlinked, hopen'⟩ := removeSymbols_spec h hopen symbols
  refine ⟨ctx', hcall, hlinked, eq_update hopen' fun other hne => ?_⟩
  have hframe : (Context.removeSymbolsLoop id (symbols.map some) ctx).1.subscriptions other =
      ctx.subscriptions other := frame_removeSymbolsLoop (symbols.map some) hne
  rw [Context.removeSymbols, hopen] at hcall
  simp only at hcall
  rwa [hcall] at hframe

theorem moves_setFlags (h : Linked ctx) (hopen : ctx.subscriptions id = some s)
    (subscrFlags : ℕ) :
    ∃ ctx', ctx.setEventSubscriptionFlags id subscrFlags = (ctx', none) ∧
      Moves id (some { s with subscriptionFlags := subscrFlags }) ctx ctx' := by
  have hlinked := linked_setEventSubscriptionFlags h id subscrFlags
  rw [Context.setEventSubscriptionFlags, hopen] at hlinked ⊢
  exact ⟨_, rfl, hlinked, rfl⟩

theorem moves_closeEventSubscription (h : Linked ctx) (hopen : ctx.subscriptions id = some s) :
    Moves id none ctx (ctx.closeEventSubscription id).1 := by
  refine ⟨linked_closeEventSubscription h id, ?_⟩
  rw [Context.closeEventSubscription, hopen]
  simp only [Context.setSubscription]
  rw [frame_unsubscribeAll]

theorem Moves.trans {ctx'' : Context D} {o o' : Option SubscriptionData} (h : Moves id o ctx ctx')
    (h' : Moves id o' ctx' ctx'') : Moves id o' ctx ctx'' :=
  ⟨h'.linked, by rw [h'.subscriptions, h.subscriptions, Function.update_idem]⟩

end Contexts

end DxFeed.EventSubscription
