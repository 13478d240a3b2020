import DxFeed.EventSubscription.Context

/-!
# Symbol entries and subscriptions agree

A subscription has a symbol if and only if the entry of the symbol has the subscription.

* `Linked`: this agreement, and what the containers and the reference counts guarantee;
* `linked_apply`: every call keeps it;
* `linked_after`: it holds after every sequence of calls.
-/

namespace DxFeed.EventSubscription

variable {D : Type}

namespace Context

variable (ctx : Context D)

/-- The subscriptions in the entry of a symbol. -/
def subscribers (symbolName : WString) : List SubscriptionId :=
  ((ctx.symbols symbolName).map SymbolData.subscriptions).getD []

/-- The symbols of a subscription. -/
def symbolsOf (id : SubscriptionId) : List WString :=
  ((ctx.subscriptions id).map SubscriptionData.symbols).getD []

end Context

/-- The subscriptions of an entry are different, there is at least one, and the reference count
is their number. -/
structure SymbolData.Counted (d : SymbolData D) : Prop where
  nodup : d.subscriptions.Nodup
  ne_nil : d.subscriptions ≠ []
  refCount : d.refCount = d.subscriptions.length

/-- The symbols and the listeners of a subscription are different. -/
structure SubscriptionData.Distinct (s : SubscriptionData) : Prop where
  symbols : s.symbols.Nodup
  listeners : (s.listeners.map ListenerContext.listener).Nodup

/-- Every entry is counted. -/
def Context.EntriesCounted (ctx : Context D) : Prop :=
  ∀ symbolName d, ctx.symbols symbolName = some d → d.Counted

/-- Subscriptions are distinct, and handles that have not been given out are not open. -/
def Context.SubscriptionsDistinct (ctx : Context D) : Prop :=
  ∀ id s, ctx.subscriptions id = some s → s.Distinct ∧ id < ctx.created

/-- Symbol entries and subscriptions agree. -/
structure Linked (ctx : Context D) : Prop where
  subscribed : ∀ symbolName id, id ∈ ctx.subscribers symbolName ↔ symbolName ∈ ctx.symbolsOf id
  entries : ctx.EntriesCounted
  subscriptions : ctx.SubscriptionsDistinct

variable {ctx : Context D} {symbolName : WString} {id owner : SubscriptionId}
  {s : SubscriptionData}

/-! ### Projections -/

@[simp] theorem subscribers_setSubscription (o : Option SubscriptionData) :
    (ctx.setSubscription id o).subscribers = ctx.subscribers := rfl

@[simp] theorem symbolsOf_setSymbol (o : Option (SymbolData D)) :
    (ctx.setSymbol symbolName o).symbolsOf = ctx.symbolsOf := rfl

@[simp] theorem subscriptions_setSymbol (o : Option (SymbolData D)) :
    (ctx.setSymbol symbolName o).subscriptions = ctx.subscriptions := rfl

@[simp] theorem created_setSymbol (o : Option (SymbolData D)) :
    (ctx.setSymbol symbolName o).created = ctx.created := rfl

theorem subscribers_setSymbol (o : Option (SymbolData D)) :
    (ctx.setSymbol symbolName o).subscribers =
      Function.update ctx.subscribers symbolName ((o.map SymbolData.subscriptions).getD []) := by
  funext n
  by_cases h : n = symbolName
  · subst h
    simp [Context.subscribers, Context.setSymbol]
  · simp [Context.subscribers, Context.setSymbol, Function.update_of_ne h]

theorem symbolsOf_setSubscription (o : Option SubscriptionData) :
    (ctx.setSubscription id o).symbolsOf =
      Function.update ctx.symbolsOf id ((o.map SubscriptionData.symbols).getD []) := by
  funext n
  by_cases h : n = id
  · subst h
    simp [Context.symbolsOf, Context.setSubscription]
  · simp [Context.symbolsOf, Context.setSubscription, Function.update_of_ne h]

theorem symbolsOf_eq (h : ctx.subscriptions id = some s) : ctx.symbolsOf id = s.symbols := by
  simp [Context.symbolsOf, h]

theorem Context.EntriesCounted.setSymbol (h : ctx.EntriesCounted) {o : Option (SymbolData D)}
    (ho : ∀ d, o = some d → d.Counted) : (ctx.setSymbol symbolName o).EntriesCounted := by
  intro n d hd
  by_cases hn : n = symbolName
  · subst hn
    exact ho d (by simpa [Context.setSymbol] using hd)
  · exact h n d (by simpa [Context.setSymbol, Function.update_of_ne hn] using hd)

theorem Context.SubscriptionsDistinct.setSubscription (h : ctx.SubscriptionsDistinct)
    (hopen : ctx.subscriptions id = some s) {o : Option SubscriptionData}
    (ho : ∀ s', o = some s' → s'.Distinct) :
    (ctx.setSubscription id o).SubscriptionsDistinct := by
  intro n s' hs'
  by_cases hn : n = id
  · subst hn
    exact ⟨ho s' (by simpa [Context.setSubscription] using hs'), (h n s hopen).2⟩
  · exact h n s' (by simpa [Context.setSubscription, Function.update_of_ne hn] using hs')

/-! ### Symbol entries -/

/-- The entry that `subscribeSymbol` starts from. -/
theorem getD_create (hentries : ctx.EntriesCounted) (symbolName : WString) :
    let res := (ctx.symbols symbolName).getD .create
    res.subscriptions = ctx.subscribers symbolName ∧ res.subscriptions.Nodup ∧
      res.refCount = res.subscriptions.length := by
  cases hentry : ctx.symbols symbolName with
  | none => exact ⟨by simp [Context.subscribers, hentry, SymbolData.create], List.nodup_nil, rfl⟩
  | some d =>
      have hd := hentries symbolName d hentry
      exact ⟨by simp [Context.subscribers, hentry], hd.nodup, hd.refCount⟩

/-- A new owner joins the subscriptions of the entry. -/
theorem subscribeSymbol_spec (hentries : ctx.EntriesCounted)
    (hnew : owner ∉ ctx.subscribers symbolName) :
    (ctx.subscribeSymbol symbolName owner).EntriesCounted ∧
      (ctx.subscribeSymbol symbolName owner).subscribers =
        Function.update ctx.subscribers symbolName (ctx.subscribers symbolName ++ [owner]) ∧
      (ctx.subscribeSymbol symbolName owner).subscriptions = ctx.subscriptions ∧
      (ctx.subscribeSymbol symbolName owner).created = ctx.created := by
  obtain ⟨hsubs, hnodup, hcount⟩ := getD_create hentries symbolName
  unfold Context.subscribeSymbol
  dsimp only
  generalize (ctx.symbols symbolName).getD .create = res at hsubs hnodup hcount
  rw [← hsubs] at hnew ⊢
  rw [if_neg hnew]
  refine ⟨hentries.setSymbol ?_, ?_, rfl, rfl⟩
  · rintro d h
    obtain rfl := Option.some.inj h
    refine ⟨?_, by simp, by simp [hcount]⟩
    rw [List.nodup_append]
    refine ⟨hnodup, List.nodup_singleton owner, ?_⟩
    intro a ha b hb heq
    rw [heq, List.mem_singleton.mp hb] at ha
    exact hnew ha
  · rw [subscribers_setSymbol]
    rfl

/-- An owner leaves the entry; the entry is dropped when its last owner leaves. -/
theorem unsubscribeSymbol_spec (hentries : ctx.EntriesCounted)
    (howner : owner ∈ ctx.subscribers symbolName) :
    ∃ ctx', ctx.unsubscribeSymbol symbolName owner = (ctx', none) ∧ ctx'.EntriesCounted ∧
      ctx'.subscribers =
        Function.update ctx.subscribers symbolName ((ctx.subscribers symbolName).erase owner) ∧
      ctx'.subscriptions = ctx.subscriptions ∧ ctx'.created = ctx.created := by
  cases hentry : ctx.symbols symbolName with
  | none => simp [Context.subscribers, hentry] at howner
  | some d =>
      have hsubs : ctx.subscribers symbolName = d.subscriptions := by
        simp [Context.subscribers, hentry]
      rw [hsubs] at howner ⊢
      have hd := hentries symbolName d hentry
      have hlen := List.length_erase_of_mem howner
      have hpos := List.length_pos_of_mem howner
      unfold Context.unsubscribeSymbol
      rw [hentry]
      dsimp only
      rw [if_pos howner]
      by_cases hlast : d.refCount - 1 = 0
      · rw [if_pos hlast]
        have herase : d.subscriptions.erase owner = [] := by
          rw [← List.length_eq_zero_iff, hlen]
          have hcount := hd.refCount
          omega
        refine ⟨_, rfl, hentries.setSymbol (by simp), ?_, rfl, rfl⟩
        rw [subscribers_setSymbol, herase]
        rfl
      · rw [if_neg hlast]
        refine ⟨_, rfl, hentries.setSymbol ?_, by rw [subscribers_setSymbol]; rfl, rfl, rfl⟩
        rintro _ h
        obtain rfl := Option.some.inj h
        have hcount := hd.refCount
        refine ⟨hd.nodup.erase owner, fun hnil => ?_, ?_⟩
        · have hzero : (d.subscriptions.erase owner).length = 0 := by
            rw [show d.subscriptions.erase owner = [] from hnil]
            rfl
          omega
        · show d.refCount - 1 = ((d.subscriptions.erase owner).length : ℤ)
          omega

/-! ### Agreement -/

section Agreement

variable {α β : Type} [DecidableEq α] [DecidableEq β] {A : α → List β} {B : β → List α}
  {a : α} {b : β}

/-- A new pair joins both sides of an agreement. -/
theorem agree_append (h : ∀ x y, y ∈ A x ↔ x ∈ B y) (x : α) (y : β) :
    y ∈ Function.update A a (A a ++ [b]) x ↔ x ∈ Function.update B b (B b ++ [a]) y := by
  by_cases hx : x = a
  · subst hx
    by_cases hy : y = b
    · subst hy
      simp
    · simp [hy, h]
  · by_cases hy : y = b
    · subst hy
      simp [hx, h]
    · simp [Function.update_of_ne hx, Function.update_of_ne hy, h]

/-- A pair leaves both sides of an agreement. -/
theorem agree_erase [BEq α] [LawfulBEq α] [BEq β] [LawfulBEq β]
    (h : ∀ x y, y ∈ A x ↔ x ∈ B y) (hA : (A a).Nodup) (hB : (B b).Nodup) (x : α) (y : β) :
    y ∈ Function.update A a ((A a).erase b) x ↔ x ∈ Function.update B b ((B b).erase a) y := by
  by_cases hx : x = a
  · subst hx
    by_cases hy : y = b
    · subst hy
      simp [hA.mem_erase_iff, hB.mem_erase_iff]
    · simp [hA.mem_erase_iff, hy, h]
  · by_cases hy : y = b
    · subst hy
      simp [hB.mem_erase_iff, hx, h]
    · simp [Function.update_of_ne hx, Function.update_of_ne hy, h]

end Agreement

theorem Linked.nodup_subscribers (h : Linked ctx) (symbolName : WString) :
    (ctx.subscribers symbolName).Nodup := by
  unfold Context.subscribers
  cases hentry : ctx.symbols symbolName with
  | none => exact List.nodup_nil
  | some d => exact (h.entries symbolName d hentry).nodup

theorem linked_empty : Linked (Context.empty : Context D) where
  subscribed _ _ := by simp [Context.subscribers, Context.symbolsOf, Context.empty]
  entries _ _ h := nomatch h
  subscriptions _ _ h := nomatch h

/-- A change of a subscription that keeps its symbols. -/
theorem Linked.setSubscription (h : Linked ctx) (hopen : ctx.subscriptions id = some s)
    {s' : SubscriptionData} (hsymbols : s'.symbols = s.symbols) (hs' : s'.Distinct) :
    Linked (ctx.setSubscription id (some s')) where
  subscribed symbolName j := by
    have hself : ((some s').map SubscriptionData.symbols).getD [] = ctx.symbolsOf id :=
      hsymbols.trans (symbolsOf_eq hopen).symm
    rw [symbolsOf_setSubscription, hself, Function.update_eq_self, subscribers_setSubscription]
    exact h.subscribed symbolName j
  entries := h.entries
  subscriptions := h.subscriptions.setSubscription hopen fun _ heq => Option.some.inj heq ▸ hs'

/-! ### Calls -/

theorem linked_createEventSubscription (h : Linked ctx) (eventTypes subscrFlags : ℕ) (time : ℤ) :
    Linked (ctx.createEventSubscription eventTypes subscrFlags time).1 := by
  unfold Context.createEventSubscription
  split_ifs with hunused
  · exact h
  · have hfresh : ctx.subscriptions ctx.created = none := by
      by_contra hsome
      obtain ⟨s, hs⟩ := Option.ne_none_iff_exists'.mp hsome
      exact absurd (h.subscriptions ctx.created s hs).2 (lt_irrefl _)
    refine ⟨fun symbolName j => ?_, h.entries, fun j s hs => ?_⟩
    · have hlink := h.subscribed symbolName j
      by_cases hj : j = ctx.created
      · subst hj
        have hnone : ctx.symbolsOf ctx.created = [] := by simp [Context.symbolsOf, hfresh]
        rw [hnone] at hlink
        simpa [Context.symbolsOf, Context.subscribers] using hlink
      · simpa [Context.symbolsOf, Context.subscribers, Function.update_of_ne hj] using hlink
    · by_cases hj : j = ctx.created
      · subst hj
        simp only [Function.update_self, Option.some.injEq] at hs
        subst hs
        exact ⟨⟨List.nodup_nil, List.nodup_nil⟩, Nat.lt_succ_self _⟩
      · simp only [Function.update_of_ne hj] at hs
        obtain ⟨hdistinct, hlt⟩ := h.subscriptions j s hs
        exact ⟨hdistinct, hlt.trans (Nat.lt_succ_self _)⟩

theorem linked_addSymbol (h : Linked ctx) (id : SubscriptionId) (symbol : Option WString) :
    Linked (ctx.addSymbol id symbol) := by
  cases hopen : ctx.subscriptions id with
  | none => simpa only [Context.addSymbol, hopen] using h
  | some s =>
  cases symbol with
  | none => simpa only [Context.addSymbol, hopen] using h
  | some symbolName =>
      simp only [Context.addSymbol, hopen]
      split_ifs with hskip
      · exact h
      have hnew : symbolName ∉ s.symbols := fun hmem => hskip (Or.inr hmem)
      have hsymbols := symbolsOf_eq hopen
      have howner : id ∉ ctx.subscribers symbolName := by
        rwa [h.subscribed, hsymbols]
      obtain ⟨hentries, hsubs, hsubscriptions, hcreated⟩ := subscribeSymbol_spec h.entries howner
      obtain ⟨hdistinct, -⟩ := h.subscriptions id s hopen
      have hsym : (ctx.subscribeSymbol symbolName id).symbolsOf = ctx.symbolsOf := by
        funext j
        simp [Context.symbolsOf, hsubscriptions]
      have hbase : (ctx.subscribeSymbol symbolName id).SubscriptionsDistinct := by
        intro j s'
        rw [hsubscriptions, hcreated]
        exact h.subscriptions j s'
      refine ⟨fun n j => ?_, hentries, hbase.setSubscription (hsubscriptions ▸ hopen) ?_⟩
      · have hagree := agree_append (a := symbolName) (b := id) h.subscribed n j
        rw [hsymbols] at hagree
        rw [subscribers_setSubscription, hsubs, symbolsOf_setSubscription, hsym]
        exact hagree
      · rintro s' heq
        obtain rfl := Option.some.inj heq
        refine ⟨?_, hdistinct.listeners⟩
        rw [List.nodup_append]
        refine ⟨hdistinct.symbols, List.nodup_singleton _, fun a ha b hb heq => ?_⟩
        rw [heq, List.mem_singleton.mp hb] at ha
        exact hnew ha

theorem linked_addSymbols (h : Linked ctx) (id : SubscriptionId)
    (symbols : List (Option WString)) : Linked (ctx.addSymbols id symbols).1 := by
  have hfold : Linked (symbols.foldl (fun ctx symbol => ctx.addSymbol id symbol) ctx) := by
    induction symbols generalizing ctx with
    | nil => exact h
    | cons symbol symbols ih => exact ih (linked_addSymbol h id symbol)
  unfold Context.addSymbols
  split
  · exact h
  · exact hfold

theorem linked_removeSymbol (h : Linked ctx) (id : SubscriptionId) (symbol : Option WString) :
    ∃ ctx', ctx.removeSymbol id symbol = (ctx', none) ∧ Linked ctx' := by
  cases hopen : ctx.subscriptions id with
  | none => exact ⟨ctx, by simp only [Context.removeSymbol, hopen], h⟩
  | some s =>
  cases symbol with
  | none => exact ⟨ctx, by simp only [Context.removeSymbol, hopen], h⟩
  | some symbolName =>
      simp only [Context.removeSymbol, hopen]
      split_ifs with hskip
      · exact ⟨ctx, rfl, h⟩
      obtain ⟨-, hmem⟩ := not_or.mp hskip
      rw [not_not] at hmem
      have hsymbols := symbolsOf_eq hopen
      have howner : id ∈ ctx.subscribers symbolName := by
        rwa [h.subscribed, hsymbols]
      obtain ⟨ctx', hcall, hentries, hsubs, hsubscriptions, hcreated⟩ :=
        unsubscribeSymbol_spec h.entries howner
      obtain ⟨hdistinct, -⟩ := h.subscriptions id s hopen
      have hsym : ctx'.symbolsOf = ctx.symbolsOf := by
        funext j
        simp [Context.symbolsOf, hsubscriptions]
      have hbase : ctx'.SubscriptionsDistinct := by
        intro j s'
        rw [hsubscriptions, hcreated]
        exact h.subscriptions j s'
      rw [hcall]
      refine ⟨_, rfl, fun n j => ?_, hentries, hbase.setSubscription (hsubscriptions ▸ hopen) ?_⟩
      · have hagree := agree_erase (a := symbolName) (b := id) h.subscribed
          (h.nodup_subscribers symbolName) (hsymbols ▸ hdistinct.symbols) n j
        rw [hsymbols] at hagree
        rw [subscribers_setSubscription, hsubs, symbolsOf_setSubscription, hsym]
        exact hagree
      · rintro s' heq
        obtain rfl := Option.some.inj heq
        exact ⟨hdistinct.symbols.erase symbolName, hdistinct.listeners⟩

theorem linked_removeSymbolsLoop (h : Linked ctx) (id : SubscriptionId)
    (symbols : List (Option WString)) :
    ∃ ctx', Context.removeSymbolsLoop id symbols ctx = (ctx', none) ∧ Linked ctx' := by
  induction symbols generalizing ctx with
  | nil => exact ⟨ctx, rfl, h⟩
  | cons symbol symbols ih =>
      obtain ⟨ctx₁, hcall, h₁⟩ := linked_removeSymbol h id symbol
      rw [Context.removeSymbolsLoop, hcall]
      exact ih h₁

theorem linked_removeSymbols (h : Linked ctx) (id : SubscriptionId)
    (symbols : List (Option WString)) : Linked (ctx.removeSymbols id symbols).1 := by
  unfold Context.removeSymbols
  split
  · exact h
  · obtain ⟨ctx', hcall, h'⟩ := linked_removeSymbolsLoop h id symbols
    rw [hcall]
    exact h'

/-- The owner leaves the entries of all its symbols. -/
theorem unsubscribeAll_spec {symbols : List WString} (hentries : ctx.EntriesCounted)
    (hnodup : symbols.Nodup) (howner : ∀ n ∈ symbols, owner ∈ ctx.subscribers n) :
    ∃ ctx', Context.unsubscribeAll owner symbols ctx = (ctx', none) ∧ ctx'.EntriesCounted ∧
      (∀ n, ctx'.subscribers n =
        if n ∈ symbols then (ctx.subscribers n).erase owner else ctx.subscribers n) ∧
      ctx'.subscriptions = ctx.subscriptions ∧ ctx'.created = ctx.created := by
  induction symbols generalizing ctx with
  | nil => exact ⟨ctx, rfl, hentries, fun n => by simp, rfl, rfl⟩
  | cons symbolName symbols ih =>
      obtain ⟨hnotMem, hnodup⟩ := List.nodup_cons.mp hnodup
      obtain ⟨ctx₁, hcall₁, hentries₁, hsubs₁, hsubscriptions₁, hcreated₁⟩ :=
        unsubscribeSymbol_spec hentries (howner symbolName List.mem_cons_self)
      have howner₁ : ∀ n ∈ symbols, owner ∈ ctx₁.subscribers n := by
        intro n hn
        have hne : n ≠ symbolName := fun heq => hnotMem (heq ▸ hn)
        rw [hsubs₁, Function.update_of_ne hne]
        exact howner n (List.mem_cons_of_mem _ hn)
      obtain ⟨ctx₂, hcall₂, hentries₂, hsubs₂, hsubscriptions₂, hcreated₂⟩ :=
        ih hentries₁ hnodup howner₁
      refine ⟨ctx₂, ?_, hentries₂, fun n => ?_, hsubscriptions₂.trans hsubscriptions₁,
        hcreated₂.trans hcreated₁⟩
      · simp only [Context.unsubscribeAll, hcall₁, hcall₂]
        rfl
      · rw [hsubs₂, hsubs₁]
        by_cases hn : n = symbolName
        · subst hn
          rw [if_neg hnotMem, Function.update_self, if_pos List.mem_cons_self]
        · rw [Function.update_of_ne hn]
          simp [hn]

theorem linked_closeEventSubscription (h : Linked ctx) (id : SubscriptionId) :
    Linked (ctx.closeEventSubscription id).1 := by
  unfold Context.closeEventSubscription
  cases hopen : ctx.subscriptions id with
  | none => exact h
  | some s =>
      have hsymbols := symbolsOf_eq hopen
      obtain ⟨hdistinct, -⟩ := h.subscriptions id s hopen
      have howner : ∀ n ∈ s.symbols, id ∈ ctx.subscribers n := by
        intro n hn
        rwa [h.subscribed, hsymbols]
      obtain ⟨ctx', hcall, hentries, hsubs, hsubscriptions, hcreated⟩ :=
        unsubscribeAll_spec h.entries hdistinct.symbols howner
      have hsym : ctx'.symbolsOf = ctx.symbolsOf := by
        funext j
        simp [Context.symbolsOf, hsubscriptions]
      have hbase : ctx'.SubscriptionsDistinct := by
        intro j s'
        rw [hsubscriptions, hcreated]
        exact h.subscriptions j s'
      dsimp only
      rw [hcall]
      refine ⟨fun n j => ?_, hentries, hbase.setSubscription (hsubscriptions ▸ hopen) (by simp)⟩
      have hlink := h.subscribed n j
      rw [subscribers_setSubscription, symbolsOf_setSubscription, hsym, hsubs]
      by_cases hj : j = id
      · subst hj
        rw [Function.update_self]
        rw [hsymbols] at hlink
        split_ifs with hn
        · simp [(h.nodup_subscribers n).mem_erase_iff]
        · simpa [hn] using hlink
      · rw [Function.update_of_ne hj, ← hlink]
        split_ifs
        · exact List.mem_erase_of_ne hj
        · rfl

theorem linked_setEventSubscriptionFlags (h : Linked ctx) (id : SubscriptionId)
    (subscrFlags : ℕ) : Linked (ctx.setEventSubscriptionFlags id subscrFlags).1 := by
  unfold Context.setEventSubscriptionFlags
  cases hopen : ctx.subscriptions id with
  | none => exact h
  | some s =>
      obtain ⟨hdistinct, -⟩ := h.subscriptions id s hopen
      exact h.setSubscription hopen rfl ⟨hdistinct.symbols, hdistinct.listeners⟩

theorem linked_addOrderSource (h : Linked ctx) (id : SubscriptionId) (source : WString) :
    Linked (ctx.addOrderSource id source).1 := by
  unfold Context.addOrderSource
  cases hopen : ctx.subscriptions id with
  | none => exact h
  | some s =>
      obtain ⟨hdistinct, -⟩ := h.subscriptions id s hopen
      exact h.setSubscription hopen rfl ⟨hdistinct.symbols, hdistinct.listeners⟩

theorem linked_clearOrderSource (h : Linked ctx) (id : SubscriptionId) :
    Linked (ctx.clearOrderSource id) := by
  unfold Context.clearOrderSource
  cases hopen : ctx.subscriptions id with
  | none => exact h
  | some s =>
      obtain ⟨hdistinct, -⟩ := h.subscriptions id s hopen
      exact h.setSubscription hopen rfl ⟨hdistinct.symbols, hdistinct.listeners⟩

theorem linked_addListener (h : Linked ctx) (id : SubscriptionId) (listener : Option ListenerPtr)
    (version : EventListenerVersion) (userData : ℕ) :
    Linked (ctx.addListener id listener version userData).1 := by
  cases hopen : ctx.subscriptions id with
  | none => simpa only [Context.addListener, hopen] using h
  | some s =>
  cases listener with
  | none => simpa only [Context.addListener, hopen] using h
  | some listener =>
      simp only [Context.addListener, hopen]
      split_ifs with hmem
      · exact h
      obtain ⟨hdistinct, -⟩ := h.subscriptions id s hopen
      refine h.setSubscription hopen rfl ⟨hdistinct.symbols, ?_⟩
      rw [List.map_append, List.nodup_append]
      refine ⟨hdistinct.listeners, List.nodup_singleton _, fun a ha b hb heq => hmem ?_⟩
      rwa [heq, List.mem_singleton.mp hb] at ha

theorem linked_removeListener (h : Linked ctx) (id : SubscriptionId)
    (listener : Option ListenerPtr) : Linked (ctx.removeListener id listener).1 := by
  cases hopen : ctx.subscriptions id with
  | none => simpa only [Context.removeListener, hopen] using h
  | some s =>
  cases listener with
  | none => simpa only [Context.removeListener, hopen] using h
  | some listener =>
      simp only [Context.removeListener, hopen]
      obtain ⟨hdistinct, -⟩ := h.subscriptions id s hopen
      exact h.setSubscription hopen rfl ⟨hdistinct.symbols,
        hdistinct.listeners.sublist (List.filter_sublist.map _)⟩

/-! ### Events -/

/-- The reference that is taken for an event is not the last one. -/
theorem SymbolData.Counted.referenced {d : SymbolData D} (h : d.Counted) :
    ¬ d.refCount + 1 - 1 = 0 := by
  have hlen := List.length_pos_of_ne_nil h.ne_nil
  have hcount := h.refCount
  omega

/-- Passing an event on stores it in the entry; the entry stays because it is referenced. -/
theorem passEventDataToListeners_fst (h : Linked ctx) (event : Event D) (symbolName : WString) :
    Linked (ctx.passEventDataToListeners event symbolName).1 ∧
      (ctx.passEventDataToListeners event symbolName).1.subscribers = ctx.subscribers ∧
      (ctx.passEventDataToListeners event symbolName).1.subscriptions = ctx.subscriptions := by
  unfold Context.passEventDataToListeners
  cases hentry : ctx.symbols symbolName with
  | none => exact ⟨h, rfl, rfl⟩
  | some d =>
      have hd := h.entries symbolName d hentry
      have hsubs : ctx.subscribers symbolName = d.subscriptions := by
        simp [Context.subscribers, hentry]
      dsimp only [SymbolData.storeLastSymbolEvent]
      rw [if_neg hd.referenced]
      have hkeep : (ctx.setSymbol symbolName (some (d.storeLastSymbolEvent event.eventId
          event.data))).subscribers = ctx.subscribers := by
        rw [subscribers_setSymbol]
        exact (congrArg _ hsubs.symm).trans (Function.update_eq_self _ _)
      refine ⟨⟨fun n j => ?_, h.entries.setSymbol ?_, h.subscriptions⟩, hkeep, rfl⟩
      · rw [symbolsOf_setSymbol, ← h.subscribed n j]
        exact iff_of_eq (congrArg (j ∈ · n) hkeep)
      · rintro _ heq
        obtain rfl := Option.some.inj heq
        exact ⟨hd.nodup, hd.ne_nil, hd.refCount⟩

theorem linked_processEventData (h : Linked ctx) (event : Event D) :
    Linked (ctx.processEventData event).1 := by
  obtain ⟨h₁, -, -⟩ := passEventDataToListeners_fst h event event.symbolName
  exact (passEventDataToListeners_fst h₁ event wildcardSymbol).1

/-- Every call keeps the agreement. -/
theorem linked_apply (h : Linked ctx) (call : ApiCall D) : Linked (ctx.apply call) := by
  cases call with
  | createSubscription eventTypes subscrFlags time =>
      exact linked_createEventSubscription h eventTypes subscrFlags time
  | closeSubscription id => exact linked_closeEventSubscription h id
  | addSymbols id symbols => exact linked_addSymbols h id symbols
  | removeSymbols id symbols => exact linked_removeSymbols h id symbols
  | setFlags id subscrFlags => exact linked_setEventSubscriptionFlags h id subscrFlags
  | addListener id listener version userData =>
      exact linked_addListener h id listener version userData
  | removeListener id listener => exact linked_removeListener h id listener
  | addOrderSource id source => exact linked_addOrderSource h id source
  | clearOrderSource id => exact linked_clearOrderSource h id
  | processEventData event => exact linked_processEventData h event

/-- Symbol entries and subscriptions agree after every sequence of calls. -/
theorem linked_after (calls : List (ApiCall D)) : Linked (Context.after calls) := by
  induction calls using List.reverseRecOn with
  | nil => exact linked_empty
  | append_singleton calls call ih =>
      have hafter : Context.after (calls ++ [call]) = (Context.after calls).apply call :=
        List.foldl_concat ..
      rw [hafter]
      exact linked_apply ih call

end DxFeed.EventSubscription
