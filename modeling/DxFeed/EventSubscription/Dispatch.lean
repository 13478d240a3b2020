import DxFeed.EventSubscription.Linked

/-!
# Which listeners does an event reach?

An event should reach every listener of every subscription that accepts it and has its symbol or
the wildcard, once, and no other listener.

* `Accepts`: the event type and the order source suit the subscription;
* `Due`: the calls that an event should make;
* `mem_pass`, `nodup_pass`: the calls of one pass over a symbol entry.  Both passes look for the
  symbol of the event among the symbols of the subscription, also the pass over the wildcard;
* `exactlyOnce_iff`: an event makes exactly the calls that are due if and only if no
  subscription that accepts it and has a listener has the wildcard.
-/

namespace DxFeed.EventSubscription

variable {D : Type}

/-- The event type is in the mask of the subscription, and the source of an order is among its
order sources if it has any. -/
def Accepts (s : SubscriptionData) (event : Event D) : Prop :=
  s.eventTypes &&& event.eventId.bitMask ≠ 0 ∧
    (event.eventId = .order → s.orderSource = [] ∨ event.data.source ∈ s.orderSource)

instance (s : SubscriptionData) (event : Event D) : Decidable (Accepts s event) :=
  inferInstanceAs (Decidable (_ ∧ (_ → _)))

/-- A call of a listener of an open subscription that accepts the event. -/
structure Reaches (ctx : Context D) (event : Event D) (call : ListenerCall D)
    (s : SubscriptionData) : Prop where
  isOpen : ctx.subscriptions call.subscription = some s
  accepts : Accepts s event
  listener : call.listener ∈ s.listeners
  call_eq : call = listenerCall call.subscription event call.listener

/-- The call should be made: its subscription has the symbol of the event or the wildcard. -/
def Due (ctx : Context D) (event : Event D) (call : ListenerCall D) : Prop :=
  ∃ s, Reaches ctx event call s ∧
    (event.symbolName ∈ s.symbols ∨ wildcardSymbol ∈ s.symbols)

/-- The event makes the calls that are due, each of them once, and no other calls. -/
def ExactlyOnce (ctx : Context D) (event : Event D) : Prop :=
  (ctx.processEventData event).2.Nodup ∧
    ∀ call, call ∈ (ctx.processEventData event).2 ↔ Due ctx event call

/-- No subscription that accepts the event and has a listener has the wildcard. -/
def NoWildcard (ctx : Context D) (event : Event D) : Prop :=
  ∀ id s, ctx.subscriptions id = some s → Accepts s event → s.listeners ≠ [] →
    wildcardSymbol ∉ s.symbols

variable {ctx : Context D} {event : Event D} {call : ListenerCall D} {id : SubscriptionId}
  {symbolName : WString}

/-! ### One pass -/

theorem mem_callSubscrListeners {s : SubscriptionData} :
    call ∈ callSubscrListeners id s event ↔
      event.symbolName ∈ s.symbols ∧ call.subscription = id ∧ call.listener ∈ s.listeners ∧
        call = listenerCall id event call.listener := by
  unfold callSubscrListeners
  split_ifs with hsymbol
  · constructor
    · intro hmem
      obtain ⟨l, hl, rfl⟩ := List.mem_map.mp hmem
      exact ⟨hsymbol, rfl, hl, rfl⟩
    · rintro ⟨-, -, hl, hcall⟩
      rw [hcall]
      exact List.mem_map_of_mem hl
  · simp [hsymbol]

/-- The round for a subscription makes calls on its behalf if it accepts the event and has its
symbol. -/
theorem mem_passToSubscription :
    call ∈ passToSubscription ctx event id ↔
      call.subscription = id ∧ ∃ s, Reaches ctx event call s ∧ event.symbolName ∈ s.symbols := by
  have hmem : ∀ s, ctx.subscriptions id = some s → Accepts s event →
      (call ∈ callSubscrListeners id s event ↔
        call.subscription = id ∧ ∃ s, Reaches ctx event call s ∧ event.symbolName ∈ s.symbols) := by
    intro s hopen haccepts
    rw [mem_callSubscrListeners]
    constructor
    · rintro ⟨hsymbol, rfl, hl, hcall⟩
      exact ⟨rfl, s, ⟨hopen, haccepts, hl, hcall⟩, hsymbol⟩
    · rintro ⟨rfl, s', hs', hsymbol⟩
      obtain rfl := Option.some.inj (hopen.symm.trans hs'.isOpen)
      exact ⟨hsymbol, rfl, hs'.listener, hs'.call_eq⟩
  have hskip : ∀ s, ctx.subscriptions id = some s → ¬ Accepts s event →
      ¬ (call.subscription = id ∧
        ∃ s, Reaches ctx event call s ∧ event.symbolName ∈ s.symbols) := by
    rintro s hopen hrejects ⟨rfl, s', hs', -⟩
    obtain rfl := Option.some.inj (hopen.symm.trans hs'.isOpen)
    exact hrejects hs'.accepts
  unfold passToSubscription
  cases hopen : ctx.subscriptions id with
  | none =>
      refine iff_of_false List.not_mem_nil ?_
      rintro ⟨rfl, s', hs', -⟩
      rw [hs'.isOpen] at hopen
      cases hopen
  | some s =>
      dsimp only
      split_ifs with htype horder hsource
      · exact iff_of_false List.not_mem_nil (hskip s hopen fun h => h.1 htype)
      · exact hmem s hopen ⟨htype, fun _ => Or.inr hsource⟩
      · refine iff_of_false List.not_mem_nil (hskip s hopen fun h => ?_)
        rcases h.2 horder.1 with hnil | hmem
        · simp [hnil] at horder
        · exact hsource hmem
      · refine hmem s hopen ⟨htype, fun heq => Or.inl ?_⟩
        rw [← List.length_eq_zero_iff]
        by_contra hne
        exact horder ⟨heq, Nat.pos_of_ne_zero hne⟩

theorem nodup_passToSubscription (h : Linked ctx) (event : Event D) (id : SubscriptionId) :
    (passToSubscription ctx event id).Nodup := by
  have hcalls : ∀ s, ctx.subscriptions id = some s → (callSubscrListeners id s event).Nodup := by
    intro s hopen
    obtain ⟨hdistinct, -⟩ := h.subscriptions id s hopen
    unfold callSubscrListeners
    split_ifs
    · refine (hdistinct.listeners.of_map _).map ?_
      intro l l' heq
      exact congrArg ListenerCall.listener heq
    · exact List.nodup_nil
  unfold passToSubscription
  cases hopen : ctx.subscriptions id with
  | none => exact List.nodup_nil
  | some s =>
      have hs := hcalls s hopen
      dsimp only
      split_ifs
      · exact List.nodup_nil
      · exact hs
      · exact List.nodup_nil
      · exact hs

theorem passEventDataToListeners_snd (ctx : Context D) (event : Event D) (symbolName : WString) :
    (ctx.passEventDataToListeners event symbolName).2 =
      (ctx.subscribers symbolName).flatMap (passToSubscription ctx event) := by
  unfold Context.passEventDataToListeners
  cases hentry : ctx.symbols symbolName with
  | none => simp [Context.subscribers, hentry]
  | some d =>
      have hsubs : ctx.subscribers symbolName = d.subscriptions := by
        simp [Context.subscribers, hentry]
      rw [hsubs]
      dsimp only
      split_ifs <;> rfl

/-- The pass over a symbol entry calls the subscriptions that have both the symbol of the entry
and the symbol of the event. -/
theorem mem_pass (h : Linked ctx) :
    call ∈ (ctx.passEventDataToListeners event symbolName).2 ↔
      ∃ s, Reaches ctx event call s ∧ symbolName ∈ s.symbols ∧ event.symbolName ∈ s.symbols := by
  rw [passEventDataToListeners_snd, List.mem_flatMap]
  constructor
  · rintro ⟨id, hid, hmem⟩
    obtain ⟨rfl, s, hs, hsymbol⟩ := mem_passToSubscription.mp hmem
    rw [h.subscribed, symbolsOf_eq hs.isOpen] at hid
    exact ⟨s, hs, hid, hsymbol⟩
  · rintro ⟨s, hs, hname, hsymbol⟩
    refine ⟨call.subscription, ?_, mem_passToSubscription.mpr ⟨rfl, s, hs, hsymbol⟩⟩
    rw [h.subscribed, symbolsOf_eq hs.isOpen]
    exact hname

theorem nodup_pass (h : Linked ctx) (event : Event D) (symbolName : WString) :
    (ctx.passEventDataToListeners event symbolName).2.Nodup := by
  rw [passEventDataToListeners_snd, List.nodup_flatMap]
  refine ⟨fun id _ => nodup_passToSubscription h event id, ?_⟩
  apply (h.nodup_subscribers symbolName).imp
  intro id id' hne call hcall hcall'
  obtain ⟨rfl, -⟩ := mem_passToSubscription.mp hcall
  obtain ⟨heq, -⟩ := mem_passToSubscription.mp hcall'
  exact hne heq

/-! ### Both passes -/

/-- The calls of an event are those of the pass over its symbol, and then those of the pass over
the wildcard. -/
theorem processEventData_calls (h : Linked ctx) (event : Event D) :
    ∃ calls wildcardCalls, (ctx.processEventData event).2 = calls ++ wildcardCalls ∧
      calls.Nodup ∧ wildcardCalls.Nodup ∧
      (∀ call, call ∈ calls ↔ ∃ s, Reaches ctx event call s ∧ event.symbolName ∈ s.symbols) ∧
      (∀ call, call ∈ wildcardCalls ↔ ∃ s, Reaches ctx event call s ∧
        wildcardSymbol ∈ s.symbols ∧ event.symbolName ∈ s.symbols) := by
  obtain ⟨h₁, -, hsubscriptions⟩ := passEventDataToListeners_fst h event event.symbolName
  refine ⟨(ctx.passEventDataToListeners event event.symbolName).2,
    ((ctx.passEventDataToListeners event event.symbolName).1.passEventDataToListeners event
      wildcardSymbol).2, rfl, nodup_pass h event _, nodup_pass h₁ event _, fun call => ?_,
    fun call => ?_⟩
  · rw [mem_pass h]
    simp only [and_self]
  · have hreaches : ∀ s, Reaches (ctx.passEventDataToListeners event event.symbolName).1 event call s
        ↔ Reaches ctx event call s := by
      intro s
      constructor
      · rintro ⟨hopen, haccepts, hl, hcall⟩
        exact ⟨hsubscriptions ▸ hopen, haccepts, hl, hcall⟩
      · rintro ⟨hopen, haccepts, hl, hcall⟩
        exact ⟨hsubscriptions.symm ▸ hopen, haccepts, hl, hcall⟩
    rw [mem_pass h₁]
    simp only [hreaches]

/-- After every sequence of calls, an event makes exactly the calls that are due if and only if
no subscription that accepts it and has a listener has the wildcard. -/
theorem exactlyOnce_iff (calls : List (ApiCall D)) (event : Event D) :
    ExactlyOnce (Context.after calls) event ↔ NoWildcard (Context.after calls) event := by
  obtain ⟨symbolCalls, wildcardCalls, hcalls, hnodup, hnodup', hmem, hmem'⟩ :=
    processEventData_calls (linked_after calls) event
  generalize Context.after calls = ctx at *
  unfold ExactlyOnce
  rw [hcalls]
  constructor
  · rintro ⟨hnodup, hdue⟩ id s hopen haccepts hlisteners hwildcard
    obtain ⟨l, hl⟩ := List.exists_mem_of_ne_nil _ hlisteners
    have hreaches : Reaches ctx event (listenerCall id event l) s := ⟨hopen, haccepts, hl, rfl⟩
    have hcall := (hdue _).mpr ⟨s, hreaches, Or.inr hwildcard⟩
    -- a call that is made at all needs the symbol of the event, and then both passes make it
    have hsymbol : event.symbolName ∈ s.symbols := by
      rcases List.mem_append.mp hcall with hcall | hcall
      · obtain ⟨s', hs', hsymbol⟩ := (hmem _).mp hcall
        obtain rfl := Option.some.inj (hopen.symm.trans hs'.isOpen)
        exact hsymbol
      · obtain ⟨s', hs', -, hsymbol⟩ := (hmem' _).mp hcall
        obtain rfl := Option.some.inj (hopen.symm.trans hs'.isOpen)
        exact hsymbol
    exact List.disjoint_of_nodup_append hnodup ((hmem _).mpr ⟨s, hreaches, hsymbol⟩)
      ((hmem' _).mpr ⟨s, hreaches, hwildcard, hsymbol⟩)
  · intro hno
    have hnone : ∀ call s, Reaches ctx event call s → wildcardSymbol ∉ s.symbols :=
      fun call s hs => hno _ s hs.isOpen hs.accepts (List.ne_nil_of_mem hs.listener)
    have hempty : wildcardCalls = [] := by
      rw [List.eq_nil_iff_forall_not_mem]
      intro call hcall
      obtain ⟨s, hs, hwildcard, -⟩ := (hmem' call).mp hcall
      exact hnone call s hs hwildcard
    rw [hempty, List.append_nil]
    refine ⟨hnodup, fun call => ?_⟩
    rw [hmem]
    constructor
    · rintro ⟨s, hs, hsymbol⟩
      exact ⟨s, hs, Or.inl hsymbol⟩
    · rintro ⟨s, hs, hsymbol | hwildcard⟩
      · exact ⟨s, hs, hsymbol⟩
      · exact absurd hwildcard (hnone call s hs)

/-- A subscription to the trades of all symbols, with one listener. -/
def wildcardCalls : List (ApiCall Unit) :=
  [.createSubscription EventId.trade.bitMask 0 0, .addSymbols 0 [some wildcardSymbol],
    .addListener 0 (some 1) .default 0]

/-- A trade of the symbol `A`. -/
def tradeEvent : Event Unit :=
  ⟨.trade, [65], ⟨[], ()⟩, ⟨0, 0, 0⟩⟩

/-- The only subscription has the wildcard; its listener should be called, and is not. -/
theorem wildcard_not_called :
    ((Context.after wildcardCalls).processEventData tradeEvent).2 = [] ∧
      Due (Context.after wildcardCalls) tradeEvent
        (listenerCall 0 tradeEvent ⟨1, .default, 0⟩) := by
  refine ⟨by decide, ⟨EventId.trade.bitMask, [wildcardSymbol], [⟨1, .default, 0⟩], [], 0, 0⟩,
    ⟨by decide, by decide, by decide, rfl⟩, by decide⟩

/-- A subscription with both the symbol and the wildcard is called twice. -/
example :
    let ctx : Context Unit := Context.after
      (wildcardCalls ++ [.addSymbols 0 [some tradeEvent.symbolName]])
    (ctx.processEventData tradeEvent).2 =
      List.replicate 2 (listenerCall 0 tradeEvent ⟨1, .default, 0⟩) := by
  decide

end DxFeed.EventSubscription
