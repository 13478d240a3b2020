import DxFeed.EventData.SubscriptionParams
import DxFeed.EventSubscription.Linked
import DxFeed.Library.History

/-!
# Wildcard subscriptions

The symbol `*` stands for all symbols.  The calls of `DXFeed.c` that add, remove, clear and set the
symbols of a subscription test for it by the first character of a symbol, and keep the mode in a flag
of the subscription.

* `Client`: a connection, and the messages that were sent for one of its subscriptions;
* `dxfAddSymbols`, `dxfRemoveSymbols`, `dxfClearSymbols`, `dxfSetSymbols`, `refresh`: the calls, and
  what a reconnection sends;
* `Exclusive`: the flag, the symbols and the messages agree on the mode;
* `exclusive_iff`: they agree in all of a run if and only if no call asks for the wildcard.
-/

namespace DxFeed.EventSubscription

open History

variable {D : Type}

/-! ### Messages -/

/-- Why a message is sent: by a call that adds or removes a symbol, or after a reconnection. -/
inductive MessageKind
  | add
  | remove
  | refresh
  deriving DecidableEq, Repr

/-- A message about a symbol and a record; the time goes only with the additions to histories. -/
structure Message where
  kind : MessageKind
  symbol : WString
  recordName : WString
  subscriptionType : SubscriptionType
  time : Option ℤ
  deriving DecidableEq, Repr

/-- The message of `dx_subscribe_symbol_to_record`. -/
def subscribeSymbolToRecord (kind : MessageKind) (symbol : WString) (time : ℤ)
    (param : EventSubscriptionParam) : Message where
  kind := kind
  symbol := symbol
  recordName := param.recordName
  subscriptionType := param.subscriptionType
  time := if kind ≠ .remove ∧ param.subscriptionType = .history then some time else none

/-- The messages of `dx_subscribe_symbols_to_events`; empty symbols are skipped. -/
def subscribeSymbolsToEvents (kind : MessageKind) (s : SubscriptionData) (symbols : List WString)
    (subscrFlags : ℕ) : List Message :=
  (symbols.filter (· ≠ [])).flatMap fun symbol =>
    (subscriptionParams s.orderSource s.eventTypes subscrFlags).map
      (subscribeSymbolToRecord kind symbol s.time)

/-! ### Calls -/

/-- The connection, and the messages for one subscription, the oldest first. -/
structure Client (D : Type) where
  ctx : Context D
  sent : List Message

/-- `DX_WILDCARD_COMPARATOR`: the first characters are equal. -/
def isWildcard (symbol : WString) : Bool := symbol.take 1 = wildcardSymbol.take 1

variable (id : SubscriptionId)

/-- `dxf_clear_symbols`. -/
def dxfClearSymbols (client : Client D) : Client D × Bool :=
  match client.ctx.subscriptions id with
  | none => (client, false)
  | some s =>
      let sent := client.sent ++
        subscribeSymbolsToEvents .remove s s.symbols s.subscriptionFlags
      match client.ctx.removeSymbols id (s.symbols.map some) with
      | (ctx, some _) => (⟨ctx, sent⟩, false)
      | (ctx, none) =>
          if isFlagSet s.subscriptionFlags SubscrFlag.wildcard then
            let (ctx, error) := ctx.setEventSubscriptionFlags id
              (s.subscriptionFlags ^^^ SubscrFlag.wildcard)
            (⟨ctx, sent⟩, error.isNone)
          else (⟨ctx, sent⟩, true)

/-- The end of `dxf_add_symbols`: the flags are those of the call, not those of the subscription. -/
def addSubscrSymbols (subscrSymbols : List WString) (subscrFlags : ℕ) (client : Client D) :
    Client D × Bool :=
  match client.ctx.subscriptions id with
  | none => (client, false)
  | some s =>
      match client.ctx.addSymbols id (subscrSymbols.map some) with
      | (ctx, some _) => (⟨ctx, client.sent⟩, false)
      | (ctx, none) =>
          (⟨ctx, client.sent ++ subscribeSymbolsToEvents .add s subscrSymbols subscrFlags⟩, true)

/-- `dxf_add_symbols`. -/
def dxfAddSymbols (symbols : List WString) (client : Client D) : Client D × Bool :=
  if symbols = [] then (client, true)
  else
    match client.ctx.subscriptions id with
    | none => (client, false)
    | some s =>
        if isFlagSet s.subscriptionFlags SubscrFlag.wildcard then (client, true)
        else if symbols.any isWildcard then
          match dxfClearSymbols id client with
          | (client, false) => (client, false)
          | (client, true) =>
              -- the flag is set in the copy that was read in front of the search
              addSubscrSymbols id [wildcardSymbol] (s.subscriptionFlags ^^^ SubscrFlag.wildcard)
                client
        else addSubscrSymbols id symbols s.subscriptionFlags client

/-- `dxf_remove_symbols`. -/
def dxfRemoveSymbols (symbols : List WString) (client : Client D) : Client D × Bool :=
  match client.ctx.subscriptions id with
  | none => (client, false)
  | some s =>
      if s.symbols = [] then (client, true)
      else if symbols.any isWildcard then dxfClearSymbols id client
      else if isFlagSet s.subscriptionFlags SubscrFlag.wildcard then (client, true)
      else
        let sent := client.sent ++ subscribeSymbolsToEvents .remove s symbols s.subscriptionFlags
        let (ctx, error) := client.ctx.removeSymbols id (symbols.map some)
        (⟨ctx, sent⟩, error.isNone)

/-- `dxf_set_symbols`. -/
def dxfSetSymbols (symbols : List WString) (client : Client D) : Client D × Bool :=
  match dxfClearSymbols id client with
  | (client, false) => (client, false)
  | (client, true) => dxfAddSymbols id symbols client

/-- What `dx_reestablish_connection` sends for the subscription. -/
def refresh (client : Client D) : Client D × Bool :=
  match client.ctx.subscriptions id with
  | none => (client, true)
  | some s =>
      (⟨client.ctx, client.sent ++
        subscribeSymbolsToEvents .refresh s s.symbols s.subscriptionFlags⟩, true)

/-- A call for the symbols of a subscription, or a reconnection. -/
inductive SymbolCall
  | add (symbols : List WString)
  | remove (symbols : List WString)
  | clear
  | set (symbols : List WString)
  | reconnect

def SymbolCall.exec (client : Client D) : SymbolCall → Client D × Bool
  | .add symbols => dxfAddSymbols id symbols client
  | .remove symbols => dxfRemoveSymbols id symbols client
  | .clear => dxfClearSymbols id client
  | .set symbols => dxfSetSymbols id symbols client
  | .reconnect => refresh id client

/-- The symbols to add have the wildcard among them. -/
def SymbolCall.AsksWildcard : SymbolCall → Prop
  | .add symbols | .set symbols => symbols.any isWildcard
  | _ => False

instance : DecidablePred SymbolCall.AsksWildcard
  | .add symbols | .set symbols => inferInstanceAs (Decidable (symbols.any isWildcard = true))
  | .remove _ | .clear | .reconnect => inferInstanceAs (Decidable False)

/-- A subscription that was created on a connection, after some other calls, without the wildcard
flag. -/
structure NewSubscription (D : Type) where
  history : List (ApiCall D)
  eventTypes : ℕ
  subscrFlags : ℕ
  time : ℤ
  known : eventTypes &&& EventId.unusedMask = 0
  noWildcard : ¬ isFlagSet subscrFlags SubscrFlag.wildcard

namespace NewSubscription

variable (new : NewSubscription D)

/-- Its handle. -/
def handle : SubscriptionId := (Context.after new.history).created

def client : Client D :=
  ⟨((Context.after new.history).createEventSubscription new.eventTypes new.subscrFlags
    new.time).1, []⟩

/-- The connection after some calls for the symbols of the subscription. -/
def after (calls : List SymbolCall) : Client D :=
  calls.foldl (fun client call => (call.exec new.handle client).1) new.client

end NewSubscription

/-! ### What is promised -/

/-- The flag says if the wildcard is the only symbol, and there is no other symbol next to it. -/
structure WildcardAlone (s : SubscriptionData) : Prop where
  flag : isFlagSet s.subscriptionFlags SubscrFlag.wildcard ↔ s.symbols = [wildcardSymbol]
  alone : wildcardSymbol ∈ s.symbols → s.symbols = [wildcardSymbol]

/-- The last message that added the wildcard to a record. -/
def lastWildcardAdd (sent : List Message) (recordName : WString) : Option Message :=
  sent.reverse.find? fun m =>
    m.kind = .add ∧ m.symbol = wildcardSymbol ∧ m.recordName = recordName

/-- A message that removes or refreshes the wildcard has the type of the one that added it. -/
def SameTypes (sent : List Message) : Prop :=
  Admitted (fun before m => m.symbol = wildcardSymbol → m.kind ≠ .add →
    ∀ added ∈ lastWildcardAdd before m.recordName,
      m.subscriptionType = added.subscriptionType) sent

/-- Wildcard mode is exclusive. -/
def Exclusive (id : SubscriptionId) (client : Client D) : Prop :=
  (∃ s, client.ctx.subscriptions id = some s ∧ WildcardAlone s) ∧ SameTypes client.sent

/-! ### Symbols of an open subscription -/

variable {id} {ctx : Context D} {s : SubscriptionData} {client : Client D}
  {symbols : List WString} {symbolName : WString}

/-- One round of `dx_add_symbols` on the symbols. -/
def insertSymbol (symbols : List WString) (symbolName : WString) : List WString :=
  if symbolName = [] ∨ symbolName ∈ symbols then symbols else symbols ++ [symbolName]

/-- One round of `dx_remove_symbols` on the symbols. -/
def eraseSymbol (symbols : List WString) (symbolName : WString) : List WString :=
  if symbolName = [] ∨ symbolName ∉ symbols then symbols else symbols.erase symbolName

theorem subscriptions_addSymbol (hopen : ctx.subscriptions id = some s) (symbolName : WString) :
    (ctx.addSymbol id (some symbolName)).subscriptions id =
      some { s with symbols := insertSymbol s.symbols symbolName } := by
  simp only [Context.addSymbol, hopen, insertSymbol]
  split_ifs
  · exact hopen
  · exact Function.update_self ..

/-- The symbols are added one after the other, and nothing else changes. -/
theorem addSymbols_spec (h : Linked ctx) (hopen : ctx.subscriptions id = some s)
    (symbols : List WString) :
    ∃ ctx', ctx.addSymbols id (symbols.map some) = (ctx', none) ∧ Linked ctx' ∧
      ctx'.subscriptions id =
        some { s with symbols := symbols.foldl insertSymbol s.symbols } := by
  have hfold : ((symbols.map some).foldl (fun ctx symbol => ctx.addSymbol id symbol)
      ctx).subscriptions id = some { s with symbols := symbols.foldl insertSymbol s.symbols } := by
    clear h
    induction symbols generalizing ctx s with
    | nil => exact hopen
    | cons symbolName symbols ih => exact ih (subscriptions_addSymbol hopen symbolName)
  have hlinked := linked_addSymbols h id (symbols.map some)
  rw [Context.addSymbols, hopen] at hlinked ⊢
  exact ⟨_, rfl, hlinked, hfold⟩

theorem removeSymbol_spec (h : Linked ctx) (hopen : ctx.subscriptions id = some s)
    (symbolName : WString) :
    ∃ ctx', ctx.removeSymbol id (some symbolName) = (ctx', none) ∧ Linked ctx' ∧
      ctx'.subscriptions id = some { s with symbols := eraseSymbol s.symbols symbolName } := by
  obtain ⟨ctx', hcall, hlinked⟩ := linked_removeSymbol h id (some symbolName)
  refine ⟨ctx', hcall, hlinked, ?_⟩
  simp only [Context.removeSymbol, hopen] at hcall
  by_cases hskip : symbolName = [] ∨ symbolName ∉ s.symbols
  · rw [if_pos hskip] at hcall
    obtain rfl := (Prod.mk.inj hcall).1
    rw [eraseSymbol, if_pos hskip]
    exact hopen
  · rw [if_neg hskip] at hcall
    rw [eraseSymbol, if_neg hskip]
    cases hunsubscribe : ctx.unsubscribeSymbol symbolName id with
    | mk ctx₁ error =>
        rw [hunsubscribe] at hcall
        cases error with
        | some error => simp at hcall
        | none =>
            obtain rfl := (Prod.mk.inj hcall).1
            exact Function.update_self ..

/-- The symbols are removed one after the other without an error, and nothing else changes. -/
theorem removeSymbols_spec (h : Linked ctx) (hopen : ctx.subscriptions id = some s)
    (symbols : List WString) :
    ∃ ctx', ctx.removeSymbols id (symbols.map some) = (ctx', none) ∧ Linked ctx' ∧
      ctx'.subscriptions id =
        some { s with symbols := symbols.foldl eraseSymbol s.symbols } := by
  rw [Context.removeSymbols, hopen]
  simp only
  induction symbols generalizing ctx s with
  | nil => exact ⟨ctx, rfl, h, hopen⟩
  | cons symbolName symbols ih =>
      obtain ⟨ctx₁, hcall, h₁, hopen₁⟩ := removeSymbol_spec h hopen symbolName
      obtain ⟨ctx₂, hloop, h₂, hopen₂⟩ := ih h₁ hopen₁
      refine ⟨ctx₂, ?_, h₂, hopen₂⟩
      rw [List.map_cons, Context.removeSymbolsLoop, hcall]
      exact hloop

theorem foldl_eraseSymbol_self (hnonempty : [] ∉ symbols) :
    symbols.foldl eraseSymbol symbols = [] := by
  induction symbols with
  | nil => rfl
  | cons symbolName symbols ih =>
      have hname : symbolName ≠ [] := fun h => hnonempty (by simp [h])
      have herase : eraseSymbol (symbolName :: symbols) symbolName = symbols := by
        rw [eraseSymbol, if_neg (by simp [hname]), List.erase_cons_head]
      rw [List.foldl_cons, herase]
      exact ih fun h => hnonempty (List.mem_cons_of_mem symbolName h)

/-- A property that the old and the new symbols have. -/
theorem forall_insertSymbols {P : WString → Prop} {news : List WString} (h : ∀ n ∈ symbols, P n)
    (hnews : ∀ n ∈ news, n ≠ [] → P n) : ∀ n ∈ news.foldl insertSymbol symbols, P n := by
  induction news generalizing symbols with
  | nil => exact h
  | cons new news ih =>
      refine ih ?_ fun n hn => hnews n (List.mem_cons_of_mem new hn)
      unfold insertSymbol
      split_ifs with hskip
      · exact h
      · intro n hn
        rcases List.mem_append.mp hn with hold | hnew
        · exact h n hold
        · rw [List.mem_singleton.mp hnew]
          exact hnews new List.mem_cons_self fun hnil => hskip (Or.inl hnil)

theorem forall_eraseSymbols {P : WString → Prop} (h : ∀ n ∈ symbols, P n) (olds : List WString) :
    ∀ n ∈ olds.foldl eraseSymbol symbols, P n := by
  induction olds generalizing symbols with
  | nil => exact h
  | cons old olds ih =>
      refine ih ?_
      unfold eraseSymbol
      split_ifs
      · exact h
      · exact fun n hn => h n (List.mem_of_mem_erase hn)

/-! ### The calls -/

/-- The subscription is open, and it has neither the wildcard flag nor an empty symbol. -/
structure Ready (id : SubscriptionId) (client : Client D) (s : SubscriptionData) : Prop where
  linked : Linked client.ctx
  isOpen : client.ctx.subscriptions id = some s
  flag : ¬ isFlagSet s.subscriptionFlags SubscrFlag.wildcard
  nonempty : ∀ n ∈ s.symbols, n ≠ []

theorem Ready.clearSymbols (h : Ready id client s) :
    ∃ client', dxfClearSymbols id client = (client', true) ∧
      Ready id client' { s with symbols := [] } ∧
      client'.sent = client.sent ++
        subscribeSymbolsToEvents .remove s s.symbols s.subscriptionFlags := by
  obtain ⟨ctx', hremove, hlinked, hopen⟩ := removeSymbols_spec h.linked h.isOpen s.symbols
  rw [foldl_eraseSymbol_self fun hnil => h.nonempty [] hnil rfl] at hopen
  refine ⟨⟨ctx', _⟩, ?_, ⟨hlinked, hopen, h.flag, by simp⟩, rfl⟩
  simp only [dxfClearSymbols, h.isOpen, hremove, if_neg h.flag]

theorem Ready.addSubscrSymbols (h : Ready id client s) (symbols : List WString)
    (subscrFlags : ℕ) :
    ∃ client', addSubscrSymbols id symbols subscrFlags client = (client', true) ∧
      Ready id client' { s with symbols := symbols.foldl insertSymbol s.symbols } ∧
      client'.sent = client.sent ++ subscribeSymbolsToEvents .add s symbols subscrFlags := by
  obtain ⟨ctx', hadd, hlinked, hopen⟩ := addSymbols_spec h.linked h.isOpen symbols
  refine ⟨⟨ctx', _⟩, ?_, ⟨hlinked, hopen, h.flag,
    forall_insertSymbols h.nonempty fun _ _ hn => hn⟩, rfl⟩
  simp only [EventSubscription.addSubscrSymbols, h.isOpen, hadd]

/-- Without the wildcard all symbols are added, and the messages have the flags of the
subscription. -/
theorem Ready.addSymbols (h : Ready id client s) (hplain : ¬ symbols.any isWildcard) :
    ∃ client', dxfAddSymbols id symbols client = (client', true) ∧
      Ready id client' { s with symbols := symbols.foldl insertSymbol s.symbols } ∧
      client'.sent = client.sent ++
        subscribeSymbolsToEvents .add s symbols s.subscriptionFlags := by
  by_cases hnil : symbols = []
  · subst hnil
    exact ⟨client, rfl, h, (List.append_nil _).symm⟩
  · obtain ⟨client', hadd, hready, hsent⟩ := h.addSubscrSymbols symbols s.subscriptionFlags
    refine ⟨client', ?_, hready, hsent⟩
    simp only [dxfAddSymbols, if_neg hnil, h.isOpen, if_neg h.flag, if_neg hplain, hadd]

/-- The wildcard replaces all symbols, and the flag of the subscription stays as it was. -/
theorem Ready.addWildcard (h : Ready id client s) (hwildcard : symbols.any isWildcard) :
    ∃ client', dxfAddSymbols id symbols client = (client', true) ∧
      Ready id client' { s with symbols := [wildcardSymbol] } := by
  have hnil : symbols ≠ [] := by
    rintro rfl
    simp at hwildcard
  obtain ⟨client₁, hclear, h₁, -⟩ := h.clearSymbols
  obtain ⟨client₂, hadd, h₂, -⟩ := h₁.addSubscrSymbols [wildcardSymbol]
    (s.subscriptionFlags ^^^ SubscrFlag.wildcard)
  refine ⟨client₂, ?_, h₂⟩
  simp only [dxfAddSymbols, if_neg hnil, h.isOpen, if_neg h.flag, if_pos hwildcard, hclear, hadd]

theorem Ready.removeSymbols (h : Ready id client s) (symbols : List WString) :
    ∃ client' s', dxfRemoveSymbols id symbols client = (client', true) ∧ Ready id client' s' ∧
      (∀ n ∈ s'.symbols, n ∈ s.symbols) ∧
      (client'.sent = client.sent ∨
        client'.sent = client.sent ++
          subscribeSymbolsToEvents .remove s s.symbols s.subscriptionFlags ∨
        ¬ symbols.any isWildcard ∧ client'.sent = client.sent ++
          subscribeSymbolsToEvents .remove s symbols s.subscriptionFlags) := by
  by_cases hnil : s.symbols = []
  · exact ⟨client, s, by simp only [dxfRemoveSymbols, h.isOpen, if_pos hnil], h, fun _ hn => hn,
      Or.inl rfl⟩
  · by_cases hwildcard : symbols.any isWildcard
    · obtain ⟨client', hclear, hready, hsent⟩ := h.clearSymbols
      refine ⟨client', _, ?_, hready, by simp, Or.inr (Or.inl hsent)⟩
      simp only [dxfRemoveSymbols, h.isOpen, if_neg hnil, if_pos hwildcard, hclear]
    · obtain ⟨ctx', hremove, hlinked, hopen⟩ := removeSymbols_spec h.linked h.isOpen symbols
      refine ⟨⟨ctx', _⟩, _, ?_, ⟨hlinked, hopen, h.flag, forall_eraseSymbols h.nonempty symbols⟩,
        forall_eraseSymbols (fun _ hn => hn) symbols, Or.inr (Or.inr ⟨hwildcard, rfl⟩)⟩
      simp only [dxfRemoveSymbols, h.isOpen, if_neg hnil, if_neg hwildcard, if_neg h.flag, hremove]
      rfl

theorem Ready.refresh (h : Ready id client s) :
    ∃ client', refresh id client = (client', true) ∧ Ready id client' s ∧
      client'.sent = client.sent ++
        subscribeSymbolsToEvents .refresh s s.symbols s.subscriptionFlags := by
  refine ⟨⟨client.ctx, client.sent ++
    subscribeSymbolsToEvents .refresh s s.symbols s.subscriptionFlags⟩, ?_,
    ⟨h.linked, h.isOpen, h.flag, h.nonempty⟩, rfl⟩
  simp only [EventSubscription.refresh, h.isOpen]

/-! ### Runs without the wildcard -/

/-- Neither the symbols nor the messages have anything to do with the wildcard. -/
structure Plain (id : SubscriptionId) (client : Client D) (s : SubscriptionData) : Prop
    extends Ready id client s where
  symbols : ∀ n ∈ s.symbols, ¬ isWildcard n
  sent : ∀ m ∈ client.sent, ¬ isWildcard m.symbol

theorem mem_subscribeSymbolsToEvents {kind : MessageKind} {subscrFlags : ℕ} {m : Message}
    (h : m ∈ subscribeSymbolsToEvents kind s symbols subscrFlags) : m.symbol ∈ symbols := by
  obtain ⟨symbolName, hsymbol, hm⟩ := List.mem_flatMap.mp h
  obtain ⟨param, -, rfl⟩ := List.mem_map.mp hm
  exact (List.mem_filter.mp hsymbol).1

/-- New messages are about plain symbols. -/
theorem plain_append {sent : List Message} (h : ∀ m ∈ sent, ¬ isWildcard m.symbol)
    (hsymbols : ∀ n ∈ symbols, ¬ isWildcard n) (kind : MessageKind) (subscrFlags : ℕ) :
    ∀ m ∈ sent ++ subscribeSymbolsToEvents kind s symbols subscrFlags,
      ¬ isWildcard m.symbol := by
  intro m hm
  rcases List.mem_append.mp hm with hold | hnew
  · exact h m hold
  · exact hsymbols _ (mem_subscribeSymbolsToEvents hnew)

theorem not_isWildcard_of_mem (h : ¬ symbols.any isWildcard) : ∀ n ∈ symbols, ¬ isWildcard n :=
  fun n hn hwildcard => h (List.any_eq_true.mpr ⟨n, hn, hwildcard⟩)

theorem Plain.clearSymbols (h : Plain id client s) :
    ∃ client', dxfClearSymbols id client = (client', true) ∧
      Plain id client' { s with symbols := [] } := by
  obtain ⟨client', hclear, hready, hsent⟩ := h.toReady.clearSymbols
  refine ⟨client', hclear, hready, by simp, ?_⟩
  rw [hsent]
  exact plain_append h.sent h.symbols _ _

theorem Plain.addSymbols (h : Plain id client s) (hplain : ¬ symbols.any isWildcard) :
    ∃ client', dxfAddSymbols id symbols client = (client', true) ∧
      Plain id client' { s with symbols := symbols.foldl insertSymbol s.symbols } := by
  obtain ⟨client', hadd, hready, hsent⟩ := h.toReady.addSymbols hplain
  have hsymbols := not_isWildcard_of_mem hplain
  refine ⟨client', hadd, hready, forall_insertSymbols h.symbols fun n hn _ => hsymbols n hn, ?_⟩
  rw [hsent]
  exact plain_append h.sent hsymbols _ _

/-- A call that does not ask for the wildcard succeeds, and leaves everything plain. -/
theorem Plain.exec (h : Plain id client s) {call : SymbolCall} (hcall : ¬ call.AsksWildcard) :
    ∃ client' s', call.exec id client = (client', true) ∧ Plain id client' s' := by
  cases call with
  | add symbols =>
      obtain ⟨client', hadd, hplain⟩ := h.addSymbols hcall
      exact ⟨client', _, hadd, hplain⟩
  | remove symbols =>
      obtain ⟨client', s', hremove, hready, hsymbols, hsent⟩ := h.toReady.removeSymbols symbols
      refine ⟨client', s', hremove, hready, fun n hn => h.symbols n (hsymbols n hn), ?_⟩
      rcases hsent with hsent | hsent | ⟨hplain, hsent⟩
      · rw [hsent]
        exact h.sent
      · rw [hsent]
        exact plain_append h.sent h.symbols _ _
      · rw [hsent]
        exact plain_append h.sent (not_isWildcard_of_mem hplain) _ _
  | clear =>
      obtain ⟨client', hclear, hplain⟩ := h.clearSymbols
      exact ⟨client', _, hclear, hplain⟩
  | set symbols =>
      obtain ⟨client₁, hclear, h₁⟩ := h.clearSymbols
      obtain ⟨client₂, hadd, h₂⟩ := h₁.addSymbols hcall
      refine ⟨client₂, _, ?_, h₂⟩
      simp only [SymbolCall.exec, dxfSetSymbols, hclear, hadd]
  | reconnect =>
      obtain ⟨client', hrefresh, hready, hsent⟩ := h.toReady.refresh
      refine ⟨client', s, hrefresh, hready, h.symbols, ?_⟩
      rw [hsent]
      exact plain_append h.sent h.symbols _ _

theorem Plain.exclusive (h : Plain id client s) : Exclusive id client := by
  have hwildcard : isWildcard wildcardSymbol := by decide
  have hmem : wildcardSymbol ∉ s.symbols := fun hmem => h.symbols _ hmem hwildcard
  refine ⟨⟨s, h.isOpen, ?_, fun h' => absurd h' hmem⟩, ?_⟩
  · refine iff_of_false h.flag fun hsymbols => hmem ?_
    rw [hsymbols]
    exact List.mem_singleton_self _
  · intro before m after hsent hm
    have hin : m ∈ client.sent := by
      rw [hsent]
      exact List.mem_append_right before List.mem_cons_self
    exact absurd (hm ▸ hwildcard) (h.sent m hin)

/-! ### The first call for the wildcard -/

/-- After a call that asks for the wildcard, the wildcard is the only symbol, and the flag does not
say so. -/
theorem Ready.not_exclusive (h : Ready id client s) {call : SymbolCall}
    (hcall : call.AsksWildcard) : ¬ Exclusive id (call.exec id client).1 := by
  have hend : ∃ (client' : Client D) (s' : SubscriptionData),
      call.exec id client = (client', true) ∧
        Ready id client' { s' with symbols := [wildcardSymbol] } := by
    cases call with
    | add symbols =>
        obtain ⟨client', hadd, hready⟩ := h.addWildcard hcall
        exact ⟨client', s, hadd, hready⟩
    | set symbols =>
        obtain ⟨client₁, hclear, h₁, -⟩ := h.clearSymbols
        obtain ⟨client₂, hadd, h₂⟩ := h₁.addWildcard hcall
        refine ⟨client₂, s, ?_, h₂⟩
        simp only [SymbolCall.exec, dxfSetSymbols, hclear, hadd]
    | remove symbols => exact hcall.elim
    | clear => exact hcall.elim
    | reconnect => exact hcall.elim
  obtain ⟨client', s', hexec, hready⟩ := hend
  rw [hexec]
  rintro ⟨⟨s'', hopen, hmode⟩, -⟩
  obtain rfl := Option.some.inj (hready.isOpen.symm.trans hopen)
  exact hready.flag (hmode.flag.mpr rfl)

/-! ### Runs -/

variable {new : NewSubscription D} {calls : List SymbolCall}

theorem NewSubscription.plain (new : NewSubscription D) :
    Plain new.handle new.client
      ⟨new.eventTypes, [], [], Context.initialOrderSource new.eventTypes, new.subscrFlags,
        new.time⟩ where
  linked := linked_createEventSubscription (linked_after new.history) _ _ _
  isOpen := by
    rw [client, Context.createEventSubscription, if_neg (not_not.mpr new.known)]
    exact Function.update_self ..
  flag := new.noWildcard
  nonempty := by simp
  symbols := by simp
  sent := by simp [client]

theorem after_concat (new : NewSubscription D) (calls : List SymbolCall) (call : SymbolCall) :
    new.after (calls ++ [call]) = (call.exec new.handle (new.after calls)).1 :=
  List.foldl_concat ..

/-- Without a call for the wildcard everything stays plain. -/
theorem plain_after (new : NewSubscription D) (h : ∀ call ∈ calls, ¬ call.AsksWildcard) :
    ∃ s, Plain new.handle (new.after calls) s := by
  induction calls using List.reverseRecOn with
  | nil => exact ⟨_, new.plain⟩
  | append_singleton calls call ih =>
      obtain ⟨s, hs⟩ := ih fun c hc => h c (List.mem_append_left _ hc)
      obtain ⟨client', s', hexec, hs'⟩ := hs.exec
        (h call (List.mem_append_right _ (List.mem_singleton_self call)))
      rw [after_concat, hexec]
      exact ⟨s', hs'⟩

/-- The first call that asks for the wildcard, if there is one. -/
theorem exists_first_wildcard (h : ¬ ∀ call ∈ calls, ¬ call.AsksWildcard) :
    ∃ before call after, calls = before ++ call :: after ∧ call.AsksWildcard ∧
      ∀ c ∈ before, ¬ c.AsksWildcard := by
  have hsome : calls.find? (fun call => decide call.AsksWildcard) ≠ none := by
    rw [ne_eq, List.find?_eq_none]
    simpa using h
  obtain ⟨call, hfind⟩ := Option.ne_none_iff_exists'.mp hsome
  obtain ⟨hcall, before, after, hcalls, hbefore⟩ := List.find?_eq_some_iff_append.mp hfind
  exact ⟨before, call, after, hcalls, by simpa using hcall, fun c hc => by simpa using hbefore c hc⟩

/-- A run with a call for the wildcard is not exclusive behind the first one. -/
theorem not_exclusive_after (h : ¬ ∀ call ∈ calls, ¬ call.AsksWildcard) :
    ¬ ∀ before after, calls = before ++ after → Exclusive new.handle (new.after before) := by
  intro hexclusive
  obtain ⟨before, call, after, rfl, hcall, hbefore⟩ := exists_first_wildcard h
  obtain ⟨s, hs⟩ := plain_after new hbefore
  have hfirst := hexclusive (before ++ [call]) after (by simp)
  rw [after_concat] at hfirst
  exact hs.toReady.not_exclusive hcall hfirst

/-- Wildcard mode is exclusive in all of a run if and only if no call asks for the wildcard. -/
theorem exclusive_iff (new : NewSubscription D) (calls : List SymbolCall) :
    (∀ before after, calls = before ++ after → Exclusive new.handle (new.after before)) ↔
      ∀ call ∈ calls, ¬ call.AsksWildcard := by
  constructor
  · intro hexclusive
    by_contra hcalls
    exact not_exclusive_after hcalls hexclusive
  · rintro hcalls before after rfl
    obtain ⟨s, hs⟩ := plain_after new fun c hc => hcalls c (List.mem_append_left _ hc)
    exact hs.exclusive

/-- A subscription to trades. -/
def newTrades : NewSubscription Unit where
  history := []
  eventTypes := EventId.trade.bitMask
  subscrFlags := 0
  time := 0
  known := by decide
  noWildcard := by decide

/-- The wildcard, another symbol, and a reconnection. -/
def wildcardRun : List SymbolCall :=
  [.add [wildcardSymbol], .add [[65]], .reconnect]

theorem not_exclusive_wildcardRun :
    ¬ ∀ before after, wildcardRun = before ++ after →
      Exclusive newTrades.handle (newTrades.after before) :=
  not_exclusive_after fun h => h _ List.mem_cons_self (by decide)

/-- The wildcard is not alone, and it is refreshed as a ticker after it was added as a stream. -/
example :
    let client := newTrades.after wildcardRun
    (client.ctx.subscriptions 0).map SubscriptionData.symbols = some [wildcardSymbol, [65]] ∧
      ∃ added ∈ client.sent, ∃ m ∈ client.sent, added.kind = .add ∧ m.kind = .refresh ∧
        added.symbol = wildcardSymbol ∧ m.symbol = wildcardSymbol ∧
        added.recordName = m.recordName ∧ added.subscriptionType = .stream ∧
        m.subscriptionType = .ticker := by
  decide +kernel

end DxFeed.EventSubscription
