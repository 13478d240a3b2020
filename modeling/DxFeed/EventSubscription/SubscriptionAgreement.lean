import DxFeed.EventSubscription.SubscriptionTasks

/-!
# Agreement with the server

The server is told what to send by the messages of the calls, and every call speaks for one
subscription only.

* `WorkerStep`, `Worker.after`: the calls, the tasks of the queue and the reconnections, in any
  order;
* `Worker.Agrees`: after all tasks the server has what the open subscriptions need;
* `Takes`: a call takes some interests from the server and gives it others, and the subscription
  keeps to both;
* `agreesThroughout_iff`: a run agrees all the time if and only if no call takes what another
  subscription needs without giving it back, and it agrees behind every reconnection.
-/

namespace DxFeed.EventSubscription

open History

variable {D : Type}

/-! ### Steps -/

inductive WorkerStep
  | create (eventTypes subscrFlags : ℕ) (time : ℤ)
  | close (id : SubscriptionId)
  | add (id : SubscriptionId) (symbols : List WString)
  | remove (id : SubscriptionId) (symbols : List WString)
  | clear (id : SubscriptionId)
  | set (id : SubscriptionId) (symbols : List WString)
  | execute
  | reconnect
  deriving DecidableEq

namespace WorkerStep

/-- The subscription that a call is for. -/
def target : WorkerStep → Option SubscriptionId
  | .close id | .add id _ | .remove id _ | .clear id | .set id _ => some id
  | _ => none

/-- The symbols to add have the wildcard among them. -/
def AsksWildcard : WorkerStep → Prop
  | .add _ symbols | .set _ symbols => symbols.any isWildcard
  | _ => False

instance : DecidablePred AsksWildcard
  | .add _ symbols | .set _ symbols => inferInstanceAs (Decidable (symbols.any isWildcard = true))
  | .create .. | .close _ | .remove .. | .clear _ | .execute | .reconnect =>
      inferInstanceAs (Decidable False)

end WorkerStep

namespace Worker

def step (w : Worker D) : WorkerStep → Worker D
  | .create eventTypes subscrFlags time => w.createSubscription eventTypes subscrFlags time
  | .close id => (w.closeSubscription id).1
  | .add id symbols => (w.addSymbols id symbols).1
  | .remove id symbols => (w.removeSymbols id symbols).1
  | .clear id => (w.clearSymbols id).1
  | .set id symbols => (w.setSymbols id symbols).1
  | .execute => w.executeTask
  | .reconnect => w.reestablishConnection

/-- A new connection after some steps. -/
def after (steps : List WorkerStep) : Worker D :=
  steps.foldl step empty

end Worker

/-! ### What is promised -/

/-- The server has what the open subscriptions need. -/
def Client.Agrees (client : Client D) : Prop :=
  serverInterests client.sent = needed client.ctx

/-- After all tasks the server has what the open subscriptions need. -/
def Worker.Agrees (w : Worker D) : Prop := w.drained.Agrees

namespace SubscriptionData

variable (s : SubscriptionData)

/-- The flags behind `dxf_clear_symbols`. -/
def clearedFlags : ℕ :=
  if isFlagSet s.subscriptionFlags SubscrFlag.wildcard then
    s.subscriptionFlags ^^^ SubscrFlag.wildcard
  else s.subscriptionFlags

/-- What the messages of a call take from the server. -/
def taken : WorkerStep → Set Interest
  | .close _ | .clear _ | .set _ _ => s.needs
  | .remove _ symbols =>
      if s.symbols = [] then ∅
      else if symbols.any isWildcard then s.needs
      else if isFlagSet s.subscriptionFlags SubscrFlag.wildcard then ∅
      else s.interests symbols s.subscriptionFlags
  | _ => ∅

/-- What the messages of a call give to the server; these are the later ones. -/
def given : WorkerStep → Set Interest
  | .add _ symbols =>
      if isFlagSet s.subscriptionFlags SubscrFlag.wildcard then ∅
      else s.interests symbols s.subscriptionFlags
  | .set _ symbols =>
      if isFlagSet s.clearedFlags SubscrFlag.wildcard then ∅
      else s.interests symbols s.clearedFlags
  | _ => ∅

end SubscriptionData

/-- What a call takes from the server, no other open subscription needs, or the call gives it
back. -/
def WorkerStep.Spares (ctx : Context D) (step : WorkerStep) : Prop :=
  ∀ id ∈ step.target, ∀ s ∈ ctx.subscriptions id,
    neededByOthers ctx id ∩ s.taken step ⊆ s.given step

/-! ### Symbols -/

section Symbols

variable {symbols olds news : List WString} {n : WString}

theorem mem_foldl_insertSymbol :
    n ∈ news.foldl insertSymbol symbols ↔ n ∈ symbols ∨ n ∈ news ∧ n ≠ [] := by
  induction news generalizing symbols with
  | nil => simp
  | cons new news ih =>
      rw [List.foldl_cons, ih, insertSymbol]
      split_ifs with hskip
      · rcases hskip with rfl | hmem
        · grind
        · grind
      · grind

theorem nodup_eraseSymbol (h : symbols.Nodup) (old : WString) :
    (eraseSymbol symbols old).Nodup := by
  unfold eraseSymbol
  split_ifs
  · exact h
  · exact h.erase old

theorem mem_eraseSymbol (h : symbols.Nodup) {old : WString} (hn : n ≠ []) :
    n ∈ eraseSymbol symbols old ↔ n ∈ symbols ∧ n ≠ old := by
  unfold eraseSymbol
  split_ifs with hskip
  · rcases hskip with rfl | hmem
    · simp [hn]
    · exact ⟨fun hin => ⟨hin, fun heq => hmem (heq ▸ hin)⟩, And.left⟩
  · rw [h.mem_erase_iff]
    exact and_comm

theorem mem_foldl_eraseSymbol (h : symbols.Nodup) (hn : n ≠ []) :
    n ∈ olds.foldl eraseSymbol symbols ↔ n ∈ symbols ∧ n ∉ olds := by
  induction olds generalizing symbols with
  | nil => simp
  | cons old olds ih =>
      rw [List.foldl_cons, ih (nodup_eraseSymbol h old), mem_eraseSymbol h hn]
      simp [and_assoc]

end Symbols

/-! ### Needs -/

section Needs

variable {s : SubscriptionData} {symbols : List WString}

@[simp] theorem interests_nil (subscrFlags : ℕ) : s.interests [] subscrFlags = ∅ := by
  ext i
  simp [SubscriptionData.interests]

theorem needs_insertSymbols :
    SubscriptionData.needs { s with symbols := symbols.foldl insertSymbol s.symbols } =
      s.needs ∪ s.interests symbols s.subscriptionFlags := by
  ext i
  simp only [SubscriptionData.needs, SubscriptionData.interests, Set.mem_ofPred_eq,
    Set.mem_union, mem_foldl_insertSymbol]
  tauto

theorem needs_eraseSymbols (h : s.symbols.Nodup) :
    SubscriptionData.needs { s with symbols := symbols.foldl eraseSymbol s.symbols } =
      s.needs \ s.interests symbols s.subscriptionFlags := by
  ext i
  simp only [SubscriptionData.needs, SubscriptionData.interests, Set.mem_ofPred_eq,
    Set.mem_sdiff]
  by_cases hi : i.symbol = []
  · simp [hi]
  · rw [mem_foldl_eraseSymbol h hi]
    tauto

end Needs

/-! ### Calls -/

/-- The symbols of every subscription have a name. -/
structure WellFormed (ctx : Context D) : Prop extends Linked ctx where
  named : ∀ id, ∀ s ∈ ctx.subscriptions id, [] ∉ s.symbols

variable {ctx ctx' : Context D} {id : SubscriptionId} {s s' : SubscriptionData}
  {client client₁ client₂ : Client D} {symbols : List WString} {taken given : Set Interest}

theorem Moves.wellFormed {o : Option SubscriptionData} (h : Moves id o ctx ctx')
    (hwf : WellFormed ctx) (hnamed : ∀ s ∈ o, [] ∉ s.symbols) : WellFormed ctx' := by
  refine ⟨h.linked, fun other s hs => ?_⟩
  rw [h.subscriptions] at hs
  by_cases hother : other = id
  · subst hother
    rw [Function.update_self] at hs
    exact hnamed s hs
  · rw [Function.update_of_ne hother] at hs
    exact hwf.named other s hs

/-- A call takes some interests from the server and gives it others, and the needs of the
subscription change by the same. -/
structure Takes (id : SubscriptionId) (s : SubscriptionData) (taken given : Set Interest)
    (client client' : Client D) : Prop where
  wellFormed : WellFormed client'.ctx
  server : serverInterests client'.sent = (serverInterests client.sent \ taken) ∪ given
  needed : needed client'.ctx = neededByOthers client.ctx id ∪ ((s.needs \ taken) ∪ given)

/-- Agreement survives a call if and only if the call spares the other subscriptions. -/
theorem Takes.agrees_iff (h : Takes id s taken given client client₁)
    (hopen : client.ctx.subscriptions id = some s) (hagrees : client.Agrees) :
    client₁.Agrees ↔ neededByOthers client.ctx id ∩ taken ⊆ given := by
  rw [Client.Agrees, h.server, h.needed, hagrees, needed_eq hopen]
  constructor
  · rintro heq i ⟨hother, htaken⟩
    have hi : i ∈ ((neededByOthers client.ctx id ∪ s.needs) \ taken) ∪ given := by
      rw [heq]
      exact Or.inl hother
    exact hi.resolve_left fun hleft => hleft.2 htaken
  · intro hspares
    ext i
    have hi := @hspares i
    simp only [Set.mem_union, Set.mem_sdiff, Set.mem_inter_iff] at hi ⊢
    tauto

/-- A call that does nothing. -/
theorem takes_refl (hwf : WellFormed client.ctx)
    (hopen : client.ctx.subscriptions id = some s) : Takes id s ∅ ∅ client client where
  wellFormed := hwf
  server := by simp
  needed := by simp [needed_eq hopen]

theorem takes_clearSymbols (hwf : WellFormed client.ctx)
    (hopen : client.ctx.subscriptions id = some s) :
    ∃ client', dxfClearSymbols id client = (client', true) ∧
      Moves id (some { s with symbols := [], subscriptionFlags := s.clearedFlags }) client.ctx
        client'.ctx ∧
      Takes id s s.needs ∅ client client' := by
  obtain ⟨ctx₁, hremove, hmoves⟩ := moves_removeSymbols hwf.toLinked hopen s.symbols
  rw [foldl_eraseSymbol_self (hwf.named id s hopen)] at hmoves
  have hend : ∃ ctx₂,
      dxfClearSymbols id client = (⟨ctx₂, client.sent ++
        subscribeSymbolsToEvents .remove s s.symbols s.subscriptionFlags⟩, true) ∧
      Moves id (some { s with symbols := [], subscriptionFlags := s.clearedFlags }) client.ctx
        ctx₂ := by
    by_cases hflag : isFlagSet s.subscriptionFlags SubscrFlag.wildcard
    · have hopen₁ : ctx₁.subscriptions id = some { s with symbols := [] } := by
        rw [hmoves.subscriptions, Function.update_self]
      obtain ⟨ctx₂, hset, hmoves₂⟩ := moves_setFlags hmoves.linked hopen₁
        (s.subscriptionFlags ^^^ SubscrFlag.wildcard)
      refine ⟨ctx₂, ?_, ?_⟩
      · simp only [dxfClearSymbols, hopen, hremove, if_pos hflag, hset, Option.isNone_none]
      · simpa only [SubscriptionData.clearedFlags, if_pos hflag] using hmoves.trans hmoves₂
    · refine ⟨ctx₁, ?_, ?_⟩
      · simp only [dxfClearSymbols, hopen, hremove, if_neg hflag]
      · simpa only [SubscriptionData.clearedFlags, if_neg hflag] using hmoves
  obtain ⟨ctx₂, hcall, hmoves₂⟩ := hend
  refine ⟨_, hcall, hmoves₂, hmoves₂.wellFormed hwf (by simp), ?_, ?_⟩
  · rw [serverInterests_remove, Set.union_empty]
    rfl
  · rw [hmoves₂.needed]
    simp [SubscriptionData.needs]

theorem takes_addSymbols (hwf : WellFormed client.ctx)
    (hopen : client.ctx.subscriptions id = some s) (hplain : ¬ symbols.any isWildcard) :
    ∃ client', dxfAddSymbols id symbols client = (client', true) ∧
      Takes id s ∅ (s.given (.add id symbols)) client client' := by
  by_cases hnil : symbols = []
  · subst hnil
    refine ⟨client, rfl, ?_⟩
    simpa [SubscriptionData.given] using takes_refl hwf hopen
  · by_cases hflag : isFlagSet s.subscriptionFlags SubscrFlag.wildcard
    · refine ⟨client, ?_, ?_⟩
      · simp only [dxfAddSymbols, if_neg hnil, hopen, if_pos hflag]
      · simpa [SubscriptionData.given, hflag] using takes_refl hwf hopen
    · obtain ⟨ctx₁, hadd, hmoves⟩ := moves_addSymbols hwf.toLinked hopen symbols
      refine ⟨⟨ctx₁, client.sent ++
        subscribeSymbolsToEvents .add s symbols s.subscriptionFlags⟩, ?_, ?_⟩
      · simp only [dxfAddSymbols, if_neg hnil, hopen, if_neg hflag, if_neg hplain,
          addSubscrSymbols, hadd]
      · rw [SubscriptionData.given, if_neg hflag]
        refine ⟨hmoves.wellFormed hwf ?_, ?_, ?_⟩
        · rintro _ ⟨⟩
          have hnamed := hwf.named id s hopen
          simp [mem_foldl_insertSymbol, hnamed]
        · rw [serverInterests_add (by decide), Set.sdiff_empty]
        · rw [hmoves.needed, needs_insertSymbols, Set.sdiff_empty]

theorem takes_removeSymbols (hwf : WellFormed client.ctx)
    (hopen : client.ctx.subscriptions id = some s) :
    ∃ client', dxfRemoveSymbols id symbols client = (client', true) ∧
      Takes id s (s.taken (.remove id symbols)) ∅ client client' := by
  by_cases hnil : s.symbols = []
  · refine ⟨client, ?_, ?_⟩
    · simp only [dxfRemoveSymbols, hopen, if_pos hnil]
    · simpa only [SubscriptionData.taken, if_pos hnil] using takes_refl hwf hopen
  · by_cases hwildcard : symbols.any isWildcard
    · obtain ⟨client', hclear, -, htakes⟩ := takes_clearSymbols hwf hopen
      refine ⟨client', ?_, ?_⟩
      · simp only [dxfRemoveSymbols, hopen, if_neg hnil, if_pos hwildcard, hclear]
      · simpa only [SubscriptionData.taken, if_neg hnil, if_pos hwildcard] using htakes
    · by_cases hflag : isFlagSet s.subscriptionFlags SubscrFlag.wildcard
      · refine ⟨client, ?_, ?_⟩
        · simp only [dxfRemoveSymbols, hopen, if_neg hnil, if_neg hwildcard, if_pos hflag]
        · simpa only [SubscriptionData.taken, if_neg hnil, if_neg hwildcard, if_pos hflag]
            using takes_refl hwf hopen
      · obtain ⟨ctx₁, hremove, hmoves⟩ := moves_removeSymbols hwf.toLinked hopen symbols
        refine ⟨⟨ctx₁, client.sent ++
          subscribeSymbolsToEvents .remove s symbols s.subscriptionFlags⟩, ?_, ?_⟩
        · simp only [dxfRemoveSymbols, hopen, if_neg hnil, if_neg hwildcard, if_neg hflag, hremove,
            Option.isNone_none]
        · simp only [SubscriptionData.taken, if_neg hnil, if_neg hwildcard, if_neg hflag]
          refine ⟨hmoves.wellFormed hwf ?_, ?_, ?_⟩
          · rintro _ ⟨⟩ hmem
            exact forall_eraseSymbols (P := (· ≠ [])) (fun n hn hnone =>
              hwf.named id s hopen (hnone ▸ hn)) symbols [] hmem rfl
          · rw [serverInterests_remove, Set.union_empty]
          · have hdistinct := (hwf.subscriptions id s hopen).1
            rw [hmoves.needed, needs_eraseSymbols hdistinct.symbols, Set.union_empty]

/-- The subscription of the second call is the one that the first call leaves. -/
theorem takes_setSymbols (hwf : WellFormed client.ctx)
    (hopen : client.ctx.subscriptions id = some s) (hplain : ¬ symbols.any isWildcard) :
    ∃ client', dxfSetSymbols id symbols client = (client', true) ∧
      Takes id s s.needs (s.given (.set id symbols)) client client' := by
  obtain ⟨client₁, hclear, hmoves, htakes⟩ := takes_clearSymbols hwf hopen
  have hopen₁ : client₁.ctx.subscriptions id =
      some { s with symbols := [], subscriptionFlags := s.clearedFlags } := by
    rw [hmoves.subscriptions, Function.update_self]
  obtain ⟨client₂, hadd, htakes₂⟩ := takes_addSymbols htakes.wellFormed hopen₁ hplain
  refine ⟨client₂, ?_, htakes₂.wellFormed, ?_, ?_⟩
  · simp only [dxfSetSymbols, hclear, hadd]
  · rw [htakes₂.server, htakes.server, Set.union_empty, Set.sdiff_empty]
    rfl
  · rw [htakes₂.needed, neededByOthers_eq hmoves.subscriptions]
    simp [SubscriptionData.needs, SubscriptionData.given, SubscriptionData.interests]

/-! ### Steps -/

section Steps

variable {w : Worker D} {step : WorkerStep}

theorem takes_closeSubscription (hwf : WellFormed w.ctx)
    (hopen : w.ctx.subscriptions id = some s) :
    Takes id s s.needs ∅ w.drained (w.closeSubscription id).1.drained := by
  have hmoves := moves_closeEventSubscription hwf.toLinked hopen
  have hclose : (w.closeSubscription id).1.drained =
      ⟨(w.ctx.closeEventSubscription id).1, w.drained.sent ++
        subscribeSymbolsToEvents .remove s s.symbols s.subscriptionFlags⟩ := by
    simp only [Worker.closeSubscription, hopen, Worker.drained_setCtx, Worker.drained_subscribe]
    rfl
  rw [hclose]
  refine ⟨hmoves.wellFormed hwf (by simp), ?_, ?_⟩
  · rw [serverInterests_remove, Set.union_empty]
    rfl
  · rw [hmoves.needed_of_none, Set.sdiff_self]
    simp

/-- A call for an open subscription. -/
theorem takes_step (hwf : WellFormed w.ctx) (hplain : ¬ step.AsksWildcard)
    (htarget : step.target = some id) (hopen : w.ctx.subscriptions id = some s) :
    Takes id s (s.taken step) (s.given step) w.drained (w.step step).drained := by
  have hdrained : WellFormed w.drained.ctx := hwf
  cases step with
  | create | execute | reconnect => exact absurd htarget nofun
  | close other =>
      obtain rfl := Option.some.inj htarget
      exact takes_closeSubscription hwf hopen
  | add other symbols =>
      obtain rfl := Option.some.inj htarget
      obtain ⟨client', hcall, htakes⟩ := takes_addSymbols hdrained hopen hplain
      rw [Worker.drained_addSymbols] at hcall
      rwa [← (Prod.mk.inj hcall).1] at htakes
  | remove other symbols =>
      obtain rfl := Option.some.inj htarget
      obtain ⟨client', hcall, htakes⟩ := takes_removeSymbols hdrained hopen
      rw [Worker.drained_removeSymbols] at hcall
      rwa [← (Prod.mk.inj hcall).1] at htakes
  | clear other =>
      obtain rfl := Option.some.inj htarget
      obtain ⟨client', hcall, -, htakes⟩ := takes_clearSymbols hdrained hopen
      rw [Worker.drained_clearSymbols] at hcall
      rwa [← (Prod.mk.inj hcall).1] at htakes
  | set other symbols =>
      obtain rfl := Option.some.inj htarget
      obtain ⟨client', hcall, htakes⟩ := takes_setSymbols hdrained hopen hplain
      rw [Worker.drained_setSymbols] at hcall
      rwa [← (Prod.mk.inj hcall).1] at htakes

/-- A call for a subscription that is not open. -/
theorem step_of_closed (htarget : step.target = some id)
    (hnone : w.ctx.subscriptions id = none) : w.step step = w := by
  cases step with
  | create | execute | reconnect => exact absurd htarget nofun
  | close other =>
      obtain rfl := Option.some.inj htarget
      simp only [Worker.step, Worker.closeSubscription, hnone]
  | add other symbols =>
      obtain rfl := Option.some.inj htarget
      simp only [Worker.step, Worker.addSymbols, hnone]
      split_ifs
      · rfl
      · rfl
  | remove other symbols =>
      obtain rfl := Option.some.inj htarget
      simp only [Worker.step, Worker.removeSymbols, hnone]
  | clear other =>
      obtain rfl := Option.some.inj htarget
      simp only [Worker.step, Worker.clearSymbols, hnone]
  | set other symbols =>
      obtain rfl := Option.some.inj htarget
      simp only [Worker.step, Worker.setSymbols, Worker.clearSymbols, hnone]

/-- A new subscription needs nothing. -/
theorem needed_createSubscription (hwf : WellFormed w.ctx) (eventTypes subscrFlags : ℕ) (time : ℤ) :
    WellFormed (w.createSubscription eventTypes subscrFlags time).ctx ∧
      needed (w.createSubscription eventTypes subscrFlags time).ctx = needed w.ctx := by
  have hlinked := linked_createEventSubscription hwf.toLinked eventTypes subscrFlags time
  simp only [Worker.createSubscription, Context.createEventSubscription] at hlinked ⊢
  split_ifs at hlinked ⊢
  · exact ⟨hwf, rfl⟩
  · have hfresh : w.ctx.subscriptions w.ctx.created = none := by
      cases hs : w.ctx.subscriptions w.ctx.created with
      | none => rfl
      | some s => exact absurd (hwf.subscriptions _ s hs).2 (lt_irrefl _)
    have hmoves : Moves w.ctx.created
        (some ⟨eventTypes, [], [], Context.initialOrderSource eventTypes, subscrFlags, time⟩)
        w.ctx _ := ⟨hlinked, rfl⟩
    refine ⟨hmoves.wellFormed hwf (by simp), ?_⟩
    rw [hmoves.needed, needed_eq_of_none hfresh]
    simp [SubscriptionData.needs]

/-- The tasks of a new session, one for each open subscription. -/
theorem refreshSubscriptions_spec (ids : List SubscriptionId) :
    (ids.foldl Worker.refreshSubscription w).ctx = w.ctx ∧
      serverInterests (ids.foldl Worker.refreshSubscription w).drained.sent =
        serverInterests w.drained.sent ∪
          {i | ∃ id ∈ ids, ∃ s ∈ w.ctx.subscriptions id, i ∈ s.needs} := by
  induction ids generalizing w with
  | nil => simp
  | cons id ids ih =>
      obtain ⟨hctx, hserver⟩ := ih (w := w.refreshSubscription id)
      have hone : (w.refreshSubscription id).ctx = w.ctx ∧
          serverInterests (w.refreshSubscription id).drained.sent =
            serverInterests w.drained.sent ∪ {i | ∃ s ∈ w.ctx.subscriptions id, i ∈ s.needs} := by
        unfold Worker.refreshSubscription
        cases w.ctx.subscriptions id with
        | none => simp
        | some s =>
            refine ⟨rfl, ?_⟩
            rw [Worker.drained_subscribe, serverInterests_add (by decide)]
            simp [SubscriptionData.needs]
      rw [List.foldl_cons, hctx, hserver, hone.1, hone.2]
      refine ⟨rfl, ?_⟩
      ext i
      simp [or_assoc]

/-- A new session asks for what is needed. -/
theorem reestablishConnection_spec (hwf : WellFormed w.ctx) :
    w.reestablishConnection.ctx = w.ctx ∧ w.reestablishConnection.Agrees := by
  obtain ⟨hctx, hserver⟩ := refreshSubscriptions_spec (w := { w with tasks := [], sent := [] })
    (List.range w.ctx.created)
  refine ⟨hctx, ?_⟩
  rw [Worker.Agrees, Client.Agrees, Worker.drained_ctx, Worker.reestablishConnection, hserver, hctx]
  ext i
  constructor
  · rintro (hold | ⟨id, -, s, hs, hi⟩)
    · exact absurd hold (by simp [Worker.drained, serverInterests])
    · exact ⟨id, s, hs, hi⟩
  · rintro ⟨id, s, hs, hi⟩
    exact Or.inr ⟨id, List.mem_range.mpr (hwf.subscriptions id s hs).2, s, hs, hi⟩

/-- One step: the context stays well-formed, and agreement survives if and only if the step spares
the other subscriptions. -/
theorem step_spec (hwf : WellFormed w.ctx) (hplain : ¬ step.AsksWildcard) :
    WellFormed (w.step step).ctx ∧
      (w.Agrees → ((w.step step).Agrees ↔ step.Spares w.ctx)) := by
  cases htarget : step.target with
  | some id =>
      cases hopen : w.ctx.subscriptions id with
      | none =>
          rw [step_of_closed htarget hopen]
          refine ⟨hwf, fun hagrees => iff_of_true hagrees ?_⟩
          intro other hother s hs
          obtain rfl := Option.some.inj (htarget.symm.trans hother)
          exact absurd (hopen.symm.trans hs) nofun
      | some s =>
          have htakes := takes_step hwf hplain htarget hopen
          refine ⟨htakes.wellFormed, fun hagrees => ?_⟩
          rw [Worker.Agrees, htakes.agrees_iff hopen hagrees]
          constructor
          · intro hspares other hother s' hs'
            obtain rfl := Option.some.inj (htarget.symm.trans hother)
            obtain rfl := Option.some.inj (hopen.symm.trans hs')
            exact hspares
          · exact fun hspares => hspares id htarget s hopen
  | none =>
      have hspares : step.Spares w.ctx := by
        intro id hid
        exact absurd (htarget.symm.trans hid) nofun
      cases step with
      | close | add | remove | clear | set => exact absurd htarget nofun
      | create eventTypes subscrFlags time =>
          obtain ⟨hwf', hneeded⟩ := needed_createSubscription hwf eventTypes subscrFlags time
          exact ⟨hwf', fun hagrees => iff_of_true (hagrees.trans hneeded.symm) hspares⟩
      | execute =>
          have hctx : w.executeTask.ctx = w.ctx := congrArg Client.ctx Worker.drained_executeTask
          refine ⟨?_, fun hagrees => iff_of_true ?_ hspares⟩
          · rw [Worker.step, hctx]
            exact hwf
          · rwa [Worker.Agrees, Worker.step, Worker.drained_executeTask]
      | reconnect =>
          obtain ⟨hctx, hagrees⟩ := reestablishConnection_spec hwf
          refine ⟨?_, fun _ => iff_of_true hagrees hspares⟩
          rw [Worker.step, hctx]
          exact hwf

end Steps

/-! ### Runs -/

section Runs

variable {steps : List WorkerStep}

theorem after_concat_step (steps : List WorkerStep) (step : WorkerStep) :
    (Worker.after (steps ++ [step]) : Worker D) = (Worker.after steps).step step :=
  List.foldl_concat ..

theorem wellFormed_after (h : ∀ step ∈ steps, ¬ step.AsksWildcard) :
    WellFormed (Worker.after steps : Worker D).ctx := by
  induction steps using List.reverseRecOn with
  | nil => exact ⟨linked_empty, nofun⟩
  | append_singleton steps step ih =>
      rw [after_concat_step]
      exact (step_spec (ih fun other hother => h other (List.mem_append_left _ hother))
        (h step (by simp))).1

theorem agrees_empty : (Worker.empty : Worker D).Agrees := by
  rw [Worker.Agrees, Client.Agrees]
  ext i
  simp [Worker.empty, Worker.drained, serverInterests, needed, Context.empty]

/-- A run agrees all the time if and only if each of its calls spares the other subscriptions; and
behind every reconnection it agrees, whatever the calls in front of it have taken. -/
theorem agreesThroughout_iff (h : ∀ step ∈ steps, ¬ step.AsksWildcard) :
    ((∀ before after, steps = before ++ after → (Worker.after before : Worker D).Agrees) ↔
        Admitted (fun before step => step.Spares (Worker.after before : Worker D).ctx) steps) ∧
      ∀ before after, steps = before ++ .reconnect :: after →
        (Worker.after (before ++ [.reconnect]) : Worker D).Agrees := by
  refine ⟨⟨?_, ?_⟩, ?_⟩
  · rintro hagrees before step after rfl
    have hbefore : ∀ other ∈ before, ¬ other.AsksWildcard :=
      fun other hother => h other (List.mem_append_left _ hother)
    have hspec := step_spec (wellFormed_after (D := D) hbefore) (h step (by simp))
    refine (hspec.2 (hagrees before (step :: after) rfl)).mp ?_
    rw [← after_concat_step]
    exact hagrees (before ++ [step]) after (by simp)
  · rintro hspares before after rfl
    induction before using List.reverseRecOn generalizing after with
    | nil => exact agrees_empty
    | append_singleton before step ih =>
        have hbefore : ∀ other ∈ before, ¬ other.AsksWildcard :=
          fun other hother => h other (by simp [hother])
        have hspec := step_spec (wellFormed_after (D := D) hbefore) (h step (by simp))
        rw [after_concat_step]
        refine (hspec.2 (ih (step :: after) (by simpa using h) (by simpa using hspares))).mpr ?_
        exact hspares before step after (by simp)
  · -- the new session asks for what is needed, whatever the old one has been told
    rintro before after rfl
    have hbefore : ∀ other ∈ before, ¬ other.AsksWildcard :=
      fun other hother => h other (List.mem_append_left _ hother)
    rw [after_concat_step]
    exact (reestablishConnection_spec (wellFormed_after hbefore)).2

/-- Two subscriptions to the trades of one symbol. -/
def sharedSymbol : List WorkerStep :=
  [.create EventId.trade.bitMask 0 0, .create EventId.trade.bitMask 0 0, .add 0 [[65]],
    .add 1 [[65]]]

/-- The messages of the first subscription take the symbol from the second one. -/
theorem not_spares_close :
    ¬ (WorkerStep.close 0).Spares (Worker.after sharedSymbol : Worker Unit).ctx := by
  intro hspares
  let s : SubscriptionData := ⟨EventId.trade.bitMask, [[65]], [], [], 0, 0⟩
  have hfirst : (Worker.after sharedSymbol : Worker Unit).ctx.subscriptions 0 = some s := by
    decide +kernel
  have hsecond : (Worker.after sharedSymbol : Worker Unit).ctx.subscriptions 1 = some s := by
    decide +kernel
  have hneeds : (⟨.ticker, ServerMessageProcessor.wideString "Trade", [65]⟩ : Interest) ∈ s.needs :=
    ⟨by decide, by decide +kernel⟩
  exact hspares 0 rfl s hfirst ⟨⟨1, by decide, s, hsecond, hneeds⟩, hneeds⟩

/-- The close ends the agreement, and a reconnection brings it back. -/
theorem not_agreesThroughout_close :
    (¬ ∀ before after, sharedSymbol ++ [.close 0, .reconnect] = before ++ after →
        (Worker.after before : Worker Unit).Agrees) ∧
      (Worker.after (sharedSymbol ++ [.close 0, .reconnect]) : Worker Unit).Agrees := by
  have hspec := @agreesThroughout_iff Unit (sharedSymbol ++ [.close 0, .reconnect]) (by decide)
  refine ⟨fun hagrees => ?_, ?_⟩
  · exact not_spares_close (hspec.1.mp hagrees sharedSymbol (.close 0) [.reconnect] rfl)
  · exact hspec.2 (sharedSymbol ++ [.close 0]) [] rfl

end Runs

end DxFeed.EventSubscription
