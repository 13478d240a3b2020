import DxFeed.PriceLevelBook.Create

/-!
# Runs of calls and the teardown

* `Consistent`: the table, the consumers and the open books, as a caller knows them;
* `tearsDown_iff`: the teardown of a connection is right only if no book is open;
* `LifecycleHolds`: what is said about a run of calls and the teardown behind it;
* `lifecycleHolds_of_canCall`: it holds if every call has what it needs and all books are closed.

`dx_deinit_connection` frees the event subscriptions in front of the price level books, which use
theirs, and `dx_plb_clear_connection_context` goes through as many slots as there are sources.
-/

namespace DxFeed.PriceLevelBook

open History Run

variable {plbSourceHash : String → String → ℕ} {c c' : PlbContext plbSourceHash}
  {live : List (TableSource plbSourceHash)}

/-- The table has the sources of the open books, and the consumers of each of them are the books
that use it, once each and with their indices. -/
structure Consistent (c : PlbContext plbSourceHash) : Prop where
  sources : ∀ s, (∃ pos < c.table.srcCapacity, c.table.sources pos = some s) ↔
    ∃ book ∈ c.books, s ∈ book.sources
  consumers : ∀ book ∈ c.books, ∀ i s, book.sources[i]? = some s →
    (c.consumers s.address).filter (fun x => x.consumer = book.address) = [⟨book.address, i⟩]
  onlyBooks : ∀ book ∈ c.books, ∀ s ∈ book.sources, ∀ x ∈ c.consumers s.address,
    ∃ book' ∈ c.books, book'.address = x.consumer ∧ book'.sources[x.sourceidx]? = some s

/-- The only element with its value is what is left for this value. -/
theorem filter_eq_singleton {α β : Type*} [DecidableEq β] {f : α → β} {l : List α} {x : α}
    (h : (l.map f).Nodup) (hx : x ∈ l) : l.filter (fun y => f y = f x) = [x] := by
  induction l with
  | nil => exact absurd hx (List.not_mem_nil)
  | cons a l ih =>
      obtain ⟨hnotMem, hnodup⟩ := List.nodup_cons.mp h
      rcases List.mem_cons.mp hx with rfl | hx
      · rw [List.filter_cons_of_pos (by simp), List.filter_eq_nil_iff.mpr]
        intro y hy heq
        exact hnotMem (List.mem_map.mpr ⟨y, hy, of_decide_eq_true heq⟩)
      · have hne : f a ≠ f x := by
          intro heq
          exact hnotMem (heq ▸ List.mem_map_of_mem hx)
        rw [List.filter_cons_of_neg (by simpa using hne), ih hnodup hx]

theorem Linked.mem_slots (h : Linked c live) (s : TableSource plbSourceHash) :
    (∃ pos < c.table.srcCapacity, c.table.sources pos = some s) ↔ s ∈ live := by
  rw [h.holding.capacity, h.holding.stores.mem_iff]

theorem Linked.consistent (h : Linked c live) : Consistent c where
  sources s := (h.mem_slots s).trans (h.used s)
  consumers book hbook i s hi := by
    have hs : s ∈ live := (h.used s).mpr ⟨book, hbook, List.mem_of_getElem? hi⟩
    have hx : (⟨book.address, i⟩ : Consumer) ∈ c.consumers s.address :=
      (h.consumer s hs _).mpr ⟨book, hbook, rfl, hi⟩
    exact filter_eq_singleton (h.once s.address) hx
  onlyBooks book hbook s hs x hx :=
    (h.consumer s ((h.used s).mpr ⟨book, hbook, hs⟩) x).mp hx

/-! ### The teardown -/

/-- An enumeration of the open subscriptions. -/
def Enumerates (order : List ℕ) (subscriptions : Finset ℕ) : Prop :=
  order.Nodup ∧ ∀ a, a ∈ order ↔ a ∈ subscriptions

/-- What is freed behind the subscriptions belongs to a source that is gone through. -/
theorem mem_plbClearConnectionContext {event : MemoryEvent} :
    event ∈ plbClearConnectionContext c ↔
      ∃ i < c.table.srcSize, ∃ s, c.table.sources i = some s ∧ event ∈ plbSourceClearForced c s := by
  simp only [plbClearConnectionContext, List.mem_flatMap, List.mem_range]
  refine exists_congr fun i => and_congr_right fun _ => ?_
  cases c.table.sources i with
  | none => simp
  | some s => simp

/-- A source that is gone through uses its subscription, which has been freed. -/
theorem not_tearsDown_of_mem (h : Linked c live) {order : List ℕ}
    (horder : Enumerates order c.subscriptions) {s : TableSource plbSourceHash} (hs : s ∈ live)
    (hmem : .use (.subscription s.address) ∈ plbClearConnectionContext c) :
    ¬ TearsDown c (deinitConnection c order) := by
  intro hdown
  obtain ⟨before, after, hsplit⟩ := List.append_of_mem hmem
  have hfreed : MemoryEvent.free (.subscription s.address) ∈
      order.map fun a => MemoryEvent.free (.subscription a) := by
    refine List.mem_map_of_mem ((horder.2 _).mpr ?_)
    exact (h.subscribed _).mpr ⟨s, hs, rfl⟩
  refine hdown.notFreed (order.map (fun a => .free (.subscription a)) ++ before)
    (.use (.subscription s.address)) after ?_ (List.mem_append_left _ hfreed)
  rw [deinitConnection, hsplit, List.append_assoc]

/-- The teardown is right exactly if no book is open. -/
theorem tearsDown_iff (h : Linked c live) {order : List ℕ}
    (horder : Enumerates order c.subscriptions) :
    TearsDown c (deinitConnection c order) ↔ c.books = [] := by
  constructor
  · intro hdown
    by_contra hopen
    obtain ⟨book, hbook⟩ := List.exists_mem_of_ne_nil _ hopen
    -- the book is freed with one of its sources
    have hfreed : MemoryEvent.free (.book book.address) ∈ deinitConnection c order := by
      rw [← List.count_pos_iff, hdown.books book hbook]
      exact Nat.one_pos
    rw [deinitConnection, List.mem_append] at hfreed
    rcases hfreed with hfreed | hfreed
    · simp at hfreed
    · obtain ⟨i, hi, s, hslot, -⟩ := mem_plbClearConnectionContext.mp hfreed
      have hlt : i < c.table.srcCapacity := by
        have hbound := h.holding.bound
        rw [h.holding.size] at hi
        rw [h.holding.capacity]
        omega
      have hs : s ∈ live := (h.mem_slots s).mp ⟨i, hlt, hslot⟩
      refine not_tearsDown_of_mem h horder hs ?_ hdown
      rw [mem_plbClearConnectionContext]
      exact ⟨i, hi, s, hslot, by simp [plbSourceClearForced]⟩
  · intro hclosed
    have hlive : live = [] := by
      rw [List.eq_nil_iff_forall_not_mem]
      intro s hs
      obtain ⟨book, hbook, -⟩ := (h.used s).mp hs
      rw [hclosed] at hbook
      exact List.not_mem_nil hbook
    have hsubscriptions : order = [] := by
      rw [List.eq_nil_iff_forall_not_mem]
      intro a ha
      obtain ⟨s, hs, -⟩ := (h.subscribed a).mp ((horder.2 a).mp ha)
      rw [hlive] at hs
      exact List.not_mem_nil hs
    have hnothing : deinitConnection c order = [] := by
      have hsize := h.holding.size
      rw [hlive, List.length_nil] at hsize
      simp [deinitConnection, plbClearConnectionContext, hsubscriptions, hsize]
    exact
      { sources := by
          intro pos hpos s hslot
          have hs := (h.mem_slots s).mp ⟨pos, hpos, hslot⟩
          rw [hlive] at hs
          exact absurd hs (List.not_mem_nil)
        books := by
          intro book hbook
          rw [hclosed] at hbook
          exact absurd hbook (List.not_mem_nil)
        notFreed := by
          rw [hnothing]
          exact admitted_nil }

/-! ### Runs -/

/-- What a call needs: `dx_create_price_level_book` sources that fit into the table, and both of the
calls that the subscriptions are closed that they close. -/
def CanCall (state : Except TableFault (PlbContext plbSourceHash)) (call : LifecycleCall) : Prop :=
  match state with
  | .error _ => True
  | .ok c =>
      match call with
      | .create env symbol srcflags =>
          env.bookAllocated = true → CanCreate env c symbol (selectedSources srcflags)
      | .close env address =>
          ∀ book ∈ c.books, book.address = address →
            ∀ s ∈ book.sources, consumersWithout c book s.address = [] →
              env.subscriptionClosed s.source = true

instance (state : Except TableFault (PlbContext plbSourceHash)) (call : LifecycleCall) :
    Decidable (CanCall state call) :=
  match state, call with
  | .error _, _ => isTrue trivial
  | .ok c, .create env symbol srcflags =>
      inferInstanceAs
        (Decidable (env.bookAllocated = true → CanCreate env c symbol (selectedSources srcflags)))
  | .ok c, .close env address =>
      inferInstanceAs (Decidable (∀ book ∈ c.books, book.address = address →
        ∀ s ∈ book.sources, consumersWithout c book s.address = [] →
          env.subscriptionClosed s.source = true))

/-- The calls of a run and the teardown behind them do what they should. -/
structure LifecycleHolds (plbSourceHash : String → String → ℕ) (calls : List LifecycleCall) :
    Prop where
  consistent : ∀ before after, calls = before ++ after →
    ∃ c, (run lifecycleStep (.ok (PlbContext.init plbSourceHash)) before).1 = .ok c ∧ Consistent c
  failedCreate : ∀ before env symbol srcflags after,
    calls = before ++ .create env symbol srcflags :: after → ∀ c c',
      (run lifecycleStep (.ok (PlbContext.init plbSourceHash)) before).1 = .ok c →
        createPriceLevelBookWith env c symbol srcflags = .ok (c', none) → Unchanged c c'
  teardown : ∀ c, (run lifecycleStep (.ok (PlbContext.init plbSourceHash)) calls).1 = .ok c →
    ∀ order, Enumerates order c.subscriptions → TearsDown c (deinitConnection c order)

/-- A call that has what it needs keeps the books and their sources linked. -/
theorem Linked.step (h : Linked c live) {call : LifecycleCall} (hcall : CanCall (.ok c) call) :
    ∃ c' live', (lifecycleStep (.ok c) call).1 = .ok c' ∧ Linked c' live' := by
  cases call with
  | create env symbol srcflags =>
      obtain ⟨c', live', result, hcreate, hlinked, -⟩ := h.create hcall
      exact ⟨c', live', by simp only [lifecycleStep, hcreate], hlinked⟩
  | close env address =>
      by_cases hfind : ∃ book ∈ c.books, book.address = address
      · obtain ⟨book, hbook, rfl⟩ := hfind
        exact h.close hbook (hcall book hbook rfl)
      · refine ⟨c, live, ?_, h⟩
        have hnone : c.books.find? (fun book => book.address = address) = none := by
          rw [List.find?_eq_none]
          intro book hbook
          simpa using fun heq => hfind ⟨book, hbook, heq⟩
        simp only [lifecycleStep, closePriceLevelBook, hnone]

/-- So does a run of such calls. -/
theorem exists_linked_run {calls : List LifecycleCall}
    (hcalls : AllSteps CanCall lifecycleStep (.ok (PlbContext.init plbSourceHash)) calls) :
    ∃ c live, (run lifecycleStep (.ok (PlbContext.init plbSourceHash)) calls).1 = .ok c ∧
      Linked c live := by
  refine @run_invariant _ _ _ lifecycleStep CanCall (.ok (PlbContext.init plbSourceHash)) calls
    (fun state _ => ∃ c live, state = .ok c ∧ Linked c live) [] ⟨_, [], rfl, .init _⟩ hcalls ?_
  rintro state call os ⟨c, live, rfl, h⟩ hcall
  exact h.step hcall

/-- In every run whose calls have what they need, the table, the consumers and the open books agree
between the calls, and a failed creation leaves all of them as they were; if all books are closed in
front of the teardown, then it frees everything once. -/
theorem lifecycleHolds_of_canCall (plbSourceHash : String → String → ℕ)
    (calls : List LifecycleCall)
    (hcalls : AllSteps CanCall lifecycleStep (.ok (PlbContext.init plbSourceHash)) calls)
    (hclosed : ∀ c, (run lifecycleStep (.ok (PlbContext.init plbSourceHash)) calls).1 = .ok c →
      c.books = []) :
    LifecycleHolds plbSourceHash calls where
  consistent before after hsplit := by
    obtain ⟨c, live, hrun, hlinked⟩ :=
      exists_linked_run (allSteps_append.mp (hsplit ▸ hcalls)).1
    exact ⟨c, hrun, hlinked.consistent⟩
  failedCreate before env symbol srcflags after hsplit c c' hrun hfailed := by
    obtain ⟨hbefore, hcall, -⟩ := allSteps_append.mp (hsplit ▸ hcalls)
    obtain ⟨d, live, hrun', hlinked⟩ := exists_linked_run hbefore
    rw [hrun] at hrun' hcall
    obtain rfl := Except.ok.inj hrun'
    obtain ⟨d', -, result, hcreate, -, hunchanged⟩ := hlinked.create hcall
    rw [hfailed] at hcreate
    obtain ⟨rfl, rfl⟩ := Prod.mk.inj (Except.ok.inj hcreate)
    exact hunchanged rfl
  teardown c hrun order horder := by
    obtain ⟨d, live, hrun', hlinked⟩ := exists_linked_run hcalls
    rw [hrun] at hrun'
    obtain rfl := Except.ok.inj hrun'
    exact (tearsDown_iff hlinked horder).mpr (hclosed c hrun)

/-- Nothing fails. -/
def allSucceed : Environment where
  bookAllocated := true
  sourceCreation := fun _ => .created
  tableGrown := true
  consumerAllocated := fun _ => true
  subscriptionClosed := fun _ => true

/-- There is no memory for the consumer of the second source. -/
def secondConsumerFails : Environment :=
  { allSucceed with consumerAllocated := fun src => src ≠ "ntv" }

/-- Two books of one symbol share a source, a third one cannot be created, and both are closed. -/
def closedCalls : List LifecycleCall :=
  [.create allSucceed "IBM" 1, .create allSucceed "IBM" 5, .create secondConsumerFails "IBM" 3,
    .close allSucceed 0, .close allSucceed 2]

theorem closedCalls_canCall :
    AllSteps CanCall lifecycleStep (.ok (PlbContext.init fun _ _ => 0)) closedCalls := by
  decide +kernel

theorem closedCalls_books (c : PlbContext fun _ _ => 0)
    (hrun : (run lifecycleStep (.ok (PlbContext.init fun _ _ => 0)) closedCalls).1 = .ok c) :
    c.books = [] := by
  have hbooks : (run lifecycleStep (.ok (PlbContext.init fun _ _ => 0)) closedCalls).1.toOption.map
      PlbContext.books = some [] := by decide +kernel
  rw [hrun] at hbooks
  exact Option.some.inj hbooks

theorem lifecycleHolds_of_canCall_closed : LifecycleHolds (fun _ _ => 0) closedCalls :=
  lifecycleHolds_of_canCall (fun _ _ => 0) closedCalls closedCalls_canCall closedCalls_books

/-! ### An open book -/

/-- A source for a book is found or created if nothing fails. -/
theorem exists_source_of_allSucceed {symbol src : String}
    {found : Option (TableSource plbSourceHash)}
    (h : findOrCreateSource allSucceed c symbol src = .ok (found, c')) :
    ∃ source, found = some source := by
  unfold findOrCreateSource at h
  cases hfind : plbCtxFindSource c.table symbol src with
  | error e => simp [hfind, bind, Except.bind] at h
  | ok old =>
      cases old with
      | some source =>
          simp only [hfind, bind, Except.bind, pure, Except.pure, Except.ok.injEq,
            Prod.mk.injEq] at h
          exact ⟨source, h.1.symm⟩
      | none =>
          simp only [hfind, bind, Except.bind, plbSourceCreateWith, plbCtxTryAddSource, allSucceed,
            pure, Except.pure, Bool.true_eq_false, and_false, if_false] at h
          split at h
          · cases h
          · rename_i hadd
            split at hadd
            · cases hadd
            · split at hadd
              · cases hadd
              · cases hadd
                exact ⟨_, (Prod.mk.inj (Except.ok.inj h)).1.symm⟩

/-- If nothing fails, then there is a book. -/
theorem exists_book_of_allSucceed {symbol : String} {srcs : List String}
    {book : BookObject plbSourceHash} {result : Option (BookObject plbSourceHash)}
    (h : addSources allSucceed symbol srcs c book = .ok (c', result)) :
    ∃ book', result = some book' := by
  induction srcs generalizing c book with
  | nil => exact ⟨book, (Prod.mk.inj (Except.ok.inj h)).2.symm⟩
  | cons src srcs ih =>
      rw [addSources] at h
      cases hsource : findOrCreateSource allSucceed c symbol src with
      | error e => simp [hsource, bind, Except.bind] at h
      | ok found =>
          obtain ⟨r, c₁⟩ := found
          obtain ⟨source, rfl⟩ := exists_source_of_allSucceed hsource
          rw [hsource] at h
          exact ih h

/-- So the call opens one. -/
theorem exists_book_of_createPriceLevelBook {symbol : String} {srcflags : ℕ}
    {result : Option (BookObject plbSourceHash)}
    (h : createPriceLevelBookWith allSucceed c symbol srcflags = .ok (c', result)) :
    ∃ book, book ∈ c'.books := by
  unfold createPriceLevelBookWith at h
  have hbook : allSucceed.bookAllocated = true := rfl
  rw [if_pos hbook] at h
  cases hadd : addSources allSucceed symbol (selectedSources srcflags)
      { c with nextAddress := c.nextAddress + 1 } ⟨c.nextAddress, symbol, []⟩ with
  | error e => simp [hadd, bind, Except.bind] at h
  | ok added =>
      obtain ⟨c₁, made⟩ := added
      obtain ⟨book, rfl⟩ := exists_book_of_allSucceed hadd
      rw [hadd] at h
      obtain ⟨rfl, rfl⟩ := Prod.mk.inj (Except.ok.inj h)
      exact ⟨book, List.mem_append_right _ (List.mem_singleton_self book)⟩

/-- A book that is open in front of the teardown. -/
def openCalls : List LifecycleCall := [.create allSucceed "IBM" 1]

theorem canCall_open (plbSourceHash : String → String → ℕ) :
    CanCall (.ok (PlbContext.init plbSourceHash)) (.create allSucceed "IBM" 1) := by
  intro _
  have hsources : selectedSources 1 = ["NTV"] := by decide
  rw [hsources]
  exact ⟨Or.inr (by simp [newSources, isUsed, PlbContext.init, SourceTable.init, allSucceed]),
    by simp [undoneSources, isUsed, PlbContext.init, allSucceed]⟩

/-- Whatever the hash is, the teardown leaves the source, or the source uses its subscription behind
the place where that is freed. -/
theorem not_lifecycleHolds_open :
    ¬ ∃ plbSourceHash : String → String → ℕ, LifecycleHolds plbSourceHash openCalls := by
  rintro ⟨plbSourceHash, hholds⟩
  obtain ⟨c, live, result, hcreate, hlinked, -⟩ :=
    (Linked.init plbSourceHash).create (canCall_open plbSourceHash)
  have hrun : (run lifecycleStep (.ok (PlbContext.init plbSourceHash)) openCalls).1 = .ok c := by
    simp only [openCalls, run, lifecycleStep, hcreate]
  have horder : Enumerates c.subscriptions.toList c.subscriptions :=
    ⟨Finset.nodup_toList _, fun a => Finset.mem_toList⟩
  have hclosed := (tearsDown_iff hlinked horder).mp
    (hholds.teardown c hrun c.subscriptions.toList horder)
  obtain ⟨book, hbook⟩ := exists_book_of_createPriceLevelBook hcreate
  rw [hclosed] at hbook
  exact List.not_mem_nil hbook

end DxFeed.PriceLevelBook
