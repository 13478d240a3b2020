import DxFeed.PriceLevelBook.Book
import DxFeed.PriceLevelBook.Publication

/-!
# Is the published book current?

After an event that ends a transaction, the book should show the merge of the final levels of
its sources, and its listeners should have seen it.

* `mergedBids`, `mergedAsks`: the merge of the final levels of some sources;
* `updateSide_spec`: what `dx_plb_book_update` does to one side;
* `ShowsChange`: the condition on an event under which the book follows.  The mark `changed`
  only compares the slots that the new merge fills, so a merge that agrees with them but has
  another number of levels goes unnoticed; and a side whose mark `updated` is not set is not
  merged at all;
* `book_current`: in every run whose events all satisfy the condition, the book is current.
-/

namespace DxFeed.PriceLevelBook

open SortedList Run

variable {P S κ : Type*}

/-! ### One side of the book -/

section Side

variable [LinearOrder κ] [DecidableEq P] [AddCommGroup S] [DecidableEq S]
  {rank : P → κ} {cmp : LevelComparator P S} {startValue : P} {dst : BookSide P S}
  {srcs : List (PriceLevelSide P S)}

/-- `dx_plb_book_update_one_side` writes the merged levels, and compares only their slots. -/
theorem plbBookUpdateOneSide_spec (hrank : Function.Injective rank)
    (hcmp : Orders cmp fun e => rank e.price) (hslots : dst.slots.length = maxPriceLevels)
    (hs : ∀ src ∈ srcs, KeySorted (fun e : PriceLevelElement P S => rank e.price) src.levels) :
    let M := mergedLevels rank startValue (srcs.map PriceLevelSide.levels).flatten
    plbBookUpdateOneSide cmp dst srcs startValue =
      (⟨M ++ dst.slots.drop M.length, M.length⟩, decide (dst.slots.take M.length ≠ M)) := by
  unfold plbBookUpdateOneSide
  rw [mergeLoop_spec hrank hcmp hslots (by simpa using hs)]

theorem mergedLevels_length_le (rank : P → κ) (startValue : P)
    (levels : List (PriceLevelElement P S)) :
    (mergedLevels rank startValue levels).length ≤ maxPriceLevels := by
  refine (List.takeWhile_prefix _).length_le.trans ?_
  rw [bestMerge, List.length_map]
  exact List.length_take_le _ _

/-- One side of `dx_plb_book_update`, when the start value hides nothing and a side that is not
merged was current before. -/
theorem updateSide_spec {updated : Bool} {B : List (PriceLevelElement P S)}
    (hrank : Function.Injective rank) (hcmp : Orders cmp fun e => rank e.price)
    (hslots : dst.slots.length = maxPriceLevels) (hcount : dst.count ≤ maxPriceLevels)
    (hs : ∀ src ∈ srcs, KeySorted (fun e : PriceLevelElement P S => rank e.price) src.levels)
    (hB : bestMerge rank (srcs.map PriceLevelSide.levels).flatten = B)
    (hadm : updated = true → ∀ e ∈ B, Admissible rank startValue e)
    (hsync : updated = false → dst.slots.take dst.count = B) :
    let r := updateSide cmp updated dst srcs startValue
    r.1.slots.length = maxPriceLevels ∧ r.1.slots.take r.1.count = B ∧ r.1.count = B.length ∧
      (r.2 = true ↔ updated = true ∧ dst.slots.take B.length ≠ B) ∧
      (r.2 = false → r.1.slots = dst.slots) := by
  cases hu : updated with
  | false =>
      have htake := hsync hu
      have hlen : dst.count = B.length := by
        rw [← htake, List.length_take, hslots, Nat.min_eq_left hcount]
      exact ⟨hslots, htake, hlen, by simp [updateSide], fun _ => rfl⟩
  | true =>
      have hM : mergedLevels rank startValue (srcs.map PriceLevelSide.levels).flatten = B := by
        rw [← hB]
        exact mergedLevels_eq_bestMerge hrank (hB ▸ hadm hu)
      have hlen : B.length ≤ maxPriceLevels := hM ▸ mergedLevels_length_le rank startValue _
      simp only [updateSide, if_true, plbBookUpdateOneSide_spec hrank hcmp hslots hs, hM]
      refine ⟨?_, by simp, trivial, by simp, fun h => ?_⟩
      · rw [List.length_append, List.length_drop, hslots]
        omega
      · have htake : dst.slots.take B.length = B := by simpa using h
        nth_rewrite 1 [← htake]
        exact List.take_append_drop _ _

end Side

/-! ### The book -/

section Book

/-- The arrays of a book have ten slots, and its public counts are those of its sides. -/
structure BookConsistent (book : PlbBook P S) : Prop where
  bids_slots : book.bids.slots.length = maxPriceLevels
  asks_slots : book.asks.slots.length = maxPriceLevels
  bids_count : book.bids.count = book.bidsCount
  asks_count : book.asks.count = book.asksCount
  bids_le : book.bids.count ≤ maxPriceLevels
  asks_le : book.asks.count ≤ maxPriceLevels

theorem createPriceLevelBook_consistent [Zero P] [AddCommGroup S] (symbol : String)
    (listeners : List PlbListenerContext) :
    BookConsistent (createPriceLevelBook symbol listeners : PlbBook P S) where
  bids_slots := List.length_replicate
  asks_slots := List.length_replicate
  bids_count := rfl
  asks_count := rfl
  bids_le := Nat.zero_le _
  asks_le := Nat.zero_le _

/-- The book data that the listeners saw last: at first, the empty book. -/
def lastPassed (symbol : String) (calls : List (PlbListenerContext × BookData P S)) :
    BookData P S :=
  match calls.getLast? with
  | none => ⟨symbol, [], []⟩
  | some call => call.2

theorem lastPassed_append (symbol : String) {listeners : List PlbListenerContext}
    {calls : List (PlbListenerContext × BookData P S)} (hne : listeners ≠ []) (d : BookData P S) :
    lastPassed symbol (calls ++ listeners.map fun l => (l, d)) = d := by
  have hlast : (calls ++ listeners.map fun l => (l, d)).getLast? =
      some (listeners.getLast hne, d) := by
    rw [List.getLast?_append, List.getLast?_map, List.getLast?_eq_some_getLast hne]
    rfl
  simp [lastPassed, hlast]

variable [LinearOrder P] [Zero P] [AddCommGroup S] [LinearOrder S]

/-- The sources after one order event. -/
def BookSystem.sourcesAfter (sys : BookSystem P S) (input : ℕ × OrderEvent P S) :
    List (PlbSource P S) :=
  match sys.sources[input.1]? with
  | none => sys.sources
  | some source => sys.sources.set input.1 (plbEventListener source input.2).1

theorem sourcesAfter_sorted {sys : BookSystem P S} {input : ℕ × OrderEvent P S}
    (h : ∀ s ∈ sys.sources, SourceSorted s) :
    ∀ s ∈ sys.sourcesAfter input, SourceSorted s := by
  unfold BookSystem.sourcesAfter
  cases hget : sys.sources[input.1]? with
  | none => exact h
  | some source =>
      intro s hs
      rcases List.mem_or_eq_of_mem_set hs with hs | rfl
      · exact h s hs
      · exact plbEventListener_sorted (h source (List.mem_of_getElem? hget)) input.2

/-- A source in any state that a list of events can lead to. -/
def PlbSource.Reachable (source : PlbSource P S) : Prop :=
  ∃ symbol src events, source = runListener (plbSourceCreate symbol src) events

theorem PlbSource.Reachable.sorted {source : PlbSource P S} (h : source.Reachable) : SourceSorted source := by
  obtain ⟨symbol, src, events, rfl⟩ := h
  exact runListener_sorted (plbSourceCreate_sorted symbol src) events

/-- The merge of the final bids of some sources. -/
def mergedBids (sources : List (PlbSource P S)) : List (PriceLevelElement P S) :=
  bestMerge OrderDual.toDual ((sources.map PlbSource.finalBids).map PriceLevelSide.levels).flatten

/-- The merge of the final asks of some sources. -/
def mergedAsks (sources : List (PlbSource P S)) : List (PriceLevelElement P S) :=
  bestMerge id ((sources.map PlbSource.finalAsks).map PriceLevelSide.levels).flatten

/-- A side follows the merge: the start value hides none of its levels if the side is merged,
and the side is current already if it is not. -/
def SideFollows {κ : Type*} [LinearOrder κ] (rank : P → κ) (startValue : P) (updated : Bool)
    (old merge : List (PriceLevelElement P S)) : Prop :=
  (updated = true → ∀ e ∈ merge, Admissible rank startValue e) ∧ (updated = false → old = merge)

instance {κ : Type*} [LinearOrder κ] (rank : P → κ) (startValue : P) (updated : Bool)
    (old merge : List (PriceLevelElement P S)) :
    Decidable (SideFollows rank startValue updated old merge) :=
  inferInstanceAs (Decidable (_ ∧ _))

/-- A slot that the merge fills differs from what the array of the book holds there. -/
def SlotDiffers (updated : Bool) (slots merge : List (PriceLevelElement P S)) : Prop :=
  updated = true ∧ slots.take merge.length ≠ merge

instance (updated : Bool) (slots merge : List (PriceLevelElement P S)) :
    Decidable (SlotDiffers updated slots merge) :=
  inferInstanceAs (Decidable (_ ∧ _))

variable [NatCast P]

/-- The condition on the call of `dx_plb_book_update`: both sides follow the merge, and either
a filled slot differs on some merged side, or no side changes its number of levels. -/
structure UpdateShows (book : PlbBook P S) (src : PlbSource P S) (sources : List (PlbSource P S)) :
    Prop where
  bids : SideFollows OrderDual.toDual bidsStart src.bids.updated book.data.bids (mergedBids sources)
  asks : SideFollows id asksStart src.asks.updated book.data.asks (mergedAsks sources)
  shows : SlotDiffers src.bids.updated book.bids.slots (mergedBids sources) ∨
    SlotDiffers src.asks.updated book.asks.slots (mergedAsks sources) ∨
    (mergedBids sources).length = book.bidsCount ∧ (mergedAsks sources).length = book.asksCount

instance (book : PlbBook P S) (src : PlbSource P S) (sources : List (PlbSource P S)) :
    Decidable (UpdateShows book src sources) :=
  decidable_of_iff (_ ∧ _ ∧ _) ⟨fun h => ⟨h.1, h.2.1, h.2.2⟩, fun h => ⟨h.bids, h.asks, h.shows⟩⟩

variable {book : PlbBook P S} {src : PlbSource P S} {sources : List (PlbSource P S)}

/-- Under the condition, `dx_plb_book_update` makes the book current, and it calls the listeners
unless the public data stays the same. -/
theorem plbBookUpdate_spec (hbook : BookConsistent book) (hs : ∀ s ∈ sources, SourceSorted s)
    (h : UpdateShows book src sources) :
    let u := plbBookUpdate book src sources
    BookConsistent u.1 ∧ u.1.listeners = book.listeners ∧
      u.1.data = ⟨book.symbol, mergedBids sources, mergedAsks sources⟩ ∧
      (u.2 = u.1.listeners.map (fun l => (l, u.1.data)) ∨ u.2 = [] ∧ u.1.data = book.data) := by
  have hbids : ∀ s ∈ sources.map PlbSource.finalBids,
      KeySorted (fun e : PriceLevelElement P S => OrderDual.toDual e.price) s.levels := by
    simpa using fun s hm => (hs s hm).bids.final_sorted
  have hasks : ∀ s ∈ sources.map PlbSource.finalAsks,
      KeySorted (fun e : PriceLevelElement P S => id e.price) s.levels := by
    simpa using fun s hm => (hs s hm).asks.final_sorted
  have hb := updateSide_spec OrderDual.toDual.injective comparatorBid_orders hbook.bids_slots
    hbook.bids_le hbids rfl h.bids.1 (by rw [hbook.bids_count]; exact h.bids.2)
  have ha := updateSide_spec Function.injective_id comparatorAsk_orders hbook.asks_slots
    hbook.asks_le hasks rfl h.asks.1 (by rw [hbook.asks_count]; exact h.asks.2)
  unfold plbBookUpdate
  dsimp only at hb ha ⊢
  generalize updateSide plbPricelvelComparatorBid src.bids.updated book.bids
    (sources.map PlbSource.finalBids) bidsStart = rb at hb ⊢
  generalize updateSide plbPricelvelComparatorAsk src.asks.updated book.asks
    (sources.map PlbSource.finalAsks) asksStart = ra at ha ⊢
  obtain ⟨hblen, hbtake, hbcount, hbchanged, hbsame⟩ := hb
  obtain ⟨halen, hatake, hacount, hachanged, hasame⟩ := ha
  have hble : rb.1.count ≤ maxPriceLevels := by
    rw [hbcount, ← hbtake, List.length_take, hblen]
    exact Nat.min_le_right _ _
  have hale : ra.1.count ≤ maxPriceLevels := by
    rw [hacount, ← hatake, List.length_take, halen]
    exact Nat.min_le_right _ _
  cases hchanged : rb.2 || ra.2 with
  | true =>
      simp only [if_true]
      refine ⟨⟨hblen, halen, rfl, rfl, hble, hale⟩, trivial, ?_, Or.inl trivial⟩
      simp only [PlbBook.data, hbtake, hatake]
      rfl
  | false =>
      obtain ⟨hb2, ha2⟩ := Bool.or_eq_false_iff.mp hchanged
      -- no filled slot differs, so no side changes its number of levels
      have hlens : (mergedBids sources).length = book.bidsCount ∧
          (mergedAsks sources).length = book.asksCount := by
        rcases h.shows with hd | hd | hl
        · exact absurd (hbchanged.mpr hd) (by simp [hb2])
        · exact absurd (hachanged.mpr hd) (by simp [ha2])
        · exact hl
      have hbc : rb.1.count = book.bidsCount := hbcount.trans hlens.1
      have hac : ra.1.count = book.asksCount := hacount.trans hlens.2
      simp only [Bool.false_eq_true, if_false]
      refine ⟨⟨hblen, halen, hbc, hac, hble, hale⟩, trivial, ?_, Or.inr ⟨trivial, ?_⟩⟩
      · simp only [PlbBook.data, ← hbc, ← hac, hbtake, hatake]
        rfl
      · simp only [PlbBook.data, hbsame hb2, hasame ha2]

/-! ### Runs -/

/-- The event is accepted by a source of the book, and the status of the source is full after
it. -/
def EndsTransaction (sys : BookSystem P S) (input : ℕ × OrderEvent P S) : Prop :=
  ∃ source, sys.sources[input.1]? = some source ∧ source.accepts input.2 = true ∧
    (plbEventListener source input.2).1.snapshotStatus = .full

/-- If the event ends a transaction of a source, then `UpdateShows` for that source. -/
def ShowsChange (sys : BookSystem P S) (input : ℕ × OrderEvent P S) : Prop :=
  ∀ source, sys.sources[input.1]? = some source → source.accepts input.2 = true →
    (plbEventListener source input.2).1.snapshotStatus = .full →
      UpdateShows sys.book (plbEventListener source input.2).1 (sys.sourcesAfter input)

instance (sys : BookSystem P S) (input : ℕ × OrderEvent P S) : Decidable (ShowsChange sys input) :=
  match h : sys.sources[input.1]? with
  | none => isTrue (by simp [ShowsChange, h])
  | some source =>
      decidable_of_iff (source.accepts input.2 = true →
          (plbEventListener source input.2).1.snapshotStatus = .full →
            UpdateShows sys.book (plbEventListener source input.2).1 (sys.sourcesAfter input))
        ⟨fun hshows _ hsource => Option.some.inj (h.symm.trans hsource) ▸ hshows,
          fun hshows => hshows source h⟩

/-- The invariant of a run that satisfies the condition. -/
structure CurrentInvariant (sys : BookSystem P S)
    (calls : List (PlbListenerContext × BookData P S)) : Prop where
  sorted : ∀ s ∈ sys.sources, SourceSorted s
  consistent : BookConsistent sys.book
  passed : sys.book.listeners ≠ [] → lastPassed sys.book.symbol calls = sys.book.data

variable {sys : BookSystem P S} {input : ℕ × OrderEvent P S}
  {calls : List (PlbListenerContext × BookData P S)}

theorem step_of_none (h : sys.sources[input.1]? = none) : sys.step input = (sys, []) := by
  simp only [BookSystem.step, h]

variable {source : PlbSource P S}

theorem step_of_quiet (h : sys.sources[input.1]? = some source)
    (hquiet : (plbEventListener source input.2).2 = false) :
    sys.step input = ({ sys with sources := sys.sourcesAfter input }, []) := by
  simp only [BookSystem.step, BookSystem.sourcesAfter, h, hquiet, Bool.false_eq_true, if_false]

theorem step_of_publishes (h : sys.sources[input.1]? = some source)
    (hpub : (plbEventListener source input.2).2 = true) :
    sys.step input =
      (⟨sys.sourcesAfter input,
        (plbBookUpdate sys.book (plbEventListener source input.2).1 (sys.sourcesAfter input)).1⟩,
      (plbBookUpdate sys.book (plbEventListener source input.2).1 (sys.sourcesAfter input)).2) := by
  simp only [BookSystem.step, BookSystem.sourcesAfter, h, hpub, if_true]

theorem step_sources (sys : BookSystem P S) (input : ℕ × OrderEvent P S) :
    (sys.step input).1.sources = sys.sourcesAfter input := by
  cases hget : sys.sources[input.1]? with
  | none =>
      rw [step_of_none hget, BookSystem.sourcesAfter, hget]
  | some source =>
      cases hpub : (plbEventListener source input.2).2 with
      | false => rw [step_of_quiet hget hpub]
      | true => rw [step_of_publishes hget hpub]

/-- What an event does that satisfies the condition: it keeps the invariant, and if it ends a
transaction, the book is current and the listeners have seen it. -/
theorem step_current (hinv : CurrentInvariant sys calls) (hcond : ShowsChange sys input) :
    CurrentInvariant (sys.step input).1 (calls ++ (sys.step input).2) ∧
      (EndsTransaction sys input →
        (sys.step input).1.book.data.bids = mergedBids (sys.step input).1.sources ∧
        (sys.step input).1.book.data.asks = mergedAsks (sys.step input).1.sources ∧
        ((sys.step input).1.book.data ≠ lastPassed sys.book.symbol calls →
          (sys.step input).2 =
            (sys.step input).1.book.listeners.map fun l => (l, (sys.step input).1.book.data))) := by
  have hsorted : ∀ s ∈ sys.sourcesAfter input, SourceSorted s := sourcesAfter_sorted hinv.sorted
  cases hget : sys.sources[input.1]? with
  | none =>
      rw [step_of_none hget, List.append_nil]
      refine ⟨hinv, ?_⟩
      rintro ⟨source, hsource, -⟩
      rw [hget] at hsource
      cases hsource
  | some source =>
      cases hpub : (plbEventListener source input.2).2 with
      | false =>
          rw [step_of_quiet hget hpub, List.append_nil]
          refine ⟨⟨hsorted, hinv.consistent, hinv.passed⟩, ?_⟩
          rintro ⟨source', hsource', haccepts, hfull⟩
          obtain rfl : source = source' := Option.some.inj (hget.symm.trans hsource')
          -- neither side was ever updated, so both are current by the condition
          have hshows := hcond source hget haccepts hfull
          obtain ⟨hbids, hasks⟩ := not_updated_of_full haccepts hfull hpub
          refine ⟨hshows.bids.2 hbids, hshows.asks.2 hasks, fun hne => ?_⟩
          by_cases hl : sys.book.listeners = []
          · simp [hl]
          · exact absurd (hinv.passed hl).symm hne
      | true =>
          obtain ⟨haccepts, hfull⟩ := full_of_publishes hpub
          obtain ⟨hconsistent, hlisteners, hdata, hcalls⟩ :=
            plbBookUpdate_spec hinv.consistent hsorted (hcond source hget haccepts hfull)
          rw [step_of_publishes hget hpub]
          dsimp only
          generalize plbBookUpdate sys.book (plbEventListener source input.2).1
            (sys.sourcesAfter input) = u at hconsistent hlisteners hdata hcalls ⊢
          have hsymbol : u.1.symbol = sys.book.symbol := congrArg BookData.symbol hdata
          refine ⟨⟨hsorted, hconsistent, fun hne => ?_⟩,
            fun _ => ⟨congrArg BookData.bids hdata, congrArg BookData.asks hdata, fun hne => ?_⟩⟩
          · rcases hcalls with hcalls | ⟨hcalls, hsame⟩
            · rw [hcalls]
              exact lastPassed_append _ hne _
            · rw [hcalls, List.append_nil, hsame, hsymbol]
              exact hinv.passed (hlisteners ▸ hne)
          · rcases hcalls with hcalls | ⟨hcalls, hsame⟩
            · exact hcalls
            · by_cases hl : sys.book.listeners = []
              · rw [hcalls, hlisteners, hl]
                rfl
              · rw [hsame] at hne
                exact absurd (hinv.passed hl).symm hne

/-- **The published book is current** in every run whose events satisfy the condition: after an
event that ends a transaction, the book is the merge of the final levels of its sources, and if
it differs from the book last passed to the listeners, every listener is called with it. -/
theorem book_current (symbol : String) (listeners : List PlbListenerContext)
    (sources : List (PlbSource P S)) (hreachable : ∀ s ∈ sources, s.Reachable)
    (inputs : List (ℕ × OrderEvent P S)) (input : ℕ × OrderEvent P S)
    (hcond : AllSteps ShowsChange BookSystem.step ⟨sources, createPriceLevelBook symbol listeners⟩
      (inputs ++ [input])) :
    let before := run BookSystem.step ⟨sources, createPriceLevelBook symbol listeners⟩ inputs
    let after := before.1.step input
    EndsTransaction before.1 input →
      after.1.book.data.bids = mergedBids after.1.sources ∧
      after.1.book.data.asks = mergedAsks after.1.sources ∧
      (after.1.book.data ≠ lastPassed before.1.book.symbol before.2 →
        after.2 = after.1.book.listeners.map fun l => (l, after.1.book.data)) := by
  rw [allSteps_concat] at hcond
  have hinit : CurrentInvariant (⟨sources, createPriceLevelBook symbol listeners⟩ : BookSystem P S)
      [] :=
    ⟨fun s hs => (hreachable s hs).sorted, createPriceLevelBook_consistent _ _, fun _ => rfl⟩
  have hrun := run_invariant hinit hcond.1 fun sys input calls hinv hok => (step_current hinv hok).1
  exact (step_current hrun hcond.2).2

end Book

/-! ### Sample runs -/

/-- A new book over the source `NTV` of `IBM`, with one listener. -/
def sampleSystem : BookSystem ℤ ℤ where
  sources := [plbSourceCreate "IBM" "NTV"]
  book := createPriceLevelBook "IBM" [⟨1, 0⟩]

/-- A new book over the sources `NTV` and `BATS` of `IBM`, with two listeners. -/
def pairSystem : BookSystem ℤ ℤ where
  sources := [plbSourceCreate "IBM" "NTV", plbSourceCreate "IBM" "BATS"]
  book := createPriceLevelBook "IBM" [⟨1, 0⟩, ⟨2, 0⟩]

/-- Orders of both sources on both sides. -/
def pairInputs : List (ℕ × OrderEvent ℤ ℤ) :=
  [(0, sampleEvent "NTV" .buy 1 100 5 0), (1, sampleEvent "BATS" .sell 1 102 3 0),
    (0, sampleEvent "NTV" .buy 2 99 4 0)]

/-- One more order at the best price, of the other source. -/
theorem book_current_pair :
    ((run BookSystem.step pairSystem pairInputs).1.step
        (1, sampleEvent "BATS" .buy 2 100 2 0)).2 =
      [(⟨1, 0⟩, ⟨"IBM", [⟨100, 7, 2⟩, ⟨99, 4, 2⟩], [⟨102, 3, 1⟩]⟩),
        (⟨2, 0⟩, ⟨"IBM", [⟨100, 7, 2⟩, ⟨99, 4, 2⟩], [⟨102, 3, 1⟩]⟩)] := by
  have hreachable : ∀ s ∈ pairSystem.sources, s.Reachable := by
    intro s hs
    rcases List.mem_pair.mp hs with rfl | rfl
    · exact ⟨"IBM", "NTV", [], rfl⟩
    · exact ⟨"IBM", "BATS", [], rfl⟩
  have h := book_current "IBM" [⟨1, 0⟩, ⟨2, 0⟩] pairSystem.sources hreachable pairInputs
    (1, sampleEvent "BATS" .buy 2 100 2 0) (by decide +kernel)
    ⟨_, rfl, by decide +kernel, by decide +kernel⟩
  exact (h.2.2 (by decide +kernel)).trans (by decide +kernel)

/-- Removing the only order of a side is not noticed: the book keeps showing the level, and the
listener is not called. -/
theorem book_not_current :
    let before := run BookSystem.step sampleSystem [(0, sampleEvent "NTV" .buy 1 100 5 0)]
    let after := before.1.step (0, sampleEvent "NTV" .buy 1 0 0 0)
    EndsTransaction before.1 (0, sampleEvent "NTV" .buy 1 0 0 0) ∧
      mergedBids after.1.sources = [] ∧ after.1.book.data.bids = [⟨100, 5, 1⟩] ∧ after.2 = [] :=
  ⟨⟨_, rfl, by decide, by decide⟩, by decide⟩

end DxFeed.PriceLevelBook
