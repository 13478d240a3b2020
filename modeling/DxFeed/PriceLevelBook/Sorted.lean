import DxFeed.PriceLevelBook.Source

/-!
# The levels of a source are sorted

Whatever orders and flags a source receives, its working and final levels are strictly sorted
by price and at most ten, and a side that was never updated is empty in both copies.

* `SideSorted`: these facts for one side, kept by adding, removing and rebuilding;
* `SourceSorted`: for both sides, kept by every event (`runListener_sorted`).
-/

namespace DxFeed.PriceLevelBook

open SortedList

variable {P S κ : Type*}

/-- The comparators of the two sides order the levels by price, from the best. -/
theorem comparatorBid_orders [LinearOrder P] :
    Orders (plbPricelvelComparatorBid (P := P) (S := S)) fun e => OrderDual.toDual e.price := by
  constructor
  · intro a b
    rw [plbPricelvelComparatorBid, OrderDual.toDual_inj, eq_comm (a := a.price)]
    exact (numericComparator_orders PriceLevelElement.price).zero_iff b a
  · intro a b
    exact (numericComparator_orders PriceLevelElement.price).neg_iff b a

theorem comparatorAsk_orders [LinearOrder P] :
    Orders (plbPricelvelComparatorAsk (P := P) (S := S)) fun e => id e.price :=
  numericComparator_orders PriceLevelElement.price

/-! ### One side -/

section Side

variable [LinearOrder κ] {rank : P → κ} {cmp : LevelComparator P S} {ob ob' final : PriceLevelSide P S}
  {order : Order P S}

/-- The levels of a side and of its final copy are sorted, and empty before the first update. -/
structure SideSorted (rank : P → κ) (ob final : PriceLevelSide P S) : Prop where
  sorted : KeySorted (fun e : PriceLevelElement P S => rank e.price) ob.levels
  length_le : ob.levels.length ≤ maxPriceLevels
  final_sorted : KeySorted (fun e : PriceLevelElement P S => rank e.price) final.levels
  fresh : ob.updated = false → ob.levels = []
  final_fresh : ob.updated = false → final.levels = []

theorem sideSorted_empty : SideSorted rank (PriceLevelSide.empty : PriceLevelSide P S) .empty where
  sorted := keySorted_nil
  length_le := Nat.zero_le _
  final_sorted := keySorted_nil
  fresh _ := rfl
  final_fresh _ := rfl

theorem sideSorted_clear (ob : PriceLevelSide P S) : SideSorted rank ob.clear ob.clear where
  sorted := keySorted_nil
  length_le := Nat.zero_le _
  final_sorted := keySorted_nil
  fresh _ := rfl
  final_fresh _ := rfl

/-- A change of a side that keeps it sorted and marks it. -/
theorem SideSorted.step (h : SideSorted rank ob final)
    (hsorted : KeySorted (fun e : PriceLevelElement P S => rank e.price) ob'.levels)
    (hlen : ob'.levels.length ≤ maxPriceLevels) (hsame : ob'.updated = false → ob' = ob) :
    SideSorted rank ob' final where
  sorted := hsorted
  length_le := hlen
  final_sorted := h.final_sorted
  fresh hu := by
    obtain rfl := hsame hu
    exact h.fresh hu
  final_fresh hu := by
    obtain rfl := hsame hu
    exact h.final_fresh hu

variable [AddCommGroup S]

/-- A side that stays unmarked was not changed. -/
theorem addOrder_eq_of_not_updated
    (h : (plbSourceAddOrderToLevels cmp ob order).updated = false) :
    plbSourceAddOrderToLevels cmp ob order = ob := by
  unfold plbSourceAddOrderToLevels at h ⊢
  dsimp only at h ⊢
  split_ifs at h ⊢
  · split at h
    · rfl
    · exact absurd h (by simp)
  · rfl

theorem SideSorted.add (hcmp : Orders cmp fun e => rank e.price) (h : SideSorted rank ob final) :
    SideSorted rank (plbSourceAddOrderToLevels cmp ob order) final := by
  have hsl : KeySorted (fun e : PriceLevelElement P S => rank e.price)
        (plbSourceAddOrderToLevels cmp ob order).levels ∧
      (plbSourceAddOrderToLevels cmp ob order).levels.length ≤ maxPriceLevels := by
    obtain ⟨hsorted, hlen, -, -, -⟩ := h
    obtain ⟨levels, rebuild, updated⟩ := ob
    have hloc := levelSearch_located order hcmp hsorted
    dsimp only at hloc hsorted hlen
    generalize hsearch : binarySearch levels 0 levels.length order.levelKey cmp = search at hloc
    obtain ⟨found, pos⟩ := search
    cases hloc with
    | found l₁ x l₂ hx =>
        unfold plbSourceAddOrderToLevels
        simp only [hsearch, if_true, getElem?_append_cons, set_append_cons]
        exact ⟨hsorted.replace rfl, by simpa using hlen⟩
    | missing l₁ l₂ h₁ h₂ =>
        rw [addOrder_levels_of_missing hlen hsearch]
        have hinsert : KeySorted (fun e : PriceLevelElement P S => rank e.price)
            (l₁ ++ order.level :: l₂) := hsorted.insert h₁ h₂
        exact ⟨hinsert.sublist (List.take_sublist _ _), List.length_take_le _ _⟩
  exact h.step hsl.1 hsl.2 addOrder_eq_of_not_updated

variable [LinearOrder S]

theorem removeOrder_eq_of_not_updated
    (h : (plbSourceRemoveOrderFromLevels cmp ob order).updated = false) :
    plbSourceRemoveOrderFromLevels cmp ob order = ob := by
  unfold plbSourceRemoveOrderFromLevels at h ⊢
  dsimp only at h ⊢
  split_ifs at h ⊢
  · split at h
    · rfl
    · exact absurd h (by simp)
  · rfl

theorem SideSorted.remove (hcmp : Orders cmp fun e => rank e.price)
    (h : SideSorted rank ob final) :
    SideSorted rank (plbSourceRemoveOrderFromLevels cmp ob order) final := by
  have hsl : KeySorted (fun e : PriceLevelElement P S => rank e.price)
        (plbSourceRemoveOrderFromLevels cmp ob order).levels ∧
      (plbSourceRemoveOrderFromLevels cmp ob order).levels.length ≤ maxPriceLevels := by
    obtain ⟨hsorted, hlen, -, -, -⟩ := h
    obtain ⟨levels, rebuild, updated⟩ := ob
    have hloc := levelSearch_located order hcmp hsorted
    unfold plbSourceRemoveOrderFromLevels
    dsimp only at hloc hsorted hlen ⊢
    generalize binarySearch levels 0 levels.length order.levelKey cmp = search at hloc ⊢
    obtain ⟨found, pos⟩ := search
    cases hloc with
    | found l₁ x l₂ hx =>
        simp only [if_true, getElem?_append_cons, set_append_cons]
        exact ⟨hsorted.replace rfl, by simpa using hlen⟩
    | missing l₁ l₂ h₁ h₂ =>
        simp only [Bool.false_eq_true, if_false]
        exact ⟨hsorted, hlen⟩
  exact h.step hsl.1 hsl.2 removeOrder_eq_of_not_updated

/-- A rebuild starts from the empty array and adds orders, so it is sorted too. -/
theorem SideSorted.rebuild (hcmp : Orders cmp fun e => rank e.price)
    (h : SideSorted rank ob final) (snapshot : List (Order P S)) (side : OrderSide) :
    SideSorted rank (plbSourceRebuildLevels cmp snapshot ob side) final := by
  have hnil : SideSorted rank ob.clear final :=
    ⟨keySorted_nil, Nat.zero_le _, h.final_sorted, fun _ => rfl, h.final_fresh⟩
  have hloop : SideSorted rank (snapshot.foldl (rebuildStep cmp side) ob.clear) final := by
    refine List.foldlRecOn (motive := fun ob' => SideSorted rank ob' final) snapshot
      (rebuildStep cmp side) hnil fun ob' h' o _ => ?_
    unfold rebuildStep
    split_ifs
    · exact h'
    · exact h'.add hcmp
  exact
    { sorted := hloop.sorted
      length_le := hloop.length_le
      final_sorted := h.final_sorted
      fresh := nofun
      final_fresh := nofun }

/-- Publishing one side keeps it sorted. -/
theorem SideSorted.publish (hcmp : Orders cmp fun e => rank e.price) (h : SideSorted rank ob final)
    {snapshot : List (Order P S)} {side : OrderSide}
    (hob : ob' = if ob.rebuild then plbSourceRebuildLevels cmp snapshot ob side else ob) :
    SideSorted rank ob' (if ob'.updated then ob' else final) := by
  have h' : SideSorted rank ob' final := by
    rw [hob]
    split_ifs
    · exact h.rebuild hcmp snapshot side
    · exact h
  cases hu : ob'.updated with
  | true => exact ⟨h'.sorted, h'.length_le, h'.sorted, h'.fresh, fun hf => by simp [hu] at hf⟩
  | false => exact h'

end Side

/-! ### The source -/

section Source

variable [LinearOrder P] {source : PlbSource P S} {order : Order P S}

/-- Both sides of a source are sorted. -/
structure SourceSorted (source : PlbSource P S) : Prop where
  bids : SideSorted OrderDual.toDual source.bids source.finalBids
  asks : SideSorted id source.asks source.finalAsks

theorem plbSourceCreate_sorted (symbol src : String) :
    SourceSorted (plbSourceCreate symbol src : PlbSource P S) :=
  ⟨sideSorted_empty, sideSorted_empty⟩

theorem SourceSorted.withSnapshot (h : SourceSorted source) (snapshot : List (Order P S)) :
    SourceSorted { source with snapshot := snapshot } :=
  ⟨h.bids, h.asks⟩

theorem SourceSorted.beginSnapshot (h : SourceSorted source) (flags : ℕ) :
    SourceSorted (source.beginSnapshot flags) := by
  unfold PlbSource.beginSnapshot
  split_ifs
  · exact ⟨sideSorted_clear _, sideSorted_clear _⟩
  · exact h

variable [AddCommGroup S]

theorem SourceSorted.addToLevels (h : SourceSorted source) :
    SourceSorted (source.addToLevels order) := by
  unfold PlbSource.addToLevels PlbSource.onSide sideComparator
  split_ifs
  · exact ⟨h.bids.add comparatorBid_orders, h.asks⟩
  · exact ⟨h.bids, h.asks.add comparatorAsk_orders⟩

variable [LinearOrder S]

theorem SourceSorted.removeFromLevels (h : SourceSorted source) :
    SourceSorted (source.removeFromLevels order) := by
  unfold PlbSource.removeFromLevels PlbSource.onSide sideComparator
  split_ifs
  · exact ⟨h.bids.remove comparatorBid_orders, h.asks⟩
  · exact ⟨h.bids, h.asks.remove comparatorAsk_orders⟩

theorem SourceSorted.processOrder [Zero P] (h : SourceSorted source) (rm : Bool) :
    SourceSorted (plbSourceProcessOrder source order rm) := by
  refine plbSourceProcessOrder_keeps (Q := SourceSorted) h ?_ ?_ ?_ rm
  · intro s hs
    exact hs.addToLevels
  · intro s oo hs
    exact hs.removeFromLevels
  · intro s snapshot hs
    exact hs.withSnapshot snapshot

theorem SourceSorted.processEvent [Zero P] (h : SourceSorted source) (event : OrderEvent P S) :
    SourceSorted (source.processEvent event) :=
  ⟨(h.processOrder _).bids, (h.processOrder _).asks⟩

theorem SourceSorted.publish (h : SourceSorted source) : SourceSorted source.publish :=
  ⟨h.bids.publish comparatorBid_orders rfl, h.asks.publish comparatorAsk_orders rfl⟩

/-- `plb_event_listener` keeps the levels sorted. -/
theorem plbEventListener_sorted [Zero P] (h : SourceSorted source) (event : OrderEvent P S) :
    SourceSorted (plbEventListener source event).1 := by
  have hbegin := h.beginSnapshot event.flags
  have hstep := plbEventListener_step source event
  generalize plbEventListener source event = result at hstep ⊢
  cases hstep with
  | rejected _ => exact h
  | skipped _ _ => exact hbegin
  | stored _ _ _ => exact hbegin.processEvent event
  | published _ _ _ => exact (hbegin.processEvent event).publish

/-- Every run keeps the levels sorted. -/
theorem runListener_sorted [Zero P] (h : SourceSorted source) (events : List (OrderEvent P S)) :
    SourceSorted (runListener source events) :=
  List.foldlRecOn events (fun source event => (plbEventListener source event).1) h
    fun _ h' event _ => plbEventListener_sorted h' event

end Source

end DxFeed.PriceLevelBook
