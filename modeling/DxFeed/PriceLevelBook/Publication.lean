import DxFeed.PriceLevelBook.Sorted

/-!
# What a price level source publishes

The incremental levels of a source agree with a rebuild from its order snapshot whenever
they are published.

* `Accounts`: a side either ranks the volumes of the live orders or is marked for a rebuild;
* `SourceInvariant`: the snapshot is sorted by index and holds live orders only, and both
  sides account for them; every event keeps it (`plbEventListener_invariant`);
* `bestLevels`: the ten best distinct prices of the live orders of a side, with the sums of
  their sizes.
-/

namespace DxFeed.PriceLevelBook

open SortedList

variable {P S κ : Type*}

/-! ### The order snapshot -/

section Snapshot

theorem plbOrderComparator_orders :
    Orders (plbOrderComparator (P := P) (S := S)) Order.index :=
  numericComparator_orders Order.index

/-- Both ways of `findOrder` are searches by index. -/
theorem findOrder_located {snapshot : List (Order P S)}
    (hs : KeySorted Order.index snapshot) (order : Order P S) :
    Located Order.index order.index snapshot (findOrder snapshot order).1
      (findOrder snapshot order).2 := by
  unfold findOrder
  generalize (order.index % 2 ^ 32).toNat = orderIdx
  cases hget : snapshot[orderIdx]? with
  | none =>
      simp only [hget]
      exact binarySearch_located_full order plbOrderComparator_orders hs
  | some o =>
      simp only [hget]
      obtain ⟨hlt, rfl⟩ := List.getElem?_eq_some_iff.mp hget
      have hmono := List.pairwise_iff_getElem.mp hs
      split_ifs with heq hless
      · exact Located.of_getElem hlt heq
      · refine binarySearch_located plbOrderComparator_orders hs hlt.le le_rfl
          (fun j hj hjo => ?_) (fun j hj hjo => by omega)
        exact (hmono j orderIdx hj hlt hjo).trans hless
      · have hgt : order.index < snapshot[orderIdx].index :=
          lt_of_le_of_ne (not_lt.mp hless) (Ne.symm heq)
        refine binarySearch_located plbOrderComparator_orders hs (Nat.zero_le _) hlt.le
          (fun j hj hjo => by omega) (fun j hj hjo => ?_)
        rcases Nat.lt_or_eq_of_le hjo with hjo | rfl
        · exact hgt.trans (hmono orderIdx j hlt hj hjo)
        · exact hgt

end Snapshot

/-! ### One side -/

section Side

variable [AddCommGroup S] {rank : P → κ} {cmp : LevelComparator P S} {side : OrderSide}
  {vol : κ → S} {ob final : PriceLevelSide P S} {order : Order P S}

theorem addOrder_rebuild : (plbSourceAddOrderToLevels cmp ob order).rebuild = ob.rebuild := by
  unfold plbSourceAddOrderToLevels
  dsimp only
  split_ifs <;> [split <;> rfl; rfl; rfl; rfl]

variable [LinearOrder S]

theorem removeOrder_rebuild (h : ob.rebuild = true) :
    (plbSourceRemoveOrderFromLevels cmp ob order).rebuild = true := by
  unfold plbSourceRemoveOrderFromLevels
  dsimp only
  split_ifs
  · split <;> simp [h]
  · exact h

variable [LinearOrder κ]

/-- A side ranks the volume, or waits for a rebuild. -/
def Accounts (rank : P → κ) (vol : κ → S) (ob : PriceLevelSide P S) : Prop :=
  ob.rebuild = true ∨ Ranked rank vol ob

theorem accounts_clear (ob : PriceLevelSide P S) : Accounts rank (0 : κ → S) ob.clear :=
  Or.inr ranked_clear

variable [IsOrderedAddMonoid S]

theorem Accounts.add (hcmp : Orders cmp fun e => rank e.price) (h : Accounts rank vol ob)
    (hvol : 0 ≤ vol) (hsize : 0 < order.size) (hside : order.side = side) :
    Accounts rank (vol + offer rank side order) (plbSourceAddOrderToLevels cmp ob order) := by
  rcases h with hr | hr
  · exact Or.inl (addOrder_rebuild.trans hr)
  · right
    rw [offer_of_side hside]
    exact addOrder_ranked hcmp hr hvol hsize

theorem Accounts.remove (hcmp : Orders cmp fun e => rank e.price)
    (h : Accounts rank (vol + offer rank side order) ob) (hvol : 0 ≤ vol)
    (hsize : 0 < order.size) (hside : order.side = side) :
    Accounts rank vol (plbSourceRemoveOrderFromLevels cmp ob order) := by
  rcases h with hr | hr
  · exact Or.inl (removeOrder_rebuild hr)
  · rw [offer_of_side hside] at hr
    have hle : order.size ≤
        (vol + Pi.single (rank order.price) order.size : κ → S) (rank order.price) := by
      simpa using hvol (rank order.price)
    have hrem := removeOrder_ranked hcmp hr hsize hle
    rwa [add_sub_cancel_right] at hrem

/-- Publishing one side: after the rebuild of a marked side and the copy of an updated one, the
side and its final copy rank the volumes. -/
theorem Accounts.publish {orders : List (Order P S)} {ob' : PriceLevelSide P S}
    (hcmp : Orders cmp fun e => rank e.price)
    (h : Accounts rank (volume rank side orders) ob) (hsorted : SideSorted rank ob final)
    (hsizes : ∀ o ∈ orders, 0 ≤ o.size)
    (hob : ob' = if ob.rebuild then plbSourceRebuildLevels cmp orders ob side else ob) :
    Ranked rank (volume rank side orders) ob' ∧
      Ranked rank (volume rank side orders) (if ob'.updated then ob' else final) := by
  have hranked : Ranked rank (volume rank side orders) ob' := by
    rw [hob]
    cases hr : ob.rebuild with
    | true => exact rebuildLevels_ranked hcmp side hsizes ob
    | false => exact h.resolve_left (by simp [hr])
  refine ⟨hranked, ?_⟩
  have hsorted' := hsorted.publish hcmp hob
  cases hu : ob'.updated with
  | true => exact hranked
  | false =>
      -- neither copy was ever filled
      have hfinal := hsorted'.final_fresh hu
      rw [hu] at hfinal
      unfold Ranked at hranked ⊢
      rwa [hfinal, ← hsorted'.fresh hu]

end Side

/-! ### The source -/

section Source

variable [AddCommGroup S] {source : PlbSource P S} {order : Order P S}
  {orders l₁ l₂ : List (Order P S)}

@[simp] theorem addToLevels_snapshot [LinearOrder P] :
    (source.addToLevels order).snapshot = source.snapshot := by
  unfold PlbSource.addToLevels PlbSource.onSide
  split_ifs <;> rfl

variable [LinearOrder S]

/-- A live order: of positive size, on one of the two sides. -/
def Order.Live (order : Order P S) : Prop :=
  0 < order.size ∧ (order.side = .buy ∨ order.side = .sell)

/-- An order event with a size that is not negative, on one of the two sides. -/
def OrderEvent.Regular (event : OrderEvent P S) : Prop :=
  0 ≤ event.order.size ∧ (event.order.side = .buy ∨ event.order.side = .sell)

theorem OrderEvent.Regular.live {event : OrderEvent P S} (h : event.Regular)
    (hrm : event.isRemoval = false) : event.order.Live := by
  simp only [OrderEvent.isRemoval, Bool.or_eq_false_iff, decide_eq_false_iff_not] at hrm
  exact ⟨lt_of_le_of_ne h.1 (Ne.symm hrm.2), h.2⟩

theorem volume_nonneg_of_live [IsOrderedAddMonoid S] {κ : Type*} [DecidableEq κ] {rank : P → κ}
    {side : OrderSide} (h : ∀ o ∈ orders, o.Live) : 0 ≤ volume rank side orders :=
  volume_nonneg fun o ho => (h o ho).1.le

variable [LinearOrder P]

/-- Both sides of the source account for the given orders. -/
structure SidesInvariant (orders : List (Order P S)) (source : PlbSource P S) : Prop where
  bids : Accounts OrderDual.toDual (volume OrderDual.toDual .buy orders) source.bids
  asks : Accounts id (volume id .sell orders) source.asks

theorem SidesInvariant.withSnapshot (h : SidesInvariant orders source)
    (snapshot : List (Order P S)) : SidesInvariant orders { source with snapshot := snapshot } :=
  ⟨h.bids, h.asks⟩

/-- The snapshot is sorted by index and holds live orders, and the sides account for them. -/
structure SourceInvariant (source : PlbSource P S) : Prop where
  sorted : KeySorted Order.index source.snapshot
  live : ∀ o ∈ source.snapshot, o.Live
  sides : SidesInvariant source.snapshot source

theorem plbSourceCreate_invariant (symbol src : String) :
    SourceInvariant (plbSourceCreate symbol src : PlbSource P S) where
  sorted := keySorted_nil
  live := by simp [plbSourceCreate]
  sides := ⟨accounts_clear .empty, accounts_clear .empty⟩

theorem SourceInvariant.reset (status : PlbStatus) :
    SourceInvariant { plbSourceResetSnapshot source with snapshotStatus := status } where
  sorted := keySorted_nil
  live := by simp [plbSourceResetSnapshot]
  sides := ⟨accounts_clear _, accounts_clear _⟩

theorem SourceInvariant.withStatus (h : SourceInvariant source) (status : PlbStatus) :
    SourceInvariant { source with snapshotStatus := status } :=
  ⟨h.sorted, h.live, ⟨h.sides.bids, h.sides.asks⟩⟩

theorem SourceInvariant.beginSnapshot (h : SourceInvariant source) (flags : ℕ) :
    SourceInvariant (source.beginSnapshot flags) := by
  unfold PlbSource.beginSnapshot
  split_ifs
  · exact .reset _
  · exact h

/-- The published copies rank the volumes of the live orders. -/
structure Published (source : PlbSource P S) : Prop where
  bids : Ranked OrderDual.toDual (volume OrderDual.toDual .buy source.snapshot) source.finalBids
  asks : Ranked id (volume id .sell source.snapshot) source.finalAsks

variable [IsOrderedAddMonoid S]

theorem SidesInvariant.add (h : SidesInvariant (l₁ ++ l₂) source)
    (hlive : ∀ o ∈ l₁ ++ l₂, o.Live) (ho : order.Live) :
    SidesInvariant (l₁ ++ order :: l₂) (source.addToLevels order) := by
  obtain ⟨hsize, hside⟩ := ho
  unfold PlbSource.addToLevels PlbSource.onSide sideComparator
  constructor
  · rw [volume_middle]
    rcases hside with hside | hside
    · simp only [hside, if_true]
      exact h.bids.add comparatorBid_orders (volume_nonneg_of_live hlive) hsize hside
    · simp only [hside, reduceCtorEq, if_false]
      rw [offer_of_ne (by simp [hside]), add_zero]
      exact h.bids
  · rw [volume_middle]
    rcases hside with hside | hside
    · simp only [hside, if_true]
      rw [offer_of_ne (by simp [hside]), add_zero]
      exact h.asks
    · simp only [hside, reduceCtorEq, if_false]
      exact h.asks.add comparatorAsk_orders (volume_nonneg_of_live hlive) hsize hside

theorem SidesInvariant.remove (h : SidesInvariant (l₁ ++ order :: l₂) source)
    (hlive : ∀ o ∈ l₁ ++ l₂, o.Live) (ho : order.Live) :
    SidesInvariant (l₁ ++ l₂) (source.removeFromLevels order) := by
  obtain ⟨hsize, hside⟩ := ho
  obtain ⟨hbids, hasks⟩ := h
  rw [volume_middle] at hbids hasks
  unfold PlbSource.removeFromLevels PlbSource.onSide sideComparator
  constructor
  · rcases hside with hside | hside
    · simp only [hside, if_true]
      exact hbids.remove comparatorBid_orders (volume_nonneg_of_live hlive) hsize hside
    · simp only [hside, reduceCtorEq, if_false]
      rwa [offer_of_ne (by simp [hside]), add_zero] at hbids
  · rcases hside with hside | hside
    · simp only [hside, if_true]
      rwa [offer_of_ne (by simp [hside]), add_zero] at hasks
    · simp only [hside, reduceCtorEq, if_false]
      exact hasks.remove comparatorAsk_orders (volume_nonneg_of_live hlive) hsize hside

/-- `dx_plb_source_process_order` keeps the invariant. -/
theorem SourceInvariant.processOrder [Zero P] (h : SourceInvariant source) {rm : Bool}
    (hlive : rm = false → order.Live) :
    SourceInvariant (plbSourceProcessOrder source order rm) := by
  have hloc := findOrder_located h.sorted order
  obtain ⟨hsorted, hall, hsides⟩ := h
  unfold plbSourceProcessOrder
  dsimp only
  generalize findOrder source.snapshot order = search at hloc ⊢
  obtain ⟨found, orderIdx⟩ := search
  generalize hsnap : source.snapshot = snapshot at *
  cases hloc with
  | found l₁ oo l₂ hoo =>
      have hrest : ∀ o ∈ l₁ ++ l₂, o.Live := forall_mem_erase hall
      have hooLive : oo.Live := hall oo (by simp)
      cases rm with
      | true =>
          simp only [if_true, getElem?_append_cons, true_or, arrayDelete_append]
          exact ⟨hsorted.erase, hrest, (hsides.remove hrest hooLive).withSnapshot _⟩
      | false =>
          have hsize : order.size ≠ 0 := (hlive rfl).1.ne'
          simp only [if_true, getElem?_append_cons, hsize, or_self, if_false, set_append_cons,
            Bool.false_eq_true]
          have hnew : ∀ o ∈ l₁ ++ order :: l₂, o.Live := forall_mem_insert hrest (hlive rfl)
          have hadd : SidesInvariant ((l₁ ++ [order]) ++ oo :: l₂) (source.addToLevels order) := by
            simpa using hsides.add hall (hlive rfl)
          have hrem := hadd.remove (by simpa using hnew) hooLive
          rw [List.append_assoc] at hrem
          exact ⟨hsorted.replace hoo.symm, hnew, hrem.withSnapshot _⟩
  | missing l₁ l₂ h₁ h₂ =>
      cases rm with
      | true =>
          simp only [Bool.false_eq_true, if_false, Bool.true_eq_false, false_and]
          exact ⟨hsnap ▸ hsorted, hsnap ▸ hall, hsnap ▸ hsides⟩
      | false =>
          have hsize : order.size ≠ 0 := (hlive rfl).1.ne'
          simp only [Bool.false_eq_true, if_false, true_and, ne_eq, hsize, not_false_eq_true,
            if_true, arrayInsert_append]
          have hadd := (hsides.withSnapshot (l₁ ++ order :: l₂)).add hall (hlive rfl)
          constructor
          · rw [addToLevels_snapshot]
            exact hsorted.insert h₁ h₂
          · rw [addToLevels_snapshot]
            exact forall_mem_insert hall (hlive rfl)
          · rw [addToLevels_snapshot]
            exact hadd

theorem SourceInvariant.publish (h : SourceInvariant source) (hsorted : SourceSorted source) :
    SourceInvariant source.publish ∧ Published source.publish := by
  have hsizes : ∀ o ∈ source.snapshot, 0 ≤ o.size := fun o ho => (h.live o ho).1.le
  have hbids := h.sides.bids.publish comparatorBid_orders hsorted.bids hsizes rfl
  have hasks := h.sides.asks.publish comparatorAsk_orders hsorted.asks hsizes rfl
  exact ⟨⟨h.sorted, h.live, ⟨Or.inr hbids.1, Or.inr hasks.1⟩⟩, ⟨hbids.2, hasks.2⟩⟩

theorem SourceInvariant.processEvent [Zero P] (h : SourceInvariant source)
    {event : OrderEvent P S} (hevent : event.Regular) :
    SourceInvariant (source.processEvent event) :=
  (h.processOrder hevent.live).withStatus _

/-- `plb_event_listener` keeps the invariant, and publishes ranked levels. -/
theorem plbEventListener_invariant [Zero P] (h : SourceInvariant source)
    (hsorted : SourceSorted source) {event : OrderEvent P S} (hevent : event.Regular) :
    SourceInvariant (plbEventListener source event).1 ∧
      ((plbEventListener source event).2 = true → Published (plbEventListener source event).1) := by
  have hbegin := h.beginSnapshot event.flags
  have hstep := plbEventListener_step source event
  generalize plbEventListener source event = result at hstep ⊢
  cases hstep with
  | rejected _ => exact ⟨h, by simp⟩
  | skipped _ _ => exact ⟨hbegin, by simp⟩
  | stored _ _ _ => exact ⟨hbegin.processEvent hevent, by simp⟩
  | published _ _ _ =>
      have hp := (hbegin.processEvent hevent).publish
        ((hsorted.beginSnapshot event.flags).processEvent event)
      exact ⟨hp.1, fun _ => hp.2⟩

/-- Every run keeps the invariant. -/
theorem runListener_invariant [Zero P] {events : List (OrderEvent P S)}
    (hevents : ∀ event ∈ events, event.Regular) (h : SourceInvariant source)
    (hsorted : SourceSorted source) : SourceInvariant (runListener source events) := by
  induction events generalizing source with
  | nil => exact h
  | cons event events ih =>
      exact ih (fun e he => hevents e (by simp [he]))
        (plbEventListener_invariant h hsorted (hevents event (by simp))).1
        (plbEventListener_sorted hsorted event)

end Source

/-! ### The ten best prices -/

section Best

/-- The (price, size) list of a side. -/
def PriceLevelSide.priceSizes (ob : PriceLevelSide P S) : List (P × S) :=
  ob.levels.map fun e => (e.price, e.size)

variable [AddCommGroup S] [LinearOrder κ] {rank : P → κ} {side : OrderSide}
  {snapshot : List (Order P S)}

theorem volume_eq_zero_of_not_range {k : κ} (hk : k ∉ Set.range rank) :
    volume rank side snapshot k = 0 := by
  induction snapshot with
  | nil => rfl
  | cons o snapshot ih =>
      rw [volume_cons, Pi.add_apply, ih, add_zero, offer]
      split_ifs
      · exact Pi.single_eq_of_ne (fun h => hk ⟨o.price, h.symm⟩) _
      · rfl

/-- The sum of the sizes of the orders at a price. -/
def sizeAt [LinearOrder P] (orders : List (Order P S)) (p : P) : S :=
  ((orders.filter fun o => o.price = p).map Order.size).sum

theorem sizeAt_cons [LinearOrder P] (o : Order P S) (orders : List (Order P S)) (p : P) :
    sizeAt (o :: orders) p = (if o.price = p then o.size else 0) + sizeAt orders p := by
  unfold sizeAt
  split_ifs with h <;> simp [h]

variable [LinearOrder S]

/-- The live orders of one side. -/
def liveOrders (side : OrderSide) (snapshot : List (Order P S)) : List (Order P S) :=
  snapshot.filter fun o => o.side = side ∧ o.size ≠ 0

theorem liveOrders_cons (o : Order P S) :
    liveOrders side (o :: snapshot) =
      if o.side = side ∧ o.size ≠ 0 then o :: liveOrders side snapshot
      else liveOrders side snapshot := by
  simp [liveOrders, List.filter_cons]

variable [LinearOrder P]

/-- The at most ten best distinct prices of a side, best first, each with the sum of the
sizes of its live orders. -/
def bestLevels (rank : P → κ) (side : OrderSide) (snapshot : List (Order P S)) :
    List (P × S) :=
  let live := liveOrders side snapshot
  ((sortedDistinct rank (live.map Order.price)).take maxPriceLevels).map fun p => (p, sizeAt live p)

/-- The volume at the rank of a price is the sum over the live orders at that price. -/
theorem volume_apply (hrank : Function.Injective rank) (p : P) :
    volume rank side snapshot (rank p) = sizeAt (liveOrders side snapshot) p := by
  induction snapshot with
  | nil => rfl
  | cons o snapshot ih =>
      rw [volume_cons, Pi.add_apply, ih, liveOrders_cons]
      by_cases hside : o.side = side
      · rw [offer_of_side hside, Pi.single_apply]
        by_cases hzero : o.size = 0
        · simp [hzero]
        · simp [hside, hzero, sizeAt_cons, hrank.eq_iff, eq_comm]
      · simp [offer_of_ne hside, hside]

variable [IsOrderedAddMonoid S]

theorem sizeAt_nonneg {orders : List (Order P S)} (h : ∀ o ∈ orders, 0 ≤ o.size) (p : P) :
    0 ≤ sizeAt orders p := by
  refine List.sum_nonneg fun s hs => ?_
  obtain ⟨o, ho, rfl⟩ := List.mem_map.mp hs
  exact h o (List.mem_of_mem_filter ho)

theorem sizeAt_pos {orders : List (Order P S)} (h : ∀ o ∈ orders, 0 < o.size) {p : P} :
    0 < sizeAt orders p ↔ ∃ o ∈ orders, o.price = p := by
  induction orders with
  | nil => simp [sizeAt]
  | cons o orders ih =>
      have hrest : ∀ o' ∈ orders, 0 < o'.size := fun o' ho' => h o' (by simp [ho'])
      have hnonneg := sizeAt_nonneg (fun o' ho' => (hrest o' ho').le) p
      rw [sizeAt_cons]
      by_cases hp : o.price = p
      · rw [if_pos hp]
        simpa [hp] using add_pos_of_pos_of_nonneg (h o (by simp)) hnonneg
      · rw [if_neg hp, zero_add, ih hrest]
        simp [hp]

/-- `bestLevels` is the ranked prefix of the volumes. -/
theorem bestLevels_isBest (hrank : Function.Injective rank) (hsizes : ∀ o ∈ snapshot, 0 ≤ o.size) :
    IsBest maxPriceLevels (positive (volume rank side snapshot))
      ((bestLevels rank side snapshot).map (Prod.map rank id)) := by
  have hlive : ∀ o ∈ liveOrders side snapshot, 0 < o.size := by
    intro o ho
    simp only [liveOrders, List.mem_filter, Bool.decide_and, Bool.and_eq_true,
      decide_eq_true_eq] at ho
    exact lt_of_le_of_ne (hsizes o ho.1) (Ne.symm ho.2.2)
  have heq : (bestLevels rank side snapshot).map (Prod.map rank id) =
      ((sortedDistinct rank ((liveOrders side snapshot).map Order.price)).map fun p =>
        (rank p, sizeAt (liveOrders side snapshot) p)).take maxPriceLevels := by
    simp [bestLevels, List.map_take, Function.comp_def]
  rw [heq]
  refine isBest_take ?_ ?_ ?_ _
  · simp only [KeySorted, List.pairwise_map]
    exact sortedDistinct_keySorted hrank _
  · intro e he
    obtain ⟨p, hp, rfl⟩ := List.mem_map.mp he
    rw [positive_eq_some, volume_apply hrank]
    exact ⟨(sizeAt_pos hlive).mpr (by simpa using hp), rfl⟩
  · intro k v hk
    obtain ⟨hpos, rfl⟩ := positive_eq_some.mp hk
    by_cases hr : k ∈ Set.range rank
    · obtain ⟨p, rfl⟩ := hr
      rw [volume_apply hrank] at hpos ⊢
      exact List.mem_map.mpr ⟨p, by simpa using (sizeAt_pos hlive).mp hpos, rfl⟩
    · rw [volume_eq_zero_of_not_range hr] at hpos
      exact absurd hpos (lt_irrefl _)

/-- A side that ranks the volumes of a snapshot lists its ten best prices. -/
theorem Ranked.priceSizes_eq (hrank : Function.Injective rank)
    (hsizes : ∀ o ∈ snapshot, 0 ≤ o.size) {ob : PriceLevelSide P S}
    (h : Ranked rank (volume rank side snapshot) ob) :
    ob.priceSizes = bestLevels rank side snapshot := by
  have hmap : rankedLevels rank ob.levels = ob.priceSizes.map (Prod.map rank id) := by
    simp [rankedLevels, PriceLevelSide.priceSizes]
  rw [Ranked, hmap] at h
  exact List.map_injective_iff.mpr (hrank.prodMap Function.injective_id)
    (h.unique (bestLevels_isBest hrank hsizes))

end Best

/-! ### Publication -/

/-- An order event of the symbol `IBM`, on integer prices and sizes. -/
def sampleEvent (src : String) (side : OrderSide) (index price size : ℤ) (flags : ℕ) :
    OrderEvent ℤ ℤ where
  eventType := EventId.order.bitMask
  symbolName := "IBM"
  order :=
    { source := src
      index := index
      time := index
      price := price
      size := size
      side := side }
  flags := flags

variable [LinearOrder P] [AddCommGroup S] [LinearOrder S] [IsOrderedAddMonoid S]

/-- **The incremental path is the rebuild path.**  Whenever an event makes a source publish,
the final levels of both sides are what a rebuild from the current snapshot computes: the at
most ten best distinct prices of the side, best first, with the sums of the sizes. -/
theorem published_levels_eq_rebuild [Zero P] (symbol src : String)
    (events : List (OrderEvent P S)) (event : OrderEvent P S)
    (hregular : ∀ e ∈ events ++ [event], e.Regular) {source : PlbSource P S}
    (hpublish : plbEventListener (runListener (plbSourceCreate symbol src) events) event =
      (source, true)) :
    (source.finalBids.priceSizes =
        (plbSourceRebuildLevels plbPricelvelComparatorBid source.snapshot source.bids
          .buy).priceSizes ∧
      source.finalBids.priceSizes = bestLevels OrderDual.toDual .buy source.snapshot) ∧
    source.finalAsks.priceSizes =
        (plbSourceRebuildLevels plbPricelvelComparatorAsk source.snapshot source.asks
          .sell).priceSizes ∧
      source.finalAsks.priceSizes = bestLevels id .sell source.snapshot := by
  have hrun : SourceInvariant (runListener (plbSourceCreate symbol src) events) :=
    runListener_invariant (fun e he => hregular e (by simp [he])) (plbSourceCreate_invariant _ _)
      (plbSourceCreate_sorted _ _)
  obtain ⟨hinv, hpub⟩ := plbEventListener_invariant hrun
    (runListener_sorted (plbSourceCreate_sorted _ _) events) (hregular event (by simp))
  rw [hpublish] at hinv hpub
  have hsizes : ∀ o ∈ source.snapshot, 0 ≤ o.size := fun o ho => (hinv.live o ho).1.le
  have hbids := (hpub rfl).bids.priceSizes_eq OrderDual.toDual.injective hsizes
  have hasks := (hpub rfl).asks.priceSizes_eq Function.injective_id hsizes
  have hbids' := (rebuildLevels_ranked comparatorBid_orders .buy hsizes
    source.bids).priceSizes_eq OrderDual.toDual.injective hsizes
  have hasks' := (rebuildLevels_ranked comparatorAsk_orders .sell hsizes
    source.asks).priceSizes_eq Function.injective_id hsizes
  exact ⟨⟨hbids.trans hbids'.symm, hbids⟩, hasks.trans hasks'.symm, hasks⟩

theorem published_levels_eq_rebuild_sample :
    (plbEventListener
      (runListener (plbSourceCreate "IBM" "NTV")
        [sampleEvent "NTV" .buy 1 100 5 0, sampleEvent "NTV" .buy 2 101 7 1])
      (sampleEvent "NTV" .buy 2 100 3 0)).1.finalBids.priceSizes = [(100, 8)] := by
  have h := published_levels_eq_rebuild "IBM" "NTV"
    [sampleEvent "NTV" .buy 1 100 5 0, sampleEvent "NTV" .buy 2 101 7 1]
    (sampleEvent "NTV" .buy 2 100 3 0)
    (by simp [sampleEvent, OrderEvent.Regular]) (Prod.ext rfl (by decide))
  exact h.1.1.trans (by decide)

end DxFeed.PriceLevelBook
