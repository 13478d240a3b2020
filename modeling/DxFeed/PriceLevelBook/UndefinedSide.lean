import DxFeed.PriceLevelBook.OrderSnapshot

/-!
# Orders of undefined side

Two of the four values of the side field of an order are neither buy nor sell.  The incremental
path puts such an order on the asks, and a rebuild leaves it out.

* `orderGetSide`: `DX_ORDER_GET_SIDE`;
* `KeepsSides`: an event brings no order of undefined side to the asks, takes none from them, and
  no order of undefined side takes the place of a buy or sell order;
* `Mirrors`: a source, and the source that never met its orders of undefined side;
* `publishedLevels_without_undefined`: in a run whose events keep the sides, the published levels
  are those of the run without the orders of undefined side.
-/

namespace DxFeed.PriceLevelBook

open SortedList

/-- `DX_ORDER_GET_SIDE`.  The book compares a side with buy and sell only, so that the values 0
and 3 of the field are one. -/
def orderGetSide (flags : UInt32) : OrderSide :=
  if (flags >>> 2) &&& 0x03 = 1 then .buy
  else if (flags >>> 2) &&& 0x03 = 2 then .sell
  else .undefined

variable {P S : Type*}

/-- The side of the order is buy or sell. -/
def Order.Sided (order : Order P S) : Prop := order.side ≠ .undefined

instance (order : Order P S) : Decidable order.Sided := inferInstanceAs (Decidable (_ ≠ _))

/-! ### Levels that an order does not touch -/

section Levels

variable [LinearOrder P] [AddCommGroup S] {ob ob' final : PriceLevelSide P S} {order oo : Order P S}

/-- An order behind ten better levels is not added. -/
theorem addOrder_eq_of_beyond (h : SideSorted id ob final)
    (hfull : ob.levels.length = maxPriceLevels) (hbetter : ∀ e ∈ ob.levels, e.price < order.price) :
    plbSourceAddOrderToLevels plbPricelvelComparatorAsk ob order = ob := by
  have hsearch := (levelSearch_located order comparatorAsk_orders h.sorted).eq_of_missing
    (List.append_nil ob.levels).symm hbetter (fun _ hb => nomatch hb)
  unfold plbSourceAddOrderToLevels
  dsimp only
  rw [hsearch.1, hsearch.2, hfull]
  rfl

/-- An added order lists no price but its own. -/
theorem addOrder_prices (h : SideSorted id ob final) {e : PriceLevelElement P S}
    (he : e ∈ (plbSourceAddOrderToLevels plbPricelvelComparatorAsk ob order).levels) :
    e.price = order.price ∨ ∃ e' ∈ ob.levels, e'.price = e.price := by
  obtain ⟨hsorted, hlen, -, -, -⟩ := h
  obtain ⟨levels, rebuild, updated⟩ := ob
  have hloc := levelSearch_located order comparatorAsk_orders hsorted
  dsimp only at hloc hsorted hlen ⊢
  generalize hsearch : binarySearch levels 0 levels.length order.levelKey
    plbPricelvelComparatorAsk = search at hloc
  obtain ⟨found, pos⟩ := search
  cases hloc with
  | found l₁ x l₂ hx =>
      unfold plbSourceAddOrderToLevels at he
      simp only [hsearch, if_true, getElem?_append_cons, set_append_cons] at he
      rcases List.mem_append.mp he with he | he
      · exact Or.inr ⟨e, List.mem_append_left _ he, rfl⟩
      · rcases List.mem_cons.mp he with rfl | he
        · exact Or.inl hx
        · exact Or.inr ⟨e, List.mem_append_right _ (List.mem_cons_of_mem x he), rfl⟩
  | missing l₁ l₂ h₁ h₂ =>
      rw [addOrder_levels_of_missing hlen hsearch] at he
      rcases List.mem_append.mp (List.mem_of_mem_take he) with he | he
      · exact Or.inr ⟨e, List.mem_append_left l₂ he, rfl⟩
      · rcases List.mem_cons.mp he with rfl | he
        · exact Or.inl rfl
        · exact Or.inr ⟨e, List.mem_append_right l₁ he, rfl⟩

/-- An order whose price is not listed is not removed. -/
theorem removeOrder_eq_of_unlisted [LinearOrder S] (h : SideSorted id ob final)
    (hprice : ∀ e ∈ ob.levels, e.price ≠ oo.price) :
    plbSourceRemoveOrderFromLevels plbPricelvelComparatorAsk ob oo = ob := by
  have hloc := levelSearch_located oo comparatorAsk_orders h.sorted
  have hfound : (binarySearch ob.levels 0 ob.levels.length oo.levelKey
      plbPricelvelComparatorAsk).1 = false := by
    generalize ob.levels = levels at hloc hprice ⊢
    generalize binarySearch levels 0 levels.length oo.levelKey plbPricelvelComparatorAsk = search
      at hloc ⊢
    obtain ⟨found, pos⟩ := search
    cases hloc with
    | found l₁ x l₂ hx => exact absurd hx (hprice x (by simp))
    | missing l₁ l₂ _ _ => rfl
  unfold plbSourceRemoveOrderFromLevels
  dsimp only
  rw [hfound]
  rfl

end Levels

/-! ### Sides that agree -/

section Agree

variable {cmp : LevelComparator P S} {ob ob' final : PriceLevelSide P S} {order oo : Order P S}

/-- The side is rebuilt at the next publication. -/
def PriceLevelSide.AwaitsRebuild (ob : PriceLevelSide P S) : Prop :=
  ob.rebuild = true ∧ ob.updated = true

/-- The next publication finds no difference between the sides. -/
def SidesAgree (ob ob' : PriceLevelSide P S) : Prop :=
  ob = ob' ∨ (ob.AwaitsRebuild ∧ ob'.AwaitsRebuild)

theorem SidesAgree.updated_eq (h : SidesAgree ob ob') : ob.updated = ob'.updated := by
  rcases h with rfl | ⟨h, h'⟩
  · rfl
  · exact h.2.trans h'.2.symm

/-- The levels are dropped, and only the marks remain. -/
theorem SidesAgree.clear_eq (h : SidesAgree ob ob') : ob.clear = ob'.clear := by
  rcases h with rfl | ⟨h, h'⟩
  · rfl
  · obtain ⟨levels, rebuild, updated⟩ := ob
    obtain ⟨levels', rebuild', updated'⟩ := ob'
    obtain ⟨rfl, rfl⟩ := h
    obtain ⟨rfl, rfl⟩ := h'
    rfl

variable [AddCommGroup S]

theorem addOrder_awaits (h : ob.AwaitsRebuild) :
    (plbSourceAddOrderToLevels cmp ob order).AwaitsRebuild := by
  unfold plbSourceAddOrderToLevels
  dsimp only
  split_ifs
  · split
    · exact h
    · exact ⟨h.1, rfl⟩
  · exact ⟨h.1, rfl⟩
  · exact ⟨h.1, rfl⟩
  · exact h

theorem SidesAgree.add (h : SidesAgree ob ob') :
    SidesAgree (plbSourceAddOrderToLevels cmp ob order)
      (plbSourceAddOrderToLevels cmp ob' order) := by
  rcases h with rfl | ⟨h, h'⟩
  · exact Or.inl rfl
  · exact Or.inr ⟨addOrder_awaits h, addOrder_awaits h'⟩

/-- An order added to one of the two sides makes no difference to a publication, if the side
awaits a rebuild or lists ten better prices. -/
theorem SidesAgree.addLeft [LinearOrder P] (h : SidesAgree ob ob')
    (hsorted : SideSorted id ob final) (hbeyond : ob.AwaitsRebuild ∨
      ob.levels.length = maxPriceLevels ∧ ∀ e ∈ ob.levels, e.price < order.price) :
    SidesAgree (plbSourceAddOrderToLevels plbPricelvelComparatorAsk ob order) ob' := by
  rcases hbeyond with hawaits | ⟨hfull, hbetter⟩
  · refine Or.inr ⟨addOrder_awaits hawaits, ?_⟩
    rcases h with rfl | ⟨-, h'⟩
    · exact hawaits
    · exact h'
  · rwa [addOrder_eq_of_beyond hsorted hfull hbetter]

variable [LinearOrder S]

theorem removeOrder_awaits (h : ob.AwaitsRebuild) :
    (plbSourceRemoveOrderFromLevels cmp ob order).AwaitsRebuild := by
  unfold plbSourceRemoveOrderFromLevels
  dsimp only
  split_ifs
  · split
    · exact h
    · exact ⟨by simp [h.1], rfl⟩
  · exact h

theorem SidesAgree.remove (h : SidesAgree ob ob') :
    SidesAgree (plbSourceRemoveOrderFromLevels cmp ob order)
      (plbSourceRemoveOrderFromLevels cmp ob' order) := by
  rcases h with rfl | ⟨h, h'⟩
  · exact Or.inl rfl
  · exact Or.inr ⟨removeOrder_awaits h, removeOrder_awaits h'⟩

theorem SidesAgree.removeLeft [LinearOrder P] (h : SidesAgree ob ob')
    (hsorted : SideSorted id ob final)
    (hprice : ob.AwaitsRebuild ∨ ∀ e ∈ ob.levels, e.price ≠ oo.price) :
    SidesAgree (plbSourceRemoveOrderFromLevels plbPricelvelComparatorAsk ob oo) ob' := by
  rcases hprice with hawaits | hunlisted
  · refine Or.inr ⟨removeOrder_awaits hawaits, ?_⟩
    rcases h with rfl | ⟨-, h'⟩
    · exact hawaits
    · exact h'
  · rwa [removeOrder_eq_of_unlisted hsorted hunlisted]

/-- A rebuild passes over the orders of undefined side. -/
theorem rebuildLevels_filter {side : OrderSide} (hside : side ≠ .undefined)
    (snapshot : List (Order P S)) (ob : PriceLevelSide P S) :
    plbSourceRebuildLevels cmp (snapshot.filter fun o => o.Sided) ob side =
      plbSourceRebuildLevels cmp snapshot ob side := by
  have hskip : (fun (ob : PriceLevelSide P S) (o : Order P S) =>
      if decide o.Sided = true then rebuildStep cmp side ob o else ob) = rebuildStep cmp side := by
    funext ob o
    by_cases hsided : o.Sided
    · rw [if_pos (by simpa using hsided)]
    · have hundefined : o.side = .undefined := not_not.mp hsided
      rw [if_neg (by simpa using hsided), rebuildStep, if_pos (Or.inl (hundefined ▸ hside.symm))]
  unfold plbSourceRebuildLevels
  rw [List.foldl_filter, hskip]

theorem SidesAgree.rebuild_eq (h : SidesAgree ob ob') (snapshot : List (Order P S))
    {side : OrderSide} (hside : side ≠ .undefined) :
    (if ob.rebuild then plbSourceRebuildLevels cmp snapshot ob side else ob) =
      if ob'.rebuild then
        plbSourceRebuildLevels cmp (snapshot.filter fun o => o.Sided) ob' side
      else ob' := by
  rw [rebuildLevels_filter hside]
  have hclear := h.clear_eq
  rcases h with rfl | ⟨h, h'⟩
  · rfl
  · rw [if_pos h.1, if_pos h'.1]
    unfold plbSourceRebuildLevels
    rw [hclear]

end Agree

/-! ### What every source keeps -/

section Ordered

variable {source : PlbSource P S} {order oo : Order P S} {event : OrderEvent P S}
  {l₁ l₂ : List (Order P S)}

/-- The index of an order is stored, or it has a place between the stored ones. -/
theorem snapshot_cases (hs : KeySorted Order.index source.snapshot) (order : Order P S) :
    (∃ l₁ oo l₂, source.snapshot = l₁ ++ oo :: l₂ ∧ oo.index = order.index) ∨
      ∃ l₁ l₂, source.snapshot = l₁ ++ l₂ ∧ (∀ o ∈ l₁, o.index < order.index) ∧
        ∀ o ∈ l₂, order.index < o.index := by
  have hloc := findOrder_located hs order
  generalize source.snapshot = snapshot at hloc ⊢
  generalize findOrder snapshot order = search at hloc
  obtain ⟨found, pos⟩ := search
  cases hloc with
  | found l₁ oo l₂ hoo => exact Or.inl ⟨l₁, oo, l₂, rfl, hoo⟩
  | missing l₁ l₂ h₁ h₂ => exact Or.inr ⟨l₁, l₂, rfl, h₁, h₂⟩

variable [AddCommGroup S]

theorem addOrder_marked {cmp : LevelComparator P S} {ob : PriceLevelSide P S}
    (h : ob.rebuild = true → ob.updated = true) :
    (plbSourceAddOrderToLevels cmp ob order).rebuild = true →
      (plbSourceAddOrderToLevels cmp ob order).updated = true := by
  unfold plbSourceAddOrderToLevels
  dsimp only
  split_ifs
  · split
    · exact h
    · exact fun _ => rfl
  · exact fun _ => rfl
  · exact fun _ => rfl
  · exact h

variable [LinearOrder S]

theorem isRemoval_size (h : event.isRemoval = false) : event.order.size ≠ 0 := by
  simp only [OrderEvent.isRemoval, Bool.or_eq_false_iff, decide_eq_false_iff_not] at h
  exact h.2

theorem removeOrder_marked {cmp : LevelComparator P S} {ob : PriceLevelSide P S}
    (h : ob.rebuild = true → ob.updated = true) :
    (plbSourceRemoveOrderFromLevels cmp ob order).rebuild = true →
      (plbSourceRemoveOrderFromLevels cmp ob order).updated = true := by
  unfold plbSourceRemoveOrderFromLevels
  dsimp only
  split_ifs
  · split
    · exact h
    · exact fun _ => rfl
  · exact h

variable [LinearOrder P]

/-- The snapshot is sorted by index, the levels are sorted by price, the asks are marked as updated
when they are marked for a rebuild, and there is nothing left to publish. -/
structure SourceOrdered (source : PlbSource P S) : Prop where
  snapshot : KeySorted Order.index source.snapshot
  sorted : SourceSorted source
  marked : source.asks.rebuild = true → source.asks.updated = true
  settled : source.Complete → source.publish = source

theorem plbSourceCreate_ordered (symbol src : String) :
    SourceOrdered (plbSourceCreate symbol src : PlbSource P S) where
  snapshot := keySorted_nil
  sorted := plbSourceCreate_sorted symbol src
  marked := nofun
  settled h := by
    rcases h.1 with h | h
    · cases h
    · cases h

/-- An order with the index of a stored one removes or replaces it. -/
theorem processOrder_of_found [Zero P] (hs : KeySorted Order.index source.snapshot)
    (hsnapshot : source.snapshot = l₁ ++ oo :: l₂) (hindex : oo.index = order.index) {rm : Bool}
    (hsize : rm = false → order.size ≠ 0) :
    plbSourceProcessOrder source order rm =
      if rm then { source.removeFromLevels oo with snapshot := l₁ ++ l₂ }
      else { (source.addToLevels order).removeFromLevels oo with
        snapshot := l₁ ++ order :: l₂ } := by
  obtain ⟨hfound, hplace⟩ := (findOrder_located hs order).eq_of_found hs hsnapshot hindex
  unfold plbSourceProcessOrder
  dsimp only
  rw [hfound, hplace, hsnapshot, getElem?_append_cons]
  cases rm with
  | true => simp only [if_true, true_or, arrayDelete_append]
  | false =>
      simp only [if_true, Bool.false_eq_true, hsize rfl, or_self, if_false, set_append_cons]

/-- An order with a new index is stored at its place. -/
theorem processOrder_of_missing [Zero P] (hs : KeySorted Order.index source.snapshot)
    (hsnapshot : source.snapshot = l₁ ++ l₂) (h₁ : ∀ o ∈ l₁, o.index < order.index)
    (h₂ : ∀ o ∈ l₂, order.index < o.index) {rm : Bool} (hsize : rm = false → order.size ≠ 0) :
    plbSourceProcessOrder source order rm =
      if rm then source
      else PlbSource.addToLevels { source with snapshot := l₁ ++ order :: l₂ } order := by
  obtain ⟨hfound, hplace⟩ := (findOrder_located hs order).eq_of_missing hsnapshot h₁ h₂
  unfold plbSourceProcessOrder
  dsimp only
  rw [hfound, hplace, hsnapshot, arrayInsert_append]
  cases rm with
  | true => rfl
  | false => simp only [Bool.false_eq_true, if_false, true_and, ne_eq, hsize rfl,
      not_false_eq_true, if_true]

theorem processOrder_marked [Zero P] (h : source.asks.rebuild = true → source.asks.updated = true)
    (rm : Bool) :
    (plbSourceProcessOrder source order rm).asks.rebuild = true →
      (plbSourceProcessOrder source order rm).asks.updated = true := by
  refine plbSourceProcessOrder_keeps
    (Q := fun s => s.asks.rebuild = true → s.asks.updated = true) h ?_ ?_ (fun _ _ hs => hs) rm
  · intro s hs
    unfold PlbSource.addToLevels PlbSource.onSide
    split_ifs
    · exact hs
    · exact addOrder_marked hs
  · intro s o hs
    unfold PlbSource.removeFromLevels PlbSource.onSide
    split_ifs
    · exact hs
    · exact removeOrder_marked hs

/-- Publishing twice publishes the same. -/
theorem publish_publish (source : PlbSource P S) : source.publish.publish = source.publish := by
  have hside : ∀ (cmp : LevelComparator P S) (ob : PriceLevelSide P S) (side : OrderSide),
      (if ob.rebuild then plbSourceRebuildLevels cmp source.snapshot ob side else ob).rebuild =
        false := by
    intro cmp ob side
    cases hrebuild : ob.rebuild with
    | true => rfl
    | false => exact hrebuild
  unfold PlbSource.publish
  dsimp only
  rw [hside, hside]
  simp only [Bool.false_eq_true, if_false]
  congr 1
  · split_ifs <;> rfl
  · split_ifs <;> rfl

theorem publish_marked (source : PlbSource P S)
    (h : source.asks.rebuild = true → source.asks.updated = true) :
    source.publish.asks.rebuild = true → source.publish.asks.updated = true := by
  unfold PlbSource.publish
  dsimp only
  split_ifs with hrebuild
  · exact nofun
  · exact h

theorem SourceOrdered.beginSnapshot (h : SourceOrdered source) (flags : ℕ) :
    SourceOrdered (source.beginSnapshot flags) := by
  have hsorted := h.sorted.beginSnapshot flags
  unfold PlbSource.beginSnapshot at hsorted ⊢
  split_ifs at hsorted ⊢
  · exact ⟨keySorted_nil, hsorted, h.marked, fun hcomplete => nomatch hcomplete.2⟩
  · exact h

theorem SourceOrdered.processEvent [Zero P] (h : SourceOrdered source) (event : OrderEvent P S)
    (hsettled : (source.processEvent event).Complete →
      (source.processEvent event).publish = source.processEvent event) :
    SourceOrdered (source.processEvent event) :=
  ⟨(plbSourceProcessOrder_plain h.snapshot).1, h.sorted.processEvent event,
    processOrder_marked h.marked _, hsettled⟩

/-- Every event keeps the source ordered. -/
theorem SourceOrdered.listener [Zero P] (h : SourceOrdered source) (event : OrderEvent P S) :
    SourceOrdered (plbEventListener source event).1 := by
  have hbegin := h.beginSnapshot event.flags
  have hstep := plbEventListener_step source event
  generalize plbEventListener source event = result at hstep ⊢
  cases hstep with
  | rejected _ => exact h
  | skipped _ _ => exact hbegin
  | stored _ _ hpending =>
      exact hbegin.processEvent event fun hcomplete => absurd hcomplete hpending
  | published _ _ _ =>
      constructor
      · exact (plbSourceProcessOrder_plain hbegin.snapshot).1
      · exact (hbegin.sorted.processEvent event).publish
      · exact publish_marked _ (processOrder_marked hbegin.marked _)
      · exact fun _ => publish_publish _

theorem SourceOrdered.awaits (h : SourceOrdered source) (hrebuild : source.asks.rebuild = true) :
    source.asks.AwaitsRebuild := ⟨hrebuild, h.marked hrebuild⟩

end Ordered

/-! ### A source without its orders of undefined side -/

section Mirrors

variable {source source' : PlbSource P S} {order oo : Order P S} {event : OrderEvent P S}
  {snapshot : List (Order P S)}

/-- The orders that are on a side. -/
def sidedOrders (snapshot : List (Order P S)) : List (Order P S) :=
  snapshot.filter fun o => o.Sided

theorem sidedOrders_append (l₁ l₂ : List (Order P S)) :
    sidedOrders (l₁ ++ l₂) = sidedOrders l₁ ++ sidedOrders l₂ :=
  List.filter_append l₁ l₂

theorem sidedOrders_cons_of_sided (h : order.Sided) (l : List (Order P S)) :
    sidedOrders (order :: l) = order :: sidedOrders l :=
  List.filter_cons_of_pos (by simpa using h)

theorem sidedOrders_cons_of_undefined (h : order.side = .undefined) (l : List (Order P S)) :
    sidedOrders (order :: l) = sidedOrders l :=
  List.filter_cons_of_neg (by simp [Order.Sided, h])

theorem forall_mem_sidedOrders {p : Order P S → Prop} {l : List (Order P S)} (h : ∀ o ∈ l, p o) :
    ∀ o ∈ sidedOrders l, p o :=
  fun o ho => h o (List.mem_of_mem_filter ho)

/-- The second source has the first one's orders that are on a side, and publishes the same. -/
def Mirrors (source source' : PlbSource P S) : Prop :=
  ∃ asks, SidesAgree source.asks asks ∧
    source' = { source with snapshot := sidedOrders source.snapshot, asks := asks }

theorem mirrors_create (symbol src : String) :
    Mirrors (plbSourceCreate symbol src : PlbSource P S) (plbSourceCreate symbol src) :=
  ⟨.empty, Or.inl rfl, rfl⟩

theorem Mirrors.withSnapshot (h : Mirrors source source') (snapshot : List (Order P S)) :
    Mirrors { source with snapshot := snapshot }
      { source' with snapshot := sidedOrders snapshot } := by
  obtain ⟨asks, hasks, rfl⟩ := h
  exact ⟨asks, hasks, rfl⟩

theorem Mirrors.snapshot_eq (h : Mirrors source source') :
    source'.snapshot = sidedOrders source.snapshot := by
  obtain ⟨asks, -, rfl⟩ := h
  rfl

variable [LinearOrder P] [AddCommGroup S]

theorem Mirrors.addToLevels (h : Mirrors source source') (order : Order P S) :
    Mirrors (source.addToLevels order) (source'.addToLevels order) := by
  obtain ⟨asks, hasks, rfl⟩ := h
  unfold PlbSource.addToLevels PlbSource.onSide
  split_ifs
  · exact ⟨asks, hasks, rfl⟩
  · exact ⟨_, hasks.add, rfl⟩

theorem addToLevels_withSnapshot (source : PlbSource P S) (order : Order P S)
    (snapshot : List (Order P S)) :
    PlbSource.addToLevels { source with snapshot := snapshot } order =
      { source.addToLevels order with snapshot := snapshot } := by
  unfold PlbSource.addToLevels PlbSource.onSide
  split_ifs <;> rfl

theorem addToLevels_marked (h : source.asks.rebuild = true → source.asks.updated = true) :
    (source.addToLevels order).asks.rebuild = true →
      (source.addToLevels order).asks.updated = true := by
  unfold PlbSource.addToLevels PlbSource.onSide
  split_ifs
  · exact h
  · exact addOrder_marked h

/-- The asks take no notice of an order that is added. -/
def AddsNothing (asks : PriceLevelSide P S) (order : Order P S) : Prop :=
  asks.rebuild = true ∨
    asks.levels.length = maxPriceLevels ∧ ∀ e ∈ asks.levels, e.price < order.price

/-- The asks take no notice of an order that is removed. -/
def RemovesNothing (asks : PriceLevelSide P S) (oo : Order P S) : Prop :=
  asks.rebuild = true ∨ ∀ e ∈ asks.levels, e.price ≠ oo.price

instance (asks : PriceLevelSide P S) (order : Order P S) : Decidable (AddsNothing asks order) :=
  inferInstanceAs (Decidable (_ ∨ _))

instance (asks : PriceLevelSide P S) (oo : Order P S) : Decidable (RemovesNothing asks oo) :=
  inferInstanceAs (Decidable (_ ∨ _))

/-- An addition lists no price but that of its order, and none behind ten better levels. -/
theorem RemovesNothing.addToLevels (h : RemovesNothing source.asks oo)
    (hsorted : SourceSorted source) (order : Order P S)
    (hprice : order.side = .undefined ∧ AddsNothing source.asks order ∨
      (order.side = .sell → order.price ≠ oo.price) ∧ order.side ≠ .undefined) :
    RemovesNothing (source.addToLevels order).asks oo := by
  unfold PlbSource.addToLevels sideComparator PlbSource.onSide
  split_ifs with hbuy
  · exact h
  · dsimp only
    rcases h with hrebuild | hunlisted
    · exact Or.inl (addOrder_rebuild.trans hrebuild)
    · rcases hprice with ⟨-, hadds⟩ | ⟨hprice, hsided⟩
      · rcases hadds with hrebuild | ⟨hfull, hbetter⟩
        · exact Or.inl (addOrder_rebuild.trans hrebuild)
        · rw [addOrder_eq_of_beyond hsorted.asks hfull hbetter]
          exact Or.inr hunlisted
      · have hsell : order.side = .sell := by
          cases hside : order.side with
          | undefined => exact absurd hside hsided
          | buy => exact absurd hside hbuy
          | sell => rfl
        refine Or.inr fun e he => ?_
        rcases addOrder_prices hsorted.asks he with heq | ⟨e', he', heq⟩
        · rw [heq]
          exact hprice hsell
        · rw [← heq]
          exact hunlisted e' he'

variable [LinearOrder S]

theorem Mirrors.removeFromLevels (h : Mirrors source source') (oo : Order P S) :
    Mirrors (source.removeFromLevels oo) (source'.removeFromLevels oo) := by
  obtain ⟨asks, hasks, rfl⟩ := h
  unfold PlbSource.removeFromLevels PlbSource.onSide
  split_ifs
  · exact ⟨asks, hasks, rfl⟩
  · exact ⟨_, hasks.remove, rfl⟩

/-- An order of undefined side of which the asks take no notice is not missed. -/
theorem Mirrors.addLeft (h : Mirrors source source') (hs : SourceOrdered source)
    (hside : order.side = .undefined) (hadds : AddsNothing source.asks order) :
    Mirrors (source.addToLevels order) source' := by
  obtain ⟨asks, hasks, rfl⟩ := h
  unfold PlbSource.addToLevels sideComparator PlbSource.onSide
  rw [hside]
  exact ⟨asks, hasks.addLeft hs.sorted.asks (hadds.imp_left hs.awaits), rfl⟩

theorem Mirrors.removeLeft (h : Mirrors source source') (hsorted : SourceSorted source)
    (hmarked : source.asks.rebuild = true → source.asks.updated = true)
    (hside : oo.side = .undefined) (hremoves : RemovesNothing source.asks oo) :
    Mirrors (source.removeFromLevels oo) source' := by
  obtain ⟨asks, hasks, rfl⟩ := h
  unfold PlbSource.removeFromLevels sideComparator PlbSource.onSide
  rw [hside]
  refine ⟨asks, hasks.removeLeft hsorted.asks (hremoves.imp_left ?_), rfl⟩
  exact fun hrebuild => ⟨hrebuild, hmarked hrebuild⟩

/-! ### Events that keep the sides -/

/-- An event neither brings an order of undefined side to the asks nor takes one from them, and
an order of undefined side takes no place of a buy or sell order. -/
structure KeepsSides (source : PlbSource P S) (event : OrderEvent P S) : Prop where
  kept : event.order.side = .undefined →
    ∀ o ∈ source.snapshot, o.index = event.order.index → o.side = .undefined
  added : event.order.side = .undefined → event.isRemoval = false →
    AddsNothing source.asks event.order
  removed : ∀ o ∈ source.snapshot, o.index = event.order.index → o.side = .undefined →
    RemovesNothing source.asks o ∧
      (event.order.side = .sell → event.isRemoval = false → event.order.price ≠ o.price)

instance (source : PlbSource P S) (event : OrderEvent P S) :
    Decidable (KeepsSides source event) :=
  decidable_of_iff
    ((event.order.side = .undefined →
        ∀ o ∈ source.snapshot, o.index = event.order.index → o.side = .undefined) ∧
      (event.order.side = .undefined → event.isRemoval = false →
        AddsNothing source.asks event.order) ∧
      ∀ o ∈ source.snapshot, o.index = event.order.index → o.side = .undefined →
        RemovesNothing source.asks o ∧
          (event.order.side = .sell → event.isRemoval = false → event.order.price ≠ o.price))
    ⟨fun h => ⟨h.1, h.2.1, h.2.2⟩, fun h => ⟨h.kept, h.added, h.removed⟩⟩

/-- An order on a side is processed by both sources alike. -/
theorem Mirrors.processSided [Zero P] (h : Mirrors source source') (hs : SourceOrdered source)
    (hsided : event.order.Sided) (hkeeps : KeepsSides source event) :
    Mirrors (plbSourceProcessOrder source event.order event.isRemoval)
      (plbSourceProcessOrder source' event.order event.isRemoval) := by
  have hs' : KeySorted Order.index source'.snapshot := by
    rw [h.snapshot_eq]
    exact hs.snapshot.sublist List.filter_sublist
  have hsize : event.isRemoval = false → event.order.size ≠ 0 := isRemoval_size
  rcases snapshot_cases hs.snapshot event.order with
    ⟨l₁, oo, l₂, hsnapshot, hindex⟩ | ⟨l₁, l₂, hsnapshot, h₁, h₂⟩
  · rw [processOrder_of_found hs.snapshot hsnapshot hindex hsize]
    by_cases hoo : oo.Sided
    · have hsnapshot' : source'.snapshot = sidedOrders l₁ ++ oo :: sidedOrders l₂ := by
        rw [h.snapshot_eq, hsnapshot, sidedOrders_append, sidedOrders_cons_of_sided hoo]
      rw [processOrder_of_found hs' hsnapshot' hindex hsize]
      cases hrm : event.isRemoval with
      | true =>
          have herase := (h.removeFromLevels oo).withSnapshot (l₁ ++ l₂)
          rwa [sidedOrders_append] at herase
      | false =>
          have hreplace := ((h.addToLevels event.order).removeFromLevels oo).withSnapshot
            (l₁ ++ event.order :: l₂)
          rwa [sidedOrders_append, sidedOrders_cons_of_sided hsided] at hreplace
    · -- the other source never stored the order that this one removes or replaces
      have hundefined : oo.side = .undefined := not_not.mp hoo
      obtain ⟨hremoves, hprice⟩ := hkeeps.removed oo (by rw [hsnapshot]; simp) hindex hundefined
      have hsnapshot' : source'.snapshot = sidedOrders l₁ ++ sidedOrders l₂ := by
        rw [h.snapshot_eq, hsnapshot, sidedOrders_append, sidedOrders_cons_of_undefined hundefined]
      have haround := (hsnapshot ▸ hs.snapshot).around
      rw [hindex] at haround
      rw [processOrder_of_missing hs' hsnapshot' (forall_mem_sidedOrders haround.1)
        (forall_mem_sidedOrders haround.2) hsize]
      cases hrm : event.isRemoval with
      | true =>
          have herase := (h.removeLeft hs.sorted hs.marked hundefined hremoves).withSnapshot
            (l₁ ++ l₂)
          rw [sidedOrders_append, ← hsnapshot'] at herase
          exact herase
      | false =>
          have hremoves' := hremoves.addToLevels hs.sorted event.order
            (Or.inr ⟨fun hsell => hprice hsell hrm, hsided⟩)
          have hreplace := ((h.addToLevels event.order).removeLeft hs.sorted.addToLevels
            (addToLevels_marked hs.marked) hundefined hremoves').withSnapshot
            (l₁ ++ event.order :: l₂)
          rwa [sidedOrders_append, sidedOrders_cons_of_sided hsided, ← addToLevels_withSnapshot]
            at hreplace
  · have hsnapshot' : source'.snapshot = sidedOrders l₁ ++ sidedOrders l₂ := by
      rw [h.snapshot_eq, hsnapshot, sidedOrders_append]
    rw [processOrder_of_missing hs.snapshot hsnapshot h₁ h₂ hsize,
      processOrder_of_missing hs' hsnapshot' (forall_mem_sidedOrders h₁)
        (forall_mem_sidedOrders h₂) hsize]
    cases hrm : event.isRemoval with
    | true => exact h
    | false =>
        have hinsert := (h.withSnapshot (l₁ ++ event.order :: l₂)).addToLevels event.order
        rwa [sidedOrders_append, sidedOrders_cons_of_sided hsided] at hinsert

/-- An order of undefined side is not missed by the source that never meets it. -/
theorem Mirrors.processUndefined [Zero P] (h : Mirrors source source') (hs : SourceOrdered source)
    (hside : event.order.side = .undefined) (hkeeps : KeepsSides source event) :
    Mirrors (plbSourceProcessOrder source event.order event.isRemoval) source' := by
  have hsize : event.isRemoval = false → event.order.size ≠ 0 := isRemoval_size
  have hself : { source' with snapshot := sidedOrders source.snapshot } = source' := by
    rw [← h.snapshot_eq]
  rcases snapshot_cases hs.snapshot event.order with
    ⟨l₁, oo, l₂, hsnapshot, hindex⟩ | ⟨l₁, l₂, hsnapshot, h₁, h₂⟩
  · have hmem : oo ∈ source.snapshot := by
      rw [hsnapshot]
      simp
    have hundefined := hkeeps.kept hside oo hmem hindex
    obtain ⟨hremoves, -⟩ := hkeeps.removed oo hmem hindex hundefined
    rw [hsnapshot, sidedOrders_append, sidedOrders_cons_of_undefined hundefined] at hself
    rw [processOrder_of_found hs.snapshot hsnapshot hindex hsize]
    cases hrm : event.isRemoval with
    | true =>
        have herase := (h.removeLeft hs.sorted hs.marked hundefined hremoves).withSnapshot
          (l₁ ++ l₂)
        rwa [sidedOrders_append, hself] at herase
    | false =>
        have hadds := hkeeps.added hside hrm
        have hremoves' := hremoves.addToLevels hs.sorted event.order (Or.inl ⟨hside, hadds⟩)
        have hreplace := ((h.addLeft hs hside hadds).removeLeft hs.sorted.addToLevels
          (addToLevels_marked hs.marked) hundefined hremoves').withSnapshot
          (l₁ ++ event.order :: l₂)
        rwa [sidedOrders_append, sidedOrders_cons_of_undefined hside, hself] at hreplace
  · rw [hsnapshot, sidedOrders_append] at hself
    rw [processOrder_of_missing hs.snapshot hsnapshot h₁ h₂ hsize]
    cases hrm : event.isRemoval with
    | true => exact h
    | false =>
        have hinsert := (h.addLeft hs hside (hkeeps.added hside hrm)).withSnapshot
          (l₁ ++ event.order :: l₂)
        rw [sidedOrders_append, sidedOrders_cons_of_undefined hside, hself] at hinsert
        rwa [← addToLevels_withSnapshot] at hinsert

end Mirrors

/-! ### Runs -/

section Runs

variable {source source' : PlbSource P S} {event : OrderEvent P S}

/-- The flags of an event move the status. -/
def PlbSource.passFlags (source : PlbSource P S) (flags : ℕ) : PlbSource P S :=
  { source with
    snapshotStatus := nextStatus source.snapshotStatus (endsSnapshot flags)
      (isFlagSet flags EventFlag.txPending) }

/-- The levels that the books of the source take from it. -/
def PlbSource.publishedLevels (source : PlbSource P S) :
    List (PriceLevelElement P S) × List (PriceLevelElement P S) :=
  (source.finalBids.levels, source.finalAsks.levels)

theorem Mirrors.publishedLevels_eq (h : Mirrors source source') :
    source.publishedLevels = source'.publishedLevels := by
  obtain ⟨asks, -, rfl⟩ := h
  rfl

theorem Mirrors.beginSnapshot (h : Mirrors source source') (flags : ℕ) :
    Mirrors (source.beginSnapshot flags) (source'.beginSnapshot flags) := by
  obtain ⟨asks, hasks, rfl⟩ := h
  unfold PlbSource.beginSnapshot
  split_ifs
  · refine ⟨asks.clear, Or.inl hasks.clear_eq, ?_⟩
    unfold plbSourceResetSnapshot
    dsimp only
    rw [hasks.clear_eq]
    rfl
  · exact ⟨asks, hasks, rfl⟩

theorem Mirrors.status_eq (h : Mirrors source source') :
    source'.snapshotStatus = source.snapshotStatus := by
  obtain ⟨asks, -, rfl⟩ := h
  rfl

theorem Mirrors.complete_iff (h : Mirrors source source') :
    source'.Complete ↔ source.Complete := by
  obtain ⟨asks, hasks, rfl⟩ := h
  unfold PlbSource.Complete
  dsimp only
  rw [hasks.updated_eq]

theorem Mirrors.accepts_eq (h : Mirrors source source') (event : OrderEvent P S) :
    source'.accepts event = source.accepts event := by
  obtain ⟨asks, -, rfl⟩ := h
  rfl

theorem Mirrors.passFlags {flags : ℕ} (h : Mirrors source source')
    {status : PlbStatus} (hstatus : status = nextStatus source'.snapshotStatus (endsSnapshot flags)
      (isFlagSet flags EventFlag.txPending)) :
    Mirrors { source with snapshotStatus := status } (source'.passFlags flags) := by
  obtain ⟨asks, hasks, rfl⟩ := h
  exact ⟨asks, hasks, by rw [hstatus]; rfl⟩

variable [LinearOrder P] [AddCommGroup S] [LinearOrder S]

/-- The listener, with its own processing of an event. -/
def listenWith (source : PlbSource P S) (event : OrderEvent P S)
    (process : PlbSource P S → PlbSource P S) : PlbSource P S :=
  if source.accepts event then
    let source := source.beginSnapshot event.flags
    if source.snapshotStatus = .unknown then source
    else
      let source := process source
      if source.Complete then source.publish else source
  else source

theorem plbEventListener_eq [Zero P] (source : PlbSource P S) (event : OrderEvent P S) :
    (plbEventListener source event).1 =
      listenWith source event fun source => source.processEvent event := by
  unfold plbEventListener listenWith
  dsimp only
  split_ifs <;> rfl

/-- The listener over events whose orders of undefined side were deleted; their flags are still
there. -/
def listenWithoutUndefined [Zero P] (source : PlbSource P S) (event : OrderEvent P S) :
    PlbSource P S :=
  if event.order.Sided then (plbEventListener source event).1
  else listenWith source event fun source => source.passFlags event.flags

/-- The source after a list of events whose orders of undefined side were deleted. -/
def runWithoutUndefined [Zero P] (source : PlbSource P S) (events : List (OrderEvent P S)) :
    PlbSource P S :=
  events.foldl listenWithoutUndefined source

theorem Mirrors.publish (h : Mirrors source source') :
    Mirrors source.publish source'.publish := by
  obtain ⟨asks, hasks, rfl⟩ := h
  have hbids : plbSourceRebuildLevels plbPricelvelComparatorBid (sidedOrders source.snapshot)
      source.bids .buy = plbSourceRebuildLevels plbPricelvelComparatorBid source.snapshot
        source.bids .buy := rebuildLevels_filter (by decide) source.snapshot source.bids
  have hrebuild : (if source.asks.rebuild then
      plbSourceRebuildLevels plbPricelvelComparatorAsk source.snapshot source.asks .sell
      else source.asks) = if asks.rebuild then
        plbSourceRebuildLevels plbPricelvelComparatorAsk (sidedOrders source.snapshot) asks .sell
      else asks := hasks.rebuild_eq source.snapshot (by decide)
  refine ⟨_, Or.inl rfl, ?_⟩
  unfold PlbSource.publish
  dsimp only
  rw [hbids, ← hrebuild]

/-- The listener keeps the sources alike if the processing does. -/
theorem Mirrors.listenWith {process process' : PlbSource P S → PlbSource P S}
    (h : Mirrors source source')
    (hprocess : source.accepts event = true →
      (source.beginSnapshot event.flags).snapshotStatus ≠ .unknown →
      Mirrors (process (source.beginSnapshot event.flags))
        (process' (source'.beginSnapshot event.flags))) :
    Mirrors (listenWith source event process) (listenWith source' event process') := by
  have hbegin := h.beginSnapshot event.flags
  unfold PriceLevelBook.listenWith
  rw [h.accepts_eq]
  dsimp only
  rw [hbegin.status_eq]
  by_cases haccepts : source.accepts event = true
  · rw [if_pos haccepts, if_pos haccepts]
    by_cases hunknown : (source.beginSnapshot event.flags).snapshotStatus = .unknown
    · rw [if_pos hunknown, if_pos hunknown]
      exact hbegin
    · have hafter := hprocess haccepts hunknown
      rw [if_neg hunknown, if_neg hunknown]
      by_cases hcomplete : (process (source.beginSnapshot event.flags)).Complete
      · rw [if_pos hcomplete, if_pos (hafter.complete_iff.mpr hcomplete)]
        exact hafter.publish
      · rw [if_neg hcomplete, if_neg (hafter.complete_iff.not.mpr hcomplete)]
        exact hafter
  · rw [if_neg haccepts, if_neg haccepts]
    exact h

/-- The event is not processed, or it keeps the sides. -/
def KeepsSidesAt (source : PlbSource P S) (event : OrderEvent P S) : Prop :=
  source.accepts event = true → (source.beginSnapshot event.flags).snapshotStatus ≠ .unknown →
    KeepsSides (source.beginSnapshot event.flags) event

instance (source : PlbSource P S) (event : OrderEvent P S) :
    Decidable (KeepsSidesAt source event) :=
  inferInstanceAs (Decidable (_ → _))

/-- An event that keeps the sides leaves both sources alike. -/
theorem Mirrors.listener [Zero P] (h : Mirrors source source') (hs : SourceOrdered source)
    (hkeeps : KeepsSidesAt source event) :
    Mirrors (plbEventListener source event).1 (listenWithoutUndefined source' event) := by
  unfold listenWithoutUndefined
  have hs' := hs.beginSnapshot event.flags
  have hbegin := h.beginSnapshot event.flags
  by_cases hsided : event.order.Sided
  · rw [if_pos hsided, plbEventListener_eq, plbEventListener_eq]
    refine h.listenWith fun haccepts hunknown => ?_
    have hprocess := hbegin.processSided hs' hsided (hkeeps haccepts hunknown)
    exact hprocess.passFlags (by rw [hprocess.status_eq])
  · have hside : event.order.side = .undefined := not_not.mp hsided
    rw [if_neg hsided, plbEventListener_eq]
    refine h.listenWith fun haccepts hunknown => ?_
    have hprocess := hbegin.processUndefined hs' hside (hkeeps haccepts hunknown)
    exact hprocess.passFlags (by rw [hprocess.status_eq])

/-- The flags of an order of undefined side neither begin a snapshot nor move the status. -/
def FlagsNeutral (source : PlbSource P S) (event : OrderEvent P S) : Prop :=
  event.order.side = .undefined → isFlagSet event.flags EventFlag.snapshotBegin = false ∧
    nextStatus source.snapshotStatus (endsSnapshot event.flags)
      (isFlagSet event.flags EventFlag.txPending) = source.snapshotStatus

instance (source : PlbSource P S) (event : OrderEvent P S) :
    Decidable (FlagsNeutral source event) :=
  inferInstanceAs (Decidable (_ → _))

/-- Neutral flags leave an ordered source as it is. -/
theorem listenWithoutUndefined_of_neutral [Zero P] (hs : SourceOrdered source)
    (hside : event.order.side = .undefined) (hneutral : FlagsNeutral source event) :
    listenWithoutUndefined source event = source := by
  obtain ⟨hbegin, hstatus⟩ := hneutral hside
  have hsame : source.beginSnapshot event.flags = source := by
    rw [PlbSource.beginSnapshot, hbegin]
    rfl
  have hpass : source.passFlags event.flags = source := by
    rw [PlbSource.passFlags, hstatus]
  have hunsided : ¬ event.order.Sided := not_not.mpr hside
  rw [listenWithoutUndefined, if_neg hunsided, listenWith, hsame]
  dsimp only
  rw [hpass]
  by_cases hcomplete : source.Complete
  · rw [if_pos hcomplete, hs.settled hcomplete, ite_self, ite_self]
  · rw [if_neg hcomplete, ite_self, ite_self]

/-- Every event of a run meets the condition in the state in which it comes. -/
def AtEveryEvent [Zero P] (p : PlbSource P S → OrderEvent P S → Prop) :
    PlbSource P S → List (OrderEvent P S) → Prop
  | _, [] => True
  | source, event :: events =>
      p source event ∧ AtEveryEvent p (plbEventListener source event).1 events

instance AtEveryEvent.decidable [Zero P] {p : PlbSource P S → OrderEvent P S → Prop}
    [∀ source event, Decidable (p source event)] :
    (source : PlbSource P S) → (events : List (OrderEvent P S)) →
      Decidable (AtEveryEvent p source events)
  | _, [] => inferInstanceAs (Decidable True)
  | source, event :: events =>
      haveI := AtEveryEvent.decidable (p := p) (plbEventListener source event).1 events
      inferInstanceAs (Decidable (_ ∧ _))

theorem AtEveryEvent.before [Zero P] {p : PlbSource P S → OrderEvent P S → Prop}
    {before events : List (OrderEvent P S)} (h : AtEveryEvent p source events)
    (hbefore : before <+: events) : AtEveryEvent p source before := by
  induction before generalizing source events with
  | nil => trivial
  | cons event before ih =>
      obtain ⟨after, rfl⟩ := hbefore
      exact ⟨h.1, ih h.2 ⟨after, rfl⟩⟩

/-- A run whose events keep the sides is mirrored by the run without the orders of undefined
side. -/
theorem Mirrors.run [Zero P] {events : List (OrderEvent P S)} (h : Mirrors source source')
    (hs : SourceOrdered source) (hkeeps : AtEveryEvent KeepsSidesAt source events) :
    Mirrors (runListener source events) (runWithoutUndefined source' events) := by
  induction events generalizing source source' with
  | nil => exact h
  | cons event events ih => exact ih (h.listener hs hkeeps.1) (hs.listener event) hkeeps.2

/-- If the flags of the deleted orders are neutral, their events may be left out altogether. -/
theorem Mirrors.run_filter [Zero P] {events : List (OrderEvent P S)} (h : Mirrors source source')
    (hs : SourceOrdered source) (hs' : SourceOrdered source')
    (hkeeps : AtEveryEvent KeepsSidesAt source events)
    (hneutral : AtEveryEvent FlagsNeutral source events) :
    Mirrors (runListener source events)
      (runListener source' (events.filter fun event => event.order.Sided)) := by
  induction events generalizing source source' with
  | nil => exact h
  | cons event events ih =>
      have hstep := h.listener hs hkeeps.1
      by_cases hsided : event.order.Sided
      · rw [List.filter_cons_of_pos (by simpa using hsided)]
        rw [listenWithoutUndefined, if_pos hsided] at hstep
        exact ih hstep (hs.listener event) (hs'.listener event) hkeeps.2 hneutral.2
      · have hside : event.order.side = .undefined := not_not.mp hsided
        rw [List.filter_cons_of_neg (by simpa using hsided)]
        rw [listenWithoutUndefined_of_neutral hs' hside fun _ => h.status_eq ▸ hneutral.1 hside]
          at hstep
        exact ih hstep (hs.listener event) hs' hkeeps.2 hneutral.2

end Runs

/-! ### Orders of undefined side -/

variable [LinearOrder P] [AddCommGroup S] [LinearOrder S]

/-- In every run in which each event keeps the sides where it comes, the published levels are at
any time those of the run without the orders of undefined side: the flags of their events may
stay, and if these are neutral, the events may be left out. -/
theorem publishedLevels_without_undefined [Zero P] (symbol src : String)
    (events : List (OrderEvent P S))
    (hkeeps : AtEveryEvent KeepsSidesAt (plbSourceCreate symbol src) events)
    (before : List (OrderEvent P S)) (hbefore : before <+: events) :
    (runListener (plbSourceCreate symbol src) before).publishedLevels =
        (runWithoutUndefined (plbSourceCreate symbol src) before).publishedLevels ∧
      (AtEveryEvent FlagsNeutral (plbSourceCreate symbol src) before →
        (runListener (plbSourceCreate symbol src) before).publishedLevels =
          (runListener (plbSourceCreate symbol src)
            (before.filter fun event => event.order.Sided)).publishedLevels) := by
  have hordered := plbSourceCreate_ordered (P := P) (S := S) symbol src
  have hkeeps' := hkeeps.before hbefore
  constructor
  · exact ((mirrors_create symbol src).run hordered hkeeps').publishedLevels_eq
  · intro hneutral
    exact ((mirrors_create symbol src).run_filter hordered hordered hkeeps'
      hneutral).publishedLevels_eq

/-- Ten sell orders, an order of side 3 behind them, and its removal. -/
def eventsBehindAsks : List (OrderEvent ℤ ℤ) :=
  (List.range 10).map (fun i => sampleEvent "NTV" .sell i (100 + i) 5 0) ++
    [sampleEvent "NTV" (orderGetSide 0x0C) 10 200 3 0, sampleEvent "NTV" .undefined 10 200 0 0]

theorem publishedLevels_eventsBehindAsks :
    (runListener (plbSourceCreate "IBM" "NTV") eventsBehindAsks).publishedLevels =
      (runListener (plbSourceCreate "IBM" "NTV")
        (eventsBehindAsks.filter fun event => event.order.Sided)).publishedLevels :=
  (publishedLevels_without_undefined "IBM" "NTV" eventsBehindAsks (by decide +kernel)
    eventsBehindAsks List.prefix_rfl).2 (by decide +kernel)

/-- A single order of side 3 is published as a level of the asks. -/
theorem publishedLevels_undefined_ne :
    (runListener (plbSourceCreate "IBM" "NTV")
        [sampleEvent "NTV" (orderGetSide 0x0C) 1 100 5 0]).publishedLevels ≠
      (runListener (plbSourceCreate "IBM" "NTV")
        ([sampleEvent "NTV" (orderGetSide 0x0C) 1 100 5 0].filter fun event =>
          event.order.Sided)).publishedLevels := by
  decide +kernel

end DxFeed.PriceLevelBook
