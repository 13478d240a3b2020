import DxFeed.PriceLevelBook.Current

/-!
# The best prices of all sources

`dx_plb_book_update_one_side` starts every round at `0.0` for the bids and at `1.0E38` for the asks.

* `bestPrices`: the at most ten best distinct prices of some levels;
* `mergedLevels_eq_bestMerge_iff`: the start value hides a level of the merge exactly if one of them
  is not admissible;
* `plbBookUpdateOneSide_hasBest_iff`: when the asks, and when the bids, are the best prices.
-/

namespace DxFeed.PriceLevelBook

open SortedList

variable {P S κ : Type*}

section Merged

theorem combine_time_nonneg_iff [AddCommGroup S] {es : List (PriceLevelElement P S)} {s : S} {t : ℤ}
    (h : combine es = some (s, t)) : 0 ≤ t ↔ ∃ e ∈ es, 0 ≤ e.time := by
  induction es generalizing s t with
  | nil => exact nomatch h
  | cons e es ih =>
      rw [combine] at h
      cases hes : combine es with
      | none =>
          rw [hes] at h
          obtain ⟨-, rfl⟩ := Prod.mk.inj (Option.some.inj h)
          rw [combine_eq_none.mp hes]
          simp
      | some st =>
          rw [hes] at h
          obtain ⟨-, rfl⟩ := Prod.mk.inj (Option.some.inj h)
          rw [le_max_iff, ih hes]
          simp

theorem combine_size_pos [AddCommGroup S] [LinearOrder S] [IsOrderedAddMonoid S]
    {es : List (PriceLevelElement P S)} {s : S} {t : ℤ} (h : combine es = some (s, t))
    (hpos : ∀ e ∈ es, 0 < e.size) : 0 < s := by
  induction es generalizing s t with
  | nil => exact nomatch h
  | cons e es ih =>
      obtain ⟨he, hes⟩ := List.forall_mem_cons.mp hpos
      rw [combine] at h
      cases hcombine : combine es with
      | none =>
          rw [hcombine] at h
          obtain ⟨rfl, -⟩ := Prod.mk.inj (Option.some.inj h)
          exact he
      | some st =>
          rw [hcombine] at h
          obtain ⟨rfl, -⟩ := Prod.mk.inj (Option.some.inj h)
          exact add_pos he (ih hcombine hes)

variable [LinearOrder κ] [DecidableEq P] {rank : P → κ} {startValue : P}
  {levels : List (PriceLevelElement P S)}

/-- The at most ten best distinct prices of some levels, best first. -/
def bestPrices (rank : P → κ) (levels : List (PriceLevelElement P S)) : List P :=
  (sortedDistinct rank (levels.map PriceLevelElement.price)).take maxPriceLevels

theorem mem_prices_of_bestPrices {p : P} (h : p ∈ bestPrices rank levels) :
    ∃ e ∈ levels, e.price = p := by
  have hmem := List.mem_of_mem_take h
  rw [mem_sortedDistinct] at hmem
  exact List.mem_map.mp hmem

variable [AddCommGroup S]

theorem length_bestMerge :
    (bestMerge rank levels).length =
      min maxPriceLevels (levels.map PriceLevelElement.price).dedup.length := by
  rw [bestMerge, List.length_map, List.length_take, sortedDistinct, List.length_insertionSort]

variable [DecidableEq S]

/-- A merge up to a start value has admissible levels only. -/
theorem admissible_of_mem_mergedLevels (hrank : Function.Injective rank)
    {e : PriceLevelElement P S} (he : e ∈ mergedLevels rank startValue levels) :
    Admissible rank startValue e := by
  have hsize : e.size ≠ 0 := by
    have hall := List.all_takeWhile (p := fun e : PriceLevelElement P S => decide (e.size ≠ 0))
      (l := bestMerge rank (boundedLevels rank startValue levels))
    simpa using List.all_eq_true.mp hall e he
  have hmem := (List.takeWhile_prefix _).subset he
  have hentry := (bestMerge_isBest hrank (boundedLevels rank startValue levels)).entry _
    (List.mem_map_of_mem hmem)
  dsimp only [levelEntry] at hentry
  refine ⟨hsize, ?_⟩
  rcases lt_trichotomy (rank e.price) (rank startValue) with hlt | heq | hgt
  · exact Or.inl hlt
  · right
    refine ⟨hrank heq, ?_⟩
    -- the start level takes part in this level
    rw [heq, mergedAt_bounded_start] at hentry
    cases hat : mergedAt rank levels (rank startValue) with
    | none =>
        rw [hat] at hentry
        exact (congrArg Prod.snd (Option.some.inj hentry)).le
    | some st =>
        rw [hat] at hentry
        have htime : max 0 st.2 = e.time := congrArg Prod.snd (Option.some.inj hentry)
        rw [← htime]
        exact le_max_left 0 st.2
  · rw [mergedAt_bounded_of_gt hgt] at hentry
    exact nomatch hentry

/-- The start value changes nothing if and only if it hides no level of the merge. -/
theorem mergedLevels_eq_bestMerge_iff (hrank : Function.Injective rank) :
    mergedLevels rank startValue levels = bestMerge rank levels ↔
      ∀ e ∈ bestMerge rank levels, Admissible rank startValue e := by
  constructor
  · intro heq e he
    rw [← heq] at he
    exact admissible_of_mem_mergedLevels hrank he
  · exact mergedLevels_eq_bestMerge hrank

end Merged

section Positive

variable [LinearOrder κ] [DecidableEq P] [AddCommGroup S] [LinearOrder S] [IsOrderedAddMonoid S]
  {rank : P → κ} {startValue : P} {levels : List (PriceLevelElement P S)}

/-- A price of levels with positive sizes is admissible if it is better than the start value, or is
the start value and not older than the start level. -/
theorem admissible_levelAt_iff {p : P} (hp : ∃ e ∈ levels, e.price = p)
    (hsizes : ∀ e ∈ levels, 0 < e.size) :
    Admissible rank startValue (levelAt levels p) ↔
      rank p < rank startValue ∨ p = startValue ∧ ∃ e ∈ levels, e.price = p ∧ 0 ≤ e.time := by
  cases hat : combine (levels.filter fun e => e.price = p) with
  | none =>
      obtain ⟨e, he, hep⟩ := hp
      have hnot := List.filter_eq_nil_iff.mp (combine_eq_none.mp hat) e he
      exact absurd (decide_eq_true hep) hnot
  | some st =>
      have hlevel : levelAt levels p = ⟨p, st.1, st.2⟩ := by rw [levelAt, hat]
      have hsize : 0 < st.1 :=
        combine_size_pos hat fun e he => hsizes e (List.mem_of_mem_filter he)
      have htime := combine_time_nonneg_iff hat
      simp only [List.mem_filter, decide_eq_true_eq, and_assoc] at htime
      rw [hlevel, ← htime]
      exact ⟨fun h => h.within, fun h => ⟨hsize.ne', h⟩⟩

/-- The side has the best at most ten distinct prices over all sources, best first, each with the
sum of the sizes and the latest time of its levels, and as many as there are. -/
structure HasBest (rank : P → κ) (side : BookSide P S) (srcs : List (PriceLevelSide P S)) :
    Prop where
  levels : side.slots.take side.count = bestMerge rank (srcs.map PriceLevelSide.levels).flatten
  count : side.count = min maxPriceLevels
    ((srcs.map PriceLevelSide.levels).flatten.map PriceLevelElement.price).dedup.length

/-- `dx_plb_book_update_one_side` finds the best prices if and only if the start value hides none of
them. -/
theorem plbBookUpdateOneSide_hasBest {cmp : LevelComparator P S} {dst : BookSide P S}
    {srcs : List (PriceLevelSide P S)} (hrank : Function.Injective rank)
    (hcmp : Orders cmp fun e => rank e.price) (hslots : dst.slots.length = maxPriceLevels)
    (hs : ∀ src ∈ srcs, KeySorted (fun e : PriceLevelElement P S => rank e.price) src.levels)
    (hsizes : ∀ src ∈ srcs, ∀ e ∈ src.levels, 0 < e.size) :
    let levels := (srcs.map PriceLevelSide.levels).flatten
    HasBest rank (plbBookUpdateOneSide cmp dst srcs startValue).1 srcs ↔
      ∀ p ∈ bestPrices rank levels,
        rank p < rank startValue ∨ p = startValue ∧ ∃ e ∈ levels, e.price = p ∧ 0 ≤ e.time := by
  intro levels
  have hpos : ∀ e ∈ levels, 0 < e.size := by
    intro e he
    obtain ⟨l, hl, hel⟩ := List.mem_flatten.mp he
    obtain ⟨src, hsrc, rfl⟩ := List.mem_map.mp hl
    exact hsizes src hsrc e hel
  have hadmissible : mergedLevels rank startValue levels = bestMerge rank levels ↔
      ∀ p ∈ bestPrices rank levels,
        rank p < rank startValue ∨ p = startValue ∧ ∃ e ∈ levels, e.price = p ∧ 0 ≤ e.time := by
    rw [mergedLevels_eq_bestMerge_iff hrank, bestMerge, List.forall_mem_map]
    refine forall₂_congr fun p hp => ?_
    exact admissible_levelAt_iff (mem_prices_of_bestPrices hp) hpos
  rw [← hadmissible, plbBookUpdateOneSide_spec hrank hcmp hslots hs]
  constructor
  · intro h
    simpa using h.levels
  · intro heq
    refine ⟨by simpa using heq, ?_⟩
    show (mergedLevels rank startValue levels).length = _
    rw [heq, length_bestMerge]

end Positive

section Sides

variable [AddCommGroupWithOne P] [LinearOrder P] [AddCommGroup S] [LinearOrder S]
  [IsOrderedAddMonoid S]

/-- Sources whose levels are sorted best first, with positive sizes and prices that are less than
`1.0E38` in absolute value. -/
structure RegularSources [LinearOrder κ] (rank : P → κ) (srcs : List (PriceLevelSide P S)) :
    Prop where
  sorted : ∀ src ∈ srcs, KeySorted (fun e : PriceLevelElement P S => rank e.price) src.levels
  sizes : ∀ src ∈ srcs, ∀ e ∈ src.levels, 0 < e.size
  prices : ∀ src ∈ srcs, ∀ e ∈ src.levels, |e.price| < asksStart

/-- The asks are the best prices, and the bids are if and only if none of their best prices is
negative, nor is zero and older than the start level. -/
theorem plbBookUpdateOneSide_hasBest_iff (dstBids dstAsks : BookSide P S)
    (srcBids srcAsks : List (PriceLevelSide P S))
    (hbidSlots : dstBids.slots.length = maxPriceLevels)
    (haskSlots : dstAsks.slots.length = maxPriceLevels)
    (hbids : RegularSources OrderDual.toDual srcBids) (hasks : RegularSources id srcAsks) :
    (HasBest OrderDual.toDual
        (plbBookUpdateOneSide plbPricelvelComparatorBid dstBids srcBids bidsStart).1 srcBids ↔
      ∀ p ∈ bestPrices OrderDual.toDual (srcBids.map PriceLevelSide.levels).flatten,
        0 < p ∨ p = 0 ∧ ∃ e ∈ (srcBids.map PriceLevelSide.levels).flatten,
          e.price = p ∧ 0 ≤ e.time) ∧
    HasBest id (plbBookUpdateOneSide plbPricelvelComparatorAsk dstAsks srcAsks asksStart).1
      srcAsks := by
  constructor
  · exact plbBookUpdateOneSide_hasBest OrderDual.toDual.injective comparatorBid_orders hbidSlots
      hbids.sorted hbids.sizes
  · refine (plbBookUpdateOneSide_hasBest Function.injective_id comparatorAsk_orders haskSlots
      hasks.sorted hasks.sizes).mpr fun p hp => Or.inl ?_
    obtain ⟨e, he, rfl⟩ := mem_prices_of_bestPrices hp
    obtain ⟨l, hl, hel⟩ := List.mem_flatten.mp he
    obtain ⟨src, hsrc, rfl⟩ := List.mem_map.mp hl
    exact (le_abs_self e.price).trans_lt (hasks.prices src hsrc e hel)

end Sides

/-- A source with one lot at one price. -/
def oneLevel (price : ℤ) : PriceLevelSide ℤ ℤ where
  levels := [⟨price, 1, 0⟩]
  rebuild := false
  updated := false

theorem regularSources_oneLevel [LinearOrder κ] (rank : ℤ → κ) {price : ℤ}
    (hprice : |price| < 10 ^ 38) : RegularSources rank [oneLevel price, oneLevel price] where
  sorted := by simp [oneLevel, KeySorted]
  sizes := by simp [oneLevel]
  prices := by simpa [oneLevel, asksStart] using hprice

theorem plbBookUpdateOneSide_hasBest_two :
    (HasBest OrderDual.toDual (plbBookUpdateOneSide plbPricelvelComparatorBid BookSide.zero
        [oneLevel 2, oneLevel 2] bidsStart).1 [oneLevel 2, oneLevel 2] ↔
      ∀ p ∈ bestPrices OrderDual.toDual
          ([oneLevel 2, oneLevel 2].map PriceLevelSide.levels).flatten,
        0 < p ∨ p = 0 ∧ ∃ e ∈ ([oneLevel 2, oneLevel 2].map PriceLevelSide.levels).flatten,
          e.price = p ∧ 0 ≤ e.time) ∧
    HasBest id (plbBookUpdateOneSide plbPricelvelComparatorAsk BookSide.zero
      [oneLevel (-3), oneLevel (-3)] asksStart).1 [oneLevel (-3), oneLevel (-3)] :=
  plbBookUpdateOneSide_hasBest_iff BookSide.zero BookSide.zero [oneLevel 2, oneLevel 2]
    [oneLevel (-3), oneLevel (-3)] List.length_replicate List.length_replicate
    (regularSources_oneLevel _ (by norm_num)) (regularSources_oneLevel _ (by norm_num))

/-- A bid at a negative price is never better than the start value. -/
theorem not_hasBest_negative :
    RegularSources OrderDual.toDual [oneLevel (-1), oneLevel (-1)] ∧
    ¬ HasBest OrderDual.toDual (plbBookUpdateOneSide plbPricelvelComparatorBid BookSide.zero
      [oneLevel (-1), oneLevel (-1)] bidsStart).1 [oneLevel (-1), oneLevel (-1)] := by
  refine ⟨regularSources_oneLevel _ (by norm_num), fun h => ?_⟩
  have hcount := h.count
  revert hcount
  decide

end DxFeed.PriceLevelBook
