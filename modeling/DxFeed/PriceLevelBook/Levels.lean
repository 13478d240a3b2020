import DxFeed.EventData

/-!
# Price level sides

The top-ten array of one side of a price level source, and the three functions that
change it: `dx_plb_source_add_order_to_levels`, `dx_plb_source_remove_order_from_levels`
and `dx_plb_source_rebuild_levels`.

* `Order`, `PriceLevelElement`, `PriceLevelSide`: the fields of the source that are read;
* `volume rank side orders`: how much the orders of a side offer at each price, as a
  function on ranks (`rank` sends a better price to a smaller rank);
* `Ranked rank vol ob`: the array holds the ten best prices of positive volume;
* `addOrder_ranked`, `removeOrder_ranked`: the incremental updates keep `Ranked`, or ask
  for a rebuild; `rebuildLevels_ranked`: a rebuild establishes it.

Prices and sizes are exact: a linear order, and an ordered additive group.
-/

namespace DxFeed.PriceLevelBook

open SortedList

/-- `MAX_PRICE_LEVELS`. -/
def maxPriceLevels : ℕ := 10

/-- The fields of `dxf_order_t` that the price level book reads. -/
structure Order (P S : Type*) where
  source : String
  index : ℤ
  time : ℤ
  price : P
  size : S
  side : OrderSide
  deriving DecidableEq

/-- `dxf_price_level_element_t`. -/
structure PriceLevelElement (P S : Type*) where
  price : P
  size : S
  time : ℤ
  deriving DecidableEq

/-- `dx_plb_price_level_side_t`: the first `count` elements of `levels`, and the two marks.
The comparator `cmp` is fixed when the side is created and is an argument below. -/
structure PriceLevelSide (P S : Type*) where
  levels : List (PriceLevelElement P S)
  rebuild : Bool
  updated : Bool
  deriving DecidableEq

variable {P S κ : Type*}

/-- A zeroed side. -/
def PriceLevelSide.empty : PriceLevelSide P S where
  levels := []
  rebuild := false
  updated := false

/-- `dx_memset(levels, 0, …)` and `count = 0`; the marks stay. -/
def PriceLevelSide.clear (ob : PriceLevelSide P S) : PriceLevelSide P S :=
  { ob with levels := [] }

/-- The type of the member `cmp` of a side. -/
abbrev LevelComparator (P S : Type*) := PriceLevelElement P S → PriceLevelElement P S → ℤ

/-- `dx_plb_pricelvel_comparator_ask`. -/
def plbPricelvelComparatorAsk [LinearOrder P] : LevelComparator P S :=
  fun p1 p2 => numericComparator p1.price p2.price

/-- `dx_plb_pricelvel_comparator_bid`. -/
def plbPricelvelComparatorBid [LinearOrder P] : LevelComparator P S :=
  fun p1 p2 => numericComparator p2.price p1.price

/-- The key of a search: `{ order->price, 0, 0 }`. -/
def Order.levelKey [Zero S] (order : Order P S) : PriceLevelElement P S where
  price := order.price
  size := 0
  time := 0

/-- A level of a single order. -/
def Order.level (order : Order P S) : PriceLevelElement P S where
  price := order.price
  size := order.size
  time := order.time

section Definitions

variable [AddCommGroup S] [LinearOrder S]

/-- `dx_plb_source_remove_order_from_levels`. -/
def plbSourceRemoveOrderFromLevels (cmp : LevelComparator P S) (ob : PriceLevelSide P S)
    (order : Order P S) : PriceLevelSide P S :=
  let search := binarySearch ob.levels 0 ob.levels.length order.levelKey cmp
  if search.1 then
    match ob.levels[search.2]? with
    | none => ob
    | some level =>
        let level' := { level with size := level.size - order.size, time := order.time }
        { levels := ob.levels.set search.2 level'
          rebuild := ob.rebuild || decide (level'.size ≤ 0)
          updated := true }
  else ob

/-- `dx_plb_source_add_order_to_levels`. -/
def plbSourceAddOrderToLevels (cmp : LevelComparator P S) (ob : PriceLevelSide P S)
    (order : Order P S) : PriceLevelSide P S :=
  let count := ob.levels.length
  let search := binarySearch ob.levels 0 count order.levelKey cmp
  let pos := search.2
  if search.1 then
    match ob.levels[pos]? with
    | none => ob
    | some level =>
        let level' := { level with size := level.size + order.size, time := order.time }
        { ob with levels := ob.levels.set pos level', updated := true }
  else if pos < count ∧ count = maxPriceLevels then
    -- the last level falls out of the array
    { ob with
      levels := ob.levels.take pos ++ order.level :: (ob.levels.drop pos).take (count - pos - 1)
      updated := true }
  else if count < maxPriceLevels then
    { ob with
      levels := ob.levels.take pos ++ order.level :: ob.levels.drop pos
      updated := true }
  else ob

/-- One iteration of the loop of `dx_plb_source_rebuild_levels`. -/
def rebuildStep (cmp : LevelComparator P S) (side : OrderSide) (ob : PriceLevelSide P S)
    (order : Order P S) : PriceLevelSide P S :=
  if order.side ≠ side ∨ order.size = 0 then ob
  else plbSourceAddOrderToLevels cmp ob order

/-- `dx_plb_source_rebuild_levels`. -/
def plbSourceRebuildLevels (cmp : LevelComparator P S) (snapshot : List (Order P S))
    (ob : PriceLevelSide P S) (side : OrderSide) : PriceLevelSide P S :=
  let ob := snapshot.foldl (rebuildStep cmp side) ob.clear
  { ob with rebuild := false, updated := true }

end Definitions

/-! ### Volumes -/

section Volume

variable [AddCommGroup S] [DecidableEq κ]

/-- What one order offers on a side: its size at its price. -/
def offer (rank : P → κ) (side : OrderSide) (order : Order P S) : κ → S :=
  if order.side = side then Pi.single (rank order.price) order.size else 0

/-- The total size the orders of a side offer at each price. -/
def volume (rank : P → κ) (side : OrderSide) (orders : List (Order P S)) : κ → S :=
  (orders.map (offer rank side)).sum

variable {rank : P → κ} {side : OrderSide} {order : Order P S} {orders l₁ l₂ : List (Order P S)}

@[simp] theorem volume_nil : volume rank side ([] : List (Order P S)) = 0 := rfl

@[simp] theorem volume_cons :
    volume rank side (order :: orders) = offer rank side order + volume rank side orders := by
  simp [volume]

theorem volume_append :
    volume rank side (l₁ ++ l₂) = volume rank side l₁ + volume rank side l₂ := by
  simp [volume]

/-- An order contributes its offer wherever it stands in the list. -/
theorem volume_middle : volume rank side (l₁ ++ order :: l₂) =
    volume rank side (l₁ ++ l₂) + offer rank side order := by
  rw [volume_append, volume_cons, volume_append]
  abel

theorem offer_of_side (h : order.side = side) :
    offer rank side order = Pi.single (rank order.price) order.size := if_pos h

theorem offer_of_ne (h : order.side ≠ side) : offer rank side order = 0 := if_neg h

variable [LinearOrder S]

theorem offer_nonneg (h : 0 ≤ order.size) : 0 ≤ offer rank side order := by
  unfold offer
  split_ifs
  · exact Pi.single_nonneg.mpr h
  · exact le_rfl

theorem volume_nonneg [IsOrderedAddMonoid S] (h : ∀ o ∈ orders, 0 ≤ o.size) :
    0 ≤ volume rank side orders := by
  induction orders with
  | nil => simp
  | cons o orders ih =>
      rw [volume_cons]
      exact add_nonneg (offer_nonneg (h o (by simp))) (ih fun o' ho' => h o' (by simp [ho']))

end Volume

section Positive

variable [AddCommGroup S] [LinearOrder S]

/-- A volume seen as a finite map: the ranks of positive volume. -/
def positive (vol : κ → S) (k : κ) : Option S :=
  if 0 < vol k then some (vol k) else none

variable {vol : κ → S} {k : κ}

theorem positive_eq_some {v : S} : positive vol k = some v ↔ 0 < vol k ∧ vol k = v := by
  simp [positive]

theorem positive_eq_none : positive vol k = none ↔ vol k ≤ 0 := by
  simp [positive]

theorem positive_zero : positive (0 : κ → S) = fun _ => none := by
  funext k
  simp [positive]

/-- Changing the volume at one rank updates the finite map there. -/
theorem positive_add_single [DecidableEq κ] (vol : κ → S) (k : κ) (s : S) :
    positive (vol + Pi.single k s) =
      Function.update (positive vol) k (if 0 < vol k + s then some (vol k + s) else none) := by
  funext j
  by_cases hj : j = k
  · subst hj; simp [positive]
  · simp [positive, hj]

end Positive

/-! ### The array ranks the volumes -/

section Ranked

/-- The (rank, size) pairs of an array of levels. -/
def rankedLevels (rank : P → κ) (levels : List (PriceLevelElement P S)) : List (κ × S) :=
  levels.map fun e => (rank e.price, e.size)

@[simp] theorem rankedLevels_append (rank : P → κ) (l₁ l₂ : List (PriceLevelElement P S)) :
    rankedLevels rank (l₁ ++ l₂) = rankedLevels rank l₁ ++ rankedLevels rank l₂ := by
  simp [rankedLevels]

@[simp] theorem rankedLevels_cons (rank : P → κ) (e : PriceLevelElement P S)
    (l : List (PriceLevelElement P S)) :
    rankedLevels rank (e :: l) = (rank e.price, e.size) :: rankedLevels rank l := rfl

@[simp] theorem rankedLevels_length (rank : P → κ) (l : List (PriceLevelElement P S)) :
    (rankedLevels rank l).length = l.length := by
  simp [rankedLevels]

theorem rankedLevels_take (rank : P → κ) (l : List (PriceLevelElement P S)) (n : ℕ) :
    rankedLevels rank (l.take n) = (rankedLevels rank l).take n := by
  simp [rankedLevels]

variable [LinearOrder κ] {rank : P → κ} {cmp : LevelComparator P S} {vol : κ → S}
  {ob : PriceLevelSide P S} {order : Order P S}

theorem keySorted_rankedLevels {levels : List (PriceLevelElement P S)} :
    KeySorted Prod.fst (rankedLevels rank levels) ↔
      KeySorted (fun e : PriceLevelElement P S => rank e.price) levels := by
  simp only [KeySorted, rankedLevels, List.pairwise_map]

variable [AddCommGroup S]

/-- What the search of a level by price answers on a sorted array. -/
theorem levelSearch_located (order : Order P S) {levels : List (PriceLevelElement P S)}
    (hcmp : Orders cmp fun e => rank e.price)
    (hs : KeySorted (fun e : PriceLevelElement P S => rank e.price) levels) :
    Located (fun e : PriceLevelElement P S => rank e.price) (rank order.price) levels
      (binarySearch levels 0 levels.length order.levelKey cmp).1
      (binarySearch levels 0 levels.length order.levelKey cmp).2 :=
  binarySearch_located_full order.levelKey hcmp hs

/-- When the price is not listed, every branch of `dx_plb_source_add_order_to_levels` inserts
the level in its place and cuts the array back to ten levels. -/
theorem addOrder_levels_of_missing {l₁ l₂ : List (PriceLevelElement P S)} {rebuild updated : Bool}
    (hlen : (l₁ ++ l₂).length ≤ maxPriceLevels)
    (hsearch : binarySearch (l₁ ++ l₂) 0 (l₁ ++ l₂).length order.levelKey cmp =
      (false, l₁.length)) :
    (plbSourceAddOrderToLevels cmp ⟨l₁ ++ l₂, rebuild, updated⟩ order).levels =
      (l₁ ++ order.level :: l₂).take maxPriceLevels := by
  unfold plbSourceAddOrderToLevels
  rw [List.length_append] at hlen hsearch
  simp only [List.length_append, hsearch, Bool.false_eq_true, if_false, List.take_left, List.drop_left]
  split_ifs with hfull hroom
  · obtain ⟨hlt, hmax⟩ := hfull
    rw [← hmax, List.take_length_add_append, Nat.add_sub_cancel_left]
    obtain ⟨n, hn⟩ : ∃ n, l₂.length = n + 1 := ⟨l₂.length - 1, by omega⟩
    simp [hn]
  · rw [List.take_of_length_le]
    simp only [List.length_append, List.length_cons]
    omega
  · obtain rfl : l₂ = [] := List.eq_nil_of_length_eq_zero (by omega)
    rw [List.append_nil, List.take_append_of_le_length (by simp at hroom; omega),
      List.take_of_length_le (by simpa using hlen)]

variable [LinearOrder S]

/-- The array lists the ten best ranks of positive volume with their volumes. -/
def Ranked (rank : P → κ) (vol : κ → S) (ob : PriceLevelSide P S) : Prop :=
  IsBest maxPriceLevels (positive vol) (rankedLevels rank ob.levels)

theorem ranked_clear : Ranked rank (0 : κ → S) ob.clear := by
  rw [Ranked, positive_zero]
  exact isBest_empty _

theorem Ranked.keySorted (h : Ranked rank vol ob) :
    KeySorted (fun e : PriceLevelElement P S => rank e.price) ob.levels :=
  keySorted_rankedLevels.mp h.sorted

/-- Changing the size of a listed level by `s` changes the volume at its price by `s`. -/
theorem ranked_change_size {l₁ l₂ : List (PriceLevelElement P S)} {x y : PriceLevelElement P S}
    {rebuild updated rebuild' updated' : Bool} {s : S}
    (h : Ranked rank vol ⟨l₁ ++ x :: l₂, rebuild, updated⟩) (hprice : y.price = x.price)
    (hsize : y.size = x.size + s) (hpos : 0 < y.size) :
    Ranked rank (vol + Pi.single (rank x.price) s) ⟨l₁ ++ y :: l₂, rebuild', updated'⟩ := by
  unfold Ranked at h ⊢
  simp only [rankedLevels_append, rankedLevels_cons] at h ⊢
  have hx : vol (rank x.price) = x.size := (positive_eq_some.mp h.eq_some_of_mem).2
  have hy : 0 < vol (rank x.price) + s := by rwa [hx, ← hsize]
  rw [positive_add_single, if_pos hy, hx, ← hsize, hprice]
  exact h.update_listed y.size

/-- `dx_plb_source_remove_order_from_levels` accounts for one order less, unless it asks for
a rebuild. -/
theorem removeOrder_ranked (hcmp : Orders cmp fun e => rank e.price) (h : Ranked rank vol ob)
    (hsize : 0 < order.size) (hle : order.size ≤ vol (rank order.price)) :
    (plbSourceRemoveOrderFromLevels cmp ob order).rebuild = true ∨
      Ranked rank (vol - Pi.single (rank order.price) order.size)
        (plbSourceRemoveOrderFromLevels cmp ob order) := by
  obtain ⟨levels, rebuild, updated⟩ := ob
  have hloc := levelSearch_located order hcmp h.keySorted
  have hsub : vol - Pi.single (rank order.price) order.size =
      vol + Pi.single (rank order.price) (-order.size) := by
    rw [Pi.single_neg, sub_eq_add_neg]
  dsimp only at hloc
  generalize hsearch : binarySearch levels 0 levels.length order.levelKey cmp = search at hloc
  obtain ⟨found, pos⟩ := search
  unfold plbSourceRemoveOrderFromLevels
  rw [hsub]
  cases hloc with
  | found l₁ x l₂ hx =>
      simp only [hsearch, if_true, getElem?_append_cons, set_append_cons]
      by_cases hzero : x.size - order.size ≤ 0
      · exact Or.inl (by simp [hzero])
      · right
        rw [← hx]
        exact ranked_change_size h rfl (sub_eq_add_neg _ _) (not_le.mp hzero)
  | missing l₁ l₂ h₁ h₂ =>
      right
      simp only [hsearch, Bool.false_eq_true, if_false]
      have hb : IsBest maxPriceLevels (positive vol)
          (rankedLevels rank l₁ ++ rankedLevels rank l₂) := by
        simpa [Ranked] using h
      have h₁' : ∀ e ∈ rankedLevels rank l₁, e.1 < rank order.price := by
        simpa [rankedLevels] using h₁
      have h₂' : ∀ e ∈ rankedLevels rank l₂, rank order.price < e.1 := by
        simpa [rankedLevels] using h₂
      rcases hb.missing h₁' h₂' with hnone | ⟨hfull, hnil⟩
      · exact absurd (hsize.trans_le hle) (not_lt.mpr (positive_eq_none.mp hnone))
      · rw [hnil, List.append_nil] at hb hfull
        rw [Ranked, rankedLevels_append, hnil, List.append_nil, positive_add_single]
        exact hb.update_beyond hfull h₁' _

variable [IsOrderedAddMonoid S]

/-- `dx_plb_source_add_order_to_levels` accounts for one more order. -/
theorem addOrder_ranked (hcmp : Orders cmp fun e => rank e.price) (h : Ranked rank vol ob)
    (hvol : 0 ≤ vol) (hsize : 0 < order.size) :
    Ranked rank (vol + Pi.single (rank order.price) order.size)
      (plbSourceAddOrderToLevels cmp ob order) := by
  obtain ⟨levels, rebuild, updated⟩ := ob
  have hloc := levelSearch_located order hcmp h.keySorted
  have hpos : 0 < vol (rank order.price) + order.size :=
    add_pos_of_nonneg_of_pos (hvol _) hsize
  dsimp only at hloc
  generalize hsearch : binarySearch levels 0 levels.length order.levelKey cmp = search at hloc
  obtain ⟨found, pos⟩ := search
  cases hloc with
  | found l₁ x l₂ hx =>
      have hentry : positive vol (rank x.price) = some x.size :=
        h.entry (rank x.price, x.size) (by simp)
      have hx0 : 0 < x.size := by
        obtain ⟨hv, he⟩ := positive_eq_some.mp hentry
        rwa [he] at hv
      unfold plbSourceAddOrderToLevels
      simp only [hsearch, if_true, getElem?_append_cons, set_append_cons]
      rw [← hx]
      exact ranked_change_size h rfl rfl (add_pos hx0 hsize)
  | missing l₁ l₂ h₁ h₂ =>
      have hb : IsBest maxPriceLevels (positive vol)
          (rankedLevels rank l₁ ++ rankedLevels rank l₂) := by
        simpa [Ranked] using h
      have h₁' : ∀ e ∈ rankedLevels rank l₁, e.1 < rank order.price := by
        simpa [rankedLevels] using h₁
      have h₂' : ∀ e ∈ rankedLevels rank l₂, rank order.price < e.1 := by
        simpa [rankedLevels] using h₂
      have hlen : (l₁ ++ l₂).length ≤ maxPriceLevels := by simpa using hb.length_le
      rw [Ranked, addOrder_levels_of_missing hlen hsearch, positive_add_single, if_pos hpos,
        rankedLevels_take, rankedLevels_append, rankedLevels_cons]
      rcases hb.missing h₁' h₂' with hnone | ⟨hfull, hnil⟩
      · have hzero : vol (rank order.price) = 0 :=
          le_antisymm (positive_eq_none.mp hnone) (hvol _)
        rw [hzero, zero_add]
        exact hb.insert hnone h₁' h₂' order.size
      · -- the array is full of better prices, and the new level is cut off
        rw [hnil, List.append_nil] at hb hfull
        rw [hnil, List.take_append_of_le_length hfull.ge, List.take_of_length_le hfull.le]
        exact hb.update_beyond hfull h₁' _

/-- The loop of `dx_plb_source_rebuild_levels` sums the offers of the side. -/
theorem rebuildLoop_ranked (hcmp : Orders cmp fun e => rank e.price) (side : OrderSide)
    (snapshot : List (Order P S)) (hsizes : ∀ o ∈ snapshot, 0 ≤ o.size) :
    ∀ {vol : κ → S} {ob : PriceLevelSide P S}, 0 ≤ vol → Ranked rank vol ob →
      Ranked rank (vol + volume rank side snapshot) (snapshot.foldl (rebuildStep cmp side) ob) := by
  induction snapshot with
  | nil =>
      intro vol ob _ h
      simpa using h
  | cons o snapshot ih =>
      intro vol ob hvol h
      have ho : 0 ≤ o.size := hsizes o (by simp)
      rw [List.foldl_cons, volume_cons, ← add_assoc]
      refine ih (fun o' ho' => hsizes o' (by simp [ho'])) (add_nonneg hvol (offer_nonneg ho)) ?_
      unfold rebuildStep
      split_ifs with hskip
      · rcases hskip with hside | hzero
        · rwa [offer_of_ne hside, add_zero]
        · unfold offer
          rw [hzero, Pi.single_zero, ite_self, add_zero]
          exact h
      · push Not at hskip
        rw [offer_of_side hskip.1]
        exact addOrder_ranked hcmp h hvol (lt_of_le_of_ne ho (Ne.symm hskip.2))

/-- `dx_plb_source_rebuild_levels` lists the ten best prices of the snapshot. -/
theorem rebuildLevels_ranked (hcmp : Orders cmp fun e => rank e.price) (side : OrderSide)
    {snapshot : List (Order P S)} (hsizes : ∀ o ∈ snapshot, 0 ≤ o.size)
    (ob : PriceLevelSide P S) :
    Ranked rank (volume rank side snapshot) (plbSourceRebuildLevels cmp snapshot ob side) := by
  have hclear : Ranked rank (0 : κ → S) ob.clear := ranked_clear
  have h := rebuildLoop_ranked hcmp side snapshot hsizes le_rfl hclear
  rwa [zero_add] at h

end Ranked

end DxFeed.PriceLevelBook
