import DxFeed.PriceLevelBook.Publication

/-!
# The order snapshot as a set

What `dx_plb_source_process_order` does to the stored orders, whatever place in the array the low
bits of an index point to.

* `storedOrders`: the orders of the snapshot, in which the array has no order any more;
* `deleteByIndex`, `upsertByIndex`, `clearByIndex`: plain operations on the orders by their index;
* `plainProcess`: the operation for an order and a removal flag;
* `plbSourceProcessOrder_plain`: on a sorted array, one order is this operation;
* `processOrders_plain`: every array that is reached is sorted, so every order is.
-/

namespace DxFeed.PriceLevelBook

open SortedList

variable {P S : Type*} [Zero P] [AddCommGroup S]

theorem clearedOrder_index (index : ℤ) : (clearedOrder index : Order P S).index = index := rfl

variable [LinearOrder S]

/-! ### Plain operations -/

/-- The orders with other indexes. -/
def deleteByIndex (stored : Set (Order P S)) (index : ℤ) : Set (Order P S) :=
  {o ∈ stored | o.index ≠ index}

/-- The order takes the place of the one with its index, if there is one. -/
def upsertByIndex (stored : Set (Order P S)) (order : Order P S) : Set (Order P S) :=
  insert order (deleteByIndex stored order.index)

/-- An empty order takes the place of the one with an index, if there is one. -/
def clearByIndex (stored : Set (Order P S)) (index : ℤ) : Set (Order P S) :=
  {o | o ∈ deleteByIndex stored index ∨ o = clearedOrder index ∧ ∃ o' ∈ stored, o'.index = index}

/-- The operation for an order and a removal flag. -/
def plainProcess (stored : Set (Order P S)) (order : Order P S) (rm : Bool) : Set (Order P S) :=
  if rm then deleteByIndex stored order.index
  else if order.size = 0 then clearByIndex stored order.index
  else upsertByIndex stored order

/-- The orders of the snapshot. -/
def storedOrders (source : PlbSource P S) : Set (Order P S) := {o | o ∈ source.snapshot}

/-! ### One order -/

variable {source : PlbSource P S} {order oo : Order P S} {snapshot l₁ l₂ : List (Order P S)}
  {rm : Bool}

/-- What an order does to the snapshot, once it is known where the search ends. -/
def processSnapshot (snapshot : List (Order P S)) (order : Order P S) (rm : Bool) :
    List (Order P S) :=
  let search := findOrder snapshot order
  if search.1 then
    if rm then arrayDelete snapshot search.2
    else if order.size = 0 then snapshot.set search.2 (clearedOrder order.index)
    else snapshot.set search.2 order
  else if rm = false ∧ order.size ≠ 0 then arrayInsert snapshot order search.2
  else snapshot

theorem processSnapshot_found (hs : KeySorted Order.index (l₁ ++ oo :: l₂))
    (hindex : oo.index = order.index) :
    processSnapshot (l₁ ++ oo :: l₂) order rm =
      if rm then l₁ ++ l₂
      else if order.size = 0 then l₁ ++ clearedOrder order.index :: l₂
      else l₁ ++ order :: l₂ := by
  obtain ⟨hfound, hplace⟩ := (findOrder_located hs order).eq_of_found hs rfl hindex
  unfold processSnapshot
  dsimp only
  rw [hfound, hplace]
  simp only [if_true, arrayDelete_append, set_append_cons]

theorem processSnapshot_missing (hs : KeySorted Order.index (l₁ ++ l₂))
    (h₁ : ∀ o ∈ l₁, o.index < order.index) (h₂ : ∀ o ∈ l₂, order.index < o.index) :
    processSnapshot (l₁ ++ l₂) order rm =
      if rm = false ∧ order.size ≠ 0 then l₁ ++ order :: l₂ else l₁ ++ l₂ := by
  obtain ⟨hfound, hplace⟩ := (findOrder_located hs order).eq_of_missing rfl h₁ h₂
  unfold processSnapshot
  dsimp only
  rw [hfound, hplace]
  simp only [Bool.false_eq_true, if_false, arrayInsert_append]

/-- The index is stored: the orders of other indexes stay, and one may take its place. -/
theorem processSnapshot_found_plain (hs : KeySorted Order.index (l₁ ++ oo :: l₂))
    (hindex : oo.index = order.index) :
    KeySorted Order.index (processSnapshot (l₁ ++ oo :: l₂) order rm) ∧
      {o | o ∈ processSnapshot (l₁ ++ oo :: l₂) order rm} =
        plainProcess {o | o ∈ l₁ ++ oo :: l₂} order rm := by
  have hdelete : {o | o ∈ l₁ ++ l₂} = deleteByIndex {o | o ∈ l₁ ++ oo :: l₂} order.index := by
    ext o
    rw [← hindex]
    exact hs.mem_erase_iff
  have hreplace : ∀ new : Order P S, {o | o ∈ l₁ ++ new :: l₂} =
      insert new (deleteByIndex {o | o ∈ l₁ ++ oo :: l₂} order.index) := by
    intro new
    rw [← hdelete]
    ext o
    simp only [Set.mem_ofPred_eq, Set.mem_insert_iff, List.mem_append, List.mem_cons]
    tauto
  rw [processSnapshot_found hs hindex, plainProcess]
  split_ifs with hrm hsize
  · exact ⟨hs.erase, hdelete⟩
  · refine ⟨hs.replace ((clearedOrder_index order.index).trans hindex.symm), ?_⟩
    rw [hreplace, clearByIndex]
    ext o
    have hstored : ∃ o' ∈ {o | o ∈ l₁ ++ oo :: l₂}, o'.index = order.index :=
      ⟨oo, List.mem_append_right _ List.mem_cons_self, hindex⟩
    constructor
    · rintro (rfl | ho)
      · exact Or.inr ⟨rfl, hstored⟩
      · exact Or.inl ho
    · rintro (ho | ⟨rfl, -⟩)
      · exact Or.inr ho
      · exact Or.inl rfl
  · exact ⟨hs.replace hindex.symm, hreplace order⟩

/-- The index is not stored: an order may be inserted. -/
theorem processSnapshot_missing_plain (hs : KeySorted Order.index (l₁ ++ l₂))
    (h₁ : ∀ o ∈ l₁, o.index < order.index) (h₂ : ∀ o ∈ l₂, order.index < o.index) :
    KeySorted Order.index (processSnapshot (l₁ ++ l₂) order rm) ∧
      {o | o ∈ processSnapshot (l₁ ++ l₂) order rm} =
        plainProcess {o | o ∈ l₁ ++ l₂} order rm := by
  have hne : ∀ o ∈ l₁ ++ l₂, o.index ≠ order.index := by
    intro o ho
    rcases List.mem_append.mp ho with ho | ho
    · exact (h₁ o ho).ne
    · exact (h₂ o ho).ne'
  have hdelete : deleteByIndex {o | o ∈ l₁ ++ l₂} order.index = {o | o ∈ l₁ ++ l₂} :=
    Set.sep_eq_self_iff_mem_true.mpr hne
  rw [processSnapshot_missing hs h₁ h₂, plainProcess]
  cases rm with
  | true =>
      rw [if_neg (by simp), if_pos rfl]
      exact ⟨hs, hdelete.symm⟩
  | false =>
      by_cases hsize : order.size = 0
      · rw [if_neg (by simp [hsize]), if_neg Bool.false_ne_true, if_pos hsize, clearByIndex, hdelete]
        refine ⟨hs, ?_⟩
        ext o
        constructor
        · exact Or.inl
        · rintro (ho | ⟨-, o', ho', hindex⟩)
          · exact ho
          · exact absurd hindex (hne o' ho')
      · rw [if_pos ⟨rfl, hsize⟩, if_neg Bool.false_ne_true, if_neg hsize, upsertByIndex, hdelete]
        refine ⟨hs.insert h₁ h₂, ?_⟩
        ext o
        simp only [Set.mem_ofPred_eq, Set.mem_insert_iff, List.mem_append, List.mem_cons]
        tauto

variable [LinearOrder P]

theorem plbSourceProcessOrder_snapshot (hs : KeySorted Order.index source.snapshot) :
    (plbSourceProcessOrder source order rm).snapshot = processSnapshot source.snapshot order rm := by
  have hloc := findOrder_located hs order
  unfold plbSourceProcessOrder processSnapshot
  dsimp only
  generalize hsearch : findOrder source.snapshot order = search at hloc ⊢
  obtain ⟨found, pos⟩ := search
  generalize hsnapshot : source.snapshot = snapshot at hloc ⊢
  cases hloc with
  | found l₁ oo l₂ hoo =>
      simp only [if_true, getElem?_append_cons]
      cases rm with
      | true => simp
      | false => split_ifs <;> simp_all
  | missing l₁ l₂ h₁ h₂ =>
      simp only [Bool.false_eq_true, if_false]
      split_ifs
      · exact addToLevels_snapshot
      · exact hsnapshot

/-- On a sorted snapshot `dx_plb_source_process_order` is the plain operation. -/
theorem plbSourceProcessOrder_plain (hs : KeySorted Order.index source.snapshot) :
    KeySorted Order.index (plbSourceProcessOrder source order rm).snapshot ∧
      storedOrders (plbSourceProcessOrder source order rm) =
        plainProcess (storedOrders source) order rm := by
  have hloc := findOrder_located hs order
  unfold storedOrders
  rw [plbSourceProcessOrder_snapshot hs]
  generalize findOrder source.snapshot order = search at hloc
  generalize source.snapshot = snapshot at hs hloc ⊢
  obtain ⟨found, pos⟩ := search
  cases hloc with
  | found l₁ oo l₂ hoo => exact processSnapshot_found_plain hs hoo
  | missing l₁ l₂ h₁ h₂ => exact processSnapshot_missing_plain hs h₁ h₂

/-! ### Runs -/

/-- Calls of `dx_plb_source_process_order`, with their removal flags. -/
def processOrders (source : PlbSource P S) (calls : List (Order P S × Bool)) : PlbSource P S :=
  calls.foldl (fun source call => plbSourceProcessOrder source call.1 call.2) source

theorem processOrders_sorted (hs : KeySorted Order.index source.snapshot)
    (calls : List (Order P S × Bool)) :
    KeySorted Order.index (processOrders source calls).snapshot := by
  induction calls generalizing source with
  | nil => exact hs
  | cons call calls ih => exact ih (plbSourceProcessOrder_plain hs).1

/-- After any calls from an empty snapshot, an order changes the set of the stored orders as the
plain operation does, and the array is sorted before and after. -/
theorem processOrders_plain (source : PlbSource P S) (calls : List (Order P S × Bool))
    (order : Order P S) (rm : Bool) :
    let reached := processOrders { source with snapshot := [] } calls
    KeySorted Order.index reached.snapshot ∧
      KeySorted Order.index (plbSourceProcessOrder reached order rm).snapshot ∧
      storedOrders (plbSourceProcessOrder reached order rm) =
        plainProcess (storedOrders reached) order rm := by
  intro reached
  have hs : KeySorted Order.index reached.snapshot := processOrders_sorted keySorted_nil calls
  exact ⟨hs, plbSourceProcessOrder_plain hs⟩

/-- A buy order with an index, at the price `5`. -/
def buyOrder (index size : ℤ) : Order ℤ ℤ where
  source := "NTV"
  index := index
  time := 0
  price := 5
  size := size
  side := .buy

/-- An order of size zero that is no removal: the stored order with its index neither is replaced by
it nor goes. -/
theorem processOrders_size_zero :
    let reached := processOrders (plbSourceCreate "IBM" "NTV") [(buyOrder 7 1, false)]
    storedOrders (plbSourceProcessOrder reached (buyOrder 7 0) false) ≠
        upsertByIndex (storedOrders reached) (buyOrder 7 0) ∧
      storedOrders (plbSourceProcessOrder reached (buyOrder 7 0) false) ≠
        deleteByIndex (storedOrders reached) 7 := by
  intro reached
  have hcleared : clearedOrder 7 ∈
      storedOrders (plbSourceProcessOrder reached (buyOrder 7 0) false) := by
    show clearedOrder 7 ∈ (plbSourceProcessOrder reached (buyOrder 7 0) false).snapshot
    decide +kernel
  constructor
  · intro heq
    rw [heq] at hcleared
    rcases hcleared with hsame | ⟨-, hindex⟩
    · exact absurd hsame (by decide)
    · exact hindex rfl
  · intro heq
    rw [heq] at hcleared
    exact hcleared.2 rfl

end DxFeed.PriceLevelBook
