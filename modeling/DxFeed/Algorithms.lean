import DxFeed.Library.SortedList

/-!
# The array algorithms of `DXAlgorithms.h`

* `numericComparator` (`DX_NUMERIC_COMPARATOR`) and the comparators built from it;
* `binarySearch` (`DX_ARRAY_BINARY_SEARCH`) with the loop of the macro;
* `arrayInsert`, `arrayDelete` (`DX_ARRAY_INSERT`, `DX_ARRAY_DELETE`) on the used part of
  an array; allocations succeed, so the capacity does not appear;
* `isFlagSet` (`IS_FLAG_SET`).

An array with a separate count is the list of its used elements.
-/

namespace DxFeed

open SortedList

variable {α κ : Type*}

/-- `DX_NUMERIC_COMPARATOR`. -/
def numericComparator [LinearOrder κ] (l r : κ) : ℤ :=
  if r < l then 1 else if l < r then -1 else 0

/-- The comparator orders elements by `key`. -/
structure Orders [LinearOrder κ] (comparator : α → α → ℤ) (key : α → κ) : Prop where
  zero_iff : ∀ a b, comparator a b = 0 ↔ key a = key b
  neg_iff : ∀ a b, comparator a b < 0 ↔ key a < key b

theorem Orders.pos_iff [LinearOrder κ] {comparator : α → α → ℤ} {key : α → κ}
    (h : Orders comparator key) (a b : α) : 0 < comparator a b ↔ key b < key a := by
  have h0 := h.zero_iff a b
  have hn := h.neg_iff a b
  rcases lt_trichotomy (key a) (key b) with hlt | heq | hgt
  · have := hn.mpr hlt
    exact ⟨fun hp => by omega, fun hp => absurd hp hlt.asymm⟩
  · have := h0.mpr heq
    exact ⟨fun hp => by omega, fun hp => absurd heq hp.ne'⟩
  · refine ⟨fun _ => hgt, fun _ => ?_⟩
    have h1 : comparator a b ≠ 0 := fun h => hgt.ne' (h0.mp h)
    have h2 : ¬ comparator a b < 0 := fun h => hgt.asymm (hn.mp h)
    omega

theorem numericComparator_orders [LinearOrder κ] (key : α → κ) :
    Orders (fun a b => numericComparator (key a) (key b)) key := by
  constructor
  · intro a b
    unfold numericComparator
    split_ifs with h₁ h₂
    · simp [h₁.ne']
    · simp [h₂.ne]
    · simp [le_antisymm (not_lt.mp h₁) (not_lt.mp h₂)]
  · intro a b
    unfold numericComparator
    split_ifs with h₁ h₂
    · simp [h₁.le]
    · simp [h₂]
    · simp [h₂]

/-! ### Binary search -/

/-- The `while (_begin < _end && !found)` loop of `DX_ARRAY_BINARY_SEARCH`.  The first
argument bounds the number of iterations. -/
def binarySearchLoop (a : List α) (elem : α) (comparator : α → α → ℤ) :
    ℕ → ℕ → ℕ → Bool × ℕ
  | 0, _, stop => (false, stop)
  | fuel + 1, start, stop =>
      if start < stop then
        let mid := (start + stop) / 2
        match a[mid]? with
        | none => (false, stop)
        | some x =>
            if comparator x elem = 0 then (true, mid)
            else if comparator x elem < 0 then
              binarySearchLoop a elem comparator fuel (mid + 1) stop
            else binarySearchLoop a elem comparator fuel start mid
      else (false, stop)

/-- `DX_ARRAY_BINARY_SEARCH(a, start, stop, elem, comparator, found, res_index)`: the pair
`(found, res_index)`. -/
def binarySearch (a : List α) (start stop : ℕ) (elem : α) (comparator : α → α → ℤ) :
    Bool × ℕ :=
  binarySearchLoop a elem comparator (stop - start) start stop

/-- `DX_ARRAY_INSERT`. -/
def arrayInsert (a : List α) (elem : α) (position : ℕ) : List α :=
  a.take position ++ elem :: a.drop position

/-- `DX_ARRAY_DELETE`. -/
def arrayDelete (a : List α) (position : ℕ) : List α :=
  a.take position ++ a.drop (position + 1)

@[simp] theorem arrayInsert_append (l₁ l₂ : List α) (x : α) :
    arrayInsert (l₁ ++ l₂) x l₁.length = l₁ ++ x :: l₂ := by
  simp [arrayInsert]

@[simp] theorem arrayDelete_append (l₁ l₂ : List α) (x : α) :
    arrayDelete (l₁ ++ x :: l₂) l₁.length = l₁ ++ l₂ := by
  simp [arrayDelete]

theorem map_arrayInsert {β : Type*} (f : α → β) (a : List α) (x : α) (i : ℕ) :
    (arrayInsert a x i).map f = arrayInsert (a.map f) (f x) i := by
  simp [arrayInsert, List.map_take, List.map_drop]

theorem map_arrayDelete {β : Type*} (f : α → β) (a : List α) (i : ℕ) :
    (arrayDelete a i).map f = arrayDelete (a.map f) i := by
  simp [arrayDelete, List.map_take, List.map_drop]

theorem getElem?_append_cons (l₁ l₂ : List α) (x : α) :
    (l₁ ++ x :: l₂)[l₁.length]? = some x := by
  simp

theorem set_append_cons (l₁ l₂ : List α) (x y : α) :
    (l₁ ++ x :: l₂).set l₁.length y = l₁ ++ y :: l₂ := by
  simp

theorem forall_mem_insert {p : α → Prop} {l₁ l₂ : List α} {x : α}
    (h : ∀ a ∈ l₁ ++ l₂, p a) (hx : p x) : ∀ a ∈ l₁ ++ x :: l₂, p a := by
  intro a ha
  rw [List.mem_append, List.mem_cons] at ha
  rcases ha with ha | rfl | ha
  · exact h a (List.mem_append_left _ ha)
  · exact hx
  · exact h a (List.mem_append_right _ ha)

theorem forall_mem_erase {p : α → Prop} {l₁ l₂ : List α} {x : α}
    (h : ∀ a ∈ l₁ ++ x :: l₂, p a) : ∀ a ∈ l₁ ++ l₂, p a := fun a ha =>
  h a (((List.sublist_cons_self x l₂).append_left l₁).subset ha)

section Search

variable [LinearOrder κ] {key : α → κ} {comparator : α → α → ℤ} {a : List α} {elem : α}

private theorem getElem_lt (h : KeySorted key a) {i j : ℕ} (hi : i < a.length)
    (hj : j < a.length) (hij : i < j) : key a[i] < key a[j] :=
  List.pairwise_iff_getElem.mp h i j hi hj hij

/-- The loop keeps: elements before `start` are smaller, elements from `stop` on are larger. -/
theorem binarySearchLoop_located (hcmp : Orders comparator key) (hs : KeySorted key a) :
    ∀ (fuel start stop : ℕ), stop - start ≤ fuel → start ≤ stop → stop ≤ a.length →
      (∀ (j : ℕ) (hj : j < a.length), j < start → key a[j] < key elem) →
      (∀ (j : ℕ) (hj : j < a.length), stop ≤ j → key elem < key a[j]) →
      Located key (key elem) a (binarySearchLoop a elem comparator fuel start stop).1
        (binarySearchLoop a elem comparator fuel start stop).2 := by
  intro fuel
  induction fuel with
  | zero =>
      intro start stop hf hle hlen hlow hhigh
      obtain rfl : start = stop := by omega
      exact Located.of_bounds hlen hlow hhigh
  | succ fuel ih =>
      intro start stop hf hle hlen hlow hhigh
      rw [binarySearchLoop]
      by_cases hlt : start < stop
      · have hmid : (start + stop) / 2 < a.length := by omega
        simp only [if_pos hlt, List.getElem?_eq_getElem hmid]
        by_cases hzero : comparator a[(start + stop) / 2] elem = 0
        · rw [if_pos hzero]
          exact Located.of_getElem hmid ((hcmp.zero_iff _ _).mp hzero)
        rw [if_neg hzero]
        by_cases hneg : comparator a[(start + stop) / 2] elem < 0
        · rw [if_pos hneg]
          have hk := (hcmp.neg_iff _ _).mp hneg
          refine ih _ _ (by omega) (by omega) hlen (fun j hj hjm => ?_) hhigh
          rcases Nat.lt_or_eq_of_le (Nat.lt_succ_iff.mp hjm) with hjm | rfl
          · exact (getElem_lt hs hj hmid hjm).trans hk
          · exact hk
        · rw [if_neg hneg]
          have hk := (hcmp.pos_iff _ _).mp
            (lt_of_le_of_ne (not_lt.mp hneg) (Ne.symm hzero))
          refine ih _ _ (by omega) (by omega) hmid.le hlow (fun j hj hmj => ?_)
          rcases Nat.lt_or_eq_of_le hmj with hmj | rfl
          · exact hk.trans (getElem_lt hs hmid hj hmj)
          · exact hk
      · rw [if_neg hlt]
        obtain rfl : start = stop := by omega
        exact Located.of_bounds hlen hlow hhigh

/-- A search of a window outside of which the key cannot be. -/
theorem binarySearch_located (hcmp : Orders comparator key) (hs : KeySorted key a)
    {start stop : ℕ} (hle : start ≤ stop) (hlen : stop ≤ a.length)
    (hlow : ∀ (j : ℕ) (hj : j < a.length), j < start → key a[j] < key elem)
    (hhigh : ∀ (j : ℕ) (hj : j < a.length), stop ≤ j → key elem < key a[j]) :
    Located key (key elem) a (binarySearch a start stop elem comparator).1
      (binarySearch a start stop elem comparator).2 :=
  binarySearchLoop_located hcmp hs _ _ _ le_rfl hle hlen hlow hhigh

/-- A search of the whole array. -/
theorem binarySearch_located_full (elem : α) (hcmp : Orders comparator key) (hs : KeySorted key a) :
    Located key (key elem) a (binarySearch a 0 a.length elem comparator).1
      (binarySearch a 0 a.length elem comparator).2 :=
  binarySearch_located hcmp hs (Nat.zero_le _) le_rfl (by omega) (by omega)

end Search

/-! ### Flags -/

/-- `IS_FLAG_SET`. -/
def isFlagSet (flags flag : ℕ) : Bool := flags &&& flag != 0

end DxFeed
