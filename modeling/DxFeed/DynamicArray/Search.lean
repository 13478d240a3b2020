import DxFeed.Algorithms

/-!
# Binary search by a comparator

`DX_ARRAY_BINARY_SEARCH` on an array that its comparator sorts, where equal elements may stand
next to each other.

* `Compares`: the comparator is a total preorder, as its documentation in `DXAlgorithms.h` says;
* `SortedBy`: the array is sorted by it;
* `HoldsPlace`: the range of the search contains the place of the key;
* `binarySearch_found_iff`, `binarySearch_place`: what the search finds.
-/

namespace DxFeed

variable {α : Type*} {comparator : α → α → ℤ} {a : List α} {elem : α} {start stop i : ℕ}

/-- The sign of the comparator is that of a total preorder. -/
structure Compares (comparator : α → α → ℤ) : Prop where
  swap : ∀ a b, comparator a b < 0 ↔ 0 < comparator b a
  trans : ∀ a b c, comparator a b ≤ 0 → comparator b c ≤ 0 → comparator a c ≤ 0

/-- No element is larger than one behind it. -/
def SortedBy (comparator : α → α → ℤ) (a : List α) : Prop :=
  a.Pairwise fun x y => comparator x y ≤ 0

/-- The elements in front of `start` are smaller than the key, and those from `stop` on are larger:
`start` is the first index that can contain the key, and `stop` is one more than the last. -/
structure HoldsPlace (comparator : α → α → ℤ) (a : List α) (elem : α) (start stop : ℕ) : Prop where
  start_le : start ≤ stop
  stop_le : stop ≤ a.length
  below : ∀ x ∈ a.take start, comparator x elem < 0
  above : ∀ x ∈ a.drop stop, 0 < comparator x elem

/-- What a search may answer: the index of an equal element, or the place between the smaller
elements and the larger ones. -/
def Answers (comparator : α → α → ℤ) (a : List α) (elem : α) (answer : Bool × ℕ) : Prop :=
  (answer.1 = true ∧ ∃ x, a[answer.2]? = some x ∧ comparator x elem = 0) ∨
    answer.1 = false ∧ HoldsPlace comparator a elem answer.2 answer.2

/-! ### Insertion and deletion as operations of lists -/

theorem insertIdx_eq_arrayInsert {x : α} (h : i ≤ a.length) :
    a.insertIdx i x = arrayInsert a x i := by
  induction a generalizing i with
  | nil =>
      obtain rfl : i = 0 := Nat.le_zero.mp h
      rfl
  | cons y a ih =>
      cases i with
      | zero => rfl
      | succ i =>
          rw [List.insertIdx_succ_cons, ih (Nat.le_of_succ_le_succ h)]
          rfl

theorem eraseIdx_eq_arrayDelete (a : List α) (i : ℕ) : a.eraseIdx i = arrayDelete a i :=
  List.eraseIdx_eq_take_drop_succ a i

/-! ### The search -/

/-- The loop keeps the place of the key in its range. -/
theorem binarySearchLoop_answers (hcompares : Compares comparator) (hsorted : SortedBy comparator a)
    (fuel : ℕ) (hfuel : stop - start ≤ fuel) (hplace : HoldsPlace comparator a elem start stop) :
    Answers comparator a elem (binarySearchLoop a elem comparator fuel start stop) := by
  induction fuel generalizing start stop with
  | zero =>
      have hle := hplace.start_le
      obtain rfl : start = stop := by omega
      exact Or.inr ⟨rfl, hplace⟩
  | succ fuel ih =>
      have hle := hplace.start_le
      have hlength := hplace.stop_le
      rw [binarySearchLoop]
      by_cases hlt : start < stop
      · have hmid : (start + stop) / 2 < a.length := by omega
        have hpairwise := List.pairwise_iff_getElem.mp hsorted
        simp only [if_pos hlt, List.getElem?_eq_getElem hmid]
        rcases lt_trichotomy (comparator a[(start + stop) / 2] elem) 0 with hless | heq | hgreater
        · -- everything up to the middle is smaller, too
          rw [if_neg hless.ne, if_pos hless]
          refine ih (by omega) ⟨by omega, hlength, fun x hx => ?_, hplace.above⟩
          obtain ⟨j, hj, rfl⟩ := List.mem_take_iff_getElem.mp hx
          rcases Nat.lt_or_ge j ((start + stop) / 2) with hjm | hjm
          · have hbefore := hpairwise j _ (by omega) hmid hjm
            by_contra hnot
            have hback : comparator elem a[j] ≤ 0 := by
              by_contra hpos
              exact hnot ((hcompares.swap _ _).mpr (not_le.mp hpos))
            have hle := hcompares.trans _ _ _ hback hbefore
            have hpos := (hcompares.swap _ _).mp hless
            omega
          · obtain rfl : j = (start + stop) / 2 := by omega
            exact hless
        · rw [if_pos heq]
          exact Or.inl ⟨rfl, _, List.getElem?_eq_getElem hmid, heq⟩
        · -- everything from the middle on is larger, too
          rw [if_neg hgreater.ne', if_neg hgreater.not_gt]
          refine ih (by omega) ⟨by omega, by omega, hplace.below, fun x hx => ?_⟩
          obtain ⟨j, hj, rfl⟩ := List.mem_drop_iff_getElem.mp hx
          rcases Nat.eq_zero_or_pos j with rfl | hjpos
          · exact hgreater
          · rw [Nat.add_comm] at hj
            have hbehind := hpairwise _ _ hmid hj (by omega)
            by_contra hnot
            have hle := hcompares.trans _ _ _ hbehind (not_lt.mp hnot)
            omega
      · obtain rfl : start = stop := by omega
        rw [if_neg hlt]
        exact Or.inr ⟨rfl, hplace⟩

theorem binarySearch_answers (hcompares : Compares comparator) (hsorted : SortedBy comparator a)
    (hplace : HoldsPlace comparator a elem start stop) :
    Answers comparator a elem (binarySearch a start stop elem comparator) :=
  binarySearchLoop_answers hcompares hsorted _ le_rfl hplace

/-- Where all elements are smaller or larger, none is equal. -/
theorem HoldsPlace.ne_zero (hplace : HoldsPlace comparator a elem i i) {x : α} (hx : x ∈ a) :
    comparator x elem ≠ 0 := by
  rw [← List.take_append_drop i a, List.mem_append] at hx
  rcases hx with hx | hx
  · exact (hplace.below x hx).ne
  · exact (hplace.above x hx).ne'

/-- The search finds the key if and only if an equal element is there. -/
theorem binarySearch_found_iff (hcompares : Compares comparator) (hsorted : SortedBy comparator a)
    (hplace : HoldsPlace comparator a elem start stop) :
    (binarySearch a start stop elem comparator).1 = true ↔ ∃ x ∈ a, comparator x elem = 0 := by
  rcases binarySearch_answers hcompares hsorted hplace with ⟨hfound, x, hx, heq⟩ | ⟨hmissing, hat⟩
  · exact iff_of_true hfound ⟨x, List.mem_of_getElem? hx, heq⟩
  · rw [hmissing]
    exact iff_of_false nofun fun ⟨x, hx, heq⟩ => hat.ne_zero hx heq

/-- Between the smaller elements and the larger ones is the only place for the key. -/
theorem HoldsPlace.sortedBy_insertIdx_iff (hcompares : Compares comparator)
    (hsorted : SortedBy comparator a) (hplace : HoldsPlace comparator a elem i i) {j : ℕ}
    (hj : j ≤ a.length) : SortedBy comparator (a.insertIdx j elem) ↔ j = i := by
  rw [insertIdx_eq_arrayInsert hj, SortedBy, arrayInsert, List.pairwise_append, List.pairwise_cons]
  constructor
  · rintro ⟨-, ⟨hbehind, -⟩, hfront⟩
    rcases lt_trichotomy j i with hlt | heq | hgt
    · -- the element at `j` is smaller than the key in front of it
      have hjlt : j < a.length := hlt.trans_le hplace.stop_le
      have hat : a[j] ∈ a.drop j := List.mem_drop_iff_getElem.mpr ⟨0, by omega, rfl⟩
      have hbelow := hplace.below _ (List.mem_take_iff_getElem.mpr ⟨j, by omega, rfl⟩)
      have hpos := (hcompares.swap _ _).mp hbelow
      have hle := hbehind _ hat
      omega
    · exact heq
    · -- the element at `i` is larger than the key behind it
      have hilt : i < a.length := hgt.trans_le hj
      have hat : a[i] ∈ a.take j := List.mem_take_iff_getElem.mpr ⟨i, by omega, rfl⟩
      have habove := hplace.above _ (List.mem_drop_iff_getElem.mpr ⟨0, by omega, rfl⟩)
      have hle := hfront _ hat elem List.mem_cons_self
      simp only [Nat.add_zero] at habove
      omega
  · rintro rfl
    have happend : SortedBy comparator (a.take j ++ a.drop j) := by
      rw [List.take_append_drop]
      exact hsorted
    obtain ⟨hfront, hback, hcross⟩ := List.pairwise_append.mp happend
    refine ⟨hfront, ⟨fun x hx => ?_, hback⟩, fun x hx y hy => ?_⟩
    · exact ((hcompares.swap _ _).mpr (hplace.above x hx)).le
    · rcases List.mem_cons.mp hy with rfl | hy
      · exact (hplace.below x hx).le
      · exact hcross x hx y hy

/-- Where the search does not find the key, its index is the only one that keeps the array
sorted. -/
theorem binarySearch_place (hcompares : Compares comparator) (hsorted : SortedBy comparator a)
    (hplace : HoldsPlace comparator a elem start stop)
    (hmissing : (binarySearch a start stop elem comparator).1 = false) {j : ℕ}
    (hj : j ≤ a.length) :
    SortedBy comparator (a.insertIdx j elem) ↔
      j = (binarySearch a start stop elem comparator).2 := by
  rcases binarySearch_answers hcompares hsorted hplace with ⟨hfound, -⟩ | ⟨-, hat⟩
  · rw [hmissing] at hfound
    exact absurd hfound nofun
  · exact hat.sortedBy_insertIdx_iff hcompares hsorted hj

end DxFeed
