import DxFeed.Algorithms

/-!
# Arrays whose allocations may fail

`DX_ARRAY_INSERT` and `DX_ARRAY_DELETE` with the capacity of the array, as in `DXAlgorithms.h`, when
one of the next allocations may fail.

* `capacityManagerHalfer`: `dx_capacity_manager_halfer`;
* `DxArray`: the elements, the field `capacity`, and the places that the block really has;
* `dxArrayInsert`, `dxArrayDelete`: the macros;
* `HasRoom`: the insertions into some arrays, one after the other, stay within the blocks;
* `failingShrink`: which of some arrays cannot shrink.

A failed allocation leaves the new value in `capacity`.  An allocation of no bytes is one, too.
-/

namespace DxFeed

variable {α : Type*}

/-- What ends a run: a write behind the end of a block, and a use of a block that was freed. -/
inductive MemoryFault
  | overrun
  | dangling
  deriving DecidableEq

/-- The allocation that fails, by the number of those in front of it, if one fails. -/
abbrev FailIn := Option ℕ

/-- An allocation: whether it succeeds, and what is left. -/
def allocate : FailIn → Bool × FailIn
  | none => (true, none)
  | some 0 => (false, none)
  | some (n + 1) => (true, some n)

/-- What is left after so many allocations, one of which may have failed. -/
def afterAllocations (n : ℕ) : FailIn → FailIn
  | none => none
  | some k => if k < n then none else some (k - n)

/-- `dx_capacity_manager_halfer`: the new capacity if a reallocation is required. -/
def capacityManagerHalfer (newSize capacity : ℕ) : Option ℕ :=
  if newSize > capacity then some (capacity * 3 / 2 + 1)
  else if newSize < capacity ∧ 2 * newSize < capacity then some newSize
  else none

/-- An array descriptor, and the number of elements for which its block was allocated. -/
structure DxArray (α : Type*) where
  elements : List α
  capacity : ℕ
  allocated : ℕ
  deriving DecidableEq

/-- An array after `memset` to zero. -/
def DxArray.empty : DxArray α where
  elements := []
  capacity := 0
  allocated := 0

/-- The block for a new size: whether there is one, and the array with it. -/
def DxArray.resize (array : DxArray α) (newSize : ℕ) (failIn : FailIn) :
    Bool × DxArray α × FailIn :=
  match capacityManagerHalfer newSize array.capacity with
  | none => (true, array, failIn)
  | some capacity =>
      let allocation := allocate failIn
      if allocation.1 then
        (true, { array with capacity := capacity, allocated := capacity }, allocation.2)
      else (false, { array with capacity := capacity }, allocation.2)

/-- `DX_ARRAY_INSERT`: whether there was no error, and the array. -/
def dxArrayInsert (array : DxArray α) (elem : α) (position : ℕ) (failIn : FailIn) :
    Except MemoryFault (Bool × DxArray α × FailIn) :=
  let (success, array, failIn) := array.resize (array.elements.length + 1) failIn
  if success then
    if array.elements.length + 1 ≤ array.allocated then
      .ok (true, { array with elements := arrayInsert array.elements elem position }, failIn)
    else .error .overrun
  else .ok (false, array, failIn)

/-- `DX_ARRAY_DELETE`: whether there was no error, and the array. -/
def dxArrayDelete (array : DxArray α) (position : ℕ) (failIn : FailIn) :
    Except MemoryFault (Bool × DxArray α × FailIn) :=
  let (success, array, failIn) := array.resize (array.elements.length - 1) failIn
  if success then
    if array.elements.length - 1 ≤ array.allocated then
      .ok (true, { array with elements := arrayDelete array.elements position }, failIn)
    else .error .overrun
  else .ok (false, array, failIn)

/-! ### Allocations -/

@[simp] theorem afterAllocations_zero (failIn : FailIn) : afterAllocations 0 failIn = failIn := by
  cases failIn with
  | none => rfl
  | some k => simp [afterAllocations]

theorem afterAllocations_add (m n : ℕ) (failIn : FailIn) :
    afterAllocations (m + n) failIn = afterAllocations n (afterAllocations m failIn) := by
  cases failIn with
  | none => rfl
  | some k =>
      simp only [afterAllocations]
      split_ifs with h₁ h₂ h₂
      · rfl
      · simp only
        rw [if_pos (by omega)]
      · omega
      · simp only
        rw [if_neg (by omega), Nat.sub_sub]

theorem allocate_eq (failIn : FailIn) :
    allocate failIn = (decide (failIn ≠ some 0), afterAllocations 1 failIn) := by
  match failIn with
  | none => rfl
  | some 0 => rfl
  | some (n + 1) => simp [allocate, afterAllocations]

/-- One of some allocations fails for which this matters. -/
def Fatal : FailIn → List Bool → Prop
  | none, _ => False
  | some k, matters => matters[k]? = some true

theorem not_fatal_nil (failIn : FailIn) : ¬ Fatal failIn [] := by
  cases failIn with
  | none => exact id
  | some k => exact nofun

theorem fatal_cons (failIn : FailIn) (b : Bool) (matters : List Bool) :
    Fatal failIn (b :: matters) ↔
      failIn = some 0 ∧ b = true ∨ Fatal (afterAllocations 1 failIn) matters := by
  match failIn with
  | none => simp [Fatal, afterAllocations]
  | some 0 => simp [Fatal, afterAllocations]
  | some (n + 1) => simp [Fatal, afterAllocations]

theorem fatal_append (failIn : FailIn) (matters₁ matters₂ : List Bool) :
    Fatal failIn (matters₁ ++ matters₂) ↔
      Fatal failIn matters₁ ∨ Fatal (afterAllocations matters₁.length failIn) matters₂ := by
  induction matters₁ generalizing failIn with
  | nil =>
      rw [List.nil_append, List.length_nil, afterAllocations_zero]
      exact (or_iff_right (not_fatal_nil failIn)).symm
  | cons b matters₁ ih =>
      rw [List.cons_append, fatal_cons, fatal_cons, ih, List.length_cons, Nat.add_comm,
        afterAllocations_add, or_assoc]

/-! ### The size of an array -/

/-- The numbers that decide about a reallocation. -/
structure Extent where
  size : ℕ
  capacity : ℕ
  allocated : ℕ
  deriving DecidableEq

def DxArray.extent (array : DxArray α) : Extent where
  size := array.elements.length
  capacity := array.capacity
  allocated := array.allocated

/-- The elements are in the block, and the capacity is at most one short of them: a deletion that
could not shrink the block has still set it. -/
structure DxArray.Fits (array : DxArray α) : Prop where
  allocated : array.elements.length ≤ array.allocated
  capacity : array.elements.length ≤ array.capacity + 1

/-- Insertions into some arrays, one after the other, stay within the blocks; they end when an
allocation fails. -/
def HasRoom : FailIn → List Extent → Prop
  | _, [] => True
  | failIn, e :: es =>
      match capacityManagerHalfer (e.size + 1) e.capacity with
      | none => e.size + 1 ≤ e.allocated ∧ HasRoom failIn es
      | some capacity =>
          failIn = some 0 ∨ e.size + 1 ≤ capacity ∧ HasRoom (afterAllocations 1 failIn) es

/-- The first of some arrays that cannot shrink for a deletion. -/
def failingShrink : FailIn → List Extent → Option ℕ
  | _, [] => none
  | failIn, e :: es =>
      if (capacityManagerHalfer (e.size - 1) e.capacity).isSome then
        if failIn = some 0 then some 0
        else (failingShrink (afterAllocations 1 failIn) es).map (· + 1)
      else (failingShrink failIn es).map (· + 1)

/-! ### Insertion -/

/-- How an insertion ends; `elements` are those of the array behind it. -/
inductive Insertion (array : DxArray α) (elements : List α) (failIn : FailIn) :
    Except MemoryFault (Bool × DxArray α × FailIn) → Prop
  | done (array' : DxArray α) (failIn' : FailIn) (helements : array'.elements = elements)
      (hfits : array'.Fits) (hcapacity : elements.length ≤ array'.capacity)
      (hroom : ∀ es, HasRoom failIn (array.extent :: es) ↔ HasRoom failIn' es) :
      Insertion array elements failIn (.ok (true, array', failIn'))
  | failed (array' : DxArray α) (helements : array'.elements = array.elements)
      (hfits : array'.Fits) (hroom : ∀ es, HasRoom failIn (array.extent :: es)) :
      Insertion array elements failIn (.ok (false, array', none))
  | overrun (hroom : ∀ es, ¬ HasRoom failIn (array.extent :: es)) :
      Insertion array elements failIn (.error .overrun)

variable {array : DxArray α} {position : ℕ}

theorem length_arrayInsert (elements : List α) (elem : α) (position : ℕ)
    (h : position ≤ elements.length) :
    (arrayInsert elements elem position).length = elements.length + 1 := by
  rw [arrayInsert, List.length_append, List.length_cons, List.length_take, List.length_drop]
  omega

theorem length_arrayDelete (elements : List α) (position : ℕ) (h : position < elements.length) :
    (arrayDelete elements position).length = elements.length - 1 := by
  rw [arrayDelete, List.length_append, List.length_take, List.length_drop]
  omega

/-- `dx_capacity_manager_halfer` keeps a capacity that is large enough. -/
theorem le_capacity_of_kept {newSize capacity : ℕ}
    (h : capacityManagerHalfer newSize capacity = none) : newSize ≤ capacity := by
  unfold capacityManagerHalfer at h
  split_ifs at h
  omega

/-- A new capacity is the new size, or it is more than the old capacity. -/
theorem lt_of_resized {newSize capacity capacity' : ℕ}
    (h : capacityManagerHalfer newSize capacity = some capacity') :
    capacity' = newSize ∧ newSize < capacity ∨ capacity < newSize ∧ capacity < capacity' := by
  unfold capacityManagerHalfer at h
  split_ifs at h with hgrow hshrink
  · obtain rfl := Option.some.inj h
    omega
  · obtain rfl := Option.some.inj h
    omega

/-- The capacity for one more element. -/
def grownCapacity (size capacity : ℕ) : ℕ :=
  (capacityManagerHalfer (size + 1) capacity).getD capacity

/-- The allocations for one more element: none, or one that the insertion needs. -/
def growthAllocations (size capacity : ℕ) : List Bool :=
  if (capacityManagerHalfer (size + 1) capacity).isSome then [true] else []

theorem lt_grownCapacity {size capacity : ℕ} (h : size ≤ capacity) :
    size + 1 ≤ grownCapacity size capacity := by
  unfold grownCapacity
  cases hmanager : capacityManagerHalfer (size + 1) capacity with
  | none => exact le_capacity_of_kept hmanager
  | some capacity' =>
      rw [Option.getD_some]
      rcases lt_of_resized hmanager with ⟨heq, -⟩ | ⟨-, hlt⟩ <;> omega

/-- An element goes to the end of an array whose block has as many places as its capacity says. -/
theorem dxArrayInsert_end {elements : List α} {capacity : ℕ} (hle : elements.length ≤ capacity)
    (elem : α) (failIn : FailIn) :
    (¬ Fatal failIn (growthAllocations elements.length capacity) ∧
      dxArrayInsert ⟨elements, capacity, capacity⟩ elem elements.length failIn =
        .ok (true,
          ⟨elements ++ [elem], grownCapacity elements.length capacity,
            grownCapacity elements.length capacity⟩,
          afterAllocations (growthAllocations elements.length capacity).length failIn)) ∨
    Fatal failIn (growthAllocations elements.length capacity) ∧
      dxArrayInsert ⟨elements, capacity, capacity⟩ elem elements.length failIn =
        .ok (false, ⟨elements, grownCapacity elements.length capacity, capacity⟩, none) := by
  have hinsert : arrayInsert elements elem elements.length = elements ++ [elem] := by
    simp [arrayInsert]
  have hroom := lt_grownCapacity hle
  unfold dxArrayInsert DxArray.resize growthAllocations
  unfold grownCapacity at hroom ⊢
  cases hmanager : capacityManagerHalfer (elements.length + 1) capacity with
  | none =>
      rw [hmanager, Option.getD_none] at hroom
      exact Or.inl ⟨not_fatal_nil failIn, by simp [hroom, hinsert]⟩
  | some capacity' =>
      rw [hmanager, Option.getD_some] at hroom
      simp only [Option.isSome_some, if_true, Option.getD_some, fatal_cons, and_true,
        List.length_singleton]
      rw [allocate_eq]
      have hnil := not_fatal_nil (afterAllocations 1 failIn)
      by_cases hfail : failIn = some 0
      · right
        simp [hfail, afterAllocations]
      · left
        simp [hfail, hroom, hinsert, hnil]

theorem dxArrayInsert_insertion (hfits : array.Fits) (elem : α)
    (hposition : position ≤ array.elements.length) (failIn : FailIn) :
    Insertion array (arrayInsert array.elements elem position) failIn
      (dxArrayInsert array elem position failIn) := by
  have hlength := length_arrayInsert array.elements elem position hposition
  unfold dxArrayInsert DxArray.resize
  cases hmanager : capacityManagerHalfer (array.elements.length + 1) array.capacity with
  | none =>
      have hcapacity := le_capacity_of_kept hmanager
      have hroom : ∀ es, HasRoom failIn (array.extent :: es) ↔
          array.elements.length + 1 ≤ array.allocated ∧ HasRoom failIn es := by
        intro es
        rw [HasRoom]
        simp only [DxArray.extent, hmanager]
      simp only [if_true]
      split_ifs with hallocated
      · refine .done _ _ rfl ⟨?_, ?_⟩ ?_ fun es => ?_
        · exact hlength.trans_le hallocated
        · exact (hlength.trans_le hcapacity).trans (Nat.le_succ _)
        · exact hlength.trans_le hcapacity
        · rw [hroom]
          exact and_iff_right hallocated
      · exact .overrun fun es h => hallocated ((hroom es).mp h).1
  | some capacity =>
      have hroom : ∀ es, HasRoom failIn (array.extent :: es) ↔ failIn = some 0 ∨
          array.elements.length + 1 ≤ capacity ∧ HasRoom (afterAllocations 1 failIn) es := by
        intro es
        rw [HasRoom]
        simp only [DxArray.extent, hmanager]
      have hsuccess : ∀ failIn' : FailIn, failIn ≠ some 0 → failIn' = afterAllocations 1 failIn →
          Insertion array (arrayInsert array.elements elem position) failIn
            (if array.elements.length + 1 ≤ capacity then
              .ok (true, ⟨arrayInsert array.elements elem position, capacity, capacity⟩, failIn')
            else .error .overrun) := by
        rintro failIn' hfail rfl
        split_ifs with hcapacity
        · refine .done _ _ rfl ⟨hlength.trans_le hcapacity, ?_⟩ (hlength.trans_le hcapacity) ?_
          · exact (hlength.trans_le hcapacity).trans (Nat.le_succ _)
          · intro es
            rw [hroom, or_iff_right hfail]
            exact and_iff_right hcapacity
        · exact .overrun fun es h => hcapacity (((hroom es).mp h).resolve_left hfail).1
      match failIn with
      | none => exact hsuccess none nofun rfl
      | some 0 =>
          refine .failed _ rfl ⟨hfits.allocated, ?_⟩ fun es => (hroom es).mpr (Or.inl rfl)
          have hle := lt_of_resized hmanager
          have hfit := hfits.capacity
          show array.elements.length ≤ capacity + 1
          omega
      | some (n + 1) => exact hsuccess (some n) (by simp) (by simp [afterAllocations])

/-! ### Deletion -/

/-- How a deletion from an array that fits ends; `elements` are those of the array behind it. -/
inductive Deletion (array : DxArray α) (elements : List α) (failIn : FailIn) :
    Except MemoryFault (Bool × DxArray α × FailIn) → Prop
  | done (array' : DxArray α) (failIn' : FailIn) (helements : array'.elements = elements)
      (hfits : array'.Fits) (hnone : failIn = none → failIn' = none)
      (hshrink : ∀ es, failingShrink failIn (array.extent :: es) =
        (failingShrink failIn' es).map (· + 1)) :
      Deletion array elements failIn (.ok (true, array', failIn'))
  | failed (array' : DxArray α) (helements : array'.elements = array.elements)
      (hfits : array'.Fits) (hfail : failIn ≠ none)
      (hshrink : ∀ es, failingShrink failIn (array.extent :: es) = some 0) :
      Deletion array elements failIn (.ok (false, array', none))

theorem dxArrayDelete_deletion (hfits : array.Fits) (hposition : position < array.elements.length)
    (failIn : FailIn) :
    Deletion array (arrayDelete array.elements position) failIn
      (dxArrayDelete array position failIn) := by
  have hlength := length_arrayDelete array.elements position hposition
  have hallocated := hfits.allocated
  have hcapacity := hfits.capacity
  unfold dxArrayDelete DxArray.resize
  cases hmanager : capacityManagerHalfer (array.elements.length - 1) array.capacity with
  | none =>
      simp only [if_true]
      rw [if_pos (by omega)]
      refine .done _ _ rfl ⟨?_, ?_⟩ id fun es => ?_
      · show (arrayDelete array.elements position).length ≤ array.allocated
        omega
      · show (arrayDelete array.elements position).length ≤ array.capacity + 1
        omega
      · rw [failingShrink]
        simp only [DxArray.extent, hmanager, Option.isSome_none, Bool.false_eq_true, if_false]
  | some capacity =>
      -- the capacity is not so small that the block would have to grow
      have hsize : capacity = array.elements.length - 1 := by
        rcases lt_of_resized hmanager with ⟨heq, -⟩ | ⟨hlt, -⟩
        · exact heq
        · omega
      have hshrink : ∀ es, failingShrink failIn (array.extent :: es) =
          if failIn = some 0 then some 0
          else (failingShrink (afterAllocations 1 failIn) es).map (· + 1) := by
        intro es
        rw [failingShrink]
        simp only [DxArray.extent, hmanager, Option.isSome_some, if_true]
      have hsuccess : ∀ failIn' : FailIn, failIn ≠ some 0 → failIn' = afterAllocations 1 failIn →
          Deletion array (arrayDelete array.elements position) failIn
            (if array.elements.length - 1 ≤ capacity then
              .ok (true, ⟨arrayDelete array.elements position, capacity, capacity⟩, failIn')
            else .error .overrun) := by
        rintro failIn' hfail rfl
        rw [if_pos hsize.ge]
        refine .done _ _ rfl ⟨?_, ?_⟩ ?_ fun es => ?_
        · show (arrayDelete array.elements position).length ≤ capacity
          omega
        · show (arrayDelete array.elements position).length ≤ capacity + 1
          omega
        · rintro rfl
          rfl
        · rw [hshrink, if_neg hfail]
      match failIn with
      | none => exact hsuccess none nofun rfl
      | some 0 =>
          refine .failed _ rfl ⟨hallocated, ?_⟩ nofun fun es => ?_
          · show array.elements.length ≤ capacity + 1
            omega
          · rw [hshrink, if_pos rfl]
      | some (n + 1) => exact hsuccess (some n) (by simp) (by simp [afterAllocations])

/-- A deletion when no allocation fails any more. -/
theorem dxArrayDelete_none (hfits : array.Fits) (hposition : position < array.elements.length) :
    ∃ array', dxArrayDelete array position none = .ok (true, array', none) ∧
      array'.elements = arrayDelete array.elements position ∧ array'.Fits := by
  have hdelete := dxArrayDelete_deletion hfits hposition none
  generalize dxArrayDelete array position none = deletion at hdelete
  cases hdelete with
  | done array' failIn' helements hfits hnone _ =>
      obtain rfl := hnone rfl
      exact ⟨array', rfl, helements, hfits⟩
  | failed _ _ _ hfail _ => exact absurd rfl hfail

end DxFeed
