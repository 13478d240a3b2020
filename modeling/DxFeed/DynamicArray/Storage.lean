import DxFeed.DynamicArray
import DxFeed.Library.Cells

/-!
# The storage of a dynamic array

`DX_ARRAY_INSERT` and `DX_ARRAY_DELETE` as they move the cells of the block, and the arrays of
`DynamicArray` as what they leave in front of `size`.

* `Storage`: an array descriptor with the cells of its block;
* `Storage.dxArrayInsert`, `Storage.dxArrayDelete`: the macros, with `dx_calloc`, `dx_memcpy` and
  `dx_memmove`;
* `Storage.refines_dxArrayInsert`, `Storage.refines_dxArrayDelete`: they do to the elements what the
  operations of `DynamicArray` do;
* `Storage.Sound`: the elements are in a block of `capacity` cells.

A null pointer is a block of no cells.  A position is one of the array, so that the counts of the
elements behind it do not wrap; a block is far smaller than 2^52 bytes, so that the doubles of
`dx_capacity_manager_halfer` are exact.
-/

namespace DxFeed

universe v

variable {α : Type*}

/-- An array descriptor: the cells of the block at `elements`, and the two counts. -/
structure Storage (α : Type*) where
  cells : List α
  size : ℕ
  capacity : ℕ
  deriving DecidableEq

namespace Storage

/-- An access to a block, which must stay within it. -/
def access {β : Type*} : Option β → Except MemoryFault β
  | some b => .ok b
  | none => .error .overrun

/-- `DX_ARRAY_INSERT`: whether there was no error, and the array. -/
def dxArrayInsert [Inhabited α] (array : Storage α) (newElem : α) (position : ℕ)
    (failIn : FailIn) : Except MemoryFault (Bool × Storage α × FailIn) :=
  match capacityManagerHalfer (array.size + 1) array.capacity with
  | none => do
      let cells ← access <|
        Cells.copy array.cells (position + 1) array.cells position (array.size - position)
      let cells ← access <| Cells.write cells position newElem
      return (true, ⟨cells, array.size + 1, array.capacity⟩, failIn)
  | some capacity =>
      let allocation := allocate failIn
      if allocation.1 then do
        let newElemBuffer := List.replicate capacity default
        let newElemBuffer ← access <| Cells.copy newElemBuffer 0 array.cells 0 position
        let newElemBuffer ← access <|
          Cells.copy newElemBuffer (position + 1) array.cells position (array.size - position)
        let newElemBuffer ← access <| Cells.write newElemBuffer position newElem
        return (true, ⟨newElemBuffer, array.size + 1, capacity⟩, allocation.2)
      else return (false, { array with capacity := capacity }, allocation.2)

/-- `DX_ARRAY_DELETE`: whether there was no error, and the array. -/
def dxArrayDelete [Inhabited α] (array : Storage α) (position : ℕ) (failIn : FailIn) :
    Except MemoryFault (Bool × Storage α × FailIn) :=
  match capacityManagerHalfer (array.size - 1) array.capacity with
  | none => do
      let cells ← access <|
        Cells.copy array.cells position array.cells (position + 1) (array.size - position - 1)
      return (true, ⟨cells, array.size - 1, array.capacity⟩, failIn)
  | some capacity =>
      let allocation := allocate failIn
      if allocation.1 then do
        let newElemBuffer := List.replicate capacity default
        let newElemBuffer ← access <| Cells.copy newElemBuffer 0 array.cells 0 position
        let newElemBuffer ← access <|
          Cells.copy newElemBuffer position array.cells (position + 1) (array.size - position - 1)
        return (true, ⟨newElemBuffer, array.size - 1, capacity⟩, allocation.2)
      else return (false, { array with capacity := capacity }, allocation.2)

/-- The elements of the array. -/
def elements (array : Storage α) : List α := array.cells.take array.size

/-- The array without the cells behind its elements. -/
def toDxArray (array : Storage α) : DxArray α where
  elements := array.elements
  capacity := array.capacity
  allocated := array.cells.length

/-- The elements are in the block. -/
def InBlock (array : Storage α) : Prop := array.size ≤ array.cells.length

/-- The elements are in a block of `capacity` cells. -/
structure Sound (array : Storage α) : Prop where
  size_le : array.size ≤ array.capacity
  allocated : array.capacity = array.cells.length

/-- An array after `memset` to zero. -/
def empty : Storage α where
  cells := []
  size := 0
  capacity := 0

/-! ### The cells behind an operation -/

theorem access_bind_eq_ok {β γ : Type v} {accessed : Option β} {f : β → Except MemoryFault γ}
    {r : γ} : (access accessed >>= f) = .ok r ↔ ∃ b, accessed = some b ∧ f b = .ok r := by
  cases accessed with
  | none => simp [access, bind, Except.bind]
  | some b => simp [access, bind, Except.bind]

variable {b d e : List α} {x : α} {n p : ℕ} {array : Storage α} {position : ℕ}

theorem length_elements (h : array.InBlock) : array.elements.length = array.size := by
  rw [elements, List.length_take]
  exact min_eq_left h

theorem getElem?_arrayInsert (l : List α) (x : α) (hp : p ≤ l.length) (k : ℕ) :
    (arrayInsert l x p)[k]? = if k < p then l[k]? else if k = p then some x else l[k - 1]? := by
  have hlength : (l.take p).length = p := by rw [List.length_take]; omega
  unfold arrayInsert
  rcases lt_trichotomy k p with hk | rfl | hk
  · rw [if_pos hk, List.getElem?_append_left (by omega), List.getElem?_take_of_lt hk]
  · rw [if_neg (by omega), if_pos rfl, List.getElem?_append_right (by omega), hlength, Nat.sub_self,
      List.getElem?_cons_zero]
  · rw [if_neg (by omega), if_neg (by omega), List.getElem?_append_right (by omega), hlength,
      List.getElem?_cons, if_neg (by omega), List.getElem?_drop]
    congr 1
    omega

theorem getElem?_arrayDelete (l : List α) (hp : p < l.length) (k : ℕ) :
    (arrayDelete l p)[k]? = if k < p then l[k]? else l[k + 1]? := by
  have hlength : (l.take p).length = p := by rw [List.length_take]; omega
  unfold arrayDelete
  rcases lt_or_ge k p with hk | hk
  · rw [if_pos hk, List.getElem?_append_left (by omega), List.getElem?_take_of_lt hk]
  · rw [if_neg (by omega), List.getElem?_append_right (by omega), hlength, List.getElem?_drop]
    congr 1
    omega

/-- The cells of an insertion: those in front of the place were there, the others are moved. -/
theorem take_inserted (hn : n ≤ b.length) (hp : p ≤ n) (hd : n + 1 ≤ d.length)
    (hfront : ∀ k < p, d[k]? = b[k]?) (h : Cells.copy d (p + 1) b p (n - p) = some e) :
    (e.set p x).take (n + 1) = arrayInsert (b.take n) x p := by
  have hlength := Cells.length_copy h
  apply List.ext_getElem?
  intro k
  rw [getElem?_arrayInsert _ _ (by rw [List.length_take]; omega)]
  rcases lt_or_ge k (n + 1) with hk | hk
  · rw [List.getElem?_take_of_lt hk, List.getElem?_set]
    rcases lt_trichotomy k p with hkp | rfl | hkp
    · rw [if_neg (by omega), Cells.getElem?_copy h, if_neg (by omega), if_pos hkp, hfront k hkp,
        List.getElem?_take_of_lt (by omega)]
    · rw [if_pos rfl, if_pos (by omega), if_neg (by omega), if_pos rfl]
    · rw [if_neg (by omega), Cells.getElem?_copy h, if_pos (by omega), if_neg (by omega),
        if_neg (by omega), List.getElem?_take_of_lt (by omega)]
      congr 1
      omega
  · rw [List.getElem?_eq_none (by rw [List.length_take]; omega), if_neg (by omega),
      if_neg (by omega), List.getElem?_eq_none (by rw [List.length_take]; omega)]

/-- The cells of a deletion: those in front of the place were there, the others are moved. -/
theorem take_deleted (hn : n ≤ b.length) (hp : p < n) (hfront : ∀ k < p, d[k]? = b[k]?)
    (h : Cells.copy d p b (p + 1) (n - p - 1) = some e) :
    e.take (n - 1) = arrayDelete (b.take n) p := by
  apply List.ext_getElem?
  intro k
  rw [getElem?_arrayDelete _ (by rw [List.length_take]; omega)]
  rcases lt_or_ge k (n - 1) with hk | hk
  · rw [List.getElem?_take_of_lt hk, Cells.getElem?_copy h]
    rcases lt_or_ge k p with hkp | hkp
    · rw [if_neg (by omega), if_pos hkp, hfront k hkp, List.getElem?_take_of_lt (by omega)]
    · rw [if_pos (by omega), if_neg (by omega), List.getElem?_take_of_lt (by omega)]
      congr 1
      omega
  · rw [List.getElem?_eq_none (by rw [List.length_take]; omega), if_neg (by omega),
      List.getElem?_eq_none (by rw [List.length_take]; omega)]

/-! ### The elements behind an operation -/

/-- An operation on the cells ends like one on the elements. -/
inductive Refines : Except MemoryFault (Bool × Storage α × FailIn) →
    Except MemoryFault (Bool × DxArray α × FailIn) → Prop
  | ok (success : Bool) (array : Storage α) (failIn : FailIn) (hblock : array.InBlock) :
      Refines (.ok (success, array, failIn)) (.ok (success, array.toDxArray, failIn))
  | fault (e : MemoryFault) : Refines (.error e) (.error e)

theorem Refines.of_eq {array' : DxArray α} {success : Bool} {failIn : FailIn}
    (hblock : array.InBlock) (h : array.toDxArray = array') :
    Refines (.ok (success, array, failIn)) (.ok (success, array', failIn)) :=
  h ▸ .ok success array failIn hblock

/-- The cells behind the place go into a block, and the element to its place. -/
theorem refines_inserted (hblock : array.InBlock) (hposition : position ≤ array.size)
    (hfront : ∀ k < position, d[k]? = array.cells[k]?) (newElem : α) (capacity : ℕ)
    (failIn : FailIn) :
    Refines
      (do
        let e ← access <|
          Cells.copy d (position + 1) array.cells position (array.size - position)
        let e ← access <| Cells.write e position newElem
        return (true, ⟨e, array.size + 1, capacity⟩, failIn))
      (if array.size + 1 ≤ d.length then
        .ok (true, ⟨arrayInsert array.elements newElem position, capacity, d.length⟩, failIn)
      else .error .overrun) := by
  unfold InBlock at hblock
  cases hcopy : Cells.copy d (position + 1) array.cells position (array.size - position) with
  | none =>
      rw [Cells.copy_eq_none] at hcopy
      rw [if_neg (by omega)]
      exact .fault _
  | some e =>
      have hlength := Cells.length_copy hcopy
      have hroom := (Cells.copy_eq_some.mp hcopy).1.2
      have hwrite : Cells.write e position newElem = some (e.set position newElem) :=
        Cells.write_eq_some.mpr ⟨by omega, rfl⟩
      have htake := take_inserted (x := newElem) hblock hposition (by omega) hfront hcopy
      rw [if_pos (by omega)]
      simp only [access, bind, Except.bind, hwrite]
      refine .of_eq ?_ ?_
      · show array.size + 1 ≤ (e.set position newElem).length
        rw [List.length_set]
        omega
      · simp only [toDxArray, elements, htake, List.length_set, hlength]

/-- The cells behind the element go into a block in its place. -/
theorem refines_deleted (hblock : array.InBlock) (hposition : position < array.size)
    (hfront : ∀ k < position, d[k]? = array.cells[k]?) (capacity : ℕ) (failIn : FailIn) :
    Refines
      (do
        let e ← access <|
          Cells.copy d position array.cells (position + 1) (array.size - position - 1)
        return (true, ⟨e, array.size - 1, capacity⟩, failIn))
      (if array.size - 1 ≤ d.length then
        .ok (true, ⟨arrayDelete array.elements position, capacity, d.length⟩, failIn)
      else .error .overrun) := by
  unfold InBlock at hblock
  cases hcopy : Cells.copy d position array.cells (position + 1) (array.size - position - 1) with
  | none =>
      rw [Cells.copy_eq_none] at hcopy
      rw [if_neg (by omega)]
      exact .fault _
  | some e =>
      have hlength := Cells.length_copy hcopy
      have hroom := (Cells.copy_eq_some.mp hcopy).1.2
      have htake := take_deleted hblock hposition hfront hcopy
      rw [if_pos (by omega)]
      refine .of_eq (show array.size - 1 ≤ e.length by omega) ?_
      simp only [toDxArray, elements, htake, hlength]

/-- A new block is too small for the cells in front of a place only if it is for all of them. -/
theorem copy_front_or (blank : α) (capacity : ℕ) (hc : p ≤ b.length) :
    (∃ d, Cells.copy (List.replicate capacity blank) 0 b 0 p = some d ∧ d.length = capacity ∧
        ∀ k < p, d[k]? = b[k]?) ∨
      Cells.copy (List.replicate capacity blank) 0 b 0 p = none ∧ capacity < p := by
  cases hcopy : Cells.copy (List.replicate capacity blank) 0 b 0 p with
  | none =>
      rw [Cells.copy_eq_none, List.length_replicate] at hcopy
      exact Or.inr ⟨rfl, by omega⟩
  | some d =>
      refine Or.inl ⟨d, rfl, ?_, fun k hk => ?_⟩
      · rw [Cells.length_copy hcopy, List.length_replicate]
      · rw [Cells.getElem?_copy hcopy, if_pos (by omega)]
        congr 1
        omega

variable [Inhabited α]

/-- `DX_ARRAY_INSERT` moves the cells so that the element is at its place. -/
theorem refines_dxArrayInsert (hblock : array.InBlock) (newElem : α)
    (hposition : position ≤ array.size) (failIn : FailIn) :
    Refines (array.dxArrayInsert newElem position failIn)
      (DxFeed.dxArrayInsert array.toDxArray newElem position failIn) := by
  have hsize := length_elements hblock
  unfold dxArrayInsert DxFeed.dxArrayInsert DxArray.resize
  simp only [toDxArray, hsize]
  cases hmanager : capacityManagerHalfer (array.size + 1) array.capacity with
  | none =>
      simp only [if_true, hsize]
      exact refines_inserted hblock hposition (fun _ _ => rfl) newElem array.capacity failIn
  | some capacity =>
      simp only
      by_cases hallocation : (allocate failIn).1 = true
      · simp only [hallocation, if_true, hsize]
        rcases copy_front_or (default : α) capacity
          (hposition.trans hblock) with ⟨d, hd, hdlength, hfront⟩ | ⟨hnone, hshort⟩
        · simp only [hd]
          have hrefines := refines_inserted hblock hposition hfront newElem capacity
            (allocate failIn).2
          rw [hdlength] at hrefines
          exact hrefines
        · rw [if_neg (by omega), hnone]
          exact .fault _
      · simp only [hallocation]
        exact .of_eq hblock rfl

/-- `DX_ARRAY_DELETE` moves the cells so that the element is gone. -/
theorem refines_dxArrayDelete (hblock : array.InBlock) (hposition : position < array.size)
    (failIn : FailIn) :
    Refines (array.dxArrayDelete position failIn)
      (DxFeed.dxArrayDelete array.toDxArray position failIn) := by
  have hsize := length_elements hblock
  unfold dxArrayDelete DxFeed.dxArrayDelete DxArray.resize
  simp only [toDxArray, hsize]
  cases hmanager : capacityManagerHalfer (array.size - 1) array.capacity with
  | none =>
      simp only [if_true, hsize]
      exact refines_deleted hblock hposition (fun _ _ => rfl) array.capacity failIn
  | some capacity =>
      simp only
      by_cases hallocation : (allocate failIn).1 = true
      · simp only [hallocation, if_true, hsize]
        rcases copy_front_or (default : α) capacity
          (hposition.le.trans hblock) with ⟨d, hd, hdlength, hfront⟩ | ⟨hnone, hshort⟩
        · simp only [hd]
          have hrefines := refines_deleted hblock hposition hfront capacity (allocate failIn).2
          rw [hdlength] at hrefines
          exact hrefines
        · rw [if_neg (by omega), hnone]
          exact .fault _
      · simp only [hallocation]
        exact .of_eq hblock rfl

end Storage

end DxFeed
