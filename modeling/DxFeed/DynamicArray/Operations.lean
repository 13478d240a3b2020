import DxFeed.DynamicArray.Search
import DxFeed.DynamicArray.Storage

/-!
# Insertions and deletions, one after the other

* `ArrayOp`: an insertion or a deletion; `runOps`: some of them, when all allocations succeed;
* `dxArray_insertIdx_eraseIdx`: the elements are those of the list operations, they stay in a block
  of `capacity` cells, and the binary search finds the places of the keys;
* `Storage.dxArrayInsert_of_hasPlace`: an insertion that finds a place stays within the block;
* `Storage.Unharmed`: what an operation that fails should leave behind;
* `not_unharmed_of_failed`: the operation has already stored the new capacity;
* `overrun_of_failed_insert`: behind an insertion into a full array that failed, the next one
  writes past the block.
-/

namespace DxFeed

variable {α : Type*}

/-- `DX_ARRAY_INSERT` or `DX_ARRAY_DELETE` with its arguments. -/
inductive ArrayOp (α : Type*)
  | insert (newElem : α) (position : ℕ)
  | delete (position : ℕ)

namespace ArrayOp

/-- The position is one of an array of this size. -/
def Valid (size : ℕ) : ArrayOp α → Prop
  | insert _ position => position ≤ size
  | delete position => position < size

/-- The size for which the capacity manager is asked. -/
def newSize (size : ℕ) : ArrayOp α → ℕ
  | insert _ _ => size + 1
  | delete _ => size - 1

/-- The operation on the list of the elements. -/
def onList : ArrayOp α → List α → List α
  | insert newElem position, l => l.insertIdx position newElem
  | delete position, l => l.eraseIdx position

/-- The operation on the array. -/
def exec [Inhabited α] (array : Storage α) (failIn : FailIn) :
    ArrayOp α → Except MemoryFault (Bool × Storage α × FailIn)
  | insert newElem position => array.dxArrayInsert newElem position failIn
  | delete position => array.dxArrayDelete position failIn

instance (size : ℕ) : ∀ op : ArrayOp α, Decidable (op.Valid size)
  | insert _ position => inferInstanceAs (Decidable (position ≤ size))
  | delete position => inferInstanceAs (Decidable (position < size))

end ArrayOp

/-- Some operations, one after the other, when all allocations succeed; they end with the first
error. -/
def runOps [Inhabited α] : Storage α → List (ArrayOp α) → Except MemoryFault (Bool × Storage α)
  | array, [] => .ok (true, array)
  | array, op :: ops => do
      let (success, array, _) ← op.exec array none
      if success then runOps array ops else return (false, array)

/-- Every position is one of the array at that time. -/
def ValidOps : List α → List (ArrayOp α) → Prop
  | _, [] => True
  | l, op :: ops => op.Valid l.length ∧ ValidOps (op.onList l) ops

instance decidableValidOps : ∀ (l : List α) (ops : List (ArrayOp α)), Decidable (ValidOps l ops)
  | _, [] => isTrue trivial
  | l, op :: ops =>
      have : Decidable (ValidOps (op.onList l) ops) := decidableValidOps _ ops
      inferInstanceAs (Decidable (op.Valid l.length ∧ ValidOps (op.onList l) ops))

/-! ### Allocations that succeed -/

/-- The elements are in a block of `capacity` places. -/
structure DxArray.Sound (array : DxArray α) : Prop where
  size_le : array.elements.length ≤ array.capacity
  allocated : array.capacity = array.allocated

/-- The block that an operation gets has as many places as `capacity` says. -/
theorem DxArray.Sound.resize {array : DxArray α} (hsound : array.Sound) {newSize : ℕ}
    (hnew : newSize ≤ array.elements.length + 1) :
    ∃ capacity, array.resize newSize none =
      (true, { array with capacity := capacity, allocated := capacity }, none) ∧
        newSize ≤ capacity := by
  unfold DxArray.resize
  cases hmanager : capacityManagerHalfer newSize array.capacity with
  | none =>
      refine ⟨array.capacity, ?_, le_capacity_of_kept hmanager⟩
      have hself : { array with capacity := array.capacity, allocated := array.capacity } =
          array := by
        rw [DxArray.mk.injEq]
        exact ⟨rfl, rfl, hsound.allocated⟩
      rw [hself]
  | some capacity =>
      have hle := hsound.size_le
      refine ⟨capacity, rfl, ?_⟩
      rcases lt_of_resized hmanager with ⟨heq, -⟩ | ⟨-, hlt⟩ <;> omega

theorem DxArray.Sound.dxArrayInsert {array : DxArray α} (hsound : array.Sound) (newElem : α)
    {position : ℕ} (hposition : position ≤ array.elements.length) :
    ∃ array', DxFeed.dxArrayInsert array newElem position none = .ok (true, array', none) ∧
      array'.elements = arrayInsert array.elements newElem position ∧ array'.Sound := by
  obtain ⟨capacity, hresize, hle⟩ := hsound.resize le_rfl
  refine ⟨⟨arrayInsert array.elements newElem position, capacity, capacity⟩, ?_, rfl, ?_, rfl⟩
  · rw [DxFeed.dxArrayInsert, hresize]
    simp only [if_true]
    rw [if_pos hle]
  · exact (length_arrayInsert array.elements newElem position hposition).trans_le hle

theorem DxArray.Sound.dxArrayDelete {array : DxArray α} (hsound : array.Sound)
    {position : ℕ} (hposition : position < array.elements.length) :
    ∃ array', DxFeed.dxArrayDelete array position none = .ok (true, array', none) ∧
      array'.elements = arrayDelete array.elements position ∧ array'.Sound := by
  have hnew : array.elements.length - 1 ≤ array.elements.length + 1 := by omega
  obtain ⟨capacity, hresize, hle⟩ := hsound.resize hnew
  refine ⟨⟨arrayDelete array.elements position, capacity, capacity⟩, ?_, rfl, ?_, rfl⟩
  · rw [DxFeed.dxArrayDelete, hresize]
    simp only [if_true]
    rw [if_pos hle]
  · exact (length_arrayDelete array.elements position hposition).trans_le hle

namespace Storage

theorem Sound.inBlock {array : Storage α} (hsound : array.Sound) : array.InBlock :=
  hsound.size_le.trans_eq hsound.allocated

theorem sound_iff {array : Storage α} (hblock : array.InBlock) :
    array.Sound ↔ array.toDxArray.Sound := by
  constructor
  · intro hsound
    exact ⟨(length_elements hblock).trans_le hsound.size_le, hsound.allocated⟩
  · intro hsound
    exact ⟨(length_elements hblock).symm.trans_le hsound.size_le, hsound.allocated⟩

theorem Refines.of_ok {r : Except MemoryFault (Bool × Storage α × FailIn)} {success : Bool}
    {array' : DxArray α} {failIn : FailIn} (h : Refines r (.ok (success, array', failIn))) :
    ∃ array : Storage α, r = .ok (success, array, failIn) ∧ array.InBlock ∧
      array.toDxArray = array' := by
  generalize hright : Except.ok (success, array', failIn) = right at h
  cases h with
  | ok success array failIn hblock =>
      simp only [Except.ok.injEq, Prod.mk.injEq] at hright
      obtain ⟨rfl, rfl, rfl⟩ := hright
      exact ⟨array, rfl, hblock, rfl⟩
  | fault e => exact absurd hright nofun

end Storage

variable [Inhabited α]

/-- An operation is the one on the list of the elements. -/
theorem ArrayOp.exec_none {array : Storage α} (hsound : array.Sound) {op : ArrayOp α}
    (hvalid : op.Valid array.elements.length) :
    ∃ array', op.exec array none = .ok (true, array', none) ∧
      array'.elements = op.onList array.elements ∧ array'.Sound := by
  have hblock := hsound.inBlock
  have hdx := (Storage.sound_iff hblock).mp hsound
  cases op with
  | insert newElem position =>
      obtain ⟨array', hinsert, helements, hsound'⟩ := hdx.dxArrayInsert newElem hvalid
      have hrefines := Storage.refines_dxArrayInsert hblock newElem
        (hvalid.trans_eq (Storage.length_elements hblock)) none
      rw [hinsert] at hrefines
      obtain ⟨result, hresult, hblock', rfl⟩ := hrefines.of_ok
      refine ⟨result, hresult, ?_, (Storage.sound_iff hblock').mpr hsound'⟩
      exact helements.trans (insertIdx_eq_arrayInsert hvalid).symm
  | delete position =>
      obtain ⟨array', hdelete, helements, hsound'⟩ := hdx.dxArrayDelete hvalid
      have hrefines := Storage.refines_dxArrayDelete hblock
        (hvalid.trans_eq (Storage.length_elements hblock)) none
      rw [hdelete] at hrefines
      obtain ⟨result, hresult, hblock', rfl⟩ := hrefines.of_ok
      refine ⟨result, hresult, ?_, (Storage.sound_iff hblock').mpr hsound'⟩
      exact helements.trans (eraseIdx_eq_arrayDelete _ _).symm

/-- Some operations are those on the list of the elements. -/
theorem runOps_valid {array : Storage α} (hsound : array.Sound) {ops : List (ArrayOp α)}
    (hvalid : ValidOps array.elements ops) :
    ∃ array', runOps array ops = .ok (true, array') ∧
      array'.elements = ops.foldl (fun l op => op.onList l) array.elements ∧ array'.Sound := by
  induction ops generalizing array with
  | nil => exact ⟨array, rfl, rfl, hsound⟩
  | cons op ops ih =>
      obtain ⟨array', hexec, helements, hsound'⟩ := ArrayOp.exec_none hsound hvalid.1
      have hrest : ValidOps array'.elements ops := helements ▸ hvalid.2
      obtain ⟨result, hrun, hresult, hsound''⟩ := ih hsound' hrest
      refine ⟨result, ?_, ?_, hsound''⟩
      · rw [runOps, hexec]
        exact hrun
      · rw [hresult, helements, List.foldl_cons]

/-- The elements of a dynamic array are those of the list operations, in a block of `capacity`
cells, and a search of a sorted array finds the place of the key. -/
theorem dxArray_insertIdx_eraseIdx :
    (∀ (array : Storage α) (ops : List (ArrayOp α)), array.Sound → ValidOps array.elements ops →
      ∃ array', runOps array ops = .ok (true, array') ∧
        array'.elements = ops.foldl (fun l op => op.onList l) array.elements ∧ array'.Sound) ∧
    ∀ (comparator : α → α → ℤ) (a : List α) (elem : α) (start stop : ℕ), Compares comparator →
      SortedBy comparator a → HoldsPlace comparator a elem start stop →
      ((binarySearch a start stop elem comparator).1 = true ↔
        ∃ x ∈ a, comparator x elem = 0) ∧
      ((binarySearch a start stop elem comparator).1 = true →
        ∃ x, a[(binarySearch a start stop elem comparator).2]? = some x ∧
          comparator x elem = 0) ∧
      ((binarySearch a start stop elem comparator).1 = false →
        (binarySearch a start stop elem comparator).2 ≤ a.length ∧
        ∀ j ≤ a.length, SortedBy comparator (a.insertIdx j elem) ↔
          j = (binarySearch a start stop elem comparator).2) := by
  refine ⟨fun array ops hsound hvalid => runOps_valid hsound hvalid, ?_⟩
  intro comparator a elem start stop hcompares hsorted hplace
  refine ⟨binarySearch_found_iff hcompares hsorted hplace, fun hfound => ?_, fun hmissing => ?_⟩
  · rcases binarySearch_answers hcompares hsorted hplace with ⟨-, hat⟩ | ⟨hmissing, -⟩
    · exact hat
    · rw [hfound] at hmissing
      exact absurd hmissing nofun
  · refine ⟨?_, fun j hj => binarySearch_place hcompares hsorted hplace hmissing hj⟩
    rcases binarySearch_answers hcompares hsorted hplace with ⟨hfound, -⟩ | ⟨-, hat⟩
    · rw [hmissing] at hfound
      exact absurd hfound nofun
    · exact hat.stop_le

theorem dxArray_insertIdx_eraseIdx_grow_shrink :
    (∃ array' : Storage ℕ,
      runOps .empty [.insert 5 0, .insert 9 1, .insert 7 1, .delete 0, .delete 0, .delete 0] =
        .ok (true, array') ∧ array'.elements = [] ∧ array'.Sound) ∧
    (binarySearch [3, 5, 5, 8] 1 4 7 numericComparator).1 = false :=
  ⟨dxArray_insertIdx_eraseIdx.1 _ _ ⟨le_rfl, rfl⟩ (by decide), by decide⟩

/-! ### Insertions that find a place -/

/-- One more element has a cell in the block, or the block is replaced. -/
def Storage.HasPlace (array : Storage α) : Prop :=
  (capacityManagerHalfer (array.size + 1) array.capacity).isSome ∨ array.size < array.cells.length

instance (array : Storage α) : Decidable array.HasPlace :=
  inferInstanceAs (Decidable (_ ∨ _))

/-- What an insertion leaves that finds a place, whether its allocation succeeds or not. -/
structure Storage.Inserted (array : Storage α) (newElem : α) (position : ℕ) (success : Bool)
    (array' : Storage α) : Prop where
  inBlock : array'.InBlock
  size_le : array'.size ≤ array'.capacity
  elements :
    array'.elements = if success then arrayInsert array.elements newElem position else array.elements
  sound : success = true → array.Sound → array'.Sound

/-- An insertion that finds a place stays within the block. -/
theorem Storage.dxArrayInsert_of_hasPlace {array : Storage α} (hblock : array.InBlock)
    (hsize : array.size ≤ array.capacity) (hplace : array.HasPlace) (newElem : α) {position : ℕ}
    (hposition : position ≤ array.size) (failIn : FailIn) :
    ∃ success array' failIn', array.dxArrayInsert newElem position failIn =
      .ok (success, array', failIn') ∧ array.Inserted newElem position success array' := by
  have hlength := Storage.length_elements hblock
  have hinserted : (arrayInsert array.elements newElem position).length = array.size + 1 := by
    rw [length_arrayInsert _ _ _ (hposition.trans_eq hlength.symm), hlength]
  have hrefines := Storage.refines_dxArrayInsert hblock newElem hposition failIn
  have hresize : array.toDxArray.elements.length = array.size := hlength
  unfold DxFeed.dxArrayInsert DxArray.resize at hrefines
  rw [hresize] at hrefines
  unfold Storage.HasPlace at hplace
  cases hmanager : capacityManagerHalfer (array.size + 1) array.capacity with
  | none =>
      have hcapacity := le_capacity_of_kept hmanager
      have hcell := hplace.resolve_left (by simp [hmanager])
      simp only [Storage.toDxArray, hmanager, if_true, hlength] at hrefines
      rw [if_pos (by omega)] at hrefines
      obtain ⟨array', hok, hblock', heq⟩ := hrefines.of_ok
      simp only [Storage.toDxArray, DxArray.mk.injEq] at heq
      have hsize' := Storage.length_elements hblock'
      rw [heq.1, hinserted] at hsize'
      refine ⟨true, array', failIn, hok, hblock', by omega, heq.1, fun _ hsound => ⟨by omega, ?_⟩⟩
      rw [heq.2.1, heq.2.2, hsound.allocated]
  | some capacity =>
      have hcapacity : array.size + 1 ≤ capacity := by
        rcases lt_of_resized hmanager with ⟨heq, -⟩ | ⟨-, hlt⟩ <;> omega
      simp only [Storage.toDxArray, hmanager] at hrefines
      cases hallocation : (allocate failIn).1 with
      | false =>
          simp only [hallocation, Bool.false_eq_true, if_false] at hrefines
          obtain ⟨array', hok, hblock', heq⟩ := hrefines.of_ok
          simp only [Storage.toDxArray, DxArray.mk.injEq] at heq
          have hsize' := Storage.length_elements hblock'
          rw [heq.1, hlength] at hsize'
          exact ⟨false, array', _, hok, hblock', by omega, heq.1, by simp⟩
      | true =>
          simp only [hallocation, if_true, hlength] at hrefines
          rw [if_pos hcapacity] at hrefines
          obtain ⟨array', hok, hblock', heq⟩ := hrefines.of_ok
          simp only [Storage.toDxArray, DxArray.mk.injEq] at heq
          have hsize' := Storage.length_elements hblock'
          rw [heq.1, hinserted] at hsize'
          refine ⟨true, array', _, hok, hblock', by omega, heq.1, fun _ _ => ⟨by omega, ?_⟩⟩
          rw [heq.2.1, heq.2.2]

/-! ### Allocations that fail -/

/-- What an operation that fails should leave behind: the elements and the size, in a block of
`capacity` cells. -/
structure Storage.Unharmed (array array' : Storage α) : Prop where
  cells_eq : array'.cells = array.cells
  size_eq : array'.size = array.size
  allocated : array'.capacity = array'.cells.length

/-- A failed operation has stored the capacity of the block that it did not get. -/
theorem ArrayOp.exec_failed {array array' : Storage α} {op : ArrayOp α} {failIn failIn' : FailIn}
    (h : op.exec array failIn = .ok (false, array', failIn')) :
    ∃ capacity, capacityManagerHalfer (op.newSize array.size) array.capacity = some capacity ∧
      array' = { array with capacity := capacity } := by
  cases op with
  | insert newElem position =>
      unfold exec Storage.dxArrayInsert at h
      rw [newSize]
      cases hmanager : capacityManagerHalfer (array.size + 1) array.capacity with
      | none => simp [hmanager, Storage.access_bind_eq_ok, pure, Except.pure] at h
      | some capacity =>
          simp only [hmanager] at h
          split_ifs at h with hallocation
          · simp [Storage.access_bind_eq_ok, pure, Except.pure] at h
          · simp only [pure, Except.pure, Except.ok.injEq, Prod.mk.injEq, true_and] at h
            exact ⟨capacity, rfl, h.1.symm⟩
  | delete position =>
      unfold exec Storage.dxArrayDelete at h
      rw [newSize]
      cases hmanager : capacityManagerHalfer (array.size - 1) array.capacity with
      | none => simp [hmanager, Storage.access_bind_eq_ok, pure, Except.pure] at h
      | some capacity =>
          simp only [hmanager] at h
          split_ifs at h with hallocation
          · simp [Storage.access_bind_eq_ok, pure, Except.pure] at h
          · simp only [pure, Except.pure, Except.ok.injEq, Prod.mk.injEq, true_and] at h
            exact ⟨capacity, rfl, h.1.symm⟩

/-- An operation whose allocation fails leaves the elements and the size, but never a `capacity`
that is the number of cells. -/
theorem not_unharmed_of_failed {array array' : Storage α} (hsound : array.Sound) {op : ArrayOp α}
    {failIn failIn' : FailIn}
    (hfailed : op.exec array failIn = .ok (false, array', failIn')) :
    (array'.cells = array.cells ∧ array'.size = array.size) ∧ ¬ array.Unharmed array' := by
  obtain ⟨capacity, hmanager, rfl⟩ := ArrayOp.exec_failed hfailed
  refine ⟨⟨rfl, rfl⟩, fun hunharmed => ?_⟩
  have hallocated : capacity = array.cells.length := hunharmed.allocated
  rw [← hsound.allocated] at hallocated
  rcases lt_of_resized hmanager with ⟨heq, hlt⟩ | ⟨-, hlt⟩ <;> omega

theorem not_unharmed_of_failed_full :
    (([7] : List ℕ) = [7] ∧ 1 = 1) ∧ ¬ (⟨[7], 1, 1⟩ : Storage ℕ).Unharmed ⟨[7], 1, 2⟩ :=
  @not_unharmed_of_failed ℕ _ ⟨[7], 1, 1⟩ ⟨[7], 1, 2⟩ ⟨by decide, rfl⟩ (.insert 8 1) (some 0) none
    rfl

/-- A full array of one element: the insertion that fails stores the capacity 2, and the next one
writes to the second cell of a block of one. -/
theorem not_unharmed_full :
    (⟨[7], 1, 1⟩ : Storage ℕ).Sound ∧
      (ArrayOp.insert 8 1).exec (⟨[7], 1, 1⟩ : Storage ℕ) (some 0) =
        .ok (false, ⟨[7], 1, 2⟩, none) ∧
      ¬ (⟨[7], 1, 1⟩ : Storage ℕ).Unharmed ⟨[7], 1, 2⟩ ∧
      (ArrayOp.insert 8 1).exec (⟨[7], 1, 2⟩ : Storage ℕ) none = .error .overrun :=
  ⟨⟨by decide, rfl⟩, rfl, fun hunharmed => absurd hunharmed.allocated (by decide), rfl⟩

/-- Behind an insertion into a full array that failed, the next one finds no need to grow and
writes past the block. -/
theorem overrun_of_failed_insert {array array' : Storage α} (hsound : array.Sound)
    (hfull : array.size = array.capacity) {newElem x : α} {position p : ℕ} (hp : p ≤ array.size)
    {failIn failIn' : FailIn}
    (hfailed : array.dxArrayInsert newElem position failIn = .ok (false, array', failIn')) :
    array'.dxArrayInsert x p none = .error .overrun := by
  obtain ⟨capacity, hmanager, rfl⟩ := ArrayOp.exec_failed
    (show (ArrayOp.insert newElem position).exec array failIn = _ from hfailed)
  change capacityManagerHalfer (array.size + 1) array.capacity = some capacity at hmanager
  have hallocated := hsound.allocated
  have hgrown : capacity = array.capacity * 3 / 2 + 1 := by
    unfold capacityManagerHalfer at hmanager
    rw [if_pos (by omega)] at hmanager
    exact (Option.some.inj hmanager).symm
  have hkept : capacityManagerHalfer (array.size + 1) capacity = none := by
    unfold capacityManagerHalfer
    rw [if_neg (by omega), if_neg (by omega)]
  have hcopy : Cells.copy array.cells (p + 1) array.cells p (array.size - p) = none :=
    Cells.copy_eq_none.mpr (by omega)
  unfold Storage.dxArrayInsert
  simp only [hkept, hcopy]
  rfl

end DxFeed
