import DxFeed.DynamicArray.Storage
import DxFeed.EventData

/-!
# The property map

`DXProperties.c`: a map from strings to strings, as an array that is sorted by the keys.  Every
allocation of a run may fail.

* `compareStrings`: `dx_compare_strings`, and the order of strings that it follows;
* `PropertyItem`, `PropertyMap`: the items, with null pointers, and their array;
* `set`, `clone`, `setMany`, `tryGetValue`: the functions of the map;
* `search_eq_binarySearch`: among items with keys, the search is `DX_ARRAY_BINARY_SEARCH`.
-/

namespace DxFeed.Properties

open SortedList

/-! ### Strings -/

/-- `dx_compare_strings`. -/
def compareStrings : WString → WString → ℤ
  | [], [] => 0
  | [], _ :: _ => -1
  | _ :: _, [] => 1
  | x :: xs, y :: ys => if x < y then -1 else if y < x then 1 else compareStrings xs ys

/-- The code units of a string, by which strings are ordered. -/
def stringKey (s : WString) : List ℕ := s.map UInt16.toNat

theorem stringKey_injective : Function.Injective stringKey :=
  List.map_injective_iff.mpr fun _ _ h => UInt16.toNat_inj.mp h

/-- Strings are compared from their first units on. -/
theorem compareStrings_orders : Orders compareStrings stringKey where
  zero_iff := by
    intro a b
    induction a generalizing b with
    | nil => cases b <;> simp [compareStrings, stringKey]
    | cons x a ih =>
        cases b with
        | nil => simp [compareStrings, stringKey]
        | cons y b =>
            rw [compareStrings]
            simp only [stringKey, List.map_cons, List.cons.injEq, UInt16.lt_iff_toNat_lt] at ih ⊢
            split_ifs with hlt hgt
            · simp [hlt.ne]
            · simp [hgt.ne']
            · rw [ih]
              exact (and_iff_right (by omega)).symm
  neg_iff := by
    intro a b
    induction a generalizing b with
    | nil => cases b <;> simp [compareStrings, stringKey]
    | cons x a ih =>
        cases b with
        | nil => simp [compareStrings, stringKey]
        | cons y b =>
            rw [compareStrings]
            simp only [stringKey, List.map_cons, List.cons_lt_cons_iff, UInt16.lt_iff_toNat_lt] at ih ⊢
            split_ifs with hlt hgt
            · simp [hlt]
            · simp [hgt.ne', hgt.not_gt]
            · rw [ih]
              constructor
              · exact fun h => Or.inr ⟨by omega, h⟩
              · rintro (h | ⟨-, h⟩)
                · exact absurd h hlt
                · exact h

/-! ### Items -/

/-- `dx_property_item_t`; `none` is a null pointer. -/
structure PropertyItem where
  key : Option WString
  value : Option WString
  deriving DecidableEq, Inhabited

/-- `dx_property_map_t`. -/
abbrev PropertyMap := Storage PropertyItem

/-- What ends a run: an access outside of a block, and a read through a null pointer. -/
inductive PropertyFault
  | memory (e : MemoryFault)
  | nullString
  deriving DecidableEq

/-- Which of the next allocations succeed. -/
abbrev Allocations := ℕ → Bool

/-- The allocations behind the next `n`. -/
def behind (n : ℕ) (a : Allocations) : Allocations := fun k => a (n + k)

/-- `dx_create_string_src` and `dx_create_empty_string`. -/
def createString (src : WString) (a : Allocations) : Option WString :=
  if a 0 then some src else none

/-! ### The functions -/

/-- The loop of `DX_ARRAY_BINARY_SEARCH` with `dx_property_item_comparator`. -/
def searchLoop (items : List PropertyItem) (key : WString) :
    ℕ → ℕ → ℕ → Except PropertyFault (Bool × ℕ)
  | 0, _, stop => .ok (false, stop)
  | fuel + 1, start, stop =>
      if start < stop then
        let mid := (start + stop) / 2
        match items[mid]? with
        | none => .error (.memory .overrun)
        | some ⟨none, _⟩ => .error .nullString
        | some ⟨some itemKey, _⟩ =>
            if compareStrings itemKey key = 0 then .ok (true, mid)
            else if compareStrings itemKey key < 0 then searchLoop items key fuel (mid + 1) stop
            else searchLoop items key fuel start mid
      else .ok (false, stop)

/-- The search for a key. -/
def search (props : PropertyMap) (key : WString) : Except PropertyFault (Bool × ℕ) :=
  searchLoop props.elements key props.size 0 props.size

/-- `dx_property_map_try_get_value`. -/
def tryGetValue (props : PropertyMap) (key : WString) :
    Except PropertyFault (Option (Option WString)) := do
  let (found, index) ← search props key
  if found then
    match props.elements[index]? with
    | none => .error (.memory .overrun)
    | some item => return some item.value
  else return none

/-- `dx_property_map_set` for a key that is there. -/
def replaceValue (props : PropertyMap) (index : ℕ) (value : WString) (a : Allocations) :
    Except PropertyFault (Bool × PropertyMap × Allocations) :=
  match props.elements[index]? with
  | none => .error (.memory .overrun)
  | some ⟨_, none⟩ => .error .nullString
  | some ⟨itemKey, some old⟩ =>
      if compareStrings old value = 0 then .ok (true, props, a)
      else
        match createString value a with
        | none => .ok (false, props, behind 1 a)
        | some copy =>
            match Cells.write props.cells index ⟨itemKey, some copy⟩ with
            | none => .error (.memory .overrun)
            | some cells => .ok (true, { props with cells := cells }, behind 1 a)

/-- `DX_ARRAY_INSERT` of a new item. -/
def insertItem (props : PropertyMap) (item : PropertyItem) (index : ℕ) (a : Allocations) :
    Except PropertyFault (Bool × PropertyMap × Allocations) :=
  match props.dxArrayInsert item index (if a 0 then none else some 0) with
  | .error e => .error (.memory e)
  | .ok (success, props', _) => .ok (success, props',
      if (capacityManagerHalfer (props.size + 1) props.capacity).isSome then behind 1 a else a)

/-- `dx_property_map_set` for a key that is not there. -/
def insertPair (props : PropertyMap) (index : ℕ) (key value : WString) (a : Allocations) :
    Except PropertyFault (Bool × PropertyMap × Allocations) :=
  match createString key a, createString value (behind 1 a) with
  | some key, some value => insertItem props ⟨some key, some value⟩ index (behind 2 a)
  | _, _ => .ok (false, props, behind 2 a)

/-- `dx_property_map_set`. -/
def set (props : PropertyMap) (key value : Option WString) (a : Allocations) :
    Except PropertyFault (Bool × PropertyMap × Allocations) :=
  match key, value with
  | some key, some value => do
      let (found, index) ← search props key
      if found then replaceValue props index value a else insertPair props index key value a
  | _, _ => .ok (false, props, a)

/-- `DX_ARRAY_RESERVE` on an array that was freed. -/
def reserve (reserveSize : ℕ) (a : Allocations) : Bool × PropertyMap × Allocations :=
  if reserveSize = 0 then (true, .empty, a)
  else if a 0 then
    (true, ⟨List.replicate reserveSize default, reserveSize, reserveSize⟩, behind 1 a)
  else (false, .empty, behind 1 a)

/-- A copy of a string in `dx_property_map_clone`, which is not tested. -/
def cloneString (src : Option WString) (a : Allocations) : Except PropertyFault (Option WString) :=
  match src with
  | none => .error .nullString
  | some src => .ok (createString src a)

/-- The loop of `dx_property_map_clone`, for the items that are left. -/
def cloneLoop : List PropertyItem → ℕ → PropertyMap → Allocations →
    Except PropertyFault (PropertyMap × Allocations)
  | [], _, dest, a => .ok (dest, a)
  | item :: items, i, dest, a => do
      let key ← cloneString item.key a
      let value ← cloneString item.value (behind 1 a)
      match Cells.write dest.cells i ⟨key, value⟩ with
      | none => .error (.memory .overrun)
      | some cells => cloneLoop items (i + 1) { dest with cells := cells } (behind 2 a)

/-- `dx_property_map_clone` behind `dx_property_map_free_collection`. -/
def clone (src : PropertyMap) (a : Allocations) :
    Except PropertyFault (Bool × PropertyMap × Allocations) :=
  match reserve src.size a with
  | (false, dest, a) => .ok (false, dest, a)
  | (true, dest, a) => do
      let (dest, a) ← cloneLoop src.elements 0 dest a
      return (true, dest, a)

/-- The loop of `dx_property_map_set_many`; `none` is a map that was freed. -/
def setAll (temp : PropertyMap) : List PropertyItem → Allocations →
    Except PropertyFault (Option PropertyMap × Allocations)
  | [], a => .ok (some temp, a)
  | item :: items, a => do
      let (success, temp, a) ← set temp item.key item.value a
      if success then setAll temp items a else return (none, a)

/-- `dx_property_map_set_many`. -/
def setMany (props : PropertyMap) (other : List PropertyItem) (a : Allocations) :
    Except PropertyFault (Bool × PropertyMap × Allocations) := do
  let (success, temp, a) ← clone props a
  if success then
    match ← setAll temp other a with
    | (some temp, a) => return (true, temp, a)
    | (none, a) => return (false, props, a)
  else return (false, props, a)

/-! ### The search -/

/-- The units of the key of an item. -/
def itemKey (item : PropertyItem) : List ℕ := stringKey (item.key.getD [])

/-- `dx_property_item_comparator` on items with keys. -/
def propertyItemComparator (item1 item2 : PropertyItem) : ℤ :=
  compareStrings (item1.key.getD []) (item2.key.getD [])

theorem propertyItemComparator_orders : Orders propertyItemComparator itemKey where
  zero_iff _ _ := compareStrings_orders.zero_iff _ _
  neg_iff _ _ := compareStrings_orders.neg_iff _ _

/-- Both strings of every item are there. -/
def HasStrings (items : List PropertyItem) : Prop :=
  ∀ item ∈ items, item.key.isSome ∧ item.value.isSome

variable {items : List PropertyItem}

/-- Among items with keys the search does not fail. -/
theorem searchLoop_eq (hstrings : HasStrings items) (key : WString) (fuel : ℕ) {start stop : ℕ}
    (hstop : stop ≤ items.length) :
    searchLoop items key fuel start stop =
      .ok (binarySearchLoop items ⟨some key, none⟩ propertyItemComparator fuel start stop) := by
  induction fuel generalizing start stop with
  | zero => rfl
  | succ fuel ih =>
      rw [searchLoop, binarySearchLoop]
      by_cases hlt : start < stop
      · have hmid : (start + stop) / 2 < items.length := by omega
        rw [if_pos hlt, if_pos hlt]
        simp only [List.getElem?_eq_getElem hmid]
        obtain ⟨itemKey, hkey⟩ :=
          Option.isSome_iff_exists.mp (hstrings _ (List.getElem_mem hmid)).1
        have hitem : items[(start + stop) / 2] = ⟨some itemKey, items[(start + stop) / 2].value⟩ := by
          rw [← hkey]
        have hcompare : propertyItemComparator items[(start + stop) / 2] ⟨some key, none⟩ =
            compareStrings itemKey key := by
          rw [propertyItemComparator, hkey]
          rfl
        rw [hcompare, hitem]
        simp only
        by_cases hequal : compareStrings itemKey key = 0
        · rw [if_pos hequal, if_pos hequal]
        · rw [if_neg hequal, if_neg hequal]
          by_cases hless : compareStrings itemKey key < 0
          · rw [if_pos hless, if_pos hless]
            exact ih hstop
          · rw [if_neg hless, if_neg hless]
            exact ih hmid.le
      · rw [if_neg hlt, if_neg hlt]

theorem search_eq_binarySearch {props : PropertyMap} (hblock : props.InBlock)
    (hstrings : HasStrings props.elements) (key : WString) :
    search props key =
      .ok (binarySearch props.elements 0 props.elements.length ⟨some key, none⟩
        propertyItemComparator) := by
  have hlength := Storage.length_elements hblock
  rw [search, searchLoop_eq hstrings key _ hlength.ge, binarySearch, hlength, Nat.sub_zero]

end DxFeed.Properties
