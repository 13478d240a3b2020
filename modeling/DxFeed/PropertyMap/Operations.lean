import DxFeed.DynamicArray.Operations
import DxFeed.PropertyMap

/-!
# What the functions of the property map do

* `Valid`: the strings are there, the keys are strictly increasing, and the items are in the block;
* `content`: the map as a function, and `setContent`, a change of one key;
* `CopiesStrings`: a clone gets its strings;
* `Valid.set`, `Valid.clone`, `Valid.setMany`: the functions on the content, however their
  allocations end.

A failed growth leaves a `capacity` beyond the block, so that the next insertion may have no place;
`dx_property_map_clone` does not test its strings, which may be null pointers then.
-/

namespace DxFeed.Properties

open SortedList

/-- What the functions keep. -/
structure Valid (props : PropertyMap) : Prop where
  inBlock : props.InBlock
  size_le : props.size ≤ props.capacity
  strings : HasStrings props.elements
  sorted : KeySorted itemKey props.elements

/-- A map as a function. -/
abbrev Content := WString → Option WString

/-- The values of the keys. -/
def content (props : PropertyMap) : Content := fun key =>
  (lookup itemKey props.elements (stringKey key)).bind (·.value)

/-- A change of one key. -/
def setContent (contents : Content) (key value : Option WString) : Content :=
  match key, value with
  | some key, some value => Function.update contents key (some value)
  | _, _ => contents

/-- If a clone gets its block, then it gets the copies of all strings. -/
def CopiesStrings (src : PropertyMap) (a : Allocations) : Prop :=
  a 0 = true → ∀ k < 2 * src.size, a (1 + k) = true

theorem valid_empty : Valid .empty where
  inBlock := le_rfl
  size_le := le_rfl
  strings := nofun
  sorted := keySorted_nil

@[simp] theorem content_empty : content .empty = fun _ => none := rfl

/-! ### The search and the content -/

variable {props : PropertyMap} {l₁ l₂ : List PropertyItem} {item : PropertyItem}

theorem Valid.length_elements (hvalid : Valid props) : props.elements.length = props.size :=
  Storage.length_elements hvalid.inBlock

theorem Valid.search (hvalid : Valid props) (key : WString) :
    ∃ found index, search props key = .ok (found, index) ∧
      Located itemKey (stringKey key) props.elements found index :=
  have hlocated := binarySearch_located_full (⟨some key, none⟩ : PropertyItem)
    propertyItemComparator_orders hvalid.sorted
  ⟨_, _, search_eq_binarySearch hvalid.inBlock hvalid.strings key, hlocated⟩

theorem content_of_found (hsorted : KeySorted itemKey props.elements)
    (helements : props.elements = l₁ ++ item :: l₂) {key : WString}
    (hkey : itemKey item = stringKey key) : content props key = item.value := by
  have hmem : item ∈ props.elements := helements ▸ List.mem_append_right l₁ List.mem_cons_self
  rw [content, ← hkey, lookup_of_mem hsorted hmem, Option.bind_some]

theorem content_of_missing (helements : props.elements = l₁ ++ l₂) {key : WString}
    (h₁ : ∀ a ∈ l₁, itemKey a < stringKey key) (h₂ : ∀ b ∈ l₂, stringKey key < itemKey b) :
    content props key = none := by
  have hnone : lookup itemKey props.elements (stringKey key) = none := by
    rw [lookup_eq_none, helements]
    intro a ha
    rcases List.mem_append.mp ha with ha | ha
    · exact (h₁ a ha).ne
    · exact (h₂ a ha).ne'
  rw [content, hnone]
  rfl

/-- `dx_property_map_try_get_value` reads the content. -/
theorem Valid.tryGetValue (hvalid : Valid props) (key : WString) :
    tryGetValue props key = .ok ((content props key).map some) := by
  obtain ⟨found, index, hsearch, hlocated⟩ := hvalid.search key
  rw [Properties.tryGetValue, hsearch]
  simp only [bind, Except.bind, pure, Except.pure]
  generalize helements : props.elements = elements at hlocated
  cases hlocated with
  | found l₁ item l₂ hkey =>
      have hmem : item ∈ props.elements := helements ▸ List.mem_append_right l₁ List.mem_cons_self
      obtain ⟨value, hvalue⟩ := Option.isSome_iff_exists.mp (hvalid.strings item hmem).2
      rw [content_of_found hvalid.sorted helements hkey, hvalue, if_pos rfl,
        getElem?_append_cons]
      simp only [hvalue, Option.map_some]
  | missing l₁ l₂ h₁ h₂ =>
      rw [content_of_missing helements h₁ h₂, if_neg Bool.false_ne_true]
      rfl

theorem lookup_of_ne {k : List ℕ} (hne : itemKey item ≠ k) :
    lookup itemKey (l₁ ++ item :: l₂) k = lookup itemKey (l₁ ++ l₂) k := by
  rw [lookup_append, lookup_cons, if_neg hne, lookup_append]

/-- An item under a key changes its value only. -/
theorem content_of_elements {props' : PropertyMap} (hsorted : KeySorted itemKey props'.elements)
    (helements : props'.elements = l₁ ++ item :: l₂) {key : WString}
    (hkey : itemKey item = stringKey key)
    (hother : ∀ k ≠ stringKey key,
      lookup itemKey props.elements k = lookup itemKey (l₁ ++ l₂) k) :
    content props' = Function.update (content props) key item.value := by
  funext k
  by_cases hk : k = key
  · subst hk
    rw [content_of_found hsorted helements hkey, Function.update_self]
  · have hne := stringKey_injective.ne hk
    rw [Function.update_of_ne hk, content, content, helements,
      lookup_of_ne (hkey.trans_ne hne.symm), hother _ hne]

theorem hasStrings_append_cons :
    HasStrings (l₁ ++ item :: l₂) ↔
      (item.key.isSome ∧ item.value.isSome) ∧ HasStrings (l₁ ++ l₂) := by
  unfold HasStrings
  constructor
  · intro h
    refine ⟨h item (by simp), fun x hx => h x ?_⟩
    rcases List.mem_append.mp hx with hx | hx
    · exact List.mem_append_left _ hx
    · exact List.mem_append_right _ (List.mem_cons_of_mem _ hx)
  · rintro ⟨hitem, h⟩ x hx
    rcases List.mem_append.mp hx with hx | hx
    · exact h x (List.mem_append_left _ hx)
    · rcases List.mem_cons.mp hx with rfl | hx
      · exact hitem
      · exact h x (List.mem_append_right _ hx)

/-! ### One pair -/

/-- How a function that may fail ends. -/
def EndsAs (r : Except PropertyFault (Bool × PropertyMap × Allocations))
    (failed succeeded : PropertyMap → Prop) : Prop :=
  ∃ success props a, r = .ok (success, props, a) ∧ if success then succeeded props else failed props

/-- What a change of one key leaves when it fails. -/
def Unchanged (props props' : PropertyMap) : Prop :=
  Valid props' ∧ content props' = content props

/-- What a change of one key leaves when it succeeds. -/
def Changed (props : PropertyMap) (key value : Option WString) (props' : PropertyMap) : Prop :=
  Valid props' ∧ content props' = setContent (content props) key value ∧
    (key.isSome ∧ value.isSome) ∧ (props.Sound → props'.Sound)

/-- An item with both strings at the place of its key is a change of the key. -/
theorem changed_of_elements {props' : PropertyMap} {itemKey' key value : WString}
    (hblock : props'.InBlock) (hsize : props'.size ≤ props'.capacity)
    (helements : props'.elements = l₁ ++ ⟨some itemKey', some value⟩ :: l₂)
    (hkey : stringKey itemKey' = stringKey key) (hstrings : HasStrings (l₁ ++ l₂))
    (hsorted : KeySorted itemKey (l₁ ++ ⟨some itemKey', some value⟩ :: l₂))
    (hother : ∀ k ≠ stringKey key, lookup itemKey props.elements k = lookup itemKey (l₁ ++ l₂) k)
    (hsound : props.Sound → props'.Sound) : Changed props (some key) (some value) props' := by
  rw [← helements] at hsorted
  refine ⟨⟨hblock, hsize, ?_, hsorted⟩, ?_, ⟨rfl, rfl⟩, hsound⟩
  · rw [helements]
    exact hasStrings_append_cons.mpr ⟨⟨rfl, rfl⟩, hstrings⟩
  · exact content_of_elements hsorted helements hkey hother

theorem elements_set (helements : props.elements = l₁ ++ item :: l₂) (x : PropertyItem) :
    Storage.elements { props with cells := props.cells.set l₁.length x } = l₁ ++ x :: l₂ := by
  have htake : props.cells.take props.size = l₁ ++ item :: l₂ := helements
  rw [Storage.elements, List.take_set, htake, List.set_append_right _ _ le_rfl, Nat.sub_self,
    List.set_cons_zero]

/-- A value takes the place of another one. -/
theorem Valid.replaceValue (hvalid : Valid props) (helements : props.elements = l₁ ++ item :: l₂)
    {key : WString} (hkey : itemKey item = stringKey key) (value : WString) (a : Allocations) :
    EndsAs (replaceValue props l₁.length value a) (Unchanged props)
      (Changed props (some key) (some value)) := by
  have hmem : item ∈ props.elements := helements ▸ List.mem_append_right l₁ List.mem_cons_self
  have hcontent := content_of_found hvalid.sorted helements hkey
  have hat : props.elements[l₁.length]? = some item := by
    rw [helements, getElem?_append_cons]
  obtain ⟨oldKey, old⟩ := item
  obtain ⟨⟨oldKey, rfl⟩, old, rfl⟩ :=
    (hvalid.strings _ hmem).imp Option.isSome_iff_exists.mp Option.isSome_iff_exists.mp
  unfold Properties.replaceValue
  rw [hat]
  simp only
  by_cases hequal : compareStrings old value = 0
  · -- the value is there
    rw [if_pos hequal]
    have hvalue : old = value :=
      stringKey_injective ((compareStrings_orders.zero_iff _ _).mp hequal)
    refine ⟨true, props, a, rfl, hvalid, ?_, ⟨rfl, rfl⟩, id⟩
    simp only at hcontent
    simp only [setContent]
    rw [← hvalue, ← hcontent, Function.update_eq_self]
  · rw [if_neg hequal]
    cases hcopy : createString value a with
    | none => exact ⟨false, props, behind 1 a, rfl, hvalid, rfl⟩
    | some copy =>
        obtain rfl : value = copy := by
          unfold createString at hcopy
          split_ifs at hcopy
          exact Option.some.inj hcopy
        have hlength := hvalid.length_elements
        have hsize : l₁.length < props.cells.length := by
          have hblock : props.size ≤ props.cells.length := hvalid.inBlock
          rw [helements, List.length_append, List.length_cons] at hlength
          omega
        have hwrite : Cells.write props.cells l₁.length ⟨some oldKey, some value⟩ = some _ :=
          Cells.write_eq_some.mpr ⟨hsize, rfl⟩
        simp only [hwrite]
        refine ⟨true, _, behind 1 a, rfl, ?_⟩
        have hold : KeySorted itemKey (l₁ ++ ⟨some oldKey, some old⟩ :: l₂) :=
          helements ▸ hvalid.sorted
        refine changed_of_elements ?_ hvalid.size_le
          (elements_set helements ⟨some oldKey, some value⟩) hkey
          (hasStrings_append_cons.mp (helements ▸ hvalid.strings)).2 (hold.replace rfl)
          (fun k hk => ?_) fun hsound => ⟨hvalid.size_le, ?_⟩
        · exact hvalid.inBlock.trans_eq (List.length_set ..).symm
        · rw [helements, lookup_of_ne (hkey.trans_ne hk.symm)]
        · exact hsound.allocated.trans (List.length_set ..).symm

/-- A new item takes the place of its key. -/
theorem Valid.insertItem (hvalid : Valid props) (hplace : props.HasPlace)
    (helements : props.elements = l₁ ++ l₂) {key : WString}
    (h₁ : ∀ a ∈ l₁, itemKey a < stringKey key) (h₂ : ∀ b ∈ l₂, stringKey key < itemKey b)
    (value : WString) (a : Allocations) :
    EndsAs (insertItem props ⟨some key, some value⟩ l₁.length a) (Unchanged props)
      (Changed props (some key) (some value)) := by
  have hlength := hvalid.length_elements
  rw [helements, List.length_append] at hlength
  obtain ⟨success, props', failIn', hinsert, hinserted⟩ := Storage.dxArrayInsert_of_hasPlace
    hvalid.inBlock hvalid.size_le hplace ⟨some key, some value⟩
    (show l₁.length ≤ props.size by omega) (if a 0 then none else some 0)
  rw [Properties.insertItem, hinsert]
  refine ⟨success, props', _, rfl, ?_⟩
  have helements' := hinserted.elements
  cases success with
  | false =>
      have hsame : props'.elements = props.elements := helements'
      refine ⟨⟨hinserted.inBlock, hinserted.size_le, hsame ▸ hvalid.strings, ?_⟩, ?_⟩
      · rw [hsame]
        exact hvalid.sorted
      · unfold content
        rw [hsame]
  | true =>
      rw [if_pos rfl, helements, arrayInsert_append] at helements'
      have hold : KeySorted itemKey (l₁ ++ l₂) := helements ▸ hvalid.sorted
      refine changed_of_elements hinserted.inBlock hinserted.size_le helements' rfl
        (helements ▸ hvalid.strings) (hold.insert h₁ h₂) (fun k _ => ?_) (hinserted.sound rfl)
      rw [helements]

/-- Where a new key would need a place that is not there, a string is not copied. -/
def FindsPlace (props : PropertyMap) (key value : Option WString) (a : Allocations) : Prop :=
  match key, value with
  | some key, some _ =>
      content props key = none → a 0 = true → a 1 = true → props.HasPlace
  | _, _ => True

/-- `dx_property_map_set` changes one key, or it leaves the content. -/
theorem Valid.set (hvalid : Valid props) {key value : Option WString} {a : Allocations}
    (hplace : FindsPlace props key value a) :
    EndsAs (set props key value a) (Unchanged props) (Changed props key value) := by
  cases key with
  | none => exact ⟨false, props, a, rfl, hvalid, rfl⟩
  | some key =>
      cases value with
      | none => exact ⟨false, props, a, rfl, hvalid, rfl⟩
      | some value =>
          obtain ⟨found, index, hsearch, hlocated⟩ := hvalid.search key
          unfold Properties.set
          simp only [hsearch, bind, Except.bind]
          generalize helements : props.elements = elements at hlocated
          cases hlocated with
          | found l₁ item l₂ hkey =>
              rw [if_pos rfl]
              exact hvalid.replaceValue helements hkey value a
          | missing l₁ l₂ h₁ h₂ =>
              have hmissing := content_of_missing helements h₁ h₂
              rw [if_neg Bool.false_ne_true]
              unfold insertPair createString
              by_cases hkey : a 0 = true
              · by_cases hvalue : a 1 = true
                · have hbehind : behind 1 a 0 = true := hvalue
                  simp only [hkey, hbehind, if_true]
                  exact hvalid.insertItem (hplace hmissing hkey hvalue) helements h₁ h₂ value _
                · have hbehind : ¬ behind 1 a 0 = true := hvalue
                  simp only [hkey, hbehind, if_true]
                  exact ⟨false, props, _, rfl, hvalid, rfl⟩
              · simp only [hkey]
                exact ⟨false, props, _, rfl, hvalid, rfl⟩

/-! ### Copies of a map -/

/-- The map that a clone is. -/
def copyOf (props : PropertyMap) : PropertyMap := ⟨props.elements, props.size, props.size⟩

theorem Valid.elements_copyOf (hvalid : Valid props) : (copyOf props).elements = props.elements := by
  rw [copyOf, Storage.elements]
  exact List.take_of_length_le hvalid.length_elements.le

theorem Valid.content_copyOf (hvalid : Valid props) : content (copyOf props) = content props := by
  unfold content
  rw [hvalid.elements_copyOf]

theorem Valid.sound_copyOf (hvalid : Valid props) : (copyOf props).Sound where
  size_le := le_rfl
  allocated := hvalid.length_elements.symm

theorem Valid.valid_copyOf (hvalid : Valid props) : Valid (copyOf props) where
  inBlock := hvalid.length_elements.ge
  size_le := le_rfl
  strings := hvalid.elements_copyOf.symm ▸ hvalid.strings
  sorted := hvalid.elements_copyOf.symm ▸ hvalid.sorted

/-- The loop of a clone writes the items behind those that it has written. -/
theorem cloneLoop_eq {items : List PropertyItem} (hstrings : HasStrings items)
    (front : List PropertyItem) {back : List PropertyItem} (hback : items.length = back.length)
    {size capacity : ℕ} {a : Allocations} (hcopies : ∀ k < 2 * items.length, a k = true) :
    cloneLoop items front.length ⟨front ++ back, size, capacity⟩ a =
      .ok (⟨front ++ items, size, capacity⟩, behind (2 * items.length) a) := by
  induction items generalizing front back a with
  | nil =>
      obtain rfl := List.length_eq_zero_iff.mp hback.symm
      have ha : behind 0 a = a := funext fun k => congrArg a (Nat.zero_add k)
      rw [cloneLoop, List.length_nil, Nat.mul_zero, ha]
  | cons item items ih =>
      obtain ⟨blank, back, rfl⟩ := List.exists_cons_of_length_eq_add_one hback.symm
      obtain ⟨⟨key, hkey⟩, value, hvalue⟩ := (hstrings item List.mem_cons_self).imp
        Option.isSome_iff_exists.mp Option.isSome_iff_exists.mp
      have hitem : item = ⟨some key, some value⟩ := by rw [← hkey, ← hvalue]
      have hfirst : a 0 = true := hcopies 0 (by simp)
      have hsecond : behind 1 a 0 = true := hcopies 1 (by rw [List.length_cons]; omega)
      have hwrite : Cells.write (front ++ blank :: back) front.length item =
          some ((front ++ [item]) ++ back) := by
        refine Cells.write_eq_some.mpr ⟨by simp, ?_⟩
        rw [List.set_append_right _ _ le_rfl, Nat.sub_self, List.set_cons_zero,
          List.append_assoc, List.singleton_append]
      have hrest := ih (fun x hx => hstrings x (List.mem_cons_of_mem _ hx)) (front ++ [item])
        (Nat.succ.inj hback) (a := behind 2 a)
        fun k hk => hcopies (2 + k) (by rw [List.length_cons]; omega)
      rw [List.length_append, List.length_singleton] at hrest
      have hbehind : behind (2 * items.length) (behind 2 a) =
          behind (2 * (item :: items).length) a := by
        funext k
        unfold behind
        rw [List.length_cons]
        congr 1
        omega
      rw [cloneLoop, hkey, hvalue]
      simp only [cloneString, createString, hfirst, hsecond, if_true, bind, Except.bind]
      rw [← hitem, hwrite]
      simp only
      rw [hrest, hbehind, List.append_assoc, List.singleton_append]

/-- `dx_property_map_clone` copies the map, or it leaves an empty one. -/
theorem Valid.clone (hvalid : Valid props) {a : Allocations} (hcopies : CopiesStrings props a) :
    EndsAs (clone props a) (· = .empty) (· = copyOf props) := by
  have hlength := hvalid.length_elements
  unfold Properties.clone reserve
  by_cases hsize : props.size = 0
  · have hnil : props.elements = [] := List.length_eq_zero_iff.mp (hlength.trans hsize)
    rw [if_pos hsize, hnil]
    refine ⟨true, .empty, a, rfl, ?_⟩
    rw [copyOf, hnil, hsize]
    rfl
  · rw [if_neg hsize]
    by_cases hblock : a 0 = true
    · rw [if_pos hblock]
      have hback : props.elements.length =
          (List.replicate props.size (default : PropertyItem)).length := by
        rw [List.length_replicate, hlength]
      have hloop : cloneLoop props.elements 0
          ⟨List.replicate props.size default, props.size, props.size⟩ (behind 1 a) =
            .ok (copyOf props, _) :=
        cloneLoop_eq hvalid.strings [] hback fun k hk => hcopies hblock k (hlength ▸ hk)
      simp only [hloop, bind, Except.bind]
      exact ⟨true, copyOf props, _, rfl, rfl⟩
    · rw [if_neg hblock]
      exact ⟨false, .empty, _, rfl, rfl⟩

/-! ### Several pairs -/

/-- The pairs of some items, one after the other. -/
def setContents (contents : Content) (items : List PropertyItem) : Content :=
  items.foldl (fun contents item => setContent contents item.key item.value) contents

/-- Where `capacity` is the number of the cells, every insertion finds a place. -/
theorem hasPlace_of_sound {array : PropertyMap} (hsound : array.Sound) : array.HasPlace := by
  unfold Storage.HasPlace
  cases hmanager : capacityManagerHalfer (array.size + 1) array.capacity with
  | some capacity => exact Or.inl rfl
  | none =>
      have hle := le_capacity_of_kept hmanager
      have hallocated := hsound.allocated
      exact Or.inr (by omega)

theorem findsPlace_of_sound (hsound : props.Sound) (key value : Option WString) (a : Allocations) :
    FindsPlace props key value a := by
  unfold FindsPlace
  split
  · exact fun _ _ _ => hasPlace_of_sound hsound
  · trivial

/-- The loop of `dx_property_map_set_many` sets all pairs, or it frees the map. -/
theorem setAll_spec (hvalid : Valid props) (hsound : props.Sound) (items : List PropertyItem)
    (a : Allocations) :
    ∃ result a', setAll props items a = .ok (result, a') ∧ ∀ props' ∈ result,
      Valid props' ∧ content props' = setContents (content props) items ∧
        ∀ item ∈ items, item.key.isSome ∧ item.value.isSome := by
  induction items generalizing props a with
  | nil =>
      refine ⟨some props, a, rfl, fun props' hprops' => ?_⟩
      obtain rfl := Option.mem_some.mp hprops'
      exact ⟨hvalid, rfl, nofun⟩
  | cons item items ih =>
      obtain ⟨success, temp, a', hset, hends⟩ :=
        hvalid.set (findsPlace_of_sound hsound item.key item.value a)
      rw [setAll, hset]
      simp only [bind, Except.bind]
      cases success with
      | false => exact ⟨none, a', rfl, nofun⟩
      | true =>
          obtain ⟨hvalid', hcontent', hsome, hsound'⟩ := hends
          obtain ⟨result, a'', hall, hresult⟩ := ih hvalid' (hsound' hsound) a'
          rw [if_pos rfl]
          refine ⟨result, a'', hall, fun props' hprops' => ?_⟩
          obtain ⟨hvalid'', hcontent'', hitems⟩ := hresult props' hprops'
          refine ⟨hvalid'', ?_, List.forall_mem_cons.mpr ⟨hsome, hitems⟩⟩
          rw [hcontent'', hcontent']
          rfl

/-- `dx_property_map_set_many` sets all pairs, or it leaves the map as it was. -/
theorem Valid.setMany (hvalid : Valid props) {a : Allocations} (hcopies : CopiesStrings props a)
    (other : List PropertyItem) :
    EndsAs (setMany props other a) (· = props) fun props' =>
      Valid props' ∧ content props' = setContents (content props) other ∧
        ∀ item ∈ other, item.key.isSome ∧ item.value.isSome := by
  obtain ⟨success, temp, a', hclone, hends⟩ := hvalid.clone hcopies
  rw [Properties.setMany, hclone]
  simp only [bind, Except.bind]
  cases success with
  | false => exact ⟨false, props, a', rfl, rfl⟩
  | true =>
      obtain rfl : temp = copyOf props := hends
      obtain ⟨result, a'', hall, hresult⟩ :=
        setAll_spec hvalid.valid_copyOf hvalid.sound_copyOf other a'
      rw [if_pos rfl, hall]
      cases result with
      | none => exact ⟨false, props, a'', rfl, rfl⟩
      | some props' =>
          obtain ⟨hvalid', hcontent', hitems⟩ := hresult props' rfl
          exact ⟨true, props', a'', rfl, hvalid', hvalid.content_copyOf ▸ hcontent', hitems⟩

end DxFeed.Properties
