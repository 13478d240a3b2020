import DxFeed.Algorithms

/-!
# The map from server record ids to local record ids

The map of `DataStructures.c` has two parts: an array for the ids below 1000 and a sorted
array of pairs for all other ids.

* `ServerLocalRecordIdMap`, with `getRecordId` and `assignServerRecordId`;
* `held`: what the map holds for an id;
* `held_assign`: assigning an id changes what is held for that id only.
-/

namespace DxFeed.ServerMessageProcessor

open SortedList

abbrev RecordId := Int32

/-- `DX_RECORD_ID_INVALID`. -/
def recordIdInvalid : RecordId := -1

/-- The element of a list that a record id stands for. -/
def atRecordId {α : Type} (l : List α) (recordId : RecordId) : Option α :=
  if recordId.toInt < 0 then none else l[recordId.toInt.toNat]?

/-- `RECORD_ID_VECTOR_SIZE`. -/
def recordIdVectorSize : ℕ := 1000

/-- `dx_record_id_pair_t`. -/
structure RecordIdPair where
  serverRecordId : Int32
  localRecordId : RecordId
  deriving DecidableEq, Repr

def RecordIdPair.key (pair : RecordIdPair) : ℤ :=
  pair.serverRecordId.toInt

/-- `dx_server_local_record_id_map_t`. -/
structure ServerLocalRecordIdMap where
  frequentIds : Fin recordIdVectorSize → RecordId
  idMap : List RecordIdPair
  sorted : KeySorted RecordIdPair.key idMap

namespace ServerLocalRecordIdMap

/-- The map of a new connection. -/
def empty : ServerLocalRecordIdMap where
  frequentIds _ := recordIdInvalid
  idMap := []
  sorted := List.Pairwise.nil

/-- `RECORD_ID_PAIR_COMPARATOR`. -/
def recordIdPairComparator (left right : RecordIdPair) : ℤ :=
  numericComparator left.key right.key

theorem recordIdPairComparator_orders : Orders recordIdPairComparator RecordIdPair.key :=
  numericComparator_orders RecordIdPair.key

/-- The place of an id in the array of frequent ids. -/
def frequentIndex (serverRecordId : Int32) : Option (Fin recordIdVectorSize) :=
  if h : 0 ≤ serverRecordId.toInt ∧ serverRecordId.toInt < recordIdVectorSize then
    some ⟨serverRecordId.toInt.toNat, by omega⟩
  else none

variable (map : ServerLocalRecordIdMap)

/-- `DX_ARRAY_SEARCH` of the pairs. -/
def search (pair : RecordIdPair) : Bool × ℕ :=
  binarySearch map.idMap 0 map.idMap.length pair recordIdPairComparator

theorem search_located (pair : RecordIdPair) :
    Located RecordIdPair.key pair.key map.idMap (map.search pair).1 (map.search pair).2 :=
  binarySearch_located_full pair recordIdPairComparator_orders map.sorted

/-- `dx_get_record_id`.  The place of a pair is converted to a record id, and there is no result of
an access in front of the array. -/
def getRecordId (serverRecordId : Int32) : Option RecordId :=
  match frequentIndex serverRecordId with
  | some i => some (map.frequentIds i)
  | none =>
      let dummy : RecordIdPair := ⟨serverRecordId, 0⟩
      match map.search dummy with
      | (false, _) => some recordIdInvalid
      | (true, idx) => (atRecordId map.idMap (Int32.ofNat idx)).map RecordIdPair.localRecordId

/-- What the map holds for an id, wherever its pair is. -/
def held (serverRecordId : Int32) : RecordId :=
  match frequentIndex serverRecordId with
  | some i => map.frequentIds i
  | none =>
      match map.search ⟨serverRecordId, 0⟩ with
      | (false, _) => recordIdInvalid
      | (true, idx) => (map.idMap[idx]?.map RecordIdPair.localRecordId).getD recordIdInvalid

/-- The pairs after an assignment outside of the array of frequent ids. -/
def assignPair (pair : RecordIdPair) : List RecordIdPair :=
  match map.search pair with
  | (true, idx) => map.idMap.set idx pair
  | (false, idx) => arrayInsert map.idMap pair idx

/-- The pair replaces the pair with its id, or it is inserted where its id belongs. -/
theorem assignPair_cases (pair : RecordIdPair) :
    (∃ l₁ x l₂, map.idMap = l₁ ++ x :: l₂ ∧ pair.key = x.key ∧
      map.assignPair pair = l₁ ++ pair :: l₂) ∨
    (∃ l₁ l₂, map.idMap = l₁ ++ l₂ ∧ (∀ a ∈ l₁, a.key < pair.key) ∧
      (∀ b ∈ l₂, pair.key < b.key) ∧ map.assignPair pair = l₁ ++ pair :: l₂) := by
  have h := map.search_located pair
  unfold assignPair
  generalize map.search pair = r at h
  generalize map.idMap = l at h
  obtain ⟨found, idx⟩ := r
  cases h with
  | found l₁ x l₂ hx => exact Or.inl ⟨l₁, x, l₂, rfl, hx.symm, set_append_cons _ _ _ _⟩
  | missing l₁ l₂ h₁ h₂ => exact Or.inr ⟨l₁, l₂, rfl, h₁, h₂, arrayInsert_append _ _ _⟩

theorem assignPair_sorted (pair : RecordIdPair) :
    KeySorted RecordIdPair.key (map.assignPair pair) := by
  have hsorted := map.sorted
  rcases map.assignPair_cases pair with ⟨l₁, x, l₂, hmap, hkey, h⟩ | ⟨l₁, l₂, hmap, h₁, h₂, h⟩
  · rw [hmap] at hsorted
    rw [h]
    exact hsorted.replace hkey
  · rw [hmap] at hsorted
    rw [h]
    exact hsorted.insert h₁ h₂

/-- An assignment updates the array of pairs as a finite map. -/
theorem lookup_assignPair (pair : RecordIdPair) (k : ℤ) :
    lookup RecordIdPair.key (map.assignPair pair) k =
      Function.update (lookup RecordIdPair.key map.idMap) pair.key (some pair) k := by
  have hsorted := map.sorted
  rcases map.assignPair_cases pair with ⟨l₁, x, l₂, hmap, hkey, h⟩ | ⟨l₁, l₂, hmap, h₁, h₂, h⟩
  · rw [hmap] at hsorted
    rw [h, hmap, hkey]
    exact lookup_replace hsorted hkey k
  · rw [h, hmap]
    exact lookup_insert h₁ k

/-- `dx_assign_server_record_id`. -/
def assignServerRecordId (recordId : RecordId) (serverRecordId : Int32) :
    ServerLocalRecordIdMap :=
  match frequentIndex serverRecordId with
  | some i => { map with frequentIds := Function.update map.frequentIds i recordId }
  | none =>
      let rip : RecordIdPair := ⟨serverRecordId, recordId⟩
      { map with idMap := map.assignPair rip, sorted := map.assignPair_sorted rip }

/-- An assignment adds one pair at most. -/
theorem length_assignServerRecordId_le (recordId : RecordId) (serverRecordId : Int32) :
    (map.assignServerRecordId recordId serverRecordId).idMap.length ≤ map.idMap.length + 1 := by
  unfold assignServerRecordId
  cases frequentIndex serverRecordId with
  | some i => exact Nat.le_succ _
  | none =>
      rcases map.assignPair_cases ⟨serverRecordId, recordId⟩ with
        ⟨l₁, x, l₂, hmap, -, h⟩ | ⟨l₁, l₂, hmap, -, -, h⟩
      all_goals
        simp only [h, hmap, List.length_append, List.length_cons]
        omega

/-- The search of an id outside of the array of frequent ids finds its pair. -/
theorem held_eq_lookup {serverRecordId : Int32} (h : frequentIndex serverRecordId = none) :
    map.held serverRecordId =
      ((lookup RecordIdPair.key map.idMap serverRecordId.toInt).map
        RecordIdPair.localRecordId).getD recordIdInvalid := by
  have hsorted := map.sorted
  have hloc := map.search_located ⟨serverRecordId, 0⟩
  simp only [held, h]
  generalize map.search ⟨serverRecordId, 0⟩ = r at hloc
  generalize map.idMap = l at hloc hsorted
  obtain ⟨found, idx⟩ := r
  cases hloc with
  | found l₁ x l₂ hx =>
      have hlookup := lookup_of_mem hsorted (List.mem_append_right l₁ List.mem_cons_self)
      rw [hx] at hlookup
      simp only [getElem?_append_cons]
      show _ = ((lookup RecordIdPair.key (l₁ ++ x :: l₂) (RecordIdPair.key ⟨serverRecordId, 0⟩)).map
        RecordIdPair.localRecordId).getD recordIdInvalid
      rw [hlookup]
  | missing l₁ l₂ h₁ h₂ =>
      have hlookup : lookup RecordIdPair.key (l₁ ++ l₂) serverRecordId.toInt = none := by
        rw [lookup_eq_none]
        intro a ha
        rcases List.mem_append.mp ha with ha | ha
        · exact (h₁ a ha).ne
        · exact (h₂ a ha).ne'
      simp [hlookup]

/-- The array of frequent ids and the pairs are for different ids. -/
theorem frequentIndex_injective {a b : Int32} {i : Fin recordIdVectorSize}
    (ha : frequentIndex a = some i) (hb : frequentIndex b = some i) : a = b := by
  unfold frequentIndex at ha hb
  split_ifs at ha hb with h₁ h₂
  rw [← hb] at ha
  have hval := congrArg Fin.val (Option.some.inj ha)
  rw [← Int32.toInt_inj]
  simp only at hval
  omega

/-- An assignment changes what is held for its id only. -/
theorem held_assign (recordId : RecordId) (serverRecordId : Int32) :
    (map.assignServerRecordId recordId serverRecordId).held =
      Function.update map.held serverRecordId recordId := by
  funext id
  cases hs : frequentIndex serverRecordId with
  | some i =>
      cases hid : frequentIndex id with
      | some j =>
          simp only [assignServerRecordId, held, hs, hid]
          by_cases heq : id = serverRecordId
          · subst heq
            rw [hs] at hid
            rw [Option.some.inj hid, Function.update_self, Function.update_self]
          · have hne : j ≠ i := fun hji => heq (frequentIndex_injective (hji ▸ hid) hs)
            rw [Function.update_of_ne hne, Function.update_of_ne heq]
            simp [held, hid]
      | none =>
          have hne : id ≠ serverRecordId := fun heq => by simp [heq, hs] at hid
          rw [Function.update_of_ne hne]
          simp only [assignServerRecordId, hs, held_eq_lookup _ hid]
  | none =>
      cases hid : frequentIndex id with
      | some j =>
          have hne : id ≠ serverRecordId := fun heq => by simp [heq, hs] at hid
          rw [Function.update_of_ne hne]
          simp only [assignServerRecordId, hs, held, hid]
      | none =>
          have hkey : RecordIdPair.key ⟨serverRecordId, recordId⟩ = serverRecordId.toInt := rfl
          rw [held_eq_lookup _ hid]
          simp only [assignServerRecordId, hs, lookup_assignPair, hkey]
          by_cases heq : id = serverRecordId
          · subst heq
            rw [Function.update_self, Function.update_self]
            rfl
          · have hne : id.toInt ≠ serverRecordId.toInt := fun h => heq (Int32.toInt_inj.mp h)
            rw [Function.update_of_ne heq, Function.update_of_ne hne, held_eq_lookup _ hid]

@[simp] theorem held_empty (serverRecordId : Int32) :
    empty.held serverRecordId = recordIdInvalid := by
  cases h : frequentIndex serverRecordId with
  | some i => simp only [held, h]; rfl
  | none => rw [held_eq_lookup _ h]; rfl

end ServerLocalRecordIdMap

end DxFeed.ServerMessageProcessor
