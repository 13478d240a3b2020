import DxFeed.DataStructures.RecordInfo
import DxFeed.DynamicArray.Operations

/-!
# The registry of the local records

The records, their server support states and their digests are three arrays with the same ids, which
grow together; one of the allocations of a call may fail.

* `Registry`: the arrays and the counter of the records that have been described;
* `addRecordToList`, `addOrGetRecordId`: `dx_add_record_to_list`, `dx_add_or_get_record_id`;
* `getNextUnsubscribedRecordId`, `clearServerInfo`: what moves the counter;
* `Registry.addRecordToList_added`: a registration that fails leaves all elements as they were.

A position outside of an array is a fault.  Copies of names succeed, and locks, too.
-/

namespace DxFeed.DataStructures

open ServerMessageProcessor

/-! ### The functions -/

/-- What the data structures and the message processor keep about the local records. -/
structure Registry where
  recordsList : DxArray RecordInfoItem
  newRecordId : RecordId
  recordServerSupportStates : DxArray Int32
  recordDigests : DxArray RecordDigest

/-- The registry of a new connection. -/
def Registry.empty : Registry := ⟨.empty, 0, .empty, .empty⟩

section Arrays

variable {α : Type*}

/-- `DX_ARRAY_INSERT` at an index of type `int`. -/
def insertAt (array : DxArray α) (elem : α) (index : RecordId) (failIn : FailIn) :
    Except MemoryFault (Bool × DxArray α × FailIn) :=
  if 0 ≤ index.toInt ∧ index.toInt ≤ array.elements.length then
    dxArrayInsert array elem index.toInt.toNat failIn
  else .error .overrun

/-- `DX_ARRAY_DELETE` at an index of type `int`. -/
def deleteAt (array : DxArray α) (index : RecordId) (failIn : FailIn) :
    Except MemoryFault (Bool × DxArray α × FailIn) :=
  if 0 ≤ index.toInt ∧ index.toInt < array.elements.length then
    dxArrayDelete array index.toInt.toNat failIn
  else .error .overrun

end Arrays

namespace Registry

variable (registry : Registry)

/-- `dx_get_records_list_count`. -/
def getRecordsListCount : RecordId := Int32.ofNat registry.recordsList.elements.length

/-- `dx_get_next_unsubscribed_record_id`. -/
def getNextUnsubscribedRecordId (isUpdate : Bool) : RecordId × Registry :=
  let registry :=
    if registry.newRecordId < registry.getRecordsListCount ∧ isUpdate then
      { registry with newRecordId := registry.newRecordId + 1 }
    else registry
  (registry.newRecordId, registry)

/-- `dx_drop_unsubscribe_counter`. -/
def dropUnsubscribeCounter : Registry := { registry with newRecordId := 0 }

end Registry

/-- `dx_add_record_digest_to_list`. -/
def addRecordDigestToList (recordDigests : DxArray RecordDigest) (index : RecordId)
    (failIn : FailIn) : Except MemoryFault (Bool × DxArray RecordDigest × FailIn) :=
  if index < Int32.ofNat recordDigests.elements.length then .ok (true, recordDigests, failIn)
  else insertAt recordDigests .init index failIn

namespace Registry

/-- The digest in `dx_add_record_to_list`. -/
def addRecordDigest (registry : Registry) (index : RecordId) (failIn : FailIn) :
    Except MemoryFault (Bool × Registry × FailIn) := do
  let (success, recordDigests, failIn) ←
    addRecordDigestToList registry.recordDigests index failIn
  let registry := { registry with recordDigests := recordDigests }
  if success then return (true, registry, failIn)
  else
    let (_, recordsList, failIn) ← deleteAt registry.recordsList index failIn
    let (_, states, failIn) ← deleteAt registry.recordServerSupportStates index failIn
    return (false,
      { registry with recordsList := recordsList, recordServerSupportStates := states }, failIn)

/-- The server support state in `dx_add_record_to_list`, and what is behind it. -/
def addServerSupportState (registry : Registry) (index : RecordId) (failIn : FailIn) :
    Except MemoryFault (Bool × Registry × FailIn) := do
  let (success, states, failIn) ← insertAt registry.recordServerSupportStates 0 index failIn
  let registry := { registry with recordServerSupportStates := states }
  if success then registry.addRecordDigest index failIn
  else
    let (_, recordsList, failIn) ← deleteAt registry.recordsList index failIn
    return (false, { registry with recordsList := recordsList }, failIn)

/-- `dx_add_record_to_list`. -/
def addRecordToList (registry : Registry) (record : RecordInfoItem) (index : RecordId)
    (failIn : FailIn) : Except MemoryFault (Bool × Registry × FailIn) := do
  let (success, recordsList, failIn) ← insertAt registry.recordsList record index failIn
  let registry := { registry with recordsList := recordsList }
  if success then registry.addServerSupportState index failIn
  else return (false, registry, failIn)

/-- The linear search of `DX_ARRAY_SEARCH` with `DX_RECORDS_COMPARATOR`; a null pointer is an array
of no records. -/
def searchRecord (records : List RecordInfoItem) (name : WString) : Bool × ℕ :=
  match records.findIdx? fun record => record.name = name with
  | some index => (true, index)
  | none => (false, records.length)

/-- `dx_add_or_get_record_id`. -/
def addOrGetRecordId (registry : Registry) (name : WString) (failIn : FailIn) :
    Except MemoryFault (RecordId × Registry) :=
  match initRecordInfo name with
  | .error .invalidFuncParam => .ok (recordIdInvalid, registry)
  | .error .overrun => .error .overrun
  | .ok record => do
      let (found, searchRes) := searchRecord registry.recordsList.elements record.name
      let index := Int32.ofNat searchRes
      if found then return (index, registry)
      else
        let (result, registry, _) ← registry.addRecordToList record index failIn
        return (if result then index else recordIdInvalid, registry)

/-- The loop of `dx_init_record_digests` for so many records from `i` on; it does not test for
errors. -/
def initRecordDigests (recordDigests : DxArray RecordDigest) (i : ℕ) :
    ℕ → FailIn → Except MemoryFault (DxArray RecordDigest × FailIn)
  | 0, failIn => .ok (recordDigests, failIn)
  | n + 1, failIn => do
      let (_, recordDigests, failIn) ←
        addRecordDigestToList recordDigests (Int32.ofNat i) failIn
      initRecordDigests recordDigests (i + 1) n failIn

/-- The states and the records of `dx_clear_server_info`, with which a session begins. -/
def clearServerInfo (registry : Registry) (failIn : FailIn) :
    Except MemoryFault (Bool × Registry) :=
  let count := registry.getRecordsListCount.toInt.toNat
  let states := registry.recordServerSupportStates
  let cleared := List.replicate (min count states.elements.length) 0 ++ states.elements.drop count
  let registry := { registry with
    recordServerSupportStates := { states with elements := cleared } }
  if states.elements.length < count then .ok (false, registry)
  else do
    let (recordDigests, _) ← initRecordDigests .empty 0 count failIn
    return (true, { registry with recordDigests := recordDigests }.dropUnsubscribeCounter)

end Registry

/-! ### What the arrays keep -/

section Arrays

variable {α : Type*} {array array' : DxArray α} {elem : α} {index : RecordId}
  {failIn failIn' : FailIn} {success : Bool}

/-- An error is reported if and only if an allocation has failed, and then no other one does. -/
def Reports (failIn : FailIn) (success : Bool) (failIn' : FailIn) : Prop :=
  success = true ∧ (failIn' = none ↔ failIn = none) ∨
    success = false ∧ failIn ≠ none ∧ failIn' = none

/-- What is reported behind allocations that succeeded. -/
theorem Reports.after {failIn'' : FailIn} (h : Reports failIn'' success failIn')
    (hleft : failIn'' = none ↔ failIn = none) : Reports failIn success failIn' := by
  unfold Reports at h ⊢
  rwa [hleft, ne_eq, hleft] at h

/-- An allocation is reported as it ends. -/
theorem reports_allocate (failIn : FailIn) :
    Reports failIn (allocate failIn).1 (allocate failIn).2 := by
  cases failIn with
  | none => exact Or.inl ⟨rfl, Iff.rfl⟩
  | some n =>
      cases n with
      | zero => exact Or.inr ⟨rfl, by simp, rfl⟩
      | succ n => exact Or.inl ⟨rfl, by simp [allocate]⟩

/-- The elements behind an insertion. -/
theorem insertAt_eq_ok (h : insertAt array elem index failIn = .ok (success, array', failIn')) :
    (0 ≤ index.toInt ∧ index.toInt ≤ array.elements.length) ∧ Reports failIn success failIn' ∧
      array'.elements =
        if success then arrayInsert array.elements elem index.toInt.toNat else array.elements := by
  unfold insertAt at h
  split_ifs at h with hindex
  refine ⟨hindex, ?_⟩
  unfold dxArrayInsert DxArray.resize at h
  cases hmanager : capacityManagerHalfer (array.elements.length + 1) array.capacity with
  | none =>
      simp only [hmanager, if_true] at h
      split_ifs at h
      simp only [Except.ok.injEq, Prod.mk.injEq] at h
      obtain ⟨rfl, rfl, rfl⟩ := h
      exact ⟨Or.inl ⟨rfl, Iff.rfl⟩, rfl⟩
  | some capacity =>
      have hreports := reports_allocate failIn
      simp only [hmanager] at h
      generalize allocate failIn = allocation at h hreports
      obtain ⟨allocated, failIn''⟩ := allocation
      cases allocated with
      | false =>
          simp only [Bool.false_eq_true, if_false, Except.ok.injEq, Prod.mk.injEq] at h
          obtain ⟨rfl, rfl, rfl⟩ := h
          exact ⟨hreports, rfl⟩
      | true =>
          simp only [if_true] at h
          split_ifs at h
          simp only [Except.ok.injEq, Prod.mk.injEq] at h
          obtain ⟨rfl, rfl, rfl⟩ := h
          exact ⟨hreports, rfl⟩

/-- Where no allocation fails, a deletion that ends has deleted the element. -/
theorem deleteAt_eq_ok (h : deleteAt array index none = .ok (success, array', failIn')) :
    array'.elements = arrayDelete array.elements index.toInt.toNat ∧ failIn' = none := by
  unfold deleteAt at h
  split_ifs at h with hindex
  unfold dxArrayDelete DxArray.resize at h
  cases hmanager : capacityManagerHalfer (array.elements.length - 1) array.capacity with
  | none =>
      simp only [hmanager, if_true] at h
      split_ifs at h
      simp only [Except.ok.injEq, Prod.mk.injEq] at h
      exact ⟨h.2.1 ▸ rfl, h.2.2.symm⟩
  | some capacity =>
      simp only [hmanager, allocate, if_true] at h
      split_ifs at h
      simp only [Except.ok.injEq, Prod.mk.injEq] at h
      exact ⟨h.2.1 ▸ rfl, h.2.2.symm⟩

/-- A deletion behind an insertion at the same place. -/
theorem arrayDelete_arrayInsert (l : List α) (x : α) {i : ℕ} (hi : i ≤ l.length) :
    arrayDelete (arrayInsert l x i) i = l := by
  have hlength : (l.take i).length = i := by
    rw [List.length_take]
    exact min_eq_left hi
  have hdelete := arrayDelete_append (l.take i) (l.drop i) x
  rw [hlength, List.take_append_drop] at hdelete
  exact hdelete

/-- A sequence that succeeds has a successful start. -/
theorem bind_eq_ok {ε β γ : Type} {x : Except ε β} {f : β → Except ε γ} {c : γ}
    (h : (x >>= f) = .ok c) : ∃ b, x = .ok b ∧ f b = .ok c := by
  cases x with
  | error e => cases h
  | ok b => exact ⟨b, rfl, h⟩

end Arrays

/-! ### A registration -/

namespace Registry

/-- What a call of `dx_add_record_to_list` leaves: one more record with its state, or the elements
that were there. -/
structure Added (registry : Registry) (record : RecordInfoItem) (index : RecordId) (success : Bool)
    (registry' : Registry) : Prop where
  newRecordId : registry'.newRecordId = registry.newRecordId
  records : registry'.recordsList.elements =
    if success then arrayInsert registry.recordsList.elements record index.toInt.toNat
    else registry.recordsList.elements
  states : registry'.recordServerSupportStates.elements =
    if success then arrayInsert registry.recordServerSupportStates.elements 0 index.toInt.toNat
    else registry.recordServerSupportStates.elements

variable {registry registry' : Registry} {record : RecordInfoItem} {index : RecordId}
  {failIn failIn' : FailIn} {success : Bool}

theorem addRecordDigestToList_reports {digests digests' : DxArray RecordDigest}
    (h : addRecordDigestToList digests index failIn = .ok (success, digests', failIn')) :
    Reports failIn success failIn' := by
  unfold addRecordDigestToList at h
  split_ifs at h
  · simp only [Except.ok.injEq, Prod.mk.injEq] at h
    obtain ⟨rfl, -, rfl⟩ := h
    exact Or.inl ⟨rfl, Iff.rfl⟩
  · exact (insertAt_eq_ok h).2.1

/-- Without its digest a record and its state are deleted again. -/
theorem addRecordDigest_eq_ok
    (h : registry.addRecordDigest index failIn = .ok (success, registry', failIn')) :
    Reports failIn success failIn' ∧ registry'.newRecordId = registry.newRecordId ∧
      (success = true ∧ registry'.recordsList = registry.recordsList ∧
          registry'.recordServerSupportStates = registry.recordServerSupportStates ∨
        success = false ∧
          registry'.recordsList.elements =
            arrayDelete registry.recordsList.elements index.toInt.toNat ∧
          registry'.recordServerSupportStates.elements =
            arrayDelete registry.recordServerSupportStates.elements index.toInt.toNat) := by
  unfold addRecordDigest at h
  obtain ⟨⟨added, digests, failIn₁⟩, hdigest, h⟩ := bind_eq_ok h
  rcases addRecordDigestToList_reports hdigest with ⟨rfl, hleft⟩ | ⟨rfl, hfails, rfl⟩
  · simp only [if_true, pure, Except.pure, Except.ok.injEq, Prod.mk.injEq] at h
    obtain ⟨rfl, rfl, rfl⟩ := h
    exact ⟨Or.inl ⟨rfl, hleft⟩, rfl, Or.inl ⟨rfl, rfl, rfl⟩⟩
  · obtain ⟨⟨_, recordsList, failIn₂⟩, hrecords, h⟩ := bind_eq_ok h
    obtain ⟨hrecords', rfl⟩ := deleteAt_eq_ok hrecords
    obtain ⟨⟨_, states, failIn₃⟩, hstates, h⟩ := bind_eq_ok h
    obtain ⟨hstates', rfl⟩ := deleteAt_eq_ok hstates
    simp only [pure, Except.pure, Except.ok.injEq, Prod.mk.injEq] at h
    obtain ⟨rfl, rfl, rfl⟩ := h
    exact ⟨Or.inr ⟨rfl, hfails, rfl⟩, rfl, Or.inr ⟨rfl, hrecords', hstates'⟩⟩

/-- Without its state or its digest a record is deleted again. -/
theorem addServerSupportState_eq_ok
    (h : registry.addServerSupportState index failIn = .ok (success, registry', failIn')) :
    Reports failIn success failIn' ∧ registry'.newRecordId = registry.newRecordId ∧
      (success = true ∧ registry'.recordsList = registry.recordsList ∧
          registry'.recordServerSupportStates.elements =
            arrayInsert registry.recordServerSupportStates.elements 0 index.toInt.toNat ∨
        success = false ∧
          registry'.recordsList.elements =
            arrayDelete registry.recordsList.elements index.toInt.toNat ∧
          registry'.recordServerSupportStates.elements =
            registry.recordServerSupportStates.elements) := by
  unfold addServerSupportState at h
  obtain ⟨⟨added, states, failIn₁⟩, hstates, h⟩ := bind_eq_ok h
  obtain ⟨hindex, ⟨rfl, hleft⟩ | ⟨rfl, hfails, rfl⟩, helements⟩ := insertAt_eq_ok hstates
  · rw [if_pos rfl] at helements
    obtain ⟨hreports, hid, hadded⟩ := addRecordDigest_eq_ok h
    refine ⟨hreports.after hleft, hid, ?_⟩
    rcases hadded with ⟨rfl, hrecords, hstates'⟩ | ⟨rfl, hrecords, hstates'⟩
    · exact Or.inl ⟨rfl, hrecords, by rw [hstates', helements]⟩
    · refine Or.inr ⟨rfl, hrecords, ?_⟩
      rw [hstates', helements, arrayDelete_arrayInsert _ _ (by omega)]
  · obtain ⟨⟨_, recordsList, failIn₂⟩, hrecords, h⟩ := bind_eq_ok h
    obtain ⟨hrecords', rfl⟩ := deleteAt_eq_ok hrecords
    simp only [pure, Except.pure, Except.ok.injEq, Prod.mk.injEq] at h
    obtain ⟨rfl, rfl, rfl⟩ := h
    exact ⟨Or.inr ⟨rfl, hfails, rfl⟩, rfl, Or.inr ⟨rfl, hrecords', helements⟩⟩

/-- A record is added with its state, or the elements stay as they were. -/
theorem addRecordToList_added
    (h : registry.addRecordToList record index failIn = .ok (success, registry', failIn')) :
    (0 ≤ index.toInt ∧ index.toInt ≤ registry.recordsList.elements.length) ∧
      Reports failIn success failIn' ∧ registry.Added record index success registry' := by
  unfold addRecordToList at h
  obtain ⟨⟨added, recordsList, failIn₁⟩, hrecords, h⟩ := bind_eq_ok h
  obtain ⟨hindex, ⟨rfl, hleft⟩ | ⟨rfl, hfails, rfl⟩, helements⟩ := insertAt_eq_ok hrecords
  · rw [if_pos rfl] at helements
    obtain ⟨hreports, hid, hadded⟩ := addServerSupportState_eq_ok h
    refine ⟨hindex, hreports.after hleft, ?_⟩
    rcases hadded with ⟨rfl, hrecords', hstates'⟩ | ⟨rfl, hrecords', hstates'⟩
    · exact ⟨hid, by rw [hrecords', helements, if_pos rfl], hstates'⟩
    · refine ⟨hid, ?_, hstates'⟩
      rw [hrecords', helements, arrayDelete_arrayInsert _ _ (by omega), if_neg Bool.false_ne_true]
  · simp only [Bool.false_eq_true, if_false, pure, Except.pure, Except.ok.injEq,
      Prod.mk.injEq] at h
    obtain ⟨rfl, rfl, rfl⟩ := h
    exact ⟨hindex, Or.inr ⟨rfl, hfails, rfl⟩, rfl, helements, rfl⟩

/-! ### The ids -/

/-- The records as the message processor knows them. -/
def toRecordList (registry : Registry) (hlt : registry.recordsList.elements.length < 2 ^ 31) :
    RecordList where
  elements := registry.recordsList.elements.map (·.toRecordItem)
  bounded := by rwa [List.length_map]

/-- What every call of `dx_add_or_get_record_id` keeps. -/
structure Consistent (registry : Registry) : Prop where
  nodup : (registry.recordsList.elements.map fun record => record.name).Nodup
  states : registry.recordServerSupportStates.elements.length =
    registry.recordsList.elements.length
  length_le : registry.recordsList.elements.length ≤ 2 ^ 31
  tables : ∀ record ∈ registry.recordsList.elements, ∃ table ∈ recordTables, record.fields = table.2

/-- The arrays are the same, whatever the counter is. -/
structure SameArrays (registry registry' : Registry) : Prop where
  records : registry'.recordsList = registry.recordsList
  states : registry'.recordServerSupportStates = registry.recordServerSupportStates
  digests : registry'.recordDigests = registry.recordDigests

theorem Consistent.of_sameArrays (hconsistent : registry.Consistent)
    (hsame : registry.SameArrays registry') : registry'.Consistent := by
  obtain ⟨records, newRecordId, states, digests⟩ := registry
  obtain ⟨rfl, rfl, rfl⟩ := hsame
  exact ⟨hconsistent.nodup, hconsistent.states, hconsistent.length_le, hconsistent.tables⟩

/-- How a call of `dx_add_or_get_record_id` ends. -/
inductive Registration (registry : Registry) (name : WString) : RecordId → Registry → Prop
  | refused (registry' : Registry) (hrecords : registry'.recordsList.elements =
        registry.recordsList.elements)
      (hstates : registry'.recordServerSupportStates.elements =
        registry.recordServerSupportStates.elements)
      (hid : registry'.newRecordId = registry.newRecordId) :
      Registration registry name recordIdInvalid registry'
  | found (i : ℕ) (record : RecordInfoItem) (hi : i < 2 ^ 31)
      (hrecord : registry.recordsList.elements[i]? = some record) (hname : record.name = name) :
      Registration registry name (Int32.ofNat i) registry
  | added (registry' : Registry) (record : RecordInfoItem) (hname : record.name = name)
      (hfields : ∃ table ∈ recordTables, record.fields = table.2)
      (hnew : ∀ r ∈ registry.recordsList.elements, r.name ≠ name)
      (hlength : registry.recordsList.elements.length < 2 ^ 31)
      (hrecords : registry'.recordsList.elements = registry.recordsList.elements ++ [record])
      (hstates : registry'.recordServerSupportStates.elements =
        registry.recordServerSupportStates.elements ++ [0])
      (hid : registry'.newRecordId = registry.newRecordId) :
      Registration registry name (Int32.ofNat registry.recordsList.elements.length) registry'

theorem ne_invalid_of_nonneg {id : RecordId} (h : 0 ≤ id.toInt) : id ≠ recordIdInvalid := by
  rintro rfl
  exact absurd h (by decide)

/-- A call without an id leaves the elements of both lists. -/
theorem Registration.of_invalid {name : WString}
    (h : Registration registry name recordIdInvalid registry') :
    registry'.recordsList.elements = registry.recordsList.elements ∧
      registry'.recordServerSupportStates.elements =
        registry.recordServerSupportStates.elements := by
  have hvalid : ∀ i : ℕ, i < 2 ^ 31 → Int32.ofNat i ≠ recordIdInvalid := fun i hi =>
    ne_invalid_of_nonneg (by rw [Int32.toInt_ofNat_of_lt hi]; exact Int.natCast_nonneg i)
  generalize hid : recordIdInvalid = id at h
  cases h with
  | refused _ hrecords hstates _ => exact ⟨hrecords, hstates⟩
  | found i record hi => exact absurd hid.symm (hvalid i hi)
  | added _ record hname hfields hnew hlength => exact absurd hid.symm (hvalid _ hlength)

theorem arrayInsert_length {α : Type*} (l : List α) (x : α) :
    arrayInsert l x l.length = l ++ [x] := by
  rw [arrayInsert, List.take_length, List.drop_length]

/-- A nonnegative index of the end of an array. -/
theorem lt_of_nonneg {n : ℕ} (hle : n ≤ 2 ^ 31) (hnonneg : 0 ≤ (Int32.ofNat n).toInt) :
    n < 2 ^ 31 := by
  rcases Nat.lt_or_ge n (2 ^ 31) with h | h
  · exact h
  · rw [Nat.le_antisymm hle h] at hnonneg
    exact absurd hnonneg (by decide)

/-- A call refuses a name, finds its record or adds one. -/
theorem registration {name : WString} {id : RecordId} (hconsistent : registry.Consistent)
    (h : registry.addOrGetRecordId name failIn = .ok (id, registry')) :
    Registration registry name id registry' := by
  unfold addOrGetRecordId at h
  cases hinit : initRecordInfo name with
  | error e =>
      cases e with
      | overrun => simp [hinit] at h
      | invalidFuncParam =>
          simp only [hinit, Except.ok.injEq, Prod.mk.injEq] at h
          obtain ⟨rfl, rfl⟩ := h
          exact .refused registry rfl rfl rfl
  | ok record =>
      obtain ⟨hname, -, hfields⟩ := initRecordInfo_item hinit
      have htable := recordFields_mem record.infoId
      rw [← hfields] at htable
      simp only [hinit] at h
      unfold searchRecord at h
      cases hsearch : registry.recordsList.elements.findIdx? fun r => r.name = record.name with
      | some i =>
          obtain ⟨hi, heq, -⟩ := List.findIdx?_eq_some_iff_getElem.mp hsearch
          simp only [hsearch, if_true, pure, Except.pure, Except.ok.injEq, Prod.mk.injEq] at h
          obtain ⟨rfl, rfl⟩ := h
          have hlength := hconsistent.length_le
          refine .found i registry.recordsList.elements[i] (by omega)
            (List.getElem?_eq_getElem hi) ?_
          rw [← hname]
          exact of_decide_eq_true heq
      | none =>
          simp only [hsearch, Bool.false_eq_true, if_false] at h
          obtain ⟨⟨success, registry₁, failIn₁⟩, hadd, h⟩ := bind_eq_ok h
          simp only [pure, Except.pure, Except.ok.injEq, Prod.mk.injEq] at h
          obtain ⟨rfl, rfl⟩ := h
          obtain ⟨⟨hnonneg, -⟩, -, hadded⟩ := addRecordToList_added hadd
          cases success with
          | false => exact .refused registry₁ hadded.records hadded.states hadded.newRecordId
          | true =>
              have hle := hconsistent.length_le
              have hlength := lt_of_nonneg hle hnonneg
              have hindex : (Int32.ofNat registry.recordsList.elements.length).toInt =
                  registry.recordsList.elements.length := Int32.toInt_ofNat_of_lt (by omega)
              have hrecords := hadded.records
              have hstates := hadded.states
              rw [if_pos rfl, hindex, Int.toNat_natCast, arrayInsert_length] at hrecords
              rw [if_pos rfl, hindex, Int.toNat_natCast, ← hconsistent.states,
                arrayInsert_length] at hstates
              refine .added registry₁ record hname htable ?_ hlength hrecords hstates
                hadded.newRecordId
              intro r hr
              rw [← hname]
              exact of_decide_eq_false (List.findIdx?_eq_none_iff.mp hsearch r hr)

/-- An allocation of the call for a new record fails. -/
structure AllocationFails (registry : Registry) (record : RecordInfoItem) (failIn : FailIn) :
    Prop where
  isNew : (searchRecord registry.recordsList.elements record.name).1 = false
  fails : failIn ≠ none
  spent : ∃ success registry', registry.addRecordToList record
    (Int32.ofNat (searchRecord registry.recordsList.elements record.name).2) failIn =
      .ok (success, registry', none)

/-- A name of a known type gets no id exactly if an allocation fails. -/
theorem addOrGetRecordId_invalid_iff {name : WString} {id : RecordId}
    (hconsistent : registry.Consistent) (hinit : initRecordInfo name = .ok record)
    (h : registry.addOrGetRecordId name failIn = .ok (id, registry')) :
    id = recordIdInvalid ↔ registry.AllocationFails record failIn := by
  unfold addOrGetRecordId at h
  simp only [hinit] at h
  rcases hsearch : searchRecord registry.recordsList.elements record.name with ⟨found, index⟩
  have hle := hconsistent.length_le
  cases found with
  | true =>
      simp only [hsearch, if_true, pure, Except.pure, Except.ok.injEq, Prod.mk.injEq] at h
      obtain ⟨rfl, -⟩ := h
      have hlt : index < registry.recordsList.elements.length := by
        unfold searchRecord at hsearch
        split at hsearch
        · rename_i i hfind
          obtain ⟨-, rfl⟩ := Prod.mk.inj hsearch
          exact (List.findIdx?_eq_some_iff_getElem.mp hfind).1
        · cases (Prod.mk.inj hsearch).1
      refine iff_of_false (ne_invalid_of_nonneg ?_) fun hfails => ?_
      · rw [Int32.toInt_ofNat_of_lt (by omega)]
        exact Int.natCast_nonneg _
      · have hnew := hfails.isNew
        rw [hsearch] at hnew
        cases hnew
  | false =>
      simp only [hsearch, Bool.false_eq_true, if_false] at h
      obtain ⟨⟨success, registry₁, failIn₁⟩, hadd, h⟩ := bind_eq_ok h
      simp only [pure, Except.pure, Except.ok.injEq, Prod.mk.injEq] at h
      obtain ⟨rfl, rfl⟩ := h
      obtain ⟨⟨hnonneg, -⟩, ⟨rfl, hleft⟩ | ⟨rfl, hfails, rfl⟩, -⟩ := addRecordToList_added hadd
      · refine iff_of_false (ne_invalid_of_nonneg hnonneg) fun hfails => ?_
        obtain ⟨success, registry', hspent⟩ := hfails.spent
        rw [hsearch, hadd] at hspent
        simp only [Except.ok.injEq, Prod.mk.injEq] at hspent
        exact hfails.fails (hleft.mp hspent.2.2)
      · refine iff_of_true rfl ⟨by rw [hsearch], hfails, false, registry₁, ?_⟩
        rw [hsearch]
        exact hadd

theorem Registration.consistent {name : WString} {id : RecordId}
    (hconsistent : registry.Consistent) (h : Registration registry name id registry') :
    registry'.Consistent := by
  cases h with
  | refused _ hrecords hstates hid =>
      refine ⟨?_, ?_, ?_, ?_⟩
      · rw [hrecords]
        exact hconsistent.nodup
      · rw [hrecords, hstates]
        exact hconsistent.states
      · rw [hrecords]
        exact hconsistent.length_le
      · rw [hrecords]
        exact hconsistent.tables
  | found i record hi hrecord hname => exact hconsistent
  | added _ record hname hfields hnew hlength hrecords hstates hid =>
      refine ⟨?_, ?_, ?_, fun r hr => ?_⟩
      · rw [hrecords, List.map_append, List.map_singleton, List.nodup_append]
        refine ⟨hconsistent.nodup, List.nodup_singleton _, fun a ha b hb => ?_⟩
        obtain ⟨r, hr, rfl⟩ := List.mem_map.mp ha
        rw [List.mem_singleton.mp hb, hname]
        exact hnew r hr
      · rw [hrecords, hstates, List.length_append, List.length_append, hconsistent.states]
        rfl
      · rw [hrecords, List.length_append]
        exact hlength
      · rw [hrecords] at hr
        rcases List.mem_append.mp hr with hr | hr
        · exact hconsistent.tables r hr
        · rw [List.mem_singleton.mp hr]
          exact hfields

/-- A record is found by its name. -/
theorem Consistent.getRecordIdByName (hconsistent : registry.Consistent)
    (hlt : registry.recordsList.elements.length < 2 ^ 31) {i : ℕ} {record : RecordInfoItem}
    (hrecord : registry.recordsList.elements[i]? = some record) :
    getRecordIdByName (registry.toRecordList hlt) record.name = Int32.ofNat i := by
  obtain ⟨hi, hat⟩ := List.getElem?_eq_some_iff.mp hrecord
  have hfind : (registry.toRecordList hlt).elements.findIdx? (fun r => r.name = record.name) =
      some i := by
    rw [toRecordList, List.findIdx?_map, List.findIdx?_eq_some_iff_getElem]
    refine ⟨hi, by simp [hat], fun j hj => ?_⟩
    have hne := (List.pairwise_iff_getElem.mp hconsistent.nodup) j i (by simpa using hj.trans hi)
      (by simpa using hi) hj
    simp only [List.getElem_map, hat] at hne
    simpa using hne
  unfold ServerMessageProcessor.getRecordIdByName
  rw [hfind]

/-! ### Sessions -/

theorem getRecordsListCount_eq (hlt : registry.recordsList.elements.length < 2 ^ 31) :
    registry.getRecordsListCount.toInt.toNat = registry.recordsList.elements.length := by
  rw [getRecordsListCount, Int32.toInt_ofNat_of_lt hlt, Int.toNat_natCast]

/-- With too many records the count is negative. -/
theorem getRecordsListCount_le (hconsistent : registry.Consistent) :
    registry.getRecordsListCount.toInt.toNat ≤ registry.recordsList.elements.length := by
  rcases Nat.lt_or_ge registry.recordsList.elements.length (2 ^ 31) with hlt | hge
  · exact (getRecordsListCount_eq hlt).le
  · rw [getRecordsListCount, Nat.le_antisymm hconsistent.length_le hge]
    decide

/-- A session begins with the same records, with states of zero, and with no described record. -/
theorem clearServerInfo_eq_ok (hconsistent : registry.Consistent)
    (h : registry.clearServerInfo failIn = .ok (success, registry')) :
    registry'.recordsList = registry.recordsList ∧ registry'.Consistent ∧
      success = true ∧ registry'.newRecordId = 0 := by
  have hstates := hconsistent.states
  have hcount := getRecordsListCount_le hconsistent
  unfold clearServerInfo at h
  simp only at h
  rw [if_neg (by omega)] at h
  obtain ⟨⟨digests, failIn₁⟩, -, h⟩ := bind_eq_ok h
  simp only [pure, Except.pure, Except.ok.injEq, Prod.mk.injEq] at h
  obtain ⟨rfl, rfl⟩ := h
  refine ⟨rfl, ⟨hconsistent.nodup, ?_, hconsistent.length_le, hconsistent.tables⟩, rfl, rfl⟩
  simp only [dropUnsubscribeCounter, List.length_append, List.length_replicate, List.length_drop]
  omega

/-! ### Without failed allocations -/

/-- The arrays as they are while no allocation has failed. -/
structure Sound (registry : Registry) : Prop where
  records : registry.recordsList.Sound
  states : registry.recordServerSupportStates.Sound
  digests : registry.recordDigests.Sound
  length_digests : registry.recordsList.elements.length < 2 ^ 31 →
    registry.recordDigests.elements.length = registry.recordsList.elements.length

theorem Sound.of_sameArrays (hsound : registry.Sound) (hsame : registry.SameArrays registry') :
    registry'.Sound := by
  obtain ⟨records, newRecordId, states, digests⟩ := registry
  obtain ⟨rfl, rfl, rfl⟩ := hsame
  exact ⟨hsound.records, hsound.states, hsound.digests, hsound.length_digests⟩

theorem sound_empty : Sound .empty :=
  ⟨⟨le_rfl, rfl⟩, ⟨le_rfl, rfl⟩, ⟨le_rfl, rfl⟩, fun _ => rfl⟩

section Arrays

variable {α : Type*} {array : DxArray α}

/-- An element goes to the end. -/
theorem insertAt_none (hsound : array.Sound) (elem : α) {n : ℕ} (hn : array.elements.length = n)
    (hlt : n < 2 ^ 31) :
    ∃ array', insertAt array elem (Int32.ofNat n) none = .ok (true, array', none) ∧
      array'.elements = array.elements ++ [elem] ∧ array'.Sound := by
  have hindex : (Int32.ofNat n).toInt = n := Int32.toInt_ofNat_of_lt hlt
  obtain ⟨array', hinsert, helements, hsound'⟩ := hsound.dxArrayInsert elem hn.ge
  refine ⟨array', ?_, ?_, hsound'⟩
  · rw [insertAt, hindex, if_pos ⟨by omega, by omega⟩, Int.toNat_natCast]
    exact hinsert
  · rw [helements, ← hn, arrayInsert_length]

theorem addRecordDigestToList_none {digests : DxArray RecordDigest} (hsound : digests.Sound) {n : ℕ}
    (hn : digests.elements.length = n) (hlt : n < 2 ^ 31) :
    ∃ digests', addRecordDigestToList digests (Int32.ofNat n) none = .ok (true, digests', none) ∧
      digests'.elements = digests.elements ++ [.init] ∧ digests'.Sound := by
  have hnot : ¬ Int32.ofNat n < Int32.ofNat n := by simp
  rw [addRecordDigestToList, hn, if_neg hnot]
  exact insertAt_none hsound _ hn hlt

end Arrays

/-- A new record gets its state and its digest. -/
theorem addRecordToList_none (hsound : registry.Sound) (hconsistent : registry.Consistent)
    (record : RecordInfoItem) (hlt : registry.recordsList.elements.length < 2 ^ 31) :
    ∃ registry', registry.addRecordToList record
        (Int32.ofNat registry.recordsList.elements.length) none = .ok (true, registry', none) ∧
      registry'.Sound := by
  obtain ⟨records, hinsert, hrecords, hsound₁⟩ := insertAt_none hsound.records record rfl hlt
  obtain ⟨states, hinsert₂, -, hsound₂⟩ :=
    insertAt_none hsound.states 0 hconsistent.states hlt
  obtain ⟨digests, hinsert₃, hdigests, hsound₃⟩ :=
    addRecordDigestToList_none hsound.digests (hsound.length_digests hlt) hlt
  refine ⟨{ registry with recordsList := records, recordServerSupportStates := states
                          recordDigests := digests }, ?_, hsound₁, hsound₂, hsound₃, fun _ => ?_⟩
  · unfold addRecordToList addServerSupportState addRecordDigest
    simp only [hinsert, hinsert₂, hinsert₃, bind, Except.bind, if_true, pure, Except.pure]
  · simp only [hrecords, hdigests, List.length_append, hsound.length_digests hlt]
    rfl

/-- Every name of a known type gets an id. -/
theorem addOrGetRecordId_none (hsound : registry.Sound) (hconsistent : registry.Consistent)
    {name : WString} {record : RecordInfoItem} (hinit : initRecordInfo name = .ok record)
    (hlt : registry.recordsList.elements.length < 2 ^ 31) :
    ∃ id registry', registry.addOrGetRecordId name none = .ok (id, registry') ∧ 0 ≤ id.toInt := by
  unfold addOrGetRecordId searchRecord
  simp only [hinit]
  cases hsearch : registry.recordsList.elements.findIdx? fun r => r.name = record.name with
  | some i =>
      obtain ⟨hi, -⟩ := List.findIdx?_eq_some_iff_getElem.mp hsearch
      refine ⟨Int32.ofNat i, registry, rfl, ?_⟩
      rw [Int32.toInt_ofNat_of_lt (by omega)]
      omega
  | none =>
      obtain ⟨registry', hadd, -⟩ := addRecordToList_none hsound hconsistent record hlt
      refine ⟨Int32.ofNat registry.recordsList.elements.length, registry', ?_, ?_⟩
      · simp only [Bool.false_eq_true, if_false, hadd, bind, Except.bind, if_true, pure,
          Except.pure]
      · rw [Int32.toInt_ofNat_of_lt hlt]
        omega

/-- Calls without a failed allocation keep the arrays sound. -/
theorem addOrGetRecordId_sound {name : WString} {id : RecordId} (hsound : registry.Sound)
    (hconsistent : registry.Consistent)
    (h : registry.addOrGetRecordId name none = .ok (id, registry')) : registry'.Sound := by
  unfold addOrGetRecordId searchRecord at h
  cases hinit : initRecordInfo name with
  | error e =>
      cases e with
      | overrun => simp [hinit] at h
      | invalidFuncParam =>
          simp only [hinit, Except.ok.injEq, Prod.mk.injEq] at h
          exact h.2 ▸ hsound
  | ok record =>
      simp only [hinit] at h
      cases hsearch : registry.recordsList.elements.findIdx? fun r => r.name = record.name with
      | some i =>
          simp only [hsearch, if_true, pure, Except.pure, Except.ok.injEq, Prod.mk.injEq] at h
          exact h.2 ▸ hsound
      | none =>
          simp only [hsearch, Bool.false_eq_true, if_false] at h
          obtain ⟨⟨success, registry₁, failIn₁⟩, hadd, h⟩ := bind_eq_ok h
          simp only [pure, Except.pure, Except.ok.injEq, Prod.mk.injEq] at h
          obtain ⟨rfl, rfl⟩ := h
          have hlt := lt_of_nonneg hconsistent.length_le (addRecordToList_added hadd).1.1
          obtain ⟨registry₂, hnone, hsound₂⟩ := addRecordToList_none hsound hconsistent record hlt
          rw [hadd] at hnone
          simp only [Except.ok.injEq, Prod.mk.injEq] at hnone
          exact hnone.2.1 ▸ hsound₂

/-- The digests of all records are there again. -/
theorem initRecordDigests_none {digests : DxArray RecordDigest} (hsound : digests.Sound) {i n : ℕ}
    (hi : digests.elements.length = i) (hlt : i + n < 2 ^ 31) :
    ∃ digests', initRecordDigests digests i n none = .ok (digests', none) ∧
      digests'.elements.length = i + n ∧ digests'.Sound := by
  induction n generalizing digests i with
  | zero => exact ⟨digests, rfl, hi, hsound⟩
  | succ n ih =>
      obtain ⟨digests₁, hadd, helements, hsound₁⟩ :=
        addRecordDigestToList_none hsound hi (by omega)
      have hlength : digests₁.elements.length = i + 1 := by
        rw [helements, List.length_append, hi]
        rfl
      obtain ⟨digests', hloop, hlength', hsound'⟩ := ih hsound₁ hlength (by omega)
      refine ⟨digests', ?_, by omega, hsound'⟩
      rw [initRecordDigests, hadd]
      exact hloop

theorem clearServerInfo_sound (hsound : registry.Sound) (hconsistent : registry.Consistent)
    (h : registry.clearServerInfo none = .ok (success, registry')) : registry'.Sound := by
  have hstates := hconsistent.states
  have hcount := getRecordsListCount_le hconsistent
  have hlt : registry.getRecordsListCount.toInt.toNat < 2 ^ 31 := by
    have hbound := registry.getRecordsListCount.toInt_lt
    omega
  have hempty : DxArray.Sound (.empty : DxArray RecordDigest) := ⟨le_rfl, rfl⟩
  obtain ⟨digests, hdigests, hlength, hsound'⟩ := initRecordDigests_none hempty (i := 0)
    (n := registry.getRecordsListCount.toInt.toNat) rfl (by omega)
  unfold clearServerInfo at h
  simp only at h
  rw [if_neg (by omega), hdigests] at h
  simp only [bind, Except.bind, pure, Except.pure, Except.ok.injEq, Prod.mk.injEq] at h
  obtain ⟨rfl, rfl⟩ := h
  refine ⟨hsound.records, ⟨?_, hsound.states.allocated⟩, hsound', fun hrecords => ?_⟩
  · have hsize := hsound.states.size_le
    simp only [dropUnsubscribeCounter, List.length_append, List.length_replicate, List.length_drop]
    omega
  · have heq := getRecordsListCount_eq hrecords
    exact (hlength.trans (Nat.zero_add _)).trans heq

end Registry

end DxFeed.DataStructures
