import DxFeed.EventData
import DxFeed.Library.Patch
import Mathlib.Data.Prod.Lex

/-!
# The records of a snapshot

The sizes of orders are of any type `S` with a zero, and `D` stands for the fields of an event
that a snapshot does not read.  A stored record is the event itself: the source keeps its data,
and here its parameters come along, so that one can say how the event was classified.

* `RecordKey`: the newest time comes first, and then the smallest index;
* `SnapshotRecords`: the three arrays of a store;
* `removeEventRecords`, `updateEventRecords`: one event in one store;
* `SnapshotRecords.Valid`: the arrays are aligned and sorted;
* `removeEventRecords_erased`, `updateEventRecords_written`: the effect on the store as a finite
  map.
-/

namespace DxFeed.Snapshot

open SortedList Patch

/-- `dx_snapshot_record_key_t`. -/
structure RecordKey where
  timeIntField : ℕ
  index : ℤ
  deriving DecidableEq, Repr

/-- The place of a key in the order of the records. -/
def RecordKey.rank (key : RecordKey) : ℕᵒᵈ ×ₗ ℤ :=
  toLex (OrderDual.toDual key.timeIntField, key.index)

/-- `dx_snapshot_records_comparator2`. -/
def recordsComparator2 (key1 key2 : RecordKey) : ℤ :=
  if key1.timeIntField > key2.timeIntField then -1
  else if key1.timeIntField < key2.timeIntField then 1
  else if key1.index < key2.index then -1
  else if key1.index > key2.index then 1
  else 0

/-- The fields of an event that a snapshot reads or copies, and the other ones. -/
structure EventData (S D : Type) where
  eventFlags : ℕ
  index : ℤ
  size : S
  strings : List WString
  fields : D
  deriving DecidableEq, Repr

/-- An event and its parameters. -/
structure Event (S D : Type) where
  data : EventData S D
  params : EventParams
  deriving DecidableEq, Repr

/-- The event types for which `dx_snapshot_insert_record` has a case. -/
def hasRecords : EventId → Bool
  | .order | .candle | .spreadOrder | .timeAndSale | .greeks | .series => true
  | _ => false

theorem hasRecords_order : hasRecords .order = true := rfl

/-- What a snapshot is about; `dxf_create_snapshot_impl` rejects the other event types. -/
structure SnapshotKind where
  eventId : EventId
  recordInfoId : RecordInfoId
  storable : hasRecords eventId = true
  deriving DecidableEq

/-- `dx_snapshot_records_t`; a string buffer is the list of the strings of its record. -/
structure SnapshotRecords (S D : Type) where
  records : List (Event S D)
  recordKeys : List RecordKey
  recordBuffers : List (List WString)
  deriving DecidableEq, Repr

/-- A store after `dx_snapshot_clear_records_array`. -/
def SnapshotRecords.empty {S D : Type} : SnapshotRecords S D :=
  ⟨[], [], []⟩

variable {S D : Type} (kind : SnapshotKind)

/-- `dx_get_order_index`. -/
def getOrderIndex (data : EventData S D) : ℤ :=
  if kind.eventId = .order ∧
      (kind.recordInfoId = .marketMaker ∨ kind.recordInfoId = .quote) then data.index
  else 0

/-- The key of the record of an event. -/
def recordKey (event : Event S D) : RecordKey :=
  ⟨event.params.timeIntField, getOrderIndex kind event.data⟩

/-- The search for the key of an event. -/
def searchRecord (recs : SnapshotRecords S D) (event : Event S D) : Bool × ℕ :=
  binarySearch recs.recordKeys 0 recs.recordKeys.length (recordKey kind event) recordsComparator2

/-- `dx_snapshot_remove_event_record`. -/
def removeEventRecord (recs : SnapshotRecords S D) (position : ℕ) : SnapshotRecords S D :=
  if position ≥ recs.records.length then recs
  else
    { records := arrayDelete recs.records position
      recordKeys := arrayDelete recs.recordKeys position
      recordBuffers := arrayDelete recs.recordBuffers position }

/-- `dx_snapshot_remove_event_records`. -/
def removeEventRecords (recs : SnapshotRecords S D) (event : Event S D) : SnapshotRecords S D :=
  match searchRecord kind recs event with
  | (true, index) => removeEventRecord recs index
  | (false, _) => recs

/-- `dx_snapshot_replace_record`; the key stays. -/
def replaceRecord (recs : SnapshotRecords S D) (position : ℕ) (event : Event S D) :
    SnapshotRecords S D :=
  if position ≥ recs.records.length then recs
  else
    { recs with
      records := recs.records.set position event
      recordBuffers := recs.recordBuffers.set position event.data.strings }

/-- `dx_snapshot_add_event_record`. -/
def addEventRecord (recs : SnapshotRecords S D) (event : Event S D) (position : ℕ) :
    SnapshotRecords S D :=
  if hasRecords kind.eventId then
    { records := arrayInsert recs.records event position
      recordKeys := arrayInsert recs.recordKeys (recordKey kind event) position
      recordBuffers := arrayInsert recs.recordBuffers event.data.strings position }
  else recs

/-- `dx_snapshot_update_event_records`. -/
def updateEventRecords (recs : SnapshotRecords S D) (event : Event S D) : SnapshotRecords S D :=
  match searchRecord kind recs event with
  | (true, index) => replaceRecord recs index event
  | (false, index) => addEventRecord kind recs event index

/-! ### The order of the records -/

/-- The place of an event in the order of the records. -/
def eventRank (event : Event S D) : ℕᵒᵈ ×ₗ ℤ :=
  (recordKey kind event).rank

theorem recordKey_rank_injective : Function.Injective RecordKey.rank := by
  rintro ⟨t, i⟩ ⟨t', i'⟩ h
  simpa [RecordKey.rank] using h

theorem rank_lt_iff {key1 key2 : RecordKey} :
    key1.rank < key2.rank ↔ key2.timeIntField < key1.timeIntField ∨
      key1.timeIntField = key2.timeIntField ∧ key1.index < key2.index := by
  simp [RecordKey.rank, Prod.Lex.toLex_lt_toLex]

theorem recordsComparator2_orders : Orders recordsComparator2 RecordKey.rank := by
  constructor
  · rintro ⟨t, i⟩ ⟨t', i'⟩
    simp only [recordKey_rank_injective.eq_iff, RecordKey.mk.injEq, recordsComparator2]
    split_ifs <;> grind
  · rintro ⟨t, i⟩ ⟨t', i'⟩
    simp only [rank_lt_iff, recordsComparator2]
    split_ifs <;> omega

/-! ### One event in one store -/

/-- The keys and the string buffers are those of the records, index by index, and the keys are
sorted. -/
structure SnapshotRecords.Valid (recs : SnapshotRecords S D) : Prop where
  keys : recs.recordKeys = recs.records.map (recordKey kind)
  buffers : recs.recordBuffers = recs.records.map fun event => event.data.strings
  sorted : KeySorted (eventRank kind) recs.records

variable {kind} {recs : SnapshotRecords S D}

theorem valid_empty : (SnapshotRecords.empty : SnapshotRecords S D).Valid kind :=
  ⟨rfl, rfl, keySorted_nil⟩

/-- The search finds the record with the key of the event, or the place for it. -/
theorem searchRecord_located (h : recs.Valid kind) (event : Event S D) :
    Located (eventRank kind) (eventRank kind event) recs.records
      (searchRecord kind recs event).1 (searchRecord kind recs event).2 := by
  have hsorted : KeySorted RecordKey.rank recs.recordKeys := by
    rw [h.keys]
    exact List.pairwise_map.mpr h.sorted
  have hloc := binarySearch_located_full (recordKey kind event) recordsComparator2_orders hsorted
  exact (h.keys ▸ hloc : Located _ _ (recs.records.map (recordKey kind)) _ _).of_map

/-- Removing the record of an event. -/
theorem removeEventRecords_erased (h : recs.Valid kind) (event : Event S D) :
    (removeEventRecords kind recs event).Valid kind ∧
      Erased (eventRank kind) (eventRank kind event) recs.records
        (removeEventRecords kind recs event).records := by
  have hloc := searchRecord_located h event
  unfold removeEventRecords
  generalize searchRecord kind recs event = found at hloc
  obtain ⟨records, keys, buffers⟩ := recs
  obtain ⟨hkeys, hbuffers, hsorted⟩ := h
  dsimp only at hkeys hbuffers hsorted hloc
  subst hkeys hbuffers
  obtain ⟨found, index⟩ := found
  cases hloc with
  | found l₁ x l₂ hx =>
      have hlt : ¬ l₁.length ≥ (l₁ ++ x :: l₂).length := by simp
      simp only [removeEventRecord, if_neg hlt, ← map_arrayDelete, arrayDelete_append]
      refine ⟨⟨rfl, rfl, hsorted.erase⟩, hsorted.erase, ?_⟩
      funext k
      rw [← hx]
      exact lookup_erase hsorted k
  | missing l₁ l₂ h₁ h₂ =>
      refine ⟨⟨rfl, rfl, hsorted⟩, hsorted, ?_⟩
      have hnone : lookup (eventRank kind) (l₁ ++ l₂) (eventRank kind event) = none := by
        rw [lookup_eq_none]
        intro a ha
        rcases List.mem_append.mp ha with ha | ha
        · exact (h₁ a ha).ne
        · exact (h₂ a ha).ne'
      rw [← hnone, Function.update_eq_self]

/-- Updating the record of an event. -/
theorem updateEventRecords_written (h : recs.Valid kind) (event : Event S D) :
    (updateEventRecords kind recs event).Valid kind ∧
      Written (eventRank kind) event recs.records (updateEventRecords kind recs event).records := by
  have hloc := searchRecord_located h event
  unfold updateEventRecords
  generalize searchRecord kind recs event = found at hloc
  obtain ⟨records, keys, buffers⟩ := recs
  obtain ⟨hkeys, hbuffers, hsorted⟩ := h
  dsimp only at hkeys hbuffers hsorted hloc
  subst hkeys hbuffers
  obtain ⟨found, index⟩ := found
  cases hloc with
  | found l₁ x l₂ hx =>
      have hlt : ¬ l₁.length ≥ (l₁ ++ x :: l₂).length := by simp
      have hset : ((l₁ ++ x :: l₂).map fun e => e.data.strings).set l₁.length event.data.strings =
          (l₁ ++ event :: l₂).map fun e => e.data.strings := by
        simp
      simp only [replaceRecord, if_neg hlt, set_append_cons, hset]
      have hkey : recordKey kind x = recordKey kind event := recordKey_rank_injective hx
      refine ⟨⟨?_, rfl, hsorted.replace hx.symm⟩, hsorted.replace hx.symm, ?_⟩
      · simp [hkey]
      · funext k
        rw [lookup_replace hsorted hx.symm, hx]
  | missing l₁ l₂ h₁ h₂ =>
      have hbuffers := map_arrayInsert (fun e : Event S D => e.data.strings) (l₁ ++ l₂) event l₁.length
      simp only [addEventRecord, kind.storable, if_true, ← map_arrayInsert, ← hbuffers,
        arrayInsert_append]
      refine ⟨⟨rfl, rfl, hsorted.insert h₁ h₂⟩, hsorted.insert h₁ h₂, ?_⟩
      funext k
      exact lookup_insert h₁ k

end DxFeed.Snapshot
