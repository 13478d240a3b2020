import DxFeed.DynamicArray
import DxFeed.Snapshot.Records

/-!
# The records of a snapshot in memory

The functions of `Snapshot.c` on the three arrays of a store, and the copy functions of
`EventManager.c`, when an allocation may fail.

* `Memory`: the string buffers that are allocated, and which allocation fails;
* `eventCopy`: the copy of an event, with its strings in a string buffer;
* `addEventRecordWith`, `removeEventRecordWith`, `replaceRecordWith`: the functions on one position;
* `updateEventRecordsWith`, `removeEventRecordsWith`: the functions on one event;
* `storeStep`: the calls for a store, each with an allocation that may fail.

The strings themselves are addresses, and so is a string buffer; `none` is `NULL`.
-/

namespace DxFeed.Snapshot

variable {S D : Type}

/-- The `dx_string_array_t` that are allocated, by address; the addresses from `next` on were never
given out. -/
structure Memory where
  failIn : FailIn
  arrays : ℕ → Option (DxArray (Option ℕ))
  next : ℕ

/-- An event, with the string fields that its copy function copies; `event` has those that are not
`NULL`. -/
structure SourceEvent (S D : Type) where
  event : Event S D
  strings : List (Option WString)
  strings_eq : strings.filterMap id = event.data.strings

/-- A record: the event that was copied into it, and the string fields. -/
structure StoredRecord (S D : Type) where
  event : Event S D
  strings : List (Option ℕ)

/-- `dx_snapshot_records_t`. -/
structure RecordArrays (S D : Type) where
  records : DxArray (StoredRecord S D)
  recordKeys : DxArray RecordKey
  recordBuffers : DxArray (Option ℕ)

/-- The arrays of a new snapshot. -/
def RecordArrays.empty : RecordArrays S D where
  records := .empty
  recordKeys := .empty
  recordBuffers := .empty

/-! ### String buffers -/

/-- `dx_calloc`, for memory that is not modelled. -/
def Memory.calloc (mem : Memory) : Bool × Memory :=
  let allocation := allocate mem.failIn
  (allocation.1, { mem with failIn := allocation.2 })

/-- `dx_calloc(1, sizeof(dx_string_array_t))`. -/
def callocStringArray (mem : Memory) : Option ℕ × Memory :=
  let (success, mem) := mem.calloc
  if success then
    (some mem.next,
      { mem with
        arrays := Function.update mem.arrays mem.next (some .empty)
        next := mem.next + 1 })
  else (none, mem)

/-- `dx_create_string_src`. -/
def createStringSrc (mem : Memory) (_src : WString) : Option ℕ × Memory :=
  let (success, mem) := mem.calloc
  if success then (some mem.next, { mem with next := mem.next + 1 }) else (none, mem)

/-- `dx_string_array_add`. -/
def stringArrayAdd (mem : Memory) (stringArray obj : Option ℕ) :
    Except MemoryFault (Bool × Memory) :=
  match stringArray with
  | none => .ok (false, mem)
  | some a =>
      match mem.arrays a with
      | none => .error .dangling
      | some array => do
          let (success, array, failIn) ←
            dxArrayInsert array obj array.elements.length mem.failIn
          return (success, { mem with
            failIn := failIn
            arrays := Function.update mem.arrays a (some array) })

/-- `dx_string_array_free`: the strings are freed, and the array is empty. -/
def stringArrayFree (mem : Memory) : Option ℕ → Except MemoryFault Memory
  | none => .ok mem
  | some a =>
      match mem.arrays a with
      | none => .error .dangling
      | some _ => .ok { mem with arrays := Function.update mem.arrays a (some .empty) }

/-- `dx_free` of a `dx_string_array_t`. -/
def freeStringArray (mem : Memory) : Option ℕ → Except MemoryFault Memory
  | none => .ok mem
  | some a =>
      match mem.arrays a with
      | none => .error .dangling
      | some _ => .ok { mem with arrays := Function.update mem.arrays a none }

/-- A string buffer is freed with its strings. -/
def freeBuffer (mem : Memory) (stringBuffer : Option ℕ) : Except MemoryFault Memory := do
  let mem ← stringArrayFree mem stringBuffer
  freeStringArray mem stringBuffer

/-! ### Copies of events -/

/-- The number of string fields that the copy function of an event type copies. -/
def stringParams : EventId → ℕ
  | .profile => 2
  | .order | .spreadOrder | .configuration => 1
  | .timeAndSale => 3
  | _ => 0

/-- A string field that is not `NULL`, in the bodies of the copy functions: the copied string and
`*string_buffer`, or the failure.  The body for the first string field does not free the strings of
the buffer when it fails. -/
def copyString (mem : Memory) (stringBuffer : Option ℕ) (first : Bool) (src : WString) :
    Except MemoryFault (Option (Option ℕ) × Option ℕ × Memory) := do
  let (tempBuf, mem) :=
    if stringBuffer = none then callocStringArray mem else (stringBuffer, mem)
  let (tempStr, mem) := createStringSrc mem src
  let (success, mem) ← stringArrayAdd mem tempBuf tempStr
  if success then return (some tempStr, tempBuf, mem)
  else
    let mem ← if first then .ok mem else stringArrayFree mem tempBuf
    let mem ← if stringBuffer = none then freeStringArray mem tempBuf else .ok mem
    return (none, stringBuffer, mem)

/-- The string fields, one after the other. -/
def copyStrings (mem : Memory) (stringBuffer : Option ℕ) :
    Bool → List (Option WString) →
      Except MemoryFault (Option (List (Option ℕ)) × Option ℕ × Memory)
  | _, [] => .ok (some [], stringBuffer, mem)
  | _, none :: srcs => do
      let (strings, stringBuffer, mem) ← copyStrings mem stringBuffer false srcs
      return (strings.map (none :: ·), stringBuffer, mem)
  | first, some src :: srcs => do
      let (copied, stringBuffer, mem) ← copyString mem stringBuffer first src
      match copied with
      | none => return (none, stringBuffer, mem)
      | some tempStr =>
          let (strings, stringBuffer, mem) ← copyStrings mem stringBuffer false srcs
          return (strings.map (tempStr :: ·), stringBuffer, mem)

variable (kind : SnapshotKind)

/-- The copy function of the event type: the new object and `*string_buffer`. -/
def eventCopy (mem : Memory) (source : SourceEvent S D) (stringBuffer : Option ℕ) :
    Except MemoryFault (Option (StoredRecord S D) × Option ℕ × Memory) := do
  let (success, mem) := mem.calloc
  if !success then return (none, stringBuffer, mem)
  else if stringParams kind.eventId = 0 then return (some ⟨source.event, []⟩, none, mem)
  else
    let (strings, stringBuffer, mem) ← copyStrings mem stringBuffer true source.strings
    return (strings.map fun strings => ⟨source.event, strings⟩, stringBuffer, mem)

/-! ### The functions on one position -/

/-- `dx_snapshot_add_event_record`. -/
def addEventRecordWith (mem : Memory) (recs : RecordArrays S D) (source : SourceEvent S D)
    (position : ℕ) : Except MemoryFault (Bool × RecordArrays S D × Memory) := do
  let (obj, stringBuffer, mem) ← eventCopy kind mem source none
  match obj with
  | none => return (false, recs, mem)
  | some obj =>
      let (success, records, failIn) ← dxArrayInsert recs.records obj position mem.failIn
      let recs := { recs with records := records }
      let mem := { mem with failIn := failIn }
      if !success then
        let mem ← freeBuffer mem stringBuffer
        return (false, recs, mem)
      else
        let (success, recordKeys, failIn) ←
          dxArrayInsert recs.recordKeys (recordKey kind source.event) position mem.failIn
        let recs := { recs with recordKeys := recordKeys }
        let mem := { mem with failIn := failIn }
        if !success then
          let mem ← freeBuffer mem stringBuffer
          let (_, records, failIn) ← dxArrayDelete recs.records position mem.failIn
          return (false, { recs with records := records }, { mem with failIn := failIn })
        else
          let (success, recordBuffers, failIn) ←
            dxArrayInsert recs.recordBuffers stringBuffer position mem.failIn
          let recs := { recs with recordBuffers := recordBuffers }
          let mem := { mem with failIn := failIn }
          if !success then
            let mem ← freeBuffer mem stringBuffer
            let (_, records, failIn) ← dxArrayDelete recs.records position mem.failIn
            let (_, recordKeys, failIn) ← dxArrayDelete recs.recordKeys position failIn
            return (false, { recs with records := records, recordKeys := recordKeys },
              { mem with failIn := failIn })
          else return (true, recs, mem)

/-- `dx_snapshot_remove_event_record`. -/
def removeEventRecordWith (mem : Memory) (recs : RecordArrays S D) (position : ℕ) :
    Except MemoryFault (Bool × RecordArrays S D × Memory) := do
  if position ≥ recs.records.elements.length then return (false, recs, mem)
  else
    match recs.recordBuffers.elements[position]? with
    | none => throw .overrun
    | some stringBuffer =>
        let mem ← freeBuffer mem stringBuffer
        let (success, records, failIn) ← dxArrayDelete recs.records position mem.failIn
        let recs := { recs with records := records }
        let mem := { mem with failIn := failIn }
        if !success then return (false, recs, mem)
        else
          let (success, recordKeys, failIn) ← dxArrayDelete recs.recordKeys position mem.failIn
          let recs := { recs with recordKeys := recordKeys }
          let mem := { mem with failIn := failIn }
          if !success then return (false, recs, mem)
          else
            let (success, recordBuffers, failIn) ←
              dxArrayDelete recs.recordBuffers position mem.failIn
            return (success, { recs with recordBuffers := recordBuffers },
              { mem with failIn := failIn })

/-- `dx_snapshot_replace_record`; the copy writes the string buffer in its place. -/
def replaceRecordWith (mem : Memory) (recs : RecordArrays S D) (position : ℕ)
    (source : SourceEvent S D) : Except MemoryFault (Bool × RecordArrays S D × Memory) := do
  if position ≥ recs.records.elements.length then return (false, recs, mem)
  else
    match recs.recordBuffers.elements[position]? with
    | none => throw .overrun
    | some stringBuffer =>
        let mem ← stringArrayFree mem stringBuffer
        let (obj, stringBuffer, mem) ← eventCopy kind mem source stringBuffer
        let recs := { recs with
          recordBuffers := { recs.recordBuffers with
            elements := recs.recordBuffers.elements.set position stringBuffer } }
        match obj with
        | none => return (false, recs, mem)
        | some obj =>
            return (true,
              { recs with
                records := { recs.records with
                  elements := recs.records.elements.set position obj } },
              mem)

/-! ### The functions on one event -/

/-- The search for the key of an event. -/
def searchKey (recs : RecordArrays S D) (event : Event S D) : Bool × ℕ :=
  binarySearch recs.recordKeys.elements 0 recs.recordKeys.elements.length (recordKey kind event)
    recordsComparator2

/-- `dx_snapshot_remove_event_records`. -/
def removeEventRecordsWith (mem : Memory) (recs : RecordArrays S D) (event : Event S D) :
    Except MemoryFault (Bool × RecordArrays S D × Memory) :=
  match searchKey kind recs event with
  | (true, index) => removeEventRecordWith mem recs index
  | (false, _) => .ok (true, recs, mem)

/-- `dx_snapshot_update_event_records`. -/
def updateEventRecordsWith (mem : Memory) (recs : RecordArrays S D) (source : SourceEvent S D) :
    Except MemoryFault (Bool × RecordArrays S D × Memory) :=
  match searchKey kind recs source.event with
  | (true, index) => replaceRecordWith kind mem recs index source
  | (false, index) => addEventRecordWith kind mem recs source index

/-- The loop of `dx_snapshot_clear_records_array`. -/
def freeBuffers (mem : Memory) : List (Option ℕ) → Except MemoryFault Memory
  | [] => .ok mem
  | stringBuffer :: stringBuffers => do
      let mem ← freeBuffer mem stringBuffer
      freeBuffers mem stringBuffers

/-- `dx_snapshot_clear_records_array`. -/
def clearRecordsArray (mem : Memory) (recs : RecordArrays S D) :
    Except MemoryFault (Bool × RecordArrays S D × Memory) := do
  let mem ← freeBuffers mem recs.recordBuffers.elements
  return (true, .empty, mem)

/-- What `event_listener` calls for one of the stores of a snapshot, and which allocation of the
call fails, if one fails. -/
inductive StoreCall (S D : Type)
  | update (source : SourceEvent S D) (failIn : FailIn)
  | remove (event : Event S D) (failIn : FailIn)
  | clear

/-- One call. -/
def storeCall (mem : Memory) (recs : RecordArrays S D) :
    StoreCall S D → Except MemoryFault (Bool × RecordArrays S D × Memory)
  | .update source failIn => updateEventRecordsWith kind { mem with failIn := failIn } recs source
  | .remove event failIn => removeEventRecordsWith kind { mem with failIn := failIn } recs event
  | .clear => clearRecordsArray mem recs

/-- A store in memory, or what ended the run. -/
abbrev StoreState (S D : Type) := Except MemoryFault (RecordArrays S D × Memory)

/-- A new store. -/
def newStore : StoreState S D :=
  .ok (.empty, { failIn := none, arrays := fun _ => none, next := 0 })

/-- A call with its result; nothing follows a fault. -/
def storeStep : StoreState S D → StoreCall S D → StoreState S D × List Bool
  | .error fault, _ => (.error fault, [])
  | .ok (recs, mem), call =>
      match storeCall kind mem recs call with
      | .error fault => (.error fault, [])
      | .ok (success, recs, mem) => (.ok (recs, mem), [success])

end DxFeed.Snapshot
