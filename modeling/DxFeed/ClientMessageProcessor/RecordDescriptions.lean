import DxFeed.BufferedIO.Utf
import DxFeed.DataStructures.RecordRegistry

/-!
# Describe-records messages of the client

* `writeEventRecord`: `dx_write_event_record`;
* `writeEventRecords`: `dx_write_event_records`, which describes the records from the counter on;
* `Marked`: the records below the counter are those that have been described;
* `writeEventRecords_describes`: a call describes the records behind them, in the order of their
  ids, up to the last one unless a record cannot be written.
-/

namespace DxFeed.ClientMessageProcessor

open BufferedIO Call DataStructures ServerMessageProcessor

/-! ### The functions -/

/-- `dx_write_record_field`. -/
def writeRecordField (field : FieldInfo) : WriteCall Unit := do
  writeUtfString (some field.name)
  writeCompactInt field.type

/-- The loop of `dx_write_event_record`. -/
def writeRecordFields : List FieldInfo → WriteCall Unit
  | [] => pure ()
  | field :: fields => do
      writeRecordField field
      writeRecordFields fields

/-- `dx_write_event_record`. -/
def writeEventRecord (record : RecordItem) (recordId : RecordId) : WriteCall Unit := do
  writeCompactInt recordId
  writeUtfString (some record.name)
  writeCompactInt (Int32.ofNat record.fields.length)
  writeRecordFields record.fields

/-- The data structures and the output stream, with the records that have been described in this
session, one after the other. -/
structure DescribeContext where
  dscc : Registry
  bocc : OutputContext
  described : List RecordId

/-- How a description fails: it cannot be written, or there is no record. -/
inductive DescribeError
  | write (e : ErrorCode)
  | nullRecord

abbrev DescribeCall := Call DescribeError DescribeContext

/-- A call on the output stream. -/
def onOutput (x : WriteCall Unit) : DescribeCall Unit :=
  ExceptT.mk fun context =>
    ((exec x context.bocc).1.mapError .write, { context with bocc := (exec x context.bocc).2 })

/-- `dx_get_next_unsubscribed_record_id`. -/
def getNextUnsubscribedRecordId (isUpdate : Bool) : DescribeCall RecordId := do
  let context ← get
  let (recordId, dscc) := context.dscc.getNextUnsubscribedRecordId isUpdate
  set { context with dscc := dscc }
  return recordId

/-- The description of the record with an id, and its entry. -/
def describeRecord (recordId : RecordId) : DescribeCall Unit := do
  let context ← get
  match atRecordId context.dscc.recordsList.elements recordId with
  | none => throw .nullRecord
  | some record =>
      onOutput (writeEventRecord record.toRecordItem recordId)
      modify fun context => { context with described := context.described ++ [recordId] }

/-- The loop of `dx_write_event_records`; the first argument bounds the number of iterations. -/
def writeEventRecordsLoop (count : RecordId) : ℕ → RecordId → DescribeCall Unit
  | 0, _ => pure ()
  | fuel + 1, recordId =>
      if recordId < count then do
        describeRecord recordId
        let recordId ← getNextUnsubscribedRecordId true
        writeEventRecordsLoop count fuel recordId
      else pure ()

/-- `dx_write_event_records`. -/
def writeEventRecords : DescribeCall Unit := do
  let recordId ← getNextUnsubscribedRecordId false
  let dscc := (← get).dscc
  writeEventRecordsLoop dscc.getRecordsListCount dscc.recordsList.elements.length recordId

/-! ### The counter -/

/-- The ids of so many records. -/
def recordIds (n : ℕ) : List RecordId := (List.range n).map Int32.ofNat

theorem recordIds_succ (n : ℕ) : recordIds (n + 1) = recordIds n ++ [Int32.ofNat n] := by
  rw [recordIds, List.range_succ, List.map_append, List.map_singleton, recordIds]

/-- The first `n` records have been described, in this order, and the counter stands behind them. -/
structure MarkedAt (n : ℕ) (registry : Registry) (described : List RecordId) : Prop where
  newRecordId : registry.newRecordId = Int32.ofNat n
  described : described = recordIds n
  le : n ≤ registry.recordsList.elements.length
  lt : n < 2 ^ 31

/-- The records below the counter have been described. -/
def Marked (registry : Registry) (described : List RecordId) : Prop :=
  ∃ n, MarkedAt n registry described

theorem MarkedAt.of_same {registry registry' : Registry} {described : List RecordId} {n : ℕ}
    (hmarked : MarkedAt n registry described) (hid : registry'.newRecordId = registry.newRecordId)
    (hle : registry.recordsList.elements.length ≤ registry'.recordsList.elements.length) :
    MarkedAt n registry' described :=
  ⟨hid.trans hmarked.newRecordId, hmarked.described, hmarked.le.trans hle, hmarked.lt⟩

variable {context context' : DescribeContext} {n : ℕ}

theorem exec_getNext_false (context : DescribeContext) :
    exec (getNextUnsubscribedRecordId false) context = (.ok context.dscc.newRecordId, context) := by
  unfold getNextUnsubscribedRecordId
  rw [exec_bind_ok (exec_get _)]
  have hsame : context.dscc.getNextUnsubscribedRecordId false =
      (context.dscc.newRecordId, context.dscc) := by
    unfold Registry.getNextUnsubscribedRecordId
    simp
  rw [hsame]
  rfl

/-- The counter moves over a record. -/
theorem exec_getNext_true (hid : context.dscc.newRecordId = Int32.ofNat n)
    (hlt : n < context.dscc.recordsList.elements.length)
    (hlength : context.dscc.recordsList.elements.length < 2 ^ 31) :
    exec (getNextUnsubscribedRecordId true) context =
      (.ok (Int32.ofNat (n + 1)),
        { context with dscc := { context.dscc with newRecordId := Int32.ofNat (n + 1) } }) := by
  have hless : context.dscc.newRecordId < context.dscc.getRecordsListCount := by
    rw [hid, Registry.getRecordsListCount, Int32.lt_iff_toInt_lt,
      Int32.toInt_ofNat_of_lt (by omega), Int32.toInt_ofNat_of_lt hlength]
    exact_mod_cast hlt
  have hnext : context.dscc.getNextUnsubscribedRecordId true =
      (Int32.ofNat (n + 1), { context.dscc with newRecordId := Int32.ofNat (n + 1) }) := by
    unfold Registry.getNextUnsubscribedRecordId
    rw [if_pos ⟨hless, rfl⟩, hid, Int32.ofNat_add]
    rfl
  unfold getNextUnsubscribedRecordId
  rw [exec_bind_ok (exec_get _), hnext]
  rfl

/-! ### The loop -/

/-- A description writes to the output stream, and if it succeeds, then the record is described. -/
theorem exec_describeRecord (context : DescribeContext) {recordId : RecordId}
    (hrecord : (atRecordId context.dscc.recordsList.elements recordId).isSome) :
    ∃ out, exec (describeRecord recordId) context =
        (.ok (), ⟨context.dscc, out, context.described ++ [recordId]⟩) ∨
      ∃ e, exec (describeRecord recordId) context =
        (.error (.write e), { context with bocc := out }) := by
  obtain ⟨record, hrecord⟩ := Option.isSome_iff_exists.mp hrecord
  unfold describeRecord
  rw [exec_bind_ok (exec_get _)]
  simp only [hrecord]
  rcases hwrite : exec (writeEventRecord record.toRecordItem recordId) context.bocc with
    ⟨e | ⟨⟨⟩⟩, out⟩
  · refine ⟨out, Or.inr ⟨e, ?_⟩⟩
    have honOutput : exec (onOutput (writeEventRecord record.toRecordItem recordId)) context =
        (.error (.write e), { context with bocc := out }) := by
      rw [onOutput, exec_mk, hwrite]
      rfl
    rw [exec_bind_error honOutput]
  · refine ⟨out, Or.inl ?_⟩
    have honOutput : exec (onOutput (writeEventRecord record.toRecordItem recordId)) context =
        (.ok (), { context with bocc := out }) := by
      rw [onOutput, exec_mk, hwrite]
      rfl
    rw [exec_bind_ok honOutput]
    rfl

/-- What the loop leaves: the next records are described, all of them if it succeeds. -/
structure DescribesFrom (context : DescribeContext) (r : Except DescribeError Unit)
    (context' : DescribeContext) : Prop where
  same : context.dscc.SameArrays context'.dscc
  marked : Marked context'.dscc context'.described
  noFault : r ≠ .error .nullRecord
  all : r = .ok () → context.dscc.recordsList.elements.length < 2 ^ 31 →
    context'.described = recordIds context.dscc.recordsList.elements.length

/-- The next record is one if and only if there are more. -/
theorem ofNat_lt_count_iff {registry : Registry} (hle : registry.recordsList.elements.length ≤ 2 ^ 31)
    (hlt : n < 2 ^ 31) :
    Int32.ofNat n < registry.getRecordsListCount ↔
      n < registry.recordsList.elements.length ∧
        registry.recordsList.elements.length < 2 ^ 31 := by
  rw [Registry.getRecordsListCount, Int32.lt_iff_toInt_lt, Int32.toInt_ofNat_of_lt hlt]
  rcases Nat.lt_or_ge registry.recordsList.elements.length (2 ^ 31) with h | h
  · rw [Int32.toInt_ofNat_of_lt h]
    omega
  · have hmin : (Int32.ofNat (2 ^ 31)).toInt = -2 ^ 31 := by decide
    rw [Nat.le_antisymm hle h, hmin]
    omega

/-- The loop goes on with the next record until there is none or one cannot be written. -/
theorem writeEventRecordsLoop_describes (hmarked : MarkedAt n context.dscc context.described)
    (hle : context.dscc.recordsList.elements.length ≤ 2 ^ 31) {fuel : ℕ}
    (hfuel : context.dscc.recordsList.elements.length ≤ n + fuel) {r : Except DescribeError Unit}
    (hexec : exec (writeEventRecordsLoop context.dscc.getRecordsListCount fuel (Int32.ofNat n))
      context = (r, context')) : DescribesFrom context r context' := by
  induction fuel generalizing n context with
  | zero =>
      have heq : n = context.dscc.recordsList.elements.length :=
        le_antisymm hmarked.le hfuel
      obtain ⟨rfl, rfl⟩ := Prod.mk.inj hexec
      exact ⟨⟨rfl, rfl, rfl⟩, ⟨n, hmarked⟩, nofun, fun _ _ => heq ▸ hmarked.described⟩
  | succ fuel ih =>
      rw [writeEventRecordsLoop] at hexec
      by_cases hnext : Int32.ofNat n < context.dscc.getRecordsListCount
      · obtain ⟨hlt, hlength⟩ := (ofNat_lt_count_iff hle hmarked.lt).mp hnext
        have hrecord : (atRecordId context.dscc.recordsList.elements (Int32.ofNat n)).isSome := by
          rw [atRecordId, Int32.toInt_ofNat_of_lt hmarked.lt, if_neg (by omega), Int.toNat_natCast,
            List.getElem?_eq_getElem hlt]
          rfl
        rw [if_pos hnext] at hexec
        obtain ⟨out, hok | ⟨e, herror⟩⟩ := exec_describeRecord context hrecord
        · have hcounter : exec (getNextUnsubscribedRecordId true)
              ⟨context.dscc, out, context.described ++ [Int32.ofNat n]⟩ = _ :=
            exec_getNext_true hmarked.newRecordId hlt hlength
          rw [exec_bind_ok hok, exec_bind_ok hcounter] at hexec
          have hmarked' : MarkedAt (n + 1) { context.dscc with newRecordId := Int32.ofNat (n + 1) }
              (context.described ++ [Int32.ofNat n]) := by
            refine ⟨rfl, ?_, hlt, by omega⟩
            rw [hmarked.described, recordIds_succ]
          have hfuel' : context.dscc.recordsList.elements.length ≤ n + 1 + fuel := by omega
          have hloop := @ih ⟨{ context.dscc with newRecordId := Int32.ofNat (n + 1) }, out,
            context.described ++ [Int32.ofNat n]⟩ (n + 1) hmarked' hle hfuel' hexec
          obtain ⟨hrecords, hstates, hdigests⟩ := hloop.same
          exact ⟨⟨hrecords, hstates, hdigests⟩, hloop.marked, hloop.noFault, hloop.all⟩
        · rw [exec_bind_error herror] at hexec
          obtain ⟨rfl, rfl⟩ := Prod.mk.inj hexec
          exact ⟨⟨rfl, rfl, rfl⟩, ⟨n, hmarked⟩, nofun, nofun⟩
      · rw [if_neg hnext] at hexec
        obtain ⟨rfl, rfl⟩ := Prod.mk.inj hexec
        refine ⟨⟨rfl, rfl, rfl⟩, ⟨n, hmarked⟩, nofun, fun _ hlength => ?_⟩
        have hnot : ¬ n < context.dscc.recordsList.elements.length := fun hlt =>
          hnext ((ofNat_lt_count_iff hle hmarked.lt).mpr ⟨hlt, hlength⟩)
        have heq : n = context.dscc.recordsList.elements.length :=
          le_antisymm hmarked.le (not_lt.mp hnot)
        exact heq ▸ hmarked.described

/-- `dx_write_event_records` describes the records from the counter on. -/
theorem writeEventRecords_describes (hmarked : Marked context.dscc context.described)
    (hle : context.dscc.recordsList.elements.length ≤ 2 ^ 31) {r : Except DescribeError Unit}
    (hexec : exec writeEventRecords context = (r, context')) :
    DescribesFrom context r context' := by
  obtain ⟨n, hmarked⟩ := hmarked
  unfold writeEventRecords at hexec
  rw [exec_bind_ok (exec_getNext_false context), exec_bind_ok (exec_get _),
    hmarked.newRecordId] at hexec
  exact writeEventRecordsLoop_describes hmarked hle (Nat.le_add_left _ _) hexec

end DxFeed.ClientMessageProcessor
