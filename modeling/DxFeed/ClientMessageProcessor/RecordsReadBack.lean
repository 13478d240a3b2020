import DxFeed.ClientMessageProcessor.RecordSessions
import DxFeed.ClientMessageProcessor.Sending
import DxFeed.ServerMessageProcessor.DescribeRecordsInput
import DxFeed.ServerMessageProcessor.RecordDigests

/-!
# Describe-records messages on the wire

A client describes its records to the peer, and reads descriptions of the same form.

* `sendRecordDescription`: `dx_send_record_description`, up to the bytes for the socket;
* `transports_writeEventRecord`: the description of a record is read as it was written;
* `obtainsAll_readMessage`: the descriptions of a message are read up to its end;
* `fields_of_run`: the fields of a record are those of its type;
* `recordsReadBack`: a peer that has its records from the same tables reads the message, takes the ids
  over, and expects exactly the fields that were described.
-/

namespace DxFeed.ClientMessageProcessor

open Call BufferedIO ServerMessageProcessor DataStructures

/-! ### The two sides -/

/-- `dx_send_record_description` in its task, up to the bytes that it hands to `dx_send_data`. -/
def sendRecordDescription (room : List Int8) : DescribeCall (List Int8) := do
  modify fun context => { context with bocc := outputAt [] room }
  onOutput (composeMessageHeader messageDescribeRecords)
  writeEventRecords
  onOutput finishComposingMessage
  let context ← get
  return context.bocc.writtenFrom 0

/-- `dx_process_describe_records` behind the header of its message. -/
def receiveRecordDescription : FromInput.DescribeRecordsCall Unit := do
  let messageType ← onFst (FromInput.reading readHeader)
  if messageType = messageDescribeRecords then FromInput.processDescribeRecords

/-- A field as it is described. -/
def descriptionOfField (field : FieldInfo) : FieldDescription := ⟨some field.name, field.type⟩

/-- A record as it is described. -/
def descriptionOf (record : RecordItem) (recordId : RecordId) : RecordDescription where
  serverRecordId := recordId
  recordName := some record.name
  serverFieldCount := Int32.ofNat record.fields.length
  fields := record.fields.map descriptionOfField

/-- The bytes that may be needed for a field. -/
def fieldSize (field : FieldInfo) : ℕ := utfSize (some field.name) + 5

/-- The bytes that may be needed for a record. -/
def recordSize (record : RecordItem) : ℕ :=
  5 + (utfSize (some record.name) + (5 + (record.fields.map fieldSize).sum))

/-! ### The tables -/

theorem recordTables_described : ∀ table ∈ recordTables, ∀ field ∈ table.2,
    (descriptionOfField field).isCorrupted = false ∧
      (field.name.all fun c => !isHighSurrogate c && c ≠ 0) = true := by
  decide +kernel

/-- A field of a table is found by its description. -/
theorem recordTables_found : ∀ table ∈ recordTables, ∀ index : Fin table.2.length,
    table.2.findIdx? (fun field => field.name = table.2[index].name ∧
      field.type &&& 0x0F = table.2[index].type &&& 0x0F) = some index.val := by
  decide +kernel

theorem isText_of_all {value : WString}
    (h : (value.all fun c => !isHighSurrogate c && c ≠ 0) = true) : IsText value where
  pairsFit := by
    rintro front high low back rfl hhigh -
    have hall := List.all_eq_true.mp h high (by simp)
    rw [hhigh] at hall
    cases hall
  noZero hzero := by
    have hall := List.all_eq_true.mp h 0 hzero
    rw [Bool.and_eq_true] at hall
    exact of_decide_eq_true hall.2 rfl

/-! ### A record -/

section Record

variable {record : RecordItem} {recordId : RecordId}

theorem readsOn_reading {α : Type} (x : ReadCall α) : ReadsOn (FromInput.reading x) id x :=
  ⟨some, fun _ => rfl⟩

theorem transports_writeRecordField {field : FieldInfo} (htext : IsText field.name)
    (hsize : fieldSize field ≤ INT_MAX) :
    Transports (writeRecordField field) FromInput.readFieldDescription id (descriptionOfField field)
      id (fieldSize field) := by
  have hname := transports_text (readsOn_reading readText)
    (by unfold fieldSize at hsize; omega) (fun w hw => Option.mem_some.mp hw ▸ htext)
  exact hname.bind ((transports_int (readsOn_reading readCompactInt) field.type).andThen
    (obtains_pure _))

theorem transports_writeRecordFields {fields : List FieldInfo}
    (htext : ∀ field ∈ fields, IsText field.name)
    (hsize : (fields.map fieldSize).sum ≤ INT_MAX) :
    Transports (writeRecordFields fields) (FromInput.readFieldDescriptions fields.length) id
      (fields.map descriptionOfField) id (fields.map fieldSize).sum := by
  induction fields with
  | nil => exact transports_pure []
  | cons field fields ih =>
      have hsum : ((field :: fields).map fieldSize).sum = fieldSize field + (fields.map fieldSize).sum :=
        List.sum_cons
      rw [hsum] at hsize ⊢
      have hfield := transports_writeRecordField (htext field List.mem_cons_self) (by omega)
      have hfields := ih (fun f hf => htext f (List.mem_cons_of_mem field hf)) (by omega)
      exact hfield.bind (hfields.andThen (obtains_pure _))

/-- The description of a record is read as it was written. -/
theorem transports_writeEventRecord (hname : IsText record.name)
    (hfields : ∀ field ∈ record.fields, IsText field.name) (hsize : recordSize record ≤ INT_MAX) :
    Transports (writeEventRecord record recordId) FromInput.readRecordDescription id
      (descriptionOf record recordId) id (recordSize record) := by
  have hsum : record.fields.length ≤ (record.fields.map fieldSize).sum := by
    have hlength := List.length_le_sum_of_one_le (record.fields.map fieldSize) fun n hn => by
      obtain ⟨field, -, rfl⟩ := List.mem_map.mp hn
      unfold fieldSize
      omega
    rwa [List.length_map] at hlength
  have hle : (record.fields.map fieldSize).sum ≤ INT_MAX := by
    unfold recordSize at hsize
    omega
  have hcount : (Int32.ofNat record.fields.length).toInt.toNat = record.fields.length := by
    rw [Int32.toInt_ofNat_of_lt (by rw [INT_MAX] at hle; omega), Int.toNat_natCast]
  have hid := transports_int (readsOn_reading readCompactInt) recordId
  have hrecordName := transports_text (readsOn_reading readText)
    (by unfold recordSize at hsize; omega) (fun w hw => Option.mem_some.mp hw ▸ hname)
  have hfieldCount := transports_int (readsOn_reading readCompactInt)
    (Int32.ofNat record.fields.length)
  have hall := transports_writeRecordFields hfields hle
  rw [← hcount] at hall
  exact hid.bind (hrecordName.bind (hfieldCount.bind (hall.andThen (obtains_pure _))))

end Record

/-! ### A message -/

/-- A description takes a byte at least. -/
theorem length_pos_of_obtains {d : RecordDescription} {bs : List Int8}
    (h : Obtains FromInput.readRecordDescription id bs d id) (hlen : bs.length ≤ INT_MAX) :
    0 < bs.length := by
  have hread := h [] [] 0 (by simpa using hlen)
  obtain ⟨-, hle⟩ := FromInput.goesOn_readRecordDescription _ _ _ hread
  rw [List.nil_append] at hle
  exact hle

theorem obtainsAll_readMessageLoop {words : List (List Int8)} {message : List RecordDescription}
    (h : List.Forall₂ (fun word d => Obtains FromInput.readRecordDescription id word d id) words
      message) {fuel : ℕ} (hfuel : words.flatten.length ≤ fuel) :
    ObtainsAll (FromInput.readMessageLoop fuel) id words.flatten message id := by
  induction h generalizing fuel with
  | nil =>
      intro pre post hlen
      cases fuel with
      | zero => simp [FromInput.readMessageLoop]
      | succ fuel =>
          rw [FromInput.readMessageLoop, exec_bind_ok (exec_get _), if_neg (by simp [inputAt])]
          simp
  | @cons word d words message hword hwords ih =>
      intro pre post hlen
      have hpos := length_pos_of_obtains hword (by
        rw [List.flatten_cons, List.length_append, List.length_append, List.length_append] at hlen
        omega)
      rw [List.flatten_cons, List.length_append] at hfuel
      obtain ⟨fuel, rfl⟩ : ∃ k, fuel = k + 1 := ⟨fuel - 1, by omega⟩
      have hall := ih (show words.flatten.length ≤ fuel by omega)
      have hrest : ObtainsAll
          (do
            let message ← FromInput.readMessageLoop fuel
            return d :: message)
          id words.flatten (d :: message) id := by
        intro pre post hlen
        rw [exec_bind_ok (hall pre post hlen)]
        rfl
      have hmore : pre.length < pre.length + (word :: words).flatten.length := by
        rw [List.flatten_cons, List.length_append]
        omega
      rw [FromInput.readMessageLoop, exec_bind_ok (exec_get _)]
      exact (congrArg (fun x => exec x _) (if_pos hmore)).trans (hword.bindAll hrest pre post hlen)

/-! ### What is sent -/

/-- The records behind the first `n`, with their ids. -/
def newRecords (registry : Registry) (n : ℕ) : List (RecordInfoItem × ℕ) :=
  (registry.recordsList.elements.drop n).zipIdx n

def writeNewRecord (p : RecordInfoItem × ℕ) : WriteCall Unit :=
  writeEventRecord p.1.toRecordItem (Int32.ofNat p.2)

section Sending

variable {context context' : DescribeContext} {n : ℕ}

theorem exec_onOutput_eq_ok {x : WriteCall Unit}
    (h : exec (onOutput x) context = (.ok (), context')) :
    exec x context.bocc = (.ok (), context'.bocc) ∧
      context' = { context with bocc := context'.bocc } := by
  rw [onOutput, exec_mk] at h
  rcases hx : exec x context.bocc with ⟨e | ⟨⟨⟩⟩, out⟩
  · rw [hx] at h
    cases (Prod.mk.inj h).1
  · rw [hx] at h
    obtain rfl := (Prod.mk.inj h).2
    exact ⟨rfl, rfl⟩

theorem exec_describeRecord_eq_ok {recordId : RecordId}
    (h : exec (describeRecord recordId) context = (.ok (), context')) :
    ∃ record, atRecordId context.dscc.recordsList.elements recordId = some record ∧
      exec (writeEventRecord record.toRecordItem recordId) context.bocc = (.ok (), context'.bocc) ∧
      context' = ⟨context.dscc, context'.bocc, context.described ++ [recordId]⟩ := by
  unfold describeRecord at h
  rw [exec_bind_ok (exec_get _)] at h
  cases hrecord : atRecordId context.dscc.recordsList.elements recordId with
  | none =>
      simp only [hrecord] at h
      exact nomatch (Prod.mk.inj h).1
  | some record =>
      simp only [hrecord] at h
      obtain ⟨⟨⟩, mid, hwrite, hmodify⟩ := exec_bind_eq_ok h
      obtain ⟨hwrite, hmid⟩ := exec_onOutput_eq_ok hwrite
      obtain rfl := (Prod.mk.inj hmodify).2
      rw [hmid]
      exact ⟨record, rfl, hwrite, rfl⟩

/-- The loop writes the records from the counter on, one after the other. -/
theorem exec_writeAll_of_loop (hid : context.dscc.newRecordId = Int32.ofNat n)
    (hle : n ≤ context.dscc.recordsList.elements.length)
    (hlength : context.dscc.recordsList.elements.length < 2 ^ 31) {fuel : ℕ}
    (hfuel : context.dscc.recordsList.elements.length ≤ n + fuel)
    (h : exec (writeEventRecordsLoop context.dscc.getRecordsListCount fuel (Int32.ofNat n)) context =
      (.ok (), context')) :
    exec (writeAll writeNewRecord (newRecords context.dscc n)) context.bocc =
      (.ok (), context'.bocc) := by
  induction fuel generalizing n context with
  | zero =>
      obtain rfl := (Prod.mk.inj h).2
      rw [newRecords, List.drop_eq_nil_of_le (by omega)]
      rfl
  | succ fuel ih =>
      rw [writeEventRecordsLoop] at h
      have hnext := @ofNat_lt_count_iff n context.dscc hlength.le (by omega)
      by_cases hlt : n < context.dscc.recordsList.elements.length
      · rw [if_pos (hnext.mpr ⟨hlt, hlength⟩)] at h
        obtain ⟨⟨⟩, mid, hdescribe, hrest⟩ := exec_bind_eq_ok h
        obtain ⟨record, hrecord, hwrite, hmid⟩ := exec_describeRecord_eq_ok hdescribe
        rw [atRecordId, Int32.toInt_ofNat_of_lt (by omega), if_neg (by omega),
          Int.toNat_natCast, List.getElem?_eq_getElem hlt] at hrecord
        obtain rfl := Option.some.inj hrecord
        have hcounter := @exec_getNext_true mid n (by rw [hmid]; exact hid) (by rw [hmid]; exact hlt)
          (by rw [hmid]; exact hlength)
        rw [exec_bind_ok hcounter] at hrest
        have hdscc : mid.dscc = context.dscc := by rw [hmid]
        rw [hdscc] at hrest
        have hfuel' : context.dscc.recordsList.elements.length ≤ n + 1 + fuel := by omega
        have hall := @ih { mid with dscc := { context.dscc with newRecordId := Int32.ofNat (n + 1) } }
          (n + 1) rfl hlt hlength hfuel' hrest
        have hcons : newRecords context.dscc n =
            (context.dscc.recordsList.elements[n], n) :: newRecords context.dscc (n + 1) := by
          rw [newRecords, List.drop_eq_getElem_cons hlt, List.zipIdx_cons]
          rfl
        rw [hcons, writeAll]
        exact (exec_bind_ok hwrite).trans hall
      · rw [if_neg fun hmore => hlt (hnext.mp hmore).1] at h
        obtain rfl := (Prod.mk.inj h).2
        rw [newRecords, List.drop_eq_nil_of_le (by omega)]
        rfl

/-- The bytes that are handed over are the message of the records from the counter on. -/
theorem composedBytes_of_send {room bytes : List Int8} (hmarked : MarkedAt n context.dscc
      context.described)
    (hlength : context.dscc.recordsList.elements.length < 2 ^ 31)
    (h : exec (sendRecordDescription room) context = (.ok bytes, context')) :
    composedBytes room messageDescribeRecords
      (writeAll writeNewRecord (newRecords context.dscc n)) = some bytes := by
  unfold sendRecordDescription at h
  obtain ⟨⟨⟩, start, hstart, h⟩ := exec_bind_eq_ok h
  obtain rfl := (Prod.mk.inj hstart).2
  obtain ⟨⟨⟩, headed, hheader, h⟩ := exec_bind_eq_ok h
  obtain ⟨⟨⟩, written, hrecords, h⟩ := exec_bind_eq_ok h
  obtain ⟨⟨⟩, finished, hfinish, h⟩ := exec_bind_eq_ok h
  rw [exec_bind_ok (exec_get _)] at h
  obtain ⟨hbytes, -⟩ := Prod.mk.inj h
  obtain rfl := Except.ok.inj hbytes
  obtain ⟨hheader, hheaded⟩ := exec_onOutput_eq_ok hheader
  obtain ⟨hfinish, -⟩ := exec_onOutput_eq_ok hfinish
  unfold writeEventRecords at hrecords
  rw [exec_bind_ok (exec_getNext_false headed), exec_bind_ok (exec_get _)] at hrecords
  have hdscc : headed.dscc = context.dscc := by rw [hheaded]
  have hloop := @exec_writeAll_of_loop headed written n (by rw [hdscc]; exact hmarked.newRecordId)
    (by rw [hdscc]; exact hmarked.le) (by rw [hdscc]; exact hlength)
    headed.dscc.recordsList.elements.length (by omega) (by
      rw [hdscc, hmarked.newRecordId] at hrecords
      rw [hdscc]
      exact hrecords)
  rw [hdscc] at hloop
  have hcompose : exec (composeMessage messageDescribeRecords
      (writeAll writeNewRecord (newRecords context.dscc n))) (outputAt [] room) =
        (.ok (), finished.bocc) := by
    unfold composeMessage
    exact (exec_bind_ok hheader).trans ((exec_bind_ok hloop).trans hfinish)
  rw [composedBytes, hcompose]

end Sending

/-! ### The fields of a record -/

/-- The fields of every record are those of the type that its name says. -/
def FieldsByName (records : List RecordInfoItem) : Prop :=
  ∀ record ∈ records, ∃ type, stringToRecordInfo record.name = some type ∧
    record.fields = recordFields type

section Run

variable {allowed : FailIn → Prop} {registry registry' : Registry}
  {answers : List (WString × RecordId)} {described : List RecordId}

/-- A call that adds a record adds the one of the name. -/
theorem addOrGetRecordId_elements (hconsistent : registry.Consistent) {name : WString}
    {failIn : FailIn} {id : RecordId}
    (h : registry.addOrGetRecordId name failIn = .ok (id, registry')) :
    registry'.recordsList.elements = registry.recordsList.elements ∨
      ∃ record, initRecordInfo name = .ok record ∧
        registry'.recordsList.elements = registry.recordsList.elements ++ [record] := by
  unfold Registry.addOrGetRecordId at h
  cases hinit : initRecordInfo name with
  | error e =>
      cases e with
      | overrun => simp [hinit] at h
      | invalidFuncParam =>
          simp only [hinit, Except.ok.injEq, Prod.mk.injEq] at h
          exact Or.inl (by rw [h.2])
  | ok record =>
      simp only [hinit] at h
      unfold Registry.searchRecord at h
      cases hsearch : registry.recordsList.elements.findIdx? fun r => r.name = record.name with
      | some i =>
          simp only [hsearch, if_true, pure, Except.pure, Except.ok.injEq, Prod.mk.injEq] at h
          exact Or.inl (by rw [h.2])
      | none =>
          simp only [hsearch, Bool.false_eq_true, if_false] at h
          obtain ⟨⟨success, registry₁, failIn₁⟩, hadd, h⟩ := bind_eq_ok h
          simp only [pure, Except.pure, Except.ok.injEq, Prod.mk.injEq] at h
          obtain ⟨-, rfl⟩ := h
          obtain ⟨⟨hnonneg, -⟩, -, hadded⟩ := Registry.addRecordToList_added hadd
          cases success with
          | false => exact Or.inl hadded.records
          | true =>
              have hlength := Registry.lt_of_nonneg hconsistent.length_le hnonneg
              refine Or.inr ⟨record, rfl, ?_⟩
              rw [hadded.records, if_pos rfl, Int32.toInt_ofNat_of_lt hlength, Int.toNat_natCast,
                Registry.arrayInsert_length]

theorem RegistryRun.fieldsByName (hrun : RegistryRun allowed registry answers described) :
    FieldsByName registry.recordsList.elements := by
  induction hrun with
  | start => exact nofun
  | addOrGetRecordId run name hallowed hcall ih =>
      rcases addOrGetRecordId_elements run.reached.consistent hcall with hsame | ⟨record, hinit, hadded⟩
      · rwa [hsame]
      · obtain ⟨hname, htype, hfields⟩ := initRecordInfo_item hinit
        rw [hadded]
        intro r hr
        rcases List.mem_append.mp hr with hr | hr
        · exact ih r hr
        · rw [List.mem_singleton.mp hr, hname]
          exact ⟨record.infoId, htype, hfields⟩
  | writeEventRecords run out hcall ih =>
      have hreached := run.reached
      have hdescribes :=
        writeEventRecords_describes hreached.marked hreached.consistent.length_le hcall
      rwa [hdescribes.same.records]
  | clearServerInfo run hallowed hcall ih =>
      obtain ⟨hrecords, -⟩ := Registry.clearServerInfo_eq_ok run.reached.consistent hcall
      rwa [hrecords]

end Run

/-! ### The side that receives -/

/-- The entry for a field that both sides have. -/
def sharedEntry (field : FieldInfo) : FieldDigest :=
  ⟨field.type, field.type, some field.setter, none⟩

/-- The digest of a record with the same fields on both sides. -/
def sharedDigest (record : RecordItem) : RecordDigest := ⟨record.fields.map sharedEntry, true⟩

section Receiving

variable {record : RecordItem} {recordId : RecordId}

/-- The fields of a record are those of a table. -/
def IsTabled (record : RecordItem) : Prop := ∃ table ∈ recordTables, record.fields = table.2

theorem IsTabled.listedIndex_eq (h : IsTabled record) {index : ℕ} {field : FieldInfo}
    (hfield : record.fields[index]? = some field) :
    listedIndex record (descriptionOfField field) = some index := by
  obtain ⟨table, htable, hfields⟩ := h
  rw [hfields] at hfield
  obtain ⟨hlt, rfl⟩ := List.getElem?_eq_some_iff.mp hfield
  have hfound := recordTables_found table htable ⟨index, hlt⟩
  unfold listedIndex findRecordField
  rw [hfields]
  exact hfound

theorem IsTabled.fieldEntry_eq (h : IsTabled record) {field : FieldInfo} (hfield : field ∈ record.fields) :
    fieldEntry record (descriptionOfField field) = sharedEntry field := by
  obtain ⟨index, hindex⟩ := List.getElem?_of_mem hfield
  rw [fieldEntry, h.listedIndex_eq hindex, Option.bind_some, hindex]
  rfl

theorem IsTabled.isSmall (h : IsTabled record) : record.IsSmall := by
  obtain ⟨table, htable, hfields⟩ := h
  rw [RecordItem.IsSmall, hfields]
  exact (recordTables_proper table htable).1

/-- A description of all fields leaves no defaults, whatever was described before. -/
theorem IsTabled.renewedDigest_eq (h : IsTabled record) (state : Int32) :
    renewedDigest record state (record.fields.map descriptionOfField) = sharedDigest record := by
  have hsmall := h.isSmall
  have hsupported : ∀ index < record.fields.length,
      IsSupported (supportOf record state (record.fields.map descriptionOfField)) index := by
    intro index hindex
    refine (isSupported_supportOf hsmall hindex).mpr (Or.inr (List.mem_filterMap.mpr ?_))
    exact ⟨_, List.mem_map_of_mem (List.getElem_mem hindex),
      h.listedIndex_eq (List.getElem?_eq_getElem hindex)⟩
  have hnone := unsupportedFields_eq
    (supportOf record state (record.fields.map descriptionOfField)) [] record.fields
  rw [List.length_nil, ← List.range_eq_range', List.filter_eq_nil_iff.mpr (by
    intro index hindex
    simpa using hsupported index (List.mem_range.mp hindex))] at hnone
  rw [renewedDigest, hnone, sharedDigest, List.map_map]
  congr 1
  simpa using fun field hfield => h.fieldEntry_eq hfield

theorem IsTabled.toNat_count (h : IsTabled record) :
    (Int32.ofNat record.fields.length).toInt = record.fields.length := by
  have hsmall : record.fields.length ≤ 32 := h.isSmall
  exact Int32.toInt_ofNat_of_lt (by omega)

theorem IsTabled.listedFields_eq (h : IsTabled record) (recordId : RecordId) :
    (descriptionOf record recordId).listedFields = record.fields.map descriptionOfField := by
  unfold RecordDescription.listedFields descriptionOf
  dsimp only
  rw [h.toNat_count, Int.toNat_natCast, List.take_of_length_le (by rw [List.length_map])]

/-- The description of a record with a name is accepted. -/
theorem IsTabled.isAccepted (h : IsTabled record) (hname : record.name ≠ []) (recordId : RecordId) :
    (descriptionOf record recordId).isAccepted = true := by
  rw [RecordDescription.accepted_iff]
  constructor
  · have hcount : ¬ Int32.ofNat record.fields.length < 0 := by
      have hzero : (0 : Int32).toInt = 0 := rfl
      rw [Int32.lt_iff_toInt_lt, h.toNat_count, hzero]
      omega
    simp [RecordDescription.isCorrupted, descriptionOf, isEmptyName, hname, hcount]
  · refine ⟨?_, fun field hfield => ?_⟩
    · simp only [descriptionOf, List.length_map, h.toNat_count, Int.toNat_natCast, le_refl]
    · obtain ⟨f, hf, rfl⟩ := List.mem_map.mp (List.mem_of_mem_take hfield)
      obtain ⟨table, htable, hfields⟩ := h
      exact (recordTables_described table htable f (hfields ▸ hf)).1

/-- What a description of a record changes. -/
structure Understood (info info' : ServerInfo) (sent : List (RecordInfoItem × ℕ)) : Prop where
  sync : info'.InSync
  list : info'.recordsList = info.recordsList
  /-- The map holds the records that are known for their ids, and their digests all fields. -/
  known : ∀ p ∈ sent, getRecordIdByName info.recordsList p.1.name ≠ recordIdInvalid →
    info'.recordIdMap.held (Int32.ofNat p.2) =
        getRecordIdByName info.recordsList p.1.name ∧
      info'.digest (getRecordIdByName info.recordsList p.1.name) =
        some (sharedDigest p.1.toRecordItem)
  /-- The ids of other records are left. -/
  otherIds : ∀ id, (∀ p ∈ sent, Int32.ofNat p.2 = id →
      getRecordIdByName info.recordsList p.1.name = recordIdInvalid) →
    info'.recordIdMap.held id = info.recordIdMap.held id
  /-- There are no more new pairs than records. -/
  pairs : info'.recordIdMap.idMap.length ≤ info.recordIdMap.idMap.length + sent.length
  /-- The digests of other records are left. -/
  otherDigests : ∀ id, (∀ p ∈ sent, getRecordIdByName info.recordsList p.1.name ≠ id) →
    info'.digest id = info.digest id

theorem understood_nil {info : ServerInfo} (hsync : info.InSync) : Understood info info [] :=
  ⟨hsync, rfl, nofun, fun _ _ => rfl, Nat.le_add_right _ _, fun _ _ => rfl⟩

/-- A record that is found by its name has this name. -/
theorem name_of_getRecordIdByName {records : RecordList} {name : WString} {item : RecordItem}
    (hrecord : IsRecord records (getRecordIdByName records name) (some item)) :
    item.name = name := by
  have hitem : atRecordId records.elements (getRecordIdByName records name) = some item := hrecord
  unfold getRecordIdByName at hitem
  cases hfind : records.elements.findIdx? fun r => r.name = name with
  | none =>
      rw [hfind] at hitem
      exact nomatch hitem
  | some i =>
      rw [hfind] at hitem
      obtain ⟨hlt, hname, -⟩ := List.findIdx?_eq_some_iff_getElem.mp hfind
      dsimp only at hitem
      rw [atRecordId, Int32.toInt_ofNat_of_lt (hlt.trans records.bounded), if_neg (by omega),
        Int.toNat_natCast, List.getElem?_eq_getElem hlt] at hitem
      obtain rfl := Option.some.inj hitem
      exact of_decide_eq_true hname

/-- Records of the same name have the same fields. -/
def SameFields (records : RecordList) (item : RecordItem) : Prop :=
  ∀ other ∈ records.elements, other.name = item.name → other.fields = item.fields

/-- The description of one record. -/
theorem understood_one {info : ServerInfo} (hsync : info.InSync) {p : RecordInfoItem × ℕ}
    (htabled : IsTabled p.1.toRecordItem) (hname : p.1.name ≠ [])
    (hsame : SameFields info.recordsList p.1.toRecordItem) :
    ∃ info', exec (processRecordDescription (descriptionOf p.1.toRecordItem (Int32.ofNat p.2))) info =
        (.ok (), info') ∧ Understood info info' [p] := by
  obtain ⟨record, i⟩ := p
  have haccepted := htabled.isAccepted hname (Int32.ofNat i)
  obtain ⟨-, -, hids, -⟩ := processRecordDescription_spec hsync
    (descriptionOf record.toRecordItem (Int32.ofNat i))
  rw [if_neg (RecordDescription.accepted_iff.mp haccepted).1] at hids
  by_cases hknown : getRecordIdByName info.recordsList record.name = recordIdInvalid
  · have hexec := exec_processRecordDescription_unknown haccepted hknown
    refine ⟨info, hexec, hsync, rfl, ?_, fun _ _ => rfl, Nat.le_add_right _ _, fun _ _ => rfl⟩
    intro p hp hne
    rw [List.mem_singleton.mp hp] at hne
    exact absurd hknown hne
  · obtain ⟨item, hrecord⟩ := getRecordIdByName_ne_invalid hknown
    obtain ⟨-, state, hstate⟩ := atRecordId_eq_some hrecord hsync.states
    have hfields : item.fields = record.fields :=
      hsame item hrecord.mem (name_of_getRecordIdByName hrecord)
    have hitem : IsTabled item := by
      obtain ⟨table, htable, hrows⟩ := htabled
      exact ⟨table, htable, hfields.trans hrows⟩
    obtain ⟨info', hexec, hfills⟩ :=
      exec_processRecordDescription_known hsync haccepted hrecord hstate
    rw [hexec] at hids
    have hbind : info'.recordIdMap = info.recordIdMap.assignServerRecordId
        (getRecordIdByName info.recordsList record.name) (Int32.ofNat i) := by
      refine hids.trans ?_
      unfold bindName
      exact if_neg hknown
    refine ⟨info', hexec, hfills.sync, hfills.list, ?_, ?_, ?_, ?_⟩
    · intro p hp _
      obtain rfl := List.mem_singleton.mp hp
      have hdigest := hfills.digest
      rw [htabled.listedFields_eq, ← hfields, hitem.renewedDigest_eq] at hdigest
      refine ⟨?_, ?_⟩
      · rw [hbind, ServerLocalRecordIdMap.held_assign, Function.update_self]
      · unfold sharedDigest at hdigest ⊢
        rw [hfields] at hdigest
        exact hdigest
    · intro id hid
      have hne : id ≠ Int32.ofNat i := fun heq =>
        hknown (hid (record, i) (List.mem_singleton_self _) heq.symm)
      rw [hbind, ServerLocalRecordIdMap.held_assign, Function.update_of_ne hne]
    · rw [hbind]
      exact info.recordIdMap.length_assignServerRecordId_le _ _
    · intro id hid
      exact hfills.digest_of_ne id (hid (record, i) (List.mem_singleton_self _)).symm

/-- The names and the ids of two records are different. -/
def Apart (p q : RecordInfoItem × ℕ) : Prop :=
  p.1.name ≠ q.1.name ∧ Int32.ofNat p.2 ≠ Int32.ofNat q.2

/-- The descriptions of all records of a message. -/
theorem understood_all {info : ServerInfo} (hsync : info.InSync)
    {sent : List (RecordInfoItem × ℕ)} (hapart : sent.Pairwise Apart)
    (htabled : ∀ p ∈ sent, IsTabled p.1.toRecordItem) (hname : ∀ p ∈ sent, p.1.name ≠ [])
    (hsame : ∀ p ∈ sent, SameFields info.recordsList p.1.toRecordItem) :
    ∃ info', exec (processDescribeRecords
        (sent.map fun p => descriptionOf p.1.toRecordItem (Int32.ofNat p.2))) info = (.ok (), info') ∧
      Understood info info' sent := by
  induction sent generalizing info with
  | nil => exact ⟨info, rfl, understood_nil hsync⟩
  | cons p sent ih =>
      obtain ⟨hfirst, hrest⟩ := List.pairwise_cons.mp hapart
      obtain ⟨info₁, hexec₁, h₁⟩ := understood_one hsync (htabled p List.mem_cons_self)
        (hname p List.mem_cons_self) (hsame p List.mem_cons_self)
      have hsame₁ : ∀ q ∈ sent, SameFields info₁.recordsList q.1.toRecordItem := by
        intro q hq
        rw [h₁.list]
        exact hsame q (List.mem_cons_of_mem p hq)
      obtain ⟨info₂, hexec₂, h₂⟩ := ih h₁.sync hrest
        (fun q hq => htabled q (List.mem_cons_of_mem p hq))
        (fun q hq => hname q (List.mem_cons_of_mem p hq)) hsame₁
      obtain ⟨hsync₂, hlist₂, hknown₂, hids₂, hpairs₂, hdigests₂⟩ := h₂
      rw [h₁.list] at hlist₂ hknown₂ hids₂ hdigests₂
      refine ⟨info₂, ?_, hsync₂, hlist₂, ?_, ?_, ?_, ?_⟩
      · rw [List.map_cons, processDescribeRecords, exec_bind_ok hexec₁]
        exact hexec₂
      · intro q hq hknown
        rcases List.mem_cons.mp hq with rfl | hq
        · -- the later records have other ids and other names
          obtain ⟨hid, hdigest⟩ := h₁.known q List.mem_cons_self hknown
          refine ⟨(hids₂ _ fun r hr heq => absurd heq.symm (hfirst r hr).2).trans hid,
            (hdigests₂ _ fun r hr heq => ?_).trans hdigest⟩
          obtain ⟨item, hrecord⟩ := getRecordIdByName_ne_invalid hknown
          have hother : IsRecord info.recordsList
              (getRecordIdByName info.recordsList r.1.name) (some item) := by rwa [heq]
          exact (hfirst r hr).1 ((name_of_getRecordIdByName hrecord).symm.trans
            (name_of_getRecordIdByName hother))
        · exact hknown₂ q hq hknown
      · intro id hid
        rw [hids₂ id fun q hq => hid q (List.mem_cons_of_mem p hq)]
        exact h₁.otherIds id fun q hq => by
          rw [List.mem_singleton.mp hq]
          exact hid p List.mem_cons_self
      · have hpairs₁ := h₁.pairs
        rw [List.length_singleton] at hpairs₁
        rw [List.length_cons]
        omega
      · intro id hid
        rw [hdigests₂ id fun q hq => hid q (List.mem_cons_of_mem p hq)]
        exact h₁.otherDigests id fun q hq => by
          rw [List.mem_singleton.mp hq]
          exact hid p List.mem_cons_self

end Receiving

/-! ### From one side to the other -/

/-- The descriptions of some records, one after the other. -/
theorem exists_words {sent : List (RecordInfoItem × ℕ)}
    (hname : ∀ p ∈ sent, IsText p.1.name) (htabled : ∀ p ∈ sent, IsTabled p.1.toRecordItem)
    (hsize : (sent.map fun p => recordSize p.1.toRecordItem).sum ≤ INT_MAX) :
    ∃ words, Puts (writeAll writeNewRecord sent) words.flatten ∧
      List.Forall₂ (fun word d => Obtains FromInput.readRecordDescription id word d id) words
        (sent.map fun p => descriptionOf p.1.toRecordItem (Int32.ofNat p.2)) ∧
      words.flatten.length ≤ (sent.map fun p => recordSize p.1.toRecordItem).sum := by
  induction sent with
  | nil => exact ⟨[], puts_pure, .nil, le_rfl⟩
  | cons p sent ih =>
      have hsum : ((p :: sent).map fun p => recordSize p.1.toRecordItem).sum =
          recordSize p.1.toRecordItem + (sent.map fun p => recordSize p.1.toRecordItem).sum :=
        List.sum_cons
      rw [hsum] at hsize ⊢
      have hfields : ∀ field ∈ p.1.fields, IsText field.name := by
        obtain ⟨table, htable, hrows⟩ := htabled p List.mem_cons_self
        intro field hfield
        exact isText_of_all (recordTables_described table htable field (hrows ▸ hfield)).2
      obtain ⟨word, hputs, hobtains, hlength⟩ := @transports_writeEventRecord p.1.toRecordItem
        (Int32.ofNat p.2) (hname p List.mem_cons_self) hfields (by omega)
      obtain ⟨words, hputsAll, hwords, hlengths⟩ := ih
        (fun q hq => hname q (List.mem_cons_of_mem p hq))
        (fun q hq => htabled q (List.mem_cons_of_mem p hq)) (by omega)
      refine ⟨word :: words, hputs.bind hputsAll, .cons hobtains hwords, ?_⟩
      rw [List.flatten_cons, List.length_append]
      omega

theorem mem_newRecords {registry : Registry} {n : ℕ} {p : RecordInfoItem × ℕ}
    (h : p ∈ newRecords registry n) : p.1 ∈ registry.recordsList.elements := by
  have hmem := List.mem_map_of_mem (f := Prod.fst) h
  rw [newRecords, List.zipIdx_map_fst] at hmem
  exact List.mem_of_mem_drop hmem

theorem sum_newRecords_le (registry : Registry) (n : ℕ) :
    ((newRecords registry n).map fun p => recordSize p.1.toRecordItem).sum ≤
      (registry.recordsList.elements.map fun record => recordSize record.toRecordItem).sum := by
  have hmap : ((newRecords registry n).map fun p => recordSize p.1.toRecordItem) =
      (registry.recordsList.elements.drop n).map fun record => recordSize record.toRecordItem := by
    conv_rhs => rw [← List.zipIdx_map_fst n (registry.recordsList.elements.drop n), List.map_map]
    rfl
  rw [hmap]
  exact ((List.drop_sublist n _).map _).sum_le_sum fun _ _ => Nat.zero_le _

theorem apart_newRecords {registry : Registry} (hconsistent : registry.Consistent)
    (hlength : registry.recordsList.elements.length < 2 ^ 31) (n : ℕ) :
    (newRecords registry n).Pairwise Apart := by
  rw [List.pairwise_iff_getElem]
  intro i j hi hj hlt
  have hnames := List.pairwise_iff_getElem.mp hconsistent.nodup
  simp only [newRecords, List.length_zipIdx, List.length_drop] at hi hj
  simp only [newRecords, List.getElem_zipIdx, List.getElem_drop, Apart]
  constructor
  · have hne := hnames (n + i) (n + j) (by rw [List.length_map]; omega)
      (by rw [List.length_map]; omega) (by omega)
    simpa using hne
  · intro heq
    have hsame := ofNat_inj (by omega) (by omega) heq
    omega

/-- The descriptions of a message are read and processed up to its end. -/
theorem obtainsAll_processDescribeRecords {words : List (List Int8)}
    {message : List RecordDescription} {info info' : ServerInfo}
    (hwords : List.Forall₂ (fun word d => Obtains FromInput.readRecordDescription id word d id) words
      message)
    (hexec : exec (processDescribeRecords message) info = (.ok (), info')) :
    ObtainsAll FromInput.processDescribeRecords (fun input => (input, info)) words.flatten ()
      fun input => (input, info') := by
  intro pre post hlen
  refine (FromInput.splits_processDescribeRecords.ok _ _ _ _ _).mpr ⟨message, ?_, hexec⟩
  rw [FromInput.readMessage, exec_bind_ok (exec_get _)]
  have hfuel : words.flatten.length ≤ pre.length + words.flatten.length - pre.length := by omega
  exact obtainsAll_readMessageLoop hwords hfuel pre post hlen

theorem ne_nil_of_stringToRecordInfo {name : WString} {type : RecordInfoId}
    (h : stringToRecordInfo name = some type) : name ≠ [] := by
  rintro rfl
  have hnone : stringToRecordInfo [] = none := by decide +kernel
  rw [hnone] at h
  cases h

theorem length_newRecords_le (registry : Registry) (n : ℕ) :
    (newRecords registry n).length ≤ registry.recordsList.elements.length := by
  rw [newRecords, List.length_zipIdx, List.length_drop]
  exact Nat.sub_le _ _

/-- What `dx_send_record_description` hands over is read by a peer that has its records from the same
tables, whatever the peer has received before: the ids of the records that were not described yet
stand for its own records of the same names, whose digests have all the fields, in the same order.
As long as there is a place for every pair of ids, `dx_get_record_id` answers with these records. -/
theorem recordsReadBack {allowed allowed' : FailIn → Prop} {registry registry' : Registry}
    {answers answers' : List (WString × RecordId)} {described described' : List RecordId}
    (hrun : RegistryRun allowed registry answers described)
    (hpeer : RegistryRun allowed' registry' answers' described')
    (hlt : registry'.recordsList.elements.length < 2 ^ 31)
    (hnames : ∀ record ∈ registry.recordsList.elements, IsText record.name)
    (hsize : (registry.recordsList.elements.map fun record =>
      recordSize record.toRecordItem).sum < 2 ^ 30 - 4)
    (history : List ServerStep)
    (hpairs : (ServerInfo.after (registry'.toRecordList hlt) history).recordIdMap.idMap.length +
      registry.recordsList.elements.length ≤ 2 ^ 31)
    {room bytes : List Int8} (hroom : room.length ≤ INT_MAX) {out : OutputContext}
    {context : DescribeContext}
    (hsend : exec (sendRecordDescription room) ⟨registry, out, described⟩ = (.ok bytes, context)) :
    ∃ info', Receives receiveRecordDescription
        (fun input => (input, .after (registry'.toRecordList hlt) history)) bytes ()
        (fun input => (input, info')) ∧
      Understood (.after (registry'.toRecordList hlt) history) info'
        (newRecords registry described.length) ∧
      ∀ id, info'.recordIdMap.getRecordId id = some (info'.recordIdMap.held id) := by
  obtain ⟨hsync, hlist, -⟩ := ServerInfo.after_spec (registry'.toRecordList hlt) history
  generalize ServerInfo.after (registry'.toRecordList hlt) history = info at hsync hlist hpairs ⊢
  have hreached := hrun.reached
  obtain ⟨n, hmarked⟩ := hreached.marked
  have hn : described.length = n := by
    rw [hmarked.described, recordIds, List.length_map, List.length_range]
  have hlength : registry.recordsList.elements.length < 2 ^ 31 := by
    have hle := List.length_le_sum_of_one_le
      (registry.recordsList.elements.map fun record => recordSize record.toRecordItem) fun k hk => by
        obtain ⟨record, -, rfl⟩ := List.mem_map.mp hk
        unfold recordSize
        omega
    rw [List.length_map] at hle
    omega
  have htabled : ∀ p ∈ newRecords registry n, IsTabled p.1.toRecordItem := fun p hp =>
    hreached.consistent.tables p.1 (mem_newRecords hp)
  have hsum := (sum_newRecords_le registry n).trans_lt hsize
  obtain ⟨words, hputs, hwords, hbytes⟩ := exists_words
    (fun p hp => hnames p.1 (mem_newRecords hp)) htabled (hsum.le.trans (by norm_num [INT_MAX]))
  have hcomposed := composedBytes_of_send hmarked hlength hsend
  have hparses := parsesBack_of_composedBytes rfl hroom hputs (hbytes.trans_lt hsum) hcomposed
  have hsame : ∀ p ∈ newRecords registry n, SameFields info.recordsList p.1.toRecordItem := by
    intro p hp other hother hname
    rw [hlist] at hother
    obtain ⟨item, hitem, rfl⟩ := List.mem_map.mp hother
    obtain ⟨type, htype, hfields⟩ := hrun.fieldsByName p.1 (mem_newRecords hp)
    obtain ⟨type', htype', hfields'⟩ := hpeer.fieldsByName item hitem
    rw [← hname] at htype
    obtain rfl : type = type' := Option.some.inj (htype.symm.trans htype')
    exact hfields'.trans hfields.symm
  have hnonempty : ∀ p ∈ newRecords registry n, p.1.name ≠ [] := by
    intro p hp
    obtain ⟨type, htype, -⟩ := hrun.fieldsByName p.1 (mem_newRecords hp)
    exact ne_nil_of_stringToRecordInfo htype
  obtain ⟨info', hexec, hunderstood⟩ := understood_all hsync
    (apart_newRecords hreached.consistent hlength n) htabled hnonempty hsame
  have hhead : ReadsOn (onFst (FromInput.reading readHeader) : FromInput.DescribeRecordsCall _)
      (fun input => (input, info)) readHeader := ⟨some, fun _ => rfl⟩
  have hreads : ∀ id, info'.recordIdMap.getRecordId id = some (info'.recordIdMap.held id) := by
    have hnew := length_newRecords_le registry n
    exact fun id => ServerLocalRecordIdMap.getRecordId_eq_held _ id (by
      linarith only [hunderstood.pairs, hnew, hpairs])
  rw [hn]
  exact ⟨info', hparses.receives hhead (obtainsAll_processDescribeRecords hwords hexec),
    hunderstood, hreads⟩

/-! ### A message -/

/-- The record of quotes. -/
def quoteRecord : RecordInfoItem where
  name := wideString "Quote"
  fields := dxFieldsQuote
  infoId := .quote
  suffix := List.replicate suffixSize 0
  exchangeCode := 0

/-- The registry with this record. -/
def quoteRegistry : Registry := ⟨⟨[quoteRecord], 1, 1⟩, 0, ⟨[0], 1, 1⟩, ⟨[.init], 1, 1⟩⟩

theorem addOrGetRecordId_quote :
    Registry.empty.addOrGetRecordId (wideString "Quote") none = .ok (0, quoteRegistry) := by
  rfl

/-- The registry of the peer, where the record has another id. -/
def peerRegistry : Registry :=
  ⟨⟨[quoteRecord, configurationRecord "Configuration"], 2, 2⟩, 0, ⟨[0, 0], 2, 2⟩, ⟨[.init, .init], 2, 2⟩⟩

theorem addOrGetRecordId_peer :
    quoteRegistry.addOrGetRecordId (wideString "Configuration") none = .ok (1, peerRegistry) := by
  rfl

theorem succeeds_none : Succeeds none := rfl

theorem registryRun_configuration :
    RegistryRun Succeeds configurationRegistry [(wideString "Configuration", 0)] [] :=
  .addOrGetRecordId .start _ succeeds_none addOrGetRecordId_configuration

theorem registryRun_peer :
    RegistryRun Succeeds peerRegistry
      [(wideString "Quote", 0), (wideString "Configuration", 1)] [] :=
  .addOrGetRecordId (.addOrGetRecordId .start _ succeeds_none addOrGetRecordId_quote) _
    succeeds_none addOrGetRecordId_peer

/-- The message of the sender. -/
def configurationBytes : List Int8 :=
  [42, 2, 0, 13, 67, 111, 110, 102, 105, 103, 117, 114, 97, 116, 105, 111, 110, 2, 7, 86, 101, 114,
    115, 105, 111, 110, 8, 13, 67, 111, 110, 102, 105, 103, 117, 114, 97, 116, 105, 111, 110, -128,
    -7]

theorem exec_sendRecordDescription_configuration :
    ∃ context, exec (sendRecordDescription (List.replicate 64 0))
      ⟨configurationRegistry, outputAt [] [], []⟩ = (.ok configurationBytes, context) := by
  have hbytes : (exec (sendRecordDescription (List.replicate 64 0))
      ⟨configurationRegistry, outputAt [] [], []⟩).1.toOption = some configurationBytes := by
    decide +kernel
  rcases hexec : exec (sendRecordDescription (List.replicate 64 0))
      ⟨configurationRegistry, outputAt [] [], []⟩ with ⟨e | bytes, context⟩
  · rw [hexec] at hbytes
    cases hbytes
  · rw [hexec] at hbytes
    obtain rfl := Option.some.inj hbytes
    exact ⟨context, rfl⟩

theorem recordsReadBack_configuration :
    ∃ info', Receives receiveRecordDescription
        (fun input => (input, .after (peerRegistry.toRecordList (by decide)) [.clearServerInfo]))
        configurationBytes () (fun input => (input, info')) ∧
      Understood (.after (peerRegistry.toRecordList (by decide)) [.clearServerInfo]) info'
        (newRecords configurationRegistry 0) ∧
      ∀ id, info'.recordIdMap.getRecordId id = some (info'.recordIdMap.held id) := by
  obtain ⟨context, hsend⟩ := exec_sendRecordDescription_configuration
  refine recordsReadBack registryRun_configuration registryRun_peer (by decide) ?_
    (by decide +kernel) [.clearServerInfo] (by decide +kernel) (by decide) hsend
  intro record hrecord
  obtain rfl := List.mem_singleton.mp hrecord
  exact isText_of_all (by decide +kernel)

end DxFeed.ClientMessageProcessor
