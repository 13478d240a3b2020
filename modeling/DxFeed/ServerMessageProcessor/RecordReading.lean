import DxFeed.BufferedIO.Local
import DxFeed.RecordBuffers

/-!
# Reading records

The fields of a record are read one after the other, as its digest says, into the members of its
buffer.  A removal has one number instead, the time of the record.

* `readWire`, `readEntry`: a field of a digest is read from the input, or it has its default value;
* `storeField`: a value goes to a member of a buffer through a setter;
* `readFields`, `readQdtimeOnRemoveEvent`, `readRecords`: `dx_read_records`;
* `exec_readFields_iff`: reading is reading all the values, and storing them afterwards;
* `StoresTo`: what stores leave in a member does not depend on what was there.
-/

namespace DxFeed.ServerMessageProcessor

open Call BufferedIO RecordBuffers

/-! ### Values on the wire -/

/-- `dx_fid_void`. -/
def fidVoid : Int32 := 0
/-- `dx_fid_byte`. -/
def fidByte : Int32 := 1
/-- `dx_fid_short`. -/
def fidShort : Int32 := 3
/-- `dx_fid_int`. -/
def fidInt : Int32 := 4
/-- `dx_fid_mask_serialization`. -/
def fidMaskSerialization : Int32 := 0x0F
/-- `dx_fid_mask_representation`. -/
def fidMaskRepresentation : Int32 := 0xF0
/-- `dx_fid_flag_decimal`. -/
def fidFlagDecimal : Int32 := 0x10
/-- `dx_fid_flag_string`. -/
def fidFlagString : Int32 := 0x80

variable {D : Type}

/-- A representation of doubles. -/
def IsDecimal (representation : Int32) : Prop :=
  representation = fidFlagDecimal ∨ representation = fidFlagWideDecimal

instance (representation : Int32) : Decidable (IsDecimal representation) :=
  inferInstanceAs (Decidable (_ ∨ _))

/-- A number of a fixed width, which may be a decimal. -/
def fixedNumber (platform : Platform D) (representation value : Int32) (plain : Value D) :
    Value D :=
  if representation = fidFlagDecimal then .double (platform.decimalIntToDouble value)
  else if representation = fidFlagWideDecimal then
    .double (platform.wideDecimalLongToDouble value.toInt64)
  else plain

/-- A double, for a local field that is an integer or a double. -/
def localNumber (platform : Platform D) (localRepresentation : Int32) (value : D) : Value D :=
  if IsDecimal localRepresentation then .double value else .int (platform.toInt value)

/-- A compact number. -/
def readCompactNumber (platform : Platform D) (representation localRepresentation : Int32) :
    ReadCall (Value D) :=
  if representation = fidFlagLong ∨ representation = fidFlagTimeMillis then do
    return .long (← readCompactLong)
  else if representation = fidFlagWideDecimal then do
    return localNumber platform localRepresentation
      (platform.wideDecimalLongToDouble (← readCompactLong))
  else if representation = fidFlagDecimal then do
    return localNumber platform localRepresentation
      (platform.decimalIntToDouble (← readCompactInt))
  else if IsDecimal localRepresentation then do
    return .double (platform.ofInt (← readCompactInt))
  else do
    return .int (← readCompactInt)

/-- A string or an array that is allocated for a field; its number is given to it later. -/
def pointer {α : Type} (target : α) : Pointer α := ⟨some 0, target⟩

/-- The switch of `dx_read_records` over the serializations, without the branch for `dx_fid_void`. -/
def readWire (platform : Platform D) (type localType : Int32) : ReadCall (Value D) :=
  let serialization := type &&& fidMaskSerialization
  let representation := type &&& fidMaskRepresentation
  let localRepresentation := localType &&& fidMaskRepresentation
  if serialization = fidByte then do
    let value ← readByte
    return fixedNumber platform representation value.toInt32 (.byte value)
  else if serialization = fidUtfChar then do
    return .char (UInt16.ofNat (← readUtfChar))
  else if serialization = fidShort then do
    let value ← readShort
    return fixedNumber platform representation value.toInt32 (.short value)
  else if serialization = fidInt then do
    let value ← readInt
    return fixedNumber platform representation value (.int value)
  else if serialization = fidCompactInt then
    readCompactNumber platform representation localRepresentation
  else if serialization = fidByteArray then
    if representation = fidFlagString then do
      return .string ((← readUtfString).map pointer)
    else do
      return .byteArray ((← readByteArray).map pointer)
  else if serialization = fidUtfCharArray then do
    return .string ((← readUtfCharArray).map pointer)
  else throw .recordFieldTypeNotSupported

/-- The entry stands for a default value, or was described as void. -/
def FieldDigest.IsVoid (entry : FieldDigest) : Prop :=
  entry.type &&& fidMaskSerialization = fidVoid

instance (entry : FieldDigest) : Decidable entry.IsVoid := inferInstanceAs (Decidable (_ = _))

/-- The value for an entry of a digest. -/
def readEntry (platform : Platform D) (info : RecordInfoId) (entry : FieldDigest) :
    ReadCall (Value D) :=
  if entry.IsVoid then
    return (entry.defValGetter.map (defaultValue platform info)).getD .unspecified
  else readWire platform entry.type entry.localType

theorem readEntry_of_not_isVoid {platform : Platform D} {info : RecordInfoId} {e : FieldDigest}
    (h : ¬ e.IsVoid) : readEntry platform info e = readWire platform e.type e.localType := if_neg h

/-! ### Stores -/

/-- `dx_store_string_buffer` and `dx_store_byte_array_buffer`: what is allocated has the next
number. -/
def allocate (serial : ℕ) : Value D → Value D × ℕ
  | .string (some ⟨some _, target⟩) => (.string (some ⟨some serial, target⟩), serial + 1)
  | .byteArray (some ⟨some _, target⟩) => (.byteArray (some ⟨some serial, target⟩), serial + 1)
  | value => (value, serial)

/-- A setter is called for a value; there is no answer for a setter of another structure. -/
def storeField (platform : Platform D) (info : RecordInfoId) (setter : FunctionName)
    (value : Value D) (context : RecordsContext D) : Option (RecordsContext D) := do
  let m ← findMember info setter
  return context.setBuffer info ((context.buffers info).set platform m value)

/-- The setter that is called for an entry; `none` is a crash.  `CHECKED_SET_VALUE` leaves a field
without a setter alone, but a default value is fetched and set without a check. -/
def FieldDigest.calledSetter (entry : FieldDigest) : Option (Option FunctionName) :=
  if entry.IsVoid then
    if entry.setter.isSome ∧ entry.defValGetter.isSome then some entry.setter else none
  else some entry.setter

theorem FieldDigest.calledSetter_of_not_isVoid {e : FieldDigest} (h : ¬ e.IsVoid) :
    e.calledSetter = some e.setter := if_neg h

/-- A value that was read for a field of a digest is stored. -/
def storeValue (platform : Platform D) (info : RecordInfoId) (entry : FieldDigest)
    (value : Value D) (context : RecordsContext D) : Option (RecordsContext D) :=
  let (value, allocated) := allocate context.allocated value
  let context := { context with allocated := allocated }
  match entry.calledSetter with
  | none => none
  | some none => some context
  | some (some setter) => storeField platform info setter value context

theorem FieldDigest.calledSetter_eq_some {entry : FieldDigest} {setter : Option FunctionName}
    (h : entry.calledSetter = some setter) : entry.setter = setter := by
  unfold calledSetter at h
  split_ifs at h
  · exact Option.some.inj h
  · exact Option.some.inj h

/-! ### Records -/

/-- Calls that read from the input into the buffers; with the error `none` the program has
crashed. -/
abbrev RecordCall (D : Type) := Call (Option ErrorCode) (InputContext × RecordsContext D)

/-- A call on the input. -/
def inputCall {α : Type} (x : ReadCall α) : RecordCall D α :=
  zoom Prod.fst (fun s input => (input, s.2)) (ExceptT.adapt some x)

/-- A change of the buffers that crashes or not. -/
def bufferCall (f : RecordsContext D → Option (RecordsContext D)) : RecordCall D Unit := do
  let (input, context) ← get
  match f context with
  | some context' => set (input, context')
  | none => throw none

/-- A round of the loop of `dx_read_records`. -/
def readField (platform : Platform D) (info : RecordInfoId) (entry : FieldDigest) :
    RecordCall D Unit := do
  let value ← inputCall (readEntry platform info entry)
  bufferCall (storeValue platform info entry value)

/-- The loop of `dx_read_records`. -/
def readFields (platform : Platform D) (info : RecordInfoId) : List FieldDigest → RecordCall D Unit
  | [] => pure ()
  | entry :: rest => do
      readField platform info entry
      readFields platform info rest

/-- The two halves of a QD time. -/
def qdtimeHigh (qdtime : Int64) : Int32 := (qdtime.toUInt64 >>> 32).toInt64.toInt32
def qdtimeLow (qdtime : Int64) : Int32 := (qdtime.toUInt64 &&& 0xFFFFFFFF).toInt64.toInt32

/-- The half of a QD time that a member gets. -/
def timeHalf (high low : Int32) : FieldTime → Option Int32
  | .common => none
  | .firstTimeInt => some high
  | .secondTimeInt => some low

/-- The loop of `dx_read_qdtime_on_remove_event`. -/
def storeQdtime (platform : Platform D) (info : RecordInfoId) (qdtime : Int64) :
    List Member → RecordsContext D → Option (RecordsContext D)
  | [], context => some context
  | m :: rest, context => do
      let context ← match timeHalf (qdtimeHigh qdtime) (qdtimeLow qdtime) m.time with
        | some half => storeField platform info (setterName info m) (.int half) context
        | none => some context
      storeQdtime platform info qdtime rest context

/-- `dx_read_qdtime_on_remove_event`. -/
def readQdtimeOnRemoveEvent (platform : Platform D) (info : RecordInfoId) : RecordCall D Unit := do
  let qdtime ← inputCall readCompactLong
  bufferCall (storeQdtime platform info qdtime (members info))

/-- `dx_read_records`. -/
def readRecords (platform : Platform D) (info : RecordInfoId) (digest : RecordDigest)
    (flags : UInt32) : RecordCall D Unit :=
  if isFlagSet flags.toNat EventFlag.removeEvent then readQdtimeOnRemoveEvent platform info
  else readFields platform info digest.elements

/-! ### Reading is local -/

theorem local_readCompactNumber (platform : Platform D) (representation localRep : Int32) :
    Local (readCompactNumber platform representation localRep) := by
  unfold readCompactNumber
  split_ifs
  · exact local_readCompactLong.map _
  · exact local_readCompactLong.map _
  · exact local_readCompactInt.map _
  · exact local_readCompactInt.map _
  · exact local_readCompactInt.map _

theorem local_readWire (platform : Platform D) (type localType : Int32) :
    Local (readWire platform type localType) := by
  unfold readWire
  dsimp only
  refine .ite (local_readByte.map _) ?_
  refine .ite (local_readUtfChar.map _) ?_
  refine .ite (local_readShort.map _) ?_
  refine .ite (local_readInt.map _) ?_
  refine .ite (local_readCompactNumber platform _ _) ?_
  refine .ite (.ite (local_readUtfString.map _) (local_readByteArray.map _)) ?_
  exact .ite (local_readUtfCharArray.map _) (local_throw _)

theorem local_readEntry (platform : Platform D) (info : RecordInfoId) (entry : FieldDigest) :
    Local (readEntry platform info entry) :=
  .ite (local_pure _) (local_readWire platform _ _)

/-- The values that are read for the fields of a digest. -/
def wireFields (platform : Platform D) (info : RecordInfoId) :
    List FieldDigest → ReadCall (List (FieldDigest × Value D))
  | [] => return []
  | entry :: rest => do
      let value ← readEntry platform info entry
      let values ← wireFields platform info rest
      return (entry, value) :: values

theorem local_wireFields (platform : Platform D) (info : RecordInfoId) (fields : List FieldDigest) :
    Local (wireFields platform info fields) := by
  induction fields with
  | nil => exact local_pure _
  | cons entry rest ih =>
      exact (local_readEntry platform info _).bind fun value => ih.bind fun values => local_pure _

/-- The values are stored one after the other. -/
def storeValues (platform : Platform D) (info : RecordInfoId) :
    List (FieldDigest × Value D) → RecordsContext D → Option (RecordsContext D)
  | [], context => some context
  | (entry, value) :: rest, context => do
      storeValues platform info rest (← storeValue platform info entry value context)

theorem exec_inputCall_ok {α : Type} {x : ReadCall α} {input input' : InputContext} {a : α}
    (h : exec x input = (.ok a, input')) (context : RecordsContext D) :
    exec (inputCall x) (input, context) = (.ok a, (input', context)) := by
  rw [inputCall, exec_zoom, exec_adapt_ok some h]

theorem exec_inputCall_eq_ok {α : Type} {x : ReadCall α} {input : InputContext} {a : α}
    {context : RecordsContext D} {out : InputContext × RecordsContext D}
    (h : exec (inputCall x) (input, context) = (.ok a, out)) :
    exec x input = (.ok a, out.1) ∧ out.2 = context := by
  rcases hx : exec x input with ⟨e | b, input'⟩
  · rw [inputCall, exec_zoom, exec_adapt_error some hx] at h
    exact nomatch (Prod.mk.inj h).1
  · rw [exec_inputCall_ok hx] at h
    obtain ⟨hb, rfl⟩ := Prod.mk.inj h
    obtain rfl := Except.ok.inj hb
    exact ⟨rfl, rfl⟩

theorem exec_bufferCall {f : RecordsContext D → Option (RecordsContext D)} {input : InputContext}
    {context context' : RecordsContext D} (h : f context = some context') :
    exec (bufferCall f) (input, context) = (.ok (), (input, context')) := by
  rw [bufferCall, exec_bind_ok (exec_get _)]
  simp [h]

theorem exec_bufferCall_eq_ok {f : RecordsContext D → Option (RecordsContext D)}
    {input : InputContext} {context : RecordsContext D} {out : InputContext × RecordsContext D}
    (h : exec (bufferCall f) (input, context) = (.ok (), out)) :
    f context = some out.2 ∧ out.1 = input := by
  rcases hf : f context with _ | context'
  · rw [bufferCall, exec_bind_ok (exec_get _)] at h
    simp [hf] at h
  · rw [exec_bufferCall hf] at h
    obtain rfl := (Prod.mk.inj h).2
    exact ⟨rfl, rfl⟩

/-- Fields are read successfully if their values are read and can be stored. -/
theorem exec_readFields_iff {platform : Platform D} {info : RecordInfoId}
    {fields : List FieldDigest} {input : InputContext} {context : RecordsContext D}
    {out : InputContext × RecordsContext D} :
    exec (readFields platform info fields) (input, context) = (.ok (), out) ↔
      ∃ values, exec (wireFields platform info fields) input = (.ok values, out.1) ∧
        storeValues platform info values context = some out.2 := by
  induction fields generalizing input context with
  | nil =>
      constructor
      · intro h
        obtain rfl := (Prod.mk.inj h).2
        exact ⟨[], rfl, rfl⟩
      · rintro ⟨values, hwire, hstore⟩
        obtain ⟨hvalues, hinput⟩ := Prod.mk.inj hwire
        obtain rfl := Except.ok.inj hvalues
        obtain rfl := Option.some.inj hstore
        rw [hinput]
        rfl
  | cons entry rest ih =>
      constructor
      · intro h
        obtain ⟨⟨⟩, ⟨mid, context'⟩, hfield, hrest⟩ := exec_bind_eq_ok h
        obtain ⟨value, ⟨input', context''⟩, hread, hcall⟩ := exec_bind_eq_ok hfield
        obtain ⟨hwire, rfl⟩ := exec_inputCall_eq_ok hread
        obtain ⟨hstore, rfl⟩ := exec_bufferCall_eq_ok hcall
        obtain ⟨values, hvalues, hstores⟩ := ih.mp hrest
        refine ⟨(entry, value) :: values, ?_, ?_⟩
        · rw [wireFields, exec_bind_ok hwire, exec_bind_ok hvalues]
          rfl
        · rw [storeValues, hstore]
          exact hstores
      · rintro ⟨values, hwires, hstores⟩
        obtain ⟨value, input', hwire, hrest⟩ := exec_bind_eq_ok hwires
        obtain ⟨values', input'', hvalues, hpure⟩ := exec_bind_eq_ok hrest
        obtain ⟨hcons, rfl⟩ := Prod.mk.inj hpure
        obtain rfl := Except.ok.inj hcons
        rw [storeValues] at hstores
        obtain ⟨context', hstore, hstores⟩ := Option.bind_eq_some_iff.mp hstores
        have hfield : exec (readField platform info entry) (input, context) =
            (.ok (), (input', context')) := by
          rw [readField, exec_bind_ok (exec_inputCall_ok hwire context)]
          exact exec_bufferCall hstore
        rw [readFields, exec_bind_ok hfield]
        exact ih.mpr ⟨values', hvalues, hstores⟩

/-! ### What stores leave -/

theorem findMember_setterName {info : RecordInfoId} {m : Member} (hm : m ∈ members info) :
    findMember info (setterName info m) = some m := by
  have hinj := List.inj_on_of_nodup_map (nodup_setterName info)
  rcases hfind : findMember info (setterName info m) with _ | m'
  · have hnone := List.find?_eq_none.mp hfind m hm
    simp at hnone
  · have hsome := List.find?_some hfind
    rw [hinj (List.mem_of_find?_eq_some hfind) hm (by simpa using hsome)]

theorem findMember_eq_some {info : RecordInfoId} {setter : FunctionName} {m : Member}
    (h : findMember info setter = some m) : m ∈ members info ∧ setterName info m = setter := by
  have hsome := List.find?_some h
  exact ⟨List.mem_of_find?_eq_some h, by simpa using hsome⟩

/-- Different members have different names. -/
theorem name_injOn {info : RecordInfoId} {m m' : Member} (hm : m ∈ members info)
    (hm' : m' ∈ members info) (h : m.name = m'.name) : m = m' := by
  refine List.inj_on_of_nodup_map (nodup_setterName info) hm hm' ?_
  rw [setterName, setterName, h]

/-- The context after a setter was called. -/
theorem storeField_eq_some {platform : Platform D} {info : RecordInfoId} {setter : FunctionName}
    {value : Value D} {context context' : RecordsContext D}
    (h : storeField platform info setter value context = some context') :
    ∃ m ∈ members info, setter = setterName info m ∧
      context' = context.setBuffer info
        (Function.update (context.buffers info) m.name (m.type.read platform value)) := by
  obtain ⟨m, hfind, h⟩ := Option.bind_eq_some_iff.mp h
  obtain ⟨hm, hsetter⟩ := findMember_eq_some hfind
  exact ⟨m, hm, hsetter.symm, (Option.some.inj h).symm⟩

/-- What the setter of a member reads of the last value for it. -/
def lastValue (platform : Platform D) (info : RecordInfoId) (m : Member) :
    List (FieldDigest × Value D) → Option (Value D)
  | [] => none
  | (entry, value) :: rest =>
      (lastValue platform info m rest).or
        (if entry.setter = some (setterName info m) then some (m.type.read platform value)
          else none)

/-- What is known of the buffers of a record after values were stored in it: a member has the last
value for it, and its pointers were allocated in the meantime. -/
structure Stored (platform : Platform D) (info : RecordInfoId)
    (values : List (FieldDigest × Value D)) (context context' : RecordsContext D) : Prop where
  freed : context'.freed = context.freed
  allocated : context.allocated ≤ context'.allocated
  others : ∀ info', info' ≠ info → context'.buffers info' = context.buffers info'
  outside : ∀ name, (∀ m ∈ members info, m.name ≠ name) →
    context'.buffers info name = context.buffers info name
  unset : ∀ m ∈ members info, lastValue platform info m values = none →
    context'.buffers info m.name = context.buffers info m.name
  value : ∀ m ∈ members info, ∀ loaded, lastValue platform info m values = some loaded →
    (context'.buffers info m.name).erase = loaded.erase ∧
      ∀ n ∈ (context'.buffers info m.name).serials, context.allocated ≤ n

theorem stored_nil (platform : Platform D) (info : RecordInfoId) (context : RecordsContext D) :
    Stored platform info [] context context where
  freed := rfl
  allocated := le_rfl
  others _ _ := rfl
  outside _ _ := rfl
  unset _ _ _ := rfl
  value _ _ _ h := nomatch h

theorem erase_allocate (serial : ℕ) (value : Value D) :
    (allocate serial value).1.erase = value.erase := by
  unfold allocate
  split <;> rfl

theorem serials_allocate (serial : ℕ) (value : Value D) :
    ∀ n ∈ (allocate serial value).1.serials, serial ≤ n := by
  intro n hn
  unfold allocate at hn
  split at hn
  · simp only [Value.serials, Option.mem_toList, Option.some_inj] at hn
    exact hn.le
  · simp only [Value.serials, Option.mem_toList, Option.some_inj] at hn
    exact hn.le
  · -- a value that is left as it is has no number
    rename_i hstring harray
    cases value with
    | string p =>
        rcases p with _ | ⟨_ | serial', target⟩
        · exact absurd hn List.not_mem_nil
        · exact absurd hn List.not_mem_nil
        · exact absurd rfl (hstring serial' target)
    | byteArray p =>
        rcases p with _ | ⟨_ | serial', target⟩
        · exact absurd hn List.not_mem_nil
        · exact absurd hn List.not_mem_nil
        · exact absurd rfl (harray serial' target)
    | _ => exact absurd hn List.not_mem_nil

theorem le_allocate (serial : ℕ) (value : Value D) : serial ≤ (allocate serial value).2 := by
  unfold allocate
  split <;> simp

theorem load_erase (platform : Platform D) (type : MemberType) (value : Value D) :
    type.load platform value.erase = (type.load platform value).map Value.erase := by
  cases type <;> cases value <;> rfl

theorem read_erase (platform : Platform D) (type : MemberType) (value : Value D) :
    type.read platform value.erase = (type.read platform value).erase := by
  rw [MemberType.read, MemberType.read, load_erase]
  cases type.load platform value <;> rfl

theorem read_serials (platform : Platform D) (type : MemberType) (value : Value D) :
    ∀ n ∈ (type.read platform value).serials, n ∈ value.serials := by
  cases type <;> cases value <;>
    first
    | exact fun _ h => h
    | exact fun _ h => absurd h List.not_mem_nil

/-- A number does not change what is read. -/
theorem read_allocate (platform : Platform D) (type : MemberType) (serial : ℕ) (value : Value D) :
    (type.read platform (allocate serial value).1).erase = (type.read platform value).erase := by
  rw [← read_erase, erase_allocate, read_erase]

/-- The last value of one value. -/
theorem lastValue_singleton (platform : Platform D) (info : RecordInfoId) (m : Member)
    (entry : FieldDigest) (value : Value D) :
    lastValue platform info m [(entry, value)] =
      if entry.setter = some (setterName info m) then some (m.type.read platform value)
      else none :=
  rfl

theorem storeValue_eq_some {platform : Platform D} {info : RecordInfoId} {entry : FieldDigest}
    {value : Value D} {context context' : RecordsContext D}
    (h : storeValue platform info entry value context = some context') :
    Stored platform info [(entry, value)] context context' := by
  unfold storeValue at h
  dsimp only at h
  rcases hcalled : entry.calledSetter with _ | _ | setter
  · rw [hcalled] at h
    exact nomatch h
  · rw [hcalled] at h
    -- no setter is called, so the record has no value for any member
    obtain rfl := Option.some.inj h
    have hsetter := entry.calledSetter_eq_some hcalled
    have hnone : ∀ m, lastValue platform info m [(entry, value)] = none := by
      intro m
      rw [lastValue_singleton, hsetter, if_neg (by simp)]
    exact
      { freed := rfl
        allocated := le_allocate _ _
        others := fun _ _ => rfl
        outside := fun _ _ => rfl
        unset := fun _ _ _ => rfl
        value := fun m _ loaded hlast => by rw [hnone] at hlast; exact nomatch hlast }
  · rw [hcalled] at h
    -- the setters of the members have different names, so one member gets the value
    have hsetter := entry.calledSetter_eq_some hcalled
    obtain ⟨m, hm, rfl, rfl⟩ := storeField_eq_some h
    have hlast : ∀ m' ∈ members info, lastValue platform info m' [(entry, value)] =
        if m' = m then some (m.type.read platform value) else none := by
      intro m' hm'
      rw [lastValue_singleton, hsetter]
      have hname : some (setterName info m) = some (setterName info m') ↔ m' = m := by
        rw [Option.some_inj]
        exact ⟨fun heq => List.inj_on_of_nodup_map (nodup_setterName info) hm' hm heq.symm,
          fun heq => by rw [heq]⟩
      by_cases heq : m' = m
      · rw [if_pos (hname.mpr heq), if_pos heq, heq]
      · rw [if_neg fun hset => heq (hname.mp hset), if_neg heq]
    refine
      { freed := rfl
        allocated := le_allocate _ _
        others := fun info' hne => Function.update_of_ne hne _ _
        outside := ?_
        unset := ?_
        value := ?_ }
    · intro name hname
      simp only [RecordsContext.setBuffer, Function.update_self]
      exact Function.update_of_ne (fun heq => hname m hm heq.symm) _ _
    · intro m' hm' hnone
      have hne : m' ≠ m := by
        rintro rfl
        rw [hlast m' hm', if_pos rfl] at hnone
        exact Option.some_ne_none _ hnone
      simp only [RecordsContext.setBuffer, Function.update_self]
      exact Function.update_of_ne (fun heq => hne (name_injOn hm' hm heq)) _ _
    · intro m' hm' loaded hsome
      rw [hlast m' hm'] at hsome
      split_ifs at hsome with heq
      subst heq
      obtain rfl := Option.some.inj hsome
      simp only [RecordsContext.setBuffer, Function.update_self]
      refine ⟨read_allocate platform m'.type context.allocated value, fun n hn => ?_⟩
      exact serials_allocate _ _ n (read_serials _ _ _ n hn)

theorem Stored.cons {platform : Platform D} {info : RecordInfoId} {entry : FieldDigest}
    {value : Value D} {values : List (FieldDigest × Value D)}
    {context mid context' : RecordsContext D}
    (h : Stored platform info [(entry, value)] context mid)
    (h' : Stored platform info values mid context') :
    Stored platform info ((entry, value) :: values) context context' where
  freed := h'.freed.trans h.freed
  allocated := h.allocated.trans h'.allocated
  others info' hne := (h'.others info' hne).trans (h.others info' hne)
  outside name hname := (h'.outside name hname).trans (h.outside name hname)
  unset m hm hnone := by
    rw [lastValue, Option.or_eq_none_iff] at hnone
    exact (h'.unset m hm hnone.1).trans (h.unset m hm hnone.2)
  value m hm loaded hsome := by
    rw [lastValue] at hsome
    rcases hlast : lastValue platform info m values with _ | loaded'
    · rw [hlast, Option.none_or] at hsome
      rw [h'.unset m hm hlast]
      exact h.value m hm loaded hsome
    · rw [hlast, Option.some_or] at hsome
      obtain rfl := Option.some.inj hsome
      obtain ⟨herase, hfresh⟩ := h'.value m hm loaded' hlast
      exact ⟨herase, fun n hn => h.allocated.trans (hfresh n hn)⟩

theorem stored_storeValues {platform : Platform D} {info : RecordInfoId}
    {values : List (FieldDigest × Value D)} {context context' : RecordsContext D}
    (h : storeValues platform info values context = some context') :
    Stored platform info values context context' := by
  induction values generalizing context with
  | nil =>
      obtain rfl := Option.some.inj h
      exact stored_nil platform info context
  | cons head rest ih =>
      obtain ⟨mid, hvalue, hrest⟩ := Option.bind_eq_some_iff.mp h
      exact (storeValue_eq_some hvalue).cons (ih hrest)

theorem storeField_isSome (platform : Platform D) (info : RecordInfoId) (setter : FunctionName)
    (value : Value D) (context : RecordsContext D) :
    (storeField platform info setter value context).isSome =
      (findMember info setter).isSome := by
  unfold storeField
  cases findMember info setter <;> rfl

theorem storeValue_isSome (platform : Platform D) (info : RecordInfoId) (entry : FieldDigest)
    (value : Value D) (context₁ context₂ : RecordsContext D) :
    (storeValue platform info entry value context₁).isSome =
      (storeValue platform info entry value context₂).isSome := by
  unfold storeValue
  dsimp only
  rcases entry.calledSetter with _ | _ | setter
  · rfl
  · rfl
  · dsimp only
    rw [storeField_isSome, storeField_isSome]

/-- A value that a setter of the structure can take. -/
def Storable (platform : Platform D) (info : RecordInfoId) (entry : FieldDigest)
    (value : Value D) : Prop :=
  match entry.calledSetter with
  | none => False
  | some none => True
  | some (some setter) => ∃ m, findMember info setter = some m ∧ (m.type.load platform value).isSome

/-- A value that can be loaded to the member of a setter. -/
theorem storable_of_load {platform : Platform D} {info : RecordInfoId} {entry : FieldDigest}
    {value : Value D} {m : Member} {t : Int32} (hm : m ∈ members info)
    (hsetter : entry.setter = some (setterName info m)) (htype : entry.type = t)
    (hvoid : t &&& fidMaskSerialization ≠ fidVoid)
    (hload : (m.type.load platform value).isSome) : Storable platform info entry value := by
  subst htype
  rw [Storable, FieldDigest.calledSetter_of_not_isVoid hvoid, hsetter]
  exact ⟨m, findMember_setterName hm, hload⟩

theorem Storable.storeValue_isSome {platform : Platform D} {info : RecordInfoId}
    {entry : FieldDigest} {value : Value D} (h : Storable platform info entry value)
    (context : RecordsContext D) : (storeValue platform info entry value context).isSome := by
  unfold Storable at h
  unfold storeValue
  dsimp only
  rcases hcalled : entry.calledSetter with _ | _ | setter <;> rw [hcalled] at h
  · exact h.elim
  · rfl
  · obtain ⟨m, hfind, -⟩ := h
    dsimp only
    rw [storeField_isSome, hfind]
    rfl

/-- A setter of a member gets the bytes of a value that it can take. -/
theorem Storable.isKnown_read {platform : Platform D} {info : RecordInfoId} {entry : FieldDigest}
    {value : Value D} (h : Storable platform info entry value) {m : Member}
    (hm : m ∈ members info) (hsetter : entry.setter = some (setterName info m)) :
    (m.type.read platform value).isKnown = true := by
  unfold Storable at h
  rcases hcalled : entry.calledSetter with _ | called <;> rw [hcalled] at h
  · exact h.elim
  · obtain rfl := (entry.calledSetter_eq_some hcalled).symm.trans hsetter
    obtain ⟨m', hfind, hload⟩ := h
    obtain rfl := Option.some.inj ((findMember_setterName hm).symm.trans hfind)
    obtain ⟨loaded, hloaded⟩ := Option.isSome_iff_exists.mp hload
    rw [MemberType.read, hloaded]
    exact MemberType.isKnown_of_load hloaded

/-- The last values of what setters can take are known. -/
theorem isKnown_lastValue {platform : Platform D} {info : RecordInfoId} {m : Member}
    (hm : m ∈ members info) {values : List (FieldDigest × Value D)}
    (h : ∀ p ∈ values, Storable platform info p.1 p.2) {loaded : Value D}
    (hlast : lastValue platform info m values = some loaded) : loaded.isKnown = true := by
  induction values with
  | nil => exact absurd hlast.symm (Option.some_ne_none _)
  | cons head rest ih =>
      rw [lastValue, Option.or_eq_some_iff] at hlast
      rcases hlast with hlast | ⟨-, hlast⟩
      · exact ih (fun p hp => h p (List.mem_cons_of_mem _ hp)) hlast
      · split_ifs at hlast with hsetter
        obtain rfl := Option.some.inj hlast
        exact (h head List.mem_cons_self).isKnown_read hm hsetter

/-- Values that setters can take are stored. -/
theorem exists_storeValues {platform : Platform D} {info : RecordInfoId}
    {values : List (FieldDigest × Value D)}
    (h : ∀ p ∈ values, Storable platform info p.1 p.2) (context : RecordsContext D) :
    ∃ context', storeValues platform info values context = some context' := by
  induction values generalizing context with
  | nil => exact ⟨context, rfl⟩
  | cons head rest ih =>
      obtain ⟨mid, hvalue⟩ := Option.isSome_iff_exists.mp
        ((h head List.mem_cons_self).storeValue_isSome context)
      obtain ⟨context', hrest⟩ := ih (fun p hp => h p (List.mem_cons_of_mem _ hp)) mid
      refine ⟨context', ?_⟩
      rw [storeValues, hvalue]
      exact hrest

/-- Whether values can be stored does not depend on the buffers. -/
theorem storeValues_isSome (platform : Platform D) (info : RecordInfoId)
    (values : List (FieldDigest × Value D)) (context₁ context₂ : RecordsContext D) :
    (storeValues platform info values context₁).isSome =
      (storeValues platform info values context₂).isSome := by
  induction values generalizing context₁ context₂ with
  | nil => rfl
  | cons head rest ih =>
      obtain ⟨entry, value⟩ := head
      have hstep := storeValue_isSome platform info entry value context₁ context₂
      rw [storeValues, storeValues]
      revert hstep
      cases storeValue platform info entry value context₁ with
      | none =>
          cases storeValue platform info entry value context₂ with
          | none => exact fun _ => rfl
          | some => exact fun hstep => absurd hstep (by simp)
      | some context₁' =>
          cases storeValue platform info entry value context₂ with
          | none => exact fun hstep => absurd hstep (by simp)
          | some context₂' => exact fun _ => ih context₁' context₂'

/-! ### Removals -/

/-- A removal stores the halves of its QD time as if they were values of fields. -/
def qdtimeValues (info : RecordInfoId) (high low : Int32) (ms : List Member) :
    List (FieldDigest × Value D) :=
  ms.filterMap fun m => (timeHalf high low m.time).map fun half =>
    (⟨fidCompactInt, fidCompactInt, some (setterName info m), none⟩, .int half)

theorem calledSetter_compactInt (setter : Option FunctionName) :
    (⟨fidCompactInt, fidCompactInt, setter, none⟩ : FieldDigest).calledSetter = some setter := by
  have hvoid : ¬ (fidCompactInt &&& fidMaskSerialization = fidVoid) := by decide
  exact FieldDigest.calledSetter_of_not_isVoid hvoid

theorem storeQdtime_eq (platform : Platform D) (info : RecordInfoId) (qdtime : Int64)
    (ms : List Member) (context : RecordsContext D) :
    storeQdtime platform info qdtime ms context =
      storeValues platform info
        (qdtimeValues info (qdtimeHigh qdtime) (qdtimeLow qdtime) ms) context := by
  induction ms generalizing context with
  | nil => rfl
  | cons m rest ih =>
      rw [storeQdtime, qdtimeValues, List.filterMap_cons]
      cases timeHalf (qdtimeHigh qdtime) (qdtimeLow qdtime) m.time with
      | none => exact ih context
      | some half =>
          have hcalled := calledSetter_compactInt (some (setterName info m))
          simp only [Option.map_some, storeValues, storeValue, allocate, hcalled]
          cases storeField platform info (setterName info m) (.int half) context with
          | none => rfl
          | some context' => exact ih context'

/-- The last value of a removal for a member is the half that belongs to it. -/
theorem lastValue_qdtimeValues {platform : Platform D} {info : RecordInfoId} {m : Member}
    (hm : m ∈ members info) (high low : Int32) {ms : List Member} (hms : ∀ m' ∈ ms, m' ∈ members info) :
    lastValue platform info m (qdtimeValues info high low ms) =
      if m ∈ ms then
        (timeHalf high low m.time).map fun half => m.type.read platform (.int half)
      else none := by
  induction ms with
  | nil => rfl
  | cons m' rest ih =>
      have hinj : some (setterName info m') = some (setterName info m) ↔ m' = m := by
        rw [Option.some_inj]
        exact ⟨fun h => List.inj_on_of_nodup_map (nodup_setterName info)
          (hms m' List.mem_cons_self) hm h, fun h => by rw [h]⟩
      have hrest := ih fun m'' hm'' => hms m'' (List.mem_cons_of_mem _ hm'')
      rw [qdtimeValues, List.filterMap_cons]
      by_cases heq : m' = m
      · subst heq
        rw [if_pos List.mem_cons_self]
        cases hhalf : timeHalf high low m'.time with
        | none =>
            rw [hhalf] at hrest
            simpa [qdtimeValues] using hrest
        | some half =>
            rw [hhalf] at hrest
            simp only [Option.map_some, lastValue, if_true]
            rw [show rest.filterMap _ = qdtimeValues info high low rest from rfl, hrest]
            split_ifs <;> simp
      · have hmem : m ∈ m' :: rest ↔ m ∈ rest := by
          rw [List.mem_cons]
          exact ⟨fun h => h.resolve_left fun h' => heq h'.symm, Or.inr⟩
        rw [if_congr hmem rfl rfl]
        cases timeHalf high low m'.time with
        | none => exact hrest
        | some half =>
            simp only [Option.map_some, lastValue]
            rw [if_neg (fun h => heq (hinj.mp h)), Option.or_none]
            exact hrest

/-- The members with a time field are of type `int` or `char`. -/
theorem type_of_time {info : RecordInfoId} {m : Member} (hm : m ∈ members info)
    (htime : m.time ≠ .common) : m.type = .int ∨ m.type = .char := by
  revert m
  cases info <;> decide

theorem timeHalf_ne_none {time : FieldTime} {high low half : Int32}
    (h : timeHalf high low time = some half) : time ≠ .common := by
  rintro rfl
  exact nomatch h

/-- The buffers after the removal of a record. -/
theorem exec_readQdtimeOnRemoveEvent (platform : Platform D) (info : RecordInfoId)
    {input input' : InputContext} {qdtime : Int64} (context : RecordsContext D)
    (hread : exec readCompactLong input = (.ok qdtime, input')) :
    ∃ context', exec (readQdtimeOnRemoveEvent platform info) (input, context) =
        (.ok (), (input', context')) ∧
      Stored platform info
        (qdtimeValues info (qdtimeHigh qdtime) (qdtimeLow qdtime) (members info))
        context context' := by
  have hstorable : ∀ p : FieldDigest × Value D,
      p ∈ qdtimeValues info (qdtimeHigh qdtime) (qdtimeLow qdtime) (members info) →
      Storable platform info p.1 p.2 := by
    intro p hp
    obtain ⟨m, hm, hvalue⟩ := List.mem_filterMap.mp hp
    obtain ⟨half, hhalf, rfl⟩ := Option.map_eq_some_iff.mp hvalue
    refine storable_of_load (t := fidCompactInt) hm rfl rfl (by decide) ?_
    rcases type_of_time hm (timeHalf_ne_none hhalf) with htype | htype <;> rw [htype] <;> rfl
  obtain ⟨context', hstore⟩ := exists_storeValues hstorable context
  refine ⟨context', ?_, stored_storeValues hstore⟩
  rw [readQdtimeOnRemoveEvent, exec_bind_ok (exec_inputCall_ok hread context)]
  refine exec_bufferCall ?_
  rw [storeQdtime_eq, hstore]

/-- A platform whose doubles are all alike. -/
def unitPlatform : Platform Unit where
  zero := ()
  add _ _ := ()
  isnan _ := false
  ofInt _ := ()
  toInt _ := 0
  ofBits _ := ()
  toBits _ := 0
  decimalIntToDouble _ := ()
  wideDecimalLongToDouble _ := ()
  symbolNameHasher symbol := UInt64.ofNat symbol.length
  ansiToUnicode bytes := some (bytes.map fun b => b.toUInt8.toUInt16)

end DxFeed.ServerMessageProcessor
