import DxFeed.BufferedIO.Local
import DxFeed.Library.SplitCall
import DxFeed.ServerMessageProcessor.DescribeRecords

/-!
# Describe-records messages in the input

The functions of `DescribeRecords.lean` work on the descriptions of a message; here they read them
from the input, as the functions of the source do.

* `FromInput.processDescribeRecords`: `dx_process_describe_records` on the input and on what it
  changes;
* `readMessage`: the descriptions that are in the input up to its limit;
* `describeRecords_refines`: on every input the function does what the descriptions say, and it leaves
  its loop only at the limit.
-/

namespace DxFeed.ServerMessageProcessor

open BufferedIO Call

namespace FromInput

/-- A call on the input and on the parts that descriptions change. -/
abbrev DescribeRecordsCall := Call (Option ErrorCode) (InputContext × ServerInfo)

/-- A call that reads from the input. -/
def reading {α : Type} (x : ReadCall α) : Call (Option ErrorCode) InputContext α :=
  ExceptT.adapt some x

/-- `dx_create_field_digest`, and the place of the digest. -/
def createFieldDigest (recordId : RecordId) (recordInfo : Option RecordItem) :
    DescribeRecordsCall Unit := do
  let fieldName ← onFst (reading readText)
  let fieldType ← onFst (reading readCompactInt)
  onSnd do
    let digest ← ServerMessageProcessor.createFieldDigest recordId recordInfo ⟨fieldName, fieldType⟩
    appendFieldDigest recordId digest

/-- The loop of `dx_fill_record_digest`. -/
def fillFields (recordId : RecordId) (recordInfo : Option RecordItem) :
    ℕ → DescribeRecordsCall Unit
  | 0 => pure ()
  | n + 1 => do
      createFieldDigest recordId recordInfo
      fillFields recordId recordInfo n

/-- `dx_fill_record_digest`. -/
def fillRecordDigest (recordId : RecordId) (recordInfo : Option RecordItem) (fieldCount : ℕ) :
    DescribeRecordsCall Unit := do
  fillFields recordId recordInfo fieldCount
  onSnd do
    digestUnsupportedFields recordId recordInfo
    markInSync recordId

/-- The digest of a known record: the old digest is freed, and a new one is filled. -/
def renewRecordDigest (localRecordId : RecordId) (fieldCount : ℕ) : DescribeRecordsCall Unit := do
  let info ← onSnd get
  match atRecordId info.recordsList.elements localRecordId,
    atRecordId info.recordDigests localRecordId with
  | some record, some _ => do
      onSnd (modifyDigest localRecordId fun _ => .init)
      fillRecordDigest localRecordId (some record) fieldCount
  | _, _ => onSnd (throw (some .invalidFuncParamInternal))

/-- A round of the loop of `dx_process_describe_records`, behind what it reads of the header. -/
def processRecord (serverRecordId : Int32) (recordName : Option WString)
    (serverFieldCount : Int32) : DescribeRecordsCall Unit := do
  if isEmptyName recordName ∨ serverFieldCount < 0 then
    onSnd (throw (some .recordInfoCorrupted))
  else do
    let info ← onSnd get
    let localRecordId := getRecordIdByName info.recordsList (recordName.getD [])
    if localRecordId = recordIdInvalid then
      fillRecordDigest localRecordId none serverFieldCount.toInt.toNat
    else do
      onSnd (modify fun info => { info with
        recordIdMap := info.recordIdMap.assignServerRecordId localRecordId serverRecordId })
      renewRecordDigest localRecordId serverFieldCount.toInt.toNat

/-- A round of the loop of `dx_process_describe_records`. -/
def processRecordDescription : DescribeRecordsCall Unit := do
  let serverRecordId ← onFst (reading readCompactInt)
  let recordName ← onFst (reading readText)
  let serverFieldCount ← onFst (reading readCompactInt)
  processRecord serverRecordId recordName serverFieldCount

/-- The loop of `dx_process_describe_records`; the argument bounds the number of its rounds. -/
def processRecordsLoop : ℕ → DescribeRecordsCall Unit
  | 0 => pure ()
  | fuel + 1 => do
      let input ← onFst get
      if input.currentInBufferPosition < input.inBufferLimit then do
        processRecordDescription
        processRecordsLoop fuel
      else pure ()

/-- `dx_process_describe_records`: every round takes a byte. -/
def processDescribeRecords : DescribeRecordsCall Unit := do
  let input ← onFst get
  processRecordsLoop (input.inBufferLimit - input.currentInBufferPosition)

/-! ### Descriptions in the input -/

abbrev ReadInput := Call (Option ErrorCode) InputContext

def readFieldDescription : ReadInput FieldDescription := do
  let fieldName ← reading readText
  let fieldType ← reading readCompactInt
  return ⟨fieldName, fieldType⟩

def readFieldDescriptions : ℕ → ReadInput (List FieldDescription)
  | 0 => return []
  | n + 1 => do
      let field ← readFieldDescription
      let fields ← readFieldDescriptions n
      return field :: fields

/-- The description of a record, with no fields if their number is negative. -/
def readRecordDescription : ReadInput RecordDescription := do
  let serverRecordId ← reading readCompactInt
  let recordName ← reading readText
  let serverFieldCount ← reading readCompactInt
  let fields ← readFieldDescriptions serverFieldCount.toInt.toNat
  return ⟨serverRecordId, recordName, serverFieldCount, fields⟩

def readMessageLoop : ℕ → ReadInput (List RecordDescription)
  | 0 => return []
  | fuel + 1 => do
      let input ← get
      if input.currentInBufferPosition < input.inBufferLimit then do
        let d ← readRecordDescription
        let message ← readMessageLoop fuel
        return d :: message
      else return []

/-- The descriptions up to the limit of the input. -/
def readMessage : ReadInput (List RecordDescription) := do
  let input ← get
  readMessageLoop (input.inBufferLimit - input.currentInBufferPosition)

/-! ### Rounds that succeed -/

section Splits

variable (recordId : RecordId) (recordInfo : Option RecordItem)

/-- What is done with the description of a field. -/
def placeField (field : FieldDescription) : InfoCall Unit := do
  let digest ← ServerMessageProcessor.createFieldDigest recordId recordInfo field
  appendFieldDigest recordId digest

/-- A field without a name is refused. -/
theorem exec_placeField_null (fieldType : Int32) (info : ServerInfo) :
    exec (placeField recordId recordInfo ⟨none, fieldType⟩) info =
      (.error (some .descrRecordFieldInfoCorrupted), info) := rfl

/-- A field with a negative type is refused. -/
theorem exec_placeField_negative (fieldName : Option WString) (info : ServerInfo) :
    exec (placeField recordId recordInfo ⟨fieldName, -1⟩) info =
      (.error (some .descrRecordFieldInfoCorrupted), info) := by
  have hcorrupted : FieldDescription.isCorrupted ⟨fieldName, -1⟩ = true :=
    decide_eq_true (Or.inr (Or.inl (by decide : (-1 : Int32) < 0)))
  unfold placeField ServerMessageProcessor.createFieldDigest
  rw [if_pos hcorrupted]
  rfl

theorem splits_createFieldDigest :
    Splits (createFieldDigest recordId recordInfo) readFieldDescription
      (placeField recordId recordInfo) := by
  have hsplit := splits_onFst_bind (x := reading readText)
    (fun fieldName => splits_onFst_bind (x := reading readCompactInt)
      (fun fieldType => splits_onSnd (placeField recordId recordInfo ⟨fieldName, fieldType⟩))
      ⟨-1, (), _, exec_placeField_negative recordId recordInfo fieldName⟩)
    ⟨none, (0, ()), _, exec_placeField_null recordId recordInfo 0⟩
  have hread : Splits (createFieldDigest recordId recordInfo) _ (placeField recordId recordInfo) :=
    hsplit.map (g := fun p => (⟨p.1, p.2.1⟩ : FieldDescription)) fun _ => rfl
  simpa [readFieldDescription] using hread

theorem splits_fillFields (n : ℕ) :
    Splits (fillFields recordId recordInfo n) (readFieldDescriptions n)
      (ServerMessageProcessor.fillFields recordId recordInfo n) := by
  induction n with
  | zero =>
      have hnone : Splits (pure () : DescribeRecordsCall Unit) (pure ()) fun _ => pure () :=
        splits_onSnd (pure ())
      exact hnone.map (g := fun _ => []) fun _ => rfl
  | succ n ih =>
      have hfields := (splits_createFieldDigest recordId recordInfo).bind fun _ => ih
      have hread : Splits (fillFields recordId recordInfo (n + 1)) _
          (ServerMessageProcessor.fillFields recordId recordInfo (n + 1)) :=
        hfields.map (g := fun p => p.1 :: p.2) fun p => by
          simp [ServerMessageProcessor.fillFields, placeField]
      simpa [readFieldDescriptions] using hread

theorem splits_fillRecordDigest (n : ℕ) :
    Splits (fillRecordDigest recordId recordInfo n) (readFieldDescriptions n)
      (ServerMessageProcessor.fillRecordDigest recordId recordInfo n) := by
  have hdigest := (splits_fillFields recordId recordInfo n).bind fun _ =>
    splits_onSnd (σ := InputContext) (do
      digestUnsupportedFields recordId recordInfo
      markInSync recordId)
  have hread : Splits (fillRecordDigest recordId recordInfo n) _
      (ServerMessageProcessor.fillRecordDigest recordId recordInfo n) :=
    hdigest.map (g := Prod.fst) fun _ => rfl
  simpa using hread

variable (serverRecordId serverFieldCount : Int32) (recordName : Option WString)

theorem splits_renewRecordDigest :
    Splits (renewRecordDigest recordId serverFieldCount.toInt.toNat)
      (readFieldDescriptions serverFieldCount.toInt.toNat) fun fields =>
        ServerMessageProcessor.renewRecordDigest recordId
          ⟨serverRecordId, recordName, serverFieldCount, fields⟩ := by
  refine splits_onSnd_bind fun info => ?_
  cases atRecordId info.recordsList.elements recordId with
  | none => exact splits_throw _ _
  | some record =>
      cases atRecordId info.recordDigests recordId with
      | none => exact splits_throw _ _
      | some digest => exact splits_onSnd_bind fun _ => splits_fillRecordDigest _ _ _

theorem splits_processRecord :
    Splits (processRecord serverRecordId recordName serverFieldCount)
      (readFieldDescriptions serverFieldCount.toInt.toNat) fun fields =>
        ServerMessageProcessor.processRecordDescription
          ⟨serverRecordId, recordName, serverFieldCount, fields⟩ := by
  unfold processRecord ServerMessageProcessor.processRecordDescription
    RecordDescription.isCorrupted
  by_cases hcorrupted : isEmptyName recordName ∨ serverFieldCount < 0
  · simp only [hcorrupted, if_true, decide_true]
    exact splits_throw _ _
  · simp only [hcorrupted, if_false, decide_false, Bool.false_eq_true]
    refine splits_onSnd_bind fun info => ?_
    by_cases hinvalid : getRecordIdByName info.recordsList (recordName.getD []) = recordIdInvalid
    · simp only [hinvalid, if_true]
      exact splits_fillRecordDigest _ _ _
    · simp only [hinvalid, if_false]
      exact splits_onSnd_bind fun _ => splits_renewRecordDigest _ _ _ _

end Splits

/-- A description with a corrupted header is refused. -/
theorem exec_corrupted {d : RecordDescription} (h : d.isCorrupted = true) (info : ServerInfo) :
    exec (ServerMessageProcessor.processRecordDescription d) info =
      (.error (some .recordInfoCorrupted), info) := by
  unfold ServerMessageProcessor.processRecordDescription
  rw [if_pos h]
  rfl

theorem isCorrupted_null (serverRecordId serverFieldCount : Int32)
    (fields : List FieldDescription) :
    RecordDescription.isCorrupted ⟨serverRecordId, none, serverFieldCount, fields⟩ = true :=
  decide_eq_true (Or.inl rfl)

theorem isCorrupted_negative (serverRecordId : Int32) (recordName : Option WString)
    (fields : List FieldDescription) :
    RecordDescription.isCorrupted ⟨serverRecordId, recordName, -1, fields⟩ = true :=
  decide_eq_true (Or.inr (by decide : (-1 : Int32) < 0))

theorem splits_processRecordDescription :
    Splits processRecordDescription readRecordDescription
      ServerMessageProcessor.processRecordDescription := by
  have hsplit := splits_onFst_bind (x := reading readCompactInt)
    (fun serverRecordId => splits_onFst_bind (x := reading readText)
      (fun recordName => splits_onFst_bind (x := reading readCompactInt)
        (fun serverFieldCount => splits_processRecord serverRecordId serverFieldCount recordName)
        ⟨-1, [], _, exec_corrupted (isCorrupted_negative serverRecordId recordName [])⟩)
      ⟨none, (0, []), _, exec_corrupted (isCorrupted_null serverRecordId 0 [])⟩)
    ⟨0, (none, (0, [])), _, exec_corrupted (isCorrupted_null 0 0 [])⟩
  have hread : Splits processRecordDescription _ ServerMessageProcessor.processRecordDescription :=
    hsplit.map (g := fun p => (⟨p.1, p.2.1, p.2.2.1, p.2.2.2⟩ : RecordDescription)) fun _ => rfl
  simpa [readRecordDescription] using hread

/-- Nothing is read, and nothing is done. -/
theorem splits_nothing :
    Splits (pure () : DescribeRecordsCall Unit) (pure [])
      ServerMessageProcessor.processDescribeRecords := by
  have hnone : Splits (pure () : DescribeRecordsCall Unit) (pure ()) fun _ => pure () :=
    splits_onSnd (pure ())
  exact hnone.map (g := fun _ => []) fun _ => rfl

theorem splits_processRecordsLoop (fuel : ℕ) :
    Splits (processRecordsLoop fuel) (readMessageLoop fuel)
      ServerMessageProcessor.processDescribeRecords := by
  induction fuel with
  | zero => exact splits_nothing
  | succ fuel ih =>
      have hround : Splits (do processRecordDescription; processRecordsLoop fuel) _
          ServerMessageProcessor.processDescribeRecords :=
        (splits_processRecordDescription.bind fun _ => ih).map (g := fun p => p.1 :: p.2)
          fun _ => rfl
      have hsplit := splits_onFst_bind (x := get)
        (fun input : InputContext => show Splits
            (if input.currentInBufferPosition < input.inBufferLimit then do
              processRecordDescription
              processRecordsLoop fuel
            else pure ())
            (if input.currentInBufferPosition < input.inBufferLimit then do
              let d ← readRecordDescription
              let message ← readMessageLoop fuel
              return d :: message
            else return [])
            ServerMessageProcessor.processDescribeRecords by
          by_cases hmore : input.currentInBufferPosition < input.inBufferLimit
          · simpa [hmore] using hround
          · simpa [hmore] using splits_nothing)
        ⟨⟨none, 0, 0⟩, [⟨0, none, 0, []⟩], some .recordInfoCorrupted, fun info =>
          exec_bind_error (exec_corrupted (isCorrupted_null 0 0 []) info)⟩
      have hread : Splits (processRecordsLoop (fuel + 1)) _
          ServerMessageProcessor.processDescribeRecords :=
        hsplit.map (g := Prod.snd) fun _ => rfl
      simpa [readMessageLoop] using hread

theorem splits_processDescribeRecords :
    Splits processDescribeRecords readMessage ServerMessageProcessor.processDescribeRecords := by
  have hsplit := splits_onFst_bind (x := get)
    (fun input : InputContext =>
      splits_processRecordsLoop (input.inBufferLimit - input.currentInBufferPosition))
    ⟨⟨none, 0, 0⟩, [⟨0, none, 0, []⟩], some .recordInfoCorrupted, fun info =>
      exec_bind_error (exec_corrupted (isCorrupted_null 0 0 []) info)⟩
  have hread : Splits processDescribeRecords _ ServerMessageProcessor.processDescribeRecords :=
    hsplit.map (g := Prod.snd) fun _ => rfl
  simpa [readMessage] using hread

/-! ### The end of the loop -/

/-- A reader that succeeds leaves the limit, and goes forward by `n` bytes or more. -/
def GoesOn {α : Type} (n : ℕ) (x : ReadInput α) : Prop :=
  ∀ input a out, exec x input = (.ok a, out) → out.inBufferLimit = input.inBufferLimit ∧
    input.currentInBufferPosition + n ≤ out.currentInBufferPosition

section GoesOn

variable {α β : Type} {m n : ℕ}

theorem goesOn_pure (a : α) : GoesOn 0 (pure a) := by
  intro input b out h
  obtain rfl := (Prod.mk.inj h).2
  exact ⟨rfl, le_rfl⟩

theorem GoesOn.bind {x : ReadInput α} {f : α → ReadInput β} (hx : GoesOn m x)
    (hf : ∀ a, GoesOn n (f a)) : GoesOn (m + n) (x >>= f) := by
  intro input b out h
  obtain ⟨a, mid, hfirst, hrest⟩ := exec_bind_eq_ok h
  obtain ⟨hlimit, hle⟩ := hx input a mid hfirst
  obtain ⟨hlimit', hle'⟩ := hf a mid b out hrest
  exact ⟨hlimit'.trans hlimit, by omega⟩

theorem exec_reading_eq_ok {x : ReadCall α} {input out : InputContext} {a : α}
    (h : exec (reading x) input = (.ok a, out)) : exec x input = (.ok a, out) := by
  rcases hx : exec x input with ⟨e | b, mid⟩
  · rw [reading, exec_adapt_error some hx] at h
    exact nomatch (Prod.mk.inj h).1
  · rw [reading, exec_adapt_ok some hx] at h
    obtain ⟨hb, rfl⟩ := Prod.mk.inj h
    obtain rfl := Except.ok.inj hb
    rfl

theorem goesOn_reading {x : ReadCall α} (hx : Forward x) : GoesOn 0 (reading x) := by
  intro input a out h
  obtain ⟨-, hlimit, hle⟩ := hx input
  rw [exec_reading_eq_ok h] at hlimit hle
  exact ⟨hlimit, hle⟩

theorem goesOn_readCompactInt : GoesOn 1 (reading readCompactInt) := by
  intro input a out h
  obtain ⟨hlimit, -⟩ := goesOn_reading local_readCompactInt.forward input a out h
  exact ⟨hlimit, lt_readCompactInt (exec_reading_eq_ok h)⟩

theorem goesOn_readFieldDescriptions (k : ℕ) : GoesOn 0 (readFieldDescriptions k) := by
  induction k with
  | zero => exact goesOn_pure []
  | succ k ih =>
      have hfield : GoesOn 0 readFieldDescription :=
        (goesOn_reading local_readText.forward).bind fun _ =>
          (goesOn_reading local_readCompactInt.forward).bind fun _ => goesOn_pure _
      exact hfield.bind fun _ => ih.bind fun _ => goesOn_pure _

theorem goesOn_readRecordDescription : GoesOn 1 readRecordDescription :=
  goesOn_readCompactInt.bind fun _ =>
    (goesOn_reading local_readText.forward).bind fun _ =>
      (goesOn_reading local_readCompactInt.forward).bind fun _ =>
        (goesOn_readFieldDescriptions _).bind fun _ => goesOn_pure _

end GoesOn

/-- With a round for every byte up to the limit the loop ends there. -/
theorem limit_le_of_readMessageLoop {fuel : ℕ} {input out : InputContext}
    {message : List RecordDescription}
    (hfuel : input.inBufferLimit ≤ input.currentInBufferPosition + fuel)
    (h : exec (readMessageLoop fuel) input = (.ok message, out)) :
    out.inBufferLimit = input.inBufferLimit ∧ out.inBufferLimit ≤ out.currentInBufferPosition := by
  induction fuel generalizing input message with
  | zero =>
      obtain rfl := (Prod.mk.inj h).2
      exact ⟨rfl, hfuel⟩
  | succ fuel ih =>
      rw [readMessageLoop, exec_bind_ok (exec_get _)] at h
      by_cases hmore : input.currentInBufferPosition < input.inBufferLimit
      · rw [if_pos hmore] at h
        obtain ⟨d, mid, hround, hrest⟩ := exec_bind_eq_ok h
        obtain ⟨message', last, hloop, hpure⟩ := exec_bind_eq_ok hrest
        obtain rfl := (Prod.mk.inj hpure).2
        obtain ⟨hlimit, hle⟩ := goesOn_readRecordDescription input d mid hround
        obtain ⟨hlimit', hend⟩ := ih (by omega) hloop
        exact ⟨hlimit'.trans hlimit, hend⟩
      · rw [if_neg hmore] at h
        obtain rfl := (Prod.mk.inj h).2
        exact ⟨rfl, not_lt.mp hmore⟩

end FromInput

/-- `dx_process_describe_records` succeeds on an input if and only if the descriptions are read up to
its limit and processed one after the other; and whatever the bytes are, it does to the records what
some list of descriptions does. -/
theorem describeRecords_refines (input : InputContext) (info : ServerInfo) :
    (∀ input' info', exec FromInput.processDescribeRecords (input, info) = (.ok (), (input', info')) ↔
      ∃ message, exec FromInput.readMessage input = (.ok message, input') ∧
        exec (processDescribeRecords message) info = (.ok (), info')) ∧
    (∀ message input', exec FromInput.readMessage input = (.ok message, input') →
      input'.inBufferLimit = input.inBufferLimit ∧
        input'.inBufferLimit ≤ input'.currentInBufferPosition) ∧
    ∃ message,
      ((exec FromInput.processDescribeRecords (input, info)).1.isOk ↔
        (exec (processDescribeRecords message) info).1.isOk) ∧
      (exec FromInput.processDescribeRecords (input, info)).2.2 =
        (exec (processDescribeRecords message) info).2 := by
  have hsplit := FromInput.splits_processDescribeRecords
  refine ⟨fun input' info' => hsplit.ok input info () input' info', ?_, ?_⟩
  · intro message input' h
    rw [FromInput.readMessage, exec_bind_ok (exec_get _)] at h
    exact FromInput.limit_le_of_readMessageLoop (by omega) h
  · obtain ⟨message, hresult, hinfo⟩ := hsplit.explained input info
    refine ⟨message, ?_, hinfo⟩
    cases hfirst : (exec FromInput.processDescribeRecords (input, info)).1 with
    | error e =>
        cases hsecond : (exec (processDescribeRecords message) info).1 with
        | error e' => rfl
        | ok a =>
            rw [hfirst, hsecond] at hresult
            exact nomatch hresult
    | ok a =>
        cases hsecond : (exec (processDescribeRecords message) info).1 with
        | error e =>
            rw [hfirst, hsecond] at hresult
            exact nomatch hresult
        | ok b => rfl

end DxFeed.ServerMessageProcessor
