import DxFeed.BufferedIO.Common
import DxFeed.EventData
import DxFeed.ServerMessageProcessor.RecordId

/-!
# Describe-records messages

`dx_process_describe_records` on the record descriptions that the message contains, with the
field digests it builds, and `dx_clear_server_info`.  Allocations succeed; `none` is a null
string, a name ends in front of its terminator, and function pointers are names.
-/

namespace DxFeed.ServerMessageProcessor

open Call

abbrev FunctionName := String

/-! ### Records and digests -/

/-- `dx_field_info_t`, the description of a local field. -/
structure FieldInfo where
  type : Int32
  name : WString
  setter : FunctionName
  defValGetter : FunctionName
  deriving DecidableEq, Repr

/-- `dx_record_item_t`. -/
structure RecordItem where
  name : WString
  fields : List FieldInfo
  deriving DecidableEq, Repr

/-- `dx_record_list_t`; the records have nonnegative ids of type `int`. -/
structure RecordList where
  elements : List RecordItem
  bounded : elements.length < 2 ^ 31

/-- `dx_field_digest_t`. -/
structure FieldDigest where
  type : Int32
  localType : Int32
  setter : Option FunctionName
  defValGetter : Option FunctionName
  deriving DecidableEq, Repr

/-- `dx_record_digest_t`. -/
structure RecordDigest where
  elements : List FieldDigest
  inSyncWithServer : Bool
  deriving DecidableEq, Repr

/-- `dx_init_record_digest`. -/
def RecordDigest.init : RecordDigest :=
  ⟨[], false⟩

inductive DescribeProtocolStatus
  | notSent
  | received
  | notReceived
  | pending
  deriving DecidableEq, Repr

/-- The parts of the message processor and of the data structures that server descriptions
change. -/
structure ServerInfo where
  recordIdMap : ServerLocalRecordIdMap
  recordsList : RecordList
  newRecordId : ℕ
  recordServerSupportStates : List Int32
  recordDigests : List RecordDigest
  sendMsgsBitmask : Int32
  recvMsgsBitmask : Int32
  describeProtocolStatus : DescribeProtocolStatus

/-- A call that fails with `none` fails without setting an error code. -/
abbrev InfoCall := Call (Option ErrorCode) ServerInfo

/-- The state of a new connection to which the records have been added. -/
def ServerInfo.fresh (records : RecordList) : ServerInfo where
  recordIdMap := .empty
  recordsList := records
  newRecordId := 0
  recordServerSupportStates := records.elements.map fun _ => 0
  recordDigests := records.elements.map fun _ => .init
  sendMsgsBitmask := 0
  recvMsgsBitmask := 0
  describeProtocolStatus := .notSent

/-- `dx_get_record_id_by_name`. -/
def getRecordIdByName (recordsList : RecordList) (recordName : WString) : RecordId :=
  match recordsList.elements.findIdx? fun record => record.name = recordName with
  | some recordId => Int32.ofNat recordId
  | none => recordIdInvalid

/-- `dx_find_record_field`; `none` is `INVALID_INDEX`. -/
def findRecordField (record : RecordItem) (fieldName : WString) (fieldType : Int32) : Option ℕ :=
  record.fields.findIdx? fun field =>
    field.name = fieldName ∧ field.type &&& 0x0F = fieldType &&& 0x0F

/-! ### Messages -/

/-- The description of a field in a message. -/
structure FieldDescription where
  fieldName : Option WString
  fieldType : Int32
  deriving DecidableEq, Repr

/-- The description of a record in a message: its header, and the field descriptions that
follow it. -/
structure RecordDescription where
  serverRecordId : Int32
  recordName : Option WString
  serverFieldCount : Int32
  fields : List FieldDescription
  deriving DecidableEq, Repr

/-- `INDEX_BITMASK`. -/
def indexBitmask (index : ℕ) : Int32 :=
  1 <<< Int32.ofNat index

def isEmptyName (name : Option WString) : Bool :=
  name.getD [] = []

/-- Changes the digest of a record. -/
def modifyDigest (recordId : RecordId) (f : RecordDigest → RecordDigest) : InfoCall Unit :=
  modify fun info =>
    { info with recordDigests := info.recordDigests.modify recordId.toInt.toNat f }

/-- Changes the support state of a record. -/
def modifySupportState (recordId : RecordId) (f : Int32 → Int32) : InfoCall Unit :=
  modify fun info =>
    { info with
      recordServerSupportStates := info.recordServerSupportStates.modify recordId.toInt.toNat f }

/-- The description of a field is corrupted. -/
def FieldDescription.isCorrupted (field : FieldDescription) : Bool :=
  isEmptyName field.fieldName ∨ field.fieldType < 0x00 ∨ field.fieldType > 0xFF

/-- `dx_create_field_digest`; the answer is `none` for a dummy digest. -/
def createFieldDigest (recordId : RecordId) (recordInfo : Option RecordItem)
    (field : FieldDescription) : InfoCall (Option FieldDigest) :=
  if field.isCorrupted then throw (some .descrRecordFieldInfoCorrupted)
  else
    match recordInfo with
    | none => pure none
    | some record =>
        match findRecordField record (field.fieldName.getD []) field.fieldType with
        | none => pure (some ⟨field.fieldType, 0, none, none⟩)
        | some index => do
            let info ← get
            match atRecordId info.recordServerSupportStates recordId, record.fields[index]? with
            | some _, some localField =>
                modifySupportState recordId (· ||| indexBitmask index)
                return some ⟨field.fieldType, localField.type, some localField.setter, none⟩
            | _, _ => throw none

/-- Puts a digest at the end of the digest of a record; a dummy digest has no place. -/
def appendFieldDigest (recordId : RecordId) : Option FieldDigest → InfoCall Unit
  | some digest => modifyDigest recordId fun r => { r with elements := r.elements ++ [digest] }
  | none => pure ()

/-- The loop of `dx_fill_record_digest`; the message ends where the list of fields ends. -/
def fillFields (recordId : RecordId) (recordInfo : Option RecordItem) :
    ℕ → List FieldDescription → InfoCall Unit
  | 0, _ => pure ()
  | _ + 1, [] => throw (some .bufferUnderflow)
  | n + 1, field :: fields => do
      let digest ← createFieldDigest recordId recordInfo field
      appendFieldDigest recordId digest
      fillFields recordId recordInfo n fields

/-- The default-value entries for the fields, from index `index` on, that the server has not
described. -/
def unsupportedFields (state : Int32) : ℕ → List FieldInfo → List FieldDigest
  | _, [] => []
  | index, field :: fields =>
      if state &&& indexBitmask index ≠ 0 then unsupportedFields state (index + 1) fields
      else ⟨0, 0, some field.setter, some field.defValGetter⟩ ::
        unsupportedFields state (index + 1) fields

/-- `dx_digest_unsupported_fields`. -/
def digestUnsupportedFields (recordId : RecordId) : Option RecordItem → InfoCall Unit
  | none => pure ()
  | some record => do
      let info ← get
      match atRecordId info.recordDigests recordId,
        atRecordId info.recordServerSupportStates recordId with
      | none, _ => throw (some .invalidFuncParamInternal)
      | some _, none => if record.fields.isEmpty then pure () else throw none
      | some _, some state =>
          modifyDigest recordId fun r =>
            { r with elements := r.elements ++ unsupportedFields state 0 record.fields }

/-- The end of `dx_fill_record_digest`. -/
def markInSync (recordId : RecordId) : InfoCall Unit := do
  let info ← get
  if recordId ≥ 0 then
    match atRecordId info.recordDigests recordId with
    | none => throw (some .invalidFuncParamInternal)
    | some _ => modifyDigest recordId fun r => { r with inSyncWithServer := true }

/-- `dx_fill_record_digest`. -/
def fillRecordDigest (recordId : RecordId) (recordInfo : Option RecordItem) (fieldCount : ℕ)
    (fields : List FieldDescription) : InfoCall Unit := do
  fillFields recordId recordInfo fieldCount fields
  digestUnsupportedFields recordId recordInfo
  markInSync recordId

/-- The header of a record description is corrupted. -/
def RecordDescription.isCorrupted (d : RecordDescription) : Bool :=
  isEmptyName d.recordName ∨ d.serverFieldCount < 0

/-- The digest of a known record: the old digest is freed, and a new one is filled. -/
def renewRecordDigest (localRecordId : RecordId) (d : RecordDescription) : InfoCall Unit := do
  let info ← get
  match atRecordId info.recordsList.elements localRecordId,
    atRecordId info.recordDigests localRecordId with
  | some record, some _ =>
      modifyDigest localRecordId fun _ => .init
      fillRecordDigest localRecordId (some record) d.serverFieldCount.toInt.toNat d.fields
  | _, _ => throw (some .invalidFuncParamInternal)

/-- One round of the loop of `dx_process_describe_records`. -/
def processRecordDescription (d : RecordDescription) : InfoCall Unit :=
  if d.isCorrupted then throw (some .recordInfoCorrupted)
  else do
    let info ← get
    let localRecordId := getRecordIdByName info.recordsList (d.recordName.getD [])
    if localRecordId = recordIdInvalid then
      fillRecordDigest localRecordId none d.serverFieldCount.toInt.toNat d.fields
    else do
      modify fun info => { info with
        recordIdMap := info.recordIdMap.assignServerRecordId localRecordId d.serverRecordId }
      renewRecordDigest localRecordId d

/-- `dx_process_describe_records`. -/
def processDescribeRecords : List RecordDescription → InfoCall Unit
  | [] => pure ()
  | d :: message => do
      processRecordDescription d
      processDescribeRecords message

/-- `dx_clear_server_info`. -/
def clearServerInfo : InfoCall Unit := do
  let info ← get
  if info.recordServerSupportStates.length < info.recordsList.elements.length then
    set { info with recordServerSupportStates := info.recordServerSupportStates.map fun _ => 0 }
    throw none
  else
    set { info with
      recordServerSupportStates := info.recordsList.elements.map (fun _ => 0) ++
        info.recordServerSupportStates.drop info.recordsList.elements.length
      recordDigests := info.recordsList.elements.map fun _ => .init
      sendMsgsBitmask := 0
      recvMsgsBitmask := 0
      describeProtocolStatus := .notSent
      newRecordId := 0 }

end DxFeed.ServerMessageProcessor
