import DxFeed.ServerMessageProcessor.RecordBinding
import DxFeed.ServerMessageProcessor.RecordTables

/-!
# What the digest of a record covers

A record digest lists what is read for a record: the fields that the server has described, and
default values for the other local fields.

* `fieldEntry`, `defaultEntry`, `listed`: the entries of a digest, and the local fields that a
  description lists;
* `Fills`: what filling a digest changes;
* `sessionLists`: the descriptions of a record in the current session;
* `Tracks`: the support bits and the digest of a record, from these descriptions;
* `CoversOnce`: every digest in sync is the one of the latest description.
-/

namespace DxFeed.ServerMessageProcessor

open Call

/-! ### The entries of a digest -/

/-- The local field that the description of a field is about. -/
def listedIndex (record : RecordItem) (field : FieldDescription) : Option ℕ :=
  findRecordField record (field.fieldName.getD []) field.fieldType

/-- The local fields that a list of field descriptions lists. -/
def listed (record : RecordItem) (fields : List FieldDescription) : List ℕ :=
  fields.filterMap (listedIndex record)

/-- The entry for the description of a field. -/
def fieldEntry (record : RecordItem) (field : FieldDescription) : FieldDigest :=
  match (listedIndex record field).bind fun index => record.fields[index]? with
  | none => ⟨field.fieldType, 0, none, none⟩
  | some localField => ⟨field.fieldType, localField.type, some localField.setter, none⟩

/-- The entry for a local field that the server does not describe. -/
def defaultEntry (field : FieldInfo) : FieldDigest :=
  ⟨0, 0, some field.setter, some field.defValGetter⟩

/-- The default entries for some local fields. -/
def defaultEntries (record : RecordItem) (indices : List ℕ) : List FieldDigest :=
  indices.filterMap fun index => record.fields[index]?.map defaultEntry

/-- The local fields that none of the lists of field descriptions lists. -/
def unlisted (record : RecordItem) (lists : List (List FieldDescription)) : List ℕ :=
  (List.range record.fields.length).filter fun index =>
    ∀ fields ∈ lists, index ∉ listed record fields

/-! ### Support bits -/

/-- The support bit of a field is set. -/
def IsSupported (state : Int32) (index : ℕ) : Prop := state &&& indexBitmask index ≠ 0

instance (state : Int32) (index : ℕ) : Decidable (IsSupported state index) :=
  inferInstanceAs (Decidable (_ ≠ _))

theorem indexBitmask_eq : ∀ index < 32,
    (indexBitmask index).toBitVec = BitVec.twoPow 32 index := by decide

theorem isSupported_iff {state : Int32} {index : ℕ} (h : index < 32) :
    IsSupported state index ↔ state.toBitVec.getLsbD index = true := by
  have hand : (state &&& indexBitmask index).toBitVec =
      state.toBitVec &&& BitVec.twoPow 32 index := by
    rw [← indexBitmask_eq index h]
    rfl
  rw [IsSupported, ne_eq, ← Int32.toBitVec_inj, hand, BitVec.and_twoPow]
  split_ifs with hbit
  · refine iff_of_true (fun hzero => ?_) hbit
    have hlsb := congrArg (BitVec.getLsbD · index) hzero
    simp [h] at hlsb
  · exact iff_of_false (fun hne => hne rfl) hbit

theorem not_isSupported_zero {index : ℕ} (h : index < 32) : ¬ IsSupported 0 index := by
  rw [isSupported_iff h]
  simp

theorem isSupported_or {state : Int32} {index j : ℕ} (h : index < 32) (hj : j < 32) :
    IsSupported (state ||| indexBitmask j) index ↔ IsSupported state index ∨ index = j := by
  have hor : (state ||| indexBitmask j).toBitVec = state.toBitVec ||| BitVec.twoPow 32 j := by
    rw [← indexBitmask_eq j hj]
    rfl
  rw [isSupported_iff h, isSupported_iff h, hor, BitVec.getLsbD_or, BitVec.getLsbD_twoPow,
    decide_eq_true hj, Bool.true_and, Bool.or_eq_true, decide_eq_true_eq]
  exact or_congr_right eq_comm

/-- The support bits after some field descriptions. -/
def supportOf (record : RecordItem) (state : Int32) (fields : List FieldDescription) : Int32 :=
  (listed record fields).foldl (fun state index => state ||| indexBitmask index) state

theorem listedIndex_lt {record : RecordItem} {field : FieldDescription} {index : ℕ}
    (h : listedIndex record field = some index) : index < record.fields.length :=
  findRecordField_lt h

theorem listed_lt {record : RecordItem} {fields : List FieldDescription} {index : ℕ}
    (h : index ∈ listed record fields) : index < record.fields.length := by
  obtain ⟨field, -, hfield⟩ := List.mem_filterMap.mp h
  exact listedIndex_lt hfield

/-- The support bits set are those set before and those of the listed fields. -/
theorem isSupported_supportOf {record : RecordItem} (hsmall : record.IsSmall) {state : Int32}
    {fields : List FieldDescription} {index : ℕ} (hindex : index < record.fields.length) :
    IsSupported (supportOf record state fields) index ↔
      IsSupported state index ∨ index ∈ listed record fields := by
  have hsmall' : record.fields.length ≤ 32 := hsmall
  have hfold : ∀ indices : List ℕ, (∀ j ∈ indices, j < 32) →
      (IsSupported (indices.foldl (fun state index => state ||| indexBitmask index) state) index ↔
        IsSupported state index ∨ index ∈ indices) := by
    intro indices
    induction indices generalizing state with
    | nil => simp
    | cons j indices ih =>
        intro hlt
        rw [List.foldl_cons, ih fun i hi => hlt i (List.mem_cons_of_mem j hi),
          isSupported_or (by omega) (hlt j List.mem_cons_self), List.mem_cons, or_assoc]
  exact hfold _ fun j hj => (listed_lt hj).trans_le hsmall'

/-- The default entries that `dx_digest_unsupported_fields` adds. -/
theorem unsupportedFields_eq (state : Int32) (front fields : List FieldInfo) :
    unsupportedFields state front.length fields =
      ((List.range' front.length fields.length).filter fun index =>
        ¬ IsSupported state index).filterMap fun index =>
          (front ++ fields)[index]?.map defaultEntry := by
  induction fields generalizing front with
  | nil => rfl
  | cons field fields ih =>
      have hrest := ih (front ++ [field])
      rw [List.length_append, List.length_singleton, List.append_assoc, List.singleton_append]
        at hrest
      have hhead : (front ++ field :: fields)[front.length]? = some field := by simp
      rw [unsupportedFields, List.length_cons, List.range'_succ, hrest]
      by_cases hbit : IsSupported state front.length
      · rw [List.filter_cons_of_neg (by simpa using hbit)]
        exact if_pos hbit
      · rw [List.filter_cons_of_pos (by simpa using hbit), List.filterMap_cons, hhead]
        exact if_neg hbit

/-! ### Filling a digest -/

/-- The support state of a record. -/
def ServerInfo.support (info : ServerInfo) (recordId : RecordId) : Option Int32 :=
  atRecordId info.recordServerSupportStates recordId

/-- The digest of a record. -/
def ServerInfo.digest (info : ServerInfo) (recordId : RecordId) : Option RecordDigest :=
  atRecordId info.recordDigests recordId

/-- From one server info to another one a record gets this support state and this digest, and
nothing else changes that record descriptions read. -/
structure Fills (info info' : ServerInfo) (recordId : RecordId) (state : Int32)
    (digest : RecordDigest) : Prop where
  sync : info'.InSync
  list : info'.recordsList = info.recordsList
  support : info'.support recordId = some state
  digest : info'.digest recordId = some digest
  support_of_ne : ∀ id, id ≠ recordId → info'.support id = info.support id
  digest_of_ne : ∀ id, id ≠ recordId → info'.digest id = info.digest id

theorem Fills.trans {info info₁ info₂ : ServerInfo} {recordId : RecordId} {state₁ state₂ : Int32}
    {digest₁ digest₂ : RecordDigest} (h₁ : Fills info info₁ recordId state₁ digest₁)
    (h₂ : Fills info₁ info₂ recordId state₂ digest₂) :
    Fills info info₂ recordId state₂ digest₂ where
  sync := h₂.sync
  list := h₂.list.trans h₁.list
  support := h₂.support
  digest := h₂.digest
  support_of_ne id hne := (h₂.support_of_ne id hne).trans (h₁.support_of_ne id hne)
  digest_of_ne id hne := (h₂.digest_of_ne id hne).trans (h₁.digest_of_ne id hne)

theorem atRecordId_modify {α : Type} {l : List α} {recordId : RecordId} (f : α → α)
    (hid : 0 ≤ recordId.toInt) (id : RecordId) :
    atRecordId (l.modify recordId.toInt.toNat f) id =
      if id = recordId then (atRecordId l id).map f else atRecordId l id := by
  unfold atRecordId
  by_cases hneg : id.toInt < 0
  · rw [if_pos hneg, if_pos hneg]
    split_ifs <;> rfl
  · rw [if_neg hneg, if_neg hneg, List.getElem?_modify]
    by_cases heq : id = recordId
    · rw [if_pos heq, heq]
      simp
    · have hne : recordId.toInt.toNat ≠ id.toInt.toNat := by
        intro hnat
        refine heq (Int32.toInt_inj.mp ?_)
        omega
      have hkeep : (fun a => if recordId.toInt.toNat = id.toInt.toNat then f a else a) =
          fun a => a := by
        funext a
        exact if_neg hne
      rw [if_neg heq, hkeep]
      exact Option.map_id'

variable {info : ServerInfo} {recordId : RecordId} {record : RecordItem} {state : Int32}
  {digest : RecordDigest}

theorem fills_self (hsync : info.InSync) (hstate : info.support recordId = some state)
    (hdigest : info.digest recordId = some digest) : Fills info info recordId state digest where
  sync := hsync
  list := rfl
  support := hstate
  digest := hdigest
  support_of_ne _ _ := rfl
  digest_of_ne _ _ := rfl

/-- Changing the digest of a record. -/
theorem exec_modifyDigest (hsync : info.InSync) (hid : 0 ≤ recordId.toInt)
    (hstate : info.support recordId = some state) (hdigest : info.digest recordId = some digest)
    (f : RecordDigest → RecordDigest) :
    ∃ info', exec (modifyDigest recordId f) info = (.ok ⟨⟩, info') ∧
      Fills info info' recordId state (f digest) := by
  refine ⟨_, rfl, ?_⟩
  have hmodify := fun id => atRecordId_modify (l := info.recordDigests) f hid id
  exact
    { sync := hsync.of_shape (keeps_modifyDigest recordId f info)
      list := rfl
      support := hstate
      digest := by
        refine (hmodify recordId).trans ?_
        have hdigest' : atRecordId info.recordDigests recordId = some digest := hdigest
        rw [if_pos rfl, hdigest']
        rfl
      support_of_ne := fun _ _ => rfl
      digest_of_ne := fun id hne => (hmodify id).trans (if_neg hne) }

/-- Changing the support state of a record. -/
theorem exec_modifySupportState (hsync : info.InSync) (hid : 0 ≤ recordId.toInt)
    (hstate : info.support recordId = some state) (hdigest : info.digest recordId = some digest)
    (f : Int32 → Int32) :
    ∃ info', exec (modifySupportState recordId f) info = (.ok ⟨⟩, info') ∧
      Fills info info' recordId (f state) digest := by
  refine ⟨_, rfl, ?_⟩
  have hmodify := fun id => atRecordId_modify (l := info.recordServerSupportStates) f hid id
  exact
    { sync := hsync.of_shape (keeps_modifySupportState recordId f info)
      list := rfl
      support := by
        refine (hmodify recordId).trans ?_
        have hstate' : atRecordId info.recordServerSupportStates recordId = some state := hstate
        rw [if_pos rfl, hstate']
        rfl
      digest := hdigest
      support_of_ne := fun id hne => (hmodify id).trans (if_neg hne)
      digest_of_ne := fun _ _ => rfl }

/-- The entry that `dx_create_field_digest` makes, and the support bit that it sets. -/
theorem exec_createFieldDigest (record : RecordItem) (hsync : info.InSync) (hid : 0 ≤ recordId.toInt)
    (hstate : info.support recordId = some state) (hdigest : info.digest recordId = some digest)
    {field : FieldDescription} (haccepted : field.isCorrupted = false) :
    ∃ info', exec (createFieldDigest recordId (some record) field) info =
        (.ok (some (fieldEntry record field)), info') ∧
      Fills info info' recordId (supportOf record state [field]) digest := by
  unfold createFieldDigest
  rw [if_neg (by rw [haccepted]; exact Bool.false_ne_true)]
  dsimp only
  cases hindex : findRecordField record (field.fieldName.getD []) field.fieldType with
  | none =>
      have hlisted : listedIndex record field = none := hindex
      refine ⟨info, ?_, ?_⟩
      · rw [fieldEntry, hlisted]
        rfl
      · rw [supportOf, listed, List.filterMap_cons, hlisted]
        exact fills_self hsync hstate hdigest
  | some index =>
      have hlisted : listedIndex record field = some index := hindex
      have hfield := List.getElem?_eq_getElem (findRecordField_lt hindex)
      obtain ⟨info', hexec, hfills⟩ :=
        exec_modifySupportState hsync hid hstate hdigest (· ||| indexBitmask index)
      have hstate' : atRecordId info.recordServerSupportStates recordId = some state := hstate
      refine ⟨info', ?_, ?_⟩
      · rw [fieldEntry, hlisted, exec_bind_ok (exec_get info), hstate', hfield,
          exec_bind_ok hexec, Option.bind_some, hfield]
        rfl
      · rw [supportOf, listed, List.filterMap_cons, hlisted]
        exact hfills

/-- What the loop of `dx_fill_record_digest` does. -/
theorem exec_fillFields (record : RecordItem) (hsync : info.InSync) (hid : 0 ≤ recordId.toInt)
    (hstate : info.support recordId = some state) (hdigest : info.digest recordId = some digest)
    {n : ℕ} {fields : List FieldDescription} (haccepted : FieldsAccepted n fields) :
    ∃ info', exec (fillFields recordId (some record) n fields) info = (.ok (), info') ∧
      Fills info info' recordId (supportOf record state (fields.take n))
        { digest with
          elements := digest.elements ++ (fields.take n).map (fieldEntry record) } := by
  induction n generalizing info state digest fields with
  | zero =>
      refine ⟨info, rfl, ?_⟩
      rw [List.take_zero, List.map_nil, List.append_nil]
      exact fills_self hsync hstate hdigest
  | succ n ih =>
      cases fields with
      | nil => exact absurd haccepted.1 (by simp)
      | cons field fields =>
          obtain ⟨hfield, hrest⟩ := fieldsAccepted_cons.mp haccepted
          obtain ⟨info₁, hcreate, h₁⟩ := exec_createFieldDigest record hsync hid hstate hdigest hfield
          obtain ⟨info₂, happend, h₂⟩ := exec_modifyDigest h₁.sync hid h₁.support h₁.digest
            fun r => { r with elements := r.elements ++ [fieldEntry record field] }
          obtain ⟨info₃, hfill, h₃⟩ := ih h₂.sync h₂.support h₂.digest hrest
          refine ⟨info₃, ?_, ?_⟩
          · rw [fillFields, exec_bind_ok hcreate, appendFieldDigest, exec_bind_ok happend, hfill]
          · have h := (h₁.trans h₂).trans h₃
            have hsupport : supportOf record (supportOf record state [field]) (fields.take n) =
                supportOf record state (field :: fields.take n) := by
              rw [supportOf, supportOf, supportOf, ← List.foldl_append, listed, listed, listed,
                ← List.filterMap_append, List.singleton_append]
            rw [List.take_succ_cons, List.map_cons]
            rw [hsupport, List.append_assoc, List.singleton_append] at h
            exact h

/-- What `dx_digest_unsupported_fields` adds. -/
theorem exec_digestUnsupportedFields (record : RecordItem) (hsync : info.InSync)
    (hid : 0 ≤ recordId.toInt) (hstate : info.support recordId = some state)
    (hdigest : info.digest recordId = some digest) :
    ∃ info', exec (digestUnsupportedFields recordId (some record)) info = (.ok ⟨⟩, info') ∧
      Fills info info' recordId state
        { digest with elements := digest.elements ++ unsupportedFields state 0 record.fields } := by
  obtain ⟨info', hexec, hfills⟩ := exec_modifyDigest hsync hid hstate hdigest
    fun r => { r with elements := r.elements ++ unsupportedFields state 0 record.fields }
  have hstate' : atRecordId info.recordServerSupportStates recordId = some state := hstate
  have hdigest' : atRecordId info.recordDigests recordId = some digest := hdigest
  refine ⟨info', ?_, hfills⟩
  rw [digestUnsupportedFields, exec_bind_ok (exec_get info), hstate', hdigest']
  exact hexec

theorem exec_markInSync (hsync : info.InSync) (hid : 0 ≤ recordId.toInt)
    (hstate : info.support recordId = some state) (hdigest : info.digest recordId = some digest) :
    ∃ info', exec (markInSync recordId) info = (.ok ⟨⟩, info') ∧
      Fills info info' recordId state { digest with inSyncWithServer := true } := by
  obtain ⟨info', hexec, hfills⟩ := exec_modifyDigest hsync hid hstate hdigest
    fun r => { r with inSyncWithServer := true }
  have hdigest' : atRecordId info.recordDigests recordId = some digest := hdigest
  have hnonneg : recordId ≥ 0 := Int32.le_iff_toInt_le.mpr (by simpa using hid)
  refine ⟨info', ?_, hfills⟩
  rw [markInSync, exec_bind_ok (exec_get info), if_pos hnonneg, hdigest']
  exact hexec

/-- The field descriptions that a record description announces. -/
def RecordDescription.listedFields (d : RecordDescription) : List FieldDescription :=
  d.fields.take d.serverFieldCount.toInt.toNat

/-- The digest that a description leaves, from the support bits that were set before. -/
def renewedDigest (record : RecordItem) (state : Int32) (fields : List FieldDescription) :
    RecordDigest :=
  ⟨fields.map (fieldEntry record) ++
    unsupportedFields (supportOf record state fields) 0 record.fields, true⟩

/-- What `dx_fill_record_digest` does to an empty digest. -/
theorem exec_fillRecordDigest (record : RecordItem) (hsync : info.InSync)
    (hid : 0 ≤ recordId.toInt) (hstate : info.support recordId = some state)
    (hdigest : info.digest recordId = some .init) {n : ℕ} {fields : List FieldDescription}
    (haccepted : FieldsAccepted n fields) :
    ∃ info', exec (fillRecordDigest recordId (some record) n fields) info = (.ok ⟨⟩, info') ∧
      Fills info info' recordId (supportOf record state (fields.take n))
        (renewedDigest record state (fields.take n)) := by
  obtain ⟨info₁, hfill, h₁⟩ := exec_fillFields record hsync hid hstate hdigest haccepted
  obtain ⟨info₂, hrest, h₂⟩ :=
    exec_digestUnsupportedFields record h₁.sync hid h₁.support h₁.digest
  obtain ⟨info₃, hmark, h₃⟩ := exec_markInSync h₂.sync hid h₂.support h₂.digest
  refine ⟨info₃, ?_, (h₁.trans h₂).trans h₃⟩
  rw [fillRecordDigest, exec_bind_ok hfill, exec_bind_ok hrest, hmark]

/-- The description of a known record empties its digest, not its support state. -/
theorem exec_renewRecordDigest (hsync : info.InSync)
    (hrecord : IsRecord info.recordsList recordId (some record))
    (hstate : info.support recordId = some state) {d : RecordDescription}
    (haccepted : FieldsAccepted d.serverFieldCount.toInt.toNat d.fields) :
    ∃ info', exec (renewRecordDigest recordId d) info = (.ok ⟨⟩, info') ∧
      Fills info info' recordId (supportOf record state d.listedFields)
        (renewedDigest record state d.listedFields) := by
  have hitem : atRecordId info.recordsList.elements recordId = some record := hrecord
  obtain ⟨hid, digest, hdigest⟩ := atRecordId_eq_some hrecord hsync.digests
  obtain ⟨info₁, hreset, h₁⟩ := exec_modifyDigest hsync hid hstate hdigest fun _ => .init
  obtain ⟨info₂, hfill, h₂⟩ :=
    exec_fillRecordDigest record h₁.sync hid h₁.support h₁.digest haccepted
  refine ⟨info₂, ?_, h₁.trans h₂⟩
  rw [renewRecordDigest, exec_bind_ok (exec_get info), hitem, hdigest]
  exact (exec_bind_ok hreset).trans hfill

/-- The fields of an unknown record are checked, and nothing changes. -/
theorem exec_fillFields_none {n : ℕ} {fields : List FieldDescription}
    (haccepted : FieldsAccepted n fields) :
    exec (fillFields recordId none n fields) info = (.ok (), info) := by
  induction n generalizing fields with
  | zero => rfl
  | succ n ih =>
      cases fields with
      | nil => exact absurd haccepted.1 (by simp)
      | cons field fields =>
          obtain ⟨hfield, hrest⟩ := fieldsAccepted_cons.mp haccepted
          have hcreate : exec (createFieldDigest recordId none field) info = (.ok none, info) := by
            unfold createFieldDigest
            rw [if_neg (by rw [hfield]; exact Bool.false_ne_true)]
            rfl
          rw [fillFields, exec_bind_ok hcreate]
          exact ih hrest

theorem exec_fillRecordDigest_none {n : ℕ} {fields : List FieldDescription}
    (haccepted : FieldsAccepted n fields) :
    exec (fillRecordDigest recordIdInvalid none n fields) info = (.ok ⟨⟩, info) := by
  rw [fillRecordDigest, exec_bind_ok (exec_fillFields_none haccepted)]
  rfl

theorem RecordDescription.accepted_iff {d : RecordDescription} :
    d.isAccepted = true ↔
      ¬ d.isCorrupted = true ∧ FieldsAccepted d.serverFieldCount.toInt.toNat d.fields := by
  simp [RecordDescription.isAccepted]

/-- An accepted description of an unknown record changes nothing. -/
theorem exec_processRecordDescription_unknown {d : RecordDescription}
    (haccepted : d.isAccepted = true)
    (hunknown : getRecordIdByName info.recordsList d.name = recordIdInvalid) :
    exec (processRecordDescription d) info = (.ok ⟨⟩, info) := by
  obtain ⟨hheader, hfields⟩ := RecordDescription.accepted_iff.mp haccepted
  have hunknown' : getRecordIdByName info.recordsList (d.recordName.getD []) = recordIdInvalid :=
    hunknown
  rw [processRecordDescription, if_neg hheader, exec_bind_ok (exec_get info)]
  dsimp only
  rw [if_pos hunknown', hunknown']
  exact exec_fillRecordDigest_none hfields

/-- An accepted description of a known record renews its digest. -/
theorem exec_processRecordDescription_known (hsync : info.InSync) {d : RecordDescription}
    (haccepted : d.isAccepted = true)
    (hrecord : IsRecord info.recordsList (getRecordIdByName info.recordsList d.name) (some record))
    (hstate : info.support (getRecordIdByName info.recordsList d.name) = some state) :
    ∃ info', exec (processRecordDescription d) info = (.ok ⟨⟩, info') ∧
      Fills info info' (getRecordIdByName info.recordsList d.name)
        (supportOf record state d.listedFields) (renewedDigest record state d.listedFields) := by
  obtain ⟨hheader, hfields⟩ := RecordDescription.accepted_iff.mp haccepted
  have hname : d.recordName.getD [] = d.name := rfl
  rw [processRecordDescription, if_neg hheader, exec_bind_ok (exec_get info), hname]
  generalize getRecordIdByName info.recordsList d.name = recordId at hrecord hstate
  obtain ⟨hid, -⟩ := atRecordId_eq_some hrecord hsync.states
  have hknown : recordId ≠ recordIdInvalid := by
    rintro rfl
    exact absurd hid (by decide)
  dsimp only
  rw [if_neg hknown]
  set assigned : ServerInfo := { info with
    recordIdMap := info.recordIdMap.assignServerRecordId recordId d.serverRecordId }
  have hassign : exec (modify fun info : ServerInfo => { info with
      recordIdMap := info.recordIdMap.assignServerRecordId recordId d.serverRecordId } :
      InfoCall PUnit) info = (.ok ⟨⟩, assigned) := rfl
  have hassigned : assigned.InSync := ⟨hsync.states, hsync.digests⟩
  obtain ⟨info', hrenew, hfills⟩ := exec_renewRecordDigest hassigned hrecord hstate hfields
  refine ⟨info', ?_, ?_⟩
  · rw [exec_bind_ok hassign]
    exact hrenew
  · exact
      { sync := hfills.sync
        list := hfills.list
        support := hfills.support
        digest := hfills.digest
        support_of_ne := hfills.support_of_ne
        digest_of_ne := hfills.digest_of_ne }

/-! ### The descriptions of a session -/

/-- The field lists that a message has for a record. -/
def messageLists (records : RecordList) (message : List RecordDescription) (recordId : RecordId) :
    List (List FieldDescription) :=
  (message.filter fun d => getRecordIdByName records d.name = recordId).map
    RecordDescription.listedFields

/-- The field lists of a record in the session, after a step. -/
def relist (records : RecordList) (lists : RecordId → List (List FieldDescription)) :
    ServerStep → RecordId → List (List FieldDescription)
  | .describeRecords message => fun recordId =>
      lists recordId ++ messageLists records message recordId
  | .clearServerInfo => fun _ => []

/-- The field lists of the descriptions of a record since the session started. -/
def sessionLists (records : RecordList) (history : List ServerStep) :
    RecordId → List (List FieldDescription) :=
  history.foldl (relist records) fun _ => []

/-- The digest after some descriptions in a session. -/
def sessionDigest (record : RecordItem) (lists : List (List FieldDescription)) : RecordDigest :=
  match lists.getLast? with
  | none => .init
  | some fields =>
      ⟨fields.map (fieldEntry record) ++ defaultEntries record (unlisted record lists), true⟩

/-- A support bit is set if a description of the session lists its field. -/
def TracksSupport (record : RecordItem) (lists : List (List FieldDescription)) (state : Int32) :
    Prop :=
  ∀ index < record.fields.length,
    (IsSupported state index ↔ ∃ fields ∈ lists, index ∈ listed record fields)

/-- The digests and the support bits, from the descriptions of the session. -/
structure Tracks (info : ServerInfo) (records : RecordList)
    (lists : RecordId → List (List FieldDescription)) : Prop where
  sync : info.InSync
  list : info.recordsList = records
  digest : ∀ recordId record, IsRecord records recordId (some record) →
    info.digest recordId = some (sessionDigest record (lists recordId))
  support : ∀ recordId record, IsRecord records recordId (some record) →
    ∃ state, info.support recordId = some state ∧ TracksSupport record (lists recordId) state

theorem TracksSupport.describe {lists : List (List FieldDescription)}
    (h : TracksSupport record lists state) (hsmall : record.IsSmall)
    (fields : List FieldDescription) :
    TracksSupport record (lists ++ [fields]) (supportOf record state fields) := by
  intro index hindex
  rw [isSupported_supportOf hsmall hindex, h index hindex]
  simp [or_and_right, exists_or]

/-- The default entries are those of the fields that no description of the session lists. -/
theorem TracksSupport.unsupportedFields_eq {lists : List (List FieldDescription)}
    (h : TracksSupport record lists state) :
    unsupportedFields state 0 record.fields = defaultEntries record (unlisted record lists) := by
  have hentries := ServerMessageProcessor.unsupportedFields_eq state [] record.fields
  rw [List.length_nil, ← List.range_eq_range'] at hentries
  rw [hentries, defaultEntries, unlisted]
  congr 1
  refine List.filter_congr fun index hindex => ?_
  have hlt : index < record.fields.length := List.mem_range.mp hindex
  refine decide_eq_decide.mpr ((not_congr (h index hlt)).trans ?_)
  simp

theorem TracksSupport.renewedDigest_eq {lists : List (List FieldDescription)}
    (h : TracksSupport record lists state) (hsmall : record.IsSmall)
    (fields : List FieldDescription) :
    renewedDigest record state fields = sessionDigest record (lists ++ [fields]) := by
  rw [renewedDigest, (h.describe hsmall fields).unsupportedFields_eq, sessionDigest,
    List.getLast?_concat]

theorem IsRecord.mem {records : RecordList} (h : IsRecord records recordId (some record)) :
    record ∈ records.elements := by
  have hitem : atRecordId records.elements recordId = some record := h
  unfold atRecordId at hitem
  split_ifs at hitem
  exact List.mem_of_getElem? hitem

theorem IsRecord.ne_invalid {records : RecordList}
    (h : IsRecord records recordId (some record)) : recordId ≠ recordIdInvalid := by
  rintro rfl
  have hitem : atRecordId records.elements recordIdInvalid = some record := h
  cases hitem

variable {records : RecordList} {lists : RecordId → List (List FieldDescription)}

/-- One accepted description. -/
theorem Tracks.describe (h : Tracks info records lists) (hproper : records.IsProper)
    {d : RecordDescription} (haccepted : d.isAccepted = true) :
    ∃ info', exec (processRecordDescription d) info = (.ok ⟨⟩, info') ∧
      Tracks info' records fun recordId => lists recordId ++ messageLists records [d] recordId := by
  obtain ⟨hsync, rfl, hdigests, hsupports⟩ := h
  by_cases hunknown : getRecordIdByName info.recordsList d.name = recordIdInvalid
  · have hlists : ∀ recordId record, IsRecord info.recordsList recordId (some record) →
        lists recordId ++ messageLists info.recordsList [d] recordId = lists recordId := by
      intro recordId record hrecord
      have hne : getRecordIdByName info.recordsList d.name ≠ recordId := by
        rw [hunknown]
        exact hrecord.ne_invalid.symm
      simp [messageLists, hne]
    refine ⟨info, exec_processRecordDescription_unknown haccepted hunknown, hsync, rfl, ?_, ?_⟩
    · intro recordId record hrecord
      rw [hlists recordId record hrecord]
      exact hdigests recordId record hrecord
    · intro recordId record hrecord
      rw [hlists recordId record hrecord]
      exact hsupports recordId record hrecord
  · obtain ⟨record, hrecord⟩ := getRecordIdByName_ne_invalid hunknown
    obtain ⟨state, hstate, htracks⟩ := hsupports _ record hrecord
    obtain ⟨hsmall, -⟩ := hproper record hrecord.mem
    obtain ⟨info', hexec, hfills⟩ :=
      exec_processRecordDescription_known hsync haccepted hrecord hstate
    refine ⟨info', hexec, hfills.sync, hfills.list, ?_, ?_⟩
    · intro id record' hrecord'
      by_cases hid : getRecordIdByName info.recordsList d.name = id
      · subst hid
        obtain rfl : record' = record := Option.some.inj (hrecord'.symm.trans hrecord)
        rw [hfills.digest, htracks.renewedDigest_eq hsmall]
        simp [messageLists]
      · rw [hfills.digest_of_ne id (Ne.symm hid), hdigests id record' hrecord']
        simp [messageLists, hid]
    · intro id record' hrecord'
      by_cases hid : getRecordIdByName info.recordsList d.name = id
      · subst hid
        obtain rfl : record' = record := Option.some.inj (hrecord'.symm.trans hrecord)
        refine ⟨_, hfills.support, ?_⟩
        have hdescribe := htracks.describe hsmall d.listedFields
        simpa [messageLists] using hdescribe
      · rw [hfills.support_of_ne id (Ne.symm hid)]
        have hlists : lists id ++ messageLists info.recordsList [d] id = lists id := by
          simp [messageLists, hid]
        rw [hlists]
        exact hsupports id record' hrecord'

/-- A message that the processor accepts. -/
theorem Tracks.message (h : Tracks info records lists) (hproper : records.IsProper)
    {message : List RecordDescription}
    (hreturns : Returns (processDescribeRecords message) info) :
    Tracks (exec (processDescribeRecords message) info).2 records
      (relist records lists (.describeRecords message)) := by
  induction message generalizing info lists with
  | nil => simpa [relist, messageLists, processDescribeRecords] using h
  | cons d message ih =>
      rw [processDescribeRecords, returns_bind] at hreturns
      obtain ⟨u, info₁, hfirst, hrest⟩ := hreturns
      have haccepted : d.isAccepted = true := by
        refine (processRecordDescription_spec h.sync d).2.2.2.mp ⟨u, ?_⟩
        rw [hfirst]
      obtain ⟨info', hexec, htracks⟩ := h.describe hproper haccepted
      obtain rfl : info' = info₁ := (congrArg Prod.snd (hexec.symm.trans hfirst))
      have hmessage := ih htracks hrest
      rw [processDescribeRecords, exec_bind_ok hfirst]
      have hlists : relist records lists (.describeRecords (d :: message)) =
          relist records (fun recordId => lists recordId ++ messageLists records [d] recordId)
            (.describeRecords message) := by
        funext recordId
        have hcons : messageLists records (d :: message) recordId =
            messageLists records [d] recordId ++ messageLists records message recordId := by
          rw [messageLists, messageLists, messageLists, ← List.map_append, ← List.filter_append,
            List.singleton_append]
        simp only [relist]
        rw [hcons, List.append_assoc]
      rw [hlists]
      exact hmessage

/-- The digests and the support bits of a list of records before any description. -/
theorem tracks_init (hsync : info.InSync) (hlist : info.recordsList = records)
    (hstates : info.recordServerSupportStates = records.elements.map fun _ => 0)
    (hdigests : info.recordDigests = records.elements.map fun _ => .init)
    (hproper : records.IsProper) : Tracks info records fun _ => [] where
  sync := hsync
  list := hlist
  digest recordId record hrecord := by
    have hitem : atRecordId records.elements recordId = some record := hrecord
    unfold atRecordId at hitem
    split_ifs at hitem with hneg
    rw [ServerInfo.digest, hdigests, atRecordId, if_neg hneg, List.getElem?_map, hitem]
    rfl
  support recordId record hrecord := by
    have hitem : atRecordId records.elements recordId = some record := hrecord
    unfold atRecordId at hitem
    split_ifs at hitem with hneg
    refine ⟨0, ?_, fun index hindex => ?_⟩
    · rw [ServerInfo.support, hstates, atRecordId, if_neg hneg, List.getElem?_map, hitem]
      rfl
    · have hsmall : record.fields.length ≤ 32 := (hproper record hrecord.mem).1
      refine iff_of_false (not_isSupported_zero (hindex.trans_le hsmall)) ?_
      rintro ⟨fields, hfields, -⟩
      exact absurd hfields List.not_mem_nil

theorem Tracks.clear (h : Tracks info records lists) (hproper : records.IsProper) :
    Tracks (exec clearServerInfo info).2 records fun _ => [] := by
  obtain ⟨hsync', hlist, -⟩ := clearServerInfo_spec h.sync
  have hstates := h.sync.states
  rw [← h.list] at hproper ⊢
  refine tracks_init hsync' hlist ?_ ?_ hproper
  · rw [clearServerInfo, exec_bind_ok (exec_get info), if_neg (by rw [hstates]; omega)]
    show _ ++ List.drop _ _ = _
    rw [← hstates, List.drop_length, List.append_nil]
  · rw [clearServerInfo, exec_bind_ok (exec_get info), if_neg (by rw [hstates]; omega)]
    rfl

/-- The call of a step succeeds. -/
def ServerInfo.Succeeds (info : ServerInfo) : ServerStep → Prop
  | .describeRecords message => Returns (processDescribeRecords message) info
  | .clearServerInfo => Returns clearServerInfo info

/-- The calls of all steps of a history succeed. -/
def AllSucceed (records : RecordList) (history : List ServerStep) : Prop :=
  ∀ front step back, history = front ++ step :: back →
    (ServerInfo.after records front).Succeeds step

/-- The messages of the step contain accepted descriptions only. -/
def ServerStep.IsAccepted : ServerStep → Prop
  | .describeRecords message => ∀ d ∈ message, d.isAccepted = true
  | .clearServerInfo => True

instance : DecidablePred ServerStep.IsAccepted
  | .describeRecords message => inferInstanceAs (Decidable (∀ d ∈ message, d.isAccepted = true))
  | .clearServerInfo => isTrue trivial

theorem returns_processDescribeRecords (hsync : info.InSync) (message : List RecordDescription) :
    Returns (processDescribeRecords message) info ↔ ∀ d ∈ message, d.isAccepted = true := by
  induction message generalizing info with
  | nil => simp [processDescribeRecords]
  | cons d message ih =>
      obtain ⟨hsync', -, -, hreturns⟩ := processRecordDescription_spec hsync d
      rw [processDescribeRecords, returns_bind, List.forall_mem_cons]
      constructor
      · rintro ⟨u, info', hexec, hrest⟩
        rw [hexec] at hsync'
        exact ⟨hreturns.mp ⟨u, by rw [hexec]⟩, (ih hsync').mp hrest⟩
      · rintro ⟨haccepted, hrest⟩
        obtain ⟨u, hu⟩ := hreturns.mpr haccepted
        exact ⟨u, _, Prod.ext hu rfl, (ih hsync').mpr hrest⟩

theorem returns_clearServerInfo (hsync : info.InSync) : Returns clearServerInfo info := by
  rw [clearServerInfo, returns_get_bind, if_neg (by rw [hsync.states]; omega)]
  exact ⟨_, rfl⟩

/-- Whether the calls succeed depends on the messages only. -/
theorem allSucceed_iff (records : RecordList) (history : List ServerStep) :
    AllSucceed records history ↔ ∀ step ∈ history, step.IsAccepted := by
  have hstep : ∀ front step,
      (ServerInfo.after records front).Succeeds step ↔ step.IsAccepted := by
    intro front step
    have hsync := (ServerInfo.after_spec records front).1
    cases step with
    | describeRecords message => exact returns_processDescribeRecords hsync message
    | clearServerInfo => exact iff_true_intro (returns_clearServerInfo hsync)
  constructor
  · intro h step hmem
    obtain ⟨front, back, hhistory⟩ := List.append_of_mem hmem
    exact (hstep front step).mp (h front step back hhistory)
  · rintro h front step back rfl
    exact (hstep front step).mpr (h step (by simp))

theorem Tracks.apply (h : Tracks info records lists) (hproper : records.IsProper)
    {step : ServerStep} (hsucceeds : info.Succeeds step) :
    Tracks (info.apply step) records (relist records lists step) := by
  cases step with
  | describeRecords message => exact h.message hproper hsucceeds
  | clearServerInfo => exact h.clear hproper

/-- Every successful history leaves the digests and the support bits of its session. -/
theorem tracks_after (hproper : records.IsProper) {history : List ServerStep}
    (hsucceed : AllSucceed records history) :
    Tracks (ServerInfo.after records history) records (sessionLists records history) := by
  induction history using List.reverseRecOn with
  | nil => exact tracks_init (ServerInfo.fresh_inSync records) rfl rfl rfl hproper
  | append_singleton history step ih =>
      have hfront : AllSucceed records history := by
        intro front step' back hhistory
        exact hsucceed front step' (back ++ [step]) (by rw [hhistory]; simp)
      have hlast := hsucceed history step [] rfl
      have hafter : ServerInfo.after records (history ++ [step]) =
          (ServerInfo.after records history).apply step := List.foldl_concat ..
      rw [hafter, sessionLists, List.foldl_concat]
      exact (ih hfront).apply hproper hlast

/-! ### How often a field is set -/

/-- The number of entries that set a local field. -/
def setCount (field : FieldInfo) (entries : List FieldDigest) : ℕ :=
  entries.countP fun entry => entry.setter = some field.setter

theorem setCount_append (field : FieldInfo) (entries entries' : List FieldDigest) :
    setCount field (entries ++ entries') = setCount field entries + setCount field entries' :=
  List.countP_append

theorem setCount_cons (field : FieldInfo) (entry : FieldDigest) (entries : List FieldDigest) :
    setCount field (entry :: entries) =
      setCount field entries + if entry.setter = some field.setter then 1 else 0 := by
  simp [setCount, List.countP_cons]

section Counts

variable {index : ℕ} {localField : FieldInfo}

/-- Different fields have different setters. -/
theorem setter_eq_iff (hsetters : (record.fields.map FieldInfo.setter).Nodup)
    (hfield : record.fields[index]? = some localField) {j : ℕ} {other : FieldInfo}
    (hother : record.fields[j]? = some other) :
    some other.setter = some localField.setter ↔ j = index := by
  have hj : j < (record.fields.map FieldInfo.setter).length := by
    rw [List.length_map]
    exact (List.getElem?_eq_some_iff.mp hother).1
  rw [← List.getElem?_inj (j := index) hj hsetters, List.getElem?_map, List.getElem?_map, hfield,
    hother]
  rfl

/-- The described fields set a local field as often as they list it. -/
theorem setCount_fieldEntry (hsetters : (record.fields.map FieldInfo.setter).Nodup)
    (hfield : record.fields[index]? = some localField) (fields : List FieldDescription) :
    setCount localField (fields.map (fieldEntry record)) = (listed record fields).count index := by
  induction fields with
  | nil => rfl
  | cons field fields ih =>
      rw [List.map_cons, setCount_cons, ih]
      cases hlisted : listedIndex record field with
      | none =>
          have hentry : (fieldEntry record field).setter = none := by
            rw [fieldEntry, hlisted]
            rfl
          have hcons : listed record (field :: fields) = listed record fields :=
            List.filterMap_cons_none hlisted
          rw [hentry, hcons]
          rfl
      | some j =>
          have hj := listedIndex_lt hlisted
          have hother := List.getElem?_eq_getElem hj
          have hentry : (fieldEntry record field).setter = some record.fields[j].setter := by
            rw [fieldEntry, hlisted, Option.bind_some, hother]
          have hcons : listed record (field :: fields) = j :: listed record fields :=
            List.filterMap_cons_some hlisted
          have hsetter := setter_eq_iff hsetters hfield hother
          rw [hentry, hcons, List.count_cons]
          simp only [hsetter, beq_iff_eq]

/-- The default entries set a local field as often as its index occurs. -/
theorem setCount_defaultEntries (hsetters : (record.fields.map FieldInfo.setter).Nodup)
    (hfield : record.fields[index]? = some localField) {indices : List ℕ}
    (hindices : ∀ j ∈ indices, j < record.fields.length) :
    setCount localField (defaultEntries record indices) = indices.count index := by
  induction indices with
  | nil => rfl
  | cons j indices ih =>
      have hj := hindices j List.mem_cons_self
      have hother := List.getElem?_eq_getElem hj
      have hcons : defaultEntries record (j :: indices) =
          defaultEntry record.fields[j] :: defaultEntries record indices :=
        List.filterMap_cons_some (by rw [hother]; rfl)
      have hsetter : (defaultEntry record.fields[j]).setter = some localField.setter ↔ j = index :=
        setter_eq_iff hsetters hfield hother
      rw [hcons, setCount_cons, ih fun i hi => hindices i (List.mem_cons_of_mem j hi),
        List.count_cons]
      simp only [hsetter, beq_iff_eq]

end Counts

/-! ### One entry for each local field -/

theorem mem_unlisted {lists : List (List FieldDescription)} {index : ℕ} :
    index ∈ unlisted record lists ↔
      index < record.fields.length ∧ ∀ fields ∈ lists, index ∉ listed record fields := by
  simp [unlisted]

theorem nodup_unlisted (record : RecordItem) (lists : List (List FieldDescription)) :
    (unlisted record lists).Nodup :=
  List.nodup_range.filter _

/-- The digest has the fields of a description in their order, then a default for each local
field that the description does not list, and each local field is set once. -/
structure CoversOnce (record : RecordItem) (fields : List FieldDescription)
    (digest : RecordDigest) : Prop where
  elements : digest.elements =
    fields.map (fieldEntry record) ++ defaultEntries record (unlisted record [fields])
  setsOnce : ∀ localField ∈ record.fields, setCount localField digest.elements = 1

/-- The last description of a record lists no field twice, and it lists what the earlier ones of
the session list. -/
def Relists (record : RecordItem) (earlier : List (List FieldDescription))
    (last : List FieldDescription) : Prop :=
  (listed record last).Nodup ∧ ∀ fields ∈ earlier, listed record fields ⊆ listed record last

variable {earlier : List (List FieldDescription)} {last : List FieldDescription}

theorem sessionDigest_concat (record : RecordItem) (earlier : List (List FieldDescription))
    (last : List FieldDescription) :
    sessionDigest record (earlier ++ [last]) =
      ⟨last.map (fieldEntry record) ++ defaultEntries record (unlisted record (earlier ++ [last])),
        true⟩ := by
  rw [sessionDigest, List.getLast?_concat]

/-- How often the digest of a session sets a local field. -/
theorem setCount_sessionDigest (hsetters : (record.fields.map FieldInfo.setter).Nodup)
    {index : ℕ} {localField : FieldInfo} (hfield : record.fields[index]? = some localField) :
    setCount localField (sessionDigest record (earlier ++ [last])).elements =
      (listed record last).count index + (unlisted record (earlier ++ [last])).count index := by
  rw [sessionDigest_concat, setCount_append, setCount_fieldEntry hsetters hfield,
    setCount_defaultEntries hsetters hfield fun j hj => (mem_unlisted.mp hj).1]

/-- If the digest sets each field once, then no field is listed twice, and those of earlier
descriptions are listed again. -/
theorem relists_of_setsOnce (hsetters : (record.fields.map FieldInfo.setter).Nodup)
    (h : ∀ localField ∈ record.fields,
      setCount localField (sessionDigest record (earlier ++ [last])).elements = 1) :
    Relists record earlier last := by
  have hcounts : ∀ index < record.fields.length, (listed record last).count index +
      (unlisted record (earlier ++ [last])).count index = 1 := by
    intro index hindex
    rw [← setCount_sessionDigest hsetters (List.getElem?_eq_getElem hindex)]
    exact h _ (List.getElem_mem hindex)
  constructor
  · refine List.nodup_iff_count_le_one.mpr fun index => ?_
    by_cases hmem : index ∈ listed record last
    · have hcount := hcounts index (listed_lt hmem)
      omega
    · rw [List.count_eq_zero_of_not_mem hmem]
      omega
  · intro fields hfields index hindex
    by_contra hmissing
    have hcount := hcounts index (listed_lt hindex)
    have hnot : index ∉ unlisted record (earlier ++ [last]) := fun hmem =>
      (mem_unlisted.mp hmem).2 fields (List.mem_append_left _ hfields) hindex
    rw [List.count_eq_zero_of_not_mem hmissing, List.count_eq_zero_of_not_mem hnot] at hcount
    exact absurd hcount (by decide)

/-- The earlier descriptions add nothing to what the last one lists. -/
theorem Relists.unlisted_eq (h : Relists record earlier last) :
    unlisted record (earlier ++ [last]) = unlisted record [last] := by
  refine List.filter_congr fun index _ => decide_eq_decide.mpr ?_
  constructor
  · intro hnot fields hfields
    exact hnot fields (List.mem_append_right _ hfields)
  · intro hnot fields hfields hindex
    have hlast := hnot last List.mem_cons_self
    rcases List.mem_append.mp hfields with hearlier | hsingle
    · exact hlast (h.2 fields hearlier hindex)
    · exact hnot fields hsingle hindex

theorem coversOnce_iff (hsetters : (record.fields.map FieldInfo.setter).Nodup) :
    CoversOnce record last (sessionDigest record (earlier ++ [last])) ↔
      Relists record earlier last := by
  refine ⟨fun h => relists_of_setsOnce hsetters h.setsOnce, fun h => ⟨?_, ?_⟩⟩
  · rw [sessionDigest_concat, h.unlisted_eq]
  · intro localField hmem
    obtain ⟨index, hindex, rfl⟩ := List.getElem_of_mem hmem
    rw [setCount_sessionDigest hsetters (List.getElem?_eq_getElem hindex), h.unlisted_eq]
    by_cases hlisted : index ∈ listed record last
    · have hnot : index ∉ unlisted record [last] := fun hmem' =>
        (mem_unlisted.mp hmem').2 last List.mem_cons_self hlisted
      rw [List.count_eq_one_of_mem h.1 hlisted, List.count_eq_zero_of_not_mem hnot]
    · have hunlisted : index ∈ unlisted record [last] := by
        refine mem_unlisted.mpr ⟨hindex, fun fields hfields => ?_⟩
        rw [List.mem_singleton.mp hfields]
        exact hlisted
      rw [List.count_eq_zero_of_not_mem hlisted,
        List.count_eq_one_of_mem (nodup_unlisted record _) hunlisted]

/-- Every digest in sync covers the latest description of its record. -/
def DigestsCoverOnce (records : RecordList) (history : List ServerStep) : Prop :=
  ∀ recordId record, IsRecord records recordId (some record) →
    ∀ digest, (ServerInfo.after records history).digest recordId = some digest →
      digest.inSyncWithServer = true →
        ∃ fields, (sessionLists records history recordId).getLast? = some fields ∧
          CoversOnce record fields digest

/-- The last description of every record in the session lists no field twice, and it lists what
the earlier ones of the session list. -/
def SessionsRelist (records : RecordList) (history : List ServerStep) : Prop :=
  ∀ recordId record, IsRecord records recordId (some record) →
    ∀ earlier last, sessionLists records history recordId = earlier ++ [last] →
      Relists record earlier last

/-- The digests in sync cover their records once if and only if the last descriptions of the
session list no field twice and no description of the session lists more. -/
theorem digestsCoverOnce_iff (records : RecordList) (hproper : records.IsProper)
    (history : List ServerStep) (hsucceed : AllSucceed records history) :
    DigestsCoverOnce records history ↔ SessionsRelist records history := by
  have htracks := tracks_after hproper hsucceed
  constructor
  · intro h recordId record hrecord earlier last hlists
    have hdigest := htracks.digest recordId record hrecord
    rw [hlists] at hdigest
    have hsync : (sessionDigest record (earlier ++ [last])).inSyncWithServer = true := by
      rw [sessionDigest_concat]
    obtain ⟨fields, hfields, hcovers⟩ := h recordId record hrecord _ hdigest hsync
    rw [hlists, List.getLast?_concat] at hfields
    obtain rfl := Option.some.inj hfields
    exact (coversOnce_iff (hproper record hrecord.mem).2).mp hcovers
  · intro h recordId record hrecord digest hdigest hsync
    rw [htracks.digest recordId record hrecord] at hdigest
    obtain rfl := Option.some.inj hdigest
    rcases List.eq_nil_or_concat (sessionLists records history recordId) with hnil | hconcat
    · -- without a description the digest is not in sync
      rw [hnil] at hsync
      exact absurd hsync Bool.false_ne_true
    · obtain ⟨earlier, last, hlists⟩ := hconcat
      rw [List.concat_eq_append] at hlists
      refine ⟨last, by rw [hlists, List.getLast?_concat], ?_⟩
      rw [hlists]
      exact (coversOnce_iff (hproper record hrecord.mem).2).mpr
        (h recordId record hrecord earlier last hlists)

/-- A client with one record, `Configuration`. -/
def configurationRecords : RecordList :=
  ⟨[⟨wideString "Configuration", dxFieldsConfiguration⟩], by decide⟩

/-- The server describes some fields of the record. -/
def configurationStep (fields : List FieldDescription) : ServerStep :=
  .describeRecords [⟨1, some (wideString "Configuration"), Int32.ofNat fields.length, fields⟩]

def versionField : FieldDescription := ⟨some (wideString "Version"), fidCompactInt⟩

def objectField : FieldDescription :=
  ⟨some (wideString "Configuration"), fidByteArray ||| fidFlagSerialObject⟩

/-- A new session may describe fewer fields, and a second description may describe more. -/
def relistingHistory : List ServerStep :=
  [configurationStep [versionField, objectField], .clearServerInfo, configurationStep [versionField],
    configurationStep [objectField, versionField]]

theorem configurationRecords_fromTables : configurationRecords.FromTables := by
  intro record hrecord
  obtain rfl := List.mem_singleton.mp hrecord
  exact ⟨("Configuration", dxFieldsConfiguration), by simp [recordTables], rfl⟩

theorem isRecord_configurationRecords {recordId : RecordId} {record : RecordItem}
    (hrecord : IsRecord configurationRecords recordId (some record)) :
    recordId = 0 ∧ record = ⟨wideString "Configuration", dxFieldsConfiguration⟩ := by
  have hitem : atRecordId configurationRecords.elements recordId = some record := hrecord
  unfold atRecordId at hitem
  split_ifs at hitem with hneg
  obtain ⟨hlt, hget⟩ := List.getElem?_eq_some_iff.mp hitem
  have hone : recordId.toInt.toNat < 1 := hlt
  have hzero : recordId = 0 := Int32.toInt_inj.mp (by rw [Int32.toInt_zero]; omega)
  subst hzero
  exact ⟨rfl, hget.symm⟩

theorem digestsCoverOnce_relisting : DigestsCoverOnce configurationRecords relistingHistory := by
  refine (digestsCoverOnce_iff configurationRecords configurationRecords_fromTables.isProper
    relistingHistory ?_).mpr ?_
  · rw [allSucceed_iff]
    decide
  · intro recordId record hrecord earlier last hlists
    obtain ⟨rfl, rfl⟩ := isRecord_configurationRecords hrecord
    have hsession : sessionLists configurationRecords relistingHistory 0 =
        [[versionField], [objectField, versionField]] := by decide
    have happend : earlier ++ [last] = [[versionField]] ++ [[objectField, versionField]] :=
      hlists.symm.trans hsession
    obtain ⟨rfl, hlast⟩ := List.append_inj' happend rfl
    obtain rfl := List.singleton_injective hlast
    exact ⟨by decide, by decide⟩

/-- A second description of the record lists one field fewer: its digest has no entry for that
field. -/
theorem not_digestsCoverOnce_fewerFields :
    AllSucceed configurationRecords
        [configurationStep [versionField, objectField], configurationStep [versionField]] ∧
      ¬ DigestsCoverOnce configurationRecords
        [configurationStep [versionField, objectField], configurationStep [versionField]] := by
  refine ⟨(allSucceed_iff _ _).mpr (by decide), fun h => ?_⟩
  have hdigest : (ServerInfo.after configurationRecords
      [configurationStep [versionField, objectField], configurationStep [versionField]]).digest 0 =
      some ⟨[⟨fidCompactInt, fidCompactInt, some "dx_configuration_t_version_setter", none⟩],
        true⟩ := by
    decide
  obtain ⟨fields, -, hcovers⟩ :=
    h 0 ⟨wideString "Configuration", dxFieldsConfiguration⟩ rfl _ hdigest rfl
  have hobject := hcovers.setsOnce (dxFieldsConfiguration.get ⟨1, by decide⟩) (List.get_mem _ _)
  exact absurd hobject (by decide)

end DxFeed.ServerMessageProcessor
