import DxFeed.ServerMessageProcessor.RecordDigests
import DxFeed.ServerMessageProcessor.RecordReading

/-!
# Entries without a serialization

The serialization `dx_fid_void` marks the entries of a digest that stand for a default value, and
they are executed without a check.  But a server may describe a field of that serialization as well.

* `FieldDigest.IsExecutable`: what `dx_read_records` relies on;
* `isExecutable_fieldEntry_iff`, `isExecutable_defaultEntry`: the entries of the two constructors;
* `storable_defaultEntry`: a default value has the type that its setter reads;
* `digestsExecutable_iff`: the digests in sync can be executed if and only if the latest descriptions
  of the session have no field of that serialization.
-/

namespace DxFeed.ServerMessageProcessor

open RecordBuffers

/-- An entry of the branch `dx_fid_void` has a setter and a getter of the default value. -/
def FieldDigest.IsExecutable (entry : FieldDigest) : Prop :=
  entry.IsVoid → entry.setter.isSome ∧ entry.defValGetter.isSome

/-- The described type has no serialization. -/
def FieldDescription.IsVoid (field : FieldDescription) : Prop :=
  field.fieldType &&& fidMaskSerialization = fidVoid

instance (field : FieldDescription) : Decidable field.IsVoid := inferInstanceAs (Decidable (_ = _))

theorem fieldEntry_type (record : RecordItem) (field : FieldDescription) :
    (fieldEntry record field).type = field.fieldType := by
  unfold fieldEntry
  split <;> rfl

theorem fieldEntry_defValGetter (record : RecordItem) (field : FieldDescription) :
    (fieldEntry record field).defValGetter = none := by
  unfold fieldEntry
  split <;> rfl

/-- The entry of a described field has no getter, so its type must have a serialization. -/
theorem isExecutable_fieldEntry_iff (record : RecordItem) (field : FieldDescription) :
    (fieldEntry record field).IsExecutable ↔ ¬ field.IsVoid := by
  rw [FieldDigest.IsExecutable, FieldDigest.IsVoid, fieldEntry_type, fieldEntry_defValGetter,
    FieldDescription.IsVoid]
  constructor
  · exact fun h hvoid => absurd (h hvoid).2 Bool.false_ne_true
  · exact fun h hvoid => absurd hvoid h

theorem isExecutable_defaultEntry (field : FieldInfo) : (defaultEntry field).IsExecutable :=
  fun _ => ⟨rfl, rfl⟩

theorem isExecutable_of_mem_defaultEntries {record : RecordItem} {indices : List ℕ} :
    ∀ entry ∈ defaultEntries record indices, entry.IsExecutable := by
  intro entry hentry
  obtain ⟨index, -, hfield⟩ := List.mem_filterMap.mp hentry
  obtain ⟨field, -, rfl⟩ := Option.map_eq_some_iff.mp hfield
  exact isExecutable_defaultEntry field

/-- The setter and the getter of a field of a table are those of one member. -/
theorem exists_member_of_mem {info : RecordInfoId} {field : FieldInfo}
    (hfield : field ∈ recordFields info) :
    ∃ m ∈ members info, field.setter = setterName info m ∧
      field.defValGetter = defValName info m := by
  obtain ⟨i, hi⟩ := List.mem_iff_getElem?.mp hfield
  have hsetter := congrArg (fun l : List FunctionName => l[i]?) (recordFields_setter info)
  have hgetter := congrArg (fun l : List FunctionName => l[i]?) (recordFields_defValGetter info)
  simp only [List.getElem?_map, hi, Option.map_some] at hsetter hgetter
  obtain ⟨m, hm, hsetter⟩ := Option.map_eq_some_iff.mp hsetter.symm
  rw [hm, Option.map_some, Option.some_inj] at hgetter
  exact ⟨m, List.mem_of_getElem? hm, hsetter.symm, hgetter⟩

/-- The setter of a default entry can take its default value. -/
theorem storable_defaultEntry {D : Type} (platform : Platform D) {info : RecordInfoId}
    {field : FieldInfo} (hfield : field ∈ recordFields info) :
    Storable platform info (defaultEntry field)
      (defaultValue platform info field.defValGetter) := by
  obtain ⟨m, hm, hsetter, hgetter⟩ := exists_member_of_mem hfield
  have hdefault : defaultValue platform info field.defValGetter = m.type.genericValue platform := by
    have hinj := List.inj_on_of_nodup_map (nodup_defValName info)
    unfold defaultValue
    rcases hfind : (members info).find? fun m => defValName info m = field.defValGetter with _ | m'
    · have hnone := List.find?_eq_none.mp hfind m hm
      simp [hgetter] at hnone
    · have hname : defValName info m' = field.defValGetter := by simpa using List.find?_some hfind
      obtain rfl := hinj (List.mem_of_find?_eq_some hfind) hm (hname.trans hgetter)
      rfl
  have hcalled : (defaultEntry field).calledSetter = some (some field.setter) := by
    have hvoid : (defaultEntry field).IsVoid := by
      show (0 : Int32) &&& fidMaskSerialization = fidVoid
      decide
    rw [FieldDigest.calledSetter, if_pos hvoid]
    exact if_pos ⟨rfl, rfl⟩
  unfold Storable
  rw [hcalled, hsetter, hdefault]
  refine ⟨m, findMember_setterName hm, ?_⟩
  exact m.type.isSome_load_genericValue platform

/-- The entries of a digest of a session. -/
theorem forall_sessionDigest_iff {record : RecordItem} {earlier : List (List FieldDescription)}
    {last : List FieldDescription} :
    (∀ entry ∈ (sessionDigest record (earlier ++ [last])).elements, entry.IsExecutable) ↔
      ∀ field ∈ last, ¬ field.IsVoid := by
  rw [sessionDigest_concat]
  constructor
  · intro h field hfield
    have hentry := h _ (List.mem_append_left _ (List.mem_map_of_mem hfield))
    exact (isExecutable_fieldEntry_iff record field).mp hentry
  · intro h entry hentry
    rcases List.mem_append.mp hentry with hdescribed | hdefault
    · obtain ⟨field, hfield, rfl⟩ := List.mem_map.mp hdescribed
      exact (isExecutable_fieldEntry_iff record field).mpr (h field hfield)
    · exact isExecutable_of_mem_defaultEntries entry hdefault

/-- Every entry of a digest in sync can be executed. -/
def DigestsExecutable (records : RecordList) (history : List ServerStep) : Prop :=
  ∀ recordId digest, (ServerInfo.after records history).digest recordId = some digest →
    digest.inSyncWithServer = true → ∀ entry ∈ digest.elements, entry.IsExecutable

/-- The latest description of each record in the session has only fields with a serialization. -/
def NoVoidFields (records : RecordList) (history : List ServerStep) : Prop :=
  ∀ recordId record, IsRecord records recordId (some record) →
    ∀ fields, (sessionLists records history recordId).getLast? = some fields →
      ∀ field ∈ fields, ¬ field.IsVoid

/-- Every digest belongs to a record. -/
theorem exists_isRecord_of_digest {info : ServerInfo} (hsync : info.InSync) {recordId : RecordId}
    {digest : RecordDigest} (h : info.digest recordId = some digest) :
    ∃ record, IsRecord info.recordsList recordId (some record) := by
  have hdigest : atRecordId info.recordDigests recordId = some digest := h
  unfold atRecordId at hdigest
  split_ifs at hdigest with hneg
  obtain ⟨hlt, -⟩ := List.getElem?_eq_some_iff.mp hdigest
  rw [hsync.digests] at hlt
  refine ⟨info.recordsList.elements[recordId.toInt.toNat], ?_⟩
  rw [IsRecord, atRecordId, if_neg hneg, List.getElem?_eq_getElem hlt]

/-- The digests in sync can be executed if and only if the latest descriptions of the session have
no field without a serialization. -/
theorem digestsExecutable_iff (records : RecordList) (hproper : records.IsProper)
    (history : List ServerStep) (hsucceed : AllSucceed records history) :
    DigestsExecutable records history ↔ NoVoidFields records history := by
  have htracks := tracks_after hproper hsucceed
  constructor
  · intro h recordId record hrecord fields hfields
    obtain ⟨earlier, hlists⟩ := List.getLast?_eq_some_iff.mp hfields
    have hdigest := htracks.digest recordId record hrecord
    rw [hlists] at hdigest
    have hsync : (sessionDigest record (earlier ++ [fields])).inSyncWithServer = true := by
      rw [sessionDigest_concat]
    exact forall_sessionDigest_iff.mp (h recordId _ hdigest hsync)
  · intro h recordId digest hdigest hsync
    obtain ⟨record, hrecord⟩ := exists_isRecord_of_digest htracks.sync hdigest
    rw [htracks.list] at hrecord
    rw [htracks.digest recordId record hrecord] at hdigest
    obtain rfl := Option.some.inj hdigest
    rcases List.eq_nil_or_concat (sessionLists records history recordId) with hnil | hconcat
    · -- without a description the digest is not in sync
      rw [hnil] at hsync
      exact absurd hsync Bool.false_ne_true
    · obtain ⟨earlier, last, hlists⟩ := hconcat
      rw [List.concat_eq_append] at hlists
      rw [hlists]
      refine forall_sessionDigest_iff.mpr (h recordId record hrecord last ?_)
      rw [hlists, List.getLast?_concat]

theorem digestsExecutable_relisting :
    DigestsExecutable configurationRecords relistingHistory ↔
      NoVoidFields configurationRecords relistingHistory := by
  refine digestsExecutable_iff configurationRecords configurationRecords_fromTables.isProper
    relistingHistory ?_
  rw [allSucceed_iff]
  decide

/-- A field of the type `0x10`, a decimal without a serialization. -/
def voidField : FieldDescription := ⟨some (wideString "Object"), fidFlagDecimal⟩

/-- Such a field is accepted, and its entry has no setter and no getter. -/
theorem not_digestsExecutable_voidField :
    AllSucceed configurationRecords [configurationStep [voidField]] ∧
      ¬ DigestsExecutable configurationRecords [configurationStep [voidField]] := by
  refine ⟨(allSucceed_iff _ _).mpr (by decide), fun h => ?_⟩
  have hdigest : (ServerInfo.after configurationRecords [configurationStep [voidField]]).digest 0 =
      some (sessionDigest ⟨wideString "Configuration", dxFieldsConfiguration⟩ [[voidField]]) := by
    decide
  have hentry := h 0 _ hdigest (by decide) ⟨fidFlagDecimal, 0, none, none⟩ (by decide)
  exact absurd (hentry (by decide)).1 Bool.false_ne_true

end DxFeed.ServerMessageProcessor
