import DxFeed.ServerMessageProcessor.RecordIdWrites

/-!
# Which record does a server id stand for?

The server binds ids to record names with describe-records messages, and a new session starts
with `dx_clear_server_info`.

* `ServerInfo.InSync`: the lists of the message processor are as long as the list of records;
* `returns_processRecordDescription`: which record descriptions are accepted;
* `marks`: the bindings and session starts of a history;
* `boundRecord`: the record whose name the server bound last to an id in the session;
* `ServerInfo.after_spec`: the map is that of the bindings to known records in all sessions;
* `getRecordId_eq_boundRecord_iff`: the code answers with that record if and only if the last
  binding of the id to a known record is not void and its place is not too large for a record id.
-/

namespace DxFeed.ServerMessageProcessor

open Call ServerLocalRecordIdMap

/-! ### Frames -/

/-- What filling the digest of a record does not change. -/
def ServerInfo.shape (info : ServerInfo) : ServerLocalRecordIdMap × RecordList × ℕ × ℕ :=
  (info.recordIdMap, info.recordsList, info.recordServerSupportStates.length,
    info.recordDigests.length)

theorem keeps_modifyDigest (recordId : RecordId) (f : RecordDigest → RecordDigest) :
    Keeps ServerInfo.shape (modifyDigest recordId f) :=
  keeps_modify fun _ => by simp [ServerInfo.shape]

theorem keeps_modifySupportState (recordId : RecordId) (f : Int32 → Int32) :
    Keeps ServerInfo.shape (modifySupportState recordId f) :=
  keeps_modify fun _ => by simp [ServerInfo.shape]

theorem keeps_createFieldDigest (recordId : RecordId) (recordInfo : Option RecordItem)
    (field : FieldDescription) :
    Keeps ServerInfo.shape (createFieldDigest recordId recordInfo field) := by
  unfold createFieldDigest
  split_ifs
  · exact keeps_throw _
  · cases recordInfo with
    | none => exact keeps_pure _
    | some record =>
        dsimp only
        split
        · exact keeps_pure _
        · refine keeps_get_bind fun s => ?_
          split
          · exact (keeps_modifySupportState _ _).bind (fun _ => keeps_pure _) s
          · rfl

theorem keeps_appendFieldDigest (recordId : RecordId) (digest : Option FieldDigest) :
    Keeps ServerInfo.shape (appendFieldDigest recordId digest) := by
  cases digest with
  | none => exact keeps_pure _
  | some digest => exact keeps_modifyDigest _ _

theorem keeps_fillFields (recordId : RecordId) (recordInfo : Option RecordItem) (n : ℕ)
    (fields : List FieldDescription) :
    Keeps ServerInfo.shape (fillFields recordId recordInfo n fields) := by
  induction n generalizing fields with
  | zero => exact keeps_pure _
  | succ n ih =>
      cases fields with
      | nil => exact keeps_throw _
      | cons field fields =>
          exact (keeps_createFieldDigest _ _ _).bind fun digest =>
            (keeps_appendFieldDigest _ digest).bind fun _ => ih fields

theorem keeps_digestUnsupportedFields (recordId : RecordId) (recordInfo : Option RecordItem) :
    Keeps ServerInfo.shape (digestUnsupportedFields recordId recordInfo) := by
  cases recordInfo with
  | none => exact keeps_pure _
  | some record =>
      refine keeps_get_bind fun s => ?_
      split
      · rfl
      · split_ifs <;> rfl
      · exact keeps_modifyDigest _ _ s

theorem keeps_markInSync (recordId : RecordId) : Keeps ServerInfo.shape (markInSync recordId) := by
  refine keeps_get_bind fun s => ?_
  split_ifs
  · split
    · rfl
    · exact keeps_modifyDigest _ _ s
  · rfl

theorem keeps_fillRecordDigest (recordId : RecordId) (recordInfo : Option RecordItem) (n : ℕ)
    (fields : List FieldDescription) :
    Keeps ServerInfo.shape (fillRecordDigest recordId recordInfo n fields) :=
  (keeps_fillFields _ _ _ _).bind fun _ =>
    (keeps_digestUnsupportedFields _ _).bind fun _ => keeps_markInSync _

theorem keeps_renewRecordDigest (recordId : RecordId) (d : RecordDescription) :
    Keeps ServerInfo.shape (renewRecordDigest recordId d) := by
  refine keeps_get_bind fun s => ?_
  split
  · exact (keeps_modifyDigest _ _).bind (fun _ => keeps_fillRecordDigest _ _ _ _) s
  · rfl

/-! ### Accepted descriptions -/

/-- The lists of the message processor are as long as the list of records. -/
structure ServerInfo.InSync (info : ServerInfo) : Prop where
  states : info.recordServerSupportStates.length = info.recordsList.elements.length
  digests : info.recordDigests.length = info.recordsList.elements.length

/-- An equal shape is in sync as well. -/
theorem ServerInfo.InSync.of_shape {info info' : ServerInfo} (h : info.InSync)
    (hshape : info'.shape = info.shape) : info'.InSync := by
  simp only [ServerInfo.shape, Prod.mk.injEq] at hshape
  obtain ⟨-, hlist, hstates, hdigests⟩ := hshape
  exact ⟨by rw [hstates, hlist, h.states], by rw [hdigests, hlist, h.digests]⟩

theorem ServerInfo.fresh_inSync (records : RecordList) : (ServerInfo.fresh records).InSync :=
  ⟨List.length_map _, List.length_map _⟩

/-- The local record that a description is about. -/
def IsRecord (recordsList : RecordList) (recordId : RecordId) : Option RecordItem → Prop
  | none => recordId = recordIdInvalid
  | some record => atRecordId recordsList.elements recordId = some record

/-- Lists of one length have the same record ids. -/
theorem atRecordId_eq_some {α β : Type} {l : List α} {l' : List β} {recordId : RecordId} {a : α}
    (h : atRecordId l recordId = some a) (hlen : l'.length = l.length) :
    0 ≤ recordId.toInt ∧ ∃ b, atRecordId l' recordId = some b := by
  unfold atRecordId at h ⊢
  split_ifs at h with hneg
  obtain ⟨hlt, -⟩ := List.getElem?_eq_some_iff.mp h
  refine ⟨by omega, l'[recordId.toInt.toNat], ?_⟩
  rw [if_neg hneg]
  exact List.getElem?_eq_getElem (hlen ▸ hlt)

theorem findRecordField_lt {record : RecordItem} {fieldName : WString} {fieldType : Int32}
    {index : ℕ} (h : findRecordField record fieldName fieldType = some index) :
    index < record.fields.length :=
  (List.findIdx?_eq_some_iff_findIdx_eq.mp h).1

variable {info : ServerInfo} {recordId : RecordId} {recordInfo : Option RecordItem}

theorem returns_createFieldDigest (hsync : info.InSync)
    (hrecord : IsRecord info.recordsList recordId recordInfo) (field : FieldDescription) :
    Returns (createFieldDigest recordId recordInfo field) info ↔ field.isCorrupted = false := by
  unfold createFieldDigest
  split_ifs with hcorrupted
  · simp [hcorrupted]
  · refine iff_of_true ?_ (by simpa using hcorrupted)
    cases recordInfo with
    | none => exact returns_pure _ _
    | some record =>
        dsimp only
        split
        · exact returns_pure _ _
        · rename_i index hindex
          obtain ⟨-, state, hstate⟩ := atRecordId_eq_some hrecord hsync.states
          have hfield := List.getElem?_eq_getElem (findRecordField_lt hindex)
          rw [returns_bind]
          refine ⟨info, info, exec_get info, ?_⟩
          rw [hstate, hfield]
          exact ⟨_, rfl⟩

theorem returns_appendFieldDigest (digest : Option FieldDigest) :
    Returns (appendFieldDigest recordId digest) info := by
  cases digest with
  | none => exact returns_pure _ _
  | some digest => exact returns_modify _ _

/-- The message contains the fields it announces, and none of them is corrupted. -/
def FieldsAccepted (n : ℕ) (fields : List FieldDescription) : Prop :=
  n ≤ fields.length ∧ ∀ field ∈ fields.take n, field.isCorrupted = false

instance (n : ℕ) (fields : List FieldDescription) : Decidable (FieldsAccepted n fields) :=
  inferInstanceAs (Decidable (_ ∧ _))

theorem fieldsAccepted_cons {n : ℕ} {field : FieldDescription} {fields : List FieldDescription} :
    FieldsAccepted (n + 1) (field :: fields) ↔
      field.isCorrupted = false ∧ FieldsAccepted n fields := by
  simp [FieldsAccepted, and_left_comm]

theorem returns_fillFields (hsync : info.InSync)
    (hrecord : IsRecord info.recordsList recordId recordInfo) (n : ℕ)
    (fields : List FieldDescription) :
    Returns (fillFields recordId recordInfo n fields) info ↔ FieldsAccepted n fields := by
  induction n generalizing fields info with
  | zero => simp [fillFields, FieldsAccepted]
  | succ n ih =>
      cases fields with
      | nil => simp [fillFields, FieldsAccepted]
      | cons field fields =>
          rw [fillFields, fieldsAccepted_cons, ← returns_createFieldDigest hsync hrecord]
          refine returns_bind_of_keeps (keeps_createFieldDigest _ _ _) fun digest info₁ h₁ => ?_
          have hP : Returns (appendFieldDigest recordId digest) info₁ ∧ FieldsAccepted n fields ↔
              FieldsAccepted n fields := and_iff_right (returns_appendFieldDigest digest)
          rw [← hP]
          refine returns_bind_of_keeps (keeps_appendFieldDigest _ _) fun _ info₂ h₂ => ?_
          have hshape := h₂.trans h₁
          have hlist : info₂.recordsList = info.recordsList := congrArg (fun x => x.2.1) hshape
          exact ih (hsync.of_shape hshape) (hlist ▸ hrecord) fields

theorem returns_digestUnsupportedFields (hsync : info.InSync)
    (hrecord : IsRecord info.recordsList recordId recordInfo) :
    Returns (digestUnsupportedFields recordId recordInfo) info := by
  cases recordInfo with
  | none => exact returns_pure _ _
  | some record =>
      obtain ⟨-, digest, hdigest⟩ := atRecordId_eq_some hrecord hsync.digests
      obtain ⟨-, state, hstate⟩ := atRecordId_eq_some hrecord hsync.states
      rw [digestUnsupportedFields, returns_get_bind, hdigest, hstate]
      exact returns_modify _ _

theorem returns_markInSync (hsync : info.InSync)
    (hrecord : IsRecord info.recordsList recordId recordInfo) :
    Returns (markInSync recordId) info := by
  rw [markInSync, returns_get_bind]
  cases recordInfo with
  | none =>
      rw [show recordId = recordIdInvalid from hrecord, if_neg (by decide)]
      exact returns_pure _ _
  | some record =>
      obtain ⟨-, digest, hdigest⟩ := atRecordId_eq_some hrecord hsync.digests
      rw [hdigest]
      split_ifs
      · exact returns_modify _ _
      · exact returns_pure _ _

theorem returns_fillRecordDigest (hsync : info.InSync)
    (hrecord : IsRecord info.recordsList recordId recordInfo) (n : ℕ)
    (fields : List FieldDescription) :
    Returns (fillRecordDigest recordId recordInfo n fields) info ↔ FieldsAccepted n fields := by
  have hrest : ∀ info' : ServerInfo, info'.shape = info.shape →
      info'.InSync ∧ IsRecord info'.recordsList recordId recordInfo := by
    intro info' hshape
    have hlist : info'.recordsList = info.recordsList := congrArg (fun x => x.2.1) hshape
    exact ⟨hsync.of_shape hshape, hlist ▸ hrecord⟩
  rw [fillRecordDigest, ← returns_fillFields hsync hrecord,
    returns_bind_of_keeps (P := True) (keeps_fillFields _ _ _ _), and_true]
  intro _ info₁ h₁
  refine (returns_bind_of_keeps (P := True) (keeps_digestUnsupportedFields _ _) ?_).trans ?_
  · intro _ info₂ h₂
    obtain ⟨hsync₂, hrecord₂⟩ := hrest info₂ (h₂.trans h₁)
    exact iff_true_intro (returns_markInSync hsync₂ hrecord₂)
  · obtain ⟨hsync₁, hrecord₁⟩ := hrest info₁ h₁
    simp [returns_digestUnsupportedFields hsync₁ hrecord₁]

theorem getRecordIdByName_ne_invalid {records : RecordList} {name : WString}
    (h : getRecordIdByName records name ≠ recordIdInvalid) :
    ∃ record, IsRecord records (getRecordIdByName records name) (some record) := by
  unfold getRecordIdByName at h ⊢
  split at h
  · rename_i i hi
    obtain ⟨hlt, -⟩ := List.findIdx?_eq_some_iff_findIdx_eq.mp hi
    have hint : (Int32.ofNat i).toInt = i := Int32.toInt_ofNat_of_lt (hlt.trans records.bounded)
    refine ⟨records.elements[i], ?_⟩
    show atRecordId records.elements (Int32.ofNat i) = _
    rw [atRecordId, hint, if_neg (by omega), Int.toNat_natCast]
    exact List.getElem?_eq_getElem hlt
  · exact absurd rfl h

/-- A record description that the processor accepts. -/
def RecordDescription.isAccepted (d : RecordDescription) : Bool :=
  !d.isCorrupted && decide (FieldsAccepted d.serverFieldCount.toInt.toNat d.fields)

/-- The name in the header of a description. -/
def RecordDescription.name (d : RecordDescription) : WString :=
  d.recordName.getD []

/-- The map after an id has been bound to a name. -/
def bindName (records : RecordList) (map : ServerLocalRecordIdMap) (id : Int32) (name : WString) :
    ServerLocalRecordIdMap :=
  let localRecordId := getRecordIdByName records name
  if localRecordId = recordIdInvalid then map
  else map.assignServerRecordId localRecordId id

theorem returns_renewRecordDigest (hsync : info.InSync) {record : RecordItem}
    (hrecord : IsRecord info.recordsList recordId (some record)) (d : RecordDescription) :
    Returns (renewRecordDigest recordId d) info ↔
      FieldsAccepted d.serverFieldCount.toInt.toNat d.fields := by
  obtain ⟨-, digest, hdigest⟩ := atRecordId_eq_some hrecord hsync.digests
  have hitem : atRecordId info.recordsList.elements recordId = some record := hrecord
  rw [renewRecordDigest, returns_get_bind, hitem, hdigest]
  refine (returns_bind_of_keeps (keeps_modifyDigest _ _) fun _ info₁ h₁ => ?_).trans
    (and_iff_right (returns_modify _ _))
  have hlist : info₁.recordsList = info.recordsList := congrArg (fun x => x.2.1) h₁
  exact returns_fillRecordDigest (hsync.of_shape h₁) (hlist ▸ hrecord) _ _

/-- What one record description does: it binds its id if its header is not corrupted, and
succeeds if it is accepted. -/
theorem processRecordDescription_spec (hsync : info.InSync) (d : RecordDescription) :
    let info' := (exec (processRecordDescription d) info).2
    info'.InSync ∧ info'.recordsList = info.recordsList ∧
      info'.recordIdMap =
        (if d.isCorrupted then info.recordIdMap
          else bindName info.recordsList info.recordIdMap d.serverRecordId d.name) ∧
      (Returns (processRecordDescription d) info ↔ d.isAccepted = true) := by
  unfold processRecordDescription RecordDescription.isAccepted bindName RecordDescription.name
  by_cases hcorrupted : d.isCorrupted = true
  · rw [if_pos hcorrupted, if_pos hcorrupted]
    exact ⟨hsync, rfl, rfl, by simp [hcorrupted]⟩
  rw [if_neg hcorrupted, if_neg hcorrupted]
  by_cases hknown : getRecordIdByName info.recordsList (d.recordName.getD []) = recordIdInvalid
  · rw [exec_bind_ok (exec_get info), returns_get_bind]
    dsimp only
    rw [if_pos hknown, if_pos hknown]
    have hshape := keeps_fillRecordDigest (getRecordIdByName info.recordsList
      (d.recordName.getD [])) none d.serverFieldCount.toInt.toNat d.fields info
    refine ⟨hsync.of_shape hshape, congrArg (fun x => x.2.1) hshape,
      congrArg Prod.fst hshape, ?_⟩
    have hrecord : IsRecord info.recordsList
      (getRecordIdByName info.recordsList (d.recordName.getD [])) none := hknown
    rw [returns_fillRecordDigest hsync hrecord]
    simp [hcorrupted]
  · rw [exec_bind_ok (exec_get info), returns_get_bind]
    dsimp only
    rw [if_neg hknown, if_neg hknown]
    obtain ⟨record, hrecord⟩ := getRecordIdByName_ne_invalid hknown
    set recordId := getRecordIdByName info.recordsList (d.recordName.getD [])
    set assigned : ServerInfo := { info with
      recordIdMap := info.recordIdMap.assignServerRecordId recordId d.serverRecordId }
      with hassigned
    have hassign : exec (modify fun info : ServerInfo => { info with
        recordIdMap := info.recordIdMap.assignServerRecordId recordId d.serverRecordId } :
        InfoCall PUnit) info = (.ok ⟨⟩, assigned) := rfl
    have hsync' : assigned.InSync := ⟨hsync.states, hsync.digests⟩
    have hshape := keeps_renewRecordDigest recordId d assigned
    rw [exec_bind_ok hassign]
    refine ⟨hsync'.of_shape hshape, congrArg (fun x => x.2.1) hshape, congrArg Prod.fst hshape, ?_⟩
    rw [returns_bind]
    constructor
    · rintro ⟨_, _, h, hret⟩
      rw [hassign] at h
      obtain ⟨-, rfl⟩ := Prod.mk.inj h
      have haccepted := (returns_renewRecordDigest hsync' hrecord d).mp hret
      simpa [hcorrupted] using haccepted
    · intro haccepted
      refine ⟨_, _, hassign, (returns_renewRecordDigest hsync' hrecord d).mpr ?_⟩
      simpa [hcorrupted] using haccepted

theorem clearServerInfo_spec (hsync : info.InSync) :
    let info' := (exec clearServerInfo info).2
    info'.InSync ∧ info'.recordsList = info.recordsList ∧ info'.recordIdMap = info.recordIdMap := by
  rw [clearServerInfo, exec_bind_ok (exec_get info), if_neg (by rw [hsync.states]; omega)]
  refine ⟨⟨?_, List.length_map _⟩, rfl, rfl⟩
  show (_ ++ _ : List Int32).length = info.recordsList.elements.length
  rw [List.length_append, List.length_map, List.length_drop, hsync.states, Nat.sub_self,
    Nat.add_zero]

/-! ### Histories -/

/-- What happens to the server info: messages of the server, and new sessions. -/
inductive ServerStep
  | describeRecords (message : List RecordDescription)
  | clearServerInfo
  deriving DecidableEq, Repr

/-- The server info after a step, whether the call succeeds or not. -/
def ServerInfo.apply (info : ServerInfo) : ServerStep → ServerInfo
  | .describeRecords message => (exec (processDescribeRecords message) info).2
  | .clearServerInfo => (exec clearServerInfo info).2

/-- The server info of a connection after some steps. -/
def ServerInfo.after (records : RecordList) (history : List ServerStep) : ServerInfo :=
  history.foldl ServerInfo.apply (.fresh records)

/-- What a history says about ids. -/
inductive Mark
  | bound (id : Int32) (name : WString)
  | cleared
  deriving DecidableEq, Repr

/-- The bindings of a message: those of its accepted descriptions, and the one of the first
description whose fields are not accepted. -/
def messageMarks : List RecordDescription → List Mark
  | [] => []
  | d :: message =>
      if d.isCorrupted then []
      else .bound d.serverRecordId d.name :: if d.isAccepted then messageMarks message else []

def ServerStep.marks : ServerStep → List Mark
  | .describeRecords message => messageMarks message
  | .clearServerInfo => [.cleared]

def marks (history : List ServerStep) : List Mark :=
  history.flatMap ServerStep.marks

/-- The map of the code after a mark: a name that is not known does not count, and a new session
changes nothing. -/
def retainMark (records : RecordList) (map : ServerLocalRecordIdMap) :
    Mark → ServerLocalRecordIdMap
  | .bound id name => bindName records map id name
  | .cleared => map

theorem processDescribeRecords_spec (hsync : info.InSync) (message : List RecordDescription) :
    let info' := (exec (processDescribeRecords message) info).2
    info'.InSync ∧ info'.recordsList = info.recordsList ∧
      info'.recordIdMap =
        (messageMarks message).foldl (retainMark info.recordsList) info.recordIdMap := by
  induction message generalizing info with
  | nil => exact ⟨hsync, rfl, rfl⟩
  | cons d message ih =>
      obtain ⟨hsync₁, hlist₁, hmap₁, hret⟩ := processRecordDescription_spec hsync d
      obtain ⟨hsync', hlist', hmap'⟩ := ih hsync₁
      rw [processDescribeRecords, exec_bind, messageMarks]
      rcases hexec : exec (processRecordDescription d) info with ⟨e | u, info₁⟩
      · rw [hexec] at hsync₁ hlist₁ hmap₁
        have hrejected : d.isAccepted = false := by
          rw [← Bool.not_eq_true, ← hret]
          rintro ⟨_, h⟩
          rw [hexec] at h
          cases h
        refine ⟨hsync₁, hlist₁, hmap₁.trans ?_⟩
        rw [hrejected, if_neg Bool.false_ne_true]
        split_ifs <;> rfl
      · rw [hexec] at hsync' hlist' hmap' hlist₁ hmap₁
        have haccepted : d.isAccepted = true := hret.mp ⟨u, by rw [hexec]⟩
        have hheader : ¬ d.isCorrupted = true := by
          intro h
          simp [RecordDescription.isAccepted, h] at haccepted
        refine ⟨hsync', hlist'.trans hlist₁, hmap'.trans ?_⟩
        dsimp only at hmap₁ hlist₁
        rw [hmap₁, if_neg hheader, hlist₁, if_neg hheader, if_pos haccepted]
        rfl

theorem ServerInfo.apply_spec (hsync : info.InSync) (step : ServerStep) :
    (info.apply step).InSync ∧ (info.apply step).recordsList = info.recordsList ∧
      (info.apply step).recordIdMap =
        step.marks.foldl (retainMark info.recordsList) info.recordIdMap := by
  cases step with
  | describeRecords message => exact processDescribeRecords_spec hsync message
  | clearServerInfo => exact clearServerInfo_spec hsync

/-- The assignment of a mark, if it has one: that of a binding to a known record. -/
def Mark.assignment (records : RecordList) : Mark → Option Assignment
  | .bound id name =>
      let localRecordId := getRecordIdByName records name
      if localRecordId = recordIdInvalid then none else some ⟨localRecordId, id⟩
  | .cleared => none

/-- The assignments of a history, in all its sessions. -/
def assignments (records : RecordList) (ms : List Mark) : List Assignment :=
  ms.filterMap (Mark.assignment records)

theorem foldl_retainMark (records : RecordList) (ms : List Mark) :
    ms.foldl (retainMark records) .empty = ServerLocalRecordIdMap.after (assignments records ms) := by
  induction ms using List.reverseRecOn with
  | nil => rfl
  | append_singleton ms m ih =>
      have hconcat : assignments records (ms ++ [m]) =
          assignments records ms ++ (m.assignment records).toList := by
        rw [assignments, List.filterMap_append]
        cases hm : m.assignment records <;> simp [assignments, hm]
      rw [List.foldl_concat, ih, hconcat]
      cases m with
      | cleared => rw [Mark.assignment, Option.toList_none, List.append_nil, retainMark]
      | bound id name =>
          by_cases hknown : getRecordIdByName records name = recordIdInvalid
          · simp [retainMark, bindName, Mark.assignment, hknown]
          · simp [retainMark, bindName, Mark.assignment, hknown, after_concat]

/-- The map of the code, from the marks of the history. -/
theorem ServerInfo.after_spec (records : RecordList) (history : List ServerStep) :
    (ServerInfo.after records history).InSync ∧
      (ServerInfo.after records history).recordsList = records ∧
      (ServerInfo.after records history).recordIdMap =
        (marks history).foldl (retainMark records) .empty := by
  induction history using List.reverseRecOn with
  | nil => exact ⟨ServerInfo.fresh_inSync records, rfl, rfl⟩
  | append_singleton history step ih =>
      obtain ⟨hsync, hlist, hmap⟩ := ih
      obtain ⟨hsync', hlist', hmap'⟩ := ServerInfo.apply_spec hsync step
      have hafter : ServerInfo.after records (history ++ [step]) =
          (ServerInfo.after records history).apply step := List.foldl_concat ..
      have hmarks : marks (history ++ [step]) = marks history ++ step.marks := by simp [marks]
      rw [hafter]
      refine ⟨hsync', hlist'.trans hlist, hmap'.trans ?_⟩
      rw [hlist, hmap, hmarks, List.foldl_append]

/-! ### The binding of a session -/

/-- The names bound in the current session after a mark. -/
def sessionMark (names : Int32 → Option WString) : Mark → Int32 → Option WString
  | .bound id name => Function.update names id (some name)
  | .cleared => fun _ => none

/-- The names that the server bound to ids in the current session. -/
def boundNames (marks : List Mark) : Int32 → Option WString :=
  marks.foldl sessionMark fun _ => none

/-- The record whose name the server bound last to an id in the current session. -/
def boundRecord (records : RecordList) (history : List ServerStep) (id : Int32) : RecordId :=
  ((boundNames (marks history) id).map (getRecordIdByName records)).getD recordIdInvalid

/-- A mark that makes an earlier binding of the id void. -/
def Mark.Voids (id : Int32) : Mark → Prop
  | .bound id' _ => id' = id
  | .cleared => True

instance (id : Int32) : DecidablePred (Mark.Voids id)
  | .bound id' _ => inferInstanceAs (Decidable (id' = id))
  | .cleared => isTrue trivial

/-- A mark that binds the id to a known record. -/
def Mark.Binds (records : RecordList) (id : Int32) : Mark → Prop
  | .bound id' name => id' = id ∧ getRecordIdByName records name ≠ recordIdInvalid
  | .cleared => False

/-- After the last binding of the id to a known record there is neither a new session nor a
binding of the id to an unknown name. -/
def LastBindingStands (records : RecordList) (id : Int32) (ms : List Mark) : Prop :=
  ∀ l₁ m l₂, ms = l₁ ++ m :: l₂ → m.Binds records id → (∀ m' ∈ l₂, ¬ m'.Binds records id) →
    ∀ m' ∈ l₂, ¬ m'.Voids id

variable {records : RecordList} {id : Int32} {ms l : List Mark}

/-- Marks that do not bind the id do not change what the map of the code holds for it. -/
theorem retain_of_not_binds (map : ServerLocalRecordIdMap)
    (h : ∀ m ∈ l, ¬ m.Binds records id) :
    (l.foldl (retainMark records) map).held id = map.held id := by
  induction l generalizing map with
  | nil => rfl
  | cons m l ih =>
      rw [List.foldl_cons, ih _ fun m' hm' => h m' (List.mem_cons_of_mem _ hm')]
      have hm := h m List.mem_cons_self
      cases m with
      | cleared => rfl
      | bound id' name =>
          by_cases hknown : getRecordIdByName records name = recordIdInvalid
          · simp [retainMark, bindName, hknown]
          · have hne : id ≠ id' := fun heq => hm ⟨heq.symm, hknown⟩
            simp [retainMark, bindName, hknown, held_assign, Function.update_of_ne hne]

/-- Marks that do not void the id do not change its name. -/
theorem session_of_not_voids (names : Int32 → Option WString) (h : ∀ m ∈ l, ¬ m.Voids id) :
    l.foldl sessionMark names id = names id := by
  induction l generalizing names with
  | nil => rfl
  | cons m l ih =>
      rw [List.foldl_cons, ih _ fun m' hm' => h m' (List.mem_cons_of_mem _ hm')]
      have hm := h m List.mem_cons_self
      cases m with
      | cleared => exact absurd trivial hm
      | bound id' name => exact Function.update_of_ne (fun heq => hm heq.symm) _ _

/-- If marks void the id and do not bind it to a known record, the session knows no record for
it. -/
theorem session_of_voids (names : Int32 → Option WString) (hvoids : ∃ m ∈ l, m.Voids id)
    (h : ∀ m ∈ l, ¬ m.Binds records id) :
    ((l.foldl sessionMark names id).map (getRecordIdByName records)).getD recordIdInvalid =
      recordIdInvalid := by
  induction l using List.reverseRecOn with
  | nil => simp at hvoids
  | append_singleton l m ih =>
      rw [List.foldl_concat]
      have hm := h m (by simp)
      cases m with
      | cleared => rfl
      | bound id' name =>
          by_cases heq : id' = id
          · subst heq
            have hknown : getRecordIdByName records name = recordIdInvalid := by
              by_contra hne
              exact hm ⟨rfl, hne⟩
            simp [sessionMark, hknown]
          · obtain ⟨m', hm', hv⟩ := hvoids
            have hmem : m' ∈ l := by
              rcases List.mem_append.mp hm' with hl | hl
              · exact hl
              · rw [List.mem_singleton.mp hl] at hv
                exact absurd hv heq
            rw [sessionMark, Function.update_of_ne (Ne.symm heq)]
            exact ih ⟨m', hmem, hv⟩ fun m' hm' => h m' (List.mem_append_left _ hm')

/-- A list of marks has a last binding of the id to a known record, or none. -/
theorem last_binding (records : RecordList) (id : Int32) (ms : List Mark) :
    (∀ m ∈ ms, ¬ m.Binds records id) ∨
    ∃ l₁ m l₂, ms = l₁ ++ m :: l₂ ∧ m.Binds records id ∧ ∀ m' ∈ l₂, ¬ m'.Binds records id := by
  induction ms with
  | nil => exact Or.inl fun m hm => absurd hm List.not_mem_nil
  | cons m ms ih =>
      rcases ih with h | ⟨l₁, m', l₂, rfl, hb, h⟩
      · by_cases hm : m.Binds records id
        · exact Or.inr ⟨[], m, ms, rfl, hm, h⟩
        · refine Or.inl fun m' hm' => ?_
          rcases List.mem_cons.mp hm' with rfl | hm'
          · exact hm
          · exact h m' hm'
      · exact Or.inr ⟨m :: l₁, m', l₂, rfl, hb, h⟩

/-- Two last bindings of an id are the same. -/
theorem last_binding_unique {l₁ l₂ l₁' l₂' : List Mark} {m m' : Mark}
    (h : l₁ ++ m :: l₂ = l₁' ++ m' :: l₂') (hm : m.Binds records id) (hm' : m'.Binds records id)
    (hl : ∀ x ∈ l₂, ¬ x.Binds records id) (hl' : ∀ x ∈ l₂', ¬ x.Binds records id) :
    l₂ = l₂' := by
  rcases List.append_eq_append_iff.mp h with ⟨as, rfl, has⟩ | ⟨bs, rfl, hbs⟩
  · cases as with
    | nil => simp at has; exact has.2
    | cons a as =>
        obtain ⟨-, rfl⟩ := List.cons.inj has
        exact absurd hm' (hl m' (by simp))
  · cases bs with
    | nil => simp at hbs; exact hbs.2.symm
    | cons b bs =>
        obtain ⟨-, rfl⟩ := List.cons.inj hbs
        exact absurd hm (hl' m (by simp))

/-- The map of the code holds the record that the server bound last to the id in the session if and
only if the last binding of the id to a known record stands. -/
theorem held_eq_boundRecord_iff (records : RecordList) (history : List ServerStep) (id : Int32) :
    (ServerInfo.after records history).recordIdMap.held id = boundRecord records history id ↔
      LastBindingStands records id (marks history) := by
  obtain ⟨-, -, hmap⟩ := ServerInfo.after_spec records history
  rw [hmap, boundRecord, boundNames]
  generalize marks history = ms
  rcases last_binding records id ms with hnone | ⟨l₁, m, l₂, rfl, hm, hlast⟩
  · refine iff_of_true ?_ fun l₁ m l₂ hms hm => ?_
    · rw [retain_of_not_binds _ hnone, held_empty]
      by_cases hvoids : ∃ m ∈ ms, m.Voids id
      · rw [session_of_voids _ hvoids hnone]
      · rw [session_of_not_voids _ fun m hm hv => hvoids ⟨m, hm, hv⟩]
        rfl
    · exact absurd hm (hnone m (hms ▸ by simp))
  · cases m with
    | cleared => exact hm.elim
    | bound id' name =>
        obtain ⟨rfl, hknown⟩ := hm
        rw [List.foldl_append, List.foldl_append, List.foldl_cons, List.foldl_cons,
          retain_of_not_binds _ hlast]
        have hcode : ∀ map, (retainMark records map (.bound id' name)).held id' =
            getRecordIdByName records name := fun map => by
          simp [retainMark, bindName, hknown, held_assign]
        rw [hcode]
        constructor
        · intro heq l₁' m' l₂' hms hm' hlast' x hx hv
          obtain rfl := last_binding_unique hms ⟨rfl, hknown⟩ hm' hlast hlast'
          rw [session_of_voids _ ⟨x, hx, hv⟩ hlast] at heq
          exact hknown heq
        · intro hstands
          have hvoids := hstands l₁ _ l₂ rfl ⟨rfl, hknown⟩ hlast
          rw [session_of_not_voids _ hvoids]
          simp [sessionMark]

/-- The code answers with the record that the server bound last to the id in the session if and
only if the last binding of the id to a known record stands and the reader reaches its pair: fewer
than `2 ^ 31` smaller ids outside of the array of frequent ids were bound to known records. -/
theorem getRecordId_eq_boundRecord_iff (records : RecordList) (history : List ServerStep)
    (id : Int32) :
    (ServerInfo.after records history).recordIdMap.getRecordId id =
        some (boundRecord records history id) ↔
      LastBindingStands records id (marks history) ∧
        InReach (assignments records (marks history)) id := by
  have hheld := held_eq_boundRecord_iff records history id
  obtain ⟨-, -, hmap⟩ := ServerInfo.after_spec records history
  rw [hmap, foldl_retainMark] at hheld ⊢
  rw [getRecordId_after_iff, ← held_after, hheld]

/-- A client with one record, whose name is `T`. -/
def tradeRecords : RecordList :=
  ⟨[⟨[84], []⟩], by decide⟩

/-- The server binds the id 1 to the record, and the session ends. -/
def reconnectHistory : List ServerStep :=
  [.describeRecords [⟨1, some [84], 0, []⟩], .clearServerInfo]

/-- An id of the old session still has its record. -/
theorem getRecordId_reconnect :
    (ServerInfo.after tradeRecords reconnectHistory).recordIdMap.getRecordId 1 = some 0 ∧
      boundRecord tradeRecords reconnectHistory 1 = recordIdInvalid := by
  decide

/-- An id that the server binds to an unknown name still has its record. -/
example :
    let history : List ServerStep :=
      [.describeRecords [⟨1, some [84], 0, []⟩, ⟨1, some [85], 0, []⟩]]
    (ServerInfo.after tradeRecords history).recordIdMap.getRecordId 1 = some 0 ∧
      boundRecord tradeRecords history 1 = recordIdInvalid := by
  decide

end DxFeed.ServerMessageProcessor
