import DxFeed.ClientMessageProcessor.RecordDescriptions

/-!
# The ids of the local records, over the sessions of a connection

* `RegistryRun`: registrations, describe-records messages and beginnings of sessions, in any order;
* `Answered`: the answers so far are the places of the records;
* `KeepsIds`, `RegistryRun.keepsIds`: the ids of the names, the lengths of the lists, and what has
  been described.
-/

namespace DxFeed.ClientMessageProcessor

open BufferedIO Call DataStructures ServerMessageProcessor

/-- Calls on the registry of a new connection, whose allocations fail as it is allowed: the
registry, the names with the ids that were returned for them, and the records that have been
described in this session. -/
inductive RegistryRun (allowed : FailIn → Prop) :
    Registry → List (WString × RecordId) → List RecordId → Prop
  | start : RegistryRun allowed .empty [] []
  | addOrGetRecordId {registry registry' : Registry} {answers : List (WString × RecordId)}
      {described : List RecordId} (run : RegistryRun allowed registry answers described)
      (name : WString) {failIn : FailIn} (hallowed : allowed failIn) {id : RecordId}
      (hcall : registry.addOrGetRecordId name failIn = .ok (id, registry')) :
      RegistryRun allowed registry' (answers ++ [(name, id)]) described
  | writeEventRecords {registry : Registry} {answers : List (WString × RecordId)}
      {described : List RecordId} (run : RegistryRun allowed registry answers described)
      (out : OutputContext) {r : Except DescribeError Unit} {context : DescribeContext}
      (hcall : exec writeEventRecords ⟨registry, out, described⟩ = (r, context)) :
      RegistryRun allowed context.dscc answers context.described
  | clearServerInfo {registry registry' : Registry} {answers : List (WString × RecordId)}
      {described : List RecordId} (run : RegistryRun allowed registry answers described)
      {failIn : FailIn} (hallowed : allowed failIn) {success : Bool}
      (hcall : registry.clearServerInfo failIn = .ok (success, registry')) :
      RegistryRun allowed registry' answers []

/-- The ids that were returned are the places of the records with these names, and every record has
been returned. -/
structure Answered (records : List RecordInfoItem) (answers : List (WString × RecordId)) :
    Prop where
  place : ∀ a ∈ answers, a.2 = recordIdInvalid ∨
    ∃ (i : ℕ) (record : RecordInfoItem), i < 2 ^ 31 ∧ a.2 = Int32.ofNat i ∧
      records[i]? = some record ∧ record.name = a.1
  returned : ∀ (i : ℕ) (record : RecordInfoItem), records[i]? = some record →
    (record.name, Int32.ofNat i) ∈ answers

theorem answered_nil : Answered [] [] := ⟨nofun, nofun⟩

/-- One more call. -/
theorem Answered.registration {registry registry' : Registry} {answers : List (WString × RecordId)}
    {name : WString} {id : RecordId} (hanswered : Answered registry.recordsList.elements answers)
    (h : Registry.Registration registry name id registry') :
    Answered registry'.recordsList.elements (answers ++ [(name, id)]) := by
  cases h with
  | refused _ hrecords hstates hid =>
      rw [hrecords]
      refine ⟨fun a ha => ?_, fun i record hrecord => ?_⟩
      · rcases List.mem_append.mp ha with ha | ha
        · exact hanswered.place a ha
        · rw [List.mem_singleton.mp ha]
          exact Or.inl rfl
      · exact List.mem_append_left _ (hanswered.returned i record hrecord)
  | found i record hi hrecord hname =>
      refine ⟨fun a ha => ?_, fun j r hr => ?_⟩
      · rcases List.mem_append.mp ha with ha | ha
        · exact hanswered.place a ha
        · rw [List.mem_singleton.mp ha]
          exact Or.inr ⟨i, record, hi, rfl, hrecord, hname⟩
      · exact List.mem_append_left _ (hanswered.returned j r hr)
  | added _ record hname hfields hnew hlength hrecords hstates hid =>
      have hlast : registry'.recordsList.elements[registry.recordsList.elements.length]? =
          some record := by
        rw [hrecords, List.getElem?_append_right le_rfl, Nat.sub_self]
        rfl
      refine ⟨fun a ha => ?_, fun i r hr => ?_⟩
      · rcases List.mem_append.mp ha with ha | ha
        · rcases hanswered.place a ha with hinvalid | ⟨i, r, hi, hid, hr, hrname⟩
          · exact Or.inl hinvalid
          · refine Or.inr ⟨i, r, hi, hid, ?_, hrname⟩
            obtain ⟨hilt, -⟩ := List.getElem?_eq_some_iff.mp hr
            rw [hrecords, List.getElem?_append_left hilt, hr]
        · rw [List.mem_singleton.mp ha]
          exact Or.inr ⟨_, record, hlength, rfl, hlast, hname⟩
      · rcases Nat.lt_or_ge i registry.recordsList.elements.length with hi | hi
        · rw [hrecords, List.getElem?_append_left hi] at hr
          exact List.mem_append_left _ (hanswered.returned i r hr)
        · obtain ⟨hilt, -⟩ := List.getElem?_eq_some_iff.mp hr
          rw [hrecords, List.length_append, List.length_singleton] at hilt
          obtain rfl : i = registry.recordsList.elements.length := by omega
          rw [hlast] at hr
          obtain rfl := Option.some.inj hr
          rw [hname]
          exact List.mem_append_right _ List.mem_cons_self

/-! ### Runs -/

variable {allowed : FailIn → Prop} {registry registry' : Registry}
  {answers : List (WString × RecordId)} {described : List RecordId}

/-- What a run keeps. -/
structure Reached (allowed : FailIn → Prop) (registry : Registry)
    (answers : List (WString × RecordId)) (described : List RecordId) : Prop where
  consistent : registry.Consistent
  answered : Answered registry.recordsList.elements answers
  marked : Marked registry described
  sound : (∀ failIn, allowed failIn → failIn = none) → registry.Sound

theorem RegistryRun.reached (hrun : RegistryRun allowed registry answers described) :
    Reached allowed registry answers described := by
  induction hrun with
  | start =>
      refine ⟨⟨List.nodup_nil, rfl, Nat.zero_le _, nofun⟩, answered_nil, ⟨0, rfl, rfl, le_rfl, by norm_num⟩,
        fun _ => Registry.sound_empty⟩
  | addOrGetRecordId run name hallowed hcall ih =>
      have hregistration := Registry.registration ih.consistent hcall
      refine ⟨hregistration.consistent ih.consistent, ih.answered.registration hregistration, ?_, ?_⟩
      · obtain ⟨n, hmarked⟩ := ih.marked
        cases hregistration with
        | refused _ hrecords hstates hid => exact ⟨n, hmarked.of_same hid (by rw [hrecords])⟩
        | found => exact ⟨n, hmarked⟩
        | added _ record hname hfields hnew hlength hrecords hstates hid =>
            refine ⟨n, hmarked.of_same hid ?_⟩
            rw [hrecords, List.length_append]
            exact Nat.le_add_right _ _
      · intro hnone
        obtain rfl := hnone _ hallowed
        exact Registry.addOrGetRecordId_sound (ih.sound hnone) ih.consistent hcall
  | writeEventRecords run out hcall ih =>
      have hdescribes := writeEventRecords_describes ih.marked ih.consistent.length_le hcall
      refine ⟨ih.consistent.of_sameArrays hdescribes.same, ?_, hdescribes.marked,
        fun hnone => (ih.sound hnone).of_sameArrays hdescribes.same⟩
      rw [hdescribes.same.records]
      exact ih.answered
  | clearServerInfo run hallowed hcall ih =>
      obtain ⟨hrecords, hconsistent, -, hid⟩ := Registry.clearServerInfo_eq_ok ih.consistent hcall
      refine ⟨hconsistent, ?_, ⟨0, hid, rfl, Nat.zero_le _, by norm_num⟩, ?_⟩
      · rw [hrecords]
        exact ih.answered
      · intro hnone
        obtain rfl := hnone _ hallowed
        exact Registry.clearServerInfo_sound (ih.sound hnone) ih.consistent hcall

/-! ### Ids -/

/-- Different places are different ids, and none of them is invalid. -/
theorem ofNat_inj {i j : ℕ} (hi : i < 2 ^ 31) (hj : j < 2 ^ 31)
    (h : Int32.ofNat i = Int32.ofNat j) : i = j := by
  have hint := congrArg Int32.toInt h
  rw [Int32.toInt_ofNat_of_lt hi, Int32.toInt_ofNat_of_lt hj] at hint
  exact_mod_cast hint

/-- What the calls keep: the ids that were returned, the lists, and what has been described. -/
structure KeepsIds (allowed : FailIn → Prop) (registry : Registry)
    (answers : List (WString × RecordId)) (described : List RecordId) : Prop where
  /-- Equal names have the same id, and different names have different ids. -/
  sameId : ∀ a ∈ answers, ∀ b ∈ answers, a.2 ≠ recordIdInvalid → b.2 ≠ recordIdInvalid →
    (a.1 = b.1 ↔ a.2 = b.2)
  /-- The ids are the numbers below the number of the records. -/
  ids : ∀ id, id ≠ recordIdInvalid →
    ((∃ name, (name, id) ∈ answers) ↔
      0 ≤ id.toInt ∧ id.toInt < registry.recordsList.elements.length)
  /-- An id that was returned still stands for the record with that name. -/
  named : ∀ a ∈ answers, a.2 ≠ recordIdInvalid →
    (atRecordId registry.recordsList.elements a.2).map (fun record => record.name) = some a.1
  found : ∀ (hlt : registry.recordsList.elements.length < 2 ^ 31), ∀ a ∈ answers,
    a.2 ≠ recordIdInvalid → getRecordIdByName (registry.toRecordList hlt) a.1 = a.2
  lengths : registry.recordServerSupportStates.elements.length =
    registry.recordsList.elements.length
  /-- A name of no known type is refused. -/
  refused : ∀ name failIn, stringToRecordInfo name = none →
    registry.addOrGetRecordId name failIn = .ok (recordIdInvalid, registry)
  /-- The other names get ids if no allocation fails. -/
  accepted : (∀ failIn, allowed failIn → failIn = none) → ∀ name record,
    initRecordInfo name = .ok record → registry.recordsList.elements.length < 2 ^ 31 →
      ∃ id registry', registry.addOrGetRecordId name none = .ok (id, registry') ∧
        id ≠ recordIdInvalid
  /-- They get none exactly if an allocation of the call fails, and then the call leaves the lists. -/
  failed : ∀ name record failIn id registry', initRecordInfo name = .ok record →
    registry.addOrGetRecordId name failIn = .ok (id, registry') →
      (id = recordIdInvalid ↔ registry.AllocationFails record failIn) ∧
        (id = recordIdInvalid →
          registry'.recordsList.elements = registry.recordsList.elements ∧
            registry'.recordServerSupportStates.elements =
              registry.recordServerSupportStates.elements)
  /-- Each of the first records has been described once, in the order of the ids. -/
  inOrder : ∃ n ≤ registry.recordsList.elements.length, described = recordIds n
  /-- Behind a description that succeeds these are all records. -/
  describes : ∀ out r context, exec writeEventRecords ⟨registry, out, described⟩ = (r, context) →
    r ≠ .error .nullRecord ∧
      (r = .ok () → registry.recordsList.elements.length < 2 ^ 31 →
        context.described = recordIds registry.recordsList.elements.length)

/-- The place of an id that was returned. -/
theorem Reached.place (hreached : Reached allowed registry answers described)
    {a : WString × RecordId} (ha : a ∈ answers) (hvalid : a.2 ≠ recordIdInvalid) :
    ∃ (i : ℕ) (record : RecordInfoItem), i < 2 ^ 31 ∧ a.2 = Int32.ofNat i ∧
      registry.recordsList.elements[i]? = some record ∧ record.name = a.1 :=
  (hreached.answered.place a ha).resolve_left hvalid

theorem Reached.sameId (hreached : Reached allowed registry answers described)
    {a b : WString × RecordId} (ha : a ∈ answers) (hb : b ∈ answers)
    (hvalid : a.2 ≠ recordIdInvalid) (hvalid' : b.2 ≠ recordIdInvalid) :
    a.1 = b.1 ↔ a.2 = b.2 := by
  obtain ⟨i, r, hi, hid, hr, hname⟩ := hreached.place ha hvalid
  obtain ⟨j, r', hj, hid', hr', hname'⟩ := hreached.place hb hvalid'
  rw [hid, hid', ← hname, ← hname']
  constructor
  · intro hsame
    obtain ⟨hilt, -⟩ := List.getElem?_eq_some_iff.mp hr
    have hmap : (registry.recordsList.elements.map fun record => record.name)[i]? =
        (registry.recordsList.elements.map fun record => record.name)[j]? := by
      rw [List.getElem?_map, List.getElem?_map, hr, hr', Option.map_some, Option.map_some, hsame]
    rw [(List.getElem?_inj (by rwa [List.length_map]) hreached.consistent.nodup).mp hmap]
  · intro hsame
    obtain rfl := ofNat_inj hi hj hsame
    rw [hr] at hr'
    rw [Option.some.inj hr']

theorem Reached.ids (hreached : Reached allowed registry answers described) {id : RecordId}
    (hvalid : id ≠ recordIdInvalid) :
    (∃ name, (name, id) ∈ answers) ↔
      0 ≤ id.toInt ∧ id.toInt < registry.recordsList.elements.length := by
  constructor
  · rintro ⟨name, hanswer⟩
    obtain ⟨i, record, hi, hid, hrecord, -⟩ := hreached.place hanswer hvalid
    obtain ⟨hilt, -⟩ := List.getElem?_eq_some_iff.mp hrecord
    have hint : id.toInt = i := by
      rw [show id = Int32.ofNat i from hid, Int32.toInt_ofNat_of_lt hi]
    omega
  · rintro ⟨hnonneg, hlt⟩
    have hbound := id.toInt_lt
    have hid : Int32.ofNat id.toInt.toNat = id := by
      rw [← Int32.toInt_inj, Int32.toInt_ofNat_of_lt (by omega)]
      omega
    have hreturned := hreached.answered.returned id.toInt.toNat _
      (List.getElem?_eq_getElem (by omega))
    rw [hid] at hreturned
    exact ⟨_, hreturned⟩

/-- In every run, the names that got ids have the numbers of the records as their ids, the same ones
for ever; the two lists are of the same length; and in every session each record is described once,
in the order of the ids. -/
theorem RegistryRun.keepsIds (hrun : RegistryRun allowed registry answers described) :
    KeepsIds allowed registry answers described := by
  have hreached := hrun.reached
  exact {
    sameId := fun a ha b hb => hreached.sameId ha hb
    ids := fun id hvalid => hreached.ids hvalid
    named := by
      intro a ha hvalid
      obtain ⟨i, record, hi, hid, hrecord, hname⟩ := hreached.place ha hvalid
      rw [hid, atRecordId, Int32.toInt_ofNat_of_lt hi, if_neg (by omega), Int.toNat_natCast,
        hrecord, Option.map_some, hname]
    found := by
      intro hlt a ha hvalid
      obtain ⟨i, record, hi, hid, hrecord, hname⟩ := hreached.place ha hvalid
      rw [hid, ← hname]
      exact hreached.consistent.getRecordIdByName hlt hrecord
    lengths := hreached.consistent.states
    refused := by
      intro name failIn hunknown
      unfold Registry.addOrGetRecordId initRecordInfo
      simp only [hunknown]
    accepted := by
      intro hnone name record hinit hlt
      obtain ⟨id, registry', hcall, hnonneg⟩ :=
        Registry.addOrGetRecordId_none (hreached.sound hnone) hreached.consistent hinit hlt
      exact ⟨id, registry', hcall, Registry.ne_invalid_of_nonneg hnonneg⟩
    failed := by
      intro name record failIn id registry' hinit hcall
      refine ⟨Registry.addOrGetRecordId_invalid_iff hreached.consistent hinit hcall, ?_⟩
      rintro rfl
      exact (Registry.registration hreached.consistent hcall).of_invalid
    inOrder := by
      obtain ⟨n, hmarked⟩ := hreached.marked
      exact ⟨n, hmarked.le, hmarked.described⟩
    describes := by
      intro out r context hcall
      have hdescribes :=
        writeEventRecords_describes hreached.marked hreached.consistent.length_le hcall
      exact ⟨hdescribes.noFault, hdescribes.all⟩ }

/-- The record of configurations, under one of its names. -/
def configurationRecord (name : String) : RecordInfoItem where
  name := wideString name
  fields := dxFieldsConfiguration
  infoId := .configuration
  suffix := List.replicate suffixSize 0
  exchangeCode := 0

/-- The registry with this record. -/
def configurationRegistry : Registry :=
  ⟨⟨[configurationRecord "Configuration"], 1, 1⟩, 0, ⟨[0], 1, 1⟩, ⟨[.init], 1, 1⟩⟩

/-- The registry with two such records, of which so many have been described. -/
def twoRegistry (newRecordId : RecordId) : Registry :=
  ⟨⟨[configurationRecord "Configuration", configurationRecord "ConfigurationB"], 2, 2⟩,
    newRecordId, ⟨[0, 0], 2, 2⟩, ⟨[.init, .init], 2, 2⟩⟩

/-- The same behind a record that found no memory for its state. -/
def grownRegistry (newRecordId : RecordId) : Registry :=
  ⟨⟨[configurationRecord "Configuration", configurationRecord "ConfigurationB"], 4, 4⟩,
    newRecordId, ⟨[0, 0], 4, 2⟩, ⟨[.init, .init], 2, 2⟩⟩

theorem addOrGetRecordId_configuration :
    Registry.empty.addOrGetRecordId (wideString "Configuration") none =
      .ok (0, configurationRegistry) := by
  rfl

theorem addOrGetRecordId_unknown :
    configurationRegistry.addOrGetRecordId (wideString "Unknown") none =
      .ok (recordIdInvalid, configurationRegistry) := by
  rfl

theorem addOrGetRecordId_two :
    configurationRegistry.addOrGetRecordId (wideString "ConfigurationB") none =
      .ok (1, twoRegistry 0) := by
  rfl

theorem clearServerInfo_two : (twoRegistry 2).clearServerInfo none = .ok (true, twoRegistry 0) := by
  rfl

/-- The state of a third record finds no memory. -/
theorem addOrGetRecordId_quote_failed :
    (twoRegistry 0).addOrGetRecordId (wideString "Quote") (some 1) =
      .ok (recordIdInvalid, grownRegistry 0) := by
  rfl

theorem addOrGetRecordId_again :
    (grownRegistry 0).addOrGetRecordId (wideString "Configuration") none =
      .ok (0, grownRegistry 0) := by
  rfl

/-- A message describes records of the same registry. -/
theorem registryRun_describes (hrun : RegistryRun allowed registry answers described)
    (out : OutputContext) {newRecordId : RecordId} {described' : List RecordId}
    (h : let context := (exec writeEventRecords ⟨registry, out, described⟩).2
      (context.dscc.newRecordId, context.described) = (newRecordId, described')) :
    RegistryRun allowed { registry with newRecordId := newRecordId } answers described' := by
  have hreached := hrun.reached
  generalize hexec : exec writeEventRecords ⟨registry, out, described⟩ = result at h
  obtain ⟨r, context⟩ := result
  obtain ⟨rfl, rfl⟩ := Prod.mk.inj h
  obtain ⟨⟨hrecords, hstates, hdigests⟩, -⟩ :=
    writeEventRecords_describes hreached.marked hreached.consistent.length_le hexec
  have hnext := hrun.writeEventRecords out hexec
  have hsame : context.dscc = { registry with newRecordId := context.dscc.newRecordId } := by
    rw [← hrecords, ← hstates, ← hdigests]
  rwa [hsame] at hnext

/-- Two names with ids, one of no known type and one without memory, in two sessions. -/
theorem RegistryRun.keepsIds_sessions :
    KeepsIds (fun _ => True) (grownRegistry 2)
      [(wideString "Configuration", 0), (wideString "Unknown", recordIdInvalid),
        (wideString "ConfigurationB", 1), (wideString "Quote", recordIdInvalid),
        (wideString "Configuration", 0)] [0, 1] := by
  have hfirst : RegistryRun (fun _ => True) configurationRegistry _ [] :=
    .addOrGetRecordId .start (wideString "Configuration") trivial addOrGetRecordId_configuration
  have hunknown := hfirst.addOrGetRecordId _ trivial addOrGetRecordId_unknown
  have htwo := hunknown.addOrGetRecordId _ trivial addOrGetRecordId_two
  have hdescribed : RegistryRun (fun _ => True) (twoRegistry 2) _ [0, 1] :=
    registryRun_describes htwo (outputAt [] (List.replicate 80 0)) (by decide +kernel)
  have hsession := hdescribed.clearServerInfo trivial clearServerInfo_two
  have hfailed := hsession.addOrGetRecordId _ trivial addOrGetRecordId_quote_failed
  have hagain := hfailed.addOrGetRecordId _ trivial addOrGetRecordId_again
  have hlast : RegistryRun (fun _ => True) (grownRegistry 2) _ [0, 1] :=
    registryRun_describes hagain (outputAt [] (List.replicate 80 0)) (by decide +kernel)
  exact hlast.keepsIds

/-- No allocation fails. -/
def Succeeds (failIn : FailIn) : Prop := failIn = none

/-- Two names of no known type have the same answer. -/
theorem not_injective_unknown :
    ¬ ∀ (registry : Registry) (answers : List (WString × RecordId)) (described : List RecordId),
      RegistryRun Succeeds registry answers described →
        ∀ a ∈ answers, ∀ b ∈ answers, a.1 = b.1 ↔ a.2 = b.2 := by
  intro hinjective
  have hunknown : ∀ name ∈ [wideString "A", wideString "B"], stringToRecordInfo name = none := by
    decide
  have hrefused : ∀ name ∈ [wideString "A", wideString "B"],
      Registry.empty.addOrGetRecordId name none = .ok (recordIdInvalid, .empty) := by
    intro name hname
    unfold Registry.addOrGetRecordId initRecordInfo
    rw [hunknown name hname]
  have hnone : Succeeds none := rfl
  have hfirst : RegistryRun Succeeds .empty [(wideString "A", recordIdInvalid)] [] :=
    .addOrGetRecordId .start _ hnone (hrefused (wideString "A") (by decide))
  have hrun : RegistryRun Succeeds .empty
      [(wideString "A", recordIdInvalid), (wideString "B", recordIdInvalid)] [] :=
    .addOrGetRecordId hfirst _ hnone (hrefused (wideString "B") (by decide))
  have hsame := (hinjective _ _ _ hrun _ List.mem_cons_self _
    (List.mem_cons_of_mem _ List.mem_cons_self)).mpr rfl
  exact absurd hsame (by decide)

end DxFeed.ClientMessageProcessor
