import DxFeed.ServerMessageProcessor.DescribeRecords

/-!
# The map of record ids as one map

`dx_get_record_id` and `dx_assign_server_record_id` share an array for the ids below 1000 and a
sorted array of pairs for all others.  The reader converts the place of a pair to a record id
before it accesses the array; the writer does not.  Allocations succeed.

* `after`, `lastAssigned`: the map after some calls, and what the last call for an id has assigned;
* `LastWriteWins`: the two parts together are the map of the last assignments;
* `overflowCount`: how many different ids the calls give to the array of pairs;
* `getRecordId_after_iff`: which ids the reader answers;
* `lastWriteWins_iff`: the two parts are that map up to `2 ^ 31` pairs.
-/

namespace DxFeed.ServerMessageProcessor

open SortedList

namespace ServerLocalRecordIdMap

/-- A call of `dx_assign_server_record_id`. -/
structure Assignment where
  recordId : RecordId
  serverRecordId : Int32
  deriving DecidableEq, Repr

/-- The map of a new connection after some calls. -/
def after (calls : List Assignment) : ServerLocalRecordIdMap :=
  calls.foldl (fun map call => map.assignServerRecordId call.recordId call.serverRecordId) empty

/-- What the last call for an id has assigned. -/
def lastAssigned (calls : List Assignment) (id : Int32) : Option RecordId :=
  (calls.reverse.find? fun call => call.serverRecordId = id).map Assignment.recordId

/-- The map is that of the last assignments: the reader answers with them, and each of them is in
the part for its id and in no other one. -/
structure LastWriteWins (calls : List Assignment) : Prop where
  answers : ∀ id, (after calls).getRecordId id =
    some ((lastAssigned calls id).getD recordIdInvalid)
  frequentIds : ∀ id i, frequentIndex id = some i →
    (after calls).frequentIds i = (lastAssigned calls id).getD recordIdInvalid
  pairs : ∀ pair, pair ∈ (after calls).idMap ↔
    frequentIndex pair.serverRecordId = none ∧
      lastAssigned calls pair.serverRecordId = some pair.localRecordId
  strict : (after calls).idMap.Pairwise fun left right =>
    left.serverRecordId < right.serverRecordId

/-- The number of different ids outside of the array of frequent ids. -/
def overflowCount (calls : List Assignment) : ℕ :=
  ((calls.map Assignment.serverRecordId).toFinset.filter fun id => frequentIndex id = none).card

/-- The number of different ids outside of the array of frequent ids that are smaller than an
id. -/
def smallerCount (calls : List Assignment) (id : Int32) : ℕ :=
  ((calls.map Assignment.serverRecordId).toFinset.filter
    fun other => frequentIndex other = none ∧ other < id).card

/-- The reader reaches the pair of an id, if there is one. -/
def InReach (calls : List Assignment) (id : Int32) : Prop :=
  frequentIndex id = none → id ∈ calls.map Assignment.serverRecordId →
    smallerCount calls id < 2 ^ 31

/-! ### The last assignments -/

variable {calls : List Assignment} {call : Assignment}

@[simp] theorem after_nil : after [] = empty := rfl

theorem after_concat (calls : List Assignment) (call : Assignment) :
    after (calls ++ [call]) =
      (after calls).assignServerRecordId call.recordId call.serverRecordId := by
  rw [after, List.foldl_append]
  rfl

@[simp] theorem lastAssigned_nil (id : Int32) : lastAssigned [] id = none := rfl

theorem lastAssigned_concat (calls : List Assignment) (call : Assignment) :
    lastAssigned (calls ++ [call]) =
      Function.update (lastAssigned calls) call.serverRecordId (some call.recordId) := by
  funext id
  rw [lastAssigned, List.reverse_append, List.reverse_singleton, List.singleton_append,
    List.find?_cons]
  by_cases hid : call.serverRecordId = id
  · subst hid
    simp
  · rw [Function.update_of_ne (Ne.symm hid)]
    simp [hid, lastAssigned]

theorem lastAssigned_isSome {id : Int32} :
    (lastAssigned calls id).isSome ↔ id ∈ calls.map Assignment.serverRecordId := by
  simp [lastAssigned]

/-- The search finds what was assigned last. -/
theorem held_after (calls : List Assignment) (id : Int32) :
    (after calls).held id = (lastAssigned calls id).getD recordIdInvalid := by
  induction calls using List.reverseRecOn with
  | nil => exact held_empty id
  | append_singleton calls call ih =>
      rw [after_concat, held_assign, lastAssigned_concat]
      by_cases hid : id = call.serverRecordId
      · rw [hid, Function.update_self, Function.update_self, Option.getD_some]
      · rw [Function.update_of_ne hid, Function.update_of_ne hid, ih]

/-- The pairs are the assignments of ids outside of the array of frequent ids. -/
theorem lookup_after (calls : List Assignment) (id : Int32) :
    lookup RecordIdPair.key (after calls).idMap id.toInt =
      if frequentIndex id = none then (lastAssigned calls id).map (RecordIdPair.mk id)
      else none := by
  induction calls using List.reverseRecOn with
  | nil => simp [empty]
  | append_singleton calls call ih =>
      rw [after_concat, lastAssigned_concat]
      cases hcall : frequentIndex call.serverRecordId with
      | some i =>
          -- the pairs stay as they are, and the assigned id is none of theirs
          simp only [assignServerRecordId, hcall, ih]
          by_cases hid : id = call.serverRecordId
          · rw [hid, hcall, if_neg (by simp), if_neg (by simp)]
          · rw [Function.update_of_ne hid]
      | none =>
          simp only [assignServerRecordId, hcall, lookup_assignPair]
          by_cases hid : id = call.serverRecordId
          · subst hid
            rw [if_pos hcall, Function.update_self, Option.map_some]
            exact Function.update_self ..
          · have hkey : id.toInt ≠ call.serverRecordId.toInt :=
              fun h => hid (Int32.toInt_inj.mp h)
            rw [Function.update_of_ne hid, ← ih]
            exact Function.update_of_ne hkey _ _

theorem mem_idMap_after {pair : RecordIdPair} :
    pair ∈ (after calls).idMap ↔
      frequentIndex pair.serverRecordId = none ∧
        lastAssigned calls pair.serverRecordId = some pair.localRecordId := by
  have hlookup := lookup_after calls pair.serverRecordId
  constructor
  · intro hpair
    have hfound := lookup_of_mem (after calls).sorted hpair
    rw [RecordIdPair.key, hlookup] at hfound
    split_ifs at hfound with hplace
    obtain ⟨recordId, hlast, heq⟩ := Option.map_eq_some_iff.mp hfound
    refine ⟨hplace, ?_⟩
    rw [hlast, ← heq]
  · rintro ⟨hplace, hlast⟩
    rw [if_pos hplace, hlast, Option.map_some] at hlookup
    exact mem_of_lookup hlookup

theorem pairwise_idMap_after (calls : List Assignment) :
    (after calls).idMap.Pairwise fun left right =>
      left.serverRecordId < right.serverRecordId :=
  (after calls).sorted.imp fun h => Int32.lt_iff_toInt_lt.mpr h

/-- There is one pair for each id outside of the array of frequent ids. -/
theorem length_filter_idMap (calls : List Assignment) (p : Int32 → Prop) [DecidablePred p] :
    ((after calls).idMap.filter fun pair => p pair.serverRecordId).length =
      ((calls.map Assignment.serverRecordId).toFinset.filter
        fun id => frequentIndex id = none ∧ p id).card := by
  set pairs := (after calls).idMap.filter fun pair => p pair.serverRecordId with hpairs
  have hnodup : (pairs.map RecordIdPair.serverRecordId).Nodup := by
    refine List.Pairwise.map _ (fun _ _ hlt => ?_) ((pairwise_idMap_after calls).filter _)
    exact Int32.ne_of_lt hlt
  have hids : (pairs.map RecordIdPair.serverRecordId).toFinset =
      (calls.map Assignment.serverRecordId).toFinset.filter
        fun id => frequentIndex id = none ∧ p id := by
    ext id
    rw [List.mem_toFinset, List.mem_map, Finset.mem_filter, List.mem_toFinset,
      ← lastAssigned_isSome, Option.isSome_iff_exists]
    constructor
    · rintro ⟨pair, hpair, rfl⟩
      obtain ⟨hmem, hp⟩ := List.mem_filter.mp hpair
      obtain ⟨hplace, hlast⟩ := mem_idMap_after.mp hmem
      exact ⟨⟨_, hlast⟩, hplace, of_decide_eq_true hp⟩
    · rintro ⟨⟨recordId, hlast⟩, hplace, hp⟩
      have hmem : (⟨id, recordId⟩ : RecordIdPair) ∈ (after calls).idMap :=
        mem_idMap_after.mpr ⟨hplace, hlast⟩
      exact ⟨⟨id, recordId⟩, List.mem_filter.mpr ⟨hmem, decide_eq_true hp⟩, rfl⟩
  rw [← hids, List.toFinset_card_of_nodup hnodup, List.length_map]

theorem length_idMap_after (calls : List Assignment) :
    (after calls).idMap.length = overflowCount calls := by
  have h := length_filter_idMap calls fun _ => True
  simpa [overflowCount] using h

/-- The pairs in front of the pair of an id are those of the smaller ids. -/
theorem length_eq_smallerCount {pair : RecordIdPair} {l₁ l₂ : List RecordIdPair}
    (hsplit : (after calls).idMap = l₁ ++ pair :: l₂) :
    l₁.length = smallerCount calls pair.serverRecordId := by
  have hsorted := pairwise_idMap_after calls
  rw [hsplit, List.pairwise_append, List.pairwise_cons] at hsorted
  obtain ⟨-, ⟨hbehind, -⟩, hfront⟩ := hsorted
  have h := length_filter_idMap calls fun id => id < pair.serverRecordId
  rw [hsplit, List.filter_append, List.filter_cons_of_neg (by simp), List.filter_eq_self.mpr,
    List.filter_eq_nil_iff.mpr, List.append_nil] at h
  · exact h
  · intro other hother
    simpa using Int32.le_of_lt (hbehind other hother)
  · intro other hother
    exact decide_eq_true (hfront other hother pair List.mem_cons_self)

/-- There are no more ids than numbers of 32 bits. -/
theorem overflowCount_le (calls : List Assignment) : overflowCount calls ≤ 2 ^ 32 := by
  have hcard : (Finset.Ico (-2 ^ 31 : ℤ) (2 ^ 31)).card = 2 ^ 32 := by
    rw [Int.card_Ico]
    rfl
  rw [← hcard]
  refine Finset.card_le_card_of_injOn Int32.toInt (fun id _ => ?_) fun _ _ _ _ h =>
    Int32.toInt_inj.mp h
  have hmin := id.le_toInt
  have hmax := id.toInt_lt
  exact Finset.mem_coe.mpr (Finset.mem_Ico.mpr ⟨hmin, hmax⟩)

/-! ### The reader -/

theorem toInt_ofNat_eq {n : ℕ} (h : n < 2 ^ 32) :
    (Int32.ofNat n).toInt = if n < 2 ^ 31 then (n : ℤ) else (n : ℤ) - 2 ^ 32 := by
  have hsize : (Int32.size : ℤ) = 2 ^ 32 := rfl
  have hmod : (n : ℤ) % (Int32.size : ℤ) = n := by
    rw [hsize]
    exact Int.emod_eq_of_lt (by omega) (by omega)
  rw [Int32.toInt_ofNat', Int.bmod_def, hmod, hsize]
  split_ifs <;> omega

/-- A place that is converted to a record id is the same place, or one in front of the array. -/
theorem atRecordId_ofNat {α : Type} (l : List α) {n : ℕ} (h : n < 2 ^ 32) :
    atRecordId l (Int32.ofNat n) = if n < 2 ^ 31 then l[n]? else none := by
  rw [atRecordId, toInt_ofNat_eq h]
  split_ifs
  · omega
  · rw [Int.toNat_natCast]
  · rfl
  · omega

/-- The reader finds the pair of an id. -/
theorem getRecordId_of_split (map : ServerLocalRecordIdMap) {pair : RecordIdPair}
    {l₁ l₂ : List RecordIdPair} (hplace : frequentIndex pair.serverRecordId = none)
    (hsplit : map.idMap = l₁ ++ pair :: l₂) :
    map.getRecordId pair.serverRecordId =
      (atRecordId map.idMap (Int32.ofNat l₁.length)).map RecordIdPair.localRecordId := by
  have hfound := (map.search_located ⟨pair.serverRecordId, 0⟩).eq_of_found map.sorted hsplit rfl
  have hsearch : map.search ⟨pair.serverRecordId, 0⟩ = (true, l₁.length) :=
    Prod.ext hfound.1 hfound.2
  simp only [getRecordId, hplace, hsearch]

/-- The reader answers with the last assignment of an id if and only if it reaches its pair. -/
theorem getRecordId_after_iff (calls : List Assignment) (id : Int32) (recordId : RecordId) :
    (after calls).getRecordId id = some recordId ↔
      (lastAssigned calls id).getD recordIdInvalid = recordId ∧ InReach calls id := by
  cases hplace : frequentIndex id with
  | some i =>
      have hheld : (after calls).getRecordId id = some ((after calls).held id) := by
        simp only [getRecordId, held, hplace]
      have hreach : InReach calls id := fun hnone => by simp [hplace] at hnone
      rw [hheld, held_after, Option.some_inj, and_iff_left hreach]
  | none =>
      rcases hlast : lastAssigned calls id with _ | assigned
      · -- without an assignment there is no pair
        have hreach : InReach calls id := by
          intro _ hid
          rw [← lastAssigned_isSome, hlast] at hid
          cases hid
        have hanswer : (after calls).getRecordId id = some recordIdInvalid := by
          have hloc := (after calls).search_located ⟨id, 0⟩
          have hpairs : ∀ pair ∈ (after calls).idMap, pair.serverRecordId ≠ id := by
            rintro pair hpair rfl
            have hassigned := (mem_idMap_after.mp hpair).2
            rw [hlast] at hassigned
            cases hassigned
          simp only [getRecordId, hplace]
          generalize (after calls).search ⟨id, 0⟩ = r at hloc
          generalize (after calls).idMap = l at hloc hpairs
          obtain ⟨found, idx⟩ := r
          cases hloc with
          | found l₁ x l₂ hx =>
              exact absurd (Int32.toInt_inj.mp hx) (hpairs x (by simp))
          | missing l₁ l₂ h₁ h₂ => rfl
        rw [hanswer, Option.some_inj, and_iff_left hreach, Option.getD_none]
      · have hmem : (⟨id, assigned⟩ : RecordIdPair) ∈ (after calls).idMap :=
          mem_idMap_after.mpr ⟨hplace, hlast⟩
        obtain ⟨l₁, l₂, hsplit⟩ := List.append_of_mem hmem
        have hcount := length_eq_smallerCount hsplit
        have hlength := (length_idMap_after calls).trans_le (overflowCount_le calls)
        rw [hsplit, List.length_append, List.length_cons] at hlength
        have hreach : InReach calls id ↔ l₁.length < 2 ^ 31 := by
          rw [hcount]
          have hid : id ∈ calls.map Assignment.serverRecordId := by
            rw [← lastAssigned_isSome, hlast]
            rfl
          exact ⟨fun h => h hplace hid, fun h _ _ => h⟩
        have hget : (after calls).idMap[l₁.length]? = some ⟨id, assigned⟩ := by
          rw [hsplit]
          simp
        rw [@getRecordId_of_split (after calls) ⟨id, assigned⟩ l₁ l₂ hplace hsplit,
          atRecordId_ofNat _ (by omega), hreach, hget]
        split_ifs with hlt
        · rw [Option.map_some, Option.some_inj, and_iff_left hlt, Option.getD_some]
        · exact iff_of_false (Option.some_ne_none _ ∘ Eq.symm) fun h => hlt h.2

/-- Up to `2 ^ 31` pairs the reader answers with what is held. -/
theorem getRecordId_eq_held (map : ServerLocalRecordIdMap) (id : Int32)
    (hlength : map.idMap.length ≤ 2 ^ 31) : map.getRecordId id = some (map.held id) := by
  have hloc := map.search_located ⟨id, 0⟩
  unfold getRecordId held
  cases frequentIndex id with
  | some i => rfl
  | none =>
      simp only
      generalize map.search ⟨id, 0⟩ = r at hloc
      generalize map.idMap = l at hloc hlength
      obtain ⟨found, idx⟩ := r
      cases hloc with
      | found l₁ x l₂ hx =>
          rw [List.length_append, List.length_cons] at hlength
          simp only [atRecordId_ofNat _ (show l₁.length < 2 ^ 32 by omega)]
          rw [if_pos (by omega)]
          simp
      | missing l₁ l₂ h₁ h₂ => rfl

theorem lastWriteWins_of_le (h : overflowCount calls ≤ 2 ^ 31) : LastWriteWins calls where
  answers id := by
    rw [getRecordId_eq_held _ _ ((length_idMap_after calls).trans_le h), held_after]
  frequentIds id i hid := by
    rw [← held_after, held, hid]
  pairs _ := mem_idMap_after
  strict := pairwise_idMap_after calls

/-- The reader does not reach the pair at place `2 ^ 31`. -/
theorem not_lastWriteWins_of_lt (h : 2 ^ 31 < overflowCount calls) : ¬ LastWriteWins calls := by
  intro hwins
  rw [← length_idMap_after] at h
  set pair := (after calls).idMap[2 ^ 31] with hpair
  have hmem := List.getElem_mem h
  rw [← hpair] at hmem
  obtain ⟨hplace, hlast⟩ := mem_idMap_after.mp hmem
  have hsplit : (after calls).idMap =
      (after calls).idMap.take (2 ^ 31) ++ pair :: (after calls).idMap.drop (2 ^ 31 + 1) := by
    rw [hpair, List.getElem_cons_drop, List.take_append_drop]
  obtain ⟨-, hreach⟩ := (getRecordId_after_iff calls pair.serverRecordId _).mp
    (hwins.answers pair.serverRecordId)
  have hid : pair.serverRecordId ∈ calls.map Assignment.serverRecordId := by
    rw [← lastAssigned_isSome, hlast]
    rfl
  have hcount := hreach hplace hid
  rw [← length_eq_smallerCount hsplit, List.length_take, Nat.min_eq_left h.le] at hcount
  exact lt_irrefl _ hcount

/-- The reader and the writer share one map of the last assignments, in all its parts, exactly if
at most `2 ^ 31` ids outside of the array of frequent ids are assigned. -/
theorem lastWriteWins_iff (calls : List Assignment) :
    LastWriteWins calls ↔ overflowCount calls ≤ 2 ^ 31 := by
  constructor
  · intro hwins
    by_contra hlt
    exact not_lastWriteWins_of_lt (not_le.mp hlt) hwins
  · exact lastWriteWins_of_le

/-! ### More pairs than places -/

/-- A call for each of the first ids behind the frequent ones; they go on with the negative ones. -/
def consecutive (n : ℕ) : List Assignment :=
  (List.range n).map fun i => ⟨0, Int32.ofNat (recordIdVectorSize + i)⟩

theorem frequentIndex_ofNat {n : ℕ} (hlow : recordIdVectorSize ≤ n) (hhigh : n < 2 ^ 32) :
    frequentIndex (Int32.ofNat n) = none := by
  refine dif_neg ?_
  rw [toInt_ofNat_eq hhigh]
  split_ifs <;> omega

theorem ofNat_injective_of_lt {m n : ℕ} (hm : m < 2 ^ 32) (hn : n < 2 ^ 32)
    (h : Int32.ofNat m = Int32.ofNat n) : m = n := by
  have hint := congrArg Int32.toInt h
  rw [toInt_ofNat_eq hm, toInt_ofNat_eq hn] at hint
  split_ifs at hint <;> omega

theorem overflowCount_consecutive {n : ℕ} (h : recordIdVectorSize + n ≤ 2 ^ 32) :
    overflowCount (consecutive n) = n := by
  have hids : ((consecutive n).map Assignment.serverRecordId).toFinset =
      (Finset.range n).image fun i => Int32.ofNat (recordIdVectorSize + i) := by
    ext id
    simp [consecutive]
  have hfilter : ((Finset.range n).image fun i => Int32.ofNat (recordIdVectorSize + i)).filter
      (fun id => frequentIndex id = none) =
        (Finset.range n).image fun i => Int32.ofNat (recordIdVectorSize + i) := by
    rw [Finset.filter_eq_self]
    intro id hid
    obtain ⟨i, hi, rfl⟩ := Finset.mem_image.mp hid
    have hi := Finset.mem_range.mp hi
    exact frequentIndex_ofNat (Nat.le_add_right _ _) (by omega)
  rw [overflowCount, hids, hfilter, Finset.card_image_of_injOn, Finset.card_range]
  intro i hi j hj hij
  have hi := Finset.mem_range.mp hi
  have hj := Finset.mem_range.mp hj
  have hsum := ofNat_injective_of_lt (m := recordIdVectorSize + i) (by omega) (by omega) hij
  omega

/-- With one pair more the reader loses the last one. -/
theorem not_lastWriteWins_consecutive : ¬ LastWriteWins (consecutive (2 ^ 31 + 1)) := by
  apply not_lastWriteWins_of_lt
  rw [overflowCount_consecutive (by decide)]
  exact Nat.lt_succ_self _

end ServerLocalRecordIdMap

end DxFeed.ServerMessageProcessor
