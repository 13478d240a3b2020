import DxFeed.Library.Run
import DxFeed.Snapshot.AllocationFailure

/-!
# A store survives allocation failures

When a store is intact behind every call, if in each call one allocation may fail.

* `Survives`: the arrays have one length, they are aligned, and no string buffer was freed;
* `Spared`: the failure does not hit the call where it does harm;
* `Aligned`, `Owned`: the arrays of some entries, and the string buffers of their own;
* `storeCall_outcome`: a spared call keeps this, and behind another call the store is broken.
-/

namespace DxFeed.Snapshot

open SortedList

variable {S D : Type} (kind : SnapshotKind)

/-- The strings in a string buffer. -/
def heldStrings (mem : Memory) (stringBuffer : Option ℕ) : List ℕ :=
  match stringBuffer.bind mem.arrays with
  | none => []
  | some array => array.elements.filterMap id

/-- The arrays of a store are intact. -/
structure Survives (recs : RecordArrays S D) (mem : Memory) : Prop where
  keys_length : recs.recordKeys.elements.length = recs.records.elements.length
  buffers_length : recs.recordBuffers.elements.length = recs.records.elements.length
  keys : ∀ (i : ℕ) (record : StoredRecord S D) (key : RecordKey),
    recs.records.elements[i]? = some record → recs.recordKeys.elements[i]? = some key →
      key = recordKey kind record.event
  strings : ∀ (i : ℕ) (record : StoredRecord S D) (stringBuffer : Option ℕ),
    recs.records.elements[i]? = some record →
      recs.recordBuffers.elements[i]? = some stringBuffer →
        heldStrings mem stringBuffer = record.strings.filterMap id
  live : ∀ a, some a ∈ recs.recordBuffers.elements → mem.arrays a ≠ none

/-- A run without a fault so far, and the arrays are intact. -/
def StoreSurvives : StoreState S D → Prop
  | .error _ => False
  | .ok (recs, mem) => Survives kind recs mem

/-! ### Where a failure does harm -/

/-- The numbers that decide about the reallocations of a store. -/
def RecordArrays.extents (recs : RecordArrays S D) : List Extent :=
  [recs.records.extent, recs.recordKeys.extent, recs.recordBuffers.extent]

/-- A new record: the copy fails, or the blocks have room. -/
def AddSpared (recs : RecordArrays S D) (source : SourceEvent S D) (failIn : FailIn) : Prop :=
  Fatal failIn (copyAllocations kind false source) ∨
    HasRoom (afterAllocations (copyAllocations kind false source).length failIn) recs.extents

/-- A record in the place of another one with strings: the copy does not fail. -/
def ReplaceSpared (recs : RecordArrays S D) (position : ℕ) (source : SourceEvent S D)
    (failIn : FailIn) : Prop :=
  ∀ record stringBuffer, recs.records.elements[position]? = some record →
    recs.recordBuffers.elements[position]? = some stringBuffer →
      record.strings.filterMap id ≠ [] →
        ¬ Fatal failIn (copyAllocations kind stringBuffer.isSome source)

/-- A record is removed: every array that has to shrink can; or the first one cannot, and there is
no string buffer. -/
def RemoveSpared (recs : RecordArrays S D) (position : ℕ) (failIn : FailIn) : Prop :=
  match failingShrink failIn recs.extents with
  | none => True
  | some 0 => recs.recordBuffers.elements[position]? = some none
  | some (_ + 1) => False

/-- The allocation that fails in a call does no harm. -/
def Spared : StoreState S D → StoreCall S D → Prop
  | .error _, _ => False
  | .ok (recs, _), .update source failIn =>
      match searchKey kind recs source.event with
      | (true, index) => ReplaceSpared kind recs index source failIn
      | (false, _) => AddSpared kind recs source failIn
  | .ok (recs, _), .remove event failIn =>
      match searchKey kind recs event with
      | (true, index) => RemoveSpared recs index failIn
      | (false, _) => True
  | .ok _, .clear => True

/-! ### Entries -/

/-- A record and its string buffer. -/
abbrev Entry (S D : Type) := StoredRecord S D × Option ℕ

/-- The place of an entry in the order of the records. -/
def entryRank (entry : Entry S D) : ℕᵒᵈ ×ₗ ℤ :=
  eventRank kind entry.1.event

/-- The arrays of a store are those of some entries, and each fits into its block. -/
structure Aligned (entries : List (Entry S D)) (recs : RecordArrays S D) : Prop where
  records : recs.records.elements = entries.map Prod.fst
  keys : recs.recordKeys.elements = entries.map fun entry => recordKey kind entry.1.event
  buffers : recs.recordBuffers.elements = entries.map Prod.snd
  records_fits : recs.records.Fits
  keys_fits : recs.recordKeys.Fits
  buffers_fits : recs.recordBuffers.Fits

/-- Two entries do not share a string buffer. -/
def Apart (entry entry' : Entry S D) : Prop :=
  ∀ a, entry.2 = some a → entry'.2 ≠ some a

/-- Every entry has a string buffer of its own, with its strings. -/
structure Owned (entries : List (Entry S D)) (mem : Memory) : Prop where
  holds : ∀ entry ∈ entries, Holds mem entry.1 entry.2
  apart : entries.Pairwise Apart
  fresh : ∀ a, mem.next ≤ a → mem.arrays a = none

/-- The invariant of the calls. -/
structure Sound (entries : List (Entry S D)) (recs : RecordArrays S D) (mem : Memory) : Prop where
  aligned : Aligned kind entries recs
  owned : Owned entries mem
  sorted : KeySorted (entryRank kind) entries

variable {kind} {entries l₁ l₂ : List (Entry S D)} {entry entry' : Entry S D}
  {recs : RecordArrays S D} {mem mem' : Memory} {stringBuffer : Option ℕ}

theorem Apart.symm (h : Apart entry entry') : Apart entry' entry :=
  fun a ha ha' => h a ha' ha

/-- A string buffer that is held is among the addresses that were given out. -/
theorem lt_next_of_holds {record : StoredRecord S D} {a : ℕ}
    (hfresh : ∀ a, mem.next ≤ a → mem.arrays a = none) (h : Holds mem record (some a)) :
    a < mem.next := by
  obtain ⟨array, harray, -⟩ := h
  by_contra hle
  rw [hfresh a (not_lt.mp hle)] at harray
  exact Option.some_ne_none array harray.symm

/-- A change of one string buffer leaves the records of the others alone. -/
theorem Holds.keep {record : StoredRecord S D} {stringBuffer' : Option ℕ}
    (h : Holds mem record stringBuffer')
    (hfresh : ∀ a, mem.next ≤ a → mem.arrays a = none) (hkeeps : Keeps stringBuffer mem mem')
    (hne : ∀ a, stringBuffer = some a → stringBuffer' ≠ some a) :
    Holds mem' record stringBuffer' := by
  cases stringBuffer' with
  | none => exact h
  | some a =>
      have hlt := lt_next_of_holds hfresh h
      obtain ⟨array, harray, hstrings⟩ := h
      refine ⟨array, ?_, hstrings⟩
      rw [hkeeps.same a hlt fun heq => hne a heq rfl, harray]

theorem Owned.keep (h : Owned entries mem) (hkeeps : Keeps stringBuffer mem mem')
    (hne : ∀ entry ∈ entries, ∀ a, stringBuffer = some a → entry.2 ≠ some a) :
    Owned entries mem' where
  holds := fun entry he => (h.holds entry he).keep h.fresh hkeeps (hne entry he)
  apart := h.apart
  fresh := hkeeps.fresh h.fresh

theorem owned_middle :
    Owned (l₁ ++ entry :: l₂) mem ↔
      Owned (l₁ ++ l₂) mem ∧ Holds mem entry.1 entry.2 ∧ ∀ other ∈ l₁ ++ l₂, Apart entry other := by
  have hpairwise : (l₁ ++ entry :: l₂).Pairwise Apart ↔
      (∀ other ∈ l₁ ++ l₂, Apart entry other) ∧ (l₁ ++ l₂).Pairwise Apart := by
    rw [List.pairwise_middle fun h => h.symm, List.pairwise_cons]
  constructor
  · rintro ⟨hholds, hapart, hfresh⟩
    obtain ⟨hentry, hothers⟩ := hpairwise.mp hapart
    have hmem : entry ∈ l₁ ++ entry :: l₂ := List.mem_append_right _ List.mem_cons_self
    exact ⟨⟨forall_mem_erase hholds, hothers, hfresh⟩, hholds entry hmem, hentry⟩
  · rintro ⟨⟨hholds, hapart, hfresh⟩, hentry, hothers⟩
    exact ⟨forall_mem_insert hholds hentry, hpairwise.mpr ⟨hothers, hapart⟩, hfresh⟩

theorem Sound.survives (h : Sound kind entries recs mem) : Survives kind recs mem where
  keys_length := by
    rw [h.aligned.keys, h.aligned.records, List.length_map, List.length_map]
  buffers_length := by
    rw [h.aligned.buffers, h.aligned.records, List.length_map, List.length_map]
  keys := by
    intro i record key hrecord hkey
    rw [h.aligned.records, List.getElem?_map, Option.map_eq_some_iff] at hrecord
    rw [h.aligned.keys, List.getElem?_map, Option.map_eq_some_iff] at hkey
    obtain ⟨entry, hentry, rfl⟩ := hrecord
    obtain ⟨entry', hentry', rfl⟩ := hkey
    obtain rfl := Option.some.inj (hentry.symm.trans hentry')
    rfl
  strings := by
    intro i record stringBuffer hrecord hbuffer
    rw [h.aligned.records, List.getElem?_map, Option.map_eq_some_iff] at hrecord
    rw [h.aligned.buffers, List.getElem?_map, Option.map_eq_some_iff] at hbuffer
    obtain ⟨entry, hentry, rfl⟩ := hrecord
    obtain ⟨entry', hentry', rfl⟩ := hbuffer
    obtain rfl := Option.some.inj (hentry.symm.trans hentry')
    have hholds := h.owned.holds entry (List.mem_of_getElem? hentry)
    obtain ⟨record, stringBuffer⟩ := entry
    cases stringBuffer with
    | none => exact hholds.symm
    | some a =>
        obtain ⟨array, harray, hstrings⟩ := hholds
        show (match mem.arrays a with | none => [] | some array => _) = _
        rw [harray]
        exact hstrings
  live := by
    intro a ha
    rw [h.aligned.buffers, List.mem_map] at ha
    obtain ⟨⟨record, stringBuffer⟩, hentry, rfl⟩ := ha
    obtain ⟨array, harray, -⟩ := h.owned.holds _ hentry
    rw [harray]
    exact Option.some_ne_none array

/-! ### The calls -/

/-- How a call ends that is spared, or is not. -/
inductive Outcome (kind : SnapshotKind) (spared : Prop) :
    Except MemoryFault (Bool × RecordArrays S D × Memory) → Prop
  | sound (success : Bool) (recs : RecordArrays S D) (mem : Memory) (entries : List (Entry S D))
      (hspared : spared) (hsound : Sound kind entries recs mem) :
      Outcome kind spared (.ok (success, recs, mem))
  | broken (success : Bool) (recs : RecordArrays S D) (mem : Memory)
      (hspared : ¬ spared) (hbroken : ¬ Survives kind recs mem) :
      Outcome kind spared (.ok (success, recs, mem))
  | fault (fault : MemoryFault) (hspared : ¬ spared) : Outcome kind spared (.error fault)

/-- The strings in a string buffer are freed. -/
theorem stringArrayFree_of_holds {record : StoredRecord S D}
    (hfresh : ∀ a, mem.next ≤ a → mem.arrays a = none) (h : Holds mem record stringBuffer) :
    ∃ mem', stringArrayFree mem stringBuffer = .ok mem' ∧ mem'.failIn = mem.failIn ∧
      HasBuffer mem' [] 0 stringBuffer ∧ Keeps stringBuffer mem mem' := by
  cases stringBuffer with
  | none => exact ⟨mem, rfl, rfl, ⟨rfl, rfl⟩, .refl ..⟩
  | some a =>
      have hlt := lt_next_of_holds hfresh h
      obtain ⟨array, harray, -⟩ := h
      exact stringArrayFree_spec hlt harray

/-- A string buffer is freed that nothing else holds. -/
theorem freeBuffer_spec {record : StoredRecord S D}
    (hfresh : ∀ a, mem.next ≤ a → mem.arrays a = none) (h : Holds mem record stringBuffer) :
    ∃ mem', freeBuffer mem stringBuffer = .ok mem' ∧ mem'.failIn = mem.failIn ∧
      (∀ a, stringBuffer = some a → mem'.arrays a = none) ∧ Keeps stringBuffer mem mem' := by
  obtain ⟨mem₁, hclear, hfailIn₁, hbuffer₁, hkeeps₁⟩ := stringArrayFree_of_holds hfresh h
  unfold freeBuffer
  simp only [bind, Except.bind, hclear]
  cases stringBuffer with
  | none => exact ⟨mem₁, rfl, hfailIn₁, nofun, hkeeps₁⟩
  | some a =>
      obtain ⟨mem₂, hfree, hfailIn₂, harrays₂, hkeeps₂⟩ :=
        freeStringArray_spec hbuffer₁.1 hbuffer₁.2.2
      refine ⟨mem₂, hfree, hfailIn₂.trans hfailIn₁, ?_, hkeeps₁.trans hkeeps₂ fun _ => Or.inl⟩
      intro b hb
      obtain rfl := Option.some.inj hb
      exact harrays₂

theorem arrayDelete_map {β : Type*} (f : Entry S D → β) {elements : List β}
    (h : elements = (l₁ ++ entry :: l₂).map f) :
    arrayDelete elements l₁.length = (l₁ ++ l₂).map f := by
  rw [h, ← map_arrayDelete, arrayDelete_append]

/-- A key or a string buffer is left for a record that was removed. -/
theorem not_survives_of_length (h : recs.recordKeys.elements.length ≠ recs.records.elements.length ∨
    recs.recordBuffers.elements.length ≠ recs.records.elements.length) :
    ¬ Survives kind recs mem :=
  fun hsurvives => h.elim (fun hne => hne hsurvives.keys_length)
    fun hne => hne hsurvives.buffers_length

/-- `removeEventRecordWith` at an entry. -/
theorem removeEventRecordWith_outcome (h : Sound kind (l₁ ++ entry :: l₂) recs mem) :
    Outcome kind (RemoveSpared recs l₁.length mem.failIn)
      (removeEventRecordWith mem recs l₁.length) := by
  obtain ⟨⟨hrecords, hkeys, hbuffers, hrecords_fits, hkeys_fits, hbuffers_fits⟩, howned,
    hsorted⟩ := h
  obtain ⟨hothers, hholds, hapart⟩ := owned_middle.mp howned
  have hlt : ¬ l₁.length ≥ recs.records.elements.length := by
    simp [hrecords]
  have hlt_keys : l₁.length < recs.recordKeys.elements.length := by
    simp [hkeys]
  have hlt_buffers : l₁.length < recs.recordBuffers.elements.length := by
    simp [hbuffers]
  have hbuffer : recs.recordBuffers.elements[l₁.length]? = some entry.2 := by
    simp [hbuffers]
  obtain ⟨mem₁, hfree, hfailIn₁, hfreed, hkeeps₁⟩ := freeBuffer_spec howned.fresh hholds
  have howned₁ : Owned (l₁ ++ l₂) mem₁ :=
    hothers.keep hkeeps₁ fun other hother a ha => hapart other hother a ha
  unfold removeEventRecordWith RemoveSpared
  simp only [if_neg hlt, hbuffer, bind, Except.bind, pure, Except.pure, hfree, hfailIn₁,
    RecordArrays.extents]
  -- the records
  have hdelete := dxArrayDelete_deletion hrecords_fits (not_le.mp hlt) mem.failIn
  generalize dxArrayDelete recs.records l₁.length mem.failIn = deletion at hdelete ⊢
  cases hdelete with
  | failed records helements hfits hfail hshrink =>
      simp only [hshrink, Bool.not_false, if_true]
      -- the entry stays, and what it held was freed before
      cases hentry : entry.2 with
      | none =>
          refine .sound _ _ _ (l₁ ++ entry :: l₂) rfl ⟨⟨?_, hkeys, hbuffers, hfits, hkeys_fits,
            hbuffers_fits⟩, ?_, hsorted⟩
          · exact helements.trans hrecords
          · refine (howned.keep hkeeps₁ fun _ _ a ha => ?_).keep (keeps_failIn _ _ none) (by simp)
            rw [hentry] at ha
            exact (Option.some_ne_none a ha.symm).elim
      | some a =>
          refine .broken _ _ _ (by simp) fun hsurvives => ?_
          have hmem := List.mem_of_getElem? (hbuffer.trans (congrArg some hentry))
          exact hsurvives.live a hmem (hfreed a hentry)
  | done records failIn₂ helements₂ hfits₂ _ hshrink₂ =>
      rw [arrayDelete_map Prod.fst hrecords] at helements₂
      simp only [hshrink₂, Bool.not_true, Bool.false_eq_true, if_false]
      -- the keys
      have hdelete := dxArrayDelete_deletion hkeys_fits hlt_keys failIn₂
      generalize dxArrayDelete recs.recordKeys l₁.length failIn₂ = deletion at hdelete ⊢
      cases hdelete with
      | failed keys helements hfits hfail hshrink =>
          simp only [hshrink, Bool.not_false, if_true]
          refine .broken _ _ _ (by simp) (not_survives_of_length (Or.inl ?_))
          simp [helements, helements₂, hkeys]
      | done keys failIn₃ helements₃ hfits₃ _ hshrink₃ =>
          rw [arrayDelete_map _ hkeys] at helements₃
          simp only [hshrink₃, Bool.not_true, Bool.false_eq_true, if_false]
          -- the string buffers
          have hdelete := dxArrayDelete_deletion hbuffers_fits hlt_buffers failIn₃
          generalize dxArrayDelete recs.recordBuffers l₁.length failIn₃ = deletion at hdelete ⊢
          cases hdelete with
          | failed buffers helements hfits hfail hshrink =>
              simp only [hshrink]
              refine .broken _ _ _ (by simp) (not_survives_of_length (Or.inr ?_))
              simp [helements, helements₂, hbuffers]
          | done buffers failIn₄ helements₄ hfits₄ _ hshrink₄ =>
              rw [arrayDelete_map _ hbuffers] at helements₄
              simp only [hshrink₄]
              simp only [failingShrink, Option.map_none]
              exact .sound _ _ _ (l₁ ++ l₂) trivial ⟨⟨helements₂, helements₃, helements₄, hfits₂,
                hfits₃, hfits₄⟩, howned₁.keep (keeps_failIn _ _ none) (by simp), hsorted.erase⟩

theorem set_map {β : Type*} (f : Entry S D → β) {elements : List β}
    (h : elements = (l₁ ++ entry :: l₂).map f) (entry' : Entry S D) :
    elements.set l₁.length (f entry') = (l₁ ++ entry' :: l₂).map f := by
  rw [h, List.map_append, List.map_append, List.map_cons, List.map_cons]
  simp

theorem fits_set {α : Type*} {array : DxArray α} (h : array.Fits) (i : ℕ) (elem : α) :
    DxArray.Fits { array with elements := array.elements.set i elem } where
  allocated := by
    rw [List.length_set]
    exact h.allocated
  capacity := by
    rw [List.length_set]
    exact h.capacity

/-- An entry in the place of another one with its key. -/
theorem Sound.replace (h : Sound kind (l₁ ++ entry :: l₂) recs mem)
    (hkey : recordKey kind entry'.1.event = recordKey kind entry.1.event)
    (howned : Owned (l₁ ++ entry' :: l₂) mem') :
    Sound kind (l₁ ++ entry' :: l₂)
      { recs with
        recordBuffers := { recs.recordBuffers with
          elements := recs.recordBuffers.elements.set l₁.length entry'.2 }
        records := { recs.records with
          elements := recs.records.elements.set l₁.length entry'.1 } } mem' where
  aligned :=
    { records := set_map Prod.fst h.aligned.records entry'
      keys := by
        rw [h.aligned.keys, List.map_append, List.map_append, List.map_cons, List.map_cons, hkey]
      buffers := set_map Prod.snd h.aligned.buffers entry'
      records_fits := fits_set h.aligned.records_fits ..
      keys_fits := h.aligned.keys_fits
      buffers_fits := fits_set h.aligned.buffers_fits .. }
  owned := howned
  sorted := h.sorted.replace (congrArg RecordKey.rank hkey)

theorem heldStrings_of_emptied (h : Emptied mem stringBuffer) :
    heldStrings mem stringBuffer = [] := by
  unfold heldStrings
  cases stringBuffer with
  | none => rfl
  | some a =>
      obtain ⟨array, harray, helements⟩ := h a rfl
      rw [Option.bind_some, harray]
      simp only [helements, List.filterMap_nil]

theorem holds_of_emptied {record : StoredRecord S D} (h : Emptied mem stringBuffer)
    (hstrings : record.strings.filterMap id = []) : Holds mem record stringBuffer := by
  cases stringBuffer with
  | none => exact hstrings
  | some a =>
      obtain ⟨array, harray, helements⟩ := h a rfl
      exact ⟨array, harray, by rw [helements, hstrings, List.filterMap_nil]⟩

/-- A new address is not that of a string buffer of an entry. -/
theorem Owned.ne_of_le (h : Owned entries mem) (he : entry ∈ entries) {a : ℕ} (ha : mem.next ≤ a) :
    entry.2 ≠ some a := by
  intro heq
  have hholds := h.holds entry he
  rw [heq] at hholds
  exact absurd (lt_next_of_holds h.fresh hholds) (not_lt.mpr ha)

/-- `replaceRecordWith` at an entry with the key of the event. -/
theorem replaceRecordWith_outcome (h : Sound kind (l₁ ++ entry :: l₂) recs mem)
    (source : SourceEvent S D)
    (hkey : recordKey kind source.event = recordKey kind entry.1.event) :
    Outcome kind (ReplaceSpared kind recs l₁.length source mem.failIn)
      (replaceRecordWith kind mem recs l₁.length source) := by
  have howned := h.owned
  obtain ⟨hothers, hholds, hapart⟩ := owned_middle.mp howned
  have hlt : ¬ l₁.length ≥ recs.records.elements.length := by
    simp [h.aligned.records]
  have hrecord : recs.records.elements[l₁.length]? = some entry.1 := by
    simp [h.aligned.records]
  have hbuffer : recs.recordBuffers.elements[l₁.length]? = some entry.2 := by
    simp [h.aligned.buffers]
  obtain ⟨mem₁, hclear, hfailIn₁, hbuffer₁, hkeeps₁⟩ := stringArrayFree_of_holds howned.fresh hholds
  have hothers₁ : Owned (l₁ ++ l₂) mem₁ :=
    hothers.keep hkeeps₁ fun other hother a ha => hapart other hother a ha
  have hspared : ReplaceSpared kind recs l₁.length source mem.failIn ↔
      (entry.1.strings.filterMap id ≠ [] →
        ¬ Fatal mem.failIn (copyAllocations kind entry.2.isSome source)) := by
    constructor
    · exact fun hspared => hspared entry.1 entry.2 hrecord hbuffer
    · rintro hspared record stringBuffer hrecord' hbuffer'
      obtain rfl := Option.some.inj (hrecord.symm.trans hrecord')
      obtain rfl := Option.some.inj (hbuffer.symm.trans hbuffer')
      exact hspared
  have hcopy := eventCopy_spec kind source hbuffer₁ hothers₁.fresh
  unfold replaceRecordWith
  simp only [if_neg hlt, hbuffer, bind, Except.bind, pure, Except.pure, hclear]
  generalize eventCopy kind mem₁ source entry.2 = copy at hcopy ⊢
  have hplaced : ∀ stringBuffer' : Option ℕ,
      (∀ a, stringBuffer' = some a → entry.2 = some a ∨ mem₁.next ≤ a) →
      ∀ other ∈ l₁ ++ l₂, ∀ a, stringBuffer' = some a → other.2 ≠ some a := by
    intro stringBuffer' hplace other hother a ha
    rcases hplace a ha with hsame | hnew
    · exact hapart other hother a hsame
    · exact hothers₁.ne_of_le hother hnew
  cases hcopy with
  | copied obj stringBuffer' mem₂ hfatal hfailIn₂ hevent hholds₂ hplace hkeeps₂ =>
      rw [hfailIn₁] at hfatal
      have hothers₂ : Owned (l₁ ++ l₂) mem₂ :=
        hothers₁.keep hkeeps₂ fun other hother a ha => hapart other hother a ha
      have howned₂ : Owned (l₁ ++ (obj, stringBuffer') :: l₂) mem₂ :=
        owned_middle.mpr ⟨hothers₂, hholds₂, hplaced stringBuffer' hplace⟩
      have hkey' : recordKey kind obj.event = recordKey kind entry.1.event := by
        rw [hevent, hkey]
      exact .sound _ _ _ _ (hspared.mpr fun _ => hfatal) (h.replace hkey' howned₂)
  | failed stringBuffer' mem₂ hfatal hemptied hplace hkeeps₂ =>
      rw [hfailIn₁] at hfatal
      by_cases hstrings : entry.1.strings.filterMap id = []
      · have hothers₂ : Owned (l₁ ++ l₂) mem₂ :=
          hothers₁.keep hkeeps₂ fun other hother a ha => hapart other hother a ha
        have howned₂ : Owned (l₁ ++ (entry.1, stringBuffer') :: l₂) mem₂ :=
          owned_middle.mpr ⟨hothers₂, holds_of_emptied hemptied hstrings,
            hplaced stringBuffer' hplace⟩
        have hsound : Sound kind (l₁ ++ (entry.1, stringBuffer') :: l₂) _ mem₂ :=
          h.replace rfl howned₂
        have hset : recs.records.elements.set l₁.length entry.1 = recs.records.elements := by
          simp [h.aligned.records]
        rw [hset] at hsound
        exact .sound _ _ _ _ (hspared.mpr fun hne => absurd hstrings hne) hsound
      · refine .broken _ _ _ (fun hall => hspared.mp hall hstrings hfatal) fun hsurvives => ?_
        -- the old record is still there, and its strings were freed
        have hlt_buffers : l₁.length < recs.recordBuffers.elements.length := by
          simp [h.aligned.buffers]
        have hset : (recs.recordBuffers.elements.set l₁.length stringBuffer')[l₁.length]? =
            some stringBuffer' := List.getElem?_set_self hlt_buffers
        have hheld := hsurvives.strings l₁.length entry.1 stringBuffer' hrecord hset
        rw [heldStrings_of_emptied hemptied] at hheld
        exact hstrings hheld.symm

theorem arrayInsert_map {β : Type*} (f : Entry S D → β) {elements : List β}
    (h : elements = (l₁ ++ l₂).map f) (entry : Entry S D) :
    arrayInsert elements (f entry) l₁.length = (l₁ ++ entry :: l₂).map f := by
  rw [h, ← map_arrayInsert, arrayInsert_append]

/-- The string buffer of a new record is freed; those of the entries are their own. -/
theorem Owned.freeNew {record : StoredRecord S D} (h : Owned entries mem)
    (hholds : Holds mem record stringBuffer)
    (hnew : ∀ entry ∈ entries, ∀ a, stringBuffer = some a → entry.2 ≠ some a) (failIn : FailIn) :
    ∃ mem', freeBuffer { mem with failIn := failIn } stringBuffer = .ok mem' ∧
      mem'.failIn = failIn ∧ Owned entries mem' := by
  have hkeeps := keeps_failIn mem failIn none
  obtain ⟨mem', hfree, hfailIn, -, hkeeps'⟩ := freeBuffer_spec (hkeeps.fresh h.fresh)
    (hholds.keep h.fresh hkeeps nofun)
  exact ⟨mem', hfree, hfailIn, (h.keep hkeeps nofun).keep hkeeps' hnew⟩

/-- `addEventRecordWith` at the place for the event. -/
theorem addEventRecordWith_outcome (h : Sound kind (l₁ ++ l₂) recs mem) (source : SourceEvent S D)
    (h₁ : ∀ a ∈ l₁, entryRank kind a < eventRank kind source.event)
    (h₂ : ∀ b ∈ l₂, eventRank kind source.event < entryRank kind b) :
    Outcome kind (AddSpared kind recs source mem.failIn)
      (addEventRecordWith kind mem recs source l₁.length) := by
  obtain ⟨⟨hrecords, hkeys, hbuffers, hrecords_fits, hkeys_fits, hbuffers_fits⟩, howned,
    hsorted⟩ := h
  have hle_records : l₁.length ≤ recs.records.elements.length := by
    simp [hrecords]
  have hle_keys : l₁.length ≤ recs.recordKeys.elements.length := by
    simp [hkeys]
  have hle_buffers : l₁.length ≤ recs.recordBuffers.elements.length := by
    simp [hbuffers]
  have hcopy : EventCopy kind mem source none (eventCopy kind mem source none) :=
    eventCopy_spec kind source ⟨rfl, rfl⟩ howned.fresh
  unfold addEventRecordWith
  simp only [bind, Except.bind, pure, Except.pure]
  generalize eventCopy kind mem source none = copy at hcopy ⊢
  cases hcopy with
  | failed stringBuffer mem₁ hfatal hemptied hplace hkeeps =>
      exact .sound _ _ _ (l₁ ++ l₂) (Or.inl hfatal) ⟨⟨hrecords, hkeys, hbuffers, hrecords_fits,
        hkeys_fits, hbuffers_fits⟩, howned.keep hkeeps nofun, hsorted⟩
  | copied obj stringBuffer mem₁ hfatal hfailIn hevent hholds hplace hkeeps =>
      rw [Option.isSome_none] at hfatal hfailIn
      have hspared : AddSpared kind recs source mem.failIn ↔ HasRoom mem₁.failIn recs.extents := by
        rw [AddSpared, or_iff_right hfatal, hfailIn]
      have hothers₁ : Owned (l₁ ++ l₂) mem₁ := howned.keep hkeeps nofun
      have hnew : ∀ other ∈ l₁ ++ l₂, ∀ a, stringBuffer = some a → other.2 ≠ some a := by
        intro other hother a ha
        exact howned.ne_of_le hother ((hplace a ha).resolve_left nofun)
      have hfree := hothers₁.freeNew hholds hnew
      rw [RecordArrays.extents] at hspared
      simp only
      -- the records
      have hinsert := dxArrayInsert_insertion hrecords_fits obj hle_records mem₁.failIn
      generalize dxArrayInsert recs.records obj l₁.length mem₁.failIn = insertion at hinsert ⊢
      cases hinsert with
      | overrun hroom => exact .fault _ (hspared.not.mpr (hroom _))
      | failed records helements hfits hroom =>
          obtain ⟨mem₂, hfree₂, -, howned₂⟩ := hfree none
          simp only [Bool.not_false, if_true, hfree₂]
          exact .sound _ _ _ (l₁ ++ l₂) (hspared.mpr (hroom _)) ⟨⟨helements.trans hrecords, hkeys,
            hbuffers, hfits, hkeys_fits, hbuffers_fits⟩, howned₂, hsorted⟩
      | done records failIn₂ helements₂ hfits₂ _ hroom₂ =>
          have hrecords₂ := helements₂.trans (arrayInsert_map Prod.fst hrecords (obj, stringBuffer))
          have hlt_records : l₁.length < records.elements.length := by
            simp [hrecords₂]
          rw [hroom₂] at hspared
          simp only [Bool.not_true, Bool.false_eq_true, if_false]
          -- the keys
          have hinsert := dxArrayInsert_insertion hkeys_fits (recordKey kind source.event) hle_keys
            failIn₂
          generalize dxArrayInsert recs.recordKeys _ l₁.length failIn₂ = insertion at hinsert ⊢
          cases hinsert with
          | overrun hroom => exact .fault _ (hspared.not.mpr (hroom _))
          | failed keys helements hfits hroom =>
              obtain ⟨mem₂, hfree₂, hfailIn₂, howned₂⟩ := hfree none
              obtain ⟨records', hdelete, hrecords', hfits'⟩ := dxArrayDelete_none hfits₂ hlt_records
              rw [arrayDelete_map Prod.fst hrecords₂] at hrecords'
              simp only [Bool.not_false, if_true, hfree₂, hfailIn₂, hdelete]
              exact .sound _ _ _ (l₁ ++ l₂) (hspared.mpr (hroom _)) ⟨⟨hrecords',
                helements.trans hkeys, hbuffers, hfits', hfits, hbuffers_fits⟩,
                howned₂.keep (keeps_failIn _ _ none) nofun, hsorted⟩
          | done keys failIn₃ helements₃ hfits₃ _ hroom₃ =>
              have hkeys₃ := arrayInsert_map _ hkeys (obj, stringBuffer)
              rw [hevent, ← helements₃] at hkeys₃
              have hlt_keys : l₁.length < keys.elements.length := by
                simp [hkeys₃]
              rw [hroom₃] at hspared
              simp only [Bool.not_true, Bool.false_eq_true, if_false]
              -- the string buffers
              have hinsert := dxArrayInsert_insertion hbuffers_fits stringBuffer hle_buffers failIn₃
              generalize dxArrayInsert recs.recordBuffers stringBuffer l₁.length failIn₃ =
                insertion at hinsert ⊢
              cases hinsert with
              | overrun hroom => exact .fault _ (hspared.not.mpr (hroom _))
              | failed buffers helements hfits hroom =>
                  obtain ⟨mem₂, hfree₂, hfailIn₂, howned₂⟩ := hfree none
                  obtain ⟨records', hdelete, hrecords', hfits'⟩ :=
                    dxArrayDelete_none hfits₂ hlt_records
                  obtain ⟨keys', hdelete', hkeys', hfits''⟩ := dxArrayDelete_none hfits₃ hlt_keys
                  rw [arrayDelete_map Prod.fst hrecords₂] at hrecords'
                  rw [arrayDelete_map _ hkeys₃] at hkeys'
                  simp only [Bool.not_false, if_true, hfree₂, hfailIn₂, hdelete, hdelete']
                  exact .sound _ _ _ (l₁ ++ l₂) (hspared.mpr (hroom _)) ⟨⟨hrecords', hkeys',
                    helements.trans hbuffers, hfits', hfits'', hfits⟩,
                    howned₂.keep (keeps_failIn _ _ none) nofun, hsorted⟩
              | done buffers failIn₄ helements₄ hfits₄ _ hroom₄ =>
                  have hbuffers₄ := helements₄.trans
                    (arrayInsert_map Prod.snd hbuffers (obj, stringBuffer))
                  have hall : HasRoom failIn₃ [recs.recordBuffers.extent] :=
                    (hroom₄ []).mpr trivial
                  have howned₄ : Owned (l₁ ++ (obj, stringBuffer) :: l₂) mem₁ :=
                    owned_middle.mpr ⟨hothers₁, hholds, hnew⟩
                  have hrank : entryRank kind (obj, stringBuffer) = eventRank kind source.event :=
                    congrArg (eventRank kind) hevent
                  simp only [Bool.not_true, Bool.false_eq_true, if_false]
                  exact .sound _ _ _ _ (hspared.mpr hall) ⟨⟨hrecords₂, hkeys₃, hbuffers₄, hfits₂,
                    hfits₃, hfits₄⟩, howned₄.keep (keeps_failIn _ _ none) nofun,
                    hsorted.insert (hrank ▸ h₁) (hrank ▸ h₂)⟩

theorem freeBuffers_spec (h : Owned entries mem) :
    ∃ mem', freeBuffers mem (entries.map Prod.snd) = .ok mem' ∧
      ∀ a, mem'.next ≤ a → mem'.arrays a = none := by
  induction entries generalizing mem with
  | nil => exact ⟨mem, rfl, h.fresh⟩
  | cons entry entries ih =>
      have hmiddle : Owned ([] ++ entry :: entries) mem := h
      obtain ⟨hothers, hholds, hapart⟩ := owned_middle.mp hmiddle
      obtain ⟨mem₁, hfree, -, -, hkeeps⟩ := freeBuffer_spec h.fresh hholds
      obtain ⟨mem₂, hrest, hfresh⟩ := ih (hothers.keep hkeeps hapart)
      refine ⟨mem₂, ?_, hfresh⟩
      rw [List.map_cons, freeBuffers]
      simp only [bind, Except.bind, hfree, hrest]

theorem sound_empty (hfresh : ∀ a, mem.next ≤ a → mem.arrays a = none) :
    Sound kind [] (.empty : RecordArrays S D) mem where
  aligned := ⟨rfl, rfl, rfl, ⟨le_rfl, Nat.zero_le _⟩, ⟨le_rfl, Nat.zero_le _⟩,
    ⟨le_rfl, Nat.zero_le _⟩⟩
  owned := ⟨nofun, .nil, hfresh⟩
  sorted := keySorted_nil

/-- The search finds the entry with the key of the event, or the place for it. -/
theorem searchKey_located (h : Sound kind entries recs mem) (event : Event S D) :
    Located (entryRank kind) (eventRank kind event) entries (searchKey kind recs event).1
      (searchKey kind recs event).2 := by
  have hsorted : KeySorted RecordKey.rank recs.recordKeys.elements := by
    rw [h.aligned.keys]
    exact List.pairwise_map.mpr h.sorted
  have hlocated := binarySearch_located_full (recordKey kind event) recordsComparator2_orders
    hsorted
  have hkeys := h.aligned.keys
  unfold searchKey
  generalize binarySearch recs.recordKeys.elements 0 recs.recordKeys.elements.length
    (recordKey kind event) recordsComparator2 = answer at hlocated ⊢
  rw [hkeys] at hlocated
  exact hlocated.of_map

theorem Sound.withFailIn (h : Sound kind entries recs mem) (failIn : FailIn) :
    Sound kind entries recs { mem with failIn := failIn } where
  aligned := h.aligned
  owned := h.owned.keep (keeps_failIn mem failIn none) nofun
  sorted := h.sorted

/-- Every call for an intact store. -/
theorem storeCall_outcome (h : Sound kind entries recs mem) (call : StoreCall S D) :
    Outcome kind (Spared kind (.ok (recs, mem)) call) (storeCall kind mem recs call) := by
  cases call with
  | clear =>
      obtain ⟨mem', hfree, hfresh⟩ := freeBuffers_spec h.owned
      rw [← h.aligned.buffers] at hfree
      rw [storeCall, clearRecordsArray, hfree]
      exact .sound _ _ _ [] trivial (sound_empty hfresh)
  | remove event failIn =>
      have hlocated := searchKey_located h event
      have h' := h.withFailIn failIn
      simp only [storeCall, removeEventRecordsWith, Spared]
      generalize searchKey kind recs event = answer at hlocated ⊢
      obtain ⟨found, index⟩ := answer
      cases hlocated with
      | found l₁ entry l₂ hentry => exact removeEventRecordWith_outcome h'
      | missing l₁ l₂ h₁ h₂ => exact .sound _ _ _ (l₁ ++ l₂) trivial h'
  | update source failIn =>
      have hlocated := searchKey_located h source.event
      have h' := h.withFailIn failIn
      simp only [storeCall, updateEventRecordsWith, Spared]
      generalize searchKey kind recs source.event = answer at hlocated ⊢
      obtain ⟨found, index⟩ := answer
      cases hlocated with
      | found l₁ entry l₂ hentry =>
          exact replaceRecordWith_outcome h' source (recordKey_rank_injective hentry.symm)
      | missing l₁ l₂ h₁ h₂ => exact addEventRecordWith_outcome h' source h₁ h₂

/-! ### Runs -/

theorem storeSurvives_iff_of_sound (h : Sound kind entries recs mem)
    (calls : List (StoreCall S D)) :
    Run.AllSteps (fun store call => StoreSurvives kind (storeStep kind store call).1)
        (storeStep kind) (.ok (recs, mem)) calls ↔
      Run.AllSteps (Spared kind) (storeStep kind) (.ok (recs, mem)) calls := by
  induction calls generalizing entries recs mem with
  | nil => exact Iff.rfl
  | cons call calls ih =>
      have houtcome := storeCall_outcome h call
      rw [Run.allSteps_cons, Run.allSteps_cons, storeStep]
      generalize storeCall kind mem recs call = result at houtcome ⊢
      cases houtcome with
      | sound success recs' mem' entries' hspared hsound =>
          exact and_congr (iff_of_true hsound.survives hspared) (ih hsound)
      | broken success recs' mem' hspared hbroken =>
          exact iff_of_false (fun hall => hbroken hall.1) fun hall => hspared hall.1
      | fault fault hspared => exact iff_of_false (fun hall => hall.1) fun hall => hspared hall.1

/-- A store survives all calls if and only if no allocation fails where it does harm. -/
theorem storeSurvives_iff_spared (kind : SnapshotKind) (calls : List (StoreCall S D)) :
    Run.AllSteps (fun store call => StoreSurvives kind (storeStep kind store call).1)
        (storeStep kind) newStore calls ↔
      Run.AllSteps (Spared kind) (storeStep kind) newStore calls :=
  storeSurvives_iff_of_sound (sound_empty fun _ _ => rfl) calls

/-- An order with the code of a market maker. -/
def makerOrder (time : ℕ) : SourceEvent ℕ Unit where
  event :=
    { data := { eventFlags := 0, index := 0, size := 1, strings := [[65]], fields := () }
      params := { flags := 0, timeIntField := time, snapshotKey := 0 } }
  strings := [some [65]]
  strings_eq := rfl

/-- A snapshot of orders. -/
def orders : SnapshotKind where
  eventId := .order
  recordInfoId := .order
  storable := hasRecords_order

/-- The last removal shrinks the records from four places to one, and this allocation fails. -/
def failedRemoval : List (StoreCall ℕ Unit) :=
  [.update (makerOrder 1) none, .update (makerOrder 2) none, .update (makerOrder 3) none,
    .remove (makerOrder 1).event none, .remove (makerOrder 2).event (some 0)]

/-- A record stays whose string buffer was freed. -/
theorem not_storeSurvives_failedRemoval :
    ¬ StoreSurvives orders (Run.run (storeStep orders) newStore failedRemoval).1 := by
  intro h
  have h : Survives orders _ _ := h
  exact h.live 2 (by decide) rfl

end DxFeed.Snapshot
