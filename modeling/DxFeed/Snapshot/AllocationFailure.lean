import DxFeed.Library.Run
import DxFeed.Snapshot.Allocation

/-!
# Allocation failures in a snapshot

What the functions of `Allocation` do when one of the allocations of a call fails.

* `HasBuffer`, `Keeps`: a string buffer with its strings, and a call that leaves the others;
* `copyStrings_spec`: copying strings into a buffer gets all of them, or frees the buffer;
* `EventCopy`, `eventCopy_spec`: the copy of an event is complete, or nothing of it is left.
-/

namespace DxFeed.Snapshot

variable {S D : Type}

/-! ### String buffers -/

/-- A string buffer with these strings, in a block of this capacity; `NULL` is one without
strings. -/
def HasBuffer (mem : Memory) (elements : List (Option ℕ)) (capacity : ℕ) : Option ℕ → Prop
  | none => elements = [] ∧ capacity = 0
  | some a => a < mem.next ∧ elements.length ≤ capacity ∧
      mem.arrays a = some ⟨elements, capacity, capacity⟩

/-- A string buffer that was freed with its strings, or was never filled. -/
def Emptied (mem : Memory) (stringBuffer : Option ℕ) : Prop :=
  ∀ a, stringBuffer = some a → ∃ array, mem.arrays a = some array ∧ array.elements = []

/-- Only this string buffer and new ones have changed. -/
structure Keeps (stringBuffer : Option ℕ) (mem mem' : Memory) : Prop where
  next_le : mem.next ≤ mem'.next
  fresh : (∀ a, mem.next ≤ a → mem.arrays a = none) → ∀ a, mem'.next ≤ a → mem'.arrays a = none
  same : ∀ a < mem.next, stringBuffer ≠ some a → mem'.arrays a = mem.arrays a

theorem Keeps.refl (stringBuffer : Option ℕ) (mem : Memory) : Keeps stringBuffer mem mem :=
  ⟨le_rfl, id, fun _ _ _ => rfl⟩

theorem Keeps.trans {stringBuffer stringBuffer' : Option ℕ} {mem mem' mem'' : Memory}
    (h : Keeps stringBuffer mem mem') (h' : Keeps stringBuffer' mem' mem'')
    (hbuffer : ∀ a, stringBuffer' = some a → stringBuffer = some a ∨ mem.next ≤ a) :
    Keeps stringBuffer mem mem'' where
  next_le := h.next_le.trans h'.next_le
  fresh := fun hfresh => h'.fresh (h.fresh hfresh)
  same := by
    intro a ha hne
    have hne' : stringBuffer' ≠ some a := by
      intro heq
      rcases hbuffer a heq with hsame | hnew
      · exact hne hsame
      · omega
    rw [h'.same a (ha.trans_le h.next_le) hne', h.same a ha hne]

theorem calloc_eq (mem : Memory) :
    mem.calloc = (decide (mem.failIn ≠ some 0),
      { mem with failIn := afterAllocations 1 mem.failIn }) := by
  rw [Memory.calloc, allocate_eq]

theorem keeps_update {mem : Memory} {a : ℕ} (ha : a < mem.next) (failIn : FailIn)
    (array : Option (DxArray (Option ℕ))) :
    Keeps (some a) mem
      { mem with failIn := failIn, arrays := Function.update mem.arrays a array } where
  next_le := le_rfl
  fresh := by
    intro hfresh b hb
    have hne : b ≠ a := by
      have hle : mem.next ≤ b := hb
      omega
    exact (Function.update_of_ne hne ..).trans (hfresh b hb)
  same := by
    intro b _ hne
    exact Function.update_of_ne (fun heq => hne (congrArg some heq.symm)) ..

/-- The number of a string is given out, unless its allocation fails. -/
theorem createStringSrc_spec (mem : Memory) (src : WString) :
    ∃ tempStr mem', createStringSrc mem src = (tempStr, mem') ∧
      mem'.failIn = afterAllocations 1 mem.failIn ∧ mem'.arrays = mem.arrays ∧
      mem.next ≤ mem'.next := by
  rw [createStringSrc, calloc_eq]
  by_cases hfail : mem.failIn = some 0
  · exact ⟨none, { mem with failIn := none }, by simp [hfail, afterAllocations],
      by simp [hfail, afterAllocations], rfl, le_rfl⟩
  · exact ⟨some mem.next,
      { mem with failIn := afterAllocations 1 mem.failIn, next := mem.next + 1 },
      by simp [hfail], rfl, rfl, Nat.le_succ _⟩

theorem keeps_createStringSrc {mem mem' : Memory} (harrays : mem'.arrays = mem.arrays)
    (hnext : mem.next ≤ mem'.next) (stringBuffer : Option ℕ) : Keeps stringBuffer mem mem' where
  next_le := hnext
  fresh := by
    intro hfresh b hb
    rw [harrays]
    exact hfresh b (hnext.trans hb)
  same := by
    intro b _ _
    rw [harrays]

/-- A string is added to a string buffer, or the allocation that this needs fails. -/
theorem stringArrayAdd_spec {mem : Memory} {elements : List (Option ℕ)} {capacity a : ℕ}
    (h : HasBuffer mem elements capacity (some a)) (obj : Option ℕ) :
    (¬ Fatal mem.failIn (growthAllocations elements.length capacity) ∧
      ∃ mem', stringArrayAdd mem (some a) obj = .ok (true, mem') ∧
        mem'.failIn =
          afterAllocations (growthAllocations elements.length capacity).length mem.failIn ∧
        HasBuffer mem' (elements ++ [obj]) (grownCapacity elements.length capacity) (some a) ∧
        Keeps (some a) mem mem') ∨
    Fatal mem.failIn (growthAllocations elements.length capacity) ∧
      ∃ mem' array, stringArrayAdd mem (some a) obj = .ok (false, mem') ∧
        mem'.arrays a = some array ∧ array.elements = elements ∧ Keeps (some a) mem mem' := by
  obtain ⟨ha, hle, harray⟩ := h
  unfold stringArrayAdd
  simp only [harray]
  rcases dxArrayInsert_end hle obj mem.failIn with ⟨hfail, hinsert⟩ | ⟨hfail, hinsert⟩
  · left
    rw [hinsert]
    refine ⟨hfail, _, rfl, rfl, ⟨ha, ?_, Function.update_self ..⟩, keeps_update ha _ _⟩
    rw [List.length_append, List.length_singleton]
    exact lt_grownCapacity hle
  · right
    rw [hinsert]
    exact ⟨hfail, _, _, rfl, Function.update_self .., rfl, keeps_update ha _ _⟩

/-- The strings of a buffer are freed. -/
theorem stringArrayFree_spec {mem : Memory} {a : ℕ} {array : DxArray (Option ℕ)}
    (ha : a < mem.next) (harray : mem.arrays a = some array) :
    ∃ mem', stringArrayFree mem (some a) = .ok mem' ∧ mem'.failIn = mem.failIn ∧
      HasBuffer mem' [] 0 (some a) ∧ Keeps (some a) mem mem' := by
  unfold stringArrayFree
  simp only [harray]
  exact ⟨_, rfl, rfl, ⟨ha, le_rfl, Function.update_self ..⟩, keeps_update ha _ _⟩

/-- A buffer is freed. -/
theorem freeStringArray_spec {mem : Memory} {a : ℕ} {array : DxArray (Option ℕ)}
    (ha : a < mem.next) (harray : mem.arrays a = some array) :
    ∃ mem', freeStringArray mem (some a) = .ok mem' ∧ mem'.failIn = mem.failIn ∧
      mem'.arrays a = none ∧ Keeps (some a) mem mem' := by
  unfold freeStringArray
  simp only [harray]
  exact ⟨_, rfl, rfl, Function.update_self .., keeps_update ha _ _⟩

/-- A new buffer, unless its allocation fails. -/
theorem callocStringArray_spec {mem : Memory} (hfresh : ∀ a, mem.next ≤ a → mem.arrays a = none) :
    (mem.failIn = some 0 ∧ ∃ mem', callocStringArray mem = (none, mem') ∧
      mem'.failIn = none ∧ Keeps none mem mem') ∨
    mem.failIn ≠ some 0 ∧ ∃ mem', callocStringArray mem = (some mem.next, mem') ∧
      mem'.failIn = afterAllocations 1 mem.failIn ∧ HasBuffer mem' [] 0 (some mem.next) ∧
      Keeps none mem mem' := by
  rw [callocStringArray, calloc_eq]
  by_cases hfail : mem.failIn = some 0
  · left
    refine ⟨hfail, { mem with failIn := none }, by simp [hfail, afterAllocations], rfl, ?_⟩
    exact ⟨le_rfl, id, fun _ _ _ => rfl⟩
  · right
    refine ⟨hfail,
      { mem with
        failIn := afterAllocations 1 mem.failIn
        arrays := Function.update mem.arrays mem.next (some .empty)
        next := mem.next + 1 },
      by simp [hfail], rfl, ⟨Nat.lt_succ_self _, le_rfl, Function.update_self ..⟩,
      Nat.le_succ _, fun _ b hb => ?_, fun b hb _ => ?_⟩
    · have hlt : mem.next < b := hb
      exact (Function.update_of_ne hlt.ne' ..).trans (hfresh b hlt.le)
    · exact Function.update_of_ne hb.ne ..

/-! ### Copies of events -/

/-- The allocations of a string field: the buffer, if there is none, the string, which is not
needed, and the place in the buffer. -/
def stringAllocations (buffered : Bool) (size capacity : ℕ) : List Bool :=
  (if buffered then [] else [true]) ++ false :: growthAllocations size capacity

/-- How the copy of a string field ends. -/
inductive StringCopy (mem : Memory) (stringBuffer : Option ℕ) (elements : List (Option ℕ))
    (capacity : ℕ) : Except MemoryFault (Option (Option ℕ) × Option ℕ × Memory) → Prop
  | copied (tempStr : Option ℕ) (a : ℕ) (mem' : Memory)
      (hfatal : ¬ Fatal mem.failIn
        (stringAllocations stringBuffer.isSome elements.length capacity))
      (hfailIn : mem'.failIn = afterAllocations
        (stringAllocations stringBuffer.isSome elements.length capacity).length mem.failIn)
      (hbuffer : HasBuffer mem' (elements ++ [tempStr])
        (grownCapacity elements.length capacity) (some a))
      (hplace : stringBuffer = some a ∨ stringBuffer = none ∧ mem.next ≤ a)
      (hkeeps : Keeps stringBuffer mem mem') :
      StringCopy mem stringBuffer elements capacity (.ok (some tempStr, some a, mem'))
  | failed (mem' : Memory)
      (hfatal : Fatal mem.failIn
        (stringAllocations stringBuffer.isSome elements.length capacity))
      (hemptied : Emptied mem' stringBuffer)
      (hkeeps : Keeps stringBuffer mem mem') :
      StringCopy mem stringBuffer elements capacity (.ok (none, stringBuffer, mem'))

variable {mem : Memory} {stringBuffer : Option ℕ} {elements : List (Option ℕ)} {capacity : ℕ}
  {first : Bool}

/-- The string field goes into a buffer that is there. -/
theorem copyString_buffered {a : ℕ} (h : HasBuffer mem elements capacity (some a))
    (hfirst : first = true → elements = []) (src : WString) :
    StringCopy mem (some a) elements capacity (copyString mem (some a) first src) := by
  obtain ⟨ha, hle, harray⟩ := h
  obtain ⟨tempStr, mem₁, hstring, hfailIn₁, harrays₁, hnext₁⟩ := createStringSrc_spec mem src
  have hbuffer₁ : HasBuffer mem₁ elements capacity (some a) :=
    ⟨ha.trans_le hnext₁, hle, by rw [harrays₁, harray]⟩
  have hkeeps₁ := keeps_createStringSrc harrays₁ hnext₁ (some a)
  have hallocations : stringAllocations (some a).isSome elements.length capacity =
      false :: growthAllocations elements.length capacity := rfl
  have hfatal : Fatal mem.failIn (stringAllocations (some a).isSome elements.length capacity) ↔
      Fatal mem₁.failIn (growthAllocations elements.length capacity) := by
    rw [hallocations, fatal_cons, hfailIn₁]
    simp
  have hself : ∀ b, some a = some b → some a = some b ∨ mem.next ≤ b := fun _ => Or.inl
  unfold copyString
  simp only [reduceCtorEq, if_false, hstring, bind, Except.bind, pure, Except.pure]
  rcases stringArrayAdd_spec hbuffer₁ tempStr with ⟨hok, mem₂, hadd, hfailIn₂, hbuffer₂, hkeeps₂⟩ |
    ⟨hfail, mem₂, array, hadd, harray₂, helements, hkeeps₂⟩
  · simp only [hadd, if_true]
    refine .copied tempStr a mem₂ (hfatal.not.mpr hok) ?_ hbuffer₂ (Or.inl rfl)
      (hkeeps₁.trans hkeeps₂ hself)
    rw [hfailIn₂, hfailIn₁, hallocations, List.length_cons, Nat.add_comm, afterAllocations_add]
  · simp only [hadd, Bool.false_eq_true, if_false]
    cases first with
    | true =>
        simp only [if_true]
        refine .failed mem₂ (hfatal.mpr hfail) ?_ (hkeeps₁.trans hkeeps₂ hself)
        rintro b hb
        obtain rfl := Option.some.inj hb
        exact ⟨array, harray₂, helements.trans (hfirst rfl)⟩
    | false =>
        obtain ⟨mem₃, hfree, -, hbuffer₃, hkeeps₃⟩ :=
          stringArrayFree_spec (hbuffer₁.1.trans_le hkeeps₂.next_le) harray₂
        simp only [Bool.false_eq_true, if_false, hfree]
        refine .failed mem₃ (hfatal.mpr hfail) ?_
          ((hkeeps₁.trans hkeeps₂ hself).trans hkeeps₃ hself)
        rintro b hb
        obtain rfl := Option.some.inj hb
        exact ⟨_, hbuffer₃.2.2, rfl⟩

/-- The string field goes into a new buffer; the buffer is freed again if the copy fails. -/
theorem copyString_new (hfresh : ∀ a, mem.next ≤ a → mem.arrays a = none) (first : Bool)
    (src : WString) : StringCopy mem none [] 0 (copyString mem none first src) := by
  have hallocations : stringAllocations false 0 0 =
      true :: false :: growthAllocations 0 0 := rfl
  unfold copyString
  simp only [if_true, bind, Except.bind, pure, Except.pure]
  rcases callocStringArray_spec hfresh with ⟨hfail, mem₁, hcalloc, hfailIn₁, hkeeps₁⟩ |
    ⟨hok, mem₁, hcalloc, hfailIn₁, hbuffer₁, hkeeps₁⟩
  · obtain ⟨tempStr, mem₂, hstring, -, harrays₂, hnext₂⟩ := createStringSrc_spec mem₁ src
    have hkeeps₂ := keeps_createStringSrc harrays₂ hnext₂ none
    have hfatal : Fatal mem.failIn (stringAllocations false 0 0) := by
      rw [hallocations, fatal_cons]
      exact Or.inl ⟨hfail, rfl⟩
    simp only [hcalloc, hstring, stringArrayAdd, Bool.false_eq_true, if_false]
    cases first with
    | true =>
        simp only [if_true, freeStringArray]
        refine .failed mem₂ ?_ nofun (hkeeps₁.trans hkeeps₂ nofun)
        exact hfatal
    | false =>
        simp only [Bool.false_eq_true, if_false, stringArrayFree, freeStringArray]
        refine .failed mem₂ ?_ nofun (hkeeps₁.trans hkeeps₂ nofun)
        exact hfatal
  · obtain ⟨tempStr, mem₂, hstring, hfailIn₂, harrays₂, hnext₂⟩ := createStringSrc_spec mem₁ src
    have hkeeps₂ := keeps_createStringSrc harrays₂ hnext₂ none
    have hbuffer₂ : HasBuffer mem₂ [] 0 (some mem.next) :=
      ⟨hbuffer₁.1.trans_le hnext₂, le_rfl, by rw [harrays₂, hbuffer₁.2.2]⟩
    have hfatal : Fatal mem.failIn (stringAllocations false 0 0) ↔
        Fatal mem₂.failIn (growthAllocations 0 0) := by
      rw [hallocations, fatal_cons, fatal_cons, hfailIn₂, hfailIn₁]
      simp [hok]
    have hnew : ∀ b, some mem.next = some b → none = some b ∨ mem.next ≤ b := by
      rintro b hb
      exact Or.inr (Option.some.inj hb).le
    simp only [hcalloc, hstring]
    rcases stringArrayAdd_spec hbuffer₂ tempStr with
      ⟨hadded, mem₃, hadd, hfailIn₃, hbuffer₃, hkeeps₃⟩ |
      ⟨hfail, mem₃, array, hadd, harray₃, helements, hkeeps₃⟩
    · have hlength : afterAllocations (growthAllocations 0 0).length mem₂.failIn =
          afterAllocations (stringAllocations false 0 0).length mem.failIn := by
        rw [hfailIn₂, hfailIn₁, hallocations, List.length_cons, List.length_cons, Nat.add_comm,
          afterAllocations_add, Nat.add_comm, afterAllocations_add]
      simp only [hadd, if_true]
      exact .copied tempStr mem.next mem₃ (hfatal.not.mpr hadded) (hfailIn₃.trans hlength)
        hbuffer₃ (Or.inr ⟨rfl, le_rfl⟩) ((hkeeps₁.trans hkeeps₂ nofun).trans hkeeps₃ hnew)
    · have hlt := hbuffer₂.1.trans_le hkeeps₃.next_le
      have hkeeps := (hkeeps₁.trans hkeeps₂ nofun).trans hkeeps₃ hnew
      simp only [hadd, Bool.false_eq_true, if_false]
      cases first with
      | true =>
          -- the body for the first string frees the buffer only, and it has no strings
          obtain ⟨mem₄, hfree, -, -, hkeeps₄⟩ := freeStringArray_spec hlt harray₃
          simp only [if_true, hfree]
          exact .failed mem₄ (hfatal.mpr hfail) nofun (hkeeps.trans hkeeps₄ hnew)
      | false =>
          obtain ⟨mem₄, hclear, -, hbuffer₄, hkeeps₄⟩ := stringArrayFree_spec hlt harray₃
          obtain ⟨mem₅, hfree, -, -, hkeeps₅⟩ :=
            freeStringArray_spec hbuffer₄.1 hbuffer₄.2.2
          simp only [Bool.false_eq_true, if_false, hclear, hfree]
          exact .failed mem₅ (hfatal.mpr hfail) nofun
            ((hkeeps.trans hkeeps₄ hnew).trans hkeeps₅ hnew)

theorem copyString_spec (h : HasBuffer mem elements capacity stringBuffer)
    (hfresh : ∀ a, mem.next ≤ a → mem.arrays a = none) (hfirst : first = true → elements = [])
    (src : WString) :
    StringCopy mem stringBuffer elements capacity (copyString mem stringBuffer first src) := by
  cases stringBuffer with
  | none =>
      obtain ⟨rfl, rfl⟩ := h
      exact copyString_new hfresh first src
  | some a => exact copyString_buffered h hfirst src

/-- The allocations of the string fields. -/
def copyStringAllocations : Bool → ℕ → ℕ → List (Option WString) → List Bool
  | _, _, _, [] => []
  | buffered, size, capacity, none :: srcs => copyStringAllocations buffered size capacity srcs
  | buffered, size, capacity, some _ :: srcs =>
      stringAllocations buffered size capacity ++
        copyStringAllocations true (size + 1) (grownCapacity size capacity) srcs

/-- How the copy of the string fields ends. -/
inductive StringsCopy (mem : Memory) (stringBuffer : Option ℕ) (elements : List (Option ℕ))
    (allocations : List Bool) :
    Except MemoryFault (Option (List (Option ℕ)) × Option ℕ × Memory) → Prop
  | copied (strings : List (Option ℕ)) (stringBuffer' : Option ℕ) (mem' : Memory)
      (elements' : List (Option ℕ)) (capacity' : ℕ)
      (hfatal : ¬ Fatal mem.failIn allocations)
      (hfailIn : mem'.failIn = afterAllocations allocations.length mem.failIn)
      (hbuffer : HasBuffer mem' elements' capacity' stringBuffer')
      (helements : elements'.filterMap id = elements.filterMap id ++ strings.filterMap id)
      (hplace : ∀ a, stringBuffer' = some a → stringBuffer = some a ∨ mem.next ≤ a)
      (hkeeps : Keeps stringBuffer mem mem') :
      StringsCopy mem stringBuffer elements allocations (.ok (some strings, stringBuffer', mem'))
  | failed (stringBuffer' : Option ℕ) (mem' : Memory)
      (hfatal : Fatal mem.failIn allocations)
      (hemptied : Emptied mem' stringBuffer')
      (hplace : ∀ a, stringBuffer' = some a → stringBuffer = some a ∨ mem.next ≤ a)
      (hkeeps : Keeps stringBuffer mem mem') :
      StringsCopy mem stringBuffer elements allocations (.ok (none, stringBuffer', mem'))

theorem copyStrings_spec (srcs : List (Option WString))
    (h : HasBuffer mem elements capacity stringBuffer)
    (hfresh : ∀ a, mem.next ≤ a → mem.arrays a = none) (hfirst : first = true → elements = []) :
    StringsCopy mem stringBuffer elements
      (copyStringAllocations stringBuffer.isSome elements.length capacity srcs)
      (copyStrings mem stringBuffer first srcs) := by
  -- behind the first string there is a buffer, so the bodies for the other ones start from it
  induction srcs generalizing mem stringBuffer elements capacity first with
  | nil =>
      refine .copied [] stringBuffer mem elements capacity (not_fatal_nil _) ?_ h ?_
        (fun _ => Or.inl) (.refl ..)
      · exact (afterAllocations_zero _).symm
      · exact (List.append_nil _).symm
  | cons src srcs ih =>
      cases src with
      | none =>
          have hrest : StringsCopy mem stringBuffer elements _
              (copyStrings mem stringBuffer false srcs) := ih h hfresh nofun
          rw [copyStrings, copyStringAllocations]
          generalize copyStrings mem stringBuffer false srcs = rest at hrest ⊢
          cases hrest with
          | copied strings stringBuffer' mem' elements' capacity' hfatal hfailIn hbuffer helements
              hplace hkeeps =>
              exact .copied (none :: strings) stringBuffer' mem' elements' capacity' hfatal hfailIn
                hbuffer helements hplace hkeeps
          | failed stringBuffer' mem' hfatal hemptied hplace hkeeps =>
              exact .failed stringBuffer' mem' hfatal hemptied hplace hkeeps
      | some src =>
          have hfirst := copyString_spec h hfresh hfirst src
          rw [copyStrings, copyStringAllocations]
          generalize copyString mem stringBuffer first src = copy at hfirst ⊢
          cases hfirst with
          | failed mem₁ hfatal hemptied hkeeps =>
              refine .failed stringBuffer mem₁ ?_ hemptied (fun _ => Or.inl) hkeeps
              exact (fatal_append ..).mpr (Or.inl hfatal)
          | copied tempStr a mem₁ hok hfailIn₁ hbuffer₁ hplace₁ hkeeps₁ =>
              have hplace₁ : ∀ b, some a = some b → stringBuffer = some b ∨ mem.next ≤ b := by
                rintro b hb
                obtain rfl := Option.some.inj hb
                exact hplace₁.imp_right And.right
              have hrest : StringsCopy mem₁ (some a) (elements ++ [tempStr]) _
                  (copyStrings mem₁ (some a) false srcs) :=
                ih hbuffer₁ (hkeeps₁.fresh hfresh) nofun
              rw [List.length_append, List.length_singleton] at hrest
              simp only [bind, Except.bind]
              generalize copyStrings mem₁ (some a) false srcs = rest at hrest ⊢
              have hfatal : Fatal mem.failIn (stringAllocations stringBuffer.isSome elements.length
                  capacity ++ copyStringAllocations true (elements.length + 1)
                    (grownCapacity elements.length capacity) srcs) ↔
                  Fatal mem₁.failIn (copyStringAllocations true (elements.length + 1)
                    (grownCapacity elements.length capacity) srcs) := by
                rw [fatal_append, or_iff_right hok, hfailIn₁]
              have hplace : ∀ stringBuffer' : Option ℕ,
                  (∀ b, stringBuffer' = some b → some a = some b ∨ mem₁.next ≤ b) →
                  ∀ b, stringBuffer' = some b → stringBuffer = some b ∨ mem.next ≤ b := by
                intro stringBuffer' h b hb
                rcases h b hb with hsame | hnew
                · exact hplace₁ b hsame
                · exact Or.inr (hkeeps₁.next_le.trans hnew)
              cases hrest with
              | copied strings stringBuffer' mem₂ elements' capacity' hok₂ hfailIn₂ hbuffer₂
                  helements hplace₂ hkeeps₂ =>
                  refine .copied (tempStr :: strings) stringBuffer' mem₂ elements' capacity'
                    (hfatal.not.mpr hok₂) ?_ hbuffer₂ ?_ (hplace _ hplace₂)
                    (hkeeps₁.trans hkeeps₂ hplace₁)
                  · rw [List.length_append, afterAllocations_add, ← hfailIn₁]
                    exact hfailIn₂
                  · rw [helements, List.filterMap_append, List.append_assoc,
                      ← List.filterMap_append, List.singleton_append]
              | failed stringBuffer' mem₂ hfail₂ hemptied hplace₂ hkeeps₂ =>
                  exact .failed stringBuffer' mem₂ (hfatal.mpr hfail₂) hemptied (hplace _ hplace₂)
                    (hkeeps₁.trans hkeeps₂ hplace₁)

variable (kind : SnapshotKind)

/-- The allocations of the copy of an event: the object, and the strings. -/
def copyAllocations (buffered : Bool) (source : SourceEvent S D) : List Bool :=
  true ::
    if stringParams kind.eventId = 0 then []
    else copyStringAllocations buffered 0 0 source.strings

/-- A string buffer that is allocated, and has the strings of a record. -/
def Holds (mem : Memory) (record : StoredRecord S D) : Option ℕ → Prop
  | none => record.strings.filterMap id = []
  | some a => ∃ array, mem.arrays a = some array ∧
      array.elements.filterMap id = record.strings.filterMap id

/-- How the copy of an event ends; the string buffer had no strings. -/
inductive EventCopy (mem : Memory) (source : SourceEvent S D) (stringBuffer : Option ℕ) :
    Except MemoryFault (Option (StoredRecord S D) × Option ℕ × Memory) → Prop
  | copied (obj : StoredRecord S D) (stringBuffer' : Option ℕ) (mem' : Memory)
      (hfatal : ¬ Fatal mem.failIn (copyAllocations kind stringBuffer.isSome source))
      (hfailIn : mem'.failIn = afterAllocations
        (copyAllocations kind stringBuffer.isSome source).length mem.failIn)
      (hevent : obj.event = source.event)
      (hholds : Holds mem' obj stringBuffer')
      (hplace : ∀ a, stringBuffer' = some a → stringBuffer = some a ∨ mem.next ≤ a)
      (hkeeps : Keeps stringBuffer mem mem') :
      EventCopy mem source stringBuffer (.ok (some obj, stringBuffer', mem'))
  | failed (stringBuffer' : Option ℕ) (mem' : Memory)
      (hfatal : Fatal mem.failIn (copyAllocations kind stringBuffer.isSome source))
      (hemptied : Emptied mem' stringBuffer')
      (hplace : ∀ a, stringBuffer' = some a → stringBuffer = some a ∨ mem.next ≤ a)
      (hkeeps : Keeps stringBuffer mem mem') :
      EventCopy mem source stringBuffer (.ok (none, stringBuffer', mem'))

theorem keeps_failIn (mem : Memory) (failIn : FailIn) (stringBuffer : Option ℕ) :
    Keeps stringBuffer mem { mem with failIn := failIn } :=
  ⟨le_rfl, id, fun _ _ _ => rfl⟩

theorem emptied_of_hasBuffer (h : HasBuffer mem [] capacity stringBuffer) (failIn : FailIn) :
    Emptied { mem with failIn := failIn } stringBuffer := by
  rintro a rfl
  exact ⟨_, h.2.2, rfl⟩

theorem eventCopy_spec (source : SourceEvent S D) (h : HasBuffer mem [] 0 stringBuffer)
    (hfresh : ∀ a, mem.next ≤ a → mem.arrays a = none) :
    EventCopy kind mem source stringBuffer (eventCopy kind mem source stringBuffer) := by
  have hself : ∀ a, stringBuffer = some a → stringBuffer = some a ∨ mem.next ≤ a :=
    fun _ => Or.inl
  unfold eventCopy
  simp only [calloc_eq]
  by_cases hfail : mem.failIn = some 0
  · simp only [hfail, ne_eq, not_true_eq_false, decide_false, Bool.not_false, if_true]
    refine .failed stringBuffer _ ?_ (emptied_of_hasBuffer h _) hself (keeps_failIn ..)
    rw [copyAllocations, fatal_cons]
    exact Or.inl ⟨hfail, rfl⟩
  · simp only [ne_eq, hfail, not_false_eq_true, decide_true, Bool.not_true, Bool.false_eq_true,
      if_false]
    have hkeeps₁ := keeps_failIn mem (afterAllocations 1 mem.failIn) stringBuffer
    by_cases hparams : stringParams kind.eventId = 0
    · -- the copy functions without strings set the string buffer to `NULL`
      have hallocations : copyAllocations kind stringBuffer.isSome source = [true] := by
        rw [copyAllocations, if_pos hparams]
      simp only [hparams, if_true]
      refine .copied _ none _ ?_ ?_ rfl rfl nofun hkeeps₁
      · rw [hallocations, fatal_cons]
        rintro (⟨heq, -⟩ | hnil)
        · exact hfail heq
        · exact not_fatal_nil _ hnil
      · rw [hallocations]
        rfl
    · have hallocations : copyAllocations kind stringBuffer.isSome source =
          true :: copyStringAllocations stringBuffer.isSome 0 0 source.strings := by
        rw [copyAllocations, if_neg hparams]
      have hfatal : Fatal mem.failIn (copyAllocations kind stringBuffer.isSome source) ↔
          Fatal (afterAllocations 1 mem.failIn)
            (copyStringAllocations stringBuffer.isSome 0 0 source.strings) := by
        rw [hallocations, fatal_cons]
        exact or_iff_right fun hzero => hfail hzero.1
      have hbuffer₁ : HasBuffer { mem with failIn := afterAllocations 1 mem.failIn } [] 0
          stringBuffer := by
        cases stringBuffer with
        | none => exact h
        | some a => exact h
      have hcopy : StringsCopy _ stringBuffer [] _ (copyStrings _ stringBuffer true _) :=
        copyStrings_spec source.strings hbuffer₁ hfresh fun _ => rfl
      simp only [hparams, if_false]
      generalize copyStrings _ stringBuffer true _ = copy at hcopy ⊢
      cases hcopy with
      | copied strings stringBuffer' mem₂ elements' capacity' hok hfailIn₂ hbuffer₂ helements
          hplace₂ hkeeps₂ =>
          refine .copied _ stringBuffer' mem₂ (hfatal.not.mpr hok) ?_ rfl ?_ hplace₂
            (hkeeps₁.trans hkeeps₂ hself)
          · rw [hallocations, List.length_cons, Nat.add_comm, afterAllocations_add]
            exact hfailIn₂
          · cases stringBuffer' with
            | none =>
                have hnil := helements.symm
                rw [hbuffer₂.1] at hnil
                exact hnil
            | some a => exact ⟨_, hbuffer₂.2.2, helements⟩
      | failed stringBuffer' mem₂ hfail₂ hemptied hplace₂ hkeeps₂ =>
          exact .failed stringBuffer' mem₂ (hfatal.mpr hfail₂) hemptied hplace₂
            (hkeeps₁.trans hkeeps₂ hself)

end DxFeed.Snapshot
