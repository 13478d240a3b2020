import DxFeed.ConfigurationDeserializer

/-!
# The bounds of the deserializer of configurations

* `declared`: the length that an array declares, and the number of bytes behind it;
* `KeepsInside`: only the bytes of the array are read, and a length that is too large is an error;
* `HasDeclared`: the arrays with which this is so;
* `keepsInside_iff`.
-/

namespace DxFeed.ConfigurationDeserializer

open BufferedIO Call FixedWidth
open RecordTranscoder (streamMagic streamVersion tcString tcLongstring)

variable {runtime : Runtime} {object : ByteArrayObject} {string : Option WString}

/-- The number of the eight bytes at an index. -/
def ByteArrayObject.long (object : ByteArrayObject) (p : ℕ) : ℕ :=
  object.short p * 2 ^ 48 + object.short (p + 2) * 2 ^ 32 + object.short (p + 4) * 2 ^ 16 +
    object.short (p + 6)

/-- The length that the array declares, and how many bytes there are behind it. -/
def ByteArrayObject.declared (object : ByteArrayObject) : Option (ℕ × ℕ) :=
  if object.memory 4 = tcString ∧ 7 ≤ object.size then some (object.short 5, object.size - 7)
  else if object.memory 4 = tcLongstring ∧ 13 ≤ object.size then
    some (object.long 5, object.size - 13)
  else none

/-- The reads are inside of the array, nothing is written behind a block, and the call fails if the
declared length is too large. -/
structure KeepsInside (runtime : Runtime) (object : ByteArrayObject) (string : Option WString) :
    Prop where
  reads : ∀ i ∈ (exec (deserializeString runtime object string) ⟨0, []⟩).2.reads, i < object.size
  noOverrun : (exec (deserializeString runtime object string) ⟨0, []⟩).1 ≠ .error .overrun
  fails : ∀ length available, object.declared = some (length, available) → available < length →
    ∃ e, (exec (deserializeString runtime object string) ⟨0, []⟩).1 = .error e

/-- A short string has the bytes that it declares, or a length with a sign, which is not a size of a
block.  Of a long string only two bytes of the length are read: it has the bytes that it declares,
or it ends in its length, and it has the bytes that the two declare or a terminator. -/
structure ByteArrayObject.HasDeclared (runtime : Runtime) (object : ByteArrayObject) : Prop where
  short : object.memory 4 = tcString →
    object.short 5 < 2 ^ 15 ∧ object.short 5 ≤ object.size - 7 ∨
    2 ^ 15 ≤ object.short 5 ∧ (object.short 5 = 2 ^ 16 - 1 → runtime.allocates 0 = false)
  long : object.memory 4 = tcLongstring →
    13 ≤ object.size ∧ object.long 5 ≤ object.size - 13 ∨
    object.size < 13 ∧
      (object.short 5 ≤ object.size - 7 ∨ ∃ i, 7 ≤ i ∧ i < object.size ∧ object.memory i = 0)

theorem tcString_ne_tcLongstring : tcString ≠ tcLongstring := by
  decide

theorem short_le_long (object : ByteArrayObject) (p : ℕ) : object.short p ≤ object.long p := by
  unfold ByteArrayObject.long
  omega

theorem keepsInside_of_rejected (h : ¬ object.Accepted) : KeepsInside runtime object string := by
  obtain ⟨e, cursor, hexec, he, hinside⟩ :=
    exec_deserializeString_rejected runtime string h
  constructor
  · rw [hexec]
    exact hinside
  · rw [hexec]
    simp [he]
  · intro length available hdeclared hlarge
    rw [hexec]
    exact ⟨e, rfl⟩

/-- Without a string that is read nothing is declared, or the call fails. -/
theorem keepsInside_of_none (h : object.Accepted) (hnone : object.requested = none) :
    KeepsInside runtime object string := by
  obtain ⟨result, cursor, hexec, hresult, hinside⟩ :=
    exec_deserializeContent_none runtime string h hnone
  rw [← exec_deserializeString_accepted h] at hexec
  constructor
  · rw [hexec]
    exact hinside
  · rw [hexec]
    rcases hresult with rfl | ⟨rfl, -, -⟩
    · simp
    · simp
  · intro length available hdeclared hlarge
    rw [hexec]
    rcases hresult with rfl | ⟨-, hstring, hlong⟩
    · exact ⟨_, rfl⟩
    · unfold ByteArrayObject.declared at hdeclared
      rw [if_neg (fun hsome => hstring hsome.1), if_neg (fun hsome => hlong hsome.1)] at hdeclared
      cases hdeclared

/-- A string is read inside of the array if there is no block for it, or if its bytes are there and
the declared length is not too large. -/
theorem keepsInside_some_iff {length : ℕ} (h : object.Accepted)
    (hsome : object.requested = some length) (hroom : 7 ≤ object.size) :
    KeepsInside runtime object string ↔
      runtime.allocates (blockSize length) = false ∨
      length ≤ blockSize length ∧
        (7 + length ≤ object.size ∨ ∃ i, 7 ≤ i ∧ i < object.size ∧ object.memory i = 0) ∧
        ∀ n available, object.declared = some (n, available) → n ≤ available := by
  obtain ⟨e, he, hexec⟩ := exec_deserializeString_some runtime string h hsome
  cases hblock : runtime.allocates (blockSize length) with
  | false =>
      rw [hblock, if_pos rfl] at hexec
      refine iff_of_true ⟨?_, ?_, ?_⟩ (Or.inl rfl)
      · rw [hexec]
        simp
        omega
      · rw [hexec]
        simp [he]
      · intro n available hdeclared hlarge
        rw [hexec]
        exact ⟨e, rfl⟩
  | true =>
      rw [hblock, if_neg (by decide)] at hexec
      rw [← strncpy_inside_iff hroom]
      constructor
      · rintro ⟨hreads, hnoOverrun, hfails⟩
        rw [hexec] at hreads hnoOverrun hfails
        have hle : length ≤ blockSize length := by
          by_contra hwraps
          exact hnoOverrun (if_pos (by omega))
        rw [if_neg (by omega)] at hfails
        refine Or.inr ⟨hle, fun i hi => hreads i (List.mem_append_right _ hi), ?_⟩
        intro n available hdeclared
        by_contra hlarge
        obtain ⟨e, hfailed⟩ := hfails n available hdeclared (by omega)
        cases hfailed
      · rintro (hfalse | ⟨hle, hreads, hdeclares⟩)
        · cases hfalse
        · constructor
          · rw [hexec]
            intro i hi
            rcases List.mem_append.mp hi with hi | hi
            · simp at hi
              omega
            · exact hreads i hi
          · rw [hexec, if_neg (by omega)]
            simp
          · intro n available hdeclared hlarge
            have hnot := hdeclares n available hdeclared
            omega

/-- There is a block for every length without a sign. -/
theorem allocates_blockSize (runtime : Runtime) {length : ℕ} (h : length < 2 ^ 16) :
    blockSize length = length + 1 ∧ runtime.allocates (blockSize length) = true := by
  have hblock : blockSize length = length + 1 := Nat.mod_eq_of_lt (by omega)
  rw [hblock]
  exact ⟨rfl, runtime.allocates_small _ (by omega) (by omega)⟩

theorem keepsInside_string_iff (h : object.Accepted) (hroom : 8 ≤ object.size)
    (hstring : object.memory 4 = tcString) :
    KeepsInside runtime object string ↔ object.HasDeclared runtime := by
  have hlt : object.short 5 < 2 ^ 16 := shortNumber_lt _ _
  have hlong : object.memory 4 ≠ tcLongstring := by
    rw [hstring]
    exact tcString_ne_tcLongstring
  have hdeclared : object.declared = some (object.short 5, object.size - 7) :=
    if_pos ⟨hstring, by omega⟩
  have hsome : object.requested = some (signedSize (object.short 5)) := by
    rw [ByteArrayObject.requested, if_neg (by omega), if_pos hstring]
  rw [keepsInside_some_iff h hsome (by omega)]
  rcases lt_or_ge (object.short 5) (2 ^ 15) with hsmall | hsigned
  · have hsize : signedSize (object.short 5) = object.short 5 := if_pos hsmall
    obtain ⟨hblock, hallocates⟩ := allocates_blockSize runtime hlt
    rw [hsize, hallocates, hblock]
    constructor
    · rintro (hfalse | ⟨-, -, hdeclares⟩)
      · cases hfalse
      · exact ⟨fun _ => Or.inl ⟨hsmall, hdeclares _ _ hdeclared⟩, fun htype => absurd htype hlong⟩
    · intro hhas
      rcases hhas.short hstring with ⟨-, hle⟩ | ⟨hge, -⟩
      · refine Or.inr ⟨by omega, Or.inl (by omega), fun n available hsome => ?_⟩
        rw [hdeclared] at hsome
        cases hsome
        exact hle
      · omega
  -- the length has a sign: there is no block, or, for the largest one, perhaps a block of size 0
  · have hsize : signedSize (object.short 5) = 2 ^ 64 - 2 ^ 16 + object.short 5 :=
      if_neg (by omega)
    rw [hsize]
    rcases Nat.lt_or_ge (object.short 5) (2 ^ 16 - 1) with hother | hlast
    · have hblock := runtime.allocates_huge (blockSize (2 ^ 64 - 2 ^ 16 + object.short 5))
        (by unfold blockSize; omega)
      refine iff_of_true (Or.inl hblock) ⟨fun _ => Or.inr ⟨hsigned, fun hlast => by omega⟩, ?_⟩
      exact fun htype => absurd htype hlong
    · have hblock : blockSize (2 ^ 64 - 2 ^ 16 + object.short 5) = 0 := by
        unfold blockSize
        omega
      rw [hblock]
      constructor
      · rintro (hnone | ⟨hle, -, -⟩)
        · exact ⟨fun _ => Or.inr ⟨hsigned, fun _ => hnone⟩, fun htype => absurd htype hlong⟩
        · omega
      · intro hhas
        rcases hhas.short hstring with ⟨hsmall, -⟩ | ⟨-, hnone⟩
        · omega
        · exact Or.inl (hnone (by omega))

theorem keepsInside_longstring_iff (h : object.Accepted) (hroom : 8 ≤ object.size)
    (hlong : object.memory 4 = tcLongstring) :
    KeepsInside runtime object string ↔ object.HasDeclared runtime := by
  have hlt : object.short 5 < 2 ^ 16 := shortNumber_lt _ _
  have hstring : object.memory 4 ≠ tcString := by
    rw [hlong]
    exact tcString_ne_tcLongstring.symm
  have hsome : object.requested = some (object.short 5) := by
    rw [ByteArrayObject.requested, if_neg (by omega), if_neg hstring, if_pos hlong]
  obtain ⟨hblock, hallocates⟩ := allocates_blockSize runtime hlt
  have hle := short_le_long object 5
  rw [keepsInside_some_iff h hsome (by omega), hallocates, hblock]
  unfold ByteArrayObject.declared
  rw [if_neg (fun htype => hstring htype.1)]
  -- two bytes of the length are read, so the string begins at its third one
  rcases Nat.lt_or_ge object.size 13 with hshort | hfull
  · rw [if_neg (by omega)]
    constructor
    · rintro (hfalse | ⟨-, hreads, -⟩)
      · cases hfalse
      · refine ⟨fun htype => absurd htype hstring, fun _ => Or.inr ⟨hshort, ?_⟩⟩
        exact hreads.imp_left fun hreads => by omega
    · intro hhas
      rcases hhas.long hlong with ⟨hfull, -⟩ | ⟨-, hreads⟩
      · omega
      · refine Or.inr ⟨by omega, hreads.imp_left fun hreads => by omega, ?_⟩
        intro n available hnone
        cases hnone
  · rw [if_pos ⟨hlong, hfull⟩]
    constructor
    · rintro (hfalse | ⟨-, -, hdeclares⟩)
      · cases hfalse
      · exact ⟨fun htype => absurd htype hstring,
          fun _ => Or.inl ⟨hfull, hdeclares _ _ rfl⟩⟩
    · intro hhas
      rcases hhas.long hlong with ⟨-, hdeclares⟩ | ⟨hshort, -⟩
      · refine Or.inr ⟨by omega, Or.inl (by omega), fun n available hsome => ?_⟩
        cases hsome
        exact hdeclares
      · omega

/-- The call stays inside of the array exactly if the array has the length that it declares. -/
theorem keepsInside_iff (runtime : Runtime) (object : ByteArrayObject) (string : Option WString) :
    KeepsInside runtime object string ↔
      (object.Accepted → 8 ≤ object.size → object.HasDeclared runtime) := by
  by_cases h : object.Accepted
  swap
  · exact iff_of_true (keepsInside_of_rejected h) fun haccepted => absurd haccepted h
  rcases Nat.lt_or_ge object.size 8 with hshort | hroom
  · exact iff_of_true (keepsInside_of_none h (requested_of_short hshort))
      fun _ hroom => absurd hshort (by omega)
  have hiff : KeepsInside runtime object string ↔ object.HasDeclared runtime := by
    by_cases hstring : object.memory 4 = tcString
    · exact keepsInside_string_iff h hroom hstring
    by_cases hlong : object.memory 4 = tcLongstring
    · exact keepsInside_longstring_iff h hroom hlong
    have hnone : object.requested = none := by
      rw [ByteArrayObject.requested, if_neg (by omega), if_neg hstring, if_neg hlong]
    exact iff_of_true (keepsInside_of_none h hnone)
      ⟨fun htype => absurd htype hstring, fun htype => absurd htype hlong⟩
  rw [hiff]
  exact ⟨fun hhas _ _ => hhas, fun hhas => hhas h hroom⟩

/-- A string that declares five characters, of which there is one. -/
def cutString : ByteArrayObject :=
  .ofList ([0xAC, 0xED, 0x00, 0x05, 0x74, 0x00, 0x05, 0x61].map castByte) fun _ => 0x62

theorem not_keepsInside_cutString : ¬ KeepsInside plainRuntime cutString none := by
  intro hkeeps
  have hread : 8 ∈ (exec (deserializeString plainRuntime cutString none) ⟨0, []⟩).2.reads := by
    decide
  have hinside := hkeeps.reads 8 hread
  have hsize : cutString.size = 8 := rfl
  omega

end DxFeed.ConfigurationDeserializer
