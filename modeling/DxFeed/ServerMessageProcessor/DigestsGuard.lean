import DxFeed.ServerMessageProcessor.RecordReading

/-!
# The lock of the record digests

`dx_read_records` holds the lock `record_digests_guard` while it reads the fields of a record.

* `GuardedCall`, `lockGuard`, `unlockGuard`: calls with the depth of the lock; the lock and the
  release themselves do not fail;
* `readEntryWith`: a field is read, and a string or an array is allocated for it or not;
* `guardedReadRecords`: `dx_read_records` with its lock; without the depth it is `readRecords`;
* `ReadFails`: the loop comes to a field that cannot be read;
* `balanced_guardedReadRecords_iff`: the depth on return is the one on entry if and only if the loop
  does not come to such a field.
-/

namespace DxFeed.ServerMessageProcessor

open Call BufferedIO RecordBuffers

/-- Calls that read records, with the depth of `record_digests_guard`. -/
abbrev GuardedCall (D : Type) :=
  Call (Option ErrorCode) ((InputContext × RecordsContext D) × ℕ)

variable {D α : Type}

/-- `dx_mutex_lock`. -/
def lockGuard : GuardedCall D Unit := modify fun s => (s.1, s.2 + 1)

/-- `dx_mutex_unlock`. -/
def unlockGuard : GuardedCall D Unit := modify fun s => (s.1, s.2 - 1)

/-- A call that leaves the lock alone. -/
def guarded (x : RecordCall D α) : GuardedCall D α := zoom Prod.fst (fun s t => (t, s.2)) x

/-- The serializations that `dx_read_records` has a branch for. -/
def IsSupportedType (type : Int32) : Prop :=
  type &&& fidMaskSerialization ∈
    [fidVoid, fidByte, fidUtfChar, fidShort, fidInt, fidCompactInt, fidByteArray, fidUtfCharArray]

instance (type : Int32) : Decidable (IsSupportedType type) := inferInstanceAs (Decidable (_ ∈ _))

/-! ### Allocations -/

/-- `dx_read_utf_string` and `dx_read_utf_char_array`, where the string is not allocated. -/
def readStringUnallocated : ReadCall (Option WString) := do
  let utflen ← readCompactLong
  if utflen < -1 ∨ utflen.toInt > INT_MAX then throw .invalidFuncParamInternal
  else if utflen = -1 then return none
  else throw .insufficientMemory

/-- `dx_read_byte_array`, where the array is not allocated. -/
def readByteArrayUnallocated : ReadCall (Option (List Int8)) := do
  let bufferLength ← readCompactLong
  if bufferLength < -1 ∨ bufferLength.toInt > INT_MAX then throw .invalidFuncParamInternal
  else if bufferLength = -1 ∨ bufferLength = 0 then return none
  else throw .insufficientMemory

/-- The value for an entry of a digest, and whether memory is allocated for it. -/
def readEntryWith (allocates : Bool) (platform : Platform D) (info : RecordInfoId)
    (entry : FieldDigest) : ReadCall (Value D) :=
  let serialization := entry.type &&& fidMaskSerialization
  if allocates then readEntry platform info entry
  else if serialization = fidByteArray then
    if entry.type &&& fidMaskRepresentation = fidFlagString then do
      return .string ((← readStringUnallocated).map pointer)
    else do
      return .byteArray ((← readByteArrayUnallocated).map pointer)
  else if serialization = fidUtfCharArray then do
    return .string ((← readStringUnallocated).map pointer)
  else readEntry platform info entry

/-! ### The loop -/

/-- A value is stored.  A setter of another structure changes what is not modelled, and the loop goes
on; `none` is a call through a null pointer. -/
def guardedStore (platform : Platform D) (info : RecordInfoId) (entry : FieldDigest)
    (value : Value D) (context : RecordsContext D) : Option (RecordsContext D) :=
  if entry.calledSetter.isSome then
    some ((storeValue platform info entry value context).getD context)
  else none

/-- A round of the loop, in one of its branches. -/
def readFieldWith (allocates : Bool) (platform : Platform D) (info : RecordInfoId)
    (entry : FieldDigest) : RecordCall D Unit := do
  let value ← inputCall (readEntryWith allocates platform info entry)
  bufferCall (guardedStore platform info entry value)

/-- A round of the loop.  Only the default branch of the switch releases the lock. -/
def guardedReadField (allocates : Bool) (platform : Platform D) (info : RecordInfoId)
    (entry : FieldDigest) : GuardedCall D Unit :=
  if IsSupportedType entry.type then guarded (readFieldWith allocates platform info entry)
  else do
    unlockGuard
    throw (some .recordFieldTypeNotSupported)

/-- The loop of `dx_read_records` from the field `i` on; `allocates` says for which of the fields
memory is allocated. -/
def guardedReadFields (allocates : ℕ → Bool) (platform : Platform D) (info : RecordInfoId) :
    ℕ → List FieldDigest → GuardedCall D Unit
  | _, [] => pure ()
  | i, entry :: rest => do
      guardedReadField (allocates i) platform info entry
      guardedReadFields allocates platform info (i + 1) rest

/-- `dx_read_records`, with the digest that `dx_get_record_digest` finds. -/
def guardedReadRecords (allocates : ℕ → Bool) (platform : Platform D) (info : RecordInfoId)
    (digest : Option RecordDigest) (flags : UInt32) : GuardedCall D Unit :=
  if isFlagSet flags.toNat EventFlag.removeEvent then
    guarded (readQdtimeOnRemoveEvent platform info)
  else do
    lockGuard
    match digest with
    | none => do
        unlockGuard
        throw (some .invalidFuncParamInternal)
    | some digest => do
        guardedReadFields allocates platform info 0 digest.elements
        unlockGuard

variable {allocates : ℕ → Bool} {platform : Platform D} {info : RecordInfoId}
  {entry : FieldDigest} {s : InputContext × RecordsContext D} {depth : ℕ}

theorem exec_guarded (x : RecordCall D α) (s : InputContext × RecordsContext D) (depth : ℕ) :
    exec (guarded x) (s, depth) = ((exec x s).1, ((exec x s).2, depth)) := rfl

/-! ### One field -/

/-- A type without a branch is not read. -/
theorem readEntry_of_not_isSupportedType (h : ¬ IsSupportedType entry.type) :
    readEntry platform info entry = throw .recordFieldTypeNotSupported := by
  simp only [IsSupportedType, List.mem_cons, List.not_mem_nil, or_false, not_or] at h
  obtain ⟨h₀, h₁, h₂, h₃, h₄, h₅, h₆, h₇⟩ := h
  rw [readEntry_of_not_isVoid h₀]
  unfold readWire
  dsimp only
  rw [if_neg h₁, if_neg h₂, if_neg h₃, if_neg h₄, if_neg h₅, if_neg h₆, if_neg h₇]

theorem exec_readField_unsupported (h : ¬ IsSupportedType entry.type) :
    exec (readField platform info entry) s =
      (.error (some .recordFieldTypeNotSupported), s) := by
  rw [readField, readEntry_of_not_isSupportedType h]
  rfl

/-- A field fails with an error if it cannot be read, and then only. -/
theorem exec_readFieldWith (available : Bool) (platform : Platform D) (info : RecordInfoId)
    (entry : FieldDigest) (s : InputContext × RecordsContext D) :
    (∃ s', exec (readFieldWith available platform info entry) s = (.ok (), s') ∧
        Returns (readEntryWith available platform info entry) s.1) ∨
      (∃ s', exec (readFieldWith available platform info entry) s = (.error none, s') ∧
        Returns (readEntryWith available platform info entry) s.1) ∨
      ∃ e s', exec (readFieldWith available platform info entry) s = (.error (some e), s') ∧
        ¬ Returns (readEntryWith available platform info entry) s.1 := by
  obtain ⟨input, context⟩ := s
  rcases hread : exec (readEntryWith available platform info entry) input with ⟨e | value, mid⟩
  · refine Or.inr (Or.inr ⟨e, (mid, context), ?_, ?_⟩)
    · have hcall : exec (inputCall (readEntryWith available platform info entry))
          (input, context) = (.error (some e), (mid, context)) := by
        rw [inputCall, exec_zoom, exec_adapt_error some hread]
      rw [readFieldWith, exec_bind_error hcall]
    · rintro ⟨value, hvalue⟩
      rw [hread] at hvalue
      cases hvalue
  · have hreturns : Returns (readEntryWith available platform info entry) input :=
      ⟨value, by rw [hread]⟩
    have hcall := exec_inputCall_ok hread context
    rcases hstore : guardedStore platform info entry value context with _ | context'
    · refine Or.inr (Or.inl ⟨(mid, context), ?_, hreturns⟩)
      rw [readFieldWith, exec_bind_ok hcall, bufferCall, exec_bind_ok (exec_get _)]
      simp only [hstore]
      rfl
    · refine Or.inl ⟨(mid, context'), ?_, hreturns⟩
      rw [readFieldWith, exec_bind_ok hcall, exec_bufferCall hstore]

/-! ### Without the depth -/

/-- The setter of an entry is one of the structure. -/
def FieldDigest.HasOwnSetter (info : RecordInfoId) (entry : FieldDigest) : Prop :=
  ∀ setter, entry.setter = some setter → (findMember info setter).isSome

/-- A setter of the structure is called as `storeValue` calls it. -/
theorem FieldDigest.HasOwnSetter.guardedStore_eq (h : entry.HasOwnSetter info) (value : Value D)
    (context : RecordsContext D) :
    guardedStore platform info entry value context = storeValue platform info entry value context := by
  unfold guardedStore
  rcases hcalled : entry.calledSetter with _ | setter
  · rw [if_neg (by simp), storeValue, hcalled]
  · have hsetter := entry.calledSetter_eq_some hcalled
    have hsome : (storeValue platform info entry value context).isSome := by
      unfold storeValue
      rw [hcalled]
      cases setter with
      | none => rfl
      | some setter =>
          dsimp only
          rw [storeField_isSome]
          exact h setter hsetter
    obtain ⟨context', hstore⟩ := Option.isSome_iff_exists.mp hsome
    rw [Option.isSome_some, if_pos rfl, hstore, Option.getD_some]

/-- The call with the lock does what the call without it does. -/
def Erases (x : GuardedCall D α) (y : RecordCall D α) : Prop :=
  ∀ s depth, ((exec x (s, depth)).1, (exec x (s, depth)).2.1) = exec y s

theorem erases_guarded (x : RecordCall D α) : Erases (guarded x) x := fun _ _ => rfl

theorem Erases.bind {β : Type} {x : GuardedCall D α} {y : RecordCall D α} {f : α → GuardedCall D β}
    {g : α → RecordCall D β} (h : Erases x y) (hf : ∀ a, Erases (f a) (g a)) :
    Erases (x >>= f) (y >>= g) := by
  intro s depth
  have hx := h s depth
  rcases hexec : exec x (s, depth) with ⟨e | a, s', depth'⟩ <;> rw [hexec] at hx
  · rw [exec_bind_error hexec, exec_bind_error hx.symm]
  · rw [exec_bind_ok hexec, exec_bind_ok hx.symm]
    exact hf a s' depth'

theorem erases_guardedReadField (hown : entry.HasOwnSetter info) :
    Erases (guardedReadField true platform info entry) (readField platform info entry) := by
  unfold guardedReadField
  by_cases h : IsSupportedType entry.type
  · have hsame : readFieldWith true platform info entry = readField platform info entry := by
      unfold readFieldWith readField
      congr 1
      funext value
      congr 1
      funext context
      exact hown.guardedStore_eq value context
    rw [if_pos h, hsame]
    exact erases_guarded _
  · rw [if_neg h]
    intro s depth
    rw [exec_readField_unsupported h]
    rfl

theorem erases_guardedReadFields {entries : List FieldDigest}
    (hown : ∀ entry ∈ entries, entry.HasOwnSetter info) (i : ℕ) :
    Erases (guardedReadFields (fun _ => true) platform info i entries)
      (readFields platform info entries) := by
  induction entries generalizing i with
  | nil => exact fun _ _ => rfl
  | cons entry rest ih =>
      refine (erases_guardedReadField (hown entry List.mem_cons_self)).bind fun _ => ?_
      exact ih (fun entry' h => hown entry' (List.mem_cons_of_mem _ h)) (i + 1)

/-- If all allocations succeed, the reader with the lock is the reader. -/
theorem erases_guardedReadRecords {digest : RecordDigest}
    (hown : ∀ entry ∈ digest.elements, entry.HasOwnSetter info) (flags : UInt32) :
    Erases (guardedReadRecords (fun _ => true) platform info (some digest) flags)
      (readRecords platform info digest flags) := by
  intro s depth
  rw [guardedReadRecords, readRecords]
  split_ifs
  · exact erases_guarded _ s depth
  · have hlock : exec (lockGuard : GuardedCall D Unit) (s, depth) = (.ok (), (s, depth + 1)) := rfl
    have hfields :
        Erases (guardedReadFields (fun _ => true) platform info 0 digest.elements)
          (readFields platform info digest.elements) :=
      erases_guardedReadFields hown 0
    have hunlock : Erases (unlockGuard : GuardedCall D Unit) (pure ()) := fun _ _ => rfl
    have hall := (hfields.bind fun _ => hunlock) s (depth + 1)
    rw [exec_bind_ok hlock]
    rwa [bind_pure_unit] at hall

/-! ### The depth -/

/-- The loop comes to a field with a branch that cannot be read: its bytes are not complete or not
well formed, or no memory is allocated for it. -/
inductive ReadFails (allocates : ℕ → Bool) (platform : Platform D) (info : RecordInfoId) :
    ℕ → List FieldDigest → InputContext × RecordsContext D → Prop
  | here {i : ℕ} {entry : FieldDigest} {rest : List FieldDigest}
      {s : InputContext × RecordsContext D} (hsupported : IsSupportedType entry.type)
      (hfails : ¬ Returns (readEntryWith (allocates i) platform info entry) s.1) :
      ReadFails allocates platform info i (entry :: rest) s
  | later {i : ℕ} {entry : FieldDigest} {rest : List FieldDigest}
      {s s' : InputContext × RecordsContext D} (hsupported : IsSupportedType entry.type)
      (hread : exec (readFieldWith (allocates i) platform info entry) s = (.ok (), s'))
      (hrest : ReadFails allocates platform info (i + 1) rest s') :
      ReadFails allocates platform info i (entry :: rest) s

/-- When the call returns, with an error or not, the lock has a depth; a crash is no return. -/
def ReturnsAt (depth' : ℕ) (x : GuardedCall D α)
    (s : (InputContext × RecordsContext D) × ℕ) : Prop :=
  (exec x s).1 ≠ .error none → (exec x s).2.2 = depth'

/-- The depth of the lock on return is the one on entry. -/
def Balanced (x : GuardedCall D α) (s : InputContext × RecordsContext D) (depth : ℕ) : Prop :=
  ReturnsAt depth x (s, depth)

/-- The rest of the loop from a state that a field leaves. -/
theorem readFails_cons_of_ok {i : ℕ} {rest : List FieldDigest}
    {s' : InputContext × RecordsContext D} (hsupported : IsSupportedType entry.type)
    (hread : exec (readFieldWith (allocates i) platform info entry) s = (.ok (), s'))
    (hreturns : Returns (readEntryWith (allocates i) platform info entry) s.1) :
    ReadFails allocates platform info i (entry :: rest) s ↔
      ReadFails allocates platform info (i + 1) rest s' := by
  constructor
  · intro h
    cases h with
    | here _ hfails => exact absurd hreturns hfails
    | later _ hread' hrest =>
        rw [hread] at hread'
        obtain rfl := (Prod.mk.inj hread').2
        exact hrest
  · exact ReadFails.later hsupported hread

/-- The loop and the release behind it. -/
theorem returnsAt_guardedReadFields (i : ℕ) (entries : List FieldDigest)
    (s : InputContext × RecordsContext D) (depth : ℕ) :
    ReturnsAt depth (do guardedReadFields allocates platform info i entries; unlockGuard)
        (s, depth + 1) ↔
      ¬ ReadFails allocates platform info i entries s := by
  induction entries generalizing i s with
  | nil => exact iff_of_true (fun _ => rfl) fun h => nomatch h
  | cons entry rest ih =>
      rw [guardedReadFields, bind_assoc]
      by_cases hsupported : IsSupportedType entry.type
      · rw [guardedReadField, if_pos hsupported]
        rcases exec_readFieldWith (allocates i) platform info entry s with
          ⟨s', hread, hreturns⟩ | ⟨s', hread, hreturns⟩ | ⟨e, s', hread, hfails⟩
        · -- the loop goes on
          have hfield := exec_guarded (readFieldWith (allocates i) platform info entry) s (depth + 1)
          rw [hread] at hfield
          rw [ReturnsAt, exec_bind_ok hfield, readFails_cons_of_ok hsupported hread hreturns]
          exact ih (i + 1) s'
        · -- a crash
          have hfield := exec_guarded (readFieldWith (allocates i) platform info entry) s (depth + 1)
          rw [hread] at hfield
          rw [ReturnsAt, exec_bind_error hfield]
          refine iff_of_true (fun h => absurd rfl h) fun h => ?_
          cases h with
          | here _ hfails => exact hfails hreturns
          | later _ hread' _ => exact nomatch (Prod.mk.inj (hread.symm.trans hread')).1
        · -- the field cannot be read, and the lock is kept
          have hfield := exec_guarded (readFieldWith (allocates i) platform info entry) s (depth + 1)
          rw [hread] at hfield
          rw [ReturnsAt, exec_bind_error hfield]
          refine iff_of_false (fun h => ?_) fun h => h (ReadFails.here hsupported hfails)
          exact absurd (h (by simp)) (Nat.succ_ne_self depth)
      · rw [guardedReadField, if_neg hsupported]
        refine iff_of_true (fun _ => rfl) fun h => ?_
        cases h with
        | here hsupported' _ => exact hsupported hsupported'
        | later hsupported' _ _ => exact hsupported hsupported'

/-- The lock of `dx_read_records` is balanced for removals, and for other records if and only if they
have no digest or the loop comes to no field that cannot be read. -/
theorem balanced_guardedReadRecords_iff (allocates : ℕ → Bool) (platform : Platform D)
    (info : RecordInfoId) (digest : Option RecordDigest) (flags : UInt32)
    (s : InputContext × RecordsContext D) (depth : ℕ) :
    Balanced (guardedReadRecords allocates platform info digest flags) s depth ↔
      isFlagSet flags.toNat EventFlag.removeEvent ∨
        ∀ d, digest = some d → ¬ ReadFails allocates platform info 0 d.elements s := by
  unfold Balanced guardedReadRecords
  by_cases hremove : isFlagSet flags.toNat EventFlag.removeEvent = true
  · rw [if_pos hremove]
    exact iff_of_true (fun _ => rfl) (Or.inl hremove)
  · have hlock : exec (lockGuard : GuardedCall D Unit) (s, depth) = (.ok (), (s, depth + 1)) := rfl
    rw [if_neg hremove, ReturnsAt, exec_bind_ok hlock, or_iff_right hremove]
    cases digest with
    | none => exact iff_of_true (fun _ => rfl) fun d hd => nomatch hd
    | some d =>
        have hfields :
            ReturnsAt depth
                (do guardedReadFields allocates platform info 0 d.elements; unlockGuard)
                (s, depth + 1) ↔ ¬ ReadFails allocates platform info 0 d.elements s :=
          returnsAt_guardedReadFields 0 d.elements s depth
        exact hfields.trans ⟨fun h d' hd => Option.some.inj hd ▸ h, fun h => h d rfl⟩

/-- A record whose only field is a byte, at the end of the buffer. -/
theorem not_balanced_byte :
    ¬ Balanced (guardedReadRecords (fun _ => true) unitPlatform .trade
        (some ⟨[⟨fidByte, 0, none, none⟩], true⟩) 0)
      (inputAt [] [] 0, .init) 0 := by
  intro h
  have hexec : (exec (guardedReadRecords (fun _ => true) unitPlatform .trade
      (some ⟨[⟨fidByte, 0, none, none⟩], true⟩) 0) ((inputAt [] [] 0, .init), 0)).1 =
      .error (some .bufferUnderflow) := rfl
  exact absurd (h (by rw [hexec]; simp)) (by decide)

/-- An `int` member gets a decimal, and the field behind it is not in the buffer; or a string is
complete in the buffer, and it is not allocated. -/
example :
    (exec (guardedReadRecords (fun _ => true) unitPlatform .trade
        (some ⟨[⟨fidByte ||| fidFlagDecimal, 0, some "dx_trade_t_flags_setter", none⟩,
          ⟨fidByte, 0, none, none⟩], true⟩) 0) ((inputAt [] [7] 1, .init), 0)).2.2 = 1 ∧
      (exec (guardedReadRecords (fun _ => false) unitPlatform .profile
        (some ⟨[⟨fidUtfCharArray, 0, none, none⟩], true⟩) 0)
          ((inputAt [] [1, 65] 2, .init), 0)).2.2 = 1 := by
  decide +kernel

end DxFeed.ServerMessageProcessor
