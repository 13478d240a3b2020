import DxFeed.EventData

/-!
# Snapshot keys

* `newSnapshotKey`: `dx_new_snapshot_key`, for any `dx_symbol_name_hasher`;
* `highField`, `middleField`, `lowField`: the bits 56 to 63, 24 to 55 and 0 to 23 of a key;
* `highField_newSnapshotKey`: the bits 32 to 39 of the symbol hash are mixed into the record id;
* `keysApart_iff`: the keys are as documented if and only if these bits are zero.
-/

namespace DxFeed.Snapshot

/-- The value of `dx_record_info_id_t`. -/
def recordInfoIdValue : RecordInfoId → UInt64
  | .trade => 0
  | .quote => 1
  | .summary => 2
  | .profile => 3
  | .marketMaker => 4
  | .order => 5
  | .timeAndSale => 6
  | .candle => 7
  | .tradeEth => 8
  | .spreadOrder => 9
  | .greeks => 10
  | .theoPrice => 11
  | .underlying => 12
  | .series => 13
  | .configuration => 14

/-- `SNAPSHOT_KEY_SOURCE_MASK`. -/
def snapshotKeySourceMask : UInt64 := 0xFFFFFF

/-- The hash of a source, which can be `NULL`. -/
def orderSourceHash (symbolNameHasher : WString → UInt64) (orderSource : Option WString) : UInt64 :=
  match orderSource with
  | none => 0
  | some source => symbolNameHasher source

/-- `dx_new_snapshot_key`. -/
def newSnapshotKey (symbolNameHasher : WString → UInt64) (recordInfoId : RecordInfoId)
    (symbol : WString) (orderSource : Option WString) : UInt64 :=
  recordInfoIdValue recordInfoId <<< 56 ||| symbolNameHasher symbol <<< 24 |||
    (orderSourceHash symbolNameHasher orderSource &&& snapshotKeySourceMask)

/-! ### The fields of a key -/

/-- The bits 56 to 63. -/
def highField (key : UInt64) : UInt64 := key >>> 56

/-- The bits 24 to 55. -/
def middleField (key : UInt64) : UInt64 := (key >>> 24) &&& 0xFFFFFFFF

/-- The bits 0 to 23. -/
def lowField (key : UInt64) : UInt64 := key &&& 0xFFFFFF

section Fields

variable (high middle low : UInt64)

/-- The bits of a mask of ones. -/
theorem getLsbD_ones {w k : ℕ} (i : ℕ) (hk : k ≤ w) :
    (BitVec.ofNat w (2 ^ k - 1)).getLsbD i = decide (i < k) := by
  rw [BitVec.getLsbD_ofNat, Nat.testBit_two_pow_sub_one]
  by_cases hi : i < k
  · simp [hi, hi.trans_le hk]
  · simp [hi]

theorem highField_or : highField (high <<< 56 ||| middle <<< 24 ||| (low &&& 0xFFFFFF)) =
    (high &&& (0xFF : UInt64)) ||| (middle >>> 32 &&& (0xFF : UInt64)) := by
  apply UInt64.toBitVec_inj.mp
  apply BitVec.eq_of_getLsbD_eq
  intro i hi
  have hbyte : (255#64).getLsbD i = decide (i < 8) := getLsbD_ones (k := 8) i (by norm_num)
  have hlow : (16777215#64).getLsbD (56 + i) = false :=
    (getLsbD_ones (k := 24) (56 + i) (by norm_num)).trans (decide_eq_false (by omega))
  simp [highField, hbyte, hlow]
  by_cases hi8 : i < 8
  · simp [hi8, show 56 + i < 64 by omega, show ¬ 56 + i < 24 by omega,
      show 56 + i - 24 = 32 + i by omega]
  · simp [hi8, show ¬ 56 + i < 64 by omega]

theorem middleField_or : middleField (high <<< 56 ||| middle <<< 24 ||| (low &&& 0xFFFFFF)) =
    middle &&& 0xFFFFFFFF := by
  apply UInt64.toBitVec_inj.mp
  apply BitVec.eq_of_getLsbD_eq
  intro i hi
  have hword : (4294967295#64).getLsbD i = decide (i < 32) :=
    getLsbD_ones (k := 32) i (by norm_num)
  have hlow : (16777215#64).getLsbD (24 + i) = false :=
    (getLsbD_ones (k := 24) (24 + i) (by norm_num)).trans (decide_eq_false (by omega))
  simp [middleField, hword, hlow]
  by_cases hi32 : i < 32
  · simp [hi32, show 24 + i < 64 by omega, show 24 + i < 56 by omega]
  · simp [hi32]

theorem lowField_or : lowField (high <<< 56 ||| middle <<< 24 ||| (low &&& 0xFFFFFF)) =
    low &&& 0xFFFFFF := by
  apply UInt64.toBitVec_inj.mp
  apply BitVec.eq_of_getLsbD_eq
  intro i hi
  have hlow : (16777215#64).getLsbD i = decide (i < 24) := getLsbD_ones (k := 24) i (by norm_num)
  simp [lowField, hlow]
  by_cases hi24 : i < 24
  · simp [hi24, show i < 56 by omega]
  · simp [hi24]

end Fields

/-! ### Keys -/

variable (symbolNameHasher : WString → UInt64)

/-- The bits 32 to 39 of the hash of a symbol. -/
def overlap (symbol : WString) : UInt64 := (symbolNameHasher symbol >>> 32) &&& 0xFF

theorem highField_newSnapshotKey (recordInfoId : RecordInfoId) (symbol : WString)
    (orderSource : Option WString) :
    highField (newSnapshotKey symbolNameHasher recordInfoId symbol orderSource) =
      recordInfoIdValue recordInfoId ||| overlap symbolNameHasher symbol := by
  have hbyte : recordInfoIdValue recordInfoId &&& 0xFF = recordInfoIdValue recordInfoId := by
    cases recordInfoId <;> rfl
  refine (highField_or _ _ _).trans ?_
  rw [hbyte]
  rfl

theorem recordInfoIdValue_injective : Function.Injective recordInfoIdValue := by
  intro id id' h
  cases id <;> cases id' <;> first | rfl | exact absurd h (by decide)

/-- The record id stands in the bits 56 to 63 of a key, 32 bits of the symbol hash in the bits 24
to 55, and the masked source hash in the bits 0 to 23. -/
structure KeyFields (recordInfoId : RecordInfoId) (symbol : WString)
    (orderSource : Option WString) : Prop where
  record : highField (newSnapshotKey symbolNameHasher recordInfoId symbol orderSource) =
    recordInfoIdValue recordInfoId
  symbolHash : middleField (newSnapshotKey symbolNameHasher recordInfoId symbol orderSource) =
    symbolNameHasher symbol &&& 0xFFFFFFFF
  source : lowField (newSnapshotKey symbolNameHasher recordInfoId symbol orderSource) =
    orderSourceHash symbolNameHasher orderSource &&& snapshotKeySourceMask

/-- The fields are in place exactly where the symbol hash adds no bit to the record id. -/
theorem keyFields_iff (recordInfoId : RecordInfoId) (symbol : WString)
    (orderSource : Option WString) :
    KeyFields symbolNameHasher recordInfoId symbol orderSource ↔
      recordInfoIdValue recordInfoId ||| overlap symbolNameHasher symbol =
        recordInfoIdValue recordInfoId := by
  constructor
  · intro h
    rw [← highField_newSnapshotKey symbolNameHasher recordInfoId symbol orderSource]
    exact h.record
  · intro h
    refine ⟨?_, middleField_or _ _ _, lowField_or _ _ _⟩
    rw [highField_newSnapshotKey, h]

/-- The keys of two symbols with two sources: the fields are in place for all record types, keys of
different record types differ, and so do keys of one record type and symbol with different masked
source hashes. -/
structure KeysApart (symbol symbol' : WString) (source source' : Option WString) : Prop where
  fields : ∀ id, KeyFields symbolNameHasher id symbol source ∧
    KeyFields symbolNameHasher id symbol' source'
  types : ∀ id id', id ≠ id' → newSnapshotKey symbolNameHasher id symbol source ≠
    newSnapshotKey symbolNameHasher id' symbol' source'
  sources : ∀ id, orderSourceHash symbolNameHasher source &&& snapshotKeySourceMask ≠
      orderSourceHash symbolNameHasher source' &&& snapshotKeySourceMask →
    newSnapshotKey symbolNameHasher id symbol source ≠
      newSnapshotKey symbolNameHasher id symbol source'

/-- Keys are as documented if and only if the bits 32 to 39 of the symbol hashes are zero. -/
theorem keysApart_iff (symbol symbol' : WString) (source source' : Option WString) :
    KeysApart symbolNameHasher symbol symbol' source source' ↔
      (symbolNameHasher symbol >>> 32) &&& 0xFF = 0 ∧
        (symbolNameHasher symbol' >>> 32) &&& 0xFF = 0 := by
  constructor
  · intro h
    -- the record id of a trade is zero
    obtain ⟨htrade, htrade'⟩ := h.fields .trade
    rw [keyFields_iff] at htrade htrade'
    exact ⟨by simpa [recordInfoIdValue, overlap] using htrade,
      by simpa [recordInfoIdValue, overlap] using htrade'⟩
  · rintro ⟨hzero, hzero'⟩
    have hfields : ∀ id, KeyFields symbolNameHasher id symbol source ∧
        KeyFields symbolNameHasher id symbol' source' := by
      intro id
      rw [keyFields_iff, keyFields_iff, overlap, overlap, hzero, hzero']
      simp
    refine ⟨hfields, fun id id' hne heq => ?_, fun id hne heq => ?_⟩
    · apply hne
      apply recordInfoIdValue_injective
      rw [← (hfields id).1.record, ← (hfields id').2.record, heq]
    · apply hne
      have hlow := congrArg lowField heq
      exact (lowField_or _ _ _).symm.trans (hlow.trans (lowField_or _ _ _))

/-- With the hash `0xE8008457405B50B3` of a symbol, a candle and a time and sale have one key. -/
theorem not_keysApart_IBM :
    ¬ KeysApart (fun _ => 0xE8008457405B50B3) [0x49, 0x42, 0x4D] [0x49, 0x42, 0x4D] none none := by
  intro h
  exact h.types .candle .timeAndSale (by decide) (by decide)

end DxFeed.Snapshot
