import DxFeed.BufferedIO.Input
import DxFeed.BufferedIO.Output

/-!
# Compact numbers from the output stream to the input stream

* `longNumber_encode`: what the reader makes of the octets of a number;
* `CompactLongRoundTrip`: writing a number and reading it back from any input buffer.
-/

namespace DxFeed.BufferedIO

open Call FixedWidth PrefixCode

theorem fits_toInt (value : Int64) : Fits 8 value.toInt := by
  have hmin := value.le_toInt
  have hmax := value.toInt_lt
  exact ⟨hmin, hmax⟩

/-- The bytes of a number announce its size class. -/
theorem classOf_head_encode {v : ℤ} {b : Int8} {bs : List Int8}
    (h : (b :: bs).map octet = encode v) : classOf (octet b) = sizeClass v := by
  have hhead : octet b = pattern (sizeClass v) v / 256 ^ sizeClass v % 256 := by
    rw [encode, beOctets] at h
    exact (List.cons.inj h).1
  rw [hhead]
  exact classOf_header (sizeClass_le v) (toNat_emod_lt v _)

/-- The reader gives back every number except that it takes the two-byte form as unsigned. -/
theorem longNumber_encode {v : ℤ} (hv : Fits 8 v) {bs : List Int8}
    (h : bs.map octet = encode v) :
    longNumber (sizeClass v) bs = if sizeClass v = 1 then v % 2 ^ 14 else v := by
  have hnumber := numberOf_pattern (sizeClass_le v) (fits_sizeClass hv)
  unfold longNumber
  split_ifs with hk
  · have hval : bytesValue bs = pattern 1 v % 256 ^ 2 := by
      rw [bytesValue, h, encode, hk, beValue_beOctets]
    rw [hk, hval]
    have hmod := toNat_emod_two_pow v 14
    simp [pattern, header, width]
    omega
  · rw [h]
    exact hnumber

/-- Two-byte numbers are those of size class 1. -/
theorem sizeClass_eq_one_iff {v : ℤ} : sizeClass v = 1 ↔ Fits 1 v ∧ ¬ Fits 0 v := by
  constructor
  · intro h
    unfold sizeClass at h
    split_ifs at h with h₀ h₁
    · exact ⟨h₁, h₀⟩
    all_goals exact absurd h (by decide)
  · rintro ⟨h₁, h₀⟩
    exact sizeClass_succ (by norm_num) h₀ h₁

theorem writtenFrom_outputAt (pre bs room : List Int8) :
    (outputAt (pre ++ bs) room).writtenFrom pre.length = bs := by
  have hlen : (pre ++ bs ++ room).take (pre ++ bs).length = pre ++ bs := List.take_left
  simp only [outputAt, OutputContext.writtenFrom, OutputContext.buffer, Option.getD_some, hlen]
  exact List.drop_left

/-- In the output stream `out` the number is written, in as many bytes as its compact size;
from any input buffer that holds the written bytes between `pre` and `post`, with the
position on them, they are read back and consumed, and nothing else. -/
def CompactLongRoundTrip (value : Int64) (out : OutputContext) (pre post : List Int8)
    (limit : ℕ) : Prop :=
  ∃ out', exec (writeCompactLong value) out = (.ok (), out') ∧
    (out'.writtenFrom out.currentOutBufferPosition).length = getCompactSize value ∧
    exec readCompactLong
        (inputAt pre (out'.writtenFrom out.currentOutBufferPosition ++ post) limit) =
      (.ok value, inputAt (pre ++ out'.writtenFrom out.currentOutBufferPosition) post limit)

/-- What the reader makes of the bytes written for `value`. -/
theorem reads_written {value : Int64} {bs : List Int8} (h : bs.map octet = encode value.toInt) :
    ∃ v, Reads readCompactLong bs v ∧
      v.toInt = if sizeClass value.toInt = 1 then value.toInt % 2 ^ 14 else value.toInt := by
  have hlen : bs.length = sizeClass value.toInt + 1 := by
    rw [← bs.length_map octet, h, length_encode]
  obtain ⟨b, bs, rfl⟩ := List.exists_cons_of_length_eq_add_one hlen
  have hclass := classOf_head_encode h
  obtain ⟨v, hreads, hv⟩ := reads_readCompactLong b bs (by rw [hclass]; exact Nat.succ.inj hlen)
  refine ⟨v, hreads, ?_⟩
  rw [hv, hclass, longNumber_encode (fits_toInt value) h]

/-- A number comes back if and only if it is not a negative number of the two-byte form. -/
theorem compactLongRoundTrip_iff (value : Int64) (out : OutputContext) (pre post : List Int8)
    (limit : ℕ) (hroom : out.HasRoom (roomForLong value))
    (hlen : pre.length + getCompactSize value + post.length ≤ INT_MAX) :
    CompactLongRoundTrip value out pre post limit ↔ ¬ (-0x2000 ≤ value ∧ value < -0x40) := by
  obtain ⟨before, room, rfl⟩ := hroom.eq_outputAt
  obtain ⟨bs, room', hwrite, hoctets⟩ := exec_writeCompactLong value hroom
  obtain ⟨v, hreads, hv⟩ := reads_written hoctets
  have hsize : bs.length = getCompactSize value := by
    rw [← bs.length_map octet, hoctets, length_encode, getCompactSize_eq]
  have hread := hreads pre post limit (by rw [List.length_append, List.length_append]; omega)
  have hsame : CompactLongRoundTrip value (outputAt before room) pre post limit ↔ v = value := by
    unfold CompactLongRoundTrip
    simp only [hwrite, currentOutBufferPosition_outputAt, Prod.mk.injEq, true_and]
    constructor
    · rintro ⟨_, rfl, -, hback⟩
      rw [writtenFrom_outputAt, hread] at hback
      simpa using hback
    · rintro rfl
      refine ⟨_, rfl, ?_, ?_⟩
      · rw [writtenFrom_outputAt, hsize]
      · rw [writtenFrom_outputAt, hread]
  rw [hsame, ← Int64.toInt_inj, hv, Int64.le_iff_toInt_le, Int64.lt_iff_toInt_lt]
  show _ ↔ ¬ (-0x2000 ≤ value.toInt ∧ value.toInt < -0x40)
  have htwo : sizeClass value.toInt = 1 ↔
      (-0x2000 ≤ value.toInt ∧ value.toInt < 0x2000) ∧
        ¬ (-0x40 ≤ value.toInt ∧ value.toInt < 0x40) := sizeClass_eq_one_iff
  split_ifs with hk
  · have hrange := htwo.mp hk
    omega
  · have hrange := fun h => hk (htwo.mpr h)
    constructor
    · intro _ hneg
      exact hrange (by omega)
    · intro _
      rfl

/-- The number 65536 in a buffer of 16 bytes, read back with a byte before and after it. -/
theorem compactLongRoundTrip_65536 :
    CompactLongRoundTrip 65536 (outputAt [1, 2] (List.replicate 14 0)) [7] [9] 5 ↔
      ¬ ((-0x2000 : Int64) ≤ 65536 ∧ (65536 : Int64) < -0x40) :=
  compactLongRoundTrip_iff 65536 (outputAt [1, 2] (List.replicate 14 0)) [7] [9] 5
    ⟨rfl, by decide, by decide, Or.inl (by decide)⟩ (by decide)

/-- The bytes written for -65 are read as 16319. -/
theorem compactLong_minus_65 :
    (outputAt [] (List.replicate 16 0)).HasRoom (roomForLong (-65)) ∧
      ¬ CompactLongRoundTrip (-65) (outputAt [] (List.replicate 16 0)) [] [] 0 ∧
      exec readCompactLong (inputAt [] [-65, -65] 0) =
        (.ok 16319, inputAt [-65, -65] [] 0) := by
  refine ⟨⟨rfl, by decide, by decide, Or.inl (by decide)⟩, ?_, by decide⟩
  rintro ⟨out', hwrite, -, hread⟩
  have hout : out' = outputAt [-65, -65] (List.replicate 14 0) := by
    have hexec : exec (writeCompactLong (-65)) (outputAt [] (List.replicate 16 0)) =
      (.ok (), outputAt [-65, -65] (List.replicate 14 0)) := by decide
    rw [hexec] at hwrite
    exact (Prod.mk.inj hwrite).2.symm
  subst hout
  revert hread
  decide

end DxFeed.BufferedIO
