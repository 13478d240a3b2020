import DxFeed.Library.Cells
import DxFeed.Library.PrefixCode
import DxFeed.RecordTranscoder.Transcoders

/-!
# Short strings packed into integers

Market makers and sale conditions come as integers, with one character in each octet.

* `decodeLoop`, `dxDecodeFromInteger`: the loop of `dx_decode_from_integer` over its array of eight
  characters;
* `dxDecodeFromInteger_eq`: it ends, it stays in the array, and its result is `decodeFromInteger`;
* `characters`, `ShortString.pack`: the non-zero octets of an integer, and a string in an integer;
* `decodesOctets_iff`: the octets come back as characters if and only if none has its top bit.
-/

namespace DxFeed.RecordTranscoder

open PrefixCode SymbolCodec

/-! ### The loop -/

/-- The length of `decoded`. -/
def decodedSize : ℕ := 8

/-- `(dxf_char_t)(code >> 56)`: the shift is that of a signed number. -/
def topCharacter (code : BitVec 64) : UInt16 :=
  UInt16.ofBitVec ((code.sshiftRight 56).setWidth 16)

/-- The loop of `dx_decode_from_integer`, at most as many rounds as the first argument says.  There
is no result if the rounds do not suffice, and none if a character is written behind the array. -/
def decodeLoop : ℕ → BitVec 64 → List UInt16 → ℕ → Option (List UInt16 × ℕ)
  | rounds, code, decoded, offset =>
      if code = 0 then some (decoded, offset)
      else
        match rounds with
        | 0 => none
        | rounds + 1 =>
            let c := topCharacter code
            if c ≠ 0 then
              (Cells.write decoded offset c).bind fun decoded =>
                decodeLoop rounds (code <<< 8) decoded (offset + 1)
            else decodeLoop rounds (code <<< 8) decoded offset

/-- `dx_decode_from_integer`. -/
def dxDecodeFromInteger (code : BitVec 64) : Option WString :=
  (decodeLoop 8 code (List.replicate decodedSize 0) 0).map fun (decoded, offset) =>
    createStringSrcLen decoded offset

/-- The characters of the next rounds, zeros included. -/
def charactersFrom : ℕ → BitVec 64 → WString
  | 0, _ => []
  | rounds + 1, code => topCharacter code :: charactersFrom rounds (code <<< 8)

@[simp] theorem topCharacter_zero : topCharacter 0 = 0 := by decide

theorem charactersFrom_zero (rounds : ℕ) :
    charactersFrom rounds 0 = List.replicate rounds 0 := by
  induction rounds with
  | zero => rfl
  | succ rounds ih =>
      have hshift : (0 : BitVec 64) <<< 8 = 0 := BitVec.zero_shiftLeft 8
      rw [charactersFrom, topCharacter_zero, hshift, ih, List.replicate_succ]

/-- The loop shifts all bits out, and fills the array from its beginning. -/
theorem decodeLoop_eq {rounds : ℕ} {code : BitVec 64} (front rest : WString)
    (hcode : code <<< (8 * rounds) = 0) (hroom : rounds ≤ rest.length) :
    ∃ rest', decodeLoop rounds code (front ++ rest) front.length =
      some (front ++ (charactersFrom rounds code).filter (· ≠ 0) ++ rest',
        (front ++ (charactersFrom rounds code).filter (· ≠ 0)).length) := by
  induction rounds generalizing code front rest with
  | zero =>
      have hzero : code = 0 := by simpa using hcode
      refine ⟨rest, ?_⟩
      simp [decodeLoop, hzero, charactersFrom]
  | succ rounds ih =>
      by_cases hzero : code = 0
      · refine ⟨rest, ?_⟩
        have hnone : (charactersFrom (rounds + 1) code).filter (· ≠ 0) = [] := by
          rw [hzero, charactersFrom_zero]
          simp
        rw [decodeLoop, if_pos hzero, hnone, List.append_nil]
      · have hshifted : code <<< 8 <<< (8 * rounds) = 0 := by
          rw [← BitVec.shiftLeft_add]
          rw [show 8 + 8 * rounds = 8 * (rounds + 1) by ring]
          exact hcode
        rw [decodeLoop, if_neg hzero]
        by_cases hc : topCharacter code = 0
        · obtain ⟨rest', hloop⟩ := ih front rest hshifted (by omega)
          refine ⟨rest', ?_⟩
          have hskip : (charactersFrom (rounds + 1) code).filter (· ≠ 0) =
              (charactersFrom rounds (code <<< 8)).filter (· ≠ 0) := by
            rw [charactersFrom, hc]
            simp
          simp only [hc, ne_eq, not_true_eq_false, if_false]
          rw [hskip]
          exact hloop
        · -- the character goes to the first cell behind the front
          obtain _ | ⟨cell, rest⟩ := rest
          · simp at hroom
          · have hwrite : Cells.write (front ++ cell :: rest) front.length (topCharacter code) =
                some (front ++ [topCharacter code] ++ rest) := by
              rw [Cells.write_eq_some]
              simp
            have hkept : (charactersFrom (rounds + 1) code).filter (· ≠ 0) =
                topCharacter code :: (charactersFrom rounds (code <<< 8)).filter (· ≠ 0) := by
              rw [charactersFrom, List.filter_cons_of_pos (by simpa using hc)]
            obtain ⟨rest', hloop⟩ := ih (front ++ [topCharacter code]) rest hshifted
              (by simpa using hroom)
            refine ⟨rest', ?_⟩
            simp only [ne_eq, hc, not_false_eq_true, if_true, hwrite, Option.bind_some]
            rw [hkept]
            simpa using hloop

/-- Eight rounds are enough, and no character is written behind the array. -/
theorem dxDecodeFromInteger_eq_charactersFrom (code : BitVec 64) :
    dxDecodeFromInteger code = some ((charactersFrom 8 code).filter (· ≠ 0)) := by
  have hshifted : code <<< (8 * 8) = 0 := BitVec.shiftLeft_eq_zero (by decide)
  obtain ⟨rest, hloop⟩ := decodeLoop_eq [] (List.replicate decodedSize 0) hshifted (by decide)
  rw [List.nil_append, List.nil_append, List.length_nil] at hloop
  have hnozero : ∀ c ∈ (charactersFrom 8 code).filter (· ≠ 0), c ≠ 0 := by
    intro c hc
    simpa using (List.mem_filter.mp hc).2
  rw [dxDecodeFromInteger, hloop, Option.map_some]
  simp only [createStringSrcLen, List.take_left]
  rw [List.takeWhile_eq_self_iff.mpr]
  intro c hc
  simpa using hnozero c hc

/-- The characters of an integer, each from a shift of the whole integer. -/
theorem charactersFrom_eq_map (rounds : ℕ) (code : BitVec 64) :
    charactersFrom rounds code =
      (List.range rounds).map fun i => topCharacter (code <<< (8 * i)) := by
  induction rounds generalizing code with
  | zero => rfl
  | succ rounds ih =>
      have hshift : (fun i => topCharacter (code <<< 8 <<< (8 * i))) =
          (fun i => topCharacter (code <<< (8 * i))) ∘ Nat.succ := by
        funext i
        rw [Function.comp_apply, ← BitVec.shiftLeft_add, Nat.succ_eq_add_one, Nat.mul_add,
          Nat.mul_one, Nat.add_comm]
      rw [charactersFrom, ih, hshift, ← List.map_map, List.range_succ_eq_map, List.map_cons,
        Nat.mul_zero, BitVec.shiftLeft_zero]

/-- The transcoders' closed form is what the loop computes. -/
theorem dxDecodeFromInteger_eq (code : BitVec 64) :
    dxDecodeFromInteger code = some (decodeFromInteger code) := by
  rw [dxDecodeFromInteger_eq_charactersFrom, charactersFrom_eq_map]
  rfl

/-! ### Octets -/

/-- The character that comes of an octet: the high octet takes copies of its top bit. -/
def characterOf (octet : ℕ) : UInt16 :=
  UInt16.ofNat (if octet < 0x80 then octet else octet + 0xFF00)

theorem toNat_characterOf {octet : ℕ} (h : octet < 256) :
    (characterOf octet).toNat = if octet < 0x80 then octet else octet + 0xFF00 := by
  rw [characterOf, UInt16.toNat_ofNat', Nat.mod_eq_of_lt]
  split_ifs <;> omega

theorem characterOf_eq_zero {octet : ℕ} (h : octet < 256) :
    characterOf octet = 0 ↔ octet = 0 := by
  rw [← UInt16.toNat_inj, toNat_characterOf h, UInt16.toNat_zero]
  split_ifs with hlow
  · exact Iff.rfl
  · exact iff_of_false not_false (by omega)

/-- An octet is its own character if and only if its top bit is clear. -/
theorem characterOf_eq_ofNat {octet : ℕ} (h : octet < 256) :
    characterOf octet = UInt16.ofNat octet ↔ octet < 0x80 := by
  have hoctet : octet % 2 ^ 16 = octet := Nat.mod_eq_of_lt (by omega)
  rw [← UInt16.toNat_inj, toNat_characterOf h, UInt16.toNat_ofNat', hoctet]
  split_ifs <;> omega

/-- The signed shift leaves the top octet, with copies of its top bit above it. -/
theorem topCharacter_eq (code : BitVec 64) :
    topCharacter code = characterOf (code.toNat / 256 ^ 7) := by
  have hlt : code.toNat < 2 ^ 64 := code.isLt
  have hoctet : code.toNat / 256 ^ 7 < 256 := by omega
  have hmsb : code.msb = true ↔ 0x80 ≤ code.toNat / 256 ^ 7 := by
    rw [BitVec.msb_eq_decide, decide_eq_true_iff]
    omega
  rw [← UInt16.toNat_inj, toNat_characterOf hoctet, topCharacter, UInt16.toNat_ofBitVec,
    BitVec.toNat_setWidth, BitVec.toNat_sshiftRight, Nat.shiftRight_eq_div_pow,
    Nat.shiftRight_eq_div_pow]
  by_cases hneg : code.msb = true
  · rw [if_pos hneg, if_neg (not_lt.mpr (hmsb.mp hneg))]
    omega
  · rw [if_neg hneg, if_pos (not_le.mp fun h => hneg (hmsb.mpr h))]
    omega

/-- The octets that are left after a shift are those behind the top one. -/
theorem beOctets_shiftLeft {rounds : ℕ} (code : BitVec 64) (h : rounds ≤ 7) :
    beOctets rounds ((code <<< 8).toNat / 256 ^ (8 - rounds)) =
      beOctets rounds (code.toNat / 256 ^ (7 - rounds)) := by
  have hshift : (code <<< 8).toNat = code.toNat % 256 ^ 7 * 256 := by
    rw [BitVec.toNat_shiftLeft, Nat.shiftLeft_eq]
    exact Nat.mul_mod_mul_right 256 code.toNat (256 ^ 7)
  have hpow : 256 ^ 7 = 256 ^ (7 - rounds) * 256 ^ rounds := by
    rw [← pow_add, Nat.sub_add_cancel h]
  have hdiv : code.toNat % 256 ^ 7 * 256 / 256 ^ (8 - rounds) =
      code.toNat / 256 ^ (7 - rounds) % 256 ^ rounds := by
    rw [show 8 - rounds = 7 - rounds + 1 by omega, pow_succ 256 (7 - rounds),
      Nat.mul_div_mul_right _ _ (by norm_num), hpow, Nat.mod_mul_right_div_self]
  rw [hshift, hdiv, beOctets_mod]

/-- Each round takes the next octet. -/
theorem charactersFrom_eq {rounds : ℕ} (code : BitVec 64) (h : rounds ≤ 8) :
    charactersFrom rounds code =
      (beOctets rounds (code.toNat / 256 ^ (8 - rounds))).map characterOf := by
  induction rounds generalizing code with
  | zero => rfl
  | succ rounds ih =>
      have htop : code.toNat / 256 ^ (8 - (rounds + 1)) / 256 ^ rounds % 256 =
          code.toNat / 256 ^ 7 := by
        have hlt : code.toNat < 2 ^ 64 := code.isLt
        rw [Nat.div_div_eq_div_mul, ← pow_add, show 8 - (rounds + 1) + rounds = 7 by omega]
        exact Nat.mod_eq_of_lt (by omega)
      rw [charactersFrom, topCharacter_eq, ih _ (by omega), beOctets_shiftLeft code (by omega),
        beOctets, List.map_cons, htop, Nat.add_comm rounds 1, Nat.sub_add_eq]

/-- The result: the characters that come of the non-zero octets. -/
theorem dxDecodeFromInteger_eq_octets (code : BitVec 64) :
    dxDecodeFromInteger code =
      some (((beOctets 8 code.toNat).filter (· ≠ 0)).map characterOf) := by
  rw [dxDecodeFromInteger_eq_charactersFrom, charactersFrom_eq code le_rfl, Nat.sub_self, pow_zero,
    Nat.div_one, List.filter_map]
  congr 2
  apply List.filter_congr
  intro octet hoctet
  simp [characterOf_eq_zero (lt_of_mem_beOctets hoctet)]

/-! ### Packed strings -/

/-- The non-zero octets of an integer as characters, from the most significant one on. -/
def characters (code : BitVec 64) : WString :=
  ((beOctets 8 code.toNat).filter (· ≠ 0)).map UInt16.ofNat

/-- At most eight characters with codes from 1 to 255. -/
structure ShortString where
  text : WString
  length_le : text.length ≤ 8
  octets : ∀ c ∈ text, c ≠ 0 ∧ c < 256

namespace ShortString

variable (s : ShortString)

/-- The integer that holds the characters in its lowest octets. -/
def pack : BitVec 64 := BitVec.ofNat 64 (beValue (s.text.map UInt16.toNat))

theorem octet_lt {octet : ℕ} (h : octet ∈ s.text.map UInt16.toNat) : octet ≠ 0 ∧ octet < 256 := by
  obtain ⟨c, hc, rfl⟩ := List.mem_map.mp h
  obtain ⟨hzero, hlt⟩ := s.octets c hc
  exact ⟨fun h0 => hzero (UInt16.toNat_inj.mp h0), UInt16.lt_iff_toNat_lt.mp hlt⟩

theorem beOctets_pack :
    beOctets 8 s.pack.toNat =
      List.replicate (8 - s.text.length) 0 ++ s.text.map UInt16.toNat := by
  have hoctets : ∀ octet ∈ s.text.map UInt16.toNat, octet < 256 := fun _ h => (s.octet_lt h).2
  have hlength : (s.text.map UInt16.toNat).length = s.text.length := List.length_map _
  have hvalue : beValue (s.text.map UInt16.toNat) < 256 ^ s.text.length := by
    rw [← hlength]
    exact beValue_lt hoctets
  have hroom : 256 ^ s.text.length ≤ 2 ^ 64 := by
    calc 256 ^ s.text.length ≤ 256 ^ 8 := Nat.pow_le_pow_right (by norm_num) s.length_le
      _ = 2 ^ 64 := by norm_num
  have hsplit := beOctets_add_of_lt (8 - s.text.length) hvalue
  rw [Nat.sub_add_cancel s.length_le] at hsplit
  rw [pack, BitVec.toNat_ofNat, Nat.mod_eq_of_lt (hvalue.trans_le hroom), hsplit, ← hlength,
    beOctets_beValue hoctets, hlength]

/-- The string is back in the octets of its integer. -/
theorem characters_pack : characters s.pack = s.text := by
  have hkept : (s.text.map UInt16.toNat).filter (· ≠ 0) = s.text.map UInt16.toNat := by
    rw [List.filter_eq_self]
    intro octet h
    simpa using (s.octet_lt h).1
  have hback : UInt16.ofNat ∘ UInt16.toNat = id := by
    funext c
    exact UInt16.ofNat_toNat
  rw [characters, beOctets_pack, List.filter_append, hkept, List.map_append, List.map_map, hback,
    List.map_id]
  simp

end ShortString

/-- The loop gives the octets of an integer if and only if none has its top bit. -/
theorem dxDecodeFromInteger_eq_characters_iff (code : BitVec 64) :
    dxDecodeFromInteger code = some (characters code) ↔
      ∀ octet ∈ beOctets 8 code.toNat, octet < 0x80 := by
  rw [dxDecodeFromInteger_eq_octets, characters, Option.some_inj, List.map_inj_left]
  constructor
  · intro h octet hoctet
    by_cases hzero : octet = 0
    · omega
    · have hkept : octet ∈ (beOctets 8 code.toNat).filter (· ≠ 0) :=
        List.mem_filter.mpr ⟨hoctet, by simpa using hzero⟩
      exact (characterOf_eq_ofNat (lt_of_mem_beOctets hoctet)).mp (h octet hkept)
  · intro h octet hoctet
    have hmem : octet ∈ beOctets 8 code.toNat := (List.mem_filter.mp hoctet).1
    exact (characterOf_eq_ofNat (lt_of_mem_beOctets hmem)).mpr (h octet hmem)

theorem dxDecodeFromInteger_pack_iff (s : ShortString) :
    dxDecodeFromInteger s.pack = some s.text ↔ ∀ c ∈ s.text, c < 0x80 := by
  rw [← s.characters_pack, dxDecodeFromInteger_eq_characters_iff, s.characters_pack,
    s.beOctets_pack]
  constructor
  · intro h c hc
    have hoctet := h c.toNat (List.mem_append_right _ (List.mem_map_of_mem hc))
    exact UInt16.lt_iff_toNat_lt.mpr hoctet
  · intro h octet hoctet
    rcases List.mem_append.mp hoctet with hpad | htext
    · rw [List.eq_of_mem_replicate hpad]
      norm_num
    · obtain ⟨c, hc, rfl⟩ := List.mem_map.mp htext
      exact UInt16.lt_iff_toNat_lt.mp (h c hc)

/-- An integer gives its octets, and a packed string comes back, if and only if no octet has its
top bit. -/
theorem decodesOctets_iff (code : BitVec 64) (s : ShortString) :
    (dxDecodeFromInteger code = some (characters code) ↔
      ∀ octet ∈ beOctets 8 code.toNat, octet < 0x80) ∧
    (dxDecodeFromInteger s.pack = some s.text ↔ ∀ c ∈ s.text, c < 0x80) :=
  ⟨dxDecodeFromInteger_eq_characters_iff code, dxDecodeFromInteger_pack_iff s⟩

/-- The octet `0x80` comes back as the character `0xFF80`. -/
theorem dxDecodeFromInteger_of_topBit :
    ¬ ∀ code : BitVec 64, dxDecodeFromInteger code = some (characters code) := by
  intro h
  have hdecoded : dxDecodeFromInteger 0x80 = some [0xFF80] := by decide
  have hexpected : characters 0x80 = [0x80] := by decide
  have hcode := h 0x80
  rw [hdecoded, hexpected] at hcode
  revert hcode
  decide

end DxFeed.RecordTranscoder
