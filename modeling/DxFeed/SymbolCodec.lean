import DxFeed.EventData
import DxFeed.Library.FixedWidth
import DxFeed.Library.PackedCode

/-!
# The symbol codec of `SymbolCodec.c`

A short symbol is packed into a cipher of 32 bits: each character has a code of 5 or 10 bits.

* `initSymbolCodec`: the tables of the codes;
* `encodeSymbolName`, `decodeSymbolName`;
* `PentaChar`: a character and its code, which the tables give back.

A penta is a natural number: a list of codes that does not fit into the 64 bits of the source is
longer than 35 bits, and its penta is not used.
-/

namespace DxFeed.SymbolCodec

open FixedWidth PackedCode

/-- A character constant of the source. -/
def wideChar (c : Char) : ℕ := c.toNat

/-- `g_pentas`, `g_penta_lengths` and `g_penta_characters`. -/
structure PentaTables where
  pentas : ℕ → ℕ
  pentaLengths : ℕ → ℕ
  pentaCharacters : ℕ → UInt16

/-- `dx_init_penta`. -/
def initPenta (tables : PentaTables) (c penta pentaLength : ℕ) : PentaTables where
  pentas := Function.update tables.pentas c penta
  pentaLengths := Function.update tables.pentaLengths c pentaLength
  pentaCharacters := Function.update tables.pentaCharacters penta (UInt16.ofNat c)

/-- The tables before the first code. -/
def emptyTables : PentaTables where
  pentas := fun _ => 0
  pentaLengths := fun _ => 64
  pentaCharacters := fun _ => 0

/-- The codes of 5 bits: the letters, and the characters `.`, `/` and `$`. -/
def initShortPentas : PentaTables :=
  let tables := (List.range' (wideChar 'A') 26).foldl
    (fun tables i => initPenta tables i (i - wideChar 'A' + 1) 5) emptyTables
  let tables := initPenta tables (wideChar '.') 27 5
  let tables := initPenta tables (wideChar '/') 28 5
  initPenta tables (wideChar '$') 29 5

/-- The codes of 10 bits: the other characters from 32 to 126, without the two quotes. -/
def initLongPentas (tables : PentaTables) : PentaTables × ℕ :=
  (List.range' 32 95).foldl
    (fun (tables, penta) i =>
      -- 39 and 96 are the quote and the back quote.
      if tables.pentas i = 0 ∧ i ≠ 39 ∧ i ≠ 96 then
        (initPenta tables i penta 10, penta + 1)
      else (tables, penta))
    (tables, 0x03C0)

/-- `dx_init_symbol_codec` up to the wildcard cipher; it fails unless the codes of 10 bits end at `0x0400`. -/
def initSymbolCodec : Option PentaTables :=
  let (tables, penta) := initLongPentas initShortPentas
  if penta ≠ 0x0400 then none else some tables

theorem isSome_initSymbolCodec : initSymbolCodec.isSome := by decide +kernel

/-- The tables of the codec. -/
@[irreducible] def pentaTables : PentaTables := initSymbolCodec.get isSome_initSymbolCodec

/-! ### Encoding -/

/-- `dx_encode_penta`. -/
def encodePenta (penta pentaLength : ℕ) : Int32 :=
  if pentaLength ≤ 30 then Int32.ofNat penta + 0x40000000
  else
    let c := penta >>> 30
    if c = pentaTables.pentas (wideChar '/') then
      (Int32.ofNat penta &&& 0x3FFFFFFF) + 0x80000000
    else if c = pentaTables.pentas (wideChar '$') then
      (Int32.ofNat penta &&& 0x3FFFFFFF) + 0xC0000000
    else 0

/-- The loop of `dx_encode_symbol_name`: the penta and its length, unless a character is not
ASCII. -/
def encodeCharacters : WString → ℕ → ℕ → Option (ℕ × ℕ)
  | [], penta, pentaLength => some (penta, pentaLength)
  | c :: symbol, penta, pentaLength =>
      if c.toNat ≥ 128 then none
      else
        let l := pentaTables.pentaLengths c.toNat
        encodeCharacters symbol (penta <<< l + pentaTables.pentas c.toNat) (pentaLength + l)

/-- `dx_encode_symbol_name`; `none` is a null pointer. -/
def encodeSymbolName : Option WString → Int32
  | none => 0
  | some symbol =>
      if symbol.length > 7 then 0
      else
        match encodeCharacters symbol 0 0 with
        | none => 0
        | some (penta, pentaLength) =>
            if pentaLength > 35 then 0 else encodePenta penta pentaLength

/-! ### Decoding -/

/-- The first loop of `dx_penta_to_string`: the length of a penta, in steps of 5 bits. -/
def pentaLengthFrom (penta pentaLength : ℕ) : ℕ :=
  if penta >>> pentaLength ≠ 0 then pentaLengthFrom penta (pentaLength + 5) else pentaLength
termination_by penta >>> pentaLength
decreasing_by
  rename_i h
  rw [Nat.shiftRight_add, Nat.shiftRight_eq_div_pow _ 5]
  exact Nat.div_lt_self (Nat.pos_of_ne_zero h) (by norm_num)

/-- The second loop of `dx_penta_to_string`: the characters it puts into the buffer. -/
def pentaCharacters (penta pentaLength : ℕ) : WString :=
  if pentaLength > 0 then
    let code := (penta >>> (pentaLength - 5)) &&& 0x1F
    if code ≥ 30 ∧ pentaLength - 5 > 0 then
      let code := (penta >>> (pentaLength - 5 - 5)) &&& 0x3FF
      pentaTables.pentaCharacters code :: pentaCharacters penta (pentaLength - 5 - 5)
    else pentaTables.pentaCharacters code :: pentaCharacters penta (pentaLength - 5)
  else []
termination_by pentaLength

/-- `dx_penta_to_string`: the string ends at the first zero in the buffer. -/
def pentaToString (penta : ℕ) : WString :=
  (pentaCharacters penta (pentaLengthFrom penta 0)).takeWhile (· ≠ 0)

/-- `dx_decode_cipher`; `none` is an error. -/
def decodeCipher (cipher : Int32) : Option ℕ :=
  match (cipher.toUInt32 >>> 30).toNat with
  | 1 => some (word (cipher &&& 0x3FFFFFFF))
  | 2 => some (pentaTables.pentas (wideChar '/') <<< 30 + word (cipher &&& 0x3FFFFFFF))
  | 3 => some (pentaTables.pentas (wideChar '$') <<< 30 + word (cipher &&& 0x3FFFFFFF))
  | _ => none

/-- `dx_decode_symbol_name`: `none` is an error, `some none` a null pointer. -/
def decodeSymbolName (cipher : Int32) : Option (Option WString) :=
  if cipher = 0 then some none
  else
    match decodeCipher cipher with
    | none => none
    | some penta => some (some (pentaToString penta))

/-! ### The codes -/

/-- The code of a character. -/
def code (c : UInt16) : ℕ := pentaTables.pentas c.toNat

/-- The number of bits of the code of a character. -/
def bits (c : UInt16) : ℕ := pentaTables.pentaLengths c.toNat

/-- A character with a code: a short one, or a long one that starts with 30 or 31; the tables
give the character back. -/
structure PentaChar (c : UInt16) : Prop where
  code_bits : (bits c = 5 ∧ 1 ≤ code c ∧ code c < 30) ∨
    (bits c = 10 ∧ 30 * 2 ^ 5 ≤ code c ∧ code c < 2 ^ 10)
  character : pentaTables.pentaCharacters (code c) = c
  ne_zero : c ≠ 0

/-- The tables of all ASCII characters. -/
theorem pentaTables_ascii : ∀ c < 128, pentaTables.pentaLengths c = 64 ∨
    (((pentaTables.pentaLengths c = 5 ∧ 1 ≤ pentaTables.pentas c ∧ pentaTables.pentas c < 30) ∨
      (pentaTables.pentaLengths c = 10 ∧ 30 * 2 ^ 5 ≤ pentaTables.pentas c ∧
        pentaTables.pentas c < 2 ^ 10)) ∧
      pentaTables.pentaCharacters (pentaTables.pentas c) = UInt16.ofNat c ∧ c ≠ 0) := by
  decide +kernel

theorem pentaChar_of_bits {c : UInt16} (hascii : c.toNat < 128) (hbits : bits c ≠ 64) :
    PentaChar c := by
  rcases pentaTables_ascii c.toNat hascii with hinvalid | ⟨hcode, hcharacter, hzero⟩
  · exact absurd hinvalid hbits
  · refine ⟨hcode, hcharacter.trans UInt16.ofNat_toNat, ?_⟩
    rintro rfl
    exact hzero rfl

namespace PentaChar

variable {c : UInt16}

theorem code_lt (h : PentaChar c) : code c < 2 ^ bits c := by
  rcases h.code_bits with ⟨hbits, -, hlt⟩ | ⟨hbits, -, hlt⟩
  · rw [hbits]
    omega
  · rwa [hbits]

/-- The five highest bits of a code are not all zero. -/
theorem le_code (h : PentaChar c) : ∃ d, bits c = d + 5 ∧ 2 ^ d ≤ code c := by
  rcases h.code_bits with ⟨hbits, hle, -⟩ | ⟨hbits, hle, -⟩
  · exact ⟨0, hbits, hle⟩
  · exact ⟨5, hbits, by omega⟩

end PentaChar

/-- The loop of `dx_encode_symbol_name` packs the codes of ASCII characters. -/
theorem encodeCharacters_ascii {symbol : WString} (h : ∀ c ∈ symbol, c.toNat < 128)
    (penta pentaLength : ℕ) :
    encodeCharacters symbol penta pentaLength =
      some (symbol.foldl (fun acc c => acc <<< bits c + code c) penta,
        pentaLength + packLength bits symbol) := by
  induction symbol generalizing penta pentaLength with
  | nil => rfl
  | cons c symbol ih =>
      have hc : ¬ c.toNat ≥ 128 := Nat.not_le_of_lt (h c List.mem_cons_self)
      have hrest := ih fun c' hc' => h c' (List.mem_cons_of_mem c hc')
      rw [encodeCharacters, if_neg hc, hrest, packLength_cons, ← Nat.add_assoc]
      rfl

theorem encodeCharacters_eq_none {symbol : WString} (h : ¬ ∀ c ∈ symbol, c.toNat < 128)
    (penta pentaLength : ℕ) : encodeCharacters symbol penta pentaLength = none := by
  induction symbol generalizing penta pentaLength with
  | nil => exact absurd (fun c hc => absurd hc List.not_mem_nil) h
  | cons c symbol ih =>
      rw [encodeCharacters]
      by_cases hc : c.toNat ≥ 128
      · rw [if_pos hc]
      · rw [if_neg hc]
        refine ih (fun hrest => h ?_) _ _
        intro c' hc'
        rcases List.mem_cons.mp hc' with rfl | hc'
        · exact Nat.lt_of_not_le hc
        · exact hrest c' hc'

/-- A symbol whose codes have 35 bits at most has only characters with codes. -/
theorem pentaChars {symbol : WString} (hascii : ∀ c ∈ symbol, c.toNat < 128)
    (hlength : packLength bits symbol ≤ 35) : ∀ c ∈ symbol, PentaChar c := by
  intro c hc
  have hle : bits c ≤ packLength bits symbol :=
    List.single_le_sum (fun _ _ => Nat.zero_le _) _ (List.mem_map_of_mem hc)
  exact pentaChar_of_bits (hascii c hc) (by omega)

/-- What a symbol with a cipher is: the penta of its codes has been encoded. -/
theorem encodeSymbolName_ne_zero {symbol : WString} (h : encodeSymbolName (some symbol) ≠ 0) :
    (∀ c ∈ symbol, PentaChar c) ∧ packLength bits symbol ≤ 35 ∧
      encodeSymbolName (some symbol) =
        encodePenta (pack code bits symbol) (packLength bits symbol) := by
  unfold encodeSymbolName at h ⊢
  by_cases hlong : symbol.length > 7
  · simp [hlong] at h
  by_cases hascii : ∀ c ∈ symbol, c.toNat < 128
  · simp only [hlong, if_false, encodeCharacters_ascii hascii, zero_add] at h ⊢
    by_cases hlength : packLength bits symbol > 35
    · simp [hlength] at h
    · simp only [hlength, if_false]
      exact ⟨pentaChars hascii (Nat.le_of_not_lt hlength), Nat.le_of_not_lt hlength, rfl⟩
  · simp [hlong, encodeCharacters_eq_none hascii] at h

/-! ### Reading the codes back -/

/-- The first loop of `dx_penta_to_string` stops at the first multiple of 5 that covers all
bits. -/
theorem pentaLengthFrom_eq {penta : ℕ} (n len : ℕ) (hlt : penta < 2 ^ (len + 5 * n))
    (hle : ∀ m < n, 2 ^ (len + 5 * m) ≤ penta) :
    pentaLengthFrom penta len = len + 5 * n := by
  induction n generalizing len with
  | zero =>
      have hzero : penta / 2 ^ len = 0 := Nat.div_eq_of_lt (by simpa using hlt)
      rw [pentaLengthFrom, Nat.shiftRight_eq_div_pow, hzero]
      rfl
  | succ n ih =>
      have hne : penta >>> len ≠ 0 := by
        rw [Nat.shiftRight_eq_div_pow]
        exact Nat.div_ne_zero_iff.mpr ⟨by positivity, hle 0 (Nat.succ_pos n)⟩
      have hnext : len + 5 * (n + 1) = len + 5 + 5 * n := by ring
      rw [pentaLengthFrom, if_pos hne, hnext]
      refine ih (len + 5) (by rwa [← hnext]) ?_
      intro m hm
      have hstep := hle (m + 1) (by omega)
      rwa [show len + 5 * (m + 1) = len + 5 + 5 * m by ring] at hstep

theorem dvd_packLength {symbol : WString} (h : ∀ c ∈ symbol, PentaChar c) :
    ∃ n, packLength bits symbol = 5 * n := by
  induction symbol with
  | nil => exact ⟨0, rfl⟩
  | cons c symbol ih =>
      obtain ⟨n, hn⟩ := ih fun c' hc' => h c' (List.mem_cons_of_mem c hc')
      rw [packLength_cons, hn]
      rcases (h c List.mem_cons_self).code_bits with ⟨hbits, -⟩ | ⟨hbits, -⟩
      · exact ⟨n + 1, by omega⟩
      · exact ⟨n + 2, by omega⟩

/-- The length of a penta is the length of its codes: the first code has a bit among its highest
five. -/
theorem pentaLengthFrom_pack {symbol : WString} (h : ∀ c ∈ symbol, PentaChar c) :
    pentaLengthFrom (pack code bits symbol) 0 = packLength bits symbol := by
  obtain ⟨n, hn⟩ := dvd_packLength h
  have hlt := pack_lt fun c hc => (h c hc).code_lt
  rw [hn] at hlt ⊢
  rw [pentaLengthFrom_eq n 0 (by rwa [zero_add]), zero_add]
  intro m hm
  rw [zero_add]
  cases symbol with
  | nil =>
      rw [packLength_nil] at hn
      omega
  | cons c symbol =>
      obtain ⟨d, hbits, hcode⟩ := (h c List.mem_cons_self).le_code
      rw [packLength_cons] at hn
      refine le_trans (Nat.pow_le_pow_right (by norm_num) ?_) (le_pack hcode)
      omega

/-- The second loop of `dx_penta_to_string` reads one character after another. -/
theorem pentaCharacters_pack {symbol : WString} (h : ∀ c ∈ symbol, PentaChar c) {penta : ℕ}
    (hpenta : penta % 2 ^ packLength bits symbol = pack code bits symbol) :
    pentaCharacters penta (packLength bits symbol) = symbol := by
  induction symbol with
  | nil => rw [packLength_nil, pentaCharacters, if_neg (lt_irrefl 0)]
  | cons c symbol ih =>
      have hc := h c List.mem_cons_self
      have hrest : ∀ c' ∈ symbol, PentaChar c' := fun c' hc' => h c' (List.mem_cons_of_mem c hc')
      have hlt : ∀ c' ∈ symbol, code c' < 2 ^ bits c' := fun c' hc' => (hrest c' hc').code_lt
      have htail := ih hrest (pack_mod hlt hpenta)
      have hread : ∀ d k, bits c = d + k →
          (penta >>> (packLength bits symbol + d)) % 2 ^ k = code c / 2 ^ d := by
        intro d k hk
        rw [Nat.shiftRight_eq_div_pow]
        exact leading_bits hlt hpenta hk
      have hfive : ∀ x : ℕ, x &&& 0x1F = x % 2 ^ 5 := fun x => Nat.and_two_pow_sub_one_eq_mod x 5
      have hten : ∀ x : ℕ, x &&& 0x3FF = x % 2 ^ 10 := fun x =>
        Nat.and_two_pow_sub_one_eq_mod x 10
      rw [packLength_cons, pentaCharacters, hfive, hten]
      rcases hc.code_bits with ⟨hbits, -, hshort⟩ | ⟨hbits, hlong, hlt'⟩
      · have hpos : bits c + packLength bits symbol > 0 := by omega
        have hrem : bits c + packLength bits symbol - 5 = packLength bits symbol + 0 := by omega
        rw [if_pos hpos, hrem, hread 0 5 (by omega), pow_zero, Nat.div_one, add_zero]
        simp only [Nat.not_le_of_lt hshort, false_and, if_false, hc.character, htail]
      · have hpos : bits c + packLength bits symbol > 0 := by omega
        have hrem : bits c + packLength bits symbol - 5 = packLength bits symbol + 5 := by omega
        have hrem' : packLength bits symbol + 5 - 5 = packLength bits symbol + 0 := by omega
        have hlead : code c / 2 ^ 5 ≥ 30 := by omega
        rw [if_pos hpos, hrem, hread 5 5 (by omega), hrem', hread 0 10 (by omega), pow_zero,
          Nat.div_one, add_zero, htail]
        simp only [hlead, Nat.succ_pos, gt_iff_lt, and_true, if_true,
          hc.character]

theorem pentaToString_pack {symbol : WString} (h : ∀ c ∈ symbol, PentaChar c) :
    pentaToString (pack code bits symbol) = symbol := by
  have hlt := pack_lt fun c hc => (h c hc).code_lt
  rw [pentaToString, pentaLengthFrom_pack h, pentaCharacters_pack h (Nat.mod_eq_of_lt hlt),
    List.takeWhile_eq_self_iff]
  intro c hc
  simpa using (h c hc).ne_zero

/-! ### Ciphers -/

/-- The two halves of a cipher. -/
theorem cipher_parts {cipher : Int32} {k low : ℕ} (hlow : low < 2 ^ 30)
    (hword : word cipher = k * 2 ^ 30 + low) :
    (cipher.toUInt32 >>> 30).toNat = k ∧ word (cipher &&& 0x3FFFFFFF) = low := by
  constructor
  · have hshift : (cipher.toUInt32 >>> 30).toNat = word cipher >>> 30 := rfl
    rw [hshift, hword, Nat.shiftRight_eq_div_pow]
    omega
  · have hand : word (cipher &&& 0x3FFFFFFF) = word cipher &&& (2 ^ 30 - 1) := rfl
    rw [hand, Nat.and_two_pow_sub_one_eq_mod, hword]
    omega

theorem word_ofNat (n : ℕ) : word (Int32.ofNat n) = n % 2 ^ 32 := rfl

theorem word_add (x y : Int32) : word (x + y) = (word x + word y) % 2 ^ 32 := rfl

theorem word_low (penta : ℕ) : word (Int32.ofNat penta &&& 0x3FFFFFFF) = penta % 2 ^ 30 := by
  have hand : word (Int32.ofNat penta &&& 0x3FFFFFFF) = penta % 2 ^ 32 &&& (2 ^ 30 - 1) := rfl
  rw [hand, Nat.and_two_pow_sub_one_eq_mod]
  omega

/-- A penta that has a cipher is read back from it. -/
theorem decodeCipher_encodePenta {penta pentaLength : ℕ} (hlt : penta < 2 ^ pentaLength)
    (h : encodePenta penta pentaLength ≠ 0) :
    decodeCipher (encodePenta penta pentaLength) = some penta := by
  have hlow : penta % 2 ^ 30 < 2 ^ 30 := Nat.mod_lt _ (by norm_num)
  unfold encodePenta at h ⊢
  by_cases hshort : pentaLength ≤ 30
  · have hpenta : penta < 2 ^ 30 := hlt.trans_le (Nat.pow_le_pow_right (by norm_num) hshort)
    have hword : word (Int32.ofNat penta + 0x40000000) = 1 * 2 ^ 30 + penta := by
      rw [word_add, word_ofNat, show word 0x40000000 = 2 ^ 30 from rfl]
      omega
    obtain ⟨hkind, hrest⟩ := cipher_parts hpenta hword
    rw [if_pos hshort]
    simp only [decodeCipher, hkind, hrest]
  · rw [if_neg hshort] at h ⊢
    have hsplit : penta >>> 30 * 2 ^ 30 + penta % 2 ^ 30 = penta := by
      rw [Nat.shiftRight_eq_div_pow]
      omega
    by_cases hslash : penta >>> 30 = pentaTables.pentas (wideChar '/')
    · have hword : word ((Int32.ofNat penta &&& 0x3FFFFFFF) + 0x80000000) =
          2 * 2 ^ 30 + penta % 2 ^ 30 := by
        rw [word_add, word_low, show word 0x80000000 = 2 * 2 ^ 30 from rfl]
        omega
      obtain ⟨hkind, hrest⟩ := cipher_parts hlow hword
      simp only [if_pos hslash, decodeCipher, hkind, hrest]
      rw [← hslash, Nat.shiftLeft_eq, hsplit]
    · by_cases hdollar : penta >>> 30 = pentaTables.pentas (wideChar '$')
      · have hword : word ((Int32.ofNat penta &&& 0x3FFFFFFF) + 0xC0000000) =
            3 * 2 ^ 30 + penta % 2 ^ 30 := by
          rw [word_add, word_low, show word 0xC0000000 = 3 * 2 ^ 30 from rfl]
          omega
        obtain ⟨hkind, hrest⟩ := cipher_parts hlow hword
        simp only [if_neg hslash, if_pos hdollar, decodeCipher, hkind, hrest]
        rw [← hdollar, Nat.shiftLeft_eq, hsplit]
      · simp only [if_neg hslash, if_neg hdollar] at h
        exact absurd rfl h

/-- Decoding a cipher gives back the symbol. -/
theorem decode_encodeSymbolName {symbol : WString} (h : encodeSymbolName (some symbol) ≠ 0) :
    decodeSymbolName (encodeSymbolName (some symbol)) = some (some symbol) := by
  obtain ⟨hchars, -, hcipher⟩ := encodeSymbolName_ne_zero h
  rw [hcipher] at h ⊢
  have hlt := pack_lt fun c hc => (hchars c hc).code_lt
  rw [decodeSymbolName, if_neg h, decodeCipher_encodePenta hlt h]
  simp only [pentaToString_pack hchars]

/-- The cipher of a symbol gives back this symbol, and no other string has this cipher. -/
theorem symbolCipher_lossless (symbol : WString) (h : encodeSymbolName (some symbol) ≠ 0) :
    decodeSymbolName (encodeSymbolName (some symbol)) = some (some symbol) ∧
      ∀ other : WString, encodeSymbolName (some other) = encodeSymbolName (some symbol) →
        other = symbol := by
  refine ⟨decode_encodeSymbolName h, fun other heq => ?_⟩
  have hother := decode_encodeSymbolName (by rwa [heq] : encodeSymbolName (some other) ≠ 0)
  rw [heq, decode_encodeSymbolName h] at hother
  exact (Option.some.inj (Option.some.inj hother)).symm

/-- The symbol `$SPX`, with a code of 10 bits in front of two short ones. -/
theorem symbolCipher_lossless_spx :
    decodeSymbolName (encodeSymbolName (some [36, 83, 80, 88])) = some (some [36, 83, 80, 88]) ∧
      ∀ other : WString, encodeSymbolName (some other) = encodeSymbolName (some [36, 83, 80, 88]) →
        other = [36, 83, 80, 88] :=
  symbolCipher_lossless [36, 83, 80, 88] (by decide +kernel)

end DxFeed.SymbolCodec
