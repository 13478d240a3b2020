import DxFeed.BufferedIO.UtfString
import DxFeed.SymbolCodec

/-!
# Symbols on the wire

* `codecWriteSymbol`, `codecReadSymbol`: a penta takes 8, 16, 24, 32 or 40 bits, and the first
  bits say how many; other first bytes announce a string, a void symbol or event flags;
* `encodePenta_decodeCipher`: the penta of a cipher gives it back;
* `symbolRoundTrip`: what is written for a cipher is read back, and nothing else is consumed.
-/

namespace DxFeed.SymbolCodec

open Call BufferedIO FixedWidth

/-! ### Writing -/

/-- The loop of `dx_codec_write_symbol` over the characters. -/
def writeCharacters : WString → WriteCall Unit
  | [] => pure ()
  | c :: symbol => do
      writeUtfChar c.toNat
      writeCharacters symbol

/-- `dx_codec_write_symbol`; `none` is a null pointer. -/
def codecWriteSymbol (cipher : Int32) (symbol : Option WString) : WriteCall Unit :=
  if cipher ≠ 0 then
    match decodeCipher cipher with
    | none => throw .invalidFuncParamInternal
    | some penta =>
        if penta = 0 then writeByte (castByte 0xFE)
        else if penta < 0x8000 then writeShort (Int16.ofNat penta)
        else if penta < 0x100000 then do
          writeByte (castByte (0xE0 ||| penta >>> 16))
          writeShort (Int16.ofNat penta)
        else if penta < 0x40000000 then writeInt ((0x80000000 : Int32) ||| Int32.ofNat penta)
        else if penta < 0x0800000000 then do
          writeByte (castByte (0xF0 ||| penta >>> 32))
          writeInt (Int32.ofNat penta)
        else throw .internalAssertViolation
  else
    match symbol with
    | some symbol => do
        writeByte (castByte 0xFD)
        writeCompactInt (Int32.ofNat symbol.length)
        writeCharacters symbol
    | none => writeByte (castByte 0xFF)

/-! ### Reading -/

/-- What `dx_codec_read_symbol` writes through its pointers, except for the cipher.  The buffer
holds the last string that was read into it. -/
structure CodecOutputs where
  buffer : WString
  result : Option WString
  flags : UInt32
  mruEventFlags : UInt32
  deriving DecidableEq, Repr

structure CodecContext where
  bicc : InputContext
  outputs : CodecOutputs
  deriving DecidableEq, Repr

abbrev CodecCall := Call ErrorCode CodecContext

/-- A call on the input stream. -/
def input {α : Type} (x : ReadCall α) : CodecCall α :=
  zoom CodecContext.bicc (fun context bicc => { context with bicc := bicc }) x

/-- An assignment through the pointers. -/
def output (f : CodecOutputs → CodecOutputs) : CodecCall Unit :=
  modify fun context => { context with outputs := f context.outputs }

/-- The constant of `dx_get_codec_valid_cipher`. -/
def codecValidCipher : Int32 := 0xC0000000

/-- `dx_create_string_src_len`: a string ends at the first zero. -/
def createStringSrcLen (src : WString) (len : ℕ) : WString :=
  (src.take len).takeWhile (· ≠ 0)

/-- The loop of `dx_codec_read_symbol` over the characters of a string. -/
def readCharacters : ℕ → ReadCall WString
  | 0 => return []
  | k + 1 => do
      let codePoint ← readUtfChar
      if codePoint > 0xFFFF then throw .badUtfDataFormatServer
      else return UInt16.ofNat codePoint :: (← readCharacters k)

/-- The branch of `dx_codec_read_symbol` for CESU-8; the cipher is the length of a string that
stays in the buffer. -/
def readCesu8 (bufferLength : ℕ) : CodecCall Int32 := do
  let length ← input readCompactLong
  if length < 0 ∨ length.toInt > INT_MAX then throw .invalidSymbolLength
  else if length = 0 then
    output fun outputs => { outputs with result := some [] }
    return 0
  else
    let symbol ← input (readCharacters length.toInt.toNat)
    if length.toInt ≤ bufferLength ∧ length.toInt32 &&& codecValidCipher = 0 then
      output fun outputs => { outputs with buffer := symbol }
      return length.toInt32
    else
      output fun outputs =>
        { outputs with result := some (createStringSrcLen symbol length.toInt.toNat) }
      return 0

/-- The end of `dx_codec_read_symbol`: the cipher of a penta. -/
def readPenta (penta : ℕ) : CodecCall Int32 := do
  let cipher := encodePenta penta (pentaLengthFrom penta 0)
  if cipher = 0 then
    output fun outputs => { outputs with result := some (pentaToString penta) }
  return cipher

/-- The loop of `dx_codec_read_symbol`.  It goes on only behind event flags, and fails if other
event flags follow, so two rounds are enough. -/
def readSymbolFrom (bufferLength : ℕ) : ℕ → ℕ → CodecCall Int32
  | 0, _ => throw .internalAssertViolation
  | rounds + 1, eventFlagsBytes => do
      let i ← input readUnsignedByte
      if i < 0x80 then do
        let tmpInt1 ← input readUnsignedByte
        readPenta ((i <<< 8) + tmpInt1).toNat
      else if i < 0xC0 then do
        let tmpInt1 ← input readUnsignedByte
        let tmpInt2 ← input readUnsignedShort
        readPenta (((i &&& 0x3F) <<< 24) + (tmpInt1 <<< 16) + tmpInt2).toNat
      else if i < 0xE0 then throw .reservedBitSequence
      else if i < 0xF0 then do
        let tmpInt1 ← input readUnsignedShort
        readPenta (((i &&& 0x0F) <<< 16) + tmpInt1).toNat
      else if i < 0xF8 then do
        let tmpInt3 ← input readInt
        readPenta ((i &&& 0x07).toNat <<< 32 + word tmpInt3)
      else if i = 0xF8 then
        if eventFlagsBytes > 0 then throw .invalidEventFlag
        else do
          output fun outputs => { outputs with flags := outputs.mruEventFlags }
          readSymbolFrom bufferLength rounds 1
      else if i = 0xF9 then
        if eventFlagsBytes > 0 then throw .invalidEventFlag
        else do
          let eventFlagsPos := (← get).bicc.currentInBufferPosition
          let tmpFlags ← input readCompactInt
          output fun outputs =>
            { outputs with mruEventFlags := tmpFlags.toUInt32, flags := tmpFlags.toUInt32 }
          readSymbolFrom bufferLength rounds
            ((← get).bicc.currentInBufferPosition - eventFlagsPos)
      else if i < 0xFC then throw .reservedBitSequence
      else if i = 0xFC then do
        let result ← input readUtfString
        output fun outputs => { outputs with result := result }
        return 0
      else if i = 0xFD then readCesu8 bufferLength
      else if i = 0xFE then readPenta 0
      else do
        output fun outputs => { outputs with result := none }
        return 0

/-- `dx_codec_read_symbol`. -/
def codecReadSymbol (bufferLength : ℕ) : CodecCall Int32 := do
  output fun outputs => { outputs with flags := 0 }
  readSymbolFrom bufferLength 2 0

/-! ### Ciphers and pentas -/

theorem pentaLengthFrom_le {penta len : ℕ} (n : ℕ) (hlt : penta < 2 ^ (len + 5 * n)) :
    pentaLengthFrom penta len ≤ len + 5 * n := by
  induction n generalizing len with
  | zero =>
      have hzero : penta >>> len = 0 := by
        rw [Nat.shiftRight_eq_div_pow]
        exact Nat.div_eq_of_lt (by simpa using hlt)
      rw [pentaLengthFrom, if_neg (by simpa using hzero)]
      omega
  | succ n ih =>
      rw [pentaLengthFrom]
      split_ifs with hmore
      · have hnext : len + 5 * (n + 1) = len + 5 + 5 * n := by ring
        rw [hnext] at hlt ⊢
        exact ih hlt
      · omega

theorem pentas_slash : pentaTables.pentas (wideChar '/') = 28 := by decide +kernel

theorem pentas_dollar : pentaTables.pentas (wideChar '$') = 29 := by decide +kernel

/-- The length of a penta that starts with `/` or `$`. -/
theorem pentaLengthFrom_long {high low : ℕ} (hhigh : high = 28 ∨ high = 29)
    (hlow : low < 2 ^ 30) : pentaLengthFrom (high <<< 30 + low) 0 = 35 := by
  rw [Nat.shiftLeft_eq]
  refine pentaLengthFrom_eq 7 0 (by omega) ?_
  intro m hm
  have hpow : 2 ^ (0 + 5 * m) ≤ 2 ^ 30 := Nat.pow_le_pow_right (by norm_num) (by omega)
  omega

theorem word_encodePenta_long {high low : ℕ} (hhigh : high = 28 ∨ high = 29)
    (hlow : low < 2 ^ 30) :
    word (encodePenta (high <<< 30 + low) 35) = (high - 26) * 2 ^ 30 + low := by
  have hc : (high <<< 30 + low) >>> 30 = high := by
    rw [Nat.shiftLeft_eq, Nat.shiftRight_eq_div_pow]
    omega
  have hmask : word (Int32.ofNat (high <<< 30 + low) &&& 0x3FFFFFFF) = low := by
    rw [word_low, Nat.shiftLeft_eq]
    omega
  unfold encodePenta
  rw [if_neg (by norm_num)]
  simp only [hc, pentas_slash, pentas_dollar]
  rcases hhigh with rfl | rfl
  · rw [if_pos rfl, word_add, hmask, show word 0x80000000 = 2 * 2 ^ 30 from rfl]
    omega
  · rw [if_neg (by norm_num), if_pos rfl, word_add, hmask,
      show word 0xC0000000 = 3 * 2 ^ 30 from rfl]
    omega

/-- The tag of a cipher. -/
theorem toNat_tag (cipher : Int32) :
    (cipher.toUInt32 >>> 30).toNat = word cipher / 2 ^ 30 := by
  have hshift : (cipher.toUInt32 >>> 30).toNat = word cipher >>> 30 := rfl
  rw [hshift, Nat.shiftRight_eq_div_pow]

/-- The two kinds of ciphers of a penta. -/
theorem decodeCipher_cases {cipher : Int32} {penta : ℕ} (h : decodeCipher cipher = some penta) :
    (word cipher / 2 ^ 30 = 1 ∧ penta = word cipher % 2 ^ 30) ∨
      ∃ high, (high = 28 ∨ high = 29) ∧ word cipher / 2 ^ 30 = high - 26 ∧
        penta = high <<< 30 + word cipher % 2 ^ 30 := by
  have hrest : word (cipher &&& 0x3FFFFFFF) = word cipher % 2 ^ 30 := by
    have hand : word (cipher &&& 0x3FFFFFFF) = word cipher &&& (2 ^ 30 - 1) := rfl
    rw [hand, Nat.and_two_pow_sub_one_eq_mod]
  unfold decodeCipher at h
  rw [toNat_tag, hrest, pentas_slash, pentas_dollar] at h
  split at h
  case h_1 hone => exact Or.inl ⟨hone, (Option.some.inj h).symm⟩
  case h_2 htwo => exact Or.inr ⟨28, Or.inl rfl, htwo, (Option.some.inj h).symm⟩
  case h_3 hthree => exact Or.inr ⟨29, Or.inr rfl, hthree, (Option.some.inj h).symm⟩
  case h_4 => exact nomatch h

theorem decodeCipher_lt {cipher : Int32} {penta : ℕ} (h : decodeCipher cipher = some penta) :
    penta < 2 ^ 35 := by
  have hlow : word cipher % 2 ^ 30 < 2 ^ 30 := Nat.mod_lt _ (by norm_num)
  obtain ⟨-, rfl⟩ | ⟨high, hhigh, -, rfl⟩ := decodeCipher_cases h
  · omega
  · rw [Nat.shiftLeft_eq]
    omega

/-- The penta of a cipher has this cipher. -/
theorem encodePenta_decodeCipher {cipher : Int32} {penta : ℕ}
    (h : decodeCipher cipher = some penta) :
    encodePenta penta (pentaLengthFrom penta 0) = cipher := by
  have hlow : word cipher % 2 ^ 30 < 2 ^ 30 := Nat.mod_lt _ (by norm_num)
  rw [← word_inj]
  obtain ⟨hkind, rfl⟩ | ⟨high, hhigh, hkind, rfl⟩ := decodeCipher_cases h
  · have hlength : pentaLengthFrom (word cipher % 2 ^ 30) 0 ≤ 0 + 5 * 6 :=
      pentaLengthFrom_le 6 (by simpa using hlow)
    rw [encodePenta, if_pos (by simpa using hlength), word_add, word_ofNat,
      show word 0x40000000 = 2 ^ 30 from rfl]
    omega
  · rw [pentaLengthFrom_long hhigh hlow, word_encodePenta_long hhigh hlow]
    omega

/-! ### Pentas on the wire -/

/-- Where the outputs are `outputs`, in front of the bytes `bs`, the call consumes them, returns
`a` and leaves the outputs `outputs'`. -/
def Decodes {α : Type} (x : CodecCall α) (bs : List Int8) (a : α)
    (outputs outputs' : CodecOutputs) : Prop :=
  ∀ pre post limit, (pre ++ (bs ++ post)).length ≤ INT_MAX →
    exec x ⟨inputAt pre (bs ++ post) limit, outputs⟩ =
      (.ok a, ⟨inputAt (pre ++ bs) post limit, outputs'⟩)

section Decodes

variable {α β : Type} {outputs outputs' outputs'' : CodecOutputs}

theorem decodes_pure (a : α) : Decodes (pure a) [] a outputs outputs := by
  intro pre post limit _
  simp

theorem Decodes.bind {x : CodecCall α} {f : α → CodecCall β} {bs cs : List Int8} {a : α} {b : β}
    (hx : Decodes x bs a outputs outputs') (hf : Decodes (f a) cs b outputs' outputs'') :
    Decodes (x >>= f) (bs ++ cs) b outputs outputs'' := by
  intro pre post limit hlen
  have hx' := hx pre (cs ++ post) limit (by simpa using hlen)
  have hf' := hf (pre ++ bs) post limit (by simpa using hlen)
  rw [List.append_assoc, exec_bind_ok hx', hf', List.append_assoc]

/-- A call on the input stream. -/
theorem decodes_input {x : ReadCall α} {bs : List Int8} {a : α} (h : Reads x bs a) :
    Decodes (input x) bs a outputs outputs := by
  intro pre post limit hlen
  rw [input, exec_zoom]
  simp only [h pre post limit hlen]

/-- An assignment consumes nothing. -/
theorem decodes_output (f : CodecOutputs → CodecOutputs) :
    Decodes (output f) [] () outputs (f outputs) := by
  intro pre post limit _
  simp [output]

theorem Decodes.ite_pos {p : Prop} [Decidable p] {x y : CodecCall α} {bs : List Int8} {a : α}
    (hp : p) (hx : Decodes x bs a outputs outputs') :
    Decodes (if p then x else y) bs a outputs outputs' := by
  rwa [if_pos hp]

theorem Decodes.ite_neg {p : Prop} [Decidable p] {x y : CodecCall α} {bs : List Int8} {a : α}
    (hp : ¬ p) (hy : Decodes y bs a outputs outputs') :
    Decodes (if p then x else y) bs a outputs outputs' := by
  rwa [if_neg hp]

end Decodes

/-- The cipher that `dx_codec_read_symbol` finds for a penta. -/
def pentaCipher (penta : ℕ) : Int32 :=
  encodePenta penta (pentaLengthFrom penta 0)

/-- A penta without a cipher is a string. -/
def CodecOutputs.withPenta (outputs : CodecOutputs) (penta : ℕ) : CodecOutputs :=
  if pentaCipher penta = 0 then { outputs with result := some (pentaToString penta) } else outputs

theorem decodes_readPenta (penta : ℕ) (outputs : CodecOutputs) :
    Decodes (readPenta penta) [] (pentaCipher penta) outputs (outputs.withPenta penta) := by
  unfold readPenta CodecOutputs.withPenta
  rw [← pentaCipher]
  by_cases hcipher : pentaCipher penta = 0
  · simp only [if_pos hcipher]
    exact (decodes_output _).bind (decodes_pure _)
  · simp only [if_neg hcipher]
    exact decodes_pure _

/-- The bytes of a penta, by its first bits. -/
inductive PentaBytes : ℕ → List Int8 → Prop
  | zero : PentaBytes 0 [castByte 0xFE]
  | bits15 (b₁ b₀ : Int8) (hfirst : octet b₁ < 0x80) : PentaBytes (bytesValue [b₁, b₀]) [b₁, b₀]
  | bits30 (b₃ b₂ b₁ b₀ : Int8) (hlow : 0x80 ≤ octet b₃) (hhigh : octet b₃ < 0xC0) :
      PentaBytes (bytesValue [b₃, b₂, b₁, b₀] - 0x80 * 2 ^ 24) [b₃, b₂, b₁, b₀]
  | bits20 (b₂ b₁ b₀ : Int8) (hlow : 0xE0 ≤ octet b₂) (hhigh : octet b₂ < 0xF0) :
      PentaBytes (bytesValue [b₂, b₁, b₀] - 0xE0 * 2 ^ 16) [b₂, b₁, b₀]
  | bits35 (b₄ b₃ b₂ b₁ b₀ : Int8) (hlow : 0xF0 ≤ octet b₄) (hhigh : octet b₄ < 0xF8) :
      PentaBytes (bytesValue [b₄, b₃, b₂, b₁, b₀] - 0xF0 * 2 ^ 32) [b₄, b₃, b₂, b₁, b₀]

theorem toNat_unsignedByte (b : Int8) : (unsignedByte b).toNat = octet b :=
  word_unsignedByte b

theorem toNat_unsignedShort (b₁ b₀ : Int8) :
    (unsignedShort b₁ b₀).toNat = bytesValue [b₁, b₀] :=
  word_unsignedShort b₁ b₀

theorem unsignedByte_lt_iff (b : Int8) (c : UInt32) : unsignedByte b < c ↔ octet b < c.toNat := by
  rw [UInt32.lt_iff_toNat_lt, toNat_unsignedByte]

/-- The bits of a first byte behind a mask of ones. -/
theorem toNat_and_mask (b : Int8) (mask : UInt32) (k : ℕ) (hmask : mask.toNat = 2 ^ k - 1) :
    (unsignedByte b &&& mask).toNat = octet b % 2 ^ k := by
  rw [UInt32.toNat_and, toNat_unsignedByte, hmask, Nat.and_two_pow_sub_one_eq_mod]

theorem toNat_shiftLeft (x s : UInt32) (k : ℕ) (hs : s.toNat % 32 = k)
    (hx : x.toNat * 2 ^ k < 2 ^ 32) : (x <<< s).toNat = x.toNat * 2 ^ k := by
  rw [UInt32.toNat_shiftLeft, hs, Nat.shiftLeft_eq, Nat.mod_eq_of_lt hx]

theorem penta15_eq (b₁ b₀ : Int8) :
    ((unsignedByte b₁ <<< 8) + unsignedByte b₀).toNat = bytesValue [b₁, b₀] := by
  have h₁ := octet_lt b₁
  have h₀ := octet_lt b₀
  have hshift := toNat_shiftLeft (unsignedByte b₁) 8 8 rfl
    (by rw [toNat_unsignedByte]; omega)
  rw [UInt32.toNat_add, hshift, toNat_unsignedByte, toNat_unsignedByte, bytesValue_cons,
    bytesValue_singleton]
  norm_num
  omega

theorem penta30_eq (b₃ b₂ b₁ b₀ : Int8) (hlow : 0x80 ≤ octet b₃) (hhigh : octet b₃ < 0xC0) :
    (((unsignedByte b₃ &&& 0x3F) <<< 24) + (unsignedByte b₂ <<< 16) + unsignedShort b₁ b₀).toNat =
      bytesValue [b₃, b₂, b₁, b₀] - 0x80 * 2 ^ 24 := by
  have h₂ := octet_lt b₂
  have hand := toNat_and_mask b₃ 0x3F 6 rfl
  have hvalue := bytesValue_lt (show [b₁, b₀].length = 2 from rfl)
  have hshift₃ := toNat_shiftLeft (unsignedByte b₃ &&& 0x3F) 24 24 rfl (by rw [hand]; omega)
  have hshift₂ := toNat_shiftLeft (unsignedByte b₂) 16 16 rfl
    (by rw [toNat_unsignedByte]; omega)
  rw [UInt32.toNat_add, UInt32.toNat_add, hshift₃, hshift₂, hand, toNat_unsignedByte,
    toNat_unsignedShort, bytesValue_cons b₃, bytesValue_cons b₂]
  norm_num
  omega

theorem penta20_eq (b₂ b₁ b₀ : Int8) (hlow : 0xE0 ≤ octet b₂) (hhigh : octet b₂ < 0xF0) :
    (((unsignedByte b₂ &&& 0x0F) <<< 16) + unsignedShort b₁ b₀).toNat =
      bytesValue [b₂, b₁, b₀] - 0xE0 * 2 ^ 16 := by
  have hand := toNat_and_mask b₂ 0x0F 4 rfl
  have hvalue := bytesValue_lt (show [b₁, b₀].length = 2 from rfl)
  have hshift := toNat_shiftLeft (unsignedByte b₂ &&& 0x0F) 16 16 rfl (by rw [hand]; omega)
  rw [UInt32.toNat_add, hshift, hand, toNat_unsignedShort, bytesValue_cons b₂]
  norm_num
  omega

theorem penta35_eq (b₄ b₃ b₂ b₁ b₀ : Int8) (hlow : 0xF0 ≤ octet b₄) (hhigh : octet b₄ < 0xF8) :
    (unsignedByte b₄ &&& 0x07).toNat <<< 32 + word (intOf b₃ b₂ b₁ b₀) =
      bytesValue [b₄, b₃, b₂, b₁, b₀] - 0xF0 * 2 ^ 32 := by
  rw [toNat_and_mask b₄ 0x07 3 rfl, word_intOf, bytesValue_cons b₄, Nat.shiftLeft_eq]
  norm_num
  omega

/-- The reader recognizes a penta by its first bits. -/
theorem decodes_penta {penta : ℕ} {bs : List Int8} (h : PentaBytes penta bs)
    (bufferLength rounds eventFlagsBytes : ℕ) (outputs : CodecOutputs) :
    Decodes (readSymbolFrom bufferLength (rounds + 1) eventFlagsBytes) bs (pentaCipher penta)
      outputs (outputs.withPenta penta) := by
  unfold readSymbolFrom
  cases h with
  | zero =>
      refine Decodes.bind (decodes_input (reads_readUnsignedByte (castByte 0xFE))) ?_
      exact decodes_readPenta 0 outputs
  | bits15 b₁ b₀ hfirst =>
      refine Decodes.bind (decodes_input (reads_readUnsignedByte b₁)) ?_
      refine Decodes.ite_pos ((unsignedByte_lt_iff b₁ 0x80).mpr hfirst) ?_
      refine Decodes.bind (decodes_input (reads_readUnsignedByte b₀)) ?_
      rw [penta15_eq]
      exact decodes_readPenta _ outputs
  | bits30 b₃ b₂ b₁ b₀ hlow hhigh =>
      refine Decodes.bind (decodes_input (reads_readUnsignedByte b₃)) ?_
      refine Decodes.ite_neg (mt (unsignedByte_lt_iff b₃ 0x80).mp (not_lt.mpr hlow)) ?_
      refine Decodes.ite_pos ((unsignedByte_lt_iff b₃ 0xC0).mpr hhigh) ?_
      refine Decodes.bind (decodes_input (reads_readUnsignedByte b₂)) ?_
      refine Decodes.bind (decodes_input (reads_readUnsignedShort b₁ b₀)) ?_
      rw [penta30_eq b₃ b₂ b₁ b₀ hlow hhigh]
      exact decodes_readPenta _ outputs
  | bits20 b₂ b₁ b₀ hlow hhigh =>
      have hbound : ∀ c : UInt32, c.toNat ≤ 0xE0 → ¬ unsignedByte b₂ < c := by
        intro c hc
        rw [unsignedByte_lt_iff]
        omega
      refine Decodes.bind (decodes_input (reads_readUnsignedByte b₂)) ?_
      refine Decodes.ite_neg (hbound 0x80 (by decide)) ?_
      refine Decodes.ite_neg (hbound 0xC0 (by decide)) ?_
      refine Decodes.ite_neg (hbound 0xE0 (by decide)) ?_
      refine Decodes.ite_pos ((unsignedByte_lt_iff b₂ 0xF0).mpr hhigh) ?_
      refine Decodes.bind (decodes_input (reads_readUnsignedShort b₁ b₀)) ?_
      rw [penta20_eq b₂ b₁ b₀ hlow hhigh]
      exact decodes_readPenta _ outputs
  | bits35 b₄ b₃ b₂ b₁ b₀ hlow hhigh =>
      have hbound : ∀ c : UInt32, c.toNat ≤ 0xF0 → ¬ unsignedByte b₄ < c := by
        intro c hc
        rw [unsignedByte_lt_iff]
        omega
      refine Decodes.bind (decodes_input (reads_readUnsignedByte b₄)) ?_
      refine Decodes.ite_neg (hbound 0x80 (by decide)) ?_
      refine Decodes.ite_neg (hbound 0xC0 (by decide)) ?_
      refine Decodes.ite_neg (hbound 0xE0 (by decide)) ?_
      refine Decodes.ite_neg (hbound 0xF0 (by decide)) ?_
      refine Decodes.ite_pos ((unsignedByte_lt_iff b₄ 0xF8).mpr hhigh) ?_
      refine Decodes.bind (decodes_input (reads_readInt b₃ b₂ b₁ b₀)) ?_
      rw [penta35_eq b₄ b₃ b₂ b₁ b₀ hlow hhigh]
      exact decodes_readPenta _ outputs

/-! ### The bytes of a cipher -/

theorem bytesValue_intBytes (value : Int32) : bytesValue (intBytes value) = word value := by
  rw [bytesValue, octets_intBytes, PrefixCode.beValue_beOctets]
  exact Nat.mod_eq_of_lt (word_lt value)

/-- Truncation of a short number to a byte. -/
theorem octet_of_short (value : Int16) : (octet value.toInt8 : ℤ) = value.toInt % 2 ^ 8 := by
  rw [octet_eq, Int16.toInt_toInt8]
  exact Int.bmod_emod

theorem octet_of_short_high (value : Int16) :
    (octet (value >>> 8).toInt8 : ℤ) = value.toInt / 2 ^ 8 % 2 ^ 8 := by
  have hshift : (value >>> 8).toInt = value.toInt / 2 ^ 8 := by
    rw [← Int16.toInt_toBitVec, Int16.toBitVec_shiftRight]
    show (value.toBitVec.sshiftRight ((8 : Int16).toBitVec.smod 16).toNat).toInt = _
    rw [show ((8 : Int16).toBitVec.smod 16).toNat = 8 from rfl, BitVec.toInt_sshiftRight,
      Int.shiftRight_eq_div_pow, Int16.toInt_toBitVec]
    norm_cast
  rw [octet_of_short, hshift]

/-- The number of the two bytes that `dx_write_short` writes. -/
theorem bytesValue_short (x : ℕ) :
    bytesValue [(Int16.ofNat x >>> 8).toInt8, (Int16.ofNat x).toInt8] = x % 2 ^ 16 := by
  have hlow := octet_of_short (Int16.ofNat x)
  have hhigh := octet_of_short_high (Int16.ofNat x)
  rw [Int16.toInt_ofNat', Int.bmod_def] at hlow hhigh
  rw [bytesValue_cons, bytesValue_singleton]
  norm_num at hlow hhigh ⊢
  omega

/-- A mask on the first byte of a penta. -/
theorem octet_mask {m i x : ℕ} (hm : m % 2 ^ i = 0) (hx : x < 2 ^ i) (hlt : m + x < 256) :
    octet (castByte (m ||| x)) = m + x := by
  rw [or_eq_add hm hx, octet_castByte hlt]

/-- A first byte and the number of the bytes behind it. -/
theorem octet_eq_div {b : Int8} {bs : List Int8} {x : ℕ} (h : bytesValue (b :: bs) = x) :
    octet b = x / 256 ^ bs.length := by
  have hlow : bytesValue bs < 256 ^ bs.length := bytesValue_lt rfl
  rw [← h, bytesValue_cons, mul_comm, Nat.mul_add_div (by positivity), Nat.div_eq_of_lt hlow,
    Nat.add_zero]

theorem pentaBytes_short {penta : ℕ} (h : penta < 2 ^ 15) :
    PentaBytes penta [(Int16.ofNat penta >>> 8).toInt8, (Int16.ofNat penta).toInt8] := by
  have hvalue := bytesValue_short penta
  rw [Nat.mod_eq_of_lt (by omega)] at hvalue
  have hfirst := octet_eq_div hvalue
  have hform := PentaBytes.bits15 (Int16.ofNat penta >>> 8).toInt8 (Int16.ofNat penta).toInt8
  rw [hvalue] at hform
  refine hform ?_
  rw [hfirst]
  norm_num
  omega

theorem pentaBytes_byte_short {penta : ℕ} (h : penta < 2 ^ 20) :
    PentaBytes penta (castByte (0xE0 ||| penta >>> 16) ::
      [(Int16.ofNat penta >>> 8).toInt8, (Int16.ofNat penta).toInt8]) := by
  have hhigh : penta >>> 16 < 2 ^ 4 := by
    rw [Nat.shiftRight_eq_div_pow]
    omega
  have hfirst := octet_mask (m := 0xE0) (i := 4) rfl hhigh (by omega)
  have hform := PentaBytes.bits20 (castByte (0xE0 ||| penta >>> 16))
    (Int16.ofNat penta >>> 8).toInt8 (Int16.ofNat penta).toInt8 (by omega) (by omega)
  have hvalue : bytesValue (castByte (0xE0 ||| penta >>> 16) ::
      [(Int16.ofNat penta >>> 8).toInt8, (Int16.ofNat penta).toInt8]) - 0xE0 * 2 ^ 16 = penta := by
    rw [bytesValue_cons, hfirst, bytesValue_short, Nat.shiftRight_eq_div_pow]
    norm_num
    omega
  rwa [hvalue] at hform

theorem pentaBytes_int {penta : ℕ} (h : penta < 2 ^ 30) :
    PentaBytes penta (intBytes ((0x80000000 : Int32) ||| Int32.ofNat penta)) := by
  set value := (0x80000000 : Int32) ||| Int32.ofNat penta
  have hword : word value = 2 ^ 31 + penta := by
    have hpenta : word (Int32.ofNat penta) = penta := by
      rw [word_ofNat]
      omega
    have hmask := word_or_mask 0x80000000 (Int32.ofNat penta) (2 ^ 31) 31 rfl (by norm_num)
      (by omega)
    rwa [hpenta] at hmask
  have hvalue := bytesValue_intBytes value
  have hfirst := octet_eq_div hvalue
  have hform := PentaBytes.bits30 (toByte (value >>> 24)) (toByte (value >>> 16))
    (toByte (value >>> 8)) (toByte value)
  rw [hfirst, show bytesValue [toByte (value >>> 24), toByte (value >>> 16),
    toByte (value >>> 8), toByte value] = 2 ^ 31 + penta from hvalue.trans hword, hword] at hform
  norm_num at hform
  exact hform (by omega) (by omega)

theorem pentaBytes_byte_int {penta : ℕ} (h : penta < 2 ^ 35) :
    PentaBytes penta (castByte (0xF0 ||| penta >>> 32) :: intBytes (Int32.ofNat penta)) := by
  have hhigh : penta >>> 32 < 2 ^ 3 := by
    rw [Nat.shiftRight_eq_div_pow]
    omega
  have hfirst := octet_mask (m := 0xF0) (i := 3) rfl hhigh (by omega)
  set value := Int32.ofNat penta
  have hform := PentaBytes.bits35 (castByte (0xF0 ||| penta >>> 32)) (toByte (value >>> 24))
    (toByte (value >>> 16)) (toByte (value >>> 8)) (toByte value) (by omega) (by omega)
  have hvalue : bytesValue (castByte (0xF0 ||| penta >>> 32) :: intBytes value) -
      0xF0 * 2 ^ 32 = penta := by
    rw [bytesValue_cons, hfirst, bytesValue_intBytes, Nat.shiftRight_eq_div_pow, word_ofNat]
    norm_num [intBytes]
    omega
  have hbytes : bytesValue [castByte (0xF0 ||| penta >>> 32), toByte (value >>> 24),
      toByte (value >>> 16), toByte (value >>> 8), toByte value] - 0xF0 * 2 ^ 32 = penta := hvalue
  rwa [hbytes] at hform

/-- The writer chooses a form by the size of the penta. -/
theorem exists_pentaBytes {cipher : Int32} {penta : ℕ} (h : decodeCipher cipher = some penta)
    (symbol : Option WString) :
    ∃ bs, Puts (codecWriteSymbol cipher symbol) bs ∧ PentaBytes penta bs ∧ bs.length ≤ 5 := by
  have hcipher : cipher ≠ 0 := by
    rintro rfl
    exact nomatch h
  have hpenta := decodeCipher_lt h
  simp only [codecWriteSymbol, if_pos hcipher, h]
  split_ifs with hzero h15 h20 h30
  · subst hzero
    exact ⟨_, puts_writeByte _, PentaBytes.zero, by simp⟩
  · exact ⟨_, puts_writeShort _, pentaBytes_short h15, by simp⟩
  · exact ⟨_, (puts_writeByte _).bind (puts_writeShort _), pentaBytes_byte_short h20, by simp⟩
  · exact ⟨_, puts_writeInt _, pentaBytes_int h30, by simp [intBytes]⟩
  · exact ⟨_, (puts_writeByte _).bind (puts_writeInt _), pentaBytes_byte_int hpenta,
      by simp [intBytes]⟩
  · exact absurd hpenta (by omega)

/-! ### The round trip -/

/-- Without a tag no bit of the mask is set. -/
theorem and_codecValidCipher {cipher : Int32} (h : word cipher / 2 ^ 30 = 0) :
    cipher &&& codecValidCipher = 0 := by
  have hand : word (cipher &&& codecValidCipher) = word cipher &&& 3 * 2 ^ 30 := rfl
  have hhigh : (word cipher &&& 3 * 2 ^ 30) / 2 ^ 30 = 0 := by
    rw [Nat.and_div_two_pow, h, Nat.zero_and]
  have hlow : (word cipher &&& 3 * 2 ^ 30) % 2 ^ 30 = 0 := by
    rw [Nat.and_mod_two_pow, show 3 * 2 ^ 30 % 2 ^ 30 = 0 from rfl, Nat.and_zero]
  have hzero : word (cipher &&& codecValidCipher) = word 0 := by
    rw [hand, show word 0 = 0 from rfl]
    omega
  exact word_inj.mp hzero

/-- A cipher with a tag has a penta. -/
theorem exists_penta {cipher : Int32} (h : cipher &&& codecValidCipher ≠ 0) :
    ∃ penta, decodeCipher cipher = some penta := by
  have hlt := word_lt cipher
  have htag : word cipher / 2 ^ 30 ≠ 0 := mt and_codecValidCipher h
  have hcases : word cipher / 2 ^ 30 = 1 ∨ word cipher / 2 ^ 30 = 2 ∨ word cipher / 2 ^ 30 = 3 := by
    omega
  unfold decodeCipher
  rw [toNat_tag]
  rcases hcases with h' | h' | h' <;> rw [h'] <;> exact ⟨_, rfl⟩

/-- The cipher is written; from any input buffer that holds the written bytes between `pre` and
`post`, with the position on them, it is read back, and these bytes are consumed. -/
def SymbolRoundTrip (cipher : Int32) (symbol : Option WString) (bufferLength : ℕ)
    (out : OutputContext) (outputs : CodecOutputs) (pre post : List Int8) (limit : ℕ) : Prop :=
  ∃ out', exec (codecWriteSymbol cipher symbol) out = (.ok (), out') ∧
    exec (codecReadSymbol bufferLength)
        ⟨inputAt pre (out'.writtenFrom out.currentOutBufferPosition ++ post) limit, outputs⟩ =
      (.ok cipher, ⟨inputAt (pre ++ out'.writtenFrom out.currentOutBufferPosition) post limit,
        { outputs with flags := 0 }⟩)

/-- A cipher can be written where the buffer can grow. -/
theorem returns_codecWriteSymbol {cipher : Int32} (symbol : Option WString) {out : OutputContext}
    (htag : cipher &&& codecValidCipher ≠ 0) (hrange : out.InRange 5)
    (hgrow : 2 * (out.currentOutBufferPosition + 5) + 4 ≤ INT_MAX) :
    Returns (codecWriteSymbol cipher symbol) out := by
  obtain ⟨penta, hpenta⟩ := exists_penta htag
  obtain ⟨bs, hputs, -, hlength⟩ := exists_pentaBytes hpenta symbol
  obtain ⟨before, room, rfl⟩ := hrange.eq_outputAt
  rw [currentOutBufferPosition_outputAt] at hgrow
  exact hputs.returns before room (by omega) (by simpa using hrange.length_le)

/-- Every cipher of a penta comes back. -/
theorem symbolRoundTrip (cipher : Int32) (symbol : Option WString) (bufferLength : ℕ)
    (out : OutputContext) (outputs : CodecOutputs) (pre post : List Int8) (limit : ℕ)
    (htag : cipher &&& codecValidCipher ≠ 0) (hrange : out.InRange 5)
    (hwrite : Returns (codecWriteSymbol cipher symbol) out)
    (hlen : pre.length + 5 + post.length ≤ INT_MAX) :
    SymbolRoundTrip cipher symbol bufferLength out outputs pre post limit := by
  obtain ⟨penta, hpenta⟩ := exists_penta htag
  obtain ⟨bs, hputs, hform, hlength⟩ := exists_pentaBytes hpenta symbol
  obtain ⟨out', hexec, hbytes⟩ := hputs.written hlength hrange hwrite
  have hcipher : pentaCipher penta = cipher := encodePenta_decodeCipher hpenta
  have hne : cipher ≠ 0 := by
    rintro rfl
    exact nomatch hpenta
  have hread : Decodes (codecReadSymbol bufferLength) ([] ++ bs) (pentaCipher penta) outputs
      (CodecOutputs.withPenta { outputs with flags := 0 } penta) :=
    (decodes_output _).bind (decodes_penta hform bufferLength 1 0 _)
  rw [CodecOutputs.withPenta, hcipher, if_neg hne] at hread
  refine ⟨out', hexec, ?_⟩
  rw [hbytes]
  exact hread pre post limit (by simp only [List.length_append, List.nil_append]; omega)

/-- The cipher of `IBM`, which takes 16 bits. -/
theorem symbolRoundTrip_IBM :
    SymbolRoundTrip 0x4000244D none 64 (outputAt [1, 2] (List.replicate 8 0))
      ⟨[], none, 3, 5⟩ [7] [9] 5 := by
  have htag : (0x4000244D : Int32) &&& codecValidCipher ≠ 0 := by decide
  have hrange : (outputAt [1, 2] (List.replicate 8 0)).InRange 5 :=
    ⟨rfl, by decide, by decide, by decide⟩
  exact symbolRoundTrip 0x4000244D none 64 (outputAt [1, 2] (List.replicate 8 0)) ⟨[], none, 3, 5⟩
    [7] [9] 5 htag hrange (returns_codecWriteSymbol none htag hrange (by decide)) (by decide)

end DxFeed.SymbolCodec
