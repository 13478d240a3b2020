import DxFeed.SymbolCodec.Wire

/-!
# Encodings of symbols

* `SymbolEncoding`, `SymbolBytes`: pentas, CESU-8 strings and void;
* `FlagBytes`: the event flags in front of a symbol;
* `decodes_symbol`: what `dx_codec_read_symbol` makes of flags and a symbol.
-/

namespace DxFeed.SymbolCodec

open Call BufferedIO FixedWidth

/-! ### Characters -/

/-- The bytes of the characters of a string. -/
inductive CharacterBytes : WString → List Int8 → Prop
  | nil : CharacterBytes [] []
  | cons {c : UInt16} {symbol : WString} {bs cs : List Int8} (hreads : Reads readUtfChar bs c.toNat)
      (hrest : CharacterBytes symbol cs) : CharacterBytes (c :: symbol) (bs ++ cs)

theorem reads_readCharacters {symbol : WString} {bs : List Int8} (h : CharacterBytes symbol bs) :
    Reads (readCharacters symbol.length) bs symbol := by
  induction h with
  | nil => exact reads_pure _
  | @cons c symbol bs cs hreads _ ih =>
      have hunit : ¬ c.toNat > 0xFFFF := not_lt.mpr (Nat.le_of_lt_succ c.toNat_lt)
      refine hreads.bind ?_
      rw [if_neg hunit, UInt16.ofNat_toNat]
      exact ih.bind_eq_pure rfl

/-- The reader takes back the bytes of a code unit. -/
theorem reads_utfBytes (c : UInt16) : Reads readUtfChar (utfBytes c.toNat) c.toNat := by
  have hc : c.toNat < 2 ^ 16 := c.toNat_lt
  unfold readUtfChar
  rcases Nat.lt_or_ge 0x7FF c.toNat with hlow | hhigh
  · -- Three bytes, also for a single surrogate.
    obtain ⟨hneg, htwo, hthree⟩ := lead_three (x := c.toNat / 2 ^ 12) (by omega)
    rw [utfBytes, Utf8.octets_three hlow (by omega)]
    refine (reads_readByte (castByte (0xE0 + c.toNat / 2 ^ 12))).bind ?_
    rw [if_neg hneg, if_neg htwo, if_pos hthree]
    refine (reads_readUtf3 (Nat.le_of_lt_succ hc)).bind_eq_pure ?_
    rw [UInt16.ofNat_toNat]
  rcases Nat.lt_or_ge 0x7F c.toNat with hlow | hone
  · -- Two bytes.
    obtain ⟨hneg, htwo⟩ := lead_two (x := c.toNat / 2 ^ 6) (by omega)
    rw [utfBytes, Utf8.octets_two hlow hhigh]
    refine (reads_readByte (castByte (0xC0 + c.toNat / 2 ^ 6))).bind ?_
    rw [if_neg hneg, if_pos htwo]
    refine (reads_readUtf2 hhigh).bind_eq_pure ?_
    rw [UInt16.ofNat_toNat]
  · -- One byte.
    have hoctet : octet (castByte c.toNat) = c.toNat := octet_castByte (by omega)
    have hnonneg : 0 ≤ castByte c.toNat := by
      rw [nonneg_iff_octet, hoctet]
      omega
    rw [utfBytes, Utf8.octets_one hone]
    refine (reads_readByte (castByte c.toNat)).bind_eq_pure ?_
    rw [if_pos hnonneg, hoctet]

theorem characterBytes_utfBytes (symbol : WString) :
    CharacterBytes symbol (symbol.flatMap fun c => utfBytes c.toNat) := by
  induction symbol with
  | nil => exact CharacterBytes.nil
  | cons c symbol ih => exact CharacterBytes.cons (reads_utfBytes c) ih

/-! ### Ciphers that are read -/

theorem lt_pentaLengthFrom (penta len : ℕ) : penta < 2 ^ pentaLengthFrom penta len := by
  fun_induction pentaLengthFrom penta len with
  | case1 len _ ih => exact ih
  | case2 len hzero =>
      rw [Nat.shiftRight_eq_div_pow, not_not] at hzero
      exact (Nat.div_eq_zero_iff_lt (by positivity)).mp hzero

theorem decodeCipher_pentaCipher {penta : ℕ} (h : pentaCipher penta ≠ 0) :
    decodeCipher (pentaCipher penta) = some penta :=
  decodeCipher_encodePenta (lt_pentaLengthFrom penta 0) h

/-- A cipher of a penta has a tag. -/
theorem tag_of_decodeCipher {cipher : Int32} {penta : ℕ} (h : decodeCipher cipher = some penta) :
    cipher &&& codecValidCipher ≠ 0 := by
  intro hzero
  have hand : word cipher &&& 3 * 2 ^ 30 = 0 := congrArg word hzero
  have hkind : word cipher / 2 ^ 30 &&& 3 = 0 := by
    have hdiv := Nat.and_div_two_pow (a := word cipher) (b := 3 * 2 ^ 30) (n := 30)
    rw [hand] at hdiv
    simpa using hdiv.symm
  obtain ⟨hone, -⟩ | ⟨high, rfl | rfl, hhigh, -⟩ := decodeCipher_cases h
  · rw [hone] at hkind
    exact nomatch hkind
  · rw [hhigh] at hkind
    exact nomatch hkind
  · rw [hhigh] at hkind
    exact nomatch hkind

/-! ### Symbols -/

/-- An encoding of a symbol; void stands for the symbol before it. -/
inductive SymbolEncoding
  | penta (value : ℕ)
  | string (symbol : WString)
  | void
  deriving DecidableEq, Repr

/-- The bytes of an encoding.  The first byte of a penta has its first bits, a string starts with
its length. -/
inductive SymbolBytes : SymbolEncoding → List Int8 → Prop
  | penta {penta : ℕ} {bs : List Int8} (hform : PentaBytes penta bs) :
      SymbolBytes (.penta penta) bs
  | string {symbol : WString} {bs cs : List Int8} {length : Int64}
      (hlength : Reads readCompactLong bs length) (hvalue : length.toInt = symbol.length)
      (hfits : symbol.length ≤ INT_MAX) (hcharacters : CharacterBytes symbol cs) :
      SymbolBytes (.string symbol) (castByte 0xFD :: (bs ++ cs))
  | void : SymbolBytes .void [castByte 0xFF]

theorem SymbolBytes.length_pos {encoding : SymbolEncoding} {bs : List Int8}
    (h : SymbolBytes encoding bs) : 0 < bs.length := by
  cases h with
  | penta hform => cases hform <;> exact Nat.succ_pos _
  | string => exact Nat.succ_pos _
  | void => exact Nat.succ_pos _

/-- The cipher and the outputs of `dx_codec_read_symbol` for an encoding. -/
def SymbolEncoding.outcome (bufferLength : ℕ) (outputs : CodecOutputs) :
    SymbolEncoding → Int32 × CodecOutputs
  | .penta value => (pentaCipher value, outputs.withPenta value)
  | .string symbol =>
      if symbol = [] then (0, { outputs with result := some [] })
      else if symbol.length ≤ bufferLength then
        (Int32.ofNat symbol.length, { outputs with buffer := symbol })
      else (0, { outputs with result := some (createStringSrcLen symbol symbol.length) })
  | .void => (0, { outputs with result := none })

/-- A small length has no tag of a cipher. -/
theorem ofNat_and_codecValidCipher {n : ℕ} (h : n < 2 ^ 30) :
    Int32.ofNat n &&& codecValidCipher = 0 := by
  have hword : word (Int32.ofNat n) = n := by
    rw [word_ofNat]
    omega
  refine and_codecValidCipher ?_
  rw [hword]
  exact Nat.div_eq_of_lt h

theorem toInt32_eq_ofNat {length : Int64} {n : ℕ} (h : length.toInt = n) :
    length.toInt32 = Int32.ofNat n := by
  rw [← Int32.toInt_inj, Int64.toInt_toInt32, h, Int32.toInt_ofNat']

theorem decodes_readCesu8 {symbol : WString} {bs cs : List Int8} {length : Int64}
    {bufferLength : ℕ} (hsmall : bufferLength < 2 ^ 30)
    (hlength : Reads readCompactLong bs length) (hvalue : length.toInt = symbol.length)
    (hfits : symbol.length ≤ INT_MAX) (hcharacters : CharacterBytes symbol cs)
    (outputs : CodecOutputs) :
    Decodes (readCesu8 bufferLength) (bs ++ cs)
      ((SymbolEncoding.string symbol).outcome bufferLength outputs).1 outputs
      ((SymbolEncoding.string symbol).outcome bufferLength outputs).2 := by
  have hrange : ¬ (length < 0 ∨ length.toInt > INT_MAX) := by
    rw [Int64.lt_iff_toInt_lt, hvalue]
    have hzero : (0 : Int64).toInt = 0 := rfl
    omega
  refine Decodes.bind (decodes_input hlength) ?_
  refine Decodes.ite_neg hrange ?_
  unfold SymbolEncoding.outcome
  by_cases hnil : symbol = []
  · subst hnil
    cases hcharacters
    have hzero : length = 0 := Int64.toInt_inj.mp hvalue
    simp only [if_pos]
    refine Decodes.ite_pos hzero ?_
    exact (decodes_output _).bind (decodes_pure _)
  have hzero : ¬ length = 0 := by
    rintro rfl
    have hcast : (symbol.length : ℤ) = 0 := hvalue.symm
    exact hnil (List.length_eq_zero_iff.mp (by omega))
  have hread := reads_readCharacters hcharacters
  have hcount : length.toInt.toNat = symbol.length := by omega
  rw [← hcount] at hread
  simp only [if_neg hnil]
  refine Decodes.ite_neg hzero ?_
  rw [← List.append_nil cs]
  refine Decodes.bind (decodes_input hread) ?_
  by_cases hshort : symbol.length ≤ bufferLength
  · have htag : length.toInt32 &&& codecValidCipher = 0 := by
      rw [toInt32_eq_ofNat hvalue]
      exact ofNat_and_codecValidCipher (by omega)
    simp only [if_pos hshort]
    refine Decodes.ite_pos ⟨by omega, htag⟩ ?_
    rw [← toInt32_eq_ofNat hvalue]
    exact (decodes_output _).bind (decodes_pure _)
  · simp only [if_neg hshort]
    refine Decodes.ite_neg (by omega) ?_
    rw [← hcount]
    exact (decodes_output _).bind (decodes_pure _)

/-- The reader tells the encodings apart by their first bytes. -/
theorem decodes_symbol {encoding : SymbolEncoding} {bs : List Int8} {bufferLength : ℕ}
    (h : SymbolBytes encoding bs) (hsmall : bufferLength < 2 ^ 30) (rounds eventFlagsBytes : ℕ)
    (outputs : CodecOutputs) :
    Decodes (readSymbolFrom bufferLength (rounds + 1) eventFlagsBytes) bs
      (encoding.outcome bufferLength outputs).1 outputs
      (encoding.outcome bufferLength outputs).2 := by
  cases h with
  | penta hform => exact decodes_penta hform bufferLength rounds eventFlagsBytes outputs
  | string hlength hvalue hfits hcharacters =>
      unfold readSymbolFrom
      refine Decodes.bind (decodes_input (reads_readUnsignedByte (castByte 0xFD))) ?_
      exact decodes_readCesu8 hsmall hlength hvalue hfits hcharacters outputs
  | void =>
      unfold readSymbolFrom
      refine Decodes.bind (decodes_input (reads_readUnsignedByte (castByte 0xFF))) ?_
      exact (decodes_output _).bind (decodes_pure _)

/-! ### Event flags -/

/-- The bytes in front of a symbol, the event flags that they stand for where the most recent
ones are `mru`, and the most recent ones behind them. -/
inductive FlagBytes (mru : UInt32) : List Int8 → UInt32 → UInt32 → Prop
  | none : FlagBytes mru [] 0 mru
  | recent : FlagBytes mru [castByte 0xF8] mru mru
  | new {bs : List Int8} {flags : Int32} (hreads : Reads readCompactInt bs flags) :
      FlagBytes mru (castByte 0xF9 :: bs) flags.toUInt32 flags.toUInt32

theorem decodes_get_bind {α : Type} {f : CodecContext → CodecCall α} {bs : List Int8} {a : α}
    {outputs outputs' : CodecOutputs} (h : ∀ context, Decodes (f context) bs a outputs outputs') :
    Decodes (get >>= f) bs a outputs outputs' := by
  intro pre post limit hlen
  rw [exec_bind_ok (exec_get _)]
  exact h _ pre post limit hlen

/-- What `dx_codec_read_symbol` makes of event flags and a symbol. -/
theorem decodes_codecReadSymbol {encoding : SymbolEncoding} {bs cs : List Int8}
    {bufferLength : ℕ} {flags mru : UInt32} {outputs : CodecOutputs}
    (hflags : FlagBytes outputs.mruEventFlags bs flags mru) (hsymbol : SymbolBytes encoding cs)
    (hsmall : bufferLength < 2 ^ 30) :
    Decodes (codecReadSymbol bufferLength) (bs ++ cs)
      (encoding.outcome bufferLength { outputs with flags := flags, mruEventFlags := mru }).1
      outputs
      (encoding.outcome bufferLength { outputs with flags := flags, mruEventFlags := mru }).2 := by
  have hbytes : Decodes (readSymbolFrom bufferLength 2 0) (bs ++ cs)
      (encoding.outcome bufferLength { outputs with flags := flags, mruEventFlags := mru }).1
      { outputs with flags := 0 }
      (encoding.outcome bufferLength { outputs with flags := flags, mruEventFlags := mru }).2 := by
    cases hflags with
    | none => exact decodes_symbol hsymbol hsmall 1 0 _
    | recent =>
        unfold readSymbolFrom
        refine Decodes.bind (decodes_input (reads_readUnsignedByte (castByte 0xF8))) ?_
        exact (decodes_output _).bind (decodes_symbol hsymbol hsmall 0 1 _)
    | @new bs flags hreads =>
        have hfirst : Decodes (input readUnsignedByte) [castByte 0xF9]
            (unsignedByte (castByte 0xF9)) { outputs with flags := 0 } { outputs with flags := 0 } :=
          decodes_input (reads_readUnsignedByte _)
        rw [List.cons_append, ← List.singleton_append]
        unfold readSymbolFrom
        refine hfirst.bind (decodes_get_bind fun start => ?_)
        refine (decodes_input hreads).bind ?_
        rw [← List.nil_append cs]
        refine (decodes_output _).bind ?_
        exact decodes_get_bind fun context => decodes_symbol hsymbol hsmall 0 _ _
  exact (decodes_output _).bind hbytes

/-! ### Strings that are returned -/

/-- The call sets the string only if it succeeds without a cipher. -/
def ReturnsString (x : CodecCall Int32) : Prop :=
  ∀ context, (exec x context).2.outputs.result = context.outputs.result ∨
    (exec x context).1 = .ok 0

section ReturnsString

variable {α : Type} {x y : CodecCall Int32}

theorem returnsString_throw (e : ErrorCode) : ReturnsString (throw e) := fun _ => Or.inl rfl

theorem returnsString_output (f : CodecOutputs → CodecOutputs) :
    ReturnsString (do output f; return 0) := fun _ => Or.inr rfl

theorem ReturnsString.bind {x : CodecCall α} {f : α → CodecCall Int32}
    (hx : Keeps (fun context => context.outputs.result) x) (hf : ∀ a, ReturnsString (f a)) :
    ReturnsString (x >>= f) := by
  intro context
  have hkeeps : (exec x context).2.outputs.result = context.outputs.result := hx context
  rcases hexec : exec x context with ⟨e | a, context'⟩
  · rw [exec_bind_error hexec]
    rw [hexec] at hkeeps
    exact Or.inl hkeeps
  · rw [exec_bind_ok hexec]
    rw [hexec] at hkeeps
    rw [← hkeeps]
    exact hf a context'

theorem ReturnsString.ite {p : Prop} [Decidable p] (hx : ReturnsString x) (hy : ReturnsString y) :
    ReturnsString (if p then x else y) := by
  split_ifs
  · exact hx
  · exact hy

theorem keeps_input (x : ReadCall α) : Keeps (fun context => context.outputs.result) (input x) :=
  fun _ => rfl

theorem returnsString_readPenta (penta : ℕ) : ReturnsString (readPenta penta) := by
  unfold readPenta
  intro context
  by_cases hcipher : encodePenta penta (pentaLengthFrom penta 0) = 0
  · simp only [if_pos hcipher]
    exact Or.inr (congrArg Except.ok hcipher)
  · simp only [if_neg hcipher]
    exact Or.inl rfl

theorem returnsString_readCesu8 (bufferLength : ℕ) : ReturnsString (readCesu8 bufferLength) := by
  refine ReturnsString.bind (keeps_input _) fun length => ?_
  refine ReturnsString.ite (returnsString_throw _) (ReturnsString.ite (returnsString_output _) ?_)
  refine ReturnsString.bind (keeps_input _) fun symbol => ReturnsString.ite ?_ ?_
  · exact fun _ => Or.inl rfl
  · exact returnsString_output _

theorem returnsString_readSymbolFrom (bufferLength rounds eventFlagsBytes : ℕ) :
    ReturnsString (readSymbolFrom bufferLength rounds eventFlagsBytes) := by
  induction rounds generalizing eventFlagsBytes with
  | zero => exact returnsString_throw _
  | succ rounds ih =>
      refine ReturnsString.bind (keeps_input _) fun i => ?_
      refine ReturnsString.ite ?_ (ReturnsString.ite ?_ (ReturnsString.ite
        (returnsString_throw _) (ReturnsString.ite ?_ (ReturnsString.ite ?_ (ReturnsString.ite
        (ReturnsString.ite (returnsString_throw _) ?_) (ReturnsString.ite
        (ReturnsString.ite (returnsString_throw _) ?_) (ReturnsString.ite
        (returnsString_throw _) (ReturnsString.ite ?_ (ReturnsString.ite
        (returnsString_readCesu8 _) (ReturnsString.ite
        (returnsString_readPenta _) (returnsString_output _)))))))))))
      · exact ReturnsString.bind (keeps_input _) fun _ => returnsString_readPenta _
      · exact ReturnsString.bind (keeps_input _) fun _ =>
          ReturnsString.bind (keeps_input _) fun _ => returnsString_readPenta _
      · exact ReturnsString.bind (keeps_input _) fun _ => returnsString_readPenta _
      · exact ReturnsString.bind (keeps_input _) fun _ => returnsString_readPenta _
      · exact ReturnsString.bind (fun _ => rfl) fun _ => ih 1
      · refine ReturnsString.bind (fun _ => rfl) fun start => ?_
        refine ReturnsString.bind (keeps_input _) fun flags => ?_
        exact ReturnsString.bind (fun _ => rfl) fun _ => ReturnsString.bind (fun _ => rfl)
          fun context => ih _
      · exact ReturnsString.bind (keeps_input _) fun _ => returnsString_output _

end ReturnsString

/-- `dx_codec_read_symbol` leaves a string behind only if it succeeds without a cipher. -/
theorem returnsString_codecReadSymbol (bufferLength : ℕ) :
    ReturnsString (codecReadSymbol bufferLength) :=
  ReturnsString.bind (fun _ => rfl) fun _ => returnsString_readSymbolFrom bufferLength 2 0

end DxFeed.SymbolCodec
