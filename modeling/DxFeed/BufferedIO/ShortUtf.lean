import DxFeed.BufferedIO.UtfString
import DxFeed.BufferedIO.Words

/-!
# Short strings

The length of a short string takes two bytes, and the writer counts it in a `short`.

* `writeUtf` of `BufferedOutput.c` and `readUtf` of `BufferedInput.c`;
* `ShortUtf`: a string whose body has at most 65535 bytes is written behind its length and read
  back, and for every other one nothing is written;
* `shortUtf_iff`: this is so for the strings with at most 65535 bytes, and for those whose wrapped
  length is less than the number of their units.
-/

namespace DxFeed.BufferedIO

open Call FixedWidth PrefixCode

/-- The first loop of `dx_write_utf` behind units of `utflen` bytes; the sum is a `short`. -/
def countUtf (utflen : Int16) : WString → Int16
  | [] => utflen
  | c :: value =>
      countUtf (utflen + if 0 < c ∧ c ≤ 0x7F then 1 else if c ≤ 0x7FF then 2 else 3) value

/-- The second loop of `dx_write_utf`. -/
def writeUtfUnits : WString → WriteCall Unit
  | [] => pure ()
  | c :: value => do
      reserve 3
      if 0 < c ∧ c ≤ 0x7F then putByte (castByte c.toNat)
      else if c ≤ 0x7FF then writeUtf2Unchecked c.toNat
      else writeUtf3Unchecked c.toNat
      writeUtfUnits value

/-- `dx_write_utf`.  The `short` is compared with the number of units as a `size_t`. -/
def writeUtf (value : WString) : WriteCall Unit := do
  let utflen := countUtf 0 value
  if utflen.toInt64.toUInt64.toNat < value.length ∨ utflen.toInt > 65535 then
    throw .badUtfDataFormat
  else
    writeShort utflen
    writeUtfUnits value

/-- `dx_read_utf`. -/
def readUtf : ReadCall WString := do
  let utflen ← readUnsignedShort
  readUtfSequence utflen.toInt32.toInt false

/-! ### The length of the body -/

/-- The bytes of a string, unit by unit. -/
def utfBody (value : WString) : List Int8 := value.flatMap fun c => utfBytes c.toNat

@[simp] theorem utfBody_nil : utfBody [] = [] := rfl

@[simp] theorem utfBody_cons (c : UInt16) (value : WString) :
    utfBody (c :: value) = utfBytes c.toNat ++ utfBody value := rfl

/-- The two forms of the test for one byte differ at the unit 0 only. -/
theorem one_byte_iff {c : UInt16} (h : c ≠ 0) : 0 < c ∧ c ≤ 0x7F ↔ c ≤ 0x7F := by
  rw [and_iff_right (UInt16.pos_iff_ne_zero.mpr h)]

theorem length_le_utfBody (value : WString) : value.length ≤ (utfBody value).length := by
  induction value with
  | nil => exact le_rfl
  | cons c value ih =>
      have hone : 1 ≤ (utfBytes c.toNat).length := by
        rw [length_utfBytes_unit]
        split_ifs <;> norm_num
      rw [utfBody_cons, List.length_append, List.length_cons]
      omega

/-- The first loop counts the bytes of the body, up to multiples of `2 ^ 16`. -/
theorem countUtf_eq {value : WString} (h : ∀ c ∈ value, c ≠ 0) (n : ℕ) :
    countUtf (Int16.ofNat n) value = Int16.ofNat (n + (utfBody value).length) := by
  induction value generalizing n with
  | nil => rfl
  | cons c value ih =>
      obtain ⟨hc, hvalue⟩ := List.forall_mem_cons.mp h
      have hstep : (if 0 < c ∧ c ≤ 0x7F then 1 else if c ≤ 0x7FF then 2 else 3 : Int16) =
          Int16.ofNat (utfBytes c.toNat).length := by
        rw [length_utfBytes_unit]
        simp only [one_byte_iff hc]
        split_ifs <;> rfl
      rw [countUtf, hstep, ← Int16.ofNat_add, ih hvalue, utfBody_cons, List.length_append,
        Nat.add_assoc]

/-- A `short` as a `size_t`. -/
def sizeOfShort (n : ℕ) : ℕ :=
  if n % 65536 < 32768 then n % 65536 else 2 ^ 64 - 65536 + n % 65536

theorem toNat_sizeOfShort (n : ℕ) :
    (Int16.ofNat n).toInt64.toUInt64.toNat = sizeOfShort n := by
  show ((BitVec.ofNat 16 n).signExtend 64).toNat = _
  have hbits : (BitVec.ofNat 16 n).toNat = n % 65536 := BitVec.toNat_ofNat n 16
  have hsign : (BitVec.ofNat 16 n).msb = decide (32768 ≤ n % 65536) := by
    rw [BitVec.msb_eq_decide, hbits]
  rw [BitVec.toNat_signExtend, BitVec.toNat_setWidth_of_le (by norm_num), hbits, hsign, sizeOfShort]
  by_cases h : n % 65536 < 32768
  · rw [if_pos h, decide_eq_false (Nat.not_le_of_lt h)]
    rfl
  · rw [if_neg h, decide_eq_true (Nat.le_of_not_lt h), if_pos rfl]
    omega

/-- `dx_write_utf` behind its check. -/
theorem writeUtf_eq {value : WString} (h : ∀ c ∈ value, c ≠ 0) :
    writeUtf value =
      if sizeOfShort (utfBody value).length < value.length then throw .badUtfDataFormat
      else (do writeShort (Int16.ofNat (utfBody value).length); writeUtfUnits value) := by
  have hcount : countUtf 0 value = Int16.ofNat (utfBody value).length := by
    have hzero := countUtf_eq h 0
    rwa [Nat.zero_add] at hzero
  have hmax := (Int16.ofNat (utfBody value).length).toInt_lt
  have hnever : ¬ (Int16.ofNat (utfBody value).length).toInt > 65535 := by omega
  rw [writeUtf, hcount, toNat_sizeOfShort]
  simp only [hnever, or_false]

/-! ### The body -/

theorem puts_writeUtfUnits {value : WString} (h : ∀ c ∈ value, c ≠ 0) :
    Puts (writeUtfUnits value) (utfBody value) := by
  induction value with
  | nil => exact puts_pure
  | cons c value ih =>
      obtain ⟨hc, hvalue⟩ := List.forall_mem_cons.mp h
      have hmax : c.toNat < 2 ^ 16 := c.toNat_lt
      have hone : c ≤ 0x7F ↔ c.toNat ≤ 0x7F := UInt16.le_iff_toNat_le
      have htwo : c ≤ 0x7FF ↔ c.toNat ≤ 0x7FF := UInt16.le_iff_toNat_le
      have hlen : (utfBytes c.toNat).length ≤ 3 := by
        rw [length_utfBytes_unit]
        split_ifs <;> norm_num
      have hunit : ∀ x : WriteCall Unit, Writes x (utfBytes c.toNat) →
          Puts (do reserve 3; x; writeUtfUnits value) (utfBody (c :: value)) := by
        intro x hx
        have hputs := (hx.reserved hlen (by omega) (by norm_num)).bind (ih hvalue)
        rwa [bind_assoc] at hputs
      rw [writeUtfUnits]
      simp only [one_byte_iff hc]
      by_cases h₁ : c ≤ 0x7F
      · rw [if_pos h₁]
        exact hunit _ (writes_utfBytes_one (hone.mp h₁))
      rw [if_neg h₁]
      by_cases h₂ : c ≤ 0x7FF
      · rw [if_pos h₂]
        exact hunit _ (writes_utfBytes_two (Nat.lt_of_not_le (hone.not.mp h₁)) (htwo.mp h₂))
      · rw [if_neg h₂]
        exact hunit _ (writes_utfBytes_three (Nat.lt_of_not_le (htwo.not.mp h₂)) (by omega))

/-! ### Reading the body -/

/-- The units of a string, as characters. -/
theorem utfBody_units (value : WString) :
    (value.map UtfChar.unit).flatMap UtfChar.bytes = utfBody value ∧
      (value.map UtfChar.unit).flatMap UtfChar.units = value ∧
      charsLength (value.map UtfChar.unit) = (utfBody value).length := by
  have hbytes : (value.map UtfChar.unit).flatMap UtfChar.bytes = utfBody value :=
    List.flatMap_map _ _ value
  refine ⟨hbytes, ?_, by rw [charsLength, hbytes]⟩
  rw [List.flatMap_map]
  exact List.flatMap_singleton' value

/-- Single units always fit. -/
theorem charsFit_units (count : ℕ) (value : WString) :
    CharsFit count (value.map UtfChar.unit) := by
  induction value generalizing count with
  | nil => trivial
  | cons c value ih => exact ih (count + 1)

/-- The body is read behind its length. -/
theorem reads_readUtf {value : WString} {b₁ b₀ : Int8}
    (hlength : bytesValue [b₁, b₀] = (utfBody value).length) :
    Reads readUtf (b₁ :: b₀ :: utfBody value) value := by
  obtain ⟨hbytes, hunits, hchars⟩ := utfBody_units value
  have hlt : bytesValue [b₁, b₀] < 256 ^ 2 := bytesValue_lt rfl
  have hsize : (unsignedShort b₁ b₀).toInt32.toInt = (utfBody value).length := by
    rw [toInt_eq_word, word_unsignedShort, hlength]
    rw [word_unsignedShort]
    omega
  have hfit : CharsFit ([] : WString).length (value.map UtfChar.unit) := charsFit_units 0 value
  have hloop := reads_readUtfLoop hfit
  rw [hchars, hbytes, hunits, List.nil_append, ← readUtfSequence_eq] at hloop
  have hread := (reads_readUnsignedShort b₁ b₀).bind
    (f := fun utflen => readUtfSequence utflen.toInt32.toInt false) (b := value) (by rwa [hsize])
  exact hread

/-! ### The round trip -/

/-- The position does not go back, whether the call succeeds or not. -/
def Onward (x : WriteCall Unit) : Prop :=
  ∀ context, context.currentOutBufferPosition ≤ (exec x context).2.currentOutBufferPosition

theorem Onward.bind {x y : WriteCall Unit} (hx : Onward x) (hy : Onward y) :
    Onward (do x; y) := by
  intro context
  have hfirst := hx context
  rcases hexec : exec x context with ⟨e | ⟨⟩, mid⟩ <;> rw [hexec] at hfirst
  · rw [exec_bind_error hexec]
    exact hfirst
  · rw [exec_bind_ok hexec]
    exact hfirst.trans (hy mid)

theorem onward_putByte (b : Int8) : Onward (putByte b) := fun _ => Nat.le_succ _

theorem onward_reserve (n : ℕ) : Onward (reserve n) := by
  intro context
  unfold reserve ensureCapacity
  rw [exec_bind_ok (exec_get _)]
  split_ifs
  · rw [exec_bind_ok (exec_get _)]
    dsimp only
    split_ifs <;> exact le_rfl
  · exact le_rfl

theorem onward_writeUtfUnits (value : WString) : Onward (writeUtfUnits value) := by
  induction value with
  | nil => exact fun _ => le_rfl
  | cons c value ih =>
      have hone := onward_putByte
      rw [writeUtfUnits]
      refine (onward_reserve 3).bind ?_
      split_ifs
      · exact (hone _).bind ih
      · exact ((hone _).bind (hone _)).bind ih
      · exact ((hone _).bind ((hone _).bind (hone _))).bind ih

/-- If the writer fails, it has written nothing; otherwise it has written the number of the bytes of
a body in two bytes, and then the body, which is read back.  It fails on the strings of more than
65535 bytes. -/
structure ShortUtf (value : WString) (out : OutputContext) : Prop where
  fails : ∀ e out', exec (writeUtf value) out = (.error e, out') → out' = out
  writes : ∀ out', exec (writeUtf value) out = (.ok (), out') → ∃ b₁ b₀ body,
    out'.writtenFrom out.currentOutBufferPosition = b₁ :: b₀ :: body ∧
      bytesValue [b₁, b₀] = body.length ∧ Reads readUtf (b₁ :: b₀ :: body) value
  returns_iff : Returns (writeUtf value) out ↔ (utfBody value).length ≤ 65535

section Writing

variable {value : WString} {out : OutputContext}

/-- A string that is rejected is not written. -/
theorem exec_writeUtf_rejected (h : ∀ c ∈ value, c ≠ 0)
    (hsize : sizeOfShort (utfBody value).length < value.length) (out : OutputContext) :
    exec (writeUtf value) out = (.error .badUtfDataFormat, out) := by
  rw [writeUtf_eq h, if_pos hsize]
  rfl

/-- The two bytes of the length are written, and then the body. -/
theorem puts_writeUtf (h : ∀ c ∈ value, c ≠ 0)
    (hsize : ¬ sizeOfShort (utfBody value).length < value.length) :
    Puts (writeUtf value)
      (shortBytes (Int16.ofNat (utfBody value).length) ++ utfBody value) := by
  rw [writeUtf_eq h, if_neg hsize]
  exact (puts_writeShort _).bind (puts_writeUtfUnits h)

/-- The length is what the two bytes denote. -/
theorem bytesValue_shortBytes {n : ℕ} (hn : n ≤ 65535) :
    bytesValue (shortBytes (Int16.ofNat n)) = n := by
  have hvalue : (Int16.ofNat n).toInt % 256 ^ 2 = n := by
    rw [Int16.toInt_ofNat', Int.bmod_def]
    norm_num [Int16.size]
    omega
  rw [bytesValue, octets_shortBytes, beValue_beOctets, hvalue, Int.toNat_natCast]
  exact Nat.mod_eq_of_lt (by omega)

/-- A string that is written in too few bytes. -/
theorem not_shortUtf_of_wraps (h : ∀ c ∈ value, c ≠ 0) (hlong : 65535 < (utfBody value).length)
    (hsize : ¬ sizeOfShort (utfBody value).length < value.length)
    (hrange : out.InRange 65537)
    (hgrow : 2 * (out.currentOutBufferPosition + 65537) + 4 ≤ INT_MAX) :
    ¬ ShortUtf value out := by
  intro hshort
  obtain ⟨before, room, rfl⟩ := hrange.eq_outputAt
  rw [currentOutBufferPosition_outputAt] at hgrow
  have htotal : before.length + room.length ≤ INT_MAX := by simpa using hrange.length_le
  have hputs := puts_writeShort (Int16.ofNat (utfBody value).length)
  obtain ⟨⟨⟩, hok⟩ := hputs.returns before room
    (by simp only [List.length_cons, List.length_nil]; omega) htotal
  have hfirst : exec (writeShort (Int16.ofNat (utfBody value).length)) (outputAt before room) =
      (.ok (), (exec (writeShort (Int16.ofNat (utfBody value).length)) (outputAt before room)).2) :=
    Prod.ext hok rfl
  obtain ⟨room', hmid, -⟩ := hputs.writes before room _
    (by simp only [List.length_cons, List.length_nil]; omega) htotal hfirst
  rw [hmid] at hfirst
  -- the body fails behind its length, or the string is written
  have honward := onward_writeUtfUnits value
    (outputAt (before ++ shortBytes (Int16.ofNat (utfBody value).length)) room')
  have hexec : exec (writeUtf value) (outputAt before room) = exec (writeUtfUnits value)
      (outputAt (before ++ shortBytes (Int16.ofNat (utfBody value).length)) room') := by
    rw [writeUtf_eq h, if_neg hsize, exec_bind_ok hfirst]
    rfl
  rw [← hexec] at honward
  rcases hwrite : exec (writeUtf value) (outputAt before room) with ⟨e | ⟨⟩, out'⟩
  · obtain rfl := hshort.fails e out' hwrite
    rw [hwrite] at honward
    simp [shortBytes] at honward
  · have hreturns := hshort.returns_iff.mp ⟨(), by rw [hwrite]⟩
    omega

end Writing

/-- A short string is written and read back, or not written, if and only if its body has at most
65535 bytes, or the number of its bytes as a `short` is less than the number of its units. -/
theorem shortUtf_iff (value : WString) (out : OutputContext) (hunits : ∀ c ∈ value, c ≠ 0)
    (hrange : out.InRange 65537)
    (hgrow : 2 * (out.currentOutBufferPosition + 65537) + 4 ≤ INT_MAX) :
    ShortUtf value out ↔ (utfBody value).length ≤ 65535 ∨
      sizeOfShort (utfBody value).length < value.length := by
  constructor
  · intro hshort
    by_contra hnot
    obtain ⟨hlong, hsize⟩ := not_or.mp hnot
    exact not_shortUtf_of_wraps hunits (Nat.lt_of_not_le hlong) hsize hrange hgrow hshort
  · intro hcond
    have hle := length_le_utfBody value
    by_cases hlong : (utfBody value).length ≤ 65535
    · have hsize : ¬ sizeOfShort (utfBody value).length < value.length := by
        unfold sizeOfShort
        split_ifs <;> omega
      have hputs := puts_writeUtf hunits hsize
      have hlength : (shortBytes (Int16.ofNat (utfBody value).length) ++ utfBody value).length ≤
          65537 := by
        rw [List.length_append]
        show 2 + _ ≤ _
        omega
      have hwrite : Returns (writeUtf value) out := by
        obtain ⟨before, room, rfl⟩ := hrange.eq_outputAt
        rw [currentOutBufferPosition_outputAt] at hgrow
        exact hputs.returns before room (by omega) (by simpa using hrange.length_le)
      obtain ⟨out', hexec, hwritten⟩ := hputs.written hlength hrange hwrite
      refine ⟨fun e out'' herror => ?_, fun out'' hok => ?_, iff_of_true hwrite hlong⟩
      · rw [hexec] at herror
        exact nomatch (Prod.mk.inj herror).1
      · rw [hexec] at hok
        obtain rfl := (Prod.mk.inj hok).2
        have hvalue := bytesValue_shortBytes hlong
        exact ⟨_, _, _, hwritten, hvalue, reads_readUtf hvalue⟩
    · have hexec := exec_writeUtf_rejected hunits (hcond.resolve_left hlong) out
      refine ⟨fun e out' herror => ?_, fun out' hok => ?_, iff_of_false ?_ hlong⟩
      · rw [hexec] at herror
        exact (Prod.mk.inj herror).2.symm
      · rw [hexec] at hok
        exact nomatch (Prod.mk.inj hok).1
      · rintro ⟨a, ha⟩
        rw [hexec] at ha
        exact nomatch ha

/-- A letter and a letter with an accent. -/
theorem shortUtf_letters :
    ShortUtf [0x41, 0xE9] (outputAt [1] (List.replicate 15 0)) ↔
      (utfBody [0x41, 0xE9]).length ≤ 65535 ∨
        sizeOfShort (utfBody [0x41, 0xE9]).length < [0x41, 0xE9].length :=
  shortUtf_iff [0x41, 0xE9] (outputAt [1] (List.replicate 15 0)) (by simp)
    ⟨rfl, by decide, by decide, by decide⟩ (by decide)

theorem length_utfBody_replicate (n : ℕ) (c : UInt16) :
    (utfBody (List.replicate n c)).length = n * (utfBytes c.toNat).length := by
  rw [utfBody, List.length_flatMap, List.map_replicate, List.sum_replicate, smul_eq_mul]

/-- A string of 33000 units of three bytes is written behind the length 33464. -/
theorem not_shortUtf_units :
    ¬ ShortUtf (List.replicate 33000 0x4E00) (outputAt [1] (List.replicate 15 0)) := by
  have hbody : (utfBody (List.replicate 33000 0x4E00)).length = 99000 := by
    rw [length_utfBody_replicate]
    decide
  have hrange : (outputAt [1] (List.replicate 15 0)).InRange 65537 :=
    ⟨rfl, by decide, by decide, by decide⟩
  refine not_shortUtf_of_wraps ?_ ?_ ?_ hrange (by decide)
  · intro c hc
    rw [List.eq_of_mem_replicate hc]
    decide
  · rw [hbody]
    decide
  · rw [hbody, List.length_replicate]
    decide

end DxFeed.BufferedIO
