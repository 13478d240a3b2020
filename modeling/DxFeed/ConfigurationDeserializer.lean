import DxFeed.RecordTranscoder.Transcoders

/-!
# The deserializer of configurations

A configuration is a string in the serialization format of Java.

* `ByteArrayObject`, `Runtime`: the bytes in memory, and what the platform does;
* `readShort`, `readLong`, `readByte`, `readString`: the readers, which note every index that they
  read;
* `deserializeString`: `dx_configuration_deserialize_string`;
* `javaStream`: the bytes that stand for a string;
* `deserializes_iff`: the strings that are read back.
-/

namespace DxFeed.ConfigurationDeserializer

open BufferedIO Call FixedWidth PrefixCode
open RecordTranscoder (streamMagic streamVersion tcString tcLongstring)

/-! ### Memory -/

/-- `dxf_byte_array_t`: the bytes from its `elements` on, also those behind the array, and the number
of bytes of the array. -/
structure ByteArrayObject where
  memory : ℕ → Int8
  size : ℕ

/-- What the platform does: the sizes for which `calloc` finds a block, those that are larger than any
block, and those of the strings here; and the conversion of strings, which keeps the characters of
ASCII and gives what is in front of a terminator. -/
structure Runtime where
  allocates : ℕ → Bool
  allocates_small : ∀ n, 0 < n → n ≤ 2 ^ 16 → allocates n = true
  allocates_huge : ∀ n, 2 ^ 63 ≤ n → allocates n = false
  ansiToUnicode : List Int8 → Option WString
  ansiToUnicode_ascii : ∀ chars, chars ≠ [] → (∀ c ∈ chars, 0 < c.toInt) →
    ansiToUnicode chars = some (chars.map fun c => UInt16.ofNat (octet c))
  length_ansiToUnicode : ∀ chars wide, ansiToUnicode chars = some wide → wide.length ≤ chars.length
  ansiToUnicode_terminated : ∀ chars wide, ansiToUnicode chars = some wide → 0 ∉ wide

theorem ofNat_octet_ne_zero {c : Int8} (h : c ≠ 0) : UInt16.ofNat (octet c) ≠ 0 := by
  intro hzero
  have hlt := octet_lt c
  have hoctet : (UInt16.ofNat (octet c)).toNat = 0 := by
    rw [hzero]
    rfl
  rw [UInt16.toNat_ofNat_of_lt' (by simp [UInt16.size]; omega)] at hoctet
  apply h
  rw [← Int8.toBitVec_inj, ← BitVec.toNat_inj]
  exact hoctet

/-- A platform with blocks of all sizes below `2^63`, and no conversion of the empty string. -/
def plainRuntime : Runtime where
  allocates n := decide (n < 2 ^ 63)
  allocates_small n _ hn := decide_eq_true (by omega)
  allocates_huge n hn := decide_eq_false (by omega)
  ansiToUnicode chars :=
    let text := chars.takeWhile (· ≠ 0)
    if text = [] then none else some (text.map fun c => UInt16.ofNat (octet c))
  ansiToUnicode_ascii chars hne hascii := by
    have hwhole : chars.takeWhile (· ≠ 0) = chars := by
      rw [List.takeWhile_eq_self_iff]
      intro c hc
      apply decide_eq_true
      rintro rfl
      exact absurd (hascii 0 hc) (by decide)
    dsimp only
    rw [hwhole, if_neg hne]
  length_ansiToUnicode chars wide h := by
    dsimp only at h
    split_ifs at h
    obtain rfl := Option.some.inj h
    rw [List.length_map]
    exact (List.takeWhile_sublist _).length_le
  ansiToUnicode_terminated chars wide h := by
    dsimp only at h
    split_ifs at h
    obtain rfl := Option.some.inj h
    rw [List.mem_map]
    rintro ⟨c, hc, hzero⟩
    have hne := List.mem_takeWhile_imp hc
    exact ofNat_octet_ne_zero (of_decide_eq_true hne) hzero

/-- Why a call fails; the last one is a write behind the end of a block. -/
inductive Failure
  | notRead
  | protocolError
  | unsupportedVersion
  | invalidFuncParamInternal
  | overrun
  deriving DecidableEq

/-- The position in the array, and the indices that have been read. -/
structure Cursor where
  pos : ℕ
  reads : List ℕ
  deriving DecidableEq

abbrev DeserializeCall := Call Failure Cursor

/-- `elements[(*pos)++]`. -/
def nextElement (object : ByteArrayObject) : DeserializeCall Int8 := do
  let cursor ← get
  set (⟨cursor.pos + 1, cursor.reads ++ [cursor.pos]⟩ : Cursor)
  return object.memory cursor.pos

/-! ### The readers -/

/-- `sizeof(dxf_short_t)`. -/
def sizeofShort : ℕ := 2

/-- The loop of `READ_MULTIMBYTE_VALUE_BODY`. -/
def readValueLoop {α : Type} (object : ByteArrayObject) (push : α → Int8 → α) :
    ℕ → α → DeserializeCall α
  | 0, value => return value
  | n + 1, value => do readValueLoop object push n (push value (← nextElement object))

/-- `READ_MULTIMBYTE_VALUE_BODY`: it reads two bytes, whatever the type is. -/
def readMultibyteValue {α : Type} (object : ByteArrayObject) (push : α → Int8 → α) (zero : α) :
    DeserializeCall α := do
  let cursor ← get
  if cursor.pos + sizeofShort ≥ object.size then throw .notRead
  readValueLoop object push sizeofShort zero

/-- One more byte of a `dxf_short_t`. -/
def pushShort (value : Int16) (b : Int8) : Int16 :=
  (value.toInt32 <<< 8 ||| (b.toInt32 &&& 0xFF)).toInt16

/-- One more byte of a `dxf_long_t`. -/
def pushLong (value : Int64) (b : Int8) : Int64 :=
  value <<< 8 ||| (b.toInt64 &&& 0xFF)

/-- `read_short`. -/
def readShort (object : ByteArrayObject) : DeserializeCall Int16 :=
  readMultibyteValue object pushShort 0

/-- `read_long`. -/
def readLong (object : ByteArrayObject) : DeserializeCall Int64 :=
  readMultibyteValue object pushLong 0

/-- `read_byte`. -/
def readByte (object : ByteArrayObject) : DeserializeCall Int8 := do
  let cursor ← get
  if cursor.pos + 1 ≥ object.size then throw .notRead
  nextElement object

/-- `strncpy` from an index on: the characters in front of a terminator, and the indices that are
read. -/
def strncpy (memory : ℕ → Int8) : ℕ → ℕ → List Int8 × List ℕ
  | _, 0 => ([], [])
  | i, n + 1 =>
      if memory i = 0 then ([], [i])
      else
        let rest := strncpy memory (i + 1) n
        (memory i :: rest.1, i :: rest.2)

/-- `read_string`; `strncpy` fills the block with zeros up to the length. -/
def readString (runtime : Runtime) (object : ByteArrayObject) (length : UInt64) :
    DeserializeCall (Option WString) := do
  let block := (length + 1).toNat
  if !runtime.allocates block then throw .notRead
  let cursor ← get
  let copied := strncpy object.memory cursor.pos length.toNat
  set { cursor with reads := cursor.reads ++ copied.2 }
  if block < length.toNat then throw .overrun
  return runtime.ansiToUnicode copied.1

/-- The error that the caller sets; what is written behind a block is not undone. -/
def orError (e : Failure) : Failure → Failure
  | .overrun => .overrun
  | _ => e

/-- The switch of `dx_configuration_deserialize_string`. -/
def deserializeContent (runtime : Runtime) (object : ByteArrayObject) (string : Option WString)
    (serializeType : Int8) : DeserializeCall (Option WString) := do
  if serializeType = tcString then
    let length ← ExceptT.adapt (orError .protocolError) (readShort object)
    ExceptT.adapt (orError .protocolError)
      (readString runtime object length.toInt64.toUInt64)
  else if serializeType = tcLongstring then
    let length ← ExceptT.adapt (orError .protocolError) (readLong object)
    if length.toUInt64 ≥ UInt64.ofNat (2 ^ 64 - 1) then throw .invalidFuncParamInternal
    readString runtime object length.toUInt64
  else return string

/-- `dx_configuration_deserialize_string`: the string behind the call. -/
def deserializeString (runtime : Runtime) (object : ByteArrayObject) (string : Option WString) :
    DeserializeCall (Option WString) := do
  let magic ← ExceptT.adapt (orError .protocolError) (readShort object)
  if magic ≠ streamMagic then throw .protocolError
  let version ← ExceptT.adapt (orError .unsupportedVersion) (readShort object)
  if version ≠ streamVersion then throw .unsupportedVersion
  let serializeType ← ExceptT.adapt (orError .protocolError) (readByte object)
  deserializeContent runtime object string serializeType

/-! ### The numbers -/

/-- The number of two bytes. -/
def shortNumber (b₁ b₀ : Int8) : ℕ := octet b₁ * 256 + octet b₀

theorem shortNumber_lt (b₁ b₀ : Int8) : shortNumber b₁ b₀ < 2 ^ 16 := by
  have h₁ := octet_lt b₁
  have h₀ := octet_lt b₀
  unfold shortNumber
  omega

theorem half_toInt16_word (x : Int32) : half x.toInt16 = word x % 2 ^ 16 := by
  show (x.toBitVec.signExtend 16).toNat = _
  rw [BitVec.signExtend_eq_setWidth_of_le _ (by norm_num), BitVec.toNat_setWidth]
  rfl

theorem word_toInt32_short {x : Int16} (h : half x < 2 ^ 15) : word x.toInt32 = half x := by
  have hmsb : x.toBitVec.msb = false := by
    rw [BitVec.msb_eq_false_iff_two_mul_lt]
    unfold half at h
    omega
  show (x.toBitVec.signExtend 32).toNat = _
  rw [BitVec.toNat_signExtend, hmsb, BitVec.toNat_setWidth_of_le (by norm_num)]
  rfl

theorem half_pushShort {value : Int16} (hvalue : half value < 256) (b : Int8) :
    half (pushShort value b) = half value * 256 + octet b := by
  have hlt := octet_lt b
  have hbyte := word_and_0xFF b
  have hword := word_toInt32_short (x := value) (by omega)
  rw [pushShort, half_toInt16_word,
    word_shiftLeft_or _ _ 8 (k := 8) rfl (by omega) (by omega), hbyte, hword]
  omega

theorem half_pushShort_pushShort (b₁ b₀ : Int8) :
    half (pushShort (pushShort 0 b₁) b₀) = shortNumber b₁ b₀ := by
  have hlt := octet_lt b₁
  have hzero : half 0 = 0 := rfl
  have hfirst : half (pushShort 0 b₁) = half 0 * 256 + octet b₁ := half_pushShort (by decide) b₁
  rw [hzero, Nat.zero_mul, Nat.zero_add] at hfirst
  rw [half_pushShort (by omega), hfirst, shortNumber]

theorem toNat_pushLong {value : Int64} (hvalue : value.toBitVec.toNat < 256) (b : Int8) :
    (pushLong value b).toBitVec.toNat = value.toBitVec.toNat * 256 + octet b := by
  have hlt := octet_lt b
  have hbyte : (b.toInt64 &&& 0xFF).toBitVec.toNat = octet b := by
    show (b.toBitVec.signExtend 64 &&& 0xFF#64).toNat = b.toBitVec.toNat
    generalize b.toBitVec = x
    revert x
    decide +kernel
  have hshift : (value <<< 8).toBitVec.toNat = value.toBitVec.toNat * 2 ^ 8 := by
    show (value.toBitVec <<< 8).toNat = _
    rw [BitVec.toNat_shiftLeft, Nat.shiftLeft_eq, Nat.mod_eq_of_lt (by omega)]
  rw [pushLong, Int64.toBitVec_or, BitVec.toNat_or, hbyte, hshift,
    or_eq_add (Nat.mul_mod_left _ _) hlt]
  norm_num

theorem toNat_pushLong_pushLong (b₁ b₀ : Int8) :
    (pushLong (pushLong 0 b₁) b₀).toUInt64.toNat = shortNumber b₁ b₀ := by
  have hlt := octet_lt b₁
  have hzero : (0 : Int64).toBitVec.toNat = 0 := rfl
  have hfirst : (pushLong 0 b₁).toBitVec.toNat = (0 : Int64).toBitVec.toNat * 256 + octet b₁ :=
    toNat_pushLong (by decide) b₁
  rw [hzero, Nat.zero_mul, Nat.zero_add] at hfirst
  show (pushLong (pushLong 0 b₁) b₀).toBitVec.toNat = _
  rw [toNat_pushLong (by omega), hfirst, shortNumber]

/-- The `size_t` of a `dxf_short_t` with these bits, which has a sign. -/
def signedSize (n : ℕ) : ℕ := if n < 2 ^ 15 then n else 2 ^ 64 - 2 ^ 16 + n

theorem signedSize_lt {n : ℕ} (h : n < 2 ^ 16) : signedSize n < UInt64.size := by
  unfold signedSize UInt64.size
  split_ifs <;> omega

theorem toNat_toUInt64_short (value : Int16) :
    value.toInt64.toUInt64.toNat = signedSize (half value) := by
  have hlt := value.toBitVec.isLt
  show (value.toBitVec.signExtend 64).toNat = _
  rw [BitVec.toNat_signExtend, BitVec.toNat_setWidth_of_le (by norm_num)]
  unfold signedSize half at *
  split_ifs with hmsb hsmall hsmall
  · rw [BitVec.msb_eq_true_iff_two_mul_ge] at hmsb
    omega
  · omega
  · omega
  · rw [Bool.not_eq_true, BitVec.msb_eq_false_iff_two_mul_lt] at hmsb
    omega

/-! ### The readers, one by one -/

variable {runtime : Runtime} {object : ByteArrayObject} {string : Option WString} {p n : ℕ}
  {reads : List ℕ} {memory : ℕ → Int8}

/-- The number of the two bytes at an index. -/
def ByteArrayObject.short (object : ByteArrayObject) (p : ℕ) : ℕ :=
  shortNumber (object.memory p) (object.memory (p + 1))

theorem exec_readMultibyteValue {α : Type} (push : α → Int8 → α) (zero : α) :
    exec (readMultibyteValue object push zero) ⟨p, reads⟩ =
      if p + 2 < object.size then
        (.ok (push (push zero (object.memory p)) (object.memory (p + 1))),
          ⟨p + 2, reads ++ [p, p + 1]⟩)
      else (.error .notRead, ⟨p, reads⟩) := by
  unfold readMultibyteValue sizeofShort
  rw [exec_bind_ok (exec_get _)]
  dsimp only
  split_ifs with hend hroom hroom
  · omega
  · rfl
  · have hreads : reads ++ [p, p + 1] = reads ++ [p] ++ [p + 1] := by simp
    rw [hreads]
    rfl
  · omega

theorem exec_readByte (object : ByteArrayObject) (p : ℕ) (reads : List ℕ) :
    exec (readByte object) ⟨p, reads⟩ =
      if p + 1 < object.size then (.ok (object.memory p), ⟨p + 1, reads ++ [p]⟩)
      else (.error .notRead, ⟨p, reads⟩) := by
  unfold readByte
  rw [exec_bind_ok (exec_get _)]
  dsimp only
  split_ifs with hend hroom hroom
  · omega
  · rfl
  · rfl
  · omega

theorem exec_readString (length : UInt64) :
    exec (readString runtime object length) ⟨p, reads⟩ =
      if runtime.allocates (length + 1).toNat = false then (.error .notRead, ⟨p, reads⟩)
      else
        (if (length + 1).toNat < length.toNat then .error .overrun
          else .ok (runtime.ansiToUnicode (strncpy object.memory p length.toNat).1),
          ⟨p, reads ++ (strncpy object.memory p length.toNat).2⟩) := by
  unfold readString
  dsimp only
  cases runtime.allocates (length + 1).toNat with
  | false => rfl
  | true =>
      rw [if_neg (by decide), if_neg (by decide), exec_bind_ok (exec_get _),
        exec_bind_ok (exec_set _ _)]
      split_ifs <;> rfl

/-! ### Copies -/

theorem length_strncpy (p n : ℕ) : (strncpy memory p n).1.length ≤ n := by
  induction n generalizing p with
  | zero => exact Nat.le_refl 0
  | succ n ih =>
      rw [strncpy]
      split_ifs with hzero
      · exact Nat.zero_le _
      · exact Nat.succ_le_succ (ih (p + 1))

/-- An index is read if no terminator is in front of it. -/
theorem mem_strncpy {i : ℕ} :
    i ∈ (strncpy memory p n).2 ↔ p ≤ i ∧ i < p + n ∧ ∀ j, p ≤ j → j < i → memory j ≠ 0 := by
  induction n generalizing p with
  | zero => exact iff_of_false List.not_mem_nil (by omega)
  | succ n ih =>
      rw [strncpy]
      split_ifs with hzero
      · rw [List.mem_singleton]
        constructor
        · rintro rfl
          exact ⟨le_rfl, by omega, fun j hj hj' => absurd hj (by omega)⟩
        · rintro ⟨hle, -, hnone⟩
          by_contra hne
          exact hnone p le_rfl (by omega) hzero
      · rw [List.mem_cons, ih]
        constructor
        · rintro (rfl | ⟨hle, hlt, hnone⟩)
          · exact ⟨le_rfl, by omega, fun j hj hj' => absurd hj (by omega)⟩
          · refine ⟨by omega, by omega, fun j hj hj' => ?_⟩
            rcases Nat.eq_or_lt_of_le hj with rfl | hj
            · exact hzero
            · exact hnone j hj hj'
        · rintro ⟨hle, hlt, hnone⟩
          rcases Nat.eq_or_lt_of_le hle with rfl | hle
          · exact Or.inl rfl
          · exact Or.inr ⟨hle, by omega, fun j hj => hnone j (by omega)⟩

/-- All characters of a text without a terminator are copied. -/
theorem strncpy_text {text : List Int8} (htext : ∀ c ∈ text, c ≠ 0)
    (hmemory : ∀ i, (hi : i < text.length) → memory (p + i) = text[i]) :
    (strncpy memory p text.length).1 = text := by
  induction text generalizing p with
  | nil => rfl
  | cons c text ih =>
      have hfirst : memory p = c := hmemory 0 (Nat.succ_pos _)
      have hrest : ∀ i, (hi : i < text.length) → memory (p + 1 + i) = text[i] := by
        intro i hi
        have hnext := hmemory (i + 1) (Nat.succ_lt_succ hi)
        rw [← Nat.add_assoc, Nat.add_right_comm] at hnext
        exact hnext
      rw [List.length_cons, strncpy, hfirst, if_neg (htext c List.mem_cons_self)]
      exact congrArg (c :: ·) (ih (fun d hd => htext d (List.mem_cons_of_mem c hd)) hrest)

/-- The indices are inside of the array if so many bytes remain, or if there is a terminator. -/
theorem strncpy_inside_iff {size : ℕ} (hp : p ≤ size) :
    (∀ i ∈ (strncpy memory p n).2, i < size) ↔
      p + n ≤ size ∨ ∃ i, p ≤ i ∧ i < size ∧ memory i = 0 := by
  constructor
  · intro hinside
    by_contra hnot
    rw [not_or, not_exists] at hnot
    obtain ⟨hlong, hnone⟩ := hnot
    have hread : size ∈ (strncpy memory p n).2 :=
      mem_strncpy.mpr ⟨hp, by omega, fun j hj hj' hzero => hnone j ⟨hj, hj', hzero⟩⟩
    exact absurd (hinside size hread) (lt_irrefl size)
  · rintro (hroom | ⟨i, hi, hi', hzero⟩) k hk
    · have hlt := (mem_strncpy.mp hk).2.1
      omega
    · by_contra hout
      exact (mem_strncpy.mp hk).2.2 i hi (by omega) hzero

/-! ### The call -/

/-- The array begins with the header of a stream, and has its type. -/
structure ByteArrayObject.Accepted (object : ByteArrayObject) : Prop where
  size : 6 ≤ object.size
  magic : object.short 0 = 0xACED
  version : object.short 2 = 5

/-- Two bytes that are read are a given number. -/
theorem pushShort_eq_iff {value : Int16} (p : ℕ) :
    pushShort (pushShort 0 (object.memory p)) (object.memory (p + 1)) = value ↔
      object.short p = half value := by
  rw [ByteArrayObject.short, ← half_pushShort_pushShort]
  unfold half
  rw [BitVec.toNat_inj, Int16.toBitVec_inj]

theorem exec_readShort_ok (h : p + 2 < object.size) (e : Failure) :
    exec (ExceptT.adapt (orError e) (readShort object)) ⟨p, reads⟩ =
      (.ok (pushShort (pushShort 0 (object.memory p)) (object.memory (p + 1))),
        ⟨p + 2, reads ++ [p, p + 1]⟩) :=
  exec_adapt_ok _ ((exec_readMultibyteValue _ _).trans (if_pos h))

theorem exec_readShort_error (h : object.size ≤ p + 2) (e : Failure) :
    exec (ExceptT.adapt (orError e) (readShort object)) ⟨p, reads⟩ = (.error e, ⟨p, reads⟩) :=
  exec_adapt_error _ ((exec_readMultibyteValue _ _).trans (if_neg (by omega)))

/-- A stream with another header is not read any further. -/
theorem exec_deserializeString_rejected (runtime : Runtime) (string : Option WString)
    (h : ¬ object.Accepted) :
    ∃ e cursor, exec (deserializeString runtime object string) ⟨0, []⟩ = (.error e, cursor) ∧
      e ≠ .overrun ∧ ∀ i ∈ cursor.reads, i < object.size := by
  -- every reader fails at the last byte of the array, so the header needs a byte behind it
  unfold deserializeString
  rcases le_or_gt object.size 2 with hsize | hsize
  · exact ⟨_, _, exec_bind_error (exec_readShort_error hsize _), by decide, by simp⟩
  rw [exec_bind_ok (exec_readShort_ok hsize _)]
  split_ifs with hmagic
  · exact ⟨_, _, rfl, by decide, by simp; omega⟩
  rcases le_or_gt object.size 4 with hsize | hsize
  · exact ⟨_, _, exec_bind_error (exec_readShort_error hsize _), by decide, by simp; omega⟩
  rw [exec_bind_ok (exec_readShort_ok hsize _)]
  split_ifs with hversion
  · exact ⟨_, _, rfl, by decide, by simp; omega⟩
  have hend : object.size ≤ 5 := by
    by_contra hend
    rw [not_not, pushShort_eq_iff] at hmagic hversion
    exact h ⟨by omega, hmagic, hversion⟩
  have hbyte := exec_adapt_error (orError .protocolError)
    ((exec_readByte object 4 [0, 1, 2, 3]).trans (if_neg (by omega)))
  exact ⟨_, _, exec_bind_error hbyte, by decide, by simp; omega⟩

/-- Behind the header the content is read. -/
theorem exec_deserializeString_accepted (h : object.Accepted) :
    exec (deserializeString runtime object string) ⟨0, []⟩ =
      exec (deserializeContent runtime object string (object.memory 4)) ⟨5, [0, 1, 2, 3, 4]⟩ := by
  have hsize := h.size
  have hmagic := (pushShort_eq_iff 0).mpr (h.magic.trans (by decide : _ = half streamMagic))
  have hversion := (pushShort_eq_iff 2).mpr (h.version.trans (by decide : _ = half streamVersion))
  have hbyte := exec_adapt_ok (orError .protocolError)
    ((exec_readByte object 4 [0, 1, 2, 3]).trans (if_pos (by omega)))
  unfold deserializeString
  rw [exec_bind_ok (exec_readShort_ok (by omega) _), if_neg (not_not.mpr hmagic)]
  refine (exec_bind_ok (exec_readShort_ok (by omega) _)).trans ?_
  rw [if_neg (not_not.mpr hversion)]
  exact exec_bind_ok hbyte

/-- The length that `read_string` is called with, if it is called. -/
def ByteArrayObject.requested (object : ByteArrayObject) : Option ℕ :=
  if object.size < 8 then none
  else if object.memory 4 = tcString then
    some (signedSize (object.short 5))
  else if object.memory 4 = tcLongstring then some (object.short 5)
  else none

theorem requested_of_short (h : object.size < 8) : object.requested = none := if_pos h

/-- Without a string that is read the content is rejected, or it has another type. -/
theorem exec_deserializeContent_none (runtime : Runtime) (string : Option WString)
    (h : object.Accepted) (hnone : object.requested = none) :
    ∃ result cursor,
      exec (deserializeContent runtime object string (object.memory 4)) ⟨5, [0, 1, 2, 3, 4]⟩ =
        (result, cursor) ∧
      (result = .error .protocolError ∨
        result = .ok string ∧ object.memory 4 ≠ tcString ∧ object.memory 4 ≠ tcLongstring) ∧
      ∀ i ∈ cursor.reads, i < object.size := by
  have hsize := h.size
  have hinside : ∀ i ∈ [0, 1, 2, 3, 4], i < object.size := by
    simp
    omega
  unfold deserializeContent
  unfold ByteArrayObject.requested at hnone
  split_ifs at hnone with hend hstring hlong
  · split_ifs with hstring hlong
    · exact ⟨_, _, exec_bind_error (exec_readShort_error (by omega) _), Or.inl rfl, hinside⟩
    · have hread := exec_adapt_error (orError .protocolError)
        ((@exec_readMultibyteValue object 5 [0, 1, 2, 3, 4] _
          pushLong 0).trans (if_neg (by omega)))
      exact ⟨_, _, exec_bind_error hread, Or.inl rfl, hinside⟩
    · exact ⟨_, _, rfl, Or.inr ⟨rfl, hstring, hlong⟩, hinside⟩
  · rw [if_neg hstring, if_neg hlong]
    exact ⟨_, _, rfl, Or.inr ⟨rfl, hstring, hlong⟩, hinside⟩

/-- The caller of `read_string` that sets no error. -/
theorem exec_adapt_readString (length : UInt64) (cursor : Cursor) :
    exec (ExceptT.adapt (orError .notRead) (readString runtime object length)) cursor =
      exec (readString runtime object length) cursor := by
  obtain ⟨p, reads⟩ := cursor
  rw [exec_adapt, exec_readString]
  split_ifs <;> rfl

/-- A string is read behind the first two bytes of its length. -/
theorem exec_deserializeContent_some (runtime : Runtime) (string : Option WString) {length : ℕ}
    (hsome : object.requested = some length) :
    ∃ e, e ≠ .overrun ∧
      exec (deserializeContent runtime object string (object.memory 4)) ⟨5, [0, 1, 2, 3, 4]⟩ =
      exec (ExceptT.adapt (orError e) (readString runtime object (UInt64.ofNat length)))
        ⟨7, [0, 1, 2, 3, 4, 5, 6]⟩ := by
  have hlt : object.short 5 < 2 ^ 16 := shortNumber_lt _ _
  unfold deserializeContent
  unfold ByteArrayObject.requested at hsome
  split_ifs at hsome with hend hstring hlong
  · obtain rfl := Option.some.inj hsome
    rw [if_pos hstring]
    refine ⟨.protocolError, by decide, (exec_bind_ok (exec_readShort_ok (by omega) _)).trans ?_⟩
    have hsize : (pushShort (pushShort 0 (object.memory 5)) (object.memory (5 + 1))).toInt64.toUInt64 =
        UInt64.ofNat (signedSize (object.short 5)) := by
      rw [← UInt64.toNat_inj, toNat_toUInt64_short, half_pushShort_pushShort,
        UInt64.toNat_ofNat_of_lt' (signedSize_lt hlt)]
      rfl
    rw [hsize]
    rfl
  · obtain rfl := Option.some.inj hsome
    have hread := exec_adapt_ok (orError .protocolError)
      ((@exec_readMultibyteValue object 5 [0, 1, 2, 3, 4] _
        pushLong 0).trans (if_pos (by omega)))
    have hnumber : (pushLong (pushLong 0 (object.memory 5)) (object.memory (5 + 1))).toUInt64.toNat =
        object.short 5 := toNat_pushLong_pushLong _ _
    rw [if_neg hstring, if_pos hlong]
    refine ⟨.notRead, by decide, (exec_bind_ok hread).trans ?_⟩
    rw [if_neg, exec_adapt_readString]
    · have hsize : (pushLong (pushLong 0 (object.memory 5)) (object.memory (5 + 1))).toUInt64 =
          UInt64.ofNat (object.short 5) := by
        rw [← UInt64.toNat_inj, hnumber, UInt64.toNat_ofNat_of_lt' (by simp [UInt64.size]; omega)]
      rw [hsize]
      rfl
    · rw [ge_iff_le, UInt64.le_iff_toNat_le, hnumber, UInt64.toNat_ofNat_of_lt' (by simp [UInt64.size])]
      omega

/-- The size of the block for a string. -/
def blockSize (length : ℕ) : ℕ := (length + 1) % 2 ^ 64

theorem toNat_blockSize {length : ℕ} (h : length < 2 ^ 64) :
    (UInt64.ofNat length).toNat = length ∧
      (UInt64.ofNat length + 1).toNat = blockSize length := by
  have hlength : (UInt64.ofNat length).toNat = length := UInt64.toNat_ofNat_of_lt' h
  refine ⟨hlength, ?_⟩
  rw [UInt64.toNat_add, hlength]
  rfl

theorem requested_lt {length : ℕ} (h : object.requested = some length) : length < 2 ^ 64 := by
  have hlt : object.short 5 < 2 ^ 16 := shortNumber_lt _ _
  have hsigned := signedSize_lt hlt
  unfold UInt64.size at hsigned
  unfold ByteArrayObject.requested at h
  split_ifs at h
  · obtain rfl := Option.some.inj h
    omega
  · obtain rfl := Option.some.inj h
    omega

/-- What the call does with a string that is read. -/
theorem exec_deserializeString_some (runtime : Runtime) (string : Option WString) {length : ℕ}
    (h : object.Accepted)
    (hsome : object.requested = some length) :
    ∃ e, e ≠ .overrun ∧ exec (deserializeString runtime object string) ⟨0, []⟩ =
      if runtime.allocates (blockSize length) = false then
        (.error e, ⟨7, [0, 1, 2, 3, 4, 5, 6]⟩)
      else
        (if blockSize length < length then .error .overrun
          else .ok (runtime.ansiToUnicode (strncpy object.memory 7 length).1),
          ⟨7, [0, 1, 2, 3, 4, 5, 6] ++ (strncpy object.memory 7 length).2⟩) := by
  obtain ⟨hlength, hblock⟩ := toNat_blockSize (requested_lt hsome)
  obtain ⟨e, he, hexec⟩ := exec_deserializeContent_some runtime string hsome
  refine ⟨e, he, ?_⟩
  rw [exec_deserializeString_accepted h, hexec, exec_adapt, exec_readString, hlength, hblock]
  split_ifs
  · cases e <;> rfl
  · rfl
  · rfl

/-! ### Streams of strings -/

/-- The bytes of a list in memory, with other bytes behind them. -/
def ByteArrayObject.ofList (bytes : List Int8) (behind : ℕ → Int8) : ByteArrayObject where
  memory i := bytes.getD i (behind i)
  size := bytes.length

/-- A text of ASCII. -/
structure AsciiText where
  chars : List Int8
  ascii : ∀ c ∈ chars, 0 ≤ c.toInt

/-- The characters as wide ones. -/
def AsciiText.wide (text : AsciiText) : WString :=
  text.chars.map fun c => UInt16.ofNat (octet c)

/-- The bytes of the characters: Java writes two of them for the character 0. -/
def AsciiText.bytes (text : AsciiText) : List Int8 :=
  text.chars.flatMap fun c => if c = 0 then [0xC0, 0x80].map castByte else [c]

/-- The length of a text as it is written to a stream: in two bytes without a sign, or in eight. -/
def lengthBytes (n : ℕ) : List Int8 :=
  if n < 65536 then tcString :: (beOctets 2 n).map castByte
  else tcLongstring :: (beOctets 8 n).map castByte

/-- The stream that Java writes for a string of ASCII. -/
def AsciiText.javaStream (text : AsciiText) : List Int8 :=
  [0xAC, 0xED, 0x00, 0x05].map castByte ++ lengthBytes text.bytes.length ++ text.bytes

variable (text : AsciiText) (behind : ℕ → Int8)

/-- The text is read back. -/
def Deserializes (runtime : Runtime) (text : AsciiText) (behind : ℕ → Int8)
    (string : Option WString) : Prop :=
  (exec (deserializeString runtime (.ofList text.javaStream behind) string) ⟨0, []⟩).1 =
    .ok (some text.wide)

/-- The two bytes of a length, read as they stand. -/
theorem shortNumber_beOctets {n : ℕ} :
    shortNumber (castByte (n / 256 % 256)) (castByte (n % 256)) = n % 65536 := by
  rw [shortNumber, octet_castByte (Nat.mod_lt _ (by decide)),
    octet_castByte (Nat.mod_lt _ (by decide))]
  omega

/-- Without a character 0 the bytes are the characters. -/
theorem bytes_of_notMem (h : 0 ∉ text.chars) : text.bytes = text.chars := by
  have hsingle : ∀ c ∈ text.chars,
      (if c = 0 then [0xC0, 0x80].map castByte else [c]) = [c] := by
    intro c hc
    apply if_neg
    rintro rfl
    exact h hc
  rw [AsciiText.bytes, List.flatMap_congr hsingle, List.flatMap_singleton']

theorem size_javaStream :
    (ByteArrayObject.ofList text.javaStream behind).size =
      text.bytes.length + if text.bytes.length < 65536 then 7 else 13 := by
  unfold ByteArrayObject.ofList AsciiText.javaStream lengthBytes
  split_ifs
  · simp
    omega
  · simp
    omega

theorem accepted_javaStream : (ByteArrayObject.ofList text.javaStream behind).Accepted := by
  have hsize := size_javaStream text behind
  refine ⟨by split_ifs at hsize <;> omega, ?_, ?_⟩
  · show shortNumber (castByte 0xAC) (castByte 0xED) = 0xACED
    decide
  · show shortNumber (castByte 0x00) (castByte 0x05) = 5
    decide

theorem javaStream_of_lt (h : text.bytes.length < 65536) :
    (ByteArrayObject.ofList text.javaStream behind).memory 4 = tcString ∧
      (ByteArrayObject.ofList text.javaStream behind).short 5 = text.bytes.length ∧
      ∀ i, (hi : i < text.bytes.length) →
        (ByteArrayObject.ofList text.javaStream behind).memory (7 + i) = text.bytes[i] := by
  unfold ByteArrayObject.ofList AsciiText.javaStream lengthBytes
  rw [if_pos h]
  refine ⟨rfl, ?_, fun i hi => ?_⟩
  · show shortNumber (castByte (text.bytes.length / 256 ^ 1 % 256))
      (castByte (text.bytes.length / 256 ^ 0 % 256)) = _
    rw [pow_one, pow_zero, Nat.div_one, shortNumber_beOctets, Nat.mod_eq_of_lt h]
  · rw [Nat.add_comm 7 i]
    show text.bytes.getD i _ = _
    exact List.getD_eq_getElem _ _ hi

theorem javaStream_of_ge (h : ¬ text.bytes.length < 65536) :
    (ByteArrayObject.ofList text.javaStream behind).memory 4 = tcLongstring := by
  unfold ByteArrayObject.ofList AsciiText.javaStream lengthBytes
  rw [if_neg h]
  rfl

/-- No string is read behind a stream of the empty text, which ends with its length. -/
theorem requested_javaStream_nil (h : text.bytes.length = 0) :
    (ByteArrayObject.ofList text.javaStream behind).requested = none := by
  apply requested_of_short
  rw [size_javaStream, if_pos (by omega)]
  omega

theorem requested_javaStream_of_lt (hpos : 0 < text.bytes.length)
    (h : text.bytes.length < 65536) :
    (ByteArrayObject.ofList text.javaStream behind).requested =
      some (signedSize text.bytes.length) := by
  obtain ⟨htype, hshort, -⟩ := javaStream_of_lt text behind h
  have hsize := size_javaStream text behind
  rw [if_pos h] at hsize
  unfold ByteArrayObject.requested
  rw [if_neg (by omega), if_pos htype, hshort]

theorem requested_javaStream_of_ge (h : ¬ text.bytes.length < 65536) :
    ∃ length < 65536,
      (ByteArrayObject.ofList text.javaStream behind).requested = some length := by
  have htype := javaStream_of_ge text behind h
  have hsize := size_javaStream text behind
  rw [if_neg h] at hsize
  refine ⟨(ByteArrayObject.ofList text.javaStream behind).short 5, shortNumber_lt _ _, ?_⟩
  unfold ByteArrayObject.requested
  rw [if_neg (by omega), if_neg (by rw [htype]; decide), if_pos htype]

/-- A string with a length that has no sign is read. -/
theorem deserializes_of_lt (hpos : 1 ≤ text.chars.length) (h : text.chars.length ≤ 32767)
    (hzero : 0 ∉ text.chars) : Deserializes runtime text behind string := by
  have hbytes := bytes_of_notMem text hzero
  rw [← hbytes] at hpos h
  obtain ⟨-, -, hchars⟩ := javaStream_of_lt text behind (by omega)
  have hrequested := requested_javaStream_of_lt text behind hpos (by omega)
  rw [signedSize, if_pos (by omega)] at hrequested
  obtain ⟨e, -, hexec⟩ := exec_deserializeString_some runtime string
    (accepted_javaStream text behind) hrequested
  have hblock : blockSize text.bytes.length = text.bytes.length + 1 :=
    Nat.mod_eq_of_lt (by omega)
  have hascii : ∀ c ∈ text.bytes, 0 < c.toInt := by
    rw [hbytes]
    intro c hc
    have hnonneg := text.ascii c hc
    have hne : c.toInt ≠ (0 : Int8).toInt := by
      rw [ne_eq, Int8.toInt_inj]
      rintro rfl
      exact hzero hc
    exact lt_of_le_of_ne hnonneg hne.symm
  have hterminated : ∀ c ∈ text.bytes, c ≠ 0 := by
    rintro c hc rfl
    exact absurd (hascii 0 hc) (by decide)
  rw [hblock, runtime.allocates_small _ (by omega) (by omega), if_neg (by decide),
    if_neg (by omega), strncpy_text hterminated hchars,
    runtime.ansiToUnicode_ascii _ (List.ne_nil_of_length_pos hpos) hascii, hbytes] at hexec
  unfold Deserializes
  rw [hexec]
  rfl

/-- A length with a sign is not a size of a block. -/
theorem not_deserializes_of_signed (hsigned : 32768 ≤ text.bytes.length)
    (h : text.bytes.length < 65536) : ¬ Deserializes runtime text behind string := by
  have hrequested := requested_javaStream_of_lt text behind (by omega) h
  rw [signedSize, if_neg (by omega)] at hrequested
  obtain ⟨e, -, hexec⟩ := exec_deserializeString_some runtime string
    (accepted_javaStream text behind) hrequested
  unfold Deserializes
  rw [hexec]
  unfold blockSize
  split_ifs with hblock hwraps
  · simp
  · simp
  -- the length 65535 wraps to a block of size 0, which is too small; the others have no block
  · have hlarge := runtime.allocates_huge ((2 ^ 64 - 2 ^ 16 + text.bytes.length + 1) % 2 ^ 64)
      (by omega)
    exact absurd hlarge hblock

/-- Of a length of eight bytes two are read, and no more characters than they say. -/
theorem not_deserializes_of_long (h : ¬ text.bytes.length < 65536) (hzero : 0 ∉ text.chars) :
    ¬ Deserializes runtime text behind string := by
  have hbytes := bytes_of_notMem text hzero
  obtain ⟨length, hlt, hrequested⟩ := requested_javaStream_of_ge text behind h
  obtain ⟨e, -, hexec⟩ := exec_deserializeString_some runtime string
    (accepted_javaStream text behind) hrequested
  unfold Deserializes
  rw [hexec]
  split_ifs
  · simp
  · simp
  · intro hwide
    have hlength := runtime.length_ansiToUnicode _ _ (Except.ok.inj hwide)
    have hcopied := @length_strncpy (ByteArrayObject.ofList text.javaStream behind).memory
      7 length
    rw [AsciiText.wide, List.length_map] at hlength
    rw [hbytes] at h
    omega

theorem not_deserializes_nil (h : text.bytes.length = 0) :
    ¬ Deserializes runtime text behind string := by
  have haccepted := accepted_javaStream text behind
  obtain ⟨result, cursor, hexec, hresult, -⟩ := exec_deserializeContent_none runtime string
    haccepted (requested_javaStream_nil text behind h)
  obtain ⟨htype, -, -⟩ := javaStream_of_lt text behind (by omega)
  unfold Deserializes
  rw [exec_deserializeString_accepted haccepted, hexec]
  rcases hresult with rfl | ⟨-, hother, -⟩
  · simp
  · exact absurd htype hother

/-- A string that is read ends in front of a character 0. -/
theorem not_deserializes_of_mem (hzero : 0 ∈ text.chars) :
    ¬ Deserializes runtime text behind string := by
  have haccepted := accepted_javaStream text behind
  have hwide : 0 ∈ text.wide := List.mem_map.mpr ⟨0, hzero, rfl⟩
  unfold Deserializes
  cases hrequested : (ByteArrayObject.ofList text.javaStream behind).requested with
  | none =>
      obtain ⟨result, cursor, hexec, hresult, -⟩ :=
        exec_deserializeContent_none runtime string haccepted hrequested
      rw [exec_deserializeString_accepted haccepted, hexec]
      rcases hresult with rfl | ⟨-, hshort, hlong⟩
      · simp
      · rcases lt_or_ge text.bytes.length 65536 with hlt | hge
        · exact absurd (javaStream_of_lt text behind hlt).1 hshort
        · exact absurd (javaStream_of_ge text behind (by omega)) hlong
  | some length =>
      obtain ⟨e, -, hexec⟩ := exec_deserializeString_some runtime string haccepted hrequested
      rw [hexec]
      split_ifs
      · simp
      · simp
      · intro hread
        exact runtime.ansiToUnicode_terminated _ _ (Except.ok.inj hread) hwide

/-- Exactly the texts without a character 0 whose length is a positive `dxf_short_t` are read
back. -/
theorem deserializes_iff (runtime : Runtime) (text : AsciiText) (behind : ℕ → Int8)
    (string : Option WString) :
    Deserializes runtime text behind string ↔
      1 ≤ text.chars.length ∧ text.chars.length ≤ 32767 ∧ 0 ∉ text.chars := by
  constructor
  · intro hread
    have hzero : 0 ∉ text.chars := fun hmem => not_deserializes_of_mem text behind hmem hread
    have hlength := congrArg List.length (bytes_of_notMem text hzero)
    rw [← hlength]
    refine ⟨Nat.pos_of_ne_zero fun hnil => not_deserializes_nil text behind hnil hread, ?_, hzero⟩
    by_contra hlong
    rcases lt_or_ge text.bytes.length 65536 with hlt | hge
    · exact not_deserializes_of_signed text behind (by omega) hlt hread
    · exact not_deserializes_of_long text behind (by omega) hzero hread
  · rintro ⟨hpos, hle, hzero⟩
    exact deserializes_of_lt text behind hpos hle hzero

theorem not_deserializes_empty :
    ¬ Deserializes plainRuntime ⟨[], by simp⟩ (fun _ => 0) none :=
  not_deserializes_nil _ _ rfl

end DxFeed.ConfigurationDeserializer
