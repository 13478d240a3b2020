import Mathlib.Data.List.Basic
import Mathlib.Data.Nat.Bitwise
import Mathlib.Tactic

/-!
# Base64

The encoding of the login data, from `DXAlgorithms.c`.

* `dxBase64Encode`, `dxBase64Decode`, `dxBase64Length`: the functions of the source; the first two
  have no result where the source returns `false`;
* `encoded`: the text of some bytes, without a buffer;
* `dxBase64Encode_eq`: the encoder writes this text if there is room for it;
* `decode_encoded`: the decoder reads it back;
* `length_encoded`: its length is the one of `dxBase64Length`.
-/

namespace DxFeed.Base64

/-- `base64chars`. -/
def base64chars : List UInt8 :=
  "ABCDEFGHIJKLMNOPQRSTUVWXYZabcdefghijklmnopqrstuvwxyz0123456789+/".toList.map
    fun c => UInt8.ofNat c.toNat

/-- `WHITESPACE`. -/
def whitespace : ℕ := 64

/-- `EQUALS`. -/
def equals : ℕ := 65

/-- `INVALID`. -/
def invalid : ℕ := 66

/-- The padding character. -/
def pad : UInt8 := 61

/-- The table `d` of the decoder. -/
def d : List ℕ := [
  66,66,66,66,66,66,66,66,66,66,64,66,66,66,66,66,66,66,66,66,66,66,66,66,66,
  66,66,66,66,66,66,66,66,66,66,66,66,66,66,66,66,66,66,62,66,66,66,63,52,53,
  54,55,56,57,58,59,60,61,66,66,66,65,66,66,66, 0, 1, 2, 3, 4, 5, 6, 7, 8, 9,
  10,11,12,13,14,15,16,17,18,19,20,21,22,23,24,25,66,66,66,66,66,66,26,27,28,
  29,30,31,32,33,34,35,36,37,38,39,40,41,42,43,44,45,46,47,48,49,50,51,66,66,
  66,66,66,66,66,66,66,66,66,66,66,66,66,66,66,66,66,66,66,66,66,66,66,66,66,
  66,66,66,66,66,66,66,66,66,66,66,66,66,66,66,66,66,66,66,66,66,66,66,66,66,
  66,66,66,66,66,66,66,66,66,66,66,66,66,66,66,66,66,66,66,66,66,66,66,66,66,
  66,66,66,66,66,66,66,66,66,66,66,66,66,66,66,66,66,66,66,66,66,66,66,66,66,
  66,66,66,66,66,66,66,66,66,66,66,66,66,66,66,66,66,66,66,66,66,66,66,66,66,
  66,66,66,66,66,66]

/-- The character of six bits. -/
def charAt (n : ℕ) : UInt8 := base64chars.getD n 0

/-- The entry of a character in the table of the decoder. -/
def valueAt (c : UInt8) : ℕ := d.getD c.toNat invalid

/-- `out[resultIndex++] = c` behind its check; `out` is what has been written. -/
def emit (outLen : ℕ) (out : List UInt8) (c : UInt8) : Option (List UInt8) :=
  if out.length ≥ outLen then none else some (out ++ [c])

/-- The 24 bits of the bytes from `data[x]` on. -/
def groupBits (data : List UInt8) : ℕ :=
  let n := (data.getD 0 0).toNat <<< 16
  let n := if 1 < data.length then n + (data.getD 1 0).toNat <<< 8 else n
  if 2 < data.length then n + (data.getD 2 0).toNat else n

/-- The body of the loop of `dx_base64_encode`; `data` starts at `x`. -/
def encodeGroup (outLen : ℕ) (data out : List UInt8) : Option (List UInt8) := do
  let n := groupBits data
  let n0 := (n >>> 18) % 256 &&& 63
  let n1 := (n >>> 12) % 256 &&& 63
  let n2 := (n >>> 6) % 256 &&& 63
  let n3 := n % 256 &&& 63
  let out ← emit outLen out (charAt n0)
  let out ← emit outLen out (charAt n1)
  let out ← if 1 < data.length then emit outLen out (charAt n2) else some out
  if 2 < data.length then emit outLen out (charAt n3) else some out

/-- The loop of `dx_base64_encode`, three bytes at a time. -/
def encodeLoop (outLen : ℕ) : List UInt8 → List UInt8 → Option (List UInt8)
  | [], out => some out
  | [a], out => encodeGroup outLen [a] out
  | [a, b], out => encodeGroup outLen [a, b] out
  | a :: b :: c :: data, out => do
      let out ← encodeGroup outLen (a :: b :: c :: data) out
      encodeLoop outLen data out

/-- The padding loop of `dx_base64_encode`, which runs so often. -/
def padLoop (outLen : ℕ) : ℕ → List UInt8 → Option (List UInt8)
  | 0, out => some out
  | n + 1, out => do
      let out ← emit outLen out pad
      padLoop outLen n out

/-- The padding of `dx_base64_encode`. -/
def padOut (outLen padCount : ℕ) (out : List UInt8) : Option (List UInt8) :=
  if padCount > 0 then padLoop outLen (3 - padCount) out else some out

/-- `dx_base64_encode`: what it writes to a buffer of `outLen` characters. -/
def dxBase64Encode (data : List UInt8) (outLen : ℕ) : Option (List UInt8) := do
  let padCount := data.length % 3
  let out ← encodeLoop outLen data []
  let out ← padOut outLen padCount out
  return if outLen > out.length then out ++ [0] else out

/-- The local variables of `dx_base64_decode`; `out` is what has been written. -/
structure Decoding where
  iter : ℕ
  buf : ℕ
  len : ℕ
  out : List UInt8
  deriving DecidableEq

/-- A byte of `buf`. -/
def byteOf (n : ℕ) : UInt8 := UInt8.ofNat (n &&& 255)

/-- The loop of `dx_base64_decode`. -/
def decodeLoop (outLen : ℕ) : List UInt8 → Decoding → Option Decoding
  | [], s => some s
  | ch :: input, s =>
      let c := valueAt ch
      if c = whitespace then decodeLoop outLen input s
      else if c = invalid then none
      else if c = equals then some s
      else
        let buf := (s.buf <<< 6) % 2 ^ 32 ||| c
        if s.iter + 1 = 4 then
          if s.len + 3 > outLen then none
          else
            decodeLoop outLen input
              ⟨0, 0, s.len + 3, s.out ++ [byteOf (buf >>> 16), byteOf (buf >>> 8), byteOf buf]⟩
        else decodeLoop outLen input { s with iter := s.iter + 1, buf := buf }

/-- The bytes of a group that is not complete. -/
def decodeRest (outLen : ℕ) (s : Decoding) : Option Decoding :=
  if s.iter = 3 then
    if s.len + 2 > outLen then none
    else some { s with
      len := s.len + 2, out := s.out ++ [byteOf (s.buf >>> 10), byteOf (s.buf >>> 2)] }
  else if s.iter = 2 then
    if s.len + 1 > outLen then none
    else some { s with len := s.len + 1, out := s.out ++ [byteOf (s.buf >>> 4)] }
  else some s

/-- `dx_base64_decode`: what it writes, and the new value of `*out_len`. -/
def dxBase64Decode (input : List UInt8) (outLen : ℕ) : Option (List UInt8 × ℕ) := do
  let s ← decodeLoop outLen input ⟨0, 0, 0, []⟩
  let s ← decodeRest outLen s
  return (s.out, s.len)

/-- `dx_base64_length`, in 64 bits. -/
def dxBase64Length (inLen : ℕ) : ℕ :=
  ((4 * inLen % 2 ^ 64) / 3 + 3) % 2 ^ 64 &&& (2 ^ 64 - 1 - 3)

/-! ### The text of some bytes -/

/-- The four characters of 24 bits. -/
def groupChars (n : ℕ) : List UInt8 :=
  [charAt (n / 2 ^ 18 % 64), charAt (n / 2 ^ 12 % 64), charAt (n / 2 ^ 6 % 64), charAt (n % 64)]

/-- The text of some bytes without its padding. -/
def body : List UInt8 → List UInt8
  | [] => []
  | [a] => (groupChars (a.toNat * 2 ^ 16)).take 2
  | [a, b] => (groupChars (a.toNat * 2 ^ 16 + b.toNat * 2 ^ 8)).take 3
  | a :: b :: c :: data =>
      groupChars (a.toNat * 2 ^ 16 + b.toNat * 2 ^ 8 + c.toNat) ++ body data

/-- The padding behind so many bytes. -/
def padding (n : ℕ) : List UInt8 := if n % 3 > 0 then List.replicate (3 - n % 3) pad else []

/-- The text of some bytes. -/
def encoded (data : List UInt8) : List UInt8 := body data ++ padding data.length

/-- What is written behind `out`, if there is room for it. -/
def writes (outLen : ℕ) (cs out : List UInt8) : Option (List UInt8) :=
  if cs = [] ∨ out.length + cs.length ≤ outLen then some (out ++ cs) else none

variable {outLen : ℕ} {a b c : UInt8} {cs ds data out : List UInt8}

theorem length_body (data : List UInt8) : (body data).length = (4 * data.length + 2) / 3 := by
  induction data using body.induct with
  | case1 => rfl
  | case2 a => simp [body, groupChars]
  | case3 a b => simp [body, groupChars]
  | case4 a b c data ih =>
      rw [body, List.length_append, ih]
      simp only [groupChars, List.length_cons, List.length_nil]
      omega

theorem length_padding (n : ℕ) : (padding n).length = (3 - n % 3) % 3 := by
  unfold padding
  split_ifs with h
  · rw [List.length_replicate]
    omega
  · rw [List.length_nil]
    omega

theorem length_encoded_eq (data : List UInt8) :
    (encoded data).length = 4 * ((data.length + 2) / 3) := by
  rw [encoded, List.length_append, length_body, length_padding]
  omega

/-! ### The encoder -/

theorem emit_eq (c : UInt8) : emit outLen out c = writes outLen [c] out := by
  unfold emit writes
  rw [List.length_singleton]
  by_cases h : out.length + 1 ≤ outLen
  · rw [if_neg (by omega), if_pos (Or.inr h)]
  · rw [if_pos (by omega), if_neg (by simp; omega)]

@[simp] theorem writes_nil : writes outLen [] out = some out := by simp [writes]

/-- Two writes are one of both texts. -/
theorem writes_bind {f : List UInt8 → Option (List UInt8)}
    (hf : ∀ out, f out = writes outLen ds out) :
    (writes outLen cs out >>= f) = writes outLen (cs ++ ds) out := by
  cases cs with
  | nil =>
      rw [writes_nil, Option.bind_eq_bind, Option.bind_some, hf, List.nil_append]
  | cons c cs =>
      by_cases h : out.length + (c :: cs).length ≤ outLen
      · rw [writes, if_pos (Or.inr h), Option.bind_eq_bind, Option.bind_some, hf]
        cases ds with
        | nil => rw [writes_nil, List.append_nil, writes, if_pos (Or.inr h)]
        | cons e ds =>
            simp only [writes, List.length_append, List.append_assoc, Nat.add_assoc, reduceCtorEq,
              List.append_eq_nil_iff, false_or, and_false]
      · rw [writes, if_neg (by simpa using h), writes, if_neg (by simp at h ⊢; omega)]
        rfl

/-- The six bits that the encoder takes out of its 24. -/
theorem sixBits (n : ℕ) : n % 256 &&& 63 = n % 64 := by
  have hand : n % 256 &&& 63 = n % 256 % 64 := Nat.and_two_pow_sub_one_eq_mod _ 6
  omega

/-- The characters of a group: two, and one more for each byte behind the first. -/
theorem encodeGroup_eq (hdata : data ≠ []) :
    encodeGroup outLen data out =
      writes outLen ((groupChars (groupBits data)).take (min data.length 3 + 1)) out := by
  have hlength := List.length_pos_iff.mpr hdata
  unfold encodeGroup
  simp only [sixBits, Nat.shiftRight_eq_div_pow, emit_eq]
  by_cases htwo : 1 < data.length
  · by_cases hthree : 2 < data.length
    · simp only [if_pos htwo, if_pos hthree]
      rw [writes_bind fun _ => writes_bind fun _ => writes_bind fun _ => rfl,
        Nat.min_eq_right (by omega)]
      rfl
    · simp only [if_pos htwo, if_neg hthree]
      rw [writes_bind fun _ => writes_bind fun _ => writes_bind fun _ => writes_nil.symm,
        Nat.min_eq_left (by omega), show data.length = 2 by omega]
      rfl
  · have hthree : ¬ 2 < data.length := by omega
    have hskip : ∀ out : List UInt8, (do let out ← some out; some out) = writes outLen [] out :=
      fun _ => writes_nil.symm
    simp only [if_neg htwo, if_neg hthree]
    rw [writes_bind fun _ => writes_bind hskip, Nat.min_eq_left (by omega),
      show data.length = 1 by omega]
    rfl

/-- The loop writes the text without its padding. -/
theorem encodeLoop_eq (data out : List UInt8) :
    encodeLoop outLen data out = writes outLen (body data) out := by
  induction data, out using encodeLoop.induct with
  | case1 out => exact writes_nil.symm
  | case2 out a =>
      rw [encodeLoop, encodeGroup_eq (by simp)]
      simp [body, groupBits, Nat.shiftLeft_eq]
  | case3 out a b =>
      rw [encodeLoop, encodeGroup_eq (by simp)]
      simp [body, groupBits, Nat.shiftLeft_eq]
  | case4 out a b c data ih =>
      rw [encodeLoop, encodeGroup_eq (by simp), writes_bind ih, body]
      simp [groupBits, groupChars, Nat.shiftLeft_eq]

theorem padLoop_eq (n : ℕ) (out : List UInt8) :
    padLoop outLen n out = writes outLen (List.replicate n pad) out := by
  induction n generalizing out with
  | zero => exact writes_nil.symm
  | succ n ih =>
      rw [padLoop, emit_eq, writes_bind ih]
      rfl

/-- The encoder writes the text of the bytes, and a terminator behind it, if there is room for
the text. -/
theorem dxBase64Encode_eq (data : List UInt8) (outLen : ℕ) :
    dxBase64Encode data outLen =
      if (encoded data).length ≤ outLen then
        some (if (encoded data).length < outLen then encoded data ++ [0] else encoded data)
      else none := by
  have hpadding : ∀ out, padOut outLen (data.length % 3) out =
      writes outLen (padding data.length) out := by
    intro out
    unfold padOut padding
    split_ifs with h
    · exact padLoop_eq _ out
    · exact writes_nil.symm
  unfold dxBase64Encode
  simp only [encodeLoop_eq]
  rw [← bind_assoc, writes_bind hpadding]
  unfold writes
  rw [← encoded]
  by_cases hroom : (encoded data).length ≤ outLen
  · rw [if_pos hroom, if_pos (Or.inr (by simpa using hroom))]
    rfl
  · have hne : encoded data ≠ [] := by
      rintro hnil
      rw [hnil] at hroom
      exact hroom (Nat.zero_le _)
    rw [if_neg hroom, if_neg (by simpa [hne] using hroom)]
    rfl

/-! ### The decoder -/

theorem valueAt_charAt {n : ℕ} (hn : n < 64) : valueAt (charAt n) = n := by
  have htable : ∀ n < 64, valueAt (charAt n) = n := by decide +kernel
  exact htable n hn

theorem valueAt_pad : valueAt pad = equals := rfl

/-- A character of the text is shifted into the bits that are there. -/
theorem shiftIn (buf : ℕ) {n : ℕ} (hn : n < 64) (hbuf : buf < 2 ^ 18) :
    (buf <<< 6) % 2 ^ 32 ||| n = buf * 64 + n := by
  rw [Nat.shiftLeft_eq, Nat.mod_eq_of_lt (by omega), ← Nat.shiftLeft_eq,
    ← Nat.shiftLeft_add_eq_or_of_lt hn, Nat.shiftLeft_eq]

theorem byteOf_eq (n : ℕ) : byteOf n = UInt8.ofNat (n % 256) := by
  rw [byteOf, show 255 = 2 ^ 8 - 1 from rfl, Nat.and_two_pow_sub_one_eq_mod]

/-- One character of the text, which is not the last one of its group. -/
theorem decodeLoop_charAt {n : ℕ} (hn : n < 64) {s : Decoding} (hbuf : s.buf < 2 ^ 18)
    (hiter : s.iter < 3) (input : List UInt8) :
    decodeLoop outLen (charAt n :: input) s =
      decodeLoop outLen input { s with iter := s.iter + 1, buf := s.buf * 64 + n } := by
  rw [decodeLoop]
  simp only [valueAt_charAt hn, whitespace, invalid, equals, shiftIn _ hn hbuf]
  rw [if_neg (by omega), if_neg (by omega), if_neg (by omega), if_neg (by omega)]

/-- The last character of a group. -/
theorem decodeLoop_charAt_last {n : ℕ} (hn : n < 64) {s : Decoding} (hbuf : s.buf < 2 ^ 18)
    (hiter : s.iter = 3) (hroom : s.len + 3 ≤ outLen) (input : List UInt8) :
    decodeLoop outLen (charAt n :: input) s =
      decodeLoop outLen input ⟨0, 0, s.len + 3, s.out ++ [byteOf ((s.buf * 64 + n) >>> 16),
        byteOf ((s.buf * 64 + n) >>> 8), byteOf (s.buf * 64 + n)]⟩ := by
  rw [decodeLoop]
  simp only [valueAt_charAt hn, whitespace, invalid, equals, shiftIn _ hn hbuf]
  rw [if_neg (by omega), if_neg (by omega), if_neg (by omega), if_pos (by omega),
    if_neg (by omega)]

theorem decodeLoop_pad (input : List UInt8) (s : Decoding) :
    decodeLoop outLen (pad :: input) s = some s := by
  rw [decodeLoop, valueAt_pad]
  rfl

theorem byteOf_of_mod {n : ℕ} (h : n % 256 = a.toNat) : byteOf n = a := by
  rw [byteOf_eq, h, UInt8.ofNat_toNat]

/-- The byte in front of the last `k` bits. -/
theorem byteOf_shift {n : ℕ} (k : ℕ) (h : n / 2 ^ k % 256 = a.toNat) : byteOf (n >>> k) = a := by
  rw [Nat.shiftRight_eq_div_pow]
  exact byteOf_of_mod h

variable {n len : ℕ} {input : List UInt8}

theorem decodeLoop_two (hn : n < 2 ^ 24) :
    decodeLoop outLen ((groupChars n).take 2 ++ input) ⟨0, 0, len, out⟩ =
      decodeLoop outLen input ⟨2, n / 2 ^ 12, len, out⟩ := by
  have hbuf : (0 * 64 + n / 2 ^ 18 % 64) * 64 + n / 2 ^ 12 % 64 = n / 2 ^ 12 := by omega
  rw [groupChars, List.take_succ_cons, List.take_succ_cons, List.take_zero, List.cons_append,
    decodeLoop_charAt (by omega) (by simp) (by simp), List.cons_append,
    decodeLoop_charAt (by omega) (by simp only; omega) (by simp), List.nil_append]
  simp only [hbuf]

theorem decodeLoop_three (hn : n < 2 ^ 24) :
    decodeLoop outLen ((groupChars n).take 3 ++ input) ⟨0, 0, len, out⟩ =
      decodeLoop outLen input ⟨3, n / 2 ^ 6, len, out⟩ := by
  have hbuf : n / 2 ^ 12 * 64 + n / 2 ^ 6 % 64 = n / 2 ^ 6 := by omega
  have htake : (groupChars n).take 3 = (groupChars n).take 2 ++ [charAt (n / 2 ^ 6 % 64)] := rfl
  rw [htake, List.append_assoc, decodeLoop_two hn, List.singleton_append,
    decodeLoop_charAt (by omega) (by simp only; omega) (by simp)]
  simp only [hbuf]

theorem decodeLoop_four (hn : n < 2 ^ 24) (hroom : len + 3 ≤ outLen) :
    decodeLoop outLen (groupChars n ++ input) ⟨0, 0, len, out⟩ =
      decodeLoop outLen input
        ⟨0, 0, len + 3, out ++ [byteOf (n >>> 16), byteOf (n >>> 8), byteOf n]⟩ := by
  have hbuf : n / 2 ^ 6 * 64 + n % 64 = n := by omega
  have htake : groupChars n = (groupChars n).take 3 ++ [charAt (n % 64)] := rfl
  rw [htake, List.append_assoc, decodeLoop_three hn, List.singleton_append,
    decodeLoop_charAt_last (by omega) (by simp only; omega) rfl hroom]
  simp only [hbuf]

theorem padding_add_three (n : ℕ) : padding (n + 3) = padding n := by
  rw [padding, padding, Nat.add_mod_right]

/-- A text is decoded to its bytes, behind those that are there. -/
theorem decode_encoded_append (data : List UInt8) (len : ℕ) (out : List UInt8)
    (hroom : len + data.length ≤ outLen) :
    ∃ s, (decodeLoop outLen (encoded data) ⟨0, 0, len, out⟩ >>= decodeRest outLen) = some s ∧
      s.out = out ++ data ∧ s.len = len + data.length := by
  induction data using body.induct generalizing len out with
  | case1 => exact ⟨⟨0, 0, len, out⟩, rfl, (List.append_nil out).symm, rfl⟩
  | case2 a =>
      have ha := a.toNat_lt
      have hone : ¬ len + 1 > outLen := by simpa using hroom
      have hbyte : byteOf ((a.toNat * 2 ^ 16 / 2 ^ 12) >>> 4) = a :=
        byteOf_shift 4 (by omega)
      have hpad : padding [a].length = [pad, pad] := rfl
      rw [encoded, body, decodeLoop_two (by omega), hpad, decodeLoop_pad]
      refine ⟨⟨2, a.toNat * 2 ^ 16 / 2 ^ 12, len + 1, out ++ [a]⟩, ?_, rfl, rfl⟩
      simp only [Option.bind_eq_bind, Option.bind_some, decodeRest, hbyte, if_neg hone]
      rfl
  | case3 a b =>
      have ha := a.toNat_lt
      have hb := b.toNat_lt
      have htwo : ¬ len + 2 > outLen := by simpa using hroom
      have hbyte₁ : byteOf (((a.toNat * 2 ^ 16 + b.toNat * 2 ^ 8) / 2 ^ 6) >>> 10) = a :=
        byteOf_shift 10 (by omega)
      have hbyte₂ : byteOf (((a.toNat * 2 ^ 16 + b.toNat * 2 ^ 8) / 2 ^ 6) >>> 2) = b :=
        byteOf_shift 2 (by omega)
      have hpad : padding [a, b].length = [pad] := rfl
      rw [encoded, body, decodeLoop_three (by omega), hpad, decodeLoop_pad]
      refine ⟨⟨3, (a.toNat * 2 ^ 16 + b.toNat * 2 ^ 8) / 2 ^ 6, len + 2, out ++ [a, b]⟩, ?_, rfl,
        rfl⟩
      simp only [Option.bind_eq_bind, Option.bind_some, decodeRest, hbyte₁, hbyte₂, if_neg htwo]
      rfl
  | case4 a b c data ih =>
      have ha := a.toNat_lt
      have hb := b.toNat_lt
      have hc := c.toNat_lt
      simp only [List.length_cons] at hroom
      have hbyte₁ : byteOf ((a.toNat * 2 ^ 16 + b.toNat * 2 ^ 8 + c.toNat) >>> 16) = a :=
        byteOf_shift 16 (by omega)
      have hbyte₂ : byteOf ((a.toNat * 2 ^ 16 + b.toNat * 2 ^ 8 + c.toNat) >>> 8) = b :=
        byteOf_shift 8 (by omega)
      have hbyte₃ : byteOf (a.toNat * 2 ^ 16 + b.toNat * 2 ^ 8 + c.toNat) = c := by
        apply byteOf_of_mod
        omega
      obtain ⟨s, hdecode, hout, hlen⟩ := ih (len + 3) (out ++ [a, b, c]) (by omega)
      have hlength : (a :: b :: c :: data).length = data.length + 3 := rfl
      refine ⟨s, ?_, ?_, ?_⟩
      · rw [encoded, hlength, padding_add_three, body, List.append_assoc, ← encoded,
          decodeLoop_four (by omega) (by omega), hbyte₁, hbyte₂, hbyte₃]
        exact hdecode
      · rw [hout, List.append_assoc]
        rfl
      · rw [hlen, hlength]
        omega

/-- The decoder reads the text of some bytes back, if there is room for them. -/
theorem decode_encoded (data : List UInt8) {outLen : ℕ} (hroom : data.length ≤ outLen) :
    dxBase64Decode (encoded data) outLen = some (data, data.length) := by
  have hroom₀ : 0 + data.length ≤ outLen := by omega
  obtain ⟨s, hdecode, hout, hlen⟩ := decode_encoded_append data 0 [] hroom₀
  rw [dxBase64Decode, ← bind_assoc, hdecode]
  show some (s.out, s.len) = _
  rw [hout, hlen, List.nil_append, Nat.zero_add]

/-! ### The length -/

/-- The mask of `dx_base64_length` rounds down to a multiple of four. -/
theorem and_mask (n : ℕ) (hn : n < 2 ^ 64) : n &&& (2 ^ 64 - 1 - 3) = n / 4 * 4 := by
  apply Nat.eq_of_testBit_eq
  intro i
  have hmask : 2 ^ 64 - 1 - 3 = (2 ^ 62 - 1) * 2 ^ 2 := rfl
  rw [Nat.testBit_and, hmask, show n / 4 * 4 = n / 2 ^ 2 * 2 ^ 2 from rfl,
    Nat.testBit_mul_two_pow, Nat.testBit_mul_two_pow, Nat.testBit_div_two_pow,
    Nat.testBit_two_pow_sub_one]
  by_cases hi : 2 ≤ i
  · have hback : i - 2 + 2 = i := by omega
    rw [hback]
    by_cases hhigh : i < 64
    · have hlow : i - 2 < 62 := by omega
      simp [hi, hlow]
    · have hzero : n.testBit i = false :=
        Nat.testBit_lt_two_pow (hn.trans_le (Nat.pow_le_pow_right (by decide) (not_lt.mp hhigh)))
      simp [hzero]
  · simp [hi]

/-- The text has the length that the callers allocate. -/
theorem length_encoded (data : List UInt8) (hdata : data.length < 2 ^ 61) :
    (encoded data).length = dxBase64Length data.length := by
  rw [length_encoded_eq, dxBase64Length, Nat.mod_eq_of_lt (by omega), Nat.mod_eq_of_lt (by omega),
    and_mask _ (by omega)]
  omega

/-- Encoding succeeds exactly if there is room for `dx_base64_length` characters, it writes so
many, and decoding them gives the bytes back. -/
theorem decode_encode (x : List UInt8) (hx : x.length < 2 ^ 61) (outLen : ℕ) :
    ((dxBase64Encode x outLen).isSome ↔ dxBase64Length x.length ≤ outLen) ∧
      ∀ out, dxBase64Encode x outLen = some out →
        ∃ text, text.length = dxBase64Length x.length ∧
          out = (if text.length < outLen then text ++ [0] else text) ∧
          ∀ capacity, x.length ≤ capacity →
            dxBase64Decode text capacity = some (x, x.length) := by
  have hlength := length_encoded x hx
  rw [dxBase64Encode_eq, ← hlength]
  refine ⟨?_, fun out hout => ?_⟩
  · split_ifs with hroom <;> simp [hroom]
  · split_ifs at hout with hroom hterminated
    · refine ⟨encoded x, rfl, ?_, fun capacity hcapacity => decode_encoded x hcapacity⟩
      rw [if_pos hterminated]
      exact (Option.some.inj hout).symm
    · refine ⟨encoded x, rfl, ?_, fun capacity hcapacity => decode_encoded x hcapacity⟩
      rw [if_neg hterminated]
      exact (Option.some.inj hout).symm

theorem decode_encode_two_bytes :
    ((dxBase64Encode [77, 97] 5).isSome ↔ dxBase64Length 2 ≤ 5) ∧
      ∀ out, dxBase64Encode [77, 97] 5 = some out →
        ∃ text, text.length = dxBase64Length 2 ∧
          out = (if text.length < 5 then text ++ [0] else text) ∧
          ∀ capacity, 2 ≤ capacity → dxBase64Decode text capacity = some ([77, 97], 2) :=
  decode_encode [77, 97] (by decide) 5

example : dxBase64Encode [77, 97] 5 = some [84, 87, 69, 61, 0] := by decide +kernel

end DxFeed.Base64
