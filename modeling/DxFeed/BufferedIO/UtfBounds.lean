import DxFeed.BufferedIO.Reach
import DxFeed.BufferedIO.Utf

/-!
# Where a text is written

`dx_read_utf_sequence` allocates one unit more than the length of the text, which counts bytes or
characters, and a character may take two units.

* `writeUtfLoop`, `writeUtfSequence`: `dx_read_utf_sequence` with a note of every place of the
  buffer that it writes to; without the notes it is `readUtfSequence`;
* `StaysInside`: no place is behind the last unit;
* `wireChars`, `UnitsFit`: the characters in front of the position, and when their units fit;
* `staysInside_iff`: in bytes the text always fits, and in characters if and only if its units do.
-/

namespace DxFeed.BufferedIO

open Call FixedWidth

/-! ### Notes of writes -/

/-- Calls on the input that note the places of the buffer that they write to. -/
abbrev NotedCall := Call ErrorCode (InputContext × List ℕ)

/-- A call that writes nothing to the buffer. -/
def unnoted {α : Type} (x : ReadCall α) : NotedCall α :=
  zoom Prod.fst (fun s input => (input, s.2)) x

/-- Units are written from the place `count` on. -/
def noteUnits (count units : ℕ) : NotedCall Unit :=
  modify fun s => (s.1, s.2 ++ List.range' count units)

/-- The loop of `dx_read_utf_sequence`, and the end of the sequence. -/
def writeUtfLoop (lenInChars : Bool) (utflen : ℤ) (buffer : WString) : NotedCall WString :=
  if utflen > 0 then do
    let c ← unnoted readByte
    if 0 ≤ c then do
      noteUnits buffer.length 1
      writeUtfLoop lenInChars (utflen - 1) (buffer ++ [UInt16.ofNat (octet c)])
    else if octet c &&& 0xE0 = 0xC0 then do
      let tmpCh ← unnoted (readUtf2 c)
      noteUnits buffer.length 1
      writeUtfLoop lenInChars (utflen - lengthStep lenInChars 2) (buffer ++ [tmpCh])
    else if octet c &&& 0xF0 = 0xE0 then do
      let tmpCh ← unnoted (readUtf3 c)
      noteUnits buffer.length 1
      writeUtfLoop lenInChars (utflen - lengthStep lenInChars 3) (buffer ++ [tmpCh])
    else if octet c &&& 0xF8 = 0xF0 then do
      let tmpInt ← unnoted (readUtf4 c)
      let chars ← unnoted
        (codePointToUtf16Chars tmpInt buffer.length (utflen - lengthStep lenInChars 4))
      noteUnits buffer.length chars.length
      writeUtfLoop lenInChars (utflen - lengthStep lenInChars 4) (buffer ++ chars)
    else throw .badUtfDataFormatServer
  else if utflen < 0 then throw .badUtfDataFormatServer
  else do
    noteUnits buffer.length 1
    return buffer
termination_by utflen.toNat
decreasing_by
  · exact toNat_sub_lt ‹_› one_pos
  all_goals exact toNat_sub_lt ‹_› (lengthStep_pos lenInChars (by norm_num))

/-- `dx_read_utf_sequence`. -/
def writeUtfSequence (utflen : ℤ) (lenInChars : Bool) : NotedCall WString :=
  if utflen = 0 then return [] else writeUtfLoop lenInChars utflen []

/-- `x` is `y` with notes behind those that there are. -/
def Notes {α : Type} (x : NotedCall α) (y : ReadCall α) : Prop :=
  ∀ input notes, ∃ notes', exec x (input, notes) =
    ((exec y input).1, ((exec y input).2, notes ++ notes'))

section Notes

variable {α β : Type}

theorem notes_unnoted (x : ReadCall α) : Notes (unnoted x) x :=
  fun _ notes => ⟨[], by rw [List.append_nil]; rfl⟩

theorem notes_throw (e : ErrorCode) : Notes (throw e : NotedCall α) (throw e) :=
  fun _ notes => ⟨[], by rw [List.append_nil]; rfl⟩

theorem Notes.bind {x : NotedCall α} {y : ReadCall α} {f : α → NotedCall β} {g : α → ReadCall β}
    (h : Notes x y) (hf : ∀ a, Notes (f a) (g a)) : Notes (x >>= f) (y >>= g) := by
  intro input notes
  obtain ⟨notes', hx⟩ := h input notes
  rcases hy : exec y input with ⟨e | a, input'⟩ <;> rw [hy] at hx
  · exact ⟨notes', by rw [exec_bind_error hx, exec_bind_error hy]⟩
  · obtain ⟨notes'', hrest⟩ := hf a input' (notes ++ notes')
    exact ⟨notes' ++ notes'', by rw [exec_bind_ok hx, exec_bind_ok hy, hrest, List.append_assoc]⟩

theorem Notes.note {x : NotedCall α} {y : ReadCall α} (h : Notes x y) (count units : ℕ) :
    Notes (do noteUnits count units; x) y := by
  intro input notes
  obtain ⟨notes', hx⟩ := h input (notes ++ List.range' count units)
  rw [List.append_assoc] at hx
  exact ⟨_, hx⟩

theorem Notes.ite {p : Prop} [Decidable p] {x x' : NotedCall α} {y y' : ReadCall α}
    (h : Notes x y) (h' : Notes x' y') : Notes (if p then x else x') (if p then y else y') := by
  split_ifs
  · exact h
  · exact h'

end Notes

/-- The reader with notes is the reader. -/
theorem notes_readUtfLoop (lenInChars : Bool) (utflen : ℤ) (buffer : WString) :
    Notes (writeUtfLoop lenInChars utflen buffer) (readUtfLoop lenInChars utflen buffer) := by
  induction utflen, buffer using readUtfLoop.induct lenInChars with
  | case1 utflen buffer hpos ih₁ ih₂ ih₃ ih₄ =>
      rw [writeUtfLoop, readUtfLoop, if_pos hpos, if_pos hpos]
      refine (notes_unnoted readByte).bind fun c => Notes.ite ?_ (Notes.ite ?_ (Notes.ite ?_
        (Notes.ite ?_ (notes_throw _))))
      · exact (ih₁ c).note _ _
      · exact (notes_unnoted _).bind fun tmpCh => (ih₂ tmpCh).note _ _
      · exact (notes_unnoted _).bind fun tmpCh => (ih₃ tmpCh).note _ _
      · exact (notes_unnoted _).bind fun tmpInt => (notes_unnoted _).bind fun chars =>
          (ih₄ chars).note _ _
  | case2 utflen buffer hpos hneg =>
      rw [writeUtfLoop, readUtfLoop, if_neg hpos, if_neg hpos, if_pos hneg, if_pos hneg]
      exact notes_throw _
  | case3 utflen buffer hpos hneg =>
      rw [writeUtfLoop, readUtfLoop, if_neg hpos, if_neg hpos, if_neg hneg, if_neg hneg]
      exact fun input notes => ⟨List.range' buffer.length 1, rfl⟩

theorem notes_readUtfSequence (utflen : ℤ) (lenInChars : Bool) :
    Notes (writeUtfSequence utflen lenInChars) (readUtfSequence utflen lenInChars) := by
  refine Notes.ite (fun _ notes => ⟨[], by rw [List.append_nil]; rfl⟩) ?_
  exact notes_readUtfLoop lenInChars utflen []

/-! ### Inside of the buffer -/

/-- The buffer for a text has one unit more than the length of the text, and no place behind its
last unit is written to. -/
def StaysInside (utflen : ℕ) (lenInChars : Bool) (input : InputContext) : Prop :=
  ∀ i ∈ (exec (writeUtfSequence utflen lenInChars) (input, [])).2.2, i ≤ utflen

/-- All places that are noted after a call are at most `bound`. -/
def Within {α : Type} (bound : ℕ) (x : NotedCall α) (s : InputContext × List ℕ) : Prop :=
  ∀ i ∈ (exec x s).2.2, i ≤ bound

/-- Behind a note the places of the note count as well. -/
theorem forall_mem_note {bound count units : ℕ} {notes : List ℕ} :
    (∀ i ∈ notes ++ List.range' count units, i ≤ bound) ↔
      (∀ i ∈ notes, i ≤ bound) ∧ (units = 0 ∨ count + units ≤ bound + 1) := by
  simp only [List.mem_append, List.mem_range'_1, or_imp, forall_and]
  refine and_congr_right fun _ => ⟨fun h => ?_, fun h i hi => by omega⟩
  by_contra hover
  have hlast := h (count + units - 1) (by omega)
  omega

/-- The units that a code point takes. -/
theorem length_of_codePointToUtf16Chars {codePoint pos : ℕ} {length : ℤ} {input out : InputContext}
    {chars : WString}
    (h : exec (codePointToUtf16Chars codePoint pos length) input = (.ok chars, out)) :
    out = input ∧ chars.length = (if codePoint < 0x10000 then 1 else 2) ∧
      (pos : ℤ) + chars.length ≤ length := by
  unfold codePointToUtf16Chars at h
  split_ifs at h with hmax hbmp hone htwo
  · exact nomatch (Prod.mk.inj h).1
  · exact nomatch (Prod.mk.inj h).1
  · obtain ⟨hchars, rfl⟩ := Prod.mk.inj h
    obtain rfl := Except.ok.inj hchars
    rw [if_pos hbmp]
    exact ⟨rfl, rfl, by simp only [List.length_singleton]; omega⟩
  · exact nomatch (Prod.mk.inj h).1
  · obtain ⟨hchars, rfl⟩ := Prod.mk.inj h
    obtain rfl := Except.ok.inj hchars
    rw [if_neg hbmp]
    have hpair : (codePointToSurrogates codePoint).length = 2 := rfl
    exact ⟨rfl, hpair, by rw [hpair]; omega⟩

section Within

variable {α β : Type} {bound : ℕ} {input : InputContext} {notes : List ℕ}

/-- What holds of every result of a call that has succeeded. -/
theorem forall_eq_ok {P : α → InputContext → Prop} {a : α} {out : InputContext} :
    (∀ a' out', ((.ok a, out) : Except ErrorCode α × InputContext) = (.ok a', out') → P a' out') ↔
      P a out := by
  constructor
  · exact fun h => h a out rfl
  · intro h a' out' heq
    obtain ⟨ha, rfl⟩ := Prod.mk.inj heq
    obtain rfl := Except.ok.inj ha
    exact h

/-- Nothing is said of the results of a call that has failed. -/
theorem forall_eq_error {P : α → InputContext → Prop} {e : ErrorCode} {out : InputContext} :
    (∀ a' out', ((.error e, out) : Except ErrorCode α × InputContext) = (.ok a', out') → P a' out') ↔
      True :=
  ⟨fun _ => trivial, fun _ _ _ h => nomatch (Prod.mk.inj h).1⟩

theorem within_bind_unnoted {x : ReadCall α} {f : α → NotedCall β}
    (hnotes : ∀ i ∈ notes, i ≤ bound) :
    Within bound (unnoted x >>= f) (input, notes) ↔
      ∀ a out, exec x input = (.ok a, out) → Within bound (f a) (out, notes) := by
  rcases hexec : exec x input with ⟨e | a, out⟩
  · have hx : exec (unnoted x) (input, notes) = (.error e, (out, notes)) := by
      rw [unnoted, exec_zoom, hexec]
    rw [Within, exec_bind_error hx, forall_eq_error]
    exact ⟨fun _ => trivial, fun _ => hnotes⟩
  · have hx : exec (unnoted x) (input, notes) = (.ok a, (out, notes)) := by
      rw [unnoted, exec_zoom, hexec]
    rw [Within, exec_bind_ok hx, forall_eq_ok]
    rfl

theorem Within.note {x : NotedCall β} {count units : ℕ}
    (h : Within bound x (input, notes ++ List.range' count units)) :
    Within bound (do noteUnits count units; x) (input, notes) := h

end Within

/-- With a length in bytes, the units in the buffer and the bytes that are left are never more than
the length. -/
theorem within_writeUtfLoop_bytes {bound : ℕ} (utflen : ℤ) (buffer : WString) (input : InputContext)
    (notes : List ℕ) (hnotes : ∀ i ∈ notes, i ≤ bound) (hfits : buffer.length + utflen ≤ bound) :
    Within bound (writeUtfLoop false utflen buffer) (input, notes) := by
  induction utflen, buffer using readUtfLoop.induct false generalizing input notes with
  | case1 utflen buffer hpos ih₁ ih₂ ih₃ ih₄ =>
      have hone : ∀ i ∈ notes ++ List.range' buffer.length 1, i ≤ bound :=
        forall_mem_note.mpr ⟨hnotes, Or.inr (by omega)⟩
      have hstep : ∀ n : ℕ, lengthStep false n = n := fun n => rfl
      have hlength : ∀ chars : WString, ((buffer ++ chars).length : ℤ) =
          buffer.length + chars.length := by simp
      rw [writeUtfLoop, if_pos hpos]
      refine (within_bind_unnoted hnotes).mpr fun c out _ => ?_
      split_ifs
      · exact (ih₁ c out _ hone (by rw [hlength]; simp; omega)).note
      · refine (within_bind_unnoted hnotes).mpr fun tmpCh out _ => ?_
        exact (ih₂ tmpCh out _ hone (by rw [hlength, hstep]; simp; omega)).note
      · refine (within_bind_unnoted hnotes).mpr fun tmpCh out _ => ?_
        exact (ih₃ tmpCh out _ hone (by rw [hlength, hstep]; simp; omega)).note
      · refine (within_bind_unnoted hnotes).mpr fun tmpInt out _ => ?_
        refine (within_bind_unnoted hnotes).mpr fun chars out hchars => ?_
        obtain ⟨-, hunits, hroom⟩ := length_of_codePointToUtf16Chars hchars
        rw [hstep] at hroom
        have htwo : chars.length ≤ 2 := by
          rw [hunits]
          split_ifs <;> norm_num
        refine (ih₄ chars out _ (forall_mem_note.mpr ⟨hnotes, Or.inr (by omega)⟩) ?_).note
        rw [hlength, hstep]
        omega
      · exact hnotes
  | case2 utflen buffer hpos hneg =>
      rw [writeUtfLoop, if_neg hpos, if_pos hneg]
      exact hnotes
  | case3 utflen buffer hpos hneg =>
      rw [writeUtfLoop, if_neg hpos, if_neg hneg]
      exact forall_mem_note.mpr ⟨hnotes, Or.inr (by omega)⟩

/-- A text whose length is in bytes stays inside of its buffer. -/
theorem staysInside_bytes {utflen : ℕ} (hpos : 0 < utflen) (input : InputContext) :
    StaysInside utflen false input := by
  have hne : ((utflen : ℕ) : ℤ) ≠ 0 := by omega
  rw [StaysInside, writeUtfSequence, if_neg hne]
  exact within_writeUtfLoop_bytes utflen [] input [] (by simp) (by simp)

/-! ### Characters in front of the position -/

/-- A character: its code point, and the number of its bytes. -/
structure WireChar where
  codePoint : ℕ
  bytes : ℕ
  deriving DecidableEq, Repr

/-- The number of units that a character takes, and the units. -/
def WireChar.units (c : WireChar) : ℕ := if c.codePoint < 0x10000 then 1 else 2
def WireChar.chars (c : WireChar) : WString :=
  if c.codePoint < 0x10000 then [UInt16.ofNat c.codePoint] else codePointToSurrogates c.codePoint

theorem WireChar.length_chars (c : WireChar) : c.chars.length = c.units := by
  rw [WireChar.chars, WireChar.units]
  split_ifs <;> rfl

/-- `dx_read_utf_char`, with the number of bytes that it takes. -/
def readWireChar : ReadCall WireChar := do
  let start ← get
  let codePoint ← readUtfChar
  let stop ← get
  return ⟨codePoint, stop.currentInBufferPosition - start.currentInBufferPosition⟩

/-- The characters in front of the position, and at most `n` of them. -/
def wireChars : ℕ → InputContext → List WireChar
  | 0, _ => []
  | n + 1, input =>
      match exec readWireChar input with
      | (.ok c, input') => c :: wireChars n input'
      | (.error _, _) => []

theorem steps_readShort : Steps 2 readShort :=
  (steps_validateBuffer 2).bind fun _ => steps_nextByte.bind fun _ => steps_nextByte.bind fun _ =>
    steps_pure _

theorem steps_readUtf2 (c : Int8) : Steps 1 (readUtf2 c) :=
  steps_readByte.bind fun _ => (steps_throw _).ite (steps_pure _)

theorem steps_readUtf3 (c : Int8) : Steps 2 (readUtf3 c) :=
  steps_readShort.bind fun _ => (steps_throw _).ite (steps_pure _)

theorem steps_readUtf4 (c : Int8) : Steps 3 (readUtf4 c) :=
  steps_readByte.bind fun _ => steps_readShort.bind fun _ =>
    (steps_throw _).ite ((steps_throw _).ite (steps_pure _))

/-- The units that characters take. -/
def unitsOf (chars : List WireChar) : ℕ := (chars.map WireChar.units).sum

/-- A character of four bytes is accepted if its units and those in front of it are no more than the
characters behind it may be. -/
def Accepted (utflen : ℕ) (chars : List WireChar) (k : ℕ) : Prop :=
  ∀ j < k, ∀ c, chars[j]? = some c → c.bytes = 4 → unitsOf (chars.take (j + 1)) + (j + 1) ≤ utflen

/-- Where the text ends behind characters that are accepted, or goes on with a character of less than
four bytes, there are no more units than the length of the text. -/
def UnitsFit (utflen : ℕ) (chars : List WireChar) : Prop :=
  ∀ k ≤ chars.length, Accepted utflen chars k →
    (k = utflen ∨ ∃ c, chars[k]? = some c ∧ c.bytes ≠ 4) → unitsOf (chars.take k) ≤ utflen

/-- A character is read behind its first byte. -/
theorem exec_readUtfChar {input mid : InputContext} {c : Int8}
    (hbyte : exec readByte input = (.ok c, mid)) :
    exec readUtfChar input = exec (if 0 ≤ c then return octet c
      else if octet c &&& 0xE0 = 0xC0 then return (← readUtf2 c).toNat
      else if octet c &&& 0xF0 = 0xE0 then return (← readUtf3 c).toNat
      else if octet c &&& 0xF8 = 0xF0 then readUtf4 c
      else throw .badUtfDataFormatServer) mid := by
  rw [readUtfChar, exec_bind_ok hbyte]

theorem exec_readWireChar (input : InputContext) :
    exec readWireChar input =
      match exec readUtfChar input with
      | (.ok codePoint, out) =>
          (.ok ⟨codePoint, out.currentInBufferPosition - input.currentInBufferPosition⟩, out)
      | (.error e, out) => (.error e, out) := by
  rw [readWireChar, exec_bind_ok (exec_get _)]
  rcases hexec : exec readUtfChar input with ⟨e | codePoint, out⟩
  · rw [exec_bind_error hexec]
  · rw [exec_bind_ok hexec, exec_bind_ok (exec_get _)]
    rfl

/-- A character that is read behind its first byte. -/
theorem exec_readWireChar_bind {α : Type} {n : ℕ} {c : Int8} {input mid : InputContext}
    {x : ReadCall α} {f : α → ℕ} (hbyte : exec readByte input = (.ok c, mid)) (hx : Steps n x)
    (hchar : exec readUtfChar input = exec (do return f (← x)) mid) :
    exec readWireChar input =
      match exec x mid with
      | (.ok a, out) => (.ok ⟨f a, n + 1⟩, out)
      | (.error e, out) => (.error e, out) := by
  rw [exec_readWireChar, hchar]
  rcases hexec : exec x mid with ⟨e | a, out⟩
  · rw [exec_bind_error hexec]
  · have hout := hx mid out a hexec
    have hmid := steps_readByte input mid c hbyte
    have hbytes : out.currentInBufferPosition - input.currentInBufferPosition = n + 1 := by omega
    rw [exec_bind_ok hexec]
    simp only [exec_pure, hbytes]

/-! ### A length in characters -/

/-- A character of one unit and of less than four bytes. -/
theorem forall_readWireChar_unit {α : Type} {n : ℕ} (hn : n + 1 ≠ 4) {c : Int8}
    {input mid : InputContext} {x : ReadCall α} {f : α → UInt16} {P : WString → InputContext → Prop}
    (r count : ℕ) (hbyte : exec readByte input = (.ok c, mid)) (hx : Steps n x)
    (hchar : exec readUtfChar input = exec (do return (f (← x)).toNat) mid) :
    (∀ a out, exec x mid = (.ok a, out) → P [f a] out) ↔
      ∀ c out, exec readWireChar input = (.ok c, out) →
        (c.bytes = 4 → count + c.units ≤ r) → P c.chars out := by
  have hread := exec_readWireChar_bind (f := fun a => (f a).toNat) hbyte hx hchar
  have hbmp : ∀ a, (f a).toNat < 0x10000 := fun a => (f a).toNat_lt
  rcases hexec : exec x mid with ⟨e | a, out⟩ <;> rw [hexec] at hread <;> rw [hread]
  · rw [forall_eq_error, forall_eq_error]
  · have hchars : WireChar.chars ⟨(f a).toNat, n + 1⟩ = [f a] := by
      rw [WireChar.chars, if_pos (hbmp a), UInt16.ofNat_toNat]
    rw [forall_eq_ok, forall_eq_ok, hchars]
    exact ⟨fun h _ => h, fun h => h fun hbytes => absurd hbytes hn⟩

theorem le_of_readUtf4 {c : Int8} {mid out : InputContext} {codePoint : ℕ}
    (h : exec (readUtf4 c) mid = (.ok codePoint, out)) : codePoint ≤ 0x10FFFF := by
  obtain ⟨second, mid₁, -, hrest⟩ := exec_bind_eq_ok h
  obtain ⟨tail, mid₂, -, hrest⟩ := exec_bind_eq_ok hrest
  split_ifs at hrest with hbad
  · exact nomatch (Prod.mk.inj hrest).1
  · dsimp only at hrest
    split_ifs at hrest with hmax
    · exact nomatch (Prod.mk.inj hrest).1
    · obtain rfl := Except.ok.inj (Prod.mk.inj hrest).1
      exact Nat.le_of_not_lt hmax

/-- The units of a code point are put into a buffer if there is room for them. -/
theorem exec_codePointToUtf16Chars {c : WireChar} (hmax : c.codePoint ≤ 0x10FFFF) (count r : ℕ)
    (out : InputContext) :
    exec (codePointToUtf16Chars c.codePoint count r) out =
      if count + c.units ≤ r then (.ok c.chars, out) else (.error .indexOutOfBounds, out) := by
  rw [codePointToUtf16Chars, if_neg (Nat.not_lt.mpr hmax), WireChar.units, WireChar.chars]
  by_cases hbmp : c.codePoint < 0x10000
  · simp only [hbmp, if_true]
    by_cases hroom : count + 1 ≤ r
    · rw [if_neg (by omega), if_pos hroom]
      rfl
    · rw [if_pos (by omega), if_neg hroom]
      rfl
  · simp only [hbmp, if_false]
    by_cases hroom : count + 2 ≤ r
    · rw [if_neg (by omega), if_pos hroom]
      rfl
    · rw [if_pos (by omega), if_neg hroom]
      rfl

/-- A character of four bytes. -/
theorem forall_readWireChar_four {c : Int8} {input mid : InputContext}
    {P : WString → InputContext → Prop} {r count : ℕ}
    (hbyte : exec readByte input = (.ok c, mid))
    (hchar : exec readUtfChar input = exec (readUtf4 c) mid) :
    (∀ codePoint out, exec (readUtf4 c) mid = (.ok codePoint, out) → ∀ chars out',
        exec (codePointToUtf16Chars codePoint count r) out = (.ok chars, out') → P chars out') ↔
      ∀ c out, exec readWireChar input = (.ok c, out) →
        (c.bytes = 4 → count + c.units ≤ r) → P c.chars out := by
  have hread := exec_readWireChar_bind (f := fun codePoint => codePoint) hbyte (steps_readUtf4 c)
    (by rw [hchar, bind_pure])
  rcases hexec : exec (readUtf4 c) mid with ⟨e | codePoint, out⟩ <;> rw [hexec] at hread <;>
    rw [hread]
  · rw [forall_eq_error, forall_eq_error]
  · have hchars := exec_codePointToUtf16Chars (c := ⟨codePoint, 4⟩) (le_of_readUtf4 hexec) count r out
    dsimp only at hchars
    rw [forall_eq_ok, forall_eq_ok, hchars]
    split_ifs with hroom
    · rw [forall_eq_ok]
      exact ⟨fun h _ => h, fun h => h fun _ => hroom⟩
    · rw [forall_eq_error]
      exact ⟨fun _ h => absurd (h rfl) hroom, fun _ => trivial⟩

/-- What was noted before a call is within the bound as well. -/
theorem Within.of_notes {bound : ℕ} {lenInChars : Bool} {utflen : ℤ} {buffer : WString}
    {input : InputContext} {notes : List ℕ}
    (h : Within bound (writeUtfLoop lenInChars utflen buffer) (input, notes)) :
    ∀ i ∈ notes, i ≤ bound := by
  obtain ⟨notes', hexec⟩ := notes_readUtfLoop lenInChars utflen buffer input notes
  rw [Within, hexec] at h
  exact fun i hi => h i (List.mem_append_left _ hi)

/-- A round of the loop reads a character, and goes on behind the units of it. -/
theorem within_writeUtfLoop_succ {bound r : ℕ} {buffer : WString} {input : InputContext}
    {notes : List ℕ} (hnotes : ∀ i ∈ notes, i ≤ bound) :
    Within bound (writeUtfLoop true (r + 1 : ℕ) buffer) (input, notes) ↔
      ∀ c out, exec readWireChar input = (.ok c, out) →
        (c.bytes = 4 → buffer.length + c.units ≤ r) →
          Within bound (writeUtfLoop true r (buffer ++ c.chars))
            (out, notes ++ List.range' buffer.length c.chars.length) := by
  have hlen : ∀ n : ℕ, ((r + 1 : ℕ) : ℤ) - lengthStep true n = r := by
    intro n
    simp [lengthStep]
  have hone : ((r + 1 : ℕ) : ℤ) - 1 = r := by simp
  rw [writeUtfLoop, if_pos (by omega), within_bind_unnoted hnotes]
  simp only [hlen, hone]
  rcases hbyte : exec readByte input with ⟨e | c, mid⟩
  · have hread : exec readWireChar input = (.error e, mid) := by
      rw [exec_readWireChar, readUtfChar, exec_bind_error hbyte]
    rw [hread, forall_eq_error, forall_eq_error]
  · have hchar := exec_readUtfChar hbyte
    rw [forall_eq_ok]
    split_ifs at hchar ⊢ with h₁ h₂ h₃ h₄
    · -- a byte without a sign
      have hoctet : (UInt16.ofNat (octet c)).toNat = octet c :=
        UInt16.toNat_ofNat_of_lt' ((octet_lt c).trans (by decide))
      have hunit := forall_readWireChar_unit
        (f := fun _ : Unit => UInt16.ofNat (octet c))
        (P := fun chars out => Within bound (writeUtfLoop true r (buffer ++ chars))
          (out, notes ++ List.range' buffer.length chars.length))
        (by norm_num) r buffer.length hbyte (steps_pure ()) (by rw [hchar, hoctet]; rfl)
      rw [← hunit]
      exact ⟨fun h _ out heq => (Prod.mk.inj heq).2 ▸ h, fun h => h () mid rfl⟩
    · rw [within_bind_unnoted hnotes]
      exact forall_readWireChar_unit (f := fun tmpCh => tmpCh) (P := fun chars out =>
        Within bound (writeUtfLoop true r (buffer ++ chars))
          (out, notes ++ List.range' buffer.length chars.length))
        (by norm_num) r buffer.length hbyte (steps_readUtf2 c) hchar
    · rw [within_bind_unnoted hnotes]
      exact forall_readWireChar_unit (f := fun tmpCh => tmpCh) (P := fun chars out =>
        Within bound (writeUtfLoop true r (buffer ++ chars))
          (out, notes ++ List.range' buffer.length chars.length))
        (by norm_num) r buffer.length hbyte (steps_readUtf3 c) hchar
    · rw [within_bind_unnoted hnotes]
      simp only [within_bind_unnoted hnotes]
      exact forall_readWireChar_four hbyte hchar
    · have hread : exec readWireChar input = (.error .badUtfDataFormatServer, mid) := by
        rw [exec_readWireChar, hchar]
        rfl
      rw [hread, forall_eq_error]
      exact ⟨fun _ => trivial, fun _ => hnotes⟩

/-- Only a character of four bytes takes two units. -/
theorem units_of_readWireChar {input out : InputContext} {c : WireChar}
    (h : exec readWireChar input = (.ok c, out)) : c.bytes = 4 ∨ c.units = 1 := by
  by_contra hc
  push Not at hc
  have hfour : c.bytes = 4 → 0 + c.units ≤ 0 := fun hbytes => absurd hbytes hc.1
  rw [← c.length_chars] at hc
  rcases hbyte : exec readByte input with ⟨e | b, mid⟩
  · rw [exec_readWireChar, readUtfChar, exec_bind_error hbyte] at h
    exact nomatch (Prod.mk.inj h).1
  · have hchar := exec_readUtfChar hbyte
    split_ifs at hchar with h₁ h₂ h₃ h₄
    · have hbmp : (UInt16.ofNat (octet b)).toNat = octet b :=
        UInt16.toNat_ofNat_of_lt' ((octet_lt b).trans (by decide))
      have hunit := forall_readWireChar_unit (f := fun _ : Unit => UInt16.ofNat (octet b))
        (P := fun chars _ => chars.length = 1) (by norm_num) 0 0 hbyte (steps_pure ())
        (by rw [hchar, hbmp]; rfl)
      exact hc.2 (hunit.mp (fun _ _ _ => rfl) c out h hfour)
    · have hunit := forall_readWireChar_unit (f := fun tmpCh => tmpCh)
        (P := fun chars _ => chars.length = 1) (by norm_num) 0 0 hbyte (steps_readUtf2 b) hchar
      exact hc.2 (hunit.mp (fun _ _ _ => rfl) c out h hfour)
    · have hunit := forall_readWireChar_unit (f := fun tmpCh => tmpCh)
        (P := fun chars _ => chars.length = 1) (by norm_num) 0 0 hbyte (steps_readUtf3 b) hchar
      exact hc.2 (hunit.mp (fun _ _ _ => rfl) c out h hfour)
    · have hread := exec_readWireChar_bind (f := fun codePoint => codePoint) hbyte
        (steps_readUtf4 b) (by rw [hchar, bind_pure])
      rw [h] at hread
      split at hread
      · exact hc.1 (by rw [Except.ok.inj (Prod.mk.inj hread).1])
      · exact nomatch (Prod.mk.inj hread).1
    · rw [exec_readWireChar, hchar] at h
      exact nomatch (Prod.mk.inj h).1

/-- `UnitsFit` behind `count` units, with `r` characters to come. -/
def FitFrom (bound r count : ℕ) (chars : List WireChar) : Prop :=
  ∀ k ≤ chars.length,
    (∀ j < k, ∀ c, chars[j]? = some c → c.bytes = 4 →
      count + unitsOf (chars.take (j + 1)) + (j + 1) ≤ r) →
    (k = r ∨ ∃ c, chars[k]? = some c ∧ c.bytes ≠ 4) → count + unitsOf (chars.take k) ≤ bound

theorem fitFrom_zero (utflen : ℕ) (chars : List WireChar) :
    FitFrom utflen utflen 0 chars ↔ UnitsFit utflen chars := by
  simp only [FitFrom, UnitsFit, Accepted, Nat.zero_add]

theorem unitsOf_cons (c : WireChar) (chars : List WireChar) :
    unitsOf (c :: chars) = c.units + unitsOf chars := by
  rw [unitsOf, List.map_cons, List.sum_cons, unitsOf]

theorem fitFrom_cons {bound r count : ℕ} {c : WireChar} {chars : List WireChar} :
    FitFrom bound (r + 1) count (c :: chars) ↔
      (c.bytes ≠ 4 → count ≤ bound) ∧
        ((c.bytes = 4 → count + c.units ≤ r) → FitFrom bound r (count + c.units) chars) := by
  constructor
  · intro h
    refine ⟨fun hbytes => ?_, fun hroom k hk haccepted hend => ?_⟩
    · have hzero := h 0 (Nat.zero_le _) (fun j hj => absurd hj (Nat.not_lt_zero j))
        (Or.inr ⟨c, rfl, hbytes⟩)
      simpa [unitsOf] using hzero
    · have hnext := h (k + 1) (Nat.succ_le_succ hk) (fun j hj c' hc' hbytes => ?_) ?_
      · rw [List.take_succ_cons, unitsOf_cons] at hnext
        omega
      · rw [List.take_succ_cons, unitsOf_cons]
        cases j with
        | zero =>
            obtain rfl := Option.some.inj hc'
            have hroom' := hroom hbytes
            simp only [List.take_zero, unitsOf, List.map_nil, List.sum_nil]
            omega
        | succ j =>
            have hj' := haccepted j (Nat.lt_of_succ_lt_succ hj) c' hc' hbytes
            omega
      · exact hend.imp (congrArg (· + 1)) id
  · rintro ⟨hfirst, hrest⟩ k hk haccepted hend
    cases k with
    | zero =>
        rcases hend with hend | ⟨c', hc', hbytes⟩
        · exact nomatch hend
        · obtain rfl := Option.some.inj hc'
          simpa [unitsOf] using hfirst hbytes
    | succ k =>
        have hroom : c.bytes = 4 → count + c.units ≤ r := by
          intro hbytes
          have h := haccepted 0 (Nat.zero_lt_succ k) c rfl hbytes
          rw [List.take_succ_cons, unitsOf_cons] at h
          simp only [List.take_zero, unitsOf, List.map_nil, List.sum_nil] at h
          omega
        have h := hrest hroom k (Nat.le_of_succ_le_succ hk) (fun j hj c' hc' hbytes => ?_)
          (hend.imp Nat.succ.inj id)
        · rw [List.take_succ_cons, unitsOf_cons]
          omega
        · have hj' := haccepted (j + 1) (Nat.succ_lt_succ hj) c' hc' hbytes
          rw [List.take_succ_cons, unitsOf_cons] at hj'
          omega

/-- With a length in characters, the units in the buffer are those of the characters in front. -/
theorem within_writeUtfLoop_chars {bound : ℕ} (r : ℕ) (hr : r ≤ bound) (buffer : WString)
    (input : InputContext) (notes : List ℕ) (hnotes : ∀ i ∈ notes, i ≤ bound) :
    Within bound (writeUtfLoop true r buffer) (input, notes) ↔
      FitFrom bound r buffer.length (wireChars r input) := by
  induction r generalizing buffer input notes with
  | zero =>
      have hwithin : Within bound (writeUtfLoop true (0 : ℕ) buffer) (input, notes) ↔
          buffer.length ≤ bound := by
        rw [writeUtfLoop, if_neg (by simp), if_neg (by simp)]
        show (∀ i ∈ notes ++ List.range' buffer.length 1, i ≤ bound) ↔ _
        rw [forall_mem_note, and_iff_right hnotes]
        omega
      rw [hwithin]
      constructor
      · intro h k hk _ _
        obtain rfl := Nat.le_zero.mp hk
        simpa [unitsOf] using h
      · intro h
        simpa [unitsOf] using h 0 le_rfl (fun j hj => absurd hj (Nat.not_lt_zero j)) (Or.inl rfl)
  | succ r ih =>
      rw [within_writeUtfLoop_succ hnotes, wireChars]
      rcases hread : exec readWireChar input with ⟨e | c, out⟩
      · rw [forall_eq_error]
        refine ⟨fun _ k hk _ hend => ?_, fun _ => trivial⟩
        obtain rfl := Nat.le_zero.mp hk
        rcases hend with hend | ⟨c, hc, -⟩
        · exact nomatch hend
        · exact nomatch hc
      · have hunits := units_of_readWireChar hread
        have hlength : (buffer ++ c.chars).length = buffer.length + c.units := by
          rw [List.length_append, c.length_chars]
        have hnext := ih (Nat.le_of_succ_le hr) (buffer ++ c.chars) out
          (notes ++ List.range' buffer.length c.units)
        rw [hlength] at hnext
        rw [forall_eq_ok, fitFrom_cons, c.length_chars]
        by_cases hbytes : c.bytes = 4
        · -- there is room for the units of the character
          simp only [hbytes, ne_eq, not_true_eq_false, false_imp_iff, true_and, true_imp_iff]
          refine imp_congr_right fun hroom => hnext ?_
          exact forall_mem_note.mpr ⟨hnotes, Or.inr (by omega)⟩
        · have hone := hunits.resolve_left hbytes
          simp only [hbytes, ne_eq, not_false_eq_true, true_imp_iff, false_imp_iff]
          by_cases hcount : buffer.length ≤ bound
          · rw [and_iff_right hcount]
            exact hnext (forall_mem_note.mpr ⟨hnotes, Or.inr (by omega)⟩)
          · refine ⟨fun h => absurd ?_ hcount, fun h => absurd h.1 hcount⟩
            have hmem := h.of_notes
            exact (forall_mem_note.mp hmem).2.elim (by omega) (by omega)

/-- A text stays inside of its buffer if its length is in bytes, and with a length in characters if
and only if its units fit. -/
theorem staysInside_iff {utflen : ℕ} (hpos : 0 < utflen) (lenInChars : Bool) (input : InputContext) :
    StaysInside utflen lenInChars input ↔
      (lenInChars = true → UnitsFit utflen (wireChars utflen input)) := by
  cases lenInChars with
  | false => exact ⟨fun _ h => (nomatch h), fun _ => staysInside_bytes hpos input⟩
  | true =>
      have hne : ((utflen : ℕ) : ℤ) ≠ 0 := by omega
      have hloop := within_writeUtfLoop_chars utflen le_rfl [] input [] (by simp)
      rw [List.length_nil, fitFrom_zero] at hloop
      rw [StaysInside, writeUtfSequence, if_neg hne]
      exact ⟨fun h _ => hloop.mp h, fun h => hloop.mpr (h rfl)⟩

/-- The text of the bytes `41 42`. -/
theorem staysInside_two :
    StaysInside 2 true (inputAt [] [0x41, 0x42] 0) ↔
      (true = true → UnitsFit 2 (wireChars 2 (inputAt [] [0x41, 0x42] 0))) :=
  staysInside_iff (by norm_num) true _

/-- Four characters take five units, and the end of the text is written behind the five units of the
buffer. -/
theorem not_staysInside_four :
    ¬ StaysInside 4 true (inputAt [] [-16, -112, -128, -128, 0x41, 0x41, 0x41] 0) := by
  intro h
  have hchars : wireChars 4 (inputAt [] [-16, -112, -128, -128, 0x41, 0x41, 0x41] 0) =
      [⟨0x10000, 4⟩, ⟨0x41, 1⟩, ⟨0x41, 1⟩, ⟨0x41, 1⟩] := by decide +kernel
  have hfit := (within_writeUtfLoop_chars 4 le_rfl [] _ [] (by simp)).mp h
  rw [hchars] at hfit
  have hroom : ∀ j < 4, ∀ c,
      [WireChar.mk 0x10000 4, ⟨0x41, 1⟩, ⟨0x41, 1⟩, ⟨0x41, 1⟩][j]? = some c → c.bytes = 4 →
        0 + unitsOf ([WireChar.mk 0x10000 4, ⟨0x41, 1⟩, ⟨0x41, 1⟩, ⟨0x41, 1⟩].take (j + 1)) +
          (j + 1) ≤ 4 := by
    intro j hj c hc hbytes
    interval_cases j
    · decide
    all_goals
      obtain rfl := Option.some.inj hc
      exact absurd hbytes (by decide)
  have hlast := hfit 4 (by decide) hroom (Or.inl rfl)
  exact absurd hlast (by decide)

end DxFeed.BufferedIO
