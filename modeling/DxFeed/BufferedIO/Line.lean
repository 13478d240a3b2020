import DxFeed.BufferedIO.Words
import DxFeed.DynamicArray.Storage

/-!
# Lines of the input stream

`dx_read_line` with its temporary buffer.  Allocations succeed.

* `readLine`: the reader; a write behind the end of the temporary buffer ends it;
* `lineOf`, `terminatorLength`: the bytes of the line, and how many bytes end it;
* `cellsAfter`: what the temporary buffer holds behind some characters;
* `readLineLoop_eq`: what the loop does with every input;
* `ReadsLine`, `KeepsLine`: the line is returned, and the lines for which this is so.
-/

namespace DxFeed.BufferedIO

open Call FixedWidth

/-- What ends a reader that has a buffer of its own. -/
inductive LineError
  | code (e : ErrorCode)
  | memory (fault : MemoryFault)
  deriving DecidableEq

/-- `'\n'`. -/
def lineFeed : Int8 := 10

/-- `'\r'`. -/
def carriageReturn : Int8 := 13

/-- `tmp_buf_size`. -/
def tmpBufSize : ℕ := 128

/-- The character `in_buffer[i] & 0xFF`. -/
def lineChar (b : Int8) : UInt16 := (unsignedByte b).toUInt16

/-- The temporary buffer for one more character: a new one of twice the size if the characters
fill the first one. -/
def growTmp (tmpBuffer : List UInt16) (count : ℕ) : Except MemoryFault (List UInt16) :=
  if count ≥ tmpBufSize then
    Storage.access <| Cells.copy (List.replicate (tmpBufSize * 2) 0) 0 tmpBuffer 0 tmpBufSize
  else .ok tmpBuffer

/-- The loop of `dx_read_line` on the bytes from the position on: the temporary buffer, the number
of characters in it, and the new position. -/
def readLineLoop : List Int8 → ℕ → List UInt16 → ℕ → Except MemoryFault (List UInt16 × ℕ × ℕ)
  | [], position, tmpBuffer, count => .ok (tmpBuffer, count, position)
  | b :: input, position, tmpBuffer, count =>
      let c := lineChar b
      if c = lineChar lineFeed then .ok (tmpBuffer, count, position + 1)
      else if c = lineChar carriageReturn then
        if input.head? = some lineFeed then .ok (tmpBuffer, count, position + 2)
        else .ok (tmpBuffer, count, position + 1)
      else do
        let tmpBuffer ← growTmp tmpBuffer count
        let tmpBuffer ← Storage.access <| Cells.write tmpBuffer count c
        readLineLoop input (position + 1) tmpBuffer (count + 1)

/-- `dx_read_line`: the cells of the string that it returns. -/
def readLine : Call LineError InputContext (List UInt16) := do
  ExceptT.adapt LineError.code (validateBuffer 1)
  let context ← get
  match readLineLoop (context.buffer.drop context.currentInBufferPosition)
      context.currentInBufferPosition (List.replicate tmpBufSize 0) 0 with
  | .error fault => throw (.memory fault)
  | .ok (tmpBuffer, count, position) =>
      set { context with currentInBufferPosition := position }
      match Cells.write tmpBuffer count 0 with
      | none => throw (.memory .overrun)
      | some tmpBuffer => return tmpBuffer

/-! ### Lines -/

/-- The bytes in front of the first terminator, or of the end. -/
def lineOf (input : List Int8) : List Int8 :=
  input.takeWhile fun b => b ≠ lineFeed ∧ b ≠ carriageReturn

/-- How many bytes end a line: a line feed, a carriage return, or both in this order. -/
def terminatorLength : List Int8 → ℕ
  | [] => 0
  | [_] => 1
  | b :: b' :: _ => if b = carriageReturn ∧ b' = lineFeed then 2 else 1

/-- How many bytes of the input a line takes. -/
def lineLength (input : List Int8) : ℕ :=
  (lineOf input).length + terminatorLength (input.drop (lineOf input).length)

theorem toNat_lineChar (b : Int8) : (lineChar b).toNat = octet b := by
  have hword : (unsignedByte b).toNat = octet b := word_unsignedByte b
  have hlt := octet_lt b
  rw [lineChar, UInt32.toNat_toUInt16, hword, Nat.mod_eq_of_lt (by omega)]

theorem lineChar_injective : Function.Injective lineChar := by
  intro a b h
  apply octet_injective
  rw [← toNat_lineChar, ← toNat_lineChar, h]

@[simp] theorem lineChar_inj {a b : Int8} : lineChar a = lineChar b ↔ a = b :=
  lineChar_injective.eq_iff

variable {b : Int8} {input : List Int8}

theorem lineOf_terminator (h : b = lineFeed ∨ b = carriageReturn) : lineOf (b :: input) = [] := by
  rw [lineOf, List.takeWhile_cons_of_neg]
  simpa [← not_or] using h

theorem lineOf_cons (hfeed : b ≠ lineFeed) (hreturn : b ≠ carriageReturn) :
    lineOf (b :: input) = b :: lineOf input :=
  List.takeWhile_cons_of_pos (by simp [hfeed, hreturn])

theorem lineLength_cons (hfeed : b ≠ lineFeed) (hreturn : b ≠ carriageReturn) :
    lineLength (b :: input) = lineLength input + 1 := by
  rw [lineLength, lineOf_cons hfeed hreturn, List.length_cons, List.drop_succ_cons, lineLength]
  omega

theorem lineLength_feed (input : List Int8) : lineLength (lineFeed :: input) = 1 := by
  rw [lineLength, lineOf_terminator (Or.inl rfl)]
  cases input with
  | nil => rfl
  | cons b input => rfl

theorem lineLength_return (input : List Int8) :
    lineLength (carriageReturn :: input) = if input.head? = some lineFeed then 2 else 1 := by
  rw [lineLength, lineOf_terminator (Or.inr rfl)]
  cases input with
  | nil => rfl
  | cons b input => simp [terminatorLength]

/-! ### The temporary buffer -/

variable {chars : List UInt16} {c : UInt16}

/-- The temporary buffer behind some characters: they are in the first one; or the second one has
those of the first one, and the last one. -/
def cellsAfter (chars : List UInt16) : List UInt16 :=
  if chars.length ≤ tmpBufSize then chars ++ List.replicate (tmpBufSize - chars.length) 0
  else
    (chars.take tmpBufSize ++ List.replicate tmpBufSize 0).set (chars.length - 1)
      (chars.getLastD 0)

theorem length_cellsAfter (chars : List UInt16) : (cellsAfter chars).length =
    if chars.length ≤ tmpBufSize then tmpBufSize else tmpBufSize * 2 := by
  unfold cellsAfter
  split_ifs with h
  · rw [List.length_append, List.length_replicate]
    omega
  · rw [List.length_set, List.length_append, List.length_take, List.length_replicate]
    omega

theorem take_cellsAfter (h : tmpBufSize ≤ chars.length) :
    (cellsAfter chars).take tmpBufSize = chars.take tmpBufSize := by
  unfold cellsAfter
  split_ifs with hshort
  · rw [List.take_append_of_le_length h]
  · rw [List.take_set_of_le (by omega), List.take_append_of_le_length (by
      rw [List.length_take]; omega), List.take_take, Nat.min_self]

/-- The first buffer takes one more character. -/
theorem write_cellsAfter (h : chars.length < tmpBufSize) :
    Cells.write (cellsAfter chars) chars.length c = some (cellsAfter (chars ++ [c])) := by
  have hlength := length_cellsAfter chars
  rw [if_pos h.le] at hlength
  refine Cells.write_eq_some.mpr ⟨by omega, ?_⟩
  have hmore : (chars ++ [c]).length ≤ tmpBufSize := by
    rw [List.length_append, List.length_singleton]
    exact h
  have hzero : tmpBufSize - chars.length = tmpBufSize - (chars ++ [c]).length + 1 := by
    rw [List.length_append, List.length_singleton] at hmore ⊢
    omega
  rw [cellsAfter, cellsAfter, if_pos hmore, if_pos h.le, hzero, List.replicate_succ,
    List.set_append_right _ _ le_rfl, Nat.sub_self, List.set_cons_zero, List.append_assoc,
    List.singleton_append]

/-- Every character behind the first buffer gets a second one. -/
theorem grow_cellsAfter (h : tmpBufSize ≤ chars.length) :
    growTmp (cellsAfter chars) chars.length =
      .ok (chars.take tmpBufSize ++ List.replicate tmpBufSize 0) := by
  have hlength := length_cellsAfter chars
  have hcopy : Cells.copy (List.replicate (tmpBufSize * 2) 0) 0 (cellsAfter chars) 0 tmpBufSize =
      some (chars.take tmpBufSize ++ List.replicate tmpBufSize 0) := by
    refine Cells.copy_eq_some.mpr ⟨⟨?_, by rw [List.length_replicate]; omega⟩, ?_⟩
    · rw [hlength]
      split_ifs <;> omega
    · rw [List.take_zero, List.drop_zero, take_cellsAfter h, List.nil_append, Nat.zero_add,
        List.drop_replicate, Nat.mul_two, Nat.add_sub_cancel]
  rw [growTmp, if_pos h, hcopy]
  rfl

theorem write_grown (h : tmpBufSize ≤ chars.length) :
    Cells.write (chars.take tmpBufSize ++ List.replicate tmpBufSize 0) chars.length c =
      if chars.length < tmpBufSize * 2 then some (cellsAfter (chars ++ [c])) else none := by
  have hlength : (chars.take tmpBufSize ++ List.replicate tmpBufSize (0 : UInt16)).length =
      tmpBufSize * 2 := by
    rw [List.length_append, List.length_take, List.length_replicate]
    omega
  have hlong : ¬ (chars ++ [c]).length ≤ tmpBufSize := by
    rw [List.length_append, List.length_singleton]
    omega
  split_ifs with hroom
  · refine Cells.write_eq_some.mpr ⟨by omega, ?_⟩
    rw [cellsAfter, if_neg hlong, List.take_append_of_le_length h, List.length_append,
      List.length_singleton, Nat.add_sub_cancel, List.getLastD_concat]
  · exact Cells.write_eq_none.mpr (by omega)

/-- One more character, or a write behind the second buffer. -/
theorem grow_write_cellsAfter (chars : List UInt16) (c : UInt16) :
    (do
      let tmpBuffer ← growTmp (cellsAfter chars) chars.length
      Storage.access <| Cells.write tmpBuffer chars.length c) =
      if chars.length < tmpBufSize * 2 then .ok (cellsAfter (chars ++ [c])) else .error .overrun := by
  rcases lt_or_ge chars.length tmpBufSize with hlt | hge
  · rw [growTmp, if_neg (not_le.mpr hlt), if_pos (by omega)]
    show Storage.access (Cells.write (cellsAfter chars) chars.length c) = _
    rw [write_cellsAfter hlt]
    rfl
  · rw [grow_cellsAfter hge]
    show Storage.access (Cells.write _ chars.length c) = _
    rw [write_grown hge]
    split_ifs <;> rfl

/-- The loop reads the rest of a line behind some characters. -/
theorem readLineLoop_eq (input : List Int8) (position : ℕ) (chars : List UInt16)
    (hchars : chars.length ≤ tmpBufSize * 2) :
    readLineLoop input position (cellsAfter chars) chars.length =
      if chars.length + (lineOf input).length ≤ tmpBufSize * 2 then
        .ok (cellsAfter (chars ++ (lineOf input).map lineChar),
          chars.length + (lineOf input).length, position + lineLength input)
      else .error .overrun := by
  induction input generalizing position chars with
  | nil => simp [readLineLoop, lineOf, lineLength, terminatorLength, hchars]
  | cons b input ih =>
      rw [readLineLoop]
      simp only [lineChar_inj]
      by_cases hfeed : b = lineFeed
      · subst hfeed
        rw [if_pos rfl, lineOf_terminator (Or.inl rfl), lineLength_feed]
        simp [hchars]
      · rw [if_neg hfeed]
        by_cases hreturn : b = carriageReturn
        · subst hreturn
          rw [if_pos rfl, lineOf_terminator (Or.inr rfl), lineLength_return]
          split_ifs <;> simp_all
        · rw [if_neg hreturn, ← bind_assoc, grow_write_cellsAfter, lineOf_cons hfeed hreturn,
            lineLength_cons hfeed hreturn, List.length_cons]
          by_cases hroom : chars.length < tmpBufSize * 2
          · have hih := ih (position + 1) (chars ++ [lineChar b])
              (by rw [List.length_append, List.length_singleton]; omega)
            rw [List.length_append, List.length_singleton] at hih
            rw [if_pos hroom]
            show readLineLoop input (position + 1) _ (chars.length + 1) = _
            rw [hih, List.map_cons, List.append_assoc, List.singleton_append]
            simp only [Nat.add_assoc, Nat.add_comm 1]
          · rw [if_neg hroom, if_neg (by omega)]
            rfl

/-! ### The reader -/

/-- The line is returned with a terminator behind it, and its bytes and those that end it are
consumed. -/
def ReadsLine (context : InputContext) : Prop :=
  ∃ cells, exec readLine context = (.ok cells, { context with
      currentInBufferPosition := context.currentInBufferPosition +
        lineLength (context.buffer.drop context.currentInBufferPosition) }) ∧
    cells.take (lineOf (context.buffer.drop context.currentInBufferPosition)).length =
      (lineOf (context.buffer.drop context.currentInBufferPosition)).map lineChar ∧
    cells[(lineOf (context.buffer.drop context.currentInBufferPosition)).length]? = some 0

/-- The line does not just fill the first buffer, it is shorter than the second one, and behind
the first 128 characters all but the last one are zero. -/
structure KeepsLine (bytes : List Int8) : Prop where
  ne_size : bytes.length ≠ 128
  lt_size : bytes.length < 256
  zero : ∀ i, 128 ≤ i → i + 1 < bytes.length → bytes[i]? = some 0

theorem getElem?_cellsAfter (hlong : tmpBufSize < chars.length)
    (hlength : chars.length ≤ tmpBufSize * 2) {i : ℕ} (hi : i < chars.length) :
    (cellsAfter chars)[i]? =
      if i < tmpBufSize ∨ i + 1 = chars.length then chars[i]? else some 0 := by
  have htake : (chars.take tmpBufSize).length = tmpBufSize := by
    rw [List.length_take]
    omega
  rw [cellsAfter, if_neg (not_le.mpr hlong), List.getElem?_set]
  by_cases hlast : chars.length - 1 = i
  · subst hlast
    rw [if_pos rfl, if_pos (by rw [List.length_append, htake, List.length_replicate]; omega),
      if_pos (by omega), List.getLastD_eq_getLast?, List.getLast?_eq_getElem?,
      List.getElem?_eq_getElem hi]
    rfl
  · rw [if_neg hlast]
    by_cases hfirst : i < tmpBufSize
    · rw [if_pos (Or.inl hfirst), List.getElem?_append_left (by omega),
        List.getElem?_take_of_lt hfirst]
    · rw [if_neg (by omega), List.getElem?_append_right (by omega), htake,
        List.getElem?_replicate_of_lt (by omega)]

/-- The characters of a line are in the buffer behind it. -/
theorem take_cellsAfter_iff (bytes : List Int8) (hlength : bytes.length < 256) :
    (cellsAfter (bytes.map lineChar)).take bytes.length = bytes.map lineChar ↔
      ∀ i, 128 ≤ i → i + 1 < bytes.length → bytes[i]? = some 0 := by
  have hmap : (bytes.map lineChar).length = bytes.length := List.length_map _
  have hsize : tmpBufSize = 128 := rfl
  by_cases hshort : bytes.length ≤ 128
  · rw [cellsAfter, if_pos (by omega)]
    refine iff_of_true ?_ (by omega)
    rw [← hmap]
    exact List.take_left
  · have hcells := fun i hi => @getElem?_cellsAfter (bytes.map lineChar) (by omega) (by omega) i hi
    constructor
    · intro htake i hlow hhigh
      have hat : (cellsAfter (bytes.map lineChar))[i]? = (bytes.map lineChar)[i]? := by
        rw [← List.getElem?_take_of_lt (show i < bytes.length by omega), htake]
      rw [hcells i (by omega), if_neg (by omega), List.getElem?_map] at hat
      obtain ⟨b, hb, hzero⟩ := Option.map_eq_some_iff.mp hat.symm
      have hb0 : b = 0 := lineChar_injective (hzero.trans (by decide))
      rw [hb, hb0]
    · intro hzero
      apply List.ext_getElem?
      intro i
      rcases lt_or_ge i bytes.length with hi | hi
      · rw [List.getElem?_take_of_lt hi, hcells i (by omega)]
        by_cases hkept : i < tmpBufSize ∨ i + 1 = (bytes.map lineChar).length
        · rw [if_pos hkept]
        · rw [if_neg hkept, List.getElem?_map, hzero i (by omega) (by omega)]
          rfl
      · rw [List.getElem?_eq_none (by rw [List.length_take]; omega),
          List.getElem?_eq_none (by omega)]

theorem exec_validateBuffer_one {context : InputContext} (hlength : context.inBufferLength ≤ INT_MAX)
    (hposition : context.currentInBufferPosition < context.inBufferLength) :
    exec (validateBuffer 1) context = (.ok (), context) := by
  have hcapacity := isCapacityEnough_eq context.currentInBufferPosition 1 hlength (by omega)
  have hsome : context.inBuffer.isNone = false := by
    cases hbuffer : context.inBuffer with
    | none => simp [InputContext.inBufferLength, InputContext.buffer, hbuffer] at hposition
    | some buffer => rfl
  unfold validateBuffer
  rw [exec_bind_ok (exec_get _)]
  simp only [hsome, Bool.false_eq_true, if_false, hcapacity]
  rw [decide_eq_true (by omega)]
  rfl

/-- The buffer takes the terminator of a line that does not just fill it. -/
theorem write_terminator_iff (hchars : chars.length ≤ 256) :
    (Cells.write (cellsAfter chars) chars.length 0).isSome ↔
      chars.length ≠ 128 ∧ chars.length < 256 := by
  have hlength := length_cellsAfter chars
  have hsize : tmpBufSize = 128 := rfl
  rw [Cells.write, hlength]
  split_ifs with hshort hroom hroom
  · simp only [Option.isSome_some, true_iff]
    omega
  · simp only [Option.isSome_none, Bool.false_eq_true, false_iff]
    omega
  · simp only [Option.isSome_some, true_iff]
    omega
  · simp only [Option.isSome_none, Bool.false_eq_true, false_iff]
    omega

/-- What the reader does with the bytes from the position on. -/
theorem exec_readLine {context : InputContext} (hlength : context.inBufferLength ≤ INT_MAX)
    (hposition : context.currentInBufferPosition < context.inBufferLength) {input : List Int8}
    (hinput : context.buffer.drop context.currentInBufferPosition = input) :
    exec readLine context =
      if (lineOf input).length ≤ 256 then
        let context := { context with
          currentInBufferPosition := context.currentInBufferPosition + lineLength input }
        match Cells.write (cellsAfter ((lineOf input).map lineChar)) (lineOf input).length 0 with
        | none => (.error (.memory .overrun), context)
        | some cells => (.ok cells, context)
      else (.error (.memory .overrun), context) := by
  have hloop := readLineLoop_eq input context.currentInBufferPosition [] (Nat.zero_le _)
  have hblank : cellsAfter [] = List.replicate tmpBufSize 0 := rfl
  rw [hblank, List.length_nil, Nat.zero_add, List.nil_append] at hloop
  rw [readLine, exec_bind_ok (exec_adapt_ok _ (exec_validateBuffer_one hlength hposition)),
    exec_bind_ok (exec_get _)]
  by_cases hroom : (lineOf input).length ≤ 256
  · have hroom' : (lineOf input).length ≤ tmpBufSize * 2 := hroom
    rw [if_pos hroom'] at hloop
    rw [if_pos hroom]
    simp only [hinput, hloop]
    rw [exec_bind_ok (exec_set _ _)]
    cases Cells.write (cellsAfter ((lineOf input).map lineChar)) (lineOf input).length 0 with
    | none => rfl
    | some cells => rfl
  · have hroom' : ¬ (lineOf input).length ≤ tmpBufSize * 2 := hroom
    rw [if_neg hroom'] at hloop
    rw [if_neg hroom]
    simp only [hinput, hloop]
    rfl

/-- A line is returned exactly if it is one that the two buffers keep. -/
theorem readsLine_iff (context : InputContext) (hlength : context.inBufferLength ≤ INT_MAX)
    (hposition : context.currentInBufferPosition < context.inBufferLength) :
    ReadsLine context ↔
      KeepsLine (lineOf (context.buffer.drop context.currentInBufferPosition)) := by
  generalize hinput : context.buffer.drop context.currentInBufferPosition = input
  have hexec := exec_readLine hlength hposition hinput
  have hmap : ((lineOf input).map lineChar).length = (lineOf input).length := List.length_map _
  unfold ReadsLine
  rw [hinput]
  by_cases hroom : (lineOf input).length ≤ 256
  · rw [if_pos hroom] at hexec
    have hwritten := write_terminator_iff (hmap.trans_le hroom)
    rw [hmap] at hwritten
    cases hwrite : Cells.write (cellsAfter ((lineOf input).map lineChar)) (lineOf input).length 0 with
    | none =>
        simp only [hwrite] at hexec
        rw [hwrite] at hwritten
        refine iff_of_false ?_ fun h => absurd (hwritten.mpr ⟨h.ne_size, h.lt_size⟩) nofun
        rintro ⟨cells, hok, -⟩
        rw [hexec] at hok
        exact absurd (Prod.mk.inj hok).1 nofun
    | some cells =>
        simp only [hwrite] at hexec
        rw [hwrite] at hwritten
        obtain ⟨hne, hlt⟩ := hwritten.mp rfl
        obtain ⟨hinside, rfl⟩ := Cells.write_eq_some.mp hwrite
        have htake := take_cellsAfter_iff (lineOf input) hlt
        rw [hexec]
        constructor
        · rintro ⟨cells, hok, hcells, -⟩
          obtain rfl := Except.ok.inj (Prod.mk.inj hok).1
          rw [List.take_set_of_le le_rfl] at hcells
          exact ⟨hne, hlt, htake.mp hcells⟩
        · intro hkeeps
          refine ⟨_, rfl, ?_, ?_⟩
          · rw [List.take_set_of_le le_rfl]
            exact htake.mpr hkeeps.zero
          · rw [List.getElem?_set_self hinside]
  · rw [if_neg hroom] at hexec
    refine iff_of_false ?_ fun h => hroom h.lt_size.le
    rintro ⟨cells, hok, -⟩
    rw [hexec] at hok
    exact absurd (Prod.mk.inj hok).1 nofun

/-- A line of two characters, and the line feed that ends it behind a carriage return. -/
theorem readsLine_two :
    ReadsLine (inputAt [7] [72, 105, 13, 10, 33] 0) ↔
      KeepsLine (lineOf ((inputAt [7] [72, 105, 13, 10, 33] 0).buffer.drop 1)) :=
  readsLine_iff (inputAt [7] [72, 105, 13, 10, 33] 0) (by decide) (by decide)

/-- A line of 128 characters: the terminator is written behind the temporary buffer. -/
theorem not_readsLine_128 :
    exec readLine (inputAt [] (List.replicate 128 97 ++ [10]) 0) =
        (.error (.memory .overrun), inputAt (List.replicate 128 97 ++ [10]) [] 0) ∧
      ¬ ReadsLine (inputAt [] (List.replicate 128 97 ++ [10]) 0) := by
  have hexec : exec readLine (inputAt [] (List.replicate 128 97 ++ [10]) 0) =
      (.error (.memory .overrun), inputAt (List.replicate 128 97 ++ [10]) [] 0) := by
    decide +kernel
  refine ⟨hexec, ?_⟩
  rintro ⟨cells, hok, -⟩
  rw [hexec] at hok
  exact absurd (Prod.mk.inj hok).1 nofun

end DxFeed.BufferedIO
