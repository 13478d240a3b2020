import DxFeed.ServerMessageProcessor.ReceiveBuffer

/-!
# The receive buffer when allocations fail

`dx_append_new_data` stores the capacity of a larger block before it asks for the block.

* `ReceiveBuffer.appendNewDataWith`: `dx_append_new_data`, whose allocation may fail;
* `ReceiveBuffer.Event`, `ReceiveBuffer.KeepsAccounts`: chunks that are appended, and messages that
  are consumed, one after the other, and what is to hold behind each of them;
* `keepsAccounts_iff`: it holds as long as the bytes fit in an `int` and every block that is asked
  for is there.
-/

namespace DxFeed.ServerMessageProcessor

open BufferedIO

namespace ReceiveBuffer

/-- The larger block, if there is one: the capacity is that of the larger block in either case. -/
def reserveWith (allocated : Bool) (b : ReceiveBuffer) (newBufferSize : Int32) :
    Option (Bool × ReceiveBuffer) :=
  if b.bufferCapacity < b.bufferSize + newBufferSize then do
    let capacity := b.bufferSize + newBufferSize
    let b := { b with bufferCapacity := capacity }
    if !allocated then return (false, b)
    let cells ← Cells.copy (List.replicate (toSize capacity) 0) 0 b.cells 0 (toSize b.bufferSize)
    return (true, { b with cells := cells })
  else some (true, b)

/-- `dx_append_new_data`: what it returns, and the buffer. -/
def appendNewDataWith (allocated : Bool) (b : ReceiveBuffer) (newBuffer : List Int8)
    (newBufferSize : Int32) : Option (Bool × ReceiveBuffer) := do
  let b ← b.compact
  let (success, b) ← b.reserveWith allocated newBufferSize
  if !success then return (false, b)
  return (true, ← b.append newBuffer newBufferSize)

theorem reserveWith_true (b : ReceiveBuffer) (newBufferSize : Int32) :
    b.reserveWith true newBufferSize = (b.reserve newBufferSize).map (true, ·) := by
  unfold reserveWith reserve
  by_cases hroom : b.bufferCapacity < b.bufferSize + newBufferSize
  · rw [if_pos hroom, if_pos hroom]
    dsimp only
    rw [Bool.not_true, if_neg Bool.false_ne_true]
    cases Cells.copy (List.replicate (toSize (b.bufferSize + newBufferSize)) 0) 0 b.cells 0
        (toSize b.bufferSize) with
    | none => rfl
    | some cells => rfl
  · rw [if_neg hroom, if_neg hroom]
    rfl

/-- With the block it asks for the call does what it does when allocations succeed. -/
theorem appendNewDataWith_true (b : ReceiveBuffer) (newBuffer : List Int8) (newBufferSize : Int32) :
    b.appendNewDataWith true newBuffer newBufferSize =
      (b.appendNewData newBuffer newBufferSize).map (true, ·) := by
  unfold appendNewDataWith appendNewData
  cases b.compact with
  | none => rfl
  | some front =>
      simp only [Option.bind_eq_bind, Option.bind_some, reserveWith_true]
      cases front.reserve newBufferSize with
      | none => rfl
      | some roomy =>
          simp only [Option.map_some, Option.bind_some, Bool.not_true, Bool.false_eq_true, if_false]
          cases roomy.append newBuffer newBufferSize with
          | none => rfl
          | some b' => rfl

/-! ### Calls -/

/-- What a call is given: some bytes, as many as an `int` can count. -/
structure Chunk where
  bytes : List Int8
  ne_nil : bytes ≠ []
  length_le : bytes.length ≤ INT_MAX

/-- A call with a chunk, whose allocation succeeds or fails, or complete messages of so many bytes
that are consumed. -/
inductive Event
  | append (chunk : Chunk) (allocated : Bool)
  | consume (n : ℕ)

/-- The bytes of complete messages are consumed; there are no more of them than have been
received. -/
def consume (b : ReceiveBuffer) (n : ℕ) : ReceiveBuffer :=
  { b with bufferPos := Int32.ofNat (toSize b.bufferPos + min n b.pending.length) }

def Event.exec (b : ReceiveBuffer) : Event → Option (Bool × ReceiveBuffer)
  | .append chunk allocated =>
      b.appendNewDataWith allocated chunk.bytes (Int32.ofNat chunk.bytes.length)
  | .consume n => some (true, b.consume n)

/-- The bytes that a call is to put into the buffer, together with those that are in it. -/
def Event.total (b : ReceiveBuffer) : Event → ℕ
  | .append chunk _ => b.pending.length + chunk.bytes.length
  | .consume _ => b.pending.length

/-- The copies of all calls end within the block, a call with more bytes than an `int` can count
fails, and behind each call the capacity is the length of the block. -/
def KeepsAccounts (b : ReceiveBuffer) : List Event → Prop
  | [] => b.cells.length = b.bufferCapacity.toInt
  | event :: events =>
      b.cells.length = b.bufferCapacity.toInt ∧
        ∃ success b', event.exec b = some (success, b') ∧
          (INT_MAX < event.total b → success = false) ∧ b'.KeepsAccounts events

/-- The bytes fit in an `int`, and an allocation that is asked for succeeds. -/
def Event.Provided (b : ReceiveBuffer) : Event → Prop
  | .append chunk allocated =>
      b.pending.length + chunk.bytes.length ≤ INT_MAX ∧
        (b.bufferCapacity.toInt < b.pending.length + chunk.bytes.length → allocated = true)
  | .consume _ => True

/-- All calls are provided with the memory they need. -/
def Provided (b : ReceiveBuffer) : List Event → Prop
  | [] => True
  | event :: events =>
      event.Provided b ∧ ∀ success b', event.exec b = some (success, b') → b'.Provided events

variable {b : ReceiveBuffer} {pos size capacity : ℕ}

/-! ### One call -/

/-- A sum of two lengths that is too large for an `int` is negative. -/
theorem toInt_ofNat_neg {n : ℕ} (hlarge : INT_MAX < n) (hn : n ≤ INT_MAX + INT_MAX) :
    (Int32.ofNat n).toInt < 0 := by
  unfold INT_MAX at hlarge hn
  have hwrapped : (n : ℤ).bmod (2 ^ 32) = n - 2 ^ 32 := by
    rw [← Int.sub_bmod_right]
    apply Int.bmod_eq_of_le <;> push_cast <;> omega
  have hsize : Int32.size = 2 ^ 32 := rfl
  rw [Int32.toInt_ofNat', hsize, hwrapped]
  omega

/-- The test whether the block is too small, when the bytes fit. -/
theorem HasSizes.grows_iff (h : b.HasSizes 0 size capacity) {n : ℕ} (hfits : size + n ≤ INT_MAX) :
    b.bufferCapacity < b.bufferSize + Int32.ofNat n ↔ capacity < size + n := by
  rw [h.size_eq, ← Int32.ofNat_add, h.capacity_eq, Int32.lt_iff_toInt_lt,
    toInt_ofNat_le h.capacity_le, toInt_ofNat_le hfits]
  exact Nat.cast_lt

/-- The bytes fit, and the block is there if it is asked for. -/
theorem HasSizes.exec_append (h : b.HasSizes pos size capacity) (chunk : Chunk) {allocated : Bool}
    (hfits : b.pending.length + chunk.bytes.length ≤ INT_MAX)
    (hallocated : capacity < b.pending.length + chunk.bytes.length → allocated = true) :
    ∃ b' capacity', (Event.append chunk allocated).exec b = some (true, b') ∧
      b'.HasSizes 0 (b.pending.length + chunk.bytes.length) capacity' := by
  obtain ⟨b', capacity', happend, hsizes, -⟩ := appendNewData_spec h.inBounds hfits
  refine ⟨b', capacity', ?_, hsizes⟩
  cases allocated with
  | true => rw [Event.exec, appendNewDataWith_true, happend, Option.map_some]
  | false =>
      -- no block is asked for
      obtain ⟨front, hcompact, hfront, -⟩ := h.compact
      rw [← h.length_pending] at hfront
      have hroom : ¬ front.bufferCapacity < front.bufferSize + Int32.ofNat chunk.bytes.length :=
        (hfront.grows_iff hfits).not.mpr fun hlt => Bool.noConfusion (hallocated hlt)
      rw [appendNewData, hcompact, Option.bind_eq_bind, Option.bind_some, ReceiveBuffer.reserve,
        if_neg hroom, Option.bind_some] at happend
      rw [Event.exec, appendNewDataWith, hcompact, Option.bind_eq_bind, Option.bind_some,
        reserveWith, if_neg hroom, Option.bind_eq_bind, Option.bind_some]
      dsimp only
      rw [Bool.not_true, if_neg Bool.false_ne_true, happend]
      rfl

/-- A block that cannot be had leaves its capacity with the old block. -/
theorem HasSizes.exec_append_failed (h : b.HasSizes pos size capacity) (chunk : Chunk)
    (hfits : b.pending.length + chunk.bytes.length ≤ INT_MAX)
    (hroom : capacity < b.pending.length + chunk.bytes.length) :
    ∃ front : ReceiveBuffer, front.HasSizes 0 b.pending.length capacity ∧
      (Event.append chunk false).exec b = some (false, { front with
        bufferCapacity := Int32.ofNat (b.pending.length + chunk.bytes.length) }) := by
  obtain ⟨front, hcompact, hfront, -⟩ := h.compact
  rw [← h.length_pending] at hfront
  refine ⟨front, hfront, ?_⟩
  rw [Event.exec, appendNewDataWith, hcompact, Option.bind_eq_bind, Option.bind_some,
    reserveWith, if_pos ((hfront.grows_iff hfits).mpr hroom), hfront.size_eq, ← Int32.ofNat_add]
  rfl

/-- With more bytes than an `int` can count the sum of the sizes overflows, and the copy does not end
within the block. -/
theorem HasSizes.exec_append_overflow (h : b.HasSizes pos size capacity) (chunk : Chunk)
    (allocated : Bool) (hlarge : INT_MAX < b.pending.length + chunk.bytes.length) :
    (Event.append chunk allocated).exec b = none := by
  obtain ⟨front, hcompact, hfront, -⟩ := h.compact
  rw [← h.length_pending] at hfront
  have hle := hfront.size_le
  have hmax := hfront.capacity_le
  have hchunk := chunk.length_le
  -- the sum is negative, so that no larger block is asked for
  have hroom : ¬ front.bufferCapacity < front.bufferSize + Int32.ofNat chunk.bytes.length := by
    have hneg := toInt_ofNat_neg hlarge (by omega)
    rw [hfront.size_eq, ← Int32.ofNat_add, hfront.capacity_eq, Int32.lt_iff_toInt_lt,
      toInt_ofNat_le hmax]
    omega
  have hcopy : Cells.copy front.cells b.pending.length chunk.bytes 0 chunk.bytes.length = none := by
    rw [Cells.copy, if_neg]
    rw [hfront.length_cells]
    omega
  rw [Event.exec, appendNewDataWith, hcompact, Option.bind_eq_bind, Option.bind_some, reserveWith,
    if_neg hroom, Option.bind_eq_bind, Option.bind_some]
  dsimp only
  rw [Bool.not_true, if_neg Bool.false_ne_true, ReceiveBuffer.append, hfront.size_eq, toSize_ofNat (by omega),
    toSize_ofNat hchunk, hcopy]
  rfl

/-- Consuming messages keeps the bounds. -/
theorem HasSizes.consume (h : b.HasSizes pos size capacity) (n : ℕ) :
    (b.consume n).HasSizes (pos + min n (size - pos)) size capacity := by
  have hle := h.pos_le
  have hle' := h.size_le
  have hmax := h.capacity_le
  refine ⟨?_, h.size_eq, h.capacity_eq, by omega, hle', hmax, h.length_cells⟩
  rw [ReceiveBuffer.consume, h.pos_eq, toSize_ofNat (by omega), h.length_pending]

/-! ### Sequences of calls -/

/-- A call that has the memory it needs keeps the bounds. -/
theorem HasSizes.exec_of_provided (h : b.HasSizes pos size capacity) {event : Event}
    (hprovided : event.Provided b) :
    event.total b ≤ INT_MAX ∧ ∃ b' pos' size' capacity',
      event.exec b = some (true, b') ∧ b'.HasSizes pos' size' capacity' := by
  cases event with
  | append chunk allocated =>
      obtain ⟨hfits, hallocated⟩ := hprovided
      rw [h.capacity_eq, toInt_ofNat_le h.capacity_le] at hallocated
      obtain ⟨b', capacity', hexec, hsizes⟩ :=
        h.exec_append chunk hfits (by exact_mod_cast hallocated)
      exact ⟨hfits, b', _, _, capacity', hexec, hsizes⟩
  | consume n =>
      have hle := h.size_le
      have hmax := h.capacity_le
      refine ⟨?_, _, _, _, _, rfl, h.consume n⟩
      rw [Event.total, h.length_pending]
      omega

/-- A call without the memory it needs writes behind the block, or it leaves a capacity that is not
the length of the block. -/
theorem HasSizes.exec_of_not_provided (h : b.HasSizes pos size capacity) {event : Event}
    (hprovided : ¬ event.Provided b) {success : Bool} {b' : ReceiveBuffer}
    (hexec : event.exec b = some (success, b')) : b'.cells.length ≠ b'.bufferCapacity.toInt := by
  cases event with
  | append chunk allocated =>
      rcases le_or_gt (b.pending.length + chunk.bytes.length) INT_MAX with hfits | hlarge
      · have hneeds : capacity < b.pending.length + chunk.bytes.length ∧ allocated = false := by
          rw [Event.Provided, not_and, h.capacity_eq, toInt_ofNat_le h.capacity_le] at hprovided
          have hfailed := hprovided hfits
          rw [Classical.not_imp, Bool.not_eq_true] at hfailed
          exact_mod_cast hfailed
        obtain ⟨hroom, rfl⟩ := hneeds
        obtain ⟨front, hfront, hfailed⟩ := h.exec_append_failed chunk hfits hroom
        obtain ⟨-, rfl⟩ := Prod.mk.inj (Option.some.inj (hexec.symm.trans hfailed))
        dsimp only
        rw [hfront.length_cells, toInt_ofNat_le hfits]
        omega
      · rw [h.exec_append_overflow chunk allocated hlarge] at hexec
        exact nomatch hexec
  | consume n => exact absurd trivial hprovided

theorem KeepsAccounts.length_cells {events : List Event} (h : b.KeepsAccounts events) :
    b.cells.length = b.bufferCapacity.toInt := by
  cases events with
  | nil => exact h
  | cons event events => exact h.1

theorem HasSizes.keeps_iff (h : b.HasSizes pos size capacity) (events : List Event) :
    b.KeepsAccounts events ↔ b.Provided events := by
  -- the sizes are right in front of every call, as they are behind one that has its memory
  induction events generalizing b pos size capacity with
  | nil => exact iff_of_true h.inBounds.allocated trivial
  | cons event events ih =>
      constructor
      · rintro ⟨-, success, b', hexec, -, hkeeps⟩
        have hprovided : event.Provided b := by
          by_contra hprovided
          exact h.exec_of_not_provided hprovided hexec hkeeps.length_cells
        obtain ⟨-, next, pos', size', capacity', hnext, hsizes⟩ := h.exec_of_provided hprovided
        refine ⟨hprovided, fun success' next' hnext' => ?_⟩
        obtain ⟨-, rfl⟩ := Prod.mk.inj (Option.some.inj (hnext.symm.trans hnext'))
        obtain ⟨-, rfl⟩ := Prod.mk.inj (Option.some.inj (hnext.symm.trans hexec))
        exact (ih hsizes).mp hkeeps
      · rintro ⟨hprovided, hrest⟩
        obtain ⟨hfits, next, pos', size', capacity', hnext, hsizes⟩ := h.exec_of_provided hprovided
        exact ⟨h.inBounds.allocated, true, next, hnext, fun hlarge => absurd hlarge (by omega),
          (ih hsizes).mpr (hrest true next hnext)⟩

/-- In every sequence of chunks and consumed messages the sizes, the capacity and the block agree if
and only if each call has the memory it needs. -/
theorem keepsAccounts_iff (events : List Event) : init.KeepsAccounts events ↔ init.Provided events :=
  inBounds_init.hasSizes.keeps_iff events

/-- One byte more than the buffer has room for. -/
def largeChunk : Chunk where
  bytes := List.replicate 16001 0
  ne_nil := List.replicate_succ ▸ List.cons_ne_nil _ _
  length_le := List.length_replicate.trans_le (by decide)

theorem hasSizes_init : init.HasSizes 0 0 16000 :=
  ⟨rfl, rfl, rfl, le_rfl, Nat.zero_le _, by decide, List.length_replicate⟩

theorem length_pending_init : init.pending.length = 0 := hasSizes_init.length_pending

/-- The block for a chunk of 16001 bytes cannot be had: the capacity is 16001 then, and the block
has 16000 bytes. -/
theorem not_keepsAccounts_largeChunk : ¬ init.KeepsAccounts [.append largeChunk false] := by
  have hlength : largeChunk.bytes.length = 16001 := List.length_replicate
  rintro ⟨-, success, b', hexec, -, hkeeps⟩
  refine hasSizes_init.exec_of_not_provided (fun hprovided => ?_) hexec hkeeps
  have hallocated := hprovided.2 (by
    rw [length_pending_init, hlength]
    decide)
  exact Bool.noConfusion hallocated

/-! ### The call behind a failed one -/

/-- Bytes that are in front already stay where they are. -/
theorem compact_of_front (hpos : b.bufferPos = 0) (hsize : toSize b.bufferSize ≤ b.cells.length) :
    b.compact = some b := by
  unfold ReceiveBuffer.compact
  split_ifs with hsame
  · have hcopy : Cells.copy b.cells 0 b.cells 0 (toSize b.bufferSize) = some b.cells := by
      rw [Cells.copy, if_pos ⟨by omega, by omega⟩, List.take_zero, List.drop_zero, List.nil_append,
        Nat.zero_add, List.take_append_drop]
    have hzero : toSize 0 = 0 := rfl
    rw [hpos, Int32.sub_zero, hzero, hcopy]
    obtain ⟨cells, bufferSize, bufferPos, bufferCapacity⟩ := b
    obtain rfl := hpos
    rfl
  · rw [not_not] at hsame
    rw [hpos] at hsame
    obtain ⟨cells, bufferSize, bufferPos, bufferCapacity⟩ := b
    obtain rfl : bufferPos = 0 := hpos
    obtain rfl : bufferSize = 0 := hsame
    rfl

/-- The next call with the same bytes asks for no block, and its copy does not end within the one
that is there. -/
theorem HasSizes.exec_append_behind_failed (h : b.HasSizes pos size capacity) (chunk : Chunk)
    (hfits : b.pending.length + chunk.bytes.length ≤ INT_MAX)
    (hroom : capacity < b.pending.length + chunk.bytes.length) {b' : ReceiveBuffer}
    (hfailed : (Event.append chunk false).exec b = some (false, b')) (allocated : Bool) :
    (Event.append chunk allocated).exec b' = none := by
  obtain ⟨front, hfront, hexec⟩ := h.exec_append_failed chunk hfits hroom
  obtain ⟨-, rfl⟩ := Prod.mk.inj (Option.some.inj (hfailed.symm.trans hexec))
  have hle := hfront.size_le
  have hmax := hfront.capacity_le
  have hcompact := compact_of_front (b := { front with
      bufferCapacity := Int32.ofNat (b.pending.length + chunk.bytes.length) }) hfront.pos_eq (by
    dsimp only
    rw [hfront.size_eq, toSize_ofNat (by omega), hfront.length_cells]
    exact hle)
  have hcopy : Cells.copy front.cells b.pending.length chunk.bytes 0 chunk.bytes.length = none := by
    rw [Cells.copy, if_neg]
    rw [hfront.length_cells]
    omega
  rw [Event.exec, appendNewDataWith, hcompact, Option.bind_eq_bind, Option.bind_some, reserveWith]
  dsimp only
  rw [if_neg (by rw [hfront.size_eq, ← Int32.ofNat_add]; exact Int32.lt_irrefl), Option.bind_eq_bind,
    Option.bind_some]
  dsimp only
  rw [Bool.not_true, if_neg Bool.false_ne_true, ReceiveBuffer.append, hfront.size_eq,
    toSize_ofNat (by omega), toSize_ofNat chunk.length_le, hcopy]
  rfl

end ReceiveBuffer

end DxFeed.ServerMessageProcessor
