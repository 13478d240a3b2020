import DxFeed.Library.Cells
import DxFeed.ServerMessageProcessor.Framing

/-!
# The receive buffer

The block of memory in which `dx_process_server_data` keeps what it has received.  Its sizes are
numbers of type `int`, the copies are checked, and allocations succeed.

* `ReceiveBuffer.appendNewData`: `dx_append_new_data`;
* `ReceiveBuffer.InBounds`: the bounds of the position and the size;
* `appendNewData_spec`: the unprocessed bytes are moved to the front, and the new ones follow them;
* `Receiver`: the receive buffer with the input stream and the messages handed over;
* `toConnection_processServerData`: a receiver behaves like the connection of its unprocessed bytes.
-/

namespace DxFeed.ServerMessageProcessor

open Call BufferedIO

/-! ### Sizes -/

/-- An `int` as a `size_t`. -/
def toSize (x : Int32) : ℕ := x.toInt64.toUInt64.toNat

theorem toInt_ofNat_le {n : ℕ} (h : n ≤ INT_MAX) : (Int32.ofNat n).toInt = n :=
  Int32.toInt_ofNat_of_lt (by unfold INT_MAX at h; omega)

theorem toSize_ofNat {n : ℕ} (h : n ≤ INT_MAX) : toSize (Int32.ofNat n) = n := by
  unfold INT_MAX at h
  have hlong : (Int32.ofNat n).toInt64.toInt = n := by
    rw [Int32.toInt_toInt64]
    exact toInt_ofNat_le h
  have hnat : (Int32.ofNat n).toInt64 = Int64.ofNat n := by
    rw [← Int64.toInt_inj, hlong, Int64.toInt_ofNat_of_lt (by omega)]
  rw [toSize, hnat]
  simp
  omega

/-! ### The buffer -/

/-- The receive buffer of `dx_server_msg_proc_connection_context_t`: the allocated bytes and three
numbers. -/
structure ReceiveBuffer where
  cells : List Int8
  bufferSize : Int32
  bufferPos : Int32
  bufferCapacity : Int32

namespace ReceiveBuffer

/-- `DEFAULT_BUFFER_CAPACITY`. -/
def defaultBufferCapacity : Int32 := 16000

/-- The buffer of a new connection; what an allocated byte holds at first does not matter. -/
def init : ReceiveBuffer :=
  ⟨List.replicate 16000 0, 0, 0, defaultBufferCapacity⟩

/-- `dx_append_new_data` moves the unprocessed bytes to the beginning of the buffer. -/
def compact (b : ReceiveBuffer) : Option ReceiveBuffer :=
  if b.bufferSize ≠ b.bufferPos then do
    let cells ← Cells.copy b.cells 0 b.cells (toSize b.bufferPos) (toSize (b.bufferSize - b.bufferPos))
    return { b with
      cells := cells
      bufferSize := b.bufferSize - b.bufferPos
      bufferPos := 0 }
  else some { b with bufferSize := 0, bufferPos := 0 }

/-- It moves them to a larger block if there is no room for the new ones. -/
def reserve (b : ReceiveBuffer) (newBufferSize : Int32) : Option ReceiveBuffer :=
  if b.bufferCapacity < b.bufferSize + newBufferSize then do
    let capacity := b.bufferSize + newBufferSize
    let cells ← Cells.copy (List.replicate (toSize capacity) 0) 0 b.cells 0 (toSize b.bufferSize)
    return { b with cells := cells, bufferCapacity := capacity }
  else some b

/-- And it copies the new ones behind them. -/
def append (b : ReceiveBuffer) (newBuffer : List Int8) (newBufferSize : Int32) :
    Option ReceiveBuffer := do
  let cells ← Cells.copy b.cells (toSize b.bufferSize) newBuffer 0 (toSize newBufferSize)
  return { b with cells := cells, bufferSize := b.bufferSize + newBufferSize }

/-- `dx_append_new_data` on the buffer. -/
def appendNewData (b : ReceiveBuffer) (newBuffer : List Int8) (newBufferSize : Int32) :
    Option ReceiveBuffer := do
  let b ← b.compact
  let b ← b.reserve newBufferSize
  b.append newBuffer newBufferSize

/-- The bounds of the position and the size. -/
structure InBounds (b : ReceiveBuffer) : Prop where
  pos : 0 ≤ b.bufferPos.toInt
  size : b.bufferPos.toInt ≤ b.bufferSize.toInt
  capacity : b.bufferSize.toInt ≤ b.bufferCapacity.toInt
  allocated : b.cells.length = b.bufferCapacity.toInt

/-- The bytes that are not processed yet. -/
def pending (b : ReceiveBuffer) : List Int8 :=
  (b.cells.take (toSize b.bufferSize)).drop (toSize b.bufferPos)

/-- A buffer whose position, size and capacity are these numbers. -/
structure HasSizes (b : ReceiveBuffer) (pos size capacity : ℕ) : Prop where
  pos_eq : b.bufferPos = Int32.ofNat pos
  size_eq : b.bufferSize = Int32.ofNat size
  capacity_eq : b.bufferCapacity = Int32.ofNat capacity
  pos_le : pos ≤ size
  size_le : size ≤ capacity
  capacity_le : capacity ≤ INT_MAX
  length_cells : b.cells.length = capacity

variable {b b' : ReceiveBuffer} {pos size capacity : ℕ}

theorem eq_ofNat_of_nonneg {x : Int32} (h : 0 ≤ x.toInt) : x = Int32.ofNat x.toInt.toNat := by
  have hlt := x.toInt_lt
  rw [← Int32.toInt_inj, Int32.toInt_ofNat_of_lt (by omega)]
  omega

theorem InBounds.hasSizes (h : b.InBounds) :
    b.HasSizes b.bufferPos.toInt.toNat b.bufferSize.toInt.toNat b.bufferCapacity.toInt.toNat := by
  have hpos := h.pos
  have hsize := h.size
  have hcapacity := h.capacity
  have hallocated := h.allocated
  have hlt := b.bufferCapacity.toInt_lt
  exact ⟨eq_ofNat_of_nonneg hpos, eq_ofNat_of_nonneg (by omega), eq_ofNat_of_nonneg (by omega),
    by omega, by omega, by unfold INT_MAX; omega, by omega⟩

theorem HasSizes.inBounds (h : b.HasSizes pos size capacity) : b.InBounds := by
  obtain ⟨hpos, hsize, hcapacity, hle, hle', hmax, hcells⟩ := h
  refine ⟨?_, ?_, ?_, ?_⟩
  · rw [hpos, toInt_ofNat_le (by omega)]
    exact Int.natCast_nonneg _
  · rw [hpos, hsize, toInt_ofNat_le (by omega), toInt_ofNat_le (by omega)]
    exact_mod_cast hle
  · rw [hsize, hcapacity, toInt_ofNat_le (by omega), toInt_ofNat_le hmax]
    exact_mod_cast hle'
  · rw [hcapacity, toInt_ofNat_le hmax, hcells]

theorem inBounds_init : init.InBounds := by
  refine ⟨by decide, by decide, by decide, ?_⟩
  rw [init, List.length_replicate]
  decide

theorem HasSizes.pending_eq (h : b.HasSizes pos size capacity) :
    b.pending = (b.cells.take size).drop pos := by
  have hsize := h.size_le
  have hpos := h.pos_le
  have hmax := h.capacity_le
  rw [pending, h.size_eq, h.pos_eq, toSize_ofNat (by omega), toSize_ofNat (by omega)]

theorem HasSizes.length_pending (h : b.HasSizes pos size capacity) :
    b.pending.length = size - pos := by
  have hsize := h.size_le
  rw [h.pending_eq, List.length_drop, List.length_take, h.length_cells]
  omega

theorem ofNat_sub {m n : ℕ} (h : m ≤ n) : Int32.ofNat n - Int32.ofNat m = Int32.ofNat (n - m) := by
  obtain ⟨k, rfl⟩ := Nat.exists_eq_add_of_le h
  rw [Int32.ofNat_add, Nat.add_sub_cancel_left, Int32.add_comm, Int32.add_sub_cancel]

/-- The unprocessed bytes are in front, and the position is zero. -/
theorem HasSizes.compact (h : b.HasSizes pos size capacity) :
    ∃ b', b.compact = some b' ∧ b'.HasSizes 0 (size - pos) capacity ∧ b'.pending = b.pending := by
  have hle := h.pos_le
  have hle' := h.size_le
  have hmax := h.capacity_le
  unfold ReceiveBuffer.compact
  by_cases hsame : b.bufferSize = b.bufferPos
  · have hnat : size = pos := by
      have hint := congrArg Int32.toInt hsame
      rw [h.size_eq, h.pos_eq, toInt_ofNat_le (by omega), toInt_ofNat_le (by omega)] at hint
      exact_mod_cast hint
    have hsizes : HasSizes { b with bufferSize := 0, bufferPos := 0 } 0 (size - pos) capacity :=
      ⟨rfl, by rw [hnat, Nat.sub_self]; rfl, h.capacity_eq, Nat.zero_le _, by omega, hmax,
        h.length_cells⟩
    refine ⟨_, if_neg (not_not.mpr hsame), hsizes, ?_⟩
    rw [hsizes.pending_eq, h.pending_eq, hnat, Nat.sub_self]
    simp
  · obtain ⟨cells, hcopy⟩ : ∃ cells, Cells.copy b.cells 0 b.cells pos (size - pos) = some cells := by
      rw [Cells.copy, if_pos ⟨by rw [h.length_cells]; omega, by rw [h.length_cells]; omega⟩]
      exact ⟨_, rfl⟩
    have hcells := (Cells.copy_eq_some.mp hcopy).2
    have hsizes : HasSizes { b with
        cells := cells, bufferSize := b.bufferSize - b.bufferPos, bufferPos := 0 }
        0 (size - pos) capacity :=
      ⟨rfl, by rw [h.size_eq, h.pos_eq, ofNat_sub hle], h.capacity_eq, Nat.zero_le _, by omega, hmax,
        (Cells.length_copy hcopy).trans h.length_cells⟩
    refine ⟨_, ?_, hsizes, ?_⟩
    · rw [if_pos hsame, h.size_eq, h.pos_eq, ofNat_sub hle, toSize_ofNat (by omega),
        toSize_ofNat (by omega), hcopy]
      rfl
    · rw [hsizes.pending_eq, h.pending_eq, List.drop_zero]
      dsimp only
      rw [hcells, List.take_zero, List.nil_append, List.take_left', List.drop_take]
      rw [List.length_take, List.length_drop, h.length_cells]
      omega

/-- There is room for the new bytes behind the old ones, which stay. -/
theorem HasSizes.reserve (h : b.HasSizes 0 size capacity) {n : ℕ} (hn : size + n ≤ INT_MAX) :
    ∃ b' capacity', b.reserve (Int32.ofNat n) = some b' ∧ b'.HasSizes 0 size capacity' ∧
      size + n ≤ capacity' ∧ b'.pending = b.pending := by
  have hle := h.size_le
  have hmax := h.capacity_le
  have hsum : b.bufferSize + Int32.ofNat n = Int32.ofNat (size + n) := by
    rw [h.size_eq, Int32.ofNat_add]
  have hless : b.bufferCapacity < b.bufferSize + Int32.ofNat n ↔ capacity < size + n := by
    rw [hsum, h.capacity_eq, Int32.lt_iff_toInt_lt, toInt_ofNat_le hmax, toInt_ofNat_le hn]
    exact Nat.cast_lt
  unfold ReceiveBuffer.reserve
  by_cases hroom : capacity < size + n
  · obtain ⟨cells, hcopy⟩ : ∃ cells,
        Cells.copy (List.replicate (size + n) 0) 0 b.cells 0 size = some cells := by
      rw [Cells.copy, if_pos ⟨by rw [h.length_cells]; omega, by rw [List.length_replicate]; omega⟩]
      exact ⟨_, rfl⟩
    have hcells := (Cells.copy_eq_some.mp hcopy).2
    have hsizes : HasSizes { b with
        cells := cells, bufferCapacity := b.bufferSize + Int32.ofNat n } 0 size (size + n) :=
      ⟨h.pos_eq, h.size_eq, hsum, Nat.zero_le _, Nat.le_add_right _ _, hn,
        (Cells.length_copy hcopy).trans List.length_replicate⟩
    refine ⟨_, size + n, ?_, hsizes, le_rfl, ?_⟩
    · rw [if_pos (hless.mpr hroom), hsum]
      dsimp only
      rw [toSize_ofNat hn, h.size_eq, toSize_ofNat (by omega), hcopy]
      rfl
    · rw [hsizes.pending_eq, h.pending_eq, List.drop_zero, List.drop_zero]
      dsimp only
      rw [hcells, List.take_zero, List.nil_append, List.drop_zero, List.take_left']
      rw [List.length_take, h.length_cells]
      omega
  · exact ⟨b, capacity, if_neg (hless.not.mpr hroom), h, by omega, rfl⟩

/-- The new bytes follow the old ones. -/
theorem HasSizes.append (h : b.HasSizes 0 size capacity) {newBuffer : List Int8}
    (hroom : size + newBuffer.length ≤ capacity) :
    ∃ b', b.append newBuffer (Int32.ofNat newBuffer.length) = some b' ∧
      b'.HasSizes 0 (size + newBuffer.length) capacity ∧ b'.pending = b.pending ++ newBuffer := by
  have hmax := h.capacity_le
  obtain ⟨cells, hcopy⟩ : ∃ cells,
      Cells.copy b.cells size newBuffer 0 newBuffer.length = some cells := by
    rw [Cells.copy, if_pos ⟨by omega, by rw [h.length_cells]; omega⟩]
    exact ⟨_, rfl⟩
  have hcells := (Cells.copy_eq_some.mp hcopy).2
  have hsizes : HasSizes { b with
      cells := cells, bufferSize := b.bufferSize + Int32.ofNat newBuffer.length }
      0 (size + newBuffer.length) capacity :=
    ⟨h.pos_eq, by rw [h.size_eq, Int32.ofNat_add], h.capacity_eq, Nat.zero_le _, hroom, hmax,
      (Cells.length_copy hcopy).trans h.length_cells⟩
  refine ⟨_, ?_, hsizes, ?_⟩
  · rw [ReceiveBuffer.append, h.size_eq, toSize_ofNat (by omega), toSize_ofNat (by omega), hcopy]
    rfl
  · rw [hsizes.pending_eq, h.pending_eq, List.drop_zero, List.drop_zero]
    dsimp only
    rw [hcells, List.drop_zero, List.take_length, List.take_left']
    rw [List.length_append, List.length_take, h.length_cells]
    omega

/-- Behind `dx_append_new_data` the buffer holds the unprocessed bytes and the new ones. -/
theorem appendNewData_spec (h : b.InBounds) {newBuffer : List Int8}
    (hfits : b.pending.length + newBuffer.length ≤ INT_MAX) :
    ∃ b' capacity, b.appendNewData newBuffer (Int32.ofNat newBuffer.length) = some b' ∧
      b'.HasSizes 0 (b.pending.length + newBuffer.length) capacity ∧
      b'.pending = b.pending ++ newBuffer := by
  have hsizes := h.hasSizes
  rw [hsizes.length_pending] at hfits ⊢
  obtain ⟨front, hcompact, hfront, hfront'⟩ := hsizes.compact
  obtain ⟨roomy, capacity, hreserve, hroomy, hroom, hroomy'⟩ := hfront.reserve hfits
  obtain ⟨b', happend, hb', hpending⟩ := hroomy.append hroom
  refine ⟨b', capacity, ?_, hb', by rw [hpending, hroomy', hfront']⟩
  simp only [appendNewData, hcompact, hreserve, happend, bind, Option.bind]

end ReceiveBuffer

/-! ### Receivers -/

/-- The parts of `dx_server_msg_proc_connection_context_t` that `dx_process_server_data` works on,
and the messages that it handed over. -/
structure Receiver (σ : Type) where
  memory : ReceiveBuffer
  session : Session σ
  handed : List Handed

namespace Receiver

variable {σ : Type}

/-- The receiver of a new connection, whose input stream has no buffer. -/
def init (s : σ) : Receiver σ :=
  ⟨.init, ⟨⟨none, 0, 0⟩, s⟩, []⟩

/-- `dx_process_server_data` in front of its loop: the new bytes are appended, and the input stream
starts at the first byte that is not processed. -/
def startLoop (r : Receiver σ) (data : List Int8) : Option (ReceiveBuffer × Progress σ) := do
  let memory ← r.memory.appendNewData data (Int32.ofNat data.length)
  return (memory,
    { session := { r.session with bicc := { r.session.bicc with
        inBuffer := some (memory.cells.take (toSize memory.bufferSize))
        currentInBufferPosition := toSize memory.bufferPos } }
      processResult := true
      handed := r.handed })

/-- `dx_process_server_data`; the loop has one round more than there are bytes. -/
def processServerData (h : Handlers σ) (r : Receiver σ) (data : List Int8) :
    Option (Receiver σ × Bool) :=
  if data.isEmpty then some (r, false)
  else do
    let (memory, start) ← r.startLoop data
    let p ← processLoop h (toSize memory.bufferSize) (toSize memory.bufferSize + 1) start
    return (
      { memory := { memory with
          bufferPos := Int32.ofNat p.session.bicc.currentInBufferPosition }
        session := p.session
        handed := p.handed }, p.processResult)

/-- The connection that a receiver stands for. -/
def toConnection (r : Receiver σ) : Connection σ where
  buffer := r.memory.cells.take (toSize r.memory.bufferSize)
  bufferPos := toSize r.memory.bufferPos
  session := r.session
  handed := r.handed

variable {h : Handlers σ} {r : Receiver σ} {data : List Int8}

/-- The loop starts on the unprocessed bytes and the new ones. -/
theorem startLoop_spec (hbounds : r.memory.InBounds)
    (hfits : r.memory.pending.length + data.length ≤ INT_MAX) :
    ∃ memory capacity,
      r.startLoop data = some (memory,
        ⟨⟨⟨some (r.memory.pending ++ data), r.session.bicc.inBufferLimit, 0⟩, r.session.state⟩,
          true, r.handed⟩) ∧
      memory.HasSizes 0 (r.memory.pending.length + data.length) capacity ∧
      memory.pending = r.memory.pending ++ data := by
  obtain ⟨memory, capacity, happend, hsizes, hpending⟩ :=
    ReceiveBuffer.appendNewData_spec hbounds hfits
  refine ⟨memory, capacity, ?_, hsizes, hpending⟩
  have hbytes := hsizes.pending_eq
  rw [hpending, List.drop_zero] at hbytes
  rw [startLoop, happend, Option.bind_eq_bind, Option.bind_some, hsizes.size_eq, hsizes.pos_eq,
    toSize_ofNat hfits, hbytes]
  rfl

/-- A receiver behaves like the connection of its unprocessed bytes, as long as the position is an
`int`. -/
theorem toConnection_processServerData (hbounds : r.memory.InBounds)
    (hfits : r.memory.pending.length + data.length ≤ INT_MAX)
    (hposition : ∀ c ok, ServerMessageProcessor.processServerData h r.toConnection data = some (c, ok) →
      c.bufferPos ≤ INT_MAX) :
    (r.processServerData h data).map (fun result => (result.1.toConnection, result.2)) =
      ServerMessageProcessor.processServerData h r.toConnection data := by
  obtain ⟨memory, capacity, hstart, hsizes, hpending⟩ := startLoop_spec hbounds hfits
  unfold processServerData ServerMessageProcessor.processServerData at *
  by_cases hempty : data.isEmpty = true
  · rw [if_pos hempty, if_pos hempty]
    rfl
  · have hbytes := hsizes.pending_eq
    rw [hpending, List.drop_zero] at hbytes
    have hsize : toSize memory.bufferSize = r.memory.pending.length + data.length := by
      rw [hsizes.size_eq, toSize_ofNat hfits]
    simp only [if_neg hempty] at hposition ⊢
    have hunconsumed : r.toConnection.unconsumed = r.memory.pending := rfl
    simp only [hstart, Option.bind_eq_bind, Option.bind_some, hsize]
    simp only [Connection.appendNewData, hunconsumed, List.length_append] at hposition ⊢
    cases hloop : processLoop h (r.memory.pending.length + data.length)
        (r.memory.pending.length + data.length + 1)
        ⟨⟨⟨some (r.memory.pending ++ data), r.session.bicc.inBufferLimit, 0⟩, r.session.state⟩,
          true, r.handed⟩ with
    | none => simp [toConnection, hloop]
    | some p =>
        have hle := hposition _ _ (by simp only [toConnection, hloop]; rfl)
        simp only [toConnection, hloop, Option.bind_some, Option.map_some, pure]
        rw [hsize, ← hbytes, toSize_ofNat hle]

end Receiver

end DxFeed.ServerMessageProcessor
