import DxFeed.BufferedIO.Local

/-!
# The length of a byte array

* `AtMost`: how far a read goes, inside of its buffer or not;
* `ChecksLength`: a byte array is read if its length is at most the number of the bytes that remain,
  and otherwise nothing is read behind its length;
* `checksLength_iff`: this is so if and only if the position and the length do not overflow.
-/

namespace DxFeed.BufferedIO

open Call

/-! ### How far a read goes -/

section AtMost

variable {α β : Type}

/-- A read goes forward by at most `n` bytes, also where a capacity test wraps. -/
def AtMost (n : ℕ) (x : ReadCall α) : Prop :=
  ∀ context : InputContext,
    (exec x context).2.currentInBufferPosition ≤ context.currentInBufferPosition + n

theorem AtMost.mono {m n : ℕ} {x : ReadCall α} (hx : AtMost m x) (h : m ≤ n) : AtMost n x :=
  fun context => (hx context).trans (Nat.add_le_add_left h _)

theorem atMost_pure (a : α) : AtMost 0 (pure a) := fun _ => le_rfl

theorem AtMost.bind {m n : ℕ} {x : ReadCall α} {f : α → ReadCall β} (hx : AtMost m x)
    (hf : ∀ a, AtMost n (f a)) : AtMost (m + n) (x >>= f) := by
  intro context
  have hfirst := hx context
  rcases hexec : exec x context with ⟨e | a, mid⟩ <;> rw [hexec] at hfirst
  · rw [exec_bind_error hexec]
    exact hfirst.trans (by omega)
  · have hrest := hf a mid
    rw [exec_bind_ok hexec]
    dsimp only at hfirst
    omega

theorem AtMost.map {n : ℕ} {x : ReadCall α} (hx : AtMost n x) (f : α → β) :
    AtMost n (do return f (← x)) :=
  hx.bind fun a => atMost_pure (f a)

theorem AtMost.ite {n : ℕ} {p : Prop} [Decidable p] {x y : ReadCall α} (hx : AtMost n x)
    (hy : AtMost n y) : AtMost n (if p then x else y) := by
  split_ifs
  · exact hx
  · exact hy

theorem atMost_validateBuffer (valueSize : ℕ) : AtMost 0 (validateBuffer valueSize) := by
  intro context
  unfold validateBuffer
  rw [exec_bind_ok (exec_get _)]
  split_ifs <;> exact le_rfl

theorem atMost_nextByte : AtMost 1 nextByte := fun _ => le_rfl

theorem atMost_readByte : AtMost 1 readByte :=
  (atMost_validateBuffer 1).bind fun _ => atMost_nextByte

theorem atMost_readUnsignedByte : AtMost 1 readUnsignedByte :=
  (atMost_validateBuffer 1).bind fun _ => atMost_nextByte.map _

theorem atMost_readUnsignedShort : AtMost 2 readUnsignedShort :=
  (atMost_validateBuffer 2).bind fun _ => atMost_nextByte.bind fun _ => atMost_nextByte.map _

theorem atMost_readInt : AtMost 4 readInt :=
  (atMost_validateBuffer 4).bind fun _ => atMost_nextByte.bind fun _ =>
    atMost_nextByte.bind fun _ => atMost_nextByte.bind fun _ => atMost_nextByte.map _

theorem atMost_readCompactHigh (n : Int32) : AtMost 4 (readCompactHigh n) := by
  unfold readCompactHigh
  refine ((atMost_pure _).mono (by norm_num)).ite (AtMost.ite ?_ (AtMost.ite ?_
    (AtMost.ite ?_ atMost_readInt)))
  · exact (atMost_readUnsignedByte.map _).mono (by norm_num)
  · exact (atMost_readUnsignedShort.map _).mono (by norm_num)
  · exact (atMost_readByte.bind fun _ => atMost_readUnsignedShort.map _).mono (by norm_num)

theorem atMost_readCompactLongFrom (n : Int32) : AtMost 8 (readCompactLongFrom n) := by
  unfold readCompactLongFrom
  refine ((atMost_pure _).mono (by norm_num)).ite (AtMost.ite ?_ (AtMost.ite ?_
    (AtMost.ite ?_ ?_)))
  · exact (atMost_readUnsignedByte.map _).mono (by norm_num)
  · exact (atMost_readUnsignedShort.map _).mono (by norm_num)
  · exact (atMost_readUnsignedByte.bind fun _ => atMost_readUnsignedShort.map _).mono
      (by norm_num)
  · exact (atMost_readCompactHigh n).bind fun _ => atMost_readInt.map _

/-- A compact number takes at most nine bytes. -/
theorem atMost_readCompactLong : AtMost 9 readCompactLong :=
  atMost_readUnsignedByte.bind fun _ => atMost_readCompactLongFrom _

end AtMost

/-! ### Byte arrays -/

/-- Behind a length `n` that was read, the array consists of the next `n` bytes if so many remain,
and otherwise the call fails and has copied nothing. -/
def ChecksLength (context : InputContext) : Prop :=
  ∀ n mid, exec readCompactLong context = (.ok n, mid) → 1 ≤ n.toInt → n.toInt ≤ INT_MAX →
    if mid.currentInBufferPosition + n.toInt.toNat ≤ mid.inBufferLength then
      exec readByteArray context =
        (.ok (some ((mid.buffer.drop mid.currentInBufferPosition).take n.toInt.toNat)),
          { mid with currentInBufferPosition := mid.currentInBufferPosition + n.toInt.toNat })
    else ∃ e, exec readByteArray context = (.error e, mid)

/-- The sum of the position behind the length and of the length itself, if it is in its range, is an
`int`. -/
def LengthInRange (context : InputContext) : Prop :=
  ∀ n mid, exec readCompactLong context = (.ok n, mid) → 1 ≤ n.toInt → n.toInt ≤ INT_MAX →
    mid.currentInBufferPosition + n.toInt.toNat ≤ INT_MAX

section ByteArray

variable {context mid : InputContext} {n : Int64}

/-- A length in its range is the length of a segment. -/
theorem exec_readByteArray (hexec : exec readCompactLong context = (.ok n, mid))
    (hpos : 1 ≤ n.toInt) (hmax : n.toInt ≤ INT_MAX) :
    exec readByteArray context =
      exec (do return some (← readByteBufferSegment n.toInt.toNat)) mid := by
  have hneg : ¬ (n < -1 ∨ n.toInt > INT_MAX) := by
    have hone : (-1 : Int64).toInt = -1 := rfl
    rw [Int64.lt_iff_toInt_lt, hone]
    omega
  have hnone : ¬ (n = -1 ∨ n = 0) := by
    rintro (rfl | rfl) <;> exact absurd hpos (by decide)
  rw [readByteArray, exec_bind_ok hexec, if_neg hneg, if_neg hnone]

/-- A segment for which the capacity is enough. -/
theorem exec_readByteBufferSegment_ok {k : ℕ}
    (hcap : isCapacityEnough mid.currentInBufferPosition k mid.inBufferLength = true) :
    exec (do return some (← readByteBufferSegment k)) mid =
      (.ok (some ((mid.buffer.drop mid.currentInBufferPosition).take k)),
        { mid with currentInBufferPosition := mid.currentInBufferPosition + k }) := by
  have hsegment : exec (readByteBufferSegment k) mid =
      (.ok ((mid.buffer.drop mid.currentInBufferPosition).take k),
        { mid with currentInBufferPosition := mid.currentInBufferPosition + k }) := by
    rw [readByteBufferSegment, exec_bind_ok (exec_get _), hcap]
    rfl
  rw [exec_bind_ok hsegment]
  rfl

theorem exec_readByteBufferSegment_error {k : ℕ}
    (hcap : isCapacityEnough mid.currentInBufferPosition k mid.inBufferLength = false) :
    exec (do return some (← readByteBufferSegment k)) mid = (.error .bufferUnderflow, mid) := by
  refine exec_bind_error ?_
  rw [readByteBufferSegment, exec_bind_ok (exec_get _), hcap]
  rfl

end ByteArray

/-- The length of a byte array is checked if and only if it does not overflow with the position. -/
theorem checksLength_iff (context : InputContext) (hlen : context.inBufferLength ≤ INT_MAX)
    (hposition : context.currentInBufferPosition ≤ context.inBufferLength) :
    ChecksLength context ↔ LengthInRange context := by
  constructor
  · intro hchecks n mid hexec hpos hmax
    by_contra hover
    have hlength := hchecks n mid hexec hpos hmax
    have hbuffer : mid.inBufferLength = context.inBufferLength := by
      have h := (local_readCompactLong.forward context).1
      rw [hexec] at h
      rw [InputContext.inBufferLength, InputContext.inBufferLength, InputContext.buffer,
        InputContext.buffer, h]
    have hadvance := atMost_readCompactLong context
    rw [hexec] at hadvance
    dsimp only at hadvance
    -- the segment is read although the bytes do not remain
    have hcap : isCapacityEnough mid.currentInBufferPosition n.toInt.toNat mid.inBufferLength =
        true := by
      unfold INT_MAX at hmax hlen
      exact isCapacityEnough_overflow (by omega) (by omega) (by unfold INT_MAX; omega)
    rw [if_neg (by omega), exec_readByteArray hexec hpos hmax,
      exec_readByteBufferSegment_ok hcap] at hlength
    obtain ⟨e, he⟩ := hlength
    cases (Prod.mk.inj he).1
  · intro hrange n mid hexec hpos hmax
    have hbuffer : mid.inBufferLength = context.inBufferLength := by
      have h := (local_readCompactLong.forward context).1
      rw [hexec] at h
      rw [InputContext.inBufferLength, InputContext.inBufferLength, InputContext.buffer,
        InputContext.buffer, h]
    have hcap := isCapacityEnough_eq mid.currentInBufferPosition n.toInt.toNat
      (hbuffer.trans_le hlen) (hrange n mid hexec hpos hmax)
    rw [exec_readByteArray hexec hpos hmax]
    split_ifs with hfits
    · rw [decide_eq_true hfits] at hcap
      exact exec_readByteBufferSegment_ok hcap
    · rw [decide_eq_false hfits] at hcap
      exact ⟨_, exec_readByteBufferSegment_error hcap⟩

/-- An array of two bytes is read. -/
theorem checksLength_two :
    ChecksLength (inputAt [] [2, 7, 8] 0) ↔ LengthInRange (inputAt [] [2, 7, 8] 0) :=
  checksLength_iff _ (by decide) (by decide)

/-- Behind the length `INT_MAX` no byte remains, but an array is read. -/
theorem not_checksLength_max : ¬ ChecksLength (inputAt [] [-16, 127, -1, -1, -1] 0) := by
  intro h
  have hexec : exec readCompactLong (inputAt [] [-16, 127, -1, -1, -1] 0) =
      (.ok 0x7FFFFFFF, inputAt [-16, 127, -1, -1, -1] [] 0) := by decide
  have hlength := h _ _ hexec (by decide) (by decide)
  rw [if_neg (by decide)] at hlength
  obtain ⟨e, he⟩ := hlength
  have hcap : isCapacityEnough (inputAt [-16, 127, -1, -1, -1] [] 0).currentInBufferPosition
      (0x7FFFFFFF : Int64).toInt.toNat (inputAt [-16, 127, -1, -1, -1] [] 0).inBufferLength =
      true := by decide
  rw [exec_readByteArray hexec (by decide) (by decide),
    exec_readByteBufferSegment_ok hcap] at he
  exact nomatch (Prod.mk.inj he).1

end DxFeed.BufferedIO
