import DxFeed.BufferedIO.Reach

/-!
# Capacity tests that wrap

The sum in a capacity test can wrap, and the bytes behind the buffer are then read as well.

* `MovedOn`: the position goes forward in the same buffer;
* `wraps`: whether one of the tests that are made one after the other wraps;
* `Tests`: a read that makes certain tests stays inside of the buffer if none of them wraps;
* `onward_readCompactLong`, `moves_readCompactLong`: both for compact numbers.
-/

namespace DxFeed.BufferedIO

open Call FixedWidth PrefixCode

variable {α β : Type} {context context' context'' : InputContext} {n : ℕ}

/-! ### Positions that go forward -/

/-- The position goes forward in the same buffer. -/
structure MovedOn (context context' : InputContext) : Prop where
  inBuffer : context'.inBuffer = context.inBuffer
  inBufferLimit : context'.inBufferLimit = context.inBufferLimit
  position : context.currentInBufferPosition ≤ context'.currentInBufferPosition

theorem movedOn_refl (context : InputContext) : MovedOn context context :=
  ⟨rfl, rfl, le_rfl⟩

theorem MovedOn.trans (h : MovedOn context context') (h' : MovedOn context' context'') :
    MovedOn context context'' :=
  ⟨h'.inBuffer.trans h.inBuffer, h'.inBufferLimit.trans h.inBufferLimit,
    h.position.trans h'.position⟩

theorem MovedOn.inBufferLength (h : MovedOn context context') :
    context'.inBufferLength = context.inBufferLength := by
  rw [InputContext.inBufferLength, InputContext.inBufferLength, InputContext.buffer,
    InputContext.buffer, h.inBuffer]

/-- The call goes onward from every position. -/
def GoesOnward (x : ReadCall α) : Prop :=
  ∀ context : InputContext, MovedOn context (exec x context).2

theorem onward_pure (a : α) : GoesOnward (pure a) := movedOn_refl

theorem GoesOnward.bind {x : ReadCall α} {f : α → ReadCall β} (hx : GoesOnward x)
    (hf : ∀ a, GoesOnward (f a)) : GoesOnward (x >>= f) := by
  intro context
  have hfirst := hx context
  rcases hexec : exec x context with ⟨e | a, context'⟩
  · rw [hexec] at hfirst
    rw [exec_bind_error hexec]
    exact hfirst
  · rw [hexec] at hfirst
    rw [exec_bind_ok hexec]
    exact hfirst.trans (hf a context')

theorem GoesOnward.map {x : ReadCall α} (hx : GoesOnward x) (f : α → β) :
    GoesOnward (do return f (← x)) :=
  hx.bind fun a => onward_pure (f a)

/-- A capacity test leaves the context, and lets through what the buffer holds or what wraps. -/
theorem exec_validateBuffer_cases (context : InputContext) (n : ℕ) :
    (∃ e, exec (validateBuffer n) context = (.error e, context)) ∨
      exec (validateBuffer n) context = (.ok (), context) ∧
        isCapacityEnough context.currentInBufferPosition n context.inBufferLength = true := by
  unfold validateBuffer
  rw [exec_bind_ok (exec_get _)]
  split_ifs with hnone hsmall
  · exact Or.inl ⟨_, rfl⟩
  · exact Or.inl ⟨_, rfl⟩
  · exact Or.inr ⟨rfl, by simpa using hsmall⟩

theorem Consumes.goesOnward {x : ReadCall α} (hx : Consumes n x) :
    GoesOnward (do validateBuffer n; x) := by
  intro context
  rcases exec_validateBuffer_cases context n with ⟨e, herror⟩ | ⟨hok, -⟩
  · rw [exec_bind_error herror]
    exact movedOn_refl context
  · obtain ⟨a, hexec⟩ := hx context
    rw [exec_bind_ok hok, hexec]
    exact ⟨rfl, rfl, Nat.le_add_right _ _⟩

theorem onward_readByte : GoesOnward readByte := consumes_nextByte.goesOnward

theorem onward_readUnsignedByte : GoesOnward readUnsignedByte :=
  (consumes_nextByte.bind fun _ => consumes_pure _).goesOnward

theorem onward_readUnsignedShort : GoesOnward readUnsignedShort :=
  (consumes_nextByte.bind fun _ => consumes_nextByte.bind fun _ => consumes_pure _).goesOnward

theorem onward_readInt : GoesOnward readInt :=
  (consumes_nextByte.bind fun _ => consumes_nextByte.bind fun _ => consumes_nextByte.bind fun _ =>
    consumes_nextByte.bind fun _ => consumes_pure _).goesOnward

theorem onward_readCompactLongFrom (m : Int32) : GoesOnward (readCompactLongFrom m) := by
  unfold readCompactLongFrom readCompactHigh
  split_ifs
  · exact onward_pure _
  · exact onward_readUnsignedByte.map _
  · exact onward_readUnsignedShort.map _
  · exact onward_readUnsignedByte.bind fun _ => onward_readUnsignedShort.map _
  · exact (onward_pure _).bind fun _ => onward_readInt.map _
  · exact (onward_readUnsignedByte.map _).bind fun _ => onward_readInt.map _
  · exact (onward_readUnsignedShort.map _).bind fun _ => onward_readInt.map _
  · exact (onward_readByte.bind fun _ => onward_readUnsignedShort.map _).bind fun _ =>
      onward_readInt.map _
  · exact onward_readInt.bind fun _ => onward_readInt.map _

theorem onward_readCompactLong : GoesOnward readCompactLong :=
  onward_readUnsignedByte.bind fun _ => onward_readCompactLongFrom _

/-- A compact number that is read takes a byte or more. -/
theorem position_lt_readCompactLong {a : Int64}
    (hexec : exec readCompactLong context = (.ok a, context')) :
    context.currentInBufferPosition < context'.currentInBufferPosition := by
  obtain ⟨b, mid, hfirst, hrest⟩ := exec_bind_eq_ok hexec
  have hbyte := steps_readUnsignedByte context mid b hfirst
  have hbehind := onward_readCompactLongFrom b.toInt32 mid
  rw [hrest] at hbehind
  have hle := hbehind.position
  dsimp only at hle
  omega

/-! ### Tests that wrap -/

/-- One of the tests for so many bytes each, made one after the other from a position on, wraps. -/
def wraps (length : ℕ) : ℕ → List ℕ → Bool
  | _, [] => false
  | position, n :: tests =>
      INT_MAX < position + n || (position + n ≤ length && wraps length (position + n) tests)

theorem wraps_append {length position : ℕ} {tests tests' : List ℕ}
    (h : wraps length position (tests ++ tests') = false) :
    wraps length position tests = false ∧
      (position + tests.sum ≤ length → wraps length (position + tests.sum) tests' = false) := by
  induction tests generalizing position with
  | nil => exact ⟨rfl, fun _ => h⟩
  | cons n tests ih =>
      rw [List.cons_append, wraps, Bool.or_eq_false_iff, Bool.and_eq_false_iff] at h
      obtain ⟨hfirst, hrest⟩ := h
      rw [wraps, hfirst, Bool.false_or, List.sum_cons, ← Nat.add_assoc, Bool.and_eq_false_iff]
      rcases hrest with hsmall | hrest
      · rw [decide_eq_false_iff_not] at hsmall
        exact ⟨Or.inl (decide_eq_false hsmall), fun hle => absurd hle (by omega)⟩
      · exact ⟨Or.inr (ih hrest).1, (ih hrest).2⟩

/-- The call makes these tests, as far as they succeed: if none of them wraps, it stays inside of the
buffer, and takes all the bytes or fails. -/
def Tests (tests : List ℕ) (x : ReadCall α) : Prop :=
  ∀ context : InputContext, context.currentInBufferPosition ≤ context.inBufferLength →
    context.inBufferLength ≤ INT_MAX →
    wraps context.inBufferLength context.currentInBufferPosition tests = false →
    ∃ k, Moves k context (exec x context).2 ∧
      ∀ a, (exec x context).1 = .ok a → k = tests.sum

theorem tests_pure (a : α) : Tests [] (pure a) := fun _ hposition _ _ =>
  ⟨0, ⟨rfl, rfl, rfl, hposition⟩, fun _ _ => rfl⟩

theorem Tests.bind {tests tests' : List ℕ} {x : ReadCall α} {f : α → ReadCall β}
    (hx : Tests tests x) (hf : ∀ a, Tests tests' (f a)) : Tests (tests ++ tests') (x >>= f) := by
  intro context hposition hlen hwraps
  obtain ⟨hfirst, hrest⟩ := wraps_append hwraps
  obtain ⟨k, hmoves, hall⟩ := hx context hposition hlen hfirst
  rcases hexec : exec x context with ⟨e | a, mid⟩
  · rw [hexec] at hmoves
    rw [exec_bind_error hexec]
    exact ⟨k, hmoves, fun a ha => nomatch ha⟩
  · rw [hexec] at hmoves hall
    obtain rfl := hall a rfl
    have hbound := hmoves.bound
    have hmid : mid.currentInBufferPosition ≤ mid.inBufferLength := by
      rw [hmoves.position, hmoves.inBufferLength]
      exact hbound
    obtain ⟨l, hmoves', hall'⟩ := hf a mid hmid (hmoves.inBufferLength ▸ hlen)
      (by rw [hmoves.position, hmoves.inBufferLength]; exact hrest hbound)
    rw [exec_bind_ok hexec]
    refine ⟨tests.sum + l, hmoves.trans hmoves', fun b hb => ?_⟩
    rw [hall' b hb, List.sum_append]

theorem Tests.map {tests : List ℕ} {x : ReadCall α} (hx : Tests tests x) (f : α → β) :
    Tests tests (do return f (← x)) := by
  have hmap := hx.bind fun a => tests_pure (f a)
  rwa [List.append_nil] at hmap

theorem Consumes.tests {x : ReadCall α} (hx : Consumes n x) :
    Tests [n] (do validateBuffer n; x) := by
  intro context hposition hlen hwraps
  rw [wraps, Bool.or_eq_false_iff, decide_eq_false_iff_not, not_lt] at hwraps
  rcases exec_validateBuffer_cases context n with ⟨e, herror⟩ | ⟨hok, henough⟩
  · rw [exec_bind_error herror]
    exact ⟨0, ⟨rfl, rfl, rfl, hposition⟩, fun a ha => nomatch ha⟩
  · obtain ⟨a, hexec⟩ := hx context
    rw [isCapacityEnough_eq _ _ hlen hwraps.1, decide_eq_true_eq] at henough
    rw [exec_bind_ok hok, hexec]
    exact ⟨n, ⟨rfl, rfl, rfl, henough⟩, fun _ _ => List.sum_singleton.symm⟩

theorem tests_readByte : Tests [1] readByte := consumes_nextByte.tests

theorem tests_readUnsignedByte : Tests [1] readUnsignedByte :=
  (consumes_nextByte.bind fun _ => consumes_pure _).tests

theorem tests_readUnsignedShort : Tests [2] readUnsignedShort :=
  (consumes_nextByte.bind fun _ => consumes_nextByte.bind fun _ => consumes_pure _).tests

theorem tests_readInt : Tests [4] readInt :=
  (consumes_nextByte.bind fun _ => consumes_nextByte.bind fun _ => consumes_nextByte.bind fun _ =>
    consumes_nextByte.bind fun _ => consumes_pure _).tests

/-- The tests behind the first byte of a compact number, by its class. -/
def testsOfClass : ℕ → List ℕ
  | 0 => []
  | 1 => [1]
  | 2 => [2]
  | 3 => [1, 2]
  | 4 => [4]
  | 5 => [1, 4]
  | 6 => [2, 4]
  | 7 => [1, 2, 4]
  | _ => [4, 4]

theorem tests_readCompactLongFrom (b : Int8) :
    Tests (testsOfClass (classOf (octet b))) (readCompactLongFrom (unsignedByte b).toInt32) := by
  unfold readCompactLongFrom readCompactHigh classOf
  simp only [firstByte_lt_iff b 0x80 (m := 0x80) rfl (by norm_num),
    firstByte_lt_iff b 0xC0 (m := 0xC0) rfl (by norm_num),
    firstByte_lt_iff b 0xE0 (m := 0xE0) rfl (by norm_num),
    firstByte_lt_iff b 0xF0 (m := 0xF0) rfl (by norm_num),
    firstByte_lt_iff b 0xF8 (m := 0xF8) rfl (by norm_num),
    firstByte_lt_iff b 0xFC (m := 0xFC) rfl (by norm_num),
    firstByte_lt_iff b 0xFE (m := 0xFE) rfl (by norm_num),
    firstByte_lt_iff b 0xFF (m := 0xFF) rfl (by norm_num)]
  split_ifs
  · exact tests_pure _
  · exact tests_readUnsignedByte.map _
  · exact tests_readUnsignedShort.map _
  · exact tests_readUnsignedByte.bind fun _ => tests_readUnsignedShort.map _
  · exact (tests_pure _).bind fun _ => tests_readInt.map _
  · exact (tests_readUnsignedByte.map _).bind fun _ => tests_readInt.map _
  · exact (tests_readUnsignedShort.map _).bind fun _ => tests_readInt.map _
  · exact (tests_readByte.bind fun _ => tests_readUnsignedShort.map _).bind fun _ =>
      tests_readInt.map _
  · exact tests_readInt.bind fun _ => tests_readInt.map _

/-- The tests that are made for a compact number at the position. -/
def InputContext.compactTests (context : InputContext) : List ℕ :=
  1 :: testsOfClass
    (classOf (octet (context.buffer.getD context.currentInBufferPosition 0)))

/-- Tests for bytes that end below `INT_MAX` do not wrap. -/
theorem wraps_eq_false {length position : ℕ} {tests : List ℕ}
    (h : position + tests.sum ≤ INT_MAX) : wraps length position tests = false := by
  induction tests generalizing position with
  | nil => rfl
  | cons n tests ih =>
      rw [List.sum_cons] at h
      rw [wraps, ih (by omega), Bool.and_false, Bool.or_false, decide_eq_false_iff_not]
      omega

theorem sum_compactTests_le (context : InputContext) : context.compactTests.sum ≤ 9 := by
  rw [InputContext.compactTests, List.sum_cons]
  unfold testsOfClass
  split <;> decide

/-- If no test for a compact number wraps, its end is inside of the buffer. -/
theorem moves_readCompactLong (hposition : context.currentInBufferPosition ≤ context.inBufferLength)
    (hlen : context.inBufferLength ≤ INT_MAX)
    (hwraps : wraps context.inBufferLength context.currentInBufferPosition
      context.compactTests = false) :
    ∃ k, Moves k context (exec readCompactLong context).2 := by
  set b := context.buffer.getD context.currentInBufferPosition 0 with hb
  have hread : exec readCompactLong context =
      exec (do let _ ← readUnsignedByte; readCompactLongFrom (unsignedByte b).toInt32) context := by
    rw [readCompactLong]
    rcases exec_validateBuffer_cases context 1 with ⟨e, herror⟩ | ⟨hok, -⟩
    · have hfail : exec readUnsignedByte context = (.error e, context) := exec_bind_error herror
      rw [exec_bind_error hfail, exec_bind_error hfail]
    · have hfirst : exec readUnsignedByte context = (.ok (unsignedByte b), { context with
          currentInBufferPosition := context.currentInBufferPosition + 1 }) := by
        rw [readUnsignedByte, exec_bind_ok hok, nextByte]
        rfl
      rw [exec_bind_ok hfirst, exec_bind_ok hfirst]
  have htests : Tests (1 :: testsOfClass (classOf (octet b)))
      (do let _ ← readUnsignedByte; readCompactLongFrom (unsignedByte b).toInt32) :=
    tests_readUnsignedByte.bind fun _ => tests_readCompactLongFrom b
  obtain ⟨k, hmoves, -⟩ := htests context hposition hlen hwraps
  rw [hread]
  exact ⟨k, hmoves⟩

end DxFeed.BufferedIO
