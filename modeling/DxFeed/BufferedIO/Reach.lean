import DxFeed.BufferedIO.Input

/-!
# How far reads reach

* `Moves`: the position goes forward, in the same buffer;
* `Advances`: a read never leaves its buffer, whether it succeeds or not;
* `Takes`: a read that succeeds takes a certain number of bytes;
* `Steps`: it goes forward by so many bytes, also where a capacity test wraps;
* `exec_readCompactLong_cut`: a compact number that is cut off is not read.
-/

namespace DxFeed.BufferedIO

open Call FixedWidth PrefixCode

/-- The position is inside of the buffer, and no capacity test for the next `room` bytes
wraps. -/
structure InputContext.InRange (room : ℕ) (context : InputContext) : Prop where
  position : context.currentInBufferPosition ≤ context.inBufferLength
  length : context.inBufferLength ≤ INT_MAX
  room : context.currentInBufferPosition + room ≤ INT_MAX

theorem InputContext.InRange.mono {m n : ℕ} {context : InputContext} (h : context.InRange n)
    (hle : m ≤ n) : context.InRange m :=
  ⟨h.position, h.length, (Nat.add_le_add_left hle _).trans h.room⟩

/-- The position goes forward by `n` bytes, in the same buffer. -/
structure Moves (n : ℕ) (context context' : InputContext) : Prop where
  inBuffer : context'.inBuffer = context.inBuffer
  inBufferLimit : context'.inBufferLimit = context.inBufferLimit
  position : context'.currentInBufferPosition = context.currentInBufferPosition + n
  bound : context.currentInBufferPosition + n ≤ context.inBufferLength

variable {α β : Type} {context context' context'' : InputContext} {m n : ℕ}

theorem Moves.inBufferLength (h : Moves n context context') :
    context'.inBufferLength = context.inBufferLength := by
  rw [InputContext.inBufferLength, InputContext.inBufferLength, InputContext.buffer,
    InputContext.buffer, h.inBuffer]

theorem Moves.inRange (h : Moves m context context') (hrange : context.InRange (m + n)) :
    context'.InRange n where
  position := by
    rw [h.position, h.inBufferLength]
    exact h.bound
  length := by
    rw [h.inBufferLength]
    exact hrange.length
  room := by
    rw [h.position, Nat.add_assoc]
    exact hrange.room

theorem moves_zero (hrange : context.InRange n) : Moves 0 context context :=
  ⟨rfl, rfl, rfl, hrange.position⟩

theorem Moves.trans (h : Moves m context context') (h' : Moves n context' context'') :
    Moves (m + n) context context'' where
  inBuffer := h'.inBuffer.trans h.inBuffer
  inBufferLimit := h'.inBufferLimit.trans h.inBufferLimit
  position := by
    rw [h'.position, h.position, Nat.add_assoc]
  bound := by
    have hbound := h'.bound
    rw [h.position, h.inBufferLength] at hbound
    omega

/-- The call goes forward by at most `n` bytes, inside of the buffer. -/
def Advances (n : ℕ) (x : ReadCall α) : Prop :=
  ∀ context : InputContext, context.InRange n → ∃ k ≤ n, Moves k context (exec x context).2

/-- If the call succeeds, it takes `n` bytes. -/
def Takes (n : ℕ) (x : ReadCall α) : Prop :=
  ∀ (context context' : InputContext) (a : α), context.InRange n →
    exec x context = (.ok a, context') → Moves n context context'

theorem takes_pure (a : α) : Takes 0 (pure a) := by
  intro context context' _ hrange hexec
  obtain rfl := (Prod.mk.inj hexec).2
  exact moves_zero hrange

theorem Takes.bind {x : ReadCall α} {f : α → ReadCall β} (hx : Takes m x)
    (hf : ∀ a, Takes n (f a)) : Takes (m + n) (x >>= f) := by
  intro context context'' b hrange hexec
  obtain ⟨a, context', hfirst, hrest⟩ := exec_bind_eq_ok hexec
  have hmoves := hx context context' a (hrange.mono (Nat.le_add_right m n)) hfirst
  exact hmoves.trans (hf a context' context'' b (hmoves.inRange hrange) hrest)

theorem advances_pure (a : α) : Advances 0 (pure a) :=
  fun _ hrange => ⟨0, le_rfl, moves_zero hrange⟩

theorem Advances.bind {x : ReadCall α} {f : α → ReadCall β} (hx : Advances m x)
    (hf : ∀ a, Advances n (f a)) : Advances (m + n) (x >>= f) := by
  intro context hrange
  obtain ⟨k, hk, hmoves⟩ := hx context (hrange.mono (Nat.le_add_right m n))
  rcases hexec : exec x context with ⟨e | a, context'⟩
  · rw [exec_bind_error hexec]
    rw [hexec] at hmoves
    exact ⟨k, by omega, hmoves⟩
  · rw [exec_bind_ok hexec]
    rw [hexec] at hmoves
    have hrest := hmoves.inRange (hrange.mono (Nat.add_le_add_right hk n))
    obtain ⟨l, hl, hmoves'⟩ := hf a context' hrest
    exact ⟨k + l, by omega, hmoves.trans hmoves'⟩

/-- The capacity test lets through what the buffer holds. -/
theorem exec_validateBuffer_of_ok (hrange : context.InRange n)
    (hexec : exec (validateBuffer n) context = (.ok (), context')) :
    context' = context ∧ context.currentInBufferPosition + n ≤ context.inBufferLength := by
  have hcap := isCapacityEnough_eq context.currentInBufferPosition n hrange.length hrange.room
  unfold validateBuffer at hexec
  rw [exec_bind_ok (exec_get _), hcap] at hexec
  split_ifs at hexec with hnone hsmall
  · exact nomatch (Prod.mk.inj hexec).1
  · exact nomatch (Prod.mk.inj hexec).1
  · refine ⟨(Prod.mk.inj hexec).2.symm, ?_⟩
    simpa using hsmall

theorem exec_validateBuffer_snd (n : ℕ) (context : InputContext) :
    (exec (validateBuffer n) context).2 = context := by
  unfold validateBuffer
  rw [exec_bind_ok (exec_get _)]
  split_ifs <;> rfl

/-! ### The primitive readers -/

/-- Without looking at the capacity, the call takes `n` bytes. -/
def Consumes (n : ℕ) (x : ReadCall α) : Prop :=
  ∀ context : InputContext, ∃ a, exec x context = (.ok a, { context with
    currentInBufferPosition := context.currentInBufferPosition + n })

theorem consumes_nextByte : Consumes 1 nextByte := by
  intro context
  refine ⟨context.buffer.getD context.currentInBufferPosition 0, ?_⟩
  rw [nextByte, exec_bind_ok (exec_get _), exec_bind_ok (exec_set _ _)]
  rfl

theorem consumes_pure (a : α) : Consumes 0 (pure a) := fun _ => ⟨a, rfl⟩

theorem Consumes.bind {x : ReadCall α} {f : α → ReadCall β} (hx : Consumes m x)
    (hf : ∀ a, Consumes n (f a)) : Consumes (m + n) (x >>= f) := by
  intro context
  obtain ⟨a, hfirst⟩ := hx context
  obtain ⟨b, hrest⟩ := hf a { context with
    currentInBufferPosition := context.currentInBufferPosition + m }
  refine ⟨b, ?_⟩
  rw [exec_bind_ok hfirst, hrest, Nat.add_assoc]

/-- Behind a capacity test for `n` bytes, a call takes them or nothing. -/
theorem Consumes.validated {x : ReadCall α} (hx : Consumes n x) :
    Takes n (do validateBuffer n; x) ∧ Advances n (do validateBuffer n; x) := by
  have hmoves : ∀ context : InputContext,
      context.currentInBufferPosition + n ≤ context.inBufferLength →
        Moves n context (exec x context).2 := by
    intro context hbound
    obtain ⟨a, hexec⟩ := hx context
    rw [hexec]
    exact ⟨rfl, rfl, rfl, hbound⟩
  constructor
  · intro context context' a hrange hexec
    obtain ⟨⟨⟩, mid, hvalid, hrest⟩ := exec_bind_eq_ok hexec
    obtain ⟨rfl, hbound⟩ := exec_validateBuffer_of_ok hrange hvalid
    have hmoves' := hmoves mid hbound
    rwa [hrest] at hmoves'
  · intro context hrange
    rcases hvalid : exec (validateBuffer n) context with ⟨e | ⟨⟩, mid⟩
    · obtain rfl : mid = context := by
        have hsnd := exec_validateBuffer_snd n context
        rwa [hvalid] at hsnd
      rw [exec_bind_error hvalid]
      exact ⟨0, Nat.zero_le n, moves_zero hrange⟩
    · obtain ⟨rfl, hbound⟩ := exec_validateBuffer_of_ok hrange hvalid
      rw [exec_bind_ok hvalid]
      exact ⟨n, le_rfl, hmoves mid hbound⟩

theorem readByte_reach : Takes 1 readByte ∧ Advances 1 readByte :=
  consumes_nextByte.validated

theorem readUnsignedByte_reach : Takes 1 readUnsignedByte ∧ Advances 1 readUnsignedByte :=
  (consumes_nextByte.bind fun _ => consumes_pure _).validated

theorem readUnsignedShort_reach : Takes 2 readUnsignedShort ∧ Advances 2 readUnsignedShort :=
  (consumes_nextByte.bind fun _ => consumes_nextByte.bind fun _ => consumes_pure _).validated

theorem readInt_reach : Takes 4 readInt ∧ Advances 4 readInt :=
  (consumes_nextByte.bind fun _ => consumes_nextByte.bind fun _ => consumes_nextByte.bind fun _ =>
    consumes_nextByte.bind fun _ => consumes_pure _).validated

/-- The value of a number comes after its bytes. -/
theorem Takes.map {x : ReadCall α} (hx : Takes n x) (f : α → β) : Takes n (do return f (← x)) :=
  hx.bind fun a => takes_pure (f a)

theorem Advances.map {x : ReadCall α} (hx : Advances n x) (f : α → β) :
    Advances n (do return f (← x)) :=
  hx.bind fun a => advances_pure (f a)

/-! ### How far a read that succeeds goes -/

/-- A read that succeeds goes forward by `n` bytes. -/
def Steps {α : Type} (n : ℕ) (x : ReadCall α) : Prop :=
  ∀ input out a, exec x input = (.ok a, out) →
    out.currentInBufferPosition = input.currentInBufferPosition + n

section Steps

theorem steps_pure (a : α) : Steps 0 (pure a) := by
  intro input out b h
  rw [← (Prod.mk.inj h).2, Nat.add_zero]

theorem steps_throw (e : ErrorCode) : Steps n (throw e : ReadCall α) :=
  fun _ _ _ h => nomatch (Prod.mk.inj h).1

theorem Steps.bind {x : ReadCall α} {f : α → ReadCall β} (hx : Steps m x)
    (hf : ∀ a, Steps n (f a)) : Steps (m + n) (x >>= f) := by
  intro input out b h
  obtain ⟨a, mid, hfirst, hrest⟩ := exec_bind_eq_ok h
  rw [hf a mid out b hrest, hx input mid a hfirst, Nat.add_assoc]

theorem Steps.ite {p : Prop} [Decidable p] {x y : ReadCall α} (hx : Steps n x) (hy : Steps n y) :
    Steps n (if p then x else y) := by
  split_ifs
  · exact hx
  · exact hy

theorem steps_validateBuffer (valueSize : ℕ) : Steps 0 (validateBuffer valueSize) := by
  intro input out a h
  unfold validateBuffer at h
  rw [exec_bind_ok (exec_get _)] at h
  split_ifs at h
  · exact nomatch (Prod.mk.inj h).1
  · exact nomatch (Prod.mk.inj h).1
  · rw [← (Prod.mk.inj h).2, Nat.add_zero]

theorem steps_nextByte : Steps 1 nextByte := by
  intro input out a h
  rw [← (Prod.mk.inj h).2]

theorem steps_readByte : Steps 1 readByte :=
  (steps_validateBuffer 1).bind fun _ => steps_nextByte

theorem steps_readUnsignedByte : Steps 1 readUnsignedByte :=
  (steps_validateBuffer 1).bind fun _ => steps_nextByte.bind fun _ => steps_pure _

theorem steps_readUnsignedShort : Steps 2 readUnsignedShort :=
  (steps_validateBuffer 2).bind fun _ => steps_nextByte.bind fun _ => steps_nextByte.bind fun _ =>
    steps_pure _

theorem steps_readInt : Steps 4 readInt :=
  (steps_validateBuffer 4).bind fun _ => steps_nextByte.bind fun _ => steps_nextByte.bind fun _ =>
    steps_nextByte.bind fun _ => steps_nextByte.bind fun _ => steps_pure _

theorem Steps.map {x : ReadCall α} (hx : Steps n x) (f : α → β) : Steps n (do return f (← x)) :=
  hx.bind fun a => steps_pure (f a)

end Steps

/-! ### Compact numbers that are cut off -/

/-- Behind its first byte a compact number takes the bytes of its class. -/
theorem readCompactLongFrom_reach (b : Int8) :
    Takes (classOf (octet b)) (readCompactLongFrom (unsignedByte b).toInt32) ∧
      Advances (classOf (octet b)) (readCompactLongFrom (unsignedByte b).toInt32) := by
  unfold readCompactLongFrom readCompactHigh classOf
  simp only [firstByte_lt_iff b 0x80 (m := 0x80) rfl (by norm_num),
    firstByte_lt_iff b 0xC0 (m := 0xC0) rfl (by norm_num),
    firstByte_lt_iff b 0xE0 (m := 0xE0) rfl (by norm_num),
    firstByte_lt_iff b 0xF0 (m := 0xF0) rfl (by norm_num),
    firstByte_lt_iff b 0xF8 (m := 0xF8) rfl (by norm_num),
    firstByte_lt_iff b 0xFC (m := 0xFC) rfl (by norm_num),
    firstByte_lt_iff b 0xFE (m := 0xFE) rfl (by norm_num),
    firstByte_lt_iff b 0xFF (m := 0xFF) rfl (by norm_num)]
  obtain ⟨hbyte, hbyte'⟩ := readUnsignedByte_reach
  obtain ⟨hsigned, hsigned'⟩ := readByte_reach
  obtain ⟨hshort, hshort'⟩ := readUnsignedShort_reach
  obtain ⟨hint, hint'⟩ := readInt_reach
  split_ifs
  · exact ⟨takes_pure _, advances_pure _⟩
  · exact ⟨hbyte.map _, hbyte'.map _⟩
  · exact ⟨hshort.map _, hshort'.map _⟩
  · exact ⟨hbyte.bind fun _ => hshort.map _, hbyte'.bind fun _ => hshort'.map _⟩
  · exact ⟨(takes_pure _).bind fun _ => hint.map _, (advances_pure _).bind fun _ => hint'.map _⟩
  · exact ⟨(hbyte.map _).bind fun _ => hint.map _, (hbyte'.map _).bind fun _ => hint'.map _⟩
  · exact ⟨(hshort.map _).bind fun _ => hint.map _, (hshort'.map _).bind fun _ => hint'.map _⟩
  · exact ⟨(hsigned.bind fun _ => hshort.map _).bind fun _ => hint.map _,
      (hsigned'.bind fun _ => hshort'.map _).bind fun _ => hint'.map _⟩
  · exact ⟨hint.bind fun _ => hint.map _, hint'.bind fun _ => hint'.map _⟩

/-- The first byte of a compact number, and the reach of the others. -/
theorem exec_readCompactLong_cons (limit : ℕ) {pre : List Int8} {b : Int8} {bs : List Int8}
    (hlen : (pre ++ (b :: bs)).length ≤ INT_MAX)
    (hroom : pre.length + 1 + classOf (octet b) ≤ INT_MAX) :
    exec readCompactLong (inputAt pre (b :: bs) limit) =
        exec (readCompactLongFrom (unsignedByte b).toInt32) (inputAt (pre ++ [b]) bs limit) ∧
      (inputAt (pre ++ [b]) bs limit).InRange (classOf (octet b)) := by
  have hfirst : exec readUnsignedByte (inputAt pre (b :: bs) limit) =
      (.ok (unsignedByte b), inputAt (pre ++ [b]) bs limit) :=
    reads_readUnsignedByte b pre bs limit (by simpa using hlen)
  refine ⟨by rw [readCompactLong, exec_bind_ok hfirst], ?_, ?_, ?_⟩
  · simp [inputAt, InputContext.inBufferLength, InputContext.buffer]
  · simpa [inputAt, InputContext.inBufferLength, InputContext.buffer] using hlen
  · simpa [inputAt] using hroom

/-- A compact number whose last bytes are missing is not read, and the position stays inside of
the buffer. -/
theorem exec_readCompactLong_cut (limit : ℕ) {pre : List Int8} {b : Int8} {bs : List Int8}
    (hlen : (pre ++ (b :: bs)).length ≤ INT_MAX) (hshort : bs.length < classOf (octet b))
    (hroom : pre.length + 1 + classOf (octet b) ≤ INT_MAX) :
    ∃ e n, exec readCompactLong (inputAt pre (b :: bs) limit) =
      (.error e, { inputAt pre (b :: bs) limit with
        currentInBufferPosition := pre.length + n }) := by
  obtain ⟨hcons, hrange⟩ := exec_readCompactLong_cons limit hlen hroom
  obtain ⟨htakes, hadvances⟩ := readCompactLongFrom_reach b
  obtain ⟨k, -, hmoves⟩ := hadvances _ hrange
  rw [hcons]
  rcases hexec : exec (readCompactLongFrom (unsignedByte b).toInt32)
    (inputAt (pre ++ [b]) bs limit) with ⟨e | v, context'⟩
  · rw [hexec] at hmoves
    refine ⟨e, 1 + k, Prod.ext rfl ?_⟩
    calc context' = ⟨context'.inBuffer, context'.inBufferLimit, context'.currentInBufferPosition⟩ :=
          rfl
      _ = _ := by
        rw [hmoves.inBuffer, hmoves.inBufferLimit, hmoves.position]
        simp [inputAt, Nat.add_assoc]
  · have hbound := (htakes _ _ v hrange hexec).bound
    simp [inputAt, InputContext.inBufferLength, InputContext.buffer] at hbound
    omega

end DxFeed.BufferedIO
