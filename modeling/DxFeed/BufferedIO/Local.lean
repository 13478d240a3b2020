import DxFeed.BufferedIO.UtfString
import DxFeed.BufferedIO.Reach

/-!
# What a read depends on

* `readUtfCharArray`, `readByteArray`: the readers of arrays of `BufferedInput.c`;
* `Local`: a read that succeeds inside of its buffer has consumed bytes, and it reads the same
  wherever these bytes stand;
* `Local.bind`, `local_readCompactInt`, `local_readUtfChar`, `local_readByteArray`: the readers of
  the fields of records are of this kind.
-/

namespace DxFeed.BufferedIO

open Call

/-! ### Arrays -/

/-- `dx_read_utf_char_array`; `none` is a null pointer. -/
def readUtfCharArray : ReadCall (Option WString) := do
  let utflen ← readCompactLong
  if utflen < -1 ∨ utflen.toInt > INT_MAX then throw .invalidFuncParamInternal
  else if utflen = -1 then return none
  else return some (← readUtfSequence utflen.toInt true)

/-- `dx_read_byte_buffer_segment` for a whole buffer. -/
def readByteBufferSegment (segmentLength : ℕ) : ReadCall (List Int8) := do
  let context ← get
  if !isCapacityEnough context.currentInBufferPosition segmentLength context.inBufferLength then
    throw .bufferUnderflow
  set { context with currentInBufferPosition := context.currentInBufferPosition + segmentLength }
  return (context.buffer.drop context.currentInBufferPosition).take segmentLength

/-- `dx_read_byte_array`; `none` is an array without elements. -/
def readByteArray : ReadCall (Option (List Int8)) := do
  let bufferLength ← readCompactLong
  if bufferLength < -1 ∨ bufferLength.toInt > INT_MAX then throw .invalidFuncParamInternal
  else if bufferLength = -1 ∨ bufferLength = 0 then return none
  else return some (← readByteBufferSegment bufferLength.toInt.toNat)

/-! ### Local reads -/

variable {α β : Type} {pre rest : List Int8} {limit : ℕ}

/-- A read goes forward in its buffer, whether it succeeds or not. -/
def Forward (x : ReadCall α) : Prop :=
  ∀ context : InputContext, (exec x context).2.inBuffer = context.inBuffer ∧
    (exec x context).2.inBufferLimit = context.inBufferLimit ∧
    context.currentInBufferPosition ≤ (exec x context).2.currentInBufferPosition

theorem Forward.bind {x : ReadCall α} {f : α → ReadCall β} (hx : Forward x)
    (hf : ∀ a, Forward (f a)) : Forward (x >>= f) := by
  intro context
  obtain ⟨hbuffer, hlimit, hle⟩ := hx context
  rcases hexec : exec x context with ⟨e | a, mid⟩
  · rw [exec_bind_error hexec]
    rw [hexec] at hbuffer hlimit hle
    exact ⟨hbuffer, hlimit, hle⟩
  · rw [exec_bind_ok hexec]
    rw [hexec] at hbuffer hlimit hle
    obtain ⟨hbuffer', hlimit', hle'⟩ := hf a mid
    exact ⟨hbuffer'.trans hbuffer, hlimit'.trans hlimit, hle.trans hle'⟩

/-- A read that succeeds inside of its buffer has consumed bytes in front of which it always reads
the same. -/
structure Local (x : ReadCall α) : Prop where
  forward : Forward x
  reads : ∀ pre rest limit a out, (pre ++ rest).length ≤ INT_MAX →
    exec x (inputAt pre rest limit) = (.ok a, out) →
    out.currentInBufferPosition ≤ (pre ++ rest).length →
    ∃ bs post, rest = bs ++ post ∧ out = inputAt (pre ++ bs) post limit ∧ Reads x bs a

theorem local_pure (a : α) : Local (pure a) where
  forward := fun _ => ⟨rfl, rfl, le_rfl⟩
  reads := by
    intro pre rest limit b out _ hexec _
    obtain ⟨hab, rfl⟩ := Prod.mk.inj hexec
    obtain rfl := Except.ok.inj hab
    exact ⟨[], rest, rfl, by rw [List.append_nil], reads_pure a⟩

theorem local_throw (e : ErrorCode) : Local (throw e : ReadCall α) where
  forward := fun _ => ⟨rfl, rfl, le_rfl⟩
  reads := fun _ _ _ _ _ _ hexec _ => nomatch (Prod.mk.inj hexec).1

theorem Local.bind {x : ReadCall α} {f : α → ReadCall β} (hx : Local x) (hf : ∀ a, Local (f a)) :
    Local (x >>= f) where
  forward := hx.forward.bind fun a => (hf a).forward
  reads := by
    intro pre rest limit b out hlen hexec hinside
    obtain ⟨a, mid, hfirst, hrest⟩ := exec_bind_eq_ok hexec
    have hforward := ((hf a).forward mid).2.2
    rw [hrest] at hforward
    obtain ⟨bs, post, rfl, rfl, hreads⟩ :=
      hx.reads pre rest limit a mid hlen hfirst (hforward.trans hinside)
    obtain ⟨cs, post', rfl, rfl, hreads'⟩ := (hf a).reads (pre ++ bs) post limit b out
      (by simpa using hlen) hrest (by simpa using hinside)
    exact ⟨bs ++ cs, post', by rw [List.append_assoc], by rw [List.append_assoc],
      hreads.bind hreads'⟩

theorem Local.map {x : ReadCall α} (hx : Local x) (f : α → β) : Local (do return f (← x)) :=
  hx.bind fun a => local_pure (f a)

theorem Local.ite {p : Prop} [Decidable p] {x y : ReadCall α} (hx : Local x) (hy : Local y) :
    Local (if p then x else y) := by
  split_ifs
  · exact hx
  · exact hy

/-! ### The primitive readers -/

/-- A reader of `n` bytes that reads the same in front of the same bytes is local. -/
theorem Consumes.local {x : ReadCall α} {n : ℕ} (hx : Consumes n x) (value : List Int8 → α)
    (hreads : ∀ bs : List Int8, bs.length = n → Reads (do validateBuffer n; x) bs (value bs)) :
    Local (do validateBuffer n; x) where
  forward := by
    intro context
    rcases hvalid : exec (validateBuffer n) context with ⟨e | ⟨⟩, mid⟩
    · have hsnd := exec_validateBuffer_snd n context
      rw [hvalid] at hsnd
      obtain rfl := hsnd
      rw [exec_bind_error hvalid]
      exact ⟨rfl, rfl, le_rfl⟩
    · have hsnd := exec_validateBuffer_snd n context
      rw [hvalid] at hsnd
      obtain rfl := hsnd
      obtain ⟨a, hexec⟩ := hx mid
      rw [exec_bind_ok hvalid, hexec]
      exact ⟨rfl, rfl, Nat.le_add_right _ _⟩
  reads := by
    intro pre rest limit a out hlen hexec hinside
    obtain ⟨⟨⟩, mid, hvalid, hrest⟩ := exec_bind_eq_ok hexec
    have hsnd := exec_validateBuffer_snd n (inputAt pre rest limit)
    rw [hvalid] at hsnd
    obtain rfl := hsnd
    obtain ⟨a', hconsumes⟩ := hx (inputAt pre rest limit)
    rw [hrest] at hconsumes
    obtain rfl := (Prod.mk.inj hconsumes).2
    have hn : n ≤ rest.length := by
      simp only [inputAt, List.length_append] at hinside
      omega
    have htake : (rest.take n).length = n := by
      rw [List.length_take]
      omega
    have hread := hreads (rest.take n) htake pre (rest.drop n) limit
      (by rwa [List.take_append_drop])
    rw [List.take_append_drop, hexec] at hread
    obtain ⟨ha, hout⟩ := Prod.mk.inj hread
    obtain rfl := Except.ok.inj ha
    exact ⟨rest.take n, rest.drop n, (List.take_append_drop n rest).symm, hout,
      hreads (rest.take n) htake⟩

theorem local_readByte : Local readByte := by
  refine consumes_nextByte.local (fun bs => bs.headD 0) ?_
  intro bs hbs
  obtain ⟨b, rfl⟩ := List.length_eq_one_iff.mp hbs
  exact reads_readByte b

theorem local_readUnsignedByte : Local readUnsignedByte := by
  refine (consumes_nextByte.bind fun b => consumes_pure (unsignedByte b)).local
    (fun bs => unsignedByte (bs.headD 0)) ?_
  intro bs hbs
  obtain ⟨b, rfl⟩ := List.length_eq_one_iff.mp hbs
  exact reads_readUnsignedByte b

theorem local_readUnsignedShort : Local readUnsignedShort := by
  refine (consumes_nextByte.bind fun b₁ => consumes_nextByte.bind fun b₀ =>
    consumes_pure (unsignedShort b₁ b₀)).local
    (fun bs => unsignedShort (bs.getD 0 0) (bs.getD 1 0)) ?_
  intro bs hbs
  obtain ⟨b₁, b₀, rfl⟩ := List.length_eq_two.mp hbs
  exact reads_readUnsignedShort b₁ b₀

theorem local_readShort : Local readShort := by
  refine (consumes_nextByte.bind fun b₁ => consumes_nextByte.bind fun b₀ =>
    consumes_pure (shortOf b₁ b₀)).local
    (fun bs => shortOf (bs.getD 0 0) (bs.getD 1 0)) ?_
  intro bs hbs
  obtain ⟨b₁, b₀, rfl⟩ := List.length_eq_two.mp hbs
  exact reads_readShort b₁ b₀

theorem local_readInt : Local readInt := by
  refine (consumes_nextByte.bind fun b₃ => consumes_nextByte.bind fun b₂ =>
    consumes_nextByte.bind fun b₁ => consumes_nextByte.bind fun b₀ =>
    consumes_pure (intOf b₃ b₂ b₁ b₀)).local
    (fun bs => intOf (bs.getD 0 0) (bs.getD 1 0) (bs.getD 2 0) (bs.getD 3 0)) ?_
  intro bs hbs
  obtain ⟨b₃, l, rfl⟩ := List.exists_cons_of_length_eq_add_one hbs
  obtain ⟨b₂, b₁, b₀, rfl⟩ := List.length_eq_three.mp (Nat.succ.inj hbs)
  exact reads_readInt b₃ b₂ b₁ b₀

/-! ### Compact numbers -/

theorem local_readCompactHigh (n : Int32) : Local (readCompactHigh n) := by
  unfold readCompactHigh
  split_ifs
  · exact local_pure _
  · exact local_readUnsignedByte.map _
  · exact local_readUnsignedShort.map _
  · exact local_readByte.bind fun _ => local_readUnsignedShort.map _
  · exact local_readInt

theorem local_readCompactLong : Local readCompactLong := by
  refine local_readUnsignedByte.bind fun b => ?_
  unfold readCompactLongFrom
  split_ifs
  · exact local_pure _
  · exact local_readUnsignedByte.map _
  · exact local_readUnsignedShort.map _
  · exact local_readUnsignedByte.bind fun _ => local_readUnsignedShort.map _
  · exact (local_readCompactHigh _).bind fun _ => local_readInt.map _

theorem forward_skipOutOfRange (k : ℕ) (n : Int32) : Forward (skipOutOfRange k n) := by
  induction k generalizing n with
  | zero => exact (local_pure ()).forward
  | succ k ih =>
      unfold skipOutOfRange
      split_ifs
      · exact Forward.bind (fun _ => ⟨rfl, rfl, Nat.le_add_right _ _⟩) fun _ => ih _
      · exact (local_pure ()).forward

/-- At the end of the buffer there is no number. -/
theorem exec_readInt_end (k : ℕ) (n : Int32) {a : Int32} {out : InputContext}
    (hexec : exec (do skipOutOfRange k n; readInt) (inputAt pre [] limit) = (.ok a, out)) :
    pre.length < out.currentInBufferPosition := by
  obtain ⟨⟨⟩, mid, hskip, hrest⟩ := exec_bind_eq_ok hexec
  have hforward := (forward_skipOutOfRange k n (inputAt pre [] limit)).2.2
  rw [hskip] at hforward
  obtain ⟨⟨⟩, mid', hvalid, hread⟩ := exec_bind_eq_ok hrest
  have hsnd := exec_validateBuffer_snd 4 mid
  rw [hvalid] at hsnd
  obtain rfl := hsnd
  obtain ⟨a', hconsumes⟩ := (consumes_nextByte.bind fun b₃ => consumes_nextByte.bind fun b₂ =>
    consumes_nextByte.bind fun b₁ => consumes_nextByte.bind fun b₀ =>
    consumes_pure (intOf b₃ b₂ b₁ b₀)) mid'
  obtain rfl := (Prod.mk.inj (hread.symm.trans hconsumes)).2
  simp only [inputAt] at hforward ⊢
  omega

/-- A number that is out of range is local as well: the bytes that are skipped belong to it. -/
theorem local_skipOutOfRange (k : ℕ) (n : Int32) :
    Local (do skipOutOfRange k n; readInt) := by
  induction k generalizing n with
  | zero => exact (local_pure ()).bind fun _ => local_readInt
  | succ k ih =>
      refine ⟨(forward_skipOutOfRange _ _).bind fun _ => local_readInt.forward, ?_⟩
      intro pre rest limit a out hlen hexec hinside
      by_cases hskip : n <<< 1 &&& 0x10 ≠ 0
      · have hunfold : (do skipOutOfRange (k + 1) n; readInt) =
            (do moveBufferPos 1; skipOutOfRange k (n <<< 1); readInt) := by
          rw [skipOutOfRange, if_pos hskip, bind_assoc]
        cases rest with
        | nil =>
            have hend := exec_readInt_end _ _ hexec
            rw [List.append_nil] at hinside
            omega
        | cons b rest =>
            have hmove : ∀ pre post limit, exec (moveBufferPos 1) (inputAt pre (b :: post) limit) =
                (.ok (), inputAt (pre ++ [b]) post limit) := by
              intro pre post limit
              simp [moveBufferPos, inputAt, InputContext.inBufferLength, InputContext.buffer]
            rw [hunfold, exec_bind_ok (hmove pre rest limit)] at hexec
            obtain ⟨bs, post, rfl, rfl, hreads⟩ := (ih (n <<< 1)).reads (pre ++ [b]) rest limit a out
              (by simpa using hlen) hexec (by simpa using hinside)
            refine ⟨b :: bs, post, rfl, by rw [List.append_assoc, List.singleton_append], ?_⟩
            intro pre' post' limit' hlen'
            rw [hunfold, List.cons_append, exec_bind_ok (hmove pre' (bs ++ post') limit'),
              hreads (pre' ++ [b]) post' limit' (by simpa using hlen'), List.append_assoc,
              List.singleton_append]
      · have hunfold : (do skipOutOfRange (k + 1) n; readInt) = readInt := by
          rw [skipOutOfRange, if_neg hskip, pure_bind]
        rw [hunfold] at hexec ⊢
        exact local_readInt.reads pre rest limit a out hlen hexec hinside

/-- A compact number is its first byte and what follows it. -/
theorem exists_readCompactInt : ∃ rest : UInt32 → ReadCall Int32,
    readCompactInt = readUnsignedByte >>= rest ∧ ∀ b, Local (rest b) := by
  refine ⟨_, rfl, fun b => ?_⟩
  dsimp only
  split_ifs
  · exact local_pure _
  · exact local_readUnsignedByte.map _
  · exact local_readUnsignedShort.map _
  · exact local_readUnsignedByte.bind fun _ => local_readUnsignedShort.map _
  · exact local_skipOutOfRange 4 _

theorem local_readCompactInt : Local readCompactInt := by
  obtain ⟨rest, hrest, hlocal⟩ := exists_readCompactInt
  rw [hrest]
  exact local_readUnsignedByte.bind hlocal

/-- A compact number has a byte. -/
theorem lt_readCompactInt {input out : InputContext} {n : Int32}
    (hexec : exec readCompactInt input = (.ok n, out)) :
    input.currentInBufferPosition < out.currentInBufferPosition := by
  obtain ⟨rest, hrest, hlocal⟩ := exists_readCompactInt
  rw [hrest] at hexec
  obtain ⟨b, mid, hfirst, hexec⟩ := exec_bind_eq_ok hexec
  obtain ⟨⟨⟩, mid', hvalid, hread⟩ := exec_bind_eq_ok hfirst
  have hsnd := exec_validateBuffer_snd 1 input
  rw [hvalid] at hsnd
  obtain rfl := hsnd
  obtain ⟨b', hconsumes⟩ := (consumes_nextByte.bind fun b =>
    consumes_pure (unsignedByte b)) mid'
  obtain rfl := (Prod.mk.inj (hread.symm.trans hconsumes)).2
  have hforward := ((hlocal b).forward { mid' with
    currentInBufferPosition := mid'.currentInBufferPosition + (1 + 0) }).2.2
  rw [hexec] at hforward
  exact hforward

/-! ### Characters and arrays -/

theorem local_readUtf2 (first : Int8) : Local (readUtf2 first) := by
  refine local_readByte.bind fun second => ?_
  split_ifs
  · exact local_throw _
  · exact local_pure _

theorem local_readUtf3 (first : Int8) : Local (readUtf3 first) := by
  refine local_readShort.bind fun tail => ?_
  split_ifs
  · exact local_throw _
  · exact local_pure _

theorem local_readUtf4 (first : Int8) : Local (readUtf4 first) := by
  refine local_readByte.bind fun second => local_readShort.bind fun tail => ?_
  dsimp only
  split_ifs
  · exact local_throw _
  · exact local_throw _
  · exact local_pure _

theorem local_readUtfChar : Local readUtfChar := by
  refine local_readByte.bind fun c => ?_
  split_ifs
  · exact local_pure _
  · exact (local_readUtf2 c).map _
  · exact (local_readUtf3 c).map _
  · exact local_readUtf4 c
  · exact local_throw _

theorem local_codePointToUtf16Chars (codePoint destBufferPos : ℕ) (destBufferLength : ℤ) :
    Local (codePointToUtf16Chars codePoint destBufferPos destBufferLength) := by
  unfold codePointToUtf16Chars
  split_ifs
  · exact local_throw _
  · exact local_throw _
  · exact local_pure _
  · exact local_throw _
  · exact local_pure _

theorem local_readUtfLoop (lenInChars : Bool) (utflen : ℤ) (buffer : WString) :
    Local (readUtfLoop lenInChars utflen buffer) := by
  induction utflen, buffer using readUtfLoop.induct lenInChars with
  | case1 utflen buffer hpos hone htwo hthree hfour =>
      rw [readUtfLoop, if_pos hpos]
      refine local_readByte.bind fun c => ?_
      split_ifs
      · exact hone c
      · exact (local_readUtf2 c).bind fun tmpCh => htwo tmpCh
      · exact (local_readUtf3 c).bind fun tmpCh => hthree tmpCh
      · exact (local_readUtf4 c).bind fun tmpInt =>
          (local_codePointToUtf16Chars _ _ _).bind fun chars => hfour chars
      · exact local_throw _
  | case2 utflen buffer hpos hneg =>
      rw [readUtfLoop, if_neg hpos, if_pos hneg]
      exact local_throw _
  | case3 utflen buffer hpos hneg =>
      rw [readUtfLoop, if_neg hpos, if_neg hneg]
      exact local_pure _

theorem local_readUtfSequence (utflen : ℤ) (lenInChars : Bool) :
    Local (readUtfSequence utflen lenInChars) := by
  unfold readUtfSequence
  split_ifs
  · exact local_pure _
  · exact local_readUtfLoop _ _ _

theorem local_readUtfString : Local readUtfString := by
  refine local_readCompactLong.bind fun utflen => ?_
  split_ifs
  · exact local_throw _
  · exact local_pure _
  · exact (local_readUtfSequence _ _).map _

theorem local_readText : Local readText :=
  local_readUtfString.map (Option.map terminated)

theorem local_readUtfCharArray : Local readUtfCharArray := by
  refine local_readCompactLong.bind fun utflen => ?_
  split_ifs
  · exact local_throw _
  · exact local_pure _
  · exact (local_readUtfSequence _ _).map _

theorem reads_readByteBufferSegment (bs : List Int8) :
    Reads (readByteBufferSegment bs.length) bs bs := by
  intro pre post limit hlen
  rw [List.length_append, List.length_append] at hlen
  have hcap : isCapacityEnough pre.length bs.length (pre ++ (bs ++ post)).length =
      decide (pre.length + bs.length ≤ (pre ++ (bs ++ post)).length) :=
    isCapacityEnough_eq _ _ (by rwa [List.length_append, List.length_append]) (by omega)
  have henough : isCapacityEnough (inputAt pre (bs ++ post) limit).currentInBufferPosition
      bs.length (inputAt pre (bs ++ post) limit).inBufferLength = true := by
    refine hcap.trans (decide_eq_true ?_)
    rw [List.length_append, List.length_append]
    omega
  unfold readByteBufferSegment
  rw [exec_bind_ok (exec_get _), henough, Bool.not_true, if_neg Bool.false_ne_true,
    exec_bind_ok (exec_set _ _), exec_pure]
  simp [inputAt, InputContext.buffer]

theorem local_readByteBufferSegment (n : ℕ) : Local (readByteBufferSegment n) where
  forward := by
    intro context
    unfold readByteBufferSegment
    rw [exec_bind_ok (exec_get _)]
    split_ifs
    · exact ⟨rfl, rfl, le_rfl⟩
    · exact ⟨rfl, rfl, Nat.le_add_right _ _⟩
  reads := by
    intro pre rest limit a out hlen hexec hinside
    have hn : n ≤ rest.length := by
      unfold readByteBufferSegment at hexec
      rw [exec_bind_ok (exec_get _)] at hexec
      split_ifs at hexec
      · exact nomatch (Prod.mk.inj hexec).1
      · obtain rfl := (Prod.mk.inj hexec).2
        simp only [inputAt, List.length_append] at hinside
        omega
    have htake : (rest.take n).length = n := by
      rw [List.length_take]
      omega
    have hreads := reads_readByteBufferSegment (rest.take n)
    rw [htake] at hreads
    have hread := hreads pre (rest.drop n) limit (by rwa [List.take_append_drop])
    rw [List.take_append_drop, hexec] at hread
    obtain ⟨ha, hout⟩ := Prod.mk.inj hread
    obtain rfl := Except.ok.inj ha
    exact ⟨rest.take n, rest.drop n, (List.take_append_drop n rest).symm, hout, hreads⟩

theorem local_readByteArray : Local readByteArray := by
  refine local_readCompactLong.bind fun bufferLength => ?_
  split_ifs
  · exact local_throw _
  · exact local_pure _
  · exact (local_readByteBufferSegment _).map _

end DxFeed.BufferedIO
