import DxFeed.BufferedIO.UtfString
import DxFeed.ServerMessageProcessor.MessageStream

/-!
# Composing messages

A message is written behind one byte that is reserved for its length; if the length takes more
bytes, the message is moved.

* `composeMessageHeader`, `finishComposingMessage`: the composer of the client, and the one of
  `BinaryQTPComposer`;
* `ParsesBack`: the bytes of a message as the server's parser takes them;
* `composedMessage_iff`: what is composed parses back as long as the capacity test does not wrap.
-/

namespace DxFeed.ClientMessageProcessor

open Call BufferedIO FixedWidth PrefixCode ServerMessageProcessor

/-! ### The composers -/

/-- `dx_set_out_buffer_position`. -/
def setOutBufferPosition (newPosition : ℕ) : WriteCall Unit :=
  modify fun context => { context with currentOutBufferPosition := newPosition }

/-- `memmove` inside of a buffer; what would be written outside of it is lost. -/
def memmove (buffer : List Int8) (oldOffset newOffset dataLength : ℕ) : List Int8 :=
  (buffer.take newOffset ++ (buffer.drop oldOffset).take dataLength ++
    buffer.drop (newOffset + dataLength)).take buffer.length

/-- `dx_compose_message_header`. -/
def composeMessageHeader (messageType : MessageType) : WriteCall Unit := do
  writeByte 0
  writeCompactInt messageType

/-- `dx_move_message_data`. -/
def moveMessageData (oldOffset newOffset dataLength : ℕ) : WriteCall Unit := do
  ensureCapacity (newOffset + dataLength)
  modify fun context =>
    { context with
      outBuffer := context.outBuffer.map fun buffer =>
        memmove buffer oldOffset newOffset dataLength }

/-- `dx_finish_composing_message`. -/
def finishComposingMessage : WriteCall Unit := do
  let messageLength := Int32.ofNat (← get).currentOutBufferPosition - 1
  let lengthSize := getCompactSize messageLength.toInt64
  if lengthSize > 1 then moveMessageData 1 lengthSize messageLength.toInt.toNat
  setOutBufferPosition 0
  writeCompactInt messageLength
  setOutBufferPosition (lengthSize + messageLength.toInt.toNat)

/-- A message of the client. -/
def composeMessage (messageType : MessageType) (body : WriteCall Unit) : WriteCall Unit := do
  composeMessageHeader messageType
  body
  finishComposingMessage

namespace BinaryQTPComposer

/-- `BinaryQTPComposer::writeMessageHeader`. -/
def writeMessageHeader (messageType : MessageType) : WriteCall Unit := do
  writeByte 0
  writeCompactInt messageType

/-- `moveMessageData`. -/
def moveMessageData (oldOffset newOffset dataLength : ℕ) : WriteCall Unit := do
  ensureCapacity (newOffset + dataLength)
  modify fun context =>
    { context with
      outBuffer := context.outBuffer.map fun buffer =>
        memmove buffer oldOffset newOffset dataLength }

/-- `BinaryQTPComposer::finishComposingMessage`. -/
def finishComposingMessage : WriteCall Unit := do
  let messageLength := Int32.ofNat (← get).currentOutBufferPosition - 1
  let lengthSize := getCompactSize messageLength.toInt64
  if lengthSize > 1 then moveMessageData 1 lengthSize messageLength.toInt.toNat
  setOutBufferPosition 0
  writeCompactInt messageLength
  setOutBufferPosition (lengthSize + messageLength.toInt.toNat)

/-- A message of the composer, as `BinaryQTPComposer::writeHeartbeatMessage` writes it. -/
def writeMessage (messageType : MessageType) (body : WriteCall Unit) : WriteCall Unit := do
  writeMessageHeader messageType
  body
  finishComposingMessage

end BinaryQTPComposer

/-! ### Messages that parse back -/

/-- The bytes are a length, a type and the body, and the parser takes them so, between any other
bytes, with the limit at the end of the message. -/
def ParsesBack (messageType : MessageType) (body bytes : List Int8) : Prop :=
  ∃ lengthBytes typeBytes : List Int8, bytes = lengthBytes ++ (typeBytes ++ body) ∧
    lengthBytes.map octet = encode (typeBytes ++ body).length ∧
    typeBytes.map octet = encode messageType.toInt ∧
    ∀ pre post limit, (pre ++ (bytes ++ post)).length ≤ INT_MAX →
      exec (do readMessageLengthAndSetBufferLimit (pre ++ (bytes ++ post)).length
               readMessageType) (inputAt pre (bytes ++ post) limit) =
        (.ok messageType,
          inputAt (pre ++ lengthBytes ++ typeBytes) (body ++ post) (pre.length + bytes.length))

/-- Message types take one byte. -/
theorem toInt_of_valid {messageType : MessageType} (h : isMessageTypeValid messageType = true) :
    0 ≤ messageType.toInt ∧ messageType.toInt ≤ 61 := by
  have hmem := List.contains_iff_mem.mp h
  simp only [messageHeartbeat, messageDescribeProtocol, messageDescribeRecords, messageRawData,
    List.mem_cons, List.not_mem_nil, or_false] at hmem
  rcases hmem with rfl | rfl | rfl | rfl | rfl | rfl | rfl | rfl | rfl | rfl | rfl | rfl | rfl |
    rfl | rfl | rfl
  all_goals decide

/-- A length, a type and a body parse back. -/
theorem parsesBack {messageType : MessageType} {body lengthBytes typeBytes : List Int8}
    (hvalid : isMessageTypeValid messageType = true)
    (hlength : lengthBytes.map octet = encode (typeBytes ++ body).length)
    (htype : typeBytes.map octet = encode messageType.toInt) :
    ParsesBack messageType body (lengthBytes ++ (typeBytes ++ body)) := by
  obtain ⟨hnonneg, hle⟩ := toInt_of_valid hvalid
  refine ⟨lengthBytes, typeBytes, rfl, hlength, htype, ?_⟩
  intro pre post limit hlen
  have hfits : ((typeBytes ++ body).length : ℤ) ≤ INT_MAX := by
    simp only [List.length_append] at hlen ⊢
    omega
  obtain ⟨length, hreads, hvalue⟩ := reads_compact (Or.inr ⟨by omega, hfits⟩) hlength
  obtain ⟨type, hreadsType, hvalueType⟩ :=
    reads_compact (Or.inr ⟨hnonneg, hle.trans (by norm_num [INT_MAX])⟩) htype
  have hsame : type.toInt32 = messageType := by
    rw [← Int32.toInt_inj, Int64.toInt_toInt32, hvalueType, Int.bmod_eq_of_le]
    · omega
    · omega
  have hframe : Frame.Announced ⟨lengthBytes, typeBytes ++ body⟩ := ⟨length, hreads, hvalue⟩
  have hread := exec_readLength_frame limit hframe hlen
  simp only [Frame.bytes] at hread
  rw [exec_bind_ok hread, List.append_assoc]
  have hlen' : (pre ++ lengthBytes ++ (typeBytes ++ (body ++ post))).length ≤ INT_MAX := by
    simpa using hlen
  rw [exec_readMessageType (pre ++ lengthBytes) post _ hreadsType hlen', hsame, if_pos hvalid]

/-! ### What the composer does with the buffer -/

/-- A buffer that grows keeps its bytes. -/
theorem buffer_ensureCapacity (n : ℕ) (context : OutputContext) :
    ∃ zeros, (exec (ensureCapacity n) context).2.buffer = context.buffer ++ zeros := by
  unfold ensureCapacity
  rw [exec_bind_ok (exec_get _)]
  dsimp only
  split_ifs
  · exact ⟨[], (List.append_nil _).symm⟩
  · rw [exec_set]
    exact ⟨_, by rw [OutputContext.buffer, Option.getD_some]⟩
  · exact ⟨[], (List.append_nil _).symm⟩

theorem buffer_checkWritePossibility (n : ℕ) (context : OutputContext) :
    ∃ zeros, (exec (checkWritePossibility n) context).2.buffer = context.buffer ++ zeros := by
  unfold checkWritePossibility
  rw [exec_bind_ok (exec_get _)]
  split_ifs
  · exact ⟨[], (List.append_nil _).symm⟩
  · exact buffer_ensureCapacity n context
  · exact ⟨[], (List.append_nil _).symm⟩

/-- Where there is room the check changes nothing. -/
theorem exec_checkWritePossibility_room {pre room : List Int8} {n : ℕ} (hn : n ≤ room.length)
    (hlen : pre.length + room.length ≤ INT_MAX) :
    exec (checkWritePossibility n) (outputAt pre room) = (.ok (), outputAt pre room) := by
  have hcap := isCapacityEnough_eq pre.length n hlen (by omega)
  unfold checkWritePossibility
  rw [exec_bind_ok (exec_get _), outBufferLength_outputAt, currentOutBufferPosition_outputAt,
    hcap, decide_eq_true (by omega), if_neg (by simp [outputAt]), if_neg (by simp)]
  rfl

theorem buffer_outputAt (pre room : List Int8) : (outputAt pre room).buffer = pre ++ room := rfl

/-- At the start of a buffer a number is written over what is there. -/
theorem exec_writeCompactInt_start {lengthRoom rest : List Int8} (value : Int32)
    (hroom : lengthRoom.length = getCompactSize value.toInt64)
    (hlen : (lengthRoom ++ rest).length ≤ INT_MAX) :
    ∃ bs zeros, exec (writeCompactInt value) (outputAt [] (lengthRoom ++ rest)) =
        (.ok (), outputAt bs (rest ++ zeros)) ∧
      bs.map octet = encode value.toInt ∧ bs.length = lengthRoom.length ∧
      (5 ≤ (lengthRoom ++ rest).length → zeros = []) := by
  obtain ⟨bs, hwrites, hoctets⟩ := writes_writeCompactIntUnchecked value
  have hlength : bs.length = lengthRoom.length := by
    rw [hroom, getCompactSize_eq, Int32.toInt_toInt64, ← bs.length_map octet, hoctets,
      length_encode]
  obtain ⟨zeros, hcheck, hzeros⟩ : ∃ zeros,
      exec (checkWritePossibility 5) (outputAt [] (lengthRoom ++ rest)) =
        (.ok (), outputAt [] (lengthRoom ++ rest ++ zeros)) ∧
      (5 ≤ (lengthRoom ++ rest).length → zeros = []) := by
    by_cases hfive : 5 ≤ (lengthRoom ++ rest).length
    · refine ⟨[], ?_, fun _ => rfl⟩
      rw [List.append_nil]
      exact exec_checkWritePossibility_room hfive (by simpa using hlen)
    · have hhas : (outputAt [] (lengthRoom ++ rest)).HasRoom 5 := by
        refine ⟨rfl, Nat.zero_le _, ?_, Or.inr ?_⟩
        · rw [outBufferLength_outputAt, List.length_nil, Nat.zero_add]
          exact hlen
        · rw [outBufferLength_outputAt, currentOutBufferPosition_outputAt, List.length_nil,
            Nat.zero_add, Nat.zero_add]
          exact hlen
      obtain ⟨room, hcheck, -⟩ := exec_checkWritePossibility (by norm_num) hhas
      obtain ⟨zeros, hzeros⟩ := buffer_checkWritePossibility 5 (outputAt [] (lengthRoom ++ rest))
      rw [hcheck, buffer_outputAt, buffer_outputAt] at hzeros
      simp only [List.nil_append] at hzeros
      subst hzeros
      exact ⟨zeros, hcheck, fun h => absurd h hfive⟩
  refine ⟨bs, zeros, ?_, hoctets, hlength, hzeros⟩
  have hput := hwrites [] (lengthRoom ++ rest ++ zeros) (by
    rw [List.length_append, List.length_append]
    omega)
  rw [writeCompactInt, exec_bind_ok hcheck, hput, List.nil_append, hlength, List.append_assoc,
    List.drop_left]

/-- Where the buffer is ensured to be large enough, it was half full at most. -/
theorem exec_ensureCapacity_ok {pre room : List Int8} {n : ℕ} {out' : OutputContext}
    (hlen : pre.length + room.length ≤ INT_MAX)
    (hexec : exec (ensureCapacity n) (outputAt pre room) = (.ok (), out')) :
    pre.length + (pre.length + room.length) ≤ INT_MAX ∧
      (pre.length + n ≤ INT_MAX → ∃ zeros, out' = outputAt pre (room ++ zeros) ∧
        n ≤ (room ++ zeros).length ∧ pre.length + (room ++ zeros).length ≤ INT_MAX) ∧
      (isCapacityEnough pre.length n (pre.length + room.length) = true →
        out' = outputAt pre room) := by
  have hunfold := hexec
  unfold ensureCapacity at hunfold
  rw [exec_bind_ok (exec_get _)] at hunfold
  simp only [outBufferLength_outputAt, currentOutBufferPosition_outputAt] at hunfold
  by_cases hover : INT_MAX - pre.length < pre.length + room.length
  · rw [if_pos hover] at hunfold
    exact nomatch (Prod.mk.inj hunfold).1
  rw [if_neg hover] at hunfold
  refine ⟨by omega, fun hsum => ?_, fun henough => ?_⟩
  · by_cases hroom : room.length < n
    · obtain ⟨room', hgrow, henough, htotal⟩ := exec_ensureCapacity hroom (by omega) hsum
      obtain ⟨zeros, hzeros⟩ := buffer_ensureCapacity n (outputAt pre room)
      rw [hgrow] at hexec hzeros
      rw [buffer_outputAt, buffer_outputAt, List.append_assoc] at hzeros
      obtain rfl := List.append_cancel_left hzeros
      exact ⟨zeros, (Prod.mk.inj hexec).2.symm, henough, htotal⟩
    · have hcap := isCapacityEnough_eq pre.length n hlen hsum
      rw [hcap, decide_eq_true (by omega), Bool.not_true, if_neg Bool.false_ne_true] at hunfold
      refine ⟨[], ?_, ?_, ?_⟩
      · rw [List.append_nil]
        exact (Prod.mk.inj hunfold).2.symm
      · rw [List.append_nil]
        omega
      · rwa [List.append_nil]
  · rw [henough, Bool.not_true, if_neg Bool.false_ne_true] at hunfold
    exact (Prod.mk.inj hunfold).2.symm

/-! ### The end of a message -/

/-- The length that the composer computes. -/
theorem messageLength_eq {n : ℕ} (h : n + 1 ≤ INT_MAX) :
    Int32.ofNat (n + 1) - 1 = Int32.ofNat n ∧ (Int32.ofNat n).toInt = n := by
  unfold INT_MAX at h
  refine ⟨?_, Int32.toInt_ofNat_of_lt (by omega)⟩
  rw [Int32.ofNat_add]
  exact Int32.add_sub_cancel _ _

/-- The size of the length of a message. -/
def lengthSizeOf (n : ℕ) : ℕ :=
  sizeClass n + 1

theorem lengthSizeOf_le {n : ℕ} (h : n ≤ INT_MAX) : lengthSizeOf n ≤ 5 := by
  have hfits : Fits 4 (n : ℤ) := by
    unfold INT_MAX at h
    exact ⟨by norm_num [width], by norm_num [width]; omega⟩
  exact Nat.succ_le_succ (sizeClass_le_of_fits (by norm_num) hfits)

/-- From 2 ^ 27 bytes on the length takes five bytes. -/
theorem lengthSizeOf_eq {n : ℕ} (hlow : 2 ^ 27 ≤ n) (h : n ≤ INT_MAX) : lengthSizeOf n = 5 := by
  have hfits : Fits 4 (n : ℤ) := by
    unfold INT_MAX at h
    exact ⟨by norm_num [width], by norm_num [width]; omega⟩
  have hnot : ¬ Fits 3 (n : ℤ) := by
    rintro ⟨-, hhigh⟩
    norm_num [width] at hhigh
    omega
  rw [lengthSizeOf, sizeClass_succ (by norm_num) hnot hfits]

variable {content room : List Int8} {out' : OutputContext}

/-- What `dx_finish_composing_message` does once there is room for the length. -/
def writeLength (n : ℕ) : WriteCall Unit := do
  setOutBufferPosition 0
  writeCompactInt (Int32.ofNat n)
  setOutBufferPosition (lengthSizeOf n + n)

/-- A message is moved if its length takes more than one byte. -/
theorem exec_finishComposingMessage (hlen : content.length + 1 ≤ INT_MAX) :
    exec finishComposingMessage (outputAt (0 :: content) room) =
      if lengthSizeOf content.length > 1 then
        exec (do moveMessageData 1 (lengthSizeOf content.length) content.length
                 writeLength content.length) (outputAt (0 :: content) room)
      else exec (writeLength content.length) (outputAt (0 :: content) room) := by
  obtain ⟨hsub, hvalue⟩ := messageLength_eq hlen
  have hsize : getCompactSize (Int32.ofNat content.length).toInt64 =
      lengthSizeOf content.length := by
    rw [getCompactSize_eq, Int32.toInt_toInt64, hvalue, lengthSizeOf]
  have hposition : Int32.ofNat (outputAt (0 :: content) room).currentOutBufferPosition - 1 =
      Int32.ofNat content.length := hsub
  rw [finishComposingMessage, exec_bind_ok (exec_get _), hposition]
  simp only [hsize, hvalue, Int.toNat_natCast]
  split_ifs <;> rfl

/-- A move inside of the buffer. -/
theorem memmove_content {b : Int8} {rest : List Int8} {n : ℕ}
    (h : n + content.length ≤ (b :: content ++ rest).length) :
    memmove (b :: content ++ rest) 1 n content.length =
      (b :: content ++ rest).take n ++
        (content ++ (b :: content ++ rest).drop (n + content.length)) := by
  have hdata : ((b :: content ++ rest).drop 1).take content.length = content := by
    simp
  rw [memmove, hdata, List.append_assoc]
  generalize b :: content ++ rest = buffer at h ⊢
  refine List.take_of_length_le ?_
  simp only [List.length_append, List.length_take, List.length_drop]
  omega

/-- Once there is room for the length, the message is complete. -/
theorem exec_writeLength (content lengthRoom rest : List Int8) (position : ℕ)
    (hroom : lengthRoom.length = lengthSizeOf content.length)
    (hlen : (lengthRoom ++ (content ++ rest)).length ≤ INT_MAX) :
    ∃ lengthBytes zeros, exec (writeLength content.length)
        ⟨some (lengthRoom ++ (content ++ rest)), position⟩ =
      (.ok (), outputAt (lengthBytes ++ content) (rest ++ zeros)) ∧
      lengthBytes.map octet = encode content.length := by
  have hcontent : content.length ≤ INT_MAX := by
    simp only [List.length_append] at hlen
    omega
  have hvalue : (Int32.ofNat content.length).toInt = content.length := by
    unfold INT_MAX at hcontent
    exact Int32.toInt_ofNat_of_lt (by omega)
  have hsize : lengthRoom.length = getCompactSize (Int32.ofNat content.length).toInt64 := by
    rw [getCompactSize_eq, Int32.toInt_toInt64, hvalue, hroom, lengthSizeOf]
  obtain ⟨lengthBytes, zeros, hwrite, hoctets, hlength, -⟩ :=
    exec_writeCompactInt_start (Int32.ofNat content.length) hsize hlen
  rw [hvalue] at hoctets
  refine ⟨lengthBytes, zeros, ?_, hoctets⟩
  rw [writeLength, setOutBufferPosition, exec_bind_ok (exec_modify _ _)]
  have hstart : ({ outBuffer := some (lengthRoom ++ (content ++ rest))
                   currentOutBufferPosition := 0 } : OutputContext) =
      outputAt [] (lengthRoom ++ (content ++ rest)) := rfl
  rw [hstart, exec_bind_ok hwrite, setOutBufferPosition, exec_modify]
  simp [outputAt, ← hroom, ← hlength]

/-- Behind the message the buffer has room for the length, if the capacity test does not wrap. -/
theorem finishComposingMessage_eq (hlen : content.length + 1 + room.length ≤ INT_MAX)
    (hfinish : exec finishComposingMessage (outputAt (0 :: content) room) = (.ok (), out'))
    (hfits : content.length + 1 < 2 ^ 30 - 2) :
    ∃ lengthBytes rest, out' = outputAt (lengthBytes ++ content) rest ∧
      lengthBytes.map octet = encode content.length := by
  have hmax : INT_MAX = 2 ^ 31 - 1 := rfl
  have hle := lengthSizeOf_le (n := content.length) (by omega)
  rw [exec_finishComposingMessage (by omega)] at hfinish
  split_ifs at hfinish with hlong
  · obtain ⟨⟨⟩, moved, hmove, hwrite⟩ := exec_bind_eq_ok hfinish
    obtain ⟨⟨⟩, grown, hgrow, hmodify⟩ := exec_bind_eq_ok hmove
    obtain ⟨-, hroom, -⟩ := exec_ensureCapacity_ok (by simpa using hlen) hgrow
    obtain ⟨zeros, rfl, henough, htotal⟩ := hroom (by rw [List.length_cons]; omega)
    obtain rfl := (Prod.mk.inj hmodify).2
    have hinside : lengthSizeOf content.length + content.length ≤
        (0 :: content ++ (room ++ zeros)).length := by
      simp only [List.length_append, List.length_cons] at henough ⊢
      omega
    have hmoved := memmove_content hinside
    have hsize : (memmove (0 :: content ++ (room ++ zeros)) 1 (lengthSizeOf content.length)
        content.length).length ≤ INT_MAX := by
      refine (List.length_take_le _ _).trans ?_
      rwa [List.length_append]
    rw [hmoved] at hsize
    obtain ⟨lengthBytes, zeros', hexec, hoctets⟩ := exec_writeLength content
      ((0 :: content ++ (room ++ zeros)).take (lengthSizeOf content.length))
      ((0 :: content ++ (room ++ zeros)).drop (lengthSizeOf content.length + content.length))
      (0 :: content).length (by rw [List.length_take]; omega) hsize
    rw [← hmoved] at hexec
    have hout := (Prod.mk.inj (hwrite.symm.trans hexec)).2
    exact ⟨lengthBytes, _, hout, hoctets⟩
  · obtain ⟨lengthBytes, zeros, hexec, hoctets⟩ := exec_writeLength content [0] room
      (0 :: content).length
      (by rw [List.length_singleton]; unfold lengthSizeOf at hlong ⊢; omega)
      (by simp only [List.length_append, List.length_singleton]; omega)
    refine ⟨lengthBytes, room ++ zeros, ?_, hoctets⟩
    exact (Prod.mk.inj (hfinish.symm.trans hexec)).2

/-- The capacity test wraps: five bytes are asked for behind half of the range of `int`. -/
theorem isCapacityEnough_wrapped {p length : ℕ} (hlow : 2 ^ 30 - 2 ≤ p) (hhigh : p < 2 ^ 30)
    (hlen : length ≤ INT_MAX) : isCapacityEnough p (5 + (p - 1)) length = true :=
  isCapacityEnough_overflow (by unfold INT_MAX; omega) (by omega) hlen

/-- A length that fits into the buffer does not change how long it is. -/
theorem length_writeLength {n : ℕ} (buffer : List Int8) (position : ℕ)
    (hsize : lengthSizeOf n = 5) (hfive : 5 ≤ buffer.length) (hlen : buffer.length ≤ INT_MAX)
    (hn : n ≤ INT_MAX) (hwrite : exec (writeLength n) ⟨some buffer, position⟩ = (.ok (), out')) :
    out'.buffer.length = buffer.length := by
  have hvalue : (Int32.ofNat n).toInt = n := by
    unfold INT_MAX at hn
    exact Int32.toInt_ofNat_of_lt (by omega)
  have hroom : (buffer.take 5).length = getCompactSize (Int32.ofNat n).toInt64 := by
    rw [getCompactSize_eq, Int32.toInt_toInt64, hvalue, ← lengthSizeOf, hsize, List.length_take]
    omega
  obtain ⟨bs, zeros, hexec, -, hbs, hzeros⟩ := exec_writeCompactInt_start (Int32.ofNat n) hroom
    (by rwa [List.take_append_drop])
  rw [List.take_append_drop] at hexec hzeros
  obtain rfl := hzeros hfive
  rw [writeLength, setOutBufferPosition, exec_bind_ok (exec_modify _ _)] at hwrite
  have hstart : ({ outBuffer := some buffer, currentOutBufferPosition := 0 } : OutputContext) =
      outputAt [] buffer := rfl
  rw [hstart, exec_bind_ok hexec, setOutBufferPosition, exec_modify] at hwrite
  obtain rfl := (Prod.mk.inj hwrite).2
  have hsum := congrArg List.length (List.take_append_drop 5 buffer)
  rw [List.length_append] at hsum
  simp only [OutputContext.buffer, outputAt, Option.getD_some, List.append_nil, List.length_append]
  omega

/-- If the capacity test wraps, the end of the message is written behind the buffer. -/
theorem finishComposingMessage_wrapped (hlen : content.length + 1 + room.length ≤ INT_MAX)
    (hfinish : exec finishComposingMessage (outputAt (0 :: content) room) = (.ok (), out'))
    (hwrap : 2 ^ 30 - 2 ≤ content.length + 1) :
    (out'.writtenFrom 0).length < lengthSizeOf content.length + content.length := by
  have hmax : INT_MAX = 2 ^ 31 - 1 := rfl
  have hfive := lengthSizeOf_eq (n := content.length) (by omega) (by omega)
  rw [exec_finishComposingMessage (by omega), hfive, if_pos (by norm_num)] at hfinish
  obtain ⟨⟨⟩, moved, hmove, hwrite⟩ := exec_bind_eq_ok hfinish
  obtain ⟨⟨⟩, grown, hgrow, hmodify⟩ := exec_bind_eq_ok hmove
  obtain ⟨hhalf, -, hsame⟩ := exec_ensureCapacity_ok (by simpa using hlen) hgrow
  rw [List.length_cons] at hhalf hsame
  obtain rfl := hsame (isCapacityEnough_wrapped hwrap (by omega) (by omega))
  obtain rfl := (Prod.mk.inj hmodify).2
  have hlength : (memmove (0 :: content ++ room) 1 5 content.length).length =
      content.length + 1 + room.length := by
    simp only [memmove, List.length_take, List.length_append, List.length_drop, List.length_cons]
    omega
  set buffer := memmove (0 :: content ++ room) 1 5 content.length
  have hbuffer := length_writeLength buffer (0 :: content).length hfive (by omega) (by omega)
    (by omega) hwrite
  rw [OutputContext.writtenFrom, List.drop_zero, hfive]
  refine (List.length_take_le' _ _).trans_lt ?_
  omega

/-! ### Composed messages -/

/-- A message is composed in a buffer with the bytes `room`: behind the header `body` writes the
bytes `bs`, and all calls succeed. -/
def Composes (messageType : MessageType) (body : WriteCall Unit) (room bs : List Int8)
    (out' : OutputContext) : Prop :=
  ∃ header headerRoom bodyRoom,
    exec (composeMessageHeader messageType) (outputAt [] room) =
      (.ok (), outputAt header headerRoom) ∧
    exec body (outputAt header headerRoom) = (.ok (), outputAt (header ++ bs) bodyRoom) ∧
    (header ++ bs).length + bodyRoom.length ≤ INT_MAX ∧
    exec finishComposingMessage (outputAt (header ++ bs) bodyRoom) = (.ok (), out')

theorem outputAt_inj {pre room pre' room' : List Int8} (h : outputAt pre room = outputAt pre' room') :
    pre = pre' ∧ room = room' := by
  simp only [outputAt, OutputContext.mk.injEq, Option.some.injEq] at h
  exact List.append_inj h.1 h.2

/-- The header is a byte for the length, and the type. -/
theorem header_eq {messageType : MessageType} {room header headerRoom : List Int8}
    (hroom : room.length ≤ INT_MAX)
    (h : exec (composeMessageHeader messageType) (outputAt [] room) =
      (.ok (), outputAt header headerRoom)) :
    ∃ typeBytes, header = 0 :: typeBytes ∧ typeBytes.map octet = encode messageType.toInt := by
  obtain ⟨typeBytes, hputs, hoctets⟩ := puts_writeCompactInt messageType
  have hlength := length_compact hoctets messageType.le_toInt messageType.toInt_lt
  obtain ⟨room', hout, -⟩ := ((puts_writeByte 0).bind hputs).writes [] room _
    (by simp only [List.length_nil, List.length_append, List.length_singleton, INT_MAX]; omega)
    (by simpa using hroom) h
  exact ⟨typeBytes, (outputAt_inj hout).1, hoctets⟩

/-- What is composed in both composers, and taken by the parser. -/
def ComposesAndParsesBack (messageType : MessageType) (body : WriteCall Unit)
    (room bs : List Int8) (out' : OutputContext) : Prop :=
  exec (composeMessage messageType body) (outputAt [] room) = (.ok (), out') ∧
    exec (BinaryQTPComposer.writeMessage messageType body) (outputAt [] room) = (.ok (), out') ∧
    ParsesBack messageType bs (out'.writtenFrom 0)

/-- The number of bytes that a number is written in. -/
theorem length_of_encode {bs : List Int8} {v : ℤ} (h : bs.map octet = encode v) :
    bs.length = sizeClass v + 1 := by
  rw [← bs.length_map octet, h, length_encode]

theorem length_typeBytes {messageType : MessageType} {typeBytes : List Int8}
    (hvalid : isMessageTypeValid messageType = true)
    (htype : typeBytes.map octet = encode messageType.toInt) : typeBytes.length = 1 := by
  obtain ⟨hnonneg, hle⟩ := toInt_of_valid hvalid
  rw [length_of_encode htype, sizeClass_zero ⟨by norm_num [width]; omega, by
    norm_num [width]; omega⟩]

variable {messageType : MessageType} {body : WriteCall Unit} {bs : List Int8}

/-- A message for which the capacity test wraps does not parse back. -/
theorem not_parsesBack (hvalid : isMessageTypeValid messageType = true)
    (hroom : room.length ≤ INT_MAX) (hcomposes : Composes messageType body room bs out')
    (hwrap : 2 ^ 30 - 4 ≤ bs.length) : ¬ ParsesBack messageType bs (out'.writtenFrom 0) := by
  obtain ⟨header, headerRoom, bodyRoom, hheader, -, hbodyRoom, hfinish⟩ := hcomposes
  obtain ⟨typeBytes, rfl, htype⟩ := header_eq hroom hheader
  have hone := length_typeBytes hvalid htype
  have htotal : (typeBytes ++ bs).length = 1 + bs.length := by
    rw [List.length_append, hone]
  have hlen : (typeBytes ++ bs).length + 1 + bodyRoom.length ≤ INT_MAX := hbodyRoom
  have hshort := finishComposingMessage_wrapped hlen hfinish (by omega)
  rintro ⟨lengthBytes, typeBytes', hbytes, hlength, htype', -⟩
  have hcontent : (typeBytes' ++ bs).length = (typeBytes ++ bs).length := by
    rw [List.length_append, List.length_append, hone, length_typeBytes hvalid htype']
  rw [hbytes, List.length_append, length_of_encode hlength, hcontent, lengthSizeOf] at hshort
  exact absurd hshort (lt_irrefl _)

/-- A composed message parses back if and only if its body takes less than 2 ^ 30 - 4 bytes. -/
theorem composedMessage_iff (messageType : MessageType) (body : WriteCall Unit)
    (room bs : List Int8) (out' : OutputContext) (hvalid : isMessageTypeValid messageType = true)
    (hroom : room.length ≤ INT_MAX) (hcomposes : Composes messageType body room bs out') :
    ComposesAndParsesBack messageType body room bs out' ↔ bs.length < 2 ^ 30 - 4 := by
  constructor
  · rintro ⟨-, -, hparses⟩
    by_contra hwrap
    exact not_parsesBack hvalid hroom hcomposes (not_lt.mp hwrap) hparses
  · intro hfits
    obtain ⟨header, headerRoom, bodyRoom, hheader, hbody, hbodyRoom, hfinish⟩ := hcomposes
    obtain ⟨typeBytes, rfl, htype⟩ := header_eq hroom hheader
    have hcompose : exec (composeMessage messageType body) (outputAt [] room) = (.ok (), out') := by
      rw [composeMessage, exec_bind_ok hheader, exec_bind_ok hbody, hfinish]
    have hsame : BinaryQTPComposer.writeMessage messageType body =
        composeMessage messageType body := rfl
    have hlen : (typeBytes ++ bs).length + 1 + bodyRoom.length ≤ INT_MAX := hbodyRoom
    have htotal : (typeBytes ++ bs).length = 1 + bs.length := by
      rw [List.length_append, length_typeBytes hvalid htype]
    obtain ⟨lengthBytes, rest, rfl, hlength⟩ :=
      finishComposingMessage_eq hlen hfinish (by omega)
    refine ⟨hcompose, hsame ▸ hcompose, ?_⟩
    have hwritten : (outputAt (lengthBytes ++ (typeBytes ++ bs)) rest).writtenFrom 0 =
        lengthBytes ++ (typeBytes ++ bs) := writtenFrom_outputAt [] _ rest
    rw [hwritten]
    exact parsesBack hvalid hlength htype

/-- A body that is given. -/
def writeBytes : List Int8 → WriteCall Unit
  | [] => pure ()
  | b :: bs => do
      writeByte b
      writeBytes bs

/-- A heartbeat with two bytes. -/
theorem composedMessage_heartbeat :
    ComposesAndParsesBack messageHeartbeat (writeBytes [7, 8]) (List.replicate 8 0) [7, 8]
      (outputAt [3, 0, 7, 8] [0, 0, 0, 0]) :=
  (composedMessage_iff messageHeartbeat (writeBytes [7, 8]) (List.replicate 8 0) [7, 8]
    (outputAt [3, 0, 7, 8] [0, 0, 0, 0]) (by decide) (by decide)
    ⟨[0, 0], List.replicate 6 0, List.replicate 4 0, by decide, by decide, by decide,
      by decide⟩).mpr (by decide)

/-! ### A message of a gigabyte -/

/-- With room for them bytes are written in place. -/
theorem exec_writeBytes (bs pre room : List Int8) (hroom : bs.length ≤ room.length)
    (hlen : pre.length + room.length ≤ INT_MAX) :
    exec (writeBytes bs) (outputAt pre room) =
      (.ok (), outputAt (pre ++ bs) (room.drop bs.length)) := by
  induction bs generalizing pre room with
  | nil => simp [writeBytes]
  | cons b bs ih =>
      rw [List.length_cons] at hroom
      have hcheck : exec (checkWritePossibility 1) (outputAt pre room) =
          (.ok (), outputAt pre room) := exec_checkWritePossibility_room (by omega) hlen
      have hbyte : exec (writeByte b) (outputAt pre room) =
          (.ok (), outputAt (pre ++ [b]) (room.drop 1)) := by
        rw [writeByte, exec_bind_ok hcheck]
        exact writes_putByte b pre room (by rw [List.length_singleton]; omega)
      have hrest := ih (pre ++ [b]) (room.drop 1) (by rw [List.length_drop]; omega)
        (by rw [List.length_append, List.length_drop, List.length_singleton]; omega)
      rw [writeBytes, exec_bind_ok hbyte, hrest, List.append_assoc, List.drop_drop,
        List.length_cons, Nat.add_comm bs.length, List.singleton_append]

/-- Where the capacity test wraps the composer succeeds. -/
theorem exists_finishComposingMessage (hlow : 2 ^ 30 - 2 ≤ content.length + 1)
    (hhalf : content.length + 1 + (content.length + 1 + room.length) ≤ INT_MAX) :
    ∃ out', exec finishComposingMessage (outputAt (0 :: content) room) = (.ok (), out') := by
  have hmax : INT_MAX = 2 ^ 31 - 1 := rfl
  have hfive := lengthSizeOf_eq (n := content.length) (by omega) (by omega)
  have hwrapped := isCapacityEnough_wrapped hlow (by omega)
    (show content.length + 1 + room.length ≤ INT_MAX by omega)
  rw [Nat.add_sub_cancel] at hwrapped
  have hgrow : exec (ensureCapacity (5 + content.length)) (outputAt (0 :: content) room) =
      (.ok (), outputAt (0 :: content) room) := by
    unfold ensureCapacity
    rw [exec_bind_ok (exec_get _)]
    simp only [outBufferLength_outputAt, currentOutBufferPosition_outputAt, List.length_cons,
      hwrapped]
    rw [if_neg (by omega), Bool.not_true, if_neg Bool.false_ne_true]
    rfl
  set buffer := memmove (0 :: content ++ room) 1 5 content.length with hbuffer
  have hmove : exec (moveMessageData 1 5 content.length) (outputAt (0 :: content) room) =
      (.ok (), ⟨some buffer, content.length + 1⟩) := by
    rw [moveMessageData, exec_bind_ok hgrow]
    rfl
  have hlength : buffer.length = content.length + 1 + room.length := by
    simp only [hbuffer, memmove, List.length_take, List.length_append, List.length_drop,
      List.length_cons]
    omega
  have hvalue : (Int32.ofNat content.length).toInt = content.length :=
    (messageLength_eq (by omega)).2
  have hroom : (buffer.take 5).length = getCompactSize (Int32.ofNat content.length).toInt64 := by
    rw [getCompactSize_eq, Int32.toInt_toInt64, hvalue, ← lengthSizeOf, hfive, List.length_take]
    omega
  obtain ⟨bs, zeros, hexec, -⟩ := exec_writeCompactInt_start (Int32.ofNat content.length) hroom
    (by rw [List.take_append_drop]; omega)
  rw [List.take_append_drop] at hexec
  have hstart : ({ outBuffer := some buffer, currentOutBufferPosition := 0 } : OutputContext) =
      outputAt [] buffer := rfl
  have hwrite : exec (writeLength content.length) ⟨some buffer, content.length + 1⟩ =
      exec (setOutBufferPosition (lengthSizeOf content.length + content.length))
        (outputAt bs (buffer.drop 5 ++ zeros)) := by
    rw [writeLength]
    nth_rewrite 1 [setOutBufferPosition]
    rw [exec_bind_ok (exec_modify _ _), hstart, exec_bind_ok hexec]
  rw [setOutBufferPosition, exec_modify] at hwrite
  rw [exec_finishComposingMessage (by omega), hfive, if_pos (by norm_num), exec_bind_ok hmove,
    hwrite]
  exact ⟨_, rfl⟩

/-- With room for it the header is written in place. -/
theorem exec_composeMessageHeader (hvalid : isMessageTypeValid messageType = true)
    (hroom : 6 ≤ room.length) (hlen : room.length ≤ INT_MAX) :
    ∃ typeByte, exec (composeMessageHeader messageType) (outputAt [] room) =
      (.ok (), outputAt [0, typeByte] (room.drop 2)) := by
  obtain ⟨typeBytes, hwrites, hoctets⟩ := writes_writeCompactIntUnchecked messageType
  obtain ⟨typeByte, rfl⟩ := List.length_eq_one_iff.mp (length_typeBytes hvalid hoctets)
  have hbyte : exec (writeByte 0) (outputAt [] room) = (.ok (), outputAt [0] (room.drop 1)) := by
    rw [writeByte, exec_bind_ok (exec_checkWritePossibility_room (by omega) (by simpa using hlen))]
    exact writes_putByte 0 [] room (by rw [List.length_singleton]; omega)
  have hdrop : (room.drop 1).length = room.length - 1 := List.length_drop
  have hcheck : exec (checkWritePossibility 5) (outputAt [0] (room.drop 1)) =
      (.ok (), outputAt [0] (room.drop 1)) :=
    exec_checkWritePossibility_room (by omega) (by rw [List.length_singleton]; omega)
  refine ⟨typeByte, ?_⟩
  rw [composeMessageHeader, exec_bind_ok hbyte, writeCompactInt, exec_bind_ok hcheck,
    hwrites _ _ (by rw [List.length_singleton]; omega), List.drop_drop]
  rfl

/-- A message with 2 ^ 30 - 4 bytes in a buffer of 2 ^ 30 bytes is composed. -/
theorem composes_gigabyte (hvalid : isMessageTypeValid messageType = true)
    (hroom : room.length = 2 ^ 30) (hbs : bs.length = 2 ^ 30 - 4) :
    ∃ out', Composes messageType (writeBytes bs) room bs out' := by
  have hmax : INT_MAX = 2 ^ 31 - 1 := rfl
  obtain ⟨typeByte, hheader⟩ := exec_composeMessageHeader hvalid (by omega)
    (show room.length ≤ INT_MAX by omega)
  have hdrop : (room.drop 2).length = room.length - 2 := List.length_drop
  have hbody := exec_writeBytes bs [0, typeByte] (room.drop 2) (by omega)
    (by rw [List.length_cons, List.length_singleton]; omega)
  have hrest : ((room.drop 2).drop bs.length).length = 2 := by
    rw [List.length_drop]
    omega
  have hcontent : (typeByte :: bs).length = 2 ^ 30 - 3 := by
    rw [List.length_cons]
    omega
  obtain ⟨out', hfinish⟩ : ∃ out', exec finishComposingMessage
      (outputAt (0 :: typeByte :: bs) ((room.drop 2).drop bs.length)) = (.ok (), out') :=
    exists_finishComposingMessage (by omega) (by omega)
  refine ⟨out', [0, typeByte], room.drop 2, (room.drop 2).drop bs.length, hheader, hbody, ?_,
    hfinish⟩
  rw [List.length_append, List.length_cons, List.length_singleton]
  omega

/-- A gigabyte of zeros is composed and does not parse back. -/
theorem not_composedMessage_gigabyte :
    ∃ out', Composes messageDescribeRecords (writeBytes (List.replicate (2 ^ 30 - 4) 0))
        (List.replicate (2 ^ 30) 0) (List.replicate (2 ^ 30 - 4) 0) out' ∧
      ¬ ComposesAndParsesBack messageDescribeRecords
        (writeBytes (List.replicate (2 ^ 30 - 4) 0)) (List.replicate (2 ^ 30) 0)
        (List.replicate (2 ^ 30 - 4) 0) out' := by
  have hvalid : isMessageTypeValid messageDescribeRecords = true := by decide
  have hbuffer : (List.replicate (2 ^ 30) (0 : Int8)).length = 2 ^ 30 := List.length_replicate
  have hzeros : (List.replicate (2 ^ 30 - 4) (0 : Int8)).length = 2 ^ 30 - 4 :=
    List.length_replicate
  generalize List.replicate (2 ^ 30) (0 : Int8) = room at hbuffer
  generalize List.replicate (2 ^ 30 - 4) (0 : Int8) = bs at hzeros
  obtain ⟨out', hcomposes⟩ := composes_gigabyte hvalid hbuffer hzeros
  have hroom : room.length ≤ INT_MAX := by
    rw [hbuffer]
    norm_num [INT_MAX]
  refine ⟨out', hcomposes, ?_⟩
  rintro ⟨-, -, hparses⟩
  exact not_parsesBack hvalid hroom hcomposes hzeros.ge hparses

end DxFeed.ClientMessageProcessor
