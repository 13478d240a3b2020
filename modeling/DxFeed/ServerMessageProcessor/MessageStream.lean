import DxFeed.ServerMessageProcessor.Framing

/-!
# Well-formed message streams

* `Frame`: a message with the bytes of its length;
* `IsStream`: the frames that handlers accept one after the other, with the messages they hand
  over;
* `processRound_frame`, `processRound_cut`: the round of a whole frame, and of a frame whose end
  is missing;
* `receive_stream`: portions of a well-formed stream.
-/

namespace DxFeed.ServerMessageProcessor

open Call BufferedIO FixedWidth PrefixCode

/-! ### Frames -/

/-- A message: the bytes of its length, and what it contains. -/
structure Frame where
  lengthBytes : List Int8
  content : List Int8
  deriving DecidableEq, Repr

def Frame.bytes (f : Frame) : List Int8 :=
  f.lengthBytes ++ f.content

/-- The length in front is that of the content. -/
def Frame.Announced (f : Frame) : Prop :=
  ∃ len, Reads readCompactLong f.lengthBytes len ∧ len.toInt = f.content.length

/-- The bytes of the frames of a stream. -/
def streamBytes (frames : List Frame) : List Int8 :=
  frames.flatMap Frame.bytes

@[simp] theorem streamBytes_nil : streamBytes [] = [] := rfl

@[simp] theorem streamBytes_cons (f : Frame) (frames : List Frame) :
    streamBytes (f :: frames) = f.bytes ++ streamBytes frames := rfl

@[simp] theorem streamBytes_append (frames frames' : List Frame) :
    streamBytes (frames ++ frames') = streamBytes frames ++ streamBytes frames' :=
  List.flatMap_append

variable {σ : Type} {h : Handlers σ}

/-- The handler takes exactly the body, wherever it stands, or it does not support the message. -/
def Accepts (h : Handlers σ) (messageType : MessageType) (body : List Int8) (s s' : σ) : Prop :=
  ∀ pre post, (pre ++ (body ++ post)).length ≤ INT_MAX →
    let limit := pre.length + body.length
    let result := exec (processMessage h messageType) ⟨inputAt pre (body ++ post) limit, s⟩
    result = (.ok (), ⟨inputAt (pre ++ body) post limit, s'⟩) ∨
      result = (.error (some .serverMessageNotSupported), ⟨inputAt pre (body ++ post) limit, s'⟩)

/-- What a message hands over: nothing if its type is unknown, and a heartbeat if it is
empty. -/
def Frame.handed (f : Frame) : List Handed :=
  if f.content = [] then [(messageHeartbeat, [])]
  else
    match exec readMessageType (inputAt [] f.content f.content.length) with
    | (.ok messageType, bicc) => [(messageType, f.content.drop bicc.currentInBufferPosition)]
    | (.error _, _) => []

/-- The contents that are handled from a state: bodies that the handler accepts, and messages of
unknown types. -/
inductive Handles (h : Handlers σ) (s : σ) : List Int8 → σ → Prop
  | unknown (typeBytes body : List Int8) (type : Int64)
      (hreads : Reads readCompactLong typeBytes type)
      (hinvalid : isMessageTypeValid type.toInt32 = false) : Handles h s (typeBytes ++ body) s
  | empty (s' : σ) (haccepts : Accepts h messageHeartbeat [] s s') : Handles h s [] s'
  | message (typeBytes body : List Int8) (type : Int64) (s' : σ)
      (hreads : Reads readCompactLong typeBytes type)
      (hvalid : isMessageTypeValid type.toInt32 = true)
      (haccepts : Accepts h type.toInt32 body s s') : Handles h s (typeBytes ++ body) s'

/-- The frames that are handled one after the other from a state. -/
inductive IsStream (h : Handlers σ) : σ → List Frame → Prop
  | nil (s : σ) : IsStream h s []
  | cons {s s' : σ} {f : Frame} {frames : List Frame} (hframe : f.Announced)
      (hhandles : Handles h s f.content s') (hrest : IsStream h s' frames) :
      IsStream h s (f :: frames)

/-! ### The length of a message -/

/-- The bytes of a compact number are a first byte and those of its class. -/
theorem length_of_reads {bs : List Int8} {v : Int64} (hreads : Reads readCompactLong bs v)
    (hfits : bs.length ≤ INT_MAX) :
    ∃ b bs', bs = b :: bs' ∧ bs'.length = classOf (octet b) := by
  have hexec := hreads [] [] 0 (by simpa using hfits)
  cases bs with
  | nil => exact nomatch (Prod.mk.inj hexec).1
  | cons b bs =>
      have hclass := classOf_le (octet b)
      have hfits' : ([] ++ (b :: bs)).length ≤ INT_MAX := hfits
      obtain ⟨hcons, hrange⟩ := exec_readCompactLong_cons 0 hfits'
        (by simp only [List.length_nil, INT_MAX]; omega)
      rw [List.append_nil, hcons] at hexec
      refine ⟨b, bs, rfl, ?_⟩
      have hposition := ((readCompactLongFrom_reach b).1 _ _ v hrange hexec).position
      simp [inputAt] at hposition
      omega

section Rounds

variable {f : Frame} {pre cut missing post : List Int8} {limit : ℕ}

/-- The length of a message that is there. -/
theorem exec_readLength_frame (limit : ℕ) (hframe : f.Announced)
    (hlen : (pre ++ (f.bytes ++ post)).length ≤ INT_MAX) :
    exec (readMessageLengthAndSetBufferLimit (pre ++ (f.bytes ++ post)).length)
        (inputAt pre (f.bytes ++ post) limit) =
      (.ok (), inputAt (pre ++ f.lengthBytes) (f.content ++ post)
        (pre.length + f.bytes.length)) := by
  obtain ⟨len, hreads, hvalue⟩ := hframe
  simp only [Frame.bytes, List.append_assoc, List.length_append] at hlen ⊢
  have hread := hreads pre (f.content ++ post) limit (by simp only [List.length_append]; omega)
  have hnonneg : ¬ len < 0 := by
    rw [Int64.lt_iff_toInt_lt, hvalue]
    exact not_lt.mpr (Int.natCast_nonneg _)
  unfold readMessageLengthAndSetBufferLimit
  rw [exec_bind_ok (exec_adapt_ok _ hread), exec_bind_ok (exec_get _), if_neg, if_neg]
  · simp [inputAt, hvalue, Nat.add_assoc]
  · simp only [inputAt, hvalue, Int.toNat_natCast, List.length_append]
    omega
  · rintro (hneg | hlarge)
    · exact hnonneg hneg
    · simp only [inputAt, hvalue, List.length_append] at hlarge
      omega

/-- A message whose end is missing is not complete. -/
theorem exec_readLength_cut (limit : ℕ) (hframe : f.Announced) (hcut : f.bytes = cut ++ missing)
    (hstarted : cut ≠ []) (hmissing : missing ≠ [])
    (hlen : pre.length + f.bytes.length ≤ INT_MAX) :
    ∃ n, exec (readMessageLengthAndSetBufferLimit (pre ++ cut).length) (inputAt pre cut limit) =
      (.error .messageIncomplete, { inputAt pre cut limit with
        currentInBufferPosition := pre.length + n }) := by
  obtain ⟨len, hreads, hvalue⟩ := hframe
  have hsize : (pre ++ cut).length ≤ INT_MAX := by
    rw [hcut, List.length_append] at hlen
    rw [List.length_append]
    omega
  have hlengthSize : pre.length + f.lengthBytes.length ≤ INT_MAX := by
    rw [Frame.bytes, List.length_append] at hlen
    omega
  have hstart : cut <+: f.lengthBytes ++ f.content := ⟨missing, hcut.symm⟩
  unfold readMessageLengthAndSetBufferLimit
  rcases le_or_gt f.lengthBytes.length cut.length with hle | hlt
  · -- the length is there, and a part of the content
    obtain ⟨contentCut, rfl⟩ : f.lengthBytes <+: cut :=
      List.prefix_of_prefix_length_le (List.prefix_append _ f.content) hstart hle
    have hread := hreads pre contentCut limit hsize
    have hnonneg : ¬ len < 0 := by
      rw [Int64.lt_iff_toInt_lt, hvalue]
      exact not_lt.mpr (Int.natCast_nonneg _)
    have hcontent := congrArg List.length hcut
    have hmissingLength := List.length_pos_of_ne_nil hmissing
    simp only [Frame.bytes, List.length_append] at hlen hcontent
    refine ⟨f.lengthBytes.length, ?_⟩
    rw [exec_bind_ok (exec_adapt_ok _ hread), exec_bind_ok (exec_get _), if_neg, if_pos]
    · simp [inputAt]
    · simp only [inputAt, hvalue, Int.toNat_natCast, List.length_append]
      omega
    · rintro (hneg | hlarge)
      · exact hnonneg hneg
      · simp only [inputAt, hvalue, List.length_append] at hlarge
        omega
  · -- bytes of the length are missing
    obtain ⟨b, bs, hbytes, hclass⟩ := length_of_reads hreads (by omega)
    obtain ⟨lengthMissing, hlength⟩ : cut <+: f.lengthBytes :=
      List.prefix_of_prefix_length_le hstart (List.prefix_append _ f.content) hlt.le
    obtain ⟨b', cut, rfl⟩ := List.exists_cons_of_ne_nil hstarted
    rw [hbytes] at hlength hlengthSize hlt
    obtain rfl := (List.cons.inj hlength).1
    simp only [List.length_cons] at hlengthSize hlt
    obtain ⟨e, n, hread⟩ := exec_readCompactLong_cut limit hsize
      (show cut.length < classOf (octet b') by omega) (by omega)
    exact ⟨n, exec_bind_error (exec_adapt_error _ hread)⟩

/-! ### Rounds in place -/

theorem body_inputAt (pre body post : List Int8) (s : σ) :
    Session.body ⟨inputAt pre (body ++ post) (pre.length + body.length), s⟩ = body := by
  simp [Session.body, inputAt, InputContext.buffer]

variable {s s' : σ} {before : List Handed}

/-- After an accepted message the position is behind its body. -/
theorem handMessage_accepts (pre post : List Int8) (before : List Handed)
    {messageType : MessageType} {body : List Int8} (haccepts : Accepts h messageType body s s')
    (hlen : (pre ++ (body ++ post)).length ≤ INT_MAX) (bufferSize : ℕ) :
    handMessage h bufferSize messageType
        ⟨⟨inputAt pre (body ++ post) (pre.length + body.length), s⟩, true, before⟩ =
      ⟨⟨inputAt (pre ++ body) post (pre.length + body.length), s'⟩, true,
        before ++ [(messageType, body)]⟩ := by
  unfold handMessage
  rcases haccepts pre post hlen with hexec | hexec
  · simp only [hexec, body_inputAt]
  · simp only [hexec, body_inputAt]
    simp [Session.setPosition, inputAt]

theorem exec_readMessageType (pre post : List Int8) (limit : ℕ) {typeBytes body : List Int8}
    {type : Int64} (hreads : Reads readCompactLong typeBytes type)
    (hlen : (pre ++ (typeBytes ++ (body ++ post))).length ≤ INT_MAX) :
    exec readMessageType (inputAt pre (typeBytes ++ (body ++ post)) limit) =
      (if isMessageTypeValid type.toInt32 then .ok type.toInt32 else .error .unexpectedMessageType,
        inputAt (pre ++ typeBytes) (body ++ post) limit) := by
  unfold readMessageType
  rw [exec_bind_ok (exec_adapt_ok _ (hreads pre (body ++ post) limit hlen))]
  split_ifs <;> rfl

theorem ne_nil_of_reads {typeBytes body : List Int8} {type : Int64}
    (hreads : Reads readCompactLong typeBytes type) (hlen : (typeBytes ++ body).length ≤ INT_MAX) :
    0 < typeBytes.length := by
  rw [List.length_append] at hlen
  obtain ⟨b, bs, rfl, -⟩ := length_of_reads hreads (by omega)
  exact Nat.succ_pos _

/-- What a content with a type hands over. -/
theorem handed_of_reads (lengthBytes : List Int8) {typeBytes body : List Int8} {type : Int64}
    (hreads : Reads readCompactLong typeBytes type)
    (hlen : (typeBytes ++ body).length ≤ INT_MAX) :
    Frame.handed ⟨lengthBytes, typeBytes ++ body⟩ =
      if isMessageTypeValid type.toInt32 then [(type.toInt32, body)] else [] := by
  have hpos := ne_nil_of_reads hreads hlen
  have htype := exec_readMessageType [] [] (typeBytes ++ body).length hreads (by simpa using hlen)
  rw [List.append_nil] at htype
  unfold Frame.handed
  rw [if_neg (by rintro hnil; simp [List.append_eq_nil_iff.mp hnil] at hpos)]
  simp only [htype]
  split_ifs with hvalid
  · simp [inputAt]
  · rfl

/-- The round of a whole message. -/
theorem processRound_frame (pre post : List Int8) (limit : ℕ) (before : List Handed)
    (hframe : f.Announced) (hhandles : Handles h s f.content s')
    (hlen : (pre ++ (f.bytes ++ post)).length ≤ INT_MAX) :
    processRound h (pre ++ (f.bytes ++ post)).length
        ⟨⟨inputAt pre (f.bytes ++ post) limit, s⟩, true, before⟩ =
      (⟨⟨inputAt (pre ++ f.bytes) post (pre.length + f.bytes.length), s'⟩, true,
        before ++ f.handed⟩, true) := by
  obtain ⟨lengthBytes, content⟩ := f
  have hlength := exec_readLength_frame limit hframe hlen
  have hsplit : pre ++ (Frame.bytes ⟨lengthBytes, content⟩ ++ post) =
      pre ++ lengthBytes ++ (content ++ post) := by
    simp [Frame.bytes]
  have hend : pre ++ Frame.bytes ⟨lengthBytes, content⟩ = pre ++ lengthBytes ++ content := by
    simp [Frame.bytes]
  have hlimit : pre.length + (Frame.bytes ⟨lengthBytes, content⟩).length =
      (pre ++ lengthBytes).length + content.length := by
    simp [Frame.bytes, Nat.add_assoc]
  rw [hsplit] at hlen
  rw [hsplit, hlimit] at hlength
  rw [hsplit, hlimit, hend]
  dsimp only at hlength hhandles
  unfold processRound
  simp only [hlength]
  generalize pre ++ lengthBytes = front at hlen ⊢
  cases hhandles with
  | unknown typeBytes body type hreads hinvalid =>
      have hfits : (typeBytes ++ body).length ≤ INT_MAX := by
        simp only [List.length_append] at hlen ⊢
        omega
      rw [List.append_assoc] at hlen
      have htype := exec_readMessageType front post (front.length + (typeBytes ++ body).length)
        hreads hlen
      have hpos := ne_nil_of_reads hreads hfits
      have hhanded := handed_of_reads lengthBytes hreads hfits
      have hskip : ¬ isMessageTypeValid type.toInt32 = true := by simp [hinvalid]
      rw [if_neg hskip] at htype hhanded
      rw [if_pos (by simp only [inputAt, List.length_append]; omega), hhanded,
        List.append_assoc typeBytes]
      simp only [htype]
      simp [inputAt]
  | empty _ haccepts =>
      rw [if_neg (by simp [inputAt])]
      simp only [Prod.mk.injEq, and_true]
      exact handMessage_accepts front post before haccepts hlen _
  | message typeBytes body type _ hreads hvalid haccepts =>
      have hfits : (typeBytes ++ body).length ≤ INT_MAX := by
        simp only [List.length_append] at hlen ⊢
        omega
      rw [List.append_assoc] at hlen
      have htype := exec_readMessageType front post (front.length + (typeBytes ++ body).length)
        hreads hlen
      have hpos := ne_nil_of_reads hreads hfits
      have hhanded := handed_of_reads lengthBytes hreads hfits
      rw [if_pos hvalid] at htype hhanded
      have hlimit : front.length + (typeBytes ++ body).length =
          (front ++ typeBytes).length + body.length := by
        simp [Nat.add_assoc]
      rw [if_pos (by simp only [inputAt, List.length_append]; omega), hhanded,
        List.append_assoc typeBytes]
      simp only [htype, Prod.mk.injEq, and_true]
      rw [hlimit, ← List.append_assoc front typeBytes body]
      exact handMessage_accepts _ post before haccepts (by simpa using hlen) _

/-- The round of a message whose end is missing puts the position back. -/
theorem processRound_cut (pre : List Int8) (limit : ℕ) (s : σ) (before : List Handed)
    (hframe : f.Announced) (hcut : f.bytes = cut ++ missing)
    (hstarted : cut ≠ []) (hmissing : missing ≠ [])
    (hlen : pre.length + f.bytes.length ≤ INT_MAX) :
    processRound h (pre ++ cut).length ⟨⟨inputAt pre cut limit, s⟩, true, before⟩ =
      (⟨⟨inputAt pre cut limit, s⟩, true, before⟩, false) := by
  obtain ⟨n, hlength⟩ := exec_readLength_cut limit hframe hcut hstarted hmissing hlen
  unfold processRound
  simp only [hlength]

end Rounds

/-! ### Streams that are cut -/

/-- The frames that end within the first `n` bytes. -/
def wholeFrames : List Frame → ℕ → List Frame
  | [], _ => []
  | f :: frames, n =>
      if f.bytes.length ≤ n then f :: wholeFrames frames (n - f.bytes.length) else []

/-- What is left of the first bytes of a stream behind the frames that end there. -/
def incompleteSuffix (frames : List Frame) (bytes : List Int8) : List Int8 :=
  bytes.drop (streamBytes (wholeFrames frames bytes.length)).length

theorem wholeFrames_cons_add (f : Frame) (frames : List Frame) (n : ℕ) :
    wholeFrames (f :: frames) (f.bytes.length + n) = f :: wholeFrames frames n := by
  simp [wholeFrames]

theorem incompleteSuffix_cons_append (f : Frame) (frames : List Frame) (bytes : List Int8) :
    incompleteSuffix (f :: frames) (f.bytes ++ bytes) = incompleteSuffix frames bytes := by
  rw [incompleteSuffix, List.length_append, wholeFrames_cons_add, streamBytes_cons,
    List.length_append, ← List.drop_drop, List.drop_left]
  rfl

theorem wholeFrames_append (frames : List Frame) (m n : ℕ) :
    wholeFrames frames (m + n) = wholeFrames frames m ++
      wholeFrames (frames.drop (wholeFrames frames m).length)
        (m - (streamBytes (wholeFrames frames m)).length + n) := by
  induction frames generalizing m with
  | nil => rfl
  | cons f frames ih =>
      simp only [wholeFrames]
      split_ifs with hboth hfirst hfirst
      · have hsum : m + n - f.bytes.length = m - f.bytes.length + n := by omega
        rw [hsum, ih]
        simp [Nat.sub_sub]
      · simp [wholeFrames, hboth]
      · omega
      · simp [wholeFrames, hboth]

/-- The whole frames are the first ones, and their bytes are there. -/
theorem streamBytes_wholeFrames {frames : List Frame} {bytes : List Int8}
    (hstart : bytes <+: streamBytes frames) :
    streamBytes (wholeFrames frames bytes.length) ++ incompleteSuffix frames bytes = bytes ∧
      incompleteSuffix frames bytes <+:
        streamBytes (frames.drop (wholeFrames frames bytes.length).length) := by
  induction frames generalizing bytes with
  | nil =>
      obtain rfl := List.prefix_nil.mp hstart
      simp [incompleteSuffix, wholeFrames]
  | cons f frames ih =>
      rcases le_or_gt f.bytes.length bytes.length with hwhole | hcut
      · obtain ⟨rest, rfl⟩ : f.bytes <+: bytes :=
          List.prefix_of_prefix_length_le (List.prefix_append _ _) hstart hwhole
        have hrest := ih ((List.prefix_append_right_inj f.bytes).mp hstart)
        simpa [wholeFrames_cons_add, incompleteSuffix_cons_append] using hrest
      · have hnone : wholeFrames (f :: frames) bytes.length = [] := if_neg (by omega)
        simpa [incompleteSuffix, hnone] using hstart

theorem wholeFrames_streamBytes (done rest : List Frame) (n : ℕ) :
    wholeFrames (done ++ rest) ((streamBytes done).length + n) = done ++ wholeFrames rest n := by
  induction done with
  | nil => simp
  | cons f done ih =>
      rw [streamBytes_cons, List.length_append, Nat.add_assoc, List.cons_append,
        wholeFrames_cons_add, ih]
      rfl

theorem wholeFrames_length (frames : List Frame) :
    wholeFrames frames (streamBytes frames).length = frames := by
  simpa [wholeFrames] using wholeFrames_streamBytes frames [] 0

theorem wholeFrames_append_drop (frames : List Frame) (n : ℕ) :
    wholeFrames frames n ++ frames.drop (wholeFrames frames n).length = frames := by
  induction frames generalizing n with
  | nil => rfl
  | cons f frames ih =>
      unfold wholeFrames
      split_ifs with hwhole
      · simpa using ih (n - f.bytes.length)
      · rfl

/-- More bytes: those of an incomplete frame come before them. -/
theorem incompleteSuffix_append {frames : List Frame} {bytes data : List Int8}
    (hstart : bytes ++ data <+: streamBytes frames) :
    incompleteSuffix frames (bytes ++ data) =
        incompleteSuffix (frames.drop (wholeFrames frames bytes.length).length)
          (incompleteSuffix frames bytes ++ data) ∧
      incompleteSuffix frames bytes ++ data <+:
        streamBytes (frames.drop (wholeFrames frames bytes.length).length) ∧
      wholeFrames frames (bytes ++ data).length = wholeFrames frames bytes.length ++
        wholeFrames (frames.drop (wholeFrames frames bytes.length).length)
          (incompleteSuffix frames bytes ++ data).length := by
  obtain ⟨hsplit, -⟩ := streamBytes_wholeFrames ((List.prefix_append bytes data).trans hstart)
  have hlength : bytes.length - (streamBytes (wholeFrames frames bytes.length)).length +
      data.length = (incompleteSuffix frames bytes ++ data).length := by
    rw [List.length_append, incompleteSuffix, List.length_drop]
  have happend := wholeFrames_append frames bytes.length data.length
  rw [hlength, ← List.length_append] at happend
  have hbytes : bytes ++ data = streamBytes (wholeFrames frames bytes.length) ++
      (incompleteSuffix frames bytes ++ data) := by
    rw [← List.append_assoc, hsplit]
  refine ⟨?_, ?_, happend⟩
  · rw [incompleteSuffix, happend, streamBytes_append, List.length_append, ← List.drop_drop,
      hbytes, List.drop_left]
    rfl
  · have hframes := congrArg streamBytes (wholeFrames_append_drop frames bytes.length)
    rw [streamBytes_append] at hframes
    rw [← hframes, hbytes] at hstart
    exact (List.prefix_append_right_inj _).mp hstart

section Loop

variable {s : σ} {frames : List Frame} {pre bytes : List Int8}

theorem Frame.Announced.length_pos {f : Frame} (hframe : f.Announced)
    (hlen : f.bytes.length ≤ INT_MAX) : 0 < f.bytes.length := by
  obtain ⟨len, hreads, -⟩ := hframe
  have hpos := ne_nil_of_reads hreads hlen
  rw [Frame.bytes, List.length_append]
  omega

/-- Without bytes in front of it the loop ends. -/
theorem processLoop_nil {fuel : ℕ} (hfuel : 0 < fuel) (pre : List Int8) (limit : ℕ) (s : σ)
    (before : List Handed) :
    processLoop h (pre ++ []).length fuel ⟨⟨inputAt pre [] limit, s⟩, true, before⟩ =
      some ⟨⟨inputAt pre [] limit, s⟩, true, before⟩ := by
  obtain ⟨fuel, rfl⟩ := Nat.exists_eq_add_of_lt hfuel
  simp [processLoop, inputAt]

/-- The loop handles the whole frames, and stops at the incomplete one. -/
theorem processLoop_stream (hstream : IsStream h s frames)
    (hstart : bytes <+: streamBytes frames)
    (hlen : pre.length + (streamBytes frames).length ≤ INT_MAX) {fuel : ℕ}
    (hfuel : bytes.length < fuel) (limit : ℕ) (before : List Handed) :
    ∃ limit' s', processLoop h (pre ++ bytes).length fuel
        ⟨⟨inputAt pre bytes limit, s⟩, true, before⟩ =
      some ⟨⟨inputAt (pre ++ streamBytes (wholeFrames frames bytes.length))
          (incompleteSuffix frames bytes) limit', s'⟩, true,
        before ++ (wholeFrames frames bytes.length).flatMap Frame.handed⟩ ∧
      IsStream h s' (frames.drop (wholeFrames frames bytes.length).length) := by
  induction hstream generalizing pre bytes fuel limit before with
  | nil s =>
      obtain rfl := List.prefix_nil.mp hstart
      refine ⟨limit, s, ?_, IsStream.nil s⟩
      simpa [wholeFrames, incompleteSuffix] using
        processLoop_nil (h := h) (Nat.zero_lt_of_lt hfuel) pre limit s before
  | @cons s s' f frames hframe hhandles hrest ih =>
      rw [streamBytes_cons, List.length_append] at hlen
      have hpos := hframe.length_pos (by omega)
      rcases le_or_gt f.bytes.length bytes.length with hwhole | hcut
      · -- the first frame is whole, and the loop goes on behind it
        obtain ⟨rest, rfl⟩ : f.bytes <+: bytes :=
          List.prefix_of_prefix_length_le (List.prefix_append _ _) hstart hwhole
        have hrestStart : rest <+: streamBytes frames :=
          (List.prefix_append_right_inj f.bytes).mp hstart
        have hrestLength := hrestStart.length_le
        obtain ⟨fuel, rfl⟩ := Nat.exists_eq_add_of_lt (Nat.zero_lt_of_lt hfuel)
        simp only [List.length_append] at hfuel
        have hround := processRound_frame pre rest limit before hframe hhandles
          (by simp only [List.length_append]; omega)
        have hfront : (pre ++ f.bytes).length + (streamBytes frames).length ≤ INT_MAX := by
          rw [List.length_append]
          omega
        have hfuel' : rest.length < 0 + fuel := by omega
        obtain ⟨limit', s'', hloop, hstream'⟩ := ih hrestStart hfront hfuel'
          (pre.length + f.bytes.length) (before ++ f.handed)
        refine ⟨limit', s'', ?_, by simpa [wholeFrames_cons_add] using hstream'⟩
        rw [processLoop, if_pos (by simp [inputAt]; omega), hround]
        simpa [wholeFrames_cons_add, incompleteSuffix_cons_append] using hloop
      · -- the first frame is not whole
        have hnone : wholeFrames (f :: frames) bytes.length = [] := by
          rw [wholeFrames, if_neg (by omega)]
        have hsuffix : incompleteSuffix (f :: frames) bytes = bytes := by
          simp [incompleteSuffix, hnone]
        refine ⟨limit, s, ?_, by simpa [hnone] using IsStream.cons hframe hhandles hrest⟩
        simp only [hnone, hsuffix, streamBytes_nil, List.append_nil, List.flatMap_nil]
        rcases eq_or_ne bytes [] with rfl | hstarted
        · exact processLoop_nil (Nat.zero_lt_of_lt hfuel) pre limit s before
        · obtain ⟨missing, hmissing⟩ : bytes <+: f.bytes :=
            List.prefix_of_prefix_length_le hstart (List.prefix_append _ _) hcut.le
          have hne : missing ≠ [] := by
            rintro rfl
            rw [← hmissing, List.append_nil] at hcut
            exact lt_irrefl _ hcut
          have hround := processRound_cut (h := h) pre limit s before hframe hmissing.symm hstarted
            hne (by omega)
          obtain ⟨fuel, rfl⟩ := Nat.exists_eq_add_of_lt (Nat.zero_lt_of_lt hfuel)
          have hbytes := List.length_pos_of_ne_nil hstarted
          rw [Nat.zero_add, processLoop, if_pos (by simp [inputAt]; omega), hround]

end Loop

/-! ### Portions -/

/-- The connection received bytes of a stream: the messages that are whole have been handed over,
and the rest is kept. -/
structure Follows (h : Handlers σ) (frames : List Frame) (before : List Handed)
    (received : List Int8) (c : Connection σ) : Prop where
  stream : IsStream h c.session.state (frames.drop (wholeFrames frames received.length).length)
  handed : c.handed = before ++ (wholeFrames frames received.length).flatMap Frame.handed
  unconsumed : c.unconsumed = incompleteSuffix frames received

variable {frames : List Frame} {before : List Handed} {received data : List Int8}
  {c : Connection σ}

/-- The loop runs over what was not consumed and the new data. -/
theorem processServerData_eq (hdata : data ≠ []) :
    processServerData h c data =
      (processLoop h ([] ++ (c.unconsumed ++ data)).length
          ((c.unconsumed ++ data).length + 1)
          ⟨⟨inputAt [] (c.unconsumed ++ data) c.session.bicc.inBufferLimit, c.session.state⟩, true,
            c.handed⟩).map fun p =>
        (⟨c.unconsumed ++ data, p.session.bicc.currentInBufferPosition, p.session, p.handed⟩,
          p.processResult) := by
  have hempty : ¬ data.isEmpty = true := by simpa using hdata
  unfold processServerData Connection.appendNewData
  rw [if_neg hempty]
  rfl

/-- `dx_process_server_data` goes on in the stream. -/
theorem Follows.processServerData (hfollows : Follows h frames before received c)
    (hdata : data ≠ []) (hstart : received ++ data <+: streamBytes frames)
    (hlen : (streamBytes frames).length ≤ INT_MAX) :
    ∃ c', processServerData h c data = some (c', true) ∧
      Follows h frames before (received ++ data) c' := by
  obtain ⟨hsuffix, hrest, hwhole⟩ := incompleteSuffix_append hstart
  have hrestLength : ([] : List Int8).length +
      (streamBytes (frames.drop (wholeFrames frames received.length).length)).length ≤ INT_MAX := by
    have hframes := congrArg streamBytes (wholeFrames_append_drop frames received.length)
    rw [← hframes, streamBytes_append, List.length_append] at hlen
    simp only [List.length_nil]
    omega
  obtain ⟨limit', s', hloop, hstream⟩ := processLoop_stream hfollows.stream hrest hrestLength
    (Nat.lt_succ_self _) c.session.bicc.inBufferLimit c.handed
  have hrun := processServerData_eq (h := h) (c := c) hdata
  rw [hfollows.unconsumed, hloop, Option.map_some] at hrun
  refine ⟨_, hrun, ?_, ?_, ?_⟩
  · rw [List.drop_drop, ← List.length_append] at hstream
    rw [hwhole]
    exact hstream
  · rw [hwhole, List.flatMap_append, ← List.append_assoc, ← hfollows.handed]
  · rw [hsuffix]
    rfl

/-- `dx_process_server_data` portion by portion. -/
theorem Follows.receive (hlen : (streamBytes frames).length ≤ INT_MAX)
    (portions : List (List Int8)) (hportions : ∀ data ∈ portions, data ≠ [])
    (hfollows : Follows h frames before received c)
    (hstart : received ++ portions.flatten <+: streamBytes frames) :
    ∃ c', receive h c portions = some (c', true) ∧
      Follows h frames before (received ++ portions.flatten) c' := by
  induction portions generalizing received c with
  | nil => exact ⟨c, rfl, by simpa using hfollows⟩
  | cons data portions ih =>
      rw [List.forall_mem_cons] at hportions
      rw [List.flatten_cons, ← List.append_assoc] at hstart ⊢
      obtain ⟨c', hfirst, hfollows'⟩ := hfollows.processServerData hportions.1
        ((List.prefix_append _ _).trans hstart) hlen
      obtain ⟨c'', hrest, hfollows''⟩ := ih hportions.2 hfollows' hstart
      refine ⟨c'', ?_, hfollows''⟩
      rw [ServerMessageProcessor.receive, hfirst]
      exact hrest

theorem IsStream.wholeFrames_zero {s : σ} (hstream : IsStream h s frames)
    (hlen : (streamBytes frames).length ≤ INT_MAX) : wholeFrames frames 0 = [] := by
  cases hstream with
  | nil => rfl
  | cons hframe _ _ =>
      rw [streamBytes_cons, List.length_append] at hlen
      have hpos := hframe.length_pos (by omega)
      exact if_neg (by omega)

/-- A connection without unconsumed bytes follows every stream that is handled from its state. -/
theorem follows_nil (hstream : IsStream h c.session.state frames)
    (hlen : (streamBytes frames).length ≤ INT_MAX) (hempty : c.unconsumed = []) :
    Follows h frames c.handed [] c := by
  have hnone := hstream.wholeFrames_zero hlen
  constructor
  · simpa [hnone] using hstream
  · simp [hnone]
  · rw [hempty]
    exact List.drop_nil.symm

/-- Portions hand over the same messages as the whole stream in a single call, and after each of
them the bytes that are kept are the incomplete suffix of those received so far. -/
def ChunkingInvariant (h : Handlers σ) (c : Connection σ) (frames : List Frame)
    (portions : List (List Int8)) : Prop :=
  (∃ c₁ c₂, receive h c portions = some (c₁, true) ∧
    processServerData h c portions.flatten = some (c₂, true) ∧ c₁.handed = c₂.handed) ∧
  ∀ n, ∃ c', receive h c (portions.take n) = some (c', true) ∧
    c'.unconsumed = incompleteSuffix frames (portions.take n).flatten

/-- Every stream of messages that the handlers accept, up to any byte, in any portions. -/
theorem chunkingInvariant (h : Handlers σ) (c : Connection σ) (frames : List Frame)
    (portions : List (List Int8)) (hempty : c.unconsumed = [])
    (hstream : IsStream h c.session.state frames) (hlen : (streamBytes frames).length ≤ INT_MAX)
    (hstart : portions.flatten <+: streamBytes frames) (hsome : portions ≠ [])
    (hportions : ∀ data ∈ portions, data ≠ []) : ChunkingInvariant h c frames portions := by
  have hfollows := follows_nil hstream hlen hempty
  constructor
  · obtain ⟨c₁, hreceive, hfollows₁⟩ := hfollows.receive hlen portions hportions hstart
    have hwhole : portions.flatten ≠ [] := by
      obtain ⟨data, hmem⟩ := List.exists_mem_of_ne_nil portions hsome
      intro hnil
      exact hportions data hmem (List.flatten_eq_nil_iff.mp hnil data hmem)
    obtain ⟨c₂, hsingle, hfollows₂⟩ := hfollows.processServerData hwhole hstart hlen
    refine ⟨c₁, c₂, hreceive, hsingle, ?_⟩
    rw [hfollows₁.handed, hfollows₂.handed]
  · intro n
    have htake : (portions.take n).flatten <+: streamBytes frames := by
      refine List.IsPrefix.trans ?_ hstart
      nth_rewrite 2 [← List.take_append_drop n portions]
      rw [List.flatten_append]
      exact List.prefix_append _ _
    obtain ⟨c', hreceive, hfollows'⟩ := hfollows.receive hlen (portions.take n)
      (fun data hmem => hportions data (List.mem_of_mem_take hmem)) htake
    exact ⟨c', hreceive, hfollows'.unconsumed⟩

/-! ### Short messages -/

/-- A heartbeat without content. -/
def emptyHeartbeat : Frame := ⟨[0], []⟩

theorem emptyHeartbeat_announced : emptyHeartbeat.Announced :=
  ⟨0, reads_of_longNumber (by decide) (by decide), by decide⟩

/-- Every connection accepts heartbeats without content. -/
theorem accepts_emptyHeartbeat (h : Handlers σ) (s : σ) : Accepts h messageHeartbeat [] s s := by
  intro pre post hlen
  left
  have hprocess : processMessage h messageHeartbeat = modify (parseHeartbeat h) := rfl
  rw [hprocess, exec_modify]
  simp [parseHeartbeat, inputAt]

theorem handles_emptyHeartbeat (h : Handlers σ) (s : σ) : Handles h s emptyHeartbeat.content s :=
  Handles.empty s (accepts_emptyHeartbeat h s)

/-- Raw data without a body, which is not supported. -/
def emptyRawData : Frame := ⟨[1], [5]⟩

theorem emptyRawData_announced : emptyRawData.Announced :=
  ⟨1, reads_of_longNumber (by decide) (by decide), by decide⟩

theorem handles_emptyRawData (h : Handlers σ) (s : σ) : Handles h s emptyRawData.content s := by
  have htype : Reads readCompactLong [5] 5 := reads_of_longNumber (by decide) (by decide)
  refine Handles.message [5] [] 5 s htype (by decide) ?_
  intro pre post hlen
  right
  rfl

/-- Handlers that take nothing. -/
def idleHandlers : Handlers Unit :=
  ⟨pure (), pure (), pure (), fun _ s => s, id⟩

/-- A connection that received nothing. -/
def freshConnection (s : σ) : Connection σ :=
  ⟨[], 0, ⟨⟨none, 0, 0⟩, s⟩, []⟩

/-- Raw data and two heartbeats, cut within the raw data and before the last heartbeat. -/
theorem chunkingInvariant_rawData_heartbeats :
    ChunkingInvariant idleHandlers (freshConnection ())
      [emptyRawData, emptyHeartbeat, emptyHeartbeat] [[1], [5, 0], [0]] :=
  chunkingInvariant idleHandlers (freshConnection ())
    [emptyRawData, emptyHeartbeat, emptyHeartbeat] [[1], [5, 0], [0]] rfl
    (IsStream.cons emptyRawData_announced (handles_emptyRawData _ _)
      (IsStream.cons emptyHeartbeat_announced (handles_emptyHeartbeat _ _)
        (IsStream.cons emptyHeartbeat_announced (handles_emptyHeartbeat _ _) (IsStream.nil _))))
    (by decide) ⟨[], rfl⟩ (by decide) (by decide)

end DxFeed.ServerMessageProcessor
