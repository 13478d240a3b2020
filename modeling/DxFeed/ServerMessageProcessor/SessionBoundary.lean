import DxFeed.ServerMessageProcessor.MessageStream

/-!
# From one session to the next

`dx_reestablish_connection` calls `dx_clear_server_info`, which forgets what the server described,
and keeps the buffer of the connection.

* `SessionBoundary`: what the next session hands over is that of its stream on its own;
* `sessionBoundary_iff`: this holds if and only if the disconnect was between two messages.
-/

namespace DxFeed.ServerMessageProcessor

open Call BufferedIO FixedWidth PrefixCode

variable {σ : Type} (h : Handlers σ)

/-- `dx_clear_server_info`; the buffer and the position in it are not touched. -/
def Connection.clearServerInfo (c : Connection σ) : Connection σ :=
  { c with session := { c.session with state := h.clearServerInfo c.session.state } }

/-- After the reconnect, every well-formed stream in any portions hands over what it hands over in
a connection that received nothing before. -/
def SessionBoundary (c : Connection σ) : Prop :=
  ∀ (frames : List Frame) (portions : List (List Int8)),
    IsStream h (h.clearServerInfo c.session.state) frames →
    (streamBytes frames).length ≤ INT_MAX →
    portions.flatten <+: streamBytes frames →
    (∀ data ∈ portions, data ≠ []) →
    ∃ c₁ c₂ r₁ r₂, receive h (c.clearServerInfo h) portions = some (c₁, r₁) ∧
      receive h (freshConnection (h.clearServerInfo c.session.state)) portions = some (c₂, r₂) ∧
      c₁.handed = c.handed ++ c₂.handed

variable {h} {c : Connection σ}

/-! ### Nothing is kept -/

/-- Without unconsumed bytes the next session is on its own. -/
theorem sessionBoundary_of_unconsumed_eq_nil (hempty : c.unconsumed = []) :
    SessionBoundary h c := by
  intro frames portions hstream hlen hstart hportions
  have hfollows₁ := follows_nil (c := c.clearServerInfo h) hstream hlen hempty
  have hfollows₂ := follows_nil (c := freshConnection (h.clearServerInfo c.session.state)) hstream
    hlen rfl
  obtain ⟨c₁, hreceive₁, hfollows₁⟩ := hfollows₁.receive hlen portions hportions hstart
  obtain ⟨c₂, hreceive₂, hfollows₂⟩ := hfollows₂.receive hlen portions hportions hstart
  refine ⟨c₁, c₂, true, true, hreceive₁, hreceive₂, ?_⟩
  rw [hfollows₁.handed, hfollows₂.handed]
  rfl

/-! ### Messages are only added -/

theorem handMessage_handed (h : Handlers σ) (bufferSize : ℕ) (messageType : MessageType)
    (p : Progress σ) : (handMessage h bufferSize messageType p).handed =
      p.handed ++ [(messageType, p.session.body)] := by
  unfold handMessage
  dsimp only
  split <;> rfl

theorem processRound_handed (h : Handlers σ) (bufferSize : ℕ) (p : Progress σ) :
    p.handed <+: (processRound h bufferSize p).1.handed := by
  unfold processRound
  dsimp only
  split
  · exact List.prefix_refl _
  · exact List.prefix_refl _
  · split_ifs
    · split
      · exact List.prefix_refl _
      · exact List.prefix_refl _
      · rw [handMessage_handed]
        exact List.prefix_append _ _
    · rw [handMessage_handed]
      exact List.prefix_append _ _

theorem processLoop_handed {bufferSize fuel : ℕ} {p p' : Progress σ}
    (hloop : processLoop h bufferSize fuel p = some p') : p.handed <+: p'.handed := by
  induction fuel generalizing p with
  | zero => exact nomatch hloop
  | succ fuel ih =>
      have hround := processRound_handed h bufferSize p
      unfold processLoop at hloop
      split_ifs at hloop with hposition
      · rcases hresult : processRound h bufferSize p with ⟨p'', goesOn⟩
        rw [hresult] at hloop hround
        cases goesOn with
        | true => exact hround.trans (ih hloop)
        | false =>
            obtain rfl := Option.some.inj hloop
            exact hround
      · obtain rfl := Option.some.inj hloop
        exact List.prefix_refl _

theorem processServerData_handed {data : List Int8} {c' : Connection σ} {r : Bool}
    (hrun : processServerData h c data = some (c', r)) : c.handed <+: c'.handed := by
  rcases eq_or_ne data [] with rfl | hdata
  · obtain rfl := (Prod.mk.inj (Option.some.inj hrun)).1
    exact List.prefix_refl _
  · rw [processServerData_eq hdata] at hrun
    obtain ⟨p, hloop, hp⟩ := Option.map_eq_some_iff.mp hrun
    obtain rfl := (Prod.mk.inj hp).1
    exact processLoop_handed hloop

theorem receive_handed {portions : List (List Int8)} {c' : Connection σ} {r : Bool}
    (hrun : receive h c portions = some (c', r)) : c.handed <+: c'.handed := by
  induction portions generalizing c with
  | nil =>
      obtain rfl := (Prod.mk.inj (Option.some.inj hrun)).1
      exact List.prefix_refl _
  | cons data portions ih =>
      unfold receive at hrun
      rcases hfirst : processServerData h c data with _ | ⟨c'', r'⟩
      · rw [hfirst] at hrun
        cases hrun
      · rw [hfirst] at hrun
        have hhanded := processServerData_handed hfirst
        cases r' with
        | true => exact hhanded.trans (ih hrun)
        | false =>
            obtain rfl := (Prod.mk.inj (Option.some.inj hrun)).1
            exact hhanded

/-! ### A message that is cut in its length -/

/-- The loop ends with a length that is not read. -/
theorem processLoop_of_lengthError {e : ErrorCode} {bicc : InputContext} {n : ℕ} (fuel : ℕ)
    {p : Progress σ} (hposition : p.session.bicc.currentInBufferPosition < n)
    (hlength : exec (readMessageLengthAndSetBufferLimit n) p.session.bicc = (.error e, bicc)) :
    ∃ p', processLoop h n (fuel + 1) p = some p' ∧ p'.handed = p.handed := by
  unfold processLoop processRound
  rw [if_pos hposition]
  simp only [hlength]
  cases e <;> exact ⟨_, rfl, rfl⟩

/-- The last bytes of a number are its remainder. -/
theorem longNumber_emod {k m : ℕ} (bs : List Int8) {bs' : List Int8} (hk : k ≤ 8) (hm : m ≤ k)
    (hlen : bs'.length = m) : longNumber k (bs ++ bs') % 256 ^ m = bytesValue bs' := by
  have hdvd : (256 ^ m : ℤ) ∣ 2 ^ width k := by
    have hwidth : 8 * m ≤ width k := by
      unfold width
      split_ifs <;> omega
    rw [show (256 : ℤ) = 2 ^ 8 from rfl, ← pow_mul]
    exact pow_dvd_pow 2 hwidth
  have hvalue : (bytesValue (bs ++ bs') : ℤ) % 256 ^ m = bytesValue bs' := by
    have hlt := bytesValue_lt hlen
    rw [bytesValue_append, hlen]
    exact_mod_cast (by rw [Nat.mul_add_mod', Nat.mod_eq_of_lt hlt] :
      (bytesValue bs * 256 ^ m + bytesValue bs') % 256 ^ m = bytesValue bs')
  rcases eq_or_ne k 1 with rfl | hne
  · rw [longNumber, if_pos rfl, Int.emod_emod_of_dvd _ hdvd, hvalue]
  · have hbmod : (bytesValue (bs ++ bs') : ℤ).bmod (2 ^ width k) % 2 ^ width k =
        bytesValue (bs ++ bs') % 2 ^ width k := by
      simpa using Int.bmod_emod (x := (bytesValue (bs ++ bs') : ℤ)) (m := 2 ^ width k)
    rw [longNumber_of_ne hne, ← hvalue, ← Int.emod_emod_of_dvd _ hdvd, hbmod,
      Int.emod_emod_of_dvd _ hdvd]

/-- Raw data of 63 bytes. -/
def longRawData : Frame :=
  ⟨[-0x80, 0x40], 5 :: List.replicate 63 0⟩

theorem longRawData_announced : longRawData.Announced :=
  ⟨64, reads_of_longNumber (by decide) (by decide), by decide⟩

theorem handles_longRawData (h : Handlers σ) (s : σ) : Handles h s longRawData.content s := by
  have htype : Reads readCompactLong [5] 5 := reads_of_longNumber (by decide) (by decide)
  refine Handles.message [5] (List.replicate 63 0) 5 s htype (by decide) ?_
  intro pre post hlen
  right
  rfl

/-- The first bytes, at the end of a length. -/
theorem bytesValue_longRawData {m : ℕ} (hpos : 0 < m) (hm : m ≤ 8) :
    66 ≤ bytesValue (longRawData.bytes.take m) ∧ (longRawData.bytes.take m).length = m := by
  interval_cases m <;> decide

/-- Behind a part of a length the bytes of `longRawData` are not a message, since they make the
length negative or too large. -/
theorem exec_readLength_lengthCut {b : Int8} {bs : List Int8} (limit : ℕ)
    (hshort : bs.length < classOf (octet b)) :
    ∃ e bicc, exec (readMessageLengthAndSetBufferLimit
      ([] ++ (b :: bs ++ longRawData.bytes)).length)
      (inputAt [] (b :: bs ++ longRawData.bytes) limit) = (.error e, bicc) := by
  have hclass := classOf_le (octet b)
  obtain ⟨m, hm⟩ := Nat.exists_eq_add_of_le hshort.le
  obtain ⟨hvalue, hlength⟩ := bytesValue_longRawData (show 0 < m by omega) (by omega)
  obtain ⟨v, hreads, hv⟩ := reads_readCompactLong b (bs ++ longRawData.bytes.take m)
    (by rw [List.length_append, hlength, hm])
  have hsplit : b :: bs ++ longRawData.bytes =
      b :: (bs ++ longRawData.bytes.take m) ++ longRawData.bytes.drop m := by
    simp
  have hsize : longRawData.bytes.length = 66 := by decide
  have hread := hreads [] (longRawData.bytes.drop m) limit (by
    rw [← hsplit]
    simp only [List.nil_append, List.cons_append, List.length_cons, List.length_append, hsize,
      INT_MAX]
    omega)
  rw [hsplit]
  unfold readMessageLengthAndSetBufferLimit
  rw [exec_bind_ok (exec_adapt_ok _ hread), exec_bind_ok (exec_get _)]
  dsimp only
  split_ifs with hinvalid hlarge
  · exact ⟨_, _, rfl⟩
  · exact ⟨_, _, rfl⟩
  · -- a length that is not negative would be in the buffer
    exfalso
    push Not at hinvalid
    have hnonneg : 0 ≤ v.toInt := by
      have hneg := hinvalid.1
      rw [Int64.lt_iff_toInt_lt] at hneg
      exact not_lt.mp hneg
    have hmod := longNumber_emod (b :: bs) hclass (show m ≤ classOf (octet b) by omega) hlength
    rw [List.cons_append, ← hv] at hmod
    have hle : v.toInt % 256 ^ m ≤ v.toInt := by
      have hdiv := Int.emod_add_mul_ediv v.toInt (256 ^ m)
      have hquot : 0 ≤ 256 ^ m * (v.toInt / 256 ^ m) :=
        mul_nonneg (by positivity) (Int.ediv_nonneg hnonneg (by positivity))
      linarith
    have hposition := congrArg List.length hsplit
    simp only [inputAt, List.nil_append, List.length_append, List.cons_append, List.length_cons,
      hlength, List.length_drop, hsize] at hlarge hposition
    omega

theorem handed_of_lengthCut {b : Int8} {bs : List Int8} (hkept : c.unconsumed = b :: bs)
    (hshort : bs.length < classOf (octet b)) :
    ∃ c' r, processServerData h c longRawData.bytes = some (c', r) ∧ c'.handed = c.handed := by
  have hsome : longRawData.bytes ≠ [] := by decide
  obtain ⟨e, bicc, hlength⟩ := exec_readLength_lengthCut c.session.bicc.inBufferLimit hshort
  have hrun := processServerData_eq (h := h) (c := c) hsome
  rw [hkept] at hrun
  obtain ⟨p, hloop, hhanded⟩ := processLoop_of_lengthError (h := h)
    (b :: bs ++ longRawData.bytes).length
    (p := ⟨⟨inputAt [] (b :: bs ++ longRawData.bytes) c.session.bicc.inBufferLimit,
      c.session.state⟩, true, c.handed⟩) (by simp [inputAt]) hlength
  rw [hloop] at hrun
  exact ⟨_, _, hrun, hhanded⟩

/-! ### A message that is cut in its content -/

/-- In the content of a message at the front of the buffer the type is read without leaving the
buffer. -/
theorem moves_readMessageType {front content : List Int8} (limit : ℕ) (hcontent : content ≠ [])
    (hfront : front.length ≤ 9) (hlen : (front ++ content).length ≤ INT_MAX) :
    ∃ n, Moves n (inputAt front content limit)
      (exec readMessageType (inputAt front content limit)).2 := by
  obtain ⟨b, bs, rfl⟩ := List.exists_cons_of_ne_nil hcontent
  have hclass := classOf_le (octet b)
  obtain ⟨hcons, hrange⟩ := exec_readCompactLong_cons limit hlen (by rw [INT_MAX]; omega)
  obtain ⟨k, -, hmoves⟩ := (readCompactLongFrom_reach b).2 _ hrange
  rw [← hcons] at hmoves
  have hfirst : Moves 1 (inputAt front (b :: bs) limit) (inputAt (front ++ [b]) bs limit) := by
    constructor <;> simp [inputAt, InputContext.inBufferLength, InputContext.buffer]
  refine ⟨1 + k, ?_⟩
  have hboth := hfirst.trans hmoves
  unfold readMessageType
  rw [exec_bind]
  rcases hexec : exec readCompactLong (inputAt front (b :: bs) limit) with ⟨e | v, context⟩
  · rw [hexec] at hboth
    rw [exec_adapt_error _ hexec]
    exact hboth
  · rw [hexec] at hboth
    rw [exec_adapt_ok _ hexec]
    dsimp only
    split_ifs <;> exact hboth

/-- At the end of the buffer the loop ends. -/
theorem eq_of_processLoop {n fuel : ℕ} {p p' : Progress σ}
    (hposition : n ≤ p.session.bicc.currentInBufferPosition)
    (hloop : processLoop h n fuel p = some p') : p' = p := by
  cases fuel with
  | zero => exact nomatch hloop
  | succ fuel =>
      rw [processLoop, if_neg (by omega)] at hloop
      exact (Option.some.inj hloop).symm

/-- Types whose messages without a body change nothing. -/
def IsSilent (messageType : MessageType) : Prop :=
  messageType = messageHeartbeat ∨ messageType = messageRawData

theorem handMessage_silent {messageType : MessageType} (hsilent : IsSilent messageType) (n : ℕ)
    (p : Progress σ)
    (hend : p.session.bicc.currentInBufferPosition = p.session.bicc.inBufferLimit) :
    handMessage h n messageType p =
      { p with handed := p.handed ++ [(messageType, p.session.body)] } := by
  rcases hsilent with rfl | rfl
  · have hprocess : exec (processMessage h messageHeartbeat) p.session =
        (.ok (), parseHeartbeat h p.session) := rfl
    unfold handMessage
    simp only [hprocess]
    rw [parseHeartbeat, if_pos hend.symm]
  · have hprocess : exec (processMessage h messageRawData) p.session =
        (.error (some .serverMessageNotSupported), p.session) := rfl
    unfold handMessage
    simp only [hprocess]
    rw [Session.setPosition, ← hend]

/-- What the loop makes of a buffer that is a single message of any content. -/
theorem handed_of_oneFrame {f : Frame} (hframe : f.Announced) (hcontent : f.content ≠ [])
    (hlen : f.bytes.length ≤ INT_MAX) {fuel limit : ℕ} {s : σ} {before : List Handed}
    {p' : Progress σ} (hloop : processLoop h ([] ++ f.bytes).length fuel
      ⟨⟨inputAt [] f.bytes limit, s⟩, true, before⟩ = some p') :
    (p'.handed = before ∧ (p'.processResult = true →
        p'.session.bicc.currentInBufferPosition = f.bytes.length)) ∨
      ∃ messageType body, before ++ [(messageType, body)] <+: p'.handed ∧
        (body = [] → IsSilent messageType → p'.handed = before ++ [(messageType, body)] ∧
          p'.session.bicc.currentInBufferPosition = f.bytes.length) := by
  have hlength : exec (readMessageLengthAndSetBufferLimit ([] ++ f.bytes).length)
      (inputAt [] f.bytes limit) =
        (.ok (), inputAt f.lengthBytes f.content f.bytes.length) := by
    have hlen' : (([] : List Int8) ++ (f.bytes ++ [])).length ≤ INT_MAX := by simpa using hlen
    simpa using exec_readLength_frame limit hframe hlen'
  have hfront : f.lengthBytes.length ≤ 9 := by
    obtain ⟨len, hreads, -⟩ := hframe
    obtain ⟨b, bs, hbytes, hclass⟩ := length_of_reads hreads (by
      rw [Frame.bytes, List.length_append] at hlen
      omega)
    have hle := classOf_le (octet b)
    rw [hbytes, List.length_cons]
    omega
  obtain ⟨n, hmoves⟩ := moves_readMessageType f.bytes.length hcontent hfront hlen
  have hpos := List.length_pos_of_ne_nil hcontent
  have hbytes : f.bytes.length = f.lengthBytes.length + f.content.length := by
    rw [Frame.bytes, List.length_append]
  cases fuel with
  | zero => cases hloop
  | succ fuel =>
      unfold processLoop processRound at hloop
      rw [if_pos (by simp [inputAt]; omega)] at hloop
      simp only [hlength] at hloop
      rw [if_pos (by simp [inputAt]; omega)] at hloop
      rcases htype : exec readMessageType (inputAt f.lengthBytes f.content f.bytes.length) with
        ⟨e | messageType, bicc⟩
      · left
        have hlimit : bicc.inBufferLimit = f.bytes.length := by
          rw [htype] at hmoves
          exact hmoves.inBufferLimit
        simp only [htype] at hloop
        -- a message of another type is skipped; any other failure ends the loop
        cases e
        case unexpectedMessageType =>
          obtain rfl := eq_of_processLoop (by simp [hlimit]) hloop
          exact ⟨rfl, fun _ => hlimit⟩
        all_goals
          obtain rfl := Option.some.inj hloop
          exact ⟨rfl, by simp⟩
      · right
        rw [htype] at hmoves
        simp only [htype] at hloop
        have hhanded := processLoop_handed hloop
        rw [handMessage_handed] at hhanded
        refine ⟨messageType, Session.body ⟨bicc, s⟩, hhanded, fun hbody hsilent => ?_⟩
        have hbuffer : bicc.buffer = f.bytes := by
          rw [InputContext.buffer, hmoves.inBuffer]
          rfl
        have hlimit : bicc.inBufferLimit = f.bytes.length := hmoves.inBufferLimit
        have hbound : bicc.currentInBufferPosition ≤ f.bytes.length := by
          rw [hmoves.position]
          exact hmoves.bound
        -- the body is empty, so the position is at the end of the message already
        have hend : bicc.currentInBufferPosition = bicc.inBufferLimit := by
          have hlength := congrArg List.length hbody
          simp only [Session.body, hbuffer, List.length_take, List.length_drop, List.length_nil,
            hlimit] at hlength
          omega
        rw [handMessage_silent hsilent _ _ hend] at hloop
        obtain rfl := eq_of_processLoop (by simp [hend, hlimit]) hloop
        exact ⟨rfl, hend.trans hlimit⟩

/-! ### Streams that show what was kept -/

theorem receive_single (h : Handlers σ) (c : Connection σ) (data : List Int8) :
    receive h c [data] = processServerData h c data := by
  unfold receive
  rcases processServerData h c data with _ | ⟨c', _ | _⟩ <;> rfl

/-- At a session boundary, a whole stream hands over its messages. -/
theorem SessionBoundary.handed (hboundary : SessionBoundary h c) {frames : List Frame}
    {portions : List (List Int8)}
    (hstream : IsStream h (h.clearServerInfo c.session.state) frames)
    (hlen : (streamBytes frames).length ≤ INT_MAX) (hflat : portions.flatten = streamBytes frames)
    (hportions : ∀ data ∈ portions, data ≠ []) :
    ∃ c₁ r₁, receive h (c.clearServerInfo h) portions = some (c₁, r₁) ∧
      c₁.handed = c.handed ++ frames.flatMap Frame.handed := by
  have hstart : portions.flatten <+: streamBytes frames := hflat ▸ List.prefix_refl _
  obtain ⟨c₁, c₂, r₁, r₂, hreceive₁, hreceive₂, hhanded⟩ :=
    hboundary frames portions hstream hlen hstart hportions
  have hfollows := follows_nil (c := freshConnection (h.clearServerInfo c.session.state)) hstream
    hlen rfl
  obtain ⟨c₃, hreceive₃, hfollows₃⟩ := hfollows.receive hlen portions hportions hstart
  rw [hreceive₂] at hreceive₃
  obtain rfl := (Prod.mk.inj (Option.some.inj hreceive₃)).1
  refine ⟨c₁, r₁, hreceive₁, ?_⟩
  rw [hhanded, hfollows₃.handed, hflat, List.nil_append, wholeFrames_length]
  rfl

theorem not_sessionBoundary_of_lengthCut {b : Int8} {bs : List Int8}
    (hkept : c.unconsumed = b :: bs) (hshort : bs.length < classOf (octet b)) :
    ¬ SessionBoundary h c := by
  intro hboundary
  obtain ⟨c₁, r₁, hreceive, hhanded⟩ := hboundary.handed
    (IsStream.cons longRawData_announced (handles_longRawData h _) (IsStream.nil _)) (by decide)
    (show [longRawData.bytes].flatten = streamBytes [longRawData] from rfl) (by decide)
  obtain ⟨c', r, hrun, hsame⟩ := handed_of_lengthCut (h := h) (c := c.clearServerInfo h) hkept
    hshort
  rw [receive_single, hrun] at hreceive
  obtain rfl := (Prod.mk.inj (Option.some.inj hreceive)).1
  rw [hsame] at hhanded
  have hlength := congrArg List.length hhanded
  have hone : ([longRawData].flatMap Frame.handed).length = 1 := by decide
  rw [List.length_append, hone] at hlength
  exact absurd hlength (by simp [Connection.clearServerInfo])

/-- The length of a message does not depend on its content. -/
theorem Frame.Announced.withContent {f : Frame} (hframe : f.Announced) {content : List Int8}
    (hlength : content.length = f.content.length) : Frame.Announced ⟨f.lengthBytes, content⟩ := by
  obtain ⟨len, hreads, hvalue⟩ := hframe
  exact ⟨len, hreads, by rw [hvalue, hlength]⟩

/-- As long as a message is not complete, its bytes are kept. -/
theorem processServerData_incomplete {f : Frame} {data missing : List Int8} (hframe : f.Announced)
    (hlen : f.bytes.length ≤ INT_MAX) (hdata : data ≠ []) (hmissing : missing ≠ [])
    (hcut : f.bytes = c.unconsumed ++ data ++ missing) :
    ∃ c', processServerData h c data = some (c', true) ∧ c'.handed = c.handed := by
  have hstarted : c.unconsumed ++ data ≠ [] := by simp [hdata]
  have hpos := List.length_pos_of_ne_nil hstarted
  have hlen' : ([] : List Int8).length + f.bytes.length ≤ INT_MAX := by simpa using hlen
  have hround := processRound_cut (h := h) [] c.session.bicc.inBufferLimit c.session.state c.handed
    hframe hcut hstarted hmissing hlen'
  have hrun := processServerData_eq (h := h) (c := c) hdata
  rw [processLoop, if_pos (by simpa [inputAt] using hpos), hround] at hrun
  exact ⟨_, hrun, rfl⟩

/-- Two or more bytes of the content are missing: two heartbeats are taken for content. -/
theorem not_sessionBoundary_of_contentCut {f : Frame} {content missing : List Int8}
    (hframe : f.Announced) (hlen : f.bytes.length ≤ INT_MAX)
    (hkept : c.unconsumed = f.lengthBytes ++ content) (hcut : f.content = content ++ missing)
    (hmissing : 2 ≤ missing.length) : ¬ SessionBoundary h c := by
  intro hboundary
  obtain ⟨c₁, r₁, hreceive, hhanded⟩ := hboundary.handed
    (IsStream.cons emptyHeartbeat_announced (handles_emptyHeartbeat h _)
      (IsStream.cons emptyHeartbeat_announced (handles_emptyHeartbeat h _) (IsStream.nil _)))
    (by decide) (show [[(0 : Int8), 0]].flatten = _ from rfl) (by decide)
  change c₁.handed = c.handed ++ [(messageHeartbeat, []), (messageHeartbeat, [])] at hhanded
  have hkept' : (c.clearServerInfo h).unconsumed = f.lengthBytes ++ content := hkept
  have hsize : f.bytes.length = f.lengthBytes.length + (content.length + missing.length) := by
    rw [Frame.bytes, hcut, List.length_append, List.length_append]
  rw [receive_single] at hreceive
  rcases Nat.eq_or_lt_of_le hmissing with htwo | hmore
  · -- the two bytes are the end of the content
    have hframe' : Frame.Announced ⟨f.lengthBytes, content ++ [0, 0]⟩ :=
      hframe.withContent (by rw [hcut, List.length_append, List.length_append, ← htwo]; rfl)
    have hbuffer : f.lengthBytes ++ content ++ [0, 0] =
        Frame.bytes ⟨f.lengthBytes, content ++ [0, 0]⟩ := List.append_assoc _ _ _
    have hlen' : (Frame.bytes ⟨f.lengthBytes, content ++ [0, 0]⟩).length ≤ INT_MAX := by
      rw [← hbuffer, List.length_append, List.length_append]
      simp only [List.length_cons, List.length_nil]
      omega
    rw [processServerData_eq (by decide), hkept', hbuffer] at hreceive
    obtain ⟨p, hloop, hp⟩ := Option.map_eq_some_iff.mp hreceive
    obtain rfl := (Prod.mk.inj hp).1
    have hhanded' : p.handed = c.handed ++ [(messageHeartbeat, []), (messageHeartbeat, [])] :=
      hhanded
    rcases handed_of_oneFrame hframe' (by simp) hlen' hloop with
      ⟨hnone, -⟩ | ⟨messageType, body, hfirst, hsilent⟩
    · exact absurd (hhanded'.symm.trans hnone) (by simp [Connection.clearServerInfo])
    · rw [hhanded'] at hfirst
      have hheartbeat : messageType = messageHeartbeat ∧ body = [] := by
        simpa using (List.prefix_append_right_inj _).mp hfirst
      have hone := (hsilent hheartbeat.2 (Or.inl hheartbeat.1)).1
      rw [hhanded'] at hone
      exact absurd (List.append_cancel_left hone) (by simp)
  · -- the message is still not complete
    have hframe' : Frame.Announced
        ⟨f.lengthBytes, content ++ [0, 0] ++ List.replicate (missing.length - 2) 0⟩ :=
      hframe.withContent (by simp [hcut]; omega)
    have hlen' : (Frame.bytes
        ⟨f.lengthBytes, content ++ [0, 0] ++ List.replicate (missing.length - 2) 0⟩).length ≤
          INT_MAX := by
      simp only [Frame.bytes, List.length_append, List.length_cons, List.length_nil,
        List.length_replicate]
      omega
    have hrest : List.replicate (missing.length - 2) (0 : Int8) ≠ [] := by
      simp
      omega
    obtain ⟨c', hrun, hnone⟩ := processServerData_incomplete (h := h) (c := c.clearServerInfo h)
      hframe' hlen' (show [(0 : Int8), 0] ≠ [] by decide) hrest (by simp [hkept', Frame.bytes])
    rw [hrun] at hreceive
    obtain rfl := (Prod.mk.inj (Option.some.inj hreceive)).1
    exact absurd (hhanded.symm.trans hnone) (by simp [Connection.clearServerInfo])

/-- A length of five, with the first bytes of a content. -/
theorem announced_five : Frame.Announced ⟨[5], [1, 5, 0, 0, 0]⟩ :=
  ⟨5, reads_of_longNumber (by decide) (by decide), by decide⟩

/-- One byte of the content is missing: the length of the next message is taken for it, and its
type for a length. -/
theorem not_sessionBoundary_of_lastByte {f : Frame} {content : List Int8} {b : Int8}
    (hframe : f.Announced) (hlen : f.bytes.length ≤ INT_MAX)
    (hkept : c.unconsumed = f.lengthBytes ++ content) (hcut : f.content = content ++ [b]) :
    ¬ SessionBoundary h c := by
  intro hboundary
  obtain ⟨c₁, r₁, hreceive, hhanded⟩ := hboundary.handed
    (IsStream.cons emptyRawData_announced (handles_emptyRawData h _)
      (IsStream.cons emptyRawData_announced (handles_emptyRawData h _) (IsStream.nil _)))
    (by decide) (show [[(1 : Int8)], [5, 1, 5]].flatten = _ from rfl) (by decide)
  change c₁.handed = c.handed ++ [(messageRawData, []), (messageRawData, [])] at hhanded
  have hkept' : (c.clearServerInfo h).unconsumed = f.lengthBytes ++ content := hkept
  have hframe' : Frame.Announced ⟨f.lengthBytes, content ++ [1]⟩ :=
    hframe.withContent (by rw [hcut, List.length_append, List.length_append]; rfl)
  have hbuffer : f.lengthBytes ++ content ++ [1] =
      Frame.bytes ⟨f.lengthBytes, content ++ [1]⟩ := List.append_assoc _ _ _
  have hlen' : (Frame.bytes ⟨f.lengthBytes, content ++ [1]⟩).length ≤ INT_MAX := by
    rw [Frame.bytes, hcut, List.length_append, List.length_append] at hlen
    rw [← hbuffer, List.length_append, List.length_append]
    exact (Nat.add_assoc _ _ _).trans_le hlen
  unfold receive at hreceive
  rcases hfirst : processServerData h (c.clearServerInfo h) [1] with _ | ⟨c', r⟩
  · rw [hfirst] at hreceive
    cases hreceive
  · rw [hfirst] at hreceive
    rw [processServerData_eq (by decide), hkept', hbuffer] at hfirst
    obtain ⟨p, hloop, hp⟩ := Option.map_eq_some_iff.mp hfirst
    obtain ⟨rfl, rfl⟩ := Prod.mk.inj hp
    -- what the second portion adds, if the first one is consumed
    have hsame : (p.processResult = true → p.session.bicc.currentInBufferPosition =
        (Frame.bytes ⟨f.lengthBytes, content ++ [1]⟩).length) → c₁.handed = p.handed := by
      intro hconsumed
      cases hresult : p.processResult with
      | false =>
          rw [hresult] at hreceive
          obtain rfl := (Prod.mk.inj (Option.some.inj hreceive)).1
          rfl
      | true =>
          rw [hresult] at hreceive
          dsimp only at hreceive
          rw [receive_single] at hreceive
          have hunconsumed : Connection.unconsumed ⟨Frame.bytes ⟨f.lengthBytes, content ++ [1]⟩,
              p.session.bicc.currentInBufferPosition, p.session, p.handed⟩ = [] := by
            rw [Connection.unconsumed, hconsumed hresult]
            exact List.drop_length
          obtain ⟨c₂, hrun, hnone⟩ := processServerData_incomplete (h := h) announced_five
            (by decide) (show [(5 : Int8), 1, 5] ≠ [] by decide)
            (show [(0 : Int8), 0, 0] ≠ [] by decide) (by rw [hunconsumed]; rfl)
          rw [hrun] at hreceive
          obtain rfl := (Prod.mk.inj (Option.some.inj hreceive)).1
          exact hnone
    have hadded : p.handed <+: c₁.handed := by
      cases hresult : p.processResult with
      | false =>
          rw [hresult] at hreceive
          obtain rfl := (Prod.mk.inj (Option.some.inj hreceive)).1
          exact List.prefix_refl _
      | true =>
          rw [hresult] at hreceive
          exact receive_handed hreceive
    rcases handed_of_oneFrame hframe' (by simp) hlen' hloop with
      ⟨hnone, hconsumed⟩ | ⟨messageType, body, hfront, hsilent⟩
    · rw [hsame hconsumed, hnone] at hhanded
      exact absurd hhanded (by simp [Connection.clearServerInfo])
    · have hrawData : messageType = messageRawData ∧ body = [] := by
        have hboth := hfront.trans hadded
        rw [hhanded] at hboth
        simpa using (List.prefix_append_right_inj _).mp hboth
      obtain ⟨hone, hconsumed⟩ := hsilent hrawData.2 (Or.inr hrawData.1)
      rw [hsame fun _ => hconsumed, hone] at hhanded
      exact absurd (List.append_cancel_left hhanded) (by simp)

/-! ### The boundary -/

/-- A message of which a part was kept reaches into the next session. -/
theorem not_sessionBoundary_of_cut {f : Frame} {missing : List Int8} (hframe : f.Announced)
    (hlen : f.bytes.length ≤ INT_MAX) (hcut : f.bytes = c.unconsumed ++ missing)
    (hkept : c.unconsumed ≠ []) (hmissing : missing ≠ []) : ¬ SessionBoundary h c := by
  have hstart : c.unconsumed <+: f.lengthBytes ++ f.content := ⟨missing, hcut.symm⟩
  rcases le_or_gt f.lengthBytes.length c.unconsumed.length with hle | hlt
  · obtain ⟨content, hcontent⟩ : f.lengthBytes <+: c.unconsumed :=
      List.prefix_of_prefix_length_le (List.prefix_append _ f.content) hstart hle
    have hsplit : f.content = content ++ missing := by
      rw [Frame.bytes, ← hcontent, List.append_assoc] at hcut
      exact List.append_cancel_left hcut
    rcases missing with _ | ⟨_, _ | ⟨_, missing⟩⟩
    · exact absurd rfl hmissing
    · exact not_sessionBoundary_of_lastByte hframe hlen hcontent.symm hsplit
    · exact not_sessionBoundary_of_contentCut hframe hlen hcontent.symm hsplit (by simp)
  · obtain ⟨len, hreads, -⟩ := hframe
    obtain ⟨b, bs, hbytes, hclass⟩ := length_of_reads hreads (by
      rw [Frame.bytes, List.length_append] at hlen
      omega)
    obtain ⟨b', bs', hkept'⟩ := List.exists_cons_of_ne_nil hkept
    obtain ⟨lengthMissing, hlength⟩ : c.unconsumed <+: f.lengthBytes :=
      List.prefix_of_prefix_length_le hstart (List.prefix_append _ f.content) hlt.le
    rw [hbytes, hkept'] at hlength hlt
    obtain rfl := (List.cons.inj hlength).1
    rw [List.length_cons, List.length_cons] at hlt
    exact not_sessionBoundary_of_lengthCut hkept' (by omega)

/-- What is kept of a stream is nothing or a part of its next message. -/
theorem unconsumed_cut {frames : List Frame} {before : List Handed} {received : List Int8}
    (hfollows : Follows h frames before received c) (hstart : received <+: streamBytes frames)
    (hlen : (streamBytes frames).length ≤ INT_MAX) (hkept : c.unconsumed ≠ []) :
    ∃ (f : Frame) (missing : List Int8), f.Announced ∧ f.bytes.length ≤ INT_MAX ∧ f.bytes = c.unconsumed ++ missing ∧
      missing ≠ [] := by
  have hstream := hfollows.stream
  have hsuffix := (streamBytes_wholeFrames hstart).2
  have hshort := wholeFrames_append frames received.length 0
  have hframes := congrArg streamBytes (wholeFrames_append_drop frames received.length)
  rw [hfollows.unconsumed] at hkept ⊢
  have hlength : (incompleteSuffix frames received).length =
      received.length - (streamBytes (wholeFrames frames received.length)).length :=
    List.length_drop
  rw [Nat.add_zero, Nat.add_zero, ← hlength] at hshort
  have hnone := List.self_eq_append_right.mp hshort
  revert hstream hsuffix hframes hnone
  cases frames.drop (wholeFrames frames received.length).length with
  | nil =>
      intro _ hsuffix _ _
      exact absurd (List.prefix_nil.mp hsuffix) hkept
  | cons f rest =>
      intro hstream hsuffix hframes hnone
      have hcut : (incompleteSuffix frames received).length < f.bytes.length := by
        by_contra hwhole
        rw [wholeFrames, if_pos (not_lt.mp hwhole)] at hnone
        cases hnone
      obtain ⟨missing, hmissing⟩ : incompleteSuffix frames received <+: f.bytes :=
        List.prefix_of_prefix_length_le hsuffix (List.prefix_append _ _) hcut.le
      cases hstream with
      | cons hframe _ _ =>
          refine ⟨f, missing, hframe, ?_, hmissing.symm, ?_⟩
          · rw [← hframes, streamBytes_append, streamBytes_cons, List.length_append,
              List.length_append] at hlen
            omega
          · rintro rfl
            rw [← hmissing, List.append_nil] at hcut
            exact lt_irrefl _ hcut

/-- After a well-formed stream that is cut after any byte, in any portions: the next session is on
its own if and only if the bytes received are whole messages. -/
theorem sessionBoundary_iff (h : Handlers σ) (c c' : Connection σ) (frames : List Frame)
    (portions : List (List Int8)) (hempty : c.unconsumed = [])
    (hstream : IsStream h c.session.state frames) (hlen : (streamBytes frames).length ≤ INT_MAX)
    (hstart : portions.flatten <+: streamBytes frames) (hportions : ∀ data ∈ portions, data ≠ [])
    (hreceive : receive h c portions = some (c', true)) :
    SessionBoundary h c' ↔ ∃ n, portions.flatten = streamBytes (frames.take n) := by
  obtain ⟨c'', hreceive', hfollows⟩ :=
    (follows_nil hstream hlen hempty).receive hlen portions hportions hstart
  rw [hreceive] at hreceive'
  obtain rfl := (Prod.mk.inj (Option.some.inj hreceive')).1
  rw [List.nil_append] at hfollows
  constructor
  · intro hboundary
    by_contra hparts
    have hkept : c'.unconsumed ≠ [] := by
      intro hnil
      have hwhole := (streamBytes_wholeFrames hstart).1
      have htake : frames.take (wholeFrames frames portions.flatten.length).length =
          wholeFrames frames portions.flatten.length := by
        nth_rewrite 2 [← wholeFrames_append_drop frames portions.flatten.length]
        exact List.take_left
      rw [← hfollows.unconsumed, hnil, List.append_nil, ← htake] at hwhole
      exact hparts ⟨_, hwhole.symm⟩
    obtain ⟨f, missing, hframe, hfits, hcut, hmissing⟩ :=
      unconsumed_cut hfollows hstart hlen hkept
    exact not_sessionBoundary_of_cut hframe hfits hcut hkept hmissing hboundary
  · rintro ⟨n, hwhole⟩
    apply sessionBoundary_of_unconsumed_eq_nil
    have hframes := wholeFrames_streamBytes (frames.take n) (frames.drop n) 0
    rw [List.take_append_drop, Nat.add_zero, ← hwhole] at hframes
    rw [hfollows.unconsumed, incompleteSuffix, hframes, streamBytes_append, ← hwhole]
    exact List.drop_of_length_le (by rw [List.length_append]; omega)

/-- A heartbeat and the length of raw data. -/
theorem sessionBoundary_heartbeat_length :
    SessionBoundary idleHandlers ⟨[1], 0, ⟨⟨some [1], 1, 0⟩, ()⟩, [(messageHeartbeat, [])]⟩ ↔
      ∃ n, [[(0 : Int8)], [1]].flatten = streamBytes ([emptyHeartbeat, emptyRawData].take n) :=
  sessionBoundary_iff idleHandlers (freshConnection ())
    ⟨[1], 0, ⟨⟨some [1], 1, 0⟩, ()⟩, [(messageHeartbeat, [])]⟩ [emptyHeartbeat, emptyRawData]
    [[0], [1]] rfl
    (IsStream.cons emptyHeartbeat_announced (handles_emptyHeartbeat _ _)
      (IsStream.cons emptyRawData_announced (handles_emptyRawData _ _) (IsStream.nil _)))
    (by decide) ⟨[5], rfl⟩ (by decide) (by rfl)

/-- A connection receives the length of a message and loses the content; the two messages of the
next session are taken for one. -/
theorem not_sessionBoundary_length :
    ¬ ∀ (frames : List Frame) (portions : List (List Int8)) (c' : Connection Unit),
      IsStream idleHandlers () frames → (streamBytes frames).length ≤ INT_MAX →
      portions.flatten <+: streamBytes frames → (∀ data ∈ portions, data ≠ []) →
      receive idleHandlers (freshConnection ()) portions = some (c', true) →
      SessionBoundary idleHandlers c' := by
  intro hall
  have hboundary := hall [emptyRawData] [[1]] _
    (IsStream.cons emptyRawData_announced (handles_emptyRawData _ _) (IsStream.nil _))
    (by decide) ⟨[5], rfl⟩ (by decide) rfl
  exact not_sessionBoundary_of_lastByte emptyRawData_announced (by decide)
    (show _ = [(1 : Int8)] ++ [] from rfl) rfl hboundary

end DxFeed.ServerMessageProcessor
