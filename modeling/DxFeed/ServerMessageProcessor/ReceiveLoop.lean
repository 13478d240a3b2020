import DxFeed.BufferedIO.CapacityTests
import DxFeed.ServerMessageProcessor.MessageStream
import DxFeed.ServerMessageProcessor.ReceiveBuffer

/-!
# The bounds of the receive loop

What the loop of `dx_process_server_data` does to the position in one round, and what a call leaves
of the receive buffer.  The handlers are those of the model, or any others that keep the position
inside of the buffer.

* `processRound_cases`: what a round can do;
* `LoopState.round`: a round stays inside of the buffer, and goes forward unless it leaves the loop;
* `processLoop_ends`: the loop ends;
* `Received`: the receivers after any sequence of calls;
* `callKeepsBounds`: calls in which no capacity test for the type of a message wraps.
-/

namespace DxFeed.ServerMessageProcessor

open Call BufferedIO

variable {σ : Type}

/-! ### Calls on the input stream -/

/-- The length of a message that is read lies inside of the buffer, behind the position. -/
theorem readLength_spec {context context' : InputContext} {e : Except ErrorCode Unit}
    (hexec : exec (readMessageLengthAndSetBufferLimit context.inBufferLength) context =
      (e, context')) :
    context'.inBuffer = context.inBuffer ∧
      (e = .ok () →
        context.currentInBufferPosition < context'.currentInBufferPosition ∧
          context'.currentInBufferPosition ≤ context'.inBufferLimit ∧
          context'.inBufferLimit ≤ context.inBufferLength) := by
  unfold readMessageLengthAndSetBufferLimit at hexec
  have honward := onward_readCompactLong context
  rcases hread : exec readCompactLong context with ⟨e' | len, mid⟩
  · rw [hread] at honward
    rw [exec_bind_error (exec_adapt_error _ hread)] at hexec
    obtain ⟨rfl, rfl⟩ := Prod.mk.inj hexec
    exact ⟨honward.inBuffer, nofun⟩
  · have hlt := position_lt_readCompactLong hread
    rw [hread] at honward
    rw [exec_bind_ok (exec_adapt_ok _ hread), exec_bind_ok (exec_get _)] at hexec
    dsimp only at hexec
    split_ifs at hexec with hinvalid hincomplete
    · obtain ⟨rfl, rfl⟩ := Prod.mk.inj hexec
      exact ⟨honward.inBuffer, nofun⟩
    · obtain ⟨rfl, rfl⟩ := Prod.mk.inj hexec
      exact ⟨honward.inBuffer, nofun⟩
    · obtain ⟨rfl, rfl⟩ := Prod.mk.inj hexec
      exact ⟨honward.inBuffer, fun _ => ⟨hlt, Nat.le_add_right _ _, not_lt.mp hincomplete⟩⟩

/-- The type of a message is read in place of a compact number. -/
theorem exec_readMessageType_snd (context : InputContext) :
    (exec readMessageType context).2 = (exec readCompactLong context).2 := by
  unfold readMessageType
  rcases hread : exec readCompactLong context with ⟨e | type, mid⟩
  · rw [exec_bind_error (exec_adapt_error _ hread)]
  · rw [exec_bind_ok (exec_adapt_ok _ hread)]
    split_ifs <;> rfl

/-! ### Rounds -/

/-- What a handler leaves of the input stream: the same buffer and limit, and a position that is not
in front of the old one and, if that was inside of the buffer, inside of it as well. -/
structure StaysForward (s s' : Session σ) : Prop where
  inBuffer : s'.bicc.inBuffer = s.bicc.inBuffer
  inBufferLimit : s'.bicc.inBufferLimit = s.bicc.inBufferLimit
  forward : s.bicc.currentInBufferPosition ≤ s'.bicc.currentInBufferPosition
  inside : s.bicc.currentInBufferPosition ≤ s.bicc.inBufferLength →
    s'.bicc.currentInBufferPosition ≤ s.bicc.inBufferLength

/-- The round hands over a message of this type, on this input stream. -/
def HandsOver (bufferSize : ℕ) (p : Progress σ) (messageType : MessageType) (s : Session σ) : Prop :=
  ∃ bicc, exec (readMessageLengthAndSetBufferLimit bufferSize) p.session.bicc = (.ok (), bicc) ∧
    if bicc.currentInBufferPosition < bicc.inBufferLimit then
      ∃ bicc', exec readMessageType bicc = (.ok messageType, bicc') ∧
        s = { p.session with bicc := bicc' }
    else messageType = messageHeartbeat ∧ s = { p.session with bicc := bicc }

variable (h : Handlers σ)

/-- What a round can do: it leaves the loop, it skips a message of an unknown type, or it hands a
message over. -/
theorem processRound_cases (bufferSize : ℕ) (p : Progress σ) :
    (∃ e bicc position result,
      exec (readMessageLengthAndSetBufferLimit bufferSize) p.session.bicc = (e, bicc) ∧
        (position = p.session.bicc.currentInBufferPosition ∨ position = bufferSize) ∧
        processRound h bufferSize p =
          (⟨{ p.session with bicc := { bicc with currentInBufferPosition := position } }, result,
            p.handed⟩, false)) ∨
    (∃ bicc e bicc',
      exec (readMessageLengthAndSetBufferLimit bufferSize) p.session.bicc = (.ok (), bicc) ∧
        bicc.currentInBufferPosition < bicc.inBufferLimit ∧
        exec readMessageType bicc = (.error e, bicc') ∧
        (processRound h bufferSize p =
            (⟨{ p.session with bicc := { bicc' with
              currentInBufferPosition := bicc'.inBufferLimit } }, p.processResult, p.handed⟩, true) ∨
          processRound h bufferSize p =
            (⟨{ p.session with bicc := { bicc' with currentInBufferPosition := bufferSize } }, false,
              p.handed⟩, false))) ∨
    ∃ messageType s, HandsOver bufferSize p messageType s ∧
      processRound h bufferSize p =
        (handMessage h bufferSize messageType { p with session := s }, true) := by
  unfold processRound
  rcases hlength : exec (readMessageLengthAndSetBufferLimit bufferSize) p.session.bicc with
    ⟨e | ⟨⟩, bicc⟩
  · refine Or.inl ?_
    split
    · rename_i hincomplete
      obtain ⟨-, rfl⟩ := Prod.mk.inj hincomplete
      exact ⟨_, _, _, _, rfl, Or.inl rfl, rfl⟩
    · rename_i herror
      obtain ⟨-, rfl⟩ := Prod.mk.inj herror
      exact ⟨_, _, _, _, rfl, Or.inr rfl, rfl⟩
    · rename_i hok
      exact nomatch (Prod.mk.inj hok).1
  · refine Or.inr ?_
    dsimp only
    by_cases hcontent : bicc.currentInBufferPosition < bicc.inBufferLimit
    · rw [if_pos hcontent]
      rcases htype : exec readMessageType bicc with ⟨e | messageType, bicc'⟩
      · refine Or.inl ⟨bicc, e, bicc', rfl, hcontent, htype, ?_⟩
        split
        · rename_i hunknown
          obtain ⟨-, rfl⟩ := Prod.mk.inj hunknown
          exact Or.inl rfl
        · rename_i herror
          obtain ⟨-, rfl⟩ := Prod.mk.inj herror
          exact Or.inr rfl
        · rename_i hok
          exact nomatch (Prod.mk.inj hok).1
      · refine Or.inr ⟨messageType, _, ⟨bicc, hlength, ?_⟩, rfl⟩
        rw [if_pos hcontent]
        exact ⟨bicc', htype, rfl⟩
    · rw [if_neg hcontent]
      refine Or.inr ⟨messageHeartbeat, _, ⟨bicc, hlength, ?_⟩, rfl⟩
      rw [if_neg hcontent]
      exact ⟨rfl, rfl⟩

/-- What a message leaves of the input stream: what its handler leaves, or another position. -/
theorem handMessage_cases (bufferSize : ℕ) (messageType : MessageType) (p : Progress σ) :
    let s := (exec (processMessage h messageType) p.session).2
    (handMessage h bufferSize messageType p).session = s ∨
      (handMessage h bufferSize messageType p).session = s.setPosition s.bicc.inBufferLimit ∨
      (handMessage h bufferSize messageType p).session = s.setPosition bufferSize := by
  unfold handMessage
  dsimp only
  split
  · rename_i hok
    rw [hok]
    exact Or.inl rfl
  · rename_i hunsupported
    rw [hunsupported]
    exact Or.inr (Or.inl rfl)
  · rename_i herror
    rw [herror]
    exact Or.inr (Or.inr rfl)

/-- The handlers keep the position inside of the buffer, and never move it backwards. -/
def HandlersStay (bufferSize : ℕ) (p : Progress σ) : Prop :=
  ∀ messageType s, HandsOver bufferSize p messageType s →
    StaysForward s (exec (processMessage h messageType) s).2

/-- No capacity test for the type of the message wraps, if the round comes to it. -/
def TypeFits (bufferSize : ℕ) (p : Progress σ) : Prop :=
  ∀ bicc, exec (readMessageLengthAndSetBufferLimit bufferSize) p.session.bicc = (.ok (), bicc) →
    bicc.currentInBufferPosition < bicc.inBufferLimit →
      wraps bicc.inBufferLength bicc.currentInBufferPosition bicc.compactTests = false

/-- The loop is on its buffer, and the position inside of it. -/
structure LoopState (bufferSize : ℕ) (p : Progress σ) : Prop where
  length : p.session.bicc.inBufferLength = bufferSize
  position : p.session.bicc.currentInBufferPosition ≤ bufferSize

variable {h} {bufferSize : ℕ} {p q : Progress σ} {goesOn : Bool}

theorem inBufferLength_congr {context context' : InputContext}
    (h : context'.inBuffer = context.inBuffer) : context'.inBufferLength = context.inBufferLength := by
  rw [InputContext.inBufferLength, InputContext.inBufferLength, InputContext.buffer,
    InputContext.buffer, h]

/-- A message is handed over behind the position, and inside of the limit that is inside of the
buffer. -/
theorem LoopState.handsOver (hstate : LoopState bufferSize p) (hmax : bufferSize ≤ INT_MAX)
    (htype : TypeFits bufferSize p) {messageType : MessageType} {s : Session σ}
    (hhands : HandsOver bufferSize p messageType s) :
    s.bicc.inBufferLength = bufferSize ∧
      p.session.bicc.currentInBufferPosition < s.bicc.currentInBufferPosition ∧
      s.bicc.currentInBufferPosition ≤ bufferSize ∧
      p.session.bicc.currentInBufferPosition < s.bicc.inBufferLimit ∧
      s.bicc.inBufferLimit ≤ bufferSize := by
  obtain ⟨hlength, hposition⟩ := hstate
  obtain ⟨bicc, hread, hcases⟩ := hhands
  subst hlength
  obtain ⟨hbuffer, hok⟩ := readLength_spec hread
  obtain ⟨hlt, hle, hlimit⟩ := hok rfl
  have hbiccLength := inBufferLength_congr hbuffer
  split_ifs at hcases with hcontent
  · obtain ⟨bicc', htypeRead, rfl⟩ := hcases
    obtain ⟨k, hmoves⟩ := moves_readCompactLong (by omega) (by omega) (htype bicc hread hcontent)
    rw [← exec_readMessageType_snd, htypeRead] at hmoves
    have hbound := hmoves.bound
    have hpos := hmoves.position
    have hlim := hmoves.inBufferLimit
    have hlen := hmoves.inBufferLength
    dsimp only at hpos hlim hlen ⊢
    exact ⟨by omega, by omega, by omega, by omega, by omega⟩
  · obtain ⟨-, rfl⟩ := hcases
    dsimp only
    exact ⟨by omega, by omega, by omega, by omega, by omega⟩

/-- A round stays inside of the buffer, and goes forward unless it leaves the loop. -/
theorem LoopState.round (hstate : LoopState bufferSize p) (hmax : bufferSize ≤ INT_MAX)
    (hroom : p.session.bicc.currentInBufferPosition < bufferSize)
    (hstay : HandlersStay h bufferSize p) (htype : TypeFits bufferSize p)
    (hround : processRound h bufferSize p = (q, goesOn)) :
    LoopState bufferSize q ∧
      (goesOn = true →
        p.session.bicc.currentInBufferPosition < q.session.bicc.currentInBufferPosition) := by
  have hstate' := hstate
  obtain ⟨hlength, hposition⟩ := hstate'
  have hspec {bicc : InputContext} {e : Except ErrorCode Unit}
      (hread : exec (readMessageLengthAndSetBufferLimit bufferSize) p.session.bicc = (e, bicc)) :=
    readLength_spec (hlength.symm ▸ hread)
  rcases processRound_cases h bufferSize p with
    ⟨e, bicc, position, result, hread, hplace, heq⟩ |
    ⟨bicc, e, bicc', hread, hcontent, htypeRead, heq⟩ | ⟨messageType, s, hhands, heq⟩
  · -- the loop is left
    obtain ⟨rfl, rfl⟩ := Prod.mk.inj (hround.symm.trans heq)
    refine ⟨⟨?_, ?_⟩, nofun⟩
    · exact (inBufferLength_congr (hspec hread).1).trans hlength
    · rcases hplace with rfl | rfl
      · exact hposition
      · exact le_rfl
  · -- the type is unknown, or it is not there
    obtain ⟨hbuffer, hok⟩ := hspec hread
    obtain ⟨hlt, hle, hlimit⟩ := hok rfl
    have hbiccLength := inBufferLength_congr hbuffer
    have honward := onward_readCompactLong bicc
    rw [← exec_readMessageType_snd, htypeRead] at honward
    have hlength' : bicc'.inBufferLength = bufferSize := by
      rw [honward.inBufferLength, hbiccLength, hlength]
    have hlimit' : bicc'.inBufferLimit = bicc.inBufferLimit := honward.inBufferLimit
    rcases heq with heq | heq
    · obtain ⟨rfl, rfl⟩ := Prod.mk.inj (hround.symm.trans heq)
      exact ⟨⟨hlength', by dsimp only; omega⟩, fun _ => by dsimp only; omega⟩
    · obtain ⟨rfl, rfl⟩ := Prod.mk.inj (hround.symm.trans heq)
      exact ⟨⟨hlength', le_rfl⟩, nofun⟩
  · -- a message is handed over
    obtain ⟨rfl, rfl⟩ := Prod.mk.inj (hround.symm.trans heq)
    obtain ⟨hslen, hslt, hsle, hlimlt, hlimle⟩ := hstate.handsOver hmax htype hhands
    have hforward := hstay messageType s hhands
    have hlen' := (inBufferLength_congr hforward.inBuffer).trans hslen
    have hle' := hforward.inside (hslen.symm ▸ hsle)
    have hlim' := hforward.inBufferLimit
    have hpos' := hforward.forward
    rcases handMessage_cases h bufferSize messageType { p with session := s } with heq | heq | heq
    · exact ⟨⟨heq ▸ hlen', by rw [heq]; dsimp only; omega⟩, fun _ => by rw [heq]; dsimp only; omega⟩
    · refine ⟨⟨heq ▸ hlen', ?_⟩, fun _ => ?_⟩
      · rw [heq]
        simp only [Session.setPosition]
        omega
      · rw [heq]
        simp only [Session.setPosition]
        omega
    · refine ⟨⟨heq ▸ hlen', ?_⟩, fun _ => ?_⟩
      · rw [heq]
        exact le_rfl
      · rw [heq]
        exact hroom

/-! ### The loop -/

variable (h) in
/-- A round from which the loop goes on. -/
def GoesOn (bufferSize : ℕ) (p q : Progress σ) : Prop :=
  p.session.bicc.currentInBufferPosition < bufferSize ∧ processRound h bufferSize p = (q, true)

variable (h) in
/-- In every round of the loop the handlers keep the position, and the type of the message fits. -/
def RoundsFit (bufferSize : ℕ) (p : Progress σ) : Prop :=
  ∀ q, Relation.ReflTransGen (GoesOn h bufferSize) p q →
    q.session.bicc.currentInBufferPosition < bufferSize →
      HandlersStay h bufferSize q ∧ TypeFits bufferSize q

/-- All rounds of the loop are inside of the buffer. -/
theorem LoopState.reaches (hstate : LoopState bufferSize p) (hmax : bufferSize ≤ INT_MAX)
    (hfits : RoundsFit h bufferSize p) (hreach : Relation.ReflTransGen (GoesOn h bufferSize) p q) :
    LoopState bufferSize q := by
  induction hreach with
  | refl => exact hstate
  | tail hreach hround ih =>
      obtain ⟨hstay, htype⟩ := hfits _ hreach hround.1
      exact (ih.round hmax hround.1 hstay htype hround.2).1

/-- Eight bytes below `INT_MAX` the type of a message fits. -/
theorem LoopState.typeFits (hstate : LoopState bufferSize p) (hmax : bufferSize + 8 ≤ INT_MAX) :
    TypeFits bufferSize p := by
  intro bicc hread hcontent
  obtain ⟨hlength, -⟩ := hstate
  subst hlength
  obtain ⟨-, -, hlimit⟩ := (readLength_spec hread).2 rfl
  have hsum := sum_compactTests_le bicc
  exact wraps_eq_false (by omega)

/-- The loop ends: every round that does not leave it takes a byte or more. -/
theorem processLoop_ends (hmax : bufferSize ≤ INT_MAX) {fuel : ℕ} (hstate : LoopState bufferSize p)
    (hfits : RoundsFit h bufferSize p)
    (hfuel : bufferSize < p.session.bicc.currentInBufferPosition + fuel) :
    ∃ q, processLoop h bufferSize fuel p = some q ∧ LoopState bufferSize q := by
  induction fuel generalizing p with
  | zero =>
      have hposition := hstate.position
      omega
  | succ fuel ih =>
      rw [processLoop]
      by_cases hroom : p.session.bicc.currentInBufferPosition < bufferSize
      · rw [if_pos hroom]
        obtain ⟨hstay, htype⟩ := hfits p .refl hroom
        rcases hround : processRound h bufferSize p with ⟨q, _ | _⟩
        · exact ⟨q, rfl, (hstate.round hmax hroom hstay htype hround).1⟩
        · obtain ⟨hstate', hlt⟩ := hstate.round hmax hroom hstay htype hround
          have hbehind := hlt rfl
          exact ih hstate' (fun _ hreach => hfits _ (.head ⟨hroom, hround⟩ hreach)) (by omega)
      · rw [if_neg hroom]
        exact ⟨p, rfl, hstate⟩

/-- From a round on, the loop comes to this round or to those from the next one on. -/
theorem eq_or_reaches {p p' : Progress σ} (hround : processRound h bufferSize p = (q, true))
    (hreach : Relation.ReflTransGen (GoesOn h bufferSize) p p') :
    p' = p ∨ Relation.ReflTransGen (GoesOn h bufferSize) q p' := by
  rcases hreach.cases_head with rfl | ⟨q', hgoes, hrest⟩
  · exact Or.inl rfl
  · obtain ⟨rfl, -⟩ := Prod.mk.inj (hround.symm.trans hgoes.2)
    exact Or.inr hrest

/-- Behind its end the loop comes to no round. -/
theorem not_reaches_end {p p' : Progress σ}
    (hend : bufferSize ≤ p.session.bicc.currentInBufferPosition)
    (hreach : Relation.ReflTransGen (GoesOn h bufferSize) p p') :
    bufferSize ≤ p'.session.bicc.currentInBufferPosition := by
  rcases hreach.cases_head with rfl | ⟨q', hgoes, -⟩
  · exact hend
  · exact absurd hgoes.1 (not_lt.mpr hend)

/-- A round that hands over a message of a known type. -/
theorem handlersStay_of_message {bicc bicc' : InputContext} {messageType : MessageType}
    (hlength : exec (readMessageLengthAndSetBufferLimit bufferSize) p.session.bicc = (.ok (), bicc))
    (hcontent : bicc.currentInBufferPosition < bicc.inBufferLimit)
    (htype : exec readMessageType bicc = (.ok messageType, bicc'))
    (hstay : StaysForward { p.session with bicc := bicc' }
      (exec (processMessage h messageType) { p.session with bicc := bicc' }).2) :
    HandlersStay h bufferSize p := by
  rintro messageType' s ⟨mid, hread, hcases⟩
  obtain ⟨-, rfl⟩ := Prod.mk.inj (hlength.symm.trans hread)
  rw [if_pos hcontent] at hcases
  obtain ⟨mid', htype', rfl⟩ := hcases
  obtain ⟨heq, rfl⟩ := Prod.mk.inj (htype.symm.trans htype')
  obtain rfl := Except.ok.inj heq
  exact hstay

/-! ### Calls -/

namespace Receiver

variable (h) (r : Receiver σ) (data : List Int8)

/-- A call comes to this round of its loop, on this many bytes. -/
def Reaches (bufferSize : ℕ) (p : Progress σ) : Prop :=
  data ≠ [] ∧ ∃ memory start, r.startLoop data = some (memory, start) ∧
    toSize memory.bufferSize = bufferSize ∧ Relation.ReflTransGen (GoesOn h bufferSize) start p ∧
    p.session.bicc.currentInBufferPosition < bufferSize

/-- The bytes that are not processed fit in 31 bits together with the new ones, and the handlers keep
the position. -/
structure Allowed : Prop where
  fits : r.memory.pending.length + data.length ≤ INT_MAX
  handlers : ∀ bufferSize p, r.Reaches h data bufferSize p → HandlersStay h bufferSize p

/-- In no round of the call does a capacity test for the type of a message wrap. -/
def TypesFit : Prop :=
  ∀ bufferSize p, r.Reaches h data bufferSize p → TypeFits bufferSize p

/-- The loop of a call ends and leaves the buffer in its bounds, every round that does not leave the
loop goes forward, and the sum of the position and a valid length is no larger than `INT_MAX`. -/
structure KeepsBounds : Prop where
  ends : ∃ r' ok, r.processServerData h data = some (r', ok) ∧ r'.memory.InBounds
  increases : ∀ bufferSize p q, r.Reaches h data bufferSize p →
    processRound h bufferSize p = (q, true) →
      p.session.bicc.currentInBufferPosition < q.session.bicc.currentInBufferPosition
  endOffset : ∀ bufferSize p len bicc, r.Reaches h data bufferSize p →
    exec readCompactLong p.session.bicc = (.ok len, bicc) →
      ¬ (len < 0 ∨ len.toInt > INT_MAX - bicc.currentInBufferPosition) →
        (Int32.ofNat bicc.currentInBufferPosition + len.toInt32).toInt =
          bicc.currentInBufferPosition + len.toInt

/-- The receivers after calls that are all of a kind. -/
inductive Received (kind : Receiver σ → List Int8 → Prop) : Receiver σ → Prop
  | init (s : σ) : Received kind (.init s)
  | call {r r' : Receiver σ} {data : List Int8} {ok : Bool} (hreceived : Received kind r)
      (hkind : kind r data) (hcall : r.processServerData h data = some (r', ok)) : Received kind r'

variable {h} {r} {data}

/-- The length of a message that is not too large is added to the position without an overflow. -/
theorem toInt_endOffset {len : Int64} {position : ℕ}
    (hlen : ¬ (len < 0 ∨ len.toInt > INT_MAX - position)) :
    (Int32.ofNat position + len.toInt32).toInt = position + len.toInt := by
  rw [not_or, Int64.lt_iff_toInt_lt, Int64.toInt_zero, not_lt, not_lt] at hlen
  obtain ⟨hnonneg, hle⟩ := hlen
  obtain ⟨n, hn⟩ := Int.eq_ofNat_of_zero_le hnonneg
  have hlong : len.toInt32 = Int32.ofNat n := by
    unfold INT_MAX at hle
    rw [← Int32.toInt_inj, Int64.toInt_toInt32, hn, Int32.toInt_ofNat_of_lt (by omega), Int.bmod_def]
    omega
  rw [hlong, toInt_add_of_le (by omega), hn]

theorem pending_init (s : σ) : (Receiver.init s).memory.pending = [] := by
  have hsize : toSize (Receiver.init s).memory.bufferSize = 0 := toSize_ofNat (Nat.zero_le _)
  rw [ReceiveBuffer.pending, hsize, List.take_zero, List.drop_nil]

/-- The first call of a connection starts its loop on the new bytes. -/
theorem startLoop_init (s : σ) {data : List Int8} (hfits : data.length ≤ INT_MAX) :
    ∃ memory, (Receiver.init s).startLoop data =
        some (memory, ⟨⟨inputAt [] data 0, s⟩, true, []⟩) ∧
      toSize memory.bufferSize = data.length := by
  have hpending := pending_init s
  have hlen : (Receiver.init s).memory.pending.length + data.length = data.length := by
    rw [hpending, List.length_nil, Nat.zero_add]
  obtain ⟨memory, capacity, hstart, hsizes, -⟩ :=
    startLoop_spec (r := Receiver.init s) ReceiveBuffer.inBounds_init (hlen.le.trans hfits)
  refine ⟨memory, ?_, ?_⟩
  · rw [hstart, hpending]
    rfl
  · rw [hsizes.size_eq, toSize_ofNat (hlen.le.trans hfits), hlen]

/-- What a call leaves when its loop ends. -/
theorem processServerData_of_loop {memory : ReceiveBuffer} {start p : Progress σ} (hdata : data ≠ [])
    (hstart : r.startLoop data = some (memory, start))
    (hloop : processLoop h (toSize memory.bufferSize) (toSize memory.bufferSize + 1) start = some p) :
    r.processServerData h data =
      some (⟨{ memory with bufferPos := Int32.ofNat p.session.bicc.currentInBufferPosition },
        p.session, p.handed⟩, p.processResult) := by
  have hempty : ¬ data.isEmpty = true := by simpa using hdata
  rw [processServerData, if_neg hempty, hstart, Option.bind_eq_bind, Option.bind_some]
  dsimp only
  rw [hloop]
  rfl

/-- A call that is allowed, from a buffer in its bounds. -/
theorem keepsBounds_of_inBounds (hbounds : r.memory.InBounds) (hallowed : r.Allowed h data)
    (htypes : r.TypesFit h data) : r.KeepsBounds h data := by
  obtain ⟨memory, capacity, hstart, hsizes, hpending⟩ := startLoop_spec (r := r) hbounds hallowed.fits
  have hsize : toSize memory.bufferSize = r.memory.pending.length + data.length := by
    rw [hsizes.size_eq, toSize_ofNat hallowed.fits]
  set start : Progress σ :=
    ⟨⟨⟨some (r.memory.pending ++ data), r.session.bicc.inBufferLimit, 0⟩, r.session.state⟩, true,
      r.handed⟩ with hstart_eq
  have hstate : LoopState (toSize memory.bufferSize) start :=
    ⟨by rw [hsize, ← List.length_append]; rfl, Nat.zero_le _⟩
  have hmax : toSize memory.bufferSize ≤ INT_MAX := hsize.le.trans hallowed.fits
  have hrounds (hdata : data ≠ []) : RoundsFit h (toSize memory.bufferSize) start := by
    intro q hreach hroom
    have hreaches : r.Reaches h data (toSize memory.bufferSize) q :=
      ⟨hdata, memory, start, hstart, rfl, hreach, hroom⟩
    exact ⟨hallowed.handlers _ q hreaches, htypes _ q hreaches⟩
  refine ⟨?_, ?_, fun _ _ _ _ _ _ hvalid => toInt_endOffset hvalid⟩
  · rcases eq_or_ne data [] with rfl | hdata
    · exact ⟨r, false, rfl, hbounds⟩
    · have hend : ∃ p, processLoop h (toSize memory.bufferSize) (toSize memory.bufferSize + 1) start =
          some p ∧ LoopState (toSize memory.bufferSize) p :=
        processLoop_ends hmax hstate (hrounds hdata) (Nat.lt_add_left _ (Nat.lt_succ_self _))
      obtain ⟨p, hloop, hlast⟩ := hend
      have hposition := hlast.position
      rw [hsize] at hposition
      exact ⟨_, _, processServerData_of_loop hdata hstart hloop, ReceiveBuffer.HasSizes.inBounds
        ⟨rfl, hsizes.size_eq, hsizes.capacity_eq, hposition, hsizes.size_le, hsizes.capacity_le,
          hsizes.length_cells⟩⟩
  · rintro bufferSize p q ⟨hdata, memory', start', hstart', rfl, hreach, hroom⟩ hround
    obtain ⟨rfl, rfl⟩ := Prod.mk.inj (Option.some.inj (hstart.symm.trans hstart'))
    obtain ⟨hstay, htype⟩ := hrounds hdata p hreach hroom
    exact ((hstate.reaches hmax (hrounds hdata) hreach).round hmax hroom hstay htype hround).2 rfl

/-- Calls that are allowed, and in which no capacity test for the type of a message wraps, keep the
bounds of the buffer. -/
theorem Received.inBounds
    (hreceived : Received h (fun r data => r.Allowed h data ∧ r.TypesFit h data) r) :
    r.memory.InBounds := by
  induction hreceived with
  | init s => exact ReceiveBuffer.inBounds_init
  | call hreceived hkind hcall ih =>
      obtain ⟨r', ok, hresult, hbounds⟩ := (keepsBounds_of_inBounds ih hkind.1 hkind.2).ends
      cases hcall.symm.trans hresult
      exact hbounds

/-- In every run of such calls, every call keeps the bounds. -/
theorem keepsBounds_of_typesFit
    (hreceived : Received h (fun r data => r.Allowed h data ∧ r.TypesFit h data) r)
    (hallowed : r.Allowed h data) (htypes : r.TypesFit h data) :
    r.memory.InBounds ∧ r.KeepsBounds h data :=
  ⟨hreceived.inBounds, keepsBounds_of_inBounds hreceived.inBounds hallowed htypes⟩

/-- No capacity test wraps in a call that leaves eight bytes of the 31 bits. -/
theorem typesFit_of_room (hbounds : r.memory.InBounds) (hallowed : r.Allowed h data)
    (hroom : r.memory.pending.length + data.length + 8 ≤ INT_MAX) : r.TypesFit h data := by
  rintro bufferSize p ⟨hdata, memory, start, hstart, rfl, hreach, hlast⟩
  obtain ⟨memory', capacity, hstart', hsizes, -⟩ :=
    startLoop_spec (r := r) hbounds hallowed.fits
  obtain ⟨rfl, rfl⟩ := Prod.mk.inj (Option.some.inj (hstart'.symm.trans hstart))
  have hsize : toSize memory'.bufferSize = r.memory.pending.length + data.length := by
    rw [hsizes.size_eq, toSize_ofNat hallowed.fits]
  have hmax : toSize memory'.bufferSize + 8 ≤ INT_MAX := by omega
  refine LoopState.typeFits ?_ hmax
  clear hlast
  induction hreach with
  | refl => exact ⟨by rw [hsize, ← List.length_append]; rfl, Nat.zero_le _⟩
  | tail hreach hround ih =>
      have hstay := hallowed.handlers _ _ ⟨hdata, _, _, hstart, rfl, hreach, hround.1⟩
      exact (ih.round (by omega) hround.1 hstay (ih.typeFits hmax) hround.2).1

/-- The rounds of a call, from the start of its loop. -/
theorem Reaches.from_start {memory : ReceiveBuffer} {start p : Progress σ} {bufferSize : ℕ}
    (hstart : r.startLoop data = some (memory, start)) (hreaches : r.Reaches h data bufferSize p) :
    bufferSize = toSize memory.bufferSize ∧
      Relation.ReflTransGen (GoesOn h bufferSize) start p ∧
      p.session.bicc.currentInBufferPosition < bufferSize := by
  obtain ⟨-, memory', start', hstart', rfl, hreach, hroom⟩ := hreaches
  obtain ⟨rfl, rfl⟩ := Prod.mk.inj (Option.some.inj (hstart.symm.trans hstart'))
  exact ⟨rfl, hreach, hroom⟩

/-! ### Two calls -/

section TwoCalls

/-- Handlers that take the whole message. -/
def skippingHandlers : Handlers Unit :=
  let skip : SessionCall Unit Unit := modify fun s => s.setPosition s.bicc.inBufferLimit
  ⟨skip, skip, skip, fun _ s => s, id⟩

/-- The first bytes of a message. -/
def firstData : List Int8 := [3, 10, 7]

/-- The others, and a second message. -/
def secondData : List Int8 := [9, 2, 15, 5]

/-- The loops of the two calls start here, and the second one goes on behind its first message. -/
def firstStart : Progress Unit := ⟨⟨inputAt [] firstData 0, ()⟩, true, []⟩

def secondStart : Progress Unit := ⟨⟨inputAt [] (firstData ++ secondData) 0, ()⟩, true, []⟩

def secondNext : Progress Unit :=
  ⟨⟨⟨some (firstData ++ secondData), 4, 4⟩, ()⟩, true, [(10, [7, 9])]⟩

def secondEnd : Progress Unit :=
  ⟨⟨⟨some (firstData ++ secondData), 7, 7⟩, ()⟩, true, [(10, [7, 9]), (15, [5])]⟩

/-- The first call waits for the rest of its message. -/
theorem allowed_firstData : (init ()).Allowed skippingHandlers firstData where
  fits := by
    rw [pending_init]
    decide
  handlers := by
    intro bufferSize p hreaches
    obtain ⟨memory, hstart, hsize⟩ := startLoop_init () (show firstData.length ≤ INT_MAX by decide)
    obtain ⟨rfl, hreach, -⟩ := hreaches.from_start hstart
    have hlength : exec (readMessageLengthAndSetBufferLimit 3) firstStart.session.bicc =
        (.error .messageIncomplete, ⟨some firstData, 0, 1⟩) := rfl
    rw [hsize] at hreach ⊢
    rcases hreach.cases_head with rfl | ⟨q, hgoes, -⟩
    · rintro messageType s ⟨bicc, hread, -⟩
      cases (Prod.mk.inj (hlength.symm.trans hread)).1
    · have hround : processRound skippingHandlers 3 firstStart = (firstStart, false) := rfl
      cases (Prod.mk.inj (hround.symm.trans hgoes.2)).2

/-- The second call hands over two messages. -/
theorem allowed_secondData {r : Receiver Unit} {memory : ReceiveBuffer}
    (hfits : r.memory.pending.length + secondData.length ≤ INT_MAX)
    (hstart : r.startLoop secondData = some (memory, secondStart))
    (hsize : toSize memory.bufferSize = 7) : r.Allowed skippingHandlers secondData where
  fits := hfits
  handlers := by
    intro bufferSize p hreaches
    obtain ⟨rfl, hreach, hroom⟩ := hreaches.from_start hstart
    rw [hsize] at hreach hroom ⊢
    have hfirst : processRound skippingHandlers 7 secondStart = (secondNext, true) := rfl
    have hsecond : processRound skippingHandlers 7 secondNext = (secondEnd, true) := rfl
    rcases eq_or_reaches hfirst hreach with rfl | hreach
    · exact @handlersStay_of_message _ _ _ _ ⟨some (firstData ++ secondData), 4, 1⟩
        ⟨some (firstData ++ secondData), 4, 2⟩ 10 rfl (by decide) rfl
        ⟨rfl, rfl, by decide, fun _ => by decide⟩
    · rcases eq_or_reaches hsecond hreach with rfl | hreach
      · exact @handlersStay_of_message _ _ _ _ ⟨some (firstData ++ secondData), 7, 5⟩
          ⟨some (firstData ++ secondData), 7, 6⟩ 15 rfl (by decide) rfl
          ⟨rfl, rfl, by decide, fun _ => by decide⟩
      · exact absurd hroom (not_lt.mpr (not_reaches_end le_rfl hreach))

/-- The calls that the bounds are kept in. -/
def Fits (r : Receiver Unit) (data : List Int8) : Prop :=
  r.Allowed skippingHandlers data ∧ r.TypesFit skippingHandlers data

/-- The receiver behind the first call. -/
theorem received_firstData :
    ∃ r, Received skippingHandlers Fits r ∧ r.memory.InBounds ∧ r.memory.pending = firstData ∧
      r.session = firstStart.session ∧ r.handed = [] := by
  have hnone := pending_init ()
  have hfits : (init ()).memory.pending.length + firstData.length ≤ INT_MAX := by
    rw [hnone]
    decide
  obtain ⟨memory, capacity, hstart, hsizes, hpending⟩ :=
    startLoop_spec (r := init ()) ReceiveBuffer.inBounds_init hfits
  have htypes : (init ()).TypesFit skippingHandlers firstData :=
    typesFit_of_room ReceiveBuffer.inBounds_init allowed_firstData (by rw [hnone]; decide)
  rw [hnone, List.nil_append] at hstart hpending
  have hsize : toSize memory.bufferSize = 3 := by
    rw [hsizes.size_eq, hnone]
    rfl
  have hcall := processServerData_of_loop (h := skippingHandlers) (p := firstStart) (by decide)
    hstart (by rw [hsize]; rfl)
  have hsame : { memory with bufferPos := Int32.ofNat 0 } = memory := by
    rw [← hsizes.pos_eq]
  have hreceived : Received skippingHandlers Fits _ :=
    .call (.init ()) ⟨allowed_firstData, htypes⟩ hcall
  refine ⟨_, hreceived, ?_, ?_, rfl, rfl⟩
  · exact hsame.symm ▸ hsizes.inBounds
  · exact (congrArg ReceiveBuffer.pending hsame).trans hpending

/-- A message in two portions, the second one with another message behind it. -/
theorem keepsBounds_twoCalls :
    ∃ r, Received skippingHandlers Fits r ∧ r.memory.pending = firstData ∧
      (r.memory.InBounds ∧ r.KeepsBounds skippingHandlers secondData) ∧
      ∃ r', r.processServerData skippingHandlers secondData = some (r', true) ∧
        r'.handed = [(10, [7, 9]), (15, [5])] := by
  obtain ⟨r, hreceived, hbounds, hpending, hsession, hhanded⟩ := received_firstData
  have hfits : r.memory.pending.length + secondData.length ≤ INT_MAX := by
    rw [hpending]
    decide
  obtain ⟨memory, capacity, hstart, hsizes, -⟩ := startLoop_spec (r := r) hbounds hfits
  have hsize : toSize memory.bufferSize = 7 := by
    rw [hsizes.size_eq, hpending]
    rfl
  rw [hpending, hsession, hhanded] at hstart
  have hallowed := allowed_secondData hfits hstart hsize
  have htypes : r.TypesFit skippingHandlers secondData :=
    typesFit_of_room hbounds hallowed (by rw [hpending]; decide)
  exact ⟨r, hreceived, hpending, keepsBounds_of_typesFit hreceived hallowed htypes, _,
    processServerData_of_loop (p := secondEnd) (by decide) hstart (by rw [hsize]; rfl), rfl⟩

end TwoCalls

end Receiver

/-! ### A type at the end of a full buffer -/

section FullBuffer

theorem processLoop_goesOn {fuel : ℕ} (hround : GoesOn h bufferSize p q) :
    processLoop h bufferSize (fuel + 1) p = processLoop h bufferSize fuel q := by
  rw [processLoop, if_pos hround.1, hround.2]

theorem processLoop_stops {fuel : ℕ} (hposition : bufferSize ≤ p.session.bicc.currentInBufferPosition) :
    processLoop h bufferSize (fuel + 1) p = some p := by
  rw [processLoop, if_neg (not_lt.mpr hposition)]

/-- Raw data of `n` bytes behind its type. -/
def rawDataFrame (n : ℕ) : Frame :=
  ⟨[-16, 127, -1, -1, -8], 5 :: List.replicate n 0⟩

variable {n : ℕ}

/-- All but the last two bytes of a buffer of `INT_MAX` bytes. -/
theorem rawDataFrame_announced (hn : n + 8 = INT_MAX) : (rawDataFrame n).Announced := by
  refine ⟨0x7FFFFFF8, reads_of_longNumber (by decide) (by decide), ?_⟩
  have hlong : (0x7FFFFFF8 : Int64).toInt = 0x7FFFFFF8 := by decide
  unfold INT_MAX at hn
  simp only [hlong, rawDataFrame, List.length_cons, List.length_replicate]
  omega

theorem handles_rawDataFrame (s : σ) : Handles h s (rawDataFrame n).content s := by
  have htype : Reads readCompactLong [5] 5 := reads_of_longNumber (by decide) (by decide)
  refine Handles.message [5] (List.replicate n 0) 5 s htype (by decide) ?_
  intro pre post hlen
  right
  rfl

/-- The end of the buffer, and places behind it. -/
def atEnd (buffer : List Int8) (limit k : ℕ) : InputContext :=
  ⟨some buffer, limit, INT_MAX + k⟩

variable {buffer : List Int8} {limit k : ℕ}

/-- Behind `INT_MAX` every capacity test succeeds. -/
theorem exec_validateBuffer_atEnd {m : ℕ} (hlen : buffer.length = INT_MAX) (hpos : 0 < k + m)
    (hsmall : k + m < 100) :
    exec (validateBuffer m) (atEnd buffer limit k) = (.ok (), atEnd buffer limit k) := by
  have henough : isCapacityEnough (INT_MAX + k) m buffer.length = true :=
    isCapacityEnough_overflow (by omega) (by omega) hlen.le
  unfold validateBuffer
  rw [exec_bind_ok (exec_get _), if_neg (by simp [atEnd]), if_neg]
  · rfl
  · rw [Bool.not_eq_true', Bool.not_eq_false]
    exact henough

/-- In the model the bytes there are zeros. -/
theorem exec_nextByte_atEnd (hlen : buffer.length = INT_MAX) :
    exec nextByte (atEnd buffer limit k) = (.ok 0, atEnd buffer limit (k + 1)) := by
  have hbyte : buffer.getD (INT_MAX + k) 0 = 0 :=
    List.getD_eq_default _ _ (hlen.le.trans (Nat.le_add_right _ _))
  have hvalue : (atEnd buffer limit k).buffer.getD (atEnd buffer limit k).currentInBufferPosition 0 =
      0 := hbyte
  rw [nextByte, exec_bind_ok (exec_get _), exec_bind_ok (exec_set _ _), hvalue]
  rfl

theorem exec_readInt_atEnd (hlen : buffer.length = INT_MAX) :
    exec readInt (atEnd buffer limit 0) = (.ok 0, atEnd buffer limit 4) := by
  rw [readInt, exec_bind_ok (exec_validateBuffer_atEnd hlen (by omega) (by omega)),
    exec_bind_ok (exec_nextByte_atEnd hlen), exec_bind_ok (exec_nextByte_atEnd hlen),
    exec_bind_ok (exec_nextByte_atEnd hlen), exec_bind_ok (exec_nextByte_atEnd hlen)]
  rfl

theorem exec_readCompactInt_atEnd (hlen : buffer.length = INT_MAX) :
    exec readCompactInt (atEnd buffer limit 4) = (.ok 0, atEnd buffer limit 5) := by
  have hbyte : exec readUnsignedByte (atEnd buffer limit 4) = (.ok 0, atEnd buffer limit 5) := by
    rw [readUnsignedByte, exec_bind_ok (exec_validateBuffer_atEnd hlen (by omega) (by omega)),
      exec_bind_ok (exec_nextByte_atEnd hlen)]
    rfl
  rw [readCompactInt, exec_bind_ok hbyte]
  rfl

/-- A payload that is all behind the buffer. -/
theorem exec_parseFrom_atEnd (hlen : buffer.length = INT_MAX) :
    exec HeartbeatPayload.parseFrom (atEnd buffer limit 4) =
      (.ok ⟨0, 0, 0, 0, 0⟩, atEnd buffer limit 5) := by
  rw [HeartbeatPayload.parseFrom, exec_bind_ok (exec_readCompactInt_atEnd hlen)]
  rfl

variable {pre : List Int8}

/-- The last two bytes of a full buffer announce a message of one byte. -/
theorem exec_readLength_cutType (hpre : pre.length + 2 = INT_MAX) :
    exec (readMessageLengthAndSetBufferLimit INT_MAX) (inputAt pre [1, -16] limit) =
      (.ok (), inputAt (pre ++ [1]) [-16] INT_MAX) := by
  have hone : Reads readCompactLong [1] 1 := reads_of_longNumber (by decide) (by decide)
  have hread : exec readCompactLong (inputAt pre [1, -16] limit) =
      (.ok 1, inputAt (pre ++ [1]) [-16] limit) := hone pre [-16] limit (by simpa using hpre.le)
  have hvalue : (1 : Int64).toInt = 1 := by decide
  have hsum : pre.length + 1 + Int.toNat 1 = INT_MAX := hpre
  unfold readMessageLengthAndSetBufferLimit
  rw [exec_bind_ok (exec_adapt_ok _ hread), exec_bind_ok (exec_get _)]
  simp only [inputAt, List.length_append, List.length_singleton, hvalue, hsum]
  rw [if_neg, if_neg (lt_irrefl _)]
  · rfl
  · rintro (hneg | hlarge)
    · exact absurd hneg (by decide)
    · omega

/-- And this byte is the first one of a type that goes on behind the buffer. -/
theorem exec_readMessageType_cutType (hpre : pre.length + 2 = INT_MAX) :
    exec readMessageType (inputAt (pre ++ [1]) [-16] INT_MAX) =
      (.ok messageHeartbeat, atEnd (pre ++ [1, -16]) INT_MAX 4) := by
  have hlen : (pre ++ [1, -16]).length = INT_MAX := by simpa using hpre
  have hend : inputAt (pre ++ [1] ++ [-16]) [] INT_MAX = atEnd (pre ++ [1, -16]) INT_MAX 0 := by
    have hbuffer : pre ++ [1] ++ [-16] = pre ++ [1, -16] := by simp
    rw [inputAt, hbuffer, hlen, List.append_nil]
    rfl
  have hfirst : exec readUnsignedByte (inputAt (pre ++ [1]) [-16] INT_MAX) =
      (.ok (unsignedByte (-16)), inputAt (pre ++ [1] ++ [-16]) [] INT_MAX) :=
    reads_readUnsignedByte (-16) (pre ++ [1]) [] INT_MAX (by simp; omega)
  rw [hend] at hfirst
  have hread : exec readCompactLong (inputAt (pre ++ [1]) [-16] INT_MAX) =
      (.ok 0, atEnd (pre ++ [1, -16]) INT_MAX 4) := by
    rw [readCompactLong, exec_bind_ok hfirst, readCompactLongFrom, if_neg (by decide),
      if_neg (by decide), if_neg (by decide), if_neg (by decide), readCompactHigh,
      if_pos (by decide), exec_bind_ok (exec_pure _ _), exec_bind_ok (exec_readInt_atEnd hlen)]
    rfl
  unfold readMessageType
  rw [exec_bind_ok (exec_adapt_ok _ hread), if_pos (by decide)]
  rfl

/-- It is handed over as a heartbeat, from a position behind the buffer. -/
theorem handsOver_cutType (hpre : pre.length + 2 = INT_MAX) {p : Progress σ}
    (hbicc : p.session.bicc = inputAt pre [1, -16] limit) {messageType : MessageType}
    {s : Session σ} :
    HandsOver INT_MAX p messageType s ↔
      messageType = messageHeartbeat ∧
        s = { p.session with bicc := atEnd (pre ++ [1, -16]) INT_MAX 4 } := by
  have hcontent : (inputAt (pre ++ [1]) [-16] INT_MAX).currentInBufferPosition <
      (inputAt (pre ++ [1]) [-16] INT_MAX).inBufferLimit := by
    simp only [inputAt, List.length_append, List.length_singleton]
    omega
  constructor
  · rintro ⟨bicc, hread, hcases⟩
    rw [hbicc, exec_readLength_cutType hpre] at hread
    obtain ⟨-, rfl⟩ := Prod.mk.inj hread
    rw [if_pos hcontent] at hcases
    obtain ⟨bicc', htype, rfl⟩ := hcases
    rw [exec_readMessageType_cutType hpre] at htype
    obtain ⟨hok, rfl⟩ := Prod.mk.inj htype
    exact ⟨(Except.ok.inj hok).symm, rfl⟩
  · rintro ⟨rfl, rfl⟩
    refine ⟨_, by rw [hbicc, exec_readLength_cutType hpre], ?_⟩
    rw [if_pos hcontent]
    exact ⟨_, exec_readMessageType_cutType hpre, rfl⟩

/-- The heartbeat is read behind the buffer. -/
theorem exec_heartbeat_atEnd (hlen : buffer.length = INT_MAX) (s : σ) :
    exec (processMessage h messageHeartbeat) ⟨atEnd buffer INT_MAX 4, s⟩ =
      (.ok (), ⟨atEnd buffer INT_MAX 5,
        h.processIncomingHeartbeatPayload ⟨0, 0, 0, 0, 0⟩ s⟩) := by
  have hnone : ¬ (atEnd buffer INT_MAX 4).inBufferLimit =
      (atEnd buffer INT_MAX 4).currentInBufferPosition := by
    simp [atEnd]
  have hparse : parseHeartbeat h ⟨atEnd buffer INT_MAX 4, s⟩ =
      ⟨atEnd buffer INT_MAX 5, h.processIncomingHeartbeatPayload ⟨0, 0, 0, 0, 0⟩ s⟩ := by
    rw [parseHeartbeat, if_neg hnone]
    simp only [exec_parseFrom_atEnd hlen]
  have hcall : processMessage h messageHeartbeat = modify (parseHeartbeat h) := rfl
  rw [hcall, exec_modify, hparse]

/-- The round of this message. -/
theorem processRound_cutType (hpre : pre.length + 2 = INT_MAX) (s : σ) (result : Bool)
    (before : List Handed) :
    ∃ q, processRound h INT_MAX ⟨⟨inputAt pre [1, -16] limit, s⟩, result, before⟩ = (q, true) ∧
      q.session.bicc = atEnd (pre ++ [1, -16]) INT_MAX 5 := by
  have hlen : (pre ++ [1, -16]).length = INT_MAX := by simpa using hpre
  have hcontent : (inputAt (pre ++ [1]) [-16] INT_MAX).currentInBufferPosition <
      (inputAt (pre ++ [1]) [-16] INT_MAX).inBufferLimit := by
    simp only [inputAt, List.length_append, List.length_singleton]
    omega
  unfold processRound
  simp only [exec_readLength_cutType hpre, if_pos hcontent, exec_readMessageType_cutType hpre,
    handMessage, exec_heartbeat_atEnd hlen]
  exact ⟨_, rfl, rfl⟩

/-- A buffer of `INT_MAX` bytes: raw data, and this message. -/
def fullBuffer (n : ℕ) : List Int8 :=
  (rawDataFrame n).bytes ++ [1, -16]

theorem length_rawDataFrame (hn : n + 8 = INT_MAX) :
    (rawDataFrame n).bytes.length + 2 = INT_MAX := by
  simp [rawDataFrame, Frame.bytes]
  omega

theorem length_fullBuffer (hn : n + 8 = INT_MAX) : (fullBuffer n).length = INT_MAX := by
  rw [fullBuffer, List.length_append]
  exact length_rawDataFrame hn

/-- The loop on this buffer. -/
def fullStart (n : ℕ) : Progress Unit :=
  ⟨⟨inputAt [] (fullBuffer n) 0, ()⟩, true, []⟩

/-- The first message that is handed over is raw data. -/
theorem handsOver_fullStart (hn : n + 8 = INT_MAX) {messageType : MessageType} {s : Session Unit}
    (hhands : HandsOver INT_MAX (fullStart n) messageType s) : messageType = messageRawData := by
  have htype : Reads readCompactLong [5] 5 := reads_of_longNumber (by decide) (by decide)
  have hlength : exec (readMessageLengthAndSetBufferLimit INT_MAX) (fullStart n).session.bicc =
      (.ok (), inputAt (rawDataFrame n).lengthBytes ([5] ++ (List.replicate n 0 ++ [1, -16]))
        (rawDataFrame n).bytes.length) := by
    have hlen : ([] ++ ((rawDataFrame n).bytes ++ [1, -16])).length = INT_MAX := length_fullBuffer hn
    have hread := exec_readLength_frame 0 (rawDataFrame_announced hn) hlen.le
    rw [hlen, List.length_nil, Nat.zero_add] at hread
    exact hread
  have hread := exec_readMessageType (rawDataFrame n).lengthBytes [1, -16]
    (rawDataFrame n).bytes.length htype
    (show ((rawDataFrame n).lengthBytes ++ ([5] ++ (List.replicate n 0 ++ [1, -16]))).length ≤ INT_MAX by
      simp [rawDataFrame]; omega)
  obtain ⟨bicc, hbicc, hcases⟩ := hhands
  rw [hlength] at hbicc
  obtain ⟨-, rfl⟩ := Prod.mk.inj hbicc
  rw [if_pos (by simp [inputAt, rawDataFrame, Frame.bytes])] at hcases
  obtain ⟨bicc', htypeRead, -⟩ := hcases
  rw [hread, if_pos (by decide)] at htypeRead
  exact (Except.ok.inj (Prod.mk.inj htypeRead).1).symm

/-- The loop has two rounds, and the second one ends behind the buffer. -/
theorem rounds_fullStart (hn : n + 8 = INT_MAX) :
    ∃ p q, processRound idleHandlers INT_MAX (fullStart n) = (p, true) ∧
      p.session.bicc = inputAt (rawDataFrame n).bytes [1, -16] (rawDataFrame n).bytes.length ∧
      processRound idleHandlers INT_MAX p = (q, true) ∧
      q.session.bicc = atEnd (fullBuffer n) INT_MAX 5 := by
  have hpre := length_rawDataFrame hn
  have hfirst := processRound_frame [] [1, -16] 0 [] (rawDataFrame_announced hn)
    (handles_rawDataFrame (h := idleHandlers) ()) (length_fullBuffer hn).le
  have hlen : ([] ++ ((rawDataFrame n).bytes ++ [1, -16])).length = INT_MAX := length_fullBuffer hn
  rw [hlen] at hfirst
  obtain ⟨q, hsecond, hq⟩ := processRound_cutType (h := idleHandlers) hpre () true
    ([] ++ (rawDataFrame n).handed)
  exact ⟨_, q, hfirst, by simp, by simpa using hsecond, hq⟩

end FullBuffer

/-- Handlers that do nothing leave the position where it is; only heartbeats are read. -/
theorem staysForward_idle {messageType : MessageType} {s : Session Unit}
    (hsilent : messageType ≠ messageHeartbeat) :
    StaysForward s (exec (processMessage idleHandlers messageType) s).2 := by
  have hsame : (exec (processMessage idleHandlers messageType) s).2 = s := by
    unfold processMessage
    split_ifs <;> rfl
  rw [hsame]
  exact ⟨rfl, rfl, le_rfl, id⟩

/-- A heartbeat that is read from a place behind the buffer was not moved out of it. -/
theorem staysForward_atEnd {buffer : List Int8} (hlen : buffer.length = INT_MAX) {s : σ} :
    StaysForward ⟨atEnd buffer INT_MAX 4, s⟩
      (exec (processMessage h messageHeartbeat) ⟨atEnd buffer INT_MAX 4, s⟩).2 := by
  rw [exec_heartbeat_atEnd hlen]
  refine ⟨rfl, rfl, Nat.add_le_add_left (by norm_num) _, fun hinside => ?_⟩
  have hbeyond : INT_MAX + 4 ≤ buffer.length := hinside
  omega

namespace Receiver

variable {n : ℕ}

theorem allowed_fullBuffer (hn : n + 8 = INT_MAX) :
    (Receiver.init ()).Allowed idleHandlers (fullBuffer n) := by
  obtain ⟨memory, hstart, hsize⟩ := startLoop_init () (length_fullBuffer hn).le
  obtain ⟨p₁, q, hfirst, hp₁, hsecond, hq⟩ := rounds_fullStart hn
  refine ⟨?_, ?_⟩
  · rw [pending_init, List.length_nil, Nat.zero_add, length_fullBuffer hn]
  · intro bufferSize p hreaches messageType s hhands
    obtain ⟨rfl, hreach, hroom⟩ := hreaches.from_start hstart
    rw [hsize, length_fullBuffer hn] at hreach hroom hhands
    rcases eq_or_reaches hfirst hreach with rfl | hreach
    · refine staysForward_idle ?_
      rw [handsOver_fullStart hn hhands]
      decide
    · rcases eq_or_reaches hsecond hreach with rfl | hreach
      · obtain ⟨rfl, rfl⟩ := (handsOver_cutType (length_rawDataFrame hn) hp₁).mp hhands
        exact staysForward_atEnd (length_fullBuffer hn)
      · have hend := not_reaches_end (by rw [hq]; exact Nat.le_add_right _ _) hreach
        exact absurd hroom (not_lt.mpr hend)

/-- After one call with a full buffer the position is behind it. -/
theorem not_keepsBounds_fullBuffer :
    ¬ ∀ (h : Handlers Unit) (r : Receiver Unit) (data : List Int8),
      Received h (fun r data => r.Allowed h data) r → r.Allowed h data → r.KeepsBounds h data := by
  intro hclaim
  obtain ⟨n, hn⟩ : ∃ n, n + 8 = INT_MAX := ⟨INT_MAX - 8, by decide⟩
  obtain ⟨memory, hstart, hsize⟩ := startLoop_init () (length_fullBuffer hn).le
  obtain ⟨p, q, hfirst, hp, hsecond, hq⟩ := rounds_fullStart hn
  obtain ⟨r', ok, hcall, hbounds⟩ := (hclaim _ _ _ (.init ()) (allowed_fullBuffer hn)).ends
  have hroom : p.session.bicc.currentInBufferPosition < INT_MAX := by
    have hpre := length_rawDataFrame hn
    rw [hp]
    simp only [inputAt]
    omega
  obtain ⟨m, hm⟩ : ∃ m, INT_MAX + 1 = m + 1 + 1 + 1 := ⟨INT_MAX - 2, by decide⟩
  have hloop : processLoop idleHandlers (toSize memory.bufferSize) (toSize memory.bufferSize + 1)
      (fullStart n) = some q := by
    rw [hsize, length_fullBuffer hn, hm, processLoop_goesOn ⟨by rw [← hn]; exact Nat.succ_pos _, hfirst⟩,
      processLoop_goesOn ⟨hroom, hsecond⟩, processLoop_stops]
    rw [hq]
    exact Nat.le_add_right _ _
  have hdata : fullBuffer n ≠ [] := by
    rw [← List.length_pos_iff, length_fullBuffer hn]
    decide
  rw [processServerData_of_loop hdata hstart hloop] at hcall
  obtain ⟨rfl, -⟩ := Prod.mk.inj (Option.some.inj hcall)
  have hpos := hbounds.pos
  dsimp only at hpos
  rw [hq] at hpos
  have hneg : (Int32.ofNat (INT_MAX + 5)).toInt < 0 := by decide
  exact absurd hpos (not_le.mpr hneg)

end Receiver

end DxFeed.ServerMessageProcessor
