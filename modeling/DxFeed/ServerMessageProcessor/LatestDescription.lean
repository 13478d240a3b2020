import DxFeed.ServerMessageProcessor.MessageSupport

/-!
# The description that was accepted last

The bits of the message types are added to the bitmasks while a description is read, and the bits of
an earlier description stay.

* `ServerInfo.mark`: the bits of some message types;
* `Reads`: a part of a message reads the same for every connection, and sets the bits of the message
  types that it reads;
* `outcome`, `listing`: what becomes of a message, and the message types in it;
* `KeepsDescription`, `LeavesNothing`: the report is the description that was accepted last, and
  when;
* `keepsDescription_iff`.
-/

namespace DxFeed.ServerMessageProcessor

open BufferedIO Call Properties Run

/-! ### Bits -/

variable {roster : List MessageType} {bitmask : Int32} {msg : MessageType} {entry : TypeEntry}

/-- The bitmask with the bits of some message types. -/
def markTypes (roster : List MessageType) (bitmask : Int32) (entries : List TypeEntry) : Int32 :=
  entries.foldl (markType roster) bitmask

/-- The bitmasks with the bits of a listing. -/
def ServerInfo.mark (info : ServerInfo) (listing : Listing) : ServerInfo :=
  { info with
    sendMsgsBitmask := markTypes sendMessageRoster info.sendMsgsBitmask listing.recv
    recvMsgsBitmask := markTypes recvMessageRoster info.recvMsgsBitmask listing.send }

def Listing.append (l l' : Listing) : Listing := ⟨l.send ++ l'.send, l.recv ++ l'.recv⟩

def Listing.empty : Listing := ⟨[], []⟩

theorem mark_append (info : ServerInfo) (l l' : Listing) :
    info.mark (l.append l') = (info.mark l).mark l' := by
  unfold ServerInfo.mark Listing.append markTypes
  simp only [List.foldl_append]

theorem mark_empty (info : ServerInfo) : info.mark .empty = info := rfl

theorem Listing.append_empty (l : Listing) : l.append .empty = l := by
  unfold Listing.append Listing.empty
  simp only [List.append_nil]

theorem Listing.append_assoc (l l' l'' : Listing) :
    (l.append l').append l'' = l.append (l'.append l'') := by
  unfold Listing.append
  simp only [List.append_assoc]

theorem getMsgSupportState_iff (hroster : roster.length ≤ 32) :
    getMsgSupportState msg roster bitmask = true ↔
      ∃ idx, roster.findIdx? (· = msg) = some idx ∧ idx < 32 ∧ IsSupported bitmask idx := by
  unfold getMsgSupportState
  cases hidx : roster.findIdx? (· = msg) with
  | none => simp
  | some idx =>
      have hlt := (List.findIdx?_eq_some_iff_findIdx_eq.mp hidx).1
      simp only [decide_eq_true_eq, Option.some.injEq]
      constructor
      · exact fun h => ⟨idx, rfl, by omega, h⟩
      · rintro ⟨_, rfl, -, h⟩
        exact h

/-- The place of a message type is the place of no other. -/
theorem findIdx_inj {msg' : MessageType} {idx : ℕ}
    (h : roster.findIdx? (· = msg) = some idx) (h' : roster.findIdx? (· = msg') = some idx) :
    msg = msg' := by
  obtain ⟨hlt, hidx, -⟩ := List.findIdx?_eq_some_iff_getElem.mp h
  obtain ⟨_, hidx', -⟩ := List.findIdx?_eq_some_iff_getElem.mp h'
  exact (of_decide_eq_true hidx).symm.trans (of_decide_eq_true hidx')

theorem rosterIndex_eq_some {idx : ℕ} :
    rosterIndex roster entry = some idx ↔
      roster.findIdx? (· = entry.1) = some idx ∧ entry.2 = some (messageTypeName entry.1) := by
  unfold rosterIndex
  cases roster.findIdx? (· = entry.1) with
  | none => simp
  | some i =>
      dsimp only
      split_ifs with hname
      · simp [hname]
      · simp [hname]

theorem exists_findIdx (h : msg ∈ roster) :
    ∃ idx, roster.findIdx? (· = msg) = some idx := by
  rw [← Option.isSome_iff_exists, List.findIdx?_isSome, List.any_eq_true]
  exact ⟨msg, h, decide_eq_true rfl⟩

theorem mem_of_findIdx {idx : ℕ} (h : roster.findIdx? (· = msg) = some idx) : msg ∈ roster := by
  obtain ⟨hlt, hidx, -⟩ := List.findIdx?_eq_some_iff_getElem.mp h
  rw [← of_decide_eq_true hidx]
  exact List.getElem_mem hlt

/-- One more bit. -/
theorem getMsgSupportState_markType (hroster : roster.length ≤ 32) :
    getMsgSupportState msg roster (markType roster bitmask entry) = true ↔
      getMsgSupportState msg roster bitmask = true ∨
        msg ∈ roster ∧ (msg, some (messageTypeName msg)) = entry := by
  unfold markType
  cases hentry : rosterIndex roster entry with
  | none =>
      refine (or_iff_left ?_).symm
      rintro ⟨hmem, rfl⟩
      obtain ⟨idx, hidx⟩ := exists_findIdx hmem
      rw [rosterIndex_eq_some.mpr ⟨hidx, rfl⟩] at hentry
      cases hentry
  | some idx =>
      obtain ⟨hidx, hname⟩ := rosterIndex_eq_some.mp hentry
      have hlt := (List.findIdx?_eq_some_iff_findIdx_eq.mp hidx).1
      rw [getMsgSupportState_iff hroster, getMsgSupportState_iff hroster]
      constructor
      · rintro ⟨i, hi, hi32, hbit⟩
        rcases (isSupported_or hi32 (by omega)).mp hbit with hold | rfl
        · exact Or.inl ⟨i, hi, hi32, hold⟩
        · have hsame := findIdx_inj hi hidx
          exact Or.inr ⟨mem_of_findIdx hi, by rw [hsame, ← hname]⟩
      · rintro (⟨i, hi, hi32, hold⟩ | ⟨hmem, rfl⟩)
        · exact ⟨i, hi, hi32, (isSupported_or hi32 (by omega)).mpr (Or.inl hold)⟩
        · exact ⟨idx, hidx, by omega, (isSupported_or (by omega) (by omega)).mpr (Or.inr rfl)⟩

theorem getMsgSupportState_markTypes (hroster : roster.length ≤ 32) (entries : List TypeEntry) :
    getMsgSupportState msg roster (markTypes roster bitmask entries) = true ↔
      getMsgSupportState msg roster bitmask = true ∨
        msg ∈ roster ∧ (msg, some (messageTypeName msg)) ∈ entries := by
  induction entries generalizing bitmask with
  | nil => simp [markTypes]
  | cons entry entries ih =>
      rw [markTypes, List.foldl_cons]
      refine ih.trans ?_
      rw [getMsgSupportState_markType hroster, List.mem_cons]
      tauto

/-- Message types are supported behind a listing if they were, or are listed. -/
theorem supports_mark (info : ServerInfo) (listing : Listing) :
    (info.mark listing).supports msg = true ↔ info.supports msg = true ∨ listing.Lists msg := by
  unfold ServerInfo.supports Listing.Lists
  rw [Bool.or_eq_true, Bool.or_eq_true]
  unfold ServerInfo.mark
  rw [getMsgSupportState_markTypes (by decide), getMsgSupportState_markTypes (by decide)]
  tauto

/-! ### Parts of a message -/

/-- What a part of a message does: its result, the input behind it, the properties, and the message
types that it reads. -/
structure Reading (α : Type) where
  result : Except DescribeFailure α
  input : InputContext
  recvProps : Content
  listed : Listing

/-- The state behind a part of a message. -/
def DescribeState.behind {α : Type} (s : DescribeState) (r : Reading α) : DescribeState where
  info := s.info.mark r.listed
  recvProps := r.recvProps
  input := r.input
  listed := s.listed.append r.listed

/-- The part reads the same for every connection, and sets the bits of what it reads; it does not
ask for a login. -/
def ReadsTypes {α : Type} (x : DescribeCall α) : Prop :=
  ∃ f : InputContext → Content → Reading α,
    (∀ input recvProps, (f input recvProps).result ≠ .error .loginRequired) ∧
    ∀ s, exec x s = ((f s.input s.recvProps).result, s.behind (f s.input s.recvProps))

section Parts

variable {α β : Type}

theorem behind_empty (s : DescribeState) (result : Except DescribeFailure α)
    (input : InputContext) (recvProps : Content) :
    s.behind ⟨result, input, recvProps, .empty⟩ =
      { s with input := input, recvProps := recvProps } := by
  unfold DescribeState.behind
  rw [mark_empty, Listing.append_empty]

theorem readsTypes_pure (a : α) : ReadsTypes (pure a) := by
  refine ⟨fun input recvProps => ⟨.ok a, input, recvProps, .empty⟩, nofun, fun s => ?_⟩
  rw [behind_empty]
  rfl

theorem readsTypes_throw {e : DescribeFailure} (he : e ≠ .loginRequired) :
    ReadsTypes (throw e : DescribeCall α) := by
  refine ⟨fun input recvProps => ⟨.error e, input, recvProps, .empty⟩, ?_, fun s => ?_⟩
  · intro input recvProps h
    exact he (Except.error.inj h)
  · rw [behind_empty]
    rfl

theorem readsTypes_readInput (x : ReadCall α) : ReadsTypes (readInput x) := by
  refine ⟨fun input recvProps =>
    ⟨(exec x input).1.mapError .input, (exec x input).2, recvProps, .empty⟩, ?_, fun s => ?_⟩
  · intro input recvProps h
    dsimp only at h
    cases hresult : (exec x input).1 with
    | error e =>
        rw [hresult] at h
        cases h
    | ok a =>
        rw [hresult] at h
        cases h
  · rw [behind_empty]
    rfl

theorem readsTypes_modifyProps (g : Content → Content) :
    ReadsTypes (modify fun s => { s with recvProps := g s.recvProps }) := by
  refine ⟨fun input recvProps => ⟨.ok ⟨⟩, input, g recvProps, .empty⟩, nofun, fun s => ?_⟩
  rw [behind_empty]
  rfl

theorem ReadsTypes.bind {x : DescribeCall α} {g : α → DescribeCall β} (hx : ReadsTypes x)
    (hg : ∀ a, ReadsTypes (g a)) : ReadsTypes (x >>= g) := by
  obtain ⟨f, hne, hf⟩ := hx
  choose f' hne' hf' using hg
  refine ⟨fun input recvProps =>
    match f input recvProps with
    | ⟨.error e, input, recvProps, listed⟩ => ⟨.error e, input, recvProps, listed⟩
    | ⟨.ok a, input, recvProps, listed⟩ =>
        { f' a input recvProps with listed := listed.append (f' a input recvProps).listed },
    fun input recvProps => ?_, fun s => ?_⟩
  · have hresult := hne input recvProps
    dsimp only
    generalize f input recvProps = r at hresult ⊢
    obtain ⟨e | a, input, recvProps, listed⟩ := r
    · intro h
      exact hresult (congrArg Except.error (Except.error.inj h))
    · exact hne' a input recvProps
  · have hs := hf s
    dsimp only
    generalize f s.input s.recvProps = r at hs ⊢
    obtain ⟨_ | a, input, recvProps, listed⟩ := r
    · exact exec_bind_error hs
    · rw [exec_bind_ok hs, hf' a]
      refine Prod.ext rfl ?_
      unfold DescribeState.behind
      dsimp only
      rw [mark_append, Listing.append_assoc]

theorem ReadsTypes.ite {p : Prop} [Decidable p] {x y : DescribeCall α} (hx : ReadsTypes x)
    (hy : ReadsTypes y) : ReadsTypes (if p then x else y) := by
  split_ifs
  · exact hx
  · exact hy

end Parts

/-- A message type without a name has no bit. -/
theorem markType_null (h : entry.2 = none) : markType roster bitmask entry = bitmask := by
  have hindex : rosterIndex roster entry = none := by
    rw [Option.eq_none_iff_forall_ne_some]
    intro idx hidx
    rw [rosterIndex_eq_some, h] at hidx
    cases hidx.2
  rw [markType, hindex]

/-- The processors of message types: a name that is null is an error, and its type has no bit. -/
theorem readsTypes_of_checkName {x : DescribeCall Unit} {list mark : DescribeState → DescribeState}
    (hx : x = (do modify list; checkName roster entry; modify mark)) (listing : Listing)
    (hmark : ∀ s : DescribeState, mark (list s) =
      { s with info := s.info.mark listing, listed := s.listed.append listing })
    (hnull : entry.2 = none → ∀ s, mark (list s) = list s) : ReadsTypes x := by
  refine ⟨fun input recvProps =>
    ⟨if entry.1 ∈ roster ∧ entry.2 = none then .error .nullString else .ok ⟨⟩, input, recvProps,
      listing⟩, fun input recvProps => ?_, fun s => ?_⟩
  · dsimp only
    split_ifs <;> exact nofun
  · have hbehind : mark (list s) = s.behind (α := Unit)
        ⟨if entry.1 ∈ roster ∧ entry.2 = none then .error .nullString else .ok ⟨⟩, s.input,
          s.recvProps, listing⟩ := hmark s
    rw [hx, exec_bind_ok (exec_modify _ _), ← hbehind, checkName]
    dsimp only
    split_ifs with hname
    · rw [hnull hname.2 s]
      exact exec_bind_error (exec_throw _ _)
    · exact exec_bind_ok (exec_pure _ _)

theorem readsTypes_processServerSendMessageType (entry : TypeEntry) :
    ReadsTypes (processServerSendMessageType entry) := by
  apply readsTypes_of_checkName rfl ⟨[entry], []⟩
  · intro s
    simp [ServerInfo.mark, markTypes, Listing.append]
  · intro hnull s
    simp [markType_null hnull]

theorem readsTypes_processServerRecvMessageType (entry : TypeEntry) :
    ReadsTypes (processServerRecvMessageType entry) := by
  apply readsTypes_of_checkName rfl ⟨[], [entry]⟩
  · intro s
    simp [ServerInfo.mark, markTypes, Listing.append]
  · intro hnull s
    simp [markType_null hnull]

theorem readsTypes_readCount : ReadsTypes readCount := by
  unfold readCount
  apply (readsTypes_readInput _).bind
  intro count
  split_ifs
  · exact (readsTypes_throw (by decide)).bind fun _ => readsTypes_pure _
  · exact readsTypes_pure _

theorem readsTypes_readProperties (n : ℕ) : ReadsTypes (readProperties n) := by
  induction n with
  | zero => exact readsTypes_pure _
  | succ n ih =>
      exact (readsTypes_readInput _).bind fun key =>
        (readsTypes_readInput _).bind fun value =>
          (readsTypes_modifyProps fun recvProps => setContent recvProps key value).bind fun _ => ih

theorem readsTypes_readDescribeProtocolProperties : ReadsTypes readDescribeProtocolProperties :=
  readsTypes_readCount.bind readsTypes_readProperties

section List

variable {processor : TypeEntry → DescribeCall Unit} (h : ∀ entry, ReadsTypes (processor entry))
include h

theorem readsTypes_readMessageTypes (n : ℕ) : ReadsTypes (readMessageTypes processor n) := by
  induction n with
  | zero => exact readsTypes_pure _
  | succ n ih =>
      exact (readsTypes_readInput _).bind fun messageId =>
        (readsTypes_readInput _).bind fun messageName =>
          (h (messageId, messageName)).bind fun _ =>
            readsTypes_readDescribeProtocolProperties.bind fun _ => ih

theorem readsTypes_readDescribeProtocolMessageList :
    ReadsTypes (readDescribeProtocolMessageList processor) :=
  readsTypes_readCount.bind (readsTypes_readMessageTypes h)

end List

/-- The description is read into properties that are empty. -/
theorem exists_readDescription :
    ∃ f : InputContext → Reading Unit, (∀ input, (f input).result ≠ .error .loginRequired) ∧
      ∀ s, exec readDescription s = ((f s.input).result, s.behind (f s.input)) := by
  obtain ⟨f, hne, hf⟩ := readsTypes_readDescribeProtocolProperties.bind fun _ =>
    (readsTypes_readDescribeProtocolMessageList
      readsTypes_processServerSendMessageType).bind fun _ =>
        readsTypes_readDescribeProtocolMessageList readsTypes_processServerRecvMessageType
  refine ⟨fun input => f input fun _ => none, fun input => hne _ _, fun s => ?_⟩
  unfold readDescription
  rw [exec_bind_ok (exec_modify _ _)]
  exact hf _

/-- The result of the comparison of the magic number. -/
def magicResult (input : InputContext) : Except DescribeFailure Unit :=
  match (exec readInt input).1 with
  | .error e => .error (.input e)
  | .ok magic => if magic ≠ 0x44585033 then .error .messageCorrupted else .ok ()

theorem exec_readMagic (s : DescribeState) :
    exec readMagic s = (magicResult s.input, { s with input := (exec readInt s.input).2 }) := by
  unfold readMagic readInput magicResult
  rw [exec_bind, exec_mk]
  cases (exec readInt s.input).1 with
  | error e => rfl
  | ok magic =>
      dsimp only [Except.mapError]
      split_ifs
      · rfl
      · rfl

/-! ### The message -/

/-- The status behind a message. -/
def statusBehind (status : DescribeProtocolStatus) :
    Except DescribeFailure Unit → DescribeProtocolStatus
  | .ok _ => .received
  | .error .loginRequired => .pending
  | .error _ => status

theorem statusBehind_error {status : DescribeProtocolStatus} {e : DescribeFailure}
    (he : e ≠ .loginRequired) : statusBehind status (.error e) = status := by
  cases e with
  | loginRequired => exact absurd rfl he
  | _ => rfl

theorem magicResult_ne (input : InputContext) : magicResult input ≠ .error .loginRequired := by
  unfold magicResult
  cases (exec readInt input).1 with
  | error e => exact nofun
  | ok magic =>
      dsimp only
      split_ifs <;> exact nofun

/-- The result of a message, from what is read of it. -/
def resultBehind (r : Reading Unit) : Except DescribeFailure Unit :=
  match r.result with
  | .error e => .error e
  | .ok _ =>
      match loginAnswer r.recvProps with
      | none => .ok ()
      | some e => .error e

theorem loginAnswer_cases (recvProps : Content) :
    loginAnswer recvProps = none ∨ loginAnswer recvProps = some .loginRequired ∨
      loginAnswer recvProps = some .authenticationError := by
  unfold loginAnswer
  split
  · exact Or.inl rfl
  · split_ifs
    · exact Or.inl rfl
    · exact Or.inr (Or.inl rfl)
    · exact Or.inr (Or.inr rfl)

theorem exec_acceptDescription (s : DescribeState) :
    ∃ s', exec acceptDescription s =
        ((match loginAnswer s.recvProps with | none => .ok () | some e => .error e), s') ∧
      s'.listed = s.listed ∧
      s'.info =
        { s.info with
          describeProtocolStatus := statusBehind s.info.describeProtocolStatus
            (match loginAnswer s.recvProps with | none => .ok () | some e => .error e) } := by
  unfold acceptDescription
  rw [exec_bind_ok (exec_get _)]
  rcases loginAnswer_cases s.recvProps with h | h | h
  · rw [h]
    exact ⟨_, rfl, rfl, rfl⟩
  · rw [h]
    exact ⟨_, rfl, rfl, rfl⟩
  · rw [h]
    exact ⟨_, rfl, rfl, rfl⟩

/-- What is read of a message is the same for every connection, and so is the result. -/
theorem exists_processDescribeProtocol :
    ∃ (result : InputContext → Except DescribeFailure Unit) (types : InputContext → Listing),
      ∀ s, ∃ s', exec processDescribeProtocol s = (result s.input, s') ∧
        s'.listed = s.listed.append (types s.input) ∧
        s'.info = { s.info.forgiven.mark (types s.input) with
          describeProtocolStatus :=
            statusBehind s.info.forgiven.describeProtocolStatus (result s.input) } := by
  obtain ⟨f, hne, hf⟩ := exists_readDescription
  refine ⟨fun input =>
      match magicResult input with
      | .error e => .error e
      | .ok _ => resultBehind (f (exec readInt input).2),
    fun input =>
      match magicResult input with
      | .error _ => .empty
      | .ok _ => (f (exec readInt input).2).listed, fun s => ?_⟩
  have hmagic := exec_readMagic { s with info := s.info.forgiven }
  unfold processDescribeProtocol
  rw [exec_bind_ok (exec_modify _ _)]
  dsimp only at hmagic ⊢
  cases hresult : magicResult s.input with
  | error e =>
      -- no list is read, but the bitmasks have been cleared if the status is `not_received`
      rw [hresult] at hmagic
      have he : e ≠ .loginRequired := by
        rintro rfl
        exact magicResult_ne s.input hresult
      refine ⟨_, exec_bind_error hmagic, (Listing.append_empty _).symm, ?_⟩
      dsimp only
      rw [mark_empty, statusBehind_error he]
  | ok u =>
      rw [hresult] at hmagic
      have hread := hf { s with info := s.info.forgiven, input := (exec readInt s.input).2 }
      have hne := hne (exec readInt s.input).2
      dsimp only at hread
      rw [exec_bind_ok hmagic]
      generalize f (exec readInt s.input).2 = r at hread hne ⊢
      unfold resultBehind
      obtain ⟨e | _, input, recvProps, listed⟩ := r
      · have he : e ≠ .loginRequired := fun he => hne (congrArg Except.error he)
        refine ⟨_, exec_bind_error hread, rfl, ?_⟩
        dsimp only [DescribeState.behind]
        rw [statusBehind_error he]
        rfl
      · obtain ⟨s', haccept, hlisted, hinfo⟩ := exec_acceptDescription
          (DescribeState.behind { s with info := s.info.forgiven, input := (exec readInt s.input).2 }
            ⟨.ok (), input, recvProps, listed⟩)
        exact ⟨s', (exec_bind_ok hread).trans haccept, hlisted, hinfo⟩

/-- What becomes of a message, as a new connection processes it. -/
def outcome (input : InputContext) : Except DescribeFailure Unit :=
  ((DescribeSession.start ⟨[], by decide⟩).process input).1

/-- The message types that are listed in a message, as far as it is read. -/
def listing (input : InputContext) : Listing :=
  ((DescribeSession.start ⟨[], by decide⟩).process input).2.listed

/-- Every connection makes the same of a message. -/
theorem process_eq (s : DescribeSession) (input : InputContext) :
    (s.process input).1 = outcome input ∧ (s.process input).2.listed = listing input ∧
      (s.process input).2.info =
        { s.info.forgiven.mark (listing input) with
          describeProtocolStatus :=
            statusBehind s.info.forgiven.describeProtocolStatus (outcome input) } := by
  obtain ⟨result, types, h⟩ := exists_processDescribeProtocol
  obtain ⟨s₀, hexec₀, htypes₀, -⟩ :=
    h ⟨(DescribeSession.start ⟨[], by decide⟩).info, fun _ => none, input, ⟨[], []⟩⟩
  obtain ⟨s₁, hexec₁, htypes₁, hinfo₁⟩ := h ⟨s.info, s.recvProps, input, ⟨[], []⟩⟩
  have houtcome : outcome input = result input := congrArg Prod.fst hexec₀
  have hlisting : listing input = types input :=
    (congrArg (fun r => r.2.listed) hexec₀).trans htypes₀
  rw [houtcome, hlisting]
  unfold DescribeSession.process
  rw [hexec₁]
  exact ⟨rfl, htypes₁, hinfo₁⟩

/-! ### Reports -/

theorem isMessageTypeValid_of_supports {info : ServerInfo} (h : info.supports msg = true) :
    isMessageTypeValid msg = true := by
  have hvalid : (sendMessageRoster ++ recvMessageRoster).all isMessageTypeValid = true := rfl
  apply List.all_eq_true.mp hvalid
  unfold ServerInfo.supports at h
  rw [Bool.or_eq_true, getMsgSupportState_iff (by decide), getMsgSupportState_iff (by decide)] at h
  rcases h with ⟨idx, hidx, -⟩ | ⟨idx, hidx, -⟩
  · exact List.mem_append_left _ (mem_of_findIdx hidx)
  · exact List.mem_append_right _ (mem_of_findIdx hidx)

theorem isMessageTypeValid_of_lists {l : Listing} (h : l.Lists msg) :
    isMessageTypeValid msg = true := by
  have hmark := (supports_mark (ServerInfo.fresh ⟨[], by decide⟩) l).mpr (Or.inr h)
  exact isMessageTypeValid_of_supports hmark

theorem supports_withStatus (info : ServerInfo) (status : DescribeProtocolStatus) :
    ({ info with describeProtocolStatus := status } : ServerInfo).supports msg =
      info.supports msg := rfl

/-- Without bits nothing is supported. -/
theorem not_supports_of_zero {info : ServerInfo} (hsend : info.sendMsgsBitmask = 0)
    (hrecv : info.recvMsgsBitmask = 0) : info.supports msg = false := by
  rw [Bool.eq_false_iff]
  unfold ServerInfo.supports
  rw [hsend, hrecv, ne_eq, Bool.or_eq_true, getMsgSupportState_iff (by decide),
    getMsgSupportState_iff (by decide)]
  rintro (⟨idx, -, hlt, hbit⟩ | ⟨idx, -, hlt, hbit⟩)
  · exact not_isSupported_zero hlt hbit
  · exact not_isSupported_zero hlt hbit

theorem report_of_received {info : ServerInfo} (h : info.describeProtocolStatus = .received)
    (hvalid : isMessageTypeValid msg = true) :
    isMessageSupportedByServer info msg = some .supported ↔ info.supports msg = true := by
  unfold isMessageSupportedByServer
  rw [hvalid, h]
  cases info.supports msg <;> simp

/-- Two reports with a status of an answer are the same if the same message types are supported. -/
theorem reports_eq_iff {info info' : ServerInfo}
    (hsame : info'.describeProtocolStatus = info.describeProtocolStatus)
    (hanswer : info.describeProtocolStatus = .received ∨
      info.describeProtocolStatus = .notReceived) :
    (∀ msg, isMessageSupportedByServer info' msg = isMessageSupportedByServer info msg) ↔
      ∀ msg, info'.supports msg = true ↔ info.supports msg = true := by
  have hreport : ∀ msg, isMessageTypeValid msg = true →
      (isMessageSupportedByServer info' msg = isMessageSupportedByServer info msg ↔
        (info'.supports msg = true ↔ info.supports msg = true)) := by
    intro msg hvalid
    unfold isMessageSupportedByServer
    rw [hvalid, hsame]
    rcases hanswer with h | h
    · rw [h]
      cases info.supports msg <;> cases info'.supports msg <;> simp
    · rw [h]
      cases info.supports msg <;> cases info'.supports msg <;> simp
  constructor
  · intro hreports msg
    by_cases hvalid : isMessageTypeValid msg = true
    · exact (hreport msg hvalid).mp (hreports msg)
    · exact iff_of_false (fun h => hvalid (isMessageTypeValid_of_supports h))
        fun h => hvalid (isMessageTypeValid_of_supports h)
  · intro hsupports msg
    cases hvalid : isMessageTypeValid msg with
    | true => exact (hreport msg hvalid).mpr (hsupports msg)
    | false =>
        unfold isMessageSupportedByServer
        rw [hvalid]
        rfl

/-! ### Runs -/

/-- An event, and the report behind it: while the status is received, the report is the description
that was accepted last; a message that fails in the middle does not change the report. -/
structure KeepsDescription (s : DescribeSession) (e : DescribeEvent) : Prop where
  received : (describeStep s e).1.info.describeProtocolStatus = .received →
    ∀ msg, isMessageTypeValid msg = true →
      (isMessageSupportedByServer (describeStep s e).1.info msg = some .supported ↔
        ∃ l, (describeStep s e).1.accepted = some l ∧ l.Lists msg)
  failed : ∀ f, .error f ∈ (describeStep s e).2 → f ≠ .loginRequired →
    ∀ msg, isMessageSupportedByServer (describeStep s e).1.info msg =
      isMessageSupportedByServer s.info msg
  noNull : .error .nullString ∉ (describeStep s e).2

/-- A message finds no bits of others, or leaves none: if it is accepted, all message types that have
a bit are listed in it; if it fails in the middle, the message types in the part that is read are
supported anyway, and are the ones that are supported if the bits are removed first. -/
def LeavesNothing (s : DescribeSession) : DescribeEvent → Prop
  | .message input =>
      match outcome input with
      | .ok _ => ∀ msg, s.info.forgiven.supports msg = true → (listing input).Lists msg
      | .error .loginRequired => True
      | .error .nullString => False
      | .error _ =>
          match s.info.describeProtocolStatus with
          | .received => ∀ msg, (listing input).Lists msg → s.info.supports msg = true
          | .notReceived => ∀ msg, (listing input).Lists msg ↔ s.info.supports msg = true
          | .notSent | .pending => True
  | _ => True

/-- While the status is received, the bits are those of the description that was accepted last. -/
def ReportsAccepted (s : DescribeSession) : Prop :=
  s.info.describeProtocolStatus = .received → ∀ msg, s.info.supports msg = true ↔
    ∃ l, s.accepted = some l ∧ l.Lists msg

theorem reportsAccepted_iff {s : DescribeSession} :
    ReportsAccepted s ↔ (s.info.describeProtocolStatus = .received →
      ∀ msg, isMessageTypeValid msg = true →
        (isMessageSupportedByServer s.info msg = some .supported ↔
          ∃ l, s.accepted = some l ∧ l.Lists msg)) := by
  refine forall_congr' fun hstatus => forall_congr' fun msg => ?_
  constructor
  · intro h hvalid
    rw [report_of_received hstatus hvalid, h]
  · intro h
    by_cases hvalid : isMessageTypeValid msg = true
    · rw [← report_of_received hstatus hvalid, h hvalid]
    · refine iff_of_false (fun hsupports => hvalid (isMessageTypeValid_of_supports hsupports)) ?_
      rintro ⟨l, -, hlists⟩
      exact hvalid (isMessageTypeValid_of_lists hlists)

/-- Where no message is processed, there is nothing that fails. -/
theorem keepsDescription_of_quiet {s : DescribeSession} {e : DescribeEvent}
    (hquiet : (describeStep s e).2 = []) (h : ReportsAccepted (describeStep s e).1) :
    KeepsDescription s e where
  received := reportsAccepted_iff.mp h
  failed f hf := by
    rw [hquiet] at hf
    cases hf
  noNull hf := by
    rw [hquiet] at hf
    cases hf

theorem reportsAccepted_of_ne {s : DescribeSession}
    (h : s.info.describeProtocolStatus ≠ .received) : ReportsAccepted s :=
  fun hreceived => absurd hreceived h

theorem forgiven_status (info : ServerInfo) :
    info.forgiven.describeProtocolStatus = info.describeProtocolStatus := by
  unfold ServerInfo.forgiven
  split_ifs <;> rfl

theorem reportsAccepted_sent {s : DescribeSession} (h : ReportsAccepted s) :
    ReportsAccepted (describeStep s .sent).1 := by
  unfold describeStep describeProtocolSent
  split_ifs
  · exact reportsAccepted_of_ne nofun
  · exact h

theorem reportsAccepted_countdown {s : DescribeSession} (h : ReportsAccepted s) (timedOut : Bool) :
    ReportsAccepted (describeStep s (.countdown timedOut)).1 := by
  unfold describeStep describeProtocolTimeoutCountdown
  dsimp only
  split_ifs
  · exact reportsAccepted_of_ne nofun
  · exact h

theorem reportsAccepted_clear {s : DescribeSession} (h : ReportsAccepted s) :
    ReportsAccepted (describeStep s .clear).1 := by
  unfold describeStep clearServerInfo
  rw [exec_bind_ok (exec_get _)]
  split_ifs
  · exact h
  · exact reportsAccepted_of_ne nofun

/-- The session behind a message. -/
theorem describeStep_message (s : DescribeSession) (input : InputContext) :
    (describeStep s (.message input)).2 = [outcome input] ∧
      (describeStep s (.message input)).1.accepted =
        (if (outcome input).isOk then some (listing input) else s.accepted) ∧
      (describeStep s (.message input)).1.info =
        { s.info.forgiven.mark (listing input) with
          describeProtocolStatus :=
            statusBehind s.info.describeProtocolStatus (outcome input) } := by
  obtain ⟨hresult, hlisted, hinfo⟩ := process_eq s input
  rw [forgiven_status] at hinfo
  unfold describeStep
  dsimp only
  rw [hresult, hlisted, hinfo]
  exact ⟨rfl, rfl, rfl⟩

/-- Behind a message its message types are supported, and those whose bits were left. -/
theorem supports_describeStep (s : DescribeSession) (input : InputContext) :
    (describeStep s (.message input)).1.info.supports msg = true ↔
      s.info.forgiven.supports msg = true ∨ (listing input).Lists msg := by
  obtain ⟨-, -, hinfo⟩ := describeStep_message s input
  rw [hinfo, supports_withStatus, supports_mark]

/-- A message that fails leaves the status. -/
theorem status_describeStep {s : DescribeSession} {input : InputContext} {f : DescribeFailure}
    (houtcome : outcome input = .error f) (hlogin : f ≠ .loginRequired) :
    (describeStep s (.message input)).1.info.describeProtocolStatus =
      s.info.describeProtocolStatus := by
  obtain ⟨-, -, hinfo⟩ := describeStep_message s input
  rw [houtcome, statusBehind_error hlogin] at hinfo
  rw [hinfo]

/-- An accepted message is the report if all bits are its own. -/
theorem keepsDescription_accepted {s : DescribeSession} {input : InputContext}
    (houtcome : outcome input = .ok ()) :
    KeepsDescription s (.message input) ↔
      ∀ msg, s.info.forgiven.supports msg = true → (listing input).Lists msg := by
  obtain ⟨houtputs, haccepted, hinfo⟩ := describeStep_message s input
  rw [houtcome] at houtputs haccepted hinfo
  have hreceived : (describeStep s (.message input)).1.info.describeProtocolStatus = .received := by
    rw [hinfo]
    rfl
  have hlast : ∀ msg, (∃ l, (describeStep s (.message input)).1.accepted = some l ∧ l.Lists msg) ↔
      (listing input).Lists msg := by
    intro msg
    rw [haccepted]
    exact ⟨fun ⟨l, hl, hlists⟩ => Option.some.inj hl ▸ hlists, fun hlists => ⟨_, rfl, hlists⟩⟩
  constructor
  · intro hkeeps msg hbit
    have hreports := reportsAccepted_iff.mpr hkeeps.received hreceived msg
    rw [supports_describeStep, hlast] at hreports
    exact hreports.mp (Or.inl hbit)
  · intro hall
    refine ⟨reportsAccepted_iff.mp fun _ msg => ?_, ?_, ?_⟩
    · rw [supports_describeStep, hlast]
      exact or_iff_right_of_imp (hall msg)
    · rw [houtputs]
      intro f hf
      cases List.mem_singleton.mp hf
    · rw [houtputs]
      exact fun hf => by cases List.mem_singleton.mp hf

/-- A login that is required makes the status pending. -/
theorem keepsDescription_loginRequired {s : DescribeSession} {input : InputContext}
    (houtcome : outcome input = .error .loginRequired) : KeepsDescription s (.message input) := by
  obtain ⟨houtputs, -, hinfo⟩ := describeStep_message s input
  rw [houtcome] at houtputs hinfo
  refine ⟨reportsAccepted_iff.mp (reportsAccepted_of_ne ?_), ?_, ?_⟩
  · rw [hinfo]
    exact nofun
  · rw [houtputs]
    intro f hf hne
    exact absurd (Except.error.inj (List.mem_singleton.mp hf)) hne
  · rw [houtputs]
    exact fun hf => by cases List.mem_singleton.mp hf

/-- A message that fails keeps the description if it does not change the report. -/
theorem keepsDescription_failed {s : DescribeSession} (h : ReportsAccepted s)
    {input : InputContext} {f : DescribeFailure} (houtcome : outcome input = .error f)
    (hlogin : f ≠ .loginRequired) (hnull : f ≠ .nullString) :
    KeepsDescription s (.message input) ↔
      ∀ msg, isMessageSupportedByServer (describeStep s (.message input)).1.info msg =
        isMessageSupportedByServer s.info msg := by
  obtain ⟨houtputs, haccepted, -⟩ := describeStep_message s input
  rw [houtcome] at houtputs haccepted
  have hstatus := status_describeStep (s := s) houtcome hlogin
  constructor
  · intro hkeeps
    exact hkeeps.failed f (by rw [houtputs]; exact List.mem_singleton_self _) hlogin
  · intro hreport
    refine ⟨fun hreceived msg hvalid => ?_, fun _ _ _ => hreport, ?_⟩
    · rw [hreport, haccepted]
      exact reportsAccepted_iff.mp h (hstatus.symm.trans hreceived) msg hvalid
    · rw [houtputs]
      exact fun hf => hnull (Except.error.inj (List.mem_singleton.mp hf)).symm

/-- When a message that fails leaves the report as it was. -/
theorem reports_failed_iff {s : DescribeSession} {input : InputContext} {f : DescribeFailure}
    (houtcome : outcome input = .error f) (hlogin : f ≠ .loginRequired) :
    (∀ msg, isMessageSupportedByServer (describeStep s (.message input)).1.info msg =
        isMessageSupportedByServer s.info msg) ↔
      match s.info.describeProtocolStatus with
      | .received => ∀ msg, (listing input).Lists msg → s.info.supports msg = true
      | .notReceived => ∀ msg, (listing input).Lists msg ↔ s.info.supports msg = true
      | .notSent | .pending => True := by
  have hstatus := status_describeStep (s := s) houtcome hlogin
  cases hs : s.info.describeProtocolStatus with
  | notSent =>
      refine iff_of_true (fun msg => ?_) trivial
      unfold isMessageSupportedByServer
      rw [hstatus, hs]
  | pending =>
      refine iff_of_true (fun msg => ?_) trivial
      unfold isMessageSupportedByServer
      rw [hstatus, hs]
  | received =>
      have hforgiven : s.info.forgiven = s.info := if_neg (by rw [hs]; exact nofun)
      rw [reports_eq_iff hstatus (Or.inl hs)]
      refine forall_congr' fun msg => ?_
      rw [supports_describeStep, hforgiven]
      exact ⟨fun hiff hlists => hiff.mp (Or.inr hlists), or_iff_left_of_imp⟩
  | notReceived =>
      -- the bits are removed before anything is read, so only the part that is read has any
      have hforgiven : s.info.forgiven =
          { s.info with sendMsgsBitmask := 0, recvMsgsBitmask := 0 } := if_pos hs
      have hzero : ∀ msg, s.info.forgiven.supports msg = false := by
        intro msg
        rw [hforgiven]
        exact not_supports_of_zero rfl rfl
      rw [reports_eq_iff hstatus (Or.inr hs)]
      refine forall_congr' fun msg => ?_
      rw [supports_describeStep, hzero, or_iff_right Bool.false_ne_true]

/-- While a step keeps the description, this is so in front of the next one. -/
theorem reportsAccepted_step {s : DescribeSession} {e : DescribeEvent}
    (h : KeepsDescription s e) : ReportsAccepted (describeStep s e).1 :=
  reportsAccepted_iff.mpr h.received

/-- A step keeps the description exactly if it leaves nothing behind. -/
theorem keepsDescription_step_iff {s : DescribeSession} (h : ReportsAccepted s)
    (e : DescribeEvent) : KeepsDescription s e ↔ LeavesNothing s e := by
  cases e with
  | sent => exact iff_of_true (keepsDescription_of_quiet rfl (reportsAccepted_sent h)) trivial
  | countdown timedOut =>
      exact iff_of_true (keepsDescription_of_quiet rfl (reportsAccepted_countdown h timedOut)) trivial
  | clear => exact iff_of_true (keepsDescription_of_quiet rfl (reportsAccepted_clear h)) trivial
  | message input =>
      unfold LeavesNothing
      dsimp only
      cases houtcome : outcome input with
      | ok u => exact keepsDescription_accepted houtcome
      | error f =>
          have hfailed : f ≠ .loginRequired → f ≠ .nullString →
              (KeepsDescription s (.message input) ↔
                match s.info.describeProtocolStatus with
                | .received => ∀ msg, (listing input).Lists msg → s.info.supports msg = true
                | .notReceived => ∀ msg, (listing input).Lists msg ↔ s.info.supports msg = true
                | .notSent | .pending => True) := fun hlogin hnull =>
            (keepsDescription_failed h houtcome hlogin hnull).trans
              (reports_failed_iff houtcome hlogin)
          cases f with
          | input e => exact hfailed nofun nofun
          | messageCorrupted => exact hfailed nofun nofun
          | authenticationError => exact hfailed nofun nofun
          | loginRequired => exact iff_of_true (keepsDescription_loginRequired houtcome) trivial
          | nullString =>
              refine iff_of_false (fun hkeeps => hkeeps.noNull ?_) id
              obtain ⟨houtputs, -, -⟩ := describeStep_message s input
              rw [houtputs, houtcome]
              exact List.mem_singleton_self _

/-- In every run of a connection the report is the description that was accepted last, and is not
changed by a message that fails, exactly if no step leaves bits behind. -/
theorem keepsDescription_iff (records : RecordList) (events : List DescribeEvent) :
    AllSteps KeepsDescription describeStep (.start records) events ↔
      AllSteps LeavesNothing describeStep (.start records) events := by
  have hrun : ∀ (events : List DescribeEvent) (s : DescribeSession), ReportsAccepted s →
      (AllSteps KeepsDescription describeStep s events ↔
        AllSteps LeavesNothing describeStep s events) := by
    intro events
    -- in front of a step the bits are those of the last description, as all steps before kept it
    induction events with
    | nil => exact fun s h => Iff.rfl
    | cons e events ih =>
        intro s h
        rw [allSteps_cons, allSteps_cons, ← keepsDescription_step_iff h]
        exact and_congr_right fun hkeeps => ih _ (reportsAccepted_step hkeeps)
  exact hrun events _ (reportsAccepted_of_ne nofun)

/-- The time is over, and then a message comes that is empty. -/
def lateMessage : List DescribeEvent :=
  [.sent, .countdown true, .message ⟨some [], 0, 0⟩]

/-- Ticker data was supported, and is not any more. -/
theorem not_keepsDescription_lateMessage :
    ¬ AllSteps KeepsDescription describeStep (.start ⟨[], by decide⟩) lateMessage := by
  intro hkeeps
  obtain ⟨-, -, hmessage, -⟩ := hkeeps
  have hreport := hmessage.failed (.input .bufferUnderflow) (by decide) nofun 10
  revert hreport
  decide

end DxFeed.ServerMessageProcessor
