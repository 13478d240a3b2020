import DxFeed.Connection.Tasks
import DxFeed.Library.History

/-!
# The order of the messages of a session

The protocol description is sent before the other messages of a session, and a record is described
before it is subscribed to.

* `SessionOrdered`: this order of the messages;
* `InOrder`: the invariant of the connection, which says how the tasks of the queue will keep it;
* `QueuedInOrder`: the steps that keep the invariant;
* `sessionOrdered_of_queuedInOrder`: the sessions of a run of such steps are ordered.

The threads that call the API are not stopped while the connection is reestablished: what they queue
between the cleanup of the queue and the tasks of the new session is in front of these tasks.
-/

namespace DxFeed.Connection

open History

/-! ### Messages and tasks -/

/-- A record description lists the record. -/
def Describes (sent : List Message) (id : ℕ) : Prop :=
  ∃ records, .describeRecords records ∈ sent ∧ id ∈ records

/-- The message may be sent behind those of the session. -/
def MayFollow (sent : List Message) : Message → Prop
  | .describeProtocol => True
  | .describeRecords _ => .describeProtocol ∈ sent
  | .subscription records => .describeProtocol ∈ sent ∧ ∀ id ∈ records, Describes sent id

/-- Every message of the session may be sent behind those before it. -/
def SessionOrdered (sent : List Message) : Prop := Admitted MayFollow sent

/-- The tasks that send a message which has to be behind the protocol description. -/
def Task.followsProtocol : Task → Bool
  | .describeRecordsSender => true
  | .subscribeSymbolsToEvents _ => true
  | _ => false

/-- The protocol description is sent before the message of the task. -/
def ProtocolBefore (sent : List Message) (before : List Task) (t : Task) : Prop :=
  t.followsProtocol = true →
    .describeProtocol ∈ sent ∨ .describeProtocolSender ∈ before

/-- A description of the records is queued, or they have been described. -/
def Covered (newRecordId : ℕ) (queue : List Task) (records : List ℕ) : Prop :=
  .describeRecordsSender ∈ queue ∨ InList newRecordId records

instance (newRecordId : ℕ) (queue : List Task) (records : List ℕ) :
    Decidable (Covered newRecordId queue records) :=
  inferInstanceAs (Decidable (_ ∨ _))

/-- The records of a subscription are described before it is executed. -/
def RecordsBefore (newRecordId : ℕ) (before : List Task) (t : Task) : Prop :=
  ∀ records, t = .subscribeSymbolsToEvents records → Covered newRecordId before records

/-- The records of a call of the API. -/
def ApiCall.records : ApiCall → List ℕ
  | .eventsLoaded records | .recordsQueued records | .checked records => records

/-- The call has queued a description of its records. -/
def ApiCall.behindRecords : ApiCall → Bool
  | .eventsLoaded _ => false
  | .recordsQueued _ | .checked _ => true

/-! ### The invariant -/

/-- `dx_reestablish_connection` has cleaned the queue, and has not queued the protocol description
of the next session. -/
def ReaderPoint.betweenSessions : ReaderPoint → Bool
  | .queueCleaned | .serverInfoCleared | .connected => true
  | _ => false

/-- The reader has queued the record description of the session. -/
def ReaderPoint.recordsAreQueued : ReaderPoint → Bool
  | .reading | .recordsQueued => true
  | _ => false

/-- What is queued now is either behind the protocol description of its session, or not sent at
all.  A reader that is idle with an open socket has no session to return to. -/
def ConnectionContext.inSession (c : ConnectionContext) : Bool :=
  match c.reader with
  | .queueCleaned | .serverInfoCleared | .connected => false
  | .idle => !c.socketOpen
  | _ => true

/-- The invariant of the messages and the tasks.  While the socket is closed no task sends its
message. -/
structure InOrder (c : ConnectionContext) : Prop where
  ordered : SessionOrdered c.sent
  described : c.socketOpen = true → ∀ id < c.newRecordId, Describes c.sent id
  protocolBefore : c.socketOpen = true → Admitted (ProtocolBefore c.sent) c.queue
  protocolQueued : c.socketOpen = true → c.inSession = true →
    (c.creator = .bound ∧ c.reader = .reading) ∨
      .describeProtocol ∈ c.sent ∨ .describeProtocolSender ∈ c.queue
  recordsBefore : c.socketOpen = true → Admitted (RecordsBefore c.newRecordId) c.queue
  inList : ∀ records, .subscribeSymbolsToEvents records ∈ c.queue → InList c.recordCount records
  callsInList : ∀ call ∈ c.calls, InList c.recordCount call.records
  callsCovered : c.socketOpen = true → c.reader.recordsAreQueued = true →
    ∀ call ∈ c.calls, call.behindRecords = true → Covered c.newRecordId c.queue call.records
  callsCreated : c.creator = .bound → c.calls = []
  between : c.reader.betweenSessions = true → ∀ t ∈ c.queue, t.followsProtocol = false
  cleared : c.reader = .serverInfoCleared ∨ c.reader = .connected → c.newRecordId = 0

/-- The steps that keep the invariant: what has to be behind the protocol description is not queued
between two sessions, and a subscription is queued when its records are described or their
description is queued, where the point of the reader does not tell. -/
def QueuedInOrder (c : ConnectionContext) : Label → Prop
  | .createQueuesRecords | .apiQueuesRecords _ => c.inSession = true
  | .apiQueuesSubscription i =>
      c.inSession = true ∧
        (c.reader = .protocolQueued ∨ c.reader = .protocolSent →
          ∀ call ∈ c.calls[i]?, Covered c.newRecordId c.queue call.records)
  | .resubscribe _ records => Covered c.newRecordId c.queue records
  | _ => True

instance (c : ConnectionContext) (label : Label) : Decidable (QueuedInOrder c label) :=
  match label with
  | .createQueuesRecords | .apiQueuesRecords _ => inferInstanceAs (Decidable (_ = _))
  | .apiQueuesSubscription _ => inferInstanceAs (Decidable (_ ∧ (_ → _)))
  | .resubscribe _ _ => inferInstanceAs (Decidable (Covered _ _ _))
  | .createQueuesProtocol | .createSent | .lose _ | .cleanupTaskQueue | .clearServerInfo
  | .connect | .reestablishFails | .reestablishQueuesProtocol | .reestablishSent
  | .reestablishQueuesRecords | .reestablished | .receiveDescription _ | .apiLoadsEvents _ _
  | .apiChecks _ | .execute _ _ => inferInstanceAs (Decidable True)

section Tasks

variable {newRecordId : ℕ} {queue before : List Task} {records : List ℕ} {t : Task}
  {sent : List Message} {message : Message}

theorem Describes.append {id : ℕ} (h : Describes sent id) :
    Describes (sent ++ [message]) id := by
  obtain ⟨records, hmem, hid⟩ := h
  exact ⟨records, List.mem_append_left _ hmem, hid⟩

theorem InList.mono {count count' : ℕ} (h : InList count records) (hle : count ≤ count') :
    InList count' records := fun id hid => (h id hid).trans_le hle

theorem Covered.append (h : Covered newRecordId queue records) :
    Covered newRecordId (queue ++ [t]) records := h.imp_left (List.mem_append_left _)

/-- Only the task that describes the records covers them. -/
theorem Covered.tail (h : Covered newRecordId (t :: queue) records)
    (ht : t ≠ .describeRecordsSender) : Covered newRecordId queue records := by
  rcases h with h | h
  · exact .inl ((List.mem_cons.mp h).resolve_left (Ne.symm ht))
  · exact .inr h

/-- The protocol description is sent: the tasks need not wait for it any more. -/
theorem protocolBefore_of_sent (h : .describeProtocol ∈ sent) :
    Admitted (ProtocolBefore sent) queue := fun _ _ _ _ _ => .inl h

theorem protocolBefore_of_between (h : ∀ t ∈ queue, t.followsProtocol = false) :
    Admitted (ProtocolBefore sent) queue := by
  intro before t after hq ht
  exact Bool.noConfusion ((h t (by simp [hq])).symm.trans ht)

theorem recordsBefore_of_between (h : ∀ t ∈ queue, t.followsProtocol = false) :
    Admitted (RecordsBefore newRecordId) queue := by
  rintro before t after hq records rfl
  have hfollows := h (.subscribeSymbolsToEvents records) (by simp [hq])
  exact Bool.noConfusion hfollows

theorem protocolBefore_tail (h : Admitted (ProtocolBefore sent) (t :: queue))
    (ht : t ≠ .describeProtocolSender) : Admitted (ProtocolBefore sent) queue := by
  refine h.tail.mono ?_
  intro before a _ hbefore hfollows
  refine (hbefore hfollows).imp_right ?_
  intro hmem
  exact (List.mem_cons.mp hmem).resolve_left (Ne.symm ht)

theorem recordsBefore_tail (h : Admitted (RecordsBefore newRecordId) (t :: queue))
    (ht : t ≠ .describeRecordsSender) : Admitted (RecordsBefore newRecordId) queue :=
  h.tail.mono fun _ _ _ hbefore records hrecords => (hbefore records hrecords).tail ht

end Tasks

section Steps

variable {c : ConnectionContext}

theorem inOrder_bindToAddress (recordCount : ℕ) : InOrder (bindToAddress recordCount) where
  ordered := admitted_nil
  described _ id hid := by simp [bindToAddress] at hid
  protocolBefore _ := admitted_nil
  protocolQueued _ _ := .inl ⟨rfl, rfl⟩
  recordsBefore _ := admitted_nil
  inList records h := by simp [bindToAddress] at h
  callsInList call h := by simp [bindToAddress] at h
  callsCovered _ _ call h := by simp [bindToAddress] at h
  callsCreated _ := rfl
  between h := Bool.noConfusion h
  cleared h := by simp [bindToAddress] at h

/-- A task is queued behind the ones that it needs. -/
theorem InOrder.addWorkerThreadTask (h : InOrder c) {t : Task}
    (hprotocol : c.socketOpen = true → ProtocolBefore c.sent c.queue t)
    (hrecords : c.socketOpen = true → RecordsBefore c.newRecordId c.queue t)
    (hlist : ∀ records, t = .subscribeSymbolsToEvents records → InList c.recordCount records)
    (hbetween : c.reader.betweenSessions = true → t.followsProtocol = false) :
    InOrder (addWorkerThreadTask c t) where
  ordered := h.ordered
  described := h.described
  protocolBefore ho := admitted_concat.mpr ⟨h.protocolBefore ho, hprotocol ho⟩
  protocolQueued ho hs :=
    (h.protocolQueued ho hs).imp_right fun hp => hp.imp_right (List.mem_append_left _)
  recordsBefore ho := admitted_concat.mpr ⟨h.recordsBefore ho, hrecords ho⟩
  inList records hmem := by
    rcases List.mem_append.mp hmem with hmem | hmem
    · exact h.inList records hmem
    · exact hlist records (List.mem_singleton.mp hmem).symm
  callsInList := h.callsInList
  callsCovered ho hr call hcall hbehind := (h.callsCovered ho hr call hcall hbehind).append
  callsCreated := h.callsCreated
  between hr t' hmem := by
    rcases List.mem_append.mp hmem with hmem | hmem
    · exact h.between hr t' hmem
    · rw [List.mem_singleton.mp hmem]
      exact hbetween hr
  cleared := h.cleared

/-- A task that neither describes the protocol nor the records leaves the queue. -/
theorem InOrder.tail (h : InOrder c) {t : Task} {queue : List Task} (hq : c.queue = t :: queue)
    (hp : t ≠ .describeProtocolSender) (hr : t ≠ .describeRecordsSender) :
    InOrder { c with queue := queue } where
  ordered := h.ordered
  described := h.described
  protocolBefore ho := protocolBefore_tail (hq ▸ h.protocolBefore ho) hp
  protocolQueued ho hs := (h.protocolQueued ho hs).imp_right fun hsent =>
    hsent.imp_right fun hmem => (List.mem_cons.mp (hq ▸ hmem)).resolve_left (Ne.symm hp)
  recordsBefore ho := recordsBefore_tail (hq ▸ h.recordsBefore ho) hr
  inList records hmem := h.inList records (by simp [hq, hmem])
  callsInList := h.callsInList
  callsCovered ho hreader call hcall hbehind :=
    Covered.tail (hq ▸ h.callsCovered ho hreader call hcall hbehind) hr
  callsCreated := h.callsCreated
  between hreader t' hmem := h.between hreader t' (by simp [hq, hmem])
  cleared := h.cleared

/-- The first task cannot do without the protocol description of the session. -/
theorem InOrder.protocol_sent (h : InOrder c) {t : Task} {queue : List Task}
    (hq : c.queue = t :: queue) (ht : t.followsProtocol = true) (ho : c.socketOpen = true) :
    .describeProtocol ∈ c.sent := by
  have hhead := (hq ▸ h.protocolBefore ho).head ht
  simpa using hhead

/-- A task leaves the queue while the socket is closed. -/
theorem InOrder.pop_closed (h : InOrder c) (ho : ¬c.socketOpen = true) {queue : List Task}
    {newRecordId : ℕ} (hsub : ∀ t ∈ queue, t ∈ c.queue)
    (hcleared : c.reader = .serverInfoCleared ∨ c.reader = .connected → newRecordId = 0) :
    InOrder { c with queue := queue, newRecordId := newRecordId } where
  ordered := h.ordered
  described ho' := absurd ho' ho
  protocolBefore ho' := absurd ho' ho
  protocolQueued ho' := absurd ho' ho
  recordsBefore ho' := absurd ho' ho
  inList records hmem := h.inList records (hsub _ hmem)
  callsInList := h.callsInList
  callsCovered ho' := absurd ho' ho
  callsCreated := h.callsCreated
  between hr t ht := h.between hr t (hsub t ht)
  cleared := hcleared

theorem InOrder.executeProtocolSender (h : InOrder c) {queue : List Task}
    (hq : c.queue = .describeProtocolSender :: queue) :
    InOrder (sendData { c with queue := queue } .describeProtocol) := by
  have hsub : ∀ t ∈ queue, t ∈ c.queue := fun t ht => by simp [hq, ht]
  unfold sendData
  split
  case isTrue ho =>
    have hsent : Message.describeProtocol ∈ c.sent ++ [.describeProtocol] := by simp
    exact {
      ordered := admitted_concat.mpr ⟨h.ordered, trivial⟩
      described := fun _ id hid => (h.described ho id hid).append
      protocolBefore := fun _ => protocolBefore_of_sent hsent
      protocolQueued := fun _ _ => .inr (.inl hsent)
      recordsBefore := fun _ => recordsBefore_tail (hq ▸ h.recordsBefore ho) (by simp)
      inList := fun records hmem => h.inList records (hsub _ hmem)
      callsInList := h.callsInList
      callsCovered := fun _ hr call hcall hbehind =>
        Covered.tail (hq ▸ h.callsCovered ho hr call hcall hbehind) (by simp)
      callsCreated := h.callsCreated
      between := fun hr t ht => h.between hr t (hsub t ht)
      cleared := h.cleared }
  case isFalse ho => exact h.pop_closed ho hsub h.cleared

/-- The records from `newRecordId` on are described, and these are all that were not yet. -/
theorem InOrder.executeRecordsSender (h : InOrder c) {queue : List Task}
    (hq : c.queue = .describeRecordsSender :: queue) :
    InOrder (sendData
      { c with queue := queue, newRecordId := max c.newRecordId c.recordCount }
      (.describeRecords (writeEventRecords c))) := by
  have hsub : ∀ t ∈ queue, t ∈ c.queue := fun t ht => by simp [hq, ht]
  have hreader : c.reader.betweenSessions = false := by
    by_contra hr
    exact Bool.noConfusion (h.between (by simpa using hr) .describeRecordsSender (by simp [hq]))
  have hcleared : ¬(c.reader = .serverInfoCleared ∨ c.reader = .connected) := by
    rintro (hr | hr) <;> simp [hr, ReaderPoint.betweenSessions] at hreader
  have hcovers : ∀ records, InList c.recordCount records →
      ∀ queue, Covered (max c.newRecordId c.recordCount) queue records :=
    fun records hlist _ => .inr (hlist.mono (le_max_right _ _))
  unfold sendData
  split
  case isTrue ho =>
    have hsent := h.protocol_sent hq rfl ho
    have hsent' : Message.describeProtocol ∈ c.sent ++ [.describeRecords (writeEventRecords c)] :=
      List.mem_append_left _ hsent
    exact {
      ordered := admitted_concat.mpr ⟨h.ordered, hsent⟩
      described := by
        intro _ id hid
        by_cases hnew : id < c.newRecordId
        · exact (h.described ho id hnew).append
        · have hcount : id < c.recordCount := by
            simpa [hnew] using (lt_max_iff.mp hid)
          refine ⟨writeEventRecords c, by simp, ?_⟩
          simp only [writeEventRecords, List.mem_range'_1]
          omega
      protocolBefore := fun _ => protocolBefore_of_sent hsent'
      protocolQueued := fun _ _ => .inr (.inl hsent')
      recordsBefore := by
        rintro _ before t after hqueue records rfl
        have hmem : Task.subscribeSymbolsToEvents records ∈ queue := by
          rw [show queue = _ from hqueue]
          simp
        exact hcovers records (h.inList records (hsub _ hmem)) before
      inList := fun records hmem => h.inList records (hsub _ hmem)
      callsInList := h.callsInList
      callsCovered := fun _ _ call hcall _ => hcovers _ (h.callsInList call hcall) queue
      callsCreated := h.callsCreated
      between := fun hr => Bool.noConfusion (hreader.symm.trans hr)
      cleared := fun hr => absurd hr hcleared }
  case isFalse ho => exact h.pop_closed ho hsub fun hr => absurd hr hcleared

/-- A subscription is sent when the protocol and its records are described. -/
theorem InOrder.executeSubscription (h : InOrder c) {records : List ℕ} {queue : List Task}
    (hq : c.queue = .subscribeSymbolsToEvents records :: queue) :
    InOrder (sendData { c with queue := queue } (.subscription records)) := by
  have htail := h.tail hq (by simp) (by simp)
  unfold sendData
  split
  case isFalse => exact htail
  case isTrue ho =>
    have hsent := h.protocol_sent hq rfl ho
    have hlist : InList c.newRecordId records := by
      have hcovered := (hq ▸ h.recordsBefore ho).head records rfl
      simpa [Covered] using hcovered
    exact { htail with
      ordered := admitted_concat.mpr
        ⟨h.ordered, hsent, fun id hid => h.described ho id (hlist id hid)⟩
      described := fun _ id hid => (h.described ho id hid).append
      protocolBefore := fun _ => protocolBefore_of_sent (List.mem_append_left _ hsent)
      protocolQueued := fun _ _ => .inr (.inl (List.mem_append_left _ hsent)) }

theorem InOrder.executeHead (h : InOrder c) (timedOut supported : Bool) :
    InOrder (executeHead c timedOut supported).1 := by
  unfold Connection.executeHead
  split
  case h_1 => exact h
  case h_2 queue hq => exact h.executeProtocolSender hq
  case h_3 queue hq =>
      have htail := h.tail hq (by simp) (by simp)
      split
      case h_1 => exact h
      case h_2 => exact h
      case h_3 => exact htail
      case h_4 =>
          split
          · exact { htail with }
          · exact h
  case h_4 queue hq => exact h.executeRecordsSender hq
  case h_5 records queue hq =>
      have htail := h.tail hq (by simp) (by simp)
      split
      case h_1 => exact htail
      case h_2 => exact htail
      all_goals
        split
        · exact h.executeSubscription hq
        · exact htail

/-- `dx_describe_protocol_sent` queues the countdown at most. -/
theorem InOrder.describeProtocolSent (h : InOrder c) : InOrder (describeProtocolSent c).1 := by
  unfold Connection.describeProtocolSent
  split
  case h_3 =>
    have hpending : InOrder { c with status := .pending } := { h with }
    exact hpending.addWorkerThreadTask (fun _ ht => Bool.noConfusion ht)
      (fun _ _ hr => Task.noConfusion hr) (fun _ hr => Task.noConfusion hr) (fun _ => rfl)
  all_goals exact h

theorem between_of_inSession (hs : c.inSession = true) : c.reader.betweenSessions = false := by
  revert hs
  unfold ConnectionContext.inSession
  cases c.reader <;> simp [ReaderPoint.betweenSessions]

theorem not_inSession_of_idle (hr : c.reader = .idle) (ho : c.socketOpen = true) :
    ¬c.inSession = true := by
  simp [ConnectionContext.inSession, hr, ho]

/-- In a session the protocol description is sent or queued, once the connection is created. -/
theorem InOrder.protocol_queued (h : InOrder c) (ho : c.socketOpen = true)
    (hs : c.inSession = true) (hc : c.creator ≠ .bound ∨ c.reader ≠ .reading) :
    .describeProtocol ∈ c.sent ∨ .describeProtocolSender ∈ c.queue := by
  rcases h.protocolQueued ho hs with hbound | hqueued
  · rcases hc with hc | hc
    · exact absurd hbound.1 hc
    · exact absurd hbound.2 hc
  · exact hqueued

theorem InOrder.addRecordsSender (h : InOrder c) (hs : c.inSession = true)
    (hc : c.creator ≠ .bound ∨ c.reader ≠ .reading) :
    InOrder (Connection.addWorkerThreadTask c .describeRecordsSender) := by
  refine h.addWorkerThreadTask (fun ho _ => h.protocol_queued ho hs hc)
    (fun _ _ hr => Task.noConfusion hr) (fun _ hr => Task.noConfusion hr) ?_
  intro hb
  exact Bool.noConfusion ((between_of_inSession hs).symm.trans hb)

theorem InOrder.addSubscription (h : InOrder c) {records : List ℕ} (hs : c.inSession = true)
    (hc : c.creator ≠ .bound ∨ c.reader ≠ .reading)
    (hcovered : c.socketOpen = true → Covered c.newRecordId c.queue records)
    (hlist : InList c.recordCount records) :
    InOrder (Connection.addWorkerThreadTask c (.subscribeSymbolsToEvents records)) := by
  refine h.addWorkerThreadTask (fun ho _ => h.protocol_queued ho hs hc) ?_ ?_ ?_
  · intro ho records' hr
    obtain rfl : records = records' := by simpa using hr
    exact hcovered ho
  · intro records' hr
    obtain rfl : records = records' := by simpa using hr
    exact hlist
  · intro hb
    exact Bool.noConfusion ((between_of_inSession hs).symm.trans hb)

theorem InOrder.addProtocolSender (h : InOrder c) :
    InOrder (Connection.addWorkerThreadTask c .describeProtocolSender) :=
  h.addWorkerThreadTask (fun _ ht => Bool.noConfusion ht)
    (fun _ _ hr => Task.noConfusion hr) (fun _ hr => Task.noConfusion hr) (fun _ => rfl)

/-- The reader gets to a point of a session, or it is idle. -/
theorem InOrder.moveReader (h : InOrder c) {reader : ReaderPoint}
    (hb : reader.betweenSessions = false)
    (hp : c.socketOpen = true → reader ≠ .idle →
      .describeProtocol ∈ c.sent ∨ .describeProtocolSender ∈ c.queue)
    (hr : c.socketOpen = true → reader.recordsAreQueued = true →
      ∀ call ∈ c.calls, call.behindRecords = true →
        Covered c.newRecordId c.queue call.records) :
    InOrder { c with reader := reader } where
  ordered := h.ordered
  described := h.described
  protocolBefore := h.protocolBefore
  protocolQueued ho hs := by
    refine .inr (hp ho ?_)
    intro hidle
    exact absurd hs (not_inSession_of_idle hidle ho)
  recordsBefore := h.recordsBefore
  inList := h.inList
  callsInList := h.callsInList
  callsCovered := hr
  callsCreated := h.callsCreated
  between hb' := Bool.noConfusion (hb.symm.trans hb')
  cleared := by rintro (rfl | rfl) <;> exact Bool.noConfusion hb

/-- The creating thread gets to its next point. -/
theorem InOrder.moveCreator (h : InOrder c) {creator : CreatorPoint} (hc : creator ≠ .bound)
    (hp : c.creator = .bound → .describeProtocolSender ∈ c.queue) :
    InOrder { c with creator := creator } :=
  { h with
    protocolQueued := by
      intro ho hs
      rcases h.protocolQueued ho hs with hbound | hqueued
      · exact .inr (.inr (hp hbound.1))
      · exact .inr hqueued
    callsCreated := fun hbound => absurd hbound hc }

theorem InOrder.lose (h : InOrder c) (closed loginRequired : Bool) :
    InOrder { c with
      reader := .idle
      socketOpen := c.socketOpen && !closed
      loginRequired := loginRequired } where
  ordered := h.ordered
  described ho := h.described (Bool.and_eq_true_iff.mp ho).1
  protocolBefore ho := h.protocolBefore (Bool.and_eq_true_iff.mp ho).1
  protocolQueued ho hs := absurd hs (not_inSession_of_idle rfl ho)
  recordsBefore ho := h.recordsBefore (Bool.and_eq_true_iff.mp ho).1
  inList := h.inList
  callsInList := h.callsInList
  callsCovered _ hr := Bool.noConfusion hr
  callsCreated := h.callsCreated
  between hb := Bool.noConfusion hb
  cleared hr := by simp at hr

theorem InOrder.cleanupTaskQueue (h : InOrder c) :
    InOrder { c with reader := .queueCleaned, queue := [] } where
  ordered := h.ordered
  described := h.described
  protocolBefore _ := admitted_nil
  protocolQueued _ hs := Bool.noConfusion hs
  recordsBefore _ := admitted_nil
  inList records hmem := by simp at hmem
  callsInList := h.callsInList
  callsCovered _ hr := Bool.noConfusion hr
  callsCreated := h.callsCreated
  between _ t ht := by simp at ht
  cleared hr := by simp at hr

theorem InOrder.clearServerInfo (h : InOrder c) (hr : c.reader = .queueCleaned)
    {status : DescribeProtocolStatus} :
    InOrder { c with reader := .serverInfoCleared, status := status, newRecordId := 0 } :=
  have hbetween := h.between (by rw [hr]; rfl)
  { ordered := h.ordered
    described := fun _ id hid => absurd hid (Nat.not_lt_zero id)
    protocolBefore := h.protocolBefore
    protocolQueued := fun _ hs => Bool.noConfusion hs
    recordsBefore := fun _ => recordsBefore_of_between hbetween
    inList := h.inList
    callsInList := h.callsInList
    callsCovered := fun _ hr' => Bool.noConfusion hr'
    callsCreated := h.callsCreated
    between := fun _ => hbetween
    cleared := fun _ => rfl }

/-- A new session: nothing is described, and nothing is queued that would have to be behind. -/
theorem InOrder.connect (h : InOrder c) (hr : c.reader = .serverInfoCleared) :
    InOrder { c with reader := .connected, socketOpen := true, sent := [] } :=
  have hbetween := h.between (by rw [hr]; rfl)
  have hid : c.newRecordId = 0 := h.cleared (.inl hr)
  { ordered := admitted_nil
    described := fun _ id hlt => absurd (hid ▸ hlt) (Nat.not_lt_zero id)
    protocolBefore := fun _ => protocolBefore_of_between hbetween
    protocolQueued := fun _ hs => Bool.noConfusion hs
    recordsBefore := fun _ => recordsBefore_of_between hbetween
    inList := h.inList
    callsInList := h.callsInList
    callsCovered := fun _ hr' => Bool.noConfusion hr'
    callsCreated := h.callsCreated
    between := fun _ => hbetween
    cleared := fun _ => hid }

theorem InOrder.addRecords (h : InOrder c) (newRecords : ℕ) :
    InOrder { c with recordCount := c.recordCount + newRecords } :=
  { h with
    inList := fun records hmem => (h.inList records hmem).mono (Nat.le_add_right _ _)
    callsInList := fun call hcall => (h.callsInList call hcall).mono (Nat.le_add_right _ _) }

theorem InOrder.resubscribe (h : InOrder c) (hr : c.reader = .recordsQueued) {newRecords : ℕ}
    {records : List ℕ} (hlist : InList (c.recordCount + newRecords) records)
    (hcovered : Covered c.newRecordId c.queue records) :
    InOrder (resubscribe c newRecords records) := by
  have hadded := h.addRecords newRecords
  simp only [Connection.resubscribe]
  split
  · exact hadded
  · exact hadded.addSubscription (by simp [ConnectionContext.inSession, hr])
      (.inr (by simp [hr])) (fun _ => hcovered) hlist

/-- A call gets to its next point, where it still has the records of one of the calls. -/
theorem InOrder.moveCalls (h : InOrder c) {calls : List ApiCall} (hc : c.creator ≠ .bound)
    (hlist : ∀ call ∈ calls, InList c.recordCount call.records)
    (hcovered : c.socketOpen = true → c.reader.recordsAreQueued = true →
      ∀ call ∈ calls, call.behindRecords = true →
        Covered c.newRecordId c.queue call.records) :
    InOrder { c with calls := calls } :=
  { h with
    callsInList := hlist
    callsCovered := hcovered
    callsCreated := fun hbound => absurd hbound hc }

theorem InOrder.creator_of_call (h : InOrder c) {i : ℕ} {call : ApiCall}
    (hi : c.calls[i]? = some call) : c.creator ≠ .bound := by
  intro hc
  simp [h.callsCreated hc] at hi

theorem InOrder.moveCall (h : InOrder c) {i : ℕ} {call call' : ApiCall}
    (hi : c.calls[i]? = some call) (hrecords : call'.records = call.records)
    (hcovered : call'.behindRecords = true → c.socketOpen = true →
      c.reader.recordsAreQueued = true → Covered c.newRecordId c.queue call.records) :
    InOrder { c with calls := c.calls.set i call' } := by
  refine h.moveCalls (h.creator_of_call hi) ?_ ?_
  · intro a ha
    rcases List.mem_or_eq_of_mem_set ha with ha | rfl
    · exact h.callsInList a ha
    · rw [hrecords]
      exact h.callsInList call (List.mem_of_getElem? hi)
  · intro ho hr a ha hbehind
    rcases List.mem_or_eq_of_mem_set ha with ha | rfl
    · exact h.callsCovered ho hr a ha hbehind
    · rw [hrecords]
      exact hcovered hbehind ho hr

theorem InOrder.endCall (h : InOrder c) {i : ℕ} {call : ApiCall}
    (hi : c.calls[i]? = some call) : InOrder { c with calls := c.calls.eraseIdx i } :=
  h.moveCalls (h.creator_of_call hi)
    (fun a ha => h.callsInList a (List.mem_of_mem_eraseIdx ha))
    (fun ho hr a ha => h.callsCovered ho hr a (List.mem_of_mem_eraseIdx ha))

/-- A subscription of a call is covered in every session in which it may be queued. -/
theorem InOrder.covered_of_checked (h : InOrder c) {i : ℕ} {records : List ℕ}
    (hlabel : QueuedInOrder c (.apiQueuesSubscription i))
    (hi : c.calls[i]? = some (.checked records)) (ho : c.socketOpen = true) :
    Covered c.newRecordId c.queue records := by
  obtain ⟨hs, hcovered⟩ := hlabel
  have hmem : ApiCall.checked records ∈ c.calls := List.mem_of_getElem? hi
  cases hr : c.reader with
  | reading | recordsQueued =>
      exact h.callsCovered ho (by rw [hr]; rfl) _ hmem rfl
  | protocolQueued => exact hcovered (.inl hr) _ hi
  | protocolSent => exact hcovered (.inr hr) _ hi
  | idle => exact absurd hs (not_inSession_of_idle hr ho)
  | queueCleaned | serverInfoCleared | connected =>
      simp [ConnectionContext.inSession, hr] at hs

/-- A step that may be taken keeps the invariant. -/
theorem InOrder.step (h : InOrder c) {label : Label} (hlabel : QueuedInOrder c label) :
    InOrder (step c label).1 := by
  cases label <;> simp only [Connection.step]
  case createQueuesProtocol =>
    split
    case isFalse => exact h
    case isTrue hc =>
      exact h.addProtocolSender.moveCreator (by simp)
        (fun _ => by simp [Connection.addWorkerThreadTask])
  case createSent =>
    split
    case isFalse => exact h
    case isTrue hc =>
      refine h.describeProtocolSent.moveCreator (by split <;> simp) ?_
      simp [hc]
  case createQueuesRecords =>
    split
    case isFalse => exact h
    case isTrue hc =>
      refine (h.addRecordsSender hlabel (.inl (by simp [hc]))).moveCreator (by simp) ?_
      simp [Connection.addWorkerThreadTask, hc]
  case lose closed =>
    split
    case isFalse => exact h
    case isTrue => exact h.lose closed _
  case cleanupTaskQueue =>
    split
    case isFalse => exact h
    case isTrue => exact h.cleanupTaskQueue
  case clearServerInfo =>
    split
    case isFalse => exact h
    case isTrue hr => exact h.clearServerInfo hr.1
  case connect =>
    split
    case isFalse => exact h
    case isTrue hr => exact h.connect hr
  case reestablishFails =>
    split
    case isFalse => exact h
    case isTrue => exact h.moveReader rfl (by simp) (fun _ hr => Bool.noConfusion hr)
  case reestablishQueuesProtocol =>
    split
    case isFalse => exact h
    case isTrue =>
      exact h.addProtocolSender.moveReader rfl
        (fun _ _ => .inr (by simp [Connection.addWorkerThreadTask]))
        (fun _ hr => Bool.noConfusion hr)
  case reestablishSent =>
    split
    case isFalse => exact h
    case isTrue hr =>
      refine h.describeProtocolSent.moveReader (by split <;> rfl) (fun ho _ => ?_) ?_
      · have hs : (Connection.describeProtocolSent c).1.inSession = true := by
          simp [ConnectionContext.inSession, hr]
        exact h.describeProtocolSent.protocol_queued ho hs (.inr (by simp [hr]))
      · intro _ hqueued
        revert hqueued
        split <;> exact fun hqueued => Bool.noConfusion hqueued
  case reestablishQueuesRecords =>
    split
    case isFalse => exact h
    case isTrue hr =>
      have hs : c.inSession = true := by simp [ConnectionContext.inSession, hr]
      have hadded := h.addRecordsSender hs (.inr (by simp [hr]))
      exact hadded.moveReader rfl
        (fun ho _ => hadded.protocol_queued ho hs (.inr (by
          simp [Connection.addWorkerThreadTask, hr])))
        (fun _ _ _ _ _ => .inl (by simp [Connection.addWorkerThreadTask]))
  case resubscribe newRecords records =>
    split
    case isFalse => exact h
    case isTrue hr => exact h.resubscribe hr.1 hr.2 hlabel
  case reestablished =>
    split
    case isFalse => exact h
    case isTrue hr =>
      have hs : c.inSession = true := by simp [ConnectionContext.inSession, hr]
      exact h.moveReader rfl (fun ho _ => h.protocol_queued ho hs (.inr (by simp [hr])))
        (fun ho _ => h.callsCovered ho (by rw [hr]; rfl))
  case receiveDescription loginRequired =>
    split
    case isFalse => exact h
    case isTrue => exact { h with }
  case apiLoadsEvents newRecords records =>
    split
    case isFalse => exact h
    case isTrue hc =>
      have hadded := h.addRecords newRecords
      refine hadded.moveCalls (by simp [hc.1]) ?_ ?_
      · intro call hcall
        rcases List.mem_append.mp hcall with hcall | hcall
        · exact hadded.callsInList call hcall
        · rw [List.mem_singleton.mp hcall]
          exact hc.2
      · intro ho hr call hcall hbehind
        rcases List.mem_append.mp hcall with hcall | hcall
        · exact h.callsCovered ho hr call hcall hbehind
        · rw [List.mem_singleton.mp hcall] at hbehind
          exact Bool.noConfusion hbehind
  case apiQueuesRecords i =>
    split
    case h_2 => exact h
    case h_1 hi =>
      have hadded := h.addRecordsSender hlabel (.inl (h.creator_of_call hi))
      exact hadded.moveCall hi rfl
        (fun _ _ _ => .inl (by simp [Connection.addWorkerThreadTask]))
  case apiChecks i =>
    split
    case h_2 => exact h
    case h_1 hi =>
      split
      · exact h.endCall hi
      · exact h.moveCall hi rfl
          (fun _ ho hr => h.callsCovered ho hr _ (List.mem_of_getElem? hi) rfl)
  case apiQueuesSubscription i =>
    split
    case h_2 => exact h
    case h_1 records hi =>
      have hadded := h.addSubscription hlabel.1 (.inl (h.creator_of_call hi))
        (h.covered_of_checked hlabel hi) (h.callsInList _ (List.mem_of_getElem? hi))
      exact hadded.endCall hi
  case execute timedOut supported => exact h.executeHead timedOut supported

end Steps

/-! ### Runs -/

/-- In a run of steps that queue in order, every session is ordered. -/
theorem sessionOrdered_of_queuedInOrder (recordCount : ℕ) (labels : List Label)
    (hlabels : Run.AllSteps QueuedInOrder step (bindToAddress recordCount) labels) :
    SessionOrdered (Run.run step (bindToAddress recordCount) labels).1.sent := by
  have hinv := @Run.run_invariant _ _ _ step QueuedInOrder (bindToAddress recordCount) labels
    (fun c _ => InOrder c) [] (inOrder_bindToAddress recordCount) hlabels
    (fun _ _ _ hc hlabel => hc.step hlabel)
  exact hinv.ordered

/-- A record is subscribed to, the connection is lost, a call queues its record description in front
of the cleanup and its subscription behind the description of the next session, and the connection
is reestablished. -/
def orderedLabels : List Label :=
  [.createQueuesProtocol, .createSent, .createQueuesRecords, .execute false true,
    .receiveDescription false, .execute false true, .execute false true,
    .apiLoadsEvents 0 [0], .apiQueuesRecords 0, .apiChecks 0, .apiQueuesSubscription 0,
    .execute false true, .execute false true, .apiLoadsEvents 1 [1], .lose true,
    .apiQueuesRecords 0, .apiChecks 0, .cleanupTaskQueue, .clearServerInfo, .connect,
    .reestablishQueuesProtocol, .reestablishSent, .reestablishQueuesRecords,
    .resubscribe 0 [0], .apiQueuesSubscription 0, .reestablished, .execute false true,
    .receiveDescription false, .execute false true, .execute false true, .execute false true,
    .execute false true]

theorem sessionOrdered_of_queuedInOrder_reestablished :
    Run.AllSteps QueuedInOrder step (bindToAddress 1) orderedLabels ∧
      SessionOrdered (Run.run step (bindToAddress 1) orderedLabels).1.sent :=
  ⟨by decide, sessionOrdered_of_queuedInOrder 1 orderedLabels (by decide)⟩

/-- A call queues its record description behind the cleanup of the queue: the next session starts
with it. -/
def earlyRecordsLabels : List Label :=
  [.createQueuesProtocol, .createSent, .createQueuesRecords, .execute false true,
    .receiveDescription false, .execute false true, .execute false true,
    .apiLoadsEvents 0 [0], .lose true, .cleanupTaskQueue, .apiQueuesRecords 0,
    .clearServerInfo, .connect, .reestablishQueuesProtocol, .reestablishSent,
    .reestablishQueuesRecords, .reestablished, .execute false true, .execute false true]

theorem not_sessionOrdered_earlyRecords :
    ¬ ∀ (recordCount : ℕ) (labels : List Label),
      SessionOrdered (Run.run step (bindToAddress recordCount) labels).1.sent := by
  intro h
  have hsent : (Run.run step (bindToAddress 1) earlyRecordsLabels).1.sent =
      [] ++ .describeRecords [0] :: [.describeProtocol] := by decide
  have hprotocol : Message.describeProtocol ∈ ([] : List Message) :=
    h 1 earlyRecordsLabels [] (.describeRecords [0]) [.describeProtocol] hsent
  simp at hprotocol

end DxFeed.Connection
