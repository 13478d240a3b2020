import DxFeed.Connection.Tasks

/-!
# The describe-protocol status and its countdown

The branches of `dx_describe_protocol_timeout_countdown_task`, `dx_describe_protocol_sent` and of a
subscription task that are marked as ones that must never be taken.

* `Timed`: the order of the countdown and the subscriptions in the queue, and the status;
* `InTime`: the invariant of the connection;
* `DescribedInTime`: the steps that keep it;
* `noMarkedBranch_of_describedInTime`: a run of such steps takes no marked branch, and the status
  is pending only while the countdown is queued.

A login that is required after the countdown has left the queue makes the status pending again, and
nothing counts any more.
-/

namespace DxFeed.Connection

/-! ### The queue -/

/-- The tasks that look at the status. -/
def Task.readsStatus : Task → Bool
  | .describeProtocolTimeoutCountdown => true
  | .subscribeSymbolsToEvents _ => true
  | _ => false

/-- No task of the queue looks at the status. -/
def Quiet (queue : List Task) : Prop := ∀ t ∈ queue, t.readsStatus = false

/-- No task that looks at the status is in front of a countdown, and there is one while the status
is pending. -/
structure Timed (status : DescribeProtocolStatus) (queue : List Task) : Prop where
  countdownFirst :
    queue.Pairwise fun a b => b = .describeProtocolTimeoutCountdown → a.readsStatus = false
  pending : status = .pending → .describeProtocolTimeoutCountdown ∈ queue
  counting : .describeProtocolTimeoutCountdown ∈ queue → status = .pending ∨ status = .received

section Queue

variable {status : DescribeProtocolStatus} {t : Task} {queue : List Task}

theorem quiet_nil : Quiet [] := by simp [Quiet]

theorem quiet_append : Quiet (queue ++ [t]) ↔ Quiet queue ∧ t.readsStatus = false := by
  simp [Quiet, or_imp, forall_and]

theorem Quiet.tail (h : Quiet (t :: queue)) : Quiet queue := fun a ha => h a (.tail _ ha)

theorem Quiet.head (h : Quiet (t :: queue)) : t.readsStatus = false := h t (.head _)

theorem Quiet.countdown_notMem (h : Quiet queue) :
    .describeProtocolTimeoutCountdown ∉ queue := by
  intro hmem
  exact Bool.noConfusion (h _ hmem)

theorem Quiet.timed (h : Quiet queue) (hs : status ≠ .pending) : Timed status queue where
  countdownFirst := by
    rw [List.pairwise_iff_forall_sublist]
    intro a b hab _
    exact h a (hab.subset (.head _))
  pending hp := absurd hp hs
  counting hc := absurd hc h.countdown_notMem

/-- The countdown starts behind tasks that do not look at the status. -/
theorem Quiet.timed_countdown (h : Quiet queue) :
    Timed .pending (queue ++ [.describeProtocolTimeoutCountdown]) where
  countdownFirst := by
    rw [List.pairwise_append]
    have htimed : Timed .notSent queue := h.timed (by decide)
    refine ⟨htimed.countdownFirst, by simp, ?_⟩
    intro a ha b _ _
    exact h a ha
  pending _ := by simp
  counting _ := .inl rfl

theorem Timed.append (h : Timed status queue) (ht : t ≠ .describeProtocolTimeoutCountdown) :
    Timed status (queue ++ [t]) where
  countdownFirst := by
    rw [List.pairwise_append]
    refine ⟨h.countdownFirst, by simp, ?_⟩
    intro a _ b hb hcountdown
    exact absurd ((List.mem_singleton.mp hb).symm.trans hcountdown) ht
  pending hp := List.mem_append_left _ (h.pending hp)
  counting hc := by
    rcases List.mem_append.mp hc with hc | hc
    · exact h.counting hc
    · exact absurd (List.mem_singleton.mp hc).symm ht

theorem Timed.tail (h : Timed status (t :: queue)) (ht : t ≠ .describeProtocolTimeoutCountdown) :
    Timed status queue where
  countdownFirst := h.countdownFirst.of_cons
  pending hp := by
    rcases List.mem_cons.mp (h.pending hp) with hc | hc
    · exact absurd hc.symm ht
    · exact hc
  counting hc := h.counting (.tail _ hc)

/-- There is one countdown at most. -/
theorem Timed.countdown_notMem_tail
    (h : Timed status (.describeProtocolTimeoutCountdown :: queue)) :
    .describeProtocolTimeoutCountdown ∉ queue := by
  intro hc
  exact Bool.noConfusion ((List.pairwise_cons.mp h.countdownFirst).1 _ hc rfl)

/-- The countdown leaves the queue with a status that is not pending. -/
theorem Timed.pop_countdown {status' : DescribeProtocolStatus}
    (h : Timed status (.describeProtocolTimeoutCountdown :: queue)) (hs : status' ≠ .pending) :
    Timed status' queue where
  countdownFirst := h.countdownFirst.of_cons
  pending hp := absurd hp hs
  counting hc := absurd hc h.countdown_notMem_tail

/-- A subscription is the first task only if the status is not pending. -/
theorem Timed.ne_pending_of_subscription {records : List ℕ}
    (h : Timed status (.subscribeSymbolsToEvents records :: queue)) : status ≠ .pending := by
  intro hp
  rcases List.mem_cons.mp (h.pending hp) with hc | hc
  · exact Task.noConfusion hc
  · exact Bool.noConfusion ((List.pairwise_cons.mp h.countdownFirst).1 _ hc rfl)

end Queue

/-! ### The invariant -/

/-- `dx_reestablish_connection` is behind the cleanup of the queue and has not described the
protocol yet. -/
def ReaderPoint.awaitsDescription : ReaderPoint → Bool
  | .queueCleaned | .serverInfoCleared | .connected | .protocolQueued => true
  | _ => false

/-- The server info is cleared, and the protocol not described yet. -/
def ReaderPoint.serverInfoIsCleared : ReaderPoint → Bool
  | .serverInfoCleared | .connected | .protocolQueued => true
  | _ => false

/-- The creating thread has not described the protocol yet. -/
def CreatorPoint.awaitsDescription : CreatorPoint → Bool
  | .bound | .protocolQueued => true
  | _ => false

/-- The invariant of the status and of the tasks that look at it. -/
structure InTime (c : ConnectionContext) : Prop where
  timed : Timed c.status c.queue
  reestablishing : c.reader.awaitsDescription = true → Quiet c.queue ∧ c.loginRequired = false
  cleared : c.reader.serverInfoIsCleared = true → c.status = .notSent
  creating : c.creator.awaitsDescription = true →
    (c.reader = .reading ∨ c.reader = .idle) ∧ (c.status = .notSent ∨ c.status = .received) ∧
      Quiet c.queue ∧ c.calls = []

/-- The steps that keep the invariant: a login is required only while the countdown is queued; the
queue is cleaned while nothing is awaited from the server; and no subscription is queued between
the cleanup and the next description. -/
def DescribedInTime (c : ConnectionContext) : Label → Prop
  | .receiveDescription true => .describeProtocolTimeoutCountdown ∈ c.queue
  | .cleanupTaskQueue =>
      c.status ≠ .pending ∧ c.loginRequired = false ∧ c.creator.awaitsDescription = false
  | .apiQueuesSubscription _ => c.reader.awaitsDescription = false
  | _ => True

instance (c : ConnectionContext) (label : Label) : Decidable (DescribedInTime c label) :=
  match label with
  | .receiveDescription true => inferInstanceAs (Decidable (_ ∈ _))
  | .cleanupTaskQueue => inferInstanceAs (Decidable (_ ∧ _ ∧ _))
  | .apiQueuesSubscription _ => inferInstanceAs (Decidable (_ = _))
  | .receiveDescription false | .createQueuesProtocol | .createSent | .createQueuesRecords
  | .lose _ | .clearServerInfo | .connect | .reestablishFails | .reestablishQueuesProtocol
  | .reestablishSent | .reestablishQueuesRecords | .resubscribe _ _ | .reestablished
  | .apiLoadsEvents _ _ | .apiQueuesRecords _ | .apiChecks _ | .execute _ _ =>
      inferInstanceAs (Decidable True)

section Steps

variable {c : ConnectionContext}

theorem inTime_bindToAddress (recordCount : ℕ) : InTime (bindToAddress recordCount) where
  timed := quiet_nil.timed (by simp [bindToAddress])
  reestablishing h := Bool.noConfusion h
  cleared h := Bool.noConfusion h
  creating _ := ⟨.inl rfl, .inl rfl, quiet_nil, rfl⟩

/-- The sender tasks may be queued at any time. -/
theorem InTime.addWorkerThreadTask (h : InTime c) {t : Task} (ht : t.readsStatus = false) :
    InTime (addWorkerThreadTask c t) where
  timed := h.timed.append (by rintro rfl; exact Bool.noConfusion ht)
  reestablishing hr := ⟨quiet_append.mpr ⟨(h.reestablishing hr).1, ht⟩, (h.reestablishing hr).2⟩
  cleared := h.cleared
  creating hc := by
    obtain ⟨hreader, hstatus, hquiet, hcalls⟩ := h.creating hc
    exact ⟨hreader, hstatus, quiet_append.mpr ⟨hquiet, ht⟩, hcalls⟩

/-- A subscription may be queued when the protocol of the session is described. -/
theorem InTime.addSubscription (h : InTime c) (hr : c.reader.awaitsDescription = false)
    (hc : c.creator.awaitsDescription = false) (records : List ℕ) :
    InTime (Connection.addWorkerThreadTask c (.subscribeSymbolsToEvents records)) where
  timed := h.timed.append (by simp)
  reestablishing hr' := Bool.noConfusion (hr.symm.trans hr')
  cleared := h.cleared
  creating hc' := Bool.noConfusion (hc.symm.trans hc')

theorem InTime.sendData (h : InTime c) (message : Message) : InTime (sendData c message) := by
  unfold Connection.sendData
  split
  · exact { h with }
  · exact h

/-- A task that is not the countdown leaves the queue. -/
theorem InTime.tail (h : InTime c) {t : Task} {queue : List Task} (hq : c.queue = t :: queue)
    (ht : t ≠ .describeProtocolTimeoutCountdown) : InTime { c with queue := queue } where
  timed := (hq ▸ h.timed).tail ht
  reestablishing hr := ⟨(hq ▸ (h.reestablishing hr).1).tail, (h.reestablishing hr).2⟩
  cleared := h.cleared
  creating hc := by
    obtain ⟨hreader, hstatus, hquiet, hcalls⟩ := h.creating hc
    exact ⟨hreader, hstatus, (hq ▸ hquiet).tail, hcalls⟩

/-- The countdown leaves the queue: no thread is in front of a description then. -/
theorem InTime.pop_countdown (h : InTime c) {queue : List Task}
    {status : DescribeProtocolStatus} (hstatus : status ≠ .pending)
    (hq : c.queue = .describeProtocolTimeoutCountdown :: queue) :
    InTime { c with queue := queue, status := status } where
  timed := (hq ▸ h.timed).pop_countdown hstatus
  reestablishing hr := Bool.noConfusion (hq ▸ (h.reestablishing hr).1).head
  cleared hr := by
    have hr' : c.reader.awaitsDescription = true := by
      revert hr
      cases c.reader <;> simp [ReaderPoint.serverInfoIsCleared, ReaderPoint.awaitsDescription]
    exact Bool.noConfusion (hq ▸ (h.reestablishing hr').1).head
  creating hc := Bool.noConfusion (hq ▸ (h.creating hc).2.2.1).head

theorem InTime.executeHead (h : InTime c) (timedOut supported : Bool) :
    InTime (executeHead c timedOut supported).1 ∧
      (Connection.executeHead c timedOut supported).2 = [] := by
  unfold Connection.executeHead
  split
  case h_1 => exact ⟨h, rfl⟩
  case h_2 queue hq => exact ⟨(h.tail hq (by simp)).sendData _, rfl⟩
  case h_3 queue hq =>
      have hcounting := h.timed.counting (by simp [hq])
      split
      case h_1 hs => simp [hs] at hcounting
      case h_2 hs => simp [hs] at hcounting
      case h_3 hs => exact ⟨hs ▸ h.pop_countdown (by simp) hq, rfl⟩
      case h_4 hs =>
          split
          · exact ⟨h.pop_countdown (by simp) hq, rfl⟩
          · exact ⟨h, rfl⟩
  case h_4 queue hq =>
      have htail := h.tail hq (by simp)
      have hdescribed : InTime
          { c with queue := queue, newRecordId := max c.newRecordId c.recordCount } :=
        { htail with }
      exact ⟨hdescribed.sendData _, rfl⟩
  case h_5 records queue hq =>
      have htail := h.tail hq (by simp)
      have hs : c.status ≠ .pending := (hq ▸ h.timed).ne_pending_of_subscription
      split
      case h_1 hp => exact absurd hp hs
      case h_2 => exact ⟨htail, rfl⟩
      all_goals
        split
        · exact ⟨htail.sendData _, rfl⟩
        · exact ⟨htail, rfl⟩

/-- `dx_describe_protocol_sent` behind a queue in which no task looks at the status. -/
theorem describeProtocolSent_of_quiet (hquiet : Quiet c.queue)
    (hs : c.status = .notSent ∨ c.status = .received) :
    (describeProtocolSent c).2 = [] ∧
      Timed (describeProtocolSent c).1.status (describeProtocolSent c).1.queue := by
  rcases hs with hs | hs
  · simp only [describeProtocolSent, hs]
    exact ⟨trivial, hquiet.timed_countdown⟩
  · simp only [describeProtocolSent, hs]
    exact ⟨trivial, hquiet.timed (by simp)⟩

theorem InTime.createSent (h : InTime c) (hc : c.creator = .protocolQueued) :
    (describeProtocolSent c).2 = [] ∧
      InTime { (describeProtocolSent c).1 with creator := .protocolSent } := by
  obtain ⟨hreader, hstatus, hquiet, -⟩ := h.creating (by rw [hc]; rfl)
  obtain ⟨hmarked, htimed⟩ := describeProtocolSent_of_quiet hquiet hstatus
  refine ⟨hmarked, { timed := htimed, reestablishing := ?_, cleared := ?_, creating := ?_ }⟩
  · rcases hreader with hr | hr <;> simp [hr, ReaderPoint.awaitsDescription]
  · rcases hreader with hr | hr <;> simp [hr, ReaderPoint.serverInfoIsCleared]
  · simp [CreatorPoint.awaitsDescription]

theorem InTime.reestablishSent (h : InTime c) (hr : c.reader = .protocolQueued) :
    (describeProtocolSent c).2 = [] ∧
      InTime { (describeProtocolSent c).1 with reader := .protocolSent } := by
  obtain ⟨hquiet, -⟩ := h.reestablishing (by rw [hr]; rfl)
  have hstatus : c.status = .notSent := h.cleared (by rw [hr]; rfl)
  obtain ⟨hmarked, htimed⟩ := describeProtocolSent_of_quiet hquiet (.inl hstatus)
  refine ⟨hmarked, { timed := htimed, reestablishing := ?_, cleared := ?_, creating := ?_ }⟩
  · simp [ReaderPoint.awaitsDescription]
  · simp [ReaderPoint.serverInfoIsCleared]
  · intro hc
    rw [describeProtocolSent_creator] at hc
    simpa [hr] using (h.creating hc).1

/-- A call of the API is made when the connection is created. -/
theorem InTime.creator_of_call (h : InTime c) {i : ℕ} {call : ApiCall}
    (hi : c.calls[i]? = some call) : c.creator.awaitsDescription = false := by
  by_contra hc
  obtain ⟨-, -, -, hcalls⟩ := h.creating (by simpa using hc)
  simp [hcalls] at hi

/-- The reader gets to its subscriptions when the connection is created. -/
theorem InTime.creator_of_reader (h : InTime c) (hr : c.reader ≠ .reading)
    (hi : c.reader ≠ .idle) : c.creator.awaitsDescription = false := by
  by_contra hc
  rcases (h.creating (by simpa using hc)).1 with hreader | hreader
  · exact hr hreader
  · exact hi hreader

theorem InTime.resubscribe (h : InTime c) (hr : c.reader = .recordsQueued) (newRecords : ℕ)
    (records : List ℕ) : InTime (resubscribe c newRecords records) := by
  have hadded : InTime { c with recordCount := c.recordCount + newRecords } := { h with }
  simp only [Connection.resubscribe]
  split
  · exact hadded
  · exact hadded.addSubscription (by simp [hr, ReaderPoint.awaitsDescription])
      (h.creator_of_reader (by simp [hr]) (by simp [hr])) records

/-- The answer of the server.  It makes the status pending only if the countdown is queued. -/
theorem InTime.receiveDescription (h : InTime c) (hr : c.reader = .reading)
    {status : DescribeProtocolStatus} {loginRequired : Bool}
    (hanswer : status = .received ∨
      status = .pending ∧ .describeProtocolTimeoutCountdown ∈ c.queue) :
    InTime { c with status := status, loginRequired := loginRequired } where
  timed :=
    { countdownFirst := h.timed.countdownFirst
      pending := by
        intro hp
        rcases hanswer with hs | hs
        · simp [hs] at hp
        · exact hs.2
      counting := fun _ => hanswer.symm.imp And.left id }
  reestablishing hreader := by simp [hr, ReaderPoint.awaitsDescription] at hreader
  cleared hreader := by simp [hr, ReaderPoint.serverInfoIsCleared] at hreader
  creating hc := by
    obtain ⟨hreader, -, hquiet, hcalls⟩ := h.creating hc
    refine ⟨hreader, ?_, hquiet, hcalls⟩
    rcases hanswer with hs | hs
    · exact .inr hs
    · exact absurd hs.2 hquiet.countdown_notMem

theorem inTime_cleanupTaskQueue (hs : c.status ≠ .pending)
    (hl : c.loginRequired = false) (hc : c.creator.awaitsDescription = false) :
    InTime { c with reader := .queueCleaned, queue := [] } where
  timed := quiet_nil.timed hs
  reestablishing _ := ⟨quiet_nil, hl⟩
  cleared hr := Bool.noConfusion hr
  creating hc' := Bool.noConfusion (hc.symm.trans hc')

/-- The reader gets to a point behind which the protocol is described, or to one of a session. -/
theorem InTime.moveReader (h : InTime c) (hcreator : c.creator.awaitsDescription = false)
    {reader : ReaderPoint}
    (hr : reader.awaitsDescription = true → c.reader.awaitsDescription = true)
    (hs : reader.serverInfoIsCleared = true → c.status = .notSent) :
    InTime { c with reader := reader } where
  timed := h.timed
  reestablishing hreader := h.reestablishing (hr hreader)
  cleared := hs
  creating hc := Bool.noConfusion (hcreator.symm.trans hc)

theorem InTime.clearServerInfo (h : InTime c) (hr : c.reader = .queueCleaned) :
    InTime { c with reader := .serverInfoCleared, status := .notSent, newRecordId := 0 } where
  timed := (h.reestablishing (by rw [hr]; rfl)).1.timed (by simp)
  reestablishing _ := h.reestablishing (by rw [hr]; rfl)
  cleared _ := rfl
  creating hc := by simpa [hr] using (h.creating hc).1

theorem InTime.lose (h : InTime c) (socketOpen loginRequired : Bool) :
    InTime { c with
      reader := .idle
      socketOpen := socketOpen
      loginRequired := loginRequired } where
  timed := h.timed
  reestablishing hreader := Bool.noConfusion hreader
  cleared hreader := Bool.noConfusion hreader
  creating hc := ⟨.inr rfl, (h.creating hc).2⟩

/-- The creator gets to its next point. -/
theorem InTime.moveCreator (h : InTime c) {creator : CreatorPoint}
    (hc : creator.awaitsDescription = true → c.creator.awaitsDescription = true) :
    InTime { c with creator := creator } :=
  { h with creating := fun hcreator => h.creating (hc hcreator) }

/-- A call of the API gets to its next point. -/
theorem InTime.moveCalls (h : InTime c) (hcreator : c.creator.awaitsDescription = false)
    (recordCount : ℕ) (calls : List ApiCall) :
    InTime { c with recordCount := recordCount, calls := calls } :=
  { h with creating := fun hc => Bool.noConfusion (hcreator.symm.trans hc) }

/-- A step that may be taken keeps the invariant, and takes no marked branch. -/
theorem InTime.step (h : InTime c) {label : Label} (hlabel : DescribedInTime c label) :
    InTime (step c label).1 ∧ (Connection.step c label).2 = [] := by
  cases label <;> simp only [Connection.step]
  case createQueuesProtocol =>
    split
    case isFalse => exact ⟨h, rfl⟩
    case isTrue hc =>
      refine ⟨(h.addWorkerThreadTask rfl).moveCreator ?_, rfl⟩
      simp [Connection.addWorkerThreadTask, hc, CreatorPoint.awaitsDescription]
  case createSent =>
    split
    case isFalse => exact ⟨h, rfl⟩
    case isTrue hc =>
      obtain ⟨hmarked, hsent⟩ := h.createSent hc
      rw [hmarked]
      exact ⟨hsent, rfl⟩
  case createQueuesRecords =>
    split
    case isFalse => exact ⟨h, rfl⟩
    case isTrue hc =>
      refine ⟨(h.addWorkerThreadTask rfl).moveCreator ?_, rfl⟩
      simp [CreatorPoint.awaitsDescription]
  case lose closed =>
    split
    case isFalse => exact ⟨h, rfl⟩
    case isTrue hc => exact ⟨h.lose _ _, rfl⟩
  case cleanupTaskQueue =>
    split
    case isFalse => exact ⟨h, rfl⟩
    case isTrue hc => exact ⟨inTime_cleanupTaskQueue hlabel.1 hlabel.2.1 hlabel.2.2, rfl⟩
  case clearServerInfo =>
    split
    case isFalse => exact ⟨h, rfl⟩
    case isTrue hc => exact ⟨h.clearServerInfo hc.1, rfl⟩
  case connect =>
    split
    case isFalse => exact ⟨h, rfl⟩
    case isTrue hr =>
      have hcreator := h.creator_of_reader (by simp [hr]) (by simp [hr])
      have hmoved : InTime { c with reader := .connected } := h.moveReader hcreator
        (fun _ => by rw [hr]; rfl) (fun _ => h.cleared (by rw [hr]; rfl))
      exact ⟨{ hmoved with }, rfl⟩
  case reestablishFails =>
    split
    case isFalse => exact ⟨h, rfl⟩
    case isTrue hr =>
      have hcreator := h.creator_of_reader (by simp [hr]) (by simp [hr])
      exact ⟨h.moveReader hcreator (fun hr' => Bool.noConfusion hr')
        (fun hr' => Bool.noConfusion hr'), rfl⟩
  case reestablishQueuesProtocol =>
    split
    case isFalse => exact ⟨h, rfl⟩
    case isTrue hr =>
      -- the server info is cleared, as no login is required behind the cleanup
      have hconnected : c.reader = .connected := by
        rcases hr with hr | ⟨hr, hlogin⟩
        · exact hr
        · have hnone := (h.reestablishing (by rw [hr]; rfl)).2
          exact Bool.noConfusion (hnone.symm.trans hlogin)
      have hcreator := h.creator_of_reader (by simp [hconnected]) (by simp [hconnected])
      have hadded := h.addWorkerThreadTask (t := .describeProtocolSender) rfl
      refine ⟨hadded.moveReader hcreator (fun _ => ?_) (fun _ => ?_), rfl⟩
      · simp [Connection.addWorkerThreadTask, hconnected, ReaderPoint.awaitsDescription]
      · exact h.cleared (by rw [hconnected]; rfl)
  case reestablishSent =>
    split
    case isFalse => exact ⟨h, rfl⟩
    case isTrue hr =>
      obtain ⟨hmarked, hsent⟩ := h.reestablishSent hr
      rw [hmarked]
      exact ⟨hsent, rfl⟩
  case reestablishQueuesRecords =>
    split
    case isFalse => exact ⟨h, rfl⟩
    case isTrue hr =>
      have hcreator := h.creator_of_reader (by simp [hr]) (by simp [hr])
      have hadded := h.addWorkerThreadTask (t := .describeRecordsSender) rfl
      exact ⟨hadded.moveReader hcreator (fun hr' => Bool.noConfusion hr')
        (fun hr' => Bool.noConfusion hr'), rfl⟩
  case resubscribe newRecords records =>
    split
    case isFalse => exact ⟨h, rfl⟩
    case isTrue hr => exact ⟨h.resubscribe hr.1 newRecords records, rfl⟩
  case reestablished =>
    split
    case isFalse => exact ⟨h, rfl⟩
    case isTrue hr =>
      have hcreator := h.creator_of_reader (by simp [hr]) (by simp [hr])
      exact ⟨h.moveReader hcreator (fun hr' => Bool.noConfusion hr')
        (fun hr' => Bool.noConfusion hr'), rfl⟩
  case receiveDescription loginRequired =>
    split
    case isFalse => exact ⟨h, rfl⟩
    case isTrue hr =>
      refine ⟨h.receiveDescription hr ?_, rfl⟩
      cases loginRequired with
      | false => exact .inl rfl
      | true => exact .inr ⟨rfl, hlabel⟩
  case apiLoadsEvents newRecords records =>
    split
    case isFalse => exact ⟨h, rfl⟩
    case isTrue hc => exact ⟨h.moveCalls (by rw [hc.1]; rfl) _ _, rfl⟩
  case apiQueuesRecords i =>
    split
    case h_2 => exact ⟨h, rfl⟩
    case h_1 hi =>
      have hadded := h.addWorkerThreadTask (t := .describeRecordsSender) rfl
      exact ⟨hadded.moveCalls (h.creator_of_call hi) _ _, rfl⟩
  case apiChecks i =>
    split
    case h_2 => exact ⟨h, rfl⟩
    case h_1 hi =>
      split
      · exact ⟨h.moveCalls (h.creator_of_call hi) _ _, rfl⟩
      · exact ⟨h.moveCalls (h.creator_of_call hi) _ _, rfl⟩
  case apiQueuesSubscription i =>
    split
    case h_2 => exact ⟨h, rfl⟩
    case h_1 records hi =>
      have hadded := h.addSubscription hlabel (h.creator_of_call hi) records
      exact ⟨hadded.moveCalls (h.creator_of_call hi) _ _, rfl⟩
  case execute timedOut supported => exact h.executeHead timedOut supported

end Steps

/-! ### Runs -/

/-- In a run of steps that describe the protocol in time no marked branch is taken, and the status
is pending only while the countdown is queued. -/
theorem noMarkedBranch_of_describedInTime (recordCount : ℕ) (labels : List Label)
    (hlabels : Run.AllSteps DescribedInTime step (bindToAddress recordCount) labels) :
    (Run.run step (bindToAddress recordCount) labels).2 = [] ∧
      ((Run.run step (bindToAddress recordCount) labels).1.status = .pending →
        .describeProtocolTimeoutCountdown ∈
          (Run.run step (bindToAddress recordCount) labels).1.queue) := by
  have hinv := @Run.run_invariant _ _ _ step DescribedInTime (bindToAddress recordCount) labels
    (fun c marked => InTime c ∧ marked = []) [] ⟨inTime_bindToAddress recordCount, rfl⟩ hlabels
    (by
      rintro c label marked ⟨hc, rfl⟩ hlabel
      obtain ⟨hstep, hmarked⟩ := hc.step hlabel
      exact ⟨hstep, by rw [hmarked]; rfl⟩)
  exact ⟨by simpa using hinv.2, hinv.1.timed.pending⟩

/-- A login is required while the countdown is queued, and the server accepts the login.  The
connection is lost and reestablished, and its subscription made again. -/
def reestablishedLabels : List Label :=
  [.createQueuesProtocol, .createSent, .createQueuesRecords, .execute false true,
    .receiveDescription true, .receiveDescription false, .execute false true, .execute false true,
    .apiLoadsEvents 0 [0], .apiQueuesRecords 0, .apiChecks 0, .apiQueuesSubscription 0,
    .execute false true, .execute false true, .lose true, .cleanupTaskQueue, .clearServerInfo,
    .connect, .reestablishQueuesProtocol, .reestablishSent, .reestablishQueuesRecords,
    .resubscribe 0 [0], .reestablished, .execute false true, .receiveDescription false,
    .execute false true, .execute false true, .execute false true]

theorem noMarkedBranch_of_describedInTime_reestablished :
    Run.AllSteps DescribedInTime step (bindToAddress 1) reestablishedLabels ∧
      (Run.run step (bindToAddress 1) reestablishedLabels).2 = [] ∧
      ((Run.run step (bindToAddress 1) reestablishedLabels).1.status = .pending →
        .describeProtocolTimeoutCountdown ∈
          (Run.run step (bindToAddress 1) reestablishedLabels).1.queue) :=
  ⟨by decide, noMarkedBranch_of_describedInTime 1 reestablishedLabels (by decide)⟩

/-- The countdown ends before the server answers, a call queues its subscription, and then the
server answers that a login is required: the status is pending when the subscription is executed,
and no countdown is queued. -/
def lateLoginLabels : List Label :=
  [.createQueuesProtocol, .createSent, .createQueuesRecords, .execute false true,
    .execute true true, .execute false true, .apiLoadsEvents 0 [0], .apiQueuesRecords 0,
    .apiChecks 0, .apiQueuesSubscription 0, .execute false true, .receiveDescription true,
    .execute false true]

theorem markedBranch_lateLogin :
    ¬ ∀ (recordCount : ℕ) (labels : List Label),
      (Run.run step (bindToAddress recordCount) labels).2 = [] ∧
        ((Run.run step (bindToAddress recordCount) labels).1.status = .pending →
          .describeProtocolTimeoutCountdown ∈
            (Run.run step (bindToAddress recordCount) labels).1.queue) := by
  intro h
  have hrun : (Run.run step (bindToAddress 1) lateLoginLabels).2 = [.subscribeSymbolsToEvents] := by
    decide
  simp [(h 1 lateLoginLabels).1] at hrun

end DxFeed.Connection
