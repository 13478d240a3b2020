import DxFeed.PriceLevelBook.Source
import DxFeed.Snapshot.Removals

/-!
# When price level books and snapshots may call their listeners

`plb_event_listener` and the `event_listener` of a snapshot carry a status from event to event,
in two separately written state machines.

* `Phase`, `Phase.after`: the machine that both implement;
* `Open`, `LeftPending`, `MayNotify`: what its status says about the flags of the events so far;
* `plb_phase`, `snapshot_phase`: the status of either machine is that of the abstract one;
* `publication_points`: the listeners are called at the same events of the same feed.
-/

namespace DxFeed.PublicationPoints

open Run

/-! ### The machine -/

/-- A status other than unknown. -/
inductive Phase
  | begin
  | full
  | pending
  deriving DecidableEq, Repr

/-- The flags have `SNAPSHOT_BEGIN`. -/
def begins (flags : ℕ) : Bool := isFlagSet flags EventFlag.snapshotBegin

/-- The flags have `SNAPSHOT_END` or `SNAPSHOT_SNIP`. -/
def ends (flags : ℕ) : Bool :=
  isFlagSet flags EventFlag.snapshotEnd || isFlagSet flags EventFlag.snapshotSnip

/-- The flags have `TX_PENDING`. -/
def leavesPending (flags : ℕ) : Bool := isFlagSet flags EventFlag.txPending

/-- The phase after an event. -/
def Phase.next (phase : Phase) (flags : ℕ) : Phase :=
  if ends flags = false ∧ (begins flags = true ∨ phase = .begin) then .begin
  else if leavesPending flags then .pending
  else .full

/-- The phase after the events of a feed. -/
def Phase.after (feed : List ℕ) : Phase :=
  feed.foldl Phase.next .full

theorem Phase.after_concat (feed : List ℕ) (flags : ℕ) :
    Phase.after (feed ++ [flags]) = (Phase.after feed).next flags :=
  List.foldl_concat ..

/-- A snapshot of the feed has begun, and no event from that one on ends it. -/
def Open (feed : List ℕ) : Prop :=
  ∃ before flags after, feed = before ++ flags :: after ∧ begins flags = true ∧
    ∀ later ∈ flags :: after, ends later = false

/-- The last event leaves its transaction pending. -/
def LeftPending (feed : List ℕ) : Prop :=
  ∃ flags ∈ feed.getLast?, leavesPending flags = true

/-- All snapshots of the feed have ended, and so has the last transaction. -/
def MayNotify (feed : List ℕ) : Prop :=
  ¬ Open feed ∧ ¬ LeftPending feed

theorem not_open_nil : ¬ Open [] := by
  rintro ⟨before, flags, after, hfeed, -⟩
  simp at hfeed

/-- One more event: it does not end the snapshot, and it begins one or there was one. -/
theorem open_concat {feed : List ℕ} {flags : ℕ} :
    Open (feed ++ [flags]) ↔ ends flags = false ∧ (begins flags = true ∨ Open feed) := by
  constructor
  · rintro ⟨before, first, after, hfeed, hbegins, hends⟩
    induction after using List.reverseRecOn with
    | nil =>
        obtain ⟨rfl, rfl⟩ := List.append_singleton_inj.mp hfeed
        exact ⟨hends _ (List.mem_singleton_self _), Or.inl hbegins⟩
    | append_singleton after last _ =>
        rw [← List.cons_append, ← List.append_assoc] at hfeed
        obtain ⟨rfl, rfl⟩ := List.append_singleton_inj.mp hfeed
        refine ⟨hends _ (by simp), Or.inr ⟨before, first, after, rfl, hbegins, ?_⟩⟩
        intro later hlater
        exact hends later (List.mem_append_left [flags] hlater)
  · rintro ⟨hends, hbegins | ⟨before, first, after, rfl, hbegins, hearlier⟩⟩
    · exact ⟨feed, flags, [], rfl, hbegins, fun later h => by
        obtain rfl := List.mem_singleton.mp h
        exact hends⟩
    · refine ⟨before, first, after ++ [flags], by simp, hbegins, ?_⟩
      intro later hlater
      rcases List.mem_append.mp (show later ∈ (first :: after) ++ [flags] from hlater) with h | h
      · exact hearlier later h
      · obtain rfl := List.mem_singleton.mp h
        exact hends

theorem leftPending_concat {feed : List ℕ} {flags : ℕ} :
    LeftPending (feed ++ [flags]) ↔ leavesPending flags = true := by
  simp [LeftPending]

/-- The phase is `begin` as long as a snapshot of the feed is open. -/
theorem after_eq_begin (feed : List ℕ) : Phase.after feed = .begin ↔ Open feed := by
  induction feed using List.reverseRecOn with
  | nil => exact iff_of_false (by decide) not_open_nil
  | append_singleton feed flags ih =>
      rw [Phase.after_concat, open_concat, ← ih, Phase.next]
      split_ifs with hopen hpending
      · exact iff_of_true rfl hopen
      · exact iff_of_false (by decide) hopen
      · exact iff_of_false (by decide) hopen

/-- The phase is `full` exactly at the points where listeners may be called. -/
theorem after_eq_full (feed : List ℕ) : Phase.after feed = .full ↔ MayNotify feed := by
  rw [MayNotify, ← after_eq_begin]
  induction feed using List.reverseRecOn with
  | nil => simp [Phase.after, LeftPending]
  | append_singleton feed flags _ =>
      rw [leftPending_concat, Phase.after_concat, Phase.next]
      split_ifs with hopen hpending <;> simp_all

/-! ### The price level source -/

section Plb

open PriceLevelBook

variable {P S : Type*}

/-- The phase of the status of a price level source. -/
def plbPhase : PlbStatus → Option Phase
  | .unknown => none
  | .begin => some .begin
  | .full => some .full
  | .pending => some .pending

/-- The two copies of the machine start from the same status and make the same steps. -/
theorem plbPhase_next {status : PlbStatus} {phase : Phase} (h : plbPhase status = some phase)
    (flags : ℕ) :
    plbPhase (nextStatus (if begins flags then .begin else status) (ends flags) (leavesPending flags)) =
      some (phase.next flags) := by
  unfold nextStatus Phase.next
  cases begins flags <;> cases ends flags <;> cases leavesPending flags <;> cases status <;>
    cases phase <;> simp_all [plbPhase]

theorem plbPhase_full {status : PlbStatus} {phase : Phase} (h : plbPhase status = some phase) :
    status = .full ↔ phase = .full := by
  cases status <;> cases phase <;> simp_all [plbPhase]

variable {source : PlbSource P S}

/-- The names of a source and its phase after an event of these flags, if any was accepted. -/
structure Follows (source : PlbSource P S) (symbol src : String) (feed : List ℕ) : Prop where
  symbol_eq : source.symbol = symbol
  source_eq : source.source = src
  phase : plbPhase source.snapshotStatus = some (Phase.after feed)

theorem Follows.begun {symbol src : String} {feed : List ℕ} (h : Follows source symbol src feed)
    (flags : ℕ) :
    (source.beginSnapshot flags).symbol = symbol ∧ (source.beginSnapshot flags).source = src ∧
      (source.beginSnapshot flags).snapshotStatus =
        if begins flags then .begin else source.snapshotStatus := by
  unfold PlbSource.beginSnapshot begins
  split_ifs
  · exact ⟨h.symbol_eq, h.source_eq, rfl⟩
  · exact ⟨h.symbol_eq, h.source_eq, rfl⟩

/-- The flags of the events that the source accepts. -/
def plbFeed (source : PlbSource P S) (events : List (OrderEvent P S)) : List ℕ :=
  (events.filter source.accepts).map OrderEvent.flags

theorem follows_create (symbol src : String) :
    Follows (plbSourceCreate symbol src : PlbSource P S) symbol
      (plbSourceCreate symbol src : PlbSource P S).source [] :=
  ⟨rfl, rfl, rfl⟩

theorem Follows.known {symbol src : String} {feed : List ℕ} (h : Follows source symbol src feed)
    (flags : ℕ) : (source.beginSnapshot flags).snapshotStatus ≠ .unknown := by
  rw [(h.begun flags).2.2]
  split_ifs
  · decide
  · intro hunknown
    have hphase := h.phase
    rw [hunknown] at hphase
    cases hphase

variable [LinearOrder P] [Zero P] [AddCommGroup S] [LinearOrder S]

/-- An event in a source that is not unknown. -/
theorem Follows.processEvent {symbol src : String} {feed : List ℕ}
    (h : Follows source symbol src feed) (event : OrderEvent P S) :
    Follows ((source.beginSnapshot event.flags).processEvent event) symbol src
      (feed ++ [event.flags]) := by
  obtain ⟨hsymbol, hsource, hstatus⟩ := h.begun event.flags
  obtain ⟨hsymbol', hsource', hstatus'⟩ :=
    plbSourceProcessOrder_frame (source.beginSnapshot event.flags) event.order event.isRemoval
  refine ⟨hsymbol'.trans hsymbol, hsource'.trans hsource, ?_⟩
  show plbPhase (nextStatus (plbSourceProcessOrder _ _ _).snapshotStatus (ends event.flags)
    (leavesPending event.flags)) = _
  rw [hstatus', hstatus, Phase.after_concat]
  exact plbPhase_next h.phase event.flags

/-- An accepted event: the status moves on, and the consumers are called if the levels were
changed and the status is full. -/
theorem Follows.accepted {symbol src : String} {feed : List ℕ} (h : Follows source symbol src feed)
    {event : OrderEvent P S} (haccepts : source.accepts event = true) :
    Follows (plbEventListener source event).1 symbol src (feed ++ [event.flags]) ∧
      ((plbEventListener source event).2 = true ↔
        MayNotify (feed ++ [event.flags]) ∧
          (((source.beginSnapshot event.flags).processEvent event).asks.updated = true ∨
            ((source.beginSnapshot event.flags).processEvent event).bids.updated = true)) := by
  have hprocessed := h.processEvent event
  have hfull : ((source.beginSnapshot event.flags).processEvent event).snapshotStatus = .full ↔
      MayNotify (feed ++ [event.flags]) :=
    (plbPhase_full hprocessed.phase).trans (after_eq_full _)
  have hstep := plbEventListener_step source event
  generalize plbEventListener source event = result at hstep ⊢
  cases hstep with
  | rejected hrejects => simp [haccepts] at hrejects
  | skipped _ hstatus => exact absurd hstatus (h.known event.flags)
  | stored _ _ hpending =>
      refine ⟨hprocessed, iff_of_false Bool.false_ne_true ?_⟩
      rintro ⟨hmay, hupdated⟩
      exact hpending ⟨hupdated, hfull.mpr hmay⟩
  | published _ _ hcomplete =>
      exact ⟨⟨hprocessed.symbol_eq, hprocessed.source_eq, hprocessed.phase⟩,
        iff_of_true rfl ⟨hfull.mp hcomplete.2, hcomplete.1⟩⟩

/-- After every run the status is the phase of the events that were accepted. -/
theorem plb_phase (symbol src : String) (events : List (OrderEvent P S)) :
    Follows (runListener (plbSourceCreate symbol src) events) symbol
      (plbSourceCreate symbol src : PlbSource P S).source
      (plbFeed (plbSourceCreate symbol src) events) := by
  induction events using List.reverseRecOn with
  | nil => exact follows_create symbol src
  | append_singleton events event ih =>
      have hrun : runListener (plbSourceCreate symbol src) (events ++ [event]) =
          (plbEventListener (runListener (plbSourceCreate symbol src) events) event).1 :=
        List.foldl_concat ..
      have haccepts : (runListener (plbSourceCreate symbol src) events).accepts event =
          (plbSourceCreate symbol src).accepts event := by
        unfold PlbSource.accepts
        rw [ih.symbol_eq, ih.source_eq]
        rfl
      rw [hrun]
      cases hevent : (plbSourceCreate symbol src).accepts event with
      | true =>
          have hfeed : plbFeed (plbSourceCreate symbol src) (events ++ [event]) =
              plbFeed (plbSourceCreate symbol src) events ++ [event.flags] := by
            simp [plbFeed, hevent]
          rw [hfeed]
          exact (ih.accepted (haccepts.trans hevent)).1
      | false =>
          have hfeed : plbFeed (plbSourceCreate symbol src) (events ++ [event]) =
              plbFeed (plbSourceCreate symbol src) events := by
            simp [plbFeed, hevent]
          have hsame : plbEventListener (runListener (plbSourceCreate symbol src) events) event =
              (runListener (plbSourceCreate symbol src) events, false) := by
            unfold plbEventListener
            rw [haccepts, hevent]
            rfl
          rw [hfeed, hsame]
          exact ih

end Plb

/-! ### The snapshot -/

section Snapshots

open Snapshot

variable {S D : Type} {s : SnapshotData S D}

/-- The phase of the status of a snapshot. -/
def snapshotPhase : Snapshot.Status → Option Phase
  | .unknown => none
  | .begin => some .begin
  | .full => some .full
  | .pending => some .pending

theorem snapshotPhase_next {status : Snapshot.Status} {phase : Phase}
    (h : snapshotPhase status = some phase) (event : Event S D) :
    snapshotPhase (Snapshot.nextStatus event (if isBegin event then .begin else status)) =
      some (phase.next event.params.flags) := by
  have hends : isEnd event = ends event.params.flags := rfl
  have hbegins : isBegin event = begins event.params.flags := rfl
  have hpending : isPending event = leavesPending event.params.flags := rfl
  unfold Snapshot.nextStatus Phase.next
  rw [hends, hbegins, hpending]
  cases begins event.params.flags <;> cases ends event.params.flags <;>
    cases leavesPending event.params.flags <;> cases status <;> cases phase <;>
    simp_all [snapshotPhase]

theorem snapshotPhase_full {status : Snapshot.Status} {phase : Phase}
    (h : snapshotPhase status = some phase) : status = .full ↔ phase = .full := by
  cases status <;> cases phase <;> simp_all [snapshotPhase]

/-- The status of the snapshot before its listeners are called. -/
theorem beginSnapshot_status (s : SnapshotData S D) (event : Event S D) :
    (Snapshot.beginSnapshot s event).status = (if isBegin event then .begin else s.status) ∧
      (Snapshot.beginSnapshot s event).listeners = s.listeners := by
  unfold Snapshot.beginSnapshot
  split_ifs <;> exact ⟨rfl, rfl⟩

variable [Zero S] [DecidableEq S]

/-- A matching event: the status moves on, and all listeners are called if it is full. -/
theorem snapshot_matching {feed : List ℕ} (h : snapshotPhase s.status = some (Phase.after feed))
    {event : Event S D} (hmatches : isSnapshotEvent s event = true) :
    snapshotPhase (eventListener s event).1.status =
        some (Phase.after (feed ++ [event.params.flags])) ∧
      (MayNotify (feed ++ [event.params.flags]) →
        (eventListener s event).2.map Delivery.listener =
          s.listeners.map ListenerContext.listener) ∧
      (¬ MayNotify (feed ++ [event.params.flags]) → (eventListener s event).2 = []) := by
  obtain ⟨hstatus, hlisteners⟩ := beginSnapshot_status s event
  have hnext := snapshotPhase_next h event
  rw [← Phase.after_concat] at hnext
  have hknown : (Snapshot.beginSnapshot s event).status ≠ .unknown := by
    intro hunknown
    rw [← hstatus, hunknown] at hnext
    have hbegin : isBegin event = false := by
      by_contra hbegin
      rw [hstatus, if_pos (by simpa using hbegin)] at hunknown
      cases hunknown
    rw [hstatus, if_neg (by simp [hbegin])] at hunknown
    rw [hunknown] at h
    cases h
  have hlistener : eventListener s event = endTransaction
      { Snapshot.processEvent (Snapshot.beginSnapshot s event) event with
        status := Snapshot.nextStatus event (Snapshot.beginSnapshot s event).status } := by
    unfold eventListener
    rw [if_pos hmatches]
    exact if_neg hknown
  rw [← hstatus] at hnext
  have hfull : Snapshot.nextStatus event (Snapshot.beginSnapshot s event).status = .full ↔
      MayNotify (feed ++ [event.params.flags]) :=
    (snapshotPhase_full hnext).trans (after_eq_full _)
  rw [hlistener]
  refine ⟨?_, ?_, ?_⟩
  · rw [(endTransaction_snapshot _).2.2.2]
    exact hnext
  · intro hmay
    have hcalled : ∀ t : SnapshotData S D, t.status = .full →
        (endTransaction t).2.map Delivery.listener =
          t.listeners.map ListenerContext.listener := by
      intro t ht
      unfold endTransaction
      rw [if_pos ht]
      exact List.map_map
    refine (hcalled _ (hfull.mpr hmay)).trans ?_
    exact congrArg (List.map ListenerContext.listener) hlisteners
  · intro hmay
    exact congrArg Prod.snd (if_neg fun hstatus' => hmay (hfull.mp hstatus'))

/-- The flags of the events of a run that match the key. -/
def snapshotFeed (key : ℕ) (actions : List (Action S D)) : List ℕ :=
  (matchingEvents key actions).map fun event => event.params.flags

/-- After every run the status is the phase of the events that match the key. -/
theorem snapshot_phase (key : ℕ) (kind : SnapshotKind) (eventType : ℕ) (symbol : WString)
    (actions : List (Action S D)) :
    snapshotPhase (run step (createSnapshot key kind eventType symbol) actions).1.status =
      some (Phase.after (snapshotFeed key actions)) := by
  induction actions using List.reverseRecOn with
  | nil => rfl
  | append_singleton actions action ih =>
      have hkey := (run_stores key kind eventType symbol actions).2.2
      rw [run_concat]
      show snapshotPhase (act _ action).1.status = _
      unfold snapshotFeed at ih ⊢
      rw [matchingEvents_concat, List.map_append]
      by_cases hevent : ∃ event, action = .event event
      · obtain ⟨event, rfl⟩ := hevent
        by_cases hmatches : event.params.snapshotKey = key
        · have hone : matchingEvents key [.event event] = [event] := by
            simp [matchingEvents, hmatches]
          rw [hone]
          exact (snapshot_matching ih (decide_eq_true (hkey.trans hmatches.symm))).1
        · have hone : matchingEvents key [.event event] = [] := by
            simp [matchingEvents, hmatches]
          have hother : eventListener (run step (createSnapshot key kind eventType symbol)
              actions).1 event = (_, []) :=
            eventListener_of_other fun h => hmatches ((of_decide_eq_true h).symm.trans hkey)
          rw [hone, List.map_nil, List.append_nil]
          show snapshotPhase (eventListener _ event).1.status = _
          rw [hother]
          exact ih
      · have hother : ∀ event, action ≠ .event event := fun event heq => hevent ⟨event, heq⟩
        have hone : matchingEvents key [action] = [] := by
          cases action with
          | event event => exact absurd rfl (hother event)
          | _ => rfl
        rw [(act_of_listeners hother).2.2.2, hone, List.map_nil, List.append_nil]
        exact ih

end Snapshots

/-! ### Both machines -/

/-- A price level source and a snapshot that are given the same feed are in the same status after
each event.  Both may call their listeners exactly if all snapshots of the feed have ended and the
event does not leave a transaction pending: then the snapshot calls all its listeners, and the
source its consumers if one of its sides was changed. -/
theorem publication_points {P S T D : Type} [LinearOrder P] [Zero P] [AddCommGroup S]
    [LinearOrder S] [Zero T] [DecidableEq T] (symbol src : String) (key : ℕ)
    (kind : Snapshot.SnapshotKind) (eventType : ℕ) (snapshotSymbol : WString)
    (orders : List (PriceLevelBook.OrderEvent P S)) (order : PriceLevelBook.OrderEvent P S)
    (actions : List (Snapshot.Action T D)) (event : Snapshot.Event T D)
    (hfeed : plbFeed (PriceLevelBook.plbSourceCreate symbol src) orders = snapshotFeed key actions)
    (haccepts : (PriceLevelBook.plbSourceCreate symbol src).accepts order = true)
    (hmatches : event.params.snapshotKey = key) (hflags : order.flags = event.params.flags) :
    let feed := snapshotFeed key actions ++ [event.params.flags]
    let source := PriceLevelBook.runListener (PriceLevelBook.plbSourceCreate symbol src) orders
    let updated := (source.beginSnapshot order.flags).processEvent order
    let snapshot := (run Snapshot.step
      (Snapshot.createSnapshot key kind eventType snapshotSymbol) actions).1
    let plb := PriceLevelBook.plbEventListener source order
    let shot := Snapshot.eventListener snapshot event
    plbPhase plb.1.snapshotStatus = snapshotPhase shot.1.status ∧
      (plb.1.snapshotStatus = .full ↔ MayNotify feed) ∧
      (shot.1.status = .full ↔ MayNotify feed) ∧
      (plb.2 = true ↔
        MayNotify feed ∧ (updated.asks.updated = true ∨ updated.bids.updated = true)) ∧
      (MayNotify feed → shot.2.map Snapshot.Delivery.listener =
        snapshot.listeners.map Snapshot.ListenerContext.listener) ∧
      (¬ MayNotify feed → shot.2 = []) := by
  dsimp only
  have hfollows := plb_phase symbol src orders
  have haccepts' : (PriceLevelBook.runListener (PriceLevelBook.plbSourceCreate symbol src)
      orders).accepts order = true := by
    unfold PriceLevelBook.PlbSource.accepts at haccepts ⊢
    rw [hfollows.symbol_eq, hfollows.source_eq]
    exact haccepts
  obtain ⟨hplb, hcalls⟩ := hfollows.accepted haccepts'
  have hkey := (Snapshot.run_stores key kind eventType snapshotSymbol actions).2.2
  obtain ⟨hshot, hall, hnone⟩ := snapshot_matching
    (snapshot_phase key kind eventType snapshotSymbol actions)
    (decide_eq_true (hkey.trans hmatches.symm))
  rw [hfeed, hflags] at hcalls
  have hplbPhase := hplb.phase
  rw [hfeed, hflags] at hplbPhase
  exact ⟨hplbPhase.trans hshot.symm, (plbPhase_full hplbPhase).trans (after_eq_full _),
    (snapshotPhase_full hshot).trans (after_eq_full _), by rw [hflags]; exact hcalls, hall, hnone⟩

/-- The second event of this feed ends a snapshot that the first one began. -/
def sampleOrder (flags : ℕ) : PriceLevelBook.OrderEvent ℤ ℤ :=
  ⟨EventId.order.bitMask, "IBM", ⟨"NTV", 0, 0, 100, 5, .buy⟩, flags⟩

/-- The same event for a snapshot. -/
def sampleEvent (flags : ℕ) : Snapshot.Event ℤ Unit :=
  ⟨⟨flags, 0, 5, [], ()⟩, ⟨flags, 0, 3⟩⟩

/-- The source and the snapshot are full again after the end of the snapshot. -/
theorem publication_points_sample :
    let source := PriceLevelBook.runListener (PriceLevelBook.plbSourceCreate "IBM" "NTV")
      [sampleOrder EventFlag.snapshotBegin]
    let snapshot := (run Snapshot.step
      (Snapshot.createSnapshot 3 ⟨.order, .order, rfl⟩ EventId.order.bitMask [65])
      [.event (sampleEvent EventFlag.snapshotBegin)]).1
    let plb := PriceLevelBook.plbEventListener source (sampleOrder EventFlag.snapshotEnd)
    let shot := Snapshot.eventListener snapshot (sampleEvent EventFlag.snapshotEnd)
    plbPhase plb.1.snapshotStatus = snapshotPhase shot.1.status ∧
      (shot.1.status = .full ↔ MayNotify [EventFlag.snapshotBegin, EventFlag.snapshotEnd]) := by
  obtain ⟨hsame, -, hfull, -⟩ := publication_points "IBM" "NTV" 3 ⟨.order, .order, rfl⟩
    EventId.order.bitMask [65] [sampleOrder EventFlag.snapshotBegin]
    (sampleOrder EventFlag.snapshotEnd) [.event (sampleEvent EventFlag.snapshotBegin)]
    (sampleEvent EventFlag.snapshotEnd) (by decide) (by decide) rfl rfl
  exact ⟨hsame, hfull⟩

end DxFeed.PublicationPoints
