import DxFeed.PublicationPoints
import DxFeed.RecordTranscoder

/-!
# Is the snapshot of market maker records complete when it is published?

A record of a snapshot becomes a bid and an ask.  The transcoder takes `SNAPSHOT_END` out of the
flags of the bid, but not `SNAPSHOT_SNIP`, which ends a snapshot as well.

* `FormsSnapshot`: records that form a snapshot;
* `CompletesOnAsk`: the snapshot is open up to the ask of the closing record, and then shows both
  halves of every record;
* `completesOnAsk_iff`: that is so unless the closing record has `SNAPSHOT_SNIP`.
-/

namespace DxFeed.MarketMakerSnapshot

open Run Snapshot RecordTranscoder PublicationPoints

variable {S : Type} [Zero S]

/-- A snapshot of market maker records. -/
def marketMakerKind : SnapshotKind := ⟨.order, .marketMaker, rfl⟩

/-- A market maker record and the parameters of its event. -/
abbrev Record (S : Type) := EventParams × MarketMaker S

/-- The bid of a record. -/
def bid (record : Record S) : Event S (OrderFields S) :=
  transcodeMarketMakerToOrderBid (bidEventParams record.1) record.2

/-- The ask of a record. -/
def ask (record : Record S) : Event S (OrderFields S) :=
  transcodeMarketMakerToOrderAsk (askEventParams record.1) record.2

/-- The events of a list of records. -/
def halves (records : List (Record S)) : List (Event S (OrderFields S)) :=
  records.flatMap fun record => marketMakerTranscoder record.1 record.2

/-- The records form a snapshot: the first one begins it, and the closing one ends it. -/
structure FormsSnapshot (key : ℕ) (front : List (Record S)) (closing : Record S) : Prop where
  matching : ∀ record ∈ front ++ [closing], record.1.snapshotKey = key
  begins : ∃ first ∈ (front ++ [closing]).head?, begins first.1.flags = true
  once : ∀ record ∈ (front ++ [closing]).tail, PublicationPoints.begins record.1.flags = false
  unfinished : ∀ record ∈ front, ends record.1.flags = false
  closes : ends closing.1.flags = true

/-! ### The halves of a record -/

theorem halves_cons (record : Record S) (records : List (Record S)) :
    halves (record :: records) = bid record :: ask record :: halves records := rfl

theorem halves_concat (records : List (Record S)) (record : Record S) :
    halves (records ++ [record]) = halves records ++ [bid record, ask record] := by
  simp [halves, marketMakerTranscoder, bid, ask]

theorem mem_halves {records : List (Record S)} {event : Event S (OrderFields S)} :
    event ∈ halves records ↔ ∃ record ∈ records, event = bid record ∨ event = ask record := by
  simp [halves, marketMakerTranscoder, bid, ask]

theorem bid_flags (record : Record S) :
    (bid record).params.flags = dropFlag record.1.flags (2 ^ 3) := by
  unfold bid transcodeMarketMakerToOrderBid
  rw [transcodeMarketMakerToOrder_params]
  rfl

theorem ask_flags (record : Record S) :
    (ask record).params.flags = dropFlag record.1.flags (2 ^ 2) := by
  unfold ask transcodeMarketMakerToOrderAsk
  rw [transcodeMarketMakerToOrder_params]
  rfl

/-- The bid begins a snapshot if the record does, and it ends it only with `SNAPSHOT_SNIP`. -/
theorem bid_marks (record : Record S) :
    begins (bid record).params.flags = begins record.1.flags ∧
      ends (bid record).params.flags =
        isFlagSet record.1.flags EventFlag.snapshotSnip := by
  rw [bid_flags]
  constructor
  · show isFlagSet _ (2 ^ 2) = isFlagSet _ (2 ^ 2)
    rw [isFlagSet_dropFlag]
    simp
  · show (isFlagSet _ (2 ^ 3) || isFlagSet _ (2 ^ 4)) = isFlagSet _ (2 ^ 4)
    rw [isFlagSet_dropFlag, isFlagSet_dropFlag]
    simp

/-- The ask never begins a snapshot, and it ends one if the record does. -/
theorem ask_marks (record : Record S) :
    begins (ask record).params.flags = false ∧
      ends (ask record).params.flags = ends record.1.flags := by
  rw [ask_flags]
  constructor
  · show isFlagSet _ (2 ^ 2) = false
    rw [isFlagSet_dropFlag]
    simp
  · show (isFlagSet _ (2 ^ 3) || isFlagSet _ (2 ^ 4)) =
      (isFlagSet _ (2 ^ 3) || isFlagSet _ (2 ^ 4))
    rw [isFlagSet_dropFlag, isFlagSet_dropFlag]
    simp

theorem half_key {record : Record S} {event : Event S (OrderFields S)}
    (h : event ∈ marketMakerTranscoder record.1 record.2) :
    event.params.snapshotKey = record.1.snapshotKey := by
  rcases List.mem_pair.mp h with rfl | rfl
  · unfold transcodeMarketMakerToOrderBid
    rw [transcodeMarketMakerToOrder_params]
    rfl
  · unfold transcodeMarketMakerToOrderAsk
    rw [transcodeMarketMakerToOrder_params]
    rfl

/-- The ask of a record does not replace its bid. -/
theorem askKey_ne_bidKey (record : Record S) :
    recordKey marketMakerKind (ask record) ≠ recordKey marketMakerKind (bid record) := by
  intro hkey
  have hindex : (ask record).data.index = (bid record).data.index :=
    congrArg RecordKey.index hkey
  unfold ask bid transcodeMarketMakerToOrderAsk transcodeMarketMakerToOrderBid at hindex
  rw [transcodeMarketMakerToOrder_index, transcodeMarketMakerToOrder_index] at hindex
  have hsource := congrArg (· >>> orderIndexSsrcShift) (Int.ofNat_inj.mp hindex)
  dsimp only at hsource
  rw [orderFormMmIndex_source, orderFormMmIndex_source] at hsource
  exact absurd hsource (by decide)

/-! ### Snapshots of records -/

section Forms

variable {key : ℕ} {front : List (Record S)} {closing : Record S}

/-- The events up to the bid of the closing record. -/
def beforeAsk (front : List (Record S)) (closing : Record S) : List (Event S (OrderFields S)) :=
  halves front ++ [bid closing]

theorem beforeAsk_concat (front : List (Record S)) (closing : Record S) :
    beforeAsk front closing ++ [ask closing] = halves (front ++ [closing]) := by
  rw [halves_concat, beforeAsk, List.append_assoc]
  rfl

theorem FormsSnapshot.events_matching (h : FormsSnapshot key front closing) :
    ∀ event ∈ halves (front ++ [closing]), event.params.snapshotKey = key := by
  intro event hevent
  obtain ⟨record, hrecord, hhalf⟩ := List.mem_flatMap.mp hevent
  rw [half_key hhalf]
  exact h.matching record hrecord

/-- The first event begins the snapshot, and no other one does. -/
theorem FormsSnapshot.events_begin (h : FormsSnapshot key front closing) :
    ∃ first rest, halves (front ++ [closing]) = first :: rest ∧ isBegin first = true ∧
      ∀ event ∈ rest, isBegin event = false := by
  obtain ⟨-, ⟨record, hhead, hbegins⟩, honce, -, -⟩ := h
  obtain ⟨others, hrecords⟩ := List.head?_eq_some_iff.mp hhead
  rw [hrecords] at honce ⊢
  rw [halves_cons]
  refine ⟨_, _, rfl, (bid_marks record).1.trans hbegins, ?_⟩
  intro event hevent
  rcases List.mem_cons.mp hevent with rfl | hevent
  · exact (ask_marks record).1
  · obtain ⟨other, hother, rfl | rfl⟩ := mem_halves.mp hevent
    · exact (bid_marks other).1.trans (honce other hother)
    · exact (ask_marks other).1

/-- No event before the ask of the closing record ends the snapshot. -/
theorem FormsSnapshot.events_unfinished (h : FormsSnapshot key front closing)
    (hsnip : isFlagSet closing.1.flags EventFlag.snapshotSnip = false) :
    ∀ event ∈ beforeAsk front closing, ends event.params.flags = false := by
  intro event hevent
  rcases List.mem_append.mp hevent with hevent | hevent
  · obtain ⟨record, hrecord, rfl | rfl⟩ := mem_halves.mp hevent
    · rw [(bid_marks record).2]
      exact (Bool.or_eq_false_iff.mp (h.unfinished record hrecord)).2
    · rw [(ask_marks record).2]
      exact h.unfinished record hrecord
  · obtain rfl := List.mem_singleton.mp hevent
    exact (bid_marks closing).2.trans hsnip

/-- The snapshot is open after the first events. -/
theorem FormsSnapshot.open_prefix (h : FormsSnapshot key front closing)
    (hsnip : isFlagSet closing.1.flags EventFlag.snapshotSnip = false)
    {events : List (Event S (OrderFields S))} (hne : events ≠ [])
    (hleading : events <+: beforeAsk front closing) (feed : List ℕ) :
    Open (feed ++ events.map fun event => event.params.flags) := by
  obtain ⟨first, rest, hevents, hbegins, -⟩ := h.events_begin
  obtain ⟨event, events, rfl⟩ := List.exists_cons_of_ne_nil hne
  have hfirst : event = first := by
    have hall : (event :: events) <+: first :: rest := by
      rw [← hevents, ← beforeAsk_concat]
      exact hleading.trans (List.prefix_append _ _)
    exact (List.cons_prefix_cons.mp hall).1
  subst hfirst
  refine ⟨feed, _, _, rfl, hbegins, ?_⟩
  intro later hlater
  obtain ⟨event', hevent', rfl⟩ := List.mem_map.mp
    (show later ∈ (event :: events).map fun event => event.params.flags from hlater)
  exact h.events_unfinished hsnip event' (hleading.subset hevent')

theorem FormsSnapshot.prefix_matching (h : FormsSnapshot key front closing)
    {events : List (Event S (OrderFields S))} (hleading : events <+: beforeAsk front closing) :
    ∀ event ∈ events, event.params.snapshotKey = key := by
  intro event hevent
  refine h.events_matching event ?_
  rw [← beforeAsk_concat]
  exact List.mem_append_left _ (hleading.subset hevent)

end Forms

/-! ### Completion -/

variable [DecidableEq S]

/-- The snapshot has both halves of every record, those apart that are removals or that a later
record replaces. -/
def Shows (records : List (Record S)) (stored : List (Event S (OrderFields S))) : Prop :=
  ∀ front record rest, records = front ++ record :: rest →
    ∀ half ∈ marketMakerTranscoder record.1 record.2, isRemoval .order half = false →
      (∀ later ∈ halves rest, recordKey marketMakerKind later ≠ recordKey marketMakerKind half) →
      half ∈ stored

/-- The snapshot is in the state `begin` and publishes nothing until the ask of the closing
record, and then it leaves that state, shows both halves of every record, and publishes exactly
these. -/
def CompletesOnAsk (s : SnapshotData S (OrderFields S)) (front : List (Record S))
    (closing : Record S) : Prop :=
  let opened := run step s ((beforeAsk front closing).map .event)
  let done := eventListener opened.1 (ask closing)
  (∀ events, events ≠ [] → events <+: beforeAsk front closing →
    (run step s (events.map .event)).1.status = .begin) ∧
  (∀ entry ∈ opened.2, entry.2 = []) ∧
  done.1.status ≠ .begin ∧
  Shows (front ++ [closing]) done.1.snapshotRecords.records ∧
  ∀ delivery ∈ done.2, delivery.newSnapshot = true ∧
    delivery.records = done.1.snapshotRecords.records

/-! ### Runs of matching events -/

section Matching

variable {D : Type} {s : SnapshotData S D} {key : ℕ} {kind : SnapshotKind} {eventType : ℕ}
  {symbol : WString} {actions : List (Action S D)} {events : List (Event S D)}

/-- The last event with a key decides what is stored under it. -/
theorem lastWriter_of_last {before after : List (Event S D)} {event : Event S D}
    (h : ∀ later ∈ after, recordKey kind later ≠ recordKey kind event) :
    lastWriter kind (before ++ event :: after) (recordKey kind event).rank =
      eventValue kind.eventId event := by
  have hafter : (after.filter fun later => eventRank kind later = (recordKey kind event).rank) =
      [] := by
    rw [List.filter_eq_nil_iff]
    intro later hlater hrank
    exact h later hlater (recordKey_rank_injective (of_decide_eq_true hrank))
  unfold lastWriter
  rw [List.filter_append, List.filter_cons_of_pos (by simp [eventRank]), hafter,
    List.getLast?_concat]
  rfl

/-- The state after a run that is followed by matching events. -/
theorem phase_events (kind : SnapshotKind) (eventType : ℕ) (symbol : WString)
    (actions : List (Action S D)) (h : ∀ event ∈ events, event.params.snapshotKey = key) :
    snapshotPhase (run step (run step (createSnapshot key kind eventType symbol) actions).1
        (events.map .event)).1.status =
      some (Phase.after (snapshotFeed key actions ++
        events.map fun event => event.params.flags)) := by
  have hphase := snapshot_phase key kind eventType symbol (actions ++ events.map .event)
  unfold snapshotFeed at hphase
  rw [run_append, matchingEvents_events h, List.map_append] at hphase
  exact hphase

/-- A matching event after which the snapshot is still open makes no calls. -/
theorem eventListener_open {feed : List ℕ} (hphase : snapshotPhase s.status =
      some (Phase.after feed)) {event : Event S D} (hmatches : isSnapshotEvent s event = true)
    (hopen : Open (feed ++ [event.params.flags])) : (eventListener s event).2 = [] :=
  (snapshot_matching hphase hmatches).2.2 fun hmay => hmay.1 hopen

/-- While the snapshot is open it is not published. -/
theorem eventListener_unpublished {event : Event S D} (hmatches : isSnapshotEvent s event = true)
    (h : isBegin event = true ∨ s.fullSnapshotPublished = false)
    (hbegin : (eventListener s event).1.status = .begin) :
    (eventListener s event).1.fullSnapshotPublished = false := by
  have hbegun : (Snapshot.beginSnapshot s event).fullSnapshotPublished = false := by
    unfold Snapshot.beginSnapshot
    split_ifs with hb
    · rfl
    · exact h.resolve_left hb
  unfold eventListener at hbegin ⊢
  rw [if_pos hmatches] at hbegin ⊢
  dsimp only at hbegin ⊢
  split_ifs at hbegin ⊢ with hunknown
  · exact hbegun
  · unfold endTransaction at hbegin ⊢
    split_ifs at hbegin ⊢ with hfull
    · exact absurd (hfull.symm.trans hbegin) (by decide)
    · exact hbegun

/-- The calls that follow on a snapshot that was not published are full ones, of the store. -/
theorem eventListener_full {event : Event S D} (h : s.fullSnapshotPublished = false)
    {delivery : Delivery S D} (hdelivery : delivery ∈ (eventListener s event).2) :
    delivery.newSnapshot = true ∧
      delivery.records = (eventListener s event).1.snapshotRecords.records := by
  have hnew : delivery.newSnapshot = true := by
    have hbegun : (Snapshot.beginSnapshot s event).fullSnapshotPublished = false := by
      unfold Snapshot.beginSnapshot
      split_ifs
      · rfl
      · exact h
    unfold eventListener at hdelivery
    split_ifs at hdelivery with hmatches
    · dsimp only at hdelivery
      split_ifs at hdelivery with hunknown
      · cases hdelivery
      · unfold endTransaction at hdelivery
        split_ifs at hdelivery with hfull
        · obtain ⟨context, -, rfl⟩ := List.mem_map.mp hdelivery
          show (!context.incremental || !(Snapshot.beginSnapshot s event).fullSnapshotPublished ||
            !context.fullSnapshotSeen) = true
          simp [hbegun]
        · cases hdelivery
    · cases hdelivery
  exact ⟨hnew, act_full (show delivery ∈ (act s (.event event)).2 from hdelivery) hnew⟩

end Matching

/-! ### Runs of records -/

section Records

variable {key : ℕ} {front : List (Record S)} {closing : Record S}

variable (eventType : ℕ) (symbol : WString) (actions : List (Action S (OrderFields S)))

/-- The snapshot that the records are given to, after any calls. -/
def snapshotAfter (key eventType : ℕ) (symbol : WString)
    (actions : List (Action S (OrderFields S))) : SnapshotData S (OrderFields S) :=
  (run step (createSnapshot key marketMakerKind eventType symbol) actions).1

/-- The status after the first events. -/
theorem FormsSnapshot.status_prefix (h : FormsSnapshot key front closing)
    (hsnip : isFlagSet closing.1.flags EventFlag.snapshotSnip = false)
    {events : List (Event S (OrderFields S))} (hne : events ≠ [])
    (hleading : events <+: beforeAsk front closing) :
    (run step (snapshotAfter key eventType symbol actions)
      (events.map .event)).1.status = .begin := by
  have hphase := phase_events marketMakerKind eventType symbol actions
    (h.prefix_matching hleading)
  rw [(after_eq_begin _).mpr (h.open_prefix hsnip hne hleading _)] at hphase
  unfold snapshotAfter
  generalize (run step (run step _ actions).1 (events.map .event)).1.status = status at hphase
  cases status <;> simp_all [snapshotPhase]

/-- The first events make no calls, and the snapshot stays unpublished. -/
theorem FormsSnapshot.quiet_prefix (h : FormsSnapshot key front closing)
    (hsnip : isFlagSet closing.1.flags EventFlag.snapshotSnip = false)
    {events : List (Event S (OrderFields S))} (hleading : events <+: beforeAsk front closing) :
    (∀ entry ∈ (run step (snapshotAfter key eventType symbol actions)
        (events.map .event)).2, entry.2 = []) ∧
      (events ≠ [] → (run step (snapshotAfter key eventType symbol actions)
        (events.map .event)).1.fullSnapshotPublished = false) := by
  induction events using List.reverseRecOn with
  | nil =>
      constructor
      · intro entry hentry
        cases hentry
      · intro hne
        exact absurd rfl hne
  | append_singleton events event ih =>
      have hleading' := (List.prefix_append events [event]).trans hleading
      obtain ⟨hquiet, hunpublished⟩ := ih hleading'
      have hstatus := h.status_prefix eventType symbol actions hsnip (by simp) hleading
      have hmatching := h.prefix_matching hleading
      have hphase := phase_events marketMakerKind eventType symbol actions
        (h.prefix_matching hleading')
      have hopen := h.open_prefix hsnip (by simp) hleading (snapshotFeed key actions)
      rw [List.map_append, List.map_singleton, run_concat] at hstatus ⊢
      rw [List.map_append, List.map_singleton, ← List.append_assoc] at hopen
      generalize hs : (run step (snapshotAfter key eventType symbol actions)
        (events.map .event)).1 = s at hstatus hunpublished ⊢
      have hkey : s.key = key := by
        rw [← hs, snapshotAfter, ← run_append_fst]
        exact (run_stores key marketMakerKind eventType symbol _).2.2
      have hmatches : isSnapshotEvent s event = true :=
        decide_eq_true (hkey.trans (hmatching event (by simp)).symm)
      have hcalls : (eventListener s event).2 = [] := by
        refine eventListener_open ?_ hmatches hopen
        rw [← hs]
        exact hphase
      constructor
      · intro entry hentry
        rcases List.mem_append.mp hentry with hentry | hentry
        · exact hquiet entry hentry
        · obtain rfl := List.mem_singleton.mp hentry
          exact hcalls
      · intro _
        refine eventListener_unpublished hmatches ?_ hstatus
        by_cases hne : events = []
        · subst hne
          obtain ⟨first, rest, hevents, hbegins, -⟩ := h.events_begin
          have hall : [event] <+: first :: rest := by
            rw [← hevents, ← beforeAsk_concat]
            exact hleading.trans (List.prefix_append _ _)
          obtain rfl := (List.cons_prefix_cons.mp hall).1
          exact Or.inl hbegins
        · exact Or.inr (hunpublished hne)

/-- What the snapshot stores after all events. -/
theorem FormsSnapshot.shows (h : FormsSnapshot key front closing) :
    Shows (front ++ [closing])
      (run step (snapshotAfter key eventType symbol actions)
        ((halves (front ++ [closing])).map .event)).1.snapshotRecords.records := by
  have hstore := (snapshot_store key marketMakerKind eventType symbol
    (actions ++ (halves (front ++ [closing])).map .event)).1
  rw [matchingEvents_events h.events_matching, run_append] at hstore
  obtain ⟨first, rest, hevents, hbegins, hrest⟩ := h.events_begin
  have hsince : sinceBegin (matchingEvents key actions ++ halves (front ++ [closing])) =
      halves (front ++ [closing]) := by
    rw [hevents]
    exact sinceBegin_append hbegins hrest
  rw [hsince] at hstore
  intro before record after hrecords half hhalf hlive hlast
  -- the events after this half: the ask of the record, if it is the bid, and the later records
  have hsplit : ∃ before' after', halves (front ++ [closing]) = before' ++ half :: after' ∧
      ∀ later ∈ after', recordKey marketMakerKind later ≠ recordKey marketMakerKind half := by
    have hhalves : halves (front ++ [closing]) =
        halves before ++ bid record :: ask record :: halves after := by
      rw [hrecords]
      simp [halves, marketMakerTranscoder, bid, ask]
    rcases List.mem_pair.mp hhalf with rfl | rfl
    · refine ⟨halves before, ask record :: halves after, hhalves, ?_⟩
      intro later hlater
      rcases List.mem_cons.mp hlater with rfl | hlater
      · exact askKey_ne_bidKey record
      · exact hlast later hlater
    · refine ⟨halves before ++ [bid record], halves after, ?_, hlast⟩
      rw [hhalves, List.append_assoc]
      rfl
  obtain ⟨before', after', hsplit, hlater⟩ := hsplit
  refine ((hstore (recordKey marketMakerKind half) half).mp ?_).1
  rw [hsplit, lastWriter_of_last hlater, eventValue]
  exact if_neg (by simpa [marketMakerKind] using hlive)

end Records

/-! ### The result -/

/-- A snapshot of market maker records stays open until the ask of its closing record, and is then
published with both halves of every record, exactly if the closing record does not have
`SNAPSHOT_SNIP`. -/
theorem completesOnAsk_iff (key eventType : ℕ) (symbol : WString)
    (actions : List (Action S (OrderFields S))) (front : List (Record S)) (closing : Record S)
    (h : FormsSnapshot key front closing) :
    CompletesOnAsk (snapshotAfter key eventType symbol actions) front closing ↔
      isFlagSet closing.1.flags EventFlag.snapshotSnip = false := by
  constructor
  · intro hcomplete
    have hstatus := hcomplete.1 (beforeAsk front closing) (by simp [beforeAsk])
      List.prefix_rfl
    have hphase := phase_events marketMakerKind eventType symbol actions
      (h.prefix_matching List.prefix_rfl)
    have hbegin : Phase.after (snapshotFeed key actions ++
        (beforeAsk front closing).map fun event => event.params.flags) = .begin := by
      have hstatus' := congrArg snapshotPhase hstatus
      exact (Option.some.inj (hstatus'.symm.trans hphase)).symm
    -- the bid of the closing record must not end the snapshot
    rw [beforeAsk, List.map_append, List.map_singleton, ← List.append_assoc, after_eq_begin,
      open_concat, (bid_marks closing).2] at hbegin
    exact hbegin.1
  · intro hsnip
    obtain ⟨hquiet, hunpublished⟩ := h.quiet_prefix eventType symbol actions hsnip
      List.prefix_rfl
    have hdone : (run step (snapshotAfter key eventType symbol actions)
        ((halves (front ++ [closing])).map .event)).1 =
        (eventListener (run step (snapshotAfter key eventType symbol actions)
          ((beforeAsk front closing).map .event)).1 (ask closing)).1 := by
      rw [← beforeAsk_concat, List.map_append, List.map_singleton, run_concat]
      rfl
    refine ⟨fun events hne hleading => h.status_prefix eventType symbol actions hsnip hne hleading,
      hquiet, ?_, ?_, ?_⟩
    · rw [← hdone]
      intro hstatus
      have hphase := phase_events marketMakerKind eventType symbol actions h.events_matching
      have hbegin : Phase.after (snapshotFeed key actions ++
          (halves (front ++ [closing])).map fun event => event.params.flags) = .begin := by
        have hstatus' := congrArg snapshotPhase hstatus
        exact (Option.some.inj (hstatus'.symm.trans hphase)).symm
      rw [← beforeAsk_concat, List.map_append, List.map_singleton, ← List.append_assoc,
        after_eq_begin, open_concat, (ask_marks closing).2, h.closes] at hbegin
      exact absurd hbegin.1 (by decide)
    · rw [← hdone]
      exact h.shows eventType symbol actions
    · intro delivery hdelivery
      exact eventListener_full (hunpublished (by simp [beforeAsk])) hdelivery

/-- One record that begins a snapshot, and has these flags too. -/
def sampleRecord (flags : ℕ) : Record ℤ :=
  (⟨EventFlag.snapshotBegin ||| flags, 0, 3⟩, ⟨78, 77, 0, 100, 5, 1, 0, 101, 6, 1⟩)

theorem sampleRecord_forms (flags : ℕ) (h : ends (EventFlag.snapshotBegin ||| flags) = true)
    (hbegins : begins (EventFlag.snapshotBegin ||| flags) = true) :
    FormsSnapshot 3 [] (sampleRecord flags) where
  matching record hrecord := by
    obtain rfl := List.mem_singleton.mp hrecord
    rfl
  begins := ⟨_, rfl, hbegins⟩
  once record hrecord := by cases hrecord
  unfinished record hrecord := by cases hrecord
  closes := h

/-- A record of an exchange with its prices. -/
def makerRecord (flags : ℕ) (mmExchange : UInt16) (bidPrice askPrice : ℤ) : Record ℤ :=
  (⟨flags, 0, 3⟩, ⟨mmExchange, 77, 0, bidPrice, 5, 1, 0, askPrice, 6, 1⟩)

/-- Two records of a snapshot in front of its last one. -/
def makerFront : List (Record ℤ) :=
  [makerRecord EventFlag.snapshotBegin 78 100 101, makerRecord 0 81 99 102]

theorem maker_forms : FormsSnapshot 3 makerFront (makerRecord EventFlag.snapshotEnd 80 98 103) where
  matching := by decide
  begins := ⟨_, rfl, by decide⟩
  once := by decide
  unfinished := by decide
  closes := by decide

/-- A listener, and an earlier snapshot of one record. -/
def makerActions : List (Action ℤ (OrderFields ℤ)) :=
  .addListener (some 7) 0 :: (halves [sampleRecord EventFlag.snapshotEnd]).map .event

/-- With `SNAPSHOT_END` the records are published as a whole. -/
theorem completesOnAsk_iff_end :
    CompletesOnAsk (snapshotAfter 3 EventId.order.bitMask [65] makerActions) makerFront
      (makerRecord EventFlag.snapshotEnd 80 98 103) :=
  (completesOnAsk_iff 3 EventId.order.bitMask [65] makerActions makerFront
    (makerRecord EventFlag.snapshotEnd 80 98 103) maker_forms).mpr (by decide)

/-- With `SNAPSHOT_SNIP` a listener is given a full snapshot that has the bid alone. -/
theorem snip_publishes_bid :
    FormsSnapshot 3 [] (sampleRecord EventFlag.snapshotSnip) ∧
      ¬ CompletesOnAsk (snapshotAfter 3 EventId.order.bitMask [65] [.addListener (some 7) 0]) []
        (sampleRecord EventFlag.snapshotSnip) ∧
      ∃ delivery ∈ (eventListener
          (snapshotAfter 3 EventId.order.bitMask [65] [.addListener (some 7) 0])
          (bid (sampleRecord EventFlag.snapshotSnip))).2,
        delivery.newSnapshot = true ∧
          delivery.records = [bid (sampleRecord EventFlag.snapshotSnip)] := by
  refine ⟨sampleRecord_forms EventFlag.snapshotSnip (by decide) (by decide), ?_, ?_⟩
  · intro hcomplete
    have hstatus := hcomplete.1 [bid (sampleRecord EventFlag.snapshotSnip)] (by simp)
      List.prefix_rfl
    exact absurd hstatus (by decide)
  · exact ⟨_, List.Mem.head _, rfl, rfl⟩

end DxFeed.MarketMakerSnapshot
