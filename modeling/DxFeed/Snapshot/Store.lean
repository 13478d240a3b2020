import DxFeed.Snapshot.Data

/-!
# The store of a snapshot is a last-writer-wins map

* `View`: a partial function from keys to records, and `View.Holds`: it has exactly the records
  of a list;
* `lastWriter`: the last event with each key, where a removal leaves nothing;
* `sinceBegin`: the events since a snapshot began;
* `snapshot_store`: after every run the store is valid and has exactly the records of the
  last-writer-wins map of these events.
-/

namespace DxFeed.Snapshot

open SortedList Patch Run

variable {S D : Type}

/-- Records by their keys. -/
abbrev View (S D : Type) := ℕᵒᵈ ×ₗ ℤ → Option (Event S D)

/-- The view has exactly these records. -/
def View.Holds (view : View S D) (kind : SnapshotKind) (records : List (Event S D)) : Prop :=
  ∀ (key : RecordKey) (r : Event S D),
    view key.rank = some r ↔ r ∈ records ∧ recordKey kind r = key

/-- The events from the last one on that begins a snapshot, or all of them. -/
def sinceBegin (events : List (Event S D)) : List (Event S D) :=
  events.foldl (fun since event => if isBegin event then [event] else since ++ [event]) []

/-- The events of a run that match the key of the snapshot. -/
def matchingEvents (key : ℕ) (actions : List (Action S D)) : List (Event S D) :=
  actions.filterMap fun
    | .event event => if event.params.snapshotKey = key then some event else none
    | _ => none

variable {kind : SnapshotKind} {s : SnapshotData S D} {event : Event S D}

/-- The records of a sorted list, looked up by their keys, are exactly the records of the list. -/
theorem holds_lookup {records : List (Event S D)} (h : KeySorted (eventRank kind) records) :
    View.Holds (lookup (eventRank kind) records) kind records := by
  intro key r
  rw [lookup_eq_some h]
  refine and_congr_right fun _ => ?_
  exact recordKey_rank_injective.eq_iff

theorem sinceBegin_concat (events : List (Event S D)) (event : Event S D) :
    sinceBegin (events ++ [event]) =
      if isBegin event then [event] else sinceBegin events ++ [event] :=
  List.foldl_concat ..

theorem matchingEvents_concat (key : ℕ) (actions : List (Action S D)) (action : Action S D) :
    matchingEvents key (actions ++ [action]) =
      matchingEvents key actions ++ matchingEvents key [action] :=
  List.filterMap_append

theorem matchingEvents_events {key : ℕ} {actions : List (Action S D)} {events : List (Event S D)}
    (h : ∀ event ∈ events, event.params.snapshotKey = key) :
    matchingEvents key (actions ++ events.map .event) =
      matchingEvents key actions ++ events := by
  induction events using List.reverseRecOn with
  | nil => simp
  | append_singleton events event ih =>
      have hlast : matchingEvents key [Action.event event] = [event] := by
        simp [matchingEvents, h event (by simp)]
      rw [List.map_append, List.map_singleton, ← List.append_assoc, matchingEvents_concat,
        ih fun event' h' => h event' (List.mem_append_left _ h'), List.append_assoc]
      exact congrArg (fun last => matchingEvents key actions ++ (events ++ last)) hlast

/-- The events from one on that begins a snapshot, if no later one does. -/
theorem sinceBegin_append {previous events : List (Event S D)} {first : Event S D}
    (hfirst : isBegin first = true) (h : ∀ event ∈ events, isBegin event = false) :
    sinceBegin (previous ++ first :: events) = first :: events := by
  induction events using List.reverseRecOn with
  | nil =>
      rw [sinceBegin_concat, if_pos hfirst]
  | append_singleton events event ih =>
      have hlast := h event (by simp)
      rw [← List.cons_append, ← List.append_assoc, sinceBegin_concat, if_neg (by simp [hlast]),
        ih fun event' h' => h event' (List.mem_append_left _ h')]

theorem nextStatus_ne_unknown {status : Status} (h : status ≠ .unknown) :
    nextStatus event status ≠ .unknown := by
  unfold nextStatus
  cases isEnd event <;> cases isPending event <;> cases status <;> simp_all

/-- The end of a transaction changes neither the store nor the status. -/
theorem endTransaction_snapshot (s : SnapshotData S D) :
    (endTransaction s).1.snapshotRecords = s.snapshotRecords ∧
      (endTransaction s).1.kind = s.kind ∧ (endTransaction s).1.key = s.key ∧
      (endTransaction s).1.status = s.status := by
  unfold endTransaction
  split_ifs
  · exact ⟨rfl, rfl, rfl, rfl⟩
  · exact ⟨rfl, rfl, rfl, rfl⟩

/-! ### The last writer -/

variable [Zero S] [DecidableEq S]

/-- What an event leaves under its key. -/
def eventValue (eventId : EventId) (event : Event S D) : Option (Event S D) :=
  if isRemoval eventId event then none else some event

/-- The last event with each key; a removal leaves nothing. -/
def lastWriter (kind : SnapshotKind) (events : List (Event S D)) : View S D := fun k =>
  (events.filter fun event => eventRank kind event = k).getLast?.bind (eventValue kind.eventId)

/-- One more event. -/
theorem lastWriter_concat (events : List (Event S D)) (event : Event S D) :
    lastWriter kind (events ++ [event]) =
      Function.update (lastWriter kind events) (eventRank kind event)
        (eventValue kind.eventId event) := by
  funext k
  by_cases hk : k = eventRank kind event
  · subst hk
    simp [lastWriter]
  · rw [Function.update_of_ne hk]
    simp [lastWriter, Ne.symm hk]

/-! ### One event -/

/-- An event in the store of the snapshot. -/
theorem processEvent_snapshot (h : s.snapshotRecords.Valid s.kind) (event : Event S D) :
    (processEvent s event).snapshotRecords.Valid s.kind ∧
      lookup (eventRank s.kind) (processEvent s event).snapshotRecords.records =
        Function.update (lookup (eventRank s.kind) s.snapshotRecords.records)
          (eventRank s.kind event) (eventValue s.kind.eventId event) := by
  unfold processEvent eventValue
  dsimp only
  split_ifs
  · obtain ⟨hvalid, herased⟩ := removeEventRecords_erased h event
    exact ⟨hvalid, herased.lookup_eq⟩
  · obtain ⟨hvalid, hwritten⟩ := updateEventRecords_written h event
    exact ⟨hvalid, hwritten.lookup_eq⟩

/-- The store is valid and is the last-writer-wins map of these events, and the status is known. -/
structure Stores (s : SnapshotData S D) (events : List (Event S D)) : Prop where
  valid : s.snapshotRecords.Valid s.kind
  lookup_eq : lookup (eventRank s.kind) s.snapshotRecords.records =
    lastWriter s.kind (sinceBegin events)
  known : s.status ≠ .unknown

theorem beginSnapshot_stores {events : List (Event S D)} (h : Stores s events)
    (event : Event S D) :
    let begun := beginSnapshot s event
    begun.kind = s.kind ∧ begun.key = s.key ∧ begun.status ≠ .unknown ∧
      begun.snapshotRecords.Valid s.kind ∧
      lookup (eventRank s.kind) begun.snapshotRecords.records =
        if isBegin event then fun _ => none else lastWriter s.kind (sinceBegin events) := by
  unfold beginSnapshot
  split_ifs
  · exact ⟨rfl, rfl, by simp, valid_empty, rfl⟩
  · exact ⟨rfl, rfl, h.known, h.valid, h.lookup_eq⟩

/-- An event that matches the key joins the events of the store. -/
theorem eventListener_stores {events : List (Event S D)} (h : Stores s events)
    (hkey : isSnapshotEvent s event = true) :
    Stores (eventListener s event).1 (events ++ [event]) ∧
      (eventListener s event).1.kind = s.kind ∧ (eventListener s event).1.key = s.key := by
  obtain ⟨hkind, hskey, hknown, hvalid, hlookup⟩ := beginSnapshot_stores h event
  unfold eventListener
  rw [if_pos hkey]
  dsimp only
  rw [if_neg hknown]
  generalize beginSnapshot s event = begun at *
  rw [← hkind] at hvalid hlookup
  obtain ⟨hvalid', hlookup'⟩ := processEvent_snapshot hvalid event
  obtain ⟨hrecords, hkind', hkey', hstatus⟩ := endTransaction_snapshot
    { processEvent begun event with status := nextStatus event (processEvent begun event).status }
  refine ⟨⟨?_, ?_, ?_⟩, hkind'.trans hkind, hkey'.trans hskey⟩
  · rw [hrecords, hkind']
    exact hvalid'
  · rw [hrecords, hkind']
    refine hlookup'.trans ?_
    rw [hlookup, sinceBegin_concat, hkind]
    show _ = lastWriter begun.kind _
    rw [hkind]
    split_ifs
    · exact (lastWriter_concat [] event).symm
    · exact (lastWriter_concat _ event).symm
  · rw [hstatus]
    exact nextStatus_ne_unknown hknown

/-! ### Runs -/

theorem eventListener_of_other (hkey : ¬ isSnapshotEvent s event = true) :
    eventListener s event = (s, []) := if_neg hkey

/-- The calls that add and remove listeners leave the store, the key and the status alone. -/
theorem act_of_listeners {action : Action S D} (h : ∀ event, action ≠ .event event) :
    (act s action).1.snapshotRecords = s.snapshotRecords ∧ (act s action).1.kind = s.kind ∧
      (act s action).1.key = s.key ∧ (act s action).1.status = s.status := by
  cases action with
  | event event => exact absurd rfl (h event)
  | addListener listener userData =>
      cases listener with
      | none => exact ⟨rfl, rfl, rfl, rfl⟩
      | some listener =>
          simp only [act, addSnapshotListener]
          split <;> exact ⟨rfl, rfl, rfl, rfl⟩
  | removeListener listener =>
      cases listener with
      | none => exact ⟨rfl, rfl, rfl, rfl⟩
      | some listener =>
          simp only [act, removeSnapshotListener]
          split <;> exact ⟨rfl, rfl, rfl, rfl⟩
  | addIncListener listener userData =>
      cases listener with
      | none => exact ⟨rfl, rfl, rfl, rfl⟩
      | some listener =>
          simp only [act, addSnapshotIncListener]
          split <;> exact ⟨rfl, rfl, rfl, rfl⟩
  | removeIncListener listener =>
      cases listener with
      | none => exact ⟨rfl, rfl, rfl, rfl⟩
      | some listener =>
          simp only [act, removeSnapshotIncListener]
          split <;> exact ⟨rfl, rfl, rfl, rfl⟩

/-- One action, for the events that match the key. -/
theorem act_stores {events : List (Event S D)} (h : Stores s events) (action : Action S D) :
    Stores (act s action).1 (events ++ matchingEvents s.key [action]) ∧
      (act s action).1.kind = s.kind ∧ (act s action).1.key = s.key := by
  by_cases hevent : ∃ event, action = .event event
  · obtain ⟨event, rfl⟩ := hevent
    by_cases hkey : isSnapshotEvent s event = true
    · have hmatch : matchingEvents s.key [.event event] = [event] := by
        simp [matchingEvents, (of_decide_eq_true hkey).symm]
      rw [hmatch]
      exact eventListener_stores h hkey
    · have hmatch : matchingEvents s.key [.event event] = [] := by
        have hne : ¬ event.params.snapshotKey = s.key := fun heq => hkey (decide_eq_true heq.symm)
        simp [matchingEvents, hne]
      rw [hmatch, List.append_nil]
      have hact : act s (.event event) = (s, []) := eventListener_of_other hkey
      rw [hact]
      exact ⟨h, rfl, rfl⟩
  · have hother : ∀ event, action ≠ .event event := fun event heq => hevent ⟨event, heq⟩
    obtain ⟨hrecords, hkind, hskey, hstatus⟩ := act_of_listeners (s := s) hother
    have hmatch : matchingEvents s.key [action] = [] := by
      cases action with
      | event event => exact absurd rfl (hother event)
      | _ => rfl
    rw [hmatch, List.append_nil]
    refine ⟨⟨?_, ?_, ?_⟩, hkind, hskey⟩
    · rw [hrecords, hkind]
      exact h.valid
    · rw [hrecords, hkind]
      exact h.lookup_eq
    · rw [hstatus]
      exact h.known

theorem run_stores (key : ℕ) (kind : SnapshotKind) (eventType : ℕ) (symbol : WString)
    (actions : List (Action S D)) :
    let s := (run step (createSnapshot key kind eventType symbol) actions).1
    Stores s (matchingEvents key actions) ∧ s.kind = kind ∧ s.key = key := by
  dsimp only
  induction actions using List.reverseRecOn with
  | nil =>
      refine ⟨⟨valid_empty, rfl, ?_⟩, ?_, ?_⟩
      · simp [createSnapshot]
      · trivial
      · trivial
  | append_singleton actions action ih =>
      obtain ⟨hstores, hkind, hkey⟩ := ih
      rw [run_concat, matchingEvents_concat]
      obtain ⟨hstores', hkind', hkey'⟩ := act_stores hstores action
      rw [hkey] at hstores' hkey'
      exact ⟨hstores', hkind'.trans hkind, hkey'⟩

/-- After every run the records of a snapshot are exactly the last events with each key, removed
keys left out, of the events since the last snapshot began; the three arrays are aligned, and the
keys are strictly sorted. -/
theorem snapshot_store (key : ℕ) (kind : SnapshotKind) (eventType : ℕ) (symbol : WString)
    (actions : List (Action S D)) :
    let recs := (run step (createSnapshot key kind eventType symbol) actions).1.snapshotRecords
    (lastWriter kind (sinceBegin (matchingEvents key actions))).Holds kind recs.records ∧
      recs.recordKeys.length = recs.records.length ∧
      recs.recordBuffers.length = recs.records.length ∧
      recs.recordKeys = recs.records.map (recordKey kind) ∧
      (recs.recordBuffers = recs.records.map fun event => event.data.strings) ∧
      recs.recordKeys.Pairwise fun key1 key2 => recordsComparator2 key1 key2 < 0 := by
  obtain ⟨hstores, hkind, -⟩ := run_stores key kind eventType symbol actions
  dsimp only
  obtain ⟨hvalid, hlookup, -⟩ := hstores
  rw [hkind] at hvalid hlookup
  have hholds := holds_lookup hvalid.sorted
  rw [hlookup] at hholds
  refine ⟨hholds, ?_, ?_, hvalid.keys, hvalid.buffers, ?_⟩
  · rw [hvalid.keys, List.length_map]
  · rw [hvalid.buffers, List.length_map]
  · rw [hvalid.keys]
    exact List.pairwise_map.mpr (hvalid.sorted.imp (recordsComparator2_orders.neg_iff _ _).mpr)

end DxFeed.Snapshot
