import DxFeed.Snapshot.Store

/-!
# Incremental listeners can replay the snapshot

An incremental listener receives full snapshots and deltas.  Its reader keeps a view of the
records: a full snapshot replaces the view, and a delta is applied record by record, where an
event that was classified as a removal removes the record with its key.

* `Observer`: what the reader of one incremental listener knows;
* `Agrees`: the view with the current transaction applied to it is the snapshot;
* `agrees_act`: every action keeps this;
* `incremental_replay`: at each delivery the view has exactly the records of the snapshot, and
  the delivery is a full snapshot where it has to be one.
-/

namespace DxFeed.Snapshot

open SortedList Patch Run

variable {S D : Type}

/-! ### Finding a listener -/

section Search

variable {s : SnapshotData S D}

theorem findListener_eq_none {incremental : Bool} {listener : ListenerPtr}
    (h : findListener s incremental listener = none) :
    ∀ c ∈ s.listeners, ¬ (c.incremental = incremental ∧ c.listener = listener) := by
  intro c hc
  simpa using List.findIdx?_eq_none_iff.mp h c hc

/-- A listener that is found splits the list, and it is taken out of it. -/
theorem findListener_eq_some {incremental : Bool} {listener : ListenerPtr} {i : ℕ}
    (h : findListener s incremental listener = some i) :
    ∃ l₁ c l₂, s.listeners = l₁ ++ c :: l₂ ∧ arrayDelete s.listeners i = l₁ ++ l₂ ∧
      c.incremental = incremental ∧ c.listener = listener := by
  obtain ⟨hi, hc, -⟩ := List.findIdx?_eq_some_iff_getElem.mp h
  refine ⟨s.listeners.take i, s.listeners[i], s.listeners.drop (i + 1), ?_, rfl, ?_⟩
  · rw [List.getElem_cons_drop, List.take_append_drop]
  · simpa using hc

end Search

/-! ### Readers -/

variable [Zero S] [DecidableEq S]

/-- The reader of one incremental listener: whether the listener is attached, whether its next
delivery has to be a full snapshot, and the records it holds. -/
structure Observer (S D : Type) where
  attached : Bool
  due : Bool
  view : View S D

/-- A reader before anything has happened. -/
def Observer.start : Observer S D :=
  ⟨false, false, fun _ => none⟩

/-- The snapshot and the listener that a reader reads, as far as they do not change. -/
structure Reader where
  key : ℕ
  kind : SnapshotKind
  listener : ListenerPtr

variable (reader : Reader)

/-- A full snapshot is due after the listener has been attached and after a snapshot begins. -/
def Observer.note (o : Observer S D) : Action S D → Observer S D
  | .event event =>
      if event.params.snapshotKey = reader.key ∧ isBegin event then { o with due := true } else o
  | .addIncListener (some listener) _ =>
      if listener = reader.listener ∧ !o.attached then { o with attached := true, due := true }
      else o
  | .removeIncListener (some listener) =>
      if listener = reader.listener then { o with attached := false } else o
  | _ => o

/-- The delivery is for the listener of the reader. -/
def Reader.Reads (d : Delivery S D) : Prop :=
  d.incremental = true ∧ d.listener = reader.listener

instance (d : Delivery S D) : Decidable (reader.Reads d) :=
  inferInstanceAs (Decidable (_ ∧ _))

/-- The reader receives a delivery. -/
def Observer.receive (o : Observer S D) (d : Delivery S D) : Observer S D :=
  if reader.Reads d then
    if d.newSnapshot then { o with due := false, view := lookup (eventRank reader.kind) d.records }
    else
      { o with
        view := Patch.apply (eventRank reader.kind) (eventValue reader.kind.eventId) o.view
          d.records }
  else o

/-- The reader follows one step of a run. -/
def Observer.observe (o : Observer S D) (entry : Action S D × List (Delivery S D)) :
    Observer S D :=
  entry.2.foldl (Observer.receive reader) (o.note reader entry.1)

/-- The reader after a run. -/
def Observer.after (log : List (Action S D × List (Delivery S D))) : Observer S D :=
  log.foldl (Observer.observe reader) .start

/-! ### The agreement of the two stores -/

/-- The context of the listener of the reader. -/
def Reader.Owns (context : ListenerContext) : Prop :=
  context.incremental = true ∧ context.listener = reader.listener

/-- No listener is there twice. -/
def DistinctListeners (listeners : List ListenerContext) : Prop :=
  listeners.Pairwise fun a b => ¬ (a.incremental = b.incremental ∧ a.listener = b.listener)

/-- The view with the current transaction applied to it is the snapshot, unless a full snapshot
is due. -/
structure Agrees (s : SnapshotData S D) (o : Observer S D) : Prop where
  key : s.key = reader.key
  kind : s.kind = reader.kind
  snapshotValid : s.snapshotRecords.Valid s.kind
  txValid : s.lastTxRecords.Valid s.kind
  distinct : DistinctListeners s.listeners
  marked : (∃ c ∈ s.listeners, c.incremental = true) → s.hasIncListeners = true
  attached : o.attached = true ↔ ∃ c ∈ s.listeners, reader.Owns c
  due : ∀ c ∈ s.listeners, reader.Owns c →
    (o.due = false ↔ c.fullSnapshotSeen = true ∧ s.fullSnapshotPublished = true)
  view : ∀ c ∈ s.listeners, reader.Owns c → o.due = false →
    Patch.apply (eventRank reader.kind) (eventValue reader.kind.eventId) o.view
        s.lastTxRecords.records =
      lookup (eventRank reader.kind) s.snapshotRecords.records

variable {reader} {s : SnapshotData S D} {o : Observer S D}

/-! ### Listeners -/

/-- The state of a snapshot changes only in its listeners, and the mark is not taken back. -/
theorem Agrees.listeners (h : Agrees reader s o) {listeners : List ListenerContext}
    {hasIncListeners : Bool} (o' : Observer S D)
    (hdistinct : DistinctListeners listeners)
    (hmarked : (∃ c ∈ listeners, c.incremental = true) → hasIncListeners = true)
    (hattached : o'.attached = true ↔ ∃ c ∈ listeners, reader.Owns c)
    (hold : ∀ c ∈ listeners, reader.Owns c → (c ∈ s.listeners ∧ o'.due = o.due ∧ o'.view = o.view) ∨
      (o'.due = true ∧ c.fullSnapshotSeen = false)) :
    Agrees reader { s with listeners := listeners, hasIncListeners := hasIncListeners } o' where
  key := h.key
  kind := h.kind
  snapshotValid := h.snapshotValid
  txValid := h.txValid
  distinct := hdistinct
  marked := hmarked
  attached := hattached
  due c hc hown := by
    rcases hold c hc hown with ⟨hmem, hdue, -⟩ | ⟨hdue, hseen⟩
    · rw [hdue]
      exact h.due c hmem hown
    · simp [hdue, hseen]
  view c hc hown hfull := by
    rcases hold c hc hown with ⟨hmem, hdue, hview⟩ | ⟨hdue, -⟩
    · rw [hview]
      exact h.view c hmem hown (hdue ▸ hfull)
    · rw [hdue] at hfull
      cases hfull

theorem DistinctListeners.concat {listeners : List ListenerContext} {c : ListenerContext}
    (h : DistinctListeners listeners)
    (hc : ∀ a ∈ listeners, ¬ (a.incremental = c.incremental ∧ a.listener = c.listener)) :
    DistinctListeners (listeners ++ [c]) := by
  refine List.pairwise_append.mpr ⟨h, List.pairwise_singleton _ _, fun a ha b hb => ?_⟩
  rw [List.mem_singleton.mp hb]
  exact hc a ha

theorem agrees_addSnapshotListener (h : Agrees reader s o) (listener : Option ListenerPtr)
    (userData : ℕ) : Agrees reader (addSnapshotListener s listener userData) o := by
  cases listener with
  | none => exact h
  | some listener =>
      unfold addSnapshotListener
      dsimp only
      split
      · exact h
      · rename_i hnone
        have hnew := findListener_eq_none hnone
        refine h.listeners o (h.distinct.concat hnew) (fun hc => h.marked ?_) ?_
          fun c hc hown => Or.inl ?_
        · obtain ⟨c, hc, hinc⟩ := hc
          rcases List.mem_append.mp hc with hc | hc
          · exact ⟨c, hc, hinc⟩
          · rw [List.mem_singleton.mp hc] at hinc
            cases hinc
        · rw [h.attached]
          constructor
          · rintro ⟨c, hc, hown⟩
            exact ⟨c, List.mem_append_left _ hc, hown⟩
          · rintro ⟨c, hc, hown⟩
            rcases List.mem_append.mp hc with hc | hc
            · exact ⟨c, hc, hown⟩
            · rw [List.mem_singleton.mp hc] at hown
              cases hown.1
        · rcases List.mem_append.mp hc with hc | hc
          · exact ⟨hc, rfl, rfl⟩
          · rw [List.mem_singleton.mp hc] at hown
            cases hown.1

/-- Taking a listener out of the list. -/
theorem Agrees.remove (h : Agrees reader s o) {l₁ l₂ : List ListenerContext} {c : ListenerContext}
    (hsplit : s.listeners = l₁ ++ c :: l₂) {hasIncListeners : Bool}
    (hmarked : s.hasIncListeners = true → hasIncListeners = true) (o' : Observer S D)
    (hattached : o'.attached = true ↔ ∃ c ∈ l₁ ++ l₂, reader.Owns c) (hdue : o'.due = o.due)
    (hview : o'.view = o.view) :
    Agrees reader { s with listeners := l₁ ++ l₂, hasIncListeners := hasIncListeners } o' := by
  have hsub : (l₁ ++ l₂).Sublist s.listeners := by
    rw [hsplit]
    exact (List.sublist_cons_self c l₂).append_left l₁
  refine h.listeners o' (h.distinct.sublist hsub) (fun hc => hmarked (h.marked ?_)) hattached
    fun c hc _ => Or.inl ⟨hsub.subset hc, hdue, hview⟩
  obtain ⟨c, hc, hinc⟩ := hc
  exact ⟨c, hsub.subset hc, hinc⟩

theorem agrees_removeSnapshotListener (h : Agrees reader s o) (listener : Option ListenerPtr) :
    Agrees reader (removeSnapshotListener s listener) o := by
  cases listener with
  | none => exact h
  | some listener =>
      unfold removeSnapshotListener
      dsimp only
      split
      · exact h
      · rename_i hsome
        obtain ⟨l₁, c, l₂, hsplit, hdelete, hinc, -⟩ := findListener_eq_some hsome
        rw [hdelete]
        refine h.remove hsplit id o ?_ rfl rfl
        rw [h.attached, hsplit]
        constructor
        · rintro ⟨c', hc', hown⟩
          refine ⟨c', ?_, hown⟩
          rcases List.mem_append.mp hc' with hc' | hc'
          · exact List.mem_append_left _ hc'
          · rcases List.mem_cons.mp hc' with rfl | hc'
            · rw [hown.1] at hinc
              cases hinc
            · exact List.mem_append_right _ hc'
        · rintro ⟨c', hc', hown⟩
          exact ⟨c', ((List.sublist_cons_self c l₂).append_left l₁).subset hc', hown⟩

theorem agrees_addSnapshotIncListener (h : Agrees reader s o) (listener : Option ListenerPtr)
    (userData : ℕ) :
    Agrees reader (addSnapshotIncListener s listener userData)
      (o.note reader (.addIncListener listener userData)) := by
  cases listener with
  | none => exact h
  | some listener =>
      unfold addSnapshotIncListener
      dsimp only
      split
      · rename_i hsome
        -- the listener is attached already
        obtain ⟨l₁, c, l₂, hsplit, -, hc⟩ := findListener_eq_some hsome
        have hnote : o.note reader (.addIncListener (some listener) userData) = o := by
          refine if_neg ?_
          rintro ⟨heq, hnot⟩
          have hattached : o.attached = true :=
            h.attached.mpr ⟨c, hsplit ▸ by simp, hc.1, hc.2.trans heq⟩
          simp [hattached] at hnot
        rw [hnote]
        exact h
      · rename_i hnone
        have hnew := findListener_eq_none hnone
        have hdistinct : DistinctListeners (s.listeners ++ [⟨true, false, listener, userData⟩]) :=
          h.distinct.concat hnew
        by_cases heq : listener = reader.listener
        · have hfresh : ¬ o.attached = true := by
            rw [h.attached]
            rintro ⟨c, hc, hown⟩
            exact hnew c hc ⟨hown.1, hown.2.trans heq.symm⟩
          have hnote : o.note reader (.addIncListener (some listener) userData) =
              { o with attached := true, due := true } :=
            if_pos ⟨heq, by simpa using hfresh⟩
          rw [hnote]
          refine h.listeners _ hdistinct (fun _ => rfl) (iff_of_true rfl ?_) fun c hc hown => ?_
          · exact ⟨⟨true, false, listener, userData⟩, by simp, rfl, heq⟩
          · rcases List.mem_append.mp hc with hc | hc
            · exact absurd ⟨hown.1, hown.2.trans heq.symm⟩ (hnew c hc)
            · rw [List.mem_singleton.mp hc]
              exact Or.inr ⟨rfl, rfl⟩
        · have hnote : o.note reader (.addIncListener (some listener) userData) = o :=
            if_neg fun hcond => heq hcond.1
          rw [hnote]
          refine h.listeners o hdistinct (fun _ => rfl) ?_ fun c hc hown => Or.inl ?_
          · rw [h.attached]
            constructor
            · rintro ⟨c, hc, hown⟩
              exact ⟨c, List.mem_append_left _ hc, hown⟩
            · rintro ⟨c, hc, hown⟩
              rcases List.mem_append.mp hc with hc | hc
              · exact ⟨c, hc, hown⟩
              · rw [List.mem_singleton.mp hc] at hown
                exact absurd hown.2 heq
          · rcases List.mem_append.mp hc with hc | hc
            · exact ⟨hc, rfl, rfl⟩
            · rw [List.mem_singleton.mp hc] at hown
              exact absurd hown.2 heq

theorem agrees_removeSnapshotIncListener (h : Agrees reader s o)
    (listener : Option ListenerPtr) :
    Agrees reader (removeSnapshotIncListener s listener)
      (o.note reader (.removeIncListener listener)) := by
  cases listener with
  | none => exact h
  | some listener =>
      have hnote : o.note reader (.removeIncListener (some listener)) =
          if listener = reader.listener then { o with attached := false } else o := rfl
      rw [hnote]
      unfold removeSnapshotIncListener
      dsimp only
      split
      · rename_i hnone
        have hnew := findListener_eq_none hnone
        split_ifs with heq
        · refine h.listeners _ h.distinct h.marked (iff_of_false (by simp) ?_)
            fun c hc _ => Or.inl ⟨hc, rfl, rfl⟩
          rintro ⟨c, hc, hown⟩
          exact hnew c hc ⟨hown.1, hown.2.trans heq.symm⟩
        · exact h
      · rename_i hsome
        obtain ⟨l₁, c, l₂, hsplit, hdelete, hinc, hptr⟩ := findListener_eq_some hsome
        rw [hdelete]
        have hmark : s.hasIncListeners = true →
            (s.hasIncListeners || (l₁ ++ l₂).any ListenerContext.incremental) = true := by
          intro hm
          rw [hm, Bool.true_or]
        have hdistinct := h.distinct
        rw [hsplit] at hdistinct
        split_ifs with heq
        · refine h.remove hsplit hmark _ (iff_of_false (by simp) ?_) rfl rfl
          rintro ⟨c', hc', hown⟩
          have hsame : c.incremental = c'.incremental ∧ c.listener = c'.listener :=
            ⟨hinc.trans hown.1.symm, hptr.trans (heq.trans hown.2.symm)⟩
          obtain ⟨-, hright, hleft⟩ := List.pairwise_append.mp hdistinct
          rcases List.mem_append.mp hc' with hc' | hc'
          · exact hleft c' hc' c List.mem_cons_self ⟨hsame.1.symm, hsame.2.symm⟩
          · exact (List.pairwise_cons.mp hright).1 c' hc' hsame
        · refine h.remove hsplit hmark o ?_ rfl rfl
          rw [h.attached, hsplit]
          constructor
          · rintro ⟨c', hc', hown⟩
            refine ⟨c', ?_, hown⟩
            rcases List.mem_append.mp hc' with hc' | hc'
            · exact List.mem_append_left _ hc'
            · rcases List.mem_cons.mp hc' with rfl | hc'
              · exact absurd (hptr.symm.trans hown.2) heq
              · exact List.mem_append_right _ hc'
          · rintro ⟨c', hc', hown⟩
            exact ⟨c', ((List.sublist_cons_self c l₂).append_left l₁).subset hc', hown⟩

/-! ### Deliveries -/

theorem foldl_receive_of_not_owns {newSnapshot : Bool} {listeners : List ListenerContext}
    (hnone : ∀ c ∈ listeners, ¬ reader.Owns c) (o : Observer S D) :
    (listeners.map (callListener s newSnapshot)).foldl (Observer.receive reader) o = o := by
  induction listeners with
  | nil => rfl
  | cons c listeners ih =>
      have hc : ¬ reader.Reads (callListener s newSnapshot c) := hnone c List.mem_cons_self
      rw [List.map_cons, List.foldl_cons, Observer.receive, if_neg hc]
      exact ih fun c' hc' => hnone c' (List.mem_cons_of_mem _ hc')

/-- Of the deliveries to distinct listeners, the reader receives the one to its listener. -/
theorem foldl_receive_of_owns {newSnapshot : Bool} {listeners : List ListenerContext}
    (hdistinct : DistinctListeners listeners) {c : ListenerContext} (hc : c ∈ listeners)
    (hown : reader.Owns c) (o : Observer S D) :
    (listeners.map (callListener s newSnapshot)).foldl (Observer.receive reader) o =
      o.receive reader (callListener s newSnapshot c) := by
  induction listeners generalizing o with
  | nil => exact absurd hc List.not_mem_nil
  | cons c' listeners ih =>
      obtain ⟨hrest, hdistinct⟩ := List.pairwise_cons.mp hdistinct
      rw [List.map_cons, List.foldl_cons]
      rcases List.mem_cons.mp hc with rfl | hc
      · refine foldl_receive_of_not_owns (fun c' hc' hown' => ?_) _
        exact hrest c' hc' ⟨hown.1.trans hown'.1.symm, hown.2.trans hown'.2.symm⟩
      · have hskip : ¬ reader.Reads (callListener s newSnapshot c') := fun hown' =>
          hrest c hc ⟨hown'.1.trans hown.1.symm, hown'.2.trans hown.2.symm⟩
        have hsame : o.receive reader (callListener s newSnapshot c') = o := if_neg hskip
        rw [hsame]
        exact ih hdistinct hc o

/-! ### Events -/

theorem Agrees.with_status (h : Agrees reader s o) (status : Status) :
    Agrees reader { s with status := status } o :=
  ⟨h.key, h.kind, h.snapshotValid, h.txValid, h.distinct, h.marked, h.attached, h.due, h.view⟩

/-- An event that begins a snapshot makes a full snapshot due. -/
theorem agrees_beginSnapshot (h : Agrees reader s o) {event : Event S D}
    (hkey : isSnapshotEvent s event = true) :
    Agrees reader (beginSnapshot s event) (o.note reader (.event event)) := by
  have hmatch : event.params.snapshotKey = reader.key := by
    rw [← h.key]
    exact (of_decide_eq_true hkey).symm
  have hnote : o.note reader (.event event) =
      if event.params.snapshotKey = reader.key ∧ isBegin event then { o with due := true } else o :=
    rfl
  rw [hnote]
  unfold beginSnapshot
  by_cases hbegin : isBegin event = true
  · rw [if_pos hbegin, if_pos ⟨hmatch, hbegin⟩]
    exact ⟨h.key, h.kind, valid_empty, valid_empty, h.distinct, h.marked, h.attached,
      fun c hc hown => by simp, fun c hc hown hfull => by simp at hfull⟩
  · rw [if_neg hbegin, if_neg fun hcond => hbegin hcond.2]
    exact h

/-- An event changes the snapshot and the current transaction in the same way. -/
theorem agrees_processEvent (h : Agrees reader s o) (event : Event S D) :
    Agrees reader (processEvent s event) o := by
  obtain ⟨hvalid, hsnapshot⟩ := processEvent_snapshot h.snapshotValid event
  obtain ⟨htxValid, hwritten⟩ := updateEventRecords_written h.txValid event
  have htx : (processEvent s event).lastTxRecords.Valid s.kind := by
    unfold processEvent
    dsimp only
    split_ifs
    · exact htxValid
    · exact h.txValid
  refine ⟨h.key, h.kind, hvalid, htx, h.distinct, h.marked, h.attached, h.due,
    fun c hc hown hfull => ?_⟩
  obtain ⟨-, hpublished⟩ := (h.due c hc hown).mp hfull
  have hmarked := h.marked ⟨c, hc, hown.1⟩
  have hview := h.view c hc hown hfull
  have hrecorded : (processEvent s event).lastTxRecords =
      updateEventRecords s.kind s.lastTxRecords event := by
    unfold processEvent
    dsimp only
    rw [hmarked, hpublished, Bool.true_and, if_pos rfl]
  rw [← h.kind] at hview ⊢
  rw [hrecorded, apply_written h.txValid.sorted hwritten, hview]
  exact hsnapshot.symm

/-- The delivery to the listener of the reader is a full snapshot exactly if one is due. -/
theorem Agrees.newSnapshot_eq (h : Agrees reader s o) {c : ListenerContext}
    (hc : c ∈ s.listeners) (hown : reader.Owns c) :
    (callListener s (!s.fullSnapshotPublished) c).newSnapshot = o.due := by
  have hdue := h.due c hc hown
  show (!c.incremental || !s.fullSnapshotPublished || !c.fullSnapshotSeen) = o.due
  rw [hown.1]
  cases hd : o.due with
  | false =>
      obtain ⟨hseen, hpublished⟩ := hdue.mp hd
      rw [hseen, hpublished]
      rfl
  | true =>
      have hnot : ¬ (c.fullSnapshotSeen = true ∧ s.fullSnapshotPublished = true) := by
        rw [← hdue, hd]
        simp
      cases hseen : c.fullSnapshotSeen with
      | false => simp
      | true =>
          have hpublished : s.fullSnapshotPublished = false := by
            simpa using fun hp => hnot ⟨hseen, hp⟩
          simp [hpublished]

/-- After its delivery the reader has the records of the snapshot. -/
theorem Agrees.receive_eq (h : Agrees reader s o) {c : ListenerContext} (hc : c ∈ s.listeners)
    (hown : reader.Owns c) :
    o.receive reader (callListener s (!s.fullSnapshotPublished) c) =
      ⟨o.attached, false, lookup (eventRank reader.kind) s.snapshotRecords.records⟩ := by
  have hreads : reader.Reads (callListener s (!s.fullSnapshotPublished) c) := hown
  have hkind := h.newSnapshot_eq hc hown
  have hrecords : (callListener s (!s.fullSnapshotPublished) c).records =
      (if (callListener s (!s.fullSnapshotPublished) c).newSnapshot then s.snapshotRecords
        else s.lastTxRecords).records := rfl
  rw [Observer.receive, if_pos hreads, hrecords, hkind]
  cases hd : o.due with
  | true => rfl
  | false =>
      have hview := h.view c hc hown hd
      simp only [Bool.false_eq_true, if_false, hview]

/-- The end of a transaction: each delivery to the listener of the reader is a full snapshot if
one is due, and after it the reader has the records of the snapshot. -/
theorem agrees_endTransaction (h : Agrees reader s o) :
    Agrees reader (endTransaction s).1 ((endTransaction s).2.foldl (Observer.receive reader) o) ∧
      ∀ d ∈ (endTransaction s).2, reader.Reads d → (o.due = true → d.newSnapshot = true) ∧
        ((endTransaction s).2.foldl (Observer.receive reader) o).view.Holds
          reader.kind (endTransaction s).1.snapshotRecords.records := by
  unfold endTransaction
  split_ifs with hfull
  swap
  · exact ⟨h, fun d hd => absurd hd List.not_mem_nil⟩
  dsimp only [callListeners]
  have hdistinct : DistinctListeners (s.listeners.map ListenerContext.called) :=
    List.pairwise_map.mpr h.distinct
  have hmarked : (∃ c ∈ s.listeners.map ListenerContext.called, c.incremental = true) →
      s.hasIncListeners = true := by
    rintro ⟨c', hc', hinc⟩
    obtain ⟨c, hc, rfl⟩ := List.mem_map.mp hc'
    exact h.marked ⟨c, hc, hinc⟩
  by_cases hexists : ∃ c ∈ s.listeners, reader.Owns c
  · obtain ⟨c, hc, hown⟩ := hexists
    rw [foldl_receive_of_owns h.distinct hc hown, h.receive_eq hc hown]
    refine ⟨⟨h.key, h.kind, h.snapshotValid, valid_empty, hdistinct, hmarked, ?_, ?_, ?_⟩,
      ?_⟩
    · rw [h.attached]
      exact iff_of_true ⟨c, hc, hown⟩ ⟨c.called, List.mem_map_of_mem hc, hown⟩
    · rintro c' hc' hown'
      obtain ⟨c'', hc'', rfl⟩ := List.mem_map.mp hc'
      refine iff_of_true rfl ⟨?_, rfl⟩
      show (c''.fullSnapshotSeen || c''.incremental) = true
      rw [show c''.incremental = true from hown'.1, Bool.or_true]
    · intro c' hc' hown' _
      rfl
    · rintro d hd hreads
      obtain ⟨c', hc', rfl⟩ := List.mem_map.mp hd
      refine ⟨fun hdue => ?_, holds_lookup (h.kind ▸ h.snapshotValid.sorted)⟩
      rw [h.newSnapshot_eq hc' hreads, hdue]
  · have hnone : ∀ c ∈ s.listeners, ¬ reader.Owns c := fun c hc hown => hexists ⟨c, hc, hown⟩
    have hnone' : ∀ c ∈ s.listeners.map ListenerContext.called, ¬ reader.Owns c := by
      rintro c' hc' hown
      obtain ⟨c, hc, rfl⟩ := List.mem_map.mp hc'
      exact hnone c hc hown
    rw [foldl_receive_of_not_owns hnone]
    refine ⟨⟨h.key, h.kind, h.snapshotValid, valid_empty, hdistinct, hmarked, ?_, ?_, ?_⟩,
      ?_⟩
    · rw [h.attached]
      refine iff_of_false hexists ?_
      rintro ⟨c, hc, hown⟩
      exact hnone' c hc hown
    · exact fun c hc hown => absurd hown (hnone' c hc)
    · exact fun c hc hown => absurd hown (hnone' c hc)
    · rintro d hd hreads
      obtain ⟨c, hc, rfl⟩ := List.mem_map.mp hd
      exact absurd hreads (hnone c hc)

/-! ### Runs -/

/-- What one action keeps, and what the deliveries it makes mean for the reader. -/
theorem agrees_act (h : Agrees reader s o) (action : Action S D) :
    Agrees reader (act s action).1 (o.observe reader (action, (act s action).2)) ∧
      ∀ d ∈ (act s action).2, reader.Reads d →
        ((o.note reader action).due = true → d.newSnapshot = true) ∧
        (o.observe reader (action, (act s action).2)).view.Holds reader.kind
          (act s action).1.snapshotRecords.records := by
  cases action with
  | event event =>
      unfold Observer.observe act eventListener
      dsimp only
      by_cases hkey : isSnapshotEvent s event = true
      · rw [if_pos hkey]
        have hbegun := agrees_beginSnapshot h hkey
        split_ifs with hunknown
        · exact ⟨hbegun, fun d hd => absurd hd List.not_mem_nil⟩
        · exact agrees_endTransaction ((agrees_processEvent hbegun event).with_status _)
      · rw [if_neg hkey]
        have hmatch : ¬ event.params.snapshotKey = reader.key := by
          rw [← h.key]
          exact fun heq => hkey (decide_eq_true heq.symm)
        have hnote : o.note reader (.event event) = o := if_neg fun hcond => hmatch hcond.1
        rw [hnote]
        exact ⟨h, fun d hd => absurd hd List.not_mem_nil⟩
  | addListener listener userData =>
      exact ⟨agrees_addSnapshotListener h listener userData, fun d hd => absurd hd List.not_mem_nil⟩
  | removeListener listener =>
      exact ⟨agrees_removeSnapshotListener h listener, fun d hd => absurd hd List.not_mem_nil⟩
  | addIncListener listener userData =>
      exact ⟨agrees_addSnapshotIncListener h listener userData,
        fun d hd => absurd hd List.not_mem_nil⟩
  | removeIncListener listener =>
      exact ⟨agrees_removeSnapshotIncListener h listener, fun d hd => absurd hd List.not_mem_nil⟩

theorem agrees_create (key : ℕ) (kind : SnapshotKind) (eventType : ℕ) (symbol : WString)
    (listener : ListenerPtr) :
    Agrees ⟨key, kind, listener⟩
      (createSnapshot key kind eventType symbol : SnapshotData S D) .start where
  key := rfl
  kind := rfl
  snapshotValid := valid_empty
  txValid := valid_empty
  distinct := List.Pairwise.nil
  marked h := by
    obtain ⟨c, hc, -⟩ := h
    exact absurd hc List.not_mem_nil
  attached := iff_of_false (by simp [Observer.start]) fun ⟨c, hc, _⟩ => absurd hc List.not_mem_nil
  due c hc := absurd hc List.not_mem_nil
  view c hc := absurd hc List.not_mem_nil

/-- The stores and the reader agree after every run. -/
theorem agrees_run (key : ℕ) (kind : SnapshotKind) (eventType : ℕ) (symbol : WString)
    (listener : ListenerPtr) (actions : List (Action S D)) :
    let reader : Reader := ⟨key, kind, listener⟩
    let r := run step (createSnapshot key kind eventType symbol) actions
    Agrees reader r.1 (Observer.after reader r.2) := by
  dsimp only
  induction actions using List.reverseRecOn with
  | nil => exact agrees_create key kind eventType symbol listener
  | append_singleton actions action ih =>
      rw [run_concat]
      have hafter : ∀ log entry, Observer.after (S := S) (D := D) ⟨key, kind, listener⟩
          (log ++ [entry]) = (Observer.after _ log).observe ⟨key, kind, listener⟩ entry :=
        fun log entry => List.foldl_concat ..
      show Agrees _ _ (Observer.after _ (_ ++ [_]))
      rw [hafter]
      exact (agrees_act ih action).1

/-- In every run of events and of listeners being attached and detached, each delivery to an
incremental listener is a full snapshot if it is the first one after the listener was attached
or after a snapshot began, and after each delivery the reader of the listener, who starts again
with each full snapshot and applies each delta, has exactly the records of the snapshot. -/
theorem incremental_replay (key : ℕ) (kind : SnapshotKind) (eventType : ℕ) (symbol : WString)
    (listener : ListenerPtr) (actions : List (Action S D)) (action : Action S D) :
    let reader : Reader := ⟨key, kind, listener⟩
    let r := run step (createSnapshot key kind eventType symbol) actions
    let o := Observer.after reader r.2
    ∀ d ∈ (act r.1 action).2, reader.Reads d →
      ((o.note reader action).due = true → d.newSnapshot = true) ∧
      (o.observe reader (action, (act r.1 action).2)).view.Holds kind
        (act r.1 action).1.snapshotRecords.records :=
  (agrees_act (agrees_run key kind eventType symbol listener actions) action).2

/-- A snapshot of the orders of `A` with one incremental listener, and one order. -/
def sampleActions : List (Action ℤ Unit) :=
  [.addIncListener (some 7) 0, .event ⟨⟨0, 0, 5, [], ()⟩, ⟨0, 1, 3⟩⟩]

/-- The next event of that snapshot removes the order. -/
def sampleRemoval : Action ℤ Unit :=
  .event ⟨⟨0, 0, 0, [], ()⟩, ⟨0, 1, 3⟩⟩

/-- The removal is delivered as a delta, and the reader then has no records. -/
theorem incremental_replay_sample :
    let reader : Reader := ⟨3, ⟨.order, .order, rfl⟩, 7⟩
    let r := run step (createSnapshot 3 ⟨.order, .order, rfl⟩ EventId.order.bitMask [65])
      sampleActions
    let o := Observer.after reader r.2
    ∃ d ∈ (act r.1 sampleRemoval).2, reader.Reads d ∧ d.newSnapshot = false ∧
      ((o.note reader sampleRemoval).due = true → d.newSnapshot = true) ∧
      (o.observe reader (sampleRemoval, (act r.1 sampleRemoval).2)).view.Holds ⟨.order, .order, rfl⟩ [] :=
  ⟨_, List.Mem.head _, ⟨rfl, rfl⟩, rfl,
    incremental_replay 3 ⟨.order, .order, rfl⟩ EventId.order.bitMask [65] 7 sampleActions
      sampleRemoval _ (List.Mem.head _) ⟨rfl, rfl⟩⟩

end DxFeed.Snapshot
