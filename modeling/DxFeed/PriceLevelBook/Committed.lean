import DxFeed.PriceLevelBook.Current

/-!
# A book shows committed levels

Every book passed to a listener is made of levels that its sources had at a publication point,
or of nothing for a source that began a new snapshot since.

* `Commit`: the history of one source: its state, its levels at its last publication point, and
  whether a snapshot began since then;
* `Contributes`: what a source may contribute to a side of a book;
* `SideCommitted`: a side of a book is the merge of such contributions, or it was never merged
  since the book was created, and is empty;
* `delivered_committed`: both sides of every delivered book are committed.
-/

namespace DxFeed.PriceLevelBook

open SortedList Run

variable {P S κ : Type*}

/-! ### What a source leaves unchanged -/

section Frame

variable {source : PlbSource P S} {order : Order P S} {event : OrderEvent P S}

/-- A mark `updated` that is not set after a change of the source was not set before. -/
structure MarksGrow (source source' : PlbSource P S) : Prop where
  bids : source'.bids.updated = false → source.bids.updated = false
  asks : source'.asks.updated = false → source.asks.updated = false

theorem MarksGrow.trans {s₁ s₂ s₃ : PlbSource P S} (h₁ : MarksGrow s₁ s₂) (h₂ : MarksGrow s₂ s₃) :
    MarksGrow s₁ s₃ :=
  ⟨fun h => h₁.bids (h₂.bids h), fun h => h₁.asks (h₂.asks h)⟩

theorem beginSnapshot_marks {flags : ℕ} : MarksGrow source (source.beginSnapshot flags) := by
  unfold PlbSource.beginSnapshot
  split_ifs <;> exact ⟨id, id⟩

variable [AddCommGroup S]

theorem addOrder_mark {cmp : LevelComparator P S} {ob : PriceLevelSide P S}
    (h : (plbSourceAddOrderToLevels cmp ob order).updated = false) : ob.updated = false := by
  rwa [addOrder_eq_of_not_updated h] at h

theorem removeOrder_mark [LinearOrder S] {cmp : LevelComparator P S} {ob : PriceLevelSide P S}
    (h : (plbSourceRemoveOrderFromLevels cmp ob order).updated = false) : ob.updated = false := by
  rwa [removeOrder_eq_of_not_updated h] at h

variable [LinearOrder P]

theorem addToLevels_marks : MarksGrow source (source.addToLevels order) := by
  unfold PlbSource.addToLevels PlbSource.onSide
  split_ifs
  · exact ⟨addOrder_mark, id⟩
  · exact ⟨id, addOrder_mark⟩

variable [LinearOrder S]

theorem removeFromLevels_marks : MarksGrow source (source.removeFromLevels order) := by
  unfold PlbSource.removeFromLevels PlbSource.onSide
  split_ifs
  · exact ⟨removeOrder_mark, id⟩
  · exact ⟨id, removeOrder_mark⟩

theorem publish_marks : MarksGrow source source.publish := by
  unfold PlbSource.publish
  constructor
  · dsimp only
    split_ifs
    · exact nofun
    · exact id
  · dsimp only
    split_ifs
    · exact nofun
    · exact id

variable [Zero P]

theorem processOrder_final {rm : Bool} :
    (plbSourceProcessOrder source order rm).finalBids = source.finalBids ∧
      (plbSourceProcessOrder source order rm).finalAsks = source.finalAsks := by
  have hside : ∀ (s : PlbSource P S) (side : OrderSide) f,
      (s.onSide side f).finalBids = s.finalBids ∧ (s.onSide side f).finalAsks = s.finalAsks := by
    intro s side f
    unfold PlbSource.onSide
    split_ifs <;> exact ⟨rfl, rfl⟩
  refine plbSourceProcessOrder_keeps (Q := fun s => s.finalBids = source.finalBids ∧
    s.finalAsks = source.finalAsks) ⟨rfl, rfl⟩ ?_ ?_ (fun _ _ h => h) rm
  · intro s h
    exact ⟨(hside s _ _).1.trans h.1, (hside s _ _).2.trans h.2⟩
  · intro s oo h
    exact ⟨(hside s _ _).1.trans h.1, (hside s _ _).2.trans h.2⟩

theorem processOrder_marks {rm : Bool} :
    MarksGrow source (plbSourceProcessOrder source order rm) := by
  refine plbSourceProcessOrder_keeps (Q := MarksGrow source) ⟨id, id⟩ ?_ ?_ ?_ rm
  · intro s h
    exact h.trans addToLevels_marks
  · intro s oo h
    exact h.trans removeFromLevels_marks
  · intro s snapshot h
    exact ⟨h.bids, h.asks⟩

theorem processEvent_marks : MarksGrow source (source.processEvent event) :=
  ⟨processOrder_marks.bids, processOrder_marks.asks⟩

theorem plbEventListener_marks : MarksGrow source (plbEventListener source event).1 := by
  have hstep := plbEventListener_step source event
  generalize plbEventListener source event = result at hstep ⊢
  cases hstep with
  | rejected _ => exact ⟨id, id⟩
  | skipped _ _ => exact beginSnapshot_marks
  | stored _ _ _ => exact beginSnapshot_marks.trans processEvent_marks
  | published _ _ _ => exact (beginSnapshot_marks.trans processEvent_marks).trans publish_marks

end Frame

/-! ### Histories of sources -/

section History

/-- The history of a source: its state, the levels it had at its last publication point (none
before the first), and whether it received a snapshot begin since. -/
structure Commit (P S : Type*) where
  source : PlbSource P S
  bids : List (PriceLevelElement P S)
  asks : List (PriceLevelElement P S)
  reset : Bool

/-- The history of a new source. -/
def Commit.create (symbol src : String) : Commit P S where
  source := plbSourceCreate symbol src
  bids := []
  asks := []
  reset := false

/-- What a source may contribute to a side: its committed levels, or nothing if a snapshot began
since they were committed. -/
def Contributes (committed : List (PriceLevelElement P S)) (reset : Bool)
    (levels : List (PriceLevelElement P S)) : Prop :=
  levels = committed ∨ reset = true ∧ levels = []

/-- Contributions before a quiet event remain contributions after it. -/
theorem Contributes.quiet {committed levels : List (PriceLevelElement P S)} {reset reset' : Bool}
    (h : Contributes committed reset levels) (hmono : reset = true → reset' = true) :
    Contributes committed reset' levels :=
  h.imp id fun hr => ⟨hmono hr.1, hr.2⟩

theorem Contributes.eq_nil {committed levels : List (PriceLevelElement P S)} {reset : Bool}
    (h : Contributes committed reset levels) (hnil : committed = []) : levels = [] :=
  h.elim (fun heq => heq.trans hnil) fun hr => hr.2

variable [LinearOrder P]

/-- The final levels of a source are a contribution, and a side that was never updated has
committed nothing. -/
structure CommitInvariant (c : Commit P S) : Prop where
  sorted : SourceSorted c.source
  bids : Contributes c.bids c.reset c.source.finalBids.levels
  asks : Contributes c.asks c.reset c.source.finalAsks.levels
  bids_fresh : c.source.bids.updated = false → c.bids = []
  asks_fresh : c.source.asks.updated = false → c.asks = []

theorem create_commitInvariant (symbol src : String) :
    CommitInvariant (Commit.create symbol src : Commit P S) where
  sorted := plbSourceCreate_sorted symbol src
  bids := Or.inl rfl
  asks := Or.inl rfl
  bids_fresh _ := rfl
  asks_fresh _ := rfl

variable [Zero P] [AddCommGroup S] [LinearOrder S]

/-- The history after one more event. -/
def Commit.step (c : Commit P S) (event : OrderEvent P S) : Commit P S :=
  let r := plbEventListener c.source event
  if r.2 then
    { source := r.1
      bids := r.1.finalBids.levels
      asks := r.1.finalAsks.levels
      reset := false }
  else
    { c with
      source := r.1
      reset := c.reset ||
        (c.source.accepts event && isFlagSet event.flags EventFlag.snapshotBegin) }

variable {c : Commit P S} {event : OrderEvent P S}

@[simp] theorem commitStep_source : (c.step event).source = (plbEventListener c.source event).1 := by
  unfold Commit.step
  dsimp only
  split_ifs <;> rfl

/-- Without a publication, the final levels of a source stay, or a snapshot begins and empties
them. -/
theorem final_of_quiet {source : PlbSource P S} (h : (plbEventListener source event).2 = false) :
    ((plbEventListener source event).1.finalBids = source.finalBids ∧
        (plbEventListener source event).1.finalAsks = source.finalAsks) ∨
      source.accepts event = true ∧ isFlagSet event.flags EventFlag.snapshotBegin = true ∧
        (plbEventListener source event).1.finalBids.levels = [] ∧
        (plbEventListener source event).1.finalAsks.levels = [] := by
  have hbegin : ((source.beginSnapshot event.flags).finalBids = source.finalBids ∧
        (source.beginSnapshot event.flags).finalAsks = source.finalAsks) ∨
      isFlagSet event.flags EventFlag.snapshotBegin = true ∧
        (source.beginSnapshot event.flags).finalBids.levels = [] ∧
        (source.beginSnapshot event.flags).finalAsks.levels = [] := by
    unfold PlbSource.beginSnapshot
    split_ifs with hflag
    · exact Or.inr ⟨hflag, rfl, rfl⟩
    · exact Or.inl ⟨rfl, rfl⟩
  have hstep := plbEventListener_step source event
  generalize plbEventListener source event = result at hstep h ⊢
  cases hstep with
  | rejected _ => exact Or.inl ⟨rfl, rfl⟩
  | skipped haccepts _ => exact hbegin.imp id fun hb => ⟨haccepts, hb⟩
  | stored haccepts _ _ =>
      have hframe : ((source.beginSnapshot event.flags).processEvent event).finalBids =
            (source.beginSnapshot event.flags).finalBids ∧
          ((source.beginSnapshot event.flags).processEvent event).finalAsks =
            (source.beginSnapshot event.flags).finalAsks := processOrder_final
      rw [hframe.1, hframe.2]
      exact hbegin.imp id fun hb => ⟨haccepts, hb⟩
  | published _ _ _ => cases h

theorem commitStep_of_quiet (h : (plbEventListener c.source event).2 = false) :
    c.step event =
      { c with
        source := (plbEventListener c.source event).1
        reset := c.reset ||
          (c.source.accepts event && isFlagSet event.flags EventFlag.snapshotBegin) } := by
  simp [Commit.step, h]

theorem commitStep_of_publishes (h : (plbEventListener c.source event).2 = true) :
    c.step event =
      { source := (plbEventListener c.source event).1
        bids := (plbEventListener c.source event).1.finalBids.levels
        asks := (plbEventListener c.source event).1.finalAsks.levels
        reset := false } := by
  simp [Commit.step, h]

theorem CommitInvariant.step (h : CommitInvariant c) (event : OrderEvent P S) :
    CommitInvariant (c.step event) := by
  have hsorted := plbEventListener_sorted h.sorted event
  have hmarks : MarksGrow c.source (plbEventListener c.source event).1 := plbEventListener_marks
  cases hpub : (plbEventListener c.source event).2 with
  | true =>
      rw [commitStep_of_publishes hpub]
      exact ⟨hsorted, Or.inl rfl, Or.inl rfl, hsorted.bids.final_fresh, hsorted.asks.final_fresh⟩
  | false =>
      rw [commitStep_of_quiet hpub]
      have hmono : c.reset = true → (c.reset || (c.source.accepts event &&
          isFlagSet event.flags EventFlag.snapshotBegin)) = true := fun hr => by simp [hr]
      refine ⟨hsorted, ?_, ?_, fun hu => h.bids_fresh (hmarks.bids hu),
        fun hu => h.asks_fresh (hmarks.asks hu)⟩
      · rcases final_of_quiet hpub with ⟨hb, -⟩ | ⟨haccepts, hflag, hb, -⟩
        · rw [hb]
          exact h.bids.quiet hmono
        · exact Or.inr ⟨by simp [haccepts, hflag], hb⟩
      · rcases final_of_quiet hpub with ⟨-, ha⟩ | ⟨haccepts, hflag, -, ha⟩
        · rw [ha]
          exact h.asks.quiet hmono
        · exact Or.inr ⟨by simp [haccepts, hflag], ha⟩

/-- An event that does not merge a side keeps the contributions to it.  Of a source, `mark` and
`final` are the working and the final levels of that side. -/
theorem CommitInvariant.unmerged (h : CommitInvariant c)
    (side : Commit P S → List (PriceLevelElement P S))
    (mark final : PlbSource P S → PriceLevelSide P S)
    (hquiet : ∀ source reset, side { c with source := source, reset := reset } = side c)
    (hpublishes : ∀ source, side ⟨source, source.finalBids.levels, source.finalAsks.levels, false⟩ =
      (final source).levels)
    (hmark : ∀ source, MarksGrow c.source source → (mark source).updated = false →
      (mark c.source).updated = false)
    (hcommitted : (mark c.source).updated = false → side c = [])
    (hfinal : ∀ source, SourceSorted source → (mark source).updated = false →
      (final source).levels = [])
    (hno : ¬ ((plbEventListener c.source event).2 = true ∧
      (mark (plbEventListener c.source event).1).updated = true))
    {levels : List (PriceLevelElement P S)} (hl : Contributes (side c) c.reset levels) :
    Contributes (side (c.step event)) (c.step event).reset levels := by
  cases hpub : (plbEventListener c.source event).2 with
  | false =>
      rw [commitStep_of_quiet hpub, hquiet]
      exact hl.quiet fun hr => by simp [hr]
  | true =>
      have hu : (mark (plbEventListener c.source event).1).updated = false := by
        simpa [hpub] using hno
      have hold := hcommitted (hmark _ plbEventListener_marks hu)
      have hnew := hfinal _ (plbEventListener_sorted h.sorted event) hu
      rw [commitStep_of_publishes hpub, hpublishes]
      exact Or.inl ((hl.eq_nil hold).trans hnew.symm)

theorem commitInvariant_foldl (h : CommitInvariant c) (events : List (OrderEvent P S)) :
    CommitInvariant (events.foldl Commit.step c) :=
  List.foldlRecOn events Commit.step h fun _ hc event _ => hc.step event

theorem foldl_commit_source (events : List (OrderEvent P S)) :
    (events.foldl Commit.step c).source = runListener c.source events := by
  induction events generalizing c with
  | nil => rfl
  | cons event events ih =>
      rw [List.foldl_cons, ih, commitStep_source]
      rfl

end History

/-! ### Histories of all sources of a book -/

section Histories

variable [LinearOrder P] [Zero P] [AddCommGroup S] [LinearOrder S]

/-- A source of a book: its names, and the events it received before the book was created. -/
structure SourceOrigin (P S : Type*) where
  symbol : String
  src : String
  events : List (OrderEvent P S)

/-- The state of the source when the book is created. -/
def SourceOrigin.source (o : SourceOrigin P S) : PlbSource P S :=
  runListener (plbSourceCreate o.symbol o.src) o.events

/-- The history of a source that receives more events after the creation of the book. -/
def SourceOrigin.history (o : SourceOrigin P S) (events : List (OrderEvent P S)) : Commit P S :=
  (o.events ++ events).foldl Commit.step (Commit.create o.symbol o.src)

/-- The events of one source. -/
def eventsOf (inputs : List (ℕ × OrderEvent P S)) (j : ℕ) : List (OrderEvent P S) :=
  inputs.filterMap fun input => if input.1 = j then some input.2 else none

/-- The histories of all sources. -/
def histories (origins : List (SourceOrigin P S)) (inputs : List (ℕ × OrderEvent P S)) :
    List (Commit P S) :=
  origins.mapIdx fun j o => o.history (eventsOf inputs j)

variable {origins : List (SourceOrigin P S)} {inputs : List (ℕ × OrderEvent P S)}
  {input : ℕ × OrderEvent P S}

theorem histories_nil_source :
    (histories origins ([] : List (ℕ × OrderEvent P S))).map Commit.source =
      origins.map SourceOrigin.source := by
  refine List.ext_getElem? fun j => ?_
  simp [histories, SourceOrigin.history, eventsOf, foldl_commit_source, Commit.create,
    Function.comp_def]
  rfl

/-- An event moves the history of its source. -/
theorem histories_concat :
    histories origins (inputs ++ [input]) =
      (histories origins inputs).modify input.1 fun c => c.step input.2 := by
  refine List.ext_getElem? fun j => ?_
  rw [List.getElem?_modify]
  simp only [histories, List.getElem?_mapIdx, eventsOf, List.filterMap_append]
  by_cases hj : input.1 = j
  · simp [hj, SourceOrigin.history, Function.comp_def, List.foldl_append]
  · simp [hj]

theorem histories_invariant : ∀ c ∈ histories origins inputs, CommitInvariant c := by
  intro c hc
  obtain ⟨j, hj, rfl⟩ := List.mem_mapIdx.mp hc
  exact commitInvariant_foldl (create_commitInvariant _ _) _

theorem sourcesAfter_histories {sys : BookSystem P S} (input : ℕ × OrderEvent P S)
    (h : sys.sources = (histories origins inputs).map Commit.source) :
    sys.sourcesAfter input = (histories origins (inputs ++ [input])).map Commit.source := by
  rw [histories_concat]
  unfold BookSystem.sourcesAfter
  generalize histories origins inputs = hs at h ⊢
  rw [h]
  refine List.ext_getElem? fun j => ?_
  rw [List.getElem?_map, List.getElem?_map, List.getElem?_modify]
  cases hget : hs[input.1]? with
  | none =>
      by_cases hj : input.1 = j
      · subst hj
        simp [hget]
      · simp [hj]
  | some c =>
      obtain ⟨hlt, rfl⟩ := List.getElem?_eq_some_iff.mp hget
      simp only [Option.map_some, List.getElem?_set, List.length_map]
      by_cases hj : input.1 = j
      · subst hj
        simp [hlt]
      · simp [hj]

end Histories

/-! ### The sides of a book -/

section Side

variable [LinearOrder P] [AddCommGroup S] [LinearOrder S] [LinearOrder κ] {rank : P → κ}
  {startValue : P} {side : Commit P S → List (PriceLevelElement P S)}
  {hs : List (Commit P S)} {never never' : Prop} {levels : List (PriceLevelElement P S)}

/-- The levels are the merge of contributions of the sources, or the side was never merged and
is empty. -/
def SideCommitted (rank : P → κ) (startValue : P)
    (side : Commit P S → List (PriceLevelElement P S)) (hs : List (Commit P S)) (never : Prop)
    (levels : List (PriceLevelElement P S)) : Prop :=
  (∃ cs, List.Forall₂ (fun c l => Contributes (side c) c.reset l) hs cs ∧
    levels = mergedLevels rank startValue cs.flatten) ∨ never ∧ levels = []

theorem forall₂_modify {α β : Type*} {R : α → β → Prop} {f : α → α} {l : List α} {m : List β}
    (h : List.Forall₂ R l m) :
    ∀ {i : ℕ}, (∀ a b, l[i]? = some a → R a b → R (f a) b) → List.Forall₂ R (l.modify i f) m := by
  induction h with
  | nil => intro i _; simp
  | cons hab htail ih =>
      intro i hf
      cases i with
      | zero => exact .cons (hf _ _ rfl hab) htail
      | succ i => exact .cons hab (ih fun a b ha => hf a b (by simpa using ha))

/-- A side that is not merged stays committed if the contributions of the moving source do. -/
theorem SideCommitted.modify [Zero P] {i : ℕ} {event : OrderEvent P S}
    (h : SideCommitted rank startValue side hs never levels) (hnever : never → never')
    (hstep : ∀ c l, hs[i]? = some c → Contributes (side c) c.reset l →
      Contributes (side (c.step event)) (c.step event).reset l) :
    SideCommitted rank startValue side (hs.modify i fun c => c.step event) never' levels := by
  rcases h with ⟨cs, hcs, hlevels⟩ | ⟨hn, hlevels⟩
  · exact Or.inl ⟨cs, forall₂_modify hcs hstep, hlevels⟩
  · exact Or.inr ⟨hnever hn, hlevels⟩

/-- A merged side is committed. -/
theorem SideCommitted.merge {final : PlbSource P S → PriceLevelSide P S}
    (h : ∀ c ∈ hs, Contributes (side c) c.reset (final c.source).levels) :
    SideCommitted rank startValue side hs never
      (mergedLevels rank startValue
        (((hs.map Commit.source).map final).map PriceLevelSide.levels).flatten) := by
  refine Or.inl ⟨_, ?_, rfl⟩
  simp only [List.map_map, List.forall₂_map_right_iff, List.forall₂_same]
  exact h

/-- One side of `dx_plb_book_update`. -/
theorem updateSide_merge {cmp : LevelComparator P S} {dst : BookSide P S} (updated : Bool)
    (startValue : P) {srcs : List (PriceLevelSide P S)} (hrank : Function.Injective rank)
    (hcmp : Orders cmp fun e => rank e.price) (hslots : dst.slots.length = maxPriceLevels)
    (hs : ∀ src ∈ srcs, KeySorted (fun e : PriceLevelElement P S => rank e.price) src.levels) :
    (updateSide cmp updated dst srcs startValue).1.slots.length = maxPriceLevels ∧
      (updateSide cmp updated dst srcs startValue).1.slots.take
          (updateSide cmp updated dst srcs startValue).1.count =
        if updated then mergedLevels rank startValue (srcs.map PriceLevelSide.levels).flatten
        else dst.slots.take dst.count := by
  cases updated with
  | false => exact ⟨hslots, rfl⟩
  | true =>
      have hlen := mergedLevels_length_le rank startValue (srcs.map PriceLevelSide.levels).flatten
      simp only [updateSide, if_true, plbBookUpdateOneSide_spec hrank hcmp hslots hs]
      refine ⟨?_, by simp⟩
      rw [List.length_append, List.length_drop, hslots]
      omega

end Side

/-! ### Runs -/

section Runs

variable [LinearOrder P] [Zero P] [NatCast P] [AddCommGroup S] [LinearOrder S]

/-- The event makes its source publish with the mark `updated` of the bids set. -/
def MergesBids (sys : BookSystem P S) (input : ℕ × OrderEvent P S) : Prop :=
  ∃ source, sys.sources[input.1]? = some source ∧ (plbEventListener source input.2).2 = true ∧
    (plbEventListener source input.2).1.bids.updated = true

/-- The event makes its source publish with the mark `updated` of the asks set. -/
def MergesAsks (sys : BookSystem P S) (input : ℕ × OrderEvent P S) : Prop :=
  ∃ source, sys.sources[input.1]? = some source ∧ (plbEventListener source input.2).2 = true ∧
    (plbEventListener source input.2).1.asks.updated = true

/-- A new book over sources with the given origins. -/
def bookOver (symbol : String) (listeners : List PlbListenerContext)
    (origins : List (SourceOrigin P S)) : BookSystem P S where
  sources := origins.map SourceOrigin.source
  book := createPriceLevelBook symbol listeners

/-- The bids are committed, after the given events. -/
def BidsCommitted (start : BookSystem P S) (origins : List (SourceOrigin P S))
    (inputs : List (ℕ × OrderEvent P S)) : List (PriceLevelElement P S) → Prop :=
  SideCommitted OrderDual.toDual bidsStart Commit.bids (histories origins inputs)
    (AllSteps (fun sys input => ¬ MergesBids sys input) BookSystem.step start inputs)

/-- The asks are committed, after the given events. -/
def AsksCommitted (start : BookSystem P S) (origins : List (SourceOrigin P S))
    (inputs : List (ℕ × OrderEvent P S)) : List (PriceLevelElement P S) → Prop :=
  SideCommitted id asksStart Commit.asks (histories origins inputs)
    (AllSteps (fun sys input => ¬ MergesAsks sys input) BookSystem.step start inputs)

/-- The invariant of every run: the sources follow their histories, and both sides of the book
are committed. -/
structure CommittedInvariant (start : BookSystem P S) (origins : List (SourceOrigin P S))
    (sys : BookSystem P S) (inputs : List (ℕ × OrderEvent P S)) : Prop where
  sources : sys.sources = (histories origins inputs).map Commit.source
  bids_slots : sys.book.bids.slots.length = maxPriceLevels
  asks_slots : sys.book.asks.slots.length = maxPriceLevels
  bids : BidsCommitted start origins inputs (sys.book.bids.slots.take sys.book.bids.count)
  asks : AsksCommitted start origins inputs (sys.book.asks.slots.take sys.book.asks.count)

variable {start sys : BookSystem P S} {origins : List (SourceOrigin P S)}
  {inputs : List (ℕ × OrderEvent P S)} {input : ℕ × OrderEvent P S}

/-- A new book is committed. -/
theorem bookOver_committed (symbol : String) (listeners : List PlbListenerContext)
    (origins : List (SourceOrigin P S)) :
    CommittedInvariant (bookOver symbol listeners origins) origins
      (bookOver symbol listeners origins) [] where
  sources := histories_nil_source.symm
  bids_slots := List.length_replicate
  asks_slots := List.length_replicate
  bids := Or.inr ⟨trivial, rfl⟩
  asks := Or.inr ⟨trivial, rfl⟩

/-- The calls of the listeners pass what the sides hold. -/
theorem plbBookUpdate_calls {book : PlbBook P S} {src : PlbSource P S}
    {sources : List (PlbSource P S)} :
    ∀ call ∈ (plbBookUpdate book src sources).2,
      call.2 = (plbBookUpdate book src sources).1.data ∧
        (plbBookUpdate book src sources).1.bidsCount = (plbBookUpdate book src sources).1.bids.count ∧
        (plbBookUpdate book src sources).1.asksCount =
          (plbBookUpdate book src sources).1.asks.count := by
  unfold plbBookUpdate
  dsimp only
  split_ifs
  · intro call hcall
    obtain ⟨l, -, rfl⟩ := List.mem_map.mp hcall
    exact ⟨rfl, rfl, rfl⟩
  · simp

theorem plbBookUpdate_sides {book : PlbBook P S} {src : PlbSource P S}
    {sources : List (PlbSource P S)} :
    (plbBookUpdate book src sources).1.bids =
        (updateSide plbPricelvelComparatorBid src.bids.updated book.bids
          (sources.map PlbSource.finalBids) bidsStart).1 ∧
      (plbBookUpdate book src sources).1.asks =
        (updateSide plbPricelvelComparatorAsk src.asks.updated book.asks
          (sources.map PlbSource.finalAsks) asksStart).1 := by
  unfold plbBookUpdate
  dsimp only
  split_ifs <;> exact ⟨rfl, rfl⟩

/-- What an event does to one side of the book: `mark` and `final` are the working and the final
levels of that side in a source. -/
theorem step_side [LinearOrder κ] {rank : P → κ} {cmp : LevelComparator P S} {startValue : P}
    (bookSide : PlbBook P S → BookSide P S) (mark final : PlbSource P S → PriceLevelSide P S)
    (hupdate : ∀ book src sources, bookSide (plbBookUpdate book src sources).1 =
      (updateSide cmp (mark src).updated (bookSide book) (sources.map final) startValue).1)
    (hrank : Function.Injective rank) (hcmp : Orders cmp fun e => rank e.price)
    (hfinal : ∀ src ∈ (sys.sourcesAfter input).map final,
      KeySorted (fun e : PriceLevelElement P S => rank e.price) src.levels)
    (hslots : (bookSide sys.book).slots.length = maxPriceLevels) :
    let merges := ∃ source, sys.sources[input.1]? = some source ∧
      (plbEventListener source input.2).2 = true ∧
        (mark (plbEventListener source input.2).1).updated = true
    (bookSide (sys.step input).1.book).slots.length = maxPriceLevels ∧
      (merges ∧
          (bookSide (sys.step input).1.book).slots.take (bookSide (sys.step input).1.book).count =
            mergedLevels rank startValue
              (((sys.sourcesAfter input).map final).map PriceLevelSide.levels).flatten ∨
        ¬ merges ∧
          (bookSide (sys.step input).1.book).slots.take (bookSide (sys.step input).1.book).count =
            (bookSide sys.book).slots.take (bookSide sys.book).count) := by
  intro merges
  cases hget : sys.sources[input.1]? with
  | none =>
      rw [step_of_none hget]
      exact ⟨hslots, Or.inr ⟨fun ⟨s, hs, _⟩ => by simp [hget] at hs, rfl⟩⟩
  | some source =>
      have hmerges : merges ↔ (plbEventListener source input.2).2 = true ∧
          (mark (plbEventListener source input.2).1).updated = true := by
        simp [merges, hget]
      rw [hmerges]
      cases hpub : (plbEventListener source input.2).2 with
      | false =>
          rw [step_of_quiet hget hpub]
          exact ⟨hslots, Or.inr ⟨by simp, rfl⟩⟩
      | true =>
          have hside := updateSide_merge (mark (plbEventListener source input.2).1).updated
            startValue hrank hcmp hslots hfinal
          rw [step_of_publishes hget hpub]
          dsimp only
          rw [hupdate]
          refine ⟨hside.1, ?_⟩
          rw [hside.2]
          cases (mark (plbEventListener source input.2).1).updated with
          | false => exact Or.inr ⟨by simp, rfl⟩
          | true => exact Or.inl ⟨⟨rfl, rfl⟩, rfl⟩

/-- The listeners get what the sides of the book hold. -/
theorem step_calls : ∀ call ∈ (sys.step input).2,
    call.2.bids = (sys.step input).1.book.bids.slots.take (sys.step input).1.book.bids.count ∧
      call.2.asks = (sys.step input).1.book.asks.slots.take (sys.step input).1.book.asks.count := by
  cases hget : sys.sources[input.1]? with
  | none =>
      rw [step_of_none hget]
      simp
  | some source =>
      cases hpub : (plbEventListener source input.2).2 with
      | false =>
          rw [step_of_quiet hget hpub]
          simp
      | true =>
          rw [step_of_publishes hget hpub]
          intro call hcall
          obtain ⟨hdata, hbids, hasks⟩ := plbBookUpdate_calls call hcall
          rw [hdata]
          exact ⟨by rw [PlbBook.data, hbids], by rw [PlbBook.data, hasks]⟩

/-- Every event keeps the sides of the book committed. -/
theorem step_committed (input : ℕ × OrderEvent P S) (hsys : (run BookSystem.step start inputs).1 = sys)
    (h : CommittedInvariant start origins sys inputs) :
    CommittedInvariant start origins (sys.step input).1 (inputs ++ [input]) := by
  have hcommits : ∀ c ∈ histories origins inputs, CommitInvariant c := histories_invariant
  have hcommits' : ∀ c ∈ histories origins (inputs ++ [input]), CommitInvariant c :=
    histories_invariant
  have hafter := sourcesAfter_histories input h.sources
  have hsorted : ∀ s ∈ sys.sources, SourceSorted s := by
    rw [h.sources]
    simpa using fun c hc => (hcommits c hc).sorted
  have hsorted' : ∀ s ∈ sys.sourcesAfter input, SourceSorted s := sourcesAfter_sorted hsorted
  obtain ⟨hbslots, hbids⟩ := step_side PlbBook.bids PlbSource.bids PlbSource.finalBids
    (fun _ _ _ => plbBookUpdate_sides.1) OrderDual.toDual.injective comparatorBid_orders
    (by simpa using fun s hm => (hsorted' s hm).bids.final_sorted) h.bids_slots
  obtain ⟨haslots, hasks⟩ := step_side PlbBook.asks PlbSource.asks PlbSource.finalAsks
    (fun _ _ _ => plbBookUpdate_sides.2) Function.injective_id comparatorAsk_orders
    (by simpa using fun s hm => (hsorted' s hm).asks.final_sorted) h.asks_slots
  refine ⟨(step_sources sys input).trans hafter, hbslots, haslots, ?_, ?_⟩
  · rcases hbids with ⟨-, heq⟩ | ⟨hno, heq⟩
    · rw [heq, hafter]
      exact SideCommitted.merge fun c hc => (hcommits' c hc).bids
    · rw [heq, BidsCommitted, histories_concat]
      refine h.bids.modify (fun hn => allSteps_concat.mpr ⟨hn, hsys ▸ hno⟩) fun c l hc hl => ?_
      have hcommit := hcommits c (List.mem_of_getElem? hc)
      refine hcommit.unmerged Commit.bids PlbSource.bids PlbSource.finalBids (fun _ _ => rfl)
        (fun _ => rfl) (fun _ hm => hm.bids) hcommit.bids_fresh (fun _ hs => hs.bids.final_fresh)
        (fun hm => hno ⟨c.source, ?_, hm⟩) hl
      rw [h.sources, List.getElem?_map, hc]
      rfl
  · rcases hasks with ⟨-, heq⟩ | ⟨hno, heq⟩
    · rw [heq, hafter]
      exact SideCommitted.merge fun c hc => (hcommits' c hc).asks
    · rw [heq, AsksCommitted, histories_concat]
      refine h.asks.modify (fun hn => allSteps_concat.mpr ⟨hn, hsys ▸ hno⟩) fun c l hc hl => ?_
      have hcommit := hcommits c (List.mem_of_getElem? hc)
      refine hcommit.unmerged Commit.asks PlbSource.asks PlbSource.finalAsks (fun _ _ => rfl)
        (fun _ => rfl) (fun _ hm => hm.asks) hcommit.asks_fresh (fun _ hs => hs.asks.final_fresh)
        (fun hm => hno ⟨c.source, ?_, hm⟩) hl
      rw [h.sources, List.getElem?_map, hc]
      rfl

theorem run_committed (symbol : String) (listeners : List PlbListenerContext)
    (origins : List (SourceOrigin P S)) (inputs : List (ℕ × OrderEvent P S)) :
    CommittedInvariant (bookOver symbol listeners origins) origins
      (run BookSystem.step (bookOver symbol listeners origins) inputs).1 inputs :=
  run_invariant_inputs (bookOver_committed symbol listeners origins) fun _ input h =>
    step_committed input rfl h

/-- **Delivered levels are committed.**  In every book passed to a listener, each side is the
merge, up to the start value, of levels that every source had at its own last publication point,
or of nothing for a source that began a snapshot since; or the side was not merged since the book
was created, and is empty. -/
theorem delivered_committed (symbol : String) (listeners : List PlbListenerContext)
    (origins : List (SourceOrigin P S)) (inputs : List (ℕ × OrderEvent P S))
    (input : ℕ × OrderEvent P S) :
    let start := bookOver symbol listeners origins
    ∀ call ∈ ((run BookSystem.step start inputs).1.step input).2,
      BidsCommitted start origins (inputs ++ [input]) call.2.bids ∧
        AsksCommitted start origins (inputs ++ [input]) call.2.asks := by
  intro start call hcall
  have h := step_committed input rfl (run_committed symbol listeners origins inputs)
  obtain ⟨hbids, hasks⟩ := step_calls call hcall
  rw [hbids, hasks]
  exact ⟨h.bids, h.asks⟩

/-- A source that begins a new snapshot disappears from the book at the next publication of
another source, although it published levels before and nothing since. -/
theorem delivered_not_last_published :
    let origins : List (SourceOrigin ℤ ℤ) := [⟨"IBM", "NTV", []⟩, ⟨"IBM", "BYX", []⟩]
    let inputs := [(0, sampleEvent "NTV" .buy 1 100 5 0),
      (0, sampleEvent "NTV" .buy 2 90 1 EventFlag.snapshotBegin)]
    let input := (1, sampleEvent "BYX" .buy 1 99 7 0)
    (((run BookSystem.step (bookOver "IBM" [⟨1, 0⟩] origins) inputs).1.step input).2 =
        [(⟨1, 0⟩, ⟨"IBM", [⟨99, 7, 1⟩], []⟩)]) ∧
      bestMerge OrderDual.toDual ((histories origins (inputs ++ [input])).map Commit.bids).flatten =
        [⟨100, 5, 1⟩, ⟨99, 7, 1⟩] := by
  decide

end Runs

end DxFeed.PriceLevelBook
