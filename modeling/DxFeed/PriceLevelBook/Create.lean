import DxFeed.PriceLevelBook.Linked

/-!
# Creating a book

* `Building`: a book that has some of its sources;
* `Undoable`: what `undoBook` needs, and `Unchanged`, what it leaves;
* `Building.addSources`: the loop over the sources;
* `Linked.create`: creating a book keeps the invariant of the connection, and leaves everything as it
  was if it fails, as long as the table need not grow and subscriptions can be closed.
-/

namespace DxFeed.PriceLevelBook

open LinearProbing

variable {plbSourceHash : String → String → ℕ} {env : Environment}
  {c₀ c c' : PlbContext plbSourceHash} {live₀ live : List (TableSource plbSourceHash)}
  {book : BookObject plbSourceHash} {symbol : String} {done srcs : List String}

/-- An open book of the symbol uses the source. -/
def isUsed (c : PlbContext plbSourceHash) (symbol src : String) : Bool :=
  c.books.any fun book => book.sources.any fun s => s.key = (symbol, src)

/-- How many sources are added to the table for a book. -/
def newSources (env : Environment) (used : String → Bool) : List String → ℕ
  | [] => 0
  | src :: srcs =>
      let rest := if env.consumerAllocated src then newSources env used srcs else 0
      if used src then rest
      else if env.sourceCreation src = .created then 1 + rest
      else 0

/-- The sources whose subscriptions are closed if the book cannot be created: those that have been
created for it; `none` if it gets all of its sources. -/
def undoneSources (env : Environment) (used : String → Bool) : List String → Option (List String)
  | [] => none
  | src :: srcs =>
      let rest := if env.consumerAllocated src then undoneSources env used srcs else some []
      if used src then rest
      else
        match env.sourceCreation src with
        | .created => rest.map (src :: ·)
        | .failed => some []
        | .failedSubscribed => some [src]

/-- The table need not grow for the book, and every subscription is closed that has to be. -/
def CanCreate (env : Environment) (c : PlbContext plbSourceHash) (symbol : String)
    (srcs : List String) : Prop :=
  (newSources env (isUsed c symbol) srcs = 0 ∨
    c.table.srcSize + newSources env (isUsed c symbol) srcs ≤ 513) ∧
  ∀ undone ∈ undoneSources env (isUsed c symbol) srcs,
    ∀ src ∈ undone, env.subscriptionClosed src = true

instance (env : Environment) (c : PlbContext plbSourceHash) (symbol : String)
    (srcs : List String) : Decidable (CanCreate env c symbol srcs) :=
  inferInstanceAs (Decidable (_ ∧ ∀ undone ∈ undoneSources _ _ _, ∀ src ∈ undone, _))

/-- Table, consumers, subscriptions and books are what they were. -/
structure Unchanged (c c' : PlbContext plbSourceHash) : Prop where
  capacity : c'.table.srcCapacity = c.table.srcCapacity
  size : c'.table.srcSize = c.table.srcSize
  slots : ∀ pos < c.table.srcCapacity, c'.table.sources pos = c.table.sources pos
  consumers : c'.consumers = c.consumers
  subscriptions : c'.subscriptions = c.subscriptions
  books : c'.books = c.books

/-- Without the book the consumers are what they were, and only its sources have been added. -/
structure Undoable (c₀ : PlbContext plbSourceHash) (live₀ : List (TableSource plbSourceHash))
    (c : PlbContext plbSourceHash) (live : List (TableSource plbSourceHash))
    (book : BookObject plbSourceHash) : Prop where
  registered : Registered c live
  books : c.books = c₀.books
  next : c₀.nextAddress ≤ c.nextAddress
  nodup : book.sources.Nodup
  live_iff : ∀ s, s ∈ live ↔ s ∈ live₀ ∨ s ∈ book.sources
  without : consumersWithout c book = c₀.consumers
  within : Within c₀.table.sources c.table.sources

theorem isUsed_iff (h : Linked c live) {src : String} :
    isUsed c symbol src = true ↔ ∃ s ∈ live, s.key = (symbol, src) := by
  simp only [isUsed, List.any_eq_true, decide_eq_true_eq]
  constructor
  · rintro ⟨book, hbook, s, hs, hkey⟩
    exact ⟨s, (h.used s).mpr ⟨book, hbook, hs⟩, hkey⟩
  · rintro ⟨s, hs, hkey⟩
    obtain ⟨book, hbook, hmem⟩ := (h.used s).mp hs
    exact ⟨book, hbook, s, hmem, hkey⟩

theorem Holding.within {table : SourceTable plbSourceHash} (h : Holding table live) :
    Within table.sources table.sources :=
  ⟨h.stores.path, fun _ _ _ hs => hs⟩

/-- What was unchanged is linked as before. -/
theorem Linked.of_unchanged (h₀ : Linked c₀ live₀) (h : Registered c live)
    (hlive : ∀ s, s ∈ live ↔ s ∈ live₀) (hunchanged : Unchanged c₀ c)
    (hnext : c₀.nextAddress ≤ c.nextAddress) : Linked c live :=
  { h with
    used := fun s => by rw [hlive, h₀.used, hunchanged.books]
    consumer := fun s hs x => by
      rw [hunchanged.consumers, hunchanged.books, h₀.consumer s ((hlive s).mp hs)]
    once := fun a => by rw [hunchanged.consumers]; exact h₀.once a
    bookAddresses := by rw [hunchanged.books]; exact h₀.bookAddresses
    bookFresh := fun b hb => (h₀.bookFresh b (hunchanged.books ▸ hb)).trans_le hnext
    bookSources := fun b hb => h₀.bookSources b (hunchanged.books ▸ hb) }

/-- A book that cannot be created leaves nothing behind. -/
theorem Undoable.undo (h₀ : Linked c₀ live₀) (h : Undoable c₀ live₀ c live book)
    (hclosed : ∀ s ∈ book.sources, c₀.consumers s.address = [] →
      env.subscriptionClosed s.source = true) :
    ∃ c' live', undoBook env c book = .ok (c', none) ∧ Unchanged c₀ c' ∧ Linked c' live' := by
  obtain ⟨table, subscriptions, live', hclear, hregistered, hlive, hbase⟩ :=
    h.registered.bookClear h.nodup (fun s hs => (h.live_iff s).mpr (.inr hs))
      (by rw [h.without]; exact hclosed)
  rw [h.without] at hclear hregistered hlive
  -- a source with a consumer was there before the book
  have hsame : ∀ s, s ∈ live' ↔ s ∈ live₀ := by
    intro s
    rw [hlive, h.live_iff]
    constructor
    · rintro ⟨hs | hs, hused⟩
      · exact hs
      · by_contra hnew
        refine hused hs (h₀.idle s.address fun t ht heq => hnew ?_)
        have hts := h.registered.addresses t ((h.live_iff t).mpr (.inl ht)) s
          ((h.live_iff s).mpr (.inr hs)) heq
        rwa [← hts]
    · intro hs
      exact ⟨.inl hs, fun _ => h₀.consumers_ne_nil hs⟩
  have hslots : ∀ pos < 1024, table.sources pos = c₀.table.sources pos :=
    h₀.holding.stores.toHolds.eq_of_sub hregistered.holding.stores.toHolds
      (fun s hs => (hsame s).mp hs)
      (hbase c₀.table.sources h.within fun p hp s hs =>
        (hsame s).mpr ((h₀.holding.stores.mem_iff s).mpr ⟨p, hp, hs⟩)).sub
  have hperm : live'.Perm live₀ :=
    (List.perm_ext_iff_of_nodup hregistered.nodup h₀.nodup).mpr hsame
  have hunchanged : Unchanged c₀
      { c with table := table, subscriptions := subscriptions, consumers := c₀.consumers } :=
    { capacity := hregistered.holding.capacity.trans h₀.holding.capacity.symm
      size := by
        rw [h₀.holding.size, ← hperm.length_eq]
        exact hregistered.holding.size
      slots := fun pos hpos => hslots pos (h₀.holding.capacity ▸ hpos)
      consumers := rfl
      subscriptions := by
        ext a
        rw [h₀.subscribed, hregistered.subscribed a]
        simp only [hsame]
      books := h.books }
  refine ⟨_, live', ?_, hunchanged, h₀.of_unchanged hregistered hsame hunchanged h.next⟩
  have hcleanup : plbCtxCleanupSources env
      { c with table := table, subscriptions := subscriptions, consumers := c₀.consumers } =
        .ok { c with
          table := table
          subscriptions := subscriptions
          consumers := c₀.consumers } := by
    refine cleanupSources_of_used fun p hp s hs => h₀.consumers_ne_nil ((hsame s).mp ?_)
    exact (hregistered.holding.stores.mem_iff s).mpr ⟨p, hregistered.holding.capacity ▸ hp, hs⟩
  simp only [undoBook, hclear, hcleanup, bind, Except.bind, pure, Except.pure]

/-! ### The loop -/

/-- A book that has the sources `done` so far: it is their first consumer. -/
structure Building (c₀ : PlbContext plbSourceHash) (live₀ : List (TableSource plbSourceHash))
    (symbol : String) (c : PlbContext plbSourceHash) (live : List (TableSource plbSourceHash))
    (book : BookObject plbSourceHash) (done : List String) : Prop where
  registered : Registered c live
  books : c.books = c₀.books
  address : book.address = c₀.nextAddress
  next : c₀.nextAddress < c.nextAddress
  keys : book.sources.map TableSource.key = done.map fun src => (symbol, src)
  live_iff : ∀ s, s ∈ live ↔ s ∈ live₀ ∨ s ∈ book.sources
  consumer : ∀ i s, book.sources[i]? = some s →
    c.consumers s.address = ⟨book.address, i⟩ :: c₀.consumers s.address
  others : ∀ a, a ∉ book.sources.map TableSource.address → c.consumers a = c₀.consumers a
  within : Within c₀.table.sources c.table.sources

namespace Building

theorem nodup (h : Building c₀ live₀ symbol c live book done) (hdone : done.Nodup) :
    book.sources.Nodup := by
  have hkeys : (book.sources.map TableSource.key).Nodup := by
    rw [h.keys]
    exact hdone.map fun src src' heq => (Prod.mk.inj heq).2
  exact List.Nodup.of_map _ hkeys

theorem key_of_mem (h : Building c₀ live₀ symbol c live book done)
    {s : TableSource plbSourceHash} (hs : s ∈ book.sources) :
    s.source ∈ done ∧ s.key = (symbol, s.source) := by
  have hmem : s.key ∈ done.map fun src => (symbol, src) := by
    rw [← h.keys]
    exact List.mem_map_of_mem hs
  obtain ⟨src, hsrc, hkey⟩ := List.mem_map.mp hmem
  obtain ⟨hsymbol, hsource⟩ := Prod.mk.inj hkey
  have hsrc' : s.source = src := hsource.symm
  exact ⟨hsrc' ▸ hsrc, by rw [← hkey, hsrc']⟩

theorem undoable (h : Building c₀ live₀ symbol c live book done)
    (hdone : done.Nodup) : Undoable c₀ live₀ c live book where
  registered := h.registered
  books := h.books
  next := h.next.le
  nodup := h.nodup hdone
  live_iff := h.live_iff
  without := by
    funext a
    unfold consumersWithout
    split
    case isFalse ha => exact h.others a ha
    case isTrue ha =>
      obtain ⟨s, hs, rfl⟩ := List.mem_map.mp ha
      obtain ⟨i, hi⟩ := List.mem_iff_getElem?.mp hs
      rw [h.consumer i s hi, List.eraseP_cons_of_pos (by simp)]
  within := h.within

/-- The subscriptions of the new sources of the book. -/
theorem closed (h₀ : Linked c₀ live₀) (h : Building c₀ live₀ symbol c live book done)
    (hclosed : ∀ src ∈ done, isUsed c₀ symbol src = false → env.subscriptionClosed src = true)
    {s : TableSource plbSourceHash} (hs : s ∈ book.sources)
    (hidle : c₀.consumers s.address = []) : env.subscriptionClosed s.source = true := by
  obtain ⟨hdone, hkey⟩ := h.key_of_mem hs
  refine hclosed s.source hdone ?_
  by_contra hused
  obtain ⟨t, ht, htkey⟩ := (isUsed_iff h₀).mp (by simpa using hused)
  have hts := h.registered.holding.eq_of_key ((h.live_iff t).mpr (.inl ht))
    ((h.live_iff s).mpr (.inr hs)) (htkey.trans hkey.symm)
  exact h₀.consumers_ne_nil (hts ▸ ht) hidle

/-- A source that the book does not have yet is in the table exactly if it was before. -/
theorem known_iff (h₀ : Linked c₀ live₀) (h : Building c₀ live₀ symbol c live book done)
    {src : String} (hsrc : src ∉ done) :
    (∃ s ∈ live, s.key = (symbol, src)) ↔ isUsed c₀ symbol src = true := by
  rw [isUsed_iff h₀]
  constructor
  · rintro ⟨s, hs, hkey⟩
    rcases (h.live_iff s).mp hs with hs | hs
    · exact ⟨s, hs, hkey⟩
    · obtain ⟨hdone, -⟩ := h.key_of_mem hs
      exact absurd ((Prod.mk.inj hkey).2 ▸ hdone) hsrc
  · rintro ⟨s, hs, hkey⟩
    exact ⟨s, (h.live_iff s).mpr (.inl hs), hkey⟩

section Attach

variable {live' : List (TableSource plbSourceHash)} {source : TableSource plbSourceHash}
  {src : String}

/-- The next source is not one of the book, nor is its address. -/
theorem address_notMem (h : Building c₀ live₀ symbol c live book done) (hsrc : src ∉ done)
    (hp : Provided c live (symbol, src) source c' live') :
    source.address ∉ book.sources.map TableSource.address := by
  rw [List.mem_map]
  rintro ⟨s, hs, heq⟩
  have hlive : s ∈ live' := (hp.live_iff s).mpr (.inl ((h.live_iff s).mpr (.inr hs)))
  obtain rfl := hp.registered.addresses s hlive source ((hp.live_iff source).mpr (.inr rfl)) heq
  have hsource : s.source = src := (Prod.mk.inj hp.key_eq).2
  exact hsrc (hsource ▸ (h.key_of_mem hs).1)

theorem consumers_provided (h : Building c₀ live₀ symbol c live book done) (hsrc : src ∉ done)
    (hp : Provided c live (symbol, src) source c' live') :
    c'.consumers source.address = c₀.consumers source.address := by
  rw [hp.consumers]
  exact h.others _ (h.address_notMem hsrc hp)

theorem live_iff_provided (h : Building c₀ live₀ symbol c live book done)
    (hp : Provided c live (symbol, src) source c' live') (s : TableSource plbSourceHash) :
    s ∈ live' ↔ s ∈ live₀ ∨ s ∈ book.sources ++ [source] := by
  rw [hp.live_iff, h.live_iff, List.mem_append, List.mem_singleton, or_assoc]

theorem keys_provided (h : Building c₀ live₀ symbol c live book done)
    (hp : Provided c live (symbol, src) source c' live') :
    (book.sources ++ [source]).map TableSource.key =
      (done ++ [src]).map fun src => (symbol, src) := by
  rw [List.map_append, List.map_append, h.keys, List.map_singleton, hp.key_eq, List.map_singleton]

/-- The book becomes a consumer of its next source. -/
theorem attach (h : Building c₀ live₀ symbol c live book done) (hsrc : src ∉ done)
    (hp : Provided c live (symbol, src) source c' live')
    (hallocated : env.consumerAllocated src = true) :
    ∃ c'', plbSourceAddBook env c' source book.address book.sources.length = some c'' ∧
      Building c₀ live₀ symbol c'' live' { book with sources := book.sources ++ [source] }
        (done ++ [src]) := by
  have hnotMem := h.address_notMem hsrc hp
  have hsource : source.source = src := (Prod.mk.inj hp.key_eq).2
  refine ⟨_, by rw [plbSourceAddBook, hsource, if_pos hallocated], ?_⟩
  exact
    { registered :=
        { hp.registered with
          idle := by
            intro a ha
            have hne : a ≠ source.address :=
              (ha source ((hp.live_iff source).mpr (.inr rfl))).symm
            simp only [Function.update_of_ne hne]
            exact hp.registered.idle a ha }
      books := hp.books.trans h.books
      address := h.address
      next := h.next.trans_le hp.next
      keys := h.keys_provided hp
      live_iff := h.live_iff_provided hp
      consumer := by
        intro i s hs
        rw [List.getElem?_append] at hs
        split at hs
        · have hmem : s ∈ book.sources := List.mem_of_getElem? hs
          have hne : s.address ≠ source.address := by
            intro heq
            exact hnotMem (heq ▸ List.mem_map_of_mem hmem)
          simp only [Function.update_of_ne hne, hp.consumers]
          exact h.consumer i s hs
        · rw [List.getElem?_singleton] at hs
          split at hs
          · obtain rfl : i = book.sources.length := by omega
            obtain rfl := Option.some.inj hs
            simp only [Function.update_self, h.consumers_provided hsrc hp]
          · exact nomatch hs
      others := by
        intro a ha
        rw [List.map_append, List.mem_append, not_or] at ha
        have hne : a ≠ source.address := by simpa using ha.2
        simp only [Function.update_of_ne hne, hp.consumers]
        exact h.others a ha.1
      within := hp.within _ h.within }

/-- There is no memory for the consumer. -/
theorem attach_failed (h₀ : Linked c₀ live₀) (h : Building c₀ live₀ symbol c live book done)
    (hdone : (done ++ [src]).Nodup) (hp : Provided c live (symbol, src) source c' live')
    (hallocated : env.consumerAllocated src = false) :
    plbSourceAddBook env c' source book.address book.sources.length = none ∧
      Undoable c₀ live₀ c' live' { book with sources := book.sources ++ [source] } := by
  have hsrc : src ∉ done := by
    have hdisjoint := (List.nodup_append.mp hdone).2.2
    intro hmem
    exact hdisjoint src hmem src (by simp) rfl
  have hnotMem := h.address_notMem hsrc hp
  have hsource : source.source = src := (Prod.mk.inj hp.key_eq).2
  refine ⟨by rw [plbSourceAddBook, hsource, hallocated]; rfl, ?_⟩
  have hundoable := h.undoable hdone.of_append_left
  exact
    { registered := hp.registered
      books := hp.books.trans h.books
      next := h.next.le.trans hp.next
      nodup := by
        rw [List.nodup_append]
        refine ⟨hundoable.nodup, List.nodup_singleton _, ?_⟩
        rintro s hs t ht rfl
        rw [List.mem_singleton.mp ht] at hs
        exact hnotMem (List.mem_map_of_mem hs)
      live_iff := h.live_iff_provided hp
      without := by
        funext a
        by_cases ha : a = source.address
        · subst ha
          -- the book is not a consumer of this source
          have hfresh : ∀ x ∈ c₀.consumers source.address, ¬ x.consumer = book.address := by
            intro x hx heq
            have hlt := h₀.consumer_lt hx
            rw [heq, h.address] at hlt
            exact lt_irrefl _ hlt
          simp only [consumersWithout, List.map_append, List.mem_append, List.map_singleton,
            List.mem_singleton, or_true, if_true, h.consumers_provided hsrc hp]
          exact List.eraseP_of_forall_not (by simpa using hfresh)
        · rw [← hundoable.without]
          simp [consumersWithout, ha, hp.consumers]
      within := hp.within _ h.within }

/-- The subscriptions of the new sources, with that of the next one. -/
theorem closed_provided (h₀ : Linked c₀ live₀)
    (h : Building c₀ live₀ symbol c live book done)
    (hp : Provided c live (symbol, src) source c' live')
    (hclosed : ∀ src' ∈ done ++ [src], isUsed c₀ symbol src' = false →
      env.subscriptionClosed src' = true)
    {s : TableSource plbSourceHash} (hs : s ∈ book.sources ++ [source])
    (hidle : c₀.consumers s.address = []) : env.subscriptionClosed s.source = true := by
  rcases List.mem_append.mp hs with hs | hs
  · exact h.closed h₀ (fun src' hmem => hclosed src' (List.mem_append_left _ hmem)) hs hidle
  · obtain rfl := List.mem_singleton.mp hs
    have hsource : s.source = src := (Prod.mk.inj hp.key_eq).2
    rw [hsource]
    refine hclosed src (by simp) ?_
    by_contra hused
    obtain ⟨t, ht, htkey⟩ := (isUsed_iff h₀).mp (by simpa using hused)
    have hlive : t ∈ live := (h.live_iff t).mpr (.inl ht)
    have hts := hp.registered.holding.eq_of_key ((hp.live_iff t).mpr (.inl hlive))
      ((hp.live_iff s).mpr (.inr rfl)) (htkey.trans hp.key_eq.symm)
    exact h₀.consumers_ne_nil (hts ▸ ht) hidle

end Attach

/-- The next source is in the table, or it is created, and then the table has room for the other
ones too; or it cannot be created. -/
theorem provide (h₀ : Linked c₀ live₀) (h : Building c₀ live₀ symbol c live book done)
    {src : String} (hsrc : src ∉ done)
    (hclosed : isUsed c₀ symbol src = false → env.sourceCreation src = .failedSubscribed →
      env.subscriptionClosed src = true)
    (hroom : newSources env (isUsed c₀ symbol) (src :: srcs) = 0 ∨
      live.length + newSources env (isUsed c₀ symbol) (src :: srcs) ≤ 513) :
    (∃ source c' live', findOrCreateSource env c symbol src = .ok (some source, c') ∧
      Provided c live (symbol, src) source c' live' ∧
      (isUsed c₀ symbol src = false → env.sourceCreation src = .created) ∧
      (env.consumerAllocated src = true →
        newSources env (isUsed c₀ symbol) srcs = 0 ∨
          live'.length + newSources env (isUsed c₀ symbol) srcs ≤ 513)) ∨
    (isUsed c₀ symbol src = false ∧ env.sourceCreation src ≠ .created) ∧
      ∃ next ≥ c.nextAddress,
        findOrCreateSource env c symbol src = .ok (none, { c with nextAddress := next }) := by
  cases hused : isUsed c₀ symbol src with
  | true =>
      left
      have hknown := (h.known_iff h₀ hsrc).mpr hused
      cases hfind : live.find? fun s => s.key = (symbol, src) with
      | none =>
          obtain ⟨s, hs, hkey⟩ := hknown
          have hne := List.find?_eq_none.mp hfind s hs
          simp [hkey] at hne
      | some source =>
          obtain ⟨hfound, hp⟩ : findOrCreateSource env c symbol src = .ok (some source, c) ∧
              Provided c live (symbol, src) source c live := h.registered.provided_of_find hfind
          refine ⟨source, c, live, hfound, hp, nofun, ?_⟩
          intro hallocated
          simpa [newSources, hused, hallocated] using hroom
  | false =>
      have hkey : ∀ s ∈ live, s.key ≠ (symbol, src) := by
        intro s hs heq
        have hknown := (h.known_iff h₀ hsrc).mp ⟨s, hs, heq⟩
        rw [hused] at hknown
        exact Bool.noConfusion hknown
      by_cases hcreated : env.sourceCreation src = .created
      · left
        simp only [newSources, hused, hcreated, if_true, Bool.false_eq_true, if_false] at hroom
        obtain ⟨source, c', live', hfound, hp⟩ :=
          h.registered.provided_of_created hkey hcreated (by omega)
        refine ⟨source, c', live', hfound, hp, fun _ => hcreated, ?_⟩
        intro hallocated
        have hlength := hp.length
        rw [if_neg (by simpa using hkey)] at hlength
        rw [if_pos hallocated] at hroom
        omega
      · exact .inr ⟨⟨rfl, hcreated⟩,
          h.registered.findOrCreate_failed hkey hcreated (hclosed hused)⟩

/-- What is undone with the next source is undone later, too. -/
theorem closed_later {src : String}
    (hclosed : ∀ undone, undoneSources env (isUsed c₀ symbol) (src :: srcs) = some undone →
      (∀ src' ∈ done, isUsed c₀ symbol src' = false → env.subscriptionClosed src' = true) ∧
        ∀ src' ∈ undone, env.subscriptionClosed src' = true)
    (hcreated : isUsed c₀ symbol src = false → env.sourceCreation src = .created)
    (undone : List String)
    (hundone : (if env.consumerAllocated src then undoneSources env (isUsed c₀ symbol) srcs
      else some []) = some undone) :
    (∀ src' ∈ done ++ [src], isUsed c₀ symbol src' = false → env.subscriptionClosed src' = true) ∧
      ∀ src' ∈ undone, env.subscriptionClosed src' = true := by
  cases hused : isUsed c₀ symbol src with
  | true =>
      have hall := hclosed undone (by simp [undoneSources, hused, hundone])
      refine ⟨?_, hall.2⟩
      intro src' hmem hunused
      rcases List.mem_append.mp hmem with hmem | hmem
      · exact hall.1 src' hmem hunused
      · rw [List.mem_singleton.mp hmem, hused] at hunused
        exact Bool.noConfusion hunused
  | false =>
      have hall := hclosed (src :: undone)
        (by simp [undoneSources, hused, hcreated hused, hundone])
      refine ⟨?_, fun src' hmem => hall.2 src' (.tail _ hmem)⟩
      intro src' hmem hunused
      rcases List.mem_append.mp hmem with hmem | hmem
      · exact hall.1 src' hmem hunused
      · rw [List.mem_singleton.mp hmem]
        exact hall.2 src (.head _)

/-- The loop of `dx_create_price_level_book` over the sources: either the book gets all of them, or
nothing is left behind. -/
theorem addSources (h₀ : Linked c₀ live₀) (h : Building c₀ live₀ symbol c live book done)
    (hnodup : (done ++ srcs).Nodup)
    (hclosed : ∀ undone, undoneSources env (isUsed c₀ symbol) srcs = some undone →
      (∀ src ∈ done, isUsed c₀ symbol src = false → env.subscriptionClosed src = true) ∧
        ∀ src ∈ undone, env.subscriptionClosed src = true)
    (hroom : newSources env (isUsed c₀ symbol) srcs = 0 ∨
      live.length + newSources env (isUsed c₀ symbol) srcs ≤ 513) :
    (∃ c' live', PriceLevelBook.addSources env symbol srcs c book = .ok (c', none) ∧
      Unchanged c₀ c' ∧ Linked c' live') ∨
    ∃ c' live' book', PriceLevelBook.addSources env symbol srcs c book = .ok (c', some book') ∧
      Building c₀ live₀ symbol c' live' book' (done ++ srcs) := by
  induction srcs generalizing c live book done with
  | nil => exact .inr ⟨c, live, book, rfl, by rwa [List.append_nil]⟩
  | cons src srcs ih =>
      have hcons : done ++ src :: srcs = (done ++ [src]) ++ srcs := by simp
      have hdone : (done ++ [src]).Nodup := (hcons ▸ hnodup).of_append_left
      have hsrc : src ∉ done := by
        intro hmem
        exact (List.nodup_append.mp hdone).2.2 src hmem src (by simp) rfl
      have hsubscribed : isUsed c₀ symbol src = false →
          env.sourceCreation src = .failedSubscribed → env.subscriptionClosed src = true := by
        intro hused hcreation
        exact (hclosed [src] (by simp [undoneSources, hused, hcreation])).2 src (.head _)
      rcases h.provide h₀ hsrc hsubscribed hroom with
        ⟨source, c', live', hfound, hp, hcreated, hroom'⟩ |
        ⟨⟨hused, hcreation⟩, next, hnext, hfailed⟩
      · have hlater := closed_later hclosed hcreated
        cases hallocated : env.consumerAllocated src with
        | true =>
            obtain ⟨c'', hadd, hbuilding⟩ := h.attach hsrc hp hallocated
            have hstep : PriceLevelBook.addSources env symbol (src :: srcs) c book =
                PriceLevelBook.addSources env symbol srcs c''
                  { book with sources := book.sources ++ [source] } := by
              simp only [PriceLevelBook.addSources, hfound, hadd, bind, Except.bind]
            rw [hstep, hcons]
            refine ih hbuilding (hcons ▸ hnodup) (fun undone hundone => ?_) (hroom' hallocated)
            exact hlater undone (by rw [hallocated, if_pos rfl]; exact hundone)
        | false =>
            -- the source is in the table, but the book is not its consumer
            obtain ⟨hadd, hundoable⟩ := h.attach_failed h₀ hdone hp hallocated
            have hclosed' := (hlater [] (by rw [hallocated]; rfl)).1
            obtain ⟨c'', live'', hundo, hunchanged, hlinked⟩ :=
              hundoable.undo h₀ fun s hs => h.closed_provided h₀ hp hclosed' hs
            refine .inl ⟨c'', live'', ?_, hunchanged, hlinked⟩
            simp only [PriceLevelBook.addSources, hfound, hadd, hundo, bind, Except.bind]
      · -- the source could not be created: the sources so far are undone
        have hmoved : Building c₀ live₀ symbol { c with nextAddress := next } live book done :=
          { h with
            registered := h.registered.moveNext hnext
            next := h.next.trans_le hnext }
        have hclosedDone : ∀ src' ∈ done, isUsed c₀ symbol src' = false →
            env.subscriptionClosed src' = true := by
          cases hcase : env.sourceCreation src with
          | created => exact absurd hcase hcreation
          | failed => exact (hclosed [] (by simp [undoneSources, hused, hcase])).1
          | failedSubscribed => exact (hclosed [src] (by simp [undoneSources, hused, hcase])).1
        obtain ⟨c'', live'', hundo, hunchanged, hlinked⟩ :=
          (hmoved.undoable hdone.of_append_left).undo h₀
            fun s hs => hmoved.closed h₀ hclosedDone hs
        refine .inl ⟨c'', live'', ?_, hunchanged, hlinked⟩
        simp only [PriceLevelBook.addSources, hfailed, hundo, bind, Except.bind]

/-- A book without sources yet. -/
theorem start (h₀ : Linked c₀ live₀) (symbol : String) :
    Building c₀ live₀ symbol { c₀ with nextAddress := c₀.nextAddress + 1 } live₀
      ⟨c₀.nextAddress, symbol, []⟩ [] where
  registered := h₀.moveNext (Nat.le_succ _)
  books := rfl
  address := rfl
  next := Nat.lt_succ_self _
  keys := rfl
  live_iff := by simp
  consumer := by simp
  others _ _ := rfl
  within := h₀.holding.within

/-- The consumers of a source: the book, and those from before. -/
theorem mem_consumers (h : Building c₀ live₀ symbol c live book done) (hdone : done.Nodup)
    {s : TableSource plbSourceHash} (hs : s ∈ live) (x : Consumer) :
    x ∈ c.consumers s.address ↔
      (book.address = x.consumer ∧ book.sources[x.sourceidx]? = some s) ∨
        x ∈ c₀.consumers s.address := by
  by_cases hmem : s ∈ book.sources
  · obtain ⟨i, hi⟩ := List.mem_iff_getElem?.mp hmem
    rw [h.consumer i s hi, List.mem_cons]
    refine or_congr_left ⟨?_, ?_⟩
    · rintro rfl
      exact ⟨rfl, hi⟩
    · rintro ⟨haddress, hidx⟩
      have hlt := (List.getElem?_eq_some_iff.mp hidx).1
      have heq := (List.getElem?_inj hlt (h.nodup hdone)).mp (hidx.trans hi.symm)
      rw [haddress, ← heq]
  · have hnotMem : s.address ∉ book.sources.map TableSource.address := by
      rw [List.mem_map]
      rintro ⟨t, ht, heq⟩
      have hts := h.registered.addresses t ((h.live_iff t).mpr (.inr ht)) s hs heq
      exact hmem (hts ▸ ht)
    rw [h.others _ hnotMem]
    refine ⟨.inr, ?_⟩
    rintro (⟨-, hidx⟩ | hx)
    · exact absurd (List.mem_of_getElem? hidx) hmem
    · exact hx

/-- The consumers from before are the books from before, also of a source that is new. -/
theorem mem_consumers_before (h₀ : Linked c₀ live₀)
    (h : Building c₀ live₀ symbol c live book done) {s : TableSource plbSourceHash}
    (hs : s ∈ live) (x : Consumer) :
    x ∈ c₀.consumers s.address ↔
      ∃ b ∈ c₀.books, b.address = x.consumer ∧ b.sources[x.sourceidx]? = some s := by
  by_cases hbefore : s ∈ live₀
  · exact h₀.consumer s hbefore x
  · have hidle : c₀.consumers s.address = [] := by
      refine h₀.idle s.address fun t ht heq => hbefore ?_
      have hts := h.registered.addresses t ((h.live_iff t).mpr (.inl ht)) s hs heq
      exact hts ▸ ht
    rw [hidle]
    refine iff_of_false (List.not_mem_nil) ?_
    rintro ⟨b, hb, -, hidx⟩
    exact hbefore ((h₀.used s).mpr ⟨b, hb, List.mem_of_getElem? hidx⟩)

/-- A book with all of its sources is open. -/
theorem linked (h₀ : Linked c₀ live₀) (h : Building c₀ live₀ symbol c live book done)
    (hdone : done.Nodup) : Linked { c with books := c.books ++ [book] } live := by
  have hnew : ∀ b ∈ c₀.books, b.address ≠ book.address := by
    intro b hb heq
    have hlt := h₀.bookFresh b hb
    rw [heq, h.address] at hlt
    exact lt_irrefl _ hlt
  exact { h.registered with
    used := by
      intro s
      rw [h.live_iff, h₀.used, h.books]
      simp only [List.mem_append, List.mem_singleton, or_and_right, exists_or, exists_eq_left]
    consumer := by
      intro s hs x
      rw [h.mem_consumers hdone hs, h.mem_consumers_before h₀ hs, h.books]
      simp only [List.mem_append, List.mem_singleton, or_and_right, exists_or, exists_eq_left,
        or_comm]
    once := by
      intro a
      by_cases ha : a ∈ book.sources.map TableSource.address
      · obtain ⟨s, hs, rfl⟩ := List.mem_map.mp ha
        obtain ⟨i, hi⟩ := List.mem_iff_getElem?.mp hs
        rw [h.consumer i s hi, List.map_cons, List.nodup_cons]
        refine ⟨?_, h₀.once _⟩
        rw [List.mem_map]
        rintro ⟨x, hx, heq⟩
        have hlt := h₀.consumer_lt hx
        rw [heq, h.address] at hlt
        exact lt_irrefl _ hlt
      · rw [h.others a ha]
        exact h₀.once a
    bookAddresses := by
      rw [h.books, List.map_append, List.nodup_append]
      refine ⟨h₀.bookAddresses, List.nodup_singleton _, ?_⟩
      rintro a ha b hb rfl
      obtain ⟨b', hb', rfl⟩ := List.mem_map.mp ha
      exact hnew b' hb' (List.mem_singleton.mp hb)
    bookFresh := by
      intro b hb
      rw [h.books] at hb
      rcases List.mem_append.mp hb with hb | hb
      · exact (h₀.bookFresh b hb).trans h.next
      · rw [List.mem_singleton.mp hb, h.address]
        exact h.next
    bookSources := by
      intro b hb
      rw [h.books] at hb
      rcases List.mem_append.mp hb with hb | hb
      · exact h₀.bookSources b hb
      · rw [List.mem_singleton.mp hb]
        exact h.nodup hdone }

end Building

/-! ### The call -/

theorem selectedSources_nodup (srcflags : ℕ) : (selectedSources srcflags).Nodup := by
  have hall : dxAllOrderSources.Nodup := by decide
  have hsub : (selectedSources srcflags).Sublist (dxAllOrderSources.zipIdx.map Prod.fst) :=
    List.filter_sublist.map Prod.fst
  rw [List.zipIdx_map_fst] at hsub
  exact hall.sublist hsub

/-- Creating a book. -/
theorem Linked.create (h : Linked c live) {srcflags : ℕ}
    (hcan : env.bookAllocated = true → CanCreate env c symbol (selectedSources srcflags)) :
    ∃ c' live' result, createPriceLevelBookWith env c symbol srcflags = .ok (c', result) ∧
      Linked c' live' ∧ (result = none → Unchanged c c') := by
  unfold createPriceLevelBookWith
  split
  case isFalse =>
    exact ⟨c, live, none, rfl, h, fun _ => ⟨rfl, rfl, fun _ _ => rfl, rfl, rfl, rfl⟩⟩
  case isTrue hbook =>
    obtain ⟨hroom, hclosed⟩ := hcan hbook
    rw [h.holding.size] at hroom
    have hnodup : ([] ++ selectedSources srcflags).Nodup := selectedSources_nodup srcflags
    rcases (Building.start h symbol).addSources h hnodup
        (fun undone hundone => ⟨nofun, hclosed undone hundone⟩) hroom with
      ⟨c', live', hadd, hunchanged, hlinked⟩ | ⟨c', live', book, hadd, hbuilding⟩
    · refine ⟨c', live', none, ?_, hlinked, fun _ => hunchanged⟩
      simp only [hadd, bind, Except.bind, pure, Except.pure]
    · refine ⟨_, live', some book, ?_, hbuilding.linked h hnodup, nofun⟩
      simp only [hadd, bind, Except.bind, pure, Except.pure]

end DxFeed.PriceLevelBook
