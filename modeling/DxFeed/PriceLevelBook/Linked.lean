import DxFeed.PriceLevelBook.BookClear

/-!
# Books and their sources

Between two calls the table holds the sources of the open books, and the consumers of a source are
the books that use it.

* `Linked`: this invariant;
* `Linked.close`: closing a book keeps it;
* `Building`: a book that has some of its sources;
* `Linked.create`: creating a book keeps the invariant, and leaves everything as it was if it fails,
  as long as the table need not grow and subscriptions can be closed.
-/

namespace DxFeed.PriceLevelBook

open LinearProbing

variable {plbSourceHash : String → String → ℕ} {env : Environment}
  {c : PlbContext plbSourceHash} {live : List (TableSource plbSourceHash)}

/-- The table holds the sources of the open books, each of which is a consumer of its sources, once
and with their indices. -/
structure Linked (c : PlbContext plbSourceHash) (live : List (TableSource plbSourceHash)) : Prop
    extends Registered c live where
  used : ∀ s, s ∈ live ↔ ∃ book ∈ c.books, s ∈ book.sources
  consumer : ∀ s ∈ live, ∀ x, x ∈ c.consumers s.address ↔
    ∃ book ∈ c.books, book.address = x.consumer ∧ book.sources[x.sourceidx]? = some s
  once : ∀ a, ((c.consumers a).map Consumer.consumer).Nodup
  bookAddresses : (c.books.map BookObject.address).Nodup
  bookFresh : ∀ book ∈ c.books, book.address < c.nextAddress
  bookSources : ∀ book ∈ c.books, book.sources.Nodup

namespace Linked

theorem init (plbSourceHash : String → String → ℕ) : Linked (PlbContext.init plbSourceHash) [] where
  holding := Holding.init plbSourceHash
  addresses := by simp
  fresh := by simp
  idle _ _ := rfl
  subscribed := by simp [PlbContext.init]
  used := by simp [PlbContext.init]
  consumer := by simp
  once _ := List.nodup_nil
  bookAddresses := List.nodup_nil
  bookFresh := by simp [PlbContext.init]
  bookSources := by simp [PlbContext.init]

/-- A source in use has a consumer. -/
theorem consumers_ne_nil (h : Linked c live) {s : TableSource plbSourceHash} (hs : s ∈ live) :
    c.consumers s.address ≠ [] := by
  obtain ⟨book, hbook, hmem⟩ := (h.used s).mp hs
  obtain ⟨i, hi⟩ := List.mem_iff_getElem?.mp hmem
  have hx : ⟨book.address, i⟩ ∈ c.consumers s.address := (h.consumer s hs _).mpr ⟨book, hbook, rfl, hi⟩
  exact List.ne_nil_of_mem hx

theorem eq_of_address (h : Linked c live) {book book' : BookObject plbSourceHash}
    (hbook : book ∈ c.books) (hbook' : book' ∈ c.books) (heq : book.address = book'.address) :
    book = book' :=
  List.inj_on_of_nodup_map h.bookAddresses hbook hbook' heq

/-- The consumers that are left when a book is closed. -/
theorem mem_consumersWithout (h : Linked c live) {book : BookObject plbSourceHash}
    (hbook : book ∈ c.books) {s : TableSource plbSourceHash} (hs : s ∈ live) (x : Consumer) :
    x ∈ consumersWithout c book s.address ↔
      x ∈ c.consumers s.address ∧ x.consumer ≠ book.address := by
  unfold consumersWithout
  split
  case isTrue =>
    rw [eraseP_eq_filter (h.once s.address), List.mem_filter]
    simp
  case isFalse hnotMem =>
    refine ⟨fun hx => ⟨hx, fun heq => hnotMem ?_⟩, And.left⟩
    obtain ⟨book', hbook', haddress, hidx⟩ := (h.consumer s hs x).mp hx
    obtain rfl := h.eq_of_address hbook' hbook (haddress.trans heq)
    exact List.mem_map.mpr ⟨s, List.mem_of_getElem? hidx, rfl⟩

theorem consumersWithout_nodup (h : Linked c live) (book : BookObject plbSourceHash) (a : ℕ) :
    ((consumersWithout c book a).map Consumer.consumer).Nodup := by
  unfold consumersWithout
  split
  · exact (h.once a).sublist ((List.eraseP_sublist).map _)
  · exact h.once a

theorem find_book (h : Linked c live) {book : BookObject plbSourceHash} (hbook : book ∈ c.books) :
    c.books.find? (fun b => b.address = book.address) = some book := by
  cases hfound : c.books.find? fun b => b.address = book.address with
  | none =>
      have hne := List.find?_eq_none.mp hfound book hbook
      simp at hne
  | some book' =>
      have haddress : book'.address = book.address := by simpa using List.find?_some hfound
      rw [h.eq_of_address (List.mem_of_find?_eq_some hfound) hbook haddress]

theorem mem_books_erase (h : Linked c live) {book b : BookObject plbSourceHash} :
    b ∈ c.books.erase book ↔ b ≠ book ∧ b ∈ c.books :=
  (List.Nodup.of_map _ h.bookAddresses).mem_erase_iff

/-- Without a book, its sources have the consumers among the other books. -/
theorem consumer_without (h : Linked c live) {book : BookObject plbSourceHash}
    (hbook : book ∈ c.books) {s : TableSource plbSourceHash} (hs : s ∈ live) (x : Consumer) :
    x ∈ consumersWithout c book s.address ↔
      ∃ b ∈ c.books.erase book, b.address = x.consumer ∧ b.sources[x.sourceidx]? = some s := by
  rw [h.mem_consumersWithout hbook hs, h.consumer s hs]
  constructor
  · rintro ⟨⟨book', hbook', haddress, hidx⟩, hne⟩
    refine ⟨book', h.mem_books_erase.mpr ⟨?_, hbook'⟩, haddress, hidx⟩
    rintro rfl
    exact hne haddress.symm
  · rintro ⟨book', hbook', haddress, hidx⟩
    obtain ⟨hne, hbook'⟩ := h.mem_books_erase.mp hbook'
    refine ⟨⟨book', hbook', haddress, hidx⟩, ?_⟩
    intro heq
    exact hne (h.eq_of_address hbook' hbook (haddress.trans heq))

/-- Without a book, the sources in use are those that have a consumer left. -/
theorem used_without (h : Linked c live) {book : BookObject plbSourceHash} (hbook : book ∈ c.books)
    (s : TableSource plbSourceHash) :
    (s ∈ live ∧ (s ∈ book.sources → consumersWithout c book s.address ≠ [])) ↔
      ∃ b ∈ c.books.erase book, s ∈ b.sources := by
  constructor
  · rintro ⟨hs, hused⟩
    -- a source of the book has a consumer left, and another source has one by the invariant
    by_cases hin : s ∈ book.sources
    · obtain ⟨x, hx⟩ := List.exists_mem_of_ne_nil _ (hused hin)
      obtain ⟨book', hbook', -, hidx⟩ := (h.consumer_without hbook hs x).mp hx
      exact ⟨book', hbook', List.mem_of_getElem? hidx⟩
    · obtain ⟨book', hbook', hmem⟩ := (h.used s).mp hs
      refine ⟨book', h.mem_books_erase.mpr ⟨?_, hbook'⟩, hmem⟩
      rintro rfl
      exact hin hmem
  · rintro ⟨book', hbook', hmem⟩
    have hs : s ∈ live := (h.used s).mpr ⟨book', (h.mem_books_erase.mp hbook').2, hmem⟩
    obtain ⟨i, hi⟩ := List.mem_iff_getElem?.mp hmem
    have hx : ⟨book'.address, i⟩ ∈ consumersWithout c book s.address :=
      (h.consumer_without hbook hs _).mpr ⟨book', hbook', rfl, hi⟩
    exact ⟨hs, fun _ => List.ne_nil_of_mem hx⟩

/-- Closing a book. -/
theorem close (h : Linked c live) {book : BookObject plbSourceHash} (hbook : book ∈ c.books)
    (hclosed : ∀ s ∈ book.sources, consumersWithout c book s.address = [] →
      env.subscriptionClosed s.source = true) :
    ∃ c' live', closePriceLevelBook env c book.address = .ok c' ∧ Linked c' live' := by
  have hsub : ∀ s ∈ book.sources, s ∈ live := fun s hs => (h.used s).mpr ⟨book, hbook, hs⟩
  obtain ⟨table, subscriptions, live', hclear, hregistered, hlive, -⟩ :=
    h.bookClear (h.bookSources book hbook) hsub hclosed
  have hclose : closePriceLevelBook env c book.address = .ok
      { c with
        table := table
        subscriptions := subscriptions
        consumers := consumersWithout c book
        books := c.books.erase book } := by
    simp only [closePriceLevelBook, h.find_book hbook, hclear, bind, Except.bind, pure, Except.pure]
  refine ⟨_, live', hclose, ?_⟩
  exact { hregistered with
    used := fun s => (hlive s).trans (h.used_without hbook s)
    consumer := fun s hs => h.consumer_without hbook ((hlive s).mp hs).1
    once := h.consumersWithout_nodup book
    bookAddresses := h.bookAddresses.sublist ((List.erase_sublist ..).map _)
    bookFresh := fun b hb => h.bookFresh b (List.mem_of_mem_erase hb)
    bookSources := fun b hb => h.bookSources b (List.mem_of_mem_erase hb) }

/-- The consumers are books that have been created. -/
theorem consumer_lt (h : Linked c live) {a : ℕ} {x : Consumer} (hx : x ∈ c.consumers a) :
    x.consumer < c.nextAddress := by
  by_cases hlive : ∀ s ∈ live, s.address ≠ a
  · rw [h.idle a hlive] at hx
    exact absurd hx (List.not_mem_nil)
  · push Not at hlive
    obtain ⟨s, hs, rfl⟩ := hlive
    obtain ⟨book, hbook, haddress, -⟩ := (h.consumer s hs x).mp hx
    rw [← haddress]
    exact h.bookFresh book hbook

end Linked

/-! ### A source for a book -/

/-- The context holds one source more, at most. -/
structure Provided (c : PlbContext plbSourceHash) (live : List (TableSource plbSourceHash))
    (key : String × String) (source : TableSource plbSourceHash) (c' : PlbContext plbSourceHash)
    (live' : List (TableSource plbSourceHash)) : Prop where
  registered : Registered c' live'
  key_eq : source.key = key
  live_iff : ∀ s, s ∈ live' ↔ s ∈ live ∨ s = source
  consumers : c'.consumers = c.consumers
  books : c'.books = c.books
  next : c.nextAddress ≤ c'.nextAddress
  within : ∀ base, Within base c.table.sources → Within base c'.table.sources
  length : live'.length =
    live.length + if ∃ s ∈ live, s.key = key then 0 else 1

namespace Registered

/-- The source is in the table. -/
theorem provided_of_find (h : Registered c live) {symbol src : String}
    {source : TableSource plbSourceHash}
    (hfind : live.find? (fun s => s.key = (symbol, src)) = some source) :
    findOrCreateSource env c symbol src = .ok (some source, c) ∧
      Provided c live (symbol, src) source c live := by
  have hkey : source.key = (symbol, src) := by simpa using List.find?_some hfind
  have hmem : source ∈ live := List.mem_of_find?_eq_some hfind
  refine ⟨?_, h, hkey, ?_, rfl, rfl, le_rfl, fun _ hbase => hbase, ?_⟩
  · simp [findOrCreateSource, h.holding.find, hfind, bind, Except.bind, pure, Except.pure]
  · intro s
    refine ⟨.inl, ?_⟩
    rintro (hs | rfl)
    · exact hs
    · exact hmem
  · rw [if_pos ⟨source, hmem, hkey⟩, Nat.add_zero]

/-- A new source in the table, with a subscription. -/
theorem withSource (h : Registered c live) {source : TableSource plbSourceHash}
    (haddress : source.address = c.nextAddress) {table : SourceTable plbSourceHash}
    (hholding : Holding table (source :: live)) :
    Registered { c with
      table := table
      subscriptions := insert c.nextAddress c.subscriptions
      nextAddress := c.nextAddress + 1 } (source :: live) where
  holding := hholding
  addresses := by
    intro s hs t ht heq
    rcases List.mem_cons.mp hs with rfl | hs'
    · rcases List.mem_cons.mp ht with rfl | ht'
      · rfl
      · have hlt := h.fresh t ht'
        omega
    · rcases List.mem_cons.mp ht with rfl | ht'
      · have hlt := h.fresh s hs'
        omega
      · exact h.addresses s hs' t ht' heq
  fresh := by
    intro s hs
    rcases List.mem_cons.mp hs with rfl | hs
    · exact haddress ▸ Nat.lt_succ_self _
    · exact (h.fresh s hs).trans (Nat.lt_succ_self _)
  idle := fun a ha => h.idle a fun s hs => ha s (.tail _ hs)
  subscribed := by
    intro a
    rw [Finset.mem_insert, h.subscribed]
    simp [haddress, eq_comm]

/-- A new source is created and added to a table that need not grow. -/
theorem provided_of_created (h : Registered c live) {symbol src : String}
    (hkey : ∀ s ∈ live, s.key ≠ (symbol, src)) (hcreated : env.sourceCreation src = .created)
    (hroom : live.length ≤ 512) :
    ∃ source c' live', findOrCreateSource env c symbol src = .ok (some source, c') ∧
      Provided c live (symbol, src) source c' live' := by
  have hfind : live.find? (fun s => s.key = (symbol, src)) = none := by
    rw [List.find?_eq_none]
    intro s hs
    simpa using hkey s hs
  obtain ⟨source, hsource⟩ : ∃ source : TableSource plbSourceHash, source =
      { address := c.nextAddress
        symbol := symbol
        source := src
        hash := plbSourceHash symbol src
        hash_eq := rfl } := ⟨_, rfl⟩
  have hsourceKey : source.key = (symbol, src) := by rw [hsource]; rfl
  have haddress : source.address = c.nextAddress := by rw [hsource]
  have hkey' : ∀ s ∈ live, s.key ≠ source.key := fun s hs => hsourceKey ▸ hkey s hs
  obtain ⟨table, hadd, hholding⟩ := h.holding.add hkey' hroom
  have htry : plbCtxTryAddSource env c.table source = .ok (some table) := by
    obtain ⟨pos, -, -, hpos, -⟩ := h.holding.findPos_not_mem hkey'
    have hsize : ¬ c.table.srcSize > c.table.srcCapacity / 2 := by
      rw [h.holding.size, h.holding.capacity]
      omega
    simp [plbCtxTryAddSource, hpos, hsize, hadd, bind, Except.bind, pure, Except.pure]
  refine ⟨source,
    { c with
      table := table
      subscriptions := insert c.nextAddress c.subscriptions
      nextAddress := c.nextAddress + 1 }, source :: live, ?_, ?_⟩
  · simp only [findOrCreateSource, h.holding.find, hfind, plbSourceCreateWith, hcreated, bind,
      Except.bind, pure, Except.pure, ← hsource, htry]
  · exact
      { registered := h.withSource haddress hholding
        key_eq := hsourceKey
        live_iff := fun s => by rw [List.mem_cons, or_comm]
        consumers := rfl
        books := rfl
        next := Nat.le_succ _
        within := fun base hbase => h.holding.add_within hkey' hroom hbase hadd
        length := by
          rw [if_neg (by simpa using hkey), List.length_cons] }

/-- The source cannot be created, and its subscription is closed again. -/
theorem findOrCreate_failed (h : Registered c live) {symbol src : String}
    (hkey : ∀ s ∈ live, s.key ≠ (symbol, src)) (hfailed : env.sourceCreation src ≠ .created)
    (hclosed : env.sourceCreation src = .failedSubscribed → env.subscriptionClosed src = true) :
    ∃ next ≥ c.nextAddress,
      findOrCreateSource env c symbol src = .ok (none, { c with nextAddress := next }) := by
  have hfind : live.find? (fun s => s.key = (symbol, src)) = none := by
    rw [List.find?_eq_none]
    intro s hs
    simpa using hkey s hs
  cases hcreation : env.sourceCreation src with
  | created => exact absurd hcreation hfailed
  | failed =>
      refine ⟨c.nextAddress, le_rfl, ?_⟩
      simp [findOrCreateSource, h.holding.find, hfind, plbSourceCreateWith, hcreation, bind,
        Except.bind, pure, Except.pure]
  | failedSubscribed =>
      have hnew : c.nextAddress ∉ c.subscriptions := by
        rw [h.subscribed]
        rintro ⟨s, hs, heq⟩
        exact absurd (h.fresh s hs) (by omega)
      refine ⟨c.nextAddress + 1, Nat.le_succ _, ?_⟩
      simp [findOrCreateSource, h.holding.find, hfind, plbSourceCreateWith, hcreation,
        closeSubscription, hclosed hcreation, Finset.erase_insert hnew, bind, Except.bind, pure,
        Except.pure]

theorem moveNext (h : Registered c live) {next : ℕ} (hnext : c.nextAddress ≤ next) :
    Registered { c with nextAddress := next } live :=
  { h with fresh := fun s hs => (h.fresh s hs).trans_le hnext }

end Registered

end DxFeed.PriceLevelBook
