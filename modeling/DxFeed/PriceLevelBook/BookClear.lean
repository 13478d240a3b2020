import DxFeed.PriceLevelBook.Lifecycle

/-!
# Closing a book

What `dx_plb_book_clear` does to the sources and their consumers.

* `Registered`: the table holds the sources that are in use, and their subscriptions are open;
* `Registered.cleanup`: `dx_plb_source_cleanup` takes a source without consumers out of the table;
* `Registered.bookClear`: the book is no consumer any more, and its sources that have no other
  consumer are gone.

The places of the sources that were in a table before the book are kept (`Within`).
-/

namespace DxFeed.PriceLevelBook

open LinearProbing

variable {plbSourceHash : String → String → ℕ} {env : Environment}

/-- An element with a value is removed where every value occurs once. -/
theorem eraseP_eq_filter {α β : Type*} [DecidableEq β] {f : α → β} {l : List α}
    (h : (l.map f).Nodup) (v : β) :
    l.eraseP (fun x => f x = v) = l.filter fun x => f x ≠ v := by
  induction l with
  | nil => rfl
  | cons a l ih =>
      obtain ⟨hnotMem, hnodup⟩ := List.nodup_cons.mp h
      by_cases hav : f a = v
      · have hl : l.filter (fun x => f x ≠ v) = l := by
          rw [List.filter_eq_self]
          intro x hx
          have hne : f x ≠ v := by
            rintro rfl
            exact hnotMem (List.mem_map.mpr ⟨x, hx, hav.symm⟩)
          simpa using hne
        rw [List.eraseP_cons_of_pos (by simpa using hav), List.filter_cons_of_neg (by simpa using hav),
          hl]
      · rw [List.eraseP_cons_of_neg (by simpa using hav), List.filter_cons_of_pos (by simpa using hav),
          ih hnodup]

/-- The slots of a smaller table, in which every source is found. -/
structure Within (base slots : ℕ → Option (TableSource plbSourceHash)) : Prop where
  path : Probed 1024 (fun k => plbSourceHash k.1 k.2 % 1024) TableSource.key base ∅
  sub : ∀ p < 1024, ∀ s, base p = some s → slots p = some s

/-- The table holds these sources, which have different addresses; only they have consumers and
open subscriptions. -/
structure Registered (c : PlbContext plbSourceHash) (live : List (TableSource plbSourceHash)) :
    Prop where
  holding : Holding c.table live
  addresses : ∀ s ∈ live, ∀ t ∈ live, s.address = t.address → s = t
  fresh : ∀ s ∈ live, s.address < c.nextAddress
  idle : ∀ a, (∀ s ∈ live, s.address ≠ a) → c.consumers a = []
  subscribed : ∀ a, a ∈ c.subscriptions ↔ ∃ s ∈ live, s.address = a

variable {c : PlbContext plbSourceHash} {live : List (TableSource plbSourceHash)}
  {source : TableSource plbSourceHash}

/-- A source is removed: the sources of a smaller table without it keep their places. -/
theorem Holding.remove_within {table table' : SourceTable plbSourceHash} {found : Bool}
    (h : Holding table live) (hmem : source ∈ live)
    {base : ℕ → Option (TableSource plbSourceHash)} (hbase : Within base table.sources)
    (hnone : ∀ p < 1024, base p ≠ some source)
    (hremove : plbCtxRemoveSource table source = .ok (found, table')) :
    Within base table'.sources := by
  obtain ⟨pos, hpos, hslot, hfind⟩ := h.findPos_mem hmem
  have hfree : base pos = none := by
    by_contra hsome
    obtain ⟨s, hs⟩ := Option.ne_none_iff_exists'.mp hsome
    have hsource : s = source := Option.some.inj ((hbase.sub pos hpos s hs).symm.trans hslot)
    exact hnone pos hpos (hsource ▸ hs)
  unfold plbCtxRemoveSource at hremove
  simp only [hfind, bind, Except.bind, hslot, Option.map_some, ne_eq, not_true_eq_false, if_false,
    h.capacity] at hremove
  cases hshift : shiftBack 1024 (fun k => plbSourceHash k.1 k.2 % 1024) TableSource.key mustMove
      1024 table.sources pos ((pos + 1) % 1024) with
  | none =>
      rw [hshift] at hremove
      exact nomatch hremove
  | some sources =>
      rw [hshift] at hremove
      obtain ⟨-, rfl⟩ := Prod.mk.inj (Except.ok.inj hremove)
      refine ⟨hbase.path, ?_⟩
      exact shiftBack_keeps (fun _ _ _ hhole hnp ht => mustMove_iff hhole hnp ht) mod_capacity_lt
        hbase.path hpos (next_lt hpos) hfree hbase.sub hshift

/-- A source is added: the sources of a smaller table keep their places. -/
theorem Holding.add_within {table table' : SourceTable plbSourceHash} (h : Holding table live)
    (hkey : ∀ s ∈ live, s.key ≠ source.key) (hhalf : live.length ≤ 512)
    {base : ℕ → Option (TableSource plbSourceHash)} (hbase : Within base table.sources)
    (hadd : plbCtxAddSource table source = .ok table') : Within base table'.sources := by
  obtain ⟨pos, -, hslot, hfind, -⟩ := h.findPos_not_mem hkey
  have hsize : ¬ table.srcSize > table.srcCapacity / 2 := by
    rw [h.size, h.capacity]
    omega
  unfold plbCtxAddSource at hadd
  simp only [hfind, bind, Except.bind, hsize, if_false, pure, Except.pure] at hadd
  obtain rfl := Except.ok.inj hadd
  refine ⟨hbase.path, ?_⟩
  intro p hp s hs
  have hne : p ≠ pos := by
    rintro rfl
    have hsome := hbase.sub p hp s hs
    rw [hslot] at hsome
    exact nomatch hsome
  simp only [SourceTable.store, Function.update_of_ne hne]
  exact hbase.sub p hp s hs

namespace Registered

theorem nodup (h : Registered c live) : live.Nodup := h.holding.nodup

/-- `dx_plb_source_cleanup` of a source with consumers does nothing. -/
theorem cleanup_used (hused : c.consumers source.address ≠ []) :
    plbSourceCleanup env c source = .ok c := by
  simp [plbSourceCleanup, hused, pure, Except.pure]

/-- `dx_plb_source_cleanup` of a source without consumers takes it out of the table and closes its
subscription. -/
theorem cleanup_unused (h : Registered c live) (hmem : source ∈ live)
    (hunused : c.consumers source.address = [])
    (hclosed : env.subscriptionClosed source.source = true) :
    ∃ table, plbCtxRemoveSource c.table source = .ok (true, table) ∧
      plbSourceCleanup env c source = .ok
        { c with table := table, subscriptions := c.subscriptions.erase source.address } ∧
      Registered
        { c with table := table, subscriptions := c.subscriptions.erase source.address }
        (live.erase source) := by
  obtain ⟨table, hremove, hholding⟩ := h.holding.remove source
  rw [decide_eq_true hmem] at hremove
  refine ⟨table, hremove, ?_, ?_⟩
  · simp [plbSourceCleanup, hunused, hremove, plbSourceClear, hclosed, closeSubscription, bind,
      Except.bind, pure, Except.pure]
  · have herase : ∀ s, s ∈ live.erase source ↔ s ≠ source ∧ s ∈ live :=
      fun s => h.nodup.mem_erase_iff
    exact
      { holding := hholding
        addresses := fun s hs t ht =>
          h.addresses s (List.mem_of_mem_erase hs) t (List.mem_of_mem_erase ht)
        fresh := fun s hs => h.fresh s (List.mem_of_mem_erase hs)
        idle := by
          intro a ha
          by_cases heq : source.address = a
          · rw [← heq]
            exact hunused
          · refine h.idle a fun s hs => ?_
            by_cases hsource : s = source
            · rw [hsource]
              exact heq
            · exact ha s ((herase s).mpr ⟨hsource, hs⟩)
        subscribed := by
          intro a
          rw [Finset.mem_erase, h.subscribed]
          constructor
          · rintro ⟨hne, s, hs, rfl⟩
            refine ⟨s, (herase s).mpr ⟨?_, hs⟩, rfl⟩
            rintro rfl
            exact hne rfl
          · rintro ⟨s, hs, rfl⟩
            obtain ⟨hne, hlive⟩ := (herase s).mp hs
            exact ⟨fun heq => hne (h.addresses s hlive source hmem heq), s, hlive, rfl⟩ }

/-- The sources of a list are cleaned up one after the other: those without consumers are gone. -/
theorem cleanup_all {sources : List (TableSource plbSourceHash)} (h : Registered c live)
    (hnodup : sources.Nodup) (hsub : ∀ s ∈ sources, s ∈ live)
    (hclosed : ∀ s ∈ sources, c.consumers s.address = [] →
      env.subscriptionClosed s.source = true) :
    ∃ table subscriptions live',
      sources.foldlM (plbSourceCleanup env) c =
        .ok { c with table := table, subscriptions := subscriptions } ∧
      Registered { c with table := table, subscriptions := subscriptions } live' ∧
      (∀ s, s ∈ live' ↔ s ∈ live ∧ (s ∈ sources → c.consumers s.address ≠ [])) ∧
      ∀ base, Within base c.table.sources →
        (∀ p < 1024, ∀ s, base p = some s → s ∈ live') → Within base table.sources := by
  induction sources generalizing c live with
  | nil => exact ⟨c.table, c.subscriptions, live, rfl, h, by simp, fun _ hbase _ => hbase⟩
  | cons source sources ih =>
      obtain ⟨hnotMem, hnodup⟩ := List.nodup_cons.mp hnodup
      have hmem : source ∈ live := hsub source (.head _)
      by_cases hunused : c.consumers source.address = []
      · obtain ⟨table, hremove, hcleanup, h'⟩ :=
          h.cleanup_unused hmem hunused (hclosed source (.head _) hunused)
        have hsub' : ∀ s ∈ sources, s ∈ live.erase source := by
          intro s hs
          rw [h.nodup.mem_erase_iff]
          refine ⟨?_, hsub s (.tail _ hs)⟩
          rintro rfl
          exact hnotMem hs
        obtain ⟨table', subscriptions, live', hfold, hregistered, hlive, hbase⟩ :=
          ih h' hnodup hsub' fun s hs => hclosed s (.tail _ hs)
        refine ⟨table', subscriptions, live', ?_, hregistered, ?_, ?_⟩
        · rw [List.foldlM_cons, hcleanup]
          exact hfold
        · intro s
          rw [hlive, h.nodup.mem_erase_iff, List.mem_cons]
          constructor
          · rintro ⟨⟨hne, hs⟩, hused⟩
            exact ⟨hs, fun hor => hused (hor.resolve_left hne)⟩
          · rintro ⟨hs, hused⟩
            refine ⟨⟨?_, hs⟩, fun hin => hused (.inr hin)⟩
            rintro rfl
            exact hused (.inl rfl) hunused
        · intro base hwithin hin
          refine hbase base (h.holding.remove_within hmem hwithin ?_ hremove) hin
          intro p hp hsource
          have hgone := (hlive source).mp (hin p hp source hsource)
          rw [h.nodup.mem_erase_iff] at hgone
          exact hgone.1.1 rfl
      · obtain ⟨table, subscriptions, live', hfold, hregistered, hlive, hbase⟩ :=
          ih h hnodup (fun s hs => hsub s (.tail _ hs)) fun s hs => hclosed s (.tail _ hs)
        refine ⟨table, subscriptions, live', ?_, hregistered, ?_, hbase⟩
        · rw [List.foldlM_cons, cleanup_used hunused]
          exact hfold
        · intro s
          rw [hlive, List.mem_cons]
          constructor
          · rintro ⟨hs, hused⟩
            refine ⟨hs, ?_⟩
            rintro (rfl | hin)
            · exact hunused
            · exact hused hin
          · rintro ⟨hs, hused⟩
            exact ⟨hs, fun hin => hused (.inr hin)⟩

end Registered

/-! ### The book -/

/-- The consumers of the sources of a book without the book. -/
def consumersWithout (c : PlbContext plbSourceHash) (book : BookObject plbSourceHash) (a : ℕ) :
    List Consumer :=
  if a ∈ book.sources.map TableSource.address then
    (c.consumers a).eraseP fun x => x.consumer = book.address
  else c.consumers a

theorem foldl_removeBook {sources : List (TableSource plbSourceHash)} (book : ℕ)
    (hnodup : (sources.map TableSource.address).Nodup) :
    sources.foldl (fun c source => plbSourceRemoveBook c source book) c =
      { c with
        consumers := fun a =>
          if a ∈ sources.map TableSource.address then
            (c.consumers a).eraseP fun x => x.consumer = book
          else c.consumers a } := by
  induction sources generalizing c with
  | nil => simp
  | cons source sources ih =>
      obtain ⟨hnotMem, hnodup⟩ := List.nodup_cons.mp hnodup
      rw [List.foldl_cons, ih hnodup]
      simp only [plbSourceRemoveBook, PlbContext.mk.injEq, true_and, and_true]
      funext a
      by_cases ha : a = source.address
      · subst ha
        simp [hnotMem]
      · simp [ha]

/-- `dx_plb_book_clear`: the book is no consumer any more, and those of its sources that have no
other consumer are gone. -/
theorem Registered.bookClear (h : Registered c live) {book : BookObject plbSourceHash}
    (hnodup : book.sources.Nodup) (hsub : ∀ s ∈ book.sources, s ∈ live)
    (hclosed : ∀ s ∈ book.sources, consumersWithout c book s.address = [] →
      env.subscriptionClosed s.source = true) :
    ∃ table subscriptions live',
      plbBookClear env c book = .ok
        { c with
          table := table
          subscriptions := subscriptions
          consumers := consumersWithout c book } ∧
      Registered
        { c with
          table := table
          subscriptions := subscriptions
          consumers := consumersWithout c book } live' ∧
      (∀ s, s ∈ live' ↔
        s ∈ live ∧ (s ∈ book.sources → consumersWithout c book s.address ≠ [])) ∧
      ∀ base, Within base c.table.sources →
        (∀ p < 1024, ∀ s, base p = some s → s ∈ live') → Within base table.sources := by
  have haddresses : (book.sources.map TableSource.address).Nodup :=
    hnodup.map_on fun s hs t ht heq => h.addresses s (hsub s hs) t (hsub t ht) heq
  have hwithout : Registered { c with consumers := consumersWithout c book } live :=
    { h with
      idle := by
        intro a ha
        simp [consumersWithout, h.idle a ha] }
  obtain ⟨table, subscriptions, live', hfold, hregistered, hlive, hbase⟩ :=
    hwithout.cleanup_all hnodup hsub hclosed
  refine ⟨table, subscriptions, live', ?_, hregistered, hlive, hbase⟩
  unfold plbBookClear
  rw [foldl_removeBook book.address haddresses]
  exact hfold

/-! ### Cleaning up all sources -/

/-- A table whose sources all have consumers is left as it is. -/
theorem cleanupSourcesFrom_of_used
    (hused : ∀ p < c.table.srcCapacity, ∀ s, c.table.sources p = some s →
      c.consumers s.address ≠ []) {fuel i : ℕ}
    (hfuel : c.table.srcCapacity - i < fuel) : cleanupSourcesFrom env fuel i c = .ok c := by
  induction fuel generalizing i with
  | zero => omega
  | succ fuel ih =>
      rw [cleanupSourcesFrom]
      split
      case isFalse => rfl
      case isTrue hi =>
        have hnext := ih (i := i + 1) (by omega)
        cases hslot : c.table.sources i with
        | none => exact hnext
        | some source => simpa [hused i hi source hslot] using hnext

theorem cleanupSources_of_used
    (hused : ∀ p < c.table.srcCapacity, ∀ s, c.table.sources p = some s →
      c.consumers s.address ≠ []) :
    plbCtxCleanupSources env c = .ok c :=
  cleanupSourcesFrom_of_used hused (by omega)

end DxFeed.PriceLevelBook
