import DxFeed.PriceLevelBook.BookClear

/-!
# Removal of sources

`dx_plb_ctx_remove_source` and `dx_plb_ctx_cleanup_sources` on any table with an empty slot.

* `FindsExactly`: the table finds each of some sources at its own slot, and no other key;
* `Addressing.remove_origin`: a removal moves no source to a slot in front of the emptied one;
* `cleanupSourcesFrom_spec`: the loop has passed sources with consumers only;
* `removal_findsExactly`: a removal takes out one source, and the cleanup those without consumers.
-/

namespace DxFeed.PriceLevelBook

open LinearProbing

variable {plbSourceHash : String → String → ℕ} {env : Environment}
  {c : PlbContext plbSourceHash} {table table' : SourceTable plbSourceHash}
  {live : List (TableSource plbSourceHash)} {source : TableSource plbSourceHash}

/-- The table has exactly these sources and finds each at its own slot; the search ends for every
key, at an empty slot if no source has the key. -/
structure FindsExactly (table : SourceTable plbSourceHash)
    (live : List (TableSource plbSourceHash)) : Prop extends Addressing table live where
  stored : ∀ s, s ∈ live ↔ ∃ pos < table.srcCapacity, table.sources pos = some s
  own : ∀ pos < table.srcCapacity, ∀ s, table.sources pos = some s →
    plbSourceFindPos table s.symbol s.source = .ok pos
  missing : ∀ symbol src, (∀ s ∈ live, s.key ≠ (symbol, src)) →
    ∃ pos < table.srcCapacity, table.sources pos = none ∧
      plbSourceFindPos table symbol src = .ok pos
  ends : ∀ symbol src, ∃ pos < table.srcCapacity, plbSourceFindPos table symbol src = .ok pos

theorem Addressing.findsExactly (h : Addressing table live) : FindsExactly table live where
  toAddressing := h
  stored := h.stores.mem_iff
  own := fun _ hpos _ hslot => h.findPos_of_slot hpos hslot
  missing := by
    intro symbol src hkey
    obtain ⟨pos, hpos, hslot, hfind, -⟩ := h.findPos_not_mem hkey
    exact ⟨pos, hpos, hslot, hfind⟩
  ends := h.findPos_ends

/-- No other source has the key of a source. -/
theorem Addressing.key_ne (h : Addressing table live) (hmem : source ∈ live) :
    ∀ s ∈ live.erase source, s.key ≠ source.key := by
  intro s hs hkey
  obtain ⟨hne, hlive⟩ := h.nodup.mem_erase_iff.mp hs
  exact hne (List.inj_on_of_nodup_map h.keys hlive hmem hkey)

/-- A source that a removal has moved was farther from the emptied slot. -/
theorem Addressing.remove_origin (h : Addressing table live) {pos : ℕ}
    (hpos : pos < table.srcCapacity) (hslot : table.sources pos = some source)
    (hremove : plbCtxRemoveSource table source = .ok (true, table')) :
    ∀ r < table.srcCapacity, ∀ s, table'.sources r = some s →
      ∃ q < table.srcCapacity, table.sources q = some s ∧
        LinearProbing.dist table.srcCapacity pos r ≤ LinearProbing.dist table.srcCapacity pos q := by
  obtain ⟨e, he, hnone⟩ := h.empty
  have hne : e ≠ pos := by
    rintro rfl
    rw [hslot] at hnone
    exact nomatch hnone
  have hself : LinearProbing.dist table.srcCapacity pos pos = 0 := dist_self
  have hahead : 0 < LinearProbing.dist table.srcCapacity pos e :=
    Nat.pos_of_ne_zero fun hzero => hne (dist_eq_zero hpos hzero).symm
  have hnext := dist_next_right hpos hpos he (hself ▸ hahead)
  unfold plbCtxRemoveSource at hremove
  simp only [h.findPos_of_slot hpos hslot, bind, Except.bind, hslot, Option.map_some, ne_eq,
    not_true_eq_false, if_false] at hremove
  cases hshift : shiftBack table.srcCapacity (fun k => plbSourceHash k.1 k.2 % table.srcCapacity)
      TableSource.key mustMove table.srcCapacity table.sources pos
      ((pos + 1) % table.srcCapacity) with
  | none =>
      rw [hshift] at hremove
      exact nomatch hremove
  | some sources =>
      rw [hshift] at hremove
      obtain ⟨-, rfl⟩ := Prod.mk.inj (Except.ok.inj hremove)
      exact shiftBack_origin hpos he (next_lt hpos) hne hnone (by omega) (by omega) hshift

/-- A removal at `i` moves no source from behind `i` in front of it. -/
theorem Addressing.remove_front (h : Addressing table live) {i : ℕ} (hi : i < table.srcCapacity)
    (hslot : table.sources i = some source)
    (hremove : plbCtxRemoveSource table source = .ok (true, table')) :
    ∀ p < i, ∀ s, table'.sources p = some s → ∃ q < i, table.sources q = some s := by
  intro p hp s hs
  obtain ⟨q, hq, hqslot, hle⟩ := h.remove_origin hi hslot hremove p (hp.trans hi) s hs
  refine ⟨q, ?_, hqslot⟩
  by_contra hiq
  unfold LinearProbing.dist at hle
  split_ifs at hle <;> omega

/-! ### The cleanup -/

@[simp] theorem plbSourceClear_table : (plbSourceClear env c source).table = c.table := by
  unfold plbSourceClear
  split_ifs <;> rfl

@[simp] theorem plbSourceClear_consumers :
    (plbSourceClear env c source).consumers = c.consumers := by
  unfold plbSourceClear
  split_ifs <;> rfl

/-- The sources with consumers. -/
def usedSources (c : PlbContext plbSourceHash) (live : List (TableSource plbSourceHash)) :
    List (TableSource plbSourceHash) :=
  live.filter fun s => c.consumers s.address ≠ []

theorem usedSources_erase (hnodup : live.Nodup) (hunused : c.consumers source.address = []) :
    usedSources c (live.erase source) = usedSources c live := by
  rw [usedSources, usedSources, hnodup.erase_eq_filter, List.filter_filter]
  refine List.filter_congr fun s _ => ?_
  by_cases hs : s = source
  · subst hs
    simp [hunused]
  · simp [hs]

theorem usedSources_of_used (h : Addressing c.table live)
    (hused : ∀ p < c.table.srcCapacity, ∀ s, c.table.sources p = some s →
      c.consumers s.address ≠ []) : usedSources c live = live := by
  rw [usedSources, List.filter_eq_self]
  intro s hs
  obtain ⟨p, hp, hslot⟩ := (h.stores.mem_iff s).mp hs
  simpa using hused p hp s hslot

/-- The loop removes the sources without consumers, once those in front of `i` have consumers. -/
theorem cleanupSourcesFrom_spec (env : Environment) {fuel i : ℕ} (h : Addressing c.table live)
    (hfront : ∀ p < i, ∀ s, c.table.sources p = some s → c.consumers s.address ≠ [])
    (hfuel : c.table.srcCapacity - i + live.length < fuel) :
    ∃ c', cleanupSourcesFrom env fuel i c = .ok c' ∧ c'.consumers = c.consumers ∧
      c'.table.srcCapacity = c.table.srcCapacity ∧
      Addressing c'.table (usedSources c live) := by
  induction fuel generalizing i c live with
  | zero => omega
  | succ fuel ih =>
      rw [cleanupSourcesFrom]
      split
      case isFalse hi =>
        have hused := usedSources_of_used h fun p hp => hfront p (by omega)
        rw [hused]
        exact ⟨c, rfl, rfl, rfl, h⟩
      case isTrue hi =>
        cases hslot : c.table.sources i with
        | none =>
            refine ih h ?_ (by omega)
            intro p hp s hs
            rcases Nat.lt_succ_iff_lt_or_eq.mp hp with hlt | rfl
            · exact hfront p hlt s hs
            · rw [hslot] at hs
              cases hs
        | some source =>
            by_cases hunused : c.consumers source.address = []
            · have hmem : source ∈ live := (h.stores.mem_iff source).mpr ⟨i, hi, hslot⟩
              obtain ⟨table', hremove, hcapacity, h'⟩ := h.remove_mem hmem
              have hlength := List.length_erase_of_mem hmem
              have hpos := List.length_pos_of_mem hmem
              simp only [hunused, if_true, hremove, bind, Except.bind]
              rw [← usedSources_erase h.nodup hunused]
              -- what is in front of `i` now was in front of it before
              have hfront' : ∀ p < i, ∀ s, table'.sources p = some s →
                  c.consumers s.address ≠ [] := by
                intro p hp s hs
                obtain ⟨q, hq, hqslot⟩ := h.remove_front hi hslot hremove p hp s hs
                exact hfront q hq s hqslot
              have hsame : ∀ l, usedSources
                  (plbSourceClear env { c with table := table' } source) l = usedSources c l :=
                fun l => by simp [usedSources]
              have hcleared : Addressing
                  (plbSourceClear env { c with table := table' } source).table
                  (live.erase source) := by simpa using h'
              obtain ⟨c', hcleanup, hconsumers, hcapacity', hc'⟩ := ih hcleared
                (by simpa using hfront') (by simp only [plbSourceClear_table, hcapacity]; omega)
              rw [hsame] at hc'
              refine ⟨c', hcleanup, ?_, ?_, hc'⟩
              · rw [hconsumers, plbSourceClear_consumers]
              · rw [hcapacity', plbSourceClear_table, hcapacity]
            · simp only [hunused, if_false]
              refine ih h ?_ (by omega)
              intro p hp s hs
              rcases Nat.lt_succ_iff_lt_or_eq.mp hp with hlt | rfl
              · exact hfront p hlt s hs
              · rw [hslot] at hs
                rwa [← Option.some.inj hs]

/-- A removal leaves every other source at a slot where it is found, and the cleanup removes exactly
the sources without consumers. -/
theorem removal_findsExactly (env : Environment) (c : PlbContext plbSourceHash)
    (live : List (TableSource plbSourceHash)) (h : Addressing c.table live) :
    (∀ source ∈ live, ∃ table, plbCtxRemoveSource c.table source = .ok (true, table) ∧
      table.srcCapacity = c.table.srcCapacity ∧ FindsExactly table (live.erase source) ∧
      ∃ pos < table.srcCapacity, table.sources pos = none ∧
        plbSourceFindPos table source.symbol source.source = .ok pos) ∧
    ∃ c', plbCtxCleanupSources env c = .ok c' ∧ c'.consumers = c.consumers ∧
      c'.table.srcCapacity = c.table.srcCapacity ∧
      FindsExactly c'.table (live.filter fun s => c.consumers s.address ≠ []) := by
  constructor
  · intro source hmem
    obtain ⟨table, hremove, hcapacity, h'⟩ := h.remove_mem hmem
    exact ⟨table, hremove, hcapacity, h'.findsExactly,
      h'.findsExactly.missing source.symbol source.source (h.key_ne hmem)⟩
  · have hfuel : c.table.srcCapacity - 0 + live.length <
        c.table.srcCapacity + c.table.srcSize + 1 := by
      rw [h.size]
      omega
    obtain ⟨c', hcleanup, hconsumers, hcapacity, h'⟩ :=
      cleanupSourcesFrom_spec env h (by omega) hfuel
    exact ⟨c', hcleanup, hconsumers, hcapacity, h'.findsExactly⟩

/-! ### Two sources of one home -/

/-- Of three slots two are taken by sources that both belong to the first one; only the second source
has a consumer. -/
def crowdContext : PlbContext fun _ _ => 0 :=
  { PlbContext.init fun _ _ => 0 with
    table :=
      { sources := fun p => if p = 0 then some (crowdSource 0) else if p = 1 then some (crowdSource 1)
          else none
        srcSize := 2
        srcCapacity := 3 }
    consumers := fun address => if address = 1 then [⟨7, 0⟩] else [] }

theorem crowdContext_slot (p : ℕ) (s : TableSource fun _ _ => 0) :
    crowdContext.table.sources p = some s ↔ p < 2 ∧ s = crowdSource p := by
  match p with
  | 0 => simp [crowdContext, eq_comm]
  | 1 => simp [crowdContext, eq_comm]
  | p + 2 => simp [crowdContext]

theorem addressing_crowdContext :
    Addressing crowdContext.table [crowdSource 0, crowdSource 1] where
  size := rfl
  keys := by simp [crowdSource, TableSource.key]
  stores :=
    { mem_iff := by
        intro s
        rw [List.mem_pair]
        constructor
        · rintro (rfl | rfl)
          · exact ⟨0, by decide, rfl⟩
          · exact ⟨1, by decide, rfl⟩
        · rintro ⟨p, -, hs⟩
          obtain ⟨hp, rfl⟩ := (crowdContext_slot p s).mp hs
          interval_cases p
          · exact Or.inl rfl
          · exact Or.inr rfl
      unique := by
        intro p q s t _ _ hs ht hkey
        obtain ⟨-, rfl⟩ := (crowdContext_slot p s).mp hs
        obtain ⟨-, rfl⟩ := (crowdContext_slot q t).mp ht
        exact crowdSource_key_injective hkey
      path := by
        intro s p _ hs r _ hlt
        obtain ⟨hp, -⟩ := (crowdContext_slot p s).mp hs
        have hr : r < 2 := by
          simp only [Nat.zero_mod, LinearProbing.dist, Nat.zero_le, if_true, Nat.sub_zero] at hlt
          omega
        refine Or.inl fun hnone => ?_
        cases hnone.symm.trans ((crowdContext_slot r _).mpr ⟨hr, rfl⟩) }
  empty := ⟨2, by decide, rfl⟩

theorem removal_findsExactly_crowdContext :
    (∀ source ∈ [crowdSource 0, crowdSource 1], ∃ table,
      plbCtxRemoveSource crowdContext.table source = .ok (true, table) ∧
      table.srcCapacity = 3 ∧
      FindsExactly table ([crowdSource 0, crowdSource 1].erase source) ∧
      ∃ pos < table.srcCapacity, table.sources pos = none ∧
        plbSourceFindPos table source.symbol source.source = .ok pos) ∧
    ∃ c', plbCtxCleanupSources ⟨true, fun _ => .created, true, fun _ => true, fun _ => true⟩
        crowdContext = .ok c' ∧
      c'.consumers = crowdContext.consumers ∧ c'.table.srcCapacity = 3 ∧
      FindsExactly c'.table
        ([crowdSource 0, crowdSource 1].filter fun s => crowdContext.consumers s.address ≠ []) :=
  removal_findsExactly ⟨true, fun _ => .created, true, fun _ => true, fun _ => true⟩ crowdContext
    [crowdSource 0, crowdSource 1] addressing_crowdContext

end DxFeed.PriceLevelBook
