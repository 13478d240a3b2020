import DxFeed.Library.LinearProbing
import DxFeed.Library.Run

/-!
# The table of price level sources

The hash table with open addressing in which a connection keeps its sources, as in
`PriceLevelBook.c`.

* `plbSourceFindPos`, `plbCtxGrowSourcesHashtable`, `plbCtxFindSource`, `plbCtxAddSource`,
  `plbCtxRemoveSource`: the functions on the table;
* `mapStep`: what they are for, on the list of the sources added and not removed since;
* `Addressing`: the table holds these sources, and has an empty slot;
* `Holding`: the table holds these sources, in at most 513 of its 1024 slots.

Allocations succeed, and the hash function is any function of the symbol and the source.
-/

namespace DxFeed.PriceLevelBook

open LinearProbing Run

/-- What ends an operation otherwise: a source read through an empty slot, and a search that goes
round a table without an empty slot for ever. -/
inductive TableFault
  | nullSource
  | endlessProbe
  deriving DecidableEq

/-- `dx_plb_source_t`, as far as the table reads it: its address, its key and the hash that
`dx_plb_source_create` has stored in it. -/
structure TableSource (plbSourceHash : String → String → ℕ) where
  address : ℕ
  symbol : String
  source : String
  hash : ℕ
  hash_eq : hash = plbSourceHash symbol source
  deriving DecidableEq

variable {plbSourceHash : String → String → ℕ}

/-- The key of a source. -/
def TableSource.key (source : TableSource plbSourceHash) : String × String :=
  (source.symbol, source.source)

/-- Sources with the same address and key are the same source. -/
theorem TableSource.eq_of_key {s t : TableSource plbSourceHash} (haddress : s.address = t.address)
    (hkey : s.key = t.key) : s = t := by
  cases s with
  | mk address symbol source hash hash_eq =>
      cases t with
      | mk address' symbol' source' hash' hash_eq' =>
          obtain ⟨rfl, rfl⟩ := Prod.mk.inj hkey
          obtain rfl : address = address' := haddress
          subst hash_eq hash_eq'
          rfl

/-- The fields `sources`, `src_size` and `src_capacity` of `dx_plb_connection_context_t`. -/
structure SourceTable (plbSourceHash : String → String → ℕ) where
  sources : ℕ → Option (TableSource plbSourceHash)
  srcSize : ℕ
  srcCapacity : ℕ

/-- The table that the initialization of the connection context sets up. -/
def SourceTable.init (plbSourceHash : String → String → ℕ) : SourceTable plbSourceHash where
  sources := fun _ => none
  srcSize := 0
  srcCapacity := 1024

/-- `sources[pos] = source`. -/
def SourceTable.store (table : SourceTable plbSourceHash) (pos : ℕ)
    (source : TableSource plbSourceHash) : SourceTable plbSourceHash :=
  { table with sources := Function.update table.sources pos (some source) }

/-- Where the loop of `dx_plb_source_find_pos` ends: at an empty slot, and at a source with this
hash, symbol and source. -/
def stopsAt (table : SourceTable plbSourceHash) (symbol src : String) (i : ℕ) : Bool :=
  match table.sources i with
  | none => true
  | some s => s.hash = plbSourceHash symbol src ∧ s.symbol = symbol ∧ s.source = src

/-- `dx_plb_source_find_pos`. -/
def plbSourceFindPos (table : SourceTable plbSourceHash) (symbol src : String) :
    Except TableFault ℕ :=
  match probe table.srcCapacity (stopsAt table symbol src) table.srcCapacity
      (plbSourceHash symbol src % table.srcCapacity) with
  | none => .error .endlessProbe
  | some i => .ok i

/-- `dx_plb_ctx_grow_sources_hashtable`: every slot of the old array is read as a source. -/
def plbCtxGrowSourcesHashtable (table : SourceTable plbSourceHash) :
    Except TableFault (SourceTable plbSourceHash) :=
  (List.range table.srcCapacity).foldlM
    (fun grown i =>
      match table.sources i with
      | none => .error .nullSource
      | some s => do
          let pos ← plbSourceFindPos grown s.symbol s.source
          return grown.store pos s)
    { table with sources := fun _ => none, srcCapacity := table.srcCapacity * 2 }

/-- `dx_plb_ctx_find_source`. -/
def plbCtxFindSource (table : SourceTable plbSourceHash) (symbol src : String) :
    Except TableFault (Option (TableSource plbSourceHash)) := do
  let pos ← plbSourceFindPos table symbol src
  return table.sources pos

/-- `dx_plb_ctx_add_source`. -/
def plbCtxAddSource (table : SourceTable plbSourceHash) (source : TableSource plbSourceHash) :
    Except TableFault (SourceTable plbSourceHash) := do
  let pos ← plbSourceFindPos table source.symbol source.source
  if table.srcSize > table.srcCapacity / 2 then
    let grown ← plbCtxGrowSourcesHashtable table
    let pos ← plbSourceFindPos grown source.symbol source.source
    return { grown.store pos source with srcSize := grown.srcSize + 1 }
  else
    return { table.store pos source with srcSize := table.srcSize + 1 }

/-- The condition of `dx_plb_ctx_remove_source` on moving the source at `npos`, which belongs to
`tpos`, into the hole at `pos`. -/
def mustMove (pos npos tpos : ℕ) : Bool :=
  (npos > pos && (tpos ≤ pos || tpos > npos)) || (npos < pos && (tpos ≤ pos && tpos > npos))

/-- `dx_plb_ctx_remove_source`: whether the source was found, and the table. -/
def plbCtxRemoveSource (table : SourceTable plbSourceHash) (source : TableSource plbSourceHash) :
    Except TableFault (Bool × SourceTable plbSourceHash) := do
  let pos ← plbSourceFindPos table source.symbol source.source
  if (table.sources pos).map TableSource.address ≠ some source.address then
    return (false, table)
  else
    match shiftBack table.srcCapacity (fun k => plbSourceHash k.1 k.2 % table.srcCapacity)
        TableSource.key mustMove table.srcCapacity table.sources pos
        ((pos + 1) % table.srcCapacity) with
    | none => throw .endlessProbe
    | some sources => return (true, { table with sources, srcSize := table.srcSize - 1 })

/-! ### Runs -/

/-- An operation on the table. -/
inductive SourceOp (plbSourceHash : String → String → ℕ)
  | add (source : TableSource plbSourceHash)
  | remove (source : TableSource plbSourceHash)
  | find (symbol src : String)

/-- What an operation returns. -/
inductive SourceResult (plbSourceHash : String → String → ℕ)
  | done (result : Bool)
  | found (source : Option (TableSource plbSourceHash))

/-- An operation on the table. -/
def tableOp (table : SourceTable plbSourceHash) :
    SourceOp plbSourceHash →
      Except TableFault (SourceTable plbSourceHash × SourceResult plbSourceHash)
  | .add source => do
      let table ← plbCtxAddSource table source
      return (table, .done true)
  | .remove source => do
      let (result, table) ← plbCtxRemoveSource table source
      return (table, .done result)
  | .find symbol src => do
      let source ← plbCtxFindSource table symbol src
      return (table, .found source)

/-- A step of a run; after a fault there are no results any more. -/
def tableStep (state : Except TableFault (SourceTable plbSourceHash))
    (op : SourceOp plbSourceHash) :
    Except TableFault (SourceTable plbSourceHash) × List (SourceResult plbSourceHash) :=
  match state with
  | .error fault => (.error fault, [])
  | .ok table =>
      match tableOp table op with
      | .error fault => (.error fault, [])
      | .ok (table, result) => (.ok table, [result])

/-- What an operation does to the sources added and not removed since, and what it returns. -/
def mapStep (live : List (TableSource plbSourceHash)) :
    SourceOp plbSourceHash → List (TableSource plbSourceHash) × List (SourceResult plbSourceHash)
  | .add source => (source :: live, [.done true])
  | .remove source => (live.erase source, [.done (source ∈ live)])
  | .find symbol src => (live, [.found (live.find? fun s => s.key = (symbol, src))])

/-- Only a source whose key no other source has is added. -/
def KeyFree (live : List (TableSource plbSourceHash)) : SourceOp plbSourceHash → Prop
  | .add source => ∀ s ∈ live, s.key ≠ source.key
  | .remove _ => True
  | .find _ _ => True

/-- A source is added while there are at most 512 sources, half of the slots. -/
def HalfFree (live : List (TableSource plbSourceHash)) : SourceOp plbSourceHash → Prop
  | .add _ => live.length ≤ 512
  | .remove _ => True
  | .find _ _ => True

/-- The operations on a new table return what the map returns, without a fault. -/
def RunsAsMap (plbSourceHash : String → String → ℕ) (ops : List (SourceOp plbSourceHash)) : Prop :=
  ∃ table, run tableStep (.ok (SourceTable.init plbSourceHash)) ops =
    (.ok table, (run mapStep [] ops).2)

/-! ### Open addressing -/

/-- The table holds these sources, at most one for each key, finds them, and has an empty slot. -/
structure Addressing (table : SourceTable plbSourceHash) (live : List (TableSource plbSourceHash)) :
    Prop where
  size : table.srcSize = live.length
  keys : (live.map TableSource.key).Nodup
  stores : Stores table.srcCapacity (fun k => plbSourceHash k.1 k.2 % table.srcCapacity)
    TableSource.key table.sources live
  empty : ∃ p < table.srcCapacity, table.sources p = none

/-- The loop of `dx_plb_source_find_pos` compares keys: the hash is that of the key. -/
theorem stopsAt_eq (table : SourceTable plbSourceHash) (symbol src : String) :
    stopsAt table symbol src = stops TableSource.key (symbol, src) table.sources := by
  funext i
  unfold stopsAt stops
  cases table.sources i with
  | none => rfl
  | some s =>
      refine decide_eq_decide.mpr ?_
      constructor
      · rintro ⟨-, hsymbol, hsource⟩
        exact Prod.ext hsymbol hsource
      · intro hkey
        obtain ⟨hsymbol, hsource⟩ := Prod.mk.inj hkey
        exact ⟨by rw [s.hash_eq, hsymbol, hsource], hsymbol, hsource⟩

/-- The condition of the loop of `dx_plb_ctx_remove_source`: the hole is on the way to the
source. -/
theorem mustMove_iff {n pos npos tpos : ℕ} (hpos : pos < n) (hnpos : npos < n) (htpos : tpos < n) :
    mustMove pos npos tpos = true ↔
      LinearProbing.dist n tpos pos < LinearProbing.dist n tpos npos := by
  unfold mustMove LinearProbing.dist
  simp only [Bool.or_eq_true, Bool.and_eq_true, decide_eq_true_eq]
  split_ifs <;> omega

namespace Addressing

variable {table : SourceTable plbSourceHash} {live : List (TableSource plbSourceHash)}
  {source : TableSource plbSourceHash}

theorem nodup (h : Addressing table live) : live.Nodup := List.Nodup.of_map _ h.keys

theorem length_lt (h : Addressing table live) : live.length < table.srcCapacity :=
  h.stores.length_lt h.nodup h.empty

theorem home_lt (h : Addressing table live) (k : String × String) :
    plbSourceHash k.1 k.2 % table.srcCapacity < table.srcCapacity :=
  Nat.mod_lt _ (Nat.zero_lt_of_lt h.length_lt)

/-- A source is found at its own slot. -/
theorem findPos_of_slot (h : Addressing table live) {pos : ℕ} (hpos : pos < table.srcCapacity)
    (hslot : table.sources pos = some source) :
    plbSourceFindPos table source.symbol source.source = .ok pos := by
  have hmem : source ∈ live := (h.stores.mem_iff source).mpr ⟨pos, hpos, hslot⟩
  obtain ⟨q, hq, hqslot, hprobe⟩ := h.stores.probe_mem h.home_lt hmem
  obtain rfl := h.stores.unique q pos source source hq hpos hqslot hslot rfl
  rw [plbSourceFindPos, stopsAt_eq]
  rw [TableSource.key] at hprobe
  rw [hprobe]

/-- The position of a source in the table. -/
theorem findPos_mem (h : Addressing table live) (hmem : source ∈ live) :
    ∃ pos < table.srcCapacity, table.sources pos = some source ∧
      plbSourceFindPos table source.symbol source.source = .ok pos := by
  obtain ⟨pos, hpos, hslot⟩ := (h.stores.mem_iff source).mp hmem
  exact ⟨pos, hpos, hslot, h.findPos_of_slot hpos hslot⟩

/-- The position for a key that no source has. -/
theorem findPos_not_mem (h : Addressing table live) {symbol src : String}
    (hkey : ∀ s ∈ live, s.key ≠ (symbol, src)) :
    ∃ pos < table.srcCapacity, table.sources pos = none ∧
      plbSourceFindPos table symbol src = .ok pos ∧
      ∀ r < table.srcCapacity,
        LinearProbing.dist table.srcCapacity (plbSourceHash symbol src % table.srcCapacity) r <
          LinearProbing.dist table.srcCapacity (plbSourceHash symbol src % table.srcCapacity) pos →
        table.sources r ≠ none := by
  obtain ⟨pos, hpos, hslot, hprobe, hbefore⟩ :=
    h.stores.probe_not_mem h.home_lt h.length_lt hkey
  refine ⟨pos, hpos, hslot, ?_, hbefore⟩
  rw [plbSourceFindPos, stopsAt_eq, hprobe]

/-- `dx_plb_source_find_pos` ends for every key. -/
theorem findPos_ends (h : Addressing table live) (symbol src : String) :
    ∃ pos < table.srcCapacity, plbSourceFindPos table symbol src = .ok pos := by
  by_cases hkey : ∀ s ∈ live, s.key ≠ (symbol, src)
  · obtain ⟨pos, hpos, -, hfind, -⟩ := h.findPos_not_mem hkey
    exact ⟨pos, hpos, hfind⟩
  · push Not at hkey
    obtain ⟨s, hs, heq⟩ := hkey
    obtain ⟨hsymbol, hsource⟩ := Prod.mk.inj heq
    obtain ⟨pos, hpos, -, hfind⟩ := h.findPos_mem hs
    rw [hsymbol, hsource] at hfind
    exact ⟨pos, hpos, hfind⟩

/-- A new source goes into the slot where its key is looked for. -/
theorem store (h : Addressing table live) {pos : ℕ} (hpos : pos < table.srcCapacity)
    (hslot : table.sources pos = none) (hkey : ∀ s ∈ live, s.key ≠ source.key)
    (hbefore : ∀ r < table.srcCapacity,
      LinearProbing.dist table.srcCapacity
          (plbSourceHash source.symbol source.source % table.srcCapacity) r <
        LinearProbing.dist table.srcCapacity
          (plbSourceHash source.symbol source.source % table.srcCapacity) pos →
      table.sources r ≠ none)
    (hroom : live.length + 1 < table.srcCapacity) :
    Addressing { table.store pos source with srcSize := table.srcSize + 1 } (source :: live) := by
  have hstores := h.stores.insert hpos hslot hkey hbefore
  exact
    { size := by simp [h.size]
      keys := by
        rw [List.map_cons, List.nodup_cons]
        refine ⟨?_, h.keys⟩
        rw [List.mem_map]
        rintro ⟨s, hs, heq⟩
        exact hkey s hs heq
      stores := hstores
      empty := hstores.exists_empty (by simpa using hroom) }

/-- `dx_plb_ctx_add_source` stores a source with a new key, as long as half of the slots are free,
and leaves an empty slot. -/
theorem add (h : Addressing table live) (hkey : ∀ s ∈ live, s.key ≠ source.key)
    (hhalf : live.length ≤ table.srcCapacity / 2) (hroom : live.length + 1 < table.srcCapacity) :
    ∃ table', plbCtxAddSource table source = .ok table' ∧
      table'.srcCapacity = table.srcCapacity ∧ Addressing table' (source :: live) := by
  obtain ⟨pos, hpos, hslot, hfind, hbefore⟩ := h.findPos_not_mem hkey
  have hsize : ¬ table.srcSize > table.srcCapacity / 2 := by
    rw [h.size]
    omega
  refine ⟨{ table.store pos source with srcSize := table.srcSize + 1 }, ?_, rfl,
    h.store hpos hslot hkey hbefore hroom⟩
  unfold plbCtxAddSource
  rw [hfind]
  simp [bind, Except.bind, hsize, pure, Except.pure]

/-- `dx_plb_ctx_remove_source` takes out exactly a source of the table. -/
theorem remove_mem (h : Addressing table live) (hmem : source ∈ live) :
    ∃ table', plbCtxRemoveSource table source = .ok (true, table') ∧
      table'.srcCapacity = table.srcCapacity ∧ Addressing table' (live.erase source) := by
  obtain ⟨pos, hpos, hslot, hfind⟩ := h.findPos_mem hmem
  obtain ⟨e, he, hshifting⟩ := h.stores.shifting hpos hslot h.length_lt h.nodup
  obtain ⟨sources, hshift, hstores⟩ := shiftBack_spec
    (fun _ _ _ hhole hnp ht => mustMove_iff hhole hnp ht) h.home_lt hshifting he
  refine ⟨{ table with sources, srcSize := table.srcSize - 1 }, ?_, rfl, ?_⟩
  · unfold plbCtxRemoveSource
    rw [hfind]
    simp [bind, Except.bind, hslot, hshift, pure, Except.pure]
  · exact
      { size := by rw [List.length_erase_of_mem hmem, ← h.size]
        keys := h.keys.sublist ((List.erase_sublist ..).map _)
        stores := hstores
        empty := hstores.exists_empty ((List.length_erase_le ..).trans_lt h.length_lt) }

/-- Nothing is removed with a source that is not in the table. -/
theorem remove_not_mem (h : Addressing table live) (hmem : source ∉ live) :
    plbCtxRemoveSource table source = .ok (false, table) := by
  -- The position is that of another source with this key, or an empty slot.
  have hne : ∃ pos, plbSourceFindPos table source.symbol source.source = .ok pos ∧
      (table.sources pos).map TableSource.address ≠ some source.address := by
    by_cases hkey : ∀ s ∈ live, s.key ≠ source.key
    · obtain ⟨pos, -, hslot, hfind, -⟩ := h.findPos_not_mem hkey
      exact ⟨pos, hfind, by rw [hslot]; exact Option.some_ne_none _ ∘ Eq.symm⟩
    · push Not at hkey
      obtain ⟨s, hs, heq⟩ := hkey
      obtain ⟨pos, -, hslot, hfind⟩ := h.findPos_mem hs
      obtain ⟨hsymbol, hsource⟩ := Prod.mk.inj heq
      rw [hsymbol, hsource] at hfind
      refine ⟨pos, hfind, ?_⟩
      rw [hslot, Option.map_some]
      intro haddress
      rw [TableSource.eq_of_key (Option.some.inj haddress) heq] at hs
      exact hmem hs
  obtain ⟨pos, hfind, haddress⟩ := hne
  unfold plbCtxRemoveSource
  rw [hfind]
  simp [bind, Except.bind, haddress, pure, Except.pure]

end Addressing

/-! ### The table as a map -/

/-- The table has 1024 slots and holds these sources, in at most one more than half of them. -/
structure Holding (table : SourceTable plbSourceHash) (live : List (TableSource plbSourceHash)) :
    Prop where
  capacity : table.srcCapacity = 1024
  size : table.srcSize = live.length
  bound : live.length ≤ 513
  keys : (live.map TableSource.key).Nodup
  stores : Stores 1024 (fun k => plbSourceHash k.1 k.2 % 1024) TableSource.key table.sources live

theorem mod_capacity_lt (k : String × String) : plbSourceHash k.1 k.2 % 1024 < 1024 :=
  Nat.mod_lt _ (by norm_num)

namespace Holding

variable {table : SourceTable plbSourceHash} {live : List (TableSource plbSourceHash)}

theorem length_lt (h : Holding table live) : live.length < 1024 := by
  have := h.bound
  omega

theorem nodup (h : Holding table live) : live.Nodup := List.Nodup.of_map _ h.keys

theorem addressing (h : Holding table live) : Addressing table live where
  size := h.size
  keys := h.keys
  stores := by
    rw [h.capacity]
    exact h.stores
  empty := by
    rw [h.capacity]
    exact h.stores.exists_empty h.length_lt

/-- A table with an empty slot, if it has 1024 slots and not too many sources. -/
theorem of_addressing (h : Addressing table live) (hcapacity : table.srcCapacity = 1024)
    (hbound : live.length ≤ 513) : Holding table live where
  capacity := hcapacity
  size := h.size
  bound := hbound
  keys := h.keys
  stores := by
    have hstores := h.stores
    rwa [hcapacity] at hstores

theorem init (plbSourceHash : String → String → ℕ) :
    Holding (SourceTable.init plbSourceHash) [] where
  capacity := rfl
  size := rfl
  bound := Nat.zero_le _
  keys := List.nodup_nil
  stores :=
    { mem_iff := by simp [SourceTable.init]
      unique := by simp [SourceTable.init]
      path := by simp [Probed, SourceTable.init] }

/-- The position of a source in the table. -/
theorem findPos_mem (h : Holding table live) {source : TableSource plbSourceHash}
    (hmem : source ∈ live) :
    ∃ pos < 1024, table.sources pos = some source ∧
      plbSourceFindPos table source.symbol source.source = .ok pos := by
  have hfind := h.addressing.findPos_mem hmem
  rwa [h.capacity] at hfind

/-- The position for a key that no source has. -/
theorem findPos_not_mem (h : Holding table live) {symbol src : String}
    (hkey : ∀ s ∈ live, s.key ≠ (symbol, src)) :
    ∃ pos < 1024, table.sources pos = none ∧ plbSourceFindPos table symbol src = .ok pos ∧
      ∀ r < 1024, LinearProbing.dist 1024 (plbSourceHash symbol src % 1024) r <
        LinearProbing.dist 1024 (plbSourceHash symbol src % 1024) pos → table.sources r ≠ none := by
  have hfind := h.addressing.findPos_not_mem hkey
  rwa [h.capacity] at hfind

/-- Sources with the same key are the same source. -/
theorem eq_of_key (h : Holding table live) {s t : TableSource plbSourceHash} (hs : s ∈ live)
    (ht : t ∈ live) (hkey : s.key = t.key) : s = t :=
  List.inj_on_of_nodup_map h.keys hs ht hkey

/-- `dx_plb_ctx_find_source` returns the source with this key. -/
theorem find (h : Holding table live) (symbol src : String) :
    plbCtxFindSource table symbol src = .ok (live.find? fun s => s.key = (symbol, src)) := by
  unfold plbCtxFindSource
  cases hfind : live.find? fun s => s.key = (symbol, src) with
  | none =>
      have hkey : ∀ s ∈ live, s.key ≠ (symbol, src) := by
        intro s hs
        simpa using List.find?_eq_none.mp hfind s hs
      obtain ⟨pos, -, hslot, hpos, -⟩ := h.findPos_not_mem hkey
      rw [hpos, ← hslot]
      rfl
  | some s =>
      have hkey : s.key = (symbol, src) := by simpa using List.find?_some hfind
      obtain ⟨hsymbol, hsource⟩ := Prod.mk.inj hkey
      obtain ⟨pos, -, hslot, hpos⟩ := h.findPos_mem (List.mem_of_find?_eq_some hfind)
      rw [hsymbol, hsource] at hpos
      rw [hpos, ← hslot]
      rfl

/-- `dx_plb_ctx_add_source` stores a source with a new key, as long as half of the slots are
free. -/
theorem add (h : Holding table live) {source : TableSource plbSourceHash}
    (hkey : ∀ s ∈ live, s.key ≠ source.key) (hhalf : live.length ≤ 512) :
    ∃ table', plbCtxAddSource table source = .ok table' ∧ Holding table' (source :: live) := by
  obtain ⟨table', hadd, hcapacity, h'⟩ := h.addressing.add hkey (by rw [h.capacity]; omega)
    (by rw [h.capacity]; omega)
  exact ⟨table', hadd, of_addressing h' (hcapacity.trans h.capacity) (Nat.succ_le_succ hhalf)⟩

/-- `dx_plb_ctx_remove_source` takes out exactly this source. -/
theorem remove (h : Holding table live) (source : TableSource plbSourceHash) :
    ∃ table', plbCtxRemoveSource table source = .ok (decide (source ∈ live), table') ∧
      Holding table' (live.erase source) := by
  by_cases hmem : source ∈ live
  · obtain ⟨table', hremove, hcapacity, h'⟩ := h.addressing.remove_mem hmem
    rw [decide_eq_true hmem]
    refine ⟨table', hremove, of_addressing h' (hcapacity.trans h.capacity) ?_⟩
    exact (List.length_erase_le ..).trans h.bound
  · rw [decide_eq_false hmem, List.erase_of_not_mem hmem]
    exact ⟨table, h.addressing.remove_not_mem hmem, h⟩

end Holding

/-! ### Growing -/

/-- A fold that fails at one element fails. -/
theorem foldlM_error {α β ε : Type*} {f : β → α → Except ε β} {l : List α} {a : α} (hmem : a ∈ l)
    (herror : ∀ b, ∃ e, f b a = .error e) (b : β) : ∃ e, l.foldlM f b = .error e := by
  induction l generalizing b with
  | nil => exact absurd hmem (List.not_mem_nil)
  | cons a' l ih =>
      rw [List.foldlM_cons]
      cases hfirst : f b a' with
      | error e => exact ⟨e, rfl⟩
      | ok b' =>
          rcases List.mem_cons.mp hmem with rfl | hmem
          · obtain ⟨e, he⟩ := herror b
            rw [hfirst] at he
            exact nomatch he
          · exact ih hmem b'

/-- Growing a table with an empty slot reads a source through it. -/
theorem grow_fault {table : SourceTable plbSourceHash} {i : ℕ} (hi : i < table.srcCapacity)
    (hnone : table.sources i = none) :
    ∃ fault, plbCtxGrowSourcesHashtable table = .error fault := by
  unfold plbCtxGrowSourcesHashtable
  refine foldlM_error (List.mem_range.mpr hi) ?_ _
  intro grown
  exact ⟨.nullSource, by rw [hnone]⟩

/-- With more than half of the slots taken `dx_plb_ctx_add_source` grows the table, which has an
empty slot. -/
theorem Holding.add_fault {table : SourceTable plbSourceHash}
    {live : List (TableSource plbSourceHash)} (h : Holding table live)
    {source : TableSource plbSourceHash} (hkey : ∀ s ∈ live, s.key ≠ source.key)
    (hfull : 512 < live.length) : ∃ fault, plbCtxAddSource table source = .error fault := by
  obtain ⟨pos, hpos, hslot, hfind, -⟩ := h.findPos_not_mem hkey
  obtain ⟨fault, hgrow⟩ := grow_fault (by rwa [h.capacity]) hslot
  have hsize : table.srcSize > table.srcCapacity / 2 := by
    rw [h.size, h.capacity]
    omega
  refine ⟨fault, ?_⟩
  unfold plbCtxAddSource
  rw [hfind]
  simp [bind, Except.bind, hsize, hgrow]

/-! ### Whole runs -/

variable {table : SourceTable plbSourceHash} {live : List (TableSource plbSourceHash)}
  {op : SourceOp plbSourceHash} {ops : List (SourceOp plbSourceHash)}

/-- After a fault there are no results. -/
theorem run_tableStep_error (fault : TableFault) :
    run tableStep (.error fault) ops = (.error fault, []) := by
  induction ops with
  | nil => rfl
  | cons op ops ih => rw [run_cons, tableStep, ih, List.append_nil]

/-- While half of the slots are free an operation does to the table what it does to the map. -/
theorem Holding.step (h : Holding table live) (hkey : KeyFree live op) (hhalf : HalfFree live op) :
    ∃ table', tableStep (.ok table) op = (.ok table', (mapStep live op).2) ∧
      Holding table' (mapStep live op).1 := by
  cases op with
  | add source =>
      obtain ⟨table', hadd, h'⟩ := h.add hkey hhalf
      exact ⟨table', by simp [tableStep, tableOp, hadd, mapStep], h'⟩
  | remove source =>
      obtain ⟨table', hremove, h'⟩ := h.remove source
      exact ⟨table', by simp [tableStep, tableOp, hremove, mapStep], h'⟩
  | find symbol src =>
      exact ⟨table, by simp [tableStep, tableOp, h.find, mapStep], h⟩

/-- Otherwise it ends in a fault. -/
theorem Holding.step_fault (h : Holding table live) (hkey : KeyFree live op)
    (hhalf : ¬ HalfFree live op) :
    ∃ fault, tableStep (.ok table) op = (.error fault, []) := by
  cases op with
  | add source =>
      obtain ⟨fault, hadd⟩ := h.add_fault hkey (Nat.lt_of_not_le hhalf)
      exact ⟨fault, by simp [tableStep, tableOp, hadd]⟩
  | remove source => exact absurd trivial hhalf
  | find symbol src => exact absurd trivial hhalf

/-- A run from a table that holds these sources returns what the map returns exactly if every
source is added while half of the slots are free. -/
theorem Holding.run_iff (h : Holding table live) (hkeys : AllSteps KeyFree mapStep live ops) :
    (∃ table', run tableStep (.ok table) ops = (.ok table', (run mapStep live ops).2)) ↔
      AllSteps HalfFree mapStep live ops := by
  induction ops generalizing table live with
  | nil => simp
  | cons op ops ih =>
      rw [allSteps_cons] at hkeys
      rw [allSteps_cons, run_cons, run_cons]
      by_cases hhalf : HalfFree live op
      · obtain ⟨table', hstep, h'⟩ := h.step hkeys.1 hhalf
        rw [hstep, ← ih h' hkeys.2]
        simp only [hhalf, true_and, Prod.mk.injEq, List.append_cancel_left_eq]
        constructor
        · rintro ⟨last, hlast, houtputs⟩
          exact ⟨last, Prod.ext hlast houtputs⟩
        · rintro ⟨last, heq⟩
          exact ⟨last, by rw [heq], by rw [heq]⟩
      · obtain ⟨fault, hstep⟩ := h.step_fault hkeys.1 hhalf
        rw [hstep, run_tableStep_error]
        refine iff_of_false ?_ fun hall => hhalf hall.1
        rintro ⟨last, hlast⟩
        cases congrArg Prod.fst hlast

/-- The table is a map, for every run that adds sources with distinct keys, exactly if every
source is added while at most half of the slots are taken. -/
theorem runsAsMap_iff (plbSourceHash : String → String → ℕ)
    (ops : List (SourceOp plbSourceHash)) (hkeys : AllSteps KeyFree mapStep [] ops) :
    RunsAsMap plbSourceHash ops ↔ AllSteps HalfFree mapStep [] ops :=
  (Holding.init plbSourceHash).run_iff hkeys

/-- A source for each number, all with one hash. -/
def crowdSource (i : ℕ) : TableSource fun _ _ => 0 where
  address := i
  symbol := String.ofList (List.replicate i 'A')
  source := "NTV"
  hash := 0
  hash_eq := rfl

/-- So many sources are added. -/
@[irreducible] def crowdOps (n : ℕ) : List (SourceOp fun _ _ => 0) :=
  (List.range n).map fun i => .add (crowdSource i)

theorem crowdOps_zero : crowdOps 0 = [] := by
  rw [crowdOps]
  rfl

theorem crowdOps_succ (n : ℕ) : crowdOps (n + 1) = crowdOps n ++ [.add (crowdSource n)] := by
  rw [crowdOps, crowdOps, List.range_succ, List.map_append, List.map_singleton]

/-- Two sources with one hash: the first one is removed and looked for. -/
theorem runsAsMap_iff_crowdSource :
    RunsAsMap (fun _ _ => 0) [.add (crowdSource 0), .add (crowdSource 1), .remove (crowdSource 0),
        .find (crowdSource 1).symbol "NTV", .find (crowdSource 0).symbol "NTV"] ↔
      AllSteps HalfFree mapStep [] [.add (crowdSource 0), .add (crowdSource 1),
        .remove (crowdSource 0), .find (crowdSource 1).symbol "NTV",
        .find (crowdSource 0).symbol "NTV"] :=
  runsAsMap_iff (fun _ _ => 0) _ (by
    simp [KeyFree, mapStep, crowdSource, TableSource.key])

/-! ### A table that has to grow -/

theorem crowdSource_key_injective : Function.Injective fun i => (crowdSource i).key := by
  intro i j h
  have hsymbol : String.ofList (List.replicate i 'A') = String.ofList (List.replicate j 'A') :=
    congrArg Prod.fst h
  have hlength := congrArg List.length (String.ofList_injective hsymbol)
  simpa using hlength

/-- The map after a number of sources. -/
theorem run_mapStep_crowdOps (n : ℕ) :
    (run mapStep [] (crowdOps n)).1 = ((List.range n).map crowdSource).reverse := by
  induction n with
  | zero => rw [crowdOps_zero, run_nil, List.range_zero, List.map_nil, List.reverse_nil]
  | succ n ih =>
      rw [crowdOps_succ, run_append_fst, ih, List.range_succ]
      simp [mapStep]

theorem keyFree_crowdOps (n : ℕ) : AllSteps KeyFree mapStep [] (crowdOps n) := by
  induction n with
  | zero => rw [crowdOps_zero]; trivial
  | succ n ih =>
      rw [crowdOps_succ, allSteps_concat]
      refine ⟨ih, ?_⟩
      rw [run_mapStep_crowdOps]
      intro s hs heq
      obtain ⟨i, hi, rfl⟩ := List.mem_map.mp (List.mem_reverse.mp hs)
      obtain rfl : i = n := crowdSource_key_injective heq
      exact lt_irrefl _ (List.mem_range.mp hi)

/-- Only so many sources are added without growing. -/
theorem le_of_halfFree_crowdOps {n : ℕ} (h : AllSteps HalfFree mapStep [] (crowdOps (n + 1))) :
    n ≤ 512 := by
  rw [crowdOps_succ, allSteps_concat, run_mapStep_crowdOps] at h
  simpa [HalfFree] using h.2

/-- More sources than that and the table grows through its empty slots. -/
theorem crowdOps_grow {n : ℕ} (hn : 512 < n) :
    ¬ RunsAsMap (fun _ _ => 0) (crowdOps (n + 1)) := by
  intro hmap
  have hhalf := ((Holding.init fun _ _ => 0).run_iff (keyFree_crowdOps (n + 1))).mp hmap
  exact absurd (le_of_halfFree_crowdOps hhalf) (Nat.not_le_of_lt hn)

/-- The 514th source makes the table grow. -/
theorem crowdOps_not_runsAsMap :
    AllSteps KeyFree mapStep [] (crowdOps 514) ∧ ¬ RunsAsMap (fun _ _ => 0) (crowdOps 514) :=
  ⟨keyFree_crowdOps 514, crowdOps_grow (by norm_num)⟩

end DxFeed.PriceLevelBook
