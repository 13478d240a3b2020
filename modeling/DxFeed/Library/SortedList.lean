import Mathlib.Data.List.Basic
import Mathlib.Data.List.Sort
import Mathlib.Order.Basic
import Mathlib.Tactic

/-!
# Lists sorted by a key, and ranked prefixes of finite maps

* `KeySorted key l`: the keys of `l` are strictly increasing;
* `Located key k l found i`: what a search for the key `k` in `l` may answer;
* `lookup key l k`: `l` read as a finite map from keys to its elements, with the
  effect of inserting, replacing and erasing an element, and extensionality;
* `IsBest n f L`: `L` lists the at most `n` smallest keys of the finite map `f` with
  their values.  `IsBest` determines `L`, and it is kept by an update of a listed key,
  by the insertion of a new key, and by any change of a key that is not listed.
-/

namespace SortedList

variable {α κ V : Type*} [LinearOrder κ]

/-- The keys of the list are strictly increasing. -/
def KeySorted (key : α → κ) (l : List α) : Prop :=
  l.Pairwise fun a b => key a < key b

variable {key : α → κ} {l l₁ l₂ : List α} {x y : α} {k : κ}

@[simp] theorem keySorted_nil : KeySorted key ([] : List α) := List.Pairwise.nil

theorem keySorted_append :
    KeySorted key (l₁ ++ l₂) ↔
      KeySorted key l₁ ∧ KeySorted key l₂ ∧ ∀ a ∈ l₁, ∀ b ∈ l₂, key a < key b :=
  List.pairwise_append

theorem keySorted_cons :
    KeySorted key (x :: l) ↔ (∀ a ∈ l, key x < key a) ∧ KeySorted key l :=
  List.pairwise_cons

theorem KeySorted.sublist (h : KeySorted key l₂) (hs : l₁.Sublist l₂) : KeySorted key l₁ :=
  List.Pairwise.sublist hs h

theorem KeySorted.nodup (h : KeySorted key l) : l.Nodup :=
  List.Pairwise.imp (fun hab hba => by rw [hba] at hab; exact lt_irrefl _ hab) h

theorem KeySorted.eq_of_key_eq (h : KeySorted key l) (hx : x ∈ l) (hy : y ∈ l)
    (hk : key x = key y) : x = y := by
  by_contra hne
  have hlt := (List.pairwise_iff_getElem.mp h)
  obtain ⟨i, hi, rfl⟩ := List.mem_iff_getElem.mp hx
  obtain ⟨j, hj, rfl⟩ := List.mem_iff_getElem.mp hy
  rcases Nat.lt_trichotomy i j with hij | rfl | hij
  · exact absurd hk (hlt i j hi hj hij).ne
  · exact hne rfl
  · exact absurd hk.symm (hlt j i hj hi hij).ne

theorem KeySorted.erase (h : KeySorted key (l₁ ++ x :: l₂)) : KeySorted key (l₁ ++ l₂) :=
  h.sublist (List.Sublist.append_left (List.sublist_cons_self x l₂) l₁)

theorem KeySorted.replace (h : KeySorted key (l₁ ++ x :: l₂)) (hk : key y = key x) :
    KeySorted key (l₁ ++ y :: l₂) := by
  rw [keySorted_append, keySorted_cons] at h ⊢
  obtain ⟨h₁, ⟨hx, h₂⟩, h₃⟩ := h
  refine ⟨h₁, ⟨fun a ha => hk ▸ hx a ha, h₂⟩, fun a ha b hb => ?_⟩
  rcases List.mem_cons.mp hb with rfl | hb
  · exact hk ▸ h₃ a ha x List.mem_cons_self
  · exact h₃ a ha b (List.mem_cons_of_mem _ hb)

theorem KeySorted.insert (h : KeySorted key (l₁ ++ l₂)) (h₁ : ∀ a ∈ l₁, key a < key x)
    (h₂ : ∀ b ∈ l₂, key x < key b) : KeySorted key (l₁ ++ x :: l₂) := by
  rw [keySorted_append] at h
  rw [keySorted_append, keySorted_cons]
  refine ⟨h.1, ⟨h₂, h.2.1⟩, fun a ha b hb => ?_⟩
  rcases List.mem_cons.mp hb with rfl | hb
  · exact h₁ a ha
  · exact h.2.2 a ha b hb

/-- The neighbours of an element of a sorted list are on their sides of its key. -/
theorem KeySorted.around (h : KeySorted key (l₁ ++ x :: l₂)) :
    (∀ a ∈ l₁, key a < key x) ∧ ∀ b ∈ l₂, key x < key b := by
  rw [keySorted_append, keySorted_cons] at h
  exact ⟨fun a ha => h.2.2 a ha x List.mem_cons_self, h.2.1.1⟩

/-- Without the element at a place, a sorted list has the elements of other keys. -/
theorem KeySorted.mem_erase_iff (h : KeySorted key (l₁ ++ x :: l₂)) :
    y ∈ l₁ ++ l₂ ↔ y ∈ l₁ ++ x :: l₂ ∧ key y ≠ key x := by
  obtain ⟨h₁, h₂⟩ := h.around
  constructor
  · intro hy
    rcases List.mem_append.mp hy with hy | hy
    · exact ⟨List.mem_append_left _ hy, (h₁ y hy).ne⟩
    · exact ⟨List.mem_append_right _ (List.mem_cons_of_mem _ hy), (h₂ y hy).ne'⟩
  · rintro ⟨hy, hne⟩
    rcases List.mem_append.mp hy with hy | hy
    · exact List.mem_append_left _ hy
    · rcases List.mem_cons.mp hy with rfl | hy
      · exact absurd rfl hne
      · exact List.mem_append_right _ hy

/-- An element of a sorted list is among the first `n`, or above all of them. -/
theorem KeySorted.mem_take_or_lt {n : ℕ} {e : α} (h : KeySorted key l) (he : e ∈ l) :
    e ∈ l.take n ∨ (l.take n).length = n ∧ ∀ d ∈ l.take n, key d < key e := by
  obtain ⟨i, hi, rfl⟩ := List.mem_iff_getElem.mp he
  by_cases hin : i < n
  · exact Or.inl (List.mem_take_iff_getElem.mpr ⟨i, by omega, rfl⟩)
  · refine Or.inr ⟨by rw [List.length_take]; omega, fun d hd => ?_⟩
    obtain ⟨j, hj, rfl⟩ := List.mem_take_iff_getElem.mp hd
    exact List.pairwise_iff_getElem.mp h j i (by omega) hi (by omega)

/-- The possible answers `(found, i)` of a search for the key `k`: the index of an element
with that key, or the place where such an element would have to be inserted. -/
inductive Located (key : α → κ) (k : κ) : List α → Bool → ℕ → Prop
  | found (l₁ : List α) (x : α) (l₂ : List α) (hx : key x = k) :
      Located key k (l₁ ++ x :: l₂) true l₁.length
  | missing (l₁ l₂ : List α) (h₁ : ∀ a ∈ l₁, key a < k) (h₂ : ∀ b ∈ l₂, k < key b) :
      Located key k (l₁ ++ l₂) false l₁.length

/-- A search among the images of the elements is one among the elements. -/
theorem Located.of_map {β : Type*} {f : β → α} {l : List β} {found : Bool} {i : ℕ}
    (h : Located key k (l.map f) found i) : Located (fun b => key (f b)) k l found i := by
  generalize hl : l.map f = images at h
  cases h with
  | found l₁ x l₂ hx =>
      obtain ⟨r₁, rest, rfl, rfl, hrest⟩ := List.map_eq_append_iff.mp hl
      obtain ⟨r, r₂, rfl, rfl, rfl⟩ := List.map_eq_cons_iff.mp hrest
      rw [List.length_map]
      exact Located.found r₁ r r₂ hx
  | missing l₁ l₂ h₁ h₂ =>
      obtain ⟨r₁, r₂, rfl, rfl, rfl⟩ := List.map_eq_append_iff.mp hl
      rw [List.length_map]
      exact Located.missing r₁ r₂ (fun a ha => h₁ _ (List.mem_map_of_mem ha))
        fun b hb => h₂ _ (List.mem_map_of_mem hb)

theorem Located.of_getElem {i : ℕ} (hi : i < l.length) (hx : key l[i] = k) :
    Located key k l true i := by
  have h : Located key k (l.take i ++ l[i] :: l.drop (i + 1)) true (l.take i).length :=
    Located.found _ _ _ hx
  rwa [List.length_take, Nat.min_eq_left hi.le, List.getElem_cons_drop,
    List.take_append_drop] at h

theorem Located.of_bounds {i : ℕ} (hi : i ≤ l.length)
    (h₁ : ∀ (j : ℕ) (hj : j < l.length), j < i → key l[j] < k)
    (h₂ : ∀ (j : ℕ) (hj : j < l.length), i ≤ j → k < key l[j]) :
    Located key k l false i := by
  have h : Located key k (l.take i ++ l.drop i) false (l.take i).length := by
    refine Located.missing _ _ ?_ ?_
    · intro a ha
      obtain ⟨j, hj, rfl⟩ := List.mem_iff_getElem.mp ha
      rw [List.length_take] at hj
      rw [List.getElem_take]
      exact h₁ j (by omega) (by omega)
    · intro b hb
      obtain ⟨j, hj, rfl⟩ := List.mem_iff_getElem.mp hb
      rw [List.length_drop] at hj
      rw [List.getElem_drop]
      exact h₂ (i + j) (by omega) (by omega)
  rwa [List.length_take, Nat.min_eq_left hi, List.take_append_drop] at h

/-- In a sorted list a search finds the one element that has the key. -/
theorem Located.eq_of_found {found : Bool} {i : ℕ} (h : Located key k l found i)
    (hs : KeySorted key l) (hl : l = l₁ ++ x :: l₂) (hx : key x = k) :
    found = true ∧ i = l₁.length := by
  have hmem : x ∈ l := by
    rw [hl]
    exact List.mem_append_right l₁ List.mem_cons_self
  cases h with
  | found m₁ y m₂ hy =>
      refine ⟨rfl, ?_⟩
      have hbelow := hs.around.1
      have hbelow' : ∀ a ∈ l₁, key a < key x := by
        rw [hl] at hs
        exact hs.around.1
      rcases List.append_eq_append_iff.mp hl with ⟨c, hc, hc'⟩ | ⟨c, hc, hc'⟩
      · cases c with
        | nil => rw [hc, List.append_nil]
        | cons z c =>
            obtain rfl : y = z := (List.cons.inj hc').1
            exact absurd (hy.trans hx.symm) (hbelow' y (by rw [hc]; simp)).ne
      · cases c with
        | nil => rw [hc, List.append_nil]
        | cons z c =>
            obtain rfl : x = z := (List.cons.inj hc').1
            exact absurd (hx.trans hy.symm) (hbelow x (by rw [hc]; simp)).ne
  | missing m₁ m₂ h₁ h₂ =>
      rcases List.mem_append.mp hmem with hm | hm
      · exact absurd hx (h₁ x hm).ne
      · exact absurd hx (h₂ x hm).ne'

/-- A search for a key that no element has ends between the smaller and the greater keys. -/
theorem Located.eq_of_missing {found : Bool} {i : ℕ} (h : Located key k l found i)
    (hl : l = l₁ ++ l₂) (h₁ : ∀ a ∈ l₁, key a < k) (h₂ : ∀ b ∈ l₂, k < key b) :
    found = false ∧ i = l₁.length := by
  cases h with
  | found m₁ y m₂ hy =>
      have hmem : y ∈ l₁ ++ l₂ := hl ▸ List.mem_append_right m₁ List.mem_cons_self
      rcases List.mem_append.mp hmem with hm | hm
      · exact absurd hy (h₁ y hm).ne
      · exact absurd hy (h₂ y hm).ne'
  | missing m₁ m₂ hm₁ hm₂ =>
      refine ⟨rfl, ?_⟩
      -- what stands between the two places has keys on both sides of `k`
      rcases List.append_eq_append_iff.mp hl with ⟨c, hc, hc'⟩ | ⟨c, hc, hc'⟩
      · cases c with
        | nil => rw [hc, List.append_nil]
        | cons z c =>
            have hlower : key z < k := h₁ z (by rw [hc]; simp)
            have hupper : k < key z := hm₂ z (by rw [hc']; simp)
            exact absurd (hlower.trans hupper) (lt_irrefl _)
      · cases c with
        | nil => rw [hc, List.append_nil]
        | cons z c =>
            have hlower : key z < k := hm₁ z (by rw [hc]; simp)
            have hupper : k < key z := h₂ z (by rw [hc']; simp)
            exact absurd (hlower.trans hupper) (lt_irrefl _)

/-! ### A sorted list as a finite map -/

/-- The element stored under `k`. -/
def lookup (key : α → κ) (l : List α) (k : κ) : Option α :=
  l.find? fun a => decide (key a = k)

@[simp] theorem lookup_nil : lookup key ([] : List α) k = none := rfl

theorem lookup_cons : lookup key (x :: l) k = if key x = k then some x else lookup key l k := by
  by_cases h : key x = k <;> simp [lookup, h]

theorem key_of_lookup (h : lookup key l k = some x) : key x = k := by
  simpa using List.find?_some h

theorem mem_of_lookup (h : lookup key l k = some x) : x ∈ l :=
  List.mem_of_find?_eq_some h

theorem lookup_eq_none : lookup key l k = none ↔ ∀ a ∈ l, key a ≠ k := by
  simp [lookup]

theorem lookup_append :
    lookup key (l₁ ++ l₂) k = (lookup key l₁ k).or (lookup key l₂ k) := by
  simp [lookup, List.find?_append]

theorem lookup_of_mem (h : KeySorted key l) (hx : x ∈ l) : lookup key l (key x) = some x := by
  cases hl : lookup key l (key x) with
  | none => exact absurd rfl (lookup_eq_none.mp hl x hx)
  | some y => rw [h.eq_of_key_eq (mem_of_lookup hl) hx (key_of_lookup hl)]

theorem lookup_eq_some (h : KeySorted key l) :
    lookup key l k = some x ↔ x ∈ l ∧ key x = k := by
  constructor
  · exact fun hl => ⟨mem_of_lookup hl, key_of_lookup hl⟩
  · rintro ⟨hx, rfl⟩
    exact lookup_of_mem h hx

theorem lookup_insert (h₁ : ∀ a ∈ l₁, key a < key x) (k : κ) :
    lookup key (l₁ ++ x :: l₂) k =
      Function.update (lookup key (l₁ ++ l₂)) (key x) (some x) k := by
  have h₁' : lookup key l₁ (key x) = none := lookup_eq_none.mpr fun a ha => (h₁ a ha).ne
  by_cases hk : key x = k
  · subst hk
    simp [lookup_append, lookup_cons, h₁']
  · simp [lookup_append, lookup_cons, hk, Function.update_of_ne (Ne.symm hk)]

theorem lookup_replace (h : KeySorted key (l₁ ++ x :: l₂)) (hk : key y = key x) (k : κ) :
    lookup key (l₁ ++ y :: l₂) k =
      Function.update (lookup key (l₁ ++ x :: l₂)) (key x) (some y) k := by
  have h₁ := h.around.1
  rw [lookup_insert (by rwa [hk]), hk]
  by_cases hkx : k = key x
  · subst hkx; simp
  · rw [Function.update_of_ne hkx, Function.update_of_ne hkx, lookup_insert h₁,
      Function.update_of_ne hkx]

theorem lookup_erase (h : KeySorted key (l₁ ++ x :: l₂)) (k : κ) :
    lookup key (l₁ ++ l₂) k =
      Function.update (lookup key (l₁ ++ x :: l₂)) (key x) none k := by
  obtain ⟨h₁, h₂⟩ := h.around
  by_cases hkx : k = key x
  · subst hkx
    rw [Function.update_self, lookup_eq_none]
    intro a ha
    rcases List.mem_append.mp ha with ha | ha
    · exact (h₁ a ha).ne
    · exact (h₂ a ha).ne'
  · rw [Function.update_of_ne hkx, lookup_insert h₁, Function.update_of_ne hkx]

/-- Sorted lists that agree as finite maps are equal. -/
theorem KeySorted.ext (h₁ : KeySorted key l₁) (h₂ : KeySorted key l₂)
    (h : ∀ k, lookup key l₁ k = lookup key l₂ k) : l₁ = l₂ := by
  have hmem : ∀ a, a ∈ l₁ ↔ a ∈ l₂ := by
    intro a
    constructor
    · intro ha
      exact mem_of_lookup ((h _).symm.trans (lookup_of_mem h₁ ha))
    · intro ha
      exact mem_of_lookup ((h _).trans (lookup_of_mem h₂ ha))
  have hperm : l₁.Perm l₂ := (List.perm_ext_iff_of_nodup h₁.nodup h₂.nodup).mpr hmem
  exact hperm.eq_of_pairwise (fun a b _ _ hab hba => absurd hab (not_lt.mpr hba.le)) h₁ h₂

/-! ### Distinct elements in the order of a key -/

/-- The distinct elements of a list, sorted by a key. -/
def sortedDistinct [DecidableEq α] (key : α → κ) (l : List α) : List α :=
  l.dedup.insertionSort fun a b => key a ≤ key b

@[simp] theorem mem_sortedDistinct [DecidableEq α] : x ∈ sortedDistinct key l ↔ x ∈ l := by
  simp [sortedDistinct]

theorem sortedDistinct_keySorted [DecidableEq α] (hkey : Function.Injective key) (l : List α) :
    KeySorted key (sortedDistinct key l) := by
  have : Std.Total fun a b : α => key a ≤ key b := ⟨fun a b => le_total _ _⟩
  have : IsTrans α fun a b => key a ≤ key b := ⟨fun a b c => le_trans⟩
  have hle : (sortedDistinct key l).Pairwise fun a b => key a ≤ key b :=
    List.pairwise_insertionSort _ l.dedup
  have hnodup : (sortedDistinct key l).Nodup :=
    (List.perm_insertionSort _ _).nodup_iff.mpr (List.nodup_dedup _)
  refine (hle.and hnodup).imp fun {a b} h => ?_
  exact lt_of_le_of_ne h.1 fun heq => h.2 (hkey heq)

/-! ### The smallest keys of a finite map -/

/-- `L` lists, in increasing order of the keys, the at most `n` smallest keys of the
finite map `f` with their values. -/
structure IsBest (n : ℕ) (f : κ → Option V) (L : List (κ × V)) : Prop where
  sorted : KeySorted Prod.fst L
  entry : ∀ e ∈ L, f e.1 = some e.2
  length_le : L.length ≤ n
  best : ∀ k v, f k = some v → (k, v) ∈ L ∨ L.length = n ∧ ∀ e ∈ L, e.1 < k

variable {n : ℕ} {f g : κ → Option V} {L L' L₁ L₂ : List (κ × V)} {v w : V}

theorem isBest_empty (n : ℕ) : IsBest n (fun _ : κ => (none : Option V)) [] :=
  ⟨keySorted_nil, by simp, Nat.zero_le n, by simp⟩

/-- The first entries of a complete sorted listing of the map. -/
theorem isBest_take (hs : KeySorted Prod.fst L) (he : ∀ e ∈ L, f e.1 = some e.2)
    (hall : ∀ k v, f k = some v → (k, v) ∈ L) (n : ℕ) : IsBest n f (L.take n) where
  sorted := hs.sublist (List.take_sublist n L)
  entry e hm := he e (List.mem_of_mem_take hm)
  length_le := List.length_take_le n L
  best k v hf := hs.mem_take_or_lt (hall k v hf)

theorem IsBest.eq_none_of_nil (hn : 0 < n) (h : IsBest n f []) (k : κ) : f k = none := by
  cases hf : f k with
  | none => rfl
  | some v =>
    rcases h.best k v hf with hm | ⟨hl, -⟩
    · exact absurd hm List.not_mem_nil
    · exact absurd hl hn.ne

private theorem IsBest.mem_of_mem (h : IsBest n f L) (h' : IsBest n f L') :
    ∀ e ∈ L, e ∈ L' := by
  intro e he
  by_contra hne
  obtain ⟨hlen, hlt⟩ := (h'.best e.1 e.2 (h.entry e he)).resolve_left hne
  -- every entry of `L'` is smaller than `e`, hence is listed by `L` too
  have hsub : L' ⊆ L := by
    intro d hd
    rcases h.best d.1 d.2 (h'.entry d hd) with hm | ⟨-, hall⟩
    · exact hm
    · exact absurd (hall e he) (not_lt.mpr (hlt d hd).le)
  have hperm : L'.Perm L :=
    (List.subperm_of_subset h'.sorted.nodup hsub).perm_of_length_le
      (hlen ▸ h.length_le)
  exact hne (hperm.mem_iff.mpr he)

/-- The ranked prefix is determined by the map. -/
theorem IsBest.unique (h : IsBest n f L) (h' : IsBest n f L') : L = L' := by
  have hperm : L.Perm L' := (List.perm_ext_iff_of_nodup h.sorted.nodup h'.sorted.nodup).mpr
    fun e => ⟨h.mem_of_mem h' e, h'.mem_of_mem h e⟩
  exact hperm.eq_of_pairwise (fun a b _ _ hab hba => absurd hab (not_lt.mpr hba.le))
    h.sorted h'.sorted

theorem IsBest.congr (h : IsBest n f L) (hfg : ∀ k, f k = g k) : IsBest n g L := by
  rwa [show g = f from funext fun k => (hfg k).symm]

theorem IsBest.eq_some_of_mem (h : IsBest n f (L₁ ++ (k, v) :: L₂)) : f k = some v :=
  h.entry (k, v) (by simp)

/-- Updating the value of a listed key. -/
theorem IsBest.update_listed (h : IsBest n f (L₁ ++ (k, v) :: L₂)) (w : V) :
    IsBest n (Function.update f k (some w)) (L₁ ++ (k, w) :: L₂) := by
  have hsorted : KeySorted Prod.fst (L₁ ++ (k, w) :: L₂) := h.sorted.replace rfl
  refine ⟨hsorted, ?_, by simpa using h.length_le, ?_⟩
  · intro e he
    by_cases hek : e.1 = k
    · have : e = (k, w) := hsorted.eq_of_key_eq he (by simp) hek
      rw [this, Function.update_self]
    · rw [Function.update_of_ne hek]
      apply h.entry
      simp only [List.mem_append, List.mem_cons] at he ⊢
      rcases he with he | rfl | he
      · exact Or.inl he
      · exact absurd rfl hek
      · exact Or.inr (Or.inr he)
  · intro k' v' hf
    by_cases hk : k' = k
    · subst hk
      rw [Function.update_self, Option.some.injEq] at hf
      exact Or.inl (by simp [hf])
    · rw [Function.update_of_ne hk] at hf
      rcases h.best k' v' hf with hm | ⟨hlen, hlt⟩
      · refine Or.inl ?_
        simp only [List.mem_append, List.mem_cons, Prod.mk.injEq] at hm ⊢
        rcases hm with hm | ⟨rfl, -⟩ | hm
        · exact Or.inl hm
        · exact absurd rfl hk
        · exact Or.inr (Or.inr hm)
      · refine Or.inr ⟨by simpa using hlen, fun e he => ?_⟩
        simp only [List.mem_append, List.mem_cons] at he
        rcases he with he | rfl | he
        · exact hlt e (by simp [he])
        · exact hlt (k, v) (by simp)
        · exact hlt e (by simp [he])

/-- A key that is not listed may change freely once the list is full and all its keys
are smaller. -/
theorem IsBest.update_beyond (h : IsBest n f L) (hlen : L.length = n) (hlt : ∀ e ∈ L, e.1 < k)
    (o : Option V) : IsBest n (Function.update f k o) L := by
  refine ⟨h.sorted, fun e he => ?_, h.length_le, fun k' v' hf => ?_⟩
  · rw [Function.update_of_ne (hlt e he).ne, h.entry e he]
  · by_cases hk : k' = k
    · subst hk; exact Or.inr ⟨hlen, hlt⟩
    · rw [Function.update_of_ne hk] at hf
      exact h.best k' v' hf

/-- Inserting a new key in its place, then cutting the list back to `n` entries. -/
theorem IsBest.insert (h : IsBest n f (L₁ ++ L₂)) (hn : f k = none)
    (h₁ : ∀ e ∈ L₁, e.1 < k) (h₂ : ∀ e ∈ L₂, k < e.1) (v : V) :
    IsBest n (Function.update f k (some v)) ((L₁ ++ (k, v) :: L₂).take n) := by
  have hsorted : KeySorted Prod.fst (L₁ ++ (k, v) :: L₂) := h.sorted.insert h₁ h₂
  have hentry : ∀ e ∈ L₁ ++ (k, v) :: L₂, Function.update f k (some v) e.1 = some e.2 := by
    intro e he
    simp only [List.mem_append, List.mem_cons] at he
    rcases he with he | rfl | he
    · rw [Function.update_of_ne (h₁ e he).ne, h.entry e (by simp [he])]
    · simp
    · rw [Function.update_of_ne (h₂ e he).ne', h.entry e (by simp [he])]
  refine ⟨hsorted.sublist (List.take_sublist _ _), fun e he => hentry e (List.mem_of_mem_take he),
    List.length_take_le _ _, fun k' v' hf => ?_⟩
  have hlist := fun e he => hsorted.mem_take_or_lt (n := n) (e := e) he
  by_cases hk : k' = k
  · subst hk
    rw [Function.update_self, Option.some.injEq] at hf
    subst hf
    exact hlist (k', v) (by simp)
  · rw [Function.update_of_ne hk] at hf
    rcases h.best k' v' hf with hm | ⟨hlen, hlt⟩
    · refine hlist (k', v') ?_
      simp only [List.mem_append, List.mem_cons] at hm ⊢
      rcases hm with hm | hm
      · exact Or.inl hm
      · exact Or.inr (Or.inr hm)
    · -- the list was full below `k'`, and at most one of its entries made room
      refine Or.inr ⟨?_, fun e he => ?_⟩
      · simp only [List.length_append, List.length_take, List.length_cons] at hlen ⊢
        omega
      · have hmem := List.mem_of_mem_take he
        simp only [List.mem_append, List.mem_cons] at hmem
        rcases hmem with hmem | rfl | hmem
        · exact hlt e (by simp [hmem])
        · -- `k` is kept only when it is before some old entry
          rcases L₂ with _ | ⟨d, L₂⟩
          · exfalso
            simp only [List.append_nil] at hlen
            rw [List.take_append_of_le_length (by omega)] at he
            exact absurd (h₁ _ (List.mem_of_mem_take he)) (lt_irrefl _)
          · exact (h₂ d (by simp)).trans (hlt d (by simp))
        · exact hlt e (by simp [hmem])

/-- The first entry of a ranked prefix, and the prefix of what remains. -/
theorem IsBest.uncons (h : IsBest (n + 1) f ((k, v) :: L)) :
    f k = some v ∧ (∀ k' v', f k' = some v' → k ≤ k') ∧ (∀ e ∈ L, k < e.1) ∧
      IsBest n (Function.update f k none) L := by
  obtain ⟨hlt, hsorted⟩ := keySorted_cons.mp h.sorted
  refine ⟨h.entry (k, v) (by simp), fun k' v' hf => ?_, hlt, hsorted, fun e he => ?_, ?_, ?_⟩
  · rcases h.best k' v' hf with hm | ⟨-, hall⟩
    · rcases List.mem_cons.mp hm with heq | hm
      · exact le_of_eq (Prod.mk.inj heq).1.symm
      · exact (hlt _ hm).le
    · exact (hall (k, v) (by simp)).le
  · rw [Function.update_of_ne (hlt e he).ne']
    exact h.entry e (List.mem_cons_of_mem _ he)
  · exact Nat.le_of_succ_le_succ h.length_le
  · intro k' v' hf
    by_cases hk : k' = k
    · simp [hk] at hf
    rw [Function.update_of_ne hk] at hf
    rcases h.best k' v' hf with hm | ⟨hlen, hall⟩
    · rcases List.mem_cons.mp hm with heq | hm
      · exact absurd (Prod.mk.inj heq).1 hk
      · exact Or.inl hm
    · exact Or.inr ⟨Nat.succ.inj hlen, fun e he => hall e (List.mem_cons_of_mem _ he)⟩

/-- The least key in front of the smallest keys of what remains. -/
theorem IsBest.cons (hk : f k = some v) (hleast : ∀ k' v', f k' = some v' → k ≤ k')
    (h : IsBest n (Function.update f k none) L) : IsBest (n + 1) f ((k, v) :: L) := by
  have hrest : ∀ e ∈ L, e.1 ≠ k ∧ f e.1 = some e.2 := by
    intro e he
    have hentry := h.entry e he
    by_cases hek : e.1 = k
    · rw [hek, Function.update_self] at hentry
      exact absurd hentry.symm (Option.some_ne_none _)
    · rw [Function.update_of_ne hek] at hentry
      exact ⟨hek, hentry⟩
  have hlt : ∀ e ∈ L, k < e.1 := fun e he =>
    lt_of_le_of_ne (hleast e.1 e.2 (hrest e he).2) (hrest e he).1.symm
  refine ⟨keySorted_cons.mpr ⟨hlt, h.sorted⟩, fun e he => ?_, Nat.succ_le_succ h.length_le, ?_⟩
  · rcases List.mem_cons.mp he with rfl | he
    · exact hk
    · exact (hrest e he).2
  · intro k' v' hf
    by_cases hkk : k' = k
    · subst hkk
      rw [hk] at hf
      obtain rfl := Option.some.inj hf
      exact Or.inl List.mem_cons_self
    · have hupdate : Function.update f k none k' = some v' := by rwa [Function.update_of_ne hkk]
      rcases h.best k' v' hupdate with hm | ⟨hlen, hall⟩
      · exact Or.inl (List.mem_cons_of_mem _ hm)
      · refine Or.inr ⟨congrArg Nat.succ hlen, fun e he => ?_⟩
        rcases List.mem_cons.mp he with rfl | he
        · exact lt_of_le_of_ne (hleast k' v' hf) (Ne.symm hkk)
        · exact hall e he

/-- Where a searched key stands: listed, or absent, or beyond a full list. -/
theorem IsBest.missing (h : IsBest n f (L₁ ++ L₂)) (h₁ : ∀ e ∈ L₁, e.1 < k)
    (h₂ : ∀ e ∈ L₂, k < e.1) :
    f k = none ∨ (L₁ ++ L₂).length = n ∧ L₂ = [] := by
  cases hf : f k with
  | none => exact Or.inl rfl
  | some v =>
    right
    rcases h.best k v hf with hm | ⟨hlen, hlt⟩
    · rcases List.mem_append.mp hm with hm | hm
      · exact absurd (h₁ _ hm) (lt_irrefl _)
      · exact absurd (h₂ _ hm) (lt_irrefl _)
    · refine ⟨hlen, List.eq_nil_iff_forall_not_mem.mpr fun e he => ?_⟩
      exact absurd (h₂ e he) (not_lt.mpr (hlt e (by simp [he])).le)

end SortedList
