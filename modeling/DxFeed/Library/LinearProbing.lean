import Mathlib.Data.Finset.Card
import Mathlib.Tactic

/-!
# Hash tables with linear probing

A table has `n` slots, and an element with the key `k` is looked for from the slot `home k` on,
around the end of the table.

* `dist`: the number of steps from one slot to another one;
* `probe`: the search for the first slot where it can stop;
* `Probed`: on the way from its home to an element all slots are taken, a hole apart;
* `Stores`: the table has exactly the elements of a list, at most one for each key;
* `shiftBack`: the removal that moves elements into the hole it leaves;
* `shiftBack_origin`: it moves them towards the slot that was emptied;
* `shiftBack_keeps`: it moves no element of a table in which the hole was free.
-/

namespace LinearProbing

variable {α κ : Type*}

/-! ### Distances -/

/-- The number of steps from the slot `a` to the slot `b`. -/
def dist (n a b : ℕ) : ℕ := if a ≤ b then b - a else b + n - a

variable {n a b c : ℕ}

@[simp] theorem dist_self : dist n a a = 0 := by simp [dist]

theorem dist_lt (ha : a < n) (hb : b < n) : dist n a b < n := by
  unfold dist
  split_ifs <;> omega

theorem dist_eq_zero (ha : a < n) (h : dist n a b = 0) : a = b := by
  unfold dist at h
  split_ifs at h <;> omega

theorem dist_injective (ha : a < n) (hb : b < n) (hc : c < n) (h : dist n a b = dist n a c) :
    b = c := by
  unfold dist at h
  split_ifs at h <;> omega

/-- A slot on the way divides the distance. -/
theorem dist_add (ha : a < n) (hb : b < n) (hc : c < n) (h : dist n a b ≤ dist n a c) :
    dist n a b + dist n b c = dist n a c := by
  unfold dist at h ⊢
  split_ifs at h ⊢ <;> omega

/-- The slot after `a`. -/
theorem next_eq (ha : a < n) : (a + 1) % n = if a + 1 = n then 0 else a + 1 := by
  split_ifs with h
  · rw [h, Nat.mod_self]
  · exact Nat.mod_eq_of_lt (by omega)

theorem next_lt (ha : a < n) : (a + 1) % n < n := Nat.mod_lt _ (by omega)

/-- One step is one step closer to any other slot. -/
theorem dist_next (ha : a < n) (hb : b < n) (hne : a ≠ b) :
    dist n ((a + 1) % n) b + 1 = dist n a b := by
  rw [next_eq ha]
  unfold dist
  split_ifs <;> omega

/-- One step is one step farther from a slot that lies behind, as long as another slot is farther
still. -/
theorem dist_next_right (ha : a < n) (hb : b < n) (hc : c < n) (h : dist n a b < dist n a c) :
    dist n a ((b + 1) % n) = dist n a b + 1 := by
  rw [next_eq hb]
  unfold dist at h ⊢
  split_ifs at h ⊢ <;> omega

/-- A way over a slot is not shorter than the way around. -/
theorem dist_triangle (ha : a < n) (hb : b < n) :
    dist n a c ≤ dist n a b + dist n b c := by
  unfold dist
  split_ifs <;> omega

theorem next_ne (ha : a < n) (hc : c < n) (hne : c ≠ a) : (a + 1) % n ≠ a := by
  rw [next_eq ha]
  split_ifs <;> omega

/-! ### Probing -/

/-- The first slot from `i` on where the search can stop; `none` if there is none within so many
steps. -/
def probe (n : ℕ) (stop : ℕ → Bool) : ℕ → ℕ → Option ℕ
  | 0, _ => none
  | fuel + 1, i => if stop i then some i else probe n stop fuel ((i + 1) % n)

/-- The search stops at the first slot where it can. -/
theorem probe_eq {stop : ℕ → Bool} {fuel i p : ℕ} (hi : i < n) (hp : p < n)
    (hstop : stop p = true) (hbefore : ∀ r < n, dist n i r < dist n i p → stop r = false)
    (hfuel : dist n i p < fuel) : probe n stop fuel i = some p := by
  induction fuel generalizing i with
  | zero => omega
  | succ fuel ih =>
      rw [probe]
      by_cases heq : i = p
      · subst heq
        rw [if_pos hstop]
      · have hpos := dist_next hi hp heq
        rw [if_neg (by simp [hbefore i hi (by rw [dist_self]; omega)])]
        refine ih (next_lt hi) ?_ (by omega)
        intro r hr hlt
        refine hbefore r hr ?_
        by_cases hir : i = r
        · subst hir
          rw [dist_self]
          omega
        · have hstep := dist_next hi hr hir
          omega

/-- If the search can stop anywhere, then there is a first slot where it stops. -/
theorem exists_first {stop : ℕ → Bool} {i p : ℕ} (hp : p < n) (hstop : stop p = true) :
    ∃ q < n, stop q = true ∧ ∀ r < n, dist n i r < dist n i q → stop r = false := by
  obtain ⟨q, ⟨hq, hqstop⟩, hmin⟩ := (measure fun q => dist n i q).wf.has_min
    {q | q < n ∧ stop q = true} ⟨p, hp, hstop⟩
  refine ⟨q, hq, hqstop, fun r hr hlt => ?_⟩
  by_contra hrstop
  exact hmin r ⟨hr, by simpa using hrstop⟩ hlt

/-! ### Tables -/

/-- The table has exactly these elements, at most one for each key. -/
structure Holds (n : ℕ) (key : α → κ) (slots : ℕ → Option α) (elements : List α) : Prop where
  mem_iff : ∀ x, x ∈ elements ↔ ∃ p < n, slots p = some x
  unique : ∀ p q x y, p < n → q < n → slots p = some x → slots q = some y → key x = key y → p = q

/-- On the way from its home to an element all slots are taken, those in `holes` apart. -/
def Probed (n : ℕ) (home : κ → ℕ) (key : α → κ) (slots : ℕ → Option α) (holes : Set ℕ) : Prop :=
  ∀ x p, p < n → slots p = some x → ∀ r < n,
    dist n (home (key x)) r < dist n (home (key x)) p → slots r ≠ none ∨ r ∈ holes

/-- The table has exactly these elements, at most one for each key, and finds them. -/
structure Stores (n : ℕ) (home : κ → ℕ) (key : α → κ) (slots : ℕ → Option α)
    (elements : List α) : Prop extends Holds n key slots elements where
  path : Probed n home key slots ∅

variable {home : κ → ℕ} {key : α → κ} {slots : ℕ → Option α} {elements : List α}

/-- A table with fewer elements than slots has an empty slot. -/
theorem Holds.exists_empty (h : Holds n key slots elements) (hlt : elements.length < n) :
    ∃ p < n, slots p = none := by
  by_contra hfull
  have hsome : ∀ p : Fin n, ∃ x, slots p = some x := by
    intro p
    exact Option.ne_none_iff_exists'.mp fun hnone => hfull ⟨p, p.isLt, hnone⟩
  choose f hf using hsome
  classical
  have hle : (Finset.univ : Finset (Fin n)).card ≤ elements.toFinset.card := by
    refine Finset.card_le_card_of_injOn f ?_ ?_
    · intro p _
      exact List.mem_toFinset.mpr ((h.mem_iff _).mpr ⟨p, p.isLt, hf p⟩)
    · intro p _ q _ heq
      exact Fin.ext (h.unique p q _ _ p.isLt q.isLt (hf p) (hf q) (congrArg key heq))
  have hcard := elements.toFinset_card_le
  rw [Finset.card_univ, Fintype.card_fin] at hle
  omega

/-- A table with an empty slot has fewer elements than slots. -/
theorem Holds.length_lt (h : Holds n key slots elements) (hnodup : elements.Nodup)
    (hempty : ∃ p < n, slots p = none) : elements.length < n := by
  classical
  obtain ⟨e, he, hnone⟩ := hempty
  have hplace : ∀ x, ∃ p, x ∈ elements → p ∈ (Finset.range n).erase e ∧ slots p = some x := by
    intro x
    by_cases hx : x ∈ elements
    · obtain ⟨p, hp, hslot⟩ := (h.mem_iff x).mp hx
      refine ⟨p, fun _ => ⟨Finset.mem_erase.mpr ⟨?_, Finset.mem_range.mpr hp⟩, hslot⟩⟩
      rintro rfl
      rw [hnone] at hslot
      exact nomatch hslot
    · exact ⟨0, fun hmem => absurd hmem hx⟩
  choose place hplace using hplace
  have hle : elements.toFinset.card ≤ ((Finset.range n).erase e).card := by
    refine Finset.card_le_card_of_injOn place ?_ ?_
    · intro x hx
      exact (hplace x (List.mem_toFinset.mp hx)).1
    · intro x hx y hy heq
      have hxslot := (hplace x (List.mem_toFinset.mp hx)).2
      have hyslot := (hplace y (List.mem_toFinset.mp hy)).2
      rw [heq, hyslot] at hxslot
      exact (Option.some.inj hxslot).symm
  rw [List.toFinset_card_of_nodup hnodup, Finset.card_erase_of_mem (Finset.mem_range.mpr he),
    Finset.card_range] at hle
  omega

/-- Exchanging two slots keeps what the table holds. -/
theorem Holds.swap (h : Holds n key slots elements) {p q : ℕ} (hp : p < n) (hq : q < n) :
    Holds n key (slots ∘ Equiv.swap p q) elements := by
  have hswap : ∀ r < n, Equiv.swap p q r < n := by
    intro r hr
    rw [Equiv.swap_apply_def]
    split_ifs <;> assumption
  constructor
  · intro x
    rw [h.mem_iff]
    constructor
    · rintro ⟨r, hr, hx⟩
      exact ⟨Equiv.swap p q r, hswap r hr, by simpa using hx⟩
    · rintro ⟨r, hr, hx⟩
      exact ⟨Equiv.swap p q r, hswap r hr, hx⟩
  · intro r s x y hr hs hx hy hkey
    have heq := h.unique _ _ x y (hswap r hr) (hswap s hs) hx hy hkey
    exact (Equiv.swap p q).injective heq

/-! ### Search and insertion -/

section Search

variable [DecidableEq κ]

/-- The search for a key stops at an empty slot and at an element with this key. -/
def stops (key : α → κ) (k : κ) (slots : ℕ → Option α) (p : ℕ) : Bool :=
  match slots p with
  | none => true
  | some x => key x = k

theorem stops_of_none {k : κ} {p : ℕ} (h : slots p = none) : stops key k slots p = true := by
  simp [stops, h]

theorem stops_of_some {k : κ} {p : ℕ} {x : α} (h : slots p = some x) :
    stops key k slots p = decide (key x = k) := by
  simp [stops, h]

theorem stops_eq_false {k : κ} {p : ℕ} :
    stops key k slots p = false ↔ ∃ x, slots p = some x ∧ key x ≠ k := by
  cases h : slots p with
  | none => simp [stops_of_none h]
  | some x => simp [stops_of_some h]

/-- The search for the key of an element ends at this element. -/
theorem Stores.probe_mem (h : Stores n home key slots elements) (hhome : ∀ k, home k < n) {x : α}
    (hx : x ∈ elements) :
    ∃ p < n, slots p = some x ∧ probe n (stops key (key x) slots) n (home (key x)) = some p := by
  obtain ⟨p, hp, hslot⟩ := (h.mem_iff x).mp hx
  refine ⟨p, hp, hslot, ?_⟩
  refine probe_eq (hhome _) hp (by simp [stops_of_some hslot]) ?_ (dist_lt (hhome _) hp)
  intro r hr hlt
  -- A slot before `p` is taken, and not by an element with the same key.
  have htaken := (h.path x p hp hslot r hr hlt).resolve_right (Set.notMem_empty r)
  obtain ⟨y, hy⟩ := Option.ne_none_iff_exists'.mp htaken
  refine stops_eq_false.mpr ⟨y, hy, fun hkey => ?_⟩
  have heq := h.unique r p y x hr hp hy hslot hkey
  rw [heq] at hlt
  exact lt_irrefl _ hlt

/-- The search for a key that no element has ends at the first empty slot. -/
theorem Stores.probe_not_mem (h : Stores n home key slots elements) (hhome : ∀ k, home k < n)
    (hlt : elements.length < n) {k : κ} (hk : ∀ x ∈ elements, key x ≠ k) :
    ∃ p < n, slots p = none ∧ probe n (stops key k slots) n (home k) = some p ∧
      ∀ r < n, dist n (home k) r < dist n (home k) p → slots r ≠ none := by
  obtain ⟨e, he, hempty⟩ := h.exists_empty hlt
  have hends : stops key k slots e = true := stops_of_none hempty
  obtain ⟨p, hp, hstop, hbefore⟩ := exists_first (i := home k) he hends
  have hnone : slots p = none := by
    cases hslot : slots p with
    | none => rfl
    | some x =>
        have hne := hk x ((h.mem_iff x).mpr ⟨p, hp, hslot⟩)
        rw [stops_of_some hslot] at hstop
        exact absurd (of_decide_eq_true hstop) hne
  refine ⟨p, hp, hnone, probe_eq (hhome k) hp hstop hbefore (dist_lt (hhome k) hp), ?_⟩
  intro r hr hlt hslot
  have hfalse := hbefore r hr hlt
  rw [stops_of_none hslot] at hfalse
  exact Bool.noConfusion hfalse

end Search

/-- Storing an element with a new key in the first empty slot. -/
theorem Stores.insert (h : Stores n home key slots elements) {x : α} {p : ℕ} (hp : p < n)
    (hnone : slots p = none) (hkey : ∀ y ∈ elements, key y ≠ key x)
    (hbefore : ∀ r < n, dist n (home (key x)) r < dist n (home (key x)) p → slots r ≠ none) :
    Stores n home key (Function.update slots p (some x)) (x :: elements) := by
  have hold : ∀ q y, q < n → slots q = some y → q ≠ p ∧ key y ≠ key x := by
    intro q y hq hy
    refine ⟨?_, hkey y ((h.mem_iff y).mpr ⟨q, hq, hy⟩)⟩
    rintro rfl
    rw [hnone] at hy
    exact Option.some_ne_none y hy.symm
  refine ⟨⟨?_, ?_⟩, ?_⟩
  · intro y
    rw [List.mem_cons, h.mem_iff]
    constructor
    · rintro (rfl | ⟨q, hq, hy⟩)
      · exact ⟨p, hp, Function.update_self ..⟩
      · exact ⟨q, hq, by rw [Function.update_of_ne (hold q y hq hy).1, hy]⟩
    · rintro ⟨q, hq, hy⟩
      by_cases hqp : q = p
      · subst hqp
        rw [Function.update_self] at hy
        exact Or.inl (Option.some.inj hy).symm
      · rw [Function.update_of_ne hqp] at hy
        exact Or.inr ⟨q, hq, hy⟩
  · intro q r y z hq hr hy hz hyz
    by_cases hqp : q = p <;> by_cases hrp : r = p
    · rw [hqp, hrp]
    · subst hqp
      rw [Function.update_self] at hy
      rw [Function.update_of_ne hrp] at hz
      obtain rfl := Option.some.inj hy
      exact absurd hyz.symm (hold r z hr hz).2
    · subst hrp
      rw [Function.update_self] at hz
      rw [Function.update_of_ne hqp] at hy
      obtain rfl := Option.some.inj hz
      exact absurd hyz (hold q y hq hy).2
    · rw [Function.update_of_ne hqp] at hy
      rw [Function.update_of_ne hrp] at hz
      exact h.unique q r y z hq hr hy hz hyz
  · intro y q hq hy r hr hlt
    left
    by_cases hrp : r = p
    · rw [hrp, Function.update_self]
      exact Option.some_ne_none x
    · rw [Function.update_of_ne hrp]
      by_cases hqp : q = p
      · subst hqp
        rw [Function.update_self] at hy
        obtain rfl := Option.some.inj hy
        exact hbefore r hr hlt
      · rw [Function.update_of_ne hqp] at hy
        exact (h.path y q hq hy r hr hlt).resolve_right (Set.notMem_empty r)

/-! ### Removal -/

/-- Closes the hole: the elements from `np` up to the next empty slot are looked at, and each one
that `moves` goes into the hole and leaves a hole behind. -/
def shiftBack (n : ℕ) (home : κ → ℕ) (key : α → κ) (moves : ℕ → ℕ → ℕ → Bool) :
    ℕ → (ℕ → Option α) → ℕ → ℕ → Option (ℕ → Option α)
  | 0, _, _, _ => none
  | fuel + 1, slots, hole, np =>
      match slots np with
      | none => some (Function.update slots hole none)
      | some x =>
          if moves hole np (home (key x)) then
            shiftBack n home key moves fuel (Function.update slots hole (some x)) np
              ((np + 1) % n)
          else shiftBack n home key moves fuel slots hole ((np + 1) % n)

/-- What holds while the hole is closed, of the table with the hole emptied: the empty slot `e`
is still ahead, and so is every element that has the hole on its way. -/
structure Shifting (n : ℕ) (home : κ → ℕ) (key : α → κ) (slots : ℕ → Option α)
    (elements : List α) (e hole np : ℕ) : Prop extends Holds n key slots elements where
  e_lt : e < n
  e_ne : e ≠ hole
  e_none : slots e = none
  e_ahead : dist n hole np ≤ dist n hole e
  hole_lt : hole < n
  hole_none : slots hole = none
  np_lt : np < n
  np_ne : np ≠ hole
  path : Probed n home key slots {hole}
  ahead : ∀ x p, p < n → slots p = some x →
    dist n (home (key x)) hole < dist n (home (key x)) p → dist n hole np ≤ dist n hole p

namespace Shifting

variable {e hole np : ℕ} {x : α}

/-- The next slot, while the empty slot is ahead. -/
theorem next_ahead (h : Shifting n home key slots elements e hole np) (hx : slots np = some x) :
    dist n hole ((np + 1) % n) = dist n hole np + 1 ∧ dist n hole np < dist n hole e ∧
      e ≠ np := by
  have hne : e ≠ np := by
    rintro rfl
    rw [h.e_none] at hx
    exact Option.some_ne_none x hx.symm
  have hlt : dist n hole np < dist n hole e := by
    refine lt_of_le_of_ne h.e_ahead fun heq => hne ?_
    exact (dist_injective h.hole_lt h.np_lt h.e_lt heq).symm
  exact ⟨dist_next_right h.hole_lt h.np_lt h.e_lt hlt, hlt, hne⟩

/-- An element that does not have the hole on its way stays. -/
theorem skip (h : Shifting n home key slots elements e hole np) (hx : slots np = some x)
    (hstay : ¬ dist n (home (key x)) hole < dist n (home (key x)) np) :
    Shifting n home key slots elements e hole ((np + 1) % n) := by
  obtain ⟨hnext, hlt, -⟩ := h.next_ahead hx
  refine { h with
    e_ahead := by omega
    np_lt := next_lt h.np_lt
    np_ne := ?_
    ahead := ?_ }
  · intro heq
    rw [heq, dist_self] at hnext
    omega
  · intro y p hp hy hcross
    have hle := h.ahead y p hp hy hcross
    have hne : dist n hole np ≠ dist n hole p := by
      intro heq
      obtain rfl := dist_injective h.hole_lt h.np_lt hp heq
      rw [hx] at hy
      obtain rfl := Option.some.inj hy
      exact hstay hcross
    omega

/-- An element that has the hole on its way goes into the hole. -/
theorem move (h : Shifting n home key slots elements e hole np) (hx : slots np = some x)
    (hcross : dist n (home (key x)) hole < dist n (home (key x)) np) :
    Shifting n home key (slots ∘ Equiv.swap hole np) elements e np ((np + 1) % n) := by
  obtain ⟨-, -, hne⟩ := h.next_ahead hx
  have hswap : ∀ r, r ≠ hole → r ≠ np → (slots ∘ Equiv.swap hole np) r = slots r := by
    intro r hr hr'
    rw [Function.comp_apply, Equiv.swap_apply_of_ne_of_ne hr hr']
  have hnp : (slots ∘ Equiv.swap hole np) np = none := by
    rw [Function.comp_apply, Equiv.swap_apply_right, h.hole_none]
  have hhole : (slots ∘ Equiv.swap hole np) hole = some x := by
    rw [Function.comp_apply, Equiv.swap_apply_left, hx]
  have hself : dist n np np = 0 := dist_self
  have hpos : ∀ r < n, r ≠ np → 0 < dist n np r := by
    intro r hr hrnp
    exact Nat.pos_of_ne_zero fun hzero => hrnp (dist_eq_zero h.np_lt hzero).symm
  have hnext : dist n np ((np + 1) % n) = 1 := by
    rw [dist_next_right h.np_lt h.np_lt h.e_lt (by rw [hself]; exact hpos e h.e_lt hne), hself]
  refine
    { h.toHolds.swap h.hole_lt h.np_lt with
      e_lt := h.e_lt
      e_ne := hne
      e_none := by rw [hswap e h.e_ne hne, h.e_none]
      e_ahead := by rw [hnext]; exact hpos e h.e_lt hne
      hole_lt := h.np_lt
      hole_none := hnp
      np_lt := next_lt h.np_lt
      np_ne := next_ne h.np_lt h.e_lt hne
      path := ?_
      ahead := ?_ }
  · intro y p hp hy r hr hlt
    by_cases hrnp : r = np
    · exact Or.inr hrnp
    left
    by_cases hrhole : r = hole
    · rw [hrhole, hhole]
      exact Option.some_ne_none x
    rw [hswap r hrhole hrnp]
    by_cases hphole : p = hole
    · -- The moved element: its way to the hole is a part of its way to `np`.
      rw [hphole, hhole] at hy
      obtain rfl := Option.some.inj hy
      rw [hphole] at hlt
      exact (h.path x np h.np_lt hx r hr (hlt.trans hcross)).resolve_right hrhole
    · have hpnp : p ≠ np := by
        rintro rfl
        rw [hnp] at hy
        exact Option.some_ne_none y hy.symm
      rw [hswap p hphole hpnp] at hy
      exact (h.path y p hp hy r hr hlt).resolve_right hrhole
  · intro y p hp hy _
    rw [hnext]
    refine hpos p hp ?_
    rintro rfl
    rw [hnp] at hy
    exact Option.some_ne_none y hy.symm

/-- At the next empty slot nothing has the hole on its way any more. -/
theorem closed (h : Shifting n home key slots elements e hole np) (hhome : ∀ k, home k < n)
    (hnone : slots np = none) : Stores n home key slots elements := by
  refine { h.toHolds with path := ?_ }
  intro y p hp hy r hr hlt
  left
  rcases h.path y p hp hy r hr hlt with hne | hhole
  · exact hne
  · -- The slot `np` lies between the hole and `p`, so it is taken or the hole.
    obtain rfl : r = hole := hhole
    have hle := h.ahead y p hp hy hlt
    have hsplit := dist_add (hhome (key y)) hr hp hlt.le
    have hnp : dist n (home (key y)) np < dist n (home (key y)) p := by
      have hne : dist n r np ≠ dist n r p := by
        intro heq
        obtain rfl := dist_injective hr h.np_lt hp heq
        rw [hnone] at hy
        exact Option.some_ne_none y hy.symm
      have hstep := dist_triangle (c := np) (hhome (key y)) hr
      omega
    rcases h.path y p hp hy np h.np_lt hnp with hne | heq
    · exact absurd hnone hne
    · exact absurd heq h.np_ne

end Shifting

/-- Closing the hole that an element has left: the table stores the other elements. -/
theorem shiftBack_spec {moves : ℕ → ℕ → ℕ → Bool}
    (hmoves : ∀ hole np t, hole < n → np < n → t < n →
      (moves hole np t = true ↔ dist n t hole < dist n t np))
    (hhome : ∀ k, home k < n) {fuel e hole np : ℕ}
    (h : Shifting n home key (Function.update slots hole none) elements e hole np)
    (hfuel : dist n np e < fuel) :
    ∃ slots', shiftBack n home key moves fuel slots hole np = some slots' ∧
      Stores n home key slots' elements := by
  induction fuel generalizing slots hole np with
  | zero => omega
  | succ fuel ih =>
      have hnp : Function.update slots hole none np = slots np := Function.update_of_ne h.np_ne ..
      rw [shiftBack]
      cases hx : slots np with
      | none => exact ⟨_, rfl, h.closed hhome (by rw [hnp, hx])⟩
      | some x =>
          have hx' : Function.update slots hole none np = some x := by rw [hnp, hx]
          obtain ⟨-, -, hne⟩ := h.next_ahead hx'
          have hstep := dist_next h.np_lt h.e_lt hne.symm
          have hiff := hmoves hole np (home (key x)) h.hole_lt h.np_lt (hhome _)
          by_cases hmove : moves hole np (home (key x)) = true
          · simp only [hmove, if_true]
            refine ih ?_ (by omega)
            have hswap := h.move hx' (hiff.mp hmove)
            have heq : Function.update slots hole none ∘ Equiv.swap hole np =
                Function.update (Function.update slots hole (some x)) np none := by
              funext r
              rw [Function.comp_apply, Equiv.swap_apply_def]
              by_cases hrhole : r = hole
              · subst hrhole
                rw [if_pos rfl, hx', Function.update_of_ne h.np_ne.symm, Function.update_self]
              · by_cases hrnp : r = np
                · subst hrnp
                  rw [if_neg hrhole, if_pos rfl, Function.update_self, Function.update_self]
                · rw [if_neg hrhole, if_neg hrnp, Function.update_of_ne hrhole,
                    Function.update_of_ne hrnp, Function.update_of_ne hrhole]
            rwa [heq] at hswap
          · simp only [hmove, if_false, Bool.false_eq_true]
            exact ih (h.skip hx' fun hcross => hmove (hiff.mpr hcross)) (by omega)

/-- Emptying the slot of an element starts the removal. -/
theorem Stores.shifting (h : Stores n home key slots elements) {x : α} {p : ℕ}
    (hp : p < n) (hslot : slots p = some x) (hlt : elements.length < n)
    (hnodup : elements.Nodup) [DecidableEq α] :
    ∃ e, dist n ((p + 1) % n) e < n ∧
      Shifting n home key (Function.update slots p none) (elements.erase x) e p ((p + 1) % n) := by
  obtain ⟨e, he, hempty⟩ := h.exists_empty hlt
  have hne : e ≠ p := by
    rintro rfl
    rw [hslot] at hempty
    exact Option.some_ne_none x hempty
  have hupdate : ∀ q y, Function.update slots p none q = some y → q ≠ p ∧ slots q = some y := by
    intro q y hy
    by_cases hqp : q = p
    · rw [hqp, Function.update_self] at hy
      exact absurd hy.symm (Option.some_ne_none y)
    · rw [Function.update_of_ne hqp] at hy
      exact ⟨hqp, hy⟩
  have hpos : ∀ q < n, q ≠ p → 0 < dist n p q := by
    intro q hq hqp
    exact Nat.pos_of_ne_zero fun hzero => hqp (dist_eq_zero hp hzero).symm
  have hself : dist n p p = 0 := dist_self
  have hnext : dist n p ((p + 1) % n) = 1 := by
    rw [dist_next_right hp hp he (by rw [hself]; exact hpos e he hne), hself]
  refine ⟨e, dist_lt (next_lt hp) he, ?_⟩
  refine
    { mem_iff := ?_
      unique := ?_
      e_lt := he
      e_ne := hne
      e_none := by rw [Function.update_of_ne hne, hempty]
      e_ahead := by rw [hnext]; exact hpos e he hne
      hole_lt := hp
      hole_none := Function.update_self ..
      np_lt := next_lt hp
      np_ne := next_ne hp he hne
      path := ?_
      ahead := ?_ }
  · intro y
    rw [hnodup.mem_erase_iff, h.mem_iff]
    constructor
    · rintro ⟨hyx, q, hq, hy⟩
      have hqp : q ≠ p := by
        rintro rfl
        rw [hslot] at hy
        exact hyx (Option.some.inj hy).symm
      exact ⟨q, hq, by rw [Function.update_of_ne hqp, hy]⟩
    · rintro ⟨q, hq, hy⟩
      obtain ⟨hqp, hy⟩ := hupdate q y hy
      refine ⟨?_, q, hq, hy⟩
      rintro rfl
      exact hqp (h.unique q p y y hq hp hy hslot rfl)
  · intro q r y z hq hr hy hz hkey
    exact h.unique q r y z hq hr (hupdate q y hy).2 (hupdate r z hz).2 hkey
  · intro y q hq hy r hr hlt
    by_cases hrp : r = p
    · exact Or.inr hrp
    · left
      rw [Function.update_of_ne hrp]
      exact (h.path y q hq (hupdate q y hy).2 r hr hlt).resolve_right (Set.notMem_empty r)
  · intro y q hq hy _
    rw [hnext]
    exact hpos q hq (hupdate q y hy).1

/-- Closing a hole moves no element away from the slot where the first hole was. -/
theorem shiftBack_origin {moves : ℕ → ℕ → ℕ → Bool} {start e fuel hole np : ℕ}
    {slots' : ℕ → Option α} (hstart : start < n) (he : e < n) (hnp : np < n) (hne : e ≠ hole)
    (hnone : slots e = none) (hhole : dist n start hole ≤ dist n start np)
    (hahead : dist n start np ≤ dist n start e)
    (h : shiftBack n home key moves fuel slots hole np = some slots') :
    ∀ r < n, ∀ x, slots' r = some x →
      ∃ q < n, slots q = some x ∧ dist n start r ≤ dist n start q := by
  induction fuel generalizing slots hole np with
  | zero => exact nomatch h
  | succ fuel ih =>
      rw [shiftBack] at h
      cases hslot : slots np with
      | none =>
          rw [hslot] at h
          obtain rfl := Option.some.inj h
          intro r hrn x hr
          have hrhole : r ≠ hole := by
            rintro rfl
            rw [Function.update_self] at hr
            exact nomatch hr
          rw [Function.update_of_ne hrhole] at hr
          exact ⟨r, hrn, hr, le_rfl⟩
      | some y =>
          rw [hslot] at h
          have hnpe : e ≠ np := by
            rintro rfl
            rw [hnone] at hslot
            exact nomatch hslot
          have hlt : dist n start np < dist n start e := by
            refine lt_of_le_of_ne hahead fun heq => hnpe ?_
            exact (dist_injective hstart hnp he heq).symm
          have hnext := dist_next_right hstart hnp he hlt
          by_cases hmove : moves hole np (home (key y)) = true
          · simp only [hmove, if_true] at h
            have hnone' : Function.update slots hole (some y) e = none := by
              rw [Function.update_of_ne hne, hnone]
            intro r hrn x hr
            obtain ⟨q, hqn, hq, hle⟩ :=
              ih (next_lt hnp) hnpe hnone' (by omega) (by omega) h r hrn x hr
            by_cases hqhole : q = hole
            · -- what the hole has got comes from farther away
              rw [hqhole, Function.update_self] at hq
              rw [hqhole] at hle
              exact ⟨np, hnp, by rw [hslot, Option.some.inj hq], hle.trans hhole⟩
            · rw [Function.update_of_ne hqhole] at hq
              exact ⟨q, hqn, hq, hle⟩
          · simp only [hmove, if_false, Bool.false_eq_true] at h
            exact ih (next_lt hnp) hne hnone (by omega) (by omega) h

/-! ### Removing what was added -/

/-- Closing a hole moves no element of a table without the hole, on whose ways the hole is not. -/
theorem shiftBack_keeps {moves : ℕ → ℕ → ℕ → Bool}
    (hmoves : ∀ hole np t, hole < n → np < n → t < n →
      (moves hole np t = true ↔ dist n t hole < dist n t np))
    (hhome : ∀ k, home k < n) {base slots' : ℕ → Option α} (hbase : Probed n home key base ∅)
    {fuel hole np : ℕ} (hhole : hole < n) (hnp : np < n) (hfree : base hole = none)
    (hsub : ∀ p < n, ∀ x, base p = some x → slots p = some x)
    (h : shiftBack n home key moves fuel slots hole np = some slots') :
    ∀ p < n, ∀ x, base p = some x → slots' p = some x := by
  have hne : ∀ p x, base p = some x → p ≠ hole := by
    rintro p x hx rfl
    rw [hfree] at hx
    exact nomatch hx
  induction fuel generalizing slots hole np with
  | zero => exact nomatch h
  | succ fuel ih =>
      rw [shiftBack] at h
      cases hslot : slots np with
      | none =>
          rw [hslot] at h
          intro p hp x hx
          rw [← Option.some.inj h, Function.update_of_ne (hne p x hx)]
          exact hsub p hp x hx
      | some y =>
          rw [hslot] at h
          by_cases hmove : moves hole np (home (key y)) = true
          · simp only [hmove, if_true] at h
            -- an element of the table would have the hole on its way
            have hnpfree : base np = none := by
              by_contra hnone
              obtain ⟨z, hz⟩ := Option.ne_none_iff_exists'.mp hnone
              have hzy : z = y := Option.some.inj ((hsub np hnp z hz).symm.trans hslot)
              have hlt := (hmoves hole np _ hhole hnp (hhome _)).mp hmove
              rw [← hzy] at hlt
              rcases hbase z np hnp hz hole hhole hlt with htaken | hmem
              · exact htaken hfree
              · exact hmem
            refine ih hnp (next_lt hnp) hnpfree ?_ h ?_
            · intro p hp x hx
              rw [Function.update_of_ne (hne p x hx)]
              exact hsub p hp x hx
            · rintro p x hx rfl
              rw [hnpfree] at hx
              exact nomatch hx
          · simp only [hmove, if_false, Bool.false_eq_true] at h
            exact ih hhole (next_lt hnp) hfree hsub h hne

/-- Two tables with the same elements are equal if one has its elements where the other has
them. -/
theorem Holds.eq_of_sub {base : ℕ → Option α} {elements' : List α}
    (hbase : Holds n key base elements') (h : Holds n key slots elements)
    (hmem : ∀ x, x ∈ elements → x ∈ elements')
    (hsub : ∀ p < n, ∀ x, base p = some x → slots p = some x) : ∀ p < n, slots p = base p := by
  intro p hp
  cases hslot : slots p with
  | none =>
      cases hx : base p with
      | none => rfl
      | some x => exact absurd (hsub p hp x hx) (by rw [hslot]; exact nofun)
  | some x =>
      obtain ⟨q, hq, hx⟩ := (hbase.mem_iff x).mp (hmem x ((h.mem_iff x).mpr ⟨p, hp, hslot⟩))
      have heq := h.unique p q x x hp hq hslot (hsub q hq x hx) rfl
      rw [heq, hx]

end LinearProbing
