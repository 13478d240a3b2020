import DxFeed.PriceLevelBook.Levels

/-!
# Merging the sources of a book

`dx_plb_book_update_one_side` walks the level arrays of all sources of a book and writes
the merged levels into the ten slots of the book.

* `bestStep`, `bestOf`, `advance`: one round of the merge; the position `sidx[i]` in a
  source is represented by the levels of that source that remain;
* `mergeLoop`: the rounds, over the slots of the destination;
* `combine`, `mergedAt`: the sum of the sizes and the latest time of the levels at a price;
* `mergedLevels`: the ten best distinct prices up to the start value, cut at a level of
  size zero; `mergeLoop_spec` says that the loop writes exactly these;
* `bestMerge`: the ten best distinct prices without a start value, and
  `mergedLevels_eq_bestMerge` for levels within it.
-/

namespace DxFeed.PriceLevelBook

open SortedList

variable {P S κ : Type*}

section Definitions

variable [AddCommGroup S]

/-- The initial value of `best`: `startValue`, with size and time zero. -/
def startLevel (startValue : P) : PriceLevelElement P S where
  price := startValue
  size := 0
  time := 0

@[simp] theorem startLevel_price (startValue : P) :
    (startLevel startValue : PriceLevelElement P S).price = startValue := rfl

/-- The update of `best` by the current level of one source. -/
def bestStep (cmp : LevelComparator P S) (best level : PriceLevelElement P S) :
    PriceLevelElement P S :=
  if cmp best level = 0 then
    { best with size := best.size + level.size, time := max best.time level.time }
  else if 0 < cmp best level then level
  else best

/-- The loop over the sources that finds the best level. -/
def bestOf (cmp : LevelComparator P S) (startValue : P) (srcs : List (List (PriceLevelElement P S))) :
    PriceLevelElement P S :=
  srcs.foldl
    (fun best src =>
      match src with
      | [] => best
      | level :: _ => bestStep cmp best level)
    (startLevel startValue)

variable [DecidableEq P]

/-- The loop that increases the positions of the sources used in this round. -/
def advance (best : PriceLevelElement P S) (srcs : List (List (PriceLevelElement P S))) :
    List (List (PriceLevelElement P S)) :=
  srcs.map fun src =>
    match src with
    | [] => []
    | level :: rest => if level.price = best.price then rest else src

variable [DecidableEq S]

/-- The loop of `dx_plb_book_update_one_side` over the slots of the destination: the new slots,
the number of levels written (`didx`), and the mark `changed`. -/
def mergeLoop (cmp : LevelComparator P S) (startValue : P) :
    List (PriceLevelElement P S) → List (List (PriceLevelElement P S)) →
      List (PriceLevelElement P S) × ℕ × Bool
  | [], _ => ([], 0, false)
  | slot :: slots, srcs =>
      let best := bestOf cmp startValue srcs
      if best.size = 0 then (slot :: slots, 0, false)
      else
        let r := mergeLoop cmp startValue slots (advance best srcs)
        (best :: r.1, r.2.1 + 1, decide (slot ≠ best) || r.2.2)

end Definitions

/-! ### Levels at one price -/

section Combine

/-- The entry of a level in a map from ranks to sizes and times. -/
def levelEntry (rank : P → κ) (e : PriceLevelElement P S) : κ × S × ℤ :=
  (rank e.price, e.size, e.time)

theorem levelEntry_injective {rank : P → κ} (hrank : Function.Injective rank) :
    Function.Injective (levelEntry (S := S) rank) := by
  rintro ⟨p, s, t⟩ ⟨p', s', t'⟩ h
  simp only [levelEntry, Prod.mk.injEq] at h
  simp [hrank h.1, h.2]

variable [AddCommGroup S]

/-- The sum of the sizes and the latest time of some levels. -/
def combine : List (PriceLevelElement P S) → Option (S × ℤ)
  | [] => none
  | e :: es =>
      match combine es with
      | none => some (e.size, e.time)
      | some (s, t) => some (e.size + s, max e.time t)

variable {b e : PriceLevelElement P S} {es : List (PriceLevelElement P S)}

@[simp] theorem combine_nil : combine ([] : List (PriceLevelElement P S)) = none := rfl

theorem combine_eq_none : combine es = none ↔ es = [] := by
  cases es with
  | nil => simp
  | cons e es =>
      unfold combine
      split <;> simp

theorem combine_singleton : combine [e] = some (e.size, e.time) := rfl

/-- Two levels at the head may be combined first. -/
theorem combine_cons_cons {p : P} :
    combine (b :: e :: es) =
      combine (⟨p, b.size + e.size, max b.time e.time⟩ :: es) := by
  cases h : combine es with
  | none => simp [combine, h]
  | some st => simp [combine, h, add_assoc, max_assoc]

variable [DecidableEq κ]

/-- The levels of rank `k`, combined. -/
def mergedAt (rank : P → κ) (levels : List (PriceLevelElement P S)) (k : κ) : Option (S × ℤ) :=
  combine (levels.filter fun e => rank e.price = k)

end Combine

/-! ### One round -/

section Round

/-- The current levels of the sources. -/
def heads (srcs : List (List (PriceLevelElement P S))) : List (PriceLevelElement P S) :=
  srcs.filterMap List.head?

@[simp] theorem heads_nil_cons (srcs : List (List (PriceLevelElement P S))) :
    heads ([] :: srcs) = heads srcs := rfl

@[simp] theorem heads_cons_cons (e : PriceLevelElement P S) (src : List (PriceLevelElement P S))
    (srcs : List (List (PriceLevelElement P S))) : heads ((e :: src) :: srcs) = e :: heads srcs :=
  rfl

/-! ### The positions after a round -/

section Positions

variable [LinearOrder κ] {rank : P → κ} {k : κ} {srcs : List (List (PriceLevelElement P S))}
  {best : PriceLevelElement P S}

theorem advance_cons [DecidableEq P] (src : List (PriceLevelElement P S)) :
    advance best (src :: srcs) =
      (match src with
        | [] => []
        | level :: rest => if level.price = best.price then rest else src) :: advance best srcs :=
  rfl

theorem advance_sorted [DecidableEq P]
    (hs : ∀ src ∈ srcs, KeySorted (fun e : PriceLevelElement P S => rank e.price) src) :
    ∀ src ∈ advance best srcs, KeySorted (fun e : PriceLevelElement P S => rank e.price) src := by
  intro src hsrc
  obtain ⟨src', hsrc', rfl⟩ := List.mem_map.mp hsrc
  have h := hs src' hsrc'
  rcases src' with _ | ⟨e, rest⟩
  · exact h
  · dsimp only
    split_ifs
    · exact (keySorted_cons.mp h).2
    · exact h

/-- The levels at a price that no current level beats are current levels. -/
theorem filter_flatten_eq_heads
    (hs : ∀ src ∈ srcs, KeySorted (fun e : PriceLevelElement P S => rank e.price) src)
    (hle : ∀ e ∈ heads srcs, k ≤ rank e.price) :
    (srcs.flatten.filter fun e => rank e.price = k) =
      (heads srcs).filter fun e => rank e.price = k := by
  induction srcs with
  | nil => rfl
  | cons src srcs ih =>
      have hs' := fun s hm => hs s (List.mem_cons_of_mem _ hm)
      rcases src with _ | ⟨e, rest⟩
      · exact ih hs' hle
      · have hrest : (rest.filter fun e => rank e.price = k) = [] := by
          rw [List.filter_eq_nil_iff]
          intro d hd
          have hlt := (keySorted_cons.mp (hs _ List.mem_cons_self)).1 d hd
          simpa using ((hle e (by simp)).trans_lt hlt).ne'
        rw [List.flatten_cons, List.filter_append, heads_cons_cons, List.filter_cons,
          List.filter_cons, hrest, ih hs' fun d hd => hle d (by simp [hd])]
        split_ifs <;> rfl

/-- After a round at the best price, the remaining levels are worse. -/
theorem lt_of_mem_advance [DecidableEq P] (hrank : Function.Injective rank)
    (hs : ∀ src ∈ srcs, KeySorted (fun e : PriceLevelElement P S => rank e.price) src)
    (hle : ∀ e ∈ heads srcs, rank best.price ≤ rank e.price) :
    ∀ e ∈ (advance best srcs).flatten, rank best.price < rank e.price := by
  intro e he
  obtain ⟨src, hsrc, he⟩ := List.mem_flatten.mp he
  obtain ⟨src', hsrc', rfl⟩ := List.mem_map.mp hsrc
  rcases src' with _ | ⟨d, rest⟩
  · cases he
  have hd : rank best.price ≤ rank d.price := hle d (List.mem_filterMap.mpr ⟨_, hsrc', rfl⟩)
  have hlt := (keySorted_cons.mp (hs _ hsrc')).1
  dsimp only at he
  split_ifs at he with hprice
  · exact hd.trans_lt (hlt e he)
  · have hd' : rank best.price < rank d.price :=
      lt_of_le_of_ne hd fun h => hprice (hrank h.symm)
    rcases List.mem_cons.mp he with rfl | he
    · exact hd'
    · exact hd'.trans (hlt e he)

/-- A round keeps the levels at the other prices. -/
theorem filter_flatten_advance [DecidableEq P] (hk : rank best.price ≠ k) :
    ((advance best srcs).flatten.filter fun e => rank e.price = k) =
      srcs.flatten.filter fun e => rank e.price = k := by
  induction srcs with
  | nil => rfl
  | cons src srcs ih =>
      rcases src with _ | ⟨e, rest⟩
      · exact ih
      · rw [advance_cons, List.flatten_cons, List.filter_append, ih, List.flatten_cons,
          List.filter_append]
        congr 1
        dsimp only
        split_ifs with hprice
        · simp [hprice, hk]
        · rfl

/-- No level is worse than the ranks of the sources allow. -/
theorem le_of_heads
    (hs : ∀ src ∈ srcs, KeySorted (fun e : PriceLevelElement P S => rank e.price) src)
    (hle : ∀ e ∈ heads srcs, k ≤ rank e.price) : ∀ e ∈ srcs.flatten, k ≤ rank e.price := by
  intro e he
  obtain ⟨src, hsrc, he⟩ := List.mem_flatten.mp he
  rcases src with _ | ⟨d, rest⟩
  · cases he
  have hd : k ≤ rank d.price := hle d (List.mem_filterMap.mpr ⟨d :: rest, hsrc, rfl⟩)
  rcases List.mem_cons.mp he with rfl | he
  · exact hd
  · exact hd.trans ((keySorted_cons.mp (hs _ hsrc)).1 e he).le

end Positions

/-! ### The best level of a round -/

variable [AddCommGroup S] {cmp : LevelComparator P S}

theorem bestOf_eq_foldl (startValue : P)
    (srcs : List (List (PriceLevelElement P S))) :
    bestOf cmp startValue srcs = (heads srcs).foldl (bestStep cmp) (startLevel startValue) := by
  unfold bestOf
  generalize (startLevel startValue : PriceLevelElement P S) = b
  induction srcs generalizing b with
  | nil => rfl
  | cons src srcs ih =>
      cases src with
      | nil => exact ih b
      | cons level rest => exact ih (bestStep cmp b level)

variable [LinearOrder κ] {rank : P → κ} {b e : PriceLevelElement P S}
  {es : List (PriceLevelElement P S)} {k : κ}

theorem mergedAt_cons_of_ne (h : rank e.price ≠ k) : mergedAt rank (e :: es) k = mergedAt rank es k := by
  simp [mergedAt, h]

theorem mergedAt_cons_of_eq (h : rank e.price = k) :
    mergedAt rank (e :: es) k = combine (e :: es.filter fun e => rank e.price = k) := by
  simp [mergedAt, h]

/-- The result of the selection loop is of the best rank, and it combines all the levels of
that rank. -/
theorem foldl_bestStep (hcmp : Orders cmp fun e => rank e.price)
    (hs : List (PriceLevelElement P S)) (b : PriceLevelElement P S) :
    (∀ e ∈ b :: hs, rank (hs.foldl (bestStep cmp) b).price ≤ rank e.price) ∧
      (∃ e ∈ b :: hs, (hs.foldl (bestStep cmp) b).price = e.price) ∧
      mergedAt rank (b :: hs) (rank (hs.foldl (bestStep cmp) b).price) =
        some ((hs.foldl (bestStep cmp) b).size, (hs.foldl (bestStep cmp) b).time) := by
  induction hs generalizing b with
  | nil => simp [mergedAt, combine_singleton]
  | cons h hs ih =>
      obtain ⟨hle, ⟨e, he, hprice⟩, hval⟩ := ih (bestStep cmp b h)
      rw [List.foldl_cons]
      generalize hs.foldl (bestStep cmp) (bestStep cmp b h) = r at hle hprice hval ⊢
      have hz := hcmp.zero_iff b h
      have hp := hcmp.pos_iff b h
      have hmem : ∀ e ∈ hs, rank r.price ≤ rank e.price := fun e he => hle e (by simp [he])
      have hstep : rank r.price ≤ rank (bestStep cmp b h).price := hle _ (by simp)
      unfold bestStep at hstep he hval
      rcases lt_trichotomy (rank b.price) (rank h.price) with hlt | heq | hgt
      · -- the best stays
        rw [if_neg (by rw [hz]; exact hlt.ne), if_neg (by rw [hp]; exact hlt.asymm)]
          at hstep he hval
        refine ⟨?_, ⟨e, ?_, hprice⟩, ?_⟩
        · simpa using ⟨hstep, (hstep.trans_lt hlt).le, hmem⟩
        · simp only [List.mem_cons] at he ⊢
          tauto
        · rw [← hval]
          have hne : rank h.price ≠ rank r.price := (hstep.trans_lt hlt).ne'
          simp [mergedAt, List.filter_cons, hne]
      · -- the sizes are added
        rw [if_pos (by rw [hz]; exact heq)] at hstep he hval
        refine ⟨?_, ?_, ?_⟩
        · simpa using ⟨hstep, heq ▸ hstep, hmem⟩
        · rcases List.mem_cons.mp he with rfl | he
          · exact ⟨b, by simp, hprice⟩
          · exact ⟨e, by simp [he], hprice⟩
        · rw [← hval]
          by_cases hk : rank b.price = rank r.price
          · rw [mergedAt_cons_of_eq hk, mergedAt_cons_of_eq (by exact hk), List.filter_cons,
              if_pos (by simpa using heq ▸ hk)]
            exact combine_cons_cons
          · rw [mergedAt_cons_of_ne hk, mergedAt_cons_of_ne (heq ▸ hk),
              mergedAt_cons_of_ne (by exact hk)]
      · -- the best is replaced
        rw [if_neg (by rw [hz]; exact hgt.ne'), if_pos (by rw [hp]; exact hgt)] at hstep he hval
        refine ⟨?_, ⟨e, ?_, hprice⟩, ?_⟩
        · simpa using ⟨(hstep.trans_lt hgt).le, hstep, hmem⟩
        · simp only [List.mem_cons] at he ⊢
          tauto
        · rw [← hval]
          exact mergedAt_cons_of_ne (hstep.trans_lt hgt).ne'

end Round

/-! ### The levels up to the start value -/

section Merged

variable [LinearOrder κ] [AddCommGroup S] {rank : P → κ} {cmp : LevelComparator P S} {startValue : P}
  {levels : List (PriceLevelElement P S)} {srcs : List (List (PriceLevelElement P S))} {k : κ}

/-- The levels that are not worse than the start value, which takes part as a level of size
and time zero. -/
def boundedLevels (rank : P → κ) (startValue : P) (levels : List (PriceLevelElement P S)) :
    List (PriceLevelElement P S) :=
  startLevel startValue :: levels.filter fun e => rank e.price ≤ rank startValue

theorem mem_of_mergedAt {v : S × ℤ} (h : mergedAt rank levels k = some v) :
    ∃ e ∈ levels, rank e.price = k := by
  by_contra hne
  push Not at hne
  have : (levels.filter fun e => rank e.price = k) = [] := by
    simpa [List.filter_eq_nil_iff] using hne
  rw [mergedAt, this] at h
  cases h

theorem mergedAt_bounded_filter (rank : P → κ) (startValue : P)
    (levels : List (PriceLevelElement P S)) {k : κ} (hk : k ≤ rank startValue) :
    mergedAt rank (boundedLevels rank startValue levels) k =
      mergedAt rank (startLevel startValue :: levels) k := by
  have hf : (levels.filter fun e => rank e.price ≤ rank startValue).filter
      (fun e => rank e.price = k) = levels.filter fun e => rank e.price = k := by
    rw [List.filter_filter]
    refine List.filter_congr fun e _ => ?_
    by_cases h : rank e.price = k
    · simp [h, hk]
    · simp [h]
  simp only [mergedAt, boundedLevels, List.filter_cons, hf]

theorem mergedAt_bounded_of_lt (hk : k < rank startValue) :
    mergedAt rank (boundedLevels rank startValue levels) k = mergedAt rank levels k := by
  rw [mergedAt_bounded_filter _ _ _ hk.le, mergedAt_cons_of_ne (by exact hk.ne')]

theorem mergedAt_bounded_of_gt (hk : rank startValue < k) :
    mergedAt rank (boundedLevels rank startValue levels) k = none := by
  cases h : mergedAt rank (boundedLevels rank startValue levels) k with
  | none => rfl
  | some v =>
      obtain ⟨e, he, rfl⟩ := mem_of_mergedAt h
      rcases List.mem_cons.mp he with rfl | he
      · exact absurd hk (lt_irrefl _)
      · exact absurd hk (not_lt.mpr (by simpa using (List.mem_filter.mp he).2))

/-- The best level of a round combines the levels of the best rank. -/
theorem bestOf_mergedAt (startValue : P) (hcmp : Orders cmp fun e => rank e.price)
    (hs : ∀ src ∈ srcs, KeySorted (fun e : PriceLevelElement P S => rank e.price) src) :
    (∀ e ∈ startLevel startValue :: heads srcs,
        rank (bestOf cmp startValue srcs).price ≤ rank e.price) ∧
      mergedAt rank (boundedLevels rank startValue srcs.flatten)
          (rank (bestOf cmp startValue srcs).price) =
        some ((bestOf cmp startValue srcs).size, (bestOf cmp startValue srcs).time) := by
  obtain ⟨hle, -, hval⟩ := foldl_bestStep hcmp (heads srcs) (startLevel startValue)
  rw [← bestOf_eq_foldl] at hle hval
  have hstart : rank (bestOf cmp startValue srcs).price ≤ rank startValue :=
    hle (startLevel startValue) (by simp)
  refine ⟨hle, ?_⟩
  rw [mergedAt_bounded_filter _ _ _ hstart, ← hval]
  have hf := filter_flatten_eq_heads hs fun e he => hle e (by simp [he])
  simp only [mergedAt, List.filter_cons, hf]

/-! ### Levels within the start value -/

/-- A level that the start value does not hide: of a better price, or of the same price and
not of a negative time, and not of size zero. -/
structure Admissible (rank : P → κ) (startValue : P) (e : PriceLevelElement P S) : Prop where
  size_ne : e.size ≠ 0
  within : rank e.price < rank startValue ∨ e.price = startValue ∧ 0 ≤ e.time

instance [DecidableEq P] [DecidableEq S] (rank : P → κ) (startValue : P) (e : PriceLevelElement P S) :
    Decidable (Admissible rank startValue e) :=
  decidable_of_iff
    (e.size ≠ 0 ∧ (rank e.price < rank startValue ∨ e.price = startValue ∧ 0 ≤ e.time))
    ⟨fun h => ⟨h.1, h.2⟩, fun h => ⟨h.size_ne, h.within⟩⟩

theorem takeWhile_admissible [DecidableEq S] {L : List (PriceLevelElement P S)}
    (h : ∀ e ∈ L, Admissible rank startValue e) (tail : List (PriceLevelElement P S)) :
    (L ++ tail).takeWhile (fun e => decide (e.size ≠ 0)) =
      L ++ tail.takeWhile fun e => decide (e.size ≠ 0) :=
  List.takeWhile_append_of_pos fun e he => by simpa using (h e he).size_ne

/-- At the start value itself, the start level adds nothing to levels of later times. -/
theorem mergedAt_bounded_start :
    mergedAt rank (boundedLevels rank startValue levels) (rank startValue) =
      match mergedAt rank levels (rank startValue) with
      | none => some (0, 0)
      | some (s, t) => some (s, max 0 t) := by
  rw [mergedAt_bounded_filter _ _ _ le_rfl, mergedAt_cons_of_eq (by rfl), mergedAt]
  cases h : combine (levels.filter fun e => rank e.price = rank startValue) with
  | none =>
      simp [combine, h, startLevel]
  | some st => simp [combine, h, startLevel]

section Bounded

variable {B : List (PriceLevelElement P S)}

theorem Admissible.le {e : PriceLevelElement P S} (h : Admissible rank startValue e) :
    rank e.price ≤ rank startValue := by
  rcases h.within with hlt | ⟨heq, -⟩
  · exact hlt.le
  · rw [heq]

/-- The entries of admissible levels are the same with the start value. -/
theorem mergedAt_bounded_of_admissible {e : PriceLevelElement P S}
    (hadm : Admissible rank startValue e)
    (h : mergedAt rank levels (rank e.price) = some (e.size, e.time)) :
    mergedAt rank (boundedLevels rank startValue levels) (rank e.price) =
      some (e.size, e.time) := by
  rcases hadm.within with hlt | ⟨heq, htime⟩
  · rw [mergedAt_bounded_of_lt hlt, h]
  · rw [heq] at h ⊢
    rw [mergedAt_bounded_start, h]
    simp [htime]

theorem isBest_bounded_of_entry (hbest : IsBest maxPriceLevels (mergedAt rank levels)
      (B.map (levelEntry rank))) (hadm : ∀ e ∈ B, Admissible rank startValue e)
    (hstart : ∀ v, mergedAt rank (boundedLevels rank startValue levels) (rank startValue) = some v →
      (rank startValue, v) ∈ B.map (levelEntry rank) ∨
        (B.map (levelEntry rank)).length = maxPriceLevels ∧
          ∀ d ∈ B.map (levelEntry rank), d.1 < rank startValue) :
    IsBest maxPriceLevels (mergedAt rank (boundedLevels rank startValue levels))
      (B.map (levelEntry rank)) := by
  refine ⟨hbest.sorted, fun d hd => ?_, hbest.length_le, fun k v hk => ?_⟩
  · have hentry := hbest.entry d hd
    obtain ⟨e, he, rfl⟩ := List.mem_map.mp hd
    exact mergedAt_bounded_of_admissible (hadm e he) hentry
  · rcases lt_trichotomy k (rank startValue) with hlt | rfl | hgt
    · rw [mergedAt_bounded_of_lt hlt] at hk
      exact hbest.best k v hk
    · exact hstart v hk
    · rw [mergedAt_bounded_of_gt hgt] at hk
      cases hk

/-- With the start value, the ranked prefix of admissible levels is followed at most by the
start level. -/
theorem isBest_bounded_of_admissible (hbest : IsBest maxPriceLevels (mergedAt rank levels)
      (B.map (levelEntry rank))) (hadm : ∀ e ∈ B, Admissible rank startValue e) :
    ∃ tail : List (PriceLevelElement P S), (∀ e ∈ tail, e.size = 0) ∧
      IsBest maxPriceLevels (mergedAt rank (boundedLevels rank startValue levels))
        ((B ++ tail).map (levelEntry rank)) := by
  by_cases hmem : ∃ e ∈ B, rank e.price = rank startValue
  · obtain ⟨e, he, heq⟩ := hmem
    refine ⟨[], by simp, ?_⟩
    rw [List.append_nil]
    refine isBest_bounded_of_entry hbest hadm fun v hv => Or.inl ?_
    have hentry := mergedAt_bounded_of_admissible (hadm e he)
      (hbest.entry _ (List.mem_map_of_mem he))
    rw [heq, hv, Option.some.injEq] at hentry
    exact List.mem_map.mpr ⟨e, he, by simp [levelEntry, heq, hentry]⟩
  push Not at hmem
  have hlt : ∀ d ∈ B.map (levelEntry rank), d.1 < rank startValue := by
    intro d hd
    obtain ⟨e, he, rfl⟩ := List.mem_map.mp hd
    exact lt_of_le_of_ne (hadm e he).le (hmem e he)
  by_cases hlen : (B.map (levelEntry rank)).length = maxPriceLevels
  · refine ⟨[], by simp, ?_⟩
    rw [List.append_nil]
    exact isBest_bounded_of_entry hbest hadm fun v _ => Or.inr ⟨hlen, hlt⟩
  have hnone : mergedAt rank levels (rank startValue) = none := by
    cases h : mergedAt rank levels (rank startValue) with
    | none => rfl
    | some v =>
        rcases hbest.best _ v h with hm | ⟨hl, -⟩
        · exact absurd (hlt _ hm) (lt_irrefl _)
        · exact absurd hl hlen
  have hzero : mergedAt rank (boundedLevels rank startValue levels) (rank startValue) =
      some (0, 0) := by
    rw [mergedAt_bounded_start, hnone]
  refine ⟨[startLevel startValue], by simp [startLevel], ?_⟩
  rw [List.map_append]
  refine ⟨?_, fun d hd => ?_, ?_, fun k v hk => ?_⟩
  · exact keySorted_append.mpr ⟨hbest.sorted, List.pairwise_singleton _ _,
      fun d hd c hc => by rw [List.mem_singleton.mp hc]; exact hlt d hd⟩
  · rcases List.mem_append.mp hd with hd | hd
    · have hentry := hbest.entry d hd
      obtain ⟨e, he, rfl⟩ := List.mem_map.mp hd
      exact mergedAt_bounded_of_admissible (hadm e he) hentry
    · rw [List.mem_singleton.mp hd]
      exact hzero
  · have hle := hbest.length_le
    rw [List.length_append, List.length_map]
    rw [List.length_map] at hle hlen
    simp only [List.length_cons, List.length_nil, List.map_cons, List.map_nil]
    omega
  · left
    rw [List.mem_append]
    rcases lt_trichotomy k (rank startValue) with hk' | rfl | hk'
    · rw [mergedAt_bounded_of_lt hk'] at hk
      rcases hbest.best k v hk with hm | ⟨hl, -⟩
      · exact Or.inl hm
      · exact absurd hl hlen
    · rw [hzero, Option.some.injEq] at hk
      right
      simp [levelEntry, startLevel, ← hk]
    · rw [mergedAt_bounded_of_gt hk'] at hk
      cases hk

end Bounded

/-! ### The merged levels -/

variable [DecidableEq P]

/-- The levels of one price as one level. -/
def levelAt (levels : List (PriceLevelElement P S)) (p : P) : PriceLevelElement P S :=
  match combine (levels.filter fun e => e.price = p) with
  | none => ⟨p, 0, 0⟩
  | some (s, t) => ⟨p, s, t⟩

/-- The at most ten best distinct prices of some levels, best first, each with the sum of the
sizes and the latest time of its levels. -/
def bestMerge (rank : P → κ) (levels : List (PriceLevelElement P S)) :
    List (PriceLevelElement P S) :=
  ((sortedDistinct rank (levels.map PriceLevelElement.price)).take maxPriceLevels).map
    (levelAt levels)

theorem mergedAt_rank (hrank : Function.Injective rank) (p : P) :
    mergedAt rank levels (rank p) = combine (levels.filter fun e => e.price = p) := by
  simp [mergedAt, hrank.eq_iff]

theorem bestMerge_isBest (hrank : Function.Injective rank) (levels : List (PriceLevelElement P S)) :
    IsBest maxPriceLevels (mergedAt rank levels) ((bestMerge rank levels).map (levelEntry rank)) := by
  have heq : (bestMerge rank levels).map (levelEntry rank) =
      ((sortedDistinct rank (levels.map PriceLevelElement.price)).map fun p =>
        levelEntry rank (levelAt levels p)).take maxPriceLevels := by
    simp [bestMerge, List.map_take, Function.comp_def]
  have hprice : ∀ p, (levelAt levels p).price = p := by
    intro p
    unfold levelAt
    split <;> rfl
  have hsome : ∀ p, (∃ e ∈ levels, e.price = p) →
      mergedAt rank levels (rank p) = some ((levelAt levels p).size, (levelAt levels p).time) := by
    rintro p ⟨e, he, rfl⟩
    rw [mergedAt_rank hrank, levelAt]
    cases h : combine (levels.filter fun d => d.price = e.price) with
    | none =>
        have := List.filter_eq_nil_iff.mp (combine_eq_none.mp h) e he
        simp at this
    | some st => rfl
  rw [heq]
  refine isBest_take ?_ ?_ ?_ _
  · simp only [KeySorted, List.pairwise_map, levelEntry, hprice]
    exact sortedDistinct_keySorted hrank _
  · intro d hd
    obtain ⟨p, hp, rfl⟩ := List.mem_map.mp hd
    simp only [levelEntry, hprice]
    exact hsome p (by simpa using hp)
  · intro k v hk
    obtain ⟨e, he, rfl⟩ := mem_of_mergedAt hk
    rw [hsome e.price ⟨e, he, rfl⟩, Option.some.injEq] at hk
    refine List.mem_map.mpr ⟨e.price, by simpa using ⟨e, he, rfl⟩, ?_⟩
    simp [levelEntry, hprice, ← hk]

/-- After a round at a rank above the start value, its entry is gone. -/
theorem mergedAt_advance {best : PriceLevelElement P S} (hrank : Function.Injective rank)
    (hs : ∀ src ∈ srcs, KeySorted (fun e : PriceLevelElement P S => rank e.price) src)
    (hle : ∀ e ∈ heads srcs, rank best.price ≤ rank e.price)
    (hlt : rank best.price < rank startValue) (k : κ) :
    mergedAt rank (boundedLevels rank startValue (advance best srcs).flatten) k =
      Function.update (mergedAt rank (boundedLevels rank startValue srcs.flatten))
        (rank best.price) none k := by
  by_cases hbound : k ≤ rank startValue
  · by_cases hk : k = rank best.price
    · subst hk
      have hf : (advance best srcs).flatten.filter (fun e => rank e.price = rank best.price) = [] := by
        rw [List.filter_eq_nil_iff]
        exact fun e he => by simpa using (lt_of_mem_advance hrank hs hle e he).ne'
      rw [Function.update_self, mergedAt_bounded_filter _ _ _ hbound,
        mergedAt_cons_of_ne (by exact hlt.ne'), mergedAt, hf, combine_nil]
    · rw [Function.update_of_ne hk, mergedAt_bounded_filter _ _ _ hbound,
        mergedAt_bounded_filter _ _ _ hbound]
      simp only [mergedAt, List.filter_cons, filter_flatten_advance (Ne.symm hk)]
  · have hgt := not_le.mp hbound
    rw [mergedAt_bounded_of_gt hgt, Function.update_of_ne (hlt.trans hgt).ne',
      mergedAt_bounded_of_gt hgt]

variable [DecidableEq S]

/-- The merge up to a start value, which ends before the first level of size zero. -/
def mergedLevels (rank : P → κ) (startValue : P) (levels : List (PriceLevelElement P S)) :
    List (PriceLevelElement P S) :=
  (bestMerge rank (boundedLevels rank startValue levels)).takeWhile fun e => e.size ≠ 0

/-- Without a level as good as the start value, a round ends the merge. -/
theorem mergeLoop_stop (hcmp : Orders cmp fun e => rank e.price)
    (hlt : ∀ e ∈ heads srcs, rank startValue < rank e.price)
    (slots : List (PriceLevelElement P S)) :
    mergeLoop cmp startValue slots srcs = (slots, 0, false) := by
  cases slots with
  | nil => rfl
  | cons slot slots =>
      obtain ⟨hle, ⟨e, he, hprice⟩, hval⟩ :=
        foldl_bestStep hcmp (heads srcs) (startLevel startValue)
      rw [← bestOf_eq_foldl] at hle hprice hval
      have hstart := hle (startLevel startValue) (by simp)
      have hbest : (bestOf cmp startValue srcs).price = startValue := by
        rcases List.mem_cons.mp he with rfl | he
        · exact hprice
        · rw [hprice] at hstart
          exact absurd hstart (not_le.mpr (hlt e he))
      have hzero : (bestOf cmp startValue srcs).size = 0 := by
        have hnil : (heads srcs).filter (fun e => rank e.price = rank startValue) = [] := by
          rw [List.filter_eq_nil_iff]
          exact fun d hd => by simpa using (hlt d hd).ne'
        rw [hbest, mergedAt_cons_of_eq (by rfl), hnil, combine_singleton, Option.some.injEq,
          Prod.mk.injEq] at hval
        exact hval.1.symm
      simp [mergeLoop, hzero]

/-- `dx_plb_book_update_one_side` writes a ranked prefix of the levels up to the start value,
up to the first level of size zero. -/
theorem mergeLoop_of_isBest (hrank : Function.Injective rank)
    (hcmp : Orders cmp fun e => rank e.price) (slots : List (PriceLevelElement P S)) :
    ∀ {srcs : List (List (PriceLevelElement P S))} {L : List (PriceLevelElement P S)},
      (∀ src ∈ srcs, KeySorted (fun e : PriceLevelElement P S => rank e.price) src) →
      IsBest slots.length (mergedAt rank (boundedLevels rank startValue srcs.flatten))
        (L.map (levelEntry rank)) →
      let M := L.takeWhile fun e => e.size ≠ 0
      mergeLoop cmp startValue slots srcs =
        (M ++ slots.drop M.length, M.length, decide (slots.take M.length ≠ M)) := by
  induction slots with
  | nil =>
      intro srcs L _ hL
      obtain rfl : L = [] := by simpa using hL.length_le
      rfl
  | cons slot slots ih =>
      intro srcs L hs hL
      obtain ⟨hle, hval⟩ := bestOf_mergedAt startValue hcmp hs
      rw [mergeLoop]
      generalize bestOf cmp startValue srcs = best at hle hval ⊢
      have hheads : ∀ e ∈ heads srcs, rank best.price ≤ rank e.price := fun e he => hle e (by simp [he])
      have hstart : rank best.price ≤ rank startValue := hle (startLevel startValue) (by simp)
      cases L with
      | nil =>
          have hnone := hL.eq_none_of_nil (Nat.succ_pos _) (rank best.price)
          rw [hval] at hnone
          cases hnone
      | cons e L =>
          obtain ⟨hk, hmin, hgt, htail⟩ := hL.uncons
          -- the first entry is the best level of the round
          obtain rfl : e = best := by
            refine levelEntry_injective hrank ?_
            have hle₁ : rank e.price ≤ rank best.price := hmin _ _ hval
            have hle₂ : rank best.price ≤ rank e.price := by
              obtain ⟨d, hd, hde⟩ := mem_of_mergedAt hk
              rw [← hde]
              rcases List.mem_cons.mp hd with rfl | hd
              · exact hstart
              · exact le_of_heads hs hheads d (List.mem_of_mem_filter hd)
            have heq := le_antisymm hle₁ hle₂
            rw [heq, hval, Option.some.injEq] at hk
            simp [levelEntry, heq, ← hk]
          by_cases hzero : e.size = 0
          · simp [hzero]
          · simp only [hzero, if_false, List.takeWhile_cons, ne_eq, not_false_eq_true,
              decide_true, if_true]
            rcases hstart.lt_or_eq with hlt | heq
            · have htail' := htail.congr fun k =>
                (mergedAt_advance hrank hs hheads hlt k).symm
              have hrec := ih (advance_sorted hs) htail'
              dsimp only at hrec
              rw [hrec]
              simp
            · -- the start value itself: nothing can follow
              obtain rfl : L = [] := by
                refine List.eq_nil_iff_forall_not_mem.mpr fun d hd => ?_
                have hd' := List.mem_map_of_mem (f := levelEntry rank) hd
                have hentry := htail.entry _ hd'
                rw [Function.update_of_ne (hgt _ hd').ne'] at hentry
                obtain ⟨c, hc, hcd⟩ := mem_of_mergedAt hentry
                have hlt : rank startValue < rank c.price := by
                  rw [hcd, ← heq]
                  exact hgt _ hd'
                rcases List.mem_cons.mp hc with rfl | hc
                · exact lt_irrefl _ hlt
                · exact absurd hlt (not_lt.mpr (by simpa using (List.mem_filter.mp hc).2))
              have hworse : ∀ d ∈ heads (advance e srcs), rank startValue < rank d.price := by
                intro d hd
                obtain ⟨src, hsrc, hd⟩ := List.mem_filterMap.mp hd
                rw [← heq]
                exact lt_of_mem_advance hrank hs hheads d
                  (List.mem_flatten.mpr ⟨src, hsrc, List.mem_of_head? hd⟩)
              rw [mergeLoop_stop hcmp hworse slots]
              simp

/-- `dx_plb_book_update_one_side` merges all its sources. -/
theorem mergeLoop_spec (hrank : Function.Injective rank)
    (hcmp : Orders cmp fun e => rank e.price) {slots : List (PriceLevelElement P S)}
    (hslots : slots.length = maxPriceLevels)
    (hs : ∀ src ∈ srcs, KeySorted (fun e : PriceLevelElement P S => rank e.price) src) :
    let M := mergedLevels rank startValue srcs.flatten
    mergeLoop cmp startValue slots srcs =
      (M ++ slots.drop M.length, M.length, decide (slots.take M.length ≠ M)) := by
  refine mergeLoop_of_isBest hrank hcmp slots hs ?_
  rw [hslots]
  exact bestMerge_isBest hrank _

/-- If the start value hides no level of the merge, it changes nothing. -/
theorem mergedLevels_eq_bestMerge (hrank : Function.Injective rank)
    (hadm : ∀ e ∈ bestMerge rank levels, Admissible rank startValue e) :
    mergedLevels rank startValue levels = bestMerge rank levels := by
  obtain ⟨tail, htail, hb⟩ := isBest_bounded_of_admissible (bestMerge_isBest hrank levels) hadm
  have heq := List.map_injective_iff.mpr (levelEntry_injective hrank)
    ((bestMerge_isBest hrank (boundedLevels rank startValue levels)).unique hb)
  rw [mergedLevels, heq, takeWhile_admissible hadm]
  cases tail with
  | nil => simp
  | cons e tail => simp [htail e (by simp)]

end Merged

end DxFeed.PriceLevelBook
