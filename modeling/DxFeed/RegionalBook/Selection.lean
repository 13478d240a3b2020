import DxFeed.PriceLevelBook.Levels
import Mathlib.Data.List.TakeWhile

/-!
# Repeated selection

A list of keys with values is read over and over. A pass keeps a running best key: an equal key adds
its value to it, a lesser key takes its place, and both are taken off the list. So an entry that was
the best for a while is lost when a lesser key follows it.

* `takeBest`, `selectBest`: a pass, and the keys that `n` passes choose;
* `total`: the sum of the values at each key;
* `Behind s r L`: no entry with the key `r` stands in front of the first entry with the key `s`;
* `isBest_selectBest_iff`: the passes choose the `n` least keys with their totals if and only if each
  of these keys is behind all lesser keys, and is not greater than the start.
-/

namespace DxFeed.RegionalBook

open SortedList PriceLevelBook

variable {κ S : Type*} [LinearOrder κ]

/-- No entry with the key `r` stands in front of the first entry with the key `s`. -/
def Behind (s r : κ) (L : List (κ × S)) : Prop :=
  ∀ q ∈ L.takeWhile (fun q => q.1 ≠ s), q.1 ≠ r

/-- The lesser keys of a list. -/
def lesserKeys (r : κ) (L : List (κ × S)) : Finset κ :=
  (L.map Prod.fst).toFinset.filter (· < r)

/-- The `n` least keys are not greater than the start, and each is behind all lesser keys. -/
def InOrder (n : ℕ) (start : κ) (L : List (κ × S)) : Prop :=
  ∀ q ∈ L, (lesserKeys q.1 L).card < n → q.1 ≤ start ∧ ∀ s ∈ lesserKeys q.1 L, Behind s q.1 L

theorem filter_filter_ne {k r : κ} (L : List (κ × S)) (h : k ≠ r) :
    (L.filter (·.1 ≠ r)).filter (·.1 = k) = L.filter (·.1 = k) := by
  rw [List.filter_filter]
  apply List.filter_congr
  intro q _
  simp only [ne_eq, decide_not, Bool.and_eq_left_iff_imp, decide_eq_true_eq, Bool.not_eq_true',
    decide_eq_false_iff_not]
  exact fun hk => hk ▸ h

/-- A list without an entry does not have all entries with the key of it. -/
theorem ne_of_filter_eq {q : κ × S} {L L₁ : List (κ × S)} {k : κ} (hsub : L₁.Sublist L)
    (h : L₁.filter (·.1 = k) = (q :: L).filter (·.1 = k)) : q.1 ≠ k := by
  intro hq
  have hle := (hsub.filter (·.1 = k)).length_le
  rw [h, List.filter_cons_of_pos (by simpa using hq), List.length_cons] at hle
  exact absurd hle (Nat.not_succ_le_self _)

/-! ### The order of first entries -/

section Behind

variable {q : κ × S} {L L₁ : List (κ × S)} {m r s : κ}

theorem behind_cons : Behind s r (q :: L) ↔ q.1 = s ∨ q.1 ≠ r ∧ Behind s r L := by
  by_cases h : q.1 = s
  · rw [Behind, List.takeWhile_cons_of_neg (by simpa using h)]
    exact ⟨fun _ => Or.inl h, fun _ p hp => absurd hp List.not_mem_nil⟩
  · rw [Behind, List.takeWhile_cons_of_pos (by simpa using h), List.forall_mem_cons, or_iff_right h,
      Behind]

/-- The order of two keys is that of a part with all their entries. -/
theorem behind_congr (hsub : L₁.Sublist L) (hs : L₁.filter (·.1 = s) = L.filter (·.1 = s))
    (hr : L₁.filter (·.1 = r) = L.filter (·.1 = r)) : Behind s r L₁ ↔ Behind s r L := by
  induction hsub with
  | slnil => rfl
  | @cons L₁ L q hsub ih =>
      have hqs := ne_of_filter_eq hsub hs
      have hqr := ne_of_filter_eq hsub hr
      rw [List.filter_cons_of_neg (by simpa using hqs)] at hs
      rw [List.filter_cons_of_neg (by simpa using hqr)] at hr
      rw [behind_cons, or_iff_right hqs, and_iff_right hqr]
      exact ih hs hr
  | @cons_cons L₁ L q hsub ih =>
      have htail : ∀ k, (q :: L₁).filter (·.1 = k) = (q :: L).filter (·.1 = k) →
          L₁.filter (·.1 = k) = L.filter (·.1 = k) := by
        intro k h
        by_cases hk : q.1 = k
        · rw [List.filter_cons_of_pos (by simpa using hk),
            List.filter_cons_of_pos (by simpa using hk)] at h
          exact (List.cons.inj h).2
        · rwa [List.filter_cons_of_neg (by simpa using hk),
            List.filter_cons_of_neg (by simpa using hk)] at h
      rw [behind_cons, behind_cons, ih (htail s hs) (htail r hr)]

theorem mem_takeWhile_of_forall {α : Type*} {f g : α → Bool} {l : List α}
    (h : ∀ a ∈ l.takeWhile f, g a = true) : ∀ a ∈ l.takeWhile f, a ∈ l.takeWhile g := by
  induction l with
  | nil => exact fun a ha => ha
  | cons b l ih =>
      by_cases hb : f b = true
      · rw [List.takeWhile_cons_of_pos hb] at h ⊢
        rw [List.takeWhile_cons_of_pos (h b List.mem_cons_self)]
        intro a ha
        rcases List.mem_cons.mp ha with rfl | ha
        · exact List.mem_cons_self
        · exact List.mem_cons_of_mem b (ih (fun a ha => h a (List.mem_cons_of_mem b ha)) a ha)
      · rw [List.takeWhile_cons_of_neg hb]
        exact fun a ha => absurd ha List.not_mem_nil

/-- A key behind a lesser one is left by the pass. -/
theorem Behind.kept (h : Behind m r L) (hlt : m < r) :
    ∀ q ∈ L.takeWhile (fun q => r ≤ q.1), q.1 ≠ r := by
  have hne : ∀ q ∈ L.takeWhile (fun q => r ≤ q.1), decide (q.1 ≠ m) = true := by
    intro q hq
    have hle : r ≤ q.1 := by simpa using List.mem_takeWhile_imp hq
    simpa using (hlt.trans_le hle).ne'
  exact fun q hq => h q (mem_takeWhile_of_forall hne q hq)

/-- If all keys up to `r` are left, each behind some lesser key, they are behind the least one. -/
theorem behind_least (hle : ∀ q ∈ L, m ≤ q.1)
    (hkept : ∀ p ∈ L, m < p.1 → p.1 ≤ r → ∀ q ∈ L.takeWhile (fun q => p.1 ≤ q.1), q.1 ≠ p.1) :
    Behind m r L := by
  classical
  intro q hq hqr
  -- the least entry in front of the first entry with the least key is in front of all lesser ones
  obtain ⟨p, hp, hmin⟩ := (L.takeWhile (fun q => q.1 ≠ m)).toFinset.exists_min_image Prod.fst
    ⟨q, List.mem_toFinset.mpr hq⟩
  have hpW := List.mem_toFinset.mp hp
  have hpL := (List.takeWhile_sublist _).subset hpW
  have hpm : p.1 ≠ m := by simpa using List.mem_takeWhile_imp hpW
  have hpr : p.1 ≤ r := hqr ▸ hmin q (List.mem_toFinset.mpr hq)
  have hall : ∀ a ∈ L.takeWhile (fun q => q.1 ≠ m), decide (p.1 ≤ a.1) = true := by
    intro a ha
    simpa using hmin a (List.mem_toFinset.mpr ha)
  exact hkept p hpL (lt_of_le_of_ne (hle p hpL) hpm.symm) hpr p
    (mem_takeWhile_of_forall hall p hpW) rfl

end Behind

/-! ### Lesser keys -/

section Lesser

variable {K : List (κ × S)} {m r k start : κ} {n : ℕ}

theorem mem_lesserKeys : k ∈ lesserKeys r K ↔ (∃ q ∈ K, q.1 = k) ∧ k < r := by
  simp [lesserKeys]

theorem lesserKeys_mono (h : k ≤ r) : lesserKeys k K ⊆ lesserKeys r K := by
  intro j hj
  obtain ⟨hmem, hlt⟩ := mem_lesserKeys.mp hj
  exact mem_lesserKeys.mpr ⟨hmem, hlt.trans_le h⟩

/-- Behind the least key there is one key less. -/
theorem card_lesserKeys_filter (hm : ∃ q ∈ K, q.1 = m) (hlt : m < r) :
    (lesserKeys r K).card = (lesserKeys r (K.filter (·.1 ≠ m))).card + 1 := by
  have hinsert : lesserKeys r K = insert m (lesserKeys r (K.filter (·.1 ≠ m))) := by
    ext k
    rw [Finset.mem_insert, mem_lesserKeys, mem_lesserKeys]
    simp only [List.mem_filter, ne_eq, decide_eq_true_eq]
    constructor
    · rintro ⟨⟨q, hq, rfl⟩, hk⟩
      by_cases heq : q.1 = m
      · exact Or.inl heq
      · exact Or.inr ⟨⟨q, ⟨hq, heq⟩, rfl⟩, hk⟩
    · rintro (rfl | ⟨⟨q, ⟨hq, -⟩, rfl⟩, hk⟩)
      · exact ⟨hm, hlt⟩
      · exact ⟨⟨q, hq, rfl⟩, hk⟩
  have hnot : m ∉ lesserKeys r (K.filter (·.1 ≠ m)) := by
    intro h
    obtain ⟨⟨q, hq, heq⟩, -⟩ := mem_lesserKeys.mp h
    exact absurd heq (by simpa using (List.mem_filter.mp hq).2)
  rw [hinsert, Finset.card_insert_of_notMem hnot]

/-- The passes have lost none of the `n` least keys of `K` when `L` is left, and will not. -/
def Kept (n : ℕ) (start : κ) (K L : List (κ × S)) : Prop :=
  ∀ r, (∃ q ∈ K, q.1 = r) → (lesserKeys r K).card < n →
    r ≤ start ∧ L.filter (·.1 = r) = K.filter (·.1 = r) ∧ ∀ s ∈ lesserKeys r K, Behind s r L

theorem kept_self : Kept n start K K ↔ InOrder n start K := by
  constructor
  · intro h q hq hcard
    obtain ⟨hstart, -, hbehind⟩ := h q.1 ⟨q, hq, rfl⟩ hcard
    exact ⟨hstart, hbehind⟩
  · rintro h r ⟨q, hq, rfl⟩ hcard
    obtain ⟨hstart, hbehind⟩ := h q hq hcard
    exact ⟨hstart, rfl, hbehind⟩

theorem exists_least (hne : K ≠ []) : ∃ p ∈ K, ∀ q ∈ K, p.1 ≤ q.1 := by
  classical
  obtain ⟨q, hq⟩ := List.exists_mem_of_ne_nil K hne
  obtain ⟨p, hp, hmin⟩ := K.toFinset.exists_min_image Prod.fst ⟨q, List.mem_toFinset.mpr hq⟩
  exact ⟨p, List.mem_toFinset.mp hp, fun q hq => hmin q (List.mem_toFinset.mpr hq)⟩

end Lesser

/-! ### The passes -/

variable [AddCommGroup S]

/-- One pass over the entries: the best key with its sum, and the entries that it leaves. -/
def takeBest (best : κ × S) : List (κ × S) → (κ × S) × List (κ × S)
  | [] => (best, [])
  | q :: L =>
      if q.1 = best.1 then takeBest (best.1, best.2 + q.2) L
      else if q.1 < best.1 then takeBest q L
      else ((takeBest best L).1, q :: (takeBest best L).2)

/-- The sum of the values at each key. -/
def total (L : List (κ × S)) : κ → S :=
  (L.map fun q => Pi.single q.1 q.2).sum

/-! ### Sums -/

section Total

variable {q : κ × S} {L L₁ : List (κ × S)} {k r : κ}

@[simp] theorem total_nil : total ([] : List (κ × S)) = 0 := rfl

theorem total_cons : total (q :: L) = Pi.single q.1 q.2 + total L := by
  rw [total, List.map_cons, List.sum_cons, total]

theorem total_cons_self (q : κ × S) (L : List (κ × S)) :
    total (q :: L) q.1 = q.2 + total L q.1 := by
  rw [total_cons, Pi.add_apply, Pi.single_eq_same]

theorem total_cons_of_ne (h : q.1 ≠ k) : total (q :: L) k = total L k := by
  rw [total_cons, Pi.add_apply, Pi.single_eq_of_ne h.symm, zero_add]

/-- The total at a key is the sum of the values of its entries. -/
theorem total_eq_sum (L : List (κ × S)) (k : κ) :
    total L k = ((L.filter (·.1 = k)).map Prod.snd).sum := by
  induction L with
  | nil => rfl
  | cons q L ih =>
      by_cases h : q.1 = k
      · subst h
        rw [total_cons_self, ih, List.filter_cons_of_pos (by simp), List.map_cons, List.sum_cons]
      · rw [total_cons_of_ne h, ih, List.filter_cons_of_neg (by simpa using h)]

theorem total_congr (h : L₁.filter (·.1 = k) = L.filter (·.1 = k)) : total L₁ k = total L k := by
  rw [total_eq_sum, total_eq_sum, h]

theorem total_filter_ne_self (L : List (κ × S)) (r : κ) : total (L.filter (·.1 ≠ r)) r = 0 := by
  have hnone : (L.filter (·.1 ≠ r)).filter (·.1 = r) = [] := by
    rw [List.filter_filter, List.filter_eq_nil_iff]
    simp
  rw [total_eq_sum, hnone]
  rfl

end Total

/-! ### One pass -/

section TakeBest

variable {best q : κ × S} {L : List (κ × S)} {r : κ}

theorem takeBest_eq (h : q.1 = best.1) :
    takeBest best (q :: L) = takeBest (best.1, best.2 + q.2) L := if_pos h

theorem takeBest_lt (h : q.1 < best.1) : takeBest best (q :: L) = takeBest q L := by
  rw [takeBest, if_neg h.ne, if_pos h]

theorem takeBest_gt (h : best.1 < q.1) :
    takeBest best (q :: L) = ((takeBest best L).1, q :: (takeBest best L).2) := by
  rw [takeBest, if_neg h.ne', if_neg h.not_gt]

/-- The pass leaves a part of the entries. -/
theorem takeBest_sublist (best : κ × S) (L : List (κ × S)) : (takeBest best L).2.Sublist L := by
  induction L generalizing best with
  | nil => exact List.Sublist.slnil
  | cons q L ih =>
      rcases lt_trichotomy q.1 best.1 with h | h | h
      · rw [takeBest_lt h]
        exact (ih q).cons q
      · rw [takeBest_eq h]
        exact (ih _).cons q
      · rw [takeBest_gt h]
        exact (ih best).cons_cons q

theorem takeBest_le (best : κ × S) (L : List (κ × S)) : (takeBest best L).1.1 ≤ best.1 := by
  induction L generalizing best with
  | nil => exact le_rfl
  | cons q L ih =>
      rcases lt_trichotomy q.1 best.1 with h | h | h
      · rw [takeBest_lt h]
        exact (ih q).trans h.le
      · rw [takeBest_eq h]
        exact ih (best.1, best.2 + q.2)
      · rw [takeBest_gt h]
        exact ih best

/-- The pass chooses the least key. -/
theorem takeBest_le_of_mem (best : κ × S) (L : List (κ × S)) :
    ∀ q ∈ L, (takeBest best L).1.1 ≤ q.1 := by
  induction L generalizing best with
  | nil => exact fun q hq => absurd hq List.not_mem_nil
  | cons q L ih =>
      intro p hp
      rcases lt_trichotomy q.1 best.1 with h | h | h
      · rw [takeBest_lt h]
        rcases List.mem_cons.mp hp with rfl | hp
        · exact takeBest_le p L
        · exact ih q p hp
      · rw [takeBest_eq h]
        rcases List.mem_cons.mp hp with rfl | hp
        · exact (takeBest_le _ L).trans h.ge
        · exact ih _ p hp
      · rw [takeBest_gt h]
        rcases List.mem_cons.mp hp with rfl | hp
        · exact (takeBest_le best L).trans h.le
        · exact ih best p hp

/-- The chosen key has the total of its entries, and what it had at the start. -/
theorem takeBest_value (best : κ × S) (L : List (κ × S)) :
    (takeBest best L).1.2 = (if (takeBest best L).1.1 = best.1 then best.2 else 0) +
      total L (takeBest best L).1.1 := by
  induction L generalizing best with
  | nil => rw [takeBest, if_pos rfl, total_nil, Pi.zero_apply, add_zero]
  | cons q L ih =>
      rcases lt_trichotomy q.1 best.1 with h | h | h
      · have hne : (takeBest q L).1.1 ≠ best.1 := ((takeBest_le q L).trans_lt h).ne
        rw [takeBest_lt h, ih q, if_neg hne]
        by_cases hq : (takeBest q L).1.1 = q.1
        · rw [if_pos hq, hq, total_cons_self, zero_add]
        · rw [if_neg hq, total_cons_of_ne (Ne.symm hq)]
      · rw [takeBest_eq h, ih (best.1, best.2 + q.2)]
        dsimp only
        by_cases hq : (takeBest (best.1, best.2 + q.2) L).1.1 = best.1
        · rw [if_pos hq, if_pos hq, hq, ← h, total_cons_self, add_assoc]
        · have hne : q.1 ≠ (takeBest (best.1, best.2 + q.2) L).1.1 := by
            rw [h]
            exact Ne.symm hq
          rw [if_neg hq, if_neg hq, total_cons_of_ne hne]
      · have hne : q.1 ≠ (takeBest best L).1.1 := ((takeBest_le best L).trans_lt h).ne'
        rw [takeBest_gt h, ih best, total_cons_of_ne hne]

/-- The entries that are left have greater keys. -/
theorem lt_of_mem_takeBest (best : κ × S) (L : List (κ × S)) :
    ∀ q ∈ (takeBest best L).2, (takeBest best L).1.1 < q.1 := by
  induction L generalizing best with
  | nil => exact fun q hq => absurd hq List.not_mem_nil
  | cons q L ih =>
      rcases lt_trichotomy q.1 best.1 with h | h | h
      · rw [takeBest_lt h]
        exact ih q
      · rw [takeBest_eq h]
        exact ih (best.1, best.2 + q.2)
      · rw [takeBest_gt h]
        intro p hp
        rcases List.mem_cons.mp hp with rfl | hp
        · exact (takeBest_le best L).trans_lt h
        · exact ih best p hp

theorem takeBest_mem (best : κ × S) (L : List (κ × S)) :
    (takeBest best L).1.1 = best.1 ∨ ∃ q ∈ L, q.1 = (takeBest best L).1.1 := by
  induction L generalizing best with
  | nil => exact Or.inl rfl
  | cons q L ih =>
      rcases lt_trichotomy q.1 best.1 with h | h | h
      · rw [takeBest_lt h]
        right
        rcases ih q with heq | ⟨p, hp, heq⟩
        · exact ⟨q, List.mem_cons_self, heq.symm⟩
        · exact ⟨p, List.mem_cons_of_mem q hp, heq⟩
      · rw [takeBest_eq h]
        exact (ih _).imp_right fun ⟨p, hp, heq⟩ => ⟨p, List.mem_cons_of_mem q hp, heq⟩
      · rw [takeBest_gt h]
        exact (ih best).imp_right fun ⟨p, hp, heq⟩ => ⟨p, List.mem_cons_of_mem q hp, heq⟩

/-- Behind a lesser key all entries with a key are left. -/
theorem filter_takeBest_of_lt (h : best.1 < r) :
    (takeBest best L).2.filter (·.1 = r) = L.filter (·.1 = r) := by
  induction L generalizing best with
  | nil => rfl
  | cons q L ih =>
      rcases lt_trichotomy q.1 best.1 with hq | hq | hq
      · have hne : ¬ q.1 = r := (hq.trans h).ne
        rw [takeBest_lt hq, List.filter_cons_of_neg (by simpa using hne)]
        exact ih (hq.trans h)
      · have hne : ¬ q.1 = r := hq ▸ h.ne
        rw [takeBest_eq hq, List.filter_cons_of_neg (by simpa using hne)]
        exact ih h
      · rw [takeBest_gt hq, List.filter_cons, List.filter_cons, ih h]

/-- All entries with a key are left if and only if none of them stands in front of the first entry
with a lesser key. -/
theorem filter_takeBest_iff (h : r ≤ best.1) :
    (takeBest best L).2.filter (·.1 = r) = L.filter (·.1 = r) ↔
      ∀ q ∈ L.takeWhile (fun q => r ≤ q.1), q.1 ≠ r := by
  induction L generalizing best with
  | nil => exact ⟨fun _ q hq => absurd hq List.not_mem_nil, fun _ => rfl⟩
  | cons q L ih =>
      rcases lt_trichotomy q.1 r with hq | hq | hq
      · -- a lesser key: all that follow are left
        rw [takeBest_lt (hq.trans_le h), List.filter_cons_of_neg (by simpa using hq.ne),
          List.takeWhile_cons_of_neg (by simpa using hq)]
        exact ⟨fun _ p hp => absurd hp List.not_mem_nil, fun _ => filter_takeBest_of_lt hq⟩
      · -- an entry with the key itself is lost
        rw [List.takeWhile_cons_of_pos (by simpa using hq.ge)]
        refine ⟨fun hall => ?_, fun hall => absurd hq (hall q List.mem_cons_self)⟩
        have hless : (takeBest best (q :: L)).2.Sublist L := by
          rcases (hq.le.trans h).lt_or_eq with hlt | heq
          · rw [takeBest_lt hlt]
            exact takeBest_sublist q L
          · rw [takeBest_eq heq]
            exact takeBest_sublist _ L
        exact absurd hq (ne_of_filter_eq hless hall)
      · rw [List.filter_cons_of_neg (by simpa using hq.ne'),
          List.takeWhile_cons_of_pos (by simpa using hq.le)]
        have hstep : (takeBest best (q :: L)).2.filter (·.1 = r) = L.filter (·.1 = r) ↔
            ∀ q ∈ L.takeWhile (fun q => r ≤ q.1), q.1 ≠ r := by
          rcases lt_trichotomy q.1 best.1 with hlt | heq | hgt
          · rw [takeBest_lt hlt]
            exact ih hq.le
          · rw [takeBest_eq heq]
            exact ih h
          · rw [takeBest_gt hgt, List.filter_cons_of_neg (by simpa using hq.ne')]
            exact ih h
        rw [hstep, List.forall_mem_cons, and_iff_right hq.ne']

end TakeBest

/-! ### All passes -/

section SelectBest

variable {K L : List (κ × S)} {m r k start : κ} {n : ℕ}

/-- A pass that finds all entries with the least key. -/
theorem kept_takeBest_iff (hsub : L.Sublist K) (hm : ∃ q ∈ K, q.1 = m) (hleast : ∀ q ∈ K, m ≤ q.1)
    (hstart : m ≤ start) (hall : L.filter (·.1 = m) = K.filter (·.1 = m)) :
    Kept n start (K.filter (·.1 ≠ m)) (takeBest (start, 0) L).2 ↔ Kept (n + 1) start K L := by
  have hpass := takeBest_sublist (start, 0) L
  have hlesser : ∀ {r s}, s ∈ lesserKeys r K → s ≠ m → s ∈ lesserKeys r (K.filter (·.1 ≠ m)) := by
    intro r s hs hne
    obtain ⟨⟨q, hq, rfl⟩, hlt⟩ := mem_lesserKeys.mp hs
    exact mem_lesserKeys.mpr ⟨⟨q, List.mem_filter.mpr ⟨hq, by simpa using hne⟩, rfl⟩, hlt⟩
  constructor
  · rintro h r ⟨q, hq, rfl⟩ hcard
    by_cases hqm : q.1 = m
    · refine ⟨hqm ▸ hstart, hqm ▸ hall, fun s hs => ?_⟩
      obtain ⟨⟨p, hp, rfl⟩, hlt⟩ := mem_lesserKeys.mp hs
      exact absurd (hqm ▸ hlt) (not_lt.mpr (hleast p hp))
    · -- all keys between the least one and this one are left by the pass
      have hleft : ∀ p ∈ K, p.1 ≠ m → p.1 ≤ q.1 →
          p.1 ≤ start ∧ (takeBest (start, 0) L).2.filter (·.1 = p.1) = K.filter (·.1 = p.1) ∧
            ∀ s ∈ lesserKeys p.1 (K.filter (·.1 ≠ m)), Behind s p.1 (takeBest (start, 0) L).2 := by
        intro p hp hpm hle
        have hpcard := (Finset.card_le_card (lesserKeys_mono hle)).trans_lt hcard
        rw [card_lesserKeys_filter hm (lt_of_le_of_ne (hleast p hp) (Ne.symm hpm))] at hpcard
        have hkept := h p.1 ⟨p, List.mem_filter.mpr ⟨hp, by simpa using hpm⟩, rfl⟩
          (Nat.lt_of_succ_lt_succ hpcard)
        rwa [filter_filter_ne K hpm] at hkept
      have hfilter : ∀ p ∈ K, p.1 ≠ m → p.1 ≤ q.1 →
          L.filter (·.1 = p.1) = K.filter (·.1 = p.1) := by
        intro p hp hpm hle
        apply (hsub.filter _).antisymm
        rw [← (hleft p hp hpm hle).2.1]
        exact hpass.filter _
      have hgone : ∀ p ∈ K, p.1 ≠ m → p.1 ≤ q.1 →
          (takeBest (start, 0) L).2.filter (·.1 = p.1) = L.filter (·.1 = p.1) := by
        intro p hp hpm hle
        rw [(hleft p hp hpm hle).2.1, hfilter p hp hpm hle]
      refine ⟨(hleft q hq hqm le_rfl).1, hfilter q hq hqm le_rfl, fun s hs => ?_⟩
      by_cases hsm : s = m
      · subst hsm
        refine behind_least (fun p hp => hleast p (hsub.subset hp)) fun p hp hlt hle => ?_
        have hpK := hsub.subset hp
        exact (filter_takeBest_iff (hleft p hpK hlt.ne' hle).1).mp (hgone p hpK hlt.ne' hle)
      · obtain ⟨⟨p, hp, rfl⟩, hlt⟩ := mem_lesserKeys.mp hs
        have hbehind := (hleft q hq hqm le_rfl).2.2 p.1 (hlesser hs hsm)
        exact (behind_congr hpass (hgone p hp hsm hlt.le) (hgone q hq hqm le_rfl)).mp hbehind
  · rintro h r ⟨q, hq, rfl⟩ hcard
    -- the pass takes nothing of a key that is behind the least one
    obtain ⟨hqK, hqm⟩ := List.mem_filter.mp hq
    have hqm : q.1 ≠ m := by simpa using hqm
    have hleft : ∀ p ∈ K, p.1 ≠ m → p.1 ≤ q.1 →
        (takeBest (start, 0) L).2.filter (·.1 = p.1) = L.filter (·.1 = p.1) := by
      intro p hp hpm hle
      have hlt := lt_of_le_of_ne (hleast p hp) (Ne.symm hpm)
      have hpcard : (lesserKeys p.1 K).card < n + 1 := by
        apply (Finset.card_le_card (lesserKeys_mono hle)).trans_lt
        rw [card_lesserKeys_filter hm (lt_of_le_of_ne (hleast q hqK) (Ne.symm hqm))]
        exact Nat.succ_lt_succ hcard
      obtain ⟨hpstart, -, hbehind⟩ := h p.1 ⟨p, hp, rfl⟩ hpcard
      rw [filter_takeBest_iff hpstart]
      exact (hbehind m (mem_lesserKeys.mpr ⟨hm, hlt⟩)).kept hlt
    have hqlt := lt_of_le_of_ne (hleast q hqK) (Ne.symm hqm)
    obtain ⟨hqstart, hqall, hbehind⟩ := h q.1 ⟨q, hqK, rfl⟩ (by
      rw [card_lesserKeys_filter hm hqlt]
      exact Nat.succ_lt_succ hcard)
    refine ⟨hqstart, ?_, fun s hs => ?_⟩
    · rw [filter_filter_ne K hqm, hleft q hqK hqm le_rfl, hqall]
    · obtain ⟨⟨p, hp, rfl⟩, hlt⟩ := mem_lesserKeys.mp hs
      obtain ⟨hpK, hpm⟩ := List.mem_filter.mp hp
      have hpm : p.1 ≠ m := by simpa using hpm
      rw [behind_congr hpass (hleft p hpK hpm hlt.le) (hleft q hqK hqm le_rfl)]
      exact hbehind p.1 (mem_lesserKeys.mpr ⟨⟨p, hpK, rfl⟩, hlt⟩)

/-- A pass over all entries with the least key of the list. -/
theorem takeBest_least (hsub : L.Sublist K) {p : κ × S} (hp : p ∈ K)
    (hleast : ∀ q ∈ K, p.1 ≤ q.1) (hstart : p.1 ≤ start)
    (hall : L.filter (·.1 = p.1) = K.filter (·.1 = p.1)) :
    (takeBest (start, 0) L).1 = (p.1, total K p.1) := by
  have hmem : p ∈ L := by
    apply List.mem_of_mem_filter (p := (·.1 = p.1))
    rw [hall]
    exact List.mem_filter.mpr ⟨hp, by simp⟩
  have hkey : (takeBest (start, 0) L).1.1 = p.1 := by
    apply le_antisymm (takeBest_le_of_mem (start, 0) L p hmem)
    rcases takeBest_mem (start, 0) L with heq | ⟨q, hq, heq⟩
    · rw [heq]
      exact hstart
    · rw [← heq]
      exact hleast q (hsub.subset hq)
  have hvalue := takeBest_value (start, 0) L
  rw [ite_self, zero_add, hkey, total_congr hall] at hvalue
  exact Prod.ext hkey hvalue

variable [LinearOrder S]

/-- At most `n` passes, until one of them finds nothing. -/
def selectBest (start : κ) : ℕ → List (κ × S) → List (κ × S)
  | 0, _ => []
  | n + 1, L =>
      let pass := takeBest (start, 0) L
      if pass.1.2 = 0 then [] else pass.1 :: selectBest start n pass.2

/-- The totals without the least key. -/
theorem positive_total_filter (K : List (κ × S)) (m : κ) :
    positive (total (K.filter (·.1 ≠ m))) = Function.update (positive (total K)) m none := by
  funext k
  by_cases hk : k = m
  · rw [hk, Function.update_self, positive_eq_none, total_filter_ne_self]
  · rw [Function.update_of_ne hk, positive, positive, total_congr (filter_filter_ne K hk)]

variable [IsOrderedAddMonoid S]

theorem sum_pos_of_ne_nil {l : List S} (h : ∀ v ∈ l, 0 < v) (hne : l ≠ []) : 0 < l.sum := by
  induction l with
  | nil => exact absurd rfl hne
  | cons v l ih =>
      rw [List.sum_cons]
      by_cases hl : l = []
      · rw [hl, List.sum_nil, add_zero]
        exact h v List.mem_cons_self
      · exact add_pos (h v List.mem_cons_self) (ih (fun w hw => h w (List.mem_cons_of_mem v hw)) hl)

/-- The keys of positive total are those of the entries. -/
theorem total_pos_iff (h : ∀ q ∈ L, 0 < q.2) : 0 < total L k ↔ ∃ q ∈ L, q.1 = k := by
  rw [total_eq_sum]
  constructor
  · intro hpos
    by_contra hnone
    push Not at hnone
    have hnil : L.filter (·.1 = k) = [] := by
      rw [List.filter_eq_nil_iff]
      simpa using fun a b hab hak => hnone (a, b) hab hak
    rw [hnil] at hpos
    exact absurd hpos (lt_irrefl 0)
  · rintro ⟨q, hq, rfl⟩
    apply sum_pos_of_ne_nil
    · simp only [List.mem_map, List.mem_filter]
      rintro v ⟨p, ⟨hp, -⟩, rfl⟩
      exact h p hp
    · intro hnil
      have hmem : q.2 ∈ (L.filter (·.1 = q.1)).map Prod.snd :=
        List.mem_map_of_mem (List.mem_filter.mpr ⟨hq, by simp⟩)
      rw [hnil] at hmem
      exact absurd hmem List.not_mem_nil

/-- A sublist of positive entries with the total of the list has all its entries at the key. -/
theorem filter_eq_of_total_eq (h : ∀ q ∈ L, 0 < q.2) (hsub : L₁.Sublist L)
    (htotal : total L₁ k = total L k) : L₁.filter (·.1 = k) = L.filter (·.1 = k) := by
  induction hsub with
  | slnil => rfl
  | @cons L₁ L q hsub ih =>
      have hpos : ∀ q ∈ L, 0 < q.2 := fun p hp => h p (List.mem_cons_of_mem q hp)
      by_cases hq : q.1 = k
      · -- the sublist lacks an entry, so its total is less
        exfalso
        have hle : total L₁ k ≤ total L k := by
          rw [total_eq_sum, total_eq_sum]
          refine ((hsub.filter _).map _).sum_le_sum fun v hv => ?_
          obtain ⟨p, hp, rfl⟩ := List.mem_map.mp hv
          exact (hpos p (List.mem_of_mem_filter hp)).le
        subst hq
        rw [total_cons_self] at htotal
        have hlt : total L q.1 < q.2 + total L q.1 :=
          lt_add_of_pos_left _ (h q List.mem_cons_self)
        exact absurd (htotal ▸ hle) (not_le.mpr hlt)
      · rw [total_cons_of_ne hq] at htotal
        rw [List.filter_cons_of_neg (by simpa using hq)]
        exact ih hpos htotal
  | @cons_cons L₁ L q hsub ih =>
      have hpos : ∀ q ∈ L, 0 < q.2 := fun p hp => h p (List.mem_cons_of_mem q hp)
      by_cases hq : q.1 = k
      · subst hq
        rw [total_cons_self, total_cons_self] at htotal
        rw [List.filter_cons_of_pos (by simp), List.filter_cons_of_pos (by simp),
          ih hpos (add_left_cancel htotal)]
      · rw [total_cons_of_ne hq, total_cons_of_ne hq] at htotal
        rw [List.filter_cons_of_neg (by simpa using hq), List.filter_cons_of_neg (by simpa using hq)]
        exact ih hpos htotal

/-- The passes choose the `n` least keys of `K` if and only if they lose none of their entries. -/
theorem isBest_selectBest_iff_kept (hpos : ∀ q ∈ K, 0 < q.2) (hsub : L.Sublist K) :
    IsBest n (positive (total K)) (selectBest start n L) ↔ Kept n start K L := by
  induction n generalizing K L with
  | zero =>
      refine iff_of_true ?_ fun r _ hcard => absurd hcard (Nat.not_lt_zero _)
      exact ⟨keySorted_nil, fun e he => absurd he List.not_mem_nil, le_rfl,
        fun k v _ => Or.inr ⟨rfl, fun e he => absurd he List.not_mem_nil⟩⟩
  | succ n ih =>
      by_cases hK : K = []
      · subst hK
        obtain rfl := List.sublist_nil.mp hsub
        refine iff_of_true ?_ fun r hr => absurd hr (by simp)
        rw [total_nil, positive_zero, selectBest, takeBest, if_pos rfl]
        exact isBest_empty _
      obtain ⟨p, hp, hleast⟩ := exists_least hK
      have htotal : 0 < total K p.1 := (total_pos_iff hpos).mpr ⟨p, hp, rfl⟩
      have hfirst : positive (total K) p.1 = some (total K p.1) :=
        positive_eq_some.mpr ⟨htotal, rfl⟩
      by_cases hm : p.1 ≤ start ∧ L.filter (·.1 = p.1) = K.filter (·.1 = p.1)
      · obtain ⟨hstart, hall⟩ := hm
        have hbest := takeBest_least hsub hp hleast hstart hall
        have hrest : (takeBest (start, 0) L).2.Sublist (K.filter (·.1 ≠ p.1)) := by
          have hne : ∀ q ∈ (takeBest (start, 0) L).2, decide (q.1 ≠ p.1) = true := by
            intro q hq
            have hlt := lt_of_mem_takeBest (start, 0) L q hq
            rw [hbest] at hlt
            simpa using hlt.ne'
          have hfilter := ((takeBest_sublist (start, 0) L).trans hsub).filter (·.1 ≠ p.1)
          rwa [List.filter_eq_self.mpr hne] at hfilter
        have hih := ih (K := K.filter (·.1 ≠ p.1))
          (fun q hq => hpos q (List.mem_of_mem_filter hq)) hrest
        rw [← kept_takeBest_iff hsub ⟨p, hp, rfl⟩ hleast hstart hall, ← hih, positive_total_filter]
        simp only [selectBest, hbest, htotal.ne', if_false]
        constructor
        · exact fun h => h.uncons.2.2.2
        · refine IsBest.cons hfirst fun k v hk => ?_
          obtain ⟨q, hq, rfl⟩ := (total_pos_iff hpos).mp (positive_eq_some.mp hk).1
          exact hleast q hq
      · refine iff_of_false (fun h => hm ?_) fun h => hm ?_
        · -- the first level has the least key and its total
          have hne : (takeBest (start, 0) L).1.2 ≠ 0 := by
            intro hzero
            simp only [selectBest, hzero, if_true] at h
            have hnone := h.eq_none_of_nil (Nat.succ_pos n) p.1
            rw [hfirst] at hnone
            exact absurd hnone (Option.some_ne_none _)
          simp only [selectBest, hne, if_false] at h
          obtain ⟨hk, hmin, -, -⟩ := h.uncons
          obtain ⟨hpositive, hvalue⟩ := positive_eq_some.mp hk
          obtain ⟨q, hq, hqk⟩ := (total_pos_iff hpos).mp hpositive
          have hkey : (takeBest (start, 0) L).1.1 = p.1 :=
            le_antisymm (hmin p.1 _ hfirst) (hqk ▸ hleast q hq)
          have hsum := takeBest_value (start, 0) L
          rw [ite_self, zero_add, ← hvalue, hkey] at hsum
          exact ⟨hkey ▸ takeBest_le (start, 0) L, filter_eq_of_total_eq hpos hsub hsum.symm⟩
        · have hnone : lesserKeys p.1 K = ∅ := by
            apply Finset.eq_empty_of_forall_notMem
            intro k hk
            obtain ⟨⟨q, hq, rfl⟩, hlt⟩ := mem_lesserKeys.mp hk
            exact absurd hlt (not_lt.mpr (hleast q hq))
          obtain ⟨hstart, hall, -⟩ := h p.1 ⟨p, hp, rfl⟩ (by simp [hnone])
          exact ⟨hstart, hall⟩

/-- The passes choose the `n` least keys with their totals if and only if the keys are in order. -/
theorem isBest_selectBest_iff (hpos : ∀ q ∈ K, 0 < q.2) :
    IsBest n (positive (total K)) (selectBest start n K) ↔ InOrder n start K := by
  rw [isBest_selectBest_iff_kept hpos (List.Sublist.refl K), kept_self]

end SelectBest

end DxFeed.RegionalBook
