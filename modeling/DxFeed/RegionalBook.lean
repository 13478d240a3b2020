import DxFeed.RegionalBook.Selection

/-!
# The regional book

One side of a regional book is chosen from the quotes of the regions `A` to `Z`: again and again the
regions that were not used before are scanned for the best price.

* `RbRegional`, `Book`: the quotes of the regions, and the levels that are published;
* `rbBookUpdateOneSide`, `rbBookUpdate`: `dx_rb_book_update_one_side` and `dx_rb_book_update`;
* `quotes`: the quotes of a side in the order of the regions, without empty ones;
* `rankedLevels_rbBookUpdateOneSide`: the levels are those of the repeated selection;
* `rbBookUpdate_listsBest_iff`: they are the best ten prices with their sizes if and only if the
  regions quote these prices in order.

Prices and sizes are exact, and a price that is `none` is no number.
-/

namespace DxFeed.RegionalBook

open SortedList PriceLevelBook

variable {P S : Type*}

/-- `dx_all_regional_count`. -/
def allRegionalCount : ℕ := 26

/-- `dx_rb_regional_t`. -/
structure RbRegional (P S : Type*) where
  bid : PriceLevelElement (Option P) S
  ask : PriceLevelElement (Option P) S

/-- The levels of a side: an array of `MAX_PRICE_LEVELS` elements, and how many of them count. -/
structure BookSide (P S : Type*) where
  elements : List (PriceLevelElement P S)
  count : ℕ
  length_elements : elements.length = maxPriceLevels

/-- What a listener sees of a side. -/
def BookSide.levels (side : BookSide P S) : List (PriceLevelElement P S) :=
  side.elements.take side.count

/-- The fields of `dx_regional_book` that the levels depend on. -/
structure Book (P S : Type*) where
  regions : Fin allRegionalCount → RbRegional P S
  bids : BookSide P S
  asks : BookSide P S

/-- `isBid ? &book->regions[i].bid : &book->regions[i].ask`. -/
def RbRegional.side (region : RbRegional P S) (isBid : Bool) : PriceLevelElement (Option P) S :=
  if isBid then region.bid else region.ask

section Definitions

variable [LinearOrder P] [AddCommGroup S] [LinearOrder S]

/-- `rused |= 1ULL << i`. -/
def markUsed (rused : BitVec 64) (i : ℕ) : BitVec 64 := rused ||| 1#64 <<< i

/-- One iteration of the scan of the regions. -/
def scanRegion (regions : Fin allRegionalCount → RbRegional P S) (isBid : Bool)
    (s : PriceLevelElement P S × BitVec 64) (i : Fin allRegionalCount) :
    PriceLevelElement P S × BitVec 64 :=
  let best := s.1
  let rused := s.2
  if rused &&& 1#64 <<< (i : ℕ) ≠ 0 then s
  else
    let reg := (regions i).side isBid
    match reg.price with
    | none => (best, markUsed rused i)
    | some price =>
        if reg.size = 0 then (best, markUsed rused i)
        else if price = best.price then ({ best with size := best.size + reg.size }, markUsed rused i)
        else if isBid ∧ best.price < price then (⟨price, reg.size, reg.time⟩, markUsed rused i)
        else if ¬ isBid ∧ best.price > price then (⟨price, reg.size, reg.time⟩, markUsed rused i)
        else s

/-- The scan of all regions. -/
def scanRegions (regions : Fin allRegionalCount → RbRegional P S) (isBid : Bool) (startValue : P)
    (rused : BitVec 64) : PriceLevelElement P S × BitVec 64 :=
  (List.finRange allRegionalCount).foldl (scanRegion regions isBid) (⟨startValue, 0, 0⟩, rused)

/-- The loop of `dx_rb_book_update_one_side` with `n` levels to come: whether a level has changed,
the array, and the number of the levels. -/
def updateLevels (regions : Fin allRegionalCount → RbRegional P S) (isBid : Bool) (startValue : P) :
    ℕ → ℕ → List (PriceLevelElement P S) → BitVec 64 → Bool →
      Bool × List (PriceLevelElement P S) × ℕ
  | 0, didx, dst, _, changed => (changed, dst, didx)
  | n + 1, didx, dst, rused, changed =>
      let scan := scanRegions regions isBid startValue rused
      if scan.1.size = 0 then (changed, dst, didx)
      else if dst[didx]? ≠ some scan.1 then
        updateLevels regions isBid startValue n (didx + 1) (dst.set didx scan.1) scan.2 true
      else updateLevels regions isBid startValue n (didx + 1) dst scan.2 changed

theorem length_updateLevels (regions : Fin allRegionalCount → RbRegional P S) (isBid : Bool)
    (startValue : P) (n didx : ℕ) (dst : List (PriceLevelElement P S)) (rused : BitVec 64)
    (changed : Bool) :
    (updateLevels regions isBid startValue n didx dst rused changed).2.1.length = dst.length := by
  induction n generalizing didx dst rused changed with
  | zero => rfl
  | succ n ih =>
      rw [updateLevels]
      split_ifs
      · rfl
      · rw [ih, List.length_set]
      · rw [ih]

/-- `dx_rb_book_update_one_side`, with `*dst_count` set to `MAX_PRICE_LEVELS`. -/
def rbBookUpdateOneSide (dst : BookSide P S) (book : Book P S) (isBid : Bool)
    (startValue : P) : Bool × BookSide P S :=
  let update := updateLevels book.regions isBid startValue maxPriceLevels 0 dst.elements 0#64 false
  (update.1,
    { elements := update.2.1
      count := update.2.2
      length_elements := (length_updateLevels ..).trans dst.length_elements })

/-- `dx_rb_book_update`: the book, and whether the listeners are called. -/
def rbBookUpdate [Semiring P] (book : Book P S) : Book P S × Bool :=
  let bids := rbBookUpdateOneSide book.bids book true 0
  let asks := rbBookUpdateOneSide book.asks book false (10 ^ 38)
  ({ book with bids := bids.2, asks := asks.2 }, bids.1 || asks.1)

/-- The start value of the asks. -/
def askStart [Semiring P] : P := 10 ^ 38

end Definitions

/-! ### The marks of the regions -/

theorem getLsbD_markUsed (rused : BitVec 64) (i j : Fin allRegionalCount) :
    (markUsed rused i).getLsbD j = (rused.getLsbD j || decide (i = j)) := by
  have hi : (i : ℕ) < 64 := i.isLt.trans (by decide)
  have hj : (j : ℕ) < 64 := j.isLt.trans (by decide)
  have hone : (1#64 <<< (i : ℕ)).getLsbD j = decide (i = j) := by
    rw [← BitVec.twoPow_eq, BitVec.getLsbD_twoPow]
    simp [hi, Fin.ext_iff]
  rw [markUsed, BitVec.getLsbD_or, hone]

theorem and_shiftLeft_ne_zero (rused : BitVec 64) (i : Fin allRegionalCount) :
    rused &&& 1#64 <<< (i : ℕ) ≠ 0 ↔ rused.getLsbD i = true := by
  have hi : (i : ℕ) < 64 := i.isLt.trans (by decide)
  rw [← BitVec.twoPow_eq, BitVec.and_twoPow]
  cases h : rused.getLsbD i with
  | false => simp
  | true =>
      simp only [if_true, iff_true]
      intro hzero
      have hbit := congrArg (BitVec.getLsbD · i) hzero
      simp [hi] at hbit

/-! ### The quotes of the regions -/

section Quotes

variable [AddCommGroup S] [LinearOrder S]

/-- The quote of a region that is scanned: no `NaN` and not empty. -/
def quoteOf (reg : PriceLevelElement (Option P) S) : Option (PriceLevelElement P S) :=
  match reg.price with
  | none => none
  | some price => if reg.size = 0 then none else some ⟨price, reg.size, reg.time⟩

/-- The quotes of a side in the order of the regions. -/
def quotes (regions : Fin allRegionalCount → RbRegional P S) (isBid : Bool) :
    List (PriceLevelElement P S) :=
  (List.finRange allRegionalCount).filterMap fun i => quoteOf ((regions i).side isBid)

/-- The quote of a region that has no mark. -/
def unusedQuote (regions : Fin allRegionalCount → RbRegional P S) (isBid : Bool)
    (rused : BitVec 64) (i : Fin allRegionalCount) : Option (PriceLevelElement P S) :=
  if rused.getLsbD i then none else quoteOf ((regions i).side isBid)

/-- The quotes of those of some regions that have no mark. -/
def unusedQuotes (regions : Fin allRegionalCount → RbRegional P S) (isBid : Bool)
    (rused : BitVec 64) (is : List (Fin allRegionalCount)) : List (PriceLevelElement P S) :=
  is.filterMap (unusedQuote regions isBid rused)

variable {isBid : Bool} {regions : Fin allRegionalCount → RbRegional P S} {rused : BitVec 64}
  {q : PriceLevelElement P S} {i : Fin allRegionalCount} {is : List (Fin allRegionalCount)}

theorem unusedQuotes_cons_of_used (h : rused.getLsbD i = true) :
    unusedQuotes regions isBid rused (i :: is) = unusedQuotes regions isBid rused is := by
  have hnone : unusedQuote regions isBid rused i = none := if_pos h
  rw [unusedQuotes, List.filterMap_cons_none hnone, unusedQuotes]

theorem unusedQuotes_cons_none (h : quoteOf ((regions i).side isBid) = none) :
    unusedQuotes regions isBid rused (i :: is) = unusedQuotes regions isBid rused is := by
  have hnone : unusedQuote regions isBid rused i = none := by rw [unusedQuote, h, ite_self]
  rw [unusedQuotes, List.filterMap_cons_none hnone, unusedQuotes]

theorem unusedQuotes_cons_some (h : rused.getLsbD i = false)
    (hquote : quoteOf ((regions i).side isBid) = some q) :
    unusedQuotes regions isBid rused (i :: is) = q :: unusedQuotes regions isBid rused is := by
  have hsome : unusedQuote regions isBid rused i = some q := by
    rw [unusedQuote, h, hquote]
    exact if_neg Bool.false_ne_true
  rw [unusedQuotes, List.filterMap_cons_some hsome, unusedQuotes]

theorem unusedQuotes_markUsed (h : i ∉ is) :
    unusedQuotes regions isBid (markUsed rused i) is = unusedQuotes regions isBid rused is := by
  refine List.filterMap_congr fun j hj => ?_
  have hne : i ≠ j := fun heq => h (heq ▸ hj)
  rw [unusedQuote, unusedQuote, getLsbD_markUsed, decide_eq_false hne, Bool.or_false]

theorem unusedQuotes_zero (regions : Fin allRegionalCount → RbRegional P S) (isBid : Bool) :
    unusedQuotes regions isBid 0#64 (List.finRange allRegionalCount) = quotes regions isBid := by
  refine List.filterMap_congr fun i _ => ?_
  rw [unusedQuote, BitVec.getLsbD_zero]
  exact if_neg Bool.false_ne_true

/-- A quote that is scanned has a positive size. -/
theorem size_pos_of_mem_quotes {regions : Fin allRegionalCount → RbRegional P S} {isBid : Bool}
    (hsizes : ∀ i, 0 ≤ ((regions i).side isBid).size) :
    ∀ q ∈ quotes regions isBid, 0 < q.size := by
  intro q hq
  obtain ⟨i, -, hquote⟩ := List.mem_filterMap.mp hq
  unfold quoteOf at hquote
  split at hquote
  · exact nomatch hquote
  · split_ifs at hquote with hsize
    obtain rfl := Option.some.inj hquote
    exact lt_of_le_of_ne (hsizes i) (Ne.symm hsize)

end Quotes

/-! ### The scan of the regions -/

section Scan

variable [LinearOrder P] [AddCommGroup S] [LinearOrder S]

/-- A better price has a lesser rank. -/
def RanksSide {κ : Type*} [LinearOrder κ] (rank : P → κ) (isBid : Bool) : Prop :=
  ∀ p q, rank p < rank q ↔ if isBid then q < p else p < q

variable {κ : Type*} [LinearOrder κ] {rank : P → κ} {isBid : Bool}
  {regions : Fin allRegionalCount → RbRegional P S} {rused rused' : BitVec 64}
  {best q : PriceLevelElement P S} {i : Fin allRegionalCount} {is : List (Fin allRegionalCount)}

theorem RanksSide.eq_iff (h : RanksSide rank isBid) {p q : P} : rank p = rank q ↔ p = q := by
  refine ⟨fun heq => ?_, congrArg rank⟩
  have hpq := h p q
  have hqp := h q p
  rw [heq] at hpq hqp
  cases isBid <;> simp only [lt_irrefl, false_iff, not_lt, if_true, Bool.false_eq_true, if_false]
    at hpq hqp
  · exact le_antisymm hqp hpq
  · exact le_antisymm hpq hqp

theorem scanRegion_used (h : rused.getLsbD i = true) :
    scanRegion regions isBid (best, rused) i = (best, rused) :=
  if_pos ((and_shiftLeft_ne_zero rused i).mpr h)

theorem scanRegion_none (h : rused.getLsbD i = false)
    (hquote : quoteOf ((regions i).side isBid) = none) :
    scanRegion regions isBid (best, rused) i = (best, markUsed rused i) := by
  have hunused : ¬ (rused &&& 1#64 <<< (i : ℕ) ≠ 0) := by
    rw [and_shiftLeft_ne_zero, h]
    exact Bool.false_ne_true
  unfold scanRegion
  rw [if_neg hunused]
  unfold quoteOf at hquote
  split at hquote
  · next hprice => simp only [hprice]
  · next price hprice =>
      split_ifs at hquote with hsize
      simp only [hprice, hsize, if_true]

theorem scanRegion_some (hrank : RanksSide rank isBid) (h : rused.getLsbD i = false)
    (hquote : quoteOf ((regions i).side isBid) = some q) :
    scanRegion regions isBid (best, rused) i =
      if rank q.price = rank best.price then
        ({ best with size := best.size + q.size }, markUsed rused i)
      else if rank q.price < rank best.price then (q, markUsed rused i)
      else (best, rused) := by
  have hunused : ¬ (rused &&& 1#64 <<< (i : ℕ) ≠ 0) := by
    rw [and_shiftLeft_ne_zero, h]
    exact Bool.false_ne_true
  unfold scanRegion
  rw [if_neg hunused]
  unfold quoteOf at hquote
  split at hquote
  · exact nomatch hquote
  · next price hprice =>
      split_ifs at hquote with hsize
      obtain rfl := Option.some.inj hquote
      simp only [hprice, hsize, if_false, hrank.eq_iff, hrank price best.price]
      cases isBid <;> simp

/-- A scan of regions is a pass over the quotes that have no mark, and marks those that it takes. -/
theorem foldl_scanRegion (hrank : RanksSide rank isBid) (hnodup : is.Nodup) :
    ∀ best rused, ∀ scan, scan = is.foldl (scanRegion regions isBid) (best, rused) →
      let pass := takeBest (rank best.price, best.size)
        (rankedLevels rank (unusedQuotes regions isBid rused is))
      (rank scan.1.price, scan.1.size) = pass.1 ∧
        rankedLevels rank (unusedQuotes regions isBid scan.2 is) = pass.2 ∧
        ∀ j : Fin allRegionalCount, j ∉ is → scan.2.getLsbD j = rused.getLsbD j := by
  induction is with
  | nil =>
      rintro best rused scan rfl
      exact ⟨rfl, rfl, fun _ _ => rfl⟩
  | cons i is ih =>
      rintro best rused scan hscan
      obtain ⟨hi, hnodup⟩ := List.nodup_cons.mp hnodup
      rw [List.foldl_cons] at hscan
      have hkeep : ∀ j : Fin allRegionalCount, j ∉ i :: is → j ≠ i ∧ j ∉ is := fun j hj =>
        not_or.mp fun hor => hj (List.mem_cons.mpr hor)
      have hmark : ∀ j : Fin allRegionalCount, j ∉ i :: is →
          (markUsed rused i).getLsbD j = rused.getLsbD j := by
        intro j hj
        rw [getLsbD_markUsed, decide_eq_false (Ne.symm (hkeep j hj).1), Bool.or_false]
      cases hused : rused.getLsbD i with
      | true =>
          rw [scanRegion_used hused] at hscan
          obtain ⟨hbest, hleft, hsame⟩ := ih hnodup best rused scan hscan
          rw [unusedQuotes_cons_of_used hused]
          refine ⟨hbest, ?_, fun j hj => hsame j (hkeep j hj).2⟩
          rw [unusedQuotes_cons_of_used ((hsame i hi).trans hused), hleft]
      | false =>
          cases hquote : quoteOf ((regions i).side isBid) with
          | none =>
              rw [scanRegion_none hused hquote] at hscan
              obtain ⟨hbest, hleft, hsame⟩ := ih hnodup best (markUsed rused i) scan hscan
              rw [unusedQuotes_markUsed hi] at hbest hleft
              rw [unusedQuotes_cons_none hquote, unusedQuotes_cons_none hquote]
              exact ⟨hbest, hleft, fun j hj => (hsame j (hkeep j hj).2).trans (hmark j hj)⟩
          | some q =>
              have hself : (markUsed rused i).getLsbD i = true := by
                rw [getLsbD_markUsed, decide_eq_true rfl, Bool.or_true]
              rw [scanRegion_some hrank hused hquote] at hscan
              rw [unusedQuotes_cons_some hused hquote, rankedLevels_cons]
              rcases lt_trichotomy (rank q.price) (rank best.price) with hlt | heq | hgt
              · rw [if_neg hlt.ne, if_pos hlt] at hscan
                obtain ⟨hbest, hleft, hsame⟩ := ih hnodup q (markUsed rused i) scan hscan
                rw [unusedQuotes_markUsed hi] at hbest hleft
                rw [takeBest_lt hlt, unusedQuotes_cons_of_used ((hsame i hi).trans hself)]
                exact ⟨hbest, hleft, fun j hj => (hsame j (hkeep j hj).2).trans (hmark j hj)⟩
              · rw [if_pos heq] at hscan
                obtain ⟨hbest, hleft, hsame⟩ := ih hnodup _ (markUsed rused i) scan hscan
                rw [unusedQuotes_markUsed hi] at hbest hleft
                rw [takeBest_eq heq, unusedQuotes_cons_of_used ((hsame i hi).trans hself)]
                exact ⟨hbest, hleft, fun j hj => (hsame j (hkeep j hj).2).trans (hmark j hj)⟩
              · rw [if_neg hgt.ne', if_neg hgt.not_gt] at hscan
                obtain ⟨hbest, hleft, hsame⟩ := ih hnodup best rused scan hscan
                rw [takeBest_gt hgt, unusedQuotes_cons_some ((hsame i hi).trans hused) hquote,
                  rankedLevels_cons, hleft]
                exact ⟨hbest, rfl, fun j hj => hsame j (hkeep j hj).2⟩

/-! ### The levels -/

/-- The loop puts the levels of a repeated selection behind those that there are. -/
theorem updateLevels_levels (hrank : RanksSide rank isBid) {startValue : P} (n didx : ℕ)
    (dst : List (PriceLevelElement P S)) (rused : BitVec 64) (changed : Bool)
    (hroom : didx + n ≤ dst.length) (update : Bool × List (PriceLevelElement P S) × ℕ)
    (hupdate : update = updateLevels regions isBid startValue n didx dst rused changed) :
    rankedLevels rank (update.2.1.take update.2.2) = rankedLevels rank (dst.take didx) ++
      selectBest (rank startValue) n
        (rankedLevels rank (unusedQuotes regions isBid rused (List.finRange allRegionalCount))) := by
  induction n generalizing didx dst rused changed with
  | zero =>
      subst hupdate
      rw [selectBest, List.append_nil]
      rfl
  | succ n ih =>
      obtain ⟨hbest, hleft, -⟩ := foldl_scanRegion hrank (List.nodup_finRange allRegionalCount)
        ⟨startValue, 0, 0⟩ rused (scanRegions regions isBid startValue rused) rfl
      have hsize := (congrArg Prod.snd hbest).symm
      rw [updateLevels] at hupdate
      rw [selectBest]
      dsimp only at hbest hleft hsize hupdate ⊢
      rw [hsize, ← hbest, ← hleft]
      split_ifs at hupdate ⊢ with hzero hchanged
      · subst hupdate
        rw [List.append_nil]
      · have hlength : didx < dst.length := by omega
        rw [ih (didx + 1) (dst.set didx _) _ true (by rw [List.length_set]; omega) hupdate,
          List.take_add_one, List.take_set_of_le le_rfl, List.getElem?_set_self hlength]
        simp [rankedLevels]
      · have hlength : didx < dst.length := by omega
        rw [ih (didx + 1) dst _ changed (by omega) hupdate, List.take_add_one, not_not.mp hchanged]
        simp [rankedLevels]

/-- The levels of a side are those that are chosen from the quotes of the regions. -/
theorem rankedLevels_rbBookUpdateOneSide (hrank : RanksSide rank isBid) (dst : BookSide P S)
    (book : Book P S) (startValue : P) :
    rankedLevels rank (rbBookUpdateOneSide dst book isBid startValue).2.levels =
      selectBest (rank startValue) maxPriceLevels (rankedLevels rank (quotes book.regions isBid)) := by
  have hlevels := updateLevels_levels hrank maxPriceLevels 0 dst.elements 0#64 false
    (by rw [dst.length_elements, Nat.zero_add])
    (updateLevels book.regions isBid startValue maxPriceLevels 0 dst.elements 0#64 false) rfl
  rw [unusedQuotes_zero] at hlevels
  exact hlevels

end Scan

/-! ### The best prices -/

section Best

variable [LinearOrder P] [AddCommGroup S] [LinearOrder S] {κ : Type*} [LinearOrder κ]

/-- The levels are the best ten distinct prices of the quotes, best first, each with the sum of the
sizes of its quotes. -/
def ListsBest (rank : P → κ) (quotes levels : List (PriceLevelElement P S)) : Prop :=
  IsBest maxPriceLevels (positive (total (rankedLevels rank quotes))) (rankedLevels rank levels)

/-- Each of the best ten prices is not worse than the start value, and is first quoted behind a quote
of every better price. -/
def QuotedInOrder (rank : P → κ) (startValue : P) (quotes : List (PriceLevelElement P S)) : Prop :=
  InOrder maxPriceLevels (rank startValue) (rankedLevels rank quotes)

theorem ranksSide_toDual : RanksSide (OrderDual.toDual : P → Pᵒᵈ) true := fun _ _ => Iff.rfl

theorem ranksSide_id : RanksSide (id : P → P) false := fun _ _ => Iff.rfl

variable [IsOrderedAddMonoid S]

/-- `dx_rb_book_update_one_side` finds the best prices if and only if they are quoted in order. -/
theorem rbBookUpdateOneSide_listsBest_iff {rank : P → κ} {isBid : Bool}
    (hrank : RanksSide rank isBid) (dst : BookSide P S) (book : Book P S) (startValue : P)
    (hsizes : ∀ i, 0 ≤ ((book.regions i).side isBid).size) :
    ListsBest rank (quotes book.regions isBid)
        (rbBookUpdateOneSide dst book isBid startValue).2.levels ↔
      QuotedInOrder rank startValue (quotes book.regions isBid) := by
  rw [ListsBest, rankedLevels_rbBookUpdateOneSide hrank]
  refine isBest_selectBest_iff fun q hq => ?_
  obtain ⟨e, he, rfl⟩ := List.mem_map.mp hq
  exact size_pos_of_mem_quotes hsizes e he

/-- The levels of the book are the best prices of each side if and only if the regions quote these
prices in order, bids from `0` on and asks up to `1.0E38`. -/
theorem rbBookUpdate_listsBest_iff [Semiring P] (book : Book P S)
    (hsizes : ∀ i isBid, 0 ≤ ((book.regions i).side isBid).size) :
    (ListsBest OrderDual.toDual (quotes book.regions true) (rbBookUpdate book).1.bids.levels ↔
      QuotedInOrder OrderDual.toDual 0 (quotes book.regions true)) ∧
    (ListsBest id (quotes book.regions false) (rbBookUpdate book).1.asks.levels ↔
      QuotedInOrder id (10 ^ 38) (quotes book.regions false)) := by
  constructor
  · exact rbBookUpdateOneSide_listsBest_iff ranksSide_toDual book.bids book 0
      fun i => hsizes i true
  · exact rbBookUpdateOneSide_listsBest_iff ranksSide_id book.asks book (10 ^ 38)
      fun i => hsizes i false

end Best

/-- A book where the regions `A` and `B` bid one lot each, at these prices. -/
def twoBids (priceA priceB : ℤ) : Book ℤ ℤ where
  regions i :=
    { bid := ⟨some (if i.val = 0 then priceA else priceB), if i.val < 2 then 1 else 0, 0⟩
      ask := ⟨none, 0, 0⟩ }
  bids := ⟨List.replicate maxPriceLevels ⟨0, 0, 0⟩, 0, rfl⟩
  asks := ⟨List.replicate maxPriceLevels ⟨0, 0, 0⟩, 0, rfl⟩

theorem size_nonneg_twoBids (priceA priceB : ℤ) :
    ∀ i isBid, 0 ≤ (((twoBids priceA priceB).regions i).side isBid).size := by
  intro i isBid
  cases isBid with
  | false => exact le_refl (0 : ℤ)
  | true =>
      show (0 : ℤ) ≤ if i.val < 2 then 1 else 0
      split_ifs <;> decide

theorem rbBookUpdate_listsBest_twoBids :
    (ListsBest OrderDual.toDual (quotes (twoBids 2 1).regions true)
        (rbBookUpdate (twoBids 2 1)).1.bids.levels ↔
      QuotedInOrder OrderDual.toDual 0 (quotes (twoBids 2 1).regions true)) ∧
    (ListsBest id (quotes (twoBids 2 1).regions false) (rbBookUpdate (twoBids 2 1)).1.asks.levels ↔
      QuotedInOrder id (10 ^ 38) (quotes (twoBids 2 1).regions false)) :=
  rbBookUpdate_listsBest_iff (twoBids 2 1) (size_nonneg_twoBids 2 1)

/-- The region `A` is the best until the scan comes to `B`, and is lost. -/
theorem not_listsBest_twoBids :
    ¬ ListsBest OrderDual.toDual (quotes (twoBids 1 2).regions true)
      (rbBookUpdate (twoBids 1 2)).1.bids.levels := by
  intro h
  have hlevels : (rbBookUpdate (twoBids 1 2)).1.bids.levels = [⟨2, 1, 0⟩] := by decide +kernel
  have hquotes : quotes (twoBids 1 2).regions true = [⟨1, 1, 0⟩, ⟨2, 1, 0⟩] := by decide +kernel
  rw [hlevels, hquotes] at h
  have hone : positive (total (rankedLevels OrderDual.toDual
      [PriceLevelElement.mk (1 : ℤ) (1 : ℤ) 0, ⟨2, 1, 0⟩])) (OrderDual.toDual 1) = some 1 := by
    decide +kernel
  rcases h.best (OrderDual.toDual 1) 1 hone with hmem | ⟨hlength, -⟩
  · exact absurd hmem (by decide)
  · exact absurd hlength (by decide)

end DxFeed.RegionalBook
