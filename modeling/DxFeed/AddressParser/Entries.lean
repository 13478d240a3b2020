import DxFeed.AddressParser.RoundTrip
import DxFeed.AddressParser.Watched
import Mathlib.Data.List.TakeWhile

/-!
# The entries of a collection

A collection is cut at its closing brackets; in every part but the last one the entry is behind the
first opening bracket.

* `Collection`: a string, the characters in front of its terminator;
* `isEmptyEntry_eq_true_iff`: which ranges are taken to be empty;
* `content`, `entriesOf`: the entry in a part, and the entries of a text;
* `parseEntries_ok`: a collection that is accepted has one address for every entry.
-/

namespace DxFeed.AddressParser

open CString

/-- A string without its terminator. -/
abbrev Collection := { s : List UInt8 // nullSymbol ∉ s }

variable {s pre seg u : List UInt8} {status : CodecStatus}

/-! ### Empty ranges -/

theorem isBlank_eq_true_iff {first size : ℕ} :
    isBlank s first size = true ↔
      ∀ i, first ≤ i → i ≤ first + size → charAt s i = whitespace := by
  induction size generalizing first with
  | zero =>
      rw [isBlank, beq_iff_eq]
      constructor
      · intro h i hfirst hlast
        obtain rfl : i = first := by omega
        exact h
      · intro h
        exact h first le_rfl le_rfl
  | succ size ih =>
      rw [isBlank, Bool.and_eq_true, beq_iff_eq, ih]
      constructor
      · rintro ⟨h, hrest⟩ i hfirst hlast
        rcases Nat.eq_or_lt_of_le hfirst with rfl | hlt
        · exact h
        · exact hrest i hlt (by omega)
      · intro h
        exact ⟨h first le_rfl (by omega), fun i hfirst hlast => h i (by omega) (by omega)⟩

/-- The character behind the range is to be a blank, too. -/
theorem isEmptyEntry_eq_true_iff {first last : ℕ} :
    isEmptyEntry s first last = true ↔
      last ≤ first ∨ ∀ i, first ≤ i → i ≤ last → charAt s i = whitespace := by
  unfold isEmptyEntry
  split
  · rename_i hge
    exact iff_of_true rfl (Or.inl hge)
  · rename_i hlt
    rw [isBlank_eq_true_iff, Nat.add_sub_cancel' (by omega)]
    exact ⟨Or.inr, fun h => h.resolve_left hlt⟩

/-- In front of a character that is no blank only a range without characters is empty. -/
theorem isEmptyEntry_of_ne {first last : ℕ} (h : charAt s last ≠ whitespace) :
    isEmptyEntry s first last = decide (last ≤ first) := by
  rw [Bool.eq_iff_iff, isEmptyEntry_eq_true_iff, decide_eq_true_iff]
  constructor
  · rintro (hle | hblank)
    · exact hle
    · by_contra hlt
      exact h (hblank last (by omega) le_rfl)
  · exact Or.inl

/-! ### The splitter of entries -/

theorem strchr_of_notMem {c : UInt8} (hs : s = pre ++ u) (h : c ∉ u) :
    strchr s pre.length c = none := by
  rw [strchr, hs, List.drop_left, findIdx?_eq_none h, Option.map_none]

theorem hasNext_nil (hs : s = pre) : hasNext s (some pre.length) = false := by
  rw [← hs]
  exact hasNext_length

theorem hasNext_cons (hs : s = pre ++ u) (hu : u ≠ []) (hnull : nullSymbol ∉ s) :
    hasNext s (some pre.length) = true := by
  obtain ⟨c, u, rfl⟩ := List.exists_cons_of_ne_nil hu
  refine hasNext_append hs rfl ?_
  rintro rfl
  apply hnull
  rw [hs]
  simp

/-- Fuel that is enough may be more. -/
theorem getNextEntry_succ {fuel next : ℕ} (hnext : next ≤ s.length)
    (hfuel : s.length - next < fuel) :
    getNextEntry s (fuel + 1) next = getNextEntry s fuel next := by
  induction fuel generalizing next with
  | zero => omega
  | succ fuel ih =>
      rw [getNextEntry, getNextEntry]
      cases hmore : hasNext s (some next) with
      | false => rfl
      | true =>
          cases hfirst : strchr s next entryBeginSymbol with
          | none => cases strchr s next entryEndSymbol <;> rfl
          | some first =>
              cases hlast : strchr s next entryEndSymbol with
              | none => rfl
              | some last =>
                  obtain ⟨hle, hlt, -, -⟩ := strchr_eq_some_iff.mp hlast
                  simp only [if_true]
                  rw [ih (by omega) (by omega)]

/-- The entry in a part of a collection. -/
def content (seg : List UInt8) : List UInt8 :=
  (seg.dropWhile (· != entryBeginSymbol)).tail

theorem content_of_notMem (h : entryBeginSymbol ∉ seg) : content seg = [] := by
  have hall : ∀ c ∈ seg, (c != entryBeginSymbol) = true := by
    intro c hc
    rw [bne_iff_ne]
    rintro rfl
    exact h hc
  rw [content, List.dropWhile_eq_nil_iff.mpr hall, List.tail_nil]

theorem content_append {gap text : List UInt8} (h : entryBeginSymbol ∉ gap) :
    content (gap ++ entryBeginSymbol :: text) = text := by
  have hall : ∀ c ∈ gap, (c != entryBeginSymbol) = true := by
    intro c hc
    rw [bne_iff_ne]
    rintro rfl
    exact h hc
  rw [content, List.dropWhile_append_of_pos hall, List.dropWhile_cons_of_neg (by simp),
    List.tail_cons]

/-- A part without an entry is skipped. -/
theorem getNextEntry_skip {fuel : ℕ} (hs : s = pre ++ (seg ++ entryEndSymbol :: u))
    (hseg : entryEndSymbol ∉ seg) (hcontent : content seg = [])
    (hopens : entryBeginSymbol ∈ seg ++ u) (hnull : nullSymbol ∉ s) :
    getNextEntry s (fuel + 1) pre.length = getNextEntry s fuel (pre.length + seg.length + 1) := by
  have hlast : strchr s pre.length entryEndSymbol = some (pre.length + seg.length) := by
    rw [hs, strchr_append rfl hseg]
  obtain ⟨first, hfirst, hle⟩ : ∃ first, strchr s pre.length entryBeginSymbol = some first ∧
      pre.length + seg.length ≤ first + 1 := by
    by_cases hmem : entryBeginSymbol ∈ seg
    · obtain ⟨gap, text, rfl, hgap⟩ := List.eq_append_cons_of_mem hmem
      rw [content_append hgap] at hcontent
      subst hcontent
      refine ⟨pre.length + gap.length, ?_, ?_⟩
      · rw [hs, List.append_assoc, List.cons_append]
        exact strchr_append rfl hgap
      · rw [List.length_append, List.length_singleton]
        omega
    · have hopens := (List.mem_append.mp hopens).resolve_left hmem
      obtain ⟨gap, text, rfl, hgap⟩ := List.eq_append_cons_of_mem hopens
      have hnotMem : entryBeginSymbol ∉ seg ++ entryEndSymbol :: gap := by
        rw [List.mem_append, List.mem_cons]
        rintro (h | h | h)
        · exact hmem h
        · exact absurd h (by decide)
        · exact hgap h
      refine ⟨pre.length + (seg ++ entryEndSymbol :: gap).length, ?_, ?_⟩
      · have hsplit : s = pre ++ ((seg ++ entryEndSymbol :: gap) ++ entryBeginSymbol :: text) := by
          rw [hs]
          simp
        rw [hsplit]
        exact strchr_append rfl hnotMem
      · rw [List.length_append]
        omega
  rw [getNextEntry, hasNext_cons hs (by simp) hnull, if_pos rfl, hfirst, hlast]
  simp only [isEmptyEntry, if_pos (show first + 1 ≥ pre.length + seg.length from hle), if_true]

/-- The entry of a part is returned, and the next part begins behind the bracket. -/
theorem getNextEntry_content {fuel : ℕ} (hs : s = pre ++ (seg ++ entryEndSymbol :: u))
    (hseg : entryEndSymbol ∉ seg) (hcontent : content seg ≠ []) (hnull : nullSymbol ∉ s) :
    getNextEntry s (fuel + 1) pre.length =
      .ok (some ⟨pre.length + seg.length - (content seg).length, (content seg).length⟩,
        pre.length + seg.length + 1) := by
  have hmem : entryBeginSymbol ∈ seg := by
    by_contra hmem
    exact hcontent (content_of_notMem hmem)
  have hlast : strchr s pre.length entryEndSymbol = some (pre.length + seg.length) := by
    rw [hs, strchr_append rfl hseg]
  have hclosed : charAt s (pre.length + seg.length) = entryEndSymbol :=
    (strchr_eq_some_iff.mp hlast).2.2.1
  obtain ⟨gap, text, rfl, hgap⟩ := List.eq_append_cons_of_mem hmem
  rw [content_append hgap] at hcontent ⊢
  have hfirst : strchr s pre.length entryBeginSymbol = some (pre.length + gap.length) := by
    rw [hs, List.append_assoc, List.cons_append]
    exact strchr_append rfl hgap
  have hpos := List.length_pos_iff.mpr hcontent
  have hempty : isEmptyEntry s (pre.length + gap.length + 1)
      (pre.length + (gap ++ entryBeginSymbol :: text).length) = false := by
    rw [isEmptyEntry_of_ne (by rw [hclosed]; decide)]
    apply decide_eq_false
    simp only [List.length_append, List.length_cons]
    omega
  have hlength : (gap ++ entryBeginSymbol :: text).length = gap.length + 1 + text.length := by
    rw [List.length_append, List.length_cons]
    omega
  have hbegin : pre.length + gap.length + 1 =
      pre.length + (gap.length + 1 + text.length) - text.length := by omega
  have hsize : pre.length + (gap.length + 1 + text.length) - (pre.length + gap.length + 1) =
      text.length := by omega
  rw [hlength] at hlast hempty ⊢
  rw [getNextEntry, hasNext_cons hs (by simp) hnull, if_pos rfl, hfirst, hlast]
  simp only [hempty, Bool.false_eq_true, if_false, hsize, ← hbegin]

/-- Without brackets all of the text is the entry. -/
theorem getNextEntry_plain {fuel : ℕ} (hs : s = pre ++ u) (hu : u ≠ [])
    (hopens : entryBeginSymbol ∉ u) (hcloses : entryEndSymbol ∉ u) (hnull : nullSymbol ∉ s) :
    getNextEntry s (fuel + 1) pre.length = .ok (some ⟨pre.length, u.length⟩, s.length) := by
  have hfirst := strchr_of_notMem hs hopens
  have hlast := strchr_of_notMem hs hcloses
  have hlength : s.length = pre.length + u.length := by rw [hs, List.length_append]
  have hpos := List.length_pos_iff.mpr hu
  have hsize : s.length - pre.length = u.length := by omega
  have hempty : isEmptyEntry s pre.length s.length = false := by
    rw [isEmptyEntry_of_ne (by rw [charAt_length]; decide)]
    exact decide_eq_false (by omega)
  rw [getNextEntry, hasNext_cons hs hu hnull, if_pos rfl, hfirst, hlast]
  simp only [hsize, ← hlength, hempty, Bool.false_eq_true, if_false]

/-- Brackets without their partners are an error. -/
theorem getNextEntry_unpaired {fuel : ℕ} (hs : s = pre ++ u)
    (hunpaired : ¬ (entryBeginSymbol ∈ u ↔ entryEndSymbol ∈ u)) (hnull : nullSymbol ∉ s) :
    getNextEntry s (fuel + 1) pre.length = .error .invalidFuncParam := by
  have hu : u ≠ [] := by
    rintro rfl
    exact hunpaired (iff_of_false List.not_mem_nil List.not_mem_nil)
  rw [getNextEntry, hasNext_cons hs hu hnull, if_pos rfl]
  by_cases hopens : entryBeginSymbol ∈ u
  · have hcloses : entryEndSymbol ∉ u := fun h => hunpaired (iff_of_true hopens h)
    obtain ⟨gap, text, rfl, hgap⟩ := List.eq_append_cons_of_mem hopens
    rw [strchr_of_notMem hs hcloses, hs, strchr_append rfl hgap]
  · have hcloses : entryEndSymbol ∈ u := by
      by_contra h
      exact hunpaired (iff_of_false hopens h)
    obtain ⟨seg, rest, rfl, hseg⟩ := List.eq_append_cons_of_mem hcloses
    rw [strchr_of_notMem hs hopens, hs, strchr_append rfl hseg]

theorem getNextEntry_nil {fuel : ℕ} :
    getNextEntry s (fuel + 1) s.length = .ok (none, s.length) := by
  rw [getNextEntry, hasNext_length]
  rfl

/-! ### The entries of a text -/

/-- The entry of a part that is closed at an offset. -/
def entryOf (next : ℕ) (seg : List UInt8) : List Range :=
  if content seg = [] then [] else [⟨next - (content seg).length, (content seg).length⟩]

/-- The entries of a text that begins at an offset, behind a part that is not closed yet. -/
def entriesOf : ℕ → List UInt8 → List UInt8 → List Range
  | next, seg, [] => if seg = [] then [] else [⟨next - seg.length, seg.length⟩]
  | next, seg, c :: u =>
      if c = entryEndSymbol then entryOf next seg ++ entriesOf (next + 1) [] u
      else entriesOf (next + 1) (seg ++ [c]) u

theorem entriesOf_append {next : ℕ} {a : List UInt8} (h : entryEndSymbol ∉ a) :
    entriesOf next seg (a ++ u) = entriesOf (next + a.length) (seg ++ a) u := by
  induction a generalizing next seg with
  | nil => rw [List.nil_append, List.append_nil, List.length_nil, Nat.add_zero]
  | cons c a ih =>
      rw [List.mem_cons, not_or] at h
      rw [List.cons_append, entriesOf, if_neg (Ne.symm h.1), ih h.2, List.append_assoc,
        List.singleton_append, List.length_cons]
      congr 1
      omega

/-- A part that is closed. -/
theorem entriesOf_part {next : ℕ} (h : entryEndSymbol ∉ seg) :
    entriesOf next [] (seg ++ entryEndSymbol :: u) =
      entryOf (next + seg.length) seg ++ entriesOf (next + seg.length + 1) [] u := by
  rw [entriesOf_append h, entriesOf, if_pos rfl, List.nil_append]

/-- The last part. -/
theorem entriesOf_last {next : ℕ} (h : entryEndSymbol ∉ u) (hu : u ≠ []) :
    entriesOf next [] u = [⟨next, u.length⟩] := by
  have hlast : entriesOf next [] (u ++ []) = entriesOf (next + u.length) ([] ++ u) [] :=
    entriesOf_append h
  rw [List.append_nil, List.nil_append] at hlast
  rw [hlast, entriesOf, if_neg hu, Nat.add_sub_cancel]

/-- Where the text begins does not matter for the number of its entries. -/
theorem length_entriesOf (next next' : ℕ) :
    (entriesOf next seg u).length = (entriesOf next' seg u).length := by
  induction u generalizing next next' seg with
  | nil =>
      rw [entriesOf, entriesOf]
      split
      · rfl
      · rfl
  | cons c u ih =>
      rw [entriesOf, entriesOf]
      split
      · rw [List.length_append, List.length_append, ih (next + 1) (next' + 1), entryOf, entryOf]
        split
        · rfl
        · rfl
      · exact ih _ _

/-- The entries of what is closed are in front of all others. -/
theorem entriesOf_closed (closed : List UInt8) (next : ℕ) (seg : List UInt8) :
    ∃ ranges, ∀ u, entriesOf next seg (closed ++ entryEndSymbol :: u) =
      ranges ++ entriesOf (next + closed.length + 1) [] u := by
  induction closed generalizing next seg with
  | nil =>
      refine ⟨entryOf next seg, fun u => ?_⟩
      rw [List.nil_append, entriesOf, if_pos rfl]
      rfl
  | cons c closed ih =>
      have hoffset : next + 1 + closed.length + 1 = next + (closed.length + 1) + 1 := by omega
      by_cases hc : c = entryEndSymbol
      · obtain ⟨ranges, hranges⟩ := ih (next + 1) []
        refine ⟨entryOf next seg ++ ranges, fun u => ?_⟩
        rw [List.cons_append, entriesOf, if_pos hc, hranges, List.length_cons, List.append_assoc,
          hoffset]
      · obtain ⟨ranges, hranges⟩ := ih (next + 1) (seg ++ [c])
        refine ⟨ranges, fun u => ?_⟩
        rw [List.cons_append, entriesOf, if_neg hc, hranges, List.length_cons, hoffset]

/-! ### What is accepted -/

/-- The addresses are those of the ranges. -/
def AreParsed (status : CodecStatus) (s : List UInt8) : List Range → List Address → Prop :=
  List.Forall₂ fun range addr => parseAddress status s (some range) = .ok addr

/-- A pass of the loop that succeeds. -/
theorem parseEntries_eq_ok {fuel next : ℕ} {addresses result : List Address}
    (h : parseEntries status s (fuel + 1) next addresses = .ok result) :
    ∃ entry next' addr, getNextEntry s (s.length + 1) next = .ok (entry, next') ∧
      parseAddress status s entry = .ok addr ∧
      if hasNext s (some next') then
        parseEntries status s fuel next' (addresses ++ [addr]) = .ok result
      else result = addresses ++ [addr] := by
  rw [parseEntries] at h
  cases hentry : getNextEntry s (s.length + 1) next with
  | error e =>
      rw [hentry] at h
      cases h
  | ok found =>
      obtain ⟨entry, next'⟩ := found
      cases haddr : parseAddress status s entry with
      | error e =>
          simp only [hentry, haddr, Noted.ok_bind, Noted.error_bind] at h
          cases h
      | ok addr =>
          simp only [hentry, haddr, Noted.ok_bind] at h
          refine ⟨entry, next', addr, rfl, haddr, ?_⟩
          split
          · rename_i hmore
            rw [if_pos hmore] at h
            exact h
          · rename_i hmore
            rw [if_neg hmore] at h
            exact (Except.ok.inj h).symm

/-- The loop goes on behind a part without characters. -/
theorem parseEntries_skip {seg rest : List UInt8} {fuel : ℕ} {addresses : List Address}
    (hs : s = pre ++ (seg ++ entryEndSymbol :: rest)) (hseg : entryEndSymbol ∉ seg)
    (hcontent : content seg = []) (hopens : entryBeginSymbol ∈ seg ++ rest)
    (hnull : nullSymbol ∉ s) :
    parseEntries status s (fuel + 1) pre.length addresses =
      parseEntries status s (fuel + 1) (pre.length + seg.length + 1) addresses := by
  have hlength : pre.length + seg.length + 1 ≤ s.length := by
    rw [hs, List.length_append, List.length_append, List.length_cons]
    omega
  have hskip : getNextEntry s (s.length + 1) pre.length =
      getNextEntry s (s.length + 1) (pre.length + seg.length + 1) := by
    rw [getNextEntry_skip hs hseg hcontent hopens hnull, getNextEntry_succ hlength (by omega)]
  rw [parseEntries, parseEntries, hskip]

/-- Every entry of a text that is accepted is an address, and there are no others. -/
theorem parseEntries_ok {fuel : ℕ} {addresses result : List Address} (hs : s = pre ++ u)
    (hnull : nullSymbol ∉ s) (hfuel : u.length < fuel)
    (h : parseEntries status s fuel pre.length addresses = .ok result) :
    ∃ added, result = addresses ++ added ∧ AreParsed status s (entriesOf pre.length [] u) added := by
  -- on the length of what is left: a part that is closed goes off its front, and a part without
  -- characters takes no turn of the loop
  induction hn : u.length using Nat.strong_induction_on generalizing pre u fuel addresses with
  | _ n ih =>
      subst hn
      obtain ⟨fuel, rfl⟩ := Nat.exists_eq_succ_of_ne_zero (show fuel ≠ 0 by omega)
      by_cases hpaired : entryBeginSymbol ∈ u ↔ entryEndSymbol ∈ u
      · by_cases hcloses : entryEndSymbol ∈ u
        · obtain ⟨seg, rest, rfl, hseg⟩ := List.eq_append_cons_of_mem hcloses
          have hsplit : s = (pre ++ (seg ++ [entryEndSymbol])) ++ rest := by
            rw [hs]
            simp
          have hbefore : (pre ++ (seg ++ [entryEndSymbol])).length =
              pre.length + seg.length + 1 := by
            simp [Nat.add_assoc]
          have hshort : rest.length < (seg ++ entryEndSymbol :: rest).length := by
            rw [List.length_append, List.length_cons]
            omega
          rw [entriesOf_part hseg]
          by_cases hcontent : content seg = []
          · have hopens : entryBeginSymbol ∈ seg ++ rest := by
              have hmem := hpaired.mpr hcloses
              rw [List.mem_append, List.mem_cons] at hmem
              rw [List.mem_append]
              exact hmem.imp_right fun h => h.resolve_left (by decide)
            rw [parseEntries_skip hs hseg hcontent hopens hnull, ← hbefore] at h
            rw [entryOf, if_pos hcontent, List.nil_append, ← hbefore]
            exact ih _ hshort hsplit (by omega) h rfl
          · obtain ⟨entry, next', addr, hentry, haddr, hrest⟩ := parseEntries_eq_ok h
            rw [getNextEntry_content hs hseg hcontent hnull] at hentry
            cases hentry
            rw [entryOf, if_neg hcontent, List.singleton_append, ← hbefore]
            rw [← hbefore] at hrest
            by_cases hend : rest = []
            · subst hend
              rw [List.append_nil] at hsplit
              rw [hasNext_nil hsplit, if_neg Bool.false_ne_true] at hrest
              exact ⟨[addr], hrest, .cons haddr .nil⟩
            · rw [if_pos (hasNext_cons hsplit hend hnull)] at hrest
              obtain ⟨added, hresult, hparsed⟩ := ih _ hshort hsplit (by omega) hrest rfl
              refine ⟨addr :: added, ?_, .cons haddr hparsed⟩
              rw [hresult, List.append_assoc, List.singleton_append]
        · have hopens : entryBeginSymbol ∉ u := fun hmem => hcloses (hpaired.mp hmem)
          obtain ⟨entry, next', addr, hentry, haddr, hrest⟩ := parseEntries_eq_ok h
          by_cases hend : u = []
          · subst hend
            rw [List.append_nil] at hs
            rw [← hs, getNextEntry_nil] at hentry
            cases hentry
            exact nomatch haddr
          · rw [getNextEntry_plain hs hend hopens hcloses hnull] at hentry
            cases hentry
            rw [hasNext_length, if_neg Bool.false_ne_true] at hrest
            rw [entriesOf_last hcloses hend]
            exact ⟨[addr], hrest, .cons haddr .nil⟩
      · obtain ⟨entry, next', addr, hentry, -, -⟩ := parseEntries_eq_ok h
        rw [getNextEntry_unpaired hs hpaired hnull] at hentry
        exact nomatch hentry

end DxFeed.AddressParser
