import DxFeed.AddressParser.Entries

/-!
# Blanks in empty lists

* `IsEntryText`, `InEmptyList`: the entries of a collection, and the places inside of an empty
  entry, codec or list of properties;
* `parseCodecs_rejects`, `parseProperties_blank`: a blank codec and a blank property are errors;
* `IgnoresBlanks`: the test for empty ranges is right, and blanks in empty lists change nothing;
* `ignoresBlanks_iff`.
-/

namespace DxFeed.AddressParser

open CString

variable {s pre post text u front host name piece : List UInt8} {status : CodecStatus} {k : ℕ}

/-! ### Empty lists -/

def blanks (k : ℕ) : List UInt8 :=
  List.replicate k whitespace

/-- All parts in front of a place are closed. -/
def Closed (pre : List UInt8) : Prop :=
  pre = [] ∨ ∃ closed, pre = closed ++ [entryEndSymbol]

/-- All codecs in front of a place are complete. -/
def EndsCodecs (front : List UInt8) : Prop :=
  front = [] ∨ ∃ complete, front = complete ++ [codecSplitter]

/-- A text in brackets, or the last one without brackets, is an entry. -/
inductive IsEntryText : List UInt8 → List UInt8 → List UInt8 → Prop
  | brackets {closed gap text post : List UInt8} (hclosed : Closed closed)
      (hgap : entryBeginSymbol ∉ gap ∧ entryEndSymbol ∉ gap) (htext : entryEndSymbol ∉ text) :
      IsEntryText (closed ++ (gap ++ [entryBeginSymbol])) text (entryEndSymbol :: post)
  | plain {closed text : List UInt8} (hclosed : Closed closed) (hopens : entryBeginSymbol ∉ text)
      (htext : entryEndSymbol ∉ text) : IsEntryText closed text []

/-- A list that may be empty. -/
inductive BlankList where
  | entry
  | codec
  | properties
  | codecProperties (name : List UInt8)

/-- The name of the codec that takes no properties. -/
def gzipName : List UInt8 := chars ['g', 'z', 'i', 'p']

/-- The list is read: the properties of `gzip` are not. -/
def BlankList.IsRead : BlankList → Prop
  | .codecProperties name => name.map tolower ≠ gzipName
  | _ => True

/-- A place inside of an empty list, between what is in front of it and what is behind it. -/
inductive InEmptyList : BlankList → List UInt8 → List UInt8 → Prop
  | entry {pre post : List UInt8} (h : IsEntryText pre [] (entryEndSymbol :: post)) :
      InEmptyList .entry pre (entryEndSymbol :: post)
  | codec {pre front rest post : List UInt8}
      (h : IsEntryText pre (front ++ codecSplitter :: rest) post) (hcodecs : EndsCodecs front) :
      InEmptyList .codec (pre ++ front) (codecSplitter :: (rest ++ post))
  | properties {pre front host post : List UInt8}
      (h : IsEntryText pre
        (front ++ (host ++ [propertiesBeginSymbol]) ++ [propertiesEndSymbol]) post)
      (hcodecs : EndsCodecs front) (hplus : codecSplitter ∉ host)
      (hbracket : propertiesBeginSymbol ∉ host) :
      InEmptyList .properties (pre ++ (front ++ (host ++ [propertiesBeginSymbol])))
        (propertiesEndSymbol :: post)
  | codecProperties {pre front name rest post : List UInt8}
      (h : IsEntryText pre (front ++ (name ++ [propertiesBeginSymbol]) ++
        propertiesEndSymbol :: codecSplitter :: rest) post)
      (hcodecs : EndsCodecs front) (hplus : codecSplitter ∉ name)
      (hbracket : propertiesBeginSymbol ∉ name) :
      InEmptyList (.codecProperties name) (pre ++ (front ++ (name ++ [propertiesBeginSymbol])))
        (propertiesEndSymbol :: codecSplitter :: (rest ++ post))

theorem mem_blanks {c : UInt8} (h : c ∈ blanks k) : c = whitespace :=
  List.eq_of_mem_replicate h

theorem notMem_blanks {c : UInt8} (h : c ≠ whitespace) : c ∉ blanks k :=
  fun hmem => h (mem_blanks hmem)

theorem length_blanks : (blanks k).length = k :=
  List.length_replicate

/-- Blanks in an entry leave it an entry. -/
theorem IsEntryText.insert {a b : List UInt8} (h : IsEntryText pre (a ++ b) post) :
    IsEntryText pre (a ++ (blanks k ++ b)) post := by
  have hmem : ∀ c, c ≠ whitespace → c ∉ a ++ b → c ∉ a ++ (blanks k ++ b) := by
    intro c hc hnot
    rw [List.mem_append, not_or] at hnot
    rw [List.mem_append, List.mem_append, not_or, not_or]
    exact ⟨hnot.1, notMem_blanks hc, hnot.2⟩
  cases h with
  | brackets hclosed hgap htext => exact .brackets hclosed hgap (hmem _ (by decide) htext)
  | plain hclosed hopens htext =>
      exact .plain hclosed (hmem _ (by decide) hopens) (hmem _ (by decide) htext)

/-! ### The entries of what is accepted -/

theorem entriesOf_of_closed {closed : List UInt8} (h : Closed closed) :
    ∃ ranges, ∀ u, entriesOf 0 [] (closed ++ u) = ranges ++ entriesOf closed.length [] u := by
  rcases h with rfl | ⟨closed, rfl⟩
  · exact ⟨[], fun u => rfl⟩
  · obtain ⟨ranges, hranges⟩ := entriesOf_closed closed 0 []
    refine ⟨ranges, fun u => ?_⟩
    rw [List.append_assoc, List.singleton_append, hranges, Nat.zero_add, List.length_append,
      List.length_singleton]

/-- The entry in brackets is between those in front of it and those behind it. -/
theorem entriesOf_brackets {closed gap : List UInt8} (hclosed : Closed closed)
    (hgap : entryBeginSymbol ∉ gap ∧ entryEndSymbol ∉ gap) :
    ∃ ranges, ∀ text post, entryEndSymbol ∉ text →
      entriesOf 0 [] (closed ++ (gap ++ [entryBeginSymbol]) ++ (text ++ entryEndSymbol :: post)) =
        ranges ++ ((if text = [] then []
          else [⟨(closed ++ (gap ++ [entryBeginSymbol])).length, text.length⟩]) ++
          entriesOf (closed.length + (gap ++ entryBeginSymbol :: text).length + 1) [] post) := by
  obtain ⟨ranges, hranges⟩ := entriesOf_of_closed hclosed
  refine ⟨ranges, fun text post htext => ?_⟩
  have hseg : entryEndSymbol ∉ gap ++ entryBeginSymbol :: text := by
    rw [List.mem_append, List.mem_cons, not_or, not_or]
    exact ⟨hgap.2, by decide, htext⟩
  have hsplit : closed ++ (gap ++ [entryBeginSymbol]) ++ (text ++ entryEndSymbol :: post) =
      closed ++ ((gap ++ entryBeginSymbol :: text) ++ entryEndSymbol :: post) := by
    simp
  have hoffset : closed.length + (gap ++ entryBeginSymbol :: text).length - text.length =
      (closed ++ (gap ++ [entryBeginSymbol])).length := by
    simp only [List.length_append, List.length_cons, List.length_nil]
    omega
  rw [hsplit, hranges, entriesOf_part hseg, entryOf, content_append hgap.1, hoffset]

/-- The result of the parser: the addresses, or a failure. -/
def addresses (status : CodecStatus) (s : List UInt8) : Option (List Address) :=
  (getAddressesFromCollection status s).toOption

theorem addresses_eq_some {result : List Address} (hnull : nullSymbol ∉ s)
    (h : addresses status s = some result) : AreParsed status s (entriesOf 0 [] s) result := by
  have hok : parseEntries status s (s.length + 1) ([] : List UInt8).length [] = .ok result := by
    unfold addresses getAddressesFromCollection at h
    split_ifs at h
    · cases h
    cases hparse : parseEntries status s (s.length + 1) 0 [] with
    | error e =>
        rw [hparse] at h
        exact nomatch h
    | ok value =>
        rw [hparse] at h
        exact congrArg Except.ok (Option.some.inj h)
  obtain ⟨added, hadded, hparsed⟩ := parseEntries_ok (List.nil_append s).symm hnull (by omega) hok
  rw [hadded]
  exact hparsed

theorem AreParsed.exists_of_mem {ranges : List Range} {result : List Address}
    (h : AreParsed status s ranges result) {range : Range} (hmem : range ∈ ranges) :
    ∃ addr, parseAddress status s (some range) = .ok addr := by
  induction h with
  | nil => exact nomatch hmem
  | cons hparse _ ih =>
      rcases List.mem_cons.mp hmem with rfl | hmem
      · exact ⟨_, hparse⟩
      · exact ih hmem

/-- An entry of a collection that is accepted is an address. -/
theorem exists_parseAddress {result : List Address} (hs : s = pre ++ (text ++ post))
    (hnull : nullSymbol ∉ s) (hentry : IsEntryText pre text post) (htext : text ≠ [])
    (h : addresses status s = some result) :
    ∃ addr, parseAddress status s (some ⟨pre.length, text.length⟩) = .ok addr := by
  apply (addresses_eq_some hnull h).exists_of_mem
  rw [hs]
  cases hentry with
  | brackets hclosed hgap hclose =>
      obtain ⟨ranges, hranges⟩ := entriesOf_brackets hclosed hgap
      rw [hranges text _ hclose, if_neg htext]
      simp
  | plain hclosed hopens hclose =>
      obtain ⟨ranges, hranges⟩ := entriesOf_of_closed hclosed
      rw [List.append_nil, hranges, entriesOf_last hclose htext]
      simp

/-- With blanks in an empty entry there is an address more. -/
theorem not_both_accepted_entry {result result' : List Address} (hk : 0 < k)
    (hentry : IsEntryText pre [] (entryEndSymbol :: post))
    (hnull : nullSymbol ∉ pre ++ (blanks k ++ entryEndSymbol :: post))
    (h : addresses status (pre ++ entryEndSymbol :: post) = some result)
    (h' : addresses status (pre ++ (blanks k ++ entryEndSymbol :: post)) = some result') :
    result ≠ result' := by
  have hnull₀ : nullSymbol ∉ pre ++ entryEndSymbol :: post := by
    rw [List.mem_append, not_or] at hnull ⊢
    exact ⟨hnull.1, fun hmem => hnull.2 (List.mem_append_right _ hmem)⟩
  have hlength := List.Forall₂.length_eq (addresses_eq_some hnull₀ h)
  have hlength' := List.Forall₂.length_eq (addresses_eq_some hnull h')
  cases hentry with
  | brackets hclosed hgap hclose =>
      obtain ⟨ranges, hranges⟩ := entriesOf_brackets hclosed hgap
      have hblanks : blanks k ≠ [] := by
        rw [← List.length_pos_iff, length_blanks]
        exact hk
      have hnone := hranges [] post hclose
      rw [List.nil_append, if_pos rfl, List.nil_append] at hnone
      rw [hnone, List.length_append] at hlength
      rw [hranges (blanks k) post (notMem_blanks (by decide)), if_neg hblanks, List.length_append,
        List.length_append, List.length_singleton, length_entriesOf _ 0] at hlength'
      rw [length_entriesOf _ 0] at hlength
      rintro rfl
      omega

/-! ### Codecs -/

/-- Fuel that is enough may be more. -/
theorem getNextCodec_succ {nextEnd fuel next : ℕ} (hnext : next ≤ s.length)
    (hfuel : s.length - next < fuel) :
    getNextCodec s nextEnd (fuel + 1) next = getNextCodec s nextEnd fuel next := by
  induction fuel generalizing next with
  | zero => omega
  | succ fuel ih =>
      rw [getNextCodec, getNextCodec]
      cases hmore : hasNext s (some next) with
      | false => rfl
      | true =>
          cases hlast : findFirst s next nextEnd codecSplitter with
          | none => rfl
          | some last =>
              obtain ⟨hle, -, hlt, -⟩ := findFirst_eq_some hlast
              simp only [if_true]
              rw [ih (by omega) (by omega)]

/-- A codec without characters is skipped. -/
theorem getNextCodec_skip {nextEnd fuel : ℕ} (hs : s = pre ++ codecSplitter :: u)
    (hend : pre.length ≤ nextEnd) :
    getNextCodec s nextEnd (fuel + 1) pre.length =
      getNextCodec s nextEnd fuel (pre.length + 1) := by
  have hlast : findFirst s pre.length nextEnd codecSplitter = some (pre.length + 0) :=
    findFirst_append (a := []) hs rfl List.not_mem_nil hend
  rw [getNextCodec, hasNext_append hs rfl (by decide), if_pos rfl, hlast]
  simp only [isEmptyEntry, Nat.add_zero, ge_iff_le, le_refl, if_true]

theorem getNextCodec_piece {nextEnd fuel : ℕ} (hs : s = pre ++ (piece ++ codecSplitter :: u))
    (hpiece : codecSplitter ∉ piece) (hne : piece ≠ []) (hend : pre.length + piece.length ≤ nextEnd)
    (hnull : nullSymbol ∉ s) :
    getNextCodec s nextEnd (fuel + 1) pre.length =
      .ok (some ⟨pre.length, piece.length⟩, pre.length + piece.length + 1) := by
  have hlast := findFirst_append hs rfl hpiece hend
  have hclosed := (findFirst_eq_some hlast).2.2.2
  have hpos := List.length_pos_iff.mpr hne
  have hempty : isEmptyEntry s pre.length (pre.length + piece.length) = false := by
    rw [isEmptyEntry_of_ne (by rw [hclosed]; decide)]
    exact decide_eq_false (by omega)
  rw [getNextCodec, hasNext_cons hs (by simp) hnull, if_pos rfl, hlast]
  simp only [hempty, Bool.false_eq_true, if_false, Nat.add_sub_cancel_left]

theorem EndsCodecs.of_append {a b : List UInt8} (h : EndsCodecs (a ++ codecSplitter :: b)) :
    EndsCodecs b := by
  rcases List.eq_nil_or_concat b with rfl | ⟨b, c, rfl⟩
  · exact Or.inl rfl
  · rcases h with hnil | ⟨complete, hcomplete⟩
    · simp at hnil
    · rw [List.concat_eq_append, ← List.cons_append, ← List.append_assoc] at hcomplete
      obtain rfl := List.cons.inj (List.append_inj' hcomplete rfl).2 |>.1
      exact Or.inr ⟨b, List.concat_eq_append⟩

/-- The loop goes on behind a codec without characters. -/
theorem parseCodecs_skip {nextEnd fuel : ℕ} {addr : Address} (hs : s = pre ++ codecSplitter :: u)
    (hend : pre.length ≤ nextEnd) :
    parseCodecs status s nextEnd (fuel + 1) pre.length addr =
      parseCodecs status s nextEnd (fuel + 1) (pre.length + 1) addr := by
  have hlength : pre.length + 1 ≤ s.length := by
    rw [hs, List.length_append, List.length_cons]
    omega
  have hskip : getNextCodec s nextEnd (s.length + 1) pre.length =
      getNextCodec s nextEnd (s.length + 1) (pre.length + 1) := by
    rw [getNextCodec_skip hs hend, getNextCodec_succ hlength (by omega)]
  rw [parseCodecs, parseCodecs, hskip]

/-- An error of the codec at a place, or of the codecs behind it, ends the loop with an error. -/
theorem parseCodecs_piece {nextEnd fuel : ℕ} {addr : Address}
    (hs : s = pre ++ (piece ++ codecSplitter :: u)) (hpiece : codecSplitter ∉ piece)
    (hne : piece ≠ []) (hend : pre.length + piece.length ≤ nextEnd) (hnull : nullSymbol ∉ s)
    (h : ∀ addr', codecParse status s ⟨pre.length, piece.length⟩ addr = .ok addr' →
      hasNext s (some (pre.length + piece.length + 1)) = true ∧
        ∃ e, parseCodecs status s nextEnd fuel (pre.length + piece.length + 1) addr' = .error e) :
    ∃ e, parseCodecs status s nextEnd (fuel + 1) pre.length addr = .error e := by
  rw [parseCodecs, getNextCodec_piece hs hpiece hne hend hnull]
  cases hcodec : codecParse status s ⟨pre.length, piece.length⟩ addr with
  | error e =>
      refine ⟨e, ?_⟩
      simp only [Noted.ok_bind, hcodec, Noted.error_bind]
  | ok addr' =>
      obtain ⟨hmore, e, he⟩ := h addr' hcodec
      refine ⟨e, ?_⟩
      simp only [Noted.ok_bind, hcodec, hmore, if_true, he]

/-- A codec that is an error is found behind all complete ones, or one of these is an error. -/
theorem parseCodecs_rejects {nextEnd fuel : ℕ} {addr : Address}
    (hs : s = pre ++ (front ++ (piece ++ codecSplitter :: u))) (hcodecs : EndsCodecs front)
    (hpiece : codecSplitter ∉ piece) (hne : piece ≠ [])
    (hend : pre.length + front.length + piece.length ≤ nextEnd) (hnull : nullSymbol ∉ s)
    (hparse : ∀ addr, ∃ e,
      codecParse status s ⟨pre.length + front.length, piece.length⟩ addr = .error e) :
    ∃ e, parseCodecs status s nextEnd fuel pre.length addr = .error e := by
  -- on the length of the codecs in front; one without characters takes no turn of the loop
  induction hn : front.length using Nat.strong_induction_on
    generalizing pre front fuel addr with
  | _ n ih =>
      subst hn
      cases fuel with
      | zero => exact ⟨_, rfl⟩
      | succ fuel =>
          by_cases hmem : codecSplitter ∈ front
          · obtain ⟨first, rest, rfl, hfirst⟩ := List.eq_append_cons_of_mem hmem
            have hshort : rest.length < (first ++ codecSplitter :: rest).length := by
              rw [List.length_append, List.length_cons]
              omega
            have hsplit : s = (pre ++ (first ++ [codecSplitter])) ++
                (rest ++ (piece ++ codecSplitter :: u)) := by
              rw [hs]
              simp
            have hbefore : (pre ++ (first ++ [codecSplitter])).length =
                pre.length + first.length + 1 := by
              simp [Nat.add_assoc]
            have hsame : (pre ++ (first ++ [codecSplitter])).length + rest.length =
                pre.length + (first ++ codecSplitter :: rest).length := by
              rw [hbefore, List.length_append, List.length_cons]
              omega
            rw [← hsame] at hparse hend
            have hrest : ∀ fuel addr, ∃ e, parseCodecs status s nextEnd fuel
                (pre ++ (first ++ [codecSplitter])).length addr = .error e :=
              fun fuel addr => ih _ hshort hsplit hcodecs.of_append hend hparse rfl
            rw [hbefore] at hrest hend
            by_cases hnil : first = []
            · subst hnil
              rw [List.nil_append, List.cons_append] at hs
              rw [parseCodecs_skip hs (by omega)]
              exact hrest (fuel + 1) addr
            · have hfirstSplit : s = pre ++ (first ++ codecSplitter ::
                  (rest ++ (piece ++ codecSplitter :: u))) := by
                rw [hs]
                simp
              refine parseCodecs_piece hfirstSplit hfirst hnil (by omega) hnull fun addr' _ => ?_
              have hmore := hasNext_cons hsplit (by simp) hnull
              rw [hbefore] at hmore
              exact ⟨hmore, hrest fuel addr'⟩
          · have hnil : front = [] := by
              rcases hcodecs with hnil | ⟨complete, rfl⟩
              · exact hnil
              · exact absurd (List.mem_append_right _ (List.mem_singleton_self _)) hmem
            subst hnil
            obtain ⟨e, he⟩ := hparse addr
            rw [List.length_nil, Nat.add_zero] at he hend
            rw [List.nil_append] at hs
            refine parseCodecs_piece hs hpiece hne hend hnull fun addr' hok => ?_
            exact nomatch he.symm.trans hok

def codecNames : List (List UInt8) :=
  [chars ['t', 'l', 's'], chars ['s', 's', 'l'], gzipName]

theorem mem_codecNames {info : CodecInfo} (h : info ∈ codecs status) : info.name ∈ codecNames := by
  simp only [codecs, List.mem_cons, List.not_mem_nil, or_false] at h
  rcases h with rfl | rfl | rfl
  · exact List.mem_cons_self
  · exact List.mem_cons_of_mem _ List.mem_cons_self
  · exact List.mem_cons_of_mem _ (List.mem_cons_of_mem _ List.mem_cons_self)

theorem startsWithNoCase_blanks : ∀ name ∈ codecNames,
    ¬ startsWithNoCase (blanks name.length) name = true := by
  decide

/-- Blanks are no name of a codec. -/
theorem codecParse_blanks (hs : s = pre ++ (blanks k ++ u)) (addr : Address) :
    codecParse status s ⟨pre.length, k⟩ addr = .error .unknownCodec := by
  have hname : getCodecName s pre.length k = k := by
    unfold getCodecName
    by_cases hk : k = 0
    · rw [if_pos hk, hk]
    · rw [if_neg hk]
      cases hlast : strchr s pre.length propertiesBeginSymbol with
      | none => rfl
      | some last =>
          rw [hs] at hlast
          have hle := strchr_ge rfl (notMem_blanks (by decide)) hlast
          rw [length_blanks] at hle
          exact if_pos hle
  have htext : (s.drop pre.length).take k = blanks k := by
    rw [hs, List.drop_left, List.take_left' length_blanks]
  have hfind : (codecs status).find? (fun info =>
      info.name.length == k && startsWithNoCase (blanks k) info.name) = none := by
    rw [List.find?_eq_none]
    intro info hinfo
    rw [Bool.and_eq_true, beq_iff_eq]
    rintro ⟨rfl, hstarts⟩
    exact startsWithNoCase_blanks info.name (mem_codecNames hinfo) hstarts
  unfold codecParse
  simp only [hname, htext, hfind]

/-! ### Properties -/

/-- Blanks between the brackets are taken for a property. -/
theorem getNextProperty_blank {fuel : ℕ}
    (hs : s = pre ++ propertiesBeginSymbol :: (blanks k ++ propertiesEndSymbol :: u))
    (hk : 0 < k) :
    getNextProperty s (fuel + 1) (some pre.length, k + 2) =
      .ok (some ⟨pre.length + 1, k⟩, (some (pre.length + 1 + k + 1), 0)) := by
  have hsplit : s = (pre ++ [propertiesBeginSymbol]) ++
      (blanks k ++ propertiesEndSymbol :: u) := by
    rw [hs]
    simp
  have hbefore : pre.length + 1 = (pre ++ [propertiesBeginSymbol]).length := by simp
  have hlast : findFirstOfValues s (pre.length + 1) (pre.length + (k + 2) - 1)
      propertiesEndSymbol propertiesSplitter = some (pre.length + 1 + k) := by
    have hfound : findFirstOfValues s (pre.length + 1) (pre.length + (k + 2) - 1)
        propertiesEndSymbol propertiesSplitter = some (pre.length + 1 + (blanks k).length) :=
      findFirstOfValues_append hsplit hbefore (notMem_blanks (by decide))
        (notMem_blanks (by decide)) (Or.inl rfl) (by rw [length_blanks]; omega)
    rw [length_blanks] at hfound
    exact hfound
  have hclosed : charAt s (pre.length + 1 + k) = propertiesEndSymbol := by
    rw [hsplit, ← List.append_assoc]
    apply charAt_append
    rw [List.length_append, ← hbefore, length_blanks]
  have hempty : isEmptyEntry s (pre.length + 1) (pre.length + 1 + k) = false := by
    rw [isEmptyEntry_of_ne (by rw [hclosed]; decide)]
    exact decide_eq_false (by omega)
  have hchar : charAt s pre.length = propertiesBeginSymbol := by
    rw [hs]
    exact charAt_append rfl
  have hmore : (hasNext s (some pre.length) && decide (k + 2 > 0)) = true := by
    rw [hasNext_append hs rfl (by decide)]
    simp
  have hsize : k + 2 - (pre.length + 1 + k + 1 - pre.length) = 0 := by omega
  rw [getNextProperty, if_pos hmore, hchar, if_pos (Or.inl rfl), hlast]
  simp only [hclosed, if_true, hempty, Bool.false_eq_true, if_false, hsize,
    Nat.add_sub_cancel_left]

/-- A property of blanks has no value. -/
theorem parseProperties_blank {α : Type} {assign : α → Property → Except Failure α} {fuel : ℕ}
    (hs : s = pre ++ propertiesBeginSymbol :: (blanks k ++ propertiesEndSymbol :: u)) (hk : 0 < k)
    (result : α) :
    ∃ e, parseProperties s assign fuel (some pre.length, k + 2) result = .error e := by
  cases fuel with
  | zero => exact ⟨_, rfl⟩
  | succ fuel =>
      have hvalue : findFirst s (pre.length + 1) (pre.length + 1 + k) propertyValueSplitter =
          none := by
        have hsplit : s = (pre ++ [propertiesBeginSymbol]) ++
            ((blanks k ++ [propertiesEndSymbol]) ++ u) := by
          rw [hs]
          simp
        refine findFirst_eq_none hsplit (by simp) ?_ ?_
        · rw [List.mem_append, not_or]
          exact ⟨notMem_blanks (by decide), by decide⟩
        · rw [List.length_append, length_blanks, List.length_singleton]
          omega
      refine ⟨.invalidFunctionArg, ?_⟩
      rw [parseProperties, getNextProperty_blank hs hk]
      simp only [Noted.ok_bind, parseProperty, hvalue, Noted.error_bind]

/-- The properties of blanks behind the name of a codec. -/
theorem getCodecProperties_blank
    (hs : s = pre ++ (name ++ propertiesBeginSymbol :: (blanks k ++ propertiesEndSymbol :: u)))
    (hname : propertiesBeginSymbol ∉ name) (hk : 0 < k) :
    getCodecName s pre.length (name.length + (k + 2)) = name.length ∧
      getCodecProperties s pre.length (name.length + (k + 2)) =
        .ok (some (pre.length + name.length), k + 2) := by
  have hbegin : strchr s pre.length propertiesBeginSymbol = some (pre.length + name.length) := by
    rw [hs]
    exact strchr_append rfl hname
  have hnameSize : getCodecName s pre.length (name.length + (k + 2)) = name.length := by
    rw [getCodecName, if_neg (by omega), hbegin]
    simp only [Nat.add_sub_cancel_left]
    exact if_neg (by omega)
  have hopened : charAt s (pre.length + name.length) = propertiesBeginSymbol :=
    (strchr_eq_some_iff.mp hbegin).2.2.1
  have hend : pre.length + (name.length + (k + 2)) - 1 = pre.length + name.length + (k + 1) := by
    omega
  have hclosed : charAt s (pre.length + name.length + (k + 1)) = propertiesEndSymbol := by
    have hsplit : s = (pre ++ (name ++ propertiesBeginSymbol :: blanks k)) ++
        propertiesEndSymbol :: u := by
      rw [hs]
      simp
    rw [hsplit]
    apply charAt_append
    rw [List.length_append, List.length_append, List.length_cons, length_blanks]
    omega
  have hempty : isEmptyEntry s (pre.length + name.length) (pre.length + name.length + (k + 1)) =
      false := by
    rw [isEmptyEntry_of_ne (by rw [hclosed]; decide)]
    exact decide_eq_false (by omega)
  refine ⟨hnameSize, ?_⟩
  have hsize : pre.length + name.length + (k + 1) - (pre.length + name.length) + 1 = k + 2 := by
    omega
  unfold getCodecProperties
  simp only [hnameSize, hend, hopened, hclosed, hempty, hsize]
  rw [if_neg (by omega)]
  rfl

/-- A codec with properties of blanks is an error, unless it takes no properties. -/
theorem codecParse_blankProperties
    (hs : s = pre ++ (name ++ propertiesBeginSymbol :: (blanks k ++ propertiesEndSymbol :: u)))
    (hname : propertiesBeginSymbol ∉ name) (hread : name.map tolower ≠ gzipName) (hk : 0 < k)
    (addr : Address) :
    ∃ e, codecParse status s ⟨pre.length, name.length + (k + 2)⟩ addr = .error e := by
  obtain ⟨hnameSize, hprops⟩ := getCodecProperties_blank hs hname hk
  have htext : (s.drop pre.length).take name.length = name := by
    rw [hs, List.drop_left, List.take_left]
  have htls : ∃ e, codecTlsParser s ⟨pre.length, name.length + (k + 2)⟩ addr = .error e := by
    have hsplit : s = (pre ++ name) ++
        propertiesBeginSymbol :: (blanks k ++ propertiesEndSymbol :: u) := by
      rw [hs]
      simp
    obtain ⟨e, he⟩ : ∃ e, parseProperties s assignTls (s.length + 1)
        (some (pre ++ name).length, k + 2) ⟨true, none, none, none, none⟩ = .error e :=
      parseProperties_blank hsplit hk _
    rw [List.length_append] at he
    refine ⟨e, ?_⟩
    simp only [codecTlsParser, hprops, Noted.ok_bind, he, Noted.error_bind]
  unfold codecParse
  simp only [hnameSize, htext]
  cases hfind : (codecs status).find? (fun info =>
      info.name.length == name.length && startsWithNoCase name info.name) with
  | none => exact ⟨_, rfl⟩
  | some info =>
      have htest := List.find?_some hfind
      have hmem := List.mem_of_find?_eq_some hfind
      dsimp only
      split
      · simp only [codecs, List.mem_cons, List.not_mem_nil, or_false] at hmem
        rcases hmem with rfl | rfl | rfl
        · exact htls
        · exact htls
        · rw [Bool.and_eq_true, beq_iff_eq, startsWithNoCase, beq_iff_eq] at htest
          obtain ⟨hlength, hstarts⟩ := htest
          dsimp only at hlength hstarts
          rw [hlength, List.take_length] at hstarts
          exact absurd hstarts hread
      · exact ⟨_, rfl⟩

/-- The text of the host is behind the last codec, up to the properties. -/
theorem getHostPortString_blank
    (hs : s = pre ++ (front ++ (host ++ propertiesBeginSymbol :: (blanks k ++ [propertiesEndSymbol]))
      ++ post)) (hfront : EndsCodecs front) (hplus : codecSplitter ∉ host)
    (hbracket : propertiesBeginSymbol ∉ host) :
    getHostPortString s pre.length (front.length + (host.length + (k + 2))) =
      .ok ⟨pre.length + front.length, host.length⟩ := by
  have htext : (s.drop pre.length).take (front.length + (host.length + (k + 2))) =
      front ++ (host ++ propertiesBeginSymbol :: (blanks k ++ [propertiesEndSymbol])) := by
    rw [hs, List.drop_left, List.take_left']
    simp only [List.length_append, List.length_cons, length_blanks, List.length_nil]
  have hcopy : ansiCreateStringSrcLen s pre.length
      (pre.length + (front.length + (host.length + (k + 2))) - pre.length) =
        some (front ++ (host ++ propertiesBeginSymbol ::
          (blanks k ++ [propertiesEndSymbol]))) := by
    rw [Nat.add_sub_cancel_left, ansiCreateStringSrcLen, if_neg (by omega), htext]
  have hnone : codecSplitter ∉ host ++ propertiesBeginSymbol ::
      (blanks k ++ [propertiesEndSymbol]) := by
    rw [List.mem_append, List.mem_cons, List.mem_append, not_or, not_or, not_or]
    exact ⟨hplus, by decide, notMem_blanks (by decide), by decide⟩
  have hbegin : findFirst s (pre.length + front.length)
      (pre.length + (front.length + (host.length + (k + 2)))) propertiesBeginSymbol =
        some (pre.length + front.length + host.length) := by
    have hsplit : s = (pre ++ front) ++ (host ++ propertiesBeginSymbol ::
        (blanks k ++ [propertiesEndSymbol] ++ post)) := by
      rw [hs]
      simp
    exact findFirst_append hsplit (by simp) hbracket (by omega)
  have hlast : findLast s pre.length (pre.length + (front.length + (host.length + (k + 2))))
      codecSplitter = .ok ((strrchr (front ++ (host ++ propertiesBeginSymbol ::
        (blanks k ++ [propertiesEndSymbol]))) codecSplitter).map (pre.length + ·)) := by
    rw [findLast, if_neg (by omega), hcopy]
  unfold getHostPortString
  simp only [hlast]
  rcases hfront with rfl | ⟨complete, rfl⟩
  · rw [List.length_nil, Nat.add_zero] at hbegin
    rw [List.nil_append, List.length_nil, Nat.add_zero]
    simp only [strrchr_eq_none hnone, Option.map_none, Noted.ok_bind, hbegin]
    rw [Nat.add_sub_cancel_left]
    rfl
  · rw [List.append_assoc, List.singleton_append]
    have hfirst : pre.length + (complete ++ [codecSplitter]).length =
        pre.length + complete.length + 1 := by
      rw [List.length_append, List.length_singleton]
      omega
    rw [hfirst] at hbegin ⊢
    simp only [strrchr_append hnone, Option.map_some, Noted.ok_bind, hbegin]
    rw [Nat.add_sub_cancel_left]
    rfl

/-- The properties of an address that are blanks are handed on. -/
theorem getProperties_blank
    (hs : s = pre ++ (front ++ (host ++ propertiesBeginSymbol :: (blanks k ++ [propertiesEndSymbol]))
      ++ post)) (hfront : EndsCodecs front) (hplus : codecSplitter ∉ host)
    (hbracket : propertiesBeginSymbol ∉ host) (hk : 0 < k) :
    getProperties s pre.length (front.length + (host.length + (k + 2))) =
      .ok (some (pre.length + front.length + host.length), k + 2) := by
  have hhost := getHostPortString_blank hs hfront hplus hbracket
  have hopened : charAt s (pre.length + front.length + host.length) = propertiesBeginSymbol := by
    have hsplit : s = (pre ++ (front ++ host)) ++ propertiesBeginSymbol ::
        (blanks k ++ [propertiesEndSymbol] ++ post) := by
      rw [hs]
      simp
    rw [hsplit]
    apply charAt_append
    simp [Nat.add_assoc]
  have hclosed : charAt s (pre.length + front.length + host.length + (k + 1)) =
      propertiesEndSymbol := by
    have hsplit : s = (pre ++ (front ++ (host ++ propertiesBeginSymbol :: blanks k))) ++
        propertiesEndSymbol :: post := by
      rw [hs]
      simp
    rw [hsplit]
    apply charAt_append
    simp only [List.length_append, List.length_cons, length_blanks]
    omega
  have hmore : hasNext s (some (pre.length + front.length + host.length)) = true := by
    rw [hasNext, hopened]
    decide
  have hempty : isEmptyEntry s (pre.length + front.length + host.length)
      (pre.length + front.length + host.length + (k + 1)) = false := by
    rw [isEmptyEntry_of_ne (by rw [hclosed]; decide)]
    exact decide_eq_false (by omega)
  have hend : pre.length + (front.length + (host.length + (k + 2))) - 1 =
      pre.length + front.length + host.length + (k + 1) := by omega
  have hbefore : ¬ pre.length + front.length + host.length ≥
      pre.length + front.length + host.length + (k + 1) := by omega
  have hsize : pre.length + front.length + host.length + (k + 1) -
      (pre.length + front.length + host.length) + 1 = k + 2 := by omega
  unfold getProperties
  simp only [hhost, Noted.ok_bind, hend, hmore, hopened, hclosed, hempty, hsize, hbefore]
  rfl

theorem parseAddress_blankProperties
    (hs : s = pre ++ (front ++ (host ++ propertiesBeginSymbol :: (blanks k ++ [propertiesEndSymbol]))
      ++ post)) (hfront : EndsCodecs front) (hplus : codecSplitter ∉ host)
    (hbracket : propertiesBeginSymbol ∉ host) (hk : 0 < k) :
    ∃ e, parseAddress status s (some ⟨pre.length, front.length + (host.length + (k + 2))⟩) =
      .error e := by
  have hhost := getHostPortString_blank hs hfront hplus hbracket
  have hprops := getProperties_blank hs hfront hplus hbracket hk
  have hsplit : s = (pre ++ (front ++ host)) ++ propertiesBeginSymbol ::
      (blanks k ++ propertiesEndSymbol :: post) := by
    rw [hs]
    simp
  have hbefore : (pre ++ (front ++ host)).length = pre.length + front.length + host.length := by
    simp [Nat.add_assoc]
  rw [parseAddress, if_neg (show ¬ front.length + (host.length + (k + 2)) = 0 by omega)]
  dsimp only
  cases parseCodecs status s _ (s.length + 1) pre.length .zero with
  | error e => exact ⟨e, rfl⟩
  | ok addr =>
      simp only [Noted.ok_bind, hhost]
      cases parseHostPort s ⟨pre.length + front.length, host.length⟩ addr with
      | error e => exact ⟨e, rfl⟩
      | ok addr =>
          simp only [Noted.ok_bind, hprops]
          rw [← hbefore]
          exact parseProperties_blank hsplit hk addr

theorem parseAddress_of_parseCodecs {entry : Range}
    (h : ∀ fuel, ∃ e, parseCodecs status s (entry.first + entry.size) fuel entry.first .zero =
      .error e) :
    ∃ e, parseAddress status s (some entry) = .error e := by
  rw [parseAddress]
  split
  · exact ⟨_, rfl⟩
  · obtain ⟨e, he⟩ := h (s.length + 1)
    refine ⟨e, ?_⟩
    rw [he]
    rfl

/-! ### Blanks in a list -/

theorem addresses_eq_none (hs : s = pre ++ (text ++ post)) (hnull : nullSymbol ∉ s)
    (hentry : IsEntryText pre text post) (htext : text ≠ [])
    (h : ∃ e, parseAddress status s (some ⟨pre.length, text.length⟩) = .error e) :
    addresses status s = none := by
  cases haddresses : addresses status s with
  | none => rfl
  | some result =>
      obtain ⟨addr, haddr⟩ := exists_parseAddress hs hnull hentry htext haddresses
      obtain ⟨e, he⟩ := h
      exact nomatch haddr.symm.trans he

/-- A collection with blanks in a codec or in properties that are read is not accepted. -/
theorem addresses_insert {list : BlankList} (hlist : InEmptyList list pre post)
    (hread : list.IsRead) (hentry : list ≠ .entry) (hk : 0 < k)
    (hnull : nullSymbol ∉ pre ++ (blanks k ++ post)) :
    addresses status (pre ++ (blanks k ++ post)) = none := by
  have hblanks : blanks k ≠ [] := by
    rw [← List.length_pos_iff, length_blanks]
    exact hk
  cases hlist with
  | entry h => exact absurd rfl hentry
  | @codec pre front rest post h hfront =>
      have hsplit : pre ++ front ++ (blanks k ++ codecSplitter :: (rest ++ post)) =
          pre ++ (front ++ (blanks k ++ codecSplitter :: rest) ++ post) := by
        simp
      refine addresses_eq_none hsplit hnull h.insert (by simp) ?_
      apply parseAddress_of_parseCodecs
      intro fuel
      have hcodecs : pre ++ front ++ (blanks k ++ codecSplitter :: (rest ++ post)) =
          pre ++ (front ++ (blanks k ++ codecSplitter :: (rest ++ post))) := List.append_assoc _ _ _
      -- the blanks are the name of a codec that is not known
      refine parseCodecs_rejects hcodecs hfront (notMem_blanks (by decide)) hblanks ?_ hnull ?_
      · simp only [List.length_append, List.length_cons]
        omega
      · intro addr
        rw [length_blanks, ← List.length_append]
        exact ⟨_, codecParse_blanks rfl addr⟩
  | @properties pre front host post h hfront hplus hbracket =>
      have htext : front ++ (host ++ [propertiesBeginSymbol]) ++
          (blanks k ++ [propertiesEndSymbol]) =
            front ++ (host ++ propertiesBeginSymbol :: (blanks k ++ [propertiesEndSymbol])) := by
        simp
      have hsplit : pre ++ (front ++ (host ++ [propertiesBeginSymbol])) ++
          (blanks k ++ propertiesEndSymbol :: post) = pre ++ (front ++ (host ++
            propertiesBeginSymbol :: (blanks k ++ [propertiesEndSymbol])) ++ post) := by
        simp
      have hlength : (front ++ (host ++ propertiesBeginSymbol ::
          (blanks k ++ [propertiesEndSymbol]))).length =
            front.length + (host.length + (k + 2)) := by
        simp [length_blanks]
      refine addresses_eq_none hsplit hnull (htext ▸ h.insert) (by simp) ?_
      rw [hlength]
      rw [List.append_assoc] at hsplit
      exact parseAddress_blankProperties ((List.append_assoc _ _ _).trans hsplit) hfront hplus
        hbracket hk
  | @codecProperties pre front name rest post h hfront hplus hbracket =>
      have hsplit : pre ++ (front ++ (name ++ [propertiesBeginSymbol])) ++
          (blanks k ++ propertiesEndSymbol :: codecSplitter :: (rest ++ post)) =
            pre ++ (front ++ (name ++ [propertiesBeginSymbol]) ++
              (blanks k ++ propertiesEndSymbol :: codecSplitter :: rest) ++ post) := by
        simp
      refine addresses_eq_none hsplit hnull h.insert (by simp) ?_
      apply parseAddress_of_parseCodecs
      intro fuel
      have hcodecs : pre ++ (front ++ (name ++ [propertiesBeginSymbol])) ++
          (blanks k ++ propertiesEndSymbol :: codecSplitter :: (rest ++ post)) =
            pre ++ (front ++ ((name ++ propertiesBeginSymbol ::
              (blanks k ++ [propertiesEndSymbol])) ++ codecSplitter :: (rest ++ post))) := by
        simp
      -- only `gzip` would leave the properties unread
      refine parseCodecs_rejects hcodecs hfront ?_ (by simp) ?_ hnull ?_
      · rw [List.mem_append, List.mem_cons, List.mem_append, not_or, not_or, not_or]
        exact ⟨hplus, by decide, notMem_blanks (by decide), by decide⟩
      · simp only [List.length_append, List.length_cons, List.length_nil]
        omega
      · intro addr
        have hcodec : pre ++ (front ++ (name ++ [propertiesBeginSymbol])) ++
            (blanks k ++ propertiesEndSymbol :: codecSplitter :: (rest ++ post)) =
              (pre ++ front) ++ (name ++ propertiesBeginSymbol ::
                (blanks k ++ propertiesEndSymbol :: (codecSplitter :: (rest ++ post)))) := by
          simp
        have hlength : (name ++ propertiesBeginSymbol ::
            (blanks k ++ [propertiesEndSymbol])).length = name.length + (k + 2) := by
          simp [length_blanks]
        rw [hlength, ← List.length_append]
        exact codecParse_blankProperties hcodec hbracket hread hk addr

/-! ### What blanks change -/

/-- All characters of a range are blanks. -/
def IsBlankRange (s : List UInt8) (first last : ℕ) : Prop :=
  ∀ i, first ≤ i → i < last → charAt s i = whitespace

/-- The test for empty ranges finds those of blanks, and the result is the one without the blanks
in empty lists. -/
structure IgnoresBlanks (status : CodecStatus) (s : List UInt8) : Prop where
  isEmptyEntry_iff : ∀ first last, first ≤ last → last ≤ s.length →
    (isEmptyEntry s first last = true ↔ IsBlankRange s first last)
  unchanged : ∀ pre post k list, s = pre ++ (blanks k ++ post) → InEmptyList list pre post →
    addresses status s = addresses status (pre ++ post)

/-- If the test finds all ranges of blanks, there are blanks up to the end. -/
theorem charAt_of_isEmptyEntry_iff
    (h : ∀ first last, first ≤ last → last ≤ s.length →
      (isEmptyEntry s first last = true ↔ IsBlankRange s first last))
    {p : ℕ} (hp : charAt s p = whitespace) (n : ℕ) (hn : p + n ≤ s.length) :
    charAt s (p + n) = whitespace := by
  induction n with
  | zero => exact hp
  | succ n ih =>
      have hblank : IsBlankRange s (p + n) (p + n + 1) := by
        intro i hfirst hlast
        obtain rfl : i = p + n := by omega
        exact ih (by omega)
      have hempty := (h (p + n) (p + n + 1) (by omega) hn).mpr hblank
      rw [isEmptyEntry_eq_true_iff] at hempty
      exact hempty.resolve_left (by omega) (p + n + 1) (by omega) le_rfl

theorem notMem_of_isEmptyEntry_iff
    (h : ∀ first last, first ≤ last → last ≤ s.length →
      (isEmptyEntry s first last = true ↔ IsBlankRange s first last)) : whitespace ∉ s := by
  intro hmem
  obtain ⟨p, hp, hat⟩ := List.mem_iff_getElem.mp hmem
  rw [← charAt_of_lt hp] at hat
  have hend := charAt_of_isEmptyEntry_iff h hat (s.length - p) (by omega)
  rw [Nat.add_sub_cancel' hp.le, charAt_length] at hend
  exact absurd hend (by decide)

theorem charAt_ne_of_notMem (h : whitespace ∉ s) (i : ℕ) : charAt s i ≠ whitespace := by
  intro hat
  have hlt : i < s.length := lt_length_of_charAt (by rw [hat]; decide)
  rw [charAt_of_lt hlt] at hat
  exact h (hat ▸ List.getElem_mem hlt)

theorem ignoresBlanks_of_notMem (h : whitespace ∉ s) : IgnoresBlanks status s := by
  constructor
  · intro first last hle _
    rw [isEmptyEntry_of_ne (charAt_ne_of_notMem h last), decide_eq_true_iff]
    constructor
    · intro hge i hfirst hlast
      omega
    · intro hblank
      by_contra hlt
      exact charAt_ne_of_notMem h first (hblank first le_rfl (by omega))
  · rintro pre post k list rfl -
    cases k with
    | zero => rfl
    | succ k =>
        apply absurd _ h
        rw [List.mem_append, List.mem_append]
        exact Or.inr (Or.inl List.mem_cons_self)

/-- Blanks in an empty list that is read leave the result only if there is none. -/
theorem addresses_eq_iff {list : BlankList} (hlist : InEmptyList list pre post)
    (hread : list.IsRead) (hk : 0 < k) (hnull : nullSymbol ∉ pre ++ (blanks k ++ post)) :
    addresses status (pre ++ (blanks k ++ post)) = addresses status (pre ++ post) ↔
      addresses status (pre ++ (blanks k ++ post)) = none ∧
        addresses status (pre ++ post) = none := by
  constructor
  · intro hsame
    cases hnone : addresses status (pre ++ (blanks k ++ post)) with
    | none => exact ⟨rfl, hsame.symm.trans hnone⟩
    | some result =>
        by_cases hentry : list = .entry
        · subst hentry
          cases hlist with
          | entry h =>
              exact absurd rfl (not_both_accepted_entry hk h hnull (hsame.symm.trans hnone) hnone)
        · exact nomatch (addresses_insert hlist hread hentry hk hnull).symm.trans hnone
  · rintro ⟨hleft, hright⟩
    rw [hleft, hright]

/-- Blanks are ignored only where there are none; and if there are blanks in an empty list that is
read, the result is the one without them only if both collections are not accepted. -/
theorem ignoresBlanks_iff (status : CodecStatus) (collection : Collection) :
    (IgnoresBlanks status collection.val ↔ whitespace ∉ collection.val) ∧
      ∀ pre post k list, collection.val = pre ++ (blanks k ++ post) → InEmptyList list pre post →
        list.IsRead →
        (addresses status collection.val = addresses status (pre ++ post) ↔
          k = 0 ∨ addresses status collection.val = none ∧
            addresses status (pre ++ post) = none) := by
  constructor
  · exact ⟨fun h => notMem_of_isEmptyEntry_iff h.isEmptyEntry_iff, ignoresBlanks_of_notMem⟩
  · intro pre post k list hcollection hlist hread
    have hnull := collection.property
    rw [hcollection] at hnull ⊢
    rcases Nat.eq_zero_or_pos k with rfl | hk
    · exact iff_of_true rfl (Or.inl rfl)
    · rw [addresses_eq_iff hlist hread hk hnull]
      exact ⟨Or.inr, fun h => h.resolve_left hk.ne'⟩

/-- The empty entry is skipped, the one with a blank is an address. -/
theorem not_ignoresBlanks_blankEntry :
    ¬ IgnoresBlanks ⟨false, false⟩ (chars ['(', ' ', ')', '(', 'a', ')']) := by
  intro h
  have hsame := h.unchanged (chars ['(']) (chars [')', '(', 'a', ')']) 1 .entry rfl
    (.entry (@IsEntryText.brackets [] [] [] _ (Or.inl rfl) (by decide) (by decide)))
  have hlength := congrArg (Option.map List.length) hsame
  exact absurd hlength (by decide)

end DxFeed.AddressParser
