import DxFeed.AddressParser.Watched
import Mathlib.Logic.Relation

/-!
# The bounds of the address parser

* `IsEntry`, `IsProperties`: the ranges that the splitters return;
* `Keeps`: a part of the parser stays inside of the string and ends;
* `StaysInString`, `NoBareScheme`: all notes are inside, and no host that the parser comes to is a
  scheme with nothing behind it;
* `staysInString_iff`.
-/

namespace DxFeed.AddressParser

open CString Noted
open Watched (Parse)

variable {s : List UInt8} {status : CodecStatus}

/-- The call fails because of the string. -/
def Failure.IsRejection (e : Failure) : Prop :=
  e ≠ .negativeLength ∧ e ≠ .outOfFuel

/-- The notes are inside, and an error is a rejection of the string. -/
abbrev Keeps {α : Type} (P : α → Prop) (x : Parse α) : Prop :=
  Meets Access.Inside Failure.IsRejection P x

theorem isRejection_invalidFuncParam : Failure.invalidFuncParam.IsRejection := by
  exact ⟨by decide, by decide⟩

theorem isRejection_invalidFunctionArg : Failure.invalidFunctionArg.IsRejection := by
  exact ⟨by decide, by decide⟩

/-! ### Searching -/

theorem keeps_deref {pos : ℤ} (hpos : 0 ≤ pos) (hlength : pos ≤ s.length) :
    Keeps (· = charAt s pos.toNat) (Watched.deref s pos) :=
  Meets.note_bind ⟨hpos, hlength⟩ (meets_pure rfl)

theorem keeps_between {first : ℕ} {last : ℤ} (hle : first ≤ last) (hlength : last ≤ s.length) :
    Keeps (fun range => range.first = first ∧ (range.size : ℤ) = last - first)
      (Watched.between s first last) :=
  Meets.note_bind ⟨by omega, hle, hlength⟩ (meets_pure ⟨rfl, by dsimp only; omega⟩)

theorem keeps_ansiCreateStringSrcLen {src : ℕ} {len : ℤ} (hlen : 0 ≤ len)
    (hlength : src + len ≤ s.length) :
    Keeps (· = ansiCreateStringSrcLen s src len.toNat) (Watched.ansiCreateStringSrcLen s src len) :=
  Meets.note_bind ⟨by omega, hlen, hlength⟩ (meets_pure rfl)

theorem keeps_isEmptyEntry {first : ℕ} {last : ℤ} (hlength : last ≤ s.length) :
    Keeps (fun empty => empty = false → first < last) (Watched.isEmptyEntry s first last) := by
  unfold Watched.isEmptyEntry
  split
  · exact meets_pure nofun
  · exact Meets.note_bind ⟨by omega, by omega, hlength⟩ (meets_pure fun _ => by omega)

theorem keeps_findFirst {first : ℕ} {last : ℤ} {ch : UInt8} (hle : first ≤ last)
    (hlength : last ≤ s.length) :
    Keeps (· = findFirst s first last.toNat ch) (Watched.findFirst s first last ch) :=
  Meets.note_bind ⟨by omega, hle, hlength⟩ (meets_pure rfl)

theorem findLast_of_le {first last : ℕ} {ch : UInt8} (hle : first ≤ last) :
    ∃ found, findLast s first last ch = .ok found ∧
      ∀ pos, found = some pos → first ≤ pos ∧ pos < last := by
  unfold findLast
  rw [if_neg (by omega)]
  cases hsubstr : ansiCreateStringSrcLen s first (last - first) with
  | none => exact ⟨none, rfl, nofun⟩
  | some substr =>
      refine ⟨_, rfl, ?_⟩
      intro pos hpos
      rw [Option.map_eq_some_iff] at hpos
      obtain ⟨offset, hoffset, rfl⟩ := hpos
      have hlt := strrchr_lt hoffset
      unfold ansiCreateStringSrcLen at hsubstr
      split_ifs at hsubstr
      obtain rfl := Option.some.inj hsubstr
      rw [List.length_take] at hlt
      omega

theorem keeps_findLast {first : ℕ} {last : ℤ} {ch : UInt8} (hle : first ≤ last)
    (hlength : last ≤ s.length) :
    Keeps (fun found => ∀ pos, found = some pos → first ≤ pos ∧ pos < last.toNat)
      (Watched.findLast s first last ch) := by
  obtain ⟨found, hfound, hpos⟩ : ∃ found, findLast s first last.toNat ch = .ok found ∧
      ∀ pos, found = some pos → first ≤ pos ∧ pos < last.toNat := findLast_of_le (by omega)
  refine Meets.note_bind ⟨by omega, by omega, by omega⟩ ?_
  rw [hfound]
  exact meets_lift nofun fun _ ha => Except.ok.inj ha ▸ hpos

theorem keeps_findFirstOfValues {first : ℕ} {last : ℤ} {ch₁ ch₂ : UInt8} (hle : first ≤ last)
    (hlength : last ≤ s.length) :
    Keeps (· = findFirstOfValues s first last.toNat ch₁ ch₂)
      (Watched.findFirstOfValues s first last ch₁ ch₂) := by
  unfold Watched.findFirstOfValues findFirstOfValues
  refine (keeps_findFirst hle hlength).bind ?_
  rintro _ rfl
  refine (keeps_findFirst hle hlength).bind ?_
  rintro _ rfl
  cases findFirst s first last.toNat ch₁ with
  | none => exact meets_pure rfl
  | some firstPos =>
      cases findFirst s first last.toNat ch₂ with
      | none => exact meets_pure rfl
      | some secondPos => exact meets_pure rfl

theorem keeps_hasNext {next : ℕ} (hlength : next ≤ s.length) :
    Keeps (· = hasNext s (some next)) (Watched.hasNext s (some next)) := by
  refine (keeps_deref (by omega) (by omega)).bind ?_
  rintro _ rfl
  exact meets_pure rfl

/-- The pointer may be `NULL`. -/
theorem keeps_hasNext_option {next : Option ℕ} (hlength : ∀ pos, next = some pos → pos ≤ s.length) :
    Keeps (· = hasNext s next) (Watched.hasNext s next) := by
  cases next with
  | none => exact meets_pure rfl
  | some pos => exact keeps_hasNext (hlength pos rfl)

theorem lt_length_of_hasNext {next : ℕ} (h : hasNext s (some next) = true) : next < s.length :=
  lt_length_of_charAt (bne_iff_ne.mp h)

/-! ### Entries and codecs -/

/-- A range with a character behind it that is no `+`. -/
structure IsEntry (s : List UInt8) (entry : Range) : Prop where
  size_pos : 0 < entry.size
  le_length : entry.first + entry.size ≤ s.length
  closed : charAt s (entry.first + entry.size) ≠ codecSplitter

/-- The range up to a character that is no `+`. -/
theorem isEntry_of_range {entry : Range} {first last : ℕ}
    (hrange : entry.first = first ∧ (entry.size : ℤ) = last - first) (hlt : first < last)
    (hlength : last ≤ s.length) (hclosed : charAt s last ≠ codecSplitter) : IsEntry s entry := by
  obtain ⟨hfirst, hsize⟩ := hrange
  have hend : entry.first + entry.size = last := by omega
  exact ⟨by omega, hend ▸ hlength, hend ▸ hclosed⟩

theorem keeps_getNextEntry {fuel next : ℕ} (hnext : next ≤ s.length)
    (hfuel : s.length - next < fuel) :
    Keeps (fun found => next ≤ found.2 ∧ found.2 ≤ s.length ∧
        (hasNext s (some found.2) = true → next < found.2) ∧
        ∀ entry, found.1 = some entry → IsEntry s entry)
      (Watched.getNextEntry s fuel next) := by
  induction fuel generalizing next with
  | zero => omega
  | succ fuel ih =>
      unfold Watched.getNextEntry
      refine (keeps_hasNext hnext).bind ?_
      rintro _ rfl
      cases hmore : hasNext s (some next) with
      | false =>
          refine meets_pure ⟨le_rfl, hnext, ?_, by simp⟩
          intro htrue
          exact absurd (hmore.symm.trans htrue) Bool.false_ne_true
      | true =>
          have hlt := lt_length_of_hasNext hmore
          rw [if_pos rfl]
          cases hfirst : strchr s next entryBeginSymbol with
          | none =>
              cases hlast : strchr s next entryEndSymbol with
              | none =>
                  refine (keeps_isEmptyEntry (by omega)).bind ?_
                  rintro (_ | _) hempty
                  · rw [if_neg (by decide)]
                    refine (keeps_between (by omega) (by omega)).bind ?_
                    intro range hrange
                    refine meets_pure ⟨by omega, by omega, fun _ => by omega, ?_⟩
                    rintro _ ⟨⟩
                    have hend : next + (s.length - next) = s.length := by omega
                    rw [hend] at hrange
                    refine isEntry_of_range hrange hlt le_rfl ?_
                    rw [charAt_length]
                    decide
                  · exact meets_pure ⟨by omega, by omega, fun _ => by omega, by simp⟩
              | some last => exact meets_fail isRejection_invalidFuncParam
          | some first =>
              cases hlast : strchr s next entryEndSymbol with
              | none => exact meets_fail isRejection_invalidFuncParam
              | some last =>
                  obtain ⟨hle, hlength, hat, -⟩ := strchr_eq_some_iff.mp hlast
                  refine (keeps_isEmptyEntry (by omega)).bind ?_
                  rintro (_ | _) hempty
                  · have hfirstLast := hempty rfl
                    rw [if_neg (by decide)]
                    refine (keeps_between (by omega) (by omega)).bind ?_
                    intro range hrange
                    refine meets_pure ⟨by omega, by omega, fun _ => by omega, ?_⟩
                    rintro _ ⟨⟩
                    refine isEntry_of_range hrange (by omega) (by omega) ?_
                    rw [hat]
                    decide
                  · rw [if_pos rfl]
                    refine (ih (by omega) (by omega)).mono ?_
                    rintro found ⟨hmoves, hfound, -, hentry⟩
                    exact ⟨by omega, hfound, fun _ => by omega, hentry⟩

/-- The splitter of codecs stays in front of the end of the entry, or is at the end of the
string. -/
theorem keeps_getNextCodec {nextEnd fuel next : ℕ} (hend : nextEnd ≤ s.length)
    (hclosed : charAt s nextEnd ≠ codecSplitter) (hnext : next ≤ nextEnd ∨ next = s.length)
    (hfuel : s.length - next < fuel) :
    Keeps (fun found => next ≤ found.2 ∧ (found.2 ≤ nextEnd ∨ found.2 = s.length) ∧
        (hasNext s (some found.2) = true → next < found.2) ∧
        ∀ codec, found.1 = some codec → codec.first + codec.size ≤ s.length)
      (Watched.getNextCodec s nextEnd fuel next) := by
  induction fuel generalizing next with
  | zero => omega
  | succ fuel ih =>
      unfold Watched.getNextCodec
      refine (keeps_hasNext (by omega)).bind ?_
      rintro _ rfl
      cases hmore : hasNext s (some next) with
      | false =>
          refine meets_pure ⟨le_rfl, hnext, ?_, by simp⟩
          intro htrue
          exact absurd (hmore.symm.trans htrue) Bool.false_ne_true
      | true =>
          have hlt := lt_length_of_hasNext hmore
          rw [if_pos rfl]
          refine (keeps_findFirst (by omega) (by omega)).bind ?_
          rintro _ rfl
          cases hlast : findFirst s next (nextEnd : ℤ).toNat codecSplitter with
          | none => exact meets_pure ⟨hlt.le, Or.inr rfl, fun _ => hlt, by simp⟩
          | some last =>
              obtain ⟨hle, hlast, hlength, hat⟩ := findFirst_eq_some hlast
              have hne : last ≠ nextEnd := by
                rintro rfl
                exact hclosed hat
              refine (keeps_isEmptyEntry (by omega)).bind ?_
              rintro (_ | _) hempty
              · rw [if_neg (by decide)]
                refine (keeps_between (by omega) (by omega)).bind ?_
                rintro range ⟨hrange, hsize⟩
                refine meets_pure ⟨by omega, by omega, fun _ => by omega, ?_⟩
                rintro _ ⟨⟩
                omega
              · rw [if_pos rfl]
                refine (ih (by omega) (by omega)).mono ?_
                rintro found ⟨hmoves, hfound, -, hcodec⟩
                exact ⟨by omega, hfound, fun _ => by omega, hcodec⟩

theorem keeps_getCodecName {codec codecSize : ℕ} (hlength : codec + codecSize ≤ s.length) :
    Keeps (· ≤ codecSize) (Watched.getCodecName s codec codecSize) := by
  unfold Watched.getCodecName
  split
  · exact meets_pure (by omega)
  · refine Meets.note_bind ⟨by omega, by omega⟩ ?_
    cases hlast : strchr s codec propertiesBeginSymbol with
    | none =>
        refine (keeps_between (by omega) (by omega)).bind ?_
        rintro range ⟨-, hsize⟩
        exact meets_pure (by omega)
    | some last =>
        obtain ⟨hle, -, -, -⟩ := strchr_eq_some_iff.mp hlast
        dsimp only
        split
        · refine (keeps_between (by omega) (by omega)).bind ?_
          rintro range ⟨-, hsize⟩
          exact meets_pure (by omega)
        · refine (keeps_between (by omega) (by omega)).bind ?_
          rintro range ⟨-, hsize⟩
          exact meets_pure (by omega)

/-! ### Properties -/

/-- What is left of the properties ends in a bracket. -/
structure IsProperties (s : List UInt8) (props : Properties) : Prop where
  size_le : props.2 ≤ s.length
  le_length : ∀ next, props.1 = some next → next + props.2 ≤ s.length
  closed : ∀ next, props.1 = some next → 0 < props.2 →
    charAt s (next + props.2 - 1) = propertiesEndSymbol

theorem isProperties_none : IsProperties s (none, 0) :=
  ⟨Nat.zero_le _, nofun, nofun⟩

/-- The range between two brackets, or none if it is empty. -/
theorem keeps_bracketed {first : ℕ} {last : ℤ} (hlength : last < s.length)
    (hclosed : charAt s last.toNat = propertiesEndSymbol) :
    Keeps (IsProperties s) (do
      if ← Watched.isEmptyEntry s first last then return (none, 0)
      else return (some first, (← Watched.between s first (last + 1)).size)) := by
  refine (keeps_isEmptyEntry (by omega)).bind ?_
  rintro (_ | _) hempty
  · have hlt := hempty rfl
    rw [if_neg (by decide)]
    refine (keeps_between (by omega) (by omega)).bind ?_
    rintro range ⟨-, hsize⟩
    have hend : first + range.size - 1 = last.toNat := by omega
    refine meets_pure ⟨by dsimp only; omega, ?_, ?_⟩
    · rintro _ ⟨⟩
      dsimp only
      omega
    · rintro _ ⟨⟩ -
      exact hend ▸ hclosed
  · exact meets_pure isProperties_none

theorem keeps_getCodecProperties {codec codecSize : ℕ} (hlength : codec + codecSize ≤ s.length) :
    Keeps (IsProperties s) (Watched.getCodecProperties s codec codecSize) := by
  unfold Watched.getCodecProperties
  refine (keeps_getCodecName hlength).bind ?_
  intro nameSize hname
  split
  · exact meets_pure isProperties_none
  · refine (keeps_deref (by omega) (by omega)).bind ?_
    rintro _ rfl
    split
    · exact meets_fail isRejection_invalidFuncParam
    · refine (keeps_deref (by omega) (by omega)).bind ?_
      rintro _ rfl
      split
      · exact meets_fail isRejection_invalidFuncParam
      · rename_i hlast
        exact keeps_bracketed (by omega) (not_not.mp hlast)

/-- The bracket that ends the properties is not what a property starts with. -/
theorem IsProperties.two_le {next size : ℕ} (h : IsProperties s (some next, size)) (hpos : 0 < size)
    (hch : charAt s next ≠ propertiesEndSymbol) : 2 ≤ size := by
  by_contra hone
  have hnext : next + size - 1 = next := by omega
  have hend := h.closed next rfl hpos
  dsimp only at hend
  rw [hnext] at hend
  exact hch hend

/-- What is behind a property is up to the same bracket. -/
theorem IsProperties.rest {next size next' size' : ℕ} (h : IsProperties s (some next, size))
    (hpos : 0 < size) (hsame : next' + size' = next + size) :
    IsProperties s (some next', size') := by
  have hlength := h.le_length next rfl
  refine ⟨by dsimp only at hlength ⊢; omega, ?_, ?_⟩
  · rintro _ ⟨⟩
    exact hsame ▸ hlength
  · rintro _ ⟨⟩ -
    exact hsame ▸ h.closed next rfl hpos

/-- The splitter of properties leaves fewer of them, up to the bracket. -/
theorem keeps_getNextProperty {fuel : ℕ} {props : Properties} (hprops : IsProperties s props)
    (hfuel : props.2 < fuel) :
    Keeps (fun found => IsProperties s found.2 ∧
        ((hasNext s found.2.1 && found.2.2 > 0) = true → found.2.2 < props.2) ∧
        ∀ str, found.1 = some str → str.first + str.size ≤ s.length)
      (Watched.getNextProperty s fuel props) := by
  induction fuel generalizing props with
  | zero => omega
  | succ fuel ih =>
      obtain ⟨_ | next, nextSize⟩ := props
      · exact meets_pure ⟨hprops, by simp [hasNext], by simp⟩
      · have hlength := hprops.le_length next rfl
        dsimp only at hlength hfuel
        unfold Watched.getNextProperty
        refine (keeps_hasNext (by omega)).bind ?_
        rintro _ rfl
        cases hmore : hasNext s (some next) && nextSize > 0 with
        | false =>
            refine meets_pure ⟨hprops, ?_, by simp⟩
            intro htrue
            exact absurd (hmore.symm.trans htrue) Bool.false_ne_true
        | true =>
            obtain ⟨-, hsome⟩ := Bool.and_eq_true_iff.mp hmore
            have hsome := of_decide_eq_true hsome
            rw [if_pos rfl]
            refine (keeps_deref (by omega) (by omega)).bind ?_
            rintro _ rfl
            split
            · rename_i hch
              have htwo : 2 ≤ nextSize := by
                apply hprops.two_le hsome
                rintro hend
                rw [Int.toNat_natCast, hend] at hch
                exact absurd hch (by decide)
              refine (keeps_findFirstOfValues (by omega) (by omega)).bind ?_
              rintro _ rfl
              cases hlast : findFirstOfValues s (next + 1)
                  ((next + nextSize : ℕ) - 1 : ℤ).toNat propertiesEndSymbol propertiesSplitter with
              | none => exact meets_fail isRejection_invalidFuncParam
              | some last =>
                  obtain ⟨hle, hlast, -, -⟩ := findFirstOfValues_eq_some hlast
                  refine (keeps_deref (by omega) (by omega)).bind ?_
                  rintro _ rfl
                  dsimp only
                  generalize hnext' : (if charAt s (last : ℤ).toNat = propertiesEndSymbol
                    then last + 1 else last) = next'
                  have hbetween : next + 1 ≤ next' ∧ next' ≤ next + nextSize := by
                    rw [← hnext']
                    split
                    · omega
                    · omega
                  refine (keeps_between (by omega) (by omega)).bind ?_
                  rintro rest ⟨-, hrest⟩
                  have hprops' : IsProperties s (some next', rest.size) :=
                    hprops.rest hsome (by omega)
                  refine (keeps_isEmptyEntry (by omega)).bind ?_
                  rintro (_ | _) hempty
                  · have hlt := hempty rfl
                    rw [if_neg (by decide)]
                    refine (keeps_between (by omega) (by omega)).bind ?_
                    rintro range ⟨hrange, hrangeSize⟩
                    refine meets_pure ⟨hprops', fun _ => by dsimp only; omega, ?_⟩
                    rintro _ ⟨⟩
                    omega
                  -- an empty property is skipped: the next one is behind its separator
                  · rw [if_pos rfl]
                    refine (ih hprops' (by dsimp only; omega)).mono ?_
                    rintro found ⟨hfound, hfewer, hstr⟩
                    refine ⟨hfound, fun hmore' => ?_, hstr⟩
                    have hlt := hfewer hmore'
                    dsimp only at hlt ⊢
                    omega
            · exact meets_fail isRejection_invalidFuncParam

theorem keeps_parseProperty {str : Range} (hlength : str.first + str.size ≤ s.length) :
    Keeps (fun _ => True) (Watched.parseProperty s str) := by
  unfold Watched.parseProperty
  refine (keeps_findFirst (by omega) (by omega)).bind ?_
  rintro _ rfl
  cases hfound : findFirst s str.first ((str.first + str.size : ℕ) : ℤ).toNat
      propertyValueSplitter with
  | none => exact meets_fail isRejection_invalidFunctionArg
  | some splitter =>
      obtain ⟨hle, hlast, -, -⟩ := findFirst_eq_some hfound
      refine (keeps_isEmptyEntry (by omega)).bind ?_
      rintro (_ | _) hkey
      · have hkeyEnd := hkey rfl
        rw [if_neg (by decide)]
        refine (keeps_isEmptyEntry (by omega)).bind ?_
        rintro (_ | _) hvalue
        · have hvalueEnd := hvalue rfl
          rw [if_neg (by decide)]
          refine (keeps_ansiCreateStringSrcLen (by omega) (by omega)).bind ?_
          rintro _ rfl
          refine (keeps_ansiCreateStringSrcLen (by omega) (by omega)).bind ?_
          rintro _ rfl
          split
          · exact meets_pure trivial
          · exact meets_fail ⟨by decide, by decide⟩
        · exact meets_fail isRejection_invalidFunctionArg
      · exact meets_fail isRejection_invalidFunctionArg

theorem keeps_parseProperties {α : Type} {assign : α → List UInt8 × List UInt8 → Except Failure α}
    (hassign : ∀ result prop e, assign result prop = .error e → e.IsRejection) {fuel : ℕ}
    {props : Properties} (hprops : IsProperties s props) (hfuel : props.2 < fuel)
    (result : α) :
    Keeps (fun _ => True) (Watched.parseProperties s assign fuel props result) := by
  induction fuel generalizing props result with
  | zero => omega
  | succ fuel ih =>
      unfold Watched.parseProperties
      refine (keeps_getNextProperty hprops (Nat.lt_succ_of_le hprops.size_le)).bind ?_
      rintro ⟨str, next⟩ ⟨hnext, hfewer, hstr⟩
      dsimp only at hnext hfewer hstr
      have hrest : ∀ result, Keeps (fun _ => True) (do
          if (← Watched.hasNext s next.1) && next.2 > 0 then
            Watched.parseProperties s assign fuel next result
          else return result) := by
        intro result
        refine (keeps_hasNext_option fun pos hpos => ?_).bind ?_
        · have hlength := hnext.le_length pos hpos
          omega
        · rintro _ rfl
          split
          · rename_i hmore
            exact ih hnext (by have hlt := hfewer hmore; omega) result
          · exact meets_pure trivial
      cases str with
      | none => exact hrest result
      | some str =>
          refine (keeps_parseProperty (hstr str rfl)).bind ?_
          intro prop _
          exact (meets_lift (hassign result prop) fun _ _ => trivial).bind fun result _ =>
            hrest result

/-! ### Codecs -/

theorem isRejection_assignTls (tls : CodecTls) (prop : List UInt8 × List UInt8) (e : Failure)
    (h : assignTls tls prop = .error e) : e.IsRejection := by
  unfold assignTls at h
  split_ifs at h
  obtain rfl := Except.error.inj h
  exact isRejection_invalidFunctionArg

theorem isRejection_assignAddress (addr : Address) (prop : List UInt8 × List UInt8) (e : Failure)
    (h : assignAddress addr prop = .error e) : e.IsRejection := by
  unfold assignAddress at h
  split_ifs at h
  obtain rfl := Except.error.inj h
  exact isRejection_invalidFunctionArg

theorem keeps_codecTlsParser {codec : Range} (hlength : codec.first + codec.size ≤ s.length)
    (addr : Address) : Keeps (fun _ => True) (Watched.codecTlsParser s codec addr) := by
  unfold Watched.codecTlsParser
  refine (keeps_getCodecProperties hlength).bind ?_
  intro props hprops
  refine (keeps_parseProperties isRejection_assignTls hprops (Nat.lt_succ_of_le hprops.size_le)
    _).bind ?_
  intro tls _
  exact meets_pure trivial

theorem keeps_codecParse {codec : Range} (hlength : codec.first + codec.size ≤ s.length)
    (addr : Address) : Keeps (fun _ => True) (Watched.codecParse status s codec addr) := by
  unfold Watched.codecParse
  refine (keeps_getCodecName hlength).bind ?_
  intro nameSize _
  dsimp only
  split
  · exact meets_fail ⟨by decide, by decide⟩
  · rename_i info hinfo
    split
    · have hmem := List.mem_of_find?_eq_some hinfo
      simp only [Watched.codecs, List.mem_cons, List.not_mem_nil, or_false] at hmem
      rcases hmem with rfl | rfl | rfl
      · exact keeps_codecTlsParser hlength addr
      · exact keeps_codecTlsParser hlength addr
      · exact meets_lift nofun fun _ _ => trivial
    · exact meets_fail ⟨by decide, by decide⟩

theorem keeps_parseCodecs {nextEnd fuel next : ℕ} (hend : nextEnd ≤ s.length)
    (hclosed : charAt s nextEnd ≠ codecSplitter) (hnext : next ≤ nextEnd ∨ next = s.length)
    (hfuel : s.length - next < fuel) (addr : Address) :
    Keeps (fun _ => True) (Watched.parseCodecs status s nextEnd fuel next addr) := by
  induction fuel generalizing next addr with
  | zero => omega
  | succ fuel ih =>
      unfold Watched.parseCodecs
      refine (keeps_getNextCodec hend hclosed hnext (by omega)).bind ?_
      rintro ⟨codec, next'⟩ ⟨hmoves, hnext', hlt, hcodec⟩
      dsimp only at hmoves hnext' hlt hcodec
      have hrest : ∀ addr, Keeps (fun _ => True) (do
          if ← Watched.hasNext s (some next') then
            Watched.parseCodecs status s nextEnd fuel next' addr
          else return addr) := by
        intro addr
        refine (keeps_hasNext (by omega)).bind ?_
        rintro _ rfl
        split
        · rename_i hmore
          have hlength := lt_length_of_hasNext hmore
          have hless := hlt hmore
          exact ih hnext' (by omega) addr
        · exact meets_pure trivial
      cases codec with
      | none => exact hrest addr
      | some codec => exact (keeps_codecParse (hcodec codec rfl) addr).bind fun addr _ => hrest addr

/-! ### Hosts -/

/-- The host is only a scheme. -/
def IsBareScheme (text : List UInt8) : Prop :=
  text.map tolower ∈ schemes

instance : DecidablePred IsBareScheme :=
  fun _ => inferInstanceAs (Decidable (_ ∈ schemes))

theorem not_isBareScheme_nil : ¬ IsBareScheme [] := by
  decide

/-- The text of a range. -/
def Range.text (s : List UInt8) (range : Range) : List UInt8 :=
  (s.drop range.first).take range.size

/-- The text of the host of an entry. -/
def hostText (s : List UInt8) (entry : Range) : List UInt8 :=
  match getHostPortString s entry.first entry.size with
  | .ok host => host.text s
  | .error _ => []

theorem startsWithNoCase_eq (first second : List UInt8) :
    startsWithNoCase first second =
      ((first.map tolower).take second.length == second.map tolower) := by
  rw [startsWithNoCase, List.map_take]

/-- A scheme is found before any other one that it starts with. -/
theorem find_schemes (scheme : List UInt8) (h : scheme ∈ schemes) :
    schemes.find? (fun other => scheme.take other.length == other.map tolower) = some scheme := by
  revert scheme
  decide

theorem hostStart_of_isBareScheme {copy : List UInt8} (h : IsBareScheme copy) :
    hostStart copy = copy.length := by
  have hfind : schemes.find? (startsWithNoCase copy) = some (copy.map tolower) := by
    rw [← find_schemes _ h]
    congr 1
    funext other
    exact startsWithNoCase_eq copy other
  unfold hostStart
  rw [hfind]
  exact List.length_map _

theorem map_tolower_schemes (scheme : List UInt8) (h : scheme ∈ schemes) :
    scheme.map tolower = scheme := by
  revert scheme
  decide

/-- Behind a scheme there is something, if the text is not only the scheme. -/
theorem hostStart_lt {copy : List UInt8} (hne : copy ≠ []) (h : ¬ IsBareScheme copy) :
    hostStart copy < copy.length := by
  unfold hostStart
  cases hfind : schemes.find? (startsWithNoCase copy) with
  | none => exact List.length_pos_iff.mpr hne
  | some scheme =>
      have hmem := List.mem_of_find?_eq_some hfind
      have hstarts := List.find?_some hfind
      rw [startsWithNoCase_eq, beq_iff_eq, map_tolower_schemes scheme hmem] at hstarts
      have hlength := congrArg List.length hstarts
      rw [List.length_take, List.length_map] at hlength
      by_contra hge
      dsimp only at hge
      apply h
      have hall : (copy.map tolower).take scheme.length = copy.map tolower := by
        apply List.take_of_length_le
        rw [List.length_map]
        omega
      unfold IsBareScheme
      rw [← hall, hstarts]
      exact hmem

theorem ansiCreateStringSrcLen_eq_some {src len : ℕ} {copy : List UInt8}
    (hlength : src + len ≤ s.length) (h : ansiCreateStringSrcLen s src len = some copy) :
    copy = Range.text s ⟨src, len⟩ ∧ copy.length = len ∧ len ≠ 0 := by
  unfold ansiCreateStringSrcLen at h
  split_ifs at h with hzero
  obtain rfl := Option.some.inj h
  refine ⟨rfl, ?_, hzero⟩
  rw [List.length_take, List.length_drop]
  omega

theorem keeps_parseHostPort {host : Range} (hlength : host.first + host.size ≤ s.length)
    (hbare : ¬ IsBareScheme (host.text s)) (addr : Address) :
    Keeps (fun _ => True) (Watched.parseHostPort s host addr) := by
  obtain ⟨first, size⟩ := host
  unfold Watched.parseHostPort
  dsimp only at hlength ⊢
  refine (keeps_ansiCreateStringSrcLen (by omega) (by omega)).bind ?_
  rintro _ rfl
  cases hcopy : ansiCreateStringSrcLen s first (size : ℤ).toNat with
  | none => exact meets_fail ⟨by decide, by decide⟩
  | some copy =>
      obtain ⟨rfl, hsize, hzero⟩ := ansiCreateStringSrcLen_eq_some hlength hcopy
      have hlt := hostStart_lt (List.ne_nil_of_length_pos (by omega)) hbare
      refine (keeps_findLast (by omega) (by omega)).bind ?_
      intro portStart hportStart
      cases portStart with
      | none => exact meets_pure trivial
      | some portStart =>
          obtain ⟨hle, hlast⟩ := hportStart portStart rfl
          refine Meets.note_bind ⟨by omega, by omega⟩ ?_
          split
          · exact meets_fail ⟨by decide, by decide⟩
          · exact meets_pure trivial

/-- The length behind a scheme with nothing behind it is negative. -/
theorem exists_outside_parseHostPort {host : Range}
    (hlength : host.first + host.size ≤ s.length) (hbare : IsBareScheme (host.text s))
    (addr : Address) : ∃ n ∈ (Watched.parseHostPort s host addr).notes, ¬ n.Inside := by
  have hne : host.text s ≠ [] := by
    intro hnil
    rw [hnil] at hbare
    exact not_isBareScheme_nil hbare
  have hsize : (host.text s).length = host.size := by
    rw [Range.text, List.length_take, List.length_drop]
    omega
  have hpos : 0 < host.size := hsize ▸ List.length_pos_iff.mpr hne
  have hcopy : (Watched.ansiCreateStringSrcLen s host.first host.size).result =
      .ok (some (host.text s)) := by
    rw [Watched.result_ansiCreateStringSrcLen, Int.toNat_natCast, ansiCreateStringSrcLen,
      if_neg (by omega)]
    rfl
  refine ⟨.copy host.size host.size (host.size - 1 - host.size), ?_, ?_⟩
  · unfold Watched.parseHostPort
    apply mem_notes_bind hcopy
    apply mem_notes_bind_left
    apply mem_notes_bind_left
    rw [hostStart_of_isBareScheme hbare, hsize]
    exact List.mem_singleton_self _
  · rintro ⟨-, hnegative, -⟩
    omega

theorem keeps_getHostPortString {entry entrySize : ℕ} (hlength : entry + entrySize ≤ s.length) :
    Keeps (fun host => entry ≤ host.first ∧ host.first + host.size ≤ entry + entrySize)
      (Watched.getHostPortString s entry entrySize) := by
  unfold Watched.getHostPortString
  refine (keeps_findLast (by omega) (by omega)).bind ?_
  intro splitter hsplitter
  -- the host ends at the properties, or at the end of the entry
  have hrest : ∀ {rest : Option ℕ → Parse Range} (first : ℕ), entry ≤ first →
      first ≤ entry + entrySize → rest none = Watched.between s first (entry + entrySize : ℕ) →
      (∀ last : ℕ, rest (some last) = Watched.between s first last) →
      Keeps (fun host => entry ≤ host.first ∧ host.first + host.size ≤ entry + entrySize)
        (Watched.findFirst s first (entry + entrySize : ℕ) propertiesBeginSymbol >>= rest) := by
    intro rest first hfirst hend hnone hsome
    refine (keeps_findFirst (by omega) (by omega)).bind ?_
    rintro _ rfl
    cases hlast : findFirst s first ((entry + entrySize : ℕ) : ℤ).toNat propertiesBeginSymbol with
    | none =>
        rw [hnone]
        refine (keeps_between (by omega) (by omega)).mono ?_
        rintro range ⟨hrange, hsize⟩
        omega
    | some last =>
        obtain ⟨hle, hlast, -, -⟩ := findFirst_eq_some hlast
        rw [hsome]
        refine (keeps_between (by omega) (by omega)).mono ?_
        rintro range ⟨hrange, hsize⟩
        omega
  cases splitter with
  | none => exact hrest entry le_rfl (Nat.le_add_right _ _) rfl fun _ => rfl
  | some pos =>
      obtain ⟨hle, hlast⟩ := hsplitter pos rfl
      exact hrest (pos + 1) (by omega) (by omega) rfl fun _ => rfl

theorem keeps_getProperties {entry entrySize : ℕ} (hpos : 0 < entrySize)
    (hlength : entry + entrySize ≤ s.length) :
    Keeps (IsProperties s) (Watched.getProperties s entry entrySize) := by
  unfold Watched.getProperties
  refine (keeps_getHostPortString hlength).bind ?_
  rintro host ⟨hfirst, hlast⟩
  refine (keeps_hasNext (by omega)).bind ?_
  rintro _ rfl
  split
  · exact meets_pure isProperties_none
  · rename_i hmore
    rw [Bool.or_eq_true, not_or, decide_eq_true_iff] at hmore
    refine (keeps_deref (by omega) (by omega)).bind ?_
    rintro _ rfl
    split
    · exact meets_fail isRejection_invalidFuncParam
    · refine (keeps_deref (by omega) (by omega)).bind ?_
      rintro _ rfl
      split
      · exact meets_fail isRejection_invalidFuncParam
      · rename_i hbracket
        exact keeps_bracketed (by omega) (not_not.mp hbracket)

/-! ### Addresses -/

/-- If the parser comes to the host of the entry, it is not only a scheme. -/
def HasHost (status : CodecStatus) (s : List UInt8) (entry : Range) : Prop :=
  ∀ addr, parseCodecs status s (entry.first + entry.size) (s.length + 1) entry.first .zero =
    .ok addr → ¬ IsBareScheme (hostText s entry)

theorem keeps_parseAddress {entry : Option Range}
    (hentry : ∀ range, entry = some range → IsEntry s range ∧ HasHost status s range) :
    Keeps (fun _ => True) (Watched.parseAddress status s entry) := by
  cases entry with
  | none => exact meets_fail isRejection_invalidFuncParam
  | some entry =>
      obtain ⟨⟨hpos, hlength, hclosed⟩, hhost⟩ := hentry entry rfl
      rw [Watched.parseAddress, if_neg (by omega)]
      refine (keeps_parseCodecs hlength hclosed (Or.inl (by omega)) (by omega) _).and_result.bind ?_
      rintro addr ⟨-, hcodecs⟩
      refine (keeps_getHostPortString hlength).and_result.bind ?_
      rintro host ⟨⟨hfirst, hlast⟩, hresult⟩
      rw [Watched.result_parseCodecs] at hcodecs
      rw [Watched.result_getHostPortString] at hresult
      have hbare := hhost addr hcodecs
      rw [hostText, hresult] at hbare
      refine (keeps_parseHostPort (by omega) hbare addr).bind ?_
      intro addr _
      refine (keeps_getProperties hpos hlength).bind ?_
      intro props hprops
      exact keeps_parseProperties isRejection_assignAddress hprops
        (Nat.lt_succ_of_le hprops.size_le) addr

theorem exists_outside_parseAddress {entry : Range} (hentry : IsEntry s entry)
    (hbare : ¬ HasHost status s entry) :
    ∃ n ∈ (Watched.parseAddress status s (some entry)).notes, ¬ n.Inside := by
  obtain ⟨hpos, hlength, -⟩ := hentry
  unfold HasHost at hbare
  push Not at hbare
  obtain ⟨addr, hcodecs, hscheme⟩ := hbare
  unfold hostText at hscheme
  cases hhost : getHostPortString s entry.first entry.size with
  | error e =>
      rw [hhost] at hscheme
      exact absurd hscheme not_isBareScheme_nil
  | ok host =>
      rw [hhost] at hscheme
      have hresult : (Watched.getHostPortString s entry.first entry.size).result = .ok host := by
        rw [Watched.result_getHostPortString, hhost]
      have hlast := ((keeps_getHostPortString hlength).value host hresult).2
      obtain ⟨n, hn, houtside⟩ := exists_outside_parseHostPort (by omega) hscheme addr
      refine ⟨n, ?_, houtside⟩
      rw [Watched.parseAddress, if_neg (by omega)]
      rw [← Watched.result_parseCodecs] at hcodecs
      apply mem_notes_bind hcodecs
      apply mem_notes_bind hresult
      exact mem_notes_bind_left hn

/-! ### Collections -/

/-- The entry at a place is an address, and behind it there is another place. -/
def Follows (status : CodecStatus) (s : List UInt8) (next next' : ℕ) : Prop :=
  ∃ entry addr, getNextEntry s (s.length + 1) next = .ok (entry, next') ∧
    parseAddress status s entry = .ok addr ∧ hasNext s (some next') = true

/-- No entry that the parser comes to has a host that is only a scheme. -/
def NoBareScheme (status : CodecStatus) (s : List UInt8) (first : ℕ) : Prop :=
  ∀ next, Relation.ReflTransGen (Follows status s) first next →
    ∀ entry next', getNextEntry s (s.length + 1) next = .ok (some entry, next') →
      HasHost status s entry

/-- What the splitter of entries returns. -/
theorem getNextEntry_spec {next next' : ℕ} {entry : Option Range} (hnext : next ≤ s.length)
    (h : getNextEntry s (s.length + 1) next = .ok (entry, next')) :
    next' ≤ s.length ∧ (hasNext s (some next') = true → next < next') ∧
      ∀ range, entry = some range → IsEntry s range := by
  rw [← Watched.result_getNextEntry] at h
  obtain ⟨-, hspec⟩ := (keeps_getNextEntry hnext (by omega)).value _ h
  exact hspec

/-- There is no entry in an empty string. -/
theorem ne_nil_of_getNextEntry {fuel next next' : ℕ} {entry : Range}
    (h : getNextEntry s fuel next = .ok (some entry, next')) : s ≠ [] := by
  rintro rfl
  cases fuel with
  | zero => cases h
  | succ fuel => cases h

theorem keeps_parseEntries {fuel next : ℕ} (hnext : next ≤ s.length)
    (hfuel : s.length - next < fuel) (hhosts : NoBareScheme status s next)
    (addresses : List Address) :
    Keeps (fun _ => True) (Watched.parseEntries status s fuel next addresses) := by
  induction fuel generalizing next addresses with
  | zero => omega
  | succ fuel ih =>
      unfold Watched.parseEntries
      refine (keeps_getNextEntry hnext (by omega)).and_result.bind ?_
      rintro ⟨entry, next'⟩ ⟨⟨-, hlength, hmoves, hentry⟩, hresult⟩
      dsimp only at hlength hmoves hentry
      rw [Watched.result_getNextEntry] at hresult
      have haddress : Keeps (fun _ => True) (Watched.parseAddress status s entry) := by
        apply keeps_parseAddress
        rintro range rfl
        exact ⟨hentry range rfl, hhosts next .refl range next' hresult⟩
      refine haddress.and_result.bind ?_
      rintro addr ⟨-, haddr⟩
      rw [Watched.result_parseAddress] at haddr
      refine (keeps_hasNext hlength).bind ?_
      rintro _ rfl
      split
      · rename_i hmore
        have hless := hmoves hmore
        refine ih hlength (by omega) ?_ _
        intro last hlast
        exact hhosts last (hlast.head ⟨entry, addr, hresult, haddr, hmore⟩)
      · exact meets_pure trivial

/-- The parser comes to the host that is only a scheme, and leaves the string. -/
theorem exists_outside_parseEntries {first next : ℕ}
    (hrun : Relation.ReflTransGen (Follows status s) first next) {entry : Range} {next' : ℕ}
    (hnext : getNextEntry s (s.length + 1) next = .ok (some entry, next'))
    (hbare : ¬ HasHost status s entry) (hfirst : first ≤ s.length) {fuel : ℕ}
    (hfuel : s.length - first < fuel) (addresses : List Address) :
    ∃ n ∈ (Watched.parseEntries status s fuel first addresses).notes, ¬ n.Inside := by
  -- along the entries in front, which are addresses, so that the parser comes to the last one
  induction hrun using Relation.ReflTransGen.head_induction_on generalizing fuel addresses with
  | refl =>
      obtain ⟨fuel, rfl⟩ := Nat.exists_eq_succ_of_ne_zero (show fuel ≠ 0 by omega)
      obtain ⟨-, -, hentry⟩ := getNextEntry_spec hfirst hnext
      obtain ⟨n, hn, houtside⟩ := exists_outside_parseAddress (hentry entry rfl) hbare
      refine ⟨n, ?_, houtside⟩
      rw [← Watched.result_getNextEntry] at hnext
      unfold Watched.parseEntries
      apply mem_notes_bind hnext
      exact mem_notes_bind_left hn
  | head hstep _ ih =>
      obtain ⟨fuel, rfl⟩ := Nat.exists_eq_succ_of_ne_zero (show fuel ≠ 0 by omega)
      obtain ⟨entry₁, addr, hentry, haddr, hmore⟩ := hstep
      obtain ⟨hlength, hmoves, -⟩ := getNextEntry_spec hfirst hentry
      have hless := hmoves hmore
      obtain ⟨n, hn, houtside⟩ := @ih hlength fuel (by omega) (addresses ++ [addr])
      refine ⟨n, ?_, houtside⟩
      rw [← Watched.result_getNextEntry] at hentry
      rw [← Watched.result_parseAddress] at haddr
      unfold Watched.parseEntries
      apply mem_notes_bind hentry
      apply mem_notes_bind haddr
      apply mem_notes_bind (Watched.result_hasNext _)
      rw [if_pos hmore]
      exact hn

/-- The parser ends, stays inside of the string and what it copies from it, and fails only by a
rejection. -/
structure StaysInString (status : CodecStatus) (s : List UInt8) : Prop where
  inside : ∀ access ∈ (Watched.getAddressesFromCollection status s).notes, access.Inside
  terminates : getAddressesFromCollection status s ≠ .error .outOfFuel
  rejects : ∀ e, getAddressesFromCollection status s = .error e → e ≠ .negativeLength

/-- The parser stays inside of the string if and only if no host that it comes to is a scheme with
nothing behind it. -/
theorem staysInString_iff (status : CodecStatus) (s : List UInt8) :
    StaysInString status s ↔ NoBareScheme status s 0 := by
  constructor
  · intro h next hrun entry next' hnext
    by_contra hbare
    have hfuel : s.length - 0 < s.length + 1 := by omega
    obtain ⟨n, hn, houtside⟩ :=
      exists_outside_parseEntries hrun hnext hbare (Nat.zero_le _) hfuel []
    apply houtside
    apply h.inside
    apply mem_notes_bind (result_note _)
    rw [if_neg (ne_nil_of_getNextEntry hnext)]
    exact hn
  · intro h
    have hkeeps : Keeps (fun _ => True) (Watched.getAddressesFromCollection status s) := by
      refine Meets.note_bind ⟨by omega, by omega, by omega⟩ ?_
      split
      · exact meets_fail ⟨by decide, by decide⟩
      · exact keeps_parseEntries (Nat.zero_le _) (by omega) h []
    have herror := hkeeps.error
    rw [Watched.result_getAddressesFromCollection] at herror
    constructor
    · exact hkeeps.notes
    · intro hfuel
      exact (herror _ hfuel).2 rfl
    · intro e he
      exact (herror e he).1

/-- The host of this collection is the scheme `http://`. -/
theorem not_staysInString_bareScheme :
    ¬ StaysInString ⟨false, false⟩ (chars ['h', 't', 't', 'p', ':', '/', '/']) := by
  intro h
  exact h.rejects .negativeLength (by decide) rfl

end DxFeed.AddressParser
