import DxFeed.AddressParser
import DxFeed.Library.Noted

/-!
# The address parser with notes

The parser again, with a note of every place that is read, of every range that is formed and of
every text that is copied.  In the notes pointers and sizes are integers, so that a difference can
be negative.

* `Access`, `Access.Inside`: the notes, and those that stay inside of the string;
* `Watched.getAddressesFromCollection`, `Watched.result_getAddressesFromCollection`: the parser
  with notes, and that it ends as the parser does.
-/

namespace DxFeed.AddressParser

open CString Noted

/-- What the parser does with a string of a length. -/
inductive Access where
  | read (length : ℕ) (pos : ℤ)
  | range (length : ℕ) (first last : ℤ)
  | copy (length : ℕ) (first size : ℤ)
  deriving DecidableEq

/-- A place is in the string or is its terminator, a range does not end before it begins, and the
size of a copy is not negative. -/
def Access.Inside : Access → Prop
  | .read length pos => 0 ≤ pos ∧ pos ≤ length
  | .range length first last => 0 ≤ first ∧ first ≤ last ∧ last ≤ length
  | .copy length first size => 0 ≤ first ∧ 0 ≤ size ∧ first + size ≤ length

/-! ### Searching -/

section Searching

variable {s : List UInt8} {first last pos : ℕ} {ch ch₁ ch₂ : UInt8}

theorem findFirst_eq_some (h : findFirst s first last ch = some pos) :
    first ≤ pos ∧ pos ≤ last ∧ pos < s.length ∧ charAt s pos = ch := by
  unfold findFirst at h
  split at h
  · exact nomatch h
  · rename_i q hq
    split_ifs at h with hlast
    obtain rfl := Option.some.inj h
    obtain ⟨hle, hlt, hat, -⟩ := strchr_eq_some_iff.mp hq
    exact ⟨hle, by omega, hlt, hat⟩

theorem findFirstOfValues_eq_some (h : findFirstOfValues s first last ch₁ ch₂ = some pos) :
    first ≤ pos ∧ pos ≤ last ∧ pos < s.length ∧ (charAt s pos = ch₁ ∨ charAt s pos = ch₂) := by
  unfold findFirstOfValues at h
  cases h₁ : findFirst s first last ch₁ with
  | none =>
      rw [h₁] at h
      obtain ⟨hle, hlast, hlt, hat⟩ := findFirst_eq_some h
      exact ⟨hle, hlast, hlt, Or.inr hat⟩
  | some pos₁ =>
      have hfirst := findFirst_eq_some h₁
      cases h₂ : findFirst s first last ch₂ with
      | none =>
          rw [h₁, h₂] at h
          obtain rfl := Option.some.inj h
          exact ⟨hfirst.1, hfirst.2.1, hfirst.2.2.1, Or.inl hfirst.2.2.2⟩
      | some pos₂ =>
          have hsecond := findFirst_eq_some h₂
          rw [h₁, h₂] at h
          obtain rfl := Option.some.inj h
          rcases min_choice pos₁ pos₂ with hmin | hmin
          · rw [hmin]
            exact ⟨hfirst.1, hfirst.2.1, hfirst.2.2.1, Or.inl hfirst.2.2.2⟩
          · rw [hmin]
            exact ⟨hsecond.1, hsecond.2.1, hsecond.2.2.1, Or.inr hsecond.2.2.2⟩

theorem lt_of_isEmptyEntry (h : isEmptyEntry s first last = false) : first < last := by
  unfold isEmptyEntry at h
  by_contra hge
  rw [if_pos (by omega)] at h
  exact nomatch h

end Searching

/-- Where the host begins in its text: behind the first scheme that the text starts with. -/
def hostStart (copy : List UInt8) : ℕ :=
  match schemes.find? (startsWithNoCase copy) with
  | none => 0
  | some scheme => scheme.length

/-! ### The parser with notes -/

namespace Watched

abbrev Parse := Noted Access Failure

/-- `*pos`. -/
def deref (s : List UInt8) (pos : ℤ) : Parse UInt8 := do
  note (.read s.length pos)
  return charAt s pos.toNat

/-- The range between two pointers. -/
def between (s : List UInt8) (first : ℕ) (last : ℤ) : Parse Range := do
  note (.range s.length first last)
  return ⟨first, (last - first).toNat⟩

/-- `dx_ansi_create_string_src_len`. -/
def ansiCreateStringSrcLen (s : List UInt8) (src : ℕ) (len : ℤ) :
    Parse (Option (List UInt8)) := do
  note (.copy s.length src len)
  return AddressParser.ansiCreateStringSrcLen s src len.toNat

/-- `dx_is_empty_entry`. -/
def isEmptyEntry (s : List UInt8) (entryBegin : ℕ) (entryEnd : ℤ) : Parse Bool := do
  if entryBegin ≥ entryEnd then return true
  note (.range s.length entryBegin entryEnd)
  return isBlank s entryBegin (entryEnd - entryBegin).toNat

/-- `dx_find_first`. -/
def findFirst (s : List UInt8) (first : ℕ) (last : ℤ) (ch : UInt8) : Parse (Option ℕ) := do
  note (.range s.length first last)
  return AddressParser.findFirst s first last.toNat ch

/-- `dx_find_last`. -/
def findLast (s : List UInt8) (first : ℕ) (last : ℤ) (ch : UInt8) : Parse (Option ℕ) := do
  note (.copy s.length first (last - first))
  lift (AddressParser.findLast s first last.toNat ch)

/-- `dx_find_first_of_values`. -/
def findFirstOfValues (s : List UInt8) (first : ℕ) (last : ℤ) (ch₁ ch₂ : UInt8) :
    Parse (Option ℕ) := do
  let firstPos ← findFirst s first last ch₁
  let secondPos ← findFirst s first last ch₂
  match firstPos, secondPos with
  | none, secondPos => return secondPos
  | firstPos, none => return firstPos
  | some firstPos, some secondPos => return some (min firstPos secondPos)

/-- `dx_has_next`. -/
def hasNext (s : List UInt8) : Option ℕ → Parse Bool
  | none => return false
  | some next => do return (← deref s next) != nullSymbol

/-- `dx_get_next_entry`. -/
def getNextEntry (s : List UInt8) : ℕ → ℕ → Parse (Option Range × ℕ)
  | 0, _ => fail .outOfFuel
  | fuel + 1, next => do
      if ← hasNext s (some next) then
        match strchr s next entryBeginSymbol, strchr s next entryEndSymbol with
        | none, none =>
            let nextLen := s.length - next
            if ← isEmptyEntry s next (next + nextLen : ℕ) then return (none, next + nextLen)
            return (some (← between s next (next + nextLen : ℕ)), next + nextLen)
        | some first, some last =>
            if ← isEmptyEntry s (first + 1) last then getNextEntry s fuel (last + 1)
            else return (some (← between s (first + 1) last), last + 1)
        | _, _ => fail .invalidFuncParam
      else return (none, next)

/-- `dx_get_next_codec`. -/
def getNextCodec (s : List UInt8) (nextEnd : ℕ) : ℕ → ℕ → Parse (Option Range × ℕ)
  | 0, _ => fail .outOfFuel
  | fuel + 1, next => do
      if ← hasNext s (some next) then
        match ← findFirst s next nextEnd codecSplitter with
        | none => return (none, s.length)
        | some last =>
            if ← isEmptyEntry s next last then getNextCodec s nextEnd fuel (last + 1)
            else return (some (← between s next last), last + 1)
      else return (none, next)

/-- `dx_get_codec_name`. -/
def getCodecName (s : List UInt8) (codec codecSize : ℕ) : Parse ℕ := do
  if codecSize = 0 then return 0
  note (.read s.length codec)
  match strchr s codec propertiesBeginSymbol with
  | none => return (← between s codec (codec + codecSize : ℕ)).size
  | some last =>
      if last ≥ codec + codecSize then return (← between s codec (codec + codecSize : ℕ)).size
      else return (← between s codec last).size

/-- `dx_get_codec_properties`. -/
def getCodecProperties (s : List UInt8) (codec codecSize : ℕ) : Parse Properties := do
  let nameSize ← getCodecName s codec codecSize
  if codecSize = nameSize then return (none, 0)
  let propsBegin := codec + nameSize
  let propsEnd : ℤ := (codec + codecSize : ℕ) - 1
  if (← deref s propsBegin) ≠ propertiesBeginSymbol then fail .invalidFuncParam
  else if (← deref s propsEnd) ≠ propertiesEndSymbol then fail .invalidFuncParam
  else if ← isEmptyEntry s propsBegin propsEnd then return (none, 0)
  else return (some propsBegin, (← between s propsBegin (propsEnd + 1)).size)

/-- `dx_get_next_property`. -/
def getNextProperty (s : List UInt8) : ℕ → Properties → Parse (Option Range × Properties)
  | 0, _ => fail .outOfFuel
  | _ + 1, (none, nextSize) => return (none, (none, nextSize))
  | fuel + 1, (some next, nextSize) => do
      if (← hasNext s (some next)) && nextSize > 0 then
        let collectionEnd : ℤ := (next + nextSize : ℕ) - 1
        let ch ← deref s next
        if ch = propertiesBeginSymbol ∨ ch = propertiesSplitter then
          match ← findFirstOfValues s (next + 1) collectionEnd propertiesEndSymbol
            propertiesSplitter with
          | none => fail .invalidFuncParam
          | some last =>
              let next' := if (← deref s last) = propertiesEndSymbol then last + 1 else last
              let nextSize' := (← between s next' (next + nextSize : ℕ)).size
              if ← isEmptyEntry s (next + 1) last then
                getNextProperty s fuel (some next', nextSize')
              else return (some (← between s (next + 1) last), (some next', nextSize'))
        else fail .invalidFuncParam
      else return (none, (some next, nextSize))

/-- `dx_get_host_port_string`. -/
def getHostPortString (s : List UInt8) (entry entrySize : ℕ) : Parse Range := do
  let entryEnd := entry + entrySize
  let splitter ← findLast s entry entryEnd codecSplitter
  let first := match splitter with
    | none => entry
    | some pos => pos + 1
  match ← findFirst s first entryEnd propertiesBeginSymbol with
  | none => between s first entryEnd
  | some last => between s first last

/-- `dx_get_properties`. -/
def getProperties (s : List UInt8) (entry entrySize : ℕ) : Parse Properties := do
  let address ← getHostPortString s entry entrySize
  let first := address.first + address.size
  let last : ℤ := (entry + entrySize : ℕ) - 1
  if !(← hasNext s (some first)) || first ≥ last then return (none, 0)
  if (← deref s first) ≠ propertiesBeginSymbol then fail .invalidFuncParam
  else if (← deref s last) ≠ propertiesEndSymbol then fail .invalidFuncParam
  else if ← isEmptyEntry s first last then return (none, 0)
  else return (some first, (← between s first (last + 1)).size)

/-- `dx_parse_property`. -/
def parseProperty (s : List UInt8) (str : Range) : Parse (List UInt8 × List UInt8) := do
  let strEnd := str.first + str.size
  match ← findFirst s str.first strEnd propertyValueSplitter with
  | none => fail .invalidFunctionArg
  | some splitter =>
      if ← isEmptyEntry s str.first ((splitter : ℤ) - 1) then fail .invalidFunctionArg
      else if ← isEmptyEntry s (splitter + 1) strEnd then fail .invalidFunctionArg
      else
        let keySize : ℤ := splitter - str.first
        let valueSize : ℤ := str.size - keySize - 1
        let key ← ansiCreateStringSrcLen s str.first keySize
        let value ← ansiCreateStringSrcLen s (splitter + 1) valueSize
        match key, value with
        | some key, some value => return (key, value)
        | _, _ => fail .nullString

/-- The loop over properties. -/
def parseProperties {α : Type} (s : List UInt8)
    (assign : α → List UInt8 × List UInt8 → Except Failure α) : ℕ → Properties → α → Parse α
  | 0, _, _ => fail .outOfFuel
  | fuel + 1, next, result => do
      let (str, next) ← getNextProperty s (s.length + 1) next
      let result ← match str with
        | none => pure result
        | some str => do lift (assign result (← parseProperty s str))
      if (← hasNext s next.1) && next.2 > 0 then parseProperties s assign fuel next result
      else return result

/-- `dx_codec_tls_parser`. -/
def codecTlsParser (s : List UInt8) (codec : Range) (addr : Address) : Parse Address := do
  let props ← getCodecProperties s codec.first codec.size
  let tls ← parseProperties s assignTls (s.length + 1) props ⟨true, none, none, none, none⟩
  return { addr with tls := tls }

/-- `dx_codec_gzip_parser`. -/
def codecGzipParser (s : List UInt8) (codec : Range) (addr : Address) : Parse Address :=
  lift (AddressParser.codecGzipParser s codec addr)

/-- `dx_codec_info_t`. -/
structure CodecInfo where
  name : List UInt8
  supported : Bool
  parser : List UInt8 → Range → Address → Parse Address

def codecs (status : CodecStatus) : List CodecInfo :=
  [⟨chars ['t', 'l', 's'], status.tls, codecTlsParser⟩,
   ⟨chars ['s', 's', 'l'], status.tls, codecTlsParser⟩,
   ⟨chars ['g', 'z', 'i', 'p'], status.gzip, codecGzipParser⟩]

/-- `dx_codec_parse`. -/
def codecParse (status : CodecStatus) (s : List UInt8) (codec : Range) (addr : Address) :
    Parse Address := do
  let codecNameSize ← getCodecName s codec.first codec.size
  let codecName := (s.drop codec.first).take codecNameSize
  match (codecs status).find? fun info =>
      info.name.length == codecNameSize && startsWithNoCase codecName info.name with
  | none => fail .unknownCodec
  | some info => if info.supported then info.parser s codec addr else fail .unknownCodec

/-- `dx_parse_host_port`. -/
def parseHostPort (s : List UInt8) (host : Range) (addr : Address) : Parse Address := do
  match ← ansiCreateStringSrcLen s host.first host.size with
  | none => fail .nullString
  | some copy =>
      match ← findLast copy (hostStart copy) ((host.size : ℤ) - 1) hostPortSplitter with
      | none => return { addr with host := some copy, port := none }
      | some portStart =>
          note (.read copy.length (portStart + 1 : ℕ))
          let portText := copy.drop (portStart + 1)
          if !isNumeric portText || sscanf portText < portMin || sscanf portText > portMax then
            fail .invalidPortValue
          else return { addr with host := some (copy.take portStart), port := some portText }

/-- The loop over codecs in `dx_parse_address`. -/
def parseCodecs (status : CodecStatus) (s : List UInt8) (nextEnd : ℕ) :
    ℕ → ℕ → Address → Parse Address
  | 0, _, _ => fail .outOfFuel
  | fuel + 1, next, addr => do
      let (codec, next) ← getNextCodec s nextEnd (s.length + 1) next
      let addr ← match codec with
        | none => pure addr
        | some codec => codecParse status s codec addr
      if ← hasNext s (some next) then parseCodecs status s nextEnd fuel next addr
      else return addr

/-- `dx_parse_address`. -/
def parseAddress (status : CodecStatus) (s : List UInt8) : Option Range → Parse Address
  | none => fail .invalidFuncParam
  | some entry => do
      if entry.size = 0 then fail .invalidFuncParam
      else
        let addr ← parseCodecs status s (entry.first + entry.size) (s.length + 1) entry.first .zero
        let address ← getHostPortString s entry.first entry.size
        let addr ← parseHostPort s address addr
        let props ← getProperties s entry.first entry.size
        parseProperties s assignAddress (s.length + 1) props addr

/-- The loop of `dx_get_addresses_from_collection`. -/
def parseEntries (status : CodecStatus) (s : List UInt8) :
    ℕ → ℕ → List Address → Parse (List Address)
  | 0, _, _ => fail .outOfFuel
  | fuel + 1, next, addresses => do
      let (entry, next) ← getNextEntry s (s.length + 1) next
      let addr ← parseAddress status s entry
      let addresses := addresses ++ [addr]
      if ← hasNext s (some next) then parseEntries status s fuel next addresses
      else return addresses

/-- `dx_get_addresses_from_collection`: the collection is copied first. -/
def getAddressesFromCollection (status : CodecStatus) (collection : List UInt8) :
    Parse (List Address) := do
  note (.copy collection.length 0 collection.length)
  if collection = [] then fail .nullString
  else parseEntries status collection (collection.length + 1) 0 []

/-! ### The parser with notes ends as the parser does -/

variable {s : List UInt8} {status : CodecStatus}

@[simp] theorem result_deref (pos : ℤ) : (deref s pos).result = .ok (charAt s pos.toNat) := rfl

@[simp] theorem result_between (first : ℕ) (last : ℤ) :
    (between s first last).result = .ok ⟨first, (last - first).toNat⟩ := rfl

@[simp] theorem result_ansiCreateStringSrcLen (src : ℕ) (len : ℤ) :
    (ansiCreateStringSrcLen s src len).result =
      .ok (AddressParser.ansiCreateStringSrcLen s src len.toNat) := rfl

@[simp] theorem result_isEmptyEntry (entryBegin : ℕ) (entryEnd : ℤ) :
    (isEmptyEntry s entryBegin entryEnd).result =
      .ok (AddressParser.isEmptyEntry s entryBegin entryEnd.toNat) := by
  unfold isEmptyEntry AddressParser.isEmptyEntry
  by_cases h : (entryBegin : ℤ) ≥ entryEnd
  · rw [if_pos h, if_pos (by omega)]
    rfl
  · have hsize : (entryEnd - entryBegin).toNat = entryEnd.toNat - entryBegin := by omega
    rw [if_neg h, if_neg (by omega), ← hsize]
    rfl

@[simp] theorem result_findFirst (first : ℕ) (last : ℤ) (ch : UInt8) :
    (findFirst s first last ch).result = .ok (AddressParser.findFirst s first last.toNat ch) :=
  rfl

@[simp] theorem result_findLast (first : ℕ) (last : ℤ) (ch : UInt8) :
    (findLast s first last ch).result = AddressParser.findLast s first last.toNat ch := rfl

@[simp] theorem result_findFirstOfValues (first : ℕ) (last : ℤ) (ch₁ ch₂ : UInt8) :
    (findFirstOfValues s first last ch₁ ch₂).result =
      .ok (AddressParser.findFirstOfValues s first last.toNat ch₁ ch₂) := by
  unfold findFirstOfValues AddressParser.findFirstOfValues
  simp only [result_bind, result_findFirst, ok_bind]
  cases AddressParser.findFirst s first last.toNat ch₁ <;>
    cases AddressParser.findFirst s first last.toNat ch₂ <;> rfl

@[simp] theorem result_hasNext (next : Option ℕ) :
    (hasNext s next).result = .ok (AddressParser.hasNext s next) := by
  cases next <;> rfl

theorem result_getNextEntry (fuel next : ℕ) :
    (getNextEntry s fuel next).result = AddressParser.getNextEntry s fuel next := by
  induction fuel generalizing next with
  | zero => rfl
  | succ fuel ih =>
      unfold getNextEntry AddressParser.getNextEntry
      rw [result_bind, result_hasNext, ok_bind]
      cases AddressParser.hasNext s (some next) with
      | false => rfl
      | true =>
          simp only [if_true]
          cases strchr s next entryBeginSymbol with
          | none =>
              cases strchr s next entryEndSymbol with
              | none =>
                  simp only [result_bind, result_isEmptyEntry, ok_bind, Int.toNat_natCast]
                  split <;> simp
              | some last => rfl
          | some first =>
              cases strchr s next entryEndSymbol with
              | none => rfl
              | some last =>
                  simp only [result_bind, result_isEmptyEntry, ok_bind, Int.toNat_natCast]
                  split
                  · exact ih _
                  · simp
                    omega

theorem result_getNextCodec (nextEnd fuel next : ℕ) :
    (getNextCodec s nextEnd fuel next).result = AddressParser.getNextCodec s nextEnd fuel next := by
  induction fuel generalizing next with
  | zero => rfl
  | succ fuel ih =>
      unfold getNextCodec AddressParser.getNextCodec
      rw [result_bind, result_hasNext, ok_bind]
      cases AddressParser.hasNext s (some next) with
      | false => rfl
      | true =>
          simp only [if_true, result_bind, result_findFirst, ok_bind, Int.toNat_natCast]
          cases AddressParser.findFirst s next nextEnd codecSplitter with
          | none => rfl
          | some last =>
              simp only [result_bind, result_isEmptyEntry, ok_bind, Int.toNat_natCast]
              split
              · exact ih _
              · simp

@[simp] theorem result_getCodecName (codec codecSize : ℕ) :
    (getCodecName s codec codecSize).result =
      .ok (AddressParser.getCodecName s codec codecSize) := by
  unfold getCodecName AddressParser.getCodecName
  by_cases hzero : codecSize = 0
  · rw [if_pos hzero, if_pos hzero]
    rfl
  · rw [if_neg hzero, if_neg hzero]
    simp only [result_bind, result_note, ok_bind]
    cases strchr s codec propertiesBeginSymbol with
    | none => simp
    | some last =>
        dsimp only
        split <;> simp

theorem result_getCodecProperties (codec codecSize : ℕ) :
    (getCodecProperties s codec codecSize).result =
      AddressParser.getCodecProperties s codec codecSize := by
  unfold getCodecProperties AddressParser.getCodecProperties
  have hend : ((codec + codecSize : ℕ) - 1 : ℤ).toNat = codec + codecSize - 1 := by omega
  simp only [result_bind, result_getCodecName, result_ite, result_deref, result_isEmptyEntry,
    result_between, result_fail, result_pure, ok_bind, Int.toNat_natCast, hend]
  generalize AddressParser.getCodecName s codec codecSize = nameSize
  by_cases hname : codecSize = nameSize
  · rw [if_pos hname, if_pos hname]
  · rw [if_neg hname, if_neg hname]
    by_cases hfirst : charAt s (codec + nameSize) = propertiesBeginSymbol
    · by_cases hlast : charAt s (codec + codecSize - 1) = propertiesEndSymbol
      · rw [if_neg (not_not.mpr hfirst), if_neg (not_not.mpr hlast),
          if_neg (not_or.mpr ⟨not_not.mpr hfirst, not_not.mpr hlast⟩)]
        cases hempty :
            AddressParser.isEmptyEntry s (codec + nameSize) (codec + codecSize - 1) with
        | true => rfl
        | false =>
            have hlt := lt_of_isEmptyEntry hempty
            have hsize : ((codec + codecSize : ℕ) - 1 + 1 - (codec + nameSize : ℕ) : ℤ).toNat =
                codec + codecSize - 1 - (codec + nameSize) + 1 := by omega
            simp only [hsize, Bool.false_eq_true, if_false]
      · rw [if_neg (not_not.mpr hfirst), if_pos hlast, if_pos (Or.inr hlast)]
    · rw [if_pos hfirst, if_pos (Or.inl hfirst)]

theorem result_getNextProperty (fuel : ℕ) (next : Properties) :
    (getNextProperty s fuel next).result = AddressParser.getNextProperty s fuel next := by
  induction fuel generalizing next with
  | zero => rfl
  | succ fuel ih =>
      obtain ⟨_ | next, nextSize⟩ := next
      · rfl
      · have hend : ((next + nextSize : ℕ) - 1 : ℤ).toNat = next + nextSize - 1 := by omega
        unfold getNextProperty AddressParser.getNextProperty
        simp only [result_bind, result_hasNext, result_ite, result_deref, result_findFirstOfValues,
          result_fail, result_pure, ok_bind, Int.toNat_natCast, hend]
        split_ifs with hnext hch
        · cases hlast : AddressParser.findFirstOfValues s (next + 1) (next + nextSize - 1)
            propertiesEndSymbol propertiesSplitter with
          | none => rfl
          | some last =>
              obtain ⟨hfirst, -, -, -⟩ := findFirstOfValues_eq_some hlast
              simp only [result_bind, result_deref, result_between, result_isEmptyEntry,
                result_ite, result_pure, ok_bind, Int.toNat_natCast, ih]
              generalize hnext' :
                (if charAt s last = propertiesEndSymbol then last + 1 else last) = next'
              have hle : next ≤ next' := by
                rw [← hnext']
                split <;> omega
              have hnextSize : ((next + nextSize : ℕ) - next' : ℤ).toNat =
                  nextSize - (next' - next) := by omega
              have hsize : ((last : ℤ) - (next + 1 : ℕ)).toNat = last - (next + 1) := by omega
              rw [hnextSize, hsize]
        · rfl
        · rfl

theorem result_getHostPortString (entry entrySize : ℕ) :
    (getHostPortString s entry entrySize).result =
      AddressParser.getHostPortString s entry entrySize := by
  unfold getHostPortString AddressParser.getHostPortString
  simp only [result_bind, result_findLast, result_findFirst, Int.toNat_natCast]
  cases AddressParser.findLast s entry (entry + entrySize) codecSplitter with
  | error e => rfl
  | ok splitter =>
      cases splitter with
      | none =>
          simp only [ok_bind]
          cases AddressParser.findFirst s entry (entry + entrySize) propertiesBeginSymbol with
          | none => simp only [result_between, Int.toNat_sub]; rfl
          | some last => simp only [result_between, Int.toNat_sub]; rfl
      | some pos =>
          simp only [ok_bind]
          cases AddressParser.findFirst s (pos + 1) (entry + entrySize) propertiesBeginSymbol with
          | none => simp only [result_between, Int.toNat_sub]; rfl
          | some last => simp only [result_between, Int.toNat_sub]; rfl

theorem result_getProperties (entry entrySize : ℕ) :
    (getProperties s entry entrySize).result =
      AddressParser.getProperties s entry entrySize := by
  unfold getProperties AddressParser.getProperties
  rw [result_bind, result_getHostPortString]
  cases AddressParser.getHostPortString s entry entrySize with
  | error e => rfl
  | ok address =>
      have hend : ((entry + entrySize : ℕ) - 1 : ℤ).toNat = entry + entrySize - 1 := by omega
      simp only [result_bind, result_hasNext, result_ite, result_deref, result_isEmptyEntry,
        result_between, result_fail, result_pure, ok_bind, Int.toNat_natCast, hend]
      generalize address.first + address.size = first
      have hge : ((first : ℤ) ≥ (entry + entrySize : ℕ) - 1) = (first ≥ entry + entrySize - 1) :=
        propext (by omega)
      simp only [hge]
      by_cases hover : (!AddressParser.hasNext s (some first) ||
          decide (first ≥ entry + entrySize - 1)) = true
      · rw [if_pos hover, if_pos hover]
        rfl
      · rw [if_neg hover, if_neg hover]
        by_cases hfirst : charAt s first = propertiesBeginSymbol
        · by_cases hlast : charAt s (entry + entrySize - 1) = propertiesEndSymbol
          · rw [if_neg (not_not.mpr hfirst), if_neg (not_not.mpr hlast),
              if_neg (not_or.mpr ⟨not_not.mpr hfirst, not_not.mpr hlast⟩)]
            cases hempty : AddressParser.isEmptyEntry s first (entry + entrySize - 1) with
            | true => rfl
            | false =>
                have hlt := lt_of_isEmptyEntry hempty
                have hsize : ((entry + entrySize : ℕ) - 1 + 1 - first : ℤ).toNat =
                    entry + entrySize - 1 - first + 1 := by omega
                rw [hsize]
                rfl
          · rw [if_neg (not_not.mpr hfirst), if_pos hlast, if_pos (Or.inr hlast)]
            rfl
        · rw [if_pos hfirst, if_pos (Or.inl hfirst)]
          rfl

theorem result_parseProperty (str : Range) :
    (parseProperty s str).result = AddressParser.parseProperty s str := by
  unfold parseProperty AddressParser.parseProperty
  simp only [result_bind, result_findFirst, ok_bind, Int.toNat_natCast]
  cases hfound : AddressParser.findFirst s str.first (str.first + str.size)
    propertyValueSplitter with
  | none => rfl
  | some splitter =>
      obtain ⟨hle, -, -, -⟩ := findFirst_eq_some hfound
      have hend : ((splitter : ℤ) - 1).toNat = splitter - 1 := by omega
      have hkey : ((splitter : ℤ) - str.first).toNat = splitter - str.first := by omega
      have hvalue : ((str.size : ℤ) - (splitter - str.first) - 1).toNat =
          str.size - (splitter - str.first) - 1 := by omega
      simp only [result_bind, result_isEmptyEntry, result_ite, result_ansiCreateStringSrcLen,
        result_fail, ok_bind, Int.toNat_natCast, hend, hkey, hvalue]
      cases AddressParser.isEmptyEntry s str.first (splitter - 1) with
      | true => rfl
      | false =>
          cases AddressParser.isEmptyEntry s (splitter + 1) (str.first + str.size) with
          | true => rfl
          | false =>
              cases AddressParser.ansiCreateStringSrcLen s str.first (splitter - str.first) with
              | none => rfl
              | some key =>
                  cases AddressParser.ansiCreateStringSrcLen s (splitter + 1)
                    (str.size - (splitter - str.first) - 1) with
                  | none => rfl
                  | some value => rfl

theorem result_parseProperties {α : Type}
    (assign : α → List UInt8 × List UInt8 → Except Failure α) (fuel : ℕ) (next : Properties)
    (result : α) :
    (parseProperties s assign fuel next result).result =
      AddressParser.parseProperties s assign fuel next result := by
  induction fuel generalizing next result with
  | zero => rfl
  | succ fuel ih =>
      unfold parseProperties AddressParser.parseProperties
      rw [result_bind, result_getNextProperty]
      cases AddressParser.getNextProperty s (s.length + 1) next with
      | error e => rfl
      | ok found =>
          obtain ⟨str, next⟩ := found
          cases str with
          | none =>
              simp only [ok_bind, result_bind, result_pure, result_hasNext, result_ite, ih]
              rfl
          | some str =>
              simp only [ok_bind, result_bind, result_parseProperty, result_lift, result_hasNext,
                result_ite, result_pure, ih]
              rfl

theorem result_codecTlsParser (codec : Range) (addr : Address) :
    (codecTlsParser s codec addr).result = AddressParser.codecTlsParser s codec addr := by
  unfold codecTlsParser AddressParser.codecTlsParser
  simp only [result_bind, result_getCodecProperties, result_parseProperties, result_pure]
  rfl

/-- The codecs have the same names, and their parsers end in the same way. -/
theorem result_codecParse (codec : Range) (addr : Address) :
    (codecParse status s codec addr).result = AddressParser.codecParse status s codec addr := by
  unfold codecParse AddressParser.codecParse
  rw [result_bind, result_getCodecName, ok_bind]
  generalize AddressParser.getCodecName s codec.first codec.size = codecNameSize
  unfold codecs AddressParser.codecs
  simp only [List.find?_cons, List.find?_nil]
  generalize ((chars ['t', 'l', 's']).length == codecNameSize &&
    startsWithNoCase _ (chars ['t', 'l', 's'])) = isTls
  generalize ((chars ['s', 's', 'l']).length == codecNameSize &&
    startsWithNoCase _ (chars ['s', 's', 'l'])) = isSsl
  generalize ((chars ['g', 'z', 'i', 'p']).length == codecNameSize &&
    startsWithNoCase _ (chars ['g', 'z', 'i', 'p'])) = isGzip
  cases isTls with
  | true => simp only [result_ite, result_codecTlsParser, result_fail]
  | false =>
      cases isSsl with
      | true => simp only [result_ite, result_codecTlsParser, result_fail]
      | false =>
          cases isGzip with
          | true => simp only [result_ite, codecGzipParser, result_lift, result_fail]
          | false => rfl

theorem result_parseHostPort (host : Range) (addr : Address) :
    (parseHostPort s host addr).result = AddressParser.parseHostPort s host addr := by
  unfold parseHostPort AddressParser.parseHostPort
  simp only [result_bind, result_ansiCreateStringSrcLen, ok_bind, Int.toNat_natCast]
  cases AddressParser.ansiCreateStringSrcLen s host.first host.size with
  | none => rfl
  | some copy =>
      have hend : ((host.size : ℤ) - 1).toNat = host.size - 1 := by omega
      have hstart : hostStart copy = match schemes.find? (startsWithNoCase copy) with
          | none => 0
          | some scheme => scheme.length := rfl
      simp only [result_bind, result_findLast, hend, hstart]
      cases AddressParser.findLast copy _ (host.size - 1) hostPortSplitter with
      | error e => rfl
      | ok portStart =>
          cases portStart with
          | none => rfl
          | some portStart =>
              simp only [ok_bind, result_bind, result_note, result_ite, result_fail, result_pure]
              split_ifs
              · rfl
              · rfl

theorem result_parseCodecs (nextEnd fuel next : ℕ) (addr : Address) :
    (parseCodecs status s nextEnd fuel next addr).result =
      AddressParser.parseCodecs status s nextEnd fuel next addr := by
  induction fuel generalizing next addr with
  | zero => rfl
  | succ fuel ih =>
      unfold parseCodecs AddressParser.parseCodecs
      rw [result_bind, result_getNextCodec]
      cases AddressParser.getNextCodec s nextEnd (s.length + 1) next with
      | error e => rfl
      | ok found =>
          obtain ⟨codec, next⟩ := found
          cases codec with
          | none =>
              simp only [ok_bind, result_bind, result_pure, result_hasNext, result_ite, ih]
              rfl
          | some codec =>
              simp only [ok_bind, result_bind, result_codecParse, result_hasNext, result_ite,
                result_pure, ih]
              rfl

theorem result_parseAddress (entry : Option Range) :
    (parseAddress status s entry).result = AddressParser.parseAddress status s entry := by
  cases entry with
  | none => rfl
  | some entry =>
      unfold parseAddress AddressParser.parseAddress
      simp only [result_ite, result_bind, result_parseCodecs, result_getHostPortString,
        result_parseHostPort, result_getProperties, result_parseProperties, result_fail]
      split_ifs
      · rfl
      · rfl

theorem result_parseEntries (fuel next : ℕ) (addresses : List Address) :
    (parseEntries status s fuel next addresses).result =
      AddressParser.parseEntries status s fuel next addresses := by
  induction fuel generalizing next addresses with
  | zero => rfl
  | succ fuel ih =>
      unfold parseEntries AddressParser.parseEntries
      rw [result_bind, result_getNextEntry]
      cases AddressParser.getNextEntry s (s.length + 1) next with
      | error e => rfl
      | ok found =>
          obtain ⟨entry, next⟩ := found
          simp only [ok_bind, result_bind, result_parseAddress, result_hasNext, result_ite,
            result_pure, ih]
          rfl

/-- The notes change nothing in how the parser ends. -/
theorem result_getAddressesFromCollection (collection : List UInt8) :
    (getAddressesFromCollection status collection).result =
      AddressParser.getAddressesFromCollection status collection := by
  unfold getAddressesFromCollection AddressParser.getAddressesFromCollection
  rw [result_bind, result_note, ok_bind, result_ite, result_fail, result_parseEntries]

end Watched

end DxFeed.AddressParser
