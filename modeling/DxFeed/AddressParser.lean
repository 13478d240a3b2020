import DxFeed.Library.CString

/-!
# The address parser

A collection of addresses is a string; the entries, codecs and properties in it are ranges of
offsets.

* `getNextEntry`, `getNextCodec`, `getHostPortString`, `getProperties`, `getNextProperty`: the
  splitters;
* `parseProperty`, `codecParse`, `parseHostPort`, `parseAddress`,
  `getAddressesFromCollection`: the parser.
-/

namespace DxFeed.AddressParser

open CString

/-! ### Addresses -/

/-- `dx_codec_tls_t`. -/
structure CodecTls where
  enabled : Bool
  keyStore : Option (List UInt8)
  keyStorePassword : Option (List UInt8)
  trustStore : Option (List UInt8)
  trustStorePassword : Option (List UInt8)
  deriving DecidableEq

/-- `dx_codec_gzip_t`. -/
structure CodecGzip where
  enabled : Bool
  deriving DecidableEq

/-- `dx_address_t`. -/
structure Address where
  host : Option (List UInt8)
  port : Option (List UInt8)
  username : Option (List UInt8)
  password : Option (List UInt8)
  tls : CodecTls
  gzip : CodecGzip
  deriving DecidableEq

def CodecTls.zero : CodecTls := ⟨false, none, none, none, none⟩

/-- An address that is filled with zeros. -/
def Address.zero : Address := ⟨none, none, none, none, .zero, ⟨false⟩⟩

/-- Why a call fails. -/
inductive Failure where
  | invalidFuncParamInternal
  | invalidFuncParam
  | invalidFunctionArg
  | unknownCodec
  | invalidPortValue
  /-- `dx_ansi_create_string_src_len` returns `NULL` for a length of zero and sets no error. -/
  | nullString
  /-- The length of a range is negative. -/
  | negativeLength
  /-- A loop of the model took more steps than the string has characters. -/
  | outOfFuel
  deriving DecidableEq

/-- Which codecs are compiled in. -/
structure CodecStatus where
  tls : Bool
  gzip : Bool

abbrev nullSymbol : UInt8 := 0
abbrev hostPortSplitter : UInt8 := Char.toUInt8 ':'
abbrev entryBeginSymbol : UInt8 := Char.toUInt8 '('
abbrev entryEndSymbol : UInt8 := Char.toUInt8 ')'
abbrev whitespace : UInt8 := Char.toUInt8 ' '
abbrev codecSplitter : UInt8 := Char.toUInt8 '+'
abbrev propertiesBeginSymbol : UInt8 := Char.toUInt8 '['
abbrev propertiesEndSymbol : UInt8 := Char.toUInt8 ']'
abbrev propertiesSplitter : UInt8 := Char.toUInt8 ','
abbrev propertyValueSplitter : UInt8 := Char.toUInt8 '='

def portMin : Int32 := 0
def portMax : Int32 := 65535

/-- The characters of a text. -/
def chars (text : List Char) : List UInt8 :=
  text.map Char.toUInt8

def schemes : List (List UInt8) :=
  [chars ['f', 'i', 'l', 'e', ':', '/'],
   chars ['h', 't', 't', 'p', ':', '/', '/'],
   chars ['h', 't', 't', 'p', 's', ':', '/', '/']]

/-! ### Functions of the standard library -/

def isdigit (c : UInt8) : Bool :=
  48 ≤ c && c ≤ 57

def tolower (c : UInt8) : UInt8 :=
  if 65 ≤ c ∧ c ≤ 90 then c + 32 else c

/-- `strncasecmp(first, second, strlen(second)) == 0`. -/
def startsWithNoCase (first second : List UInt8) : Bool :=
  (first.take second.length).map tolower == second.map tolower

/-- The value of decimal digits. -/
def decimal (digits : List UInt8) : ℕ :=
  digits.foldl (fun n c => 10 * n + (c.toNat - 48)) 0

/-- `sscanf(digits, "%d", &port)`: the value is at most `LONG_MAX`, and it is reduced to an `int`. -/
def sscanf (digits : List UInt8) : Int32 :=
  Int32.ofNat (min (decimal digits) (2 ^ 63 - 1))

/-- `dx_ansi_create_string_src_len`. -/
def ansiCreateStringSrcLen (s : List UInt8) (src len : ℕ) : Option (List UInt8) :=
  if len = 0 then none else some ((s.drop src).take len)

/-! ### Searching -/

/-- The loop of `dx_is_empty_entry`, at most `size` characters before the end. -/
def isBlank (s : List UInt8) (entryBegin : ℕ) : ℕ → Bool
  | 0 => charAt s entryBegin == whitespace
  | size + 1 => charAt s entryBegin == whitespace && isBlank s (entryBegin + 1) size

/-- `dx_is_empty_entry`. -/
def isEmptyEntry (s : List UInt8) (entryBegin entryEnd : ℕ) : Bool :=
  if entryBegin ≥ entryEnd then true else isBlank s entryBegin (entryEnd - entryBegin)

/-- `dx_find_first`. -/
def findFirst (s : List UInt8) (first last : ℕ) (ch : UInt8) : Option ℕ :=
  match strchr s first ch with
  | none => none
  | some pos => if pos > last then none else some pos

/-- `dx_find_last`. -/
def findLast (s : List UInt8) (first last : ℕ) (ch : UInt8) : Except Failure (Option ℕ) :=
  if last < first then .error .negativeLength
  else
    match ansiCreateStringSrcLen s first (last - first) with
    | none => .ok none
    | some substr => .ok ((strrchr substr ch).map (first + ·))

/-- `dx_find_first_of_values`. -/
def findFirstOfValues (s : List UInt8) (first last : ℕ) (ch₁ ch₂ : UInt8) : Option ℕ :=
  match findFirst s first last ch₁, findFirst s first last ch₂ with
  | none, secondPos => secondPos
  | firstPos, none => firstPos
  | some firstPos, some secondPos => some (min firstPos secondPos)

/-- `dx_has_next`. -/
def hasNext (s : List UInt8) : Option ℕ → Bool
  | none => false
  | some next => charAt s next != nullSymbol

/-- `dx_is_numeric`. -/
def isNumeric (str : List UInt8) : Bool :=
  str ≠ [] && str.all isdigit

/-! ### Splitting -/

/-- A range of the string: where it begins, and its size. -/
structure Range where
  first : ℕ
  size : ℕ
  deriving DecidableEq

/-- `dx_get_next_entry`: the entry, if there is one, and where the next begins. -/
def getNextEntry (s : List UInt8) : ℕ → ℕ → Except Failure (Option Range × ℕ)
  | 0, _ => .error .outOfFuel
  | fuel + 1, next =>
      if hasNext s (some next) then
        match strchr s next entryBeginSymbol, strchr s next entryEndSymbol with
        | none, none =>
            let nextLen := s.length - next
            if isEmptyEntry s next (next + nextLen) then .ok (none, next + nextLen)
            else .ok (some ⟨next, nextLen⟩, next + nextLen)
        | some first, some last =>
            if isEmptyEntry s (first + 1) last then getNextEntry s fuel (last + 1)
            else .ok (some ⟨first + 1, last - (first + 1)⟩, last + 1)
        | _, _ => .error .invalidFuncParam
      else .ok (none, next)

/-- `dx_get_next_codec`. -/
def getNextCodec (s : List UInt8) (nextEnd : ℕ) : ℕ → ℕ → Except Failure (Option Range × ℕ)
  | 0, _ => .error .outOfFuel
  | fuel + 1, next =>
      if hasNext s (some next) then
        match findFirst s next nextEnd codecSplitter with
        | none => .ok (none, s.length)
        | some last =>
            if isEmptyEntry s next last then getNextCodec s nextEnd fuel (last + 1)
            else .ok (some ⟨next, last - next⟩, last + 1)
      else .ok (none, next)

/-- `dx_get_codec_name`: the size of the name at the start of the codec. -/
def getCodecName (s : List UInt8) (codec codecSize : ℕ) : ℕ :=
  if codecSize = 0 then 0
  else
    match strchr s codec propertiesBeginSymbol with
    | none => codecSize
    | some last => if last ≥ codec + codecSize then codecSize else last - codec

/-- The properties between a pair of brackets, as a pointer that may be `NULL` and a size. -/
abbrev Properties := Option ℕ × ℕ

/-- `dx_get_codec_properties`. -/
def getCodecProperties (s : List UInt8) (codec codecSize : ℕ) : Except Failure Properties :=
  let nameSize := getCodecName s codec codecSize
  if codecSize = nameSize then .ok (none, 0)
  else
    let propsBegin := codec + nameSize
    let propsEnd := codec + codecSize - 1
    if charAt s propsBegin ≠ propertiesBeginSymbol ∨ charAt s propsEnd ≠ propertiesEndSymbol then
      .error .invalidFuncParam
    else if isEmptyEntry s propsBegin propsEnd then .ok (none, 0)
    else .ok (some propsBegin, propsEnd - propsBegin + 1)

/-- `dx_get_next_property`: the property, if there is one, and what is left of the properties. -/
def getNextProperty (s : List UInt8) : ℕ → Properties → Except Failure (Option Range × Properties)
  | 0, _ => .error .outOfFuel
  | _ + 1, (none, nextSize) => .ok (none, (none, nextSize))
  | fuel + 1, (some next, nextSize) =>
      if hasNext s (some next) && nextSize > 0 then
        let collectionEnd := next + nextSize - 1
        if charAt s next = propertiesBeginSymbol ∨ charAt s next = propertiesSplitter then
          match findFirstOfValues s (next + 1) collectionEnd propertiesEndSymbol
            propertiesSplitter with
          | none => .error .invalidFuncParam
          | some last =>
              let next' := if charAt s last = propertiesEndSymbol then last + 1 else last
              let nextSize' := nextSize - (next' - next)
              if isEmptyEntry s (next + 1) last then getNextProperty s fuel (some next', nextSize')
              else .ok (some ⟨next + 1, last - (next + 1)⟩, (some next', nextSize'))
        else .error .invalidFuncParam
      else .ok (none, (some next, nextSize))

/-- `dx_get_host_port_string`. -/
def getHostPortString (s : List UInt8) (entry entrySize : ℕ) : Except Failure Range := do
  let entryEnd := entry + entrySize
  let splitter ← findLast s entry entryEnd codecSplitter
  let first := match splitter with
    | none => entry
    | some pos => pos + 1
  match findFirst s first entryEnd propertiesBeginSymbol with
  | none => return ⟨first, entryEnd - first⟩
  | some last => return ⟨first, last - first⟩

/-- `dx_get_properties`. -/
def getProperties (s : List UInt8) (entry entrySize : ℕ) : Except Failure Properties := do
  let address ← getHostPortString s entry entrySize
  let first := address.first + address.size
  let last := entry + entrySize - 1
  if !hasNext s (some first) || first ≥ last then return (none, 0)
  if charAt s first ≠ propertiesBeginSymbol ∨ charAt s last ≠ propertiesEndSymbol then
    throw .invalidFuncParam
  if isEmptyEntry s first last then return (none, 0)
  return (some first, last - first + 1)

/-! ### Parsing -/

/-- `dx_parse_property`: a key and its value. -/
def parseProperty (s : List UInt8) (str : Range) : Except Failure (List UInt8 × List UInt8) :=
  match findFirst s str.first (str.first + str.size) propertyValueSplitter with
  | none => .error .invalidFunctionArg
  | some splitter =>
      if isEmptyEntry s str.first (splitter - 1) ||
          isEmptyEntry s (splitter + 1) (str.first + str.size) then
        .error .invalidFunctionArg
      else
        let keySize := splitter - str.first
        let valueSize := str.size - keySize - 1
        match ansiCreateStringSrcLen s str.first keySize,
          ansiCreateStringSrcLen s (splitter + 1) valueSize with
        | some key, some value => .ok (key, value)
        | _, _ => .error .nullString

/-- The loop over properties; `assign` stores the value of one key. -/
def parseProperties {α : Type} (s : List UInt8)
    (assign : α → List UInt8 × List UInt8 → Except Failure α) :
    ℕ → Properties → α → Except Failure α
  | 0, _, _ => .error .outOfFuel
  | fuel + 1, next, result => do
      let (str, next) ← getNextProperty s (s.length + 1) next
      let result ← match str with
        | none => pure result
        | some str => do assign result (← parseProperty s str)
      if hasNext s next.1 && next.2 > 0 then parseProperties s assign fuel next result
      else return result

/-- The properties of the codec. -/
def assignTls (tls : CodecTls) (prop : List UInt8 × List UInt8) : Except Failure CodecTls :=
  if prop.1 = chars ['k', 'e', 'y', 'S', 't', 'o', 'r', 'e'] then
    .ok { tls with keyStore := some prop.2 }
  else if prop.1 = chars ['k', 'e', 'y', 'S', 't', 'o', 'r', 'e', 'P', 'a', 's', 's', 'w', 'o',
      'r', 'd'] then
    .ok { tls with keyStorePassword := some prop.2 }
  else if prop.1 = chars ['t', 'r', 'u', 's', 't', 'S', 't', 'o', 'r', 'e'] then
    .ok { tls with trustStore := some prop.2 }
  else if prop.1 = chars ['t', 'r', 'u', 's', 't', 'S', 't', 'o', 'r', 'e', 'P', 'a', 's', 's',
      'w', 'o', 'r', 'd'] then
    .ok { tls with trustStorePassword := some prop.2 }
  else .error .invalidFunctionArg

/-- `dx_codec_tls_parser`. -/
def codecTlsParser (s : List UInt8) (codec : Range) (addr : Address) : Except Failure Address := do
  let props ← getCodecProperties s codec.first codec.size
  let tls ← parseProperties s assignTls (s.length + 1) props ⟨true, none, none, none, none⟩
  return { addr with tls := tls }

/-- `dx_codec_gzip_parser`. -/
def codecGzipParser (_s : List UInt8) (_codec : Range) (addr : Address) : Except Failure Address :=
  .ok { addr with gzip := ⟨true⟩ }

/-- `dx_codec_info_t`. -/
structure CodecInfo where
  name : List UInt8
  supported : Bool
  parser : List UInt8 → Range → Address → Except Failure Address

def codecs (status : CodecStatus) : List CodecInfo :=
  [⟨chars ['t', 'l', 's'], status.tls, codecTlsParser⟩,
   ⟨chars ['s', 's', 'l'], status.tls, codecTlsParser⟩,
   ⟨chars ['g', 'z', 'i', 'p'], status.gzip, codecGzipParser⟩]

/-- `dx_codec_parse`. -/
def codecParse (status : CodecStatus) (s : List UInt8) (codec : Range) (addr : Address) :
    Except Failure Address :=
  let codecNameSize := getCodecName s codec.first codec.size
  let codecName := (s.drop codec.first).take codecNameSize
  match (codecs status).find? fun info =>
      info.name.length == codecNameSize && startsWithNoCase codecName info.name with
  | none => .error .unknownCodec
  | some info => if info.supported then info.parser s codec addr else .error .unknownCodec

/-- `dx_parse_host_port`. -/
def parseHostPort (s : List UInt8) (host : Range) (addr : Address) : Except Failure Address := do
  match ansiCreateStringSrcLen s host.first host.size with
  | none => throw .nullString
  | some copy =>
      let hostStart := match schemes.find? (startsWithNoCase copy) with
        | none => 0
        | some scheme => scheme.length
      match ← findLast copy hostStart (host.size - 1) hostPortSplitter with
      | none => return { addr with host := some copy, port := none }
      | some portStart =>
          let portText := copy.drop (portStart + 1)
          if !isNumeric portText || sscanf portText < portMin || sscanf portText > portMax then
            throw .invalidPortValue
          return { addr with host := some (copy.take portStart), port := some portText }

/-- The loop over codecs in `dx_parse_address`. -/
def parseCodecs (status : CodecStatus) (s : List UInt8) (nextEnd : ℕ) :
    ℕ → ℕ → Address → Except Failure Address
  | 0, _, _ => .error .outOfFuel
  | fuel + 1, next, addr => do
      let (codec, next) ← getNextCodec s nextEnd (s.length + 1) next
      let addr ← match codec with
        | none => pure addr
        | some codec => codecParse status s codec addr
      if hasNext s (some next) then parseCodecs status s nextEnd fuel next addr
      else return addr

def usernameKey : List UInt8 := chars ['u', 's', 'e', 'r', 'n', 'a', 'm', 'e']
def passwordKey : List UInt8 := chars ['p', 'a', 's', 's', 'w', 'o', 'r', 'd']

/-- The properties of an address. -/
def assignAddress (addr : Address) (prop : List UInt8 × List UInt8) : Except Failure Address :=
  if prop.1 = usernameKey then
    .ok { addr with username := some prop.2 }
  else if prop.1 = passwordKey then
    .ok { addr with password := some prop.2 }
  else .error .invalidFunctionArg

/-- `dx_parse_address`. -/
def parseAddress (status : CodecStatus) (s : List UInt8) : Option Range → Except Failure Address
  | none => .error .invalidFuncParam
  | some entry => do
      if entry.size = 0 then throw .invalidFuncParam
      let addr ← parseCodecs status s (entry.first + entry.size) (s.length + 1) entry.first .zero
      let address ← getHostPortString s entry.first entry.size
      let addr ← parseHostPort s address addr
      let props ← getProperties s entry.first entry.size
      parseProperties s assignAddress (s.length + 1) props addr

/-- The loop of `dx_get_addresses_from_collection`. -/
def parseEntries (status : CodecStatus) (s : List UInt8) :
    ℕ → ℕ → List Address → Except Failure (List Address)
  | 0, _, _ => .error .outOfFuel
  | fuel + 1, next, addresses => do
      let (entry, next) ← getNextEntry s (s.length + 1) next
      let addr ← parseAddress status s entry
      let addresses := addresses ++ [addr]
      if hasNext s (some next) then parseEntries status s fuel next addresses
      else return addresses

/-- `dx_get_addresses_from_collection`, with memory enough for the addresses; the copy of an empty
collection is `NULL`. -/
def getAddressesFromCollection (status : CodecStatus) (collection : List UInt8) :
    Except Failure (List Address) :=
  if collection = [] then .error .nullString
  else parseEntries status collection (collection.length + 1) 0 []

end DxFeed.AddressParser
