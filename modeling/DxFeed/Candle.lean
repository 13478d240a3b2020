import DxFeed.Library.Call
import DxFeed.ServerMessageProcessor.RecordTables

/-!
# The text of a candle symbol

* `CandleAttributes`: the attributes of a candle;
* `candleSymbolToString`: `dx_candle_symbol_to_string`;
* `CandleAttribute`, `readAttribute`: an attribute of the group in braces, its text, and how it is
  read;
* `IsSymbolText`, `HasText`: the text that a symbol should have.
-/

namespace DxFeed.Candle

open Call
open ServerMessageProcessor (wideString)

/-! ### Attributes -/

/-- `dxf_candle_type_period_attribute_t`. -/
inductive PeriodType
  | tick | second | minute | hour | day | week | month | optexp | year | volume | price
  | priceMomentum | priceRenko
  deriving DecidableEq

/-- `dxf_candle_price_attribute_t`. -/
inductive Price
  | last | bid | ask | mark | settlement
  deriving DecidableEq

/-- `dxf_candle_session_attribute_t`. -/
inductive Session
  | any | regular
  deriving DecidableEq

/-- `dxf_candle_alignment_attribute_t`. -/
inductive Alignment
  | midnight | session
  deriving DecidableEq

/-- `dxf_ctpa_default`. -/
def PeriodType.default : PeriodType := .tick

/-- `dxf_cpa_default`. -/
def Price.default : Price := .last

/-- `dxf_csa_default`. -/
def Session.default : Session := .any

/-- `dxf_caa_default`. -/
def Alignment.default : Alignment := .midnight

/-- `g_candle_type_period`. -/
def PeriodType.string : PeriodType → WString
  | tick => wideString "t"
  | second => wideString "s"
  | minute => wideString "m"
  | hour => wideString "h"
  | day => wideString "d"
  | week => wideString "w"
  | month => wideString "mo"
  | optexp => wideString "o"
  | year => wideString "y"
  | volume => wideString "v"
  | price => wideString "p"
  | priceMomentum => wideString "pm"
  | priceRenko => wideString "pr"

/-- `g_candle_price`. -/
def Price.string : Price → WString
  | last => wideString "last"
  | bid => wideString "bid"
  | ask => wideString "ask"
  | mark => wideString "mark"
  | settlement => wideString "s"

/-- `g_candle_session`. -/
def Session.string : Session → WString
  | any => wideString "false"
  | regular => wideString "true"

/-- `g_candle_alignment`. -/
def Alignment.string : Alignment → WString
  | midnight => wideString "m"
  | session => wideString "s"

/-- `dx_candle_attributes_data_t`. -/
structure CandleAttributes (D : Type) where
  baseSymbol : WString
  exchangeCode : UInt16
  periodValue : D
  periodType : PeriodType
  price : Price
  session : Session
  alignment : Alignment
  priceLevel : D

/-- Doubles, and what the standard library says of characters and doubles.  The text of a double
for `%g` ends in a digit or in the last character of `inf`, `nan` or `nan(…)`. -/
structure CandlePlatform (D : Type) where
  one : D
  eq : D → D → Bool
  isnan : D → Bool
  iswalpha : UInt16 → Bool
  iswalpha_zero : iswalpha 0 = false
  formatG : D → WString
  comma_notMem : ∀ x, 0x2C ∉ formatG x
  formatG_last : ∀ x, ∃ init last, formatG x = init ++ [last] ∧
    last ∈ wideString "0123456789fn)"

/-- Why a call fails; the last one is a write behind the end of `buffer_str`. -/
inductive Failure
  | invalidFuncParamInternal
  | insufficientMemory
  | overrun
  deriving DecidableEq

variable {D : Type} (platform : CandlePlatform D) (attributes : CandleAttributes D)

/-! ### The text -/

/-- `buffer_str` and `put_comma`. -/
structure SymbolBuffer where
  text : WString
  putComma : Bool
  deriving DecidableEq

abbrev SymbolCall := Call Failure SymbolBuffer

/-- The number of characters in `buffer_str`, with the terminator. -/
def bufferSize : ℕ := 1000

/-- `dx_copy_string`. -/
def copyString (src : WString) : SymbolCall Unit := do
  if bufferSize ≤ src.length then throw .overrun
  modify ({ · with text := src })

/-- `dx_concatenate_strings`. -/
def concatenateStrings (src : WString) : SymbolCall Unit := do
  let buffer ← get
  if bufferSize ≤ buffer.text.length + src.length then throw .overrun
  set { buffer with text := buffer.text ++ src }

def setPutComma : SymbolCall Unit :=
  modify ({ · with putComma := true })

/-- The comma in front of an attribute. -/
def writeComma : SymbolCall Unit := do
  if (← get).putComma then concatenateStrings (wideString ",")

/-- The period is not the default. -/
def CandleAttributes.hasPeriod : Bool :=
  decide (attributes.periodType ≠ .default) ||
    !platform.eq attributes.periodValue platform.one

/-- The value of the period, if it is not the default. -/
def writePeriodValue : SymbolCall Unit := do
  if !platform.eq attributes.periodValue platform.one then
    concatenateStrings (platform.formatG attributes.periodValue)

/-- The period, which has no name and is written the first. -/
def writePeriod : SymbolCall Unit := do
  if attributes.hasPeriod platform then
    concatenateStrings (wideString "=")
    writePeriodValue platform attributes
    concatenateStrings attributes.periodType.string
    setPutComma

/-- An attribute that is not the default: the alignment, the price and the session. -/
def writeAttribute (present : Bool) (key value : WString) : SymbolCall Unit := do
  if present then
    writeComma
    concatenateStrings key
    concatenateStrings value
    setPutComma

def writeAlignment : SymbolCall Unit :=
  writeAttribute (decide (attributes.alignment ≠ .default)) (wideString "a=")
    attributes.alignment.string

/-- The price level; no comma is put behind it. -/
def writePriceLevel : SymbolCall Unit := do
  if !platform.isnan attributes.priceLevel then
    writeComma
    concatenateStrings (wideString "pl=")
    concatenateStrings (platform.formatG attributes.priceLevel)

def writePrice : SymbolCall Unit :=
  writeAttribute (decide (attributes.price ≠ .default)) (wideString "price=")
    attributes.price.string

def writeSession : SymbolCall Unit :=
  writeAttribute (decide (attributes.session ≠ .default)) (wideString "tho=")
    attributes.session.string

/-- All attributes but the exchange code are the defaults. -/
def CandleAttributes.allDefault : Bool :=
  platform.eq attributes.periodValue platform.one &&
    decide (attributes.periodType = .default) && decide (attributes.alignment = .default) &&
    decide (attributes.price = .default) && decide (attributes.session = .default) &&
    platform.isnan attributes.priceLevel

/-- `dx_create_string_src` of the buffer. -/
def createString (allocated : Bool) : SymbolCall WString := do
  if !allocated then throw .insufficientMemory
  return (← get).text

/-- The exchange code; `tmpstr` is a string with a terminator. -/
def writeExchangeCode : SymbolCall Unit := do
  if platform.iswalpha attributes.exchangeCode then
    concatenateStrings ([0x26, attributes.exchangeCode].takeWhile (· ≠ 0))

/-- The attributes in braces; those with a name are sorted. -/
def writeGroup : SymbolCall Unit := do
  concatenateStrings (wideString "\x7b")
  writePeriod platform attributes
  writeAlignment attributes
  writePriceLevel platform attributes
  writePrice attributes
  writeSession attributes
  concatenateStrings (wideString "\x7d")

/-- `dx_candle_symbol_to_string`, with memory for the string or without it. -/
def candleSymbolToString (allocated : Bool) :
    Option (CandleAttributes D) → SymbolCall WString
  | none => throw .invalidFuncParamInternal
  | some attributes => do
      copyString attributes.baseSymbol
      writeExchangeCode platform attributes
      if attributes.allDefault platform then createString allocated
      else
        writeGroup platform attributes
        createString allocated

/-! ### Attributes and their texts -/

/-- An attribute of the group in braces.  A number is given by its text; a period without a number
has the default one. -/
inductive CandleAttribute
  | period (value : Option WString) (type : PeriodType)
  | alignment (alignment : Alignment)
  | priceLevel (value : WString)
  | price (price : Price)
  | session (session : Session)
  deriving DecidableEq

def CandleAttribute.key : CandleAttribute → WString
  | .period _ _ => []
  | .alignment _ => wideString "a"
  | .priceLevel _ => wideString "pl"
  | .price _ => wideString "price"
  | .session _ => wideString "tho"

def CandleAttribute.value : CandleAttribute → WString
  | .period number type => number.getD [] ++ type.string
  | .alignment a => a.string
  | .priceLevel number => number
  | .price p => p.string
  | .session s => s.string

/-- The attribute as `key=value`. -/
def CandleAttribute.text (item : CandleAttribute) : WString :=
  item.key ++ 0x3D :: item.value

/-- The characters of the types of a period. -/
def periodLetters : WString := wideString "tsmhdwoyvpr"

/-- The period behind its sign: a number, if there is one, and a type. -/
def readPeriod (value : WString) : Option CandleAttribute :=
  let letters := (value.reverse.takeWhile (· ∈ periodLetters)).reverse
  let number := (value.reverse.dropWhile (· ∈ periodLetters)).reverse
  let types : List PeriodType :=
    [.tick, .second, .minute, .hour, .day, .week, .month, .optexp, .year, .volume, .price,
      .priceMomentum, .priceRenko]
  (types.find? (·.string = letters)).map (.period (if number = [] then none else some number))

/-- An attribute is read from its text. -/
def readAttribute (text : WString) : Option CandleAttribute :=
  let key := text.takeWhile (· ≠ 0x3D)
  let value := text.drop (key.length + 1)
  if key = [] then readPeriod value
  else if key = wideString "a" then
    ([Alignment.midnight, .session].find? (·.string = value)).map .alignment
  else if key = wideString "pl" then some (.priceLevel value)
  else if key = wideString "price" then
    ([Price.last, .bid, .ask, .mark, .settlement].find? (·.string = value)).map .price
  else if key = wideString "tho" then
    ([Session.any, .regular].find? (·.string = value)).map .session
  else none

/-- The text of a double. -/
def IsNumber (text : WString) : Prop :=
  0x2C ∉ text ∧ ∃ init last, text = init ++ [last] ∧ last ∈ wideString "0123456789fn)"

theorem CandlePlatform.isNumber_formatG (x : D) : IsNumber (platform.formatG x) :=
  ⟨platform.comma_notMem x, platform.formatG_last x⟩

/-- The texts of numbers in the attribute are numbers. -/
def CandleAttribute.WellFormed : CandleAttribute → Prop
  | .period value _ => ∀ number ∈ value, IsNumber number
  | .priceLevel value => IsNumber value
  | _ => True

theorem periodLetters_string (type : PeriodType) :
    ∀ c ∈ type.string.reverse, decide (c ∈ periodLetters) = true := by
  rw [← List.all_eq_true]
  cases type <;> rfl

theorem periodLetters_number :
    ∀ c ∈ wideString "0123456789fn)", decide (c ∈ periodLetters) = false := by
  have hnone : (wideString "0123456789fn)").all (fun c => !decide (c ∈ periodLetters)) = true := rfl
  intro c hc
  exact Bool.eq_false_of_not_eq_true' (List.all_eq_true.mp hnone c hc)

/-- The text of a number ends in front of the type behind it. -/
theorem readPeriod_text {value : Option WString} (hvalue : ∀ number ∈ value, IsNumber number)
    (type : PeriodType) :
    readPeriod (value.getD [] ++ type.string) = some (.period value type) := by
  have hletters := periodLetters_string type
  have htail : ((value.getD []).reverse).takeWhile (· ∈ periodLetters) = [] ∧
      ((value.getD []).reverse).dropWhile (· ∈ periodLetters) = (value.getD []).reverse := by
    cases value with
    | none => exact ⟨rfl, rfl⟩
    | some number =>
        obtain ⟨-, init, last, rfl, hlast⟩ := hvalue number rfl
        have hother := periodLetters_number last hlast
        simp [hother]
  have hnumber : (if value.getD [] = [] then none else some (value.getD [])) = value := by
    cases value with
    | none => rfl
    | some number =>
        obtain ⟨-, init, last, rfl, -⟩ := hvalue number rfl
        simp
  unfold readPeriod
  dsimp only
  rw [List.reverse_append, List.takeWhile_append_of_pos hletters,
    List.dropWhile_append_of_pos hletters, htail.1, htail.2, List.append_nil, List.reverse_reverse,
    List.reverse_reverse, hnumber]
  cases type <;> rfl

/-- Every attribute is read back from its text. -/
theorem readAttribute_text {item : CandleAttribute} (h : item.WellFormed) :
    readAttribute item.text = some item := by
  cases item with
  | period value type => exact readPeriod_text h type
  | alignment alignment => cases alignment <;> rfl
  | priceLevel value => rfl
  | price price => cases price <;> rfl
  | session session => cases session <;> rfl

/-- There is no comma in the text of an attribute. -/
theorem comma_notMem_text {item : CandleAttribute} (h : item.WellFormed) :
    0x2C ∉ item.text := by
  cases item with
  | period value type =>
      have hvalue : (0x2C : UInt16) ∉ value.getD [] := by
        cases value with
        | none => exact List.not_mem_nil
        | some number => exact (h number rfl).1
      have htype : (0x2C : UInt16) ∉ type.string := by
        cases type <;> decide
      simp [CandleAttribute.text, CandleAttribute.key, CandleAttribute.value, hvalue, htype]
  | alignment alignment => cases alignment <;> decide
  | priceLevel value =>
      have hkey : (0x2C : UInt16) ∉ wideString "pl" := by decide
      simp [CandleAttribute.text, CandleAttribute.key, CandleAttribute.value, hkey, h.1]
  | price price => cases price <;> decide
  | session session => cases session <;> decide

/-! ### The group in braces -/

/-- An attribute, if it is there. -/
def itemIf (present : Bool) (item : CandleAttribute) : List CandleAttribute :=
  if present then [item] else []

/-- The period; its value is there if it is not the default. -/
def CandleAttributes.period : CandleAttribute :=
  .period (if platform.eq attributes.periodValue platform.one then none
    else some (platform.formatG attributes.periodValue)) attributes.periodType

namespace CandleAttributes

def periodItems : List CandleAttribute :=
  itemIf (attributes.hasPeriod platform) (attributes.period platform)

def alignmentItems : List CandleAttribute :=
  itemIf (decide (attributes.alignment ≠ .default)) (.alignment attributes.alignment)

def priceLevelItems : List CandleAttribute :=
  itemIf (!platform.isnan attributes.priceLevel)
    (.priceLevel (platform.formatG attributes.priceLevel))

def priceItems : List CandleAttribute :=
  itemIf (decide (attributes.price ≠ .default)) (.price attributes.price)

def sessionItems : List CandleAttribute :=
  itemIf (decide (attributes.session ≠ .default)) (.session attributes.session)

/-- The attributes that are not the defaults, in their order. -/
def nonDefault : List CandleAttribute :=
  attributes.periodItems platform ++ attributes.alignmentItems ++
    attributes.priceLevelItems platform ++ attributes.priceItems ++ attributes.sessionItems

end CandleAttributes

/-- The exchange code behind its sign. -/
def CandleAttributes.exchangeText : WString :=
  if platform.iswalpha attributes.exchangeCode then [0x26, attributes.exchangeCode] else []

/-- The text of a symbol: the base symbol, the exchange code, and the attributes in braces, if there
are any.  They are what is between the commas, and are read from there. -/
def IsSymbolText (s : WString) : Prop :=
  ∃ group, s = attributes.baseSymbol ++ attributes.exchangeText platform ++ group ∧
    if attributes.nonDefault platform = [] then group = []
    else ∃ body, group = 0x7B :: body ++ [0x7D] ∧
      body.splitOn 0x2C = (attributes.nonDefault platform).map CandleAttribute.text ∧
      (body.splitOn 0x2C).map readAttribute = (attributes.nonDefault platform).map some

/-- The call gives the text of the symbol. -/
def HasText : Prop :=
  ∃ s, (exec (candleSymbolToString platform true (some attributes)) ⟨[], false⟩).1 = .ok s ∧
    IsSymbolText platform attributes s

/-- Items with commas between them, and one in front if there is something before them. -/
def separated : Bool → List CandleAttribute → WString
  | _, [] => []
  | putComma, item :: items =>
      (if putComma then wideString "," else []) ++ item.text ++ separated true items

theorem separated_append (putComma : Bool) (xs ys : List CandleAttribute) :
    separated putComma (xs ++ ys) =
      separated putComma xs ++ separated (putComma || !xs.isEmpty) ys := by
  induction xs generalizing putComma with
  | nil => simp [separated]
  | cons x xs ih => simp [separated, ih]

/-- Items behind a text. -/
theorem append_separated (text : WString) (items : List CandleAttribute) :
    text ++ separated true items =
      [0x2C].intercalate (text :: items.map CandleAttribute.text) := by
  induction items generalizing text with
  | nil => simp [separated]
  | cons item items ih =>
      rw [List.map_cons, List.intercalate_cons_cons, ← ih]
      simp [separated, wideString]

theorem splitOn_append_separated {text : WString} {items : List CandleAttribute}
    (htext : 0x2C ∉ text) (hitems : ∀ item ∈ items, item.WellFormed) :
    (text ++ separated true items).splitOn 0x2C = text :: items.map CandleAttribute.text := by
  rw [append_separated]
  apply List.splitOn_intercalate _ ?_ (List.cons_ne_nil _ _)
  intro t ht
  rcases List.mem_cons.mp ht with rfl | ht
  · exact htext
  · obtain ⟨item, hitem, rfl⟩ := List.mem_map.mp ht
    exact comma_notMem_text (hitems item hitem)

theorem splitOn_separated {items : List CandleAttribute}
    (hitems : ∀ item ∈ items, item.WellFormed) (hne : items ≠ []) :
    (separated false items).splitOn 0x2C = items.map CandleAttribute.text := by
  cases items with
  | nil => exact absurd rfl hne
  | cons item items =>
      exact splitOn_append_separated (comma_notMem_text (hitems item List.mem_cons_self))
        fun other hother => hitems other (List.mem_cons_of_mem item hother)

theorem isEmpty_itemIf (present : Bool) (item : CandleAttribute) :
    (!(itemIf present item).isEmpty) = present := by
  cases present <;> rfl

theorem wellFormed_nonDefault : ∀ item ∈ attributes.nonDefault platform, item.WellFormed := by
  intro item h
  have hone : ∀ {present other}, item ∈ itemIf present other → item = other := by
    intro present other hmem
    cases present with
    | false => cases hmem
    | true => exact List.mem_singleton.mp hmem
  unfold CandleAttributes.nonDefault at h
  simp only [List.mem_append] at h
  rcases h with (((h | h) | h) | h) | h
  · rw [hone h]
    rintro number hnumber
    split_ifs at hnumber
    · cases hnumber
    · cases hnumber
      exact platform.isNumber_formatG _
  · rw [hone h]
    trivial
  · rw [hone h]
    exact platform.isNumber_formatG _
  · rw [hone h]
    trivial
  · rw [hone h]
    trivial

end DxFeed.Candle
