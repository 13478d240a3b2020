import DxFeed.ServerMessageProcessor.RecordTables

/-!
# Record buffers

Every type of record has one buffer, a C structure that is read into again and again.

* `Value`, `RecordBuffer`: the members of a structure, filled with zeros at first;
* `MemberType.load`: what a setter reads from a variable;
* `members`: the structures, with the C types behind the setters of `RecordFieldSetters.c` and the
  column of subscription times of `DataStructures.c`;
* `defaultValue`: the getters of the default values;
* `RecordsContext`: the buffers, and the strings that were allocated for their members.
-/

namespace DxFeed.RecordBuffers

open ServerMessageProcessor

/-! ### Values -/

/-- A pointer.  What is allocated for the fields of records is numbered; a literal of the program
has no number. -/
structure Pointer (α : Type) where
  serial : Option ℕ
  target : α
  deriving DecidableEq

/-- What a member of a structure or a variable holds; `zero` is memory that was filled with zeros,
`unspecified` are bytes that depend on the addresses or on the stack, and `D` is the type of
doubles. -/
inductive Value (D : Type) where
  | zero
  | unspecified
  | byte (value : Int8)
  | char (value : UInt16)
  | short (value : Int16)
  | int (value : Int32)
  | long (value : Int64)
  | double (value : D)
  | string (value : Option (Pointer WString))
  | byteArray (value : Option (Pointer (List Int8)))
  deriving DecidableEq

/-- What the code takes from its platform: doubles, and functions of the standard library. -/
structure Platform (D : Type) where
  zero : D
  add : D → D → D
  isnan : D → Bool
  ofInt : Int32 → D
  toInt : D → Int32
  ofBits : Int64 → D
  toBits : D → Int64
  decimalIntToDouble : Int32 → D
  wideDecimalLongToDouble : Int64 → D
  symbolNameHasher : WString → UInt64
  ansiToUnicode : List Int8 → Option WString

variable {D : Type}

namespace Value

/-- The member is read as a `dxf_char_t`. -/
def asChar : Value D → UInt16
  | char value => value
  | _ => 0

/-- The member is read as a `dxf_int_t`. -/
def asInt : Value D → Int32
  | int value => value
  | _ => 0

/-- The member is read as a `dxf_long_t`. -/
def asLong : Value D → Int64
  | long value => value
  | _ => 0

/-- The member is read as a `dxf_double_t`. -/
def asDouble (platform : Platform D) : Value D → D
  | double value => value
  | _ => platform.zero

/-- The member is read as a `dxf_const_string_t`. -/
def asString : Value D → Option (Pointer WString)
  | string value => value
  | _ => none

/-- The member is read as a `dxf_byte_array_t`. -/
def asByteArray : Value D → Option (Pointer (List Int8))
  | byteArray value => value
  | _ => none

/-- The member is copied to the low end of 64 bits that are zero. -/
def bits : Value D → UInt64
  | char value => value.toUInt64
  | int value => value.toUInt32.toUInt64
  | long value => value.toUInt64
  | _ => 0

/-- The numbers of the pointers of a value. -/
def serials : Value D → List ℕ
  | string (some p) => p.serial.toList
  | byteArray (some p) => p.serial.toList
  | _ => []

/-- The value without the numbers of its pointers. -/
def erase : Value D → Value D
  | string p => string (p.map fun p => { p with serial := p.serial.map fun _ => 0 })
  | byteArray p => byteArray (p.map fun p => { p with serial := p.serial.map fun _ => 0 })
  | value => value

/-- The bytes of the value are known. -/
def isKnown : Value D → Bool
  | unspecified => false
  | _ => true

@[simp] theorem isKnown_erase (value : Value D) : value.erase.isKnown = value.isKnown := by
  cases value <;> rfl

end Value

/-! ### Structures -/

/-- The C type behind a setter.  The time of a theoretical price is set from an `int` and is a
`long`. -/
inductive MemberType where
  | char
  | int
  | long
  | double
  | string
  | byteArray
  | intToLong
  deriving DecidableEq

/-- `*(field_type*)field`, where `field` points to a variable: the bytes at the beginning of the
variable.  There is no answer where these are bytes of an address, or behind the end of the
variable. -/
def MemberType.load (platform : Platform D) : MemberType → Value D → Option (Value D)
  | .char, .char value => some (.char value)
  | .char, .int value => some (.char value.toUInt32.toUInt16)
  | .char, .long value => some (.char value.toUInt64.toUInt16)
  | .char, .double value => some (.char (platform.toBits value).toUInt64.toUInt16)
  | .int, .int value => some (.int value)
  | .int, .long value => some (.int value.toInt32)
  | .int, .double value => some (.int (platform.toBits value).toInt32)
  | .long, .long value => some (.long value)
  | .long, .double value => some (.long (platform.toBits value))
  | .double, .double value => some (.double value)
  | .double, .long value => some (.double (platform.ofBits value))
  | .string, .string value => some (.string value)
  | .byteArray, .byteArray value => some (.byteArray value)
  | .intToLong, .int value => some (.long value.toInt64)
  | .intToLong, .long value => some (.long value.toInt32.toInt64)
  | .intToLong, .double value => some (.long (platform.toBits value).toInt32.toInt64)
  | _, _ => none

/-- What a setter reads from a variable. -/
def MemberType.read (platform : Platform D) (type : MemberType) (value : Value D) : Value D :=
  (type.load platform value).getD .unspecified

theorem MemberType.isKnown_of_load {platform : Platform D} {type : MemberType}
    {value loaded : Value D} (h : type.load platform value = some loaded) :
    loaded.isKnown = true := by
  cases type <;> cases value <;>
    simp only [MemberType.load, Option.some.injEq, reduceCtorEq] at h <;>
    (subst h; rfl)

/-- `dx_ft_common_field` and the two fields of the time of a record. -/
inductive FieldTime where
  | common
  | firstTimeInt
  | secondTimeInt
  deriving DecidableEq

/-- A member of a structure that has a setter. -/
structure Member where
  name : String
  type : MemberType
  time : FieldTime
  deriving DecidableEq

namespace Member

def char (name : String) : Member := ⟨name, .char, .common⟩
def int (name : String) : Member := ⟨name, .int, .common⟩
def long (name : String) : Member := ⟨name, .long, .common⟩
def double (name : String) : Member := ⟨name, .double, .common⟩
def string (name : String) : Member := ⟨name, .string, .common⟩
def first (m : Member) : Member := { m with time := .firstTimeInt }
def second (m : Member) : Member := { m with time := .secondTimeInt }

end Member

open Member in
/-- The members of `dx_order_t` and `dx_spread_order_t` but for the last one. -/
def orderMembers : List Member :=
  [(int "index").second, int "time", int "sequence", int "time_nanos", long "action_time",
    long "order_id", long "aux_order_id", double "price", double "size", double "executed_size",
    double "count", int "flags", long "trade_id", double "trade_price", double "trade_size"]

open Member in
/-- The structures, in the order of their tables of fields. -/
def members : RecordInfoId → List Member
  | .trade =>
      [int "time", int "sequence", int "time_nanos", char "exchange_code", double "price",
        double "size", int "tick", double "change", int "day_id", double "day_volume",
        double "day_turnover", int "flags"]
  | .quote =>
      [int "sequence", int "time_nanos", int "bid_time", char "bid_exchange_code",
        double "bid_price", double "bid_size", int "ask_time", char "ask_exchange_code",
        double "ask_price", double "ask_size"]
  | .summary =>
      [int "day_id", double "day_open_price", double "day_high_price", double "day_low_price",
        double "day_close_price", int "prev_day_id", double "prev_day_close_price",
        double "prev_day_volume", double "open_interest", int "flags"]
  | .profile =>
      [double "beta", double "eps", double "div_freq", double "exd_div_amount",
        int "exd_div_date", double "high_price_52", double "low_price_52", double "shares",
        double "free_float", double "high_limit_price", double "low_limit_price",
        int "halt_start_time", int "halt_end_time", int "flags", string "description",
        string "status_reason"]
  | .marketMaker =>
      [(char "mm_exchange").first, (int "mm_id").second, int "mmbid_time", double "mmbid_price",
        double "mmbid_size", double "mmbid_count", int "mmask_time", double "mmask_price",
        double "mmask_size", double "mmask_count"]
  | .order => orderMembers ++ [int "mmid"]
  | .timeAndSale =>
      [(int "time").first, (int "sequence").second, char "exchange_code", double "price",
        double "size", double "bid_price", double "ask_price", int "exchange_sale_conditions",
        int "flags", string "buyer", string "seller"]
  | .candle =>
      [(int "time").first, (int "sequence").second, double "count", double "open", double "high",
        double "low", double "close", double "volume", double "vwap", double "bid_volume",
        double "ask_volume", double "imp_volatility", double "open_interest"]
  | .tradeEth =>
      [int "time", int "sequence", int "time_nanos", char "exchange_code", double "price",
        double "size", double "change", int "day_id", double "day_volume",
        double "day_turnover", int "flags"]
  | .spreadOrder => orderMembers ++ [string "spread_symbol"]
  | .greeks =>
      [(int "time").first, (int "sequence").second, double "price", double "volatility",
        double "delta", double "gamma", double "theta", double "rho", double "vega"]
  | .theoPrice =>
      [⟨"time", .intToLong, .common⟩, double "price", double "underlying_price", double "delta",
        double "gamma", double "dividend", double "interest"]
  | .underlying =>
      [double "volatility", double "front_volatility", double "back_volatility",
        double "call_volume", double "put_volume", double "put_call_ratio"]
  | .series =>
      [(int "index").second, int "time", int "sequence", int "expiration", double "volatility",
        double "call_volume", double "put_volume", double "put_call_ratio",
        double "forward_price", double "dividend", double "interest"]
  | .configuration => [int "version", ⟨"object", .byteArray, .common⟩]

/-- The name of the structure of a record. -/
def structName : RecordInfoId → String
  | .trade | .tradeEth => "dx_trade_t"
  | .quote => "dx_quote_t"
  | .summary => "dx_summary_t"
  | .profile => "dx_profile_t"
  | .marketMaker => "dx_market_maker_t"
  | .order => "dx_order_t"
  | .timeAndSale => "dx_time_and_sale_t"
  | .candle => "dx_candle_t"
  | .spreadOrder => "dx_spread_order_t"
  | .greeks => "dx_greeks_t"
  | .theoPrice => "dx_theo_price_t"
  | .underlying => "dx_underlying_t"
  | .series => "dx_series_t"
  | .configuration => "dx_configuration_t"

/-- `DX_RECORD_FIELD_SETTER_NAME`. -/
def setterName (info : RecordInfoId) (m : Member) : FunctionName :=
  structName info ++ "_" ++ m.name ++ "_setter"

/-- `DX_RECORD_FIELD_DEF_VAL_NAME`. -/
def defValName (info : RecordInfoId) (m : Member) : FunctionName :=
  structName info ++ "_" ++ m.name ++ "_default_value"

/-- The table of the fields of a record. -/
def recordFields : RecordInfoId → List FieldInfo
  | .trade => dxFieldsTrade
  | .quote => dxFieldsQuote
  | .summary => dxFieldsSummary
  | .profile => dxFieldsProfile
  | .marketMaker => dxFieldsMarketMaker
  | .order => dxFieldsOrder
  | .timeAndSale => dxFieldsTimeAndSale
  | .candle => dxFieldsCandle
  | .tradeEth => dxFieldsTradeEth
  | .spreadOrder => dxFieldsSpreadOrder
  | .greeks => dxFieldsGreeks
  | .theoPrice => dxFieldsTheoPrice
  | .underlying => dxFieldsUnderlying
  | .series => dxFieldsSeries
  | .configuration => dxFieldsConfiguration

/-- The setters of a table are those of the members of the structure. -/
theorem recordFields_setter (info : RecordInfoId) :
    (recordFields info).map FieldInfo.setter = (members info).map (setterName info) := by
  cases info <;> decide +kernel

/-- The getters of default values of a table are those of the members. -/
theorem recordFields_defValGetter (info : RecordInfoId) :
    (recordFields info).map FieldInfo.defValGetter = (members info).map (defValName info) := by
  cases info <;> decide +kernel

/-- Different members have different setters. -/
theorem nodup_setterName (info : RecordInfoId) : ((members info).map (setterName info)).Nodup := by
  cases info <;> decide +kernel

theorem nodup_defValName (info : RecordInfoId) : ((members info).map (defValName info)).Nodup := by
  cases info <;> decide +kernel

/-! ### Default values -/

/-- The generic value getters. -/
def MemberType.genericValue (platform : Platform D) : MemberType → Value D
  | .char => .char 0
  | .int | .intToLong => .int 0
  | .long => .long 0
  | .double => .double platform.zero
  | .string => .string (some ⟨none, wideString "<Default>"⟩)
  | .byteArray => .byteArray none

/-- A default value has the type of the setter. -/
theorem MemberType.isSome_load_genericValue (platform : Platform D) (type : MemberType) :
    (type.load platform (type.genericValue platform)).isSome := by
  cases type <;> rfl

/-- The default value that a getter returns; nothing is known of those of other structures. -/
def defaultValue (platform : Platform D) (info : RecordInfoId) (getter : FunctionName) : Value D :=
  match (members info).find? fun m => defValName info m = getter with
  | some m => m.type.genericValue platform
  | none => .unspecified

/-! ### Buffers -/

/-- The members of a structure by their names. -/
abbrev RecordBuffer (D : Type) := String → Value D

namespace RecordBuffer

/-- A buffer that `dx_calloc` returns. -/
def zero : RecordBuffer D := fun _ => .zero

variable (buffer : RecordBuffer D)

def char (name : String) : UInt16 := (buffer name).asChar
def int (name : String) : Int32 := (buffer name).asInt
def long (name : String) : Int64 := (buffer name).asLong
def double (platform : Platform D) (name : String) : D := (buffer name).asDouble platform
def string (name : String) : Option (Pointer WString) := (buffer name).asString
def byteArray (name : String) : Option (Pointer (List Int8)) := (buffer name).asByteArray

/-- The text that a member points to. -/
def text (name : String) : Option WString := (buffer.string name).map Pointer.target

/-- The elements of a member that is an array. -/
def elements (name : String) : List Int8 :=
  ((buffer.byteArray name).map Pointer.target).getD []

/-- The numbers of what a member points to. -/
def serials (name : String) : List ℕ := (buffer name).serials

/-- The buffer without the numbers of its pointers. -/
def erase : RecordBuffer D := fun name => (buffer name).erase

/-- A member is set from a variable. -/
def set (platform : Platform D) (m : Member) (value : Value D) : RecordBuffer D :=
  Function.update buffer m.name (m.type.read platform value)

section erase

variable (name : String)

@[simp] theorem char_erase : buffer.erase.char name = buffer.char name := by
  rw [char, char, erase]
  cases buffer name <;> rfl

@[simp] theorem int_erase : buffer.erase.int name = buffer.int name := by
  rw [int, int, erase]
  cases buffer name <;> rfl

@[simp] theorem long_erase : buffer.erase.long name = buffer.long name := by
  rw [long, long, erase]
  cases buffer name <;> rfl

@[simp] theorem double_erase (platform : Platform D) :
    buffer.erase.double platform name = buffer.double platform name := by
  rw [double, double, erase]
  cases buffer name <;> rfl

@[simp] theorem text_erase : buffer.erase.text name = buffer.text name := by
  rw [text, text, string, string, erase]
  cases buffer name with
  | string p => cases p <;> rfl
  | _ => rfl

@[simp] theorem elements_erase : buffer.erase.elements name = buffer.elements name := by
  rw [elements, elements, byteArray, byteArray, erase]
  cases buffer name with
  | byteArray p => cases p <;> rfl
  | _ => rfl

end erase

end RecordBuffer

/-- The member that a setter sets. -/
def findMember (info : RecordInfoId) (setter : FunctionName) : Option Member :=
  (members info).find? fun m => setterName info m = setter

/-- `dx_record_buffers_connection_context_t`.  The strings and the byte arrays that were allocated
for fields have the numbers below `allocated`, and those below `freed` are freed. -/
structure RecordsContext (D : Type) where
  buffers : RecordInfoId → RecordBuffer D
  allocated : ℕ
  freed : ℕ

namespace RecordsContext

/-- The context of a new connection. -/
def init : RecordsContext D := ⟨fun _ => .zero, 0, 0⟩

/-- `dx_free_buffers`. -/
def freeBuffers (context : RecordsContext D) : RecordsContext D :=
  { context with freed := context.allocated }

/-- The buffer of a record is changed. -/
def setBuffer (context : RecordsContext D) (info : RecordInfoId) (buffer : RecordBuffer D) :
    RecordsContext D :=
  { context with buffers := Function.update context.buffers info buffer }

end RecordsContext

end DxFeed.RecordBuffers
