import DxFeed.RecordTranscoder
import DxFeed.RecordBuffers
import DxFeed.SymbolCodec.Wire

/-!
# Transcoders

A transcoder makes events of the buffer of a record and passes them on.  An event buffer is all
zeros at first, and an event is the list of what is assigned to its fields.

* `transcoder`: the fifteen transcoders of `RecordTranscoder.c`;
* `configurationDeserializeString`: the string of a configuration;
* `transcoder_erase`: the events do not depend on where texts were allocated;
* `transcoder_removal`: the removals that take nothing but two fields from the buffer.
-/

namespace DxFeed.RecordTranscoder

open RecordBuffers Snapshot SymbolCodec

variable {D : Type}

/-! ### Events -/

/-- What is assigned to a field of an event.  Truth values and enumerations are numbers. -/
inductive EventValue (D : Type) where
  | char (value : UInt16)
  | int (value : Int32)
  | long (value : Int64)
  | double (value : D)
  | string (value : Option WString)
  deriving DecidableEq

/-- The assignments to the fields of an event. -/
abbrev EventFields (D : Type) := List (String × EventValue D)

/-- An event as `dx_process_event_data` gets it. -/
structure RecordEvent (D : Type) where
  eventId : EventId
  symbolName : Option WString
  data : EventFields D
  params : EventParams
  deriving DecidableEq

/-- How a transcoder fails: it returns an error, it reads through a null pointer, or it reads bytes
that are not known, behind the end of an array or of a variable. -/
inductive TranscoderError where
  | failed (code : ErrorCode)
  | crashed
  | overread
  deriving DecidableEq

/-- What a transcoder does: the events that it passes on, and the numbers of the pointers through
which it reads. -/
structure Transcoding (D : Type) where
  events : Except TranscoderError (List (RecordEvent D))
  dereferenced : List ℕ

/-- `dx_record_params_t`. -/
structure RecordParams where
  recordInfoId : RecordInfoId
  suffix : Option WString
  symbolName : Option WString
  flags : UInt32
  deriving DecidableEq

/-! ### Parts of events -/

/-- `DX_EXCHANGE_FROM_RECORD`. -/
def exchangeFromRecord (params : RecordParams) : UInt16 :=
  match params.suffix with
  | none => 0
  | some suffix => suffix.headD 0

/-- `DX_TIME_FIELD_TO_MS`. -/
def timeFieldMs (field : Int32) : Int64 := field.toInt64 * 1000

/-- `DX_SEQUENCE_TO_MS`. -/
def sequenceToMs (sequence : Int32) : Int64 := ((sequence >>> 22) &&& 0x3FF).toInt64

/-- `DX_SEQUENCE`. -/
def sequenceOf (sequence : Int32) : Int32 := sequence &&& 0x3FFFFF

/-- Bits of the flags of a record. -/
def flagBits (flags : Int32) (shift mask : Int32) : Int32 := (flags >>> shift) &&& mask

def truth (b : Bool) : Int32 := if b then 1 else 0

def OrderScope.toInt : OrderScope → Int32
  | .composite => 0
  | .regional => 1
  | .aggregate => 2
  | .order => 3

def sideToInt : OrderSide → Int32
  | .undefined => 0
  | .buy => 1
  | .sell => 2

/-- The scope of an event with an exchange code. -/
def scopeOf (exchangeCode : UInt16) : OrderScope :=
  if exchangeCode = 0 then .composite else .regional

/-- `dx_create_string_src`. -/
def createStringSrc (src : WString) : WString := createStringSrcLen src src.length

namespace EventFields

variable (platform : Platform D) (buffer : RecordBuffer D)

/-- Doubles are copied to fields of the same names. -/
def doubles (names : List String) : EventFields D :=
  names.map fun name => (name, .double (buffer.double platform name))

def ints (names : List String) : EventFields D :=
  names.map fun name => (name, .int (buffer.int name))

def longs (names : List String) : EventFields D :=
  names.map fun name => (name, .long (buffer.long name))

/-- A text is copied if there is one. -/
def text (name : String) : EventFields D :=
  match buffer.text name with
  | some src => [(name, .string (some (createStringSrc src)))]
  | none => []

/-- `DX_TIME_SEQ_TO_MS` goes to the time of an event. -/
def timeSeq : EventFields D :=
  [("time", .long (timeFieldMs (buffer.int "time") + sequenceToMs (buffer.int "sequence")))]

def sequence : EventFields D := [("sequence", .int (sequenceOf (buffer.int "sequence")))]

def scope (value : OrderScope) : EventFields D := [("scope", .int value.toInt)]

/-- The string of a code goes to a field. -/
def decoded (name : String) (code : Int32) : EventFields D :=
  [(name, .string (some (decodeFromInteger (code.toBitVec.signExtend 64))))]

/-- The volume of all options of an underlying or of a series. -/
def optionVolume : EventFields D :=
  let call := buffer.double platform "call_volume"
  let put := buffer.double platform "put_volume"
  [("option_volume", .double
    (if platform.isnan put then call
      else if platform.isnan call then put else platform.add put call))]

end EventFields

open EventFields

variable (platform : Platform D) (params : RecordParams) (eventParams : EventParams)
  (buffer : RecordBuffer D)

/-- One event is passed on. -/
def recordEvent (eventId : EventId) (data : EventFields D) : RecordEvent D :=
  ⟨eventId, params.symbolName, data, eventParams⟩

/-! ### The transcoders -/

/-- `dx_trade_t_transcoder_impl`. -/
def tradeTranscoderImpl (eventId : EventId) : Transcoding D :=
  let exchangeCode := exchangeFromRecord params
  let flags := buffer.int "flags"
  { events := .ok [recordEvent params eventParams eventId
      (timeSeq buffer ++ sequence buffer ++ ints buffer ["time_nanos"] ++
        [("exchange_code", .char
          (if buffer.char "exchange_code" ≠ 0 then buffer.char "exchange_code" else exchangeCode))] ++
        doubles platform buffer ["price", "size"] ++
        (if eventId = .trade then ints buffer ["tick"] else []) ++
        doubles platform buffer ["change"] ++ ints buffer ["day_id"] ++
        doubles platform buffer ["day_volume", "day_turnover"] ++
        [("raw_flags", .int flags), ("direction", .int (flagBits flags 1 0x7)),
          ("is_eth", .int (truth (flags &&& 1 = 1)))] ++ scope (scopeOf exchangeCode))]
    dereferenced := [] }

/-- `dx_trade_t_transcoder`. -/
def tradeTranscoder : Transcoding D := tradeTranscoderImpl platform params eventParams buffer .trade

/-- `dx_trade_eth_t_transcoder`. -/
def tradeEthTranscoder : Transcoding D :=
  tradeTranscoderImpl platform params eventParams buffer .tradeEth

/-- What a quote gives to the order of one of its sides; `own` and `other` are the times of this side
and of the other one. -/
structure QuoteSide where
  compositeSource : ℕ
  regionalSource : ℕ
  side : OrderSide
  own : String
  other : String
  exchangeCode : String
  price : String
  size : String

/-- `DX_ORDER_FROM_QUOTE_BID_INDEX` and `DX_ORDER_FROM_QUOTE_ASK_INDEX`. -/
def orderFromQuoteIndex (half : QuoteSide) (exchangeCode : UInt16) : Int64 :=
  Int64.ofNat ((if exchangeCode = 0 then half.compositeSource else half.regionalSource)
    <<< orderIndexSsrcShift ||| charToBits exchangeCode <<< orderIndexExcShift)

/-- The order of one side of a quote. -/
def transcodeQuoteToOrder (half : QuoteSide) : RecordEvent D :=
  let exchangeCode := exchangeFromRecord params
  let own := buffer.int half.own
  let later : Bool := buffer.int half.other < own
  recordEvent params eventParams .order
    ([("index", .long (orderFromQuoteIndex half exchangeCode)),
      ("time", .long (timeFieldMs own +
        if later then sequenceToMs (buffer.int "sequence") else 0)),
      ("time_nanos", .int (if later then buffer.int "time_nanos" else 0))] ++ sequence buffer ++
      [("price", .double (buffer.double platform half.price)),
        ("size", .double (buffer.double platform half.size)), ("count", .double platform.zero)] ++
      scope (scopeOf exchangeCode) ++
      [("side", .int (sideToInt half.side)),
        ("exchange_code", .char
          (if exchangeCode = 0 then buffer.char half.exchangeCode else exchangeCode)),
        ("source", .string (some [])), ("market_maker", .string none)])

/-- The two sides of a quote. -/
def quoteBidSide : QuoteSide :=
  ⟨1, 3, .buy, "bid_time", "ask_time", "bid_exchange_code", "bid_price", "bid_size"⟩

def quoteAskSide : QuoteSide :=
  ⟨2, 4, .sell, "ask_time", "bid_time", "ask_exchange_code", "ask_price", "ask_size"⟩

/-- `dx_transcode_quote_to_order_bid`. -/
def transcodeQuoteToOrderBid : RecordEvent D :=
  transcodeQuoteToOrder platform params eventParams buffer quoteBidSide

/-- `dx_transcode_quote_to_order_ask`; it also clears the flags. -/
def transcodeQuoteToOrderAsk : RecordEvent D :=
  transcodeQuoteToOrder platform params eventParams buffer quoteAskSide

/-- `dx_transcode_quote`. -/
def transcodeQuote : RecordEvent D :=
  let exchangeCode := exchangeFromRecord params
  let bidTime := buffer.int "bid_time"
  let askTime := buffer.int "ask_time"
  let exchange (name : String) : EventFields D :=
    [(name, .char (if exchangeCode ≠ 0 then exchangeCode else buffer.char name))]
  recordEvent params eventParams .quote
    ([("time", .long (timeFieldMs (if askTime < bidTime then bidTime else askTime) +
        sequenceToMs (buffer.int "sequence")))] ++ sequence buffer ++ ints buffer ["time_nanos"] ++
      [("bid_time", .long (timeFieldMs bidTime))] ++ exchange "bid_exchange_code" ++
      doubles platform buffer ["bid_price", "bid_size"] ++
      [("ask_time", .long (timeFieldMs askTime))] ++ exchange "ask_exchange_code" ++
      doubles platform buffer ["ask_price", "ask_size"] ++ scope (scopeOf exchangeCode))

/-- `dx_quote_t_transcoder`. -/
def quoteTranscoder : Transcoding D :=
  { events := .ok
      [transcodeQuoteToOrderBid platform params (bidEventParams eventParams) buffer,
        transcodeQuoteToOrderAsk platform params (askEventParams eventParams) buffer,
        transcodeQuote platform params eventParams buffer]
    dereferenced := [] }

/-- `dx_summary_t_transcoder`. -/
def summaryTranscoder : Transcoding D :=
  let exchangeCode := exchangeFromRecord params
  let flags := buffer.int "flags"
  { events := .ok [recordEvent params eventParams .summary
      (ints buffer ["day_id"] ++
        doubles platform buffer
          ["day_open_price", "day_high_price", "day_low_price", "day_close_price"] ++
        ints buffer ["prev_day_id"] ++
        doubles platform buffer
          ["prev_day_close_price", "prev_day_volume", "open_interest"] ++
        [("raw_flags", .int flags), ("exchange_code", .char exchangeCode),
          ("day_close_price_type", .int (flagBits flags 2 0x3)),
          ("prev_day_close_price_type", .int (flagBits flags 0 0x3))] ++
        scope (scopeOf exchangeCode))]
    dereferenced := [] }

/-- `dx_profile_t_transcoder`. -/
def profileTranscoder : Transcoding D :=
  let flags := buffer.int "flags"
  { events := .ok [recordEvent params eventParams .profile
      (doubles platform buffer ["beta", "eps", "div_freq", "exd_div_amount"] ++
        ints buffer ["exd_div_date"] ++
        [("high_52_week_price", .double (buffer.double platform "high_price_52")),
          ("low_52_week_price", .double (buffer.double platform "low_price_52"))] ++
        doubles platform buffer
          ["shares", "free_float", "high_limit_price", "low_limit_price"] ++
        [("halt_start_time", .long (timeFieldMs (buffer.int "halt_start_time"))),
          ("halt_end_time", .long (timeFieldMs (buffer.int "halt_end_time"))),
          ("raw_flags", .int flags)] ++
        text buffer "description" ++ text buffer "status_reason" ++
        [("trading_status", .int (flagBits flags 0 0x3)), ("ssr", .int (flagBits flags 2 0x3))])]
    dereferenced := buffer.serials "description" ++ buffer.serials "status_reason" }

/-- The buffer of a market maker record. -/
def MarketMaker.ofBuffer : MarketMaker D where
  mmExchange := buffer.char "mm_exchange"
  mmId := (buffer.int "mm_id").toBitVec
  mmbidTime := (buffer.int "mmbid_time").toInt
  mmbidPrice := buffer.double platform "mmbid_price"
  mmbidSize := buffer.double platform "mmbid_size"
  mmbidCount := buffer.double platform "mmbid_count"
  mmaskTime := (buffer.int "mmask_time").toInt
  mmaskPrice := buffer.double platform "mmask_price"
  mmaskSize := buffer.double platform "mmask_size"
  mmaskCount := buffer.double platform "mmask_count"

/-- The fields of an order of a market maker. -/
def marketMakerOrder (event : Event D (OrderFields D)) : RecordEvent D :=
  let fields := event.data.fields
  recordEvent params event.params .order
    [("event_flags", .int (Int32.ofNat event.data.eventFlags)),
      ("index", .long (Int64.ofInt event.data.index)), ("time", .long (Int64.ofInt fields.time)),
      ("sequence", .int (Int32.ofNat fields.sequence)), ("price", .double fields.price),
      ("size", .double event.data.size), ("count", .double fields.count),
      ("scope", .int fields.scope.toInt), ("side", .int (sideToInt fields.side)),
      ("exchange_code", .char fields.exchangeCode), ("source", .string (some fields.source)),
      ("market_maker", .string event.data.strings.head?)]

/-- `dx_market_maker_t_transcoder`. -/
def marketMakerRecordTranscoder : Transcoding D :=
  { events := .ok
      ((@marketMakerTranscoder D ⟨platform.zero⟩ eventParams
        (MarketMaker.ofBuffer platform buffer)).map (marketMakerOrder params))
    dereferenced := [] }

/-- `suffix_to_long`: the low octets of the last four characters. -/
def suffixToLong (suffix : WString) : ℕ :=
  (suffix.drop (suffix.length - 4)).foldl (fun ret c => ret <<< 8 ||| (c.toNat &&& 0xFF)) 0

/-- `DX_ORDER_INDEX`. -/
def orderIndex (suffix : WString) (index : Int32) : Int64 :=
  Int64.ofNat (suffixToLong suffix <<< 32 ||| intToBits index.toBitVec)

/-- The fields that a removal has, and those that only other events have. -/
def withRemoval (removal rest : EventFields D) : EventFields D :=
  if isFlagSet eventParams.flags EventFlag.removeEvent then removal else removal ++ rest

/-- The flags, the index and the time of an event. -/
def eventHeader (index : Int64) : EventFields D :=
  [("event_flags", .int (Int32.ofNat eventParams.flags)), ("index", .long index)] ++ timeSeq buffer

/-- What the transcoders of orders have in common; an order without a source is a crash.  `last` is
what the two kinds of orders differ in. -/
def orderTranscoderImpl (eventId : EventId) (last : EventFields D) (dereferenced : List ℕ) :
    Transcoding D :=
  match params.suffix with
  | none => ⟨.error .crashed, []⟩
  | some suffix =>
      let flags := buffer.int "flags"
      { events := .ok [recordEvent params eventParams eventId
          (("source", .string (some suffix)) ::
            withRemoval eventParams
              (eventHeader eventParams buffer (orderIndex suffix (buffer.int "index")))
              (sequence buffer ++ ints buffer ["time_nanos"] ++
                [("action", .int (flagBits flags 11 0x0f))] ++
                longs buffer ["action_time", "order_id", "aux_order_id"] ++
                doubles platform buffer ["price", "size", "executed_size", "count"] ++
                longs buffer ["trade_id"] ++ doubles platform buffer ["trade_price", "trade_size"] ++
                [("exchange_code", .char (flagBits flags 4 0x7f).toUInt32.toUInt16),
                  ("side", .int (flagBits flags 2 0x03)),
                  ("scope", .int (flagBits flags 0 0x03))] ++
                last))]
        dereferenced :=
          if isFlagSet eventParams.flags EventFlag.removeEvent then [] else dereferenced }

/-- `dx_order_t_transcoder`. -/
def orderTranscoder : Transcoding D :=
  orderTranscoderImpl platform params eventParams buffer .order
    (decoded "market_maker" (buffer.int "mmid")) []

/-- `dx_spread_order_t_transcoder`. -/
def spreadOrderTranscoder : Transcoding D :=
  orderTranscoderImpl platform params eventParams buffer .spreadOrder
    (text buffer "spread_symbol") (buffer.serials "spread_symbol")

/-- The index of an event with a time and a sequence. -/
def timeIndex : Int64 :=
  Int64.ofNat (intToBits (buffer.int "time").toBitVec <<< 32 |||
    intToBits (buffer.int "sequence").toBitVec)

/-- `dx_time_and_sale_t_transcoder`. -/
def timeAndSaleTranscoder : Transcoding D :=
  let flags := buffer.int "flags"
  { events := .ok [recordEvent params eventParams .timeAndSale
      (withRemoval eventParams (eventHeader eventParams buffer (timeIndex buffer))
        ([("exchange_code", .char (buffer.char "exchange_code"))] ++
          doubles platform buffer ["price", "size", "bid_price", "ask_price"] ++
          decoded "exchange_sale_conditions" (buffer.int "exchange_sale_conditions") ++
          [("raw_flags", .int flags)] ++ text buffer "buyer" ++ text buffer "seller" ++
          [("side", .int (flagBits flags 5 0x3)), ("type", .int (flagBits flags 0 0x3)),
            ("is_valid_tick", .int (truth (flags &&& 0x4 = 0x4))),
            ("is_eth_trade", .int (truth (flags &&& 0x08 = 0x08))),
            ("trade_through_exempt", .char (flagBits flags 8 0xff).toUInt32.toUInt16),
            ("is_spread_leg", .int (truth (flags &&& 0x10 = 0x10)))] ++
          scope (scopeOf (exchangeFromRecord params))))]
    dereferenced :=
      if isFlagSet eventParams.flags EventFlag.removeEvent then []
      else buffer.serials "buyer" ++ buffer.serials "seller" }

/-- `dx_candle_t_transcoder`. -/
def candleTranscoder : Transcoding D :=
  { events := .ok [recordEvent params eventParams .candle
      (withRemoval eventParams (eventHeader eventParams buffer (timeIndex buffer))
        (sequence buffer ++
          doubles platform buffer
            ["count", "open", "high", "low", "close", "volume", "vwap", "bid_volume",
              "ask_volume", "imp_volatility", "open_interest"]))]
    dereferenced := [] }

/-- `dx_greeks_t_transcoder`. -/
def greeksTranscoder : Transcoding D :=
  { events := .ok [recordEvent params eventParams .greeks
      (withRemoval eventParams (eventHeader eventParams buffer (timeIndex buffer))
        (doubles platform buffer
          ["price", "volatility", "delta", "gamma", "theta", "rho", "vega"]))]
    dereferenced := [] }

/-- The time of a theoretical price, in milliseconds. -/
def theoPriceTime : Int64 := buffer.long "time" * 1000

/-- `dx_theo_price_t_transcoder`: the event is the buffer of the record. -/
def theoPriceTranscoder : Transcoding D :=
  { events := .ok [recordEvent params eventParams .theoPrice
      ([("time", .long (theoPriceTime buffer))] ++
        doubles platform buffer
          ["price", "underlying_price", "delta", "gamma", "dividend", "interest"])]
    dereferenced := [] }

/-- `dx_underlying_t_transcoder`. -/
def underlyingTranscoder : Transcoding D :=
  { events := .ok [recordEvent params eventParams .underlying
      (doubles platform buffer
          ["volatility", "front_volatility", "back_volatility", "call_volume", "put_volume"] ++
        optionVolume platform buffer ++ doubles platform buffer ["put_call_ratio"])]
    dereferenced := [] }

/-- `dx_series_t_transcoder`. -/
def seriesTranscoder : Transcoding D :=
  { events := .ok [recordEvent params eventParams .series
      (withRemoval eventParams (eventHeader eventParams buffer (buffer.int "index").toInt64)
        (sequence buffer ++ ints buffer ["expiration"] ++
          doubles platform buffer ["volatility", "call_volume", "put_volume"] ++
          optionVolume platform buffer ++
          doubles platform buffer ["put_call_ratio", "forward_price", "dividend", "interest"]))]
    dereferenced := [] }

/-! ### Configurations -/

/-- `STREAM_MAGIC`. -/
def streamMagic : Int16 := 0xACED

/-- `STREAM_VERSION`. -/
def streamVersion : Int16 := 5

/-- `TC_STRING`. -/
def tcString : Int8 := 0x74

/-- `TC_LONGSTRING`. -/
def tcLongstring : Int8 := 0x7C

/-- Two bytes of an object, for both instances of `READ_MULTIMBYTE_VALUE_BODY`; they are not read
from the end of the object. -/
def readTwoBytes (object : List Int8) (pos : ℕ) : Option UInt16 :=
  if object.length ≤ pos + 2 then none
  else some ((object.getD pos 0).toUInt8.toUInt16 <<< 8 |||
    (object.getD (pos + 1) 0).toUInt8.toUInt16)

/-- The position and the length of the string that an object announces, which may be none. -/
def announcedString (object : List Int8) : Except ErrorCode (Option (ℕ × ℤ)) :=
  if (readTwoBytes object 0).map UInt16.toInt16 ≠ some streamMagic then .error .csdecProtocolError
  else if (readTwoBytes object 2).map UInt16.toInt16 ≠ some streamVersion then
    .error .csdecUnsupportedVersion
  else if object.length ≤ 5 then .error .csdecProtocolError
  else
    let serializeType := object.getD 4 0
    if serializeType = tcString ∨ serializeType = tcLongstring then
      match readTwoBytes object 5 with
      | none => .error .csdecProtocolError
      | some value =>
          .ok (some (7, if serializeType = tcString then value.toInt16.toInt else value.toNat))
    else .ok none

/-- `read_string`.  The length of a short string has a sign; there is no memory for a buffer of
nearly `2 ^ 64` bytes, and a buffer without bytes is written behind its end. -/
def readString (object : List Int8) (pos : ℕ) (length : ℤ) :
    Except TranscoderError (Option WString) :=
  if length < -1 then .error (.failed .csdecProtocolError)
  else if length = -1 ∨ (((object.drop pos).length : ℤ) < length ∧ 0 ∉ object.drop pos) then
    .error .overread
  else .ok (platform.ansiToUnicode (((object.drop pos).take length.toNat).takeWhile (· ≠ 0)))

/-- `dx_configuration_deserialize_string`. -/
def configurationDeserializeString (object : List Int8) :
    Except TranscoderError (Option WString) :=
  match announcedString object with
  | .error code => .error (.failed code)
  | .ok none => .ok none
  | .ok (some (pos, length)) => readString platform object pos length

/-- `dx_configuration_t_transcoder`. -/
def configurationTranscoder : Transcoding D :=
  { events := (configurationDeserializeString platform (buffer.elements "object")).map fun object =>
      [recordEvent params eventParams .configuration
        (ints buffer ["version"] ++ [("object", .string object)])]
    dereferenced := buffer.serials "object" }

/-- The object has the string that it announces. -/
def ContainsString (object : List Int8) : Prop :=
  ∀ pos length, announcedString object = .ok (some (pos, length)) →
    length ≠ -1 ∧ (length ≤ (object.drop pos).length ∨ 0 ∈ object.drop pos)

theorem ContainsString.noOverread {object : List Int8} (h : ContainsString object) :
    configurationDeserializeString platform object ≠ .error .overread := by
  unfold configurationDeserializeString
  split
  · simp
  · simp
  · rename_i pos length hstring
    obtain ⟨hlength, hcontains⟩ := h pos length hstring
    unfold readString
    split_ifs with hneg hover
    · simp
    · rcases hover with hover | ⟨hshort, hzero⟩
      · exact absurd hover hlength
      · rcases hcontains with hle | hmem
        · omega
        · exact absurd hmem hzero
    · simp

/-! ### All transcoders -/

/-- `g_record_transcoders`. -/
def transcoder : RecordInfoId → Transcoding D
  | .trade => tradeTranscoder platform params eventParams buffer
  | .quote => quoteTranscoder platform params eventParams buffer
  | .summary => summaryTranscoder platform params eventParams buffer
  | .profile => profileTranscoder platform params eventParams buffer
  | .marketMaker => marketMakerRecordTranscoder platform params eventParams buffer
  | .order => orderTranscoder platform params eventParams buffer
  | .timeAndSale => timeAndSaleTranscoder platform params eventParams buffer
  | .candle => candleTranscoder platform params eventParams buffer
  | .tradeEth => tradeEthTranscoder platform params eventParams buffer
  | .spreadOrder => spreadOrderTranscoder platform params eventParams buffer
  | .greeks => greeksTranscoder platform params eventParams buffer
  | .theoPrice => theoPriceTranscoder platform params eventParams buffer
  | .underlying => underlyingTranscoder platform params eventParams buffer
  | .series => seriesTranscoder platform params eventParams buffer
  | .configuration => configurationTranscoder platform params eventParams buffer

/-- `dx_transcode_record_data`. -/
def transcodeRecordData : Transcoding D :=
  transcoder platform params eventParams buffer params.recordInfoId

/-- The buffer behind a transcoder.  Only that of theoretical prices writes to it. -/
def bufferBehind : RecordInfoId → RecordBuffer D
  | .theoPrice => Function.update buffer "time" (.long (theoPriceTime buffer))
  | _ => buffer

section erase

@[simp] theorem doubles_erase (names : List String) :
    doubles platform buffer.erase names = doubles platform buffer names := by
  simp [doubles]

@[simp] theorem ints_erase (names : List String) : ints buffer.erase names = ints buffer names := by
  simp [ints]

@[simp] theorem longs_erase (names : List String) :
    longs buffer.erase names = longs buffer names := by
  simp [longs]

@[simp] theorem text_erase (name : String) : text buffer.erase name = text buffer name := by
  simp [text]

@[simp] theorem timeSeq_erase : timeSeq buffer.erase = timeSeq buffer := by
  simp [timeSeq]

@[simp] theorem sequence_erase : sequence buffer.erase = sequence buffer := by
  simp [EventFields.sequence]

@[simp] theorem optionVolume_erase :
    optionVolume platform buffer.erase = optionVolume platform buffer := by
  simp [optionVolume]

@[simp] theorem eventHeader_erase (index : Int64) :
    eventHeader eventParams buffer.erase index = eventHeader eventParams buffer index := by
  simp [eventHeader]

@[simp] theorem timeIndex_erase : timeIndex buffer.erase = timeIndex buffer := by
  simp [timeIndex]

@[simp] theorem ofBuffer_erase :
    MarketMaker.ofBuffer platform buffer.erase = MarketMaker.ofBuffer platform buffer := by
  simp [MarketMaker.ofBuffer]

/-- The events do not depend on where texts were allocated. -/
theorem transcoder_erase (info : RecordInfoId) :
    (transcoder platform params eventParams buffer.erase info).events =
      (transcoder platform params eventParams buffer info).events := by
  cases info with
  | trade | tradeEth => simp [transcoder, tradeTranscoder, tradeEthTranscoder, tradeTranscoderImpl]
  | quote =>
      simp [transcoder, quoteTranscoder, transcodeQuoteToOrderBid, transcodeQuoteToOrderAsk,
        transcodeQuoteToOrder, transcodeQuote]
  | summary => simp [transcoder, summaryTranscoder]
  | profile => simp [transcoder, profileTranscoder]
  | marketMaker => simp [transcoder, marketMakerRecordTranscoder]
  | order =>
      simp only [transcoder, orderTranscoder, orderTranscoderImpl]
      cases params.suffix <;> simp
  | spreadOrder =>
      simp only [transcoder, spreadOrderTranscoder, orderTranscoderImpl]
      cases params.suffix <;> simp
  | timeAndSale => simp [transcoder, timeAndSaleTranscoder]
  | candle => simp [transcoder, candleTranscoder]
  | greeks => simp [transcoder, greeksTranscoder]
  | theoPrice => simp [transcoder, theoPriceTranscoder, theoPriceTime]
  | underlying => simp [transcoder, underlyingTranscoder]
  | series => simp [transcoder, seriesTranscoder]
  | configuration => simp [transcoder, configurationTranscoder]

end erase

/-- The records whose removals have an index and a time that come from the fields of the removal. -/
def IsTimeIndexed (info : RecordInfoId) : Prop :=
  info = .timeAndSale ∨ info = .candle ∨ info = .greeks

instance (info : RecordInfoId) : Decidable (IsTimeIndexed info) :=
  inferInstanceAs (Decidable (_ ∨ _))

/-- The removal of such a record takes its time and its sequence from the buffer, and nothing
else. -/
theorem transcoder_removal {info : RecordInfoId} (hinfo : IsTimeIndexed info)
    (hremove : isFlagSet eventParams.flags EventFlag.removeEvent = true)
    {buffer buffer' : RecordBuffer D} (htime : buffer.int "time" = buffer'.int "time")
    (hsequence : buffer.int "sequence" = buffer'.int "sequence") :
    transcoder platform params eventParams buffer info =
      transcoder platform params eventParams buffer' info := by
  have hheader : eventHeader eventParams buffer (timeIndex buffer) =
      eventHeader eventParams buffer' (timeIndex buffer') := by
    simp only [eventHeader, timeSeq, timeIndex, htime, hsequence]
  rcases hinfo with rfl | rfl | rfl
  · simp only [transcoder, timeAndSaleTranscoder, withRemoval, hremove, if_true, hheader]
  · simp only [transcoder, candleTranscoder, withRemoval, hremove, if_true, hheader]
  · simp only [transcoder, greeksTranscoder, withRemoval, hremove, if_true, hheader]

theorem dereferenced_removal {info : RecordInfoId} (hinfo : IsTimeIndexed info)
    (hremove : isFlagSet eventParams.flags EventFlag.removeEvent = true) :
    (transcoder platform params eventParams buffer info).dereferenced = [] := by
  rcases hinfo with rfl | rfl | rfl
  · simp only [transcoder, timeAndSaleTranscoder, hremove, if_true]
  · rfl
  · rfl

end DxFeed.RecordTranscoder
