import DxFeed.ServerMessageProcessor.DescribeRecords

/-!
# The fields of the local records

The tables of `DataStructures.c`.  Their column of subscription times is left out.

* `recordTables`: the fields of every record, by the default name of the record;
* `RecordList.FromTables`: the records that a client can have;
* `RecordList.IsProper`: what the message processor relies on, which holds of all of them.
-/

namespace DxFeed.ServerMessageProcessor

/-! ### Field types -/

def fidUtfChar : Int32 := 2

def fidCompactInt : Int32 := 8

def fidByteArray : Int32 := 9

def fidUtfCharArray : Int32 := 10

def fidFlagTimeSeconds : Int32 := 0x30

def fidFlagSequence : Int32 := 0x40

def fidFlagDate : Int32 := 0x50

def fidFlagLong : Int32 := 0x60

def fidFlagWideDecimal : Int32 := 0x70

def fidFlagTimeMillis : Int32 := 0x90

def fidFlagSerialObject : Int32 := 0xf0

/-! ### Tables -/

def wideString (s : String) : WString :=
  s.toList.map fun c => UInt16.ofNat c.toNat

/-- A table of the fields of a structure: `DX_RECORD_FIELD_STDOPS` in every row. -/
def fieldTable (structName : String) (rows : List (Int32 × String × String)) : List FieldInfo :=
  rows.map fun (type, name, fieldName) =>
    { type := type
      name := wideString name
      setter := structName ++ "_" ++ fieldName ++ "_setter"
      defValGetter := structName ++ "_" ++ fieldName ++ "_default_value" }

/-- `dx_fields_trade`. -/
def dxFieldsTrade : List FieldInfo :=
  fieldTable "dx_trade_t"
    [(fidCompactInt, "Last.Time", "time"),
     (fidCompactInt, "Last.Sequence", "sequence"),
     (fidCompactInt, "Last.TimeNanoPart", "time_nanos"),
     (fidUtfChar, "Last.Exchange", "exchange_code"),
     (fidCompactInt ||| fidFlagWideDecimal, "Last.Price", "price"),
     (fidCompactInt ||| fidFlagWideDecimal, "Last.Size", "size"),
     (fidCompactInt, "Last.Tick", "tick"),
     (fidCompactInt ||| fidFlagWideDecimal, "Last.Change", "change"),
     (fidCompactInt ||| fidFlagDate, "DayId", "day_id"),
     (fidCompactInt ||| fidFlagWideDecimal, "Volume", "day_volume"),
     (fidCompactInt ||| fidFlagWideDecimal, "DayTurnover", "day_turnover"),
     (fidCompactInt, "Last.Flags", "flags")]

/-- `dx_fields_quote`. -/
def dxFieldsQuote : List FieldInfo :=
  fieldTable "dx_quote_t"
    [(fidCompactInt, "Sequence", "sequence"),
     (fidCompactInt, "TimeNanoPart", "time_nanos"),
     (fidCompactInt, "Bid.Time", "bid_time"),
     (fidUtfChar, "Bid.Exchange", "bid_exchange_code"),
     (fidCompactInt ||| fidFlagWideDecimal, "Bid.Price", "bid_price"),
     (fidCompactInt ||| fidFlagWideDecimal, "Bid.Size", "bid_size"),
     (fidCompactInt, "Ask.Time", "ask_time"),
     (fidUtfChar, "Ask.Exchange", "ask_exchange_code"),
     (fidCompactInt ||| fidFlagWideDecimal, "Ask.Price", "ask_price"),
     (fidCompactInt ||| fidFlagWideDecimal, "Ask.Size", "ask_size")]

/-- `dx_fields_summary`. -/
def dxFieldsSummary : List FieldInfo :=
  fieldTable "dx_summary_t"
    [(fidCompactInt ||| fidFlagDate, "DayId", "day_id"),
     (fidCompactInt ||| fidFlagWideDecimal, "DayOpen.Price", "day_open_price"),
     (fidCompactInt ||| fidFlagWideDecimal, "DayHigh.Price", "day_high_price"),
     (fidCompactInt ||| fidFlagWideDecimal, "DayLow.Price", "day_low_price"),
     (fidCompactInt ||| fidFlagWideDecimal, "DayClose.Price", "day_close_price"),
     (fidCompactInt ||| fidFlagDate, "PrevDayId", "prev_day_id"),
     (fidCompactInt ||| fidFlagWideDecimal, "PrevDayClose.Price", "prev_day_close_price"),
     (fidCompactInt ||| fidFlagWideDecimal, "PrevDayVolume", "prev_day_volume"),
     (fidCompactInt ||| fidFlagWideDecimal, "OpenInterest", "open_interest"),
     (fidCompactInt, "Flags", "flags")]

/-- `dx_fields_profile`. -/
def dxFieldsProfile : List FieldInfo :=
  fieldTable "dx_profile_t"
    [(fidCompactInt ||| fidFlagWideDecimal, "Beta", "beta"),
     (fidCompactInt ||| fidFlagWideDecimal, "Eps", "eps"),
     (fidCompactInt ||| fidFlagWideDecimal, "DivFreq", "div_freq"),
     (fidCompactInt ||| fidFlagWideDecimal, "ExdDiv.Amount", "exd_div_amount"),
     (fidCompactInt ||| fidFlagDate, "ExdDiv.Date", "exd_div_date"),
     (fidCompactInt ||| fidFlagWideDecimal, "52High.Price", "high_price_52"),
     (fidCompactInt ||| fidFlagWideDecimal, "52Low.Price", "low_price_52"),
     (fidCompactInt ||| fidFlagWideDecimal, "Shares", "shares"),
     (fidCompactInt ||| fidFlagWideDecimal, "FreeFloat", "free_float"),
     (fidCompactInt ||| fidFlagWideDecimal, "HighLimitPrice", "high_limit_price"),
     (fidCompactInt ||| fidFlagWideDecimal, "LowLimitPrice", "low_limit_price"),
     (fidCompactInt ||| fidFlagTimeSeconds, "Halt.StartTime", "halt_start_time"),
     (fidCompactInt ||| fidFlagTimeSeconds, "Halt.EndTime", "halt_end_time"),
     (fidCompactInt, "Flags", "flags"),
     (fidUtfCharArray, "Description", "description"),
     (fidUtfCharArray, "StatusReason", "status_reason")]

/-- `dx_fields_market_maker`. -/
def dxFieldsMarketMaker : List FieldInfo :=
  fieldTable "dx_market_maker_t"
    [(fidUtfChar, "MMExchange", "mm_exchange"),
     (fidCompactInt, "MMID", "mm_id"),
     (fidCompactInt, "MMBid.Time", "mmbid_time"),
     (fidCompactInt ||| fidFlagWideDecimal, "MMBid.Price", "mmbid_price"),
     (fidCompactInt ||| fidFlagWideDecimal, "MMBid.Size", "mmbid_size"),
     (fidCompactInt ||| fidFlagWideDecimal, "MMBid.Count", "mmbid_count"),
     (fidCompactInt, "MMAsk.Time", "mmask_time"),
     (fidCompactInt ||| fidFlagWideDecimal, "MMAsk.Price", "mmask_price"),
     (fidCompactInt ||| fidFlagWideDecimal, "MMAsk.Size", "mmask_size"),
     (fidCompactInt ||| fidFlagWideDecimal, "MMAsk.Count", "mmask_count")]

/-- `dx_fields_order`. -/
def dxFieldsOrder : List FieldInfo :=
  fieldTable "dx_order_t"
    [(fidCompactInt, "Index", "index"),
     (fidCompactInt, "Time", "time"),
     (fidCompactInt, "Sequence", "sequence"),
     (fidCompactInt, "TimeNanoPart", "time_nanos"),
     (fidCompactInt ||| fidFlagTimeMillis, "ActionTime", "action_time"),
     (fidCompactInt ||| fidFlagLong, "OrderId", "order_id"),
     (fidCompactInt ||| fidFlagLong, "AuxOrderId", "aux_order_id"),
     (fidCompactInt ||| fidFlagWideDecimal, "Price", "price"),
     (fidCompactInt ||| fidFlagWideDecimal, "Size", "size"),
     (fidCompactInt ||| fidFlagWideDecimal, "ExecutedSize", "executed_size"),
     (fidCompactInt ||| fidFlagWideDecimal, "Count", "count"),
     (fidCompactInt, "Flags", "flags"),
     (fidCompactInt ||| fidFlagLong, "TradeId", "trade_id"),
     (fidCompactInt ||| fidFlagWideDecimal, "TradePrice", "trade_price"),
     (fidCompactInt ||| fidFlagWideDecimal, "TradeSize", "trade_size"),
     (fidCompactInt, "MarketMaker", "mmid")]

/-- `dx_fields_time_and_sale`. -/
def dxFieldsTimeAndSale : List FieldInfo :=
  fieldTable "dx_time_and_sale_t"
    [(fidCompactInt ||| fidFlagTimeSeconds, "Time", "time"),
     (fidCompactInt ||| fidFlagSequence, "Sequence", "sequence"),
     (fidUtfChar, "Exchange", "exchange_code"),
     (fidCompactInt ||| fidFlagWideDecimal, "Price", "price"),
     (fidCompactInt ||| fidFlagWideDecimal, "Size", "size"),
     (fidCompactInt ||| fidFlagWideDecimal, "BidPrice", "bid_price"),
     (fidCompactInt ||| fidFlagWideDecimal, "AskPrice", "ask_price"),
     (fidCompactInt, "SaleConditions", "exchange_sale_conditions"),
     (fidCompactInt, "Flags", "flags"),
     (fidUtfCharArray, "Buyer", "buyer"),
     (fidUtfCharArray, "Seller", "seller")]

/-- `dx_fields_candle`. -/
def dxFieldsCandle : List FieldInfo :=
  fieldTable "dx_candle_t"
    [(fidCompactInt ||| fidFlagTimeSeconds, "Time", "time"),
     (fidCompactInt ||| fidFlagSequence, "Sequence", "sequence"),
     (fidCompactInt ||| fidFlagWideDecimal, "Count", "count"),
     (fidCompactInt ||| fidFlagWideDecimal, "Open", "open"),
     (fidCompactInt ||| fidFlagWideDecimal, "High", "high"),
     (fidCompactInt ||| fidFlagWideDecimal, "Low", "low"),
     (fidCompactInt ||| fidFlagWideDecimal, "Close", "close"),
     (fidCompactInt ||| fidFlagWideDecimal, "Volume", "volume"),
     (fidCompactInt ||| fidFlagWideDecimal, "VWAP", "vwap"),
     (fidCompactInt ||| fidFlagWideDecimal, "BidVolume", "bid_volume"),
     (fidCompactInt ||| fidFlagWideDecimal, "AskVolume", "ask_volume"),
     (fidCompactInt ||| fidFlagWideDecimal, "ImpVolatility", "imp_volatility"),
     (fidCompactInt ||| fidFlagWideDecimal, "OpenInterest", "open_interest")]

/-- `dx_fields_trade_eth`. -/
def dxFieldsTradeEth : List FieldInfo :=
  fieldTable "dx_trade_t"
    [(fidCompactInt, "ETHLast.Time", "time"),
     (fidCompactInt, "ETHLast.Sequence", "sequence"),
     (fidCompactInt, "Last.TimeNanoPart", "time_nanos"),
     (fidUtfChar, "ETHLast.Exchange", "exchange_code"),
     (fidCompactInt ||| fidFlagWideDecimal, "ETHLast.Price", "price"),
     (fidCompactInt ||| fidFlagWideDecimal, "ETHLast.Size", "size"),
     (fidCompactInt ||| fidFlagWideDecimal, "ETHLast.Change", "change"),
     (fidCompactInt ||| fidFlagDate, "DayId", "day_id"),
     (fidCompactInt ||| fidFlagWideDecimal, "ETHVolume", "day_volume"),
     (fidCompactInt ||| fidFlagWideDecimal, "ETHDayTurnover", "day_turnover"),
     (fidCompactInt, "ETHLast.Flags", "flags")]

/-- `dx_fields_spread_order`. -/
def dxFieldsSpreadOrder : List FieldInfo :=
  fieldTable "dx_spread_order_t"
    [(fidCompactInt, "Index", "index"),
     (fidCompactInt, "Time", "time"),
     (fidCompactInt, "Sequence", "sequence"),
     (fidCompactInt, "TimeNanoPart", "time_nanos"),
     (fidCompactInt ||| fidFlagTimeMillis, "ActionTime", "action_time"),
     (fidCompactInt ||| fidFlagLong, "OrderId", "order_id"),
     (fidCompactInt ||| fidFlagLong, "AuxOrderId", "aux_order_id"),
     (fidCompactInt ||| fidFlagWideDecimal, "Price", "price"),
     (fidCompactInt ||| fidFlagWideDecimal, "Size", "size"),
     (fidCompactInt ||| fidFlagWideDecimal, "ExecutedSize", "executed_size"),
     (fidCompactInt ||| fidFlagWideDecimal, "Count", "count"),
     (fidCompactInt, "Flags", "flags"),
     (fidCompactInt ||| fidFlagLong, "TradeId", "trade_id"),
     (fidCompactInt ||| fidFlagWideDecimal, "TradePrice", "trade_price"),
     (fidCompactInt ||| fidFlagWideDecimal, "TradeSize", "trade_size"),
     (fidUtfCharArray, "SpreadSymbol", "spread_symbol")]

/-- `dx_fields_greeks`. -/
def dxFieldsGreeks : List FieldInfo :=
  fieldTable "dx_greeks_t"
    [(fidCompactInt ||| fidFlagTimeSeconds, "Time", "time"),
     (fidCompactInt ||| fidFlagSequence, "Sequence", "sequence"),
     (fidCompactInt ||| fidFlagWideDecimal, "Greeks.Price", "price"),
     (fidCompactInt ||| fidFlagWideDecimal, "Volatility", "volatility"),
     (fidCompactInt ||| fidFlagWideDecimal, "Delta", "delta"),
     (fidCompactInt ||| fidFlagWideDecimal, "Gamma", "gamma"),
     (fidCompactInt ||| fidFlagWideDecimal, "Theta", "theta"),
     (fidCompactInt ||| fidFlagWideDecimal, "Rho", "rho"),
     (fidCompactInt ||| fidFlagWideDecimal, "Vega", "vega")]

/-- `dx_fields_theo_price`. -/
def dxFieldsTheoPrice : List FieldInfo :=
  fieldTable "dx_theo_price_t"
    [(fidCompactInt ||| fidFlagTimeSeconds, "Theo.Time", "time"),
     (fidCompactInt ||| fidFlagWideDecimal, "Theo.Price", "price"),
     (fidCompactInt ||| fidFlagWideDecimal, "Theo.UnderlyingPrice", "underlying_price"),
     (fidCompactInt ||| fidFlagWideDecimal, "Theo.Delta", "delta"),
     (fidCompactInt ||| fidFlagWideDecimal, "Theo.Gamma", "gamma"),
     (fidCompactInt ||| fidFlagWideDecimal, "Theo.Dividend", "dividend"),
     (fidCompactInt ||| fidFlagWideDecimal, "Theo.Interest", "interest")]

/-- `dx_fields_underlying`. -/
def dxFieldsUnderlying : List FieldInfo :=
  fieldTable "dx_underlying_t"
    [(fidCompactInt ||| fidFlagWideDecimal, "Volatility", "volatility"),
     (fidCompactInt ||| fidFlagWideDecimal, "FrontVolatility", "front_volatility"),
     (fidCompactInt ||| fidFlagWideDecimal, "BackVolatility", "back_volatility"),
     (fidCompactInt ||| fidFlagWideDecimal, "CallVolume", "call_volume"),
     (fidCompactInt ||| fidFlagWideDecimal, "PutVolume", "put_volume"),
     (fidCompactInt ||| fidFlagWideDecimal, "PutCallRatio", "put_call_ratio")]

/-- `dx_fields_series`. -/
def dxFieldsSeries : List FieldInfo :=
  fieldTable "dx_series_t"
    [(fidCompactInt, "Index", "index"),
     (fidCompactInt, "Time", "time"),
     (fidCompactInt ||| fidFlagSequence, "Sequence", "sequence"),
     (fidCompactInt ||| fidFlagDate, "Expiration", "expiration"),
     (fidCompactInt ||| fidFlagWideDecimal, "Volatility", "volatility"),
     (fidCompactInt ||| fidFlagWideDecimal, "CallVolume", "call_volume"),
     (fidCompactInt ||| fidFlagWideDecimal, "PutVolume", "put_volume"),
     (fidCompactInt ||| fidFlagWideDecimal, "PutCallRatio", "put_call_ratio"),
     (fidCompactInt ||| fidFlagWideDecimal, "ForwardPrice", "forward_price"),
     (fidCompactInt ||| fidFlagWideDecimal, "Dividend", "dividend"),
     (fidCompactInt ||| fidFlagWideDecimal, "Interest", "interest")]

/-- `dx_fields_configuration`. -/
def dxFieldsConfiguration : List FieldInfo :=
  fieldTable "dx_configuration_t"
    [(fidCompactInt, "Version", "version"),
     (fidByteArray ||| fidFlagSerialObject, "Configuration", "object")]

/-- `g_record_info`. -/
def recordTables : List (String × List FieldInfo) :=
  [("Trade", dxFieldsTrade),
   ("Quote", dxFieldsQuote),
   ("Summary", dxFieldsSummary),
   ("Profile", dxFieldsProfile),
   ("MarketMaker", dxFieldsMarketMaker),
   ("Order", dxFieldsOrder),
   ("TimeAndSale", dxFieldsTimeAndSale),
   ("Candle", dxFieldsCandle),
   ("TradeETH", dxFieldsTradeEth),
   ("SpreadOrder", dxFieldsSpreadOrder),
   ("Greeks", dxFieldsGreeks),
   ("TheoPrice", dxFieldsTheoPrice),
   ("Underlying", dxFieldsUnderlying),
   ("Series", dxFieldsSeries),
   ("Configuration", dxFieldsConfiguration)]

/-- The fields of every record are those of a table. -/
def RecordList.FromTables (records : RecordList) : Prop :=
  ∀ record ∈ records.elements, ∃ table ∈ recordTables, record.fields = table.2

/-- The local records have at most 32 fields, the bits of a support state. -/
def RecordItem.IsSmall (record : RecordItem) : Prop := record.fields.length ≤ 32

/-- Every record has the bits of a support state, and different fields have different setters. -/
def RecordList.IsProper (records : RecordList) : Prop :=
  ∀ record ∈ records.elements, record.IsSmall ∧ (record.fields.map FieldInfo.setter).Nodup

theorem recordTables_proper : ∀ table ∈ recordTables,
    table.2.length ≤ 32 ∧ (table.2.map FieldInfo.setter).Nodup := by
  decide +kernel

theorem RecordList.FromTables.isProper {records : RecordList} (h : records.FromTables) :
    records.IsProper := by
  intro record hrecord
  obtain ⟨table, htable, hfields⟩ := h record hrecord
  have hproper := recordTables_proper table htable
  rw [RecordItem.IsSmall, hfields]
  exact hproper

end DxFeed.ServerMessageProcessor
