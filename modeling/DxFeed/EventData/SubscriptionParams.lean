import DxFeed.EventData
import DxFeed.ServerMessageProcessor.RecordTables

/-!
# The records of a subscription

`EventData.c` says for every event which records a subscription to it takes, and with which of the
three kinds of messages.  A record is known by its name.  Allocations succeed.

* `SubscriptionType`, `inferSubscriptionType`: the kinds, and how the flags of a subscription
  decide between them;
* `EventSubscriptionParam`: a record with its kind;
* `getTradeSubscriptionParams` and its siblings: the records of each event;
* `getEventSubscriptionParams`, `subscriptionParams`: the records of an event, and of all events of
  a subscription.
-/

namespace DxFeed

open ServerMessageProcessor

/-- `dx_subscription_type_t`. -/
inductive SubscriptionType
  | ticker
  | stream
  | history
  deriving DecidableEq, Repr

/-- `dx_event_subscription_param_t`. -/
structure EventSubscriptionParam where
  recordName : WString
  subscriptionType : SubscriptionType
  deriving DecidableEq, Repr

/-- `dx_infer_subscription_type`. -/
def inferSubscriptionType (subscrFlags : ℕ) (defaultType : SubscriptionType) : SubscriptionType :=
  if isFlagSet subscrFlags SubscrFlag.wildcard ∨ isFlagSet subscrFlags SubscrFlag.forceStream then
    .stream
  else if isFlagSet subscrFlags SubscrFlag.forceTicker then .ticker
  else if isFlagSet subscrFlags SubscrFlag.forceHistory then .history
  else defaultType

/-! ### Records -/

/-- The names behind a template, for the exchanges `A` to `Z`. -/
def exchangeNames (template : String) : List WString :=
  (List.range 26).map fun i => wideString template ++ [UInt16.ofNat (65 + i)]

/-- The same kind for some records. -/
def paramsOf (subscriptionType : SubscriptionType) (names : List WString) :
    List EventSubscriptionParam :=
  names.map fun name => ⟨name, subscriptionType⟩

/-- `dx_get_single_order_subscription_params`; `none` is `false`. -/
def getSingleOrderSubscriptionParams (orderSource : List WString) (subscrFlags : ℕ) :
    Option (List EventSubscriptionParam) :=
  if isFlagSet subscrFlags SubscrFlag.singleRecord then
    let subscriptionType := inferSubscriptionType subscrFlags .history
    if isFlagSet subscrFlags SubscrFlag.srMarketMakerOrder then
      some (paramsOf subscriptionType [wideString "MarketMaker"])
    else
      match orderSource with
      | [] => some (paramsOf subscriptionType [wideString "Order"])
      | [source] => some (paramsOf subscriptionType [wideString "Order#" ++ source])
      | _ => none
  else none

/-- `dx_get_order_subscription_params`; `none` is `false`. -/
def getOrderSubscriptionParams (orderSource : List WString) (subscrFlags : ℕ) :
    Option (List EventSubscriptionParam) :=
  if isFlagSet subscrFlags SubscrFlag.singleRecord then
    getSingleOrderSubscriptionParams orderSource subscrFlags
  else
    some (paramsOf (inferSubscriptionType subscrFlags .ticker) [wideString "Quote"] ++
      paramsOf (inferSubscriptionType subscrFlags .history)
        ([wideString "MarketMaker", wideString "Order"] ++
          orderSource.map fun source => wideString "Order#" ++ source) ++
      paramsOf (inferSubscriptionType subscrFlags .ticker) (exchangeNames "Quote&"))

/-- `dx_get_quote_subscription_params`: the record of all exchanges comes last, and not for regional
quotes. -/
def getQuoteSubscriptionParams (subscrFlags : ℕ) : List EventSubscriptionParam :=
  paramsOf (inferSubscriptionType subscrFlags .ticker)
    (exchangeNames "Quote&" ++
      if isFlagSet subscrFlags SubscrFlag.quotesRegional then [] else [wideString "Quote"])

/-- The record of all exchanges and those of each. -/
def getRegionalParams (name template : String) (defaultType : SubscriptionType) (subscrFlags : ℕ) :
    List EventSubscriptionParam :=
  paramsOf (inferSubscriptionType subscrFlags defaultType)
    (wideString name :: exchangeNames template)

/-- `dx_get_trade_subscription_params`. -/
def getTradeSubscriptionParams : ℕ → List EventSubscriptionParam :=
  getRegionalParams "Trade" "Trade&" .ticker

/-- `dx_get_summary_subscription_params`. -/
def getSummarySubscriptionParams : ℕ → List EventSubscriptionParam :=
  getRegionalParams "Summary" "Summary&" .ticker

/-- `dx_get_trade_eth_subscription_params`. -/
def getTradeEthSubscriptionParams : ℕ → List EventSubscriptionParam :=
  getRegionalParams "TradeETH" "TradeETH&" .ticker

/-- `dx_get_time_and_sale_subscription_params`. -/
def getTimeAndSaleSubscriptionParams (subscrFlags : ℕ) : List EventSubscriptionParam :=
  getRegionalParams "TimeAndSale" "TimeAndSale&"
    (if isFlagSet subscrFlags SubscrFlag.timeSeries then .history else .stream) subscrFlags

/-- The records of an event that has no others. -/
def getPlainParams (names : List String) (defaultType : SubscriptionType) (subscrFlags : ℕ) :
    List EventSubscriptionParam :=
  paramsOf (inferSubscriptionType subscrFlags defaultType) (names.map wideString)

/-- `dx_get_profile_subscription_params`. -/
def getProfileSubscriptionParams : ℕ → List EventSubscriptionParam :=
  getPlainParams ["Profile"] .ticker

/-- `dx_get_candle_subscription_params`. -/
def getCandleSubscriptionParams : ℕ → List EventSubscriptionParam :=
  getPlainParams ["Candle"] .history

/-- `dx_get_spread_order_subscription_params`. -/
def getSpreadOrderSubscriptionParams : ℕ → List EventSubscriptionParam :=
  getPlainParams ["SpreadOrder", "SpreadOrder#ISE"] .history

/-- `dx_get_greeks_subscription_params`. -/
def getGreeksSubscriptionParams (subscrFlags : ℕ) : List EventSubscriptionParam :=
  getPlainParams ["Greeks"]
    (if isFlagSet subscrFlags SubscrFlag.timeSeries then .history else .ticker) subscrFlags

/-- `dx_get_theo_price_subscription_params`. -/
def getTheoPriceSubscriptionParams : ℕ → List EventSubscriptionParam :=
  getPlainParams ["TheoPrice"] .ticker

/-- `dx_get_underlying_subscription_params`. -/
def getUnderlyingSubscriptionParams : ℕ → List EventSubscriptionParam :=
  getPlainParams ["Underlying"] .ticker

/-- `dx_get_series_subscription_params`. -/
def getSeriesSubscriptionParams : ℕ → List EventSubscriptionParam :=
  getPlainParams ["Series"] .history

/-- `dx_get_configuration_subscription_params`. -/
def getConfigurationSubscriptionParams : ℕ → List EventSubscriptionParam :=
  getPlainParams ["Configuration"] .ticker

/-- `dx_get_event_subscription_params`: a failure leaves the list empty. -/
def getEventSubscriptionParams (orderSource : List WString) (eventId : EventId)
    (subscrFlags : ℕ) : List EventSubscriptionParam :=
  match eventId with
  | .trade => getTradeSubscriptionParams subscrFlags
  | .quote => getQuoteSubscriptionParams subscrFlags
  | .summary => getSummarySubscriptionParams subscrFlags
  | .profile => getProfileSubscriptionParams subscrFlags
  | .order => (getOrderSubscriptionParams orderSource subscrFlags).getD []
  | .timeAndSale => getTimeAndSaleSubscriptionParams subscrFlags
  | .candle => getCandleSubscriptionParams subscrFlags
  | .tradeEth => getTradeEthSubscriptionParams subscrFlags
  | .spreadOrder => getSpreadOrderSubscriptionParams subscrFlags
  | .greeks => getGreeksSubscriptionParams subscrFlags
  | .theoPrice => getTheoPriceSubscriptionParams subscrFlags
  | .underlying => getUnderlyingSubscriptionParams subscrFlags
  | .series => getSeriesSubscriptionParams subscrFlags
  | .configuration => getConfigurationSubscriptionParams subscrFlags

/-! ### Subscriptions -/

/-- The events from `dx_eid_begin` to `dx_eid_count`. -/
def EventId.all : List EventId :=
  [.trade, .quote, .summary, .profile, .order, .timeAndSale, .candle, .tradeEth, .spreadOrder,
    .greeks, .theoPrice, .underlying, .series, .configuration]

/-- The records of the events of a subscription, in the order of the loop of
`dx_subscribe_symbols_to_events`. -/
def subscriptionParams (orderSource : List WString) (eventTypes subscrFlags : ℕ) :
    List EventSubscriptionParam :=
  (EventId.all.filter fun eventId => isFlagSet eventTypes eventId.bitMask).flatMap fun eventId =>
    getEventSubscriptionParams orderSource eventId subscrFlags

end DxFeed
