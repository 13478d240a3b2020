import DxFeed.Algorithms

/-!
# Event constants of `EventData.h`

* `WString`: `dxf_const_string_t`, as the list of its code units;
* `EventFlag`: the bits of `dxf_event_flags_t` (transactions and snapshots);
* `EventId`: the enumeration `dx_event_id_t` and the event type masks `DXF_ET_…`;
* `EventParams`: `dxf_event_params_t`;
* `RecordInfoId`: the enumeration `dx_record_info_id_t`;
* `SubscrFlag`: the bits of `dx_event_subscr_flag`;
* `OrderSide`: `dxf_order_side_t`.
-/

namespace DxFeed

/-- A string of `wchar_t`. -/
abbrev WString := List UInt16

/-! ### Event flags -/

namespace EventFlag

/-- `dxf_ef_tx_pending`. -/
def txPending : ℕ := 0x01

/-- `dxf_ef_remove_event`. -/
def removeEvent : ℕ := 0x02

/-- `dxf_ef_snapshot_begin`. -/
def snapshotBegin : ℕ := 0x04

/-- `dxf_ef_snapshot_end`. -/
def snapshotEnd : ℕ := 0x08

/-- `dxf_ef_snapshot_snip`. -/
def snapshotSnip : ℕ := 0x10

end EventFlag

/-! ### Event types -/

/-- `dx_event_id_t`, in the order of the enumeration. -/
inductive EventId
  | trade
  | quote
  | summary
  | profile
  | order
  | timeAndSale
  | candle
  | tradeEth
  | spreadOrder
  | greeks
  | theoPrice
  | underlying
  | series
  | configuration
  deriving DecidableEq

/-- The numeric value of the enumerator. -/
def EventId.toNat : EventId → ℕ
  | .trade => 0
  | .quote => 1
  | .summary => 2
  | .profile => 3
  | .order => 4
  | .timeAndSale => 5
  | .candle => 6
  | .tradeEth => 7
  | .spreadOrder => 8
  | .greeks => 9
  | .theoPrice => 10
  | .underlying => 11
  | .series => 12
  | .configuration => 13

/-- `dx_eid_count`. -/
def EventId.count : ℕ := 14

/-- The mask `DXF_ET_…` of an event, which is also `DX_EVENT_BIT_MASK`. -/
def EventId.bitMask (e : EventId) : ℕ := 1 <<< e.toNat

theorem EventId.toNat_lt (e : EventId) : e.toNat < EventId.count := by
  cases e <;> decide

/-- `DXF_ET_UNUSED`. -/
def EventId.unusedMask : ℕ := 0xFFFFC000

/-- `dxf_event_params_t`. -/
structure EventParams where
  flags : ℕ
  timeIntField : ℕ
  snapshotKey : ℕ
  deriving DecidableEq, Repr

/-- `dx_record_info_id_t`, in the order of the enumeration. -/
inductive RecordInfoId
  | trade
  | quote
  | summary
  | profile
  | marketMaker
  | order
  | timeAndSale
  | candle
  | tradeEth
  | spreadOrder
  | greeks
  | theoPrice
  | underlying
  | series
  | configuration
  deriving DecidableEq

/-! ### Subscription flags -/

namespace SubscrFlag

/-- `dx_esf_single_record`. -/
def singleRecord : ℕ := 0x1

/-- `dx_esf_sr_market_maker_order`. -/
def srMarketMakerOrder : ℕ := 0x2

/-- `dx_esf_time_series`. -/
def timeSeries : ℕ := 0x4

/-- `dx_esf_quotes_regional`. -/
def quotesRegional : ℕ := 0x8

/-- `dx_esf_wildcard`. -/
def wildcard : ℕ := 0x10

/-- `dx_esf_force_ticker`. -/
def forceTicker : ℕ := 0x20

/-- `dx_esf_force_stream`. -/
def forceStream : ℕ := 0x40

/-- `dx_esf_force_history`. -/
def forceHistory : ℕ := 0x80

end SubscrFlag

/-- `dxf_order_side_t`. -/
inductive OrderSide
  | undefined
  | buy
  | sell
  deriving DecidableEq

end DxFeed
