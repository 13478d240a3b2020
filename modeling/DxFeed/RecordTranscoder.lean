import DxFeed.Snapshot.Records
import Mathlib.Data.Nat.Bitwise

/-!
# Market maker records as orders

The transcoder of market maker records of `RecordTranscoder.c`: a record becomes an order event
for its bid and one for its ask.  Allocations succeed.

* `MarketMaker`: the record; prices, sizes and counts are of any type `S` with a zero;
* `orderIndex`: the index of an order with a special source;
* `transcodeMarketMakerToOrderBid`, `transcodeMarketMakerToOrderAsk`: the two halves;
* `marketMakerTranscoder`: the events of a record, with the flags that each half is given.
-/

namespace DxFeed.RecordTranscoder

open Snapshot

/-- `dx_market_maker_t`. -/
structure MarketMaker (S : Type) where
  mmExchange : UInt16
  mmId : BitVec 32
  mmbidTime : ℤ
  mmbidPrice : S
  mmbidSize : S
  mmbidCount : S
  mmaskTime : ℤ
  mmaskPrice : S
  mmaskSize : S
  mmaskCount : S
  deriving DecidableEq

/-- `dxf_order_scope_t`. -/
inductive OrderScope
  | composite
  | regional
  | aggregate
  | order
  deriving DecidableEq, Repr

/-- The fields of `dxf_order_t` that a transcoder sets and a snapshot does not read. -/
structure OrderFields (S : Type) where
  time : ℤ
  sequence : ℕ
  price : S
  count : S
  scope : OrderScope
  side : OrderSide
  exchangeCode : UInt16
  source : WString
  deriving DecidableEq

variable {S : Type}

/-- `DX_TIME_TO_MS`. -/
def timeToMs : ℤ := 1000

/-- `DX_TIME_FIELD_TO_MS`. -/
def timeFieldToMs (field : ℤ) : ℤ := field * timeToMs

/-! ### Indices -/

/-- `DX_ORDER_SOURCE_AGGREGATE_BID`. -/
def orderSourceAggregateBid : ℕ := 5

/-- `DX_ORDER_SOURCE_AGGREGATE_ASK`. -/
def orderSourceAggregateAsk : ℕ := 6

/-- `DX_ORDER_INDEX_SSRC_SHIFT`. -/
def orderIndexSsrcShift : ℕ := 48

/-- `DX_ORDER_INDEX_EXC_SHIFT`. -/
def orderIndexExcShift : ℕ := 32

/-- `int_to_bits`. -/
def intToBits (value : BitVec 32) : ℕ := value.toNat

/-- `char_to_bits`: the value is shifted to the top of 64 bits and back. -/
def charToBits (value : UInt16) : ℕ := (value.toNat <<< 48 % 2 ^ 64) >>> 48

/-- `DX_ORDER_FORM_MM_BID_INDEX` and `DX_ORDER_FORM_MM_ASK_INDEX`, for their sources. -/
def orderFormMmIndex (source : ℕ) (mm : MarketMaker S) : ℕ :=
  source <<< orderIndexSsrcShift ||| charToBits mm.mmExchange <<< orderIndexExcShift |||
    intToBits mm.mmId

theorem charToBits_eq (value : UInt16) : charToBits value = value.toNat := by
  have hlt : value.toNat < 2 ^ 16 := value.toNat_lt
  have hmod : value.toNat <<< 48 % 2 ^ 64 = value.toNat <<< 48 := by
    rw [Nat.shiftLeft_eq]
    exact Nat.mod_eq_of_lt (by omega)
  rw [charToBits, hmod, Nat.shiftLeft_shiftRight]

/-- The source of an order can be read off its index. -/
theorem orderFormMmIndex_source (source : ℕ) (mm : MarketMaker S) :
    orderFormMmIndex source mm >>> orderIndexSsrcShift = source := by
  have hexchange : mm.mmExchange.toNat < 2 ^ 16 := mm.mmExchange.toNat_lt
  have hid : mm.mmId.toNat < 2 ^ 32 := mm.mmId.isLt
  have hshifted : mm.mmExchange.toNat <<< 32 >>> 48 = 0 := by
    rw [Nat.shiftLeft_eq, Nat.shiftRight_eq_div_pow]
    exact Nat.div_eq_of_lt (by omega)
  have hlow : mm.mmId.toNat >>> 48 = 0 := by
    rw [Nat.shiftRight_eq_div_pow]
    exact Nat.div_eq_of_lt (by omega)
  unfold orderFormMmIndex orderIndexSsrcShift orderIndexExcShift intToBits
  rw [charToBits_eq, Nat.shiftRight_or_distrib, Nat.shiftRight_or_distrib, hshifted, hlow,
    Nat.shiftLeft_shiftRight]
  simp

/-! ### The two halves of a record -/

/-- `dx_decode_from_integer`: the octets of the code from the top one on, zeros left out, each
as a sign-extended character. -/
def decodeFromInteger (code : BitVec 64) : WString :=
  ((List.range 8).map fun i =>
    UInt16.ofBitVec (((code <<< (8 * i)).sshiftRight 56).setWidth 16)).filter (· ≠ 0)

/-- What the transcoder takes from a record for the order of one of its sides. -/
structure MarketMakerSide (S : Type) where
  source : ℕ
  side : OrderSide
  time : ℤ
  price : S
  size : S
  count : S

/-- The order of one side.  The event buffer is all zeros at first, and a removal has only an
index and a time. -/
def transcodeMarketMakerToOrder [Zero S] (half : MarketMakerSide S) (params : EventParams)
    (mm : MarketMaker S) : Event S (OrderFields S) :=
  let index := (orderFormMmIndex half.source mm : ℤ)
  let time := timeFieldToMs half.time
  if isFlagSet params.flags EventFlag.removeEvent then
    { data :=
        { eventFlags := params.flags
          index := index
          size := 0
          strings := []
          fields := ⟨time, 0, 0, 0, .composite, .undefined, 0, []⟩ }
      params := params }
  else
    { data :=
        { eventFlags := params.flags
          index := index
          size := half.size
          strings := [decodeFromInteger (mm.mmId.signExtend 64)]
          fields :=
            ⟨time, 0, half.price, half.count, .aggregate, half.side, mm.mmExchange, []⟩ }
      params := params }

/-- `dx_transcode_market_maker_to_order_bid`. -/
def transcodeMarketMakerToOrderBid [Zero S] (params : EventParams) (mm : MarketMaker S) :
    Event S (OrderFields S) :=
  transcodeMarketMakerToOrder
    ⟨orderSourceAggregateBid, .buy, mm.mmbidTime, mm.mmbidPrice, mm.mmbidSize, mm.mmbidCount⟩
    params mm

/-- `dx_transcode_market_maker_to_order_ask`. -/
def transcodeMarketMakerToOrderAsk [Zero S] (params : EventParams) (mm : MarketMaker S) :
    Event S (OrderFields S) :=
  transcodeMarketMakerToOrder
    ⟨orderSourceAggregateAsk, .sell, mm.mmaskTime, mm.mmaskPrice, mm.mmaskSize, mm.mmaskCount⟩
    params mm

theorem transcodeMarketMakerToOrder_params [Zero S] (half : MarketMakerSide S)
    (params : EventParams) (mm : MarketMaker S) :
    (transcodeMarketMakerToOrder half params mm).params = params := by
  unfold transcodeMarketMakerToOrder
  split_ifs <;> rfl

theorem transcodeMarketMakerToOrder_index [Zero S] (half : MarketMakerSide S)
    (params : EventParams) (mm : MarketMaker S) :
    (transcodeMarketMakerToOrder half params mm).data.index =
      (orderFormMmIndex half.source mm : ℤ) := by
  unfold transcodeMarketMakerToOrder
  split_ifs <;> rfl

/-! ### The flags of the halves -/

/-- A flag is taken out of the flags that have it. -/
def dropFlag (flags flag : ℕ) : ℕ :=
  if flags &&& flag = flag then flags ^^^ flag else flags

/-- The parameters of the bid: a snapshot does not end with it. -/
def bidEventParams (params : EventParams) : EventParams :=
  { params with flags := dropFlag params.flags EventFlag.snapshotEnd }

/-- The parameters of the ask: a snapshot does not begin with it. -/
def askEventParams (params : EventParams) : EventParams :=
  { params with flags := dropFlag params.flags EventFlag.snapshotBegin }

/-- `dx_market_maker_t_transcoder`: the events in the order in which they are processed. -/
def marketMakerTranscoder [Zero S] (params : EventParams) (mm : MarketMaker S) :
    List (Event S (OrderFields S)) :=
  [transcodeMarketMakerToOrderBid (bidEventParams params) mm,
    transcodeMarketMakerToOrderAsk (askEventParams params) mm]

theorem isFlagSet_two_pow (flags i : ℕ) : isFlagSet flags (2 ^ i) = flags.testBit i := by
  rw [isFlagSet, Nat.and_two_pow]
  cases flags.testBit i <;> simp

/-- Dropping a flag takes out its bit, and no other one. -/
theorem testBit_dropFlag (flags i j : ℕ) :
    (dropFlag flags (2 ^ i)).testBit j = (flags.testBit j && decide (j ≠ i)) := by
  unfold dropFlag
  have hbit : flags &&& 2 ^ i = 2 ^ i ↔ flags.testBit i = true := by
    rw [Nat.and_two_pow]
    cases flags.testBit i with
    | true => simp
    | false => simpa using (Nat.two_pow_pos i).ne
  by_cases hset : flags.testBit i = true
  · rw [if_pos (hbit.mpr hset), Nat.testBit_xor, Nat.testBit_two_pow]
    by_cases hji : j = i
    · subst hji
      simp [hset]
    · simp [hji, Ne.symm hji]
  · rw [if_neg fun h => hset (hbit.mp h)]
    by_cases hji : j = i
    · subst hji
      simp [hset]
    · simp [hji]

/-- The flags that stay after one is dropped. -/
theorem isFlagSet_dropFlag (flags i j : ℕ) :
    isFlagSet (dropFlag flags (2 ^ i)) (2 ^ j) =
      (isFlagSet flags (2 ^ j) && decide (j ≠ i)) := by
  rw [isFlagSet_two_pow, isFlagSet_two_pow, testBit_dropFlag]

end DxFeed.RecordTranscoder
