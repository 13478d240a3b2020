import DxFeed.Library.Cells
import DxFeed.ServerMessageProcessor.RecordTables

/-!
# Records by their names

The name of a record says its type and, behind a sign, its source or its exchange.  An array of
characters is the list of them, and a write behind its end has no result.  Allocations succeed.

* `stringToRecordInfo`: `dx_string_to_record_info`;
* `copyStringLen`, `arrayString`: copies of strings to arrays, and the strings in them;
* `initRecordInfo`: `init_record_info`;
* `copyStringLen_zeros`, `arrayString_zeros`: a string in an array of zeros.
-/

namespace DxFeed.DataStructures

open ServerMessageProcessor

/-! ### Types of records -/

/-- The `default_name` of a record in `g_record_info`. -/
def defaultName : RecordInfoId → WString
  | .trade => wideString "Trade"
  | .quote => wideString "Quote"
  | .summary => wideString "Summary"
  | .profile => wideString "Profile"
  | .marketMaker => wideString "MarketMaker"
  | .order => wideString "Order"
  | .timeAndSale => wideString "TimeAndSale"
  | .candle => wideString "Candle"
  | .tradeEth => wideString "TradeETH"
  | .spreadOrder => wideString "SpreadOrder"
  | .greeks => wideString "Greeks"
  | .theoPrice => wideString "TheoPrice"
  | .underlying => wideString "Underlying"
  | .series => wideString "Series"
  | .configuration => wideString "Configuration"

/-- The `fields` of a record in `g_record_info`. -/
def recordFields : RecordInfoId → List FieldInfo
  | .trade => dxFieldsTrade
  | .quote => dxFieldsQuote
  | .summary => dxFieldsSummary
  | .profile => dxFieldsProfile
  | .marketMaker => dxFieldsMarketMaker
  | .order => dxFieldsOrder
  | .timeAndSale => dxFieldsTimeAndSale
  | .candle => dxFieldsCandle
  | .tradeEth => dxFieldsTradeEth
  | .spreadOrder => dxFieldsSpreadOrder
  | .greeks => dxFieldsGreeks
  | .theoPrice => dxFieldsTheoPrice
  | .underlying => dxFieldsUnderlying
  | .series => dxFieldsSeries
  | .configuration => dxFieldsConfiguration

/-- The order in which `dx_string_to_record_info` goes through the types: a trade of extended
hours is in front of a trade, whose name its name begins with. -/
def recordInfoOrder : List RecordInfoId :=
  [.tradeEth, .trade, .quote, .summary, .profile, .marketMaker, .order, .timeAndSale, .candle,
    .spreadOrder, .greeks, .theoPrice, .underlying, .series, .configuration]

/-- `dx_string_to_record_info`; `none` is `dx_rid_invalid`. -/
def stringToRecordInfo (name : WString) : Option RecordInfoId :=
  recordInfoOrder.find? fun info => (defaultName info).isPrefixOf name

/-! ### Strings in arrays -/

/-- `dx_copy_string_len` to the beginning of an array: a shorter string is filled up with zeros. -/
def copyStringLen (dest : List UInt16) (src : WString) (len : ℕ) : Option (List UInt16) :=
  Cells.copy dest 0 (src.take len ++ List.replicate (len - src.length) 0) 0 len

/-- The string in an array; an array without a terminator is left. -/
def arrayString (cells : List UInt16) : Option WString :=
  if 0 ∈ cells then some (cells.takeWhile (· ≠ 0)) else none

variable {n : ℕ} {src : WString}

/-- A string that is not longer than an array of zeros is copied to it; what is copied of the zeros
behind the string changes nothing. -/
theorem copyStringLen_zeros {len : ℕ} (hsrc : src.length ≤ len) (hlen : len ≤ n) :
    copyStringLen (List.replicate n 0) src len =
      some (src ++ List.replicate (n - src.length) 0) := by
  have hpadded : (src ++ List.replicate (len - src.length) 0).length = len := by
    rw [List.length_append, List.length_replicate]
    omega
  rw [copyStringLen, List.take_of_length_le hsrc, Cells.copy_eq_some, List.length_replicate, hpadded]
  refine ⟨by omega, ?_⟩
  rw [List.take_zero, List.nil_append, List.drop_zero, List.take_of_length_le hpadded.le,
    List.drop_replicate, List.append_assoc, List.replicate_append_replicate]
  congr 2
  omega

theorem arrayString_zeros (hsrc : 0 ∉ src) (h : src.length < n) :
    arrayString (src ++ List.replicate (n - src.length) 0) = some src := by
  obtain ⟨k, hk⟩ : ∃ k, n - src.length = k + 1 := ⟨n - src.length - 1, by omega⟩
  have hall : ∀ c ∈ src, decide (c ≠ 0) = true := by
    intro c hc
    rw [decide_eq_true_eq]
    rintro rfl
    exact hsrc hc
  rw [hk, List.replicate_succ, arrayString, if_pos (by simp), List.takeWhile_append_of_pos hall]
  simp

/-! ### Items -/

/-- The sign `#` in front of a source. -/
def sourceSign : UInt16 := 35

/-- The sign `&` in front of an exchange. -/
def exchangeSign : UInt16 := 38

/-- The characters of `suffix` in `dx_record_item_t`. -/
def suffixSize : ℕ := 5

/-- `dx_record_item_t` with all that `init_record_info` sets. -/
structure RecordInfoItem extends RecordItem where
  infoId : RecordInfoId
  suffix : List UInt16
  exchangeCode : UInt16
  deriving DecidableEq

/-- How `init_record_info` fails: it returns an error, or it writes behind the end of the suffix. -/
inductive InitFailure
  | invalidFuncParam
  | overrun
  deriving DecidableEq

/-- The records that can have an exchange. -/
def hasExchange (info : RecordInfoId) : Bool :=
  info ∈ [RecordInfoId.trade, .quote, .summary, .tradeEth, .timeAndSale]

/-- The suffix of an item is overwritten from its beginning. -/
def RecordInfoItem.copySuffix (item : RecordInfoItem) (src : WString) (len : ℕ) :
    Except InitFailure RecordInfoItem :=
  match copyStringLen item.suffix src len with
  | none => .error .overrun
  | some cells => .ok { item with suffix := cells }

/-- The suffix is cut from the name behind the default name: `sign` and what is behind it.  A source
is copied with its terminator. -/
def RecordInfoItem.cutSuffix (item : RecordInfoItem) (sign : UInt16) (rest : WString) :
    Except InitFailure RecordInfoItem :=
  if item.infoId = .order ∨ item.infoId = .spreadOrder then
    if sign = sourceSign then item.copySuffix rest (rest.length + 1) else .ok item
  else if hasExchange item.infoId then
    if sign = exchangeSign then do
      let item ← item.copySuffix rest 1
      return { item with exchangeCode := item.suffix.headD 0 }
    else .ok item
  else .ok item

/-- `init_record_info`. -/
def initRecordInfo (name : WString) : Except InitFailure RecordInfoItem :=
  match stringToRecordInfo name with
  | none => .error .invalidFuncParam
  | some info =>
      let item : RecordInfoItem :=
        { name := name, fields := recordFields info, infoId := info
          suffix := List.replicate suffixSize 0, exchangeCode := 0 }
      match name.drop (defaultName info).length with
      | [] => .ok item
      | sign :: rest => item.cutSuffix sign rest

/-- The fields of an item are those of a table. -/
theorem recordFields_mem (info : RecordInfoId) :
    ∃ table ∈ recordTables, recordFields info = table.2 := by
  cases info <;> simp [recordTables, recordFields]

variable {item item' : RecordInfoItem}

/-- A copy of a suffix changes nothing else. -/
theorem copySuffix_item {len : ℕ} (h : item.copySuffix src len = .ok item') :
    item'.toRecordItem = item.toRecordItem ∧ item'.infoId = item.infoId := by
  unfold RecordInfoItem.copySuffix at h
  split at h
  · cases h
  · cases h
    exact ⟨rfl, rfl⟩

theorem cutSuffix_item {sign : UInt16} {rest : WString} (h : item.cutSuffix sign rest = .ok item') :
    item'.toRecordItem = item.toRecordItem ∧ item'.infoId = item.infoId := by
  unfold RecordInfoItem.cutSuffix at h
  split_ifs at h with hinfo hsign hexchange hsign
  · exact copySuffix_item h
  · cases h
    exact ⟨rfl, rfl⟩
  · cases hcopy : item.copySuffix rest 1 with
    | error e => simp [hcopy, bind, Except.bind] at h
    | ok copied =>
        simp only [hcopy, bind, Except.bind, pure, Except.pure] at h
        cases h
        have hcopied := copySuffix_item hcopy
        exact hcopied
  · cases h
    exact ⟨rfl, rfl⟩
  · cases h
    exact ⟨rfl, rfl⟩

/-- An item has the name that it was made from, and the fields of its type. -/
theorem initRecordInfo_item {name : WString} (h : initRecordInfo name = .ok item) :
    item.name = name ∧ stringToRecordInfo name = some item.infoId ∧
      item.fields = recordFields item.infoId := by
  unfold initRecordInfo at h
  cases hinfo : stringToRecordInfo name with
  | none => simp [hinfo] at h
  | some info =>
      simp only [hinfo] at h
      split at h
      · cases h
        exact ⟨rfl, rfl, rfl⟩
      · obtain ⟨hitem, hid⟩ := cutSuffix_item h
        rw [hitem, hid]
        exact ⟨rfl, rfl, rfl⟩

end DxFeed.DataStructures
