import DxFeed.EventData.SubscriptionParams
import DxFeed.EventSubscription.Context
import DxFeed.RecordTranscoder.OrderSource

/-!
# Order sources in their arrays

A subscription keeps its order sources as arrays of five units.  They are compared as strings, and
they are copied behind `Order#` for the names of records.  An access behind an array has no result.
Allocations succeed, and so do conversions to wide characters.

* `Suffix`: `dx_suffix_t`, with `copyStringLen` and `text`;
* `dxAddOrderSource`, `getOrderParams`: the functions on these arrays;
* `Opening`, `SourceCall`, `run`: how a subscription comes about, and the calls for its sources;
* `Kept`: the arrays are the sources that were accepted, and all records are named after them;
* `kept_iff`: that is so if and only if a snapshot of orders is not opened with a source of five or
  more units.
-/

namespace DxFeed.EventSubscription

open DataStructures ServerMessageProcessor RecordTranscoder

/-- `dx_suffix_t`. -/
structure Suffix where
  cells : List UInt16
  length_eq : cells.length = suffixSize
  deriving DecidableEq

namespace Suffix

/-- An array of zeros. -/
def zero : Suffix := ⟨List.replicate suffixSize 0, List.length_replicate⟩

/-- `dx_copy_string_len` to a suffix. -/
def copyStringLen (suffix : Suffix) (src : WString) (len : ℕ) : Option Suffix :=
  if h : len ≤ suffixSize then
    some ⟨src.take len ++ List.replicate (len - src.length) 0 ++ suffix.cells.drop len, by
      simp only [List.length_append, List.length_take, List.length_replicate, List.length_drop,
        suffix.length_eq]
      omega⟩
  else none

/-- The string in a suffix; there is none without a terminator. -/
def text (suffix : Suffix) : Option WString := arrayString suffix.cells

/-- What a copy of at most `DXF_RECORD_SUFFIX_SIZE` units reads of a suffix. -/
def read (suffix : Suffix) : WString := suffix.cells.takeWhile (· ≠ 0)

end Suffix

/-! ### The array of sources -/

/-- Does `dx_compare_strings` find two arrays equal?  It ends at the first difference, or at two
terminators. -/
def compareStrings : List UInt16 → List UInt16 → Option Bool
  | l :: ls, r :: rs =>
      if l ≠ r then some false else if l = 0 then some true else compareStrings ls rs
  | _, _ => none

/-- The linear `DX_ARRAY_SEARCH` with `DX_ORDER_SOURCE_COMPARATOR`. -/
def searchSource (newSource : Suffix) : List Suffix → Option Bool
  | [] => some false
  | suffix :: rest => do
      if ← compareStrings suffix.cells newSource.cells then return true
      else searchSource newSource rest

/-- `dx_add_order_source`: all units of the new element are copied, whatever they were before. -/
def dxAddOrderSource (orderSource : List Suffix) (source : WString) : Option (List Suffix) := do
  let newSource ← Suffix.zero.copyStringLen source suffixSize
  if ← searchSource newSource orderSource then return orderSource
  else return orderSource ++ [newSource]

/-! ### Names of records -/

/-- `g_order_tmpl`. -/
def orderTmpl : WString := wideString "Order#"

/-- `ORDER_TMPL_LEN`. -/
def orderTmplLen : ℕ := 6

/-- `order_name_buf`. -/
def orderNameBuf : List UInt16 := List.replicate (orderTmplLen + suffixSize) 0

/-- The copy of a suffix behind the template. -/
def copySuffixTo (buf : List UInt16) (suffix : Suffix) : Option (List UInt16) :=
  let src := suffix.read
  Cells.copy buf orderTmplLen (src ++ List.replicate (suffixSize - src.length) 0) 0 suffixSize

/-- The buffer with the template and its terminator. -/
def orderNameBufTmpl : Option (List UInt16) :=
  Cells.copy orderNameBuf 0 (orderTmpl ++ [0]) 0 (orderTmplLen + 1)

/-- The loop over the sources: the names that are read from the buffer. -/
def orderNames : List UInt16 → List Suffix → Option (List WString)
  | _, [] => some []
  | buf, suffix :: rest => do
      let buf ← copySuffixTo buf suffix
      let name ← arrayString buf
      let names ← orderNames buf rest
      return name :: names

/-- `dx_get_single_order_subscription_params`; the result in the result is `none` for `false`. -/
def getSingleOrderParams (orderSource : List Suffix) (subscrFlags : ℕ) :
    Option (Option (List EventSubscriptionParam)) :=
  if isFlagSet subscrFlags SubscrFlag.singleRecord then
    let subscriptionType := inferSubscriptionType subscrFlags .history
    if isFlagSet subscrFlags SubscrFlag.srMarketMakerOrder then
      return some (paramsOf subscriptionType [wideString "MarketMaker"])
    else
      match orderSource with
      | [] => return some (paramsOf subscriptionType [wideString "Order"])
      | [suffix] => do
          let buf ← orderNameBufTmpl
          let buf ← copySuffixTo buf suffix
          let name ← arrayString buf
          return some (paramsOf subscriptionType [name])
      | _ => return none
  else return none

/-- `dx_get_order_subscription_params`; the result in the result is `none` for `false`. -/
def getOrderParams (orderSource : List Suffix) (subscrFlags : ℕ) :
    Option (Option (List EventSubscriptionParam)) :=
  if isFlagSet subscrFlags SubscrFlag.singleRecord then
    getSingleOrderParams orderSource subscrFlags
  else do
    let buf ← orderNameBufTmpl
    let names ← orderNames buf orderSource
    return some (paramsOf (inferSubscriptionType subscrFlags .ticker) [wideString "Quote"] ++
      paramsOf (inferSubscriptionType subscrFlags .history)
        ([wideString "MarketMaker", wideString "Order"] ++ names) ++
      paramsOf (inferSubscriptionType subscrFlags .ticker) (exchangeNames "Quote&"))

/-- The records of orders of a subscription; those of other events do not depend on sources. -/
def orderParams (orderSource : List Suffix) (eventTypes subscrFlags : ℕ) :
    Option (Option (List EventSubscriptionParam)) :=
  if isFlagSet eventTypes EventId.order.bitMask then getOrderParams orderSource subscrFlags
  else return some []

/-! ### Calls -/

/-- A source in the characters of the platform and in wide ones, of which there are not more. -/
structure NarrowSource where
  bytes : List UInt8
  wide : WString
  length_le : wide.length ≤ bytes.length
  noZero : 0 ∉ wide

/-- The fields of a subscription that its order sources are used with. -/
structure SourceState where
  eventTypes : ℕ
  subscrFlags : ℕ
  orderSource : List Suffix

/-- The check of `dxf_set_order_source` and `dxf_add_order_source`. -/
def NarrowSource.Accepted (source : NarrowSource) : Prop :=
  ¬ (source.bytes.length = 0 ∨ suffixSize ≤ source.bytes.length)

instance (source : NarrowSource) : Decidable source.Accepted :=
  inferInstanceAs (Decidable (¬ _))

/-- `dxf_set_order_source`. -/
def dxfSetOrderSource (s : SourceState) (source : NarrowSource) : Option SourceState :=
  if source.Accepted then do
    -- the records of the old sources are unsubscribed
    let _ ← orderParams s.orderSource s.eventTypes s.subscrFlags
    let orderSource ← dxAddOrderSource [] source.wide
    let _ ← orderParams orderSource s.eventTypes s.subscrFlags
    return { s with orderSource := orderSource }
  else return s

/-- `dxf_add_order_source`: only the records of the new source are subscribed. -/
def dxfAddOrderSource (s : SourceState) (source : NarrowSource) : Option SourceState :=
  if source.Accepted then do
    let elem ← Suffix.zero.copyStringLen source.wide source.bytes.length
    let _ ← orderParams [elem] s.eventTypes s.subscrFlags
    let orderSource ← dxAddOrderSource s.orderSource elem.read
    return { s with orderSource := orderSource }
  else return s

/-- The sources of a new subscription. -/
def initialSuffixes (eventTypes : ℕ) : Option (List Suffix) :=
  if eventTypes &&& EventId.order.bitMask ≠ 0 then
    (Context.allOrderSources ++ [[]]).foldlM dxAddOrderSource []
  else some []

/-- `dxf_create_subscription_with_flags`; the result in the result is `none` for a failure. -/
def createSubscription (eventTypes subscrFlags : ℕ) : Option (Option SourceState) :=
  if eventTypes &&& EventId.unusedMask ≠ 0 then return none
  else do
    let orderSource ← initialSuffixes eventTypes
    return some ⟨eventTypes, subscrFlags, orderSource⟩

/-- `DXF_ORDER_AGGREGATE_BID_STR` and `DXF_ORDER_AGGREGATE_ASK_STR`. -/
def orderAggregateStrs : List WString := [wideString "AGGREGATE_BID", wideString "AGGREGATE_ASK"]

/-- The events that there are snapshots of. -/
def snapshotEvents : List EventId :=
  [.order, .candle, .spreadOrder, .timeAndSale, .greeks, .series]

/-- The flags of the subscription of a snapshot. -/
def snapshotFlags (eventId : EventId) (source : WString) : ℕ :=
  if eventId = .order then
    SubscrFlag.timeSeries ||| SubscrFlag.singleRecord |||
      if source ∈ orderAggregateStrs then SubscrFlag.srMarketMakerOrder else 0
  else SubscrFlag.timeSeries

/-- The sources of the subscription of a snapshot: for the records of orders, only the one that is
asked for. -/
def snapshotSuffixes (eventId : EventId) (source : WString) (orderSource : List Suffix) :
    Option (List Suffix) :=
  if eventId = .order ∧ source ∉ orderAggregateStrs then
    if source = [] then return [] else dxAddOrderSource [] source
  else return orderSource

/-- `dxf_create_snapshot_impl` with the subscription that it makes; an empty source is a null
pointer. -/
def dxfCreateSnapshot (eventId : EventId) (symbol source : WString) :
    Option (Option SourceState) :=
  if eventId ∉ snapshotEvents ∨ symbol = [] then return none
  else do
    let some s ← createSubscription eventId.bitMask (snapshotFlags eventId source)
      | return none
    let orderSource ← snapshotSuffixes eventId source s.orderSource
    -- the symbol is subscribed
    let _ ← orderParams orderSource s.eventTypes s.subscrFlags
    return some { s with orderSource := orderSource }

/-- How a subscription comes about. -/
inductive Opening
  | subscription (eventTypes subscrFlags : ℕ)
  | snapshot (eventId : EventId) (symbol : WString) (source : NarrowSource)

def Opening.exec : Opening → Option (Option SourceState)
  | .subscription eventTypes subscrFlags => createSubscription eventTypes subscrFlags
  | .snapshot eventId symbol source => dxfCreateSnapshot eventId symbol source.wide

/-- A call for the order sources of a subscription, or one that subscribes, unsubscribes or
resubscribes its symbols. -/
inductive SourceCall
  | setOrderSource (source : NarrowSource)
  | addOrderSource (source : NarrowSource)
  | subscribe

def SourceCall.exec (s : SourceState) : SourceCall → Option SourceState
  | .setOrderSource source => dxfSetOrderSource s source
  | .addOrderSource source => dxfAddOrderSource s source
  | .subscribe => do
      let _ ← orderParams s.orderSource s.eventTypes s.subscrFlags
      return s

/-- A subscription after some calls; the result in the result is `none` if it was not opened. -/
def run (opening : Opening) (calls : List SourceCall) : Option (Option SourceState) := do
  let some s ← opening.exec | return none
  let s ← calls.foldlM SourceCall.exec s
  return some s

/-! ### What is promised -/

/-- The sources that a subscription is opened with. -/
def Opening.sources : Opening → List WString
  | .subscription eventTypes _ => Context.initialOrderSource eventTypes
  | .snapshot eventId _ source =>
      if eventId = .order ∧ source.wide ∉ orderAggregateStrs then
        if source.wide = [] then [] else [source.wide]
      else Context.initialOrderSource eventId.bitMask

/-- The sources after a call. -/
def SourceCall.onSources (sources : List WString) : SourceCall → List WString
  | .setOrderSource source => if source.Accepted then [source.wide] else sources
  | .addOrderSource source =>
      if source.Accepted then Context.insertOrderSource sources source.wide else sources
  | .subscribe => sources

/-- The sources that were accepted. -/
def sourcesAfter (opening : Opening) (calls : List SourceCall) : List WString :=
  calls.foldl SourceCall.onSources opening.sources

/-- The arrays of a subscription hold these sources, all records are named after them, and every
source is read back from its name. -/
structure Holds (s : SourceState) (sources : List WString) : Prop where
  stored : s.orderSource.map Suffix.text = sources.map some
  named : orderParams s.orderSource s.eventTypes s.subscrFlags =
    some (if isFlagSet s.eventTypes EventId.order.bitMask then
      getOrderSubscriptionParams sources s.subscrFlags else some [])
  readBack : ∀ source ∈ sources, ∃ item, initRecordInfo (orderTmpl ++ source) = .ok item ∧
    arrayString item.suffix = some source

/-- No array is accessed behind its end, and an open subscription holds its sources. -/
def Kept (opening : Opening) (calls : List SourceCall) : Prop :=
  ∃ opened, run opening calls = some opened ∧ ∀ s ∈ opened, Holds s (sourcesAfter opening calls)

/-- A snapshot of orders has a source of less than five units, if it is to have one at all. -/
def Opening.Fits : Opening → Prop
  | .subscription _ _ => True
  | .snapshot eventId symbol source =>
      eventId = .order → symbol ≠ [] → source.wide ∉ orderAggregateStrs →
        source.wide.length < suffixSize

/-! ### Short sources -/

/-- A source that leaves room for its terminator. -/
structure Short (source : WString) : Prop where
  length_lt : source.length < suffixSize
  noZero : 0 ∉ source

variable {source other : WString} {sources : List WString} {subscrFlags eventTypes : ℕ}

/-- The units of a source, filled up with zeros or cut. -/
def Suffix.ofString (source : WString) : Suffix :=
  ⟨source.take suffixSize ++ List.replicate (suffixSize - source.length) 0, by
    simp only [List.length_append, List.length_take, List.length_replicate]
    omega⟩

theorem Suffix.cells_ofString (source : WString) :
    (ofString source).cells =
      source.take suffixSize ++ List.replicate (suffixSize - source.length) 0 := rfl

theorem Suffix.copyStringLen_eq (suffix : Suffix) (source : WString) :
    suffix.copyStringLen source suffixSize = some (ofString source) := by
  rw [copyStringLen, dif_pos le_rfl, Option.some_inj, Suffix.mk.injEq, cells_ofString,
    List.drop_of_length_le suffix.length_eq.le, List.append_nil]

theorem Suffix.copyStringLen_zero {len : ℕ} (hsource : source.length ≤ len)
    (hlen : len < suffixSize) : zero.copyStringLen source len = some (ofString source) := by
  have hzeros : List.replicate (len - source.length) 0 ++ zero.cells.drop len =
      List.replicate (suffixSize - source.length) (0 : UInt16) := by
    rw [zero, List.drop_replicate, List.replicate_append_replicate]
    congr 1
    omega
  rw [copyStringLen, dif_pos hlen.le, Option.some_inj, Suffix.mk.injEq, cells_ofString,
    List.take_of_length_le hsource, List.take_of_length_le (hsource.trans hlen.le),
    List.append_assoc, hzeros]

theorem NarrowSource.Accepted.lt {source : NarrowSource} (h : source.Accepted) :
    source.bytes.length < suffixSize := by
  unfold NarrowSource.Accepted at h
  omega

theorem NarrowSource.Accepted.short {source : NarrowSource} (h : source.Accepted) :
    Short source.wide :=
  ⟨source.length_le.trans_lt h.lt, source.noZero⟩

theorem decide_ne_zero (h : 0 ∉ source) : ∀ c ∈ source, decide (c ≠ 0) = true := by
  intro c hc
  rw [decide_eq_true_eq]
  rintro rfl
  exact h hc

namespace Short

theorem cells_ofString (h : Short source) :
    (Suffix.ofString source).cells =
      source ++ List.replicate (suffixSize - source.length) 0 := by
  rw [Suffix.cells_ofString, List.take_of_length_le h.length_lt.le]

theorem cells_eq (h : Short source) :
    ∃ k, (Suffix.ofString source).cells = source ++ 0 :: List.replicate k 0 := by
  obtain ⟨k, hk⟩ : ∃ k, suffixSize - source.length = k + 1 :=
    ⟨suffixSize - source.length - 1, by have := h.length_lt; omega⟩
  refine ⟨k, ?_⟩
  rw [h.cells_ofString, hk, List.replicate_succ]

theorem text_eq (h : Short source) : (Suffix.ofString source).text = some source := by
  rw [Suffix.text, h.cells_ofString]
  exact arrayString_zeros h.noZero h.length_lt

theorem read_eq (h : Short source) : (Suffix.ofString source).read = source := by
  obtain ⟨k, hk⟩ := h.cells_eq
  rw [Suffix.read, hk, List.takeWhile_append_of_pos (decide_ne_zero h.noZero)]
  simp

/-- Two terminated strings are compared without an access behind them. -/
theorem compareStrings_append {a b x y : WString} (ha : 0 ∉ a) (hb : 0 ∉ b) :
    compareStrings (a ++ 0 :: x) (b ++ 0 :: y) = some (decide (a = b)) := by
  induction a generalizing b with
  | nil =>
      cases b with
      | nil => simp [compareStrings]
      | cons d b =>
          have hd : (0 : UInt16) ≠ d := fun h => hb (by simp [← h])
          simp [compareStrings, hd]
  | cons c a ih =>
      have hc : c ≠ 0 := fun h => ha (by simp [h])
      cases b with
      | nil => simp [compareStrings, hc]
      | cons d b =>
          have hrest := ih (fun h => ha (List.mem_cons_of_mem c h))
            (fun h => hb (List.mem_cons_of_mem d h))
          by_cases hcd : c = d
          · subst hcd
            rw [List.cons_append, List.cons_append, compareStrings, if_neg (by simp), if_neg hc,
              hrest]
            simp
          · rw [List.cons_append, List.cons_append, compareStrings, if_pos hcd]
            simp [hcd]

theorem compare_eq (h : Short source) (hother : Short other) :
    compareStrings (Suffix.ofString source).cells (Suffix.ofString other).cells =
      some (decide (source = other)) := by
  obtain ⟨k, hk⟩ := h.cells_eq
  obtain ⟨l, hl⟩ := hother.cells_eq
  rw [hk, hl]
  exact compareStrings_append h.noZero hother.noZero

end Short

/-! ### The functions on short sources -/

theorem searchSource_eq (h : ∀ source ∈ sources, Short source) (hother : Short other) :
    searchSource (Suffix.ofString other) (sources.map Suffix.ofString) =
      some (decide (other ∈ sources)) := by
  induction sources with
  | nil => simp [searchSource]
  | cons source sources ih =>
      have hrest := ih fun s hs => h s (List.mem_cons_of_mem source hs)
      have hcompare := (h source List.mem_cons_self).compare_eq hother
      simp only [List.map_cons, searchSource, hcompare, Option.bind_eq_bind, Option.bind_some]
      by_cases heq : source = other
      · simp [heq]
      · rw [hrest]
        simp [heq, Ne.symm heq]

/-- The array takes a source as the list does. -/
theorem dxAddOrderSource_eq (h : ∀ source ∈ sources, Short source) (hother : Short other) :
    dxAddOrderSource (sources.map Suffix.ofString) other =
      some ((Context.insertOrderSource sources other).map Suffix.ofString) := by
  unfold dxAddOrderSource Context.insertOrderSource
  rw [Suffix.copyStringLen_eq]
  simp only [Option.bind_eq_bind, Option.bind_some, searchSource_eq h hother]
  by_cases hmem : other ∈ sources
  · simp [hmem]
  · simp [hmem]

theorem short_insertOrderSource (h : ∀ source ∈ sources, Short source) (hother : Short other) :
    ∀ source ∈ Context.insertOrderSource sources other, Short source := by
  unfold Context.insertOrderSource
  split_ifs
  · exact h
  · intro source hsource
    rcases List.mem_append.mp hsource with hold | hnew
    · exact h source hold
    · rw [List.mem_singleton.mp hnew]
      exact hother

/-- A copy behind the template overwrites the rest of the buffer. -/
theorem copySuffixTo_eq {rest : List UInt16} (hrest : rest.length = suffixSize)
    (suffix : Suffix) :
    copySuffixTo (orderTmpl ++ rest) suffix =
      some (orderTmpl ++
        (suffix.read ++ List.replicate (suffixSize - suffix.read.length) 0)) := by
  have hread : suffix.read.length ≤ suffixSize := by
    rw [← suffix.length_eq]
    exact (List.takeWhile_prefix _).length_le
  have hpadded :
      (suffix.read ++ List.replicate (suffixSize - suffix.read.length) 0).length = suffixSize := by
    rw [List.length_append, List.length_replicate]
    omega
  have htmpl : orderTmpl.length = orderTmplLen := by decide
  have hbuf : (orderTmpl ++ rest).length = orderTmplLen + suffixSize := by
    rw [List.length_append, htmpl, hrest]
  rw [copySuffixTo, Cells.copy_eq_some, hpadded, hbuf]
  refine ⟨by omega, ?_⟩
  rw [List.drop_zero, List.take_of_length_le hpadded.le, List.drop_of_length_le hbuf.le,
    List.append_nil, List.take_left' htmpl]

theorem Short.copySuffixTo_eq {rest : List UInt16} (hrest : rest.length = suffixSize)
    (h : Short source) :
    copySuffixTo (orderTmpl ++ rest) (Suffix.ofString source) =
      some (orderTmpl ++ (Suffix.ofString source).cells) := by
  rw [EventSubscription.copySuffixTo_eq hrest, h.read_eq, ← h.cells_ofString]

theorem orderNameBufTmpl_eq :
    orderNameBufTmpl = some (orderTmpl ++ Suffix.zero.cells) := by
  decide

theorem orderTmpl_noZero : 0 ∉ orderTmpl := by
  decide

theorem Short.arrayString_orderTmpl (h : Short source) :
    arrayString (orderTmpl ++ (Suffix.ofString source).cells) = some (orderTmpl ++ source) := by
  have hnoZero : 0 ∉ orderTmpl ++ source := by
    rw [List.mem_append]
    exact not_or.mpr ⟨orderTmpl_noZero, h.noZero⟩
  have hlt : (orderTmpl ++ source).length < orderTmpl.length + suffixSize := by
    rw [List.length_append]
    exact Nat.add_lt_add_left h.length_lt _
  have hstring := arrayString_zeros hnoZero hlt
  rw [List.length_append, Nat.add_sub_add_left, List.append_assoc, ← h.cells_ofString] at hstring
  exact hstring

/-- The buffer is as it was but for the suffix, so that the next source finds the template. -/
theorem orderNames_eq {rest : List UInt16} (hrest : rest.length = suffixSize)
    (h : ∀ source ∈ sources, Short source) :
    orderNames (orderTmpl ++ rest) (sources.map Suffix.ofString) =
      some (sources.map fun source => orderTmpl ++ source) := by
  induction sources generalizing rest with
  | nil => rfl
  | cons source sources ih =>
      have hsource := h source List.mem_cons_self
      have hnext := ih (Suffix.ofString source).length_eq
        fun s hs => h s (List.mem_cons_of_mem source hs)
      simp only [List.map_cons, orderNames, hsource.copySuffixTo_eq hrest,
        hsource.arrayString_orderTmpl, hnext, Option.bind_eq_bind, Option.bind_some]
      rfl

/-- The records of a single source are those of the string. -/
theorem getSingleOrderParams_eq (h : ∀ source ∈ sources, Short source) (subscrFlags : ℕ) :
    getSingleOrderParams (sources.map Suffix.ofString) subscrFlags =
      some (getSingleOrderSubscriptionParams sources subscrFlags) := by
  unfold getSingleOrderParams getSingleOrderSubscriptionParams
  split_ifs with hsingle hmaker
  · rfl
  · rcases sources with _ | ⟨source, _ | ⟨second, rest⟩⟩
    · rfl
    · have hsource := h source List.mem_cons_self
      simp only [List.map_cons, List.map_nil, orderNameBufTmpl_eq, Option.bind_eq_bind,
        Option.bind_some, hsource.copySuffixTo_eq Suffix.zero.length_eq,
        hsource.arrayString_orderTmpl]
      rfl
    · rfl
  · rfl

/-- The records of all sources are those of the strings. -/
theorem getOrderParams_eq (h : ∀ source ∈ sources, Short source) (subscrFlags : ℕ) :
    getOrderParams (sources.map Suffix.ofString) subscrFlags =
      some (getOrderSubscriptionParams sources subscrFlags) := by
  unfold getOrderParams getOrderSubscriptionParams
  split_ifs with hsingle
  · exact getSingleOrderParams_eq h subscrFlags
  · simp only [orderNameBufTmpl_eq, Option.bind_eq_bind, Option.bind_some,
      orderNames_eq Suffix.zero.length_eq h]
    rfl

theorem orderParams_eq (h : ∀ source ∈ sources, Short source) (eventTypes subscrFlags : ℕ) :
    orderParams (sources.map Suffix.ofString) eventTypes subscrFlags =
      some (if isFlagSet eventTypes EventId.order.bitMask then
        getOrderSubscriptionParams sources subscrFlags else some []) := by
  unfold orderParams
  split_ifs
  · exact getOrderParams_eq h subscrFlags
  · rfl

/-- The source is read back from the name of its record. -/
theorem initRecordInfo_short (h : Short source) :
    ∃ item, initRecordInfo (orderTmpl ++ source) = .ok item ∧
      arrayString item.suffix = some source := by
  have hname : orderTmpl ++ source = defaultName .order ++ sourceSign :: source := rfl
  have hinfo : stringToRecordInfo (defaultName .order ++ sourceSign :: source) = some .order :=
    stringToRecordInfo_kind .order _
  -- the copy has one unit more than the source, and that is a zero like those behind it
  have hcopy : DataStructures.copyStringLen (List.replicate suffixSize 0) source
      (source.length + 1) = some (source ++ List.replicate (suffixSize - source.length) 0) :=
    copyStringLen_zeros (Nat.le_succ _) h.length_lt
  unfold initRecordInfo
  rw [hname, hinfo]
  simp only [List.drop_left, RecordInfoItem.cutSuffix, if_true, RecordInfoItem.copySuffix, hcopy,
    true_or]
  exact ⟨_, rfl, arrayString_zeros h.noZero h.length_lt⟩

/-! ### Runs -/

/-- The arrays of a subscription are those of short sources. -/
structure Bounded (s : SourceState) (sources : List WString) : Prop where
  short : ∀ source ∈ sources, Short source
  stored : s.orderSource = sources.map Suffix.ofString

variable {s : SourceState} {opening : Opening} {calls : List SourceCall}

theorem Bounded.holds (h : Bounded s sources) : Holds s sources where
  stored := by
    rw [h.stored, List.map_map]
    apply List.map_congr_left
    intro source hsource
    exact (h.short source hsource).text_eq
  named := by
    rw [h.stored]
    exact orderParams_eq h.short _ _
  readBack source hsource := initRecordInfo_short (h.short source hsource)

theorem short_singleton (h : Short source) : ∀ other ∈ [source], Short other := by
  intro other hother
  rw [List.mem_singleton.mp hother]
  exact h

/-- The first source of an array is compared with no other one, however long it is. -/
theorem dxAddOrderSource_nil (source : WString) :
    dxAddOrderSource [] source = some [Suffix.ofString source] := by
  unfold dxAddOrderSource
  rw [Suffix.copyStringLen_eq]
  rfl

theorem Bounded.orderParams_eq (h : Bounded s sources) :
    orderParams s.orderSource s.eventTypes s.subscrFlags =
      some (if isFlagSet s.eventTypes EventId.order.bitMask then
        getOrderSubscriptionParams sources s.subscrFlags else some []) := by
  rw [h.stored]
  exact EventSubscription.orderParams_eq h.short _ _

theorem Bounded.setOrderSource (h : Bounded s sources) {source : NarrowSource}
    (haccepted : source.Accepted) :
    ∃ s', dxfSetOrderSource s source = some s' ∧ Bounded s' [source.wide] := by
  have hshort := short_singleton haccepted.short
  refine ⟨{ s with orderSource := [Suffix.ofString source.wide] }, ?_, hshort, rfl⟩
  have hparams := EventSubscription.orderParams_eq hshort s.eventTypes s.subscrFlags
  rw [List.map_singleton] at hparams
  rw [dxfSetOrderSource, if_pos haccepted]
  simp only [h.orderParams_eq, dxAddOrderSource_nil, hparams, Option.bind_eq_bind,
    Option.bind_some]
  rfl

theorem Bounded.addOrderSource (h : Bounded s sources) {source : NarrowSource}
    (haccepted : source.Accepted) :
    ∃ s', dxfAddOrderSource s source = some s' ∧
      Bounded s' (Context.insertOrderSource sources source.wide) := by
  have hsource := haccepted.short
  refine ⟨{ s with
    orderSource := (Context.insertOrderSource sources source.wide).map Suffix.ofString }, ?_,
    short_insertOrderSource h.short hsource, rfl⟩
  have helem := Suffix.copyStringLen_zero source.length_le haccepted.lt
  have hparams :=
    EventSubscription.orderParams_eq (short_singleton hsource) s.eventTypes s.subscrFlags
  rw [List.map_singleton] at hparams
  have hadd := dxAddOrderSource_eq h.short hsource
  rw [← h.stored] at hadd
  rw [dxfAddOrderSource, if_pos haccepted]
  simp only [helem, hparams, hsource.read_eq, hadd, Option.bind_eq_bind, Option.bind_some]
  rfl

/-- One call keeps the arrays bounded, and stays in them. -/
theorem Bounded.exec (h : Bounded s sources) (call : SourceCall) :
    ∃ s', call.exec s = some s' ∧ Bounded s' (call.onSources sources) := by
  cases call with
  | setOrderSource source =>
      by_cases haccepted : source.Accepted
      · rw [SourceCall.onSources, if_pos haccepted]
        exact h.setOrderSource haccepted
      · rw [SourceCall.onSources, if_neg haccepted]
        exact ⟨s, if_neg haccepted, h⟩
  | addOrderSource source =>
      by_cases haccepted : source.Accepted
      · rw [SourceCall.onSources, if_pos haccepted]
        exact h.addOrderSource haccepted
      · rw [SourceCall.onSources, if_neg haccepted]
        exact ⟨s, if_neg haccepted, h⟩
  | subscribe =>
      refine ⟨s, ?_, h⟩
      simp only [SourceCall.exec, h.orderParams_eq, Option.bind_eq_bind, Option.bind_some]
      rfl

theorem Bounded.foldlM (h : Bounded s sources) (calls : List SourceCall) :
    ∃ s', calls.foldlM SourceCall.exec s = some s' ∧
      Bounded s' (calls.foldl SourceCall.onSources sources) := by
  induction calls generalizing s sources with
  | nil => exact ⟨s, rfl, h⟩
  | cons call calls ih =>
      obtain ⟨s', hcall, h'⟩ := h.exec call
      obtain ⟨s'', hcalls, h''⟩ := ih h'
      refine ⟨s'', ?_, h''⟩
      rw [List.foldlM_cons, hcall]
      exact hcalls

/-! ### Openings -/

theorem foldlM_dxAddOrderSource (h : ∀ source ∈ sources, Short source) {others : List WString}
    (hothers : ∀ source ∈ others, Short source) :
    others.foldlM dxAddOrderSource (sources.map Suffix.ofString) =
        some ((others.foldl Context.insertOrderSource sources).map Suffix.ofString) ∧
      ∀ source ∈ others.foldl Context.insertOrderSource sources, Short source := by
  induction others generalizing sources with
  | nil => exact ⟨rfl, h⟩
  | cons other others ih =>
      have hother := hothers other List.mem_cons_self
      have hrest := ih (short_insertOrderSource h hother)
        fun s hs => hothers s (List.mem_cons_of_mem other hs)
      rw [List.foldlM_cons, dxAddOrderSource_eq h hother]
      exact hrest

instance (source : WString) : Decidable (Short source) :=
  decidable_of_iff (source.length < suffixSize ∧ 0 ∉ source)
    ⟨fun h => ⟨h.1, h.2⟩, fun h => ⟨h.length_lt, h.noZero⟩⟩

/-- The known sources are short; the empty one is for market makers. -/
theorem short_allOrderSources : ∀ source ∈ Context.allOrderSources ++ [[]], Short source := by
  decide +kernel

/-- A new subscription has the known sources. -/
theorem initialSuffixes_eq (eventTypes : ℕ) :
    initialSuffixes eventTypes =
        some ((Context.initialOrderSource eventTypes).map Suffix.ofString) ∧
      ∀ source ∈ Context.initialOrderSource eventTypes, Short source := by
  unfold initialSuffixes Context.initialOrderSource
  have hnone : ∀ source ∈ ([] : List WString), Short source := by simp
  split_ifs with horder
  · exact foldlM_dxAddOrderSource hnone short_allOrderSources
  · exact ⟨rfl, hnone⟩

theorem createSubscription_known {eventTypes : ℕ} (h : eventTypes &&& EventId.unusedMask = 0)
    (subscrFlags : ℕ) :
    ∃ s, createSubscription eventTypes subscrFlags = some (some s) ∧
      Bounded s (Context.initialOrderSource eventTypes) ∧ s.eventTypes = eventTypes ∧
        s.subscrFlags = subscrFlags := by
  obtain ⟨hsuffixes, hshort⟩ := initialSuffixes_eq eventTypes
  refine ⟨⟨eventTypes, subscrFlags,
    (Context.initialOrderSource eventTypes).map Suffix.ofString⟩, ?_, ⟨hshort, rfl⟩, rfl, rfl⟩
  rw [createSubscription, if_neg (not_not.mpr h), hsuffixes]
  rfl

theorem bitMask_known (eventId : EventId) : eventId.bitMask &&& EventId.unusedMask = 0 := by
  cases eventId <;> decide

theorem Bounded.snapshotSuffixes (h : Bounded s (Context.initialOrderSource eventTypes))
    {eventId : EventId} (hevent : eventId.bitMask = eventTypes) {symbol : WString}
    (hsymbol : symbol ≠ []) {source : NarrowSource}
    (hfits : (Opening.snapshot eventId symbol source).Fits) :
    ∃ orderSource, snapshotSuffixes eventId source.wide s.orderSource = some orderSource ∧
      Bounded { s with orderSource := orderSource }
        (Opening.snapshot eventId symbol source).sources := by
  simp only [EventSubscription.snapshotSuffixes, Opening.sources]
  split_ifs with horder hempty
  · exact ⟨[], rfl, by simp, rfl⟩
  · exact ⟨_, dxAddOrderSource_nil source.wide,
      short_singleton ⟨hfits horder.1 hsymbol horder.2, source.noZero⟩, rfl⟩
  · rw [hevent]
    exact ⟨_, rfl, h.short, h.stored⟩

/-- An opening that fits fails in the ways that it checks for, or it gives a subscription. -/
theorem Opening.Fits.exec (h : opening.Fits) :
    ∃ opened, opening.exec = some opened ∧ ∀ s ∈ opened, Bounded s opening.sources := by
  cases opening with
  | subscription eventTypes subscrFlags =>
      by_cases hunused : eventTypes &&& EventId.unusedMask = 0
      · obtain ⟨s, hs, hbounded, -, -⟩ := createSubscription_known hunused subscrFlags
        refine ⟨some s, hs, ?_⟩
        rintro s' hs'
        cases hs'
        exact hbounded
      · exact ⟨none, if_pos hunused, by simp⟩
  | snapshot eventId symbol source =>
      simp only [Opening.exec, dxfCreateSnapshot]
      split_ifs with hfailed
      · exact ⟨none, rfl, by simp⟩
      · have hsymbol : symbol ≠ [] := fun hnil => hfailed (Or.inr hnil)
        obtain ⟨s, hs, hbounded, -, -⟩ := createSubscription_known (bitMask_known eventId)
          (snapshotFlags eventId source.wide)
        obtain ⟨orderSource, hsuffixes, hbounded'⟩ := hbounded.snapshotSuffixes rfl hsymbol h
        have hparams := hbounded'.orderParams_eq
        refine ⟨some { s with orderSource := orderSource }, ?_, ?_⟩
        · simp only [hs, hsuffixes, hparams, Option.bind_eq_bind, Option.bind_some]
          rfl
        · rintro s' hs'
          cases hs'
          exact hbounded'

/-- Without room for a terminator the name of the record has no end. -/
theorem orderParams_long (hlong : suffixSize ≤ source.length) (hnoZero : 0 ∉ source)
    (hsource : source ∉ orderAggregateStrs) :
    orderParams [Suffix.ofString source] EventId.order.bitMask (snapshotFlags .order source) =
      none := by
  have hcells : (Suffix.ofString source).cells = source.take suffixSize := by
    rw [Suffix.cells_ofString, Nat.sub_eq_zero_of_le hlong, List.replicate_zero, List.append_nil]
  have hnoZero' : 0 ∉ source.take suffixSize := fun h => hnoZero (List.mem_of_mem_take h)
  have hread : (Suffix.ofString source).read = source.take suffixSize := by
    rw [Suffix.read, hcells, List.takeWhile_eq_self_iff]
    exact decide_ne_zero hnoZero'
  have hbuf := copySuffixTo_eq Suffix.zero.length_eq (Suffix.ofString source)
  rw [hread, List.length_take, Nat.min_eq_left hlong, Nat.sub_self, List.replicate_zero,
    List.append_nil] at hbuf
  have hname : arrayString (orderTmpl ++ source.take suffixSize) = none := by
    refine if_neg ?_
    rw [List.mem_append]
    exact not_or.mpr ⟨orderTmpl_noZero, hnoZero'⟩
  have hflags : snapshotFlags .order source = SubscrFlag.timeSeries ||| SubscrFlag.singleRecord := by
    rw [snapshotFlags, if_pos rfl, if_neg hsource, Nat.or_zero]
  have horder : isFlagSet EventId.order.bitMask EventId.order.bitMask = true := by decide
  have hsingle : isFlagSet (SubscrFlag.timeSeries ||| SubscrFlag.singleRecord)
      SubscrFlag.singleRecord = true := by decide
  have hmaker : ¬ isFlagSet (SubscrFlag.timeSeries ||| SubscrFlag.singleRecord)
      SubscrFlag.srMarketMakerOrder = true := by decide
  rw [hflags, orderParams, if_pos horder, getOrderParams, if_pos hsingle, getSingleOrderParams,
    if_pos hsingle]
  simp only [if_neg hmaker, orderNameBufTmpl_eq, hbuf, hname, Option.bind_eq_bind,
    Option.bind_some, Option.bind_none]

/-- A snapshot of orders with a long source reads behind the name of its record. -/
theorem exec_long {symbol : WString} (hsymbol : symbol ≠ []) {source : NarrowSource}
    (hsource : source.wide ∉ orderAggregateStrs) (hlong : suffixSize ≤ source.wide.length) :
    (Opening.snapshot .order symbol source).exec = none := by
  have hchecked : ¬ (EventId.order ∉ snapshotEvents ∨ symbol = []) := by
    simp [snapshotEvents, hsymbol]
  obtain ⟨s, hs, -, hevents, hflags⟩ := createSubscription_known (bitMask_known .order)
    (snapshotFlags .order source.wide)
  have hnonempty : source.wide ≠ [] := by
    intro hnil
    simp [hnil, suffixSize] at hlong
  have hsuffixes : snapshotSuffixes .order source.wide s.orderSource =
      some [Suffix.ofString source.wide] := by
    rw [snapshotSuffixes, if_pos ⟨rfl, hsource⟩, if_neg hnonempty, dxAddOrderSource_nil]
  rw [Opening.exec, dxfCreateSnapshot, if_neg hchecked, hs]
  simp only [hsuffixes, hevents, hflags, orderParams_long hlong source.noZero hsource,
    Option.bind_eq_bind, Option.bind_some, Option.bind_none]

theorem Opening.Fits.kept (h : opening.Fits) (calls : List SourceCall) : Kept opening calls := by
  obtain ⟨opened, hopened, hbounded⟩ := h.exec
  unfold Kept run
  rw [hopened]
  cases opened with
  | none => exact ⟨none, rfl, by simp⟩
  | some s =>
      obtain ⟨s', hcalls, hbounded'⟩ := (hbounded s rfl).foldlM calls
      refine ⟨some s', ?_, ?_⟩
      · simp only [hcalls, Option.bind_eq_bind, Option.bind_some]
        rfl
      · rintro s'' hs''
        cases hs''
        exact hbounded'.holds

theorem not_kept_of_long {symbol : WString} (hsymbol : symbol ≠ []) {source : NarrowSource}
    (hsource : source.wide ∉ orderAggregateStrs) (hlong : suffixSize ≤ source.wide.length)
    (calls : List SourceCall) : ¬ Kept (.snapshot .order symbol source) calls := by
  rintro ⟨opened, hrun, -⟩
  rw [run, exec_long hsymbol hsource hlong] at hrun
  simp at hrun

/-- Sources keep their bounds in every run, unless the subscription is that of a snapshot of orders
whose source leaves no room for a terminator. -/
theorem kept_iff (opening : Opening) (calls : List SourceCall) :
    Kept opening calls ↔ opening.Fits := by
  constructor
  · intro hkept
    cases opening with
    | subscription eventTypes subscrFlags => trivial
    | snapshot eventId symbol source =>
        rintro rfl hsymbol hsource
        by_contra hlong
        exact not_kept_of_long hsymbol hsource (not_lt.mp hlong) calls hkept
  · exact fun hfits => hfits.kept calls

/-- The source `ABCDE`. -/
def longSource : NarrowSource where
  bytes := [65, 66, 67, 68, 69]
  wide := wideString "ABCDE"
  length_le := by decide
  noZero := by decide

/-- A snapshot with five units for its source is opened, and its name is not terminated. -/
theorem not_kept_longSource :
    ¬ Kept (.snapshot .order (wideString "IBM") longSource) [] :=
  not_kept_of_long (by decide) (by decide) (by decide) []

end DxFeed.EventSubscription
