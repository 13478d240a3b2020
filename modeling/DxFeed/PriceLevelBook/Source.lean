import DxFeed.PriceLevelBook.Levels

/-!
# Price level sources

The order snapshot of a source and its event listener, as in `PriceLevelBook.c`.

* `PlbSource`: the snapshot (sorted by index), its status, and the working and final copies
  of both sides;
* `plbSourceResetSnapshot`, `plbSourceProcessOrder`, `plbEventListener`;
* `runListener`: the listener over a list of events.

Allocations succeed.  A source and its books are called under locks, one event at a time.
-/

namespace DxFeed.PriceLevelBook

open SortedList

variable {P S : Type*}

/-- `dx_plb_status_t`. -/
inductive PlbStatus
  | unknown
  | begin
  | full
  | pending
  deriving DecidableEq

/-- `dx_plb_source_t` without its guard, hash, subscription and consumers. -/
structure PlbSource (P S : Type*) where
  symbol : String
  source : String
  snapshot : List (Order P S)
  snapshotStatus : PlbStatus
  bids : PriceLevelSide P S
  finalBids : PriceLevelSide P S
  asks : PriceLevelSide P S
  finalAsks : PriceLevelSide P S
  deriving DecidableEq

/-- `DXF_RECORD_SUFFIX_SIZE`: the length of the buffer of an order source name, with the
terminating zero. -/
def recordSuffixSize : ℕ := 5

/-- The state that `dx_plb_source_create` sets up. -/
def plbSourceCreate (symbol src : String) : PlbSource P S where
  symbol := symbol
  source := String.ofList (src.toList.take (recordSuffixSize - 1))
  snapshot := []
  snapshotStatus := .full
  bids := .empty
  finalBids := .empty
  asks := .empty
  finalAsks := .empty

/-- An order event as the subscription passes it to `plb_event_listener`. -/
structure OrderEvent (P S : Type*) where
  eventType : ℕ
  symbolName : String
  order : Order P S
  flags : ℕ
  deriving DecidableEq

/-- `dx_plb_source_reset_snapshot`: the orders and the working levels are dropped, and so are
the final levels.  The marks `rebuild` and `updated` stay. -/
def plbSourceResetSnapshot (source : PlbSource P S) : PlbSource P S :=
  { source with
    snapshot := []
    bids := source.bids.clear
    finalBids := source.bids.clear
    asks := source.asks.clear
    finalAsks := source.asks.clear }

/-- `dx_plb_order_comparator`. -/
def plbOrderComparator (o1 o2 : Order P S) : ℤ := numericComparator o1.index o2.index

/-- The search of `dx_plb_source_process_order` for an order: first at the place given by the
low 32 bits of the index, then by binary search on the side of that place. -/
def findOrder (snapshot : List (Order P S)) (order : Order P S) : Bool × ℕ :=
  let orderIdx := (order.index % 2 ^ 32).toNat
  match snapshot[orderIdx]? with
  | some o =>
      if o.index = order.index then (true, orderIdx)
      else if o.index < order.index then
        binarySearch snapshot orderIdx snapshot.length order plbOrderComparator
      else binarySearch snapshot 0 orderIdx order plbOrderComparator
  | none => binarySearch snapshot 0 snapshot.length order plbOrderComparator

/-- `side == dxf_osd_buy ? &source->bids : &source->asks`, updated by `f`. -/
def PlbSource.onSide (source : PlbSource P S) (side : OrderSide)
    (f : PriceLevelSide P S → PriceLevelSide P S) : PlbSource P S :=
  if side = .buy then { source with bids := f source.bids }
  else { source with asks := f source.asks }

theorem onSide_frame (source : PlbSource P S) (side : OrderSide)
    (f : PriceLevelSide P S → PriceLevelSide P S) :
    (source.onSide side f).symbol = source.symbol ∧
      (source.onSide side f).source = source.source ∧
      (source.onSide side f).snapshotStatus = source.snapshotStatus := by
  unfold PlbSource.onSide
  split_ifs <;> exact ⟨rfl, rfl, rfl⟩

section Listener

variable [LinearOrder P] [AddCommGroup S] [LinearOrder S]

/-- The comparator of the side an order of side `side` belongs to. -/
def sideComparator (side : OrderSide) : LevelComparator P S :=
  if side = .buy then plbPricelvelComparatorBid else plbPricelvelComparatorAsk

/-- Removing an order from the levels of its side. -/
def PlbSource.removeFromLevels (source : PlbSource P S) (oo : Order P S) : PlbSource P S :=
  source.onSide oo.side fun ob => plbSourceRemoveOrderFromLevels (sideComparator oo.side) ob oo

/-- Adding an order to the levels of its side. -/
def PlbSource.addToLevels (source : PlbSource P S) (order : Order P S) : PlbSource P S :=
  source.onSide order.side fun ob => plbSourceAddOrderToLevels (sideComparator order.side) ob order

/-- An order record after `dx_memset` to zero and `oo->index = order->index`. -/
def clearedOrder [Zero P] (index : ℤ) : Order P S where
  source := ""
  index := index
  time := 0
  price := 0
  size := 0
  side := .undefined

/-- `dx_plb_source_process_order`. -/
def plbSourceProcessOrder [Zero P] (source : PlbSource P S) (order : Order P S) (rm : Bool) :
    PlbSource P S :=
  let search := findOrder source.snapshot order
  let orderIdx := search.2
  if search.1 then
    match source.snapshot[orderIdx]? with
    | none => source
    | some oo =>
        if rm ∨ order.size = 0 then
          let source' := source.removeFromLevels oo
          if rm then { source' with snapshot := arrayDelete source.snapshot orderIdx }
          else { source' with snapshot := source.snapshot.set orderIdx (clearedOrder order.index) }
        else
          -- the new order is added first, to minimize the chances to hit zero size
          let source' := (source.addToLevels order).removeFromLevels oo
          { source' with snapshot := source.snapshot.set orderIdx order }
  else if rm = false ∧ order.size ≠ 0 then
    let source' := { source with snapshot := arrayInsert source.snapshot order orderIdx }
    source'.addToLevels order
  else source

/-- An order keeps what additions to the levels, removals from them and other lists of orders
keep. -/
theorem plbSourceProcessOrder_keeps [Zero P] {Q : PlbSource P S → Prop} {source : PlbSource P S}
    {order : Order P S} (h : Q source) (hadd : ∀ s, Q s → Q (s.addToLevels order))
    (hremove : ∀ s oo, Q s → Q (s.removeFromLevels oo))
    (hsnapshot : ∀ s snapshot, Q s → Q { s with snapshot := snapshot }) (rm : Bool) :
    Q (plbSourceProcessOrder source order rm) := by
  unfold plbSourceProcessOrder
  dsimp only
  by_cases hfound : (findOrder source.snapshot order).1
  · rw [if_pos hfound]
    cases source.snapshot[(findOrder source.snapshot order).2]? with
    | none => exact h
    | some oo =>
        dsimp only
        split_ifs
        · exact hsnapshot _ _ (hremove _ oo h)
        · exact hsnapshot _ _ (hremove _ oo h)
        · exact hsnapshot _ _ (hremove _ oo (hadd _ h))
  · rw [if_neg hfound]
    split_ifs
    · exact hadd _ (hsnapshot _ _ h)
    · exact h

/-- An order changes neither the names of its source nor the status. -/
theorem plbSourceProcessOrder_frame [Zero P] (source : PlbSource P S) (order : Order P S)
    (rm : Bool) :
    (plbSourceProcessOrder source order rm).symbol = source.symbol ∧
      (plbSourceProcessOrder source order rm).source = source.source ∧
      (plbSourceProcessOrder source order rm).snapshotStatus = source.snapshotStatus := by
  refine plbSourceProcessOrder_keeps (Q := fun s => s.symbol = source.symbol ∧
    s.source = source.source ∧ s.snapshotStatus = source.snapshotStatus)
    ⟨rfl, rfl, rfl⟩ ?_ ?_ (fun _ _ h => h) rm
  · intro s h
    obtain ⟨hsymbol, hsource, hstatus⟩ := onSide_frame s order.side fun ob =>
      plbSourceAddOrderToLevels (sideComparator order.side) ob order
    exact ⟨hsymbol.trans h.1, hsource.trans h.2.1, hstatus.trans h.2.2⟩
  · intro s oo h
    obtain ⟨hsymbol, hsource, hstatus⟩ := onSide_frame s oo.side fun ob =>
      plbSourceRemoveOrderFromLevels (sideComparator oo.side) ob oo
    exact ⟨hsymbol.trans h.1, hsource.trans h.2.1, hstatus.trans h.2.2⟩

/-- `dxf_ef_snapshot_end` or `dxf_ef_snapshot_snip`. -/
def endsSnapshot (flags : ℕ) : Bool :=
  isFlagSet flags EventFlag.snapshotEnd || isFlagSet flags EventFlag.snapshotSnip

/-- The status after an event: set-end-of-snapshot, then the transaction mark. -/
def nextStatus (status : PlbStatus) (se tx : Bool) : PlbStatus :=
  let status := if se then .full else status
  if tx ∧ status = .full then .pending
  else if tx = false ∧ status = .pending then .full
  else status

/-- The source assigns its final levels: rebuild what asks for it, then copy. -/
def PlbSource.publish (source : PlbSource P S) : PlbSource P S :=
  let bids :=
    if source.bids.rebuild then
      plbSourceRebuildLevels plbPricelvelComparatorBid source.snapshot source.bids .buy
    else source.bids
  let asks :=
    if source.asks.rebuild then
      plbSourceRebuildLevels plbPricelvelComparatorAsk source.snapshot source.asks .sell
    else source.asks
  { source with
    bids := bids
    finalBids := if bids.updated then bids else source.finalBids
    asks := asks
    finalAsks := if asks.updated then asks else source.finalAsks }

/-- The listener accepts the event: type, symbol and order source are those of the source. -/
def PlbSource.accepts (source : PlbSource P S) (event : OrderEvent P S) : Bool :=
  decide (event.eventType = EventId.order.bitMask) && decide (source.symbol = event.symbolName) &&
    decide (source.source = event.order.source)

/-- `IS_FLAG_SET(flags, dxf_ef_remove_event) || order->size == 0`. -/
def OrderEvent.isRemoval (event : OrderEvent P S) : Bool :=
  isFlagSet event.flags EventFlag.removeEvent || decide (event.order.size = 0)

/-- `if (sb)`: the snapshot begins again. -/
def PlbSource.beginSnapshot (source : PlbSource P S) (flags : ℕ) : PlbSource P S :=
  if isFlagSet flags EventFlag.snapshotBegin then
    { plbSourceResetSnapshot source with snapshotStatus := .begin }
  else source

/-- The order of an event is processed, and the status moves. -/
def PlbSource.processEvent [Zero P] (source : PlbSource P S) (event : OrderEvent P S) :
    PlbSource P S :=
  let source := plbSourceProcessOrder source event.order event.isRemoval
  { source with
    snapshotStatus := nextStatus source.snapshotStatus (endsSnapshot event.flags)
      (isFlagSet event.flags EventFlag.txPending) }

/-- It is the end of a transaction, and some levels were changed. -/
def PlbSource.Complete (source : PlbSource P S) : Prop :=
  (source.asks.updated = true ∨ source.bids.updated = true) ∧ source.snapshotStatus = .full

instance (source : PlbSource P S) : Decidable source.Complete :=
  inferInstanceAs (Decidable (_ ∧ _))

/-- `plb_event_listener`: the new state of the source, and whether its consumers are called
(`dx_plb_book_update` for every book of the source). -/
def plbEventListener [Zero P] (source : PlbSource P S) (event : OrderEvent P S) :
    PlbSource P S × Bool :=
  if source.accepts event then
    let source := source.beginSnapshot event.flags
    if source.snapshotStatus = .unknown then (source, false)
    else
      let source := source.processEvent event
      if source.Complete then (source.publish, true) else (source, false)
  else (source, false)

/-- What one call of the listener may do. -/
inductive ListenerStep [Zero P] (source : PlbSource P S) (event : OrderEvent P S) :
    PlbSource P S × Bool → Prop
  | rejected (h : source.accepts event = false) : ListenerStep source event (source, false)
  | skipped (h : source.accepts event = true)
      (hstatus : (source.beginSnapshot event.flags).snapshotStatus = .unknown) :
      ListenerStep source event (source.beginSnapshot event.flags, false)
  | stored (h : source.accepts event = true)
      (hstatus : (source.beginSnapshot event.flags).snapshotStatus ≠ .unknown)
      (hpending : ¬ ((source.beginSnapshot event.flags).processEvent event).Complete) :
      ListenerStep source event ((source.beginSnapshot event.flags).processEvent event, false)
  | published (h : source.accepts event = true)
      (hstatus : (source.beginSnapshot event.flags).snapshotStatus ≠ .unknown)
      (hcomplete : ((source.beginSnapshot event.flags).processEvent event).Complete) :
      ListenerStep source event
        (((source.beginSnapshot event.flags).processEvent event).publish, true)

theorem plbEventListener_step [Zero P] (source : PlbSource P S) (event : OrderEvent P S) :
    ListenerStep source event (plbEventListener source event) := by
  unfold plbEventListener
  dsimp only
  split_ifs with haccepts hstatus hcomplete
  · exact .skipped haccepts hstatus
  · exact .published haccepts hstatus hcomplete
  · exact .stored haccepts hstatus hcomplete
  · exact .rejected (by simpa using haccepts)

/-- A source that publishes accepted the event and has the status full. -/
theorem full_of_publishes [Zero P] {source : PlbSource P S} {event : OrderEvent P S}
    (h : (plbEventListener source event).2 = true) :
    source.accepts event = true ∧ (plbEventListener source event).1.snapshotStatus = .full := by
  have hstep := plbEventListener_step source event
  generalize plbEventListener source event = result at hstep h ⊢
  cases hstep with
  | rejected _ => cases h
  | skipped _ _ => cases h
  | stored _ _ _ => cases h
  | published haccepts _ hcomplete => exact ⟨haccepts, hcomplete.2⟩

/-- A source that is full without publishing was never updated. -/
theorem not_updated_of_full [Zero P] {source : PlbSource P S} {event : OrderEvent P S}
    (haccepts : source.accepts event = true)
    (hfull : (plbEventListener source event).1.snapshotStatus = .full)
    (h : (plbEventListener source event).2 = false) :
    (plbEventListener source event).1.bids.updated = false ∧
      (plbEventListener source event).1.asks.updated = false := by
  have hstep := plbEventListener_step source event
  generalize plbEventListener source event = result at hstep hfull h ⊢
  cases hstep with
  | rejected hrejects => simp [haccepts] at hrejects
  | skipped _ hstatus => rw [hstatus] at hfull; cases hfull
  | stored _ _ hpending =>
      have hno := not_or.mp fun hu => hpending ⟨hu, hfull⟩
      simpa using hno.symm
  | published _ _ _ => cases h

/-- The source after a list of events. -/
def runListener [Zero P] (source : PlbSource P S) (events : List (OrderEvent P S)) :
    PlbSource P S :=
  events.foldl (fun source event => (plbEventListener source event).1) source

end Listener

end DxFeed.PriceLevelBook
