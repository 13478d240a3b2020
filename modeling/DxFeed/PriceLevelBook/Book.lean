import DxFeed.Library.Run
import DxFeed.PriceLevelBook.Merge
import DxFeed.PriceLevelBook.Source

/-!
# Price level books

A book over several sources, as in `PriceLevelBook.c`.

* `PlbBook`: ten slots and a count for each side, the two public counts, the listeners;
* `plbBookUpdateOneSide`, `plbBookUpdate`;
* `BookSystem`: the sources of a book and the book, with the step of one order event;
* `addPriceLevelBookListener`, `removePriceLevelBookListener`.
-/

namespace DxFeed.PriceLevelBook

variable {P S : Type*}

/-- `dx_plb_listener_context_t`. -/
structure PlbListenerContext where
  listener : ℕ
  userData : ℕ
  deriving DecidableEq

/-- `dxf_price_level_book_data_t`: the symbol, and the levels up to the public counts. -/
structure BookData (P S : Type*) where
  symbol : String
  bids : List (PriceLevelElement P S)
  asks : List (PriceLevelElement P S)
  deriving DecidableEq

/-- A side of a book: the array `levels` with all its slots, and `count`. -/
structure BookSide (P S : Type*) where
  slots : List (PriceLevelElement P S)
  count : ℕ
  deriving DecidableEq

/-- `dx_price_level_book_t`.  The counts of the public data `book` are kept apart from the
counts of the sides. -/
structure PlbBook (P S : Type*) where
  symbol : String
  bids : BookSide P S
  asks : BookSide P S
  bidsCount : ℕ
  asksCount : ℕ
  listeners : List PlbListenerContext
  deriving DecidableEq

/-- What a listener reads through `&book->book`. -/
def PlbBook.data (book : PlbBook P S) : BookData P S where
  symbol := book.symbol
  bids := book.bids.slots.take book.bidsCount
  asks := book.asks.slots.take book.asksCount

/-- A zeroed side of a book. -/
def BookSide.zero [Zero P] [Zero S] : BookSide P S where
  slots := List.replicate maxPriceLevels ⟨0, 0, 0⟩
  count := 0

/-- The book that `dx_create_price_level_book` allocates. -/
def createPriceLevelBook [Zero P] [Zero S] (symbol : String) (listeners : List PlbListenerContext) :
    PlbBook P S where
  symbol := symbol
  bids := .zero
  asks := .zero
  bidsCount := 0
  asksCount := 0
  listeners := listeners

/-- `dx_plb_book_update_one_side`: the new side and the mark `changed`. -/
def plbBookUpdateOneSide [DecidableEq P] [AddCommGroup S] [DecidableEq S]
    (cmp : LevelComparator P S) (dst : BookSide P S) (srcs : List (PriceLevelSide P S))
    (startValue : P) : BookSide P S × Bool :=
  let r := mergeLoop cmp startValue dst.slots (srcs.map PriceLevelSide.levels)
  ({ slots := r.1, count := r.2.1 }, r.2.2)

/-- One side of `dx_plb_book_update`: it is merged if the mark `updated` of the source is set. -/
def updateSide [DecidableEq P] [AddCommGroup S] [DecidableEq S] (cmp : LevelComparator P S)
    (updated : Bool) (dst : BookSide P S) (srcs : List (PriceLevelSide P S)) (startValue : P) :
    BookSide P S × Bool :=
  if updated then plbBookUpdateOneSide cmp dst srcs startValue else (dst, false)

section Update

variable [LinearOrder P] [Zero P] [NatCast P] [AddCommGroup S] [LinearOrder S]

/-- The start value `0.0` of the bids. -/
def bidsStart : P := 0

/-- The start value `1.0E38` of the asks. -/
def asksStart : P := ((10 ^ 38 : ℕ) : P)

/-- `dx_plb_book_update`: the new book, and the calls of its listeners. -/
def plbBookUpdate (book : PlbBook P S) (src : PlbSource P S) (sources : List (PlbSource P S)) :
    PlbBook P S × List (PlbListenerContext × BookData P S) :=
  let bids := updateSide plbPricelvelComparatorBid src.bids.updated book.bids
    (sources.map PlbSource.finalBids) bidsStart
  let asks := updateSide plbPricelvelComparatorAsk src.asks.updated book.asks
    (sources.map PlbSource.finalAsks) asksStart
  let book := { book with bids := bids.1, asks := asks.1 }
  if bids.2 || asks.2 then
    let book := { book with bidsCount := book.bids.count, asksCount := book.asks.count }
    (book, book.listeners.map fun listener => (listener, book.data))
  else (book, [])

/-- The sources of a book, and the book. -/
structure BookSystem (P S : Type*) where
  sources : List (PlbSource P S)
  book : PlbBook P S
  deriving DecidableEq

/-- One order event for the source with the given index. -/
def BookSystem.step (sys : BookSystem P S) (input : ℕ × OrderEvent P S) :
    BookSystem P S × List (PlbListenerContext × BookData P S) :=
  match sys.sources[input.1]? with
  | none => (sys, [])
  | some source =>
      let r := plbEventListener source input.2
      let sources := sys.sources.set input.1 r.1
      if r.2 then
        let u := plbBookUpdate sys.book r.1 sources
        ({ sources := sources, book := u.1 }, u.2)
      else ({ sys with sources := sources }, [])

end Update

/-! ### Listeners -/

/-- The linear search of `DX_ARRAY_SEARCH` with `dx_plb_listener_comparator`. -/
def findListener (listeners : List PlbListenerContext) (listener : ℕ) : ℕ :=
  listeners.findIdx fun e => e.listener = listener

/-- `dx_add_price_level_book_listener`. -/
def addPriceLevelBookListener (book : PlbBook P S) (bookListener userData : ℕ) : PlbBook P S :=
  let idx := findListener book.listeners bookListener
  { book with
    listeners :=
      if idx < book.listeners.length then
        book.listeners.modify idx fun e => { e with userData := userData }
      else arrayInsert book.listeners ⟨bookListener, userData⟩ idx }

/-- `dx_remove_price_level_book_listener`. -/
def removePriceLevelBookListener (book : PlbBook P S) (bookListener : ℕ) : PlbBook P S :=
  let idx := findListener book.listeners bookListener
  { book with
    listeners :=
      if idx < book.listeners.length then arrayDelete book.listeners idx else book.listeners }

end DxFeed.PriceLevelBook
