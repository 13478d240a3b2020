import DxFeed.Library.History
import DxFeed.PriceLevelBook.SourceTable

/-!
# The life of price level books

Creating and closing price level books, and the teardown of their connection, as in
`PriceLevelBook.c` and `ConnectionContextData.c`.

* `PlbContext`: the source table, the consumers of the sources, the open books and the open order
  subscriptions;
* `plbBookClear`, `plbCtxCleanupSources`: what closes a book and undoes one that cannot be created;
* `createPriceLevelBookWith`, `closePriceLevelBook`: the calls, on which `lifecycleStep` runs;
* `deinitConnection`: what the teardown frees and uses, in this order.

Addresses are not given out again.  What is outside of these files, and every allocation, may fail:
an `Environment` tells what does.
-/

namespace DxFeed.PriceLevelBook

open History Run

/-- How `dx_plb_source_create` ends: it may fail in front of the creation of the order subscription
or behind it. -/
inductive SourceCreation
  | created
  | failed
  | failedSubscribed
  deriving DecidableEq

/-- What a call gets from its environment.  `tableGrown` is the allocation for a larger table, and
`subscriptionClosed` tells whether `dxf_close_subscription` closes the subscription of a source: it
does not if `dx_unsubscribe` fails. -/
structure Environment where
  bookAllocated : Bool
  sourceCreation : String → SourceCreation
  tableGrown : Bool
  consumerAllocated : String → Bool
  subscriptionClosed : String → Bool

/-- `dx_plb_source_consumer_t`. -/
structure Consumer where
  consumer : ℕ
  sourceidx : ℕ
  deriving DecidableEq

/-- `dx_price_level_book_t`, without its levels and listeners. -/
structure BookObject (plbSourceHash : String → String → ℕ) where
  address : ℕ
  symbol : String
  sources : List (TableSource plbSourceHash)
  deriving DecidableEq

/-- `dx_plb_connection_context_t`, with the consumers of the sources, the books that are open, and
the order subscriptions that are open, by the addresses of their sources. -/
structure PlbContext (plbSourceHash : String → String → ℕ) where
  table : SourceTable plbSourceHash
  consumers : ℕ → List Consumer
  books : List (BookObject plbSourceHash)
  subscriptions : Finset ℕ
  nextAddress : ℕ

variable {plbSourceHash : String → String → ℕ}

/-- The context of a new connection. -/
def PlbContext.init (plbSourceHash : String → String → ℕ) : PlbContext plbSourceHash where
  table := SourceTable.init plbSourceHash
  consumers := fun _ => []
  books := []
  subscriptions := ∅
  nextAddress := 0

/-! ### Sources -/

/-- `dxf_close_subscription`. -/
def closeSubscription (closed : Bool) (address : ℕ) (subscriptions : Finset ℕ) : Finset ℕ :=
  if closed then subscriptions.erase address else subscriptions

/-- `dx_plb_source_create`.  If it fails, it closes the subscription that it has created. -/
def plbSourceCreateWith (env : Environment) (c : PlbContext plbSourceHash) (symbol src : String) :
    Option (TableSource plbSourceHash) × PlbContext plbSourceHash :=
  let subscribed := { c with
    subscriptions := insert c.nextAddress c.subscriptions
    nextAddress := c.nextAddress + 1 }
  match env.sourceCreation src with
  | .failed => (none, c)
  | .failedSubscribed =>
      (none, { subscribed with
        subscriptions := closeSubscription (env.subscriptionClosed src) c.nextAddress
          subscribed.subscriptions })
  | .created =>
      (some
        { address := c.nextAddress
          symbol := symbol
          source := src
          hash := plbSourceHash symbol src
          hash_eq := rfl },
        subscribed)

/-- `dx_plb_ctx_add_source`, where the allocation for a larger table may fail. -/
def plbCtxTryAddSource (env : Environment) (table : SourceTable plbSourceHash)
    (source : TableSource plbSourceHash) : Except TableFault (Option (SourceTable plbSourceHash)) := do
  let _ ← plbSourceFindPos table source.symbol source.source
  if table.srcSize > table.srcCapacity / 2 ∧ env.tableGrown = false then
    return none
  else
    let table ← plbCtxAddSource table source
    return some table

/-- `dx_plb_source_add_book`. -/
def plbSourceAddBook (env : Environment) (c : PlbContext plbSourceHash)
    (source : TableSource plbSourceHash) (book idx : ℕ) : Option (PlbContext plbSourceHash) :=
  if env.consumerAllocated source.source then
    some { c with
      consumers := Function.update c.consumers source.address
        (⟨book, idx⟩ :: c.consumers source.address) }
  else none

/-- `dx_plb_source_remove_book`: the first consumer that is this book. -/
def plbSourceRemoveBook (c : PlbContext plbSourceHash) (source : TableSource plbSourceHash)
    (book : ℕ) : PlbContext plbSourceHash :=
  { c with
    consumers := Function.update c.consumers source.address
      ((c.consumers source.address).eraseP fun x => x.consumer = book) }

/-- `dx_plb_source_clear`, not forced. -/
def plbSourceClear (env : Environment) (c : PlbContext plbSourceHash)
    (source : TableSource plbSourceHash) : PlbContext plbSourceHash :=
  if c.consumers source.address = [] then
    { c with
      subscriptions := closeSubscription (env.subscriptionClosed source.source) source.address
        c.subscriptions }
  else c

/-- `dx_plb_source_cleanup`. -/
def plbSourceCleanup (env : Environment) (c : PlbContext plbSourceHash)
    (source : TableSource plbSourceHash) : Except TableFault (PlbContext plbSourceHash) :=
  if c.consumers source.address = [] then do
    let (_, table) ← plbCtxRemoveSource c.table source
    return plbSourceClear env { c with table := table } source
  else
    return c

/-- The loop of `dx_plb_ctx_cleanup_sources` from the slot `i` on. -/
def cleanupSourcesFrom (env : Environment) :
    ℕ → ℕ → PlbContext plbSourceHash → Except TableFault (PlbContext plbSourceHash)
  | 0, _, _ => .error .endlessProbe
  | fuel + 1, i, c =>
      if i < c.table.srcCapacity then
        match c.table.sources i with
        | none => cleanupSourcesFrom env fuel (i + 1) c
        | some source =>
            if c.consumers source.address = [] then do
              let (_, table) ← plbCtxRemoveSource c.table source
              -- another source may have been moved into the slot
              cleanupSourcesFrom env fuel i (plbSourceClear env { c with table := table } source)
            else cleanupSourcesFrom env fuel (i + 1) c
      else .ok c

/-- `dx_plb_ctx_cleanup_sources`: every step passes a slot or removes a source. -/
def plbCtxCleanupSources (env : Environment) (c : PlbContext plbSourceHash) :
    Except TableFault (PlbContext plbSourceHash) :=
  cleanupSourcesFrom env (c.table.srcCapacity + c.table.srcSize + 1) 0 c

/-! ### Books -/

/-- `dx_plb_book_clear`, up to the memory of the book. -/
def plbBookClear (env : Environment) (c : PlbContext plbSourceHash)
    (book : BookObject plbSourceHash) : Except TableFault (PlbContext plbSourceHash) :=
  book.sources.foldlM (plbSourceCleanup env)
    (book.sources.foldl (fun c source => plbSourceRemoveBook c source book.address) c)

/-- The source for a book: the one in the table, or a new one. -/
def findOrCreateSource (env : Environment) (c : PlbContext plbSourceHash) (symbol src : String) :
    Except TableFault (Option (TableSource plbSourceHash) × PlbContext plbSourceHash) := do
  match ← plbCtxFindSource c.table symbol src with
  | some source => return (some source, c)
  | none =>
      match plbSourceCreateWith env c symbol src with
      | (none, c) => return (none, c)
      | (some source, c) =>
          match ← plbCtxTryAddSource env c.table source with
          | none => return (none, c)
          | some table => return (some source, { c with table := table })

/-- A book that cannot be created is undone. -/
def undoBook (env : Environment) (c : PlbContext plbSourceHash)
    (book : BookObject plbSourceHash) :
    Except TableFault (PlbContext plbSourceHash × Option (BookObject plbSourceHash)) := do
  let c ← plbBookClear env c book
  let c ← plbCtxCleanupSources env c
  return (c, none)

/-- The loop of `dx_create_price_level_book` over the sources. -/
def addSources (env : Environment) (symbol : String) :
    List String → PlbContext plbSourceHash → BookObject plbSourceHash →
      Except TableFault (PlbContext plbSourceHash × Option (BookObject plbSourceHash))
  | [], c, book => .ok (c, some book)
  | src :: srcs, c, book => do
      match ← findOrCreateSource env c symbol src with
      | (none, c) => undoBook env c book
      | (some source, c) =>
          let added := { book with sources := book.sources ++ [source] }
          match plbSourceAddBook env c source book.address book.sources.length with
          | none => undoBook env c added
          | some c => addSources env symbol srcs c added

/-- `dx_all_order_sources`. -/
def dxAllOrderSources : List String :=
  ["NTV", "ntv", "NFX", "ESPD", "XNFI", "ICE", "ISE", "DEA", "DEX", "BYX", "BZX", "BATE", "CHIX",
    "CEUX", "BXTR", "IST", "BI20", "ABE", "FAIR", "GLBX", "glbx", "ERIS", "XEUR", "xeur", "CFE",
    "C2OX", "SMFE", "smfe", "iex", "MEMX", "memx"]

/-- The sources whose flags are set. -/
def selectedSources (srcflags : ℕ) : List String :=
  (dxAllOrderSources.zipIdx.filter fun src => srcflags.testBit src.2).map Prod.fst

/-- `dx_create_price_level_book`: the book, if there is one. -/
def createPriceLevelBookWith (env : Environment) (c : PlbContext plbSourceHash) (symbol : String)
    (srcflags : ℕ) :
    Except TableFault (PlbContext plbSourceHash × Option (BookObject plbSourceHash)) :=
  if env.bookAllocated then do
    let (c, result) ← addSources env symbol (selectedSources srcflags)
      { c with nextAddress := c.nextAddress + 1 } ⟨c.nextAddress, symbol, []⟩
    match result with
    | none => return (c, none)
    | some book => return ({ c with books := c.books ++ [book] }, some book)
  else
    return (c, none)

/-- `dx_close_price_level_book` for the open book at an address. -/
def closePriceLevelBook (env : Environment) (c : PlbContext plbSourceHash) (address : ℕ) :
    Except TableFault (PlbContext plbSourceHash) :=
  match c.books.find? fun book => book.address = address with
  | none => .ok c
  | some book => do
      let c ← plbBookClear env c book
      return { c with books := c.books.erase book }

/-- A call of the API. -/
inductive LifecycleCall
  | create (env : Environment) (symbol : String) (srcflags : ℕ)
  | close (env : Environment) (address : ℕ)

/-- A call on the context, and the book that it returns; after a fault there is none any more. -/
def lifecycleStep (state : Except TableFault (PlbContext plbSourceHash)) (call : LifecycleCall) :
    Except TableFault (PlbContext plbSourceHash) × List (Option (BookObject plbSourceHash)) :=
  match state with
  | .error fault => (.error fault, [])
  | .ok c =>
      match call with
      | .create env symbol srcflags =>
          match createPriceLevelBookWith env c symbol srcflags with
          | .error fault => (.error fault, [])
          | .ok (c, result) => (.ok c, [result])
      | .close env address => (closePriceLevelBook env c address, [])

/-! ### The teardown -/

/-- What is freed: a source and a book by their addresses, and the subscription of a source. -/
inductive Block
  | source (address : ℕ)
  | book (address : ℕ)
  | subscription (address : ℕ)
  deriving DecidableEq

/-- A block is used or freed. -/
inductive MemoryEvent
  | use (block : Block)
  | free (block : Block)
  deriving DecidableEq

/-- `dx_plb_source_clear`, forced: a book is freed with its source of the index 0. -/
def plbSourceClearForced (c : PlbContext plbSourceHash) (source : TableSource plbSourceHash) :
    List MemoryEvent :=
  [.use (.source source.address), .use (.subscription source.address),
    .free (.subscription source.address)] ++
  ((c.consumers source.address).flatMap fun x =>
    if x.sourceidx = 0 then [.use (.book x.consumer), .free (.book x.consumer)] else []) ++
  [.free (.source source.address)]

/-- `dx_plb_clear_connection_context`. -/
def plbClearConnectionContext (c : PlbContext plbSourceHash) : List MemoryEvent :=
  (List.range c.table.srcSize).flatMap fun i =>
    match c.table.sources i with
    | none => []
    | some source => plbSourceClearForced c source

/-- `dx_deinit_connection`, as far as it is about price level books: the event subscriptions, in
the order in which their set is enumerated, and then the price level books. -/
def deinitConnection (c : PlbContext plbSourceHash) (subscriptions : List ℕ) : List MemoryEvent :=
  subscriptions.map (fun address => .free (.subscription address)) ++ plbClearConnectionContext c

/-- The block has not been freed before the event. -/
def NotFreed (before : List MemoryEvent) : MemoryEvent → Prop
  | .use block | .free block => .free block ∉ before

/-- Each source, each of their subscriptions and each open book is freed once, and nothing is used
behind that. -/
structure TearsDown (c : PlbContext plbSourceHash) (events : List MemoryEvent) : Prop where
  sources : ∀ pos < c.table.srcCapacity, ∀ source, c.table.sources pos = some source →
    events.count (.free (.source source.address)) = 1 ∧
      events.count (.free (.subscription source.address)) = 1
  books : ∀ book ∈ c.books, events.count (.free (.book book.address)) = 1
  notFreed : Admitted NotFreed events

end DxFeed.PriceLevelBook
