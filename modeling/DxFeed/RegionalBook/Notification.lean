import DxFeed.EventData
import DxFeed.Library.Run
import DxFeed.RegionalBook

/-!
# The listeners of a regional book

* `DxRegionalBook`, `Quote`: the book with its listeners, and the quotes;
* `rbEventListener`: `rb_event_listener`, with the calls of the listeners;
* `sideLevels`: the levels that the regions make, whatever the array of the side holds;
* `updateLevels_eq`: the levels are put in front of the array, and they count as a change if they
  do not stand there already;
* `callsOnDifference_iff`: where the default listeners are called if and only if the published
  levels differ.
-/

namespace DxFeed.RegionalBook

open PriceLevelBook Run

variable {P S : Type*}

/-- `dx_rb_listener_version_t`. -/
inductive ListenerVersion
  | default
  | v2
  deriving DecidableEq

/-- `dx_rb_listener_context_t`. -/
structure RbListenerContext where
  listener : ℕ
  version : ListenerVersion
  userData : ℕ
  deriving DecidableEq

/-- The fields of `dxf_quote_t` that the listener of the book reads. -/
structure Quote (P S : Type*) where
  bidExchangeCode : UInt16
  bidPrice : Option P
  bidSize : S
  bidTime : ℤ
  askExchangeCode : UInt16
  askPrice : Option P
  askSize : S
  askTime : ℤ
  deriving DecidableEq

/-- `dx_regional_book_t`. -/
structure DxRegionalBook (P S : Type*) where
  symbol : WString
  listeners : List RbListenerContext
  book : Book P S

/-- What a listener is called with: the levels of the book, or the quotes. -/
inductive ListenerData (P S : Type*)
  | book (bids asks : List (PriceLevelElement P S))
  | quotes (symbol : WString) (quotes : List (Quote P S))
  deriving DecidableEq

/-- A call of a listener. -/
structure ListenerCall (P S : Type*) where
  listener : ℕ
  userData : ℕ
  data : ListenerData P S
  deriving DecidableEq

/-- The arguments of `rb_event_listener`; `quote` is the first one of the data, and the only one that
is processed. -/
structure QuoteEvent (P S : Type*) where
  eventType : ℕ
  symbolName : WString
  quote : Quote P S
  others : List (Quote P S)

/-- The book that `dx_create_regional_book` allocates. -/
def createRegionalBook [Zero P] [Zero S] (symbol : WString) : DxRegionalBook P S where
  symbol := symbol
  listeners := []
  book :=
    { regions := fun _ => ⟨⟨some 0, 0, 0⟩, ⟨some 0, 0, 0⟩⟩
      bids := ⟨List.replicate maxPriceLevels ⟨0, 0, 0⟩, 0, List.length_replicate⟩
      asks := ⟨List.replicate maxPriceLevels ⟨0, 0, 0⟩, 0, List.length_replicate⟩ }

/-- `quote->…_exchange_code - 'A'`, for the codes `'A'` to `'Z'`. -/
def regionOf (exchangeCode : UInt16) : Option (Fin allRegionalCount) :=
  if h : 0x41 ≤ exchangeCode.toNat ∧ exchangeCode.toNat ≤ 0x5A then
    some ⟨exchangeCode.toNat - 0x41, by unfold allRegionalCount; omega⟩
  else none

/-- The regions with the ask and the bid of a quote. -/
def setRegions (regions : Fin allRegionalCount → RbRegional P S) (quote : Quote P S) :
    Fin allRegionalCount → RbRegional P S :=
  let regions :=
    match regionOf quote.askExchangeCode with
    | none => regions
    | some i => Function.update regions i
        { regions i with ask := ⟨quote.askPrice, quote.askSize, quote.askTime⟩ }
  match regionOf quote.bidExchangeCode with
  | none => regions
  | some i => Function.update regions i
      { regions i with bid := ⟨quote.bidPrice, quote.bidSize, quote.bidTime⟩ }

/-- The calls of the listeners of a version. -/
def callListeners (b : DxRegionalBook P S) (version : ListenerVersion) (data : ListenerData P S) :
    List (ListenerCall P S) :=
  (b.listeners.filter (·.version = version)).map fun ctx => ⟨ctx.listener, ctx.userData, data⟩

section Definitions

variable [LinearOrder P] [Semiring P] [AddCommGroup S] [LinearOrder S]

/-- The event is one for this book. -/
def DxRegionalBook.accepts (b : DxRegionalBook P S) (event : QuoteEvent P S) : Bool :=
  event.eventType = EventId.quote.bitMask ∧ b.symbol = event.symbolName

/-- `rb_event_listener`. -/
def rbEventListener (b : DxRegionalBook P S) (event : QuoteEvent P S) :
    DxRegionalBook P S × List (ListenerCall P S) :=
  if b.accepts event then
    let quoteCalls := callListeners b .v2 (.quotes b.symbol (event.quote :: event.others))
    let update := rbBookUpdate { b.book with regions := setRegions b.book.regions event.quote }
    let bookCalls :=
      if update.2 then callListeners b .default (.book update.1.bids.levels update.1.asks.levels)
      else []
    ({ b with book := update.1 }, quoteCalls ++ bookCalls)
  else (b, [])

end Definitions

/-! ### What an update writes -/

section Levels

variable [LinearOrder P] [AddCommGroup S] [LinearOrder S]
  {regions : Fin allRegionalCount → RbRegional P S} {isBid : Bool} {startValue : P}

/-- The levels that the regions make, `n` at most. -/
def sideLevels (regions : Fin allRegionalCount → RbRegional P S) (isBid : Bool) (startValue : P) :
    ℕ → BitVec 64 → List (PriceLevelElement P S)
  | 0, _ => []
  | n + 1, rused =>
      let scan := scanRegions regions isBid startValue rused
      if scan.1.size = 0 then [] else scan.1 :: sideLevels regions isBid startValue n scan.2

/-- The levels are written over those that stand in the array, and this is a change if they do not
stand there already. -/
theorem updateLevels_eq (regions : Fin allRegionalCount → RbRegional P S) (isBid : Bool)
    (startValue : P) (n : ℕ) (front dst : List (PriceLevelElement P S)) (rused : BitVec 64)
    (changed : Bool) (hroom : n ≤ dst.length) :
    updateLevels regions isBid startValue n front.length (front ++ dst) rused changed =
      (changed || !decide (sideLevels regions isBid startValue n rused <+: dst),
        front ++ sideLevels regions isBid startValue n rused ++
          dst.drop (sideLevels regions isBid startValue n rused).length,
        front.length + (sideLevels regions isBid startValue n rused).length) := by
  induction n generalizing front dst rused changed with
  | zero => simp [updateLevels, sideLevels]
  | succ n ih =>
      obtain ⟨d, dst, rfl⟩ := List.exists_cons_of_length_pos (Nat.lt_of_lt_of_le n.succ_pos hroom)
      have hroom' : n ≤ dst.length := Nat.le_of_succ_le_succ hroom
      have hslot : (front ++ d :: dst)[front.length]? = some d := by simp
      rw [updateLevels, sideLevels, hslot]
      generalize scanRegions regions isBid startValue rused = scan
      obtain ⟨level, rused'⟩ := scan
      dsimp only
      have hlength : front.length + 1 = (front ++ [level]).length := by simp
      split_ifs with hzero hdiffers
      · simp
      · have hne : level ≠ d := fun heq => hdiffers (congrArg some heq.symm)
        have hset : (front ++ d :: dst).set front.length level = (front ++ [level]) ++ dst := by simp
        rw [hset, hlength, ih _ dst _ true hroom']
        simp [hne]
        omega
      · obtain rfl := Option.some.inj (not_not.mp hdiffers)
        have happend : front ++ d :: dst = (front ++ [d]) ++ dst := by simp
        rw [happend, hlength, ih _ dst _ changed hroom']
        simp
        omega

end Levels

section Sides

variable [LinearOrder P] [AddCommGroup S] [LinearOrder S]

/-- The levels that the regions make for a side. -/
def newLevels (regions : Fin allRegionalCount → RbRegional P S) (isBid : Bool) (startValue : P) :
    List (PriceLevelElement P S) :=
  sideLevels regions isBid startValue maxPriceLevels 0#64

/-- What is published of a side: the levels and their number. -/
def BookSide.published (side : BookSide P S) : ℕ × List (PriceLevelElement P S) :=
  (side.count, side.levels)

variable (dst : BookSide P S) (book : Book P S) (isBid : Bool) (startValue : P)

theorem updateLevels_newLevels :
    updateLevels book.regions isBid startValue maxPriceLevels 0 dst.elements 0#64 false =
      (!decide (newLevels book.regions isBid startValue <+: dst.elements),
        newLevels book.regions isBid startValue ++
          dst.elements.drop (newLevels book.regions isBid startValue).length,
        (newLevels book.regions isBid startValue).length) := by
  have h := updateLevels_eq book.regions isBid startValue maxPriceLevels [] dst.elements 0#64 false
    dst.length_elements.ge
  rw [List.length_nil, Nat.zero_add] at h
  exact h

/-- A side counts as changed if the new levels do not stand in its array already. -/
theorem rbBookUpdateOneSide_changed :
    (rbBookUpdateOneSide dst book isBid startValue).1 =
      !decide (newLevels book.regions isBid startValue <+: dst.elements) :=
  congrArg Prod.fst (updateLevels_newLevels dst book isBid startValue)

theorem rbBookUpdateOneSide_published :
    (rbBookUpdateOneSide dst book isBid startValue).2.published =
      ((newLevels book.regions isBid startValue).length,
        newLevels book.regions isBid startValue) := by
  have h := congrArg Prod.snd (updateLevels_newLevels dst book isBid startValue)
  have hcount : (rbBookUpdateOneSide dst book isBid startValue).2.count =
      (newLevels book.regions isBid startValue).length := congrArg Prod.snd h
  have helements : (rbBookUpdateOneSide dst book isBid startValue).2.elements =
      newLevels book.regions isBid startValue ++
        dst.elements.drop (newLevels book.regions isBid startValue).length := congrArg Prod.fst h
  rw [BookSide.published, BookSide.levels, hcount, helements, List.take_left']
  rfl

/-- A side is published as before if and only if the new levels stand in its array and their number
stays the same. -/
theorem published_rbBookUpdateOneSide_iff :
    (rbBookUpdateOneSide dst book isBid startValue).2.published = dst.published ↔
      newLevels book.regions isBid startValue <+: dst.elements ∧
        (newLevels book.regions isBid startValue).length = dst.count := by
  rw [rbBookUpdateOneSide_published, BookSide.published, BookSide.levels, Prod.mk.injEq]
  constructor
  · rintro ⟨hcount, hlevels⟩
    exact ⟨hlevels ▸ List.take_prefix _ _, hcount⟩
  · rintro ⟨htake, hcount⟩
    exact ⟨hcount, hcount ▸ List.prefix_iff_eq_take.mp htake⟩

end Sides

/-! ### The calls of the default listeners -/

/-- The call has the levels of a book. -/
def ListenerCall.isBook (call : ListenerCall P S) : Bool :=
  match call.data with
  | .book .. => true
  | .quotes .. => false

theorem filter_quoteCalls (b : DxRegionalBook P S) (version : ListenerVersion) (symbol : WString)
    (quotes : List (Quote P S)) :
    (callListeners b version (.quotes symbol quotes)).filter ListenerCall.isBook = [] := by
  rw [callListeners, List.filter_eq_nil_iff]
  intro call hcall
  obtain ⟨ctx, -, rfl⟩ := List.mem_map.mp hcall
  exact Bool.false_ne_true

theorem filter_bookCalls (b : DxRegionalBook P S) (version : ListenerVersion)
    (bids asks : List (PriceLevelElement P S)) :
    (callListeners b version (.book bids asks)).filter ListenerCall.isBook =
      callListeners b version (.book bids asks) := by
  rw [callListeners, List.filter_eq_self]
  intro call hcall
  obtain ⟨ctx, -, rfl⟩ := List.mem_map.mp hcall
  rfl

theorem callListeners_eq_nil_iff (b : DxRegionalBook P S) (version : ListenerVersion)
    (data : ListenerData P S) :
    callListeners b version data = [] ↔ ¬ ∃ ctx ∈ b.listeners, ctx.version = version := by
  simp [callListeners]

section Calls

variable [LinearOrder P] [Semiring P] [AddCommGroup S] [LinearOrder S]

/-- What is published of a book: the bids and the asks with their counts. -/
def DxRegionalBook.published (b : DxRegionalBook P S) :
    (ℕ × List (PriceLevelElement P S)) × (ℕ × List (PriceLevelElement P S)) :=
  (b.book.bids.published, b.book.asks.published)

/-- The event calls every default listener, with the book after it, if the published book differs
from the one before, and no default listener otherwise. -/
def CallsOnDifference (b : DxRegionalBook P S) (event : QuoteEvent P S) : Prop :=
  (rbEventListener b event).2.filter ListenerCall.isBook =
    if (rbEventListener b event).1.published = b.published then []
    else callListeners b .default (.book (rbEventListener b event).1.book.bids.levels
      (rbEventListener b event).1.book.asks.levels)

/-- The levels that an event makes of the bids, and of the asks. -/
def DxRegionalBook.newBids (b : DxRegionalBook P S) (event : QuoteEvent P S) :
    List (PriceLevelElement P S) :=
  newLevels (setRegions b.book.regions event.quote) true 0

def DxRegionalBook.newAsks (b : DxRegionalBook P S) (event : QuoteEvent P S) :
    List (PriceLevelElement P S) :=
  newLevels (setRegions b.book.regions event.quote) false askStart

/-- The new levels of both sides stand in the arrays already, and only the number of them on some
side is another one. -/
def OnlyCountsChange (b : DxRegionalBook P S) (event : QuoteEvent P S) : Prop :=
  (b.newBids event <+: b.book.bids.elements ∧ b.newAsks event <+: b.book.asks.elements) ∧
    ¬ ((b.newBids event).length = b.book.bids.count ∧
      (b.newAsks event).length = b.book.asks.count)

/-- The quote is one for another book, or no default listener is there, or the event does more than
to change the number of the levels. -/
def ChangesLevels (b : DxRegionalBook P S) (event : QuoteEvent P S) : Prop :=
  b.accepts event → (∃ ctx ∈ b.listeners, ctx.version = .default) → ¬ OnlyCountsChange b event

theorem callsOnDifference_of_not_accepts {b : DxRegionalBook P S} {event : QuoteEvent P S}
    (h : ¬ b.accepts event) : CallsOnDifference b event := by
  have hsame : rbEventListener b event = (b, []) := if_neg h
  rw [CallsOnDifference, hsame, if_pos rfl]
  rfl

/-- The calls with the book, and what is published, after an event for the book. -/
theorem rbEventListener_of_accepts {b : DxRegionalBook P S} {event : QuoteEvent P S}
    (h : b.accepts event) :
    (rbEventListener b event).1.book =
        (rbBookUpdate { b.book with regions := setRegions b.book.regions event.quote }).1 ∧
      (rbEventListener b event).2.filter ListenerCall.isBook =
        if b.newBids event <+: b.book.bids.elements ∧ b.newAsks event <+: b.book.asks.elements
        then []
        else callListeners b .default (.book (rbEventListener b event).1.book.bids.levels
          (rbEventListener b event).1.book.asks.levels) := by
  have hchanged : (rbBookUpdate { b.book with
      regions := setRegions b.book.regions event.quote }).2 =
      !decide (b.newBids event <+: b.book.bids.elements ∧
        b.newAsks event <+: b.book.asks.elements) := by
    rw [rbBookUpdate, rbBookUpdateOneSide_changed, rbBookUpdateOneSide_changed, ← Bool.not_and,
      ← Bool.decide_and]
    rfl
  rw [rbEventListener, if_pos h]
  refine ⟨rfl, ?_⟩
  rw [List.filter_append, filter_quoteCalls, List.nil_append, hchanged]
  split_ifs <;> simp_all [filter_bookCalls]

theorem published_rbEventListener_iff {b : DxRegionalBook P S} {event : QuoteEvent P S}
    (h : b.accepts event) :
    (rbEventListener b event).1.published = b.published ↔
      (b.newBids event <+: b.book.bids.elements ∧ b.newAsks event <+: b.book.asks.elements) ∧
        (b.newBids event).length = b.book.bids.count ∧
          (b.newAsks event).length = b.book.asks.count := by
  rw [DxRegionalBook.published, DxRegionalBook.published, (rbEventListener_of_accepts h).1,
    Prod.mk.injEq]
  unfold rbBookUpdate
  rw [published_rbBookUpdateOneSide_iff, published_rbBookUpdateOneSide_iff]
  exact and_and_and_comm

/-- A step calls the listeners as it should if and only if it does more than to change counts. -/
theorem callsOnDifference_step (b : DxRegionalBook P S) (event : QuoteEvent P S) :
    CallsOnDifference b event ↔ ChangesLevels b event := by
  by_cases haccepts : b.accepts event
  · have hcalls := (rbEventListener_of_accepts haccepts).2
    have hpublished := published_rbEventListener_iff haccepts
    have hnil := callListeners_eq_nil_iff b .default
      (.book (rbEventListener b event).1.book.bids.levels
        (rbEventListener b event).1.book.asks.levels)
    rw [CallsOnDifference, hcalls]
    simp only [hpublished, ChangesLevels, OnlyCountsChange, haccepts, true_implies]
    by_cases hstand : b.newBids event <+: b.book.bids.elements ∧
        b.newAsks event <+: b.book.asks.elements
    · rw [if_pos hstand]
      split_ifs with hsame
      · exact iff_of_true rfl fun _ hchange => hchange.2 hsame.2
      · have hcounts : ¬ ((b.newBids event).length = b.book.bids.count ∧
            (b.newAsks event).length = b.book.asks.count) := fun h => hsame ⟨hstand, h⟩
        rw [eq_comm, hnil]
        exact ⟨fun hnone hsome => absurd hsome hnone, fun h hsome => h hsome ⟨hstand, hcounts⟩⟩
    · rw [if_neg hstand, if_neg fun hsame => hstand hsame.1]
      exact iff_of_true rfl fun _ hchange => hstand hchange.1
  · exact iff_of_true (callsOnDifference_of_not_accepts haccepts) fun h => absurd h haccepts

/-- In every run of events the default listeners are called if and only if the published book
differs, exactly if no event that calls for it only changes the number of the levels. -/
theorem callsOnDifference_iff (b : DxRegionalBook P S) (events : List (QuoteEvent P S)) :
    AllSteps CallsOnDifference rbEventListener b events ↔
      AllSteps ChangesLevels rbEventListener b events := by
  induction events generalizing b with
  | nil => exact Iff.rfl
  | cons event events ih =>
      rw [allSteps_cons, allSteps_cons, callsOnDifference_step, ih]

end Calls

/-- A quote of the region `A` that only bids, at `2`. -/
def bidQuote (bidSize : ℤ) : Quote ℤ ℤ where
  bidExchangeCode := 0x41
  bidPrice := some 2
  bidSize := bidSize
  bidTime := 0
  askExchangeCode := 0
  askPrice := none
  askSize := 0
  askTime := 0

/-- The only region bids one lot, and then none: the listener still has the level when nothing is
bid. -/
theorem not_callsOnDifference_bidQuote :
    ¬ AllSteps CallsOnDifference rbEventListener
      { createRegionalBook (P := ℤ) (S := ℤ) [0x41] with listeners := [⟨1, .default, 0⟩] }
      [⟨EventId.quote.bitMask, [0x41], bidQuote 1, []⟩,
        ⟨EventId.quote.bitMask, [0x41], bidQuote 0, []⟩] := by
  rw [allSteps_cons, allSteps_cons]
  rintro ⟨-, hempty, -⟩
  revert hempty
  rw [CallsOnDifference]
  decide +kernel

end DxFeed.RegionalBook
