import DxFeed.Snapshot.Store

/-!
# Are removals published as live records?

A client tells removals apart with a macro of `EventData.h` for the type of the event; the
snapshot does so with the flag of the event and with `dx_is_zero_event`, which looks at the size
of orders but not of spread orders.

* `isRemovalRecord`: the macros;
* `fullDelivery_live`: a full snapshot has no records that the macros take for removals, if no
  spread order of the run has the size zero without the flag.
-/

namespace DxFeed.Snapshot

open Run

variable {S D : Type} {s : SnapshotData S D}

theorem sinceBegin_subset (events : List (Event S D)) : sinceBegin events ⊆ events := by
  induction events using List.reverseRecOn with
  | nil => exact List.Subset.refl _
  | append_singleton events event ih =>
      rw [sinceBegin_concat]
      split_ifs
      · exact List.subset_append_right _ _
      · exact List.append_subset.mpr ⟨List.Subset.trans ih (List.subset_append_left _ _),
          List.subset_append_right _ _⟩

/-- A full delivery has the records of the store. -/
theorem endTransaction_full {delivery : Delivery S D} (h : delivery ∈ (endTransaction s).2)
    (hfull : delivery.newSnapshot = true) :
    delivery.records = (endTransaction s).1.snapshotRecords.records := by
  rw [(endTransaction_snapshot s).1]
  unfold endTransaction at h
  split_ifs at h
  · obtain ⟨context, -, rfl⟩ := List.mem_map.mp h
    exact congrArg SnapshotRecords.records (if_pos hfull)
  · cases h

/-! ### Removals -/

variable [Zero S] [DecidableEq S]

/-- `DXF_IS_CANDLE_REMOVAL`, `DXF_IS_TIME_AND_SALE_REMOVAL`, `DXF_IS_GREEKS_REMOVAL` and
`DXF_IS_SERIES_REMOVAL`. -/
def isFlaggedRemoval (data : EventData S D) : Bool :=
  isFlagSet data.eventFlags EventFlag.removeEvent

/-- `DXF_IS_ORDER_REMOVAL` and `DXF_IS_SPREAD_ORDER_REMOVAL`. -/
def isOrderRemoval (data : EventData S D) : Bool :=
  isFlagSet data.eventFlags EventFlag.removeEvent || decide (data.size = 0)

/-- The macro for a type of events. -/
def isRemovalRecord (eventId : EventId) (data : EventData S D) : Bool :=
  match eventId with
  | .order | .spreadOrder => isOrderRemoval data
  | _ => isFlaggedRemoval data

/-- The event is a spread order of size zero that is not flagged as a removal. -/
def IsEmptySpreadOrder (eventId : EventId) (event : Event S D) : Prop :=
  eventId = .spreadOrder ∧ event.data.size = 0 ∧
    isFlagSet event.params.flags EventFlag.removeEvent = false

variable {kind : SnapshotKind} {event : Event S D}

/-- The macro and the snapshot agree, spread orders of size zero apart. -/
theorem isRemovalRecord_eq (hflags : event.data.eventFlags = event.params.flags)
    (hspread : ¬ IsEmptySpreadOrder kind.eventId event) :
    isRemovalRecord kind.eventId event.data = isRemoval kind.eventId event := by
  unfold isRemovalRecord isRemoval isOrderRemoval isFlaggedRemoval isZeroEvent
  rw [hflags]
  unfold IsEmptySpreadOrder at hspread
  cases hid : kind.eventId <;> simp_all

/-! ### Stored records -/

/-- Every stored record is an event of the run that is not a removal. -/
theorem mem_records (key : ℕ) (kind : SnapshotKind) (eventType : ℕ) (symbol : WString)
    (actions : List (Action S D)) {event : Event S D}
    (hmem : event ∈ (run step (createSnapshot key kind eventType symbol)
      actions).1.snapshotRecords.records) :
    event ∈ matchingEvents key actions ∧ isRemoval kind.eventId event = false := by
  obtain ⟨hholds, -⟩ := snapshot_store key kind eventType symbol actions
  have hlast := (hholds (recordKey kind event) event).mpr ⟨hmem, rfl⟩
  obtain ⟨last, hlast, hvalue⟩ := Option.bind_eq_some_iff.mp hlast
  unfold eventValue at hvalue
  split_ifs at hvalue with hremoval
  obtain rfl := Option.some.inj hvalue
  have hsince := List.mem_of_mem_filter (List.mem_of_mem_getLast? hlast)
  exact ⟨sinceBegin_subset _ hsince, by simpa using hremoval⟩

/-! ### Deliveries -/

/-- The records of a full delivery are those of the store after the action. -/
theorem act_full {action : Action S D} {delivery : Delivery S D}
    (h : delivery ∈ (act s action).2) (hfull : delivery.newSnapshot = true) :
    delivery.records = (act s action).1.snapshotRecords.records := by
  cases action with
  | event event =>
      simp only [act, eventListener] at h ⊢
      split_ifs at h ⊢
      · cases h
      · exact endTransaction_full h hfull
      · cases h
  | addListener listener userData => cases h
  | removeListener listener => cases h
  | addIncListener listener userData => cases h
  | removeIncListener listener => cases h

/-- No full delivery of a run has a record that the macros take for a removal. -/
def FullDeliveriesLive (key : ℕ) (kind : SnapshotKind) (eventType : ℕ) (symbol : WString)
    (actions : List (Action S D)) : Prop :=
  ∀ call ∈ (run step (createSnapshot key kind eventType symbol) actions).2,
    ∀ delivery ∈ call.2, delivery.newSnapshot = true →
      ∀ event ∈ delivery.records, isRemovalRecord kind.eventId event.data = false

/-- The events of the run carry their flags as the listener is given them. -/
def FlagsAgree (events : List (Event S D)) : Prop :=
  ∀ event ∈ events, event.data.eventFlags = event.params.flags

/-- No removal is published as a live record, if no spread order of the run has the size zero
without the flag. -/
theorem fullDeliveries_live (key : ℕ) (kind : SnapshotKind) (eventType : ℕ) (symbol : WString)
    (actions : List (Action S D)) (hflags : FlagsAgree (matchingEvents key actions))
    (hspread : ∀ event ∈ matchingEvents key actions, ¬ IsEmptySpreadOrder kind.eventId event) :
    FullDeliveriesLive key kind eventType symbol actions := by
  induction actions using List.reverseRecOn with
  | nil =>
      intro call hcall
      cases hcall
  | append_singleton actions action ih =>
      have hsub : matchingEvents key actions ⊆ matchingEvents key (actions ++ [action]) := by
        rw [matchingEvents_concat]
        exact List.subset_append_left _ _
      have hprevious := ih (fun event h => hflags event (hsub h))
        (fun event h => hspread event (hsub h))
      intro call hcall delivery hdelivery hfull event hevent
      rw [run_concat] at hcall
      rcases List.mem_append.mp hcall with hcall | hcall
      · exact hprevious call hcall delivery hdelivery hfull event hevent
      · obtain rfl := List.mem_singleton.mp hcall
        -- the delivery shows the store at the end of the run
        rw [act_full hdelivery hfull] at hevent
        obtain ⟨hmatching, hlive⟩ := mem_records key kind eventType symbol (actions ++ [action])
          (by rw [run_concat]; exact hevent)
        rw [isRemovalRecord_eq (hflags event hmatching) (hspread event hmatching)]
        exact hlive

/-- A snapshot of spread orders with one listener and one order of this size. -/
def spreadOrderActions (size : ℤ) : List (Action ℤ Unit) :=
  [.addListener (some 7) 0, .event ⟨⟨0, 0, size, [], ()⟩, ⟨0, 1, 3⟩⟩]

/-- A spread order of size `5` is published, and the macro does not take it for a removal. -/
theorem fullDeliveries_live_sample :
    FullDeliveriesLive 3 ⟨.spreadOrder, .spreadOrder, rfl⟩ EventId.spreadOrder.bitMask [65]
      (spreadOrderActions 5) :=
  fullDeliveries_live 3 ⟨.spreadOrder, .spreadOrder, rfl⟩ EventId.spreadOrder.bitMask [65]
    (spreadOrderActions 5)
    (fun event h => by obtain rfl := List.mem_singleton.mp h; rfl)
    (fun event h hempty => by
      obtain rfl := List.mem_singleton.mp h
      exact absurd hempty.2.1 (by decide))

/-- A spread order of size zero is published too, and the macro takes it for a removal. -/
theorem fullDelivery_of_removal :
    FlagsAgree (matchingEvents 3 (spreadOrderActions 0)) ∧
      ¬ FullDeliveriesLive 3 ⟨.spreadOrder, .spreadOrder, rfl⟩ EventId.spreadOrder.bitMask [65]
        (spreadOrderActions 0) := by
  constructor
  · intro event h
    obtain rfl := List.mem_singleton.mp h
    rfl
  · intro hlive
    have h := hlive _ (List.Mem.tail _ (List.Mem.head _)) _ (List.Mem.head _) rfl _
      (List.Mem.head _)
    exact absurd h (by decide)

end DxFeed.Snapshot
