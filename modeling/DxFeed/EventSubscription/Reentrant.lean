import DxFeed.EventSubscription.Bookkeeping

/-!
# Calls of listeners during a dispatch

`pass_event_data_to_listeners` copies the set of the subscriptions of an entry and takes one
reference to the entry; the sets of listeners it reads in place.  A listener may call any
function of the library on the dispatching thread.

* `Dispatch`, `start`, `step`: the two loops, where a step that calls a listener is given the
  calls that the listener makes;
* `Allows`: these calls close no subscription that the loops still have to read, and do not
  remove the listener that is being called;
* `dispatch_safe`: then nothing that was freed is read, and the entry is freed at most at the
  end.
-/

namespace DxFeed.EventSubscription

variable {D : Type}

/-- Where the two loops are. -/
inductive Position
  | between (waiting : List SubscriptionId)
  | calling (id : SubscriptionId) (l : ListenerNode) (waiting : List SubscriptionId)
  | done
  deriving DecidableEq, Repr

/-- A call of `pass_event_data_to_listeners`. -/
structure Dispatch (D : Type) where
  heap : Heap D
  symbolData : SymbolPtr
  event : Event D
  position : Position

/-- The subscription wants the event, and has its symbol. -/
def SubscriptionObject.accepts (s : SubscriptionObject) (event : Event D) : Bool :=
  decide (s.eventTypes &&& event.eventId.bitMask ≠ 0) &&
    (decide (event.eventId = .order ∧ 0 < s.orderSource.length →
      event.data.source ∈ s.orderSource) &&
    decide (event.symbolName ∈ s.symbols.map Prod.fst))

namespace Dispatch

/-- The entry is referenced once more, and its subscriptions are copied. -/
def start (sets : SetOrder) (h : Heap D) (symbolData : SymbolPtr) (event : Event D) :
    Except Fault (Dispatch D) :=
  match h.objects symbolData with
  | none => .error (.freedSymbolData symbolData)
  | some o =>
      .ok { heap := h.setObject symbolData (some { o with refCount := o.refCount + 1 })
            symbolData := symbolData
            event := event
            position := .between (sets.copy o.subscriptions) }

/-- The increment of the iterator over the listeners; the node it stands at is read. -/
def nextListener (h : Heap D) (id : SubscriptionId) (l : ListenerNode) :
    Except Fault (Option ListenerNode) :=
  match (h.listenersOf id).getD [] |>.dropWhile (· ≠ l) with
  | [] => .error (.erasedListener id l.node)
  | _ :: rest => .ok rest.head?

/-- The next step of the loops.  If it calls a listener, then the listener makes these calls. -/
def step (sets : SetOrder) (d : Dispatch D) (calls : List Request) : Except Fault (Dispatch D) :=
  match d.position with
  | .done => .ok d
  | .between [] =>
      match d.heap.release d.symbolData with
      | .error fault => .error fault
      | .ok h => .ok { d with heap := h, position := .done }
  | .between (id :: waiting) =>
      match d.heap.subscriptions id with
      | none => .error (.freedSubscription id)
      | some s =>
          .ok { d with
            position :=
              match (if s.accepts d.event then s.listeners else []) with
              | [] => .between waiting
              | l :: _ => .calling id l waiting }
  | .calling id l waiting =>
      match d.heap.applyAll sets calls with
      | .error fault => .error fault
      | .ok h =>
          match nextListener h id l with
          | .error fault => .error fault
          | .ok none => .ok { d with heap := h, position := .between waiting }
          | .ok (some l) => .ok { d with heap := h, position := .calling id l waiting }

/-- The steps of a dispatch. -/
def run (sets : SetOrder) : List (List Request) → Dispatch D → Except Fault (Dispatch D)
  | [], d => .ok d
  | calls :: steps, d =>
      match d.step sets calls with
      | .error fault => .error fault
      | .ok d => run sets steps d

/-- The calls of a listener close no subscription that the loops still have to read, and do not
remove the listener itself. -/
def Allows (d : Dispatch D) (calls : List Request) : Prop :=
  match d.position with
  | .calling id l waiting =>
      ∀ request ∈ calls, (∀ j ∈ id :: waiting, request ≠ .close j) ∧
        request ≠ .removeListener id l.context.listener
  | _ => True

/-- All steps of a dispatch are allowed. -/
def AllAllowed (sets : SetOrder) : List (List Request) → Dispatch D → Prop
  | [], _ => True
  | calls :: steps, d =>
      d.Allows calls ∧
        match d.step sets calls with
        | .error _ => True
        | .ok d => AllAllowed sets steps d

instance (d : Dispatch D) (calls : List Request) : Decidable (d.Allows calls) :=
  match hposition : d.position with
  | .calling id l waiting =>
      decidable_of_iff (∀ request ∈ calls, (∀ j ∈ id :: waiting, request ≠ .close j) ∧
        request ≠ .removeListener id l.context.listener) (by simp only [Allows, hposition])
  | .between waiting => .isTrue (by simp only [Allows, hposition])
  | .done => .isTrue (by simp only [Allows, hposition])

/-- The reference that a dispatch holds until it is done. -/
def pins (d : Dispatch D) : SymbolPtr → ℕ :=
  Function.update (fun _ => 0) d.symbolData (if d.position = .done then 0 else 1)

/-- The subscriptions that the loops still have to read are open, and the listener that is being
called is there. -/
def Reachable (h : Heap D) : Position → Prop
  | .between waiting => ∀ j ∈ waiting, (h.listenersOf j).isSome
  | .calling id l waiting =>
      (∀ j ∈ waiting, (h.listenersOf j).isSome) ∧ ∃ ls, h.listenersOf id = some ls ∧ l ∈ ls
  | .done => True

end Dispatch

open Dispatch

variable {h : Heap D} {pins : SymbolPtr → ℕ} {id j : SubscriptionId} {p : SymbolPtr}
  {o : SymbolObject D} {sets : SetOrder} {request : Request} {d : Dispatch D}

/-! ### The reference of the dispatch -/

/-- An entry changes its count and its pins, or is freed without subscriptions. -/
theorem Booked.repin (hb : Booked pins h) (ho : h.objects p = some o) {h' : Heap D} {n : ℕ}
    {x : Option (SymbolObject D)} (hframe : Frame h h') (hallocated : h'.allocated = h.allocated)
    (hobjects : h'.objects = Function.update h.objects p x)
    (hsymbols : h'.symbols = Function.update h.symbols o.name (x.map fun _ => p))
    (hentry : ∀ o', x = some o' → o'.name = o.name ∧ o'.subscriptions = o.subscriptions ∧
      o'.Counted n)
    (hnone : x = none → n = 0 ∧ o.subscriptions = []) :
    Booked (Function.update pins p n) h' := by
  have hnamed := (hb.named o.name p).mpr ⟨o, ho, rfl⟩
  have hholds : ∀ j name q, h'.Holds j name q ↔ h.Holds j name q := by
    intro j name q
    unfold Heap.Holds
    rw [hframe.subscriptions]
  refine hb.change (fun q hq => Function.update_of_ne hq _ _)
    { objects := hobjects
      symbols := hsymbols
      allocated := ⟨hallocated.ge, hallocated ▸ hb.fresh p o ho⟩
      old_name := ?_
      old_ptr := fun q hq => Option.some.inj (hq.symm.trans hnamed)
      new_entry := ?_
      no_entry := ?_
      others := fun j other q _ => hholds j other q
      same_ptr := ?_
      distinct := ?_
      created := ?_ }
  · intro o' ho'
    obtain rfl := Option.some.inj (ho.symm.trans ho')
    rfl
  · intro o' hx
    obtain ⟨hname, hsubs, hcounted⟩ := hentry o' hx
    rw [Function.update_self]
    refine ⟨hname, hcounted, fun j => ?_⟩
    rw [hsubs, hholds]
    exact hb.subscribed p o ho j
  · intro hx
    obtain ⟨hn, hsubs⟩ := hnone hx
    rw [Function.update_self]
    refine ⟨hn, fun j hj => ?_⟩
    have hmem := (hb.subscribed p o ho j).mpr ((hholds j o.name p).mp hj)
    rw [hsubs] at hmem
    exact List.not_mem_nil hmem
  · intro j q hj
    exact Option.some.inj ((hb.linked j o.name q ((hholds j o.name q).mp hj)).symm.trans hnamed)
  · intro j s hs
    rw [hframe.subscriptions] at hs
    exact hb.distinct j s hs
  · intro j s hs
    rw [hframe.subscriptions] at hs
    rw [hframe.created]
    exact hb.created j s hs

/-- The reference that a dispatch takes. -/
theorem Booked.pin (hb : Booked (fun _ => 0) h) (ho : h.objects p = some o) :
    Booked (Function.update (fun _ => 0) p 1)
      (h.setObject p (some { o with refCount := o.refCount + 1 })) := by
  obtain ⟨hnodup, hcount, hpos⟩ := hb.counted p o ho
  have hnamed := (hb.named o.name p).mpr ⟨o, ho, rfl⟩
  refine hb.repin ho ⟨rfl, rfl, rfl⟩ rfl rfl (Function.update_eq_self_iff.mpr hnamed.symm).symm
    ?_ (fun hx => nomatch hx)
  intro o' hx
  obtain rfl := Option.some.inj hx
  refine ⟨rfl, rfl, hnodup, ?_, ?_⟩
  · show o.refCount + 1 = ((o.subscriptions.length : ℕ) : ℤ) + (1 : ℕ)
    rw [hcount]
    simp
  · show 0 < o.refCount + 1
    omega

/-- The reference that a dispatch gives back; the entry is freed if it was the last one. -/
theorem Booked.unpin (hb : Booked (Function.update (fun _ => 0) p 1) h)
    (ho : h.objects p = some o) :
    ∃ h', h.release p = .ok h' ∧ Booked (fun _ => 0) h' := by
  obtain ⟨hnodup, hcount, hpos⟩ := hb.counted p o ho
  rw [Function.update_self] at hcount
  have hnamed := (hb.named o.name p).mpr ⟨o, ho, rfl⟩
  have hpins : Function.update (Function.update (fun _ : SymbolPtr => 0) p 1) p 0 =
      fun _ => 0 := by
    rw [Function.update_idem, Function.update_eq_self_iff]
  rw [release_eq ho, ← hpins]
  refine ⟨_, rfl, ?_⟩
  split_ifs with hlast
  · refine hb.repin ho ⟨rfl, rfl, rfl⟩ rfl rfl rfl (fun o' hx => nomatch hx) ?_
    intro _
    exact ⟨rfl, List.length_eq_zero_iff.mp (by omega)⟩
  · refine hb.repin ho ⟨rfl, rfl, rfl⟩ rfl rfl
      (Function.update_eq_self_iff.mpr hnamed.symm).symm ?_ (fun hx => nomatch hx)
    intro o' hx
    obtain rfl := Option.some.inj hx
    refine ⟨rfl, rfl, hnodup, ?_, ?_⟩
    · show o.refCount - 1 = ((o.subscriptions.length : ℕ) : ℤ) + (0 : ℕ)
      omega
    · show 0 < o.refCount - 1
      omega

/-! ### What the calls of a listener leave alone -/

theorem addListener_keeps {h' : Heap D} {context : ListenerContext}
    (hcall : h.addListener sets id context = .ok h') {ls : List ListenerNode}
    (hls : h.listenersOf j = some ls) : ∃ ls', h'.listenersOf j = some ls' ∧ ls ⊆ ls' := by
  unfold Heap.addListener at hcall
  cases hs : h.subscriptions id with
  | none =>
      rw [hs] at hcall
      cases hcall
  | some s =>
      rw [hs] at hcall
      dsimp only at hcall
      split_ifs at hcall with hmem
      · obtain rfl := Except.ok.inj hcall
        exact ⟨ls, hls, List.Subset.refl _⟩
      · obtain rfl := Except.ok.inj hcall
        have hlisteners : (h.setSubscription id (some { s with
            listeners := sets.insert s.listeners ⟨h.nodes, context⟩ })).listenersOf j =
            Function.update h.listenersOf id
              (some (sets.insert s.listeners ⟨h.nodes, context⟩)) j :=
          congrFun (listenersOf_setSubscription _) j
        by_cases hj : j = id
        · subst hj
          rw [listenersOf_eq hs] at hls
          obtain rfl := Option.some.inj hls
          rw [Function.update_self] at hlisteners
          refine ⟨_, hlisteners, fun l hl => ?_⟩
          exact (sets.insert_perm _ _).mem_iff.mpr (List.mem_cons_of_mem _ hl)
        · rw [Function.update_of_ne hj] at hlisteners
          exact ⟨ls, hlisteners.trans hls, List.Subset.refl _⟩

theorem removeListener_keeps {h' : Heap D} {listener : ListenerPtr}
    (hcall : h.removeListener id listener = .ok h') {ls : List ListenerNode}
    (hls : h.listenersOf j = some ls) :
    ∃ ls', h'.listenersOf j = some ls' ∧
      ∀ l ∈ ls, ¬ (id = j ∧ listener = l.context.listener) → l ∈ ls' := by
  unfold Heap.removeListener at hcall
  cases hs : h.subscriptions id with
  | none =>
      rw [hs] at hcall
      cases hcall
  | some s =>
      rw [hs] at hcall
      obtain rfl := Except.ok.inj hcall
      rw [listenersOf_setSubscription]
      by_cases hj : j = id
      · subst hj
        rw [listenersOf_eq hs] at hls
        obtain rfl := Option.some.inj hls
        rw [Function.update_self]
        refine ⟨_, rfl, fun l hl hne => List.mem_filter.mpr ⟨hl, ?_⟩⟩
        exact decide_eq_true fun heq => hne ⟨rfl, heq.symm⟩
      · rw [Function.update_of_ne hj]
        exact ⟨ls, hls, fun l hl _ => hl⟩

/-- A call that does not close a subscription leaves it open, with all its listeners but the one
that the call removes. -/
theorem apply_keeps (hb : Booked pins h) {h' : Heap D} (hcall : h.apply sets request = .ok h')
    {ls : List ListenerNode} (hls : h.listenersOf j = some ls) (hclose : request ≠ .close j) :
    ∃ ls', h'.listenersOf j = some ls' ∧
      ∀ l ∈ ls, request ≠ .removeListener j l.context.listener → l ∈ ls' := by
  have hsame : h'.listenersOf j = h.listenersOf j → ∃ ls', h'.listenersOf j = some ls' ∧
      ∀ l ∈ ls, request ≠ .removeListener j l.context.listener → l ∈ ls' := by
    intro heq
    exact ⟨ls, heq.trans hls, fun l hl _ => hl⟩
  unfold Heap.apply at hcall
  split_ifs at hcall with husable
  · cases request with
    | create eventTypes subscrFlags time =>
        obtain rfl := Except.ok.inj hcall
        refine hsame ?_
        obtain ⟨s, hs, -⟩ := Option.map_eq_some_iff.mp hls
        have hne : j ≠ h.created := fun heq =>
          absurd (hb.created j s hs) (by rw [heq]; exact lt_irrefl _)
        unfold Heap.createEventSubscription Heap.listenersOf
        split_ifs
        · rfl
        · simp [hne]
    | close id =>
        obtain ⟨h'', hcall', -, hlisteners⟩ := booked_closeEventSubscription hb (husable id rfl)
        obtain rfl := Except.ok.inj (hcall.symm.trans hcall')
        refine hsame ?_
        rw [hlisteners, Function.update_of_ne]
        rintro rfl
        exact hclose rfl
    | addSymbols id symbols =>
        obtain ⟨h'', hcall', -, hlisteners⟩ := booked_addSymbols hb (husable id rfl) symbols
        obtain rfl := Except.ok.inj (hcall.symm.trans hcall')
        exact hsame (congrFun hlisteners j)
    | removeSymbols id symbols =>
        obtain ⟨h'', hcall', -, hlisteners⟩ := booked_removeSymbols hb (husable id rfl) symbols
        obtain rfl := Except.ok.inj (hcall.symm.trans hcall')
        exact hsame (congrFun hlisteners j)
    | addListener id context =>
        obtain ⟨ls', hls', hsub⟩ := addListener_keeps hcall hls
        exact ⟨ls', hls', fun l hl _ => hsub hl⟩
    | removeListener id listener =>
        obtain ⟨ls', hls', hkeep⟩ := removeListener_keeps hcall hls
        refine ⟨ls', hls', fun l hl hne => hkeep l hl ?_⟩
        rintro ⟨rfl, rfl⟩
        exact hne rfl
  · obtain rfl := Except.ok.inj hcall
    exact hsame rfl

/-- The calls of a listener, one after another. -/
theorem applyAll_keeps (hb : Booked pins h) {requests : List Request} {h' : Heap D}
    (hcalls : Heap.applyAll sets requests h = .ok h') {ls : List ListenerNode}
    (hls : h.listenersOf j = some ls) (hclose : ∀ request ∈ requests, request ≠ .close j) :
    ∃ ls', h'.listenersOf j = some ls' ∧ ∀ l ∈ ls,
      (∀ request ∈ requests, request ≠ .removeListener j l.context.listener) → l ∈ ls' := by
  induction requests generalizing h ls with
  | nil =>
      obtain rfl := Except.ok.inj hcalls
      exact ⟨ls, hls, fun l hl _ => hl⟩
  | cons request requests ih =>
      obtain ⟨h₁, hcall, hb₁⟩ := booked_apply hb sets request
      rw [Heap.applyAll, hcall] at hcalls
      obtain ⟨ls₁, hls₁, hkeep₁⟩ := apply_keeps hb hcall hls (hclose request List.mem_cons_self)
      obtain ⟨ls₂, hls₂, hkeep₂⟩ := ih hb₁ hcalls hls₁
        fun request' hrequest' => hclose request' (List.mem_cons_of_mem _ hrequest')
      refine ⟨ls₂, hls₂, fun l hl hremove => hkeep₂ l (hkeep₁ l hl ?_) ?_⟩
      · exact hremove request List.mem_cons_self
      · exact fun request' hrequest' => hremove request' (List.mem_cons_of_mem _ hrequest')

/-! ### The dispatch -/

/-- What holds between two steps of a dispatch. -/
structure Dispatch.Safe (d : Dispatch D) : Prop where
  booked : Booked d.pins d.heap
  reachable : Reachable d.heap d.position

/-- The entry is there until the dispatch is done. -/
theorem Dispatch.Safe.entry (hd : d.Safe) (hnot : d.position ≠ .done) :
    ∃ o, d.heap.objects d.symbolData = some o := by
  refine Option.ne_none_iff_exists'.mp fun hnone => ?_
  have hpins := hd.booked.pinned d.symbolData hnone
  unfold Dispatch.pins at hpins
  rw [Function.update_self, if_neg hnot] at hpins
  cases hpins

theorem Dispatch.pins_running (hnot : d.position ≠ .done) :
    d.pins = Function.update (fun _ => 0) d.symbolData 1 := by
  unfold Dispatch.pins
  rw [if_neg hnot]

theorem dropWhile_of_mem {α : Type} [DecidableEq α] {x : α} {xs : List α} (hx : x ∈ xs) :
    ∃ rest, xs.dropWhile (· ≠ x) = x :: rest ∧ rest ⊆ xs := by
  induction xs with
  | nil => cases hx
  | cons y xs ih =>
      by_cases hy : y = x
      · subst hy
        exact ⟨xs, by simp, List.subset_cons_self _ _⟩
      · obtain ⟨rest, hrest, hsub⟩ := ih ((List.mem_cons.mp hx).resolve_left (Ne.symm hy))
        exact ⟨rest, by simpa [hy] using hrest,
          List.Subset.trans hsub (List.subset_cons_self _ _)⟩

/-- The iterator goes on from a listener that is still there. -/
theorem nextListener_spec {ls : List ListenerNode} {l : ListenerNode}
    (hls : h.listenersOf id = some ls) (hl : l ∈ ls) :
    ∃ next, nextListener h id l = .ok next ∧ ∀ l' ∈ next, l' ∈ ls := by
  obtain ⟨rest, hrest, hsub⟩ := dropWhile_of_mem hl
  unfold nextListener
  rw [hls, Option.getD_some, hrest]
  exact ⟨rest.head?, rfl, fun l' hl' => hsub (List.mem_of_mem_head? hl')⟩

/-- A dispatch of a live entry starts. -/
theorem start_safe (sets : SetOrder) (hb : Booked (fun _ => 0) h) (ho : h.objects p = some o)
    (event : Event D) :
    ∃ d, start sets h p event = .ok d ∧ d.Safe := by
  unfold start
  rw [ho]
  refine ⟨_, rfl, ?_, ?_⟩
  · rw [Dispatch.pins_running (by simp)]
    exact hb.pin ho
  · intro j hj
    obtain ⟨s, hs, -⟩ := (hb.subscribed p o ho j).mp ((sets.copy_perm _).mem_iff.mp hj)
    show (h.listenersOf j).isSome
    rw [listenersOf_eq hs]
    rfl

/-- A step whose calls are allowed makes no fault. -/
theorem step_safe (hd : d.Safe) {calls : List Request} (hallows : d.Allows calls) :
    ∃ d', d.step sets calls = .ok d' ∧ d'.Safe := by
  obtain ⟨heap, symbolData, event, position⟩ := d
  have hentry := hd.entry
  obtain ⟨hb, hreach⟩ := hd
  unfold Dispatch.step
  cases position with
  | done => exact ⟨_, rfl, hb, hreach⟩
  | between waiting =>
      rw [Dispatch.pins_running (by simp)] at hb
      cases waiting with
      | nil =>
          -- the pass is over: the entry is given up, and freed if the calls have removed its symbol
          obtain ⟨o, ho⟩ := hentry (by simp)
          obtain ⟨h', hcall, hb'⟩ := hb.unpin ho
          dsimp only at hcall ⊢
          rw [hcall]
          refine ⟨_, rfl, ?_, trivial⟩
          have hpins : (⟨h', symbolData, event, .done⟩ : Dispatch D).pins = fun _ => 0 :=
            Function.update_eq_self_iff.mpr rfl
          rw [hpins]
          exact hb'
      | cons id waiting =>
          have hopen := hreach id List.mem_cons_self
          have hwaiting : ∀ j ∈ waiting, (heap.listenersOf j).isSome :=
            fun j hj => hreach j (List.mem_cons_of_mem _ hj)
          obtain ⟨s, hs⟩ : ∃ s, heap.subscriptions id = some s := by
            simpa [Heap.listenersOf, Option.isSome_iff_exists] using hopen
          dsimp only
          rw [hs]
          refine ⟨_, rfl, ?_⟩
          cases hlisteners : if s.accepts event then s.listeners else [] with
          | nil =>
              refine ⟨?_, hwaiting⟩
              rw [Dispatch.pins_running (by simp)]
              exact hb
          | cons l rest =>
              refine ⟨?_, hwaiting, s.listeners, listenersOf_eq hs, ?_⟩
              · rw [Dispatch.pins_running (by simp)]
                exact hb
              · split_ifs at hlisteners
                rw [hlisteners]
                exact List.mem_cons_self
  | calling id l waiting =>
      -- the calls are allowed: they keep this listener and the subscriptions that wait
      obtain ⟨hwaiting, ls, hls, hl⟩ := hreach
      rw [Dispatch.pins_running (by simp)] at hb
      obtain ⟨h', hcalls, hb'⟩ := booked_applyAll hb sets calls
      obtain ⟨ls', hls', hkeep⟩ := applyAll_keeps hb hcalls hls
        fun request hrequest => (hallows request hrequest).1 id List.mem_cons_self
      have hl' := hkeep l hl fun request hrequest => (hallows request hrequest).2
      have hwaiting' : ∀ j ∈ waiting, (h'.listenersOf j).isSome := by
        intro j hj
        obtain ⟨lsj, hlsj⟩ := Option.isSome_iff_exists.mp (hwaiting j hj)
        obtain ⟨lsj', hlsj', -⟩ := applyAll_keeps hb hcalls hlsj
          fun request hrequest => (hallows request hrequest).1 j (List.mem_cons_of_mem _ hj)
        rw [hlsj']
        rfl
      obtain ⟨next, hnext, hsub⟩ := nextListener_spec hls' hl'
      dsimp only
      rw [hcalls]
      dsimp only
      rw [hnext]
      cases next with
      | none =>
          refine ⟨_, rfl, ?_, hwaiting'⟩
          rw [Dispatch.pins_running (by simp)]
          exact hb'
      | some l'' =>
          refine ⟨_, rfl, ?_, hwaiting', ls', hls', hsub l'' rfl⟩
          rw [Dispatch.pins_running (by simp)]
          exact hb'

theorem run_safe (hd : d.Safe) {steps : List (List Request)}
    (hallowed : Dispatch.AllAllowed sets steps d) :
    ∃ d', Dispatch.run sets steps d = .ok d' ∧ d'.Safe := by
  induction steps generalizing d with
  | nil => exact ⟨d, rfl, hd⟩
  | cons calls steps ih =>
      obtain ⟨hallows, hrest⟩ := hallowed
      obtain ⟨d₁, hstep, hd₁⟩ := step_safe hd hallows
      rw [hstep] at hrest
      rw [Dispatch.run, hstep]
      exact ih hd₁ hrest

/-- After any calls an event can be dispatched to the entry of its symbol, and as long as no
listener closes a subscription that the loops still have to read or removes itself, the dispatch
reads nothing that was freed, and frees the entry at most when it is done. -/
theorem dispatch_safe (sets : SetOrder) (requests : List Request) (event : Event D)
    (symbolName : WString) {h : Heap D} (hcalls : Heap.applyAll sets requests .empty = .ok h)
    {p : SymbolPtr} (hp : h.symbols symbolName = some p) :
    ∃ d, start sets h p event = .ok d ∧
      ∀ steps, Dispatch.AllAllowed sets steps d →
        ∃ d', Dispatch.run sets steps d = .ok d' ∧
          (d'.position ≠ .done → ∃ o, d'.heap.objects d'.symbolData = some o) := by
  obtain ⟨h', hcalls', hb⟩ := booked_applyAll (D := D) booked_empty sets requests
  obtain rfl := Except.ok.inj (hcalls.symm.trans hcalls')
  obtain ⟨o, ho, -⟩ := (hb.named symbolName p).mp hp
  obtain ⟨d, hstart, hd⟩ := start_safe sets hb ho event
  refine ⟨d, hstart, fun steps hallowed => ?_⟩
  obtain ⟨d', hrun, hd'⟩ := run_safe hd hallowed
  exact ⟨d', hrun, hd'.entry⟩

/-- Two subscriptions to the trades of `A`, with one listener each. -/
def sampleRequests : List Request :=
  [.create EventId.trade.bitMask 0 0, .addSymbols 0 [some [65]], .addListener 0 ⟨7, .v2, 0⟩,
    .create EventId.trade.bitMask 0 0, .addSymbols 1 [some [65]], .addListener 1 ⟨8, .v2, 0⟩]

/-- The heap after these calls. -/
def sampleHeap : Heap Unit :=
  match Heap.applyAll .last sampleRequests .empty with
  | .error _ => .empty
  | .ok h => h

/-- A trade of `A`. -/
def sampleTrade : Event Unit :=
  ⟨.trade, [65], ⟨[], ()⟩, ⟨0, 0, 0⟩⟩

/-- The dispatch of the trade, where the first listener makes these calls. -/
def sampleDispatch (calls : List Request) : Except Fault (Dispatch Unit) :=
  match start .last sampleHeap 0 sampleTrade with
  | .error fault => .error fault
  | .ok d => Dispatch.run .last [[], calls, [], [], [], []] d

/-- The first listener may give up the symbol of both subscriptions. -/
theorem dispatch_safe_sample :
    ∃ d, start .last sampleHeap 0 sampleTrade = .ok d ∧
      ∃ d', Dispatch.run .last
        [[], [.removeSymbols 0 [some [65]], .removeSymbols 1 [some [65]]], [], []] d = .ok d' := by
  obtain ⟨d, hstart, hsafe⟩ := dispatch_safe .last sampleRequests sampleTrade [65]
    (h := sampleHeap) rfl (p := 0) rfl
  refine ⟨d, hstart, ?_⟩
  obtain rfl := Except.ok.inj hstart
  obtain ⟨d', hrun, -⟩ := hsafe
    [[], [.removeSymbols 0 [some [65]], .removeSymbols 1 [some [65]]], [], []]
    ⟨trivial, by decide, trivial, trivial, trivial⟩
  exact ⟨d', hrun⟩

/-- If the first listener closes the other subscription, then the dispatch reads it after it was
freed; if it removes itself, then the loop goes on from a node that was freed. -/
theorem sampleDispatch_faults :
    (sampleDispatch [.close 1]).map Dispatch.position = .error (.freedSubscription 1) ∧
      (sampleDispatch [.removeListener 0 7]).map Dispatch.position =
        .error (.erasedListener 0 0) := by
  constructor
  · rfl
  · rfl

end DxFeed.EventSubscription
