import DxFeed.EventSubscription.Heap

/-!
# The bookkeeping of symbols

A subscription keeps pointers to the entries of its symbols, an entry keeps the set of its
subscriptions and counts them, and the context maps names to entries.

* `Booked`: the three agree; `pins` counts the references of a dispatch in progress;
* `subscribeSymbol_keeps`, `unsubscribeSymbol_keeps`: the two operations that change entries;
* `booked_applyAll`: no call touches freed memory, and every call keeps the agreement;
* `bookkeeping`: what that says after every sequence of calls.
-/

namespace DxFeed.EventSubscription

variable {D : Type}

/-- An entry has each of its subscriptions once, and counts them and its pins. -/
structure SymbolObject.Counted (o : SymbolObject D) (pins : ℕ) : Prop where
  nodup : o.subscriptions.Nodup
  refCount : o.refCount = o.subscriptions.length + pins
  pos : 0 < o.refCount

/-- The subscription has the symbol, with this pointer. -/
def Heap.Holds (h : Heap D) (id : SubscriptionId) (symbolName : WString) (p : SymbolPtr) : Prop :=
  ∃ s, h.subscriptions id = some s ∧ (symbolName, p) ∈ s.symbols

/-- The copies of the relation between subscriptions and symbols agree. -/
structure Booked (pins : SymbolPtr → ℕ) (h : Heap D) : Prop where
  named : ∀ name p, h.symbols name = some p ↔ ∃ o, h.objects p = some o ∧ o.name = name
  counted : ∀ p o, h.objects p = some o → o.Counted (pins p)
  fresh : ∀ p o, h.objects p = some o → p < h.allocated
  pinned : ∀ p, h.objects p = none → pins p = 0
  subscribed : ∀ p o, h.objects p = some o →
    ∀ id, id ∈ o.subscriptions ↔ h.Holds id o.name p
  linked : ∀ id name p, h.Holds id name p → h.symbols name = some p
  distinct : ∀ id s, h.subscriptions id = some s → (s.symbols.map Prod.fst).Nodup
  created : ∀ id s, h.subscriptions id = some s → id < h.created

variable {h : Heap D} {pins : SymbolPtr → ℕ} {id : SubscriptionId} {s : SubscriptionObject}
  {p : SymbolPtr} {o : SymbolObject D} {symbolName : WString}

theorem booked_empty : Booked (fun _ => 0) (Heap.empty : Heap D) where
  named name p := by simp [Heap.empty]
  counted p o ho := nomatch ho
  fresh p o ho := nomatch ho
  pinned p _ := rfl
  subscribed p o ho := nomatch ho
  linked id name p hholds := nomatch hholds
  distinct id s hs := nomatch hs
  created id s hs := nomatch hs

/-! ### Projections -/

@[simp] theorem objects_setSubscription (x : Option SubscriptionObject) :
    (h.setSubscription id x).objects = h.objects := rfl

@[simp] theorem symbols_setSubscription (x : Option SubscriptionObject) :
    (h.setSubscription id x).symbols = h.symbols := rfl

@[simp] theorem allocated_setSubscription (x : Option SubscriptionObject) :
    (h.setSubscription id x).allocated = h.allocated := rfl

@[simp] theorem created_setSubscription (x : Option SubscriptionObject) :
    (h.setSubscription id x).created = h.created := rfl

theorem subscriptions_setSubscription (x : Option SubscriptionObject) :
    (h.setSubscription id x).subscriptions = Function.update h.subscriptions id x := rfl

theorem setSubscription_setSubscription (x y : Option SubscriptionObject) :
    (h.setSubscription id x).setSubscription id y = h.setSubscription id y := by
  simp [Heap.setSubscription]

/-- What the new subscription and all subscriptions from before satisfy. -/
theorem forall_setSubscription {Q : SubscriptionId → SubscriptionObject → Prop}
    {x : Option SubscriptionObject} (hx : ∀ s, x = some s → Q id s)
    (hrest : ∀ j s, h.subscriptions j = some s → Q j s) :
    ∀ j s, (h.setSubscription id x).subscriptions j = some s → Q j s := by
  intro j s hs
  rw [subscriptions_setSubscription] at hs
  by_cases hj : j = id
  · subst hj
    rw [Function.update_self] at hs
    exact hx s hs
  · rw [Function.update_of_ne hj] at hs
    exact hrest j s hs

theorem holds_setSubscription (s : SubscriptionObject) (j : SubscriptionId) :
    (h.setSubscription id (some s)).Holds j symbolName p ↔
      if j = id then (symbolName, p) ∈ s.symbols else h.Holds j symbolName p := by
  unfold Heap.Holds
  rw [subscriptions_setSubscription]
  by_cases hj : j = id
  · subst hj
    simp
  · simp [hj]

/-- What an operation on entries leaves alone. -/
structure Frame (h h' : Heap D) : Prop where
  subscriptions : h'.subscriptions = h.subscriptions
  created : h'.created = h.created
  nodes : h'.nodes = h.nodes

/-! ### One entry changes -/

/-- The pointer of a subscription leads to a live entry that has the subscription. -/
theorem Booked.entry (hb : Booked pins h) (hholds : h.Holds id symbolName p) :
    ∃ o, h.objects p = some o ∧ o.name = symbolName ∧ id ∈ o.subscriptions := by
  obtain ⟨o, ho, rfl⟩ := (hb.named symbolName p).mp (hb.linked id symbolName p hholds)
  exact ⟨o, ho, rfl, (hb.subscribed p o ho id).mpr hholds⟩

/-- What one changed entry must satisfy: it keeps its name and its place in the map, and its
subscriptions are those that hold it. -/
structure EntryChange (h h' : Heap D) (pins' : SymbolPtr → ℕ) (name : WString) (p : SymbolPtr)
    (x : Option (SymbolObject D)) : Prop where
  objects : h'.objects = Function.update h.objects p x
  symbols : h'.symbols = Function.update h.symbols name (x.map fun _ => p)
  allocated : h.allocated ≤ h'.allocated ∧ p < h'.allocated
  old_name : ∀ o, h.objects p = some o → o.name = name
  old_ptr : ∀ q, h.symbols name = some q → q = p
  new_entry : ∀ o, x = some o → o.name = name ∧ o.Counted (pins' p) ∧
    ∀ id, id ∈ o.subscriptions ↔ h'.Holds id name p
  no_entry : x = none → pins' p = 0 ∧ ∀ id, ¬ h'.Holds id name p
  others : ∀ id other q, other ≠ name → (h'.Holds id other q ↔ h.Holds id other q)
  same_ptr : ∀ id q, h'.Holds id name q → q = p
  distinct : ∀ id s, h'.subscriptions id = some s → (s.symbols.map Prod.fst).Nodup
  created : ∀ id s, h'.subscriptions id = some s → id < h'.created

/-- A change of one entry keeps the agreement. -/
theorem Booked.change (hb : Booked pins h) {h' : Heap D} {pins' : SymbolPtr → ℕ}
    {x : Option (SymbolObject D)} (hpins : ∀ q, q ≠ p → pins' q = pins q)
    (hc : EntryChange h h' pins' symbolName p x) : Booked pins' h' where
  named name q := by
    rw [hc.symbols, hc.objects]
    by_cases hq : q = p
    · subst hq
      rw [Function.update_self]
      by_cases hname : name = symbolName
      · subst hname
        rw [Function.update_self]
        cases hx : x with
        | none => simp
        | some o => simpa using (hc.new_entry o hx).1
      · -- the entry does not have this name, neither before nor after
        rw [Function.update_of_ne hname, hb.named]
        refine iff_of_false ?_ ?_
        · rintro ⟨o, ho, rfl⟩
          exact hname (hc.old_name o ho)
        · rintro ⟨o, ho, rfl⟩
          exact hname (hc.new_entry o ho).1
    · rw [Function.update_of_ne hq]
      by_cases hname : name = symbolName
      · -- no other entry has the name
        subst hname
        rw [Function.update_self]
        refine iff_of_false ?_ ?_
        · intro heq
          obtain ⟨o, -, rfl⟩ := Option.map_eq_some_iff.mp heq
          exact hq rfl
        · intro hold
          exact hq (hc.old_ptr q ((hb.named name q).mpr hold))
      · rw [Function.update_of_ne hname]
        exact hb.named name q
  counted q o ho := by
    rw [hc.objects] at ho
    by_cases hq : q = p
    · subst hq
      rw [Function.update_self] at ho
      exact (hc.new_entry o ho).2.1
    · rw [Function.update_of_ne hq] at ho
      rw [hpins q hq]
      exact hb.counted q o ho
  fresh q o ho := by
    rw [hc.objects] at ho
    by_cases hq : q = p
    · subst hq
      exact hc.allocated.2
    · rw [Function.update_of_ne hq] at ho
      exact (hb.fresh q o ho).trans_le hc.allocated.1
  pinned q hq' := by
    rw [hc.objects] at hq'
    by_cases hq : q = p
    · subst hq
      rw [Function.update_self] at hq'
      exact (hc.no_entry hq').1
    · rw [Function.update_of_ne hq] at hq'
      rw [hpins q hq]
      exact hb.pinned q hq'
  subscribed q o ho id := by
    rw [hc.objects] at ho
    by_cases hq : q = p
    · subst hq
      rw [Function.update_self] at ho
      obtain ⟨hname, -, hsubs⟩ := hc.new_entry o ho
      rw [hname]
      exact hsubs id
    · rw [Function.update_of_ne hq] at ho
      have hname : o.name ≠ symbolName := fun heq =>
        hq (hc.old_ptr q ((hb.named symbolName q).mpr ⟨o, ho, heq⟩))
      rw [hc.others id o.name q hname]
      exact hb.subscribed q o ho id
  linked id name q hholds := by
    rw [hc.symbols]
    by_cases hname : name = symbolName
    · subst hname
      obtain rfl := hc.same_ptr id q hholds
      rw [Function.update_self]
      cases hx : x with
      | none => exact absurd hholds ((hc.no_entry hx).2 id)
      | some o => rfl
    · rw [Function.update_of_ne hname]
      exact hb.linked id name q ((hc.others id name q hname).mp hholds)
  distinct := hc.distinct
  created := hc.created

/-- One entry changes, and one subscription changes the symbol of that entry. -/
theorem Booked.changeSymbols (hb : Booked pins h) (hs : h.subscriptions id = some s)
    {h' : Heap D} (hframe : Frame h h') {x : Option (SymbolObject D)}
    {symbols : List (WString × SymbolPtr)}
    (hobjects : h'.objects = Function.update h.objects p x)
    (hsymbols : h'.symbols = Function.update h.symbols symbolName (x.map fun _ => p))
    (hallocated : h.allocated ≤ h'.allocated ∧ p < h'.allocated)
    (hname : ∀ o, h.objects p = some o → o.name = symbolName)
    (hptr : ∀ q, h.symbols symbolName = some q → q = p)
    (hentry : ∀ o, x = some o → o.name = symbolName ∧ o.Counted (pins p) ∧
      (id ∈ o.subscriptions ↔ (symbolName, p) ∈ symbols) ∧
      ∀ j, j ≠ id → (j ∈ o.subscriptions ↔ h.Holds j symbolName p))
    (hnone : x = none → pins p = 0 ∧ (symbolName, p) ∉ symbols ∧
      ∀ j, j ≠ id → ¬ h.Holds j symbolName p)
    (hother : ∀ other q, other ≠ symbolName →
      ((other, q) ∈ symbols ↔ (other, q) ∈ s.symbols))
    (hsame : ∀ q, (symbolName, q) ∈ symbols → q = p)
    (hnodup : (symbols.map Prod.fst).Nodup) :
    Booked pins (h'.setSubscription id (some { s with symbols := symbols })) := by
  have hholds : ∀ j name q, (h'.setSubscription id (some { s with symbols := symbols })).Holds
      j name q ↔ if j = id then (name, q) ∈ symbols else h.Holds j name q := by
    intro j name q
    rw [holds_setSubscription]
    unfold Heap.Holds
    rw [hframe.subscriptions]
  refine hb.change (fun _ _ => rfl)
    { objects := hobjects
      symbols := hsymbols
      allocated := hallocated
      old_name := hname
      old_ptr := hptr
      new_entry := ?_
      no_entry := ?_
      others := ?_
      same_ptr := ?_
      distinct := ?_
      created := ?_ }
  · intro o ho
    obtain ⟨honame, hcounted, hself, hrest⟩ := hentry o ho
    refine ⟨honame, hcounted, fun j => ?_⟩
    rw [hholds]
    split_ifs with hj
    · rw [hj]
      exact hself
    · exact hrest j hj
  · intro hx
    obtain ⟨hpins, hself, hrest⟩ := hnone hx
    refine ⟨hpins, fun j => ?_⟩
    rw [hholds]
    split_ifs with hj
    · exact hself
    · exact hrest j hj
  · intro j other q hne
    rw [hholds]
    split_ifs with hj
    · subst hj
      rw [hother other q hne]
      constructor
      · intro hmem
        exact ⟨s, hs, hmem⟩
      · rintro ⟨s', hs', hmem⟩
        obtain rfl := Option.some.inj (hs.symm.trans hs')
        exact hmem
    · exact Iff.rfl
  · intro j q hj'
    rw [hholds] at hj'
    split_ifs at hj' with hj
    · exact hsame q hj'
    · exact hptr q (hb.linked j symbolName q hj')
  · refine forall_setSubscription (fun s' hs' => ?_) (hframe.subscriptions ▸ hb.distinct)
    obtain rfl := Option.some.inj hs'
    exact hnodup
  · rw [created_setSubscription, hframe.created]
    exact forall_setSubscription (fun _ _ => hb.created id s hs)
      (hframe.subscriptions ▸ hb.created)

/-! ### The operations on entries -/

theorem mem_append_of_ne {symbols : List (WString × SymbolPtr)} {other : WString}
    (hne : other ≠ symbolName) (q : SymbolPtr) :
    (other, q) ∈ symbols ++ [(symbolName, p)] ↔ (other, q) ∈ symbols := by
  simp [hne]

theorem eq_of_mem_append {symbols : List (WString × SymbolPtr)} {q : SymbolPtr}
    (hnew : symbolName ∉ symbols.map Prod.fst)
    (hmem : (symbolName, q) ∈ symbols ++ [(symbolName, p)]) : q = p := by
  rcases List.mem_append.mp hmem with hmem | hmem
  · exact absurd (List.mem_map_of_mem hmem) hnew
  · exact congrArg Prod.snd (List.mem_singleton.mp hmem)

theorem nodup_append {symbols : List (WString × SymbolPtr)} (hnodup : (symbols.map Prod.fst).Nodup)
    (hnew : symbolName ∉ symbols.map Prod.fst) (p : SymbolPtr) :
    ((symbols ++ [(symbolName, p)]).map Prod.fst).Nodup := by
  rw [List.map_append, List.map_singleton]
  rw [← List.concat_eq_append]
  exact hnodup.concat hnew

/-- A subscription joins an entry that is there. -/
theorem Booked.joinEntry (hb : Booked pins h) (hs : h.subscriptions id = some s)
    (hnew : symbolName ∉ s.symbols.map Prod.fst) (hfound : h.symbols symbolName = some p)
    (ho : h.objects p = some o) (hname : o.name = symbolName) (howner : id ∉ o.subscriptions) :
    Booked pins ((h.setObject p (some { o with
      subscriptions := o.subscriptions ++ [id]
      refCount := o.refCount + 1 })).setSubscription id (some { s with
        symbols := s.symbols ++ [(symbolName, p)] })) := by
  have hcounted := hb.counted p o ho
  refine hb.changeSymbols (x := some { o with
      subscriptions := o.subscriptions ++ [id]
      refCount := o.refCount + 1 }) hs ?_ ?_ ?_ ?_ ?_ ?_ ?_ (fun hx => nomatch hx)
    (fun other q hne => mem_append_of_ne hne q) (fun q => eq_of_mem_append hnew)
    (nodup_append (hb.distinct id s hs) hnew p)
  · exact ⟨rfl, rfl, rfl⟩
  · rfl
  · exact (Function.update_eq_self_iff.mpr hfound.symm).symm
  · exact ⟨le_rfl, hb.fresh p o ho⟩
  · intro o' ho'
    obtain rfl := Option.some.inj (ho.symm.trans ho')
    exact hname
  · intro q hq
    exact Option.some.inj (hq.symm.trans hfound)
  · intro o' ho'
    obtain rfl := Option.some.inj ho'
    refine ⟨hname, ⟨?_, ?_, ?_⟩, ?_, ?_⟩
    · rw [← List.concat_eq_append]
      exact hcounted.nodup.concat howner
    · simp [hcounted.refCount]
      ring
    · have hpos := hcounted.pos
      show 0 < o.refCount + 1
      omega
    · simp
    · intro j hj
      rw [← hname, ← hb.subscribed p o ho j]
      simp [hj]

/-- A subscription gets a new entry. -/
theorem Booked.createEntry (hb : Booked pins h) (hs : h.subscriptions id = some s)
    (hnew : symbolName ∉ s.symbols.map Prod.fst) (hfound : h.symbols symbolName = none) :
    Booked pins (((h.findOrCreate symbolName).1.setObject h.allocated (some { SymbolData.create with
      name := symbolName
      subscriptions := [id]
      refCount := 1 })).setSubscription id (some { s with
        symbols := s.symbols ++ [(symbolName, h.allocated)] })) := by
  have hfree : h.objects h.allocated = none := by
    by_contra hsome
    obtain ⟨o, ho⟩ := Option.ne_none_iff_exists'.mp hsome
    exact absurd (hb.fresh h.allocated o ho) (lt_irrefl _)
  -- no other subscription can hold a name that has no entry
  have hunheld : ∀ j q, ¬ h.Holds j symbolName q := by
    intro j q hholds
    exact nomatch hfound.symm.trans (hb.linked j symbolName q hholds)
  unfold Heap.findOrCreate
  rw [hfound]
  dsimp only
  refine hb.changeSymbols (x := some { SymbolData.create with
      name := symbolName
      subscriptions := [id]
      refCount := 1 }) hs ?_ ?_ ?_ ?_ ?_ ?_ ?_ (fun hx => nomatch hx)
    (fun other q hne => mem_append_of_ne hne q) (fun q => eq_of_mem_append hnew)
    (nodup_append (hb.distinct id s hs) hnew _)
  · exact ⟨rfl, rfl, rfl⟩
  · exact Function.update_idem _ _ _
  · rfl
  · exact ⟨Nat.le_succ _, Nat.lt_succ_self _⟩
  · intro o ho
    exact nomatch hfree.symm.trans ho
  · intro q hq
    exact nomatch hfound.symm.trans hq
  · intro o' ho'
    obtain rfl := Option.some.inj ho'
    refine ⟨rfl, ⟨?_, ?_, ?_⟩, ?_, ?_⟩
    · simp
    · simp [hb.pinned _ hfree]
    · simp
    · simp
    · intro j hj
      simp [hj, hunheld]

/-- A new symbol of a subscription: its entry is found or created, and the subscription joins. -/
theorem subscribeSymbol_keeps (hb : Booked pins h) (hs : h.subscriptions id = some s)
    (hnew : symbolName ∉ s.symbols.map Prod.fst) :
    ∃ h' p, h.subscribeSymbol symbolName id = .ok (h', p) ∧ Frame h h' ∧
      Booked pins (h'.setSubscription id (some { s with
        symbols := s.symbols ++ [(symbolName, p)] })) := by
  cases hfound : h.symbols symbolName with
  | some p =>
      obtain ⟨o, ho, hname⟩ := (hb.named symbolName p).mp hfound
      have howner : id ∉ o.subscriptions := by
        intro hmem
        obtain ⟨s', hs', hmem'⟩ := (hb.subscribed p o ho id).mp hmem
        obtain rfl := Option.some.inj (hs.symm.trans hs')
        rw [hname] at hmem'
        exact hnew (List.mem_map_of_mem hmem')
      have hbooked := hb.joinEntry hs hnew hfound ho hname howner
      unfold Heap.subscribeSymbol Heap.findOrCreate
      rw [hfound]
      dsimp only
      rw [ho]
      dsimp only
      rw [if_neg howner]
      exact ⟨_, p, rfl, ⟨rfl, rfl, rfl⟩, hbooked⟩
  | none =>
      have hbooked := hb.createEntry hs hnew hfound
      unfold Heap.findOrCreate at hbooked
      rw [hfound] at hbooked
      unfold Heap.subscribeSymbol Heap.findOrCreate
      rw [hfound]
      dsimp only
      rw [Function.update_self]
      dsimp only
      rw [if_neg (by simp [SymbolData.create])]
      exact ⟨_, h.allocated, rfl, ⟨rfl, rfl, rfl⟩, hbooked⟩

/-- What `release` does to a live entry. -/
theorem release_eq (ho : h.objects p = some o) :
    h.release p = .ok (if o.refCount - 1 = 0 then
      { h with
        symbols := Function.update h.symbols o.name none
        objects := Function.update h.objects p none }
      else h.setObject p (some { o with refCount := o.refCount - 1 })) := by
  unfold Heap.release
  rw [ho]
  dsimp only
  split_ifs with hlast
  · unfold Heap.removeSymbolData Heap.setObject
    simp
  · rfl

/-- What `unsubscribeSymbol` does to the entry of a subscription. -/
theorem unsubscribeSymbol_eq (ho : h.objects p = some o) (howner : id ∈ o.subscriptions) :
    h.unsubscribeSymbol p id =
      .ok (if o.refCount - 1 = 0 then
        { h with
          symbols := Function.update h.symbols o.name none
          objects := Function.update h.objects p none }
        else h.setObject p (some { o with
          subscriptions := o.subscriptions.erase id
          refCount := o.refCount - 1 }), true) := by
  unfold Heap.unsubscribeSymbol
  rw [ho]
  dsimp only
  have hself : (h.setObject p (some { o with
      subscriptions := o.subscriptions.erase id })).objects p =
      some { o with subscriptions := o.subscriptions.erase id } := Function.update_self ..
  rw [release_eq hself]
  dsimp only
  split_ifs with hlast
  · simp [Heap.setObject, howner]
  · simp [Heap.setObject, howner]

/-- A symbol of a subscription is given up: the subscription leaves the entry, which is freed
with its last reference. -/
theorem unsubscribeSymbol_keeps (hb : Booked pins h) (hs : h.subscriptions id = some s)
    (hmem : (symbolName, p) ∈ s.symbols) {rest : List (WString × SymbolPtr)}
    (hrest : ∀ e, e ∈ rest ↔ e ∈ s.symbols ∧ e ≠ (symbolName, p))
    (hnodup : (rest.map Prod.fst).Nodup) :
    ∃ h', h.unsubscribeSymbol p id = .ok (h', true) ∧ Frame h h' ∧
      Booked pins (h'.setSubscription id (some { s with symbols := rest })) := by
  obtain ⟨o, ho, hname, howner⟩ := hb.entry ⟨s, hs, hmem⟩
  obtain ⟨hsubs, hcount, hpos⟩ := hb.counted p o ho
  have hlength := List.length_pos_of_mem howner
  have herase := List.length_erase_of_mem howner
  have hptr : ∀ q, h.symbols symbolName = some q → q = p := by
    intro q hq
    exact Option.some.inj (hq.symm.trans ((hb.named symbolName p).mpr ⟨o, ho, hname⟩))
  have hother : ∀ other q, other ≠ symbolName →
      ((other, q) ∈ rest ↔ (other, q) ∈ s.symbols) := by
    intro other q hne
    rw [hrest]
    simp [hne]
  have hgone : ∀ q, (symbolName, q) ∉ rest := by
    intro q hq
    obtain ⟨hqmem, hqne⟩ := (hrest _).mp hq
    exact hqne (by rw [hptr q (hb.linked id symbolName q ⟨s, hs, hqmem⟩)])
  have hothers : ∀ j, j ≠ id → (j ∈ o.subscriptions.erase id ↔ h.Holds j symbolName p) := by
    intro j hj
    rw [List.mem_erase_of_ne hj, hb.subscribed p o ho j, hname]
  rw [unsubscribeSymbol_eq ho howner]
  refine ⟨_, rfl, ?_⟩
  split_ifs with hlast
  · -- the last reference was that of the subscription, so nothing else is subscribed or pinned
    have hnil : o.subscriptions.erase id = [] := List.length_eq_zero_iff.mp (by omega)
    refine ⟨⟨rfl, rfl, rfl⟩, ?_⟩
    refine hb.changeSymbols (x := none) hs ?_ ?_ ?_ ?_ ?_ hptr (fun _ hx => nomatch hx) ?_ hother
      (fun q hq => absurd hq (hgone q)) hnodup
    · exact ⟨rfl, rfl, rfl⟩
    · rfl
    · rw [hname]
      rfl
    · exact ⟨le_rfl, hb.fresh p o ho⟩
    · intro o' ho'
      obtain rfl := Option.some.inj (ho.symm.trans ho')
      exact hname
    · intro _
      refine ⟨by omega, hgone p, fun j hj hholds => ?_⟩
      have hmem' := (hothers j hj).mpr hholds
      rw [hnil] at hmem'
      exact List.not_mem_nil hmem'
  · refine ⟨⟨rfl, rfl, rfl⟩, ?_⟩
    refine hb.changeSymbols (x := some { o with
        subscriptions := o.subscriptions.erase id
        refCount := o.refCount - 1 }) hs ?_ ?_ ?_ ?_ ?_ hptr ?_ (fun hx => nomatch hx) hother
      (fun q hq => absurd hq (hgone q)) hnodup
    · exact ⟨rfl, rfl, rfl⟩
    · rfl
    · exact (Function.update_eq_self_iff.mpr
        ((hb.named symbolName p).mpr ⟨o, ho, hname⟩).symm).symm
    · exact ⟨le_rfl, hb.fresh p o ho⟩
    · intro o' ho'
      obtain rfl := Option.some.inj (ho.symm.trans ho')
      exact hname
    · intro o' ho'
      obtain rfl := Option.some.inj ho'
      refine ⟨hname, ⟨hsubs.erase id, ?_, ?_⟩, ?_, hothers⟩
      · show o.refCount - 1 = ((o.subscriptions.erase id).length : ℤ) + (pins p : ℤ)
        omega
      · show 0 < o.refCount - 1
        omega
      · simp [hsubs.mem_erase_iff, hgone]

/-! ### Calls -/

/-- The listeners of a subscription. -/
def Heap.listenersOf (h : Heap D) (id : SubscriptionId) : Option (List ListenerNode) :=
  (h.subscriptions id).map SubscriptionObject.listeners

theorem listenersOf_setSubscription (s : Option SubscriptionObject) :
    (h.setSubscription id s).listenersOf =
      Function.update h.listenersOf id (s.map SubscriptionObject.listeners) := by
  funext j
  unfold Heap.listenersOf
  rw [subscriptions_setSubscription]
  by_cases hj : j = id
  · subst hj
    simp
  · simp [hj]

theorem listenersOf_eq (hs : h.subscriptions id = some s) :
    h.listenersOf id = some s.listeners := by
  simp [Heap.listenersOf, hs]

/-- Setting a subscription that keeps its listeners. -/
theorem listenersOf_same {h' : Heap D} (hframe : h'.subscriptions = h.subscriptions)
    (hs : h.subscriptions id = some s) {s' : SubscriptionObject}
    (hlisteners : s'.listeners = s.listeners) :
    (h'.setSubscription id (some s')).listenersOf = h.listenersOf := by
  have hbase : h'.listenersOf = h.listenersOf := by
    funext j
    simp [Heap.listenersOf, hframe]
  rw [listenersOf_setSubscription, hbase, Function.update_eq_self_iff, listenersOf_eq hs,
    Option.map_some, hlisteners]

/-- The entries stay, and so does what each subscription holds. -/
theorem Booked.sameEntries (hb : Booked pins h) {h' : Heap D} (hobjects : h'.objects = h.objects)
    (hsymbols : h'.symbols = h.symbols) (hallocated : h'.allocated = h.allocated)
    (hholds : ∀ j name q, h'.Holds j name q ↔ h.Holds j name q)
    (hdistinct : ∀ j s, h'.subscriptions j = some s → (s.symbols.map Prod.fst).Nodup)
    (hcreated : ∀ j s, h'.subscriptions j = some s → j < h'.created) : Booked pins h' where
  named name q := by
    rw [hsymbols, hobjects]
    exact hb.named name q
  counted q o := by
    rw [hobjects]
    exact hb.counted q o
  fresh q o := by
    rw [hobjects, hallocated]
    exact hb.fresh q o
  pinned q := by
    rw [hobjects]
    exact hb.pinned q
  subscribed q o ho j := by
    rw [hobjects] at ho
    rw [hholds]
    exact hb.subscribed q o ho j
  linked j name q hj := by
    rw [hsymbols]
    exact hb.linked j name q ((hholds j name q).mp hj)
  distinct := hdistinct
  created := hcreated

/-- A subscription changes, but not its symbols. -/
theorem Booked.setSubscription (hb : Booked pins h) (hs : h.subscriptions id = some s)
    {s' : SubscriptionObject} (hsymbols : s'.symbols = s.symbols) :
    Booked pins (h.setSubscription id (some s')) := by
  refine hb.sameEntries rfl rfl rfl ?_ ?_ ?_
  · intro j name q
    rw [holds_setSubscription, hsymbols]
    split_ifs with hj
    · subst hj
      simp [Heap.Holds, hs]
    · exact Iff.rfl
  · refine forall_setSubscription (fun s'' hs'' => ?_) hb.distinct
    obtain rfl := Option.some.inj hs''
    rw [hsymbols]
    exact hb.distinct id s hs
  · exact forall_setSubscription (fun _ _ => hb.created id s hs) hb.created

/-- A subscription without symbols is freed. -/
theorem Booked.freeSubscription (hb : Booked pins h) (hs : h.subscriptions id = some s)
    (hsymbols : s.symbols = []) : Booked pins (h.setSubscription id none) := by
  refine hb.sameEntries rfl rfl rfl ?_ (forall_setSubscription (fun _ hx => nomatch hx) hb.distinct)
    (forall_setSubscription (fun _ hx => nomatch hx) hb.created)
  intro j name q
  unfold Heap.Holds
  rw [subscriptions_setSubscription]
  by_cases hj : j = id
  · subst hj
    simp [hs, hsymbols]
  · simp [hj]

theorem booked_createEventSubscription (hb : Booked pins h) (eventTypes subscrFlags : ℕ)
    (time : ℤ) : Booked pins (h.createEventSubscription eventTypes subscrFlags time) := by
  unfold Heap.createEventSubscription
  split_ifs with hunused
  · exact hb
  · have hnone : h.subscriptions h.created = none := by
      by_contra hsome
      obtain ⟨s, hs⟩ := Option.ne_none_iff_exists'.mp hsome
      exact absurd (hb.created h.created s hs) (lt_irrefl _)
    refine hb.sameEntries rfl rfl rfl ?_ ?_ ?_
    · intro j name q
      unfold Heap.Holds
      by_cases hj : j = h.created
      · subst hj
        simp [hnone]
      · simp [hj]
    · intro j s hs
      by_cases hj : j = h.created
      · subst hj
        simp only [Function.update_self, Option.some.injEq] at hs
        subst hs
        exact List.nodup_nil
      · simp only [Function.update_of_ne hj] at hs
        exact hb.distinct j s hs
    · intro j s hs
      by_cases hj : j = h.created
      · subst hj
        exact Nat.lt_succ_self _
      · simp only [Function.update_of_ne hj] at hs
        exact (hb.created j s hs).trans (Nat.lt_succ_self _)

/-- One symbol is added: no fault, and no listener changes. -/
theorem booked_addSymbol (hb : Booked pins h) (hopen : (h.subscriptions id).isSome)
    (symbol : Option WString) :
    ∃ h', h.addSymbol id symbol = .ok h' ∧ Booked pins h' ∧ h'.listenersOf = h.listenersOf := by
  obtain ⟨s, hs⟩ := Option.isSome_iff_exists.mp hopen
  cases symbol with
  | none => exact ⟨h, by simp only [Heap.addSymbol, hs], hb, rfl⟩
  | some symbolName =>
      simp only [Heap.addSymbol, hs]
      split_ifs with hskip
      · exact ⟨h, rfl, hb, rfl⟩
      obtain ⟨-, hnew⟩ := not_or.mp hskip
      obtain ⟨h', p, hcall, hframe, hb'⟩ := subscribeSymbol_keeps hb hs hnew
      rw [hcall]
      exact ⟨_, rfl, hb', listenersOf_same hframe.subscriptions hs rfl⟩

theorem isSome_listenersOf {h' : Heap D} (hlisteners : h'.listenersOf = h.listenersOf) :
    (h'.subscriptions id).isSome = (h.subscriptions id).isSome := by
  have hid := congrArg Option.isSome (congrFun hlisteners id)
  simpa [Heap.listenersOf] using hid

theorem booked_addSymbols (hb : Booked pins h) (hopen : (h.subscriptions id).isSome)
    (symbols : List (Option WString)) :
    ∃ h', Heap.addSymbols id symbols h = .ok h' ∧ Booked pins h' ∧
      h'.listenersOf = h.listenersOf := by
  induction symbols generalizing h with
  | nil => exact ⟨h, rfl, hb, rfl⟩
  | cons symbol symbols ih =>
      obtain ⟨h₁, hcall, hb₁, hlisteners⟩ := booked_addSymbol hb hopen symbol
      obtain ⟨h₂, hcalls, hb₂, hlisteners₂⟩ := ih hb₁ (isSome_listenersOf hlisteners ▸ hopen)
      refine ⟨h₂, ?_, hb₂, hlisteners₂.trans hlisteners⟩
      rw [Heap.addSymbols, hcall]
      exact hcalls

/-- One symbol is removed: no fault, no error, and no listener changes. -/
theorem booked_removeSymbol (hb : Booked pins h) (hopen : (h.subscriptions id).isSome)
    (symbol : Option WString) :
    ∃ h', h.removeSymbol id symbol = .ok (h', true) ∧ Booked pins h' ∧
      h'.listenersOf = h.listenersOf := by
  obtain ⟨s, hs⟩ := Option.isSome_iff_exists.mp hopen
  cases symbol with
  | none => exact ⟨h, by simp only [Heap.removeSymbol, hs], hb, rfl⟩
  | some symbolName =>
      simp only [Heap.removeSymbol, hs]
      split_ifs with hskip
      · exact ⟨h, rfl, hb, rfl⟩
      cases hfind : s.symbols.find? fun e => e.1 = symbolName with
      | none => exact ⟨h, rfl, hb, rfl⟩
      | some e =>
          obtain ⟨name, p⟩ := e
          have hname : name = symbolName := by simpa using List.find?_some hfind
          subst hname
          have hmem := List.mem_of_find?_eq_some hfind
          have hrest : ∀ e, (e ∈ s.symbols.filter fun e => e.1 ≠ name) ↔
              e ∈ s.symbols ∧ e ≠ (name, p) := by
            rintro ⟨name', q⟩
            rw [List.mem_filter, decide_eq_true_iff]
            refine and_congr_right fun hq => ⟨fun hne heq => hne (congrArg Prod.fst heq), ?_⟩
            rintro hne rfl
            refine hne (congrArg (Prod.mk name') ?_)
            exact Option.some.inj ((hb.linked id name' q ⟨s, hs, hq⟩).symm.trans
              (hb.linked id name' p ⟨s, hs, hmem⟩))
          obtain ⟨h', hcall, hframe, hb'⟩ := unsubscribeSymbol_keeps hb hs hmem hrest
            ((hb.distinct id s hs).sublist (List.filter_sublist.map _))
          dsimp only
          rw [hcall]
          exact ⟨_, rfl, hb', listenersOf_same hframe.subscriptions hs rfl⟩

theorem booked_removeSymbols (hb : Booked pins h) (hopen : (h.subscriptions id).isSome)
    (symbols : List (Option WString)) :
    ∃ h', Heap.removeSymbols id symbols h = .ok h' ∧ Booked pins h' ∧
      h'.listenersOf = h.listenersOf := by
  induction symbols generalizing h with
  | nil => exact ⟨h, rfl, hb, rfl⟩
  | cons symbol symbols ih =>
      obtain ⟨h₁, hcall, hb₁, hlisteners⟩ := booked_removeSymbol hb hopen symbol
      obtain ⟨h₂, hcalls, hb₂, hlisteners₂⟩ := ih hb₁ (isSome_listenersOf hlisteners ▸ hopen)
      refine ⟨h₂, ?_, hb₂, hlisteners₂.trans hlisteners⟩
      rw [Heap.removeSymbols, hcall]
      exact hcalls

/-- The operations on entries do not look at subscriptions. -/
theorem unsubscribeSymbol_setSubscription (x : Option SubscriptionObject) :
    (h.setSubscription id x).unsubscribeSymbol p id =
      (h.unsubscribeSymbol p id).map fun r => (r.1.setSubscription id x, r.2) := by
  unfold Heap.unsubscribeSymbol
  rw [objects_setSubscription]
  cases h.objects p with
  | none => rfl
  | some o =>
      have hself : ∀ h : Heap D, (h.setObject p (some { o with
          subscriptions := o.subscriptions.erase id })).objects p =
          some { o with subscriptions := o.subscriptions.erase id } :=
        fun _ => Function.update_self ..
      dsimp only
      rw [release_eq (hself _), release_eq (hself _)]
      split_ifs <;> rfl

theorem unsubscribeSymbol_frame {r : Heap D × Bool} (hcall : h.unsubscribeSymbol p id = .ok r) :
    Frame h r.1 := by
  unfold Heap.unsubscribeSymbol at hcall
  cases ho : h.objects p with
  | none =>
      rw [ho] at hcall
      cases hcall
  | some o =>
      have hself : (h.setObject p (some { o with
          subscriptions := o.subscriptions.erase id })).objects p =
          some { o with subscriptions := o.subscriptions.erase id } := Function.update_self ..
      rw [ho] at hcall
      dsimp only at hcall
      rw [release_eq hself] at hcall
      obtain rfl := Except.ok.inj hcall
      split_ifs <;> exact ⟨rfl, rfl, rfl⟩

/-- The loop of `closeEventSubscription` over symbols that the subscription still holds. -/
theorem unsubscribeAll_keeps {symbols : List (WString × SymbolPtr)}
    (hb : Booked pins (h.setSubscription id (some { s with symbols := symbols }))) :
    ∃ h', Heap.unsubscribeAll id symbols h = .ok h' ∧ Frame h h' ∧
      Booked pins (h'.setSubscription id (some { s with symbols := [] })) := by
  induction symbols generalizing h with
  | nil => exact ⟨h, rfl, ⟨rfl, rfl, rfl⟩, hb⟩
  | cons e symbols ih =>
      obtain ⟨name, p⟩ := e
      have hself : (h.setSubscription id (some { s with
          symbols := (name, p) :: symbols })).subscriptions id =
          some { s with symbols := (name, p) :: symbols } := Function.update_self ..
      have hdistinct := hb.distinct id _ hself
      obtain ⟨hnew, hnodup⟩ := List.nodup_cons.mp hdistinct
      have hrest : ∀ e, e ∈ symbols ↔ e ∈ (name, p) :: symbols ∧ e ≠ (name, p) := by
        intro e
        rw [List.mem_cons]
        constructor
        · intro he
          refine ⟨Or.inr he, ?_⟩
          rintro rfl
          exact hnew (List.mem_map_of_mem he)
        · rintro ⟨he | he, hne⟩
          · exact absurd he hne
          · exact he
      obtain ⟨hv, hcall, hframe, hb'⟩ :=
        unsubscribeSymbol_keeps hb hself List.mem_cons_self hrest hnodup
      -- the same call on the heap in which the subscription still has all its symbols
      rw [unsubscribeSymbol_setSubscription] at hcall
      cases hreal : h.unsubscribeSymbol p id with
      | error fault =>
          rw [hreal] at hcall
          cases hcall
      | ok r =>
          obtain ⟨h₁, res⟩ := r
          rw [hreal] at hcall
          obtain ⟨rfl, rfl⟩ := Prod.mk.inj (Except.ok.inj hcall)
          have hframe₁ := unsubscribeSymbol_frame hreal
          rw [setSubscription_setSubscription] at hb'
          obtain ⟨h₂, hcalls, hframe₂, hb₂⟩ := ih hb'
          refine ⟨h₂, ?_, ⟨hframe₂.subscriptions.trans hframe₁.subscriptions,
            hframe₂.created.trans hframe₁.created, hframe₂.nodes.trans hframe₁.nodes⟩, hb₂⟩
          rw [Heap.unsubscribeAll, hreal]
          exact hcalls

/-- A subscription is closed: no fault, and its listeners are gone. -/
theorem booked_closeEventSubscription (hb : Booked pins h)
    (hopen : (h.subscriptions id).isSome) :
    ∃ h', h.closeEventSubscription id = .ok h' ∧ Booked pins h' ∧
      h'.listenersOf = Function.update h.listenersOf id none := by
  obtain ⟨s, hs⟩ := Option.isSome_iff_exists.mp hopen
  have hself : h.setSubscription id (some { s with symbols := s.symbols }) = h := by
    show ({ h with subscriptions := _ } : Heap D) = h
    rw [← hs, Function.update_eq_self]
  obtain ⟨h', hcall, hframe, hb'⟩ := unsubscribeAll_keeps (by rw [hself]; exact hb)
  unfold Heap.closeEventSubscription
  rw [hs]
  dsimp only
  rw [hcall]
  have hfreed := hb'.freeSubscription (Function.update_self ..) rfl
  rw [setSubscription_setSubscription] at hfreed
  refine ⟨_, rfl, hfreed, ?_⟩
  rw [listenersOf_setSubscription]
  refine congrArg (fun f : SubscriptionId → Option (List ListenerNode) =>
    Function.update f id none) ?_
  funext j
  simp [Heap.listenersOf, hframe.subscriptions]

theorem booked_addListener (hb : Booked pins h) (hopen : (h.subscriptions id).isSome)
    (sets : SetOrder) (context : ListenerContext) :
    ∃ h', h.addListener sets id context = .ok h' ∧ Booked pins h' := by
  obtain ⟨s, hs⟩ := Option.isSome_iff_exists.mp hopen
  unfold Heap.addListener
  rw [hs]
  dsimp only
  split_ifs with hmem
  · exact ⟨h, rfl, hb⟩
  · have hset : Booked pins (h.setSubscription id (some { s with
        listeners := sets.insert s.listeners ⟨h.nodes, context⟩ })) :=
      hb.setSubscription hs rfl
    exact ⟨_, rfl, hset.sameEntries rfl rfl rfl (fun _ _ _ => Iff.rfl) hset.distinct
      hset.created⟩

theorem booked_removeListener (hb : Booked pins h) (hopen : (h.subscriptions id).isSome)
    (listener : ListenerPtr) :
    ∃ h', h.removeListener id listener = .ok h' ∧ Booked pins h' := by
  obtain ⟨s, hs⟩ := Option.isSome_iff_exists.mp hopen
  unfold Heap.removeListener
  rw [hs]
  exact ⟨_, rfl, hb.setSubscription hs rfl⟩

/-- No call touches freed memory, and every call keeps the agreement. -/
theorem booked_apply (hb : Booked pins h) (sets : SetOrder) (request : Request) :
    ∃ h', h.apply sets request = .ok h' ∧ Booked pins h' := by
  unfold Heap.apply
  split_ifs with husable
  · cases request with
    | create eventTypes subscrFlags time =>
        exact ⟨_, rfl, booked_createEventSubscription hb eventTypes subscrFlags time⟩
    | close id =>
        obtain ⟨h', hcall, hb', -⟩ := booked_closeEventSubscription hb (husable id rfl)
        exact ⟨h', hcall, hb'⟩
    | addSymbols id symbols =>
        obtain ⟨h', hcall, hb', -⟩ := booked_addSymbols hb (husable id rfl) symbols
        exact ⟨h', hcall, hb'⟩
    | removeSymbols id symbols =>
        obtain ⟨h', hcall, hb', -⟩ := booked_removeSymbols hb (husable id rfl) symbols
        exact ⟨h', hcall, hb'⟩
    | addListener id context => exact booked_addListener hb (husable id rfl) sets context
    | removeListener id listener => exact booked_removeListener hb (husable id rfl) listener
  · exact ⟨h, rfl, hb⟩

theorem booked_applyAll (hb : Booked pins h) (sets : SetOrder) (requests : List Request) :
    ∃ h', Heap.applyAll sets requests h = .ok h' ∧ Booked pins h' := by
  induction requests generalizing h with
  | nil => exact ⟨h, rfl, hb⟩
  | cons request requests ih =>
      obtain ⟨h₁, hcall, hb₁⟩ := booked_apply hb sets request
      obtain ⟨h₂, hcalls, hb₂⟩ := ih hb₁
      refine ⟨h₂, ?_, hb₂⟩
      rw [Heap.applyAll, hcall]
      exact hcalls

/-- No sequence of calls touches freed memory, and after it a subscription has a symbol if and
only if the entry of the symbol has the subscription; each entry counts its subscriptions; and
the context maps exactly the names of the live entries, all with a positive count, to these. -/
theorem bookkeeping (sets : SetOrder) (requests : List Request) :
    ∃ h : Heap D, Heap.applyAll sets requests .empty = .ok h ∧
      (∀ id s, h.subscriptions id = some s → ∀ name,
        name ∈ s.symbols.map Prod.fst ↔
          ∃ p o, h.symbols name = some p ∧ h.objects p = some o ∧ id ∈ o.subscriptions) ∧
      (∀ id s, h.subscriptions id = some s → ∀ e ∈ s.symbols, h.symbols e.1 = some e.2) ∧
      (∀ p o, h.objects p = some o →
        o.subscriptions.Nodup ∧ o.refCount = o.subscriptions.length ∧
          ∀ id ∈ o.subscriptions, (h.subscriptions id).isSome) ∧
      (∀ name, (h.symbols name).isSome ↔
        ∃ p o, h.objects p = some o ∧ o.name = name ∧ 0 < o.refCount) ∧
      ∀ name p, h.symbols name = some p → ∃ o, h.objects p = some o ∧ o.name = name := by
  obtain ⟨h, hcalls, hb⟩ := booked_applyAll booked_empty sets requests
  refine ⟨h, hcalls, ?_, ?_, ?_, ?_, ?_⟩
  · intro id s hs name
    constructor
    · intro hname
      obtain ⟨⟨name, p⟩, hmem, rfl⟩ := List.mem_map.mp hname
      obtain ⟨o, ho, -, howner⟩ := hb.entry ⟨s, hs, hmem⟩
      exact ⟨p, o, hb.linked id name p ⟨s, hs, hmem⟩, ho, howner⟩
    · rintro ⟨p, o, hp, ho, howner⟩
      obtain ⟨o', ho', rfl⟩ := (hb.named name p).mp hp
      obtain rfl := Option.some.inj (ho.symm.trans ho')
      obtain ⟨s', hs', hmem⟩ := (hb.subscribed p o ho id).mp howner
      obtain rfl := Option.some.inj (hs.symm.trans hs')
      exact List.mem_map_of_mem hmem
  · intro id s hs e he
    exact hb.linked id e.1 e.2 ⟨s, hs, he⟩
  · intro p o ho
    obtain ⟨hnodup, hcount, -⟩ := hb.counted p o ho
    refine ⟨hnodup, by simpa using hcount, fun id howner => ?_⟩
    obtain ⟨s, hs, -⟩ := (hb.subscribed p o ho id).mp howner
    rw [hs]
    rfl
  · intro name
    constructor
    · intro hsome
      obtain ⟨p, hp⟩ := Option.isSome_iff_exists.mp hsome
      obtain ⟨o, ho, hname⟩ := (hb.named name p).mp hp
      exact ⟨p, o, ho, hname, (hb.counted p o ho).pos⟩
    · rintro ⟨p, o, ho, hname, -⟩
      rw [(hb.named name p).mpr ⟨o, ho, hname⟩]
      rfl
  · intro name p hp
    exact (hb.named name p).mp hp

end DxFeed.EventSubscription
