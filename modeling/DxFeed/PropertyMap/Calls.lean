import DxFeed.PropertyMap.Operations

/-!
# Calls on property maps

* `PropertyOp`, `PropertyOp.exec`: a call of one of the functions on some maps, with any allocations;
* `PropertyOp.effect`: what the call should do to their contents;
* `Run`: some calls, one after the other, each under a condition;
* `Meets`: an insertion finds a place, and a clone of another map gets its strings;
* `Keeps`, `Run.keeps`: under that condition the maps are sorted, they have the contents that they
  should have, and a bulk change that fails changes nothing.
-/

namespace DxFeed.Properties

/-- A call of `dx_property_map_set`, `dx_property_map_set_many` or `dx_property_map_clone`. -/
inductive PropertyOp (M : Type*)
  | set (map : M) (key value : Option WString)
  | setMany (map : M) (other : List PropertyItem)
  | clone (src dest : M)

variable {M : Type*} [DecidableEq M]

/-- The maps behind a function that ends with one of them. -/
def withMap (maps : M → PropertyMap) (map : M) (r : Bool × PropertyMap × Allocations) :
    Bool × (M → PropertyMap) :=
  (r.1, Function.update maps map r.2.1)

/-- The call: whether it returns `true`, and the maps.  The destination of a clone is freed first. -/
def PropertyOp.exec (maps : M → PropertyMap) (a : Allocations) :
    PropertyOp M → Except PropertyFault (Bool × (M → PropertyMap))
  | .set map key value => (Properties.set (maps map) key value a).map (withMap maps map)
  | .setMany map other => (Properties.setMany (maps map) other a).map (withMap maps map)
  | .clone src dest =>
      (Properties.clone (Function.update maps dest .empty src) a).map (withMap maps dest)

/-- What the call should do to the contents; a clone that fails leaves an empty map. -/
def PropertyOp.effect (contents : M → Content) (success : Bool) : PropertyOp M → M → Content
  | .set map key value =>
      if success then Function.update contents map (setContent (contents map) key value)
      else contents
  | .setMany map other =>
      if success then Function.update contents map (setContents (contents map) other)
      else contents
  | .clone src dest =>
      Function.update contents dest (if success then contents src else fun _ => none)

/-- A condition on a call, on the maps in front of it and on its allocations. -/
abbrev Condition (M : Type*) := (M → PropertyMap) → Allocations → PropertyOp M → Prop

/-- Some calls, from empty maps on: the maps, and the contents that they should have. -/
inductive Run (meets : Condition M) : (M → PropertyMap) → (M → Content) → Prop
  | start : Run meets (fun _ => .empty) (fun _ _ => none)
  | call {maps : M → PropertyMap} {contents : M → Content} (run : Run meets maps contents)
      (op : PropertyOp M) (a : Allocations) (hmeets : meets maps a op) {success : Bool}
      {maps' : M → PropertyMap} (hexec : op.exec maps a = .ok (success, maps')) :
      Run meets maps' (op.effect contents success)

/-- An insertion finds a place, and a clone of another map gets its strings. -/
def Meets : Condition M := fun maps a op =>
  match op with
  | .set map key value => FindsPlace (maps map) key value a
  | .setMany map _ => CopiesStrings (maps map) a
  | .clone src dest => src ≠ dest ∧ CopiesStrings (maps src) a

/-- What the calls should keep. -/
structure Keeps (meets : Condition M) (maps : M → PropertyMap) (contents : M → Content) :
    Prop where
  strings : ∀ map, HasStrings (maps map).elements
  sorted : ∀ map, (maps map).elements.Pairwise fun x y => propertyItemComparator x y < 0
  lookup : ∀ map key, tryGetValue (maps map) key = .ok ((contents map key).map some)
  goesOn : ∀ a op, meets maps a op → ∃ success maps', op.exec maps a = .ok (success, maps')
  atomic : ∀ a map other success maps', meets maps a (.setMany map other) →
    PropertyOp.exec maps a (.setMany map other) = .ok (success, maps') →
      if success then ∀ item ∈ other, item.key.isSome ∧ item.value.isSome else maps' = maps

/-! ### One call -/

variable {maps maps' : M → PropertyMap} {contents : M → Content} {a : Allocations}

/-- Another map at one place. -/
theorem valid_update (hvalid : ∀ map, Valid (maps map)) (map : M) {props : PropertyMap}
    (hprops : Valid props) (map' : M) : Valid (Function.update maps map props map') := by
  by_cases h : map' = map
  · subst h
    rw [Function.update_self]
    exact hprops
  · rw [Function.update_of_ne h]
    exact hvalid map'

theorem content_update (maps : M → PropertyMap) (map : M) (props : PropertyMap) :
    (fun map' => content (Function.update maps map props map')) =
      Function.update (fun map' => content (maps map')) map (content props) := by
  funext map'
  by_cases h : map' = map
  · subst h
    rw [Function.update_self, Function.update_self]
  · rw [Function.update_of_ne h, Function.update_of_ne h]

/-- A function on one of the maps leaves the others. -/
theorem withMap_spec (hvalid : ∀ map, Valid (maps map)) (map : M)
    {r : Except PropertyFault (Bool × PropertyMap × Allocations)}
    {failed succeeded : PropertyMap → Prop} {contentFailed contentSucceeded : Content}
    (hends : EndsAs r failed succeeded)
    (hfailed : ∀ props, failed props → Valid props ∧ content props = contentFailed)
    (hsucceeded : ∀ props, succeeded props → Valid props ∧ content props = contentSucceeded) :
    ∃ success maps', r.map (withMap maps map) = .ok (success, maps') ∧
      (∀ map', Valid (maps' map')) ∧
      (fun map' => content (maps' map')) = Function.update (fun map' => content (maps map')) map
        (if success then contentSucceeded else contentFailed) := by
  obtain ⟨success, props, a', rfl, hends⟩ := hends
  refine ⟨success, Function.update maps map props, rfl, ?_⟩
  rw [content_update]
  cases success with
  | false =>
      obtain ⟨hprops, rfl⟩ := hfailed props hends
      exact ⟨valid_update hvalid map hprops, rfl⟩
  | true =>
      obtain ⟨hprops, rfl⟩ := hsucceeded props hends
      exact ⟨valid_update hvalid map hprops, rfl⟩

/-- A call that leaves a content where it fails. -/
theorem update_of_failed (contents : M → Content) (map : M) (success : Bool) (new : Content) :
    Function.update contents map (if success then new else contents map) =
      if success then Function.update contents map new else contents := by
  cases success with
  | false => exact Function.update_eq_self map contents
  | true => rfl

/-- A call under the condition does what it should. -/
theorem PropertyOp.exec_spec (hvalid : ∀ map, Valid (maps map)) {op : PropertyOp M}
    (hmeets : Meets maps a op) :
    ∃ success maps', op.exec maps a = .ok (success, maps') ∧ (∀ map, Valid (maps' map)) ∧
      (fun map => content (maps' map)) = op.effect (fun map => content (maps map)) success := by
  cases op with
  | set map key value =>
      obtain ⟨success, maps', hexec, hvalid', hcontents⟩ := withMap_spec hvalid map
        ((hvalid map).set hmeets) (fun _ hprops => hprops) fun _ hprops => ⟨hprops.1, hprops.2.1⟩
      refine ⟨success, maps', hexec, hvalid', ?_⟩
      rw [hcontents, effect]
      exact update_of_failed (fun map => content (maps map)) map success _
  | setMany map other =>
      have hsame : ∀ props, props = maps map → Valid props ∧ content props = content (maps map) := by
        rintro props rfl
        exact ⟨hvalid map, rfl⟩
      obtain ⟨success, maps', hexec, hvalid', hcontents⟩ := withMap_spec hvalid map
        ((hvalid map).setMany hmeets other) hsame fun _ hprops => ⟨hprops.1, hprops.2.1⟩
      refine ⟨success, maps', hexec, hvalid', ?_⟩
      rw [hcontents, effect]
      exact update_of_failed (fun map => content (maps map)) map success _
  | clone src dest =>
      obtain ⟨hne, hcopies⟩ := hmeets
      rw [exec, Function.update_of_ne hne]
      exact withMap_spec hvalid dest ((hvalid src).clone hcopies)
        (fun props hprops => hprops ▸ ⟨valid_empty, content_empty⟩)
        fun props hprops => hprops ▸ ⟨(hvalid src).valid_copyOf, (hvalid src).content_copyOf⟩

/-- `dx_property_map_set_many` gets all its strings, or no map changes. -/
theorem PropertyOp.exec_setMany (hvalid : ∀ map, Valid (maps map)) {map : M}
    {other : List PropertyItem} (hmeets : Meets maps a (.setMany map other)) {success : Bool}
    (hexec : PropertyOp.exec maps a (.setMany map other) = .ok (success, maps')) :
    if success then ∀ item ∈ other, item.key.isSome ∧ item.value.isSome else maps' = maps := by
  obtain ⟨success', props, a', hset, hends⟩ := (hvalid map).setMany hmeets other
  rw [exec, hset] at hexec
  simp only [Except.map, withMap, Except.ok.injEq, Prod.mk.injEq] at hexec
  obtain ⟨rfl, rfl⟩ := hexec
  cases success' with
  | false =>
      have hsame : props = maps map := hends
      rw [hsame, Function.update_eq_self]
      rfl
  | true => exact hends.2.2

/-! ### Runs -/

/-- Calls under the condition keep the maps valid. -/
theorem Run.valid (hrun : Run Meets maps contents) :
    (∀ map, Valid (maps map)) ∧ (fun map => content (maps map)) = contents := by
  induction hrun with
  | start => exact ⟨fun _ => valid_empty, rfl⟩
  | call run op a hmeets hexec ih =>
      obtain ⟨hvalid, hcontents⟩ := ih
      obtain ⟨success, maps', hexec', hvalid', hcontents'⟩ := PropertyOp.exec_spec hvalid hmeets
      rw [hexec] at hexec'
      simp only [Except.ok.injEq, Prod.mk.injEq] at hexec'
      obtain ⟨rfl, rfl⟩ := hexec'
      exact ⟨hvalid', hcontents' ▸ hcontents ▸ rfl⟩

/-- In every run whose calls meet the condition, the maps are strictly sorted, a lookup returns the
last value that was set, a clone has the content of its source, and a bulk change sets all pairs in
order or leaves the maps as they were. -/
theorem Run.keeps (hrun : Run Meets maps contents) : Keeps Meets maps contents := by
  obtain ⟨hvalid, rfl⟩ := hrun.valid
  exact {
    strings := fun map => (hvalid map).strings
    sorted := fun map => (hvalid map).sorted.imp fun {x y} hlt =>
      (propertyItemComparator_orders.neg_iff x y).mpr hlt
    lookup := fun map key => (hvalid map).tryGetValue key
    goesOn := by
      intro a op hmeets
      obtain ⟨success, maps', hexec, -⟩ := PropertyOp.exec_spec hvalid hmeets
      exact ⟨success, maps', hexec⟩
    atomic := fun a map other success maps' hmeets hexec =>
      PropertyOp.exec_setMany hvalid hmeets hexec }

/-! ### Two maps -/

/-- Two maps, by the two values of `Bool`. -/
def twoMaps (first second : PropertyMap) : Bool → PropertyMap
  | true => first
  | false => second

theorem Run.callTwo {meets : Condition Bool} {maps : Bool → PropertyMap} {contents : Bool → Content}
    (run : Run meets maps contents) (op : PropertyOp Bool) (a : Allocations)
    (hmeets : meets maps a op) {success : Bool} {first second : PropertyMap}
    (hexec : (op.exec maps a).map (fun r => (r.1, r.2 true, r.2 false)) =
      .ok (success, first, second)) :
    Run meets (twoMaps first second) (op.effect contents success) := by
  cases h : op.exec maps a with
  | error e =>
      rw [h] at hexec
      exact absurd hexec (by simp [Except.map])
  | ok r =>
      rw [h] at hexec
      obtain ⟨success', maps'⟩ := r
      simp only [Except.map, Except.ok.injEq, Prod.mk.injEq] at hexec
      obtain ⟨rfl, rfl, rfl⟩ := hexec
      have hmaps : twoMaps (maps' true) (maps' false) = maps' := by
        funext map
        cases map <;> rfl
      rw [hmaps]
      exact .call run op a hmeets h

/-- A pair of strings of one unit. -/
def unitPair (key value : UInt16) : PropertyItem := ⟨some [key], some [value]⟩

/-- Calls that set three values, set two pairs at once, set two pairs without the memory for the
second one, clone the map, and change the map behind its clone. -/
def severalCalls : List (PropertyOp Bool × Bool) :=
  [(.set true (some [98]) (some [120]), true),
    (.set true (some [97]) (some [121]), true),
    (.set true (some [98]) (some [122]), true),
    (.setMany true [unitPair 99 117, unitPair 97 118], true),
    (.setMany true [unitPair 97 120, unitPair 100 119], false),
    (.clone true false, true),
    (.set true (some [97]) (some [119]), true)]

theorem Run.keeps_severalCalls :
    Keeps Meets
      (twoMaps ⟨[unitPair 97 119, unitPair 98 122, unitPair 99 117, default], 3, 4⟩
        ⟨[unitPair 97 118, unitPair 98 122, unitPair 99 117], 3, 3⟩)
      (severalCalls.foldl (fun contents call => call.1.effect contents call.2)
        fun _ _ => none) := by
  have hfirst : Run Meets (twoMaps ⟨[unitPair 98 120], 1, 1⟩ .empty) _ :=
    .callTwo .start (.set true (some [98]) (some [120])) (fun _ => true)
      (fun _ _ _ => Or.inl rfl) rfl
  have hfront : Run Meets (twoMaps ⟨[unitPair 97 121, unitPair 98 120], 2, 2⟩ .empty) _ :=
    .callTwo hfirst (.set true (some [97]) (some [121])) (fun _ => true)
      (fun _ _ _ => Or.inl rfl) rfl
  have hchange : Run Meets (twoMaps ⟨[unitPair 97 121, unitPair 98 122], 2, 2⟩ .empty) _ :=
    .callTwo hfront (.set true (some [98]) (some [122])) (fun _ => true)
      (fun _ _ _ => Or.inl rfl) rfl
  have hmany : Run Meets (twoMaps ⟨[unitPair 97 118, unitPair 98 122, unitPair 99 117, default],
      3, 4⟩ .empty) _ :=
    .callTwo hchange (.setMany true [unitPair 99 117, unitPair 97 118]) (fun _ => true)
      (fun _ _ _ => rfl) rfl
  have hrefused : Run Meets (twoMaps ⟨[unitPair 97 118, unitPair 98 122, unitPair 99 117, default],
      3, 4⟩ .empty) _ :=
    .callTwo hmany (.setMany true [unitPair 97 120, unitPair 100 119]) (fun k => k < 8)
      (fun _ k (hk : k < 6) => decide_eq_true (by omega)) rfl
  have hclone : Run Meets (twoMaps ⟨[unitPair 97 118, unitPair 98 122, unitPair 99 117, default],
      3, 4⟩ ⟨[unitPair 97 118, unitPair 98 122, unitPair 99 117], 3, 3⟩) _ :=
    .callTwo hrefused (.clone true false) (fun _ => true) ⟨nofun, fun _ _ _ => rfl⟩ rfl
  exact Run.keeps (.callTwo hclone (.set true (some [97]) (some [119])) (fun _ => true)
    (fun _ _ _ => Or.inr (by decide)) rfl)

/-- A map with one pair. -/
def onePair : PropertyMap := ⟨[unitPair 97 98], 1, 1⟩

/-- The clone of one pair whose key is not copied, although it returns `true`. -/
def failedCopy : PropertyMap := ⟨[⟨none, some [98]⟩], 1, 1⟩

theorem not_keeps_failedCopy :
    ¬ ∀ (maps : Bool → PropertyMap) (contents : Bool → Content),
      Run (fun _ _ _ => True) maps contents → Keeps (fun _ _ _ => True) maps contents := by
  intro hkeeps
  have hset : Run (fun _ _ _ => True) (twoMaps onePair .empty) _ :=
    .callTwo .start (.set true (some [97]) (some [98])) (fun _ => true) trivial rfl
  have hclone : Run (fun _ _ _ => True) (twoMaps onePair failedCopy) _ :=
    .callTwo hset (.clone true false) (fun k => k != 1) trivial rfl
  have hlookup := (hkeeps _ _ hclone).lookup false [97]
  exact absurd hlookup nofun

end DxFeed.Properties
