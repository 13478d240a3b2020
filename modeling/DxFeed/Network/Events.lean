import DxFeed.Library.History
import DxFeed.Network.Reader

/-!
# The events of a connection

* `Admits`: what an event needs of the events in front of it;
* `Idle`, `Busy`: the invariant without and with a connection;
* `connect_spec`, `resolveAndConnect_spec`, `reestablish_spec`: what the calls that make a connection
  do to the invariant, and the events that they add.
-/

namespace DxFeed.Network

open History Properties

variable {E : Type}

/-! ### Events -/

/-- The attempts since the last resolution, the oldest first. -/
def sinceResolved (events : List (Event E)) : List (Attempt E) :=
  events.foldl (fun log e =>
    match e with
    | .resolved _ => []
    | .attempted t => log ++ [t]
    | _ => log) []

def Event.isConnected : Event E → Bool
  | .connected => true
  | _ => false

def Event.isNotified : Event E → Bool
  | .notified => true
  | _ => false

/-- There is a connection, of which the end has not been notified. -/
def Open (events : List (Event E)) : Prop :=
  events.countP Event.isConnected = events.countP Event.isNotified + 1

/-- The ends of all connections have been notified. -/
def Closed (events : List (Event E)) : Prop :=
  events.countP Event.isConnected = events.countP Event.isNotified

/-- The attempt uses the credentials of its address, or those of the API. -/
def Attempt.Isolated (api : Content) (t : Attempt E) : Prop :=
  addCredentials t.address api = some t.properties

/-- The description has the credentials of the address, or those of the API. -/
def DescriptionIsolated (api properties : Content) (address : Option AddressParser.Address) : Prop :=
  ∃ a q libraryVersion, address = some a ∧ addCredentials a api = some q ∧
    properties = withDefaults libraryVersion q

/-- The event may follow the others. -/
def Admits (api : Content) (before : List (Event E)) : Event E → Prop
  | .attempted t => Closed before ∧ t.Isolated api ∧
      ∀ u ∈ sinceResolved before, u.Before t.addrIndex t.infoIndex
  | .resolved _ | .connected => Closed before
  | .notified | .received => Open before
  | .described properties address => Open before ∧ DescriptionIsolated api properties address
  | .loginRepeated => False

section Events

variable {events : List (Event E)} {attempts : List (Attempt E)}

@[simp] theorem sinceResolved_attempted (t : Attempt E) :
    sinceResolved (events ++ [.attempted t]) = sinceResolved events ++ [t] :=
  List.foldl_concat ..

@[simp] theorem sinceResolved_resolved (success : Bool) :
    sinceResolved (events ++ [.resolved success]) = [] :=
  List.foldl_concat ..

@[simp] theorem sinceResolved_connected :
    sinceResolved (events ++ [.connected]) = sinceResolved events :=
  List.foldl_concat ..

@[simp] theorem sinceResolved_notified :
    sinceResolved (events ++ [.notified]) = sinceResolved events :=
  List.foldl_concat ..

@[simp] theorem sinceResolved_received :
    sinceResolved (events ++ [.received]) = sinceResolved events :=
  List.foldl_concat ..

@[simp] theorem sinceResolved_described (properties : Content)
    (address : Option AddressParser.Address) :
    sinceResolved (events ++ [.described properties address]) = sinceResolved events :=
  List.foldl_concat ..

theorem sinceResolved_attempts :
    sinceResolved (events ++ attempts.map .attempted) = sinceResolved events ++ attempts := by
  induction attempts using List.reverseRecOn with
  | nil => simp
  | append_singleton attempts t ih =>
      rw [List.map_append, ← List.append_assoc, List.map_singleton, sinceResolved_attempted, ih,
        List.append_assoc]

theorem closed_attempts : Closed (events ++ attempts.map .attempted) ↔ Closed events := by
  have hconnected : (attempts.map Event.attempted).countP Event.isConnected = 0 := by
    simp [List.countP_map, Function.comp_def, Event.isConnected]
  have hnotified : (attempts.map Event.attempted).countP Event.isNotified = 0 := by
    simp [List.countP_map, Function.comp_def, Event.isNotified]
  rw [Closed, Closed, List.countP_append, List.countP_append, hconnected, hnotified]
  rfl

theorem open_connected (h : Closed events) : Open (events ++ [.connected]) := by
  simpa [Open, Closed, Event.isConnected, Event.isNotified] using h

theorem closed_notified (h : Open events) : Closed (events ++ [.notified]) := by
  simpa [Open, Closed, Event.isConnected, Event.isNotified] using h

theorem closed_resolved (h : Closed events) (success : Bool) :
    Closed (events ++ [.resolved success]) := by
  simpa [Closed, Event.isConnected, Event.isNotified] using h

theorem open_received (h : Open events) : Open (events ++ [.received]) := by
  simpa [Open, Event.isConnected, Event.isNotified] using h

theorem open_described (h : Open events) (properties : Content)
    (address : Option AddressParser.Address) : Open (events ++ [.described properties address]) := by
  simpa [Open, Event.isConnected, Event.isNotified] using h

/-- The attempts of a call behind other events. -/
theorem admitted_attempts {api : Content} (hevents : Admitted (Admits api) events)
    (hclosed : Closed events) (hisolated : ∀ t ∈ attempts, t.Isolated api)
    (hbefore : ∀ t ∈ attempts, ∀ u ∈ sinceResolved events, u.Before t.addrIndex t.infoIndex)
    (hsorted : attempts.Pairwise fun t u => t.Before u.addrIndex u.infoIndex) :
    Admitted (Admits api) (events ++ attempts.map .attempted) := by
  induction attempts using List.reverseRecOn with
  | nil => simpa using hevents
  | append_singleton attempts t ih =>
      obtain ⟨hfront, -, hlast⟩ := List.pairwise_append.mp hsorted
      have hmem : ∀ u ∈ attempts, u ∈ attempts ++ [t] := fun u hu => List.mem_append_left _ hu
      rw [List.map_append, ← List.append_assoc]
      refine admitted_concat.mpr ⟨ih (fun u hu => hisolated u (hmem u hu))
        (fun u hu => hbefore u (hmem u hu)) hfront, ?_, hisolated t (by simp), ?_⟩
      · exact closed_attempts.mpr hclosed
      · intro u hu
        rw [sinceResolved_attempts] at hu
        rcases List.mem_append.mp hu with hold | hnew
        · exact hbefore t (by simp) u hold
        · exact hlast u hnew t (by simp)

end Events

/-! ### Invariants -/

/-- What a connection keeps, with and without an open socket. -/
structure Kept (api : Content) (events : List (Event E)) (context : NetworkContext E) : Prop where
  index : context.addrContext.curAddrIndex ≤ context.addrContext.elements.length
  behind : ∀ t ∈ sinceResolved events, t.Behind context
  admitted : Admitted (Admits api) events

/-- There is no connection. -/
structure Idle (api : Content) (events : List (Event E)) (context : NetworkContext E) : Prop
    extends Kept api events context where
  backup : HasBackup api context
  closed : Closed events
  status : context.status ≠ .loginRequired
  socket : context.socket = false

/-- The properties are those for the current address, maybe with those of a description. -/
def Serves (api : Content) (context : NetworkContext E) : Prop :=
  ∃ a q, context.currentAddress = some a ∧ addCredentials a.toAddress api = some q ∧
    (context.properties = q ∨ ∃ libraryVersion, context.properties = withDefaults libraryVersion q)

/-- There is a connection to the current address. -/
structure Busy (api : Content) (events : List (Event E)) (context : NetworkContext E) : Prop
    extends Kept api events context where
  backup : context.propBackup = some api
  isOpen : Open events
  current : context.currentAddress.isSome
  serves : context.socket = true → Serves api context

variable {api : Content} {events : List (Event E)} {context context' : NetworkContext E}

/-! ### Connecting -/

/-- The two ends of a call of `dx_connect_to_resolved_addresses`. -/
theorem connect_tries (answers : ℕ → ℕ → Bool)
    (hindex : context.addrContext.curAddrIndex ≤ context.addrContext.elements.length) :
    ∃ context₁ attempts loopEnd, Tries answers context context₁ attempts loopEnd ∧
      ((loopEnd = .left ∧ context₁.currentAddress.isSome ∧
          connect answers context =
            ({ context₁ with socket := true }, attempts.map .attempted ++ [.connected], true)) ∨
        ((loopEnd = .left → context₁.currentAddress = none) ∧
          connect answers context = (context₁, attempts.map .attempted, false))) := by
  have htries := @connectLoop_tries _ answers context
    (context.addrContext.elements.length - context.addrContext.curAddrIndex) (by omega)
  generalize hloop : connectLoop answers
    (context.addrContext.elements.length - context.addrContext.curAddrIndex) context = r at htries
  obtain ⟨context₁, attempts, loopEnd⟩ := r
  refine ⟨context₁, attempts, loopEnd, htries, ?_⟩
  have hle := htries.index_le hindex
  unfold connect connectToResolvedAddresses
  simp only [hloop]
  cases loopEnd with
  | failed => exact Or.inr ⟨nofun, by simp⟩
  | left =>
      by_cases hend : context₁.addrContext.curAddrIndex = context₁.addrContext.elements.length
      · refine Or.inr ⟨fun _ => List.getElem?_eq_none hend.ge, ?_⟩
        simp [if_pos hend]
      · refine Or.inl ⟨rfl, ?_, ?_⟩
        · rw [NetworkContext.currentAddress, List.getElem?_eq_getElem (lt_of_le_of_ne hle hend)]
          rfl
        · simp [if_neg hend]

theorem connect_spec (h : Idle api events context) (answers : ℕ → ℕ → Bool) :
    if (connect answers context).2.2 then
      Busy api (events ++ (connect answers context).2.1) (connect answers context).1
    else Idle api (events ++ (connect answers context).2.1) (connect answers context).1 := by
  obtain ⟨context₁, attempts, loopEnd, htries, hends⟩ := connect_tries answers h.index
  obtain ⟨hbackup, hsome, hisolated⟩ := htries.credentials h.backup
  have hadmitted : Admitted (Admits api) (events ++ attempts.map .attempted) :=
    admitted_attempts h.admitted h.closed hisolated
      (fun t ht u hu => h.behind u hu _ _ (htries.due ht).1) htries.sorted
  have hkept : Kept api (events ++ attempts.map .attempted) context₁ := by
    refine ⟨htries.index_le h.index, fun t ht i j hdue => ?_, hadmitted⟩
    rw [sinceResolved_attempts] at ht
    rcases List.mem_append.mp ht with hold | hnew
    · exact h.behind t hold i j (htries.shrinks hdue)
    · exact htries.behind hnew i j hdue
  have hclosed : Closed (events ++ attempts.map .attempted) := closed_attempts.mpr h.closed
  rcases hends with ⟨hend, hcurrent, hconnect⟩ | ⟨-, hconnect⟩
  · rw [hconnect, if_pos rfl, ← List.append_assoc]
    obtain ⟨a, ha⟩ := Option.isSome_iff_exists.mp hcurrent
    obtain ⟨-, t, ht, -, haddress, hproperties⟩ := htries.accepted hend ha
    refine ⟨⟨hkept.index, ?_, admitted_concat.mpr ⟨hadmitted, hclosed⟩⟩, ?_, ?_, hcurrent, ?_⟩
    · rw [sinceResolved_connected]
      exact hkept.behind
    · exact hsome (List.ne_nil_of_mem ht)
    · exact open_connected hclosed
    · refine fun _ => ⟨a, t.properties, ha, ?_, Or.inl hproperties.symm⟩
      rw [← haddress]
      exact hisolated t ht
  · rw [hconnect, if_neg (by simp)]
    refine ⟨hkept, hbackup, hclosed, ?_, htries.socket_eq.trans h.socket⟩
    rcases htries.status with hsame | hconnected
    · rw [hsame]
      exact h.status
    · rw [hconnected]
      decide

/-! ### Resolving -/

theorem length_swap {α : Type} (xs : List α) (i j : ℕ) : (swap xs i j).length = xs.length := by
  unfold swap
  split
  · simp
  · rfl

theorem length_shuffleLoop {α : Type} (draw : ℕ → ℕ) (n : ℕ) (xs : List α) :
    (shuffleLoop draw n xs).length = xs.length := by
  induction n generalizing xs with
  | zero => rfl
  | succ n ih => rw [shuffleLoop, ih, length_swap]

/-- The addresses are all that a resolution changes. -/
theorem resolveAddress_spec (answer : Resolution E)
    (hindex : context.addrContext.curAddrIndex ≤ context.addrContext.elements.length) :
    ∃ elements, (resolveAddress answer context).1 =
        { context with addrContext := ⟨elements, context.addrContext.curAddrIndex⟩ } ∧
      context.addrContext.curAddrIndex ≤ elements.length := by
  unfold resolveAddress
  split
  · exact ⟨_, rfl, hindex⟩
  · exact ⟨_, rfl, hindex⟩
  · simp only
    split_ifs
    · exact ⟨_, rfl, by rw [List.length_append]; omega⟩
    · refine ⟨_, rfl, ?_⟩
      rw [shuffleAddrs, length_shuffleLoop, List.length_append]
      omega

theorem Idle.resolved (h : Idle api events context) (answer : Resolution E) (success : Bool) :
    Idle api (events ++ [.resolved success]) (resolveAddress answer context).1 := by
  obtain ⟨elements, hcontext, hindex⟩ := resolveAddress_spec answer h.index
  rw [hcontext]
  refine ⟨⟨hindex, ?_, admitted_concat.mpr ⟨h.admitted, h.closed⟩⟩, h.backup,
    closed_resolved h.closed success, h.status, h.socket⟩
  rw [sinceResolved_resolved]
  exact nofun

theorem Idle.cleared (h : Idle api events context) :
    Idle api events { context with addrContext := clearAddrContextData context.addrContext } := by
  have hkept : Kept api events
      { context with addrContext := clearAddrContextData context.addrContext } := by
    refine ⟨?_, ?_, h.admitted⟩
    · have hindex := h.index
      unfold clearAddrContextData
      split
      · exact hindex
      · exact le_rfl
    · rintro t - i j ⟨a, ha, -⟩
      simp only [clearAddrContextData] at ha
      split at ha
      · rename_i hnil
        simp [hnil] at ha
      · simp at ha
  exact ⟨hkept, h.backup, h.closed, h.status, h.socket⟩

theorem resolveAndConnect_spec (h : Idle api events context) (resolution : Resolution E)
    (answers : ℕ → ℕ → Bool) :
    if (resolveAndConnect resolution answers context).2.2 then
      Busy api (events ++ (resolveAndConnect resolution answers context).2.1)
        (resolveAndConnect resolution answers context).1
    else
      Idle api (events ++ (resolveAndConnect resolution answers context).2.1)
        (resolveAndConnect resolution answers context).1 := by
  unfold resolveAndConnect
  cases hresolve : resolveAddress resolution context with
  | mk context₁ success =>
      have hidle := h.resolved resolution success
      rw [hresolve] at hidle
      cases success with
      | false => exact hidle
      | true =>
          simp only
          rw [← List.singleton_append, ← List.append_assoc]
          exact connect_spec hidle answers

theorem reestablish_spec (h : Idle api events context) (world : Reconnection E) :
    if (reestablishConnection world context).2.2 then
      Busy api (events ++ (reestablishConnection world context).2.1)
        (reestablishConnection world context).1
    else
      Idle api (events ++ (reestablishConnection world context).2.1)
        (reestablishConnection world context).1 := by
  unfold reestablishConnection
  rw [if_neg h.status]
  have hconnect := connect_spec h world.answers
  cases hcall : connect world.answers context with
  | mk context₁ r =>
      obtain ⟨events₁, success⟩ := r
      rw [hcall] at hconnect
      cases success with
      | true => exact hconnect
      | false =>
          simp only
          rw [← List.append_assoc]
          exact resolveAndConnect_spec (Idle.cleared hconnect) world.resolution world.again

end DxFeed.Network
