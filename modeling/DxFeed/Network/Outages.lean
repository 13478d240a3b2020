import DxFeed.Network.Runs

/-!
# Outages

* `connect_iff`, `reestablishConnection_iff`: a connection comes about exactly when one of the
  endpoints that are still to be tried accepts, or else one of a new resolution;
* `lost_connection`: a lost connection is notified in the next round, except when a login is
  required and there are credentials for it; then no number of failing reads ends the silence.
-/

namespace DxFeed.Network

open AddressParser Properties

variable {E : Type} {api : Content} {events : List (Event E)} {context context' : NetworkContext E}
  {answers : ℕ → ℕ → Bool} {attempts : List (Attempt E)} {loopEnd : LoopEnd}

/-! ### Credentials that can be encoded -/

/-- The length of the credentials is an `int`. -/
def Encodable (address : Address) : Prop :=
  ∀ username ∈ address.username, ∀ password ∈ address.password,
    username.length + 1 + password.length < 2 ^ 31

/-- The credentials of all addresses can be encoded. -/
def AllEncodable (context : NetworkContext E) : Prop :=
  ∀ a ∈ context.addrContext.elements, Encodable a.toAddress

theorem addCredentials_ne_none {address : Address} (h : Encodable address)
    (properties : Content) : addCredentials address properties ≠ none := by
  unfold addCredentials
  split
  · rename_i username password husername hpassword hauth
    have hlength : 0 < (username ++ chars [':'] ++ password).length ∧
        (username ++ chars [':'] ++ password).length < 2 ^ 31 := by
      have hshort := h username husername password hpassword
      simp only [List.length_append, chars, List.map_cons, List.map_nil, List.length_singleton]
      omega
    have hprinted : ¬ sprintf (username ++ chars [':'] ++ password) ≤ 0 := by
      rw [sprintf, if_pos hlength.2]
      omega
    rw [configureBasicAuth, getBasicAuthData, if_neg hprinted, Base64.dxBase64Encode_eq, if_pos]
    · simp
    · exact (Base64.length_encoded _ (by omega)).le
  · exact Option.some_ne_none _

theorem Tries.loopEnd_eq (h : Tries answers context context' attempts loopEnd)
    (hencodable : AllEncodable context) : loopEnd = .left := by
  induction h with
  | past => rfl
  | marked _ _ _ ih => exact ih hencodable
  | noCredentials hcur _ hnone =>
      have hmem := List.mem_of_getElem? hcur
      exact absurd hnone (addCredentials_ne_none (hencodable _ hmem) _)
  | connected => rfl
  | refused hcur _ _ hvisit _ _ ih =>
      refine ih fun a ha => ?_
      rw [elements_nextAddress, elements_visited] at ha
      rcases List.mem_or_eq_of_mem_set ha with hold | rfl
      · exact hencodable a hold
      · have hmem := hencodable _ (List.mem_of_getElem? hcur)
        rw [hvisit.same]
        exact hmem

theorem connect_iff (hencodable : AllEncodable context)
    (hindex : context.addrContext.curAddrIndex ≤ context.addrContext.elements.length) :
    (connect answers context).2.2 = true ↔ ∃ i j, DueAt context i j ∧ answers i j = true := by
  obtain ⟨context₁, attempts, loopEnd, htries, hends⟩ := connect_tries answers hindex
  have hleft := htries.loopEnd_eq hencodable
  rcases hends with ⟨-, hcurrent, hconnect⟩ | ⟨hpast, hconnect⟩
  · rw [hconnect]
    obtain ⟨a, ha⟩ := Option.isSome_iff_exists.mp hcurrent
    obtain ⟨-, t, ht, haccepted, -⟩ := htries.accepted hleft ha
    obtain ⟨hdue, hanswer⟩ := htries.due ht
    exact iff_of_true rfl ⟨_, _, hdue, hanswer.trans haccepted⟩
  · rw [hconnect]
    refine iff_of_false nofun ?_
    rintro ⟨i, j, hdue, hanswer⟩
    have hrefused := htries.refused_all hleft (hpast hleft) hdue
    exact absurd (hanswer.symm.trans hrefused) nofun

/-! ### A new resolution -/

theorem perm_swap {α : Type} (xs : List α) (i j : ℕ) : (swap xs i j).Perm xs := by
  unfold swap
  split
  · rename_i x y hx hy
    obtain ⟨hi, rfl⟩ := List.getElem?_eq_some_iff.mp hx
    obtain ⟨hj, rfl⟩ := List.getElem?_eq_some_iff.mp hy
    exact List.set_set_perm hi hj
  · exact List.Perm.refl _

theorem perm_shuffleLoop {α : Type} (draw : ℕ → ℕ) (n : ℕ) (xs : List α) :
    (shuffleLoop draw n xs).Perm xs := by
  induction n generalizing xs with
  | zero => exact List.Perm.refl _
  | succ n ih => exact (ih _).trans (perm_swap xs _ _)

/-- The endpoints that a resolution brings. -/
def Resolution.Offers (answer : Resolution E) (i j : ℕ) : Prop :=
  (resolveAddress answer (newContext (fun _ => none))).2 = true ∧
    DueAt (resolveAddress answer (newContext (fun _ => none))).1 i j

/-- The credentials of all addresses of a resolution can be encoded. -/
def Resolution.AllEncodable (answer : Resolution E) : Prop :=
  ∀ addresses, answer.addresses = .ok addresses → ∀ a ∈ addresses, Encodable a

theorem mem_resolved {answer : Resolution E} {i : ℕ} {sources : List Address} {a : ExtAddress E}
    (ha : a ∈ answer.resolved i sources) :
    ∃ source ∈ sources, a.username = source.username ∧ a.password = source.password := by
  induction sources generalizing i with
  | nil => exact absurd ha List.not_mem_nil
  | cons source sources ih =>
      rcases List.mem_cons.mp ha with rfl | ha
      · refine ⟨source, List.mem_cons_self, ?_⟩
        unfold createExtAddress
        simp only
        split_ifs
        · exact ⟨rfl, rfl⟩
        · exact ⟨rfl, rfl⟩
      · obtain ⟨source', hmem, hsame⟩ := ih ha
        exact ⟨source', List.mem_cons_of_mem _ hmem, hsame⟩

theorem Resolution.AllEncodable.resolveAddress {answer : Resolution E} (h : answer.AllEncodable)
    (hempty : context.addrContext.elements = []) :
    Network.AllEncodable (resolveAddress answer context).1 := by
  have hempty' : Network.AllEncodable context := by
    intro a ha
    rw [hempty] at ha
    exact absurd ha List.not_mem_nil
  have hresolved : ∀ addresses, answer.addresses = .ok addresses →
      ∀ a ∈ context.addrContext.elements ++ answer.resolved 0 addresses, Encodable a.toAddress := by
    intro addresses haddresses a ha
    rw [hempty, List.nil_append] at ha
    obtain ⟨source, hsource, husername, hpassword⟩ := mem_resolved ha
    unfold Encodable
    rw [husername, hpassword]
    exact h addresses haddresses source hsource
  unfold Network.resolveAddress
  split
  · exact hempty'
  · exact hempty'
  · rename_i addresses _ haddresses
    simp only
    split_ifs
    · exact hresolved addresses haddresses
    · intro a ha
      exact hresolved addresses haddresses a ((perm_shuffleLoop _ _ _).mem_iff.mp ha)

/-- A resolution does not depend on the connection, once its addresses are cleared. -/
theorem resolveAddress_congr (answer : Resolution E) (h : context.addrContext = ⟨[], 0⟩) :
    (resolveAddress answer context).2 = (resolveAddress answer (newContext fun _ => none)).2 ∧
      (resolveAddress answer context).1.addrContext =
        (resolveAddress answer (newContext fun _ => none)).1.addrContext := by
  unfold resolveAddress
  split
  · exact ⟨rfl, h⟩
  · exact ⟨rfl, h⟩
  · simp only [h, newContext]
    split_ifs
    · exact ⟨rfl, rfl⟩
    · exact ⟨rfl, rfl⟩

theorem clearAddrContextData_eq {addrContext : AddressResolutionContext E}
    (h : addrContext.curAddrIndex ≤ addrContext.elements.length) :
    clearAddrContextData addrContext = ⟨[], 0⟩ := by
  obtain ⟨elements, curAddrIndex⟩ := addrContext
  cases elements with
  | nil =>
      obtain rfl := Nat.le_zero.mp h
      rfl
  | cons a elements => rfl

/-- A connection is reestablished exactly when an endpoint that is still to be tried accepts, or
else one of the new resolution. -/
theorem reestablishConnection_iff (h : Idle api events context) (hencodable : AllEncodable context)
    (world : Reconnection E) (hworld : world.resolution.AllEncodable) :
    (reestablishConnection world context).2.2 = true ↔
      (∃ i j, DueAt context i j ∧ world.answers i j = true) ∨
        ∃ i j, world.resolution.Offers i j ∧ world.again i j = true := by
  rw [← connect_iff hencodable h.index]
  have hspec := connect_spec h world.answers
  unfold reestablishConnection
  rw [if_neg h.status]
  cases hcall : connect world.answers context with
  | mk context₁ r =>
      obtain ⟨events₁, success⟩ := r
      rw [hcall] at hspec
      cases success with
      | true => simp
      | false =>
          have hidle : Idle api (events ++ events₁) context₁ := hspec
          have hcleared := clearAddrContextData_eq hidle.index
          let cleared : NetworkContext E :=
            { context₁ with addrContext := clearAddrContextData context₁.addrContext }
          obtain ⟨hsuccess, hresolved⟩ :=
            resolveAddress_congr world.resolution
              (show cleared.addrContext = ⟨[], 0⟩ from hcleared)
          have hfresh : (resolveAndConnect world.resolution world.again cleared).2.2 = true ↔
              ∃ i j, world.resolution.Offers i j ∧ world.again i j = true := by
            have hnext := hidle.cleared.resolved world.resolution true
            have helements : cleared.addrContext.elements = [] :=
              congrArg AddressResolutionContext.elements hcleared
            have hnextEncodable := hworld.resolveAddress helements
            unfold resolveAndConnect
            simp only [Resolution.Offers, ← hsuccess, ← dueAt_congr hresolved]
            cases hresolve : resolveAddress world.resolution cleared with
            | mk context₂ success =>
                cases success with
                | false => simp
                | true =>
                    have hindex : context₂.addrContext.curAddrIndex ≤
                        context₂.addrContext.elements.length := by
                      have hle := hnext.index
                      rwa [hresolve] at hle
                    rw [hresolve] at hnextEncodable
                    simpa using connect_iff hnextEncodable hindex
          simpa using hfresh

/-- The address of a server, with credentials. -/
def loginAddress : Address :=
  { Address.zero with
    host := some (chars ['h']), port := some (chars ['1']), username := some (chars ['u']),
    password := some (chars ['p']) }

/-- One address with one endpoint. -/
def loginResolution : Resolution Unit where
  addresses := .ok [loginAddress]
  getaddrinfo _ := some [()]
  draw := id

/-- The server behind another one without credentials, each with two endpoints, and shuffled. -/
def pairResolution : Resolution Unit where
  addresses := .ok [{ loginAddress with username := none, password := none }, loginAddress]
  getaddrinfo _ := some [(), ()]
  draw _ := 0

theorem allEncodable_pairResolution : pairResolution.AllEncodable := by
  intro addresses h a ha username husername password hpassword
  obtain rfl := Except.ok.inj h
  rcases List.mem_pair.mp ha with rfl | rfl
  · cases husername
  · cases husername
    cases hpassword
    decide

/-- The connection behind this resolution. -/
def pairContext : NetworkContext Unit :=
  (resolveAddress pairResolution (newContext fun _ => none)).1

theorem idle_pairContext : Idle (fun _ => none) [.resolved true] pairContext :=
  (idle_newContext _).resolved pairResolution true

/-- All endpoints that are due refuse, and the last one of the new resolution accepts. -/
theorem reestablished_pair :
    DueAt pairContext 0 0 ∧ DueAt pairContext 1 1 ∧
      (reestablishConnection ⟨fun _ _ => false, pairResolution, fun i j => i == 1 && j == 1⟩
        pairContext).2.2 = true := by
  have hdue : ∀ i < 2, ∀ j < 2, DueAt pairContext i j := by
    intro i hi j hj
    have hcases : (i = 0 ∨ i = 1) ∧ (j = 0 ∨ j = 1) := by omega
    rcases hcases with ⟨rfl | rfl, rfl | rfl⟩
    all_goals exact ⟨_, rfl, by decide, by decide, by unfold ExtAddress.Due; decide +kernel⟩
  refine ⟨hdue 0 (by decide) 0 (by decide), hdue 1 (by decide) 1 (by decide), ?_⟩
  refine (reestablishConnection_iff idle_pairContext ?_ _ allEncodable_pairResolution).mpr ?_
  · exact allEncodable_pairResolution.resolveAddress rfl
  · exact Or.inr ⟨1, 1, ⟨by decide +kernel, hdue 1 (by decide) 1 (by decide)⟩, rfl⟩

/-! ### The login -/

/-- The step is a round whose read fails, or a failure of the queue thread. -/
def Step.Fails : Step E → Prop
  | .round _ (.failed _) | .queueFails _ => True
  | _ => False

/-- A login is required, and the connection has credentials for it. -/
def ReaderState.AwaitsLogin (s : ReaderState E) : Prop :=
  s.context.status = .loginRequired ∧ haveCredentials s.context = true

variable {s : ReaderState E}

theorem takeQueueError_spec (s : ReaderState E) :
    (takeQueueError s).context = s.context ∧ (takeQueueError s).isThreadIdle = s.isThreadIdle := by
  unfold takeQueueError
  split_ifs
  · exact ⟨rfl, rfl⟩
  · exact ⟨rfl, rfl⟩

/-- A failure while a login is awaited changes nothing that can be seen. -/
theorem ReaderState.AwaitsLogin.step (h : s.AwaitsLogin) (hbusy : s.isThreadIdle = false)
    {step : Step E} (hstep : step.Fails) :
    (s.step step).2 = [] ∧ (s.step step).1.AwaitsLogin ∧ (s.step step).1.isThreadIdle = false := by
  cases step with
  | heartbeatTimeout | describeProtocol => exact hstep.elim
  | queueFails errorCode => exact ⟨rfl, h, hbusy⟩
  | round world read =>
      cases read with
      | data => exact hstep.elim
      | failed errorCode =>
          obtain ⟨hcontext, hidle⟩ := takeQueueError_spec s
          have hnoted : noteTermination (takeQueueError s) = (takeQueueError s, []) := by
            unfold noteTermination
            split_ifs
            · exact notifyConnTermination_of_login (by rw [hcontext]; exact h.1)
                (by rw [hcontext]; exact h.2)
            · rfl
          have hround : s.step (.round world (.failed errorCode)) =
              ({ takeQueueError s with readerThreadState := false, errorCode := errorCode }, []) := by
            rw [ReaderState.step, readerRound, hnoted]
            simp only
            rw [if_neg (by simp [hidle, hbusy])]
            rfl
          rw [hround]
          refine ⟨rfl, ?_, hidle.trans hbusy⟩
          rw [AwaitsLogin, hcontext]
          exact h

theorem ReaderState.AwaitsLogin.run (h : s.AwaitsLogin) (hbusy : s.isThreadIdle = false)
    {steps : List (Step E)} (hsteps : ∀ step ∈ steps, step.Fails) :
    (Run.run ReaderState.step s steps).2 = [] := by
  induction steps generalizing s with
  | nil => rfl
  | cons step steps ih =>
      obtain ⟨hnone, hawaits, hbusy'⟩ := h.step hbusy (hsteps step List.mem_cons_self)
      rw [Run.run_cons, hnone, List.nil_append]
      exact ih hawaits hbusy' fun other hother => hsteps other (List.mem_cons_of_mem _ hother)

/-- A lost connection is notified in the next round, except when a login is awaited: then nothing
happens, for as long as the reads fail. -/
theorem BoundConnection.lost_connection (c : BoundConnection E) (steps : List (Step E))
    (hbusy : (c.run steps).1.isThreadIdle = false)
    (hlost : (c.run steps).1.readerThreadState = false) :
    (¬ (c.run steps).1.AwaitsLogin →
        ∀ world read, ∃ later, (c.run (steps ++ [.round world read])).2 =
          (c.run steps).2 ++ .notified :: later) ∧
      ((c.run steps).1.AwaitsLogin →
        ∀ later : List (Step E), (∀ step ∈ later, step.Fails) →
          (c.run (steps ++ later)).2 = (c.run steps).2) := by
  have hrun : ∀ later, (c.run (steps ++ later)).2 =
      (c.run steps).2 ++ (Run.run ReaderState.step (c.run steps).1 later).2 := by
    intro later
    simp only [BoundConnection.run, runFrom, Run.run_append, List.append_assoc]
  constructor
  · intro hlogin world read
    have htake : takeQueueError (c.run steps).1 = (c.run steps).1 := by
      rw [takeQueueError, if_neg (by simp [hlost])]
    obtain ⟨s', hnotify, hidle, -⟩ :=
      notifyConnTermination_spec ((c.inv_run steps).busy hbusy) hlogin
    have hnoted : noteTermination (c.run steps).1 = (s', [.notified]) := by
      rw [noteTermination, if_pos ⟨hlost, hbusy⟩, hnotify]
    rw [hrun]
    simp only [Run.run_cons, Run.run_nil, List.append_nil, ReaderState.step, readerRound, htake,
      hnoted, hidle, if_true]
    split
    · exact ⟨_, rfl⟩
    · exact ⟨_, rfl⟩
  · intro hlogin later hlater
    rw [hrun, hlogin.run hbusy hlater, List.append_nil]

/-! ### A server that asks for a login -/

/-- A connection to the server. -/
def loginConnection : BoundConnection Unit where
  resolution := loginResolution
  answers _ _ := true
  api _ := none
  start := (bindToAddress loginResolution (fun _ _ => true) (fun _ => none)).get (by decide +kernel)
  bound := (Option.some_get _).symm

/-- The server asks for a login, and the receiver returns. -/
def loginRequest : Step Unit :=
  .round ⟨fun _ _ => true, loginResolution, fun _ _ => true⟩
    (.data [.connected, .loginRequired] false .other)

/-- The server closes the connection. -/
def closedByServer : Step Unit :=
  .round ⟨fun _ _ => true, loginResolution, fun _ _ => true⟩ (.failed .other)

/-- The server asks for a login and closes the connection; nothing is ever notified. -/
theorem silent_after_loginRequest :
    (loginConnection.run [loginRequest]).1.AwaitsLogin ∧
      ∀ n, (loginConnection.run ([loginRequest] ++ List.replicate n closedByServer)).2 =
        (loginConnection.run [loginRequest]).2 := by
  have hawaits : (loginConnection.run [loginRequest]).1.AwaitsLogin :=
    ⟨by decide +kernel, by decide +kernel⟩
  refine ⟨hawaits, fun n => ?_⟩
  refine (loginConnection.lost_connection [loginRequest] (by decide +kernel)
    (by decide +kernel)).2 hawaits _ fun step hstep => ?_
  rw [List.eq_of_mem_replicate hstep]
  trivial

end DxFeed.Network
