import DxFeed.Network.Addresses

/-!
# The attempts of a call

* `ExtAddress.Due`, `DueAt`: the endpoints that a call would try;
* `Visit`: what the attempts for one address are, with or without TLS;
* `Tries`: a call of `dx_connect_to_resolved_addresses`, address by address;
* `Tries.due`, `Tries.sorted`, `Tries.before`: the attempts go on from where the last call ended,
  and an endpoint that has refused is behind them;
* `Tries.refused`: a call that does not connect has been refused by all.
-/

namespace DxFeed.Network

open Properties

variable {E : Type}

/-! ### One address -/

/-- An endpoint of the address that is still to be tried; with TLS there is one. -/
def ExtAddress.Due (a : ExtAddress E) (k : ℕ) : Prop :=
  if a.tls.enabled then k = 0 else a.curInfoIndex ≤ k ∧ k < a.elements.length

/-- The attempts for an address. -/
structure Visit (answers : ℕ → Bool) (a : ExtAddress E)
    (r : List (ℕ × Bool) × ExtAddress E) : Prop where
  same : r.2 = { a with curInfoIndex := r.2.curInfoIndex }
  shrinks : ∀ k, r.2.Due k → a.Due k
  due : ∀ t ∈ r.1, a.Due t.1 ∧ answers t.1 = t.2
  sorted : r.1.Pairwise fun t u => t.1 < u.1
  before : r.1.any (·.2) → ∀ t ∈ r.1, ∀ k, r.2.Due k → t.1 < k ∨ (t.1 = k ∧ t.2 = true)
  refused : ¬ r.1.any (·.2) → ∀ k, a.Due k → answers k = false

/-- The loop over the endpoints. -/
structure SocketVisit (answers : ℕ → Bool) (start stop : ℕ) (r : List (ℕ × Bool) × ℕ) : Prop where
  ge : start ≤ r.2
  due : ∀ t ∈ r.1, (start ≤ t.1 ∧ t.1 < stop) ∧ answers t.1 = t.2
  sorted : r.1.Pairwise fun t u => t.1 < u.1
  before : r.1.any (·.2) → ∀ t ∈ r.1, t.1 < r.2 ∨ (t.1 = r.2 ∧ t.2 = true)
  refused : ¬ r.1.any (·.2) → ∀ k, start ≤ k → k < stop → answers k = false

theorem socketLoop_spec (answers : ℕ → Bool) (infos : List E) (j : ℕ) :
    SocketVisit answers j (j + infos.length) (socketLoop answers infos j) := by
  induction infos generalizing j with
  | nil => exact ⟨le_rfl, nofun, List.Pairwise.nil, nofun, fun _ k hk hlt => absurd hlt (by simpa)⟩
  | cons info infos ih =>
      have hstop : j + (info :: infos).length = j + 1 + infos.length := by
        rw [List.length_cons]
        omega
      rw [hstop]
      unfold socketLoop
      split_ifs with haccepted
      · refine ⟨le_rfl, ?_, List.pairwise_singleton .., ?_, ?_⟩
        · intro t ht
          obtain rfl := List.mem_singleton.mp ht
          exact ⟨⟨le_rfl, by simp only; omega⟩, haccepted⟩
        · intro _ t ht
          obtain rfl := List.mem_singleton.mp ht
          exact Or.inr ⟨rfl, rfl⟩
        · exact fun h => absurd rfl h
      · have hrest := ih (j + 1)
        have hnone : answers j = false := by simpa using haccepted
        refine ⟨by have := hrest.ge; simp only; omega, ?_, ?_, ?_, ?_⟩
        · intro t ht
          rcases List.mem_cons.mp ht with rfl | ht
          · exact ⟨⟨le_rfl, by simp only; omega⟩, hnone⟩
          · obtain ⟨⟨hge, hlt⟩, hanswer⟩ := hrest.due t ht
            exact ⟨⟨by omega, hlt⟩, hanswer⟩
        · refine List.pairwise_cons.mpr ⟨fun t ht => ?_, hrest.sorted⟩
          have := (hrest.due t ht).1.1
          simp only
          omega
        · intro hany t ht
          rcases List.mem_cons.mp ht with rfl | ht
          · have := hrest.ge
            exact Or.inl (by simp only; omega)
          · exact hrest.before (by simpa using hany) t ht
        · intro hany k hge hlt
          rcases Nat.eq_or_lt_of_le hge with rfl | hgt
          · exact hnone
          · exact hrest.refused (by simpa using hany) k hgt hlt

theorem visit_connectViaSocket (answers : ℕ → Bool) {a : ExtAddress E} (htls : ¬ a.tls.enabled) :
    Visit answers a (connectViaSocket answers a) := by
  have hspec := socketLoop_spec answers (a.elements.drop a.curInfoIndex) a.curInfoIndex
  have hdue : ∀ k, a.Due k ↔ a.curInfoIndex ≤ k ∧
      k < a.curInfoIndex + (a.elements.drop a.curInfoIndex).length := by
    intro k
    rw [ExtAddress.Due, if_neg htls, List.length_drop]
    omega
  have hdue' : ∀ k, (connectViaSocket answers a).2.Due k ↔
      (connectViaSocket answers a).2.curInfoIndex ≤ k ∧ k < a.elements.length := by
    intro k
    exact iff_of_eq (if_neg htls)
  refine ⟨rfl, ?_, ?_, hspec.sorted, ?_, ?_⟩
  · intro k hk
    rw [hdue'] at hk
    rw [ExtAddress.Due, if_neg htls]
    exact ⟨hspec.ge.trans hk.1, hk.2⟩
  · intro t ht
    rw [hdue]
    exact hspec.due t ht
  · intro hany t ht k hk
    rw [hdue'] at hk
    rcases hspec.before hany t ht with hlt | ⟨heq, haccepted⟩
    · exact Or.inl (lt_of_lt_of_le hlt hk.1)
    · rcases Nat.eq_or_lt_of_le hk.1 with heq' | hlt'
      · exact Or.inr ⟨heq.trans heq', haccepted⟩
      · exact Or.inl (heq.trans_lt hlt')
  · intro hany k hk
    rw [hdue] at hk
    exact hspec.refused hany k hk.1 hk.2

theorem visit_connectViaTls (answers : ℕ → Bool) {a : ExtAddress E} (htls : a.tls.enabled) :
    Visit answers a (connectViaTls answers a) where
  same := rfl
  shrinks := fun _ hk => hk
  due := by
    intro t ht
    obtain rfl := List.mem_singleton.mp ht
    exact ⟨by rw [ExtAddress.Due, if_pos htls], rfl⟩
  sorted := List.pairwise_singleton ..
  before := by
    intro hany t ht k hk
    obtain rfl := List.mem_singleton.mp ht
    have hzero : k = 0 := by simpa [connectViaTls, ExtAddress.Due, htls] using hk
    exact Or.inr ⟨hzero.symm, by simpa [connectViaTls] using hany⟩
  refused := by
    intro hany k hk
    rw [ExtAddress.Due, if_pos htls] at hk
    subst hk
    simpa [connectViaTls] using hany

theorem visit_connectViaAddress (answers : ℕ → Bool) (a : ExtAddress E) :
    Visit answers a (connectViaAddress answers a) := by
  unfold connectViaAddress
  split_ifs with htls
  · exact visit_connectViaTls answers htls
  · exact visit_connectViaSocket answers htls

/-! ### A call -/

/-- A run of the loop of `dx_connect_to_resolved_addresses`. -/
inductive Tries (answers : ℕ → ℕ → Bool) :
    NetworkContext E → NetworkContext E → List (Attempt E) → LoopEnd → Prop
  | past {context} : context.currentAddress = none → Tries answers context context [] .left
  | marked {context curAddr context' attempts loopEnd} :
      context.currentAddress = some curAddr → curAddr.isConnectionFailed →
      Tries answers context.nextAddress context' attempts loopEnd →
      Tries answers context context' attempts loopEnd
  | noCredentials {context curAddr} :
      context.currentAddress = some curAddr → ¬ curAddr.isConnectionFailed →
      addCredentials curAddr.toAddress (backUpProperties context).properties = none →
      Tries answers context (backUpProperties context) [] .failed
  | connected {context curAddr properties r} :
      context.currentAddress = some curAddr → ¬ curAddr.isConnectionFailed →
      addCredentials curAddr.toAddress (backUpProperties context).properties = some properties →
      Visit (answers context.addrContext.curAddrIndex) curAddr r → r.1.any (·.2) →
      Tries answers context { context.visited properties r.2 with status := .connected }
        (context.attempts curAddr properties r.1) .left
  | refused {context curAddr properties r context' later loopEnd} :
      context.currentAddress = some curAddr → ¬ curAddr.isConnectionFailed →
      addCredentials curAddr.toAddress (backUpProperties context).properties = some properties →
      Visit (answers context.addrContext.curAddrIndex) curAddr r → ¬ r.1.any (·.2) →
      Tries answers (context.visited properties r.2).nextAddress context' later loopEnd →
      Tries answers context context' (context.attempts curAddr properties r.1 ++ later) loopEnd

variable {answers : ℕ → ℕ → Bool} {context context' : NetworkContext E}
  {attempts : List (Attempt E)} {loopEnd : LoopEnd} {curAddr : ExtAddress E} {properties : Content}

@[simp] theorem addrContext_backUpProperties (context : NetworkContext E) :
    (backUpProperties context).addrContext = context.addrContext := by
  unfold backUpProperties
  cases context.propBackup <;> rfl

@[simp] theorem curAddrIndex_visited :
    (context.visited properties curAddr).addrContext.curAddrIndex =
      context.addrContext.curAddrIndex := by
  simp [NetworkContext.visited, NetworkContext.setCurrent]

@[simp] theorem elements_visited :
    (context.visited properties curAddr).addrContext.elements =
      context.addrContext.elements.set context.addrContext.curAddrIndex curAddr := by
  simp [NetworkContext.visited, NetworkContext.setCurrent]

@[simp] theorem curAddrIndex_nextAddress :
    context.nextAddress.addrContext.curAddrIndex = context.addrContext.curAddrIndex + 1 := rfl

@[simp] theorem elements_nextAddress :
    context.nextAddress.addrContext.elements = context.addrContext.elements := rfl

theorem connectLoop_tries {fuel : ℕ}
    (hfuel : context.addrContext.elements.length ≤ context.addrContext.curAddrIndex + fuel) :
    Tries answers context (connectLoop answers fuel context).1
      (connectLoop answers fuel context).2.1 (connectLoop answers fuel context).2.2 := by
  induction fuel generalizing context with
  | zero =>
      refine Tries.past ?_
      rw [NetworkContext.currentAddress, List.getElem?_eq_none]
      simpa using hfuel
  | succ fuel ih =>
      unfold connectLoop
      cases hcur : context.currentAddress with
      | none => exact Tries.past hcur
      | some curAddr =>
          by_cases hmarked : curAddr.isConnectionFailed
          · simp only [if_pos hmarked]
            exact Tries.marked hcur hmarked (ih (by simp; omega))
          · simp only [if_neg hmarked]
            cases hcredentials :
                addCredentials curAddr.toAddress (backUpProperties context).properties with
            | none => exact Tries.noCredentials hcur hmarked hcredentials
            | some properties =>
                have hvisit := visit_connectViaAddress
                  (answers context.addrContext.curAddrIndex) curAddr
                simp only
                split_ifs with hany
                · exact Tries.connected hcur hmarked hcredentials hvisit hany
                · exact Tries.refused hcur hmarked hcredentials hvisit hany (ih (by simp; omega))

/-! ### Endpoints that are still to be tried -/

/-- The endpoint is still to be tried. -/
def DueAt (context : NetworkContext E) (i j : ℕ) : Prop :=
  ∃ a, context.addrContext.elements[i]? = some a ∧ ¬ a.isConnectionFailed ∧
    context.addrContext.curAddrIndex ≤ i ∧ a.Due j

/-- The attempt is in front of the endpoint, or it has been accepted there. -/
def Attempt.Before (t : Attempt E) (i j : ℕ) : Prop :=
  t.addrIndex < i ∨ t.addrIndex = i ∧ (t.infoIndex < j ∨ t.infoIndex = j ∧ t.accepted = true)

/-- The attempt is in front of all that is still to be tried. -/
def Attempt.Behind (t : Attempt E) (context : NetworkContext E) : Prop :=
  ∀ i j, DueAt context i j → t.Before i j

variable {i j : ℕ} {t : Attempt E}

theorem dueAt_congr (h : context'.addrContext = context.addrContext) :
    DueAt context' i j ↔ DueAt context i j := by
  rw [DueAt, DueAt, h]

/-- What is due is at the current address or behind it. -/
theorem dueAt_iff (hcur : context.currentAddress = some curAddr) :
    DueAt context i j ↔
      i = context.addrContext.curAddrIndex ∧ ¬ curAddr.isConnectionFailed ∧ curAddr.Due j ∨
        DueAt context.nextAddress i j := by
  constructor
  · rintro ⟨a, ha, hmarked, hle, hdue⟩
    rcases Nat.eq_or_lt_of_le hle with rfl | hlt
    · obtain rfl := Option.some.inj (hcur.symm.trans ha)
      exact Or.inl ⟨rfl, hmarked, hdue⟩
    · exact Or.inr ⟨a, ha, hmarked, hlt, hdue⟩
  · rintro (⟨rfl, hmarked, hdue⟩ | ⟨a, ha, hmarked, hle, hdue⟩)
    · exact ⟨curAddr, hcur, hmarked, le_rfl, hdue⟩
    · exact ⟨a, ha, hmarked, (Nat.le_succ _).trans hle, hdue⟩

theorem lt_of_dueAt_nextAddress (h : DueAt context.nextAddress i j) :
    context.addrContext.curAddrIndex < i := by
  obtain ⟨a, -, -, hle, -⟩ := h
  exact hle

/-- A visit of the current address leaves what is behind it. -/
theorem dueAt_visited_nextAddress :
    DueAt (context.visited properties curAddr).nextAddress i j ↔
      DueAt context.nextAddress i j := by
  have hset : ∀ a, context.addrContext.curAddrIndex + 1 ≤ i →
      ((context.addrContext.elements.set context.addrContext.curAddrIndex curAddr)[i]? = some a ↔
        context.addrContext.elements[i]? = some a) := by
    intro a hlt
    rw [List.getElem?_set_ne (by omega)]
  constructor
  · rintro ⟨a, ha, hmarked, hle, hdue⟩
    simp only [curAddrIndex_nextAddress, curAddrIndex_visited, elements_nextAddress,
      elements_visited] at ha hle
    exact ⟨a, (hset a hle).mp ha, hmarked, hle, hdue⟩
  · rintro ⟨a, ha, hmarked, hle, hdue⟩
    refine ⟨a, ?_, hmarked, ?_, hdue⟩
    · simp only [elements_nextAddress, elements_visited]
      exact (hset a hle).mpr ha
    · simpa using hle

theorem currentAddress_visited {a : ExtAddress E} (hcur : context.currentAddress = some a) :
    (context.visited properties curAddr).currentAddress = some curAddr := by
  have hlt := (List.getElem?_eq_some_iff.mp hcur).1
  simp [NetworkContext.currentAddress, List.getElem?_set_self hlt]

theorem mem_attempts {tried : List (ℕ × Bool)} (ht : t ∈ context.attempts curAddr properties tried) :
    t.addrIndex = context.addrContext.curAddrIndex ∧ t.address = curAddr.toAddress ∧
      t.properties = properties ∧ (t.infoIndex, t.accepted) ∈ tried := by
  obtain ⟨⟨k, accepted⟩, hk, rfl⟩ := List.mem_map.mp ht
  exact ⟨rfl, rfl, rfl, hk⟩

/-- A visited address may be the current one of a connection. -/
theorem dueAt_connected {a : ExtAddress E} (hcur : context.currentAddress = some a)
    (hdue : DueAt { context.visited properties curAddr with status := .connected } i j) :
    i = context.addrContext.curAddrIndex ∧ curAddr.Due j ∨ DueAt context.nextAddress i j := by
  have hvisited : DueAt (context.visited properties curAddr) i j := hdue
  rw [dueAt_iff (currentAddress_visited hcur)] at hvisited
  rcases hvisited with ⟨hi, -, hj⟩ | hnext
  · exact Or.inl ⟨by simpa using hi, hj⟩
  · exact Or.inr (dueAt_visited_nextAddress.mp hnext)

/-! ### What a call does -/

theorem Tries.shrinks (h : Tries answers context context' attempts loopEnd)
    (hdue : DueAt context' i j) : DueAt context i j := by
  induction h with
  | past => exact hdue
  | marked hcur _ _ ih => exact (dueAt_iff hcur).mpr (Or.inr (ih hdue))
  | noCredentials => rwa [dueAt_congr (addrContext_backUpProperties _)] at hdue
  | connected hcur hmarked _ hvisit _ =>
      refine (dueAt_iff hcur).mpr ?_
      rcases dueAt_connected hcur hdue with ⟨hi, hj⟩ | hnext
      · exact Or.inl ⟨hi, hmarked, hvisit.shrinks j hj⟩
      · exact Or.inr hnext
  | refused hcur _ _ _ _ _ ih =>
      exact (dueAt_iff hcur).mpr (Or.inr (dueAt_visited_nextAddress.mp (ih hdue)))

/-- The attempts of a call are for endpoints that are due. -/
theorem Tries.due (h : Tries answers context context' attempts loopEnd) (ht : t ∈ attempts) :
    DueAt context t.addrIndex t.infoIndex ∧ answers t.addrIndex t.infoIndex = t.accepted := by
  induction h with
  | past => exact absurd ht List.not_mem_nil
  | marked hcur _ _ ih => exact ⟨(dueAt_iff hcur).mpr (Or.inr (ih ht).1), (ih ht).2⟩
  | noCredentials => exact absurd ht List.not_mem_nil
  | connected hcur hmarked _ hvisit _ =>
      obtain ⟨hindex, -, -, htried⟩ := mem_attempts ht
      obtain ⟨hdue, hanswer⟩ := hvisit.due _ htried
      rw [hindex]
      exact ⟨(dueAt_iff hcur).mpr (Or.inl ⟨rfl, hmarked, hdue⟩), hanswer⟩
  | refused hcur hmarked _ hvisit _ _ ih =>
      rcases List.mem_append.mp ht with ht | ht
      · obtain ⟨hindex, -, -, htried⟩ := mem_attempts ht
        obtain ⟨hdue, hanswer⟩ := hvisit.due _ htried
        rw [hindex]
        exact ⟨(dueAt_iff hcur).mpr (Or.inl ⟨rfl, hmarked, hdue⟩), hanswer⟩
      · exact ⟨(dueAt_iff hcur).mpr (Or.inr (dueAt_visited_nextAddress.mp (ih ht).1)), (ih ht).2⟩

/-- What a call has tried is behind it. -/
theorem Tries.behind (h : Tries answers context context' attempts loopEnd) (ht : t ∈ attempts) :
    t.Behind context' := by
  induction h with
  | past => exact absurd ht List.not_mem_nil
  | marked _ _ _ ih => exact ih ht
  | noCredentials => exact absurd ht List.not_mem_nil
  | connected hcur _ _ hvisit hany =>
      intro i j hdue
      obtain ⟨hindex, -, -, htried⟩ := mem_attempts ht
      rcases dueAt_connected hcur hdue with ⟨rfl, hj⟩ | hnext
      · exact Or.inr ⟨hindex, hvisit.before hany _ htried j hj⟩
      · exact Or.inl (hindex ▸ lt_of_dueAt_nextAddress hnext)
  | refused _ _ _ _ _ hrest ih =>
      rcases List.mem_append.mp ht with ht | ht
      · intro i j hdue
        obtain ⟨hindex, -⟩ := mem_attempts ht
        have hnext := dueAt_visited_nextAddress.mp (hrest.shrinks hdue)
        exact Or.inl (hindex ▸ lt_of_dueAt_nextAddress hnext)
      · exact ih ht

theorem pairwise_attempts {tried : List (ℕ × Bool)} (h : tried.Pairwise fun t u => t.1 < u.1) :
    (context.attempts curAddr properties tried).Pairwise
      fun t u => t.Before u.addrIndex u.infoIndex :=
  List.pairwise_map.mpr (h.imp fun hlt => Or.inr ⟨rfl, Or.inl hlt⟩)

/-- The attempts of a call go forward. -/
theorem Tries.sorted (h : Tries answers context context' attempts loopEnd) :
    attempts.Pairwise fun t u => t.Before u.addrIndex u.infoIndex := by
  induction h with
  | past => exact List.Pairwise.nil
  | marked _ _ _ ih => exact ih
  | noCredentials => exact List.Pairwise.nil
  | connected _ _ _ hvisit _ => exact pairwise_attempts hvisit.sorted
  | refused _ _ _ hvisit _ hrest ih =>
      refine List.pairwise_append.mpr ⟨pairwise_attempts hvisit.sorted, ih, fun t ht u hu => ?_⟩
      obtain ⟨hindex, -⟩ := mem_attempts ht
      have hnext := dueAt_visited_nextAddress.mp (hrest.due hu).1
      exact Or.inl (hindex ▸ lt_of_dueAt_nextAddress hnext)

/-- Behind the last address all that was due has refused. -/
theorem Tries.refused_all (h : Tries answers context context' attempts loopEnd)
    (hend : loopEnd = .left) (hpast : context'.currentAddress = none) (hdue : DueAt context i j) :
    answers i j = false := by
  induction h with
  | past hnone =>
      obtain ⟨a, ha, -, hle, -⟩ := hdue
      have hlt := (List.getElem?_eq_some_iff.mp ha).1
      have hlength := List.getElem?_eq_none_iff.mp hnone
      omega
  | marked hcur hmarked _ ih =>
      rcases (dueAt_iff hcur).mp hdue with ⟨-, hnot, -⟩ | hnext
      · exact absurd hmarked hnot
      · exact ih hend hpast hnext
  | noCredentials => exact absurd hend nofun
  | connected hcur => exact absurd ((currentAddress_visited hcur).symm.trans hpast) nofun
  | refused hcur _ _ hvisit hany _ ih =>
      rcases (dueAt_iff hcur).mp hdue with ⟨rfl, -, hj⟩ | hnext
      · exact hvisit.refused hany j hj
      · exact ih hend hpast (dueAt_visited_nextAddress.mpr hnext)

/-- The number of the addresses stays. -/
theorem Tries.length_eq (h : Tries answers context context' attempts loopEnd) :
    context'.addrContext.elements.length = context.addrContext.elements.length := by
  induction h with
  | past => rfl
  | marked _ _ _ ih => exact ih
  | noCredentials => rw [addrContext_backUpProperties]
  | connected => simp [elements_visited]
  | refused _ _ _ _ _ _ ih => simpa using ih

/-- The current index stays in the addresses or goes to their end. -/
theorem Tries.index_le (h : Tries answers context context' attempts loopEnd)
    (hle : context.addrContext.curAddrIndex ≤ context.addrContext.elements.length) :
    context'.addrContext.curAddrIndex ≤ context'.addrContext.elements.length := by
  induction h with
  | past => exact hle
  | marked hcur _ _ ih => exact ih (List.getElem?_eq_some_iff.mp hcur).1
  | noCredentials => rwa [addrContext_backUpProperties]
  | connected => simpa using hle
  | refused hcur _ _ _ _ _ ih =>
      have hlt := (List.getElem?_eq_some_iff.mp hcur).1
      exact ih (by simpa using hlt)

/-- A call leaves the socket flag as it is. -/
theorem Tries.socket_eq (h : Tries answers context context' attempts loopEnd) :
    context'.socket = context.socket := by
  have hbackUp : ∀ c : NetworkContext E, (backUpProperties c).socket = c.socket := by
    intro c
    unfold backUpProperties
    cases c.propBackup <;> rfl
  induction h with
  | past => rfl
  | marked _ _ _ ih => exact ih
  | noCredentials => exact hbackUp _
  | connected => exact hbackUp _
  | refused _ _ _ _ _ _ ih => exact ih.trans (hbackUp _)

/-- In front of the last address there is a connection to the current one, with the properties of
an attempt that was accepted. -/
theorem Tries.accepted (h : Tries answers context context' attempts loopEnd)
    (hend : loopEnd = .left) (hcur : context'.currentAddress = some curAddr) :
    context'.status = .connected ∧ ∃ t ∈ attempts, t.accepted = true ∧
      t.address = curAddr.toAddress ∧ t.properties = context'.properties := by
  induction h with
  | past hnone => exact absurd (hnone.symm.trans hcur) nofun
  | marked _ _ _ ih => exact ih hend hcur
  | noCredentials => exact absurd hend nofun
  | connected hcur' _ _ hvisit hany =>
      obtain ⟨⟨k, accepted⟩, hk, haccepted⟩ := List.any_eq_true.mp hany
      obtain rfl := Option.some.inj ((currentAddress_visited hcur').symm.trans hcur)
      refine ⟨rfl, _, List.mem_map_of_mem hk, haccepted, ?_, rfl⟩
      rw [hvisit.same]
  | refused _ _ _ _ _ _ ih =>
      obtain ⟨hstatus, t, ht, hrest⟩ := ih hend hcur
      exact ⟨hstatus, t, List.mem_append_right _ ht, hrest⟩

/-- A call does not ask for a login. -/
theorem Tries.status (h : Tries answers context context' attempts loopEnd) :
    context'.status = context.status ∨ context'.status = .connected := by
  have hbackUp : ∀ c : NetworkContext E, (backUpProperties c).status = c.status := by
    intro c
    unfold backUpProperties
    cases c.propBackup <;> rfl
  induction h with
  | past => exact Or.inl rfl
  | marked _ _ _ ih => exact ih
  | noCredentials => exact Or.inl (hbackUp _)
  | connected => exact Or.inr rfl
  | refused _ _ _ _ _ _ ih =>
      rcases ih with hsame | hconnected
      · exact Or.inl (hsame.trans (hbackUp _))
      · exact Or.inr hconnected

/-! ### Properties -/

/-- The properties of the API are in the backup, or there is no backup yet. -/
def HasBackup (api : Content) (context : NetworkContext E) : Prop :=
  context.propBackup = some api ∨ context.propBackup = none ∧ context.properties = api

/-- In front of an attempt the properties are those of the API. -/
theorem backUpProperties_spec {api : Content} (h : HasBackup api context) :
    (backUpProperties context).properties = api ∧
      (backUpProperties context).propBackup = some api := by
  unfold backUpProperties
  rcases h with hsome | ⟨hnone, hproperties⟩
  · rw [hsome]
    exact ⟨rfl, rfl⟩
  · rw [hnone]
    exact ⟨hproperties, congrArg some hproperties⟩

/-- A backup is kept. -/
theorem Tries.propBackup_of_some {api : Content}
    (h : Tries answers context context' attempts loopEnd) (hsome : context.propBackup = some api) :
    context'.propBackup = some api := by
  have hbackUp : ∀ c : NetworkContext E, c.propBackup = some api →
      (backUpProperties c).propBackup = some api :=
    fun c hc => (backUpProperties_spec (Or.inl hc)).2
  induction h with
  | past => exact hsome
  | marked _ _ _ ih => exact ih hsome
  | noCredentials => exact hbackUp _ hsome
  | connected => exact hbackUp _ hsome
  | refused _ _ _ _ _ _ ih => exact ih (hbackUp _ hsome)

/-- Every attempt is made with the properties of the API and the credentials of its own address. -/
theorem Tries.credentials {api : Content} (h : Tries answers context context' attempts loopEnd)
    (hbackup : HasBackup api context) :
    HasBackup api context' ∧ (attempts ≠ [] → context'.propBackup = some api) ∧
      ∀ t ∈ attempts, addCredentials t.address api = some t.properties := by
  induction h with
  | past => exact ⟨hbackup, fun hne => absurd rfl hne, nofun⟩
  | marked _ _ _ ih => exact ih hbackup
  | noCredentials =>
      exact ⟨Or.inl (backUpProperties_spec hbackup).2, fun hne => absurd rfl hne, nofun⟩
  | connected _ _ hcredentials _ _ =>
      obtain ⟨hproperties, hsome⟩ := backUpProperties_spec hbackup
      rw [hproperties] at hcredentials
      refine ⟨Or.inl hsome, fun _ => hsome, fun t ht => ?_⟩
      obtain ⟨-, haddress, htproperties, -⟩ := mem_attempts ht
      rw [haddress, htproperties, hcredentials]
  | refused _ _ hcredentials _ _ hrest ih =>
      obtain ⟨hproperties, hsome⟩ := backUpProperties_spec hbackup
      rw [hproperties] at hcredentials
      obtain ⟨hbackup', -, hlater⟩ := ih (Or.inl hsome)
      have hsome' := @Tries.propBackup_of_some _ _ _ _ _ _ api hrest hsome
      refine ⟨hbackup', fun _ => hsome', fun t ht => ?_⟩
      rcases List.mem_append.mp ht with ht | ht
      · obtain ⟨-, haddress, htproperties, -⟩ := mem_attempts ht
        rw [haddress, htproperties, hcredentials]
      · exact hlater t ht

end DxFeed.Network
