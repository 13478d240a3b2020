import DxFeed.Network.Events

/-!
# Runs of a connection

* `Inv`: the invariant of the reader thread, and `Inv.step`: every step keeps it;
* `BoundConnection`: a connection whose first call was successful, and its runs;
* `credentials_isolated`: the credentials of an address are not used for another one;
* `attempts_forward`: an endpoint that has refused is not tried again before the next resolution;
* `events_alternate`: connections and their ends alternate, and nothing is read in between.
-/

namespace DxFeed.Network

open History Properties

variable {E : Type} {api : Content} {events : List (Event E)} {context : NetworkContext E}

/-! ### A kept backup -/

theorem propBackup_connect (h : context.propBackup = some api)
    (hindex : context.addrContext.curAddrIndex ≤ context.addrContext.elements.length)
    (answers : ℕ → ℕ → Bool) : (connect answers context).1.propBackup = some api := by
  obtain ⟨context₁, attempts, loopEnd, htries, hends⟩ := connect_tries answers hindex
  have hkept := htries.propBackup_of_some h
  rcases hends with ⟨-, -, hconnect⟩ | ⟨-, hconnect⟩
  · rw [hconnect]
    exact hkept
  · rw [hconnect]
    exact hkept

theorem propBackup_resolveAndConnect (hidle : Idle api events context)
    (h : context.propBackup = some api) (resolution : Resolution E) (answers : ℕ → ℕ → Bool) :
    (resolveAndConnect resolution answers context).1.propBackup = some api := by
  obtain ⟨elements, hcontext, -⟩ := resolveAddress_spec resolution hidle.index
  have hresolved := hidle.resolved resolution true
  unfold resolveAndConnect
  cases hresolve : resolveAddress resolution context with
  | mk context₁ success =>
      rw [hresolve] at hcontext hresolved
      have hbackup : context₁.propBackup = some api := by
        rw [show context₁ = _ from hcontext]
        exact h
      cases success with
      | false => exact hbackup
      | true => exact propBackup_connect hbackup hresolved.index answers

theorem propBackup_reestablish (hidle : Idle api events context)
    (h : context.propBackup = some api) (world : Reconnection E) :
    (reestablishConnection world context).1.propBackup = some api := by
  have hfirst := propBackup_connect h hidle.index world.answers
  have hspec := connect_spec hidle world.answers
  unfold reestablishConnection
  rw [if_neg hidle.status]
  cases hcall : connect world.answers context with
  | mk context₁ r =>
      obtain ⟨events₁, success⟩ := r
      rw [hcall] at hfirst hspec
      cases success with
      | true => exact hfirst
      | false =>
          exact propBackup_resolveAndConnect (Idle.cleared hspec) hfirst world.resolution world.again

/-! ### The end of a connection -/

theorem dueAt_markCurrentAddress {i j : ℕ} (h : DueAt (markCurrentAddress context) i j) :
    DueAt context i j := by
  unfold markCurrentAddress at h
  cases hcur : context.currentAddress with
  | none => rwa [hcur] at h
  | some a =>
      rw [hcur] at h
      obtain ⟨b, hb, hmarked, hle, hdue⟩ := h
      simp only [NetworkContext.setCurrent] at hb hle
      by_cases hi : i = context.addrContext.curAddrIndex
      · subst hi
        rw [List.getElem?_set_self (List.getElem?_eq_some_iff.mp hcur).1] at hb
        obtain rfl := Option.some.inj hb
        exact absurd rfl hmarked
      · rw [List.getElem?_set_ne (Ne.symm hi)] at hb
        exact ⟨b, hb, hmarked, hle, hdue⟩

theorem index_markCurrentAddress
    (h : context.addrContext.curAddrIndex ≤ context.addrContext.elements.length) :
    (markCurrentAddress context).addrContext.curAddrIndex ≤
      (markCurrentAddress context).addrContext.elements.length := by
  unfold markCurrentAddress
  cases context.currentAddress with
  | none => exact h
  | some a => simpa [NetworkContext.setCurrent] using h

theorem propBackup_markCurrentAddress (context : NetworkContext E) :
    (markCurrentAddress context).propBackup = context.propBackup := by
  unfold markCurrentAddress
  cases context.currentAddress <;> rfl

theorem Kept.marked (h : Kept api events context) : Kept api events (markCurrentAddress context) where
  index := index_markCurrentAddress h.index
  behind := fun t ht i j hdue => h.behind t ht i j (dueAt_markCurrentAddress hdue)
  admitted := h.admitted

/-- The end of a connection is notified. -/
theorem Kept.closeSocket (h : Kept api events context) (hbackup : context.propBackup = some api)
    (hopen : Open events) : Idle api (events ++ [.notified]) (Network.closeSocket context) where
  index := h.index
  behind := by
    rw [sinceResolved_notified]
    exact h.behind
  admitted := admitted_concat.mpr ⟨h.admitted, hopen⟩
  backup := Or.inl hbackup
  closed := closed_notified hopen
  status := nofun
  socket := rfl

/-! ### Steps -/

/-- The invariant of a connection. -/
structure Inv (api : Content) (events : List (Event E)) (s : ReaderState E) : Prop where
  idle : s.isThreadIdle = true → Idle api events s.context
  busy : s.isThreadIdle = false → Busy api events s.context
  backup : s.context.propBackup = some api

variable {s : ReaderState E}

theorem inv_of_idle (h : Idle api events s.context) (hidle : s.isThreadIdle = true)
    (hbackup : s.context.propBackup = some api) : Inv api events s where
  idle := fun _ => h
  busy := fun hbusy => absurd (hidle.symm.trans hbusy) nofun
  backup := hbackup

theorem inv_of_busy (h : Busy api events s.context) (hbusy : s.isThreadIdle = false) :
    Inv api events s where
  idle := fun hidle => absurd (hidle.symm.trans hbusy) nofun
  busy := fun _ => h
  backup := h.backup

/-- With credentials for a login nothing happens. -/
theorem notifyConnTermination_of_login (hlogin : s.context.status = .loginRequired)
    (hcredentials : haveCredentials s.context) : notifyConnTermination s = (s, []) := by
  rw [notifyConnTermination, if_pos ⟨hlogin, hcredentials⟩]

theorem notifyConnTermination_spec (h : Busy api events s.context)
    (hlogin : ¬ (s.context.status = .loginRequired ∧ haveCredentials s.context)) :
    ∃ s', notifyConnTermination s = (s', [.notified]) ∧ s'.isThreadIdle = true ∧
      Idle api (events ++ [.notified]) s'.context ∧ s'.context.propBackup = some api := by
  rw [notifyConnTermination, if_neg hlogin]
  refine ⟨_, rfl, rfl, ?_⟩
  have hmarked := @propBackup_markCurrentAddress E
  have hend : ∀ context : NetworkContext E, Kept api events context →
      context.propBackup = some api →
      Idle api (events ++ [.notified]) (closeSocket context) ∧
        (closeSocket context).propBackup = some api :=
    fun context hkept hbackup => ⟨hkept.closeSocket hbackup h.isOpen, hbackup⟩
  simp only
  split_ifs
  · exact hend _ h.toKept.marked.marked (by rw [hmarked, hmarked, h.backup])
  · exact hend _ h.toKept.marked (by rw [hmarked, h.backup])
  · exact hend _ h.toKept.marked (by rw [hmarked, h.backup])
  · exact hend _ h.toKept h.backup

theorem inv_takeQueueError (h : Inv api events s) : Inv api events (takeQueueError s) := by
  unfold takeQueueError
  split_ifs
  · exact ⟨h.idle, h.busy, h.backup⟩
  · exact h

theorem inv_noteTermination (h : Inv api events s) :
    Inv api (events ++ (noteTermination s).2) (noteTermination s).1 := by
  unfold noteTermination
  split_ifs with hend
  · have hbusy := h.busy hend.2
    by_cases hlogin : s.context.status = .loginRequired ∧ haveCredentials s.context
    · rw [notifyConnTermination_of_login hlogin.1 hlogin.2]
      simpa using h
    · obtain ⟨s', hnotify, hidle', hidle, hbackup⟩ := notifyConnTermination_spec hbusy hlogin
      rw [hnotify]
      exact inv_of_idle hidle hidle' hbackup
  · simpa using h

/-- Nothing but the connection status changes in the context. -/
theorem busy_readSocket (h : Busy api events s.context) (read : Read) :
    Busy api (events ++ (readSocket read s).2) (readSocket read s).1.context ∧
      (readSocket read s).1.isThreadIdle = s.isThreadIdle := by
  cases read with
  | failed errorCode => exact ⟨by simpa [readSocket] using h, rfl⟩
  | data statuses accepted errorCode =>
      refine ⟨⟨⟨h.index, ?_, admitted_concat.mpr ⟨h.admitted, h.isOpen⟩⟩, h.backup,
        open_received h.isOpen, h.current, h.serves⟩, rfl⟩
      simp only [readSocket, sinceResolved_received]
      exact h.behind

theorem Inv.readerRound (h : Inv api events s) (world : Reconnection E) (read : Read) :
    Inv api (events ++ (readerRound world read s).2) (readerRound world read s).1 := by
  have hnoted := inv_noteTermination (inv_takeQueueError h)
  unfold Network.readerRound
  cases hcall : noteTermination (takeQueueError s) with
  | mk s₁ noted =>
      rw [hcall] at hnoted
      simp only
      by_cases hidle : s₁.isThreadIdle = true
      · rw [if_pos hidle]
        have hspec := reestablish_spec (hnoted.idle hidle) world
        have hbackup := propBackup_reestablish (hnoted.idle hidle) hnoted.backup world
        cases hreestablish : reestablishConnection world s₁.context with
        | mk context r =>
            obtain ⟨events₁, success⟩ := r
            rw [hreestablish] at hspec hbackup
            cases success with
            | false =>
                simp only
                rw [← List.append_assoc]
                exact inv_of_idle hspec hidle hbackup
            | true =>
                have hread := busy_readSocket
                  (s := { s₁ with context, readerThreadState := true, isThreadIdle := false })
                  hspec read
                simp only
                rw [← List.append_assoc, ← List.append_assoc]
                exact inv_of_busy hread.1 hread.2
      · rw [if_neg hidle]
        have hbusy : s₁.isThreadIdle = false := by simpa using hidle
        have hread := busy_readSocket (hnoted.busy hbusy) read
        simp only
        rw [← List.append_assoc]
        exact inv_of_busy hread.1 (hread.2.trans hbusy)

theorem withDefaults_withDefaults (v w : WString) (properties : Content) :
    withDefaults v (withDefaults w properties) = withDefaults v properties := by
  funext key
  simp only [withDefaults, setContent, Function.update_apply]
  split_ifs
  · rfl
  · rfl
  · rfl

theorem Serves.described {libraryVersion : WString} (h : Serves api context) :
    ∃ a q, context.currentAddress = some a ∧ addCredentials a.toAddress api = some q ∧
      withDefaults libraryVersion context.properties = withDefaults libraryVersion q := by
  obtain ⟨a, q, ha, hq, hproperties⟩ := h
  refine ⟨a, q, ha, hq, ?_⟩
  rcases hproperties with hplain | ⟨w, hdescribed⟩
  · rw [hplain]
  · rw [hdescribed, withDefaults_withDefaults]

theorem Inv.describeProtocol (h : Inv api events s) (libraryVersion : WString) :
    Inv api (events ++ (s.step (.describeProtocol libraryVersion)).2)
      (s.step (.describeProtocol libraryVersion)).1 := by
  by_cases hidle : s.isThreadIdle = true
  · have hcontext := h.idle hidle
    have hclosed : (sendProtocolDescription libraryVersion s.context).2 = [] := by
      simp [sendProtocolDescription, hcontext.socket]
    simp only [ReaderState.step, hclosed, List.append_nil]
    refine inv_of_idle ⟨⟨?_, ?_, hcontext.admitted⟩, ?_, hcontext.closed, ?_, ?_⟩ hidle ?_
    all_goals simp only [sendProtocolDescription, hcontext.socket, Bool.false_eq_true, if_false]
    · exact hcontext.index
    · exact hcontext.behind
    · exact Or.inl h.backup
    · exact hcontext.status
    · exact h.backup
  · have hbusy : s.isThreadIdle = false := by simpa using hidle
    have hcontext := h.busy hbusy
    simp only [ReaderState.step, sendProtocolDescription]
    by_cases hsocket : s.context.socket = true
    · obtain ⟨a, q, ha, hq, hdescribed⟩ :=
        @Serves.described _ _ _ libraryVersion (hcontext.serves hsocket)
      simp only [if_pos hsocket]
      refine inv_of_busy ⟨⟨hcontext.index, ?_, admitted_concat.mpr ⟨hcontext.admitted,
        hcontext.isOpen, a.toAddress, q, libraryVersion, ?_, hq, hdescribed⟩⟩, hcontext.backup,
        open_described hcontext.isOpen _ _, hcontext.current,
        fun _ => ⟨a, q, ha, hq, Or.inr ⟨libraryVersion, hdescribed⟩⟩⟩ hbusy
      · rw [sinceResolved_described]
        exact hcontext.behind
      · exact congrArg (Option.map (·.toAddress)) ha
    · simp only [if_neg hsocket, List.append_nil]
      exact inv_of_busy ⟨⟨hcontext.index, hcontext.behind, hcontext.admitted⟩, hcontext.backup,
        hcontext.isOpen, hcontext.current, fun hopen => absurd hopen hsocket⟩ hbusy

theorem Inv.step (h : Inv api events s) (step : Step E) :
    Inv api (events ++ (s.step step).2) (s.step step).1 := by
  cases step with
  | round world read => exact h.readerRound world read
  | queueFails errorCode =>
      rw [show (s.step (.queueFails errorCode)).2 = [] from rfl, List.append_nil]
      exact ⟨h.idle, h.busy, h.backup⟩
  | heartbeatTimeout =>
      rw [show (s.step .heartbeatTimeout).2 = [] from rfl, List.append_nil]
      refine ⟨fun hidle => ?_, fun hbusy => ?_, h.backup⟩
      · have hcontext := h.idle hidle
        exact ⟨⟨hcontext.index, hcontext.behind, hcontext.admitted⟩, hcontext.backup,
          hcontext.closed, nofun, rfl⟩
      · have hcontext := h.busy hbusy
        exact ⟨⟨hcontext.index, hcontext.behind, hcontext.admitted⟩, hcontext.backup,
          hcontext.isOpen, hcontext.current, nofun⟩
  | describeProtocol libraryVersion => exact h.describeProtocol libraryVersion

/-! ### Runs -/

theorem idle_newContext (api : Content) : Idle api [] (newContext api : NetworkContext E) where
  index := le_rfl
  behind := nofun
  admitted := admitted_nil
  backup := Or.inr ⟨rfl, rfl⟩
  closed := rfl
  status := nofun
  socket := rfl

/-- A connection that `dx_bind_to_address` has made with the properties of the API. -/
structure BoundConnection (E : Type) where
  resolution : Resolution E
  answers : ℕ → ℕ → Bool
  api : Content
  start : ReaderState E × List (Event E)
  bound : bindToAddress resolution answers api = some start

namespace BoundConnection

variable (c : BoundConnection E)

/-- The state and the events after some steps. -/
def run (steps : List (Step E)) : ReaderState E × List (Event E) := runFrom c.start steps

theorem inv_start : Inv c.api c.start.2 c.start.1 := by
  have hspec := resolveAndConnect_spec (idle_newContext c.api) c.resolution c.answers
  have hbound := c.bound
  unfold bindToAddress at hbound
  cases hcall : resolveAndConnect c.resolution c.answers (newContext c.api) with
  | mk context r =>
      obtain ⟨events, success⟩ := r
      rw [hcall] at hspec hbound
      cases success with
      | false => exact absurd hbound nofun
      | true =>
          rw [← Option.some.inj hbound]
          exact inv_of_busy (List.nil_append events ▸ hspec) rfl

theorem inv_run (steps : List (Step E)) : Inv c.api (c.run steps).2 (c.run steps).1 :=
  @Run.run_invariant _ _ _ _ _ _ _ (fun s events => Inv c.api events s) _ c.inv_start
    Run.allSteps_true fun _ step _ h _ => h.step step

theorem admitted_run (steps : List (Step E)) : Admitted (Admits c.api) (c.run steps).2 := by
  have hinv := c.inv_run steps
  cases hidle : (c.run steps).1.isThreadIdle with
  | true => exact (hinv.idle hidle).admitted
  | false => exact (hinv.busy hidle).admitted

/-- Every attempt and every description has the credentials of its own address, or those of the
API. -/
theorem credentials_isolated (steps : List (Step E)) :
    (∀ t, .attempted t ∈ (c.run steps).2 → t.Isolated c.api) ∧
      ∀ properties address, .described properties address ∈ (c.run steps).2 →
        DescriptionIsolated c.api properties address := by
  have hadmitted := c.admitted_run steps
  constructor
  · intro t ht
    obtain ⟨before, after, hevents⟩ := List.append_of_mem ht
    exact (hadmitted before _ after hevents).2.1
  · intro properties address hdescribed
    obtain ⟨before, after, hevents⟩ := List.append_of_mem hdescribed
    exact (hadmitted before _ after hevents).2

/-- The attempts between two resolutions go forward, and only an endpoint that has accepted is tried
again. -/
theorem attempts_forward (steps : List (Step E)) :
    Admitted (fun before e => ∀ t, e = .attempted t → ∀ u ∈ sinceResolved before,
      u.Before t.addrIndex t.infoIndex) (c.run steps).2 := by
  refine (c.admitted_run steps).mono ?_
  rintro before e - hadmits t rfl
  exact hadmits.2.2

end BoundConnection

/-- There is a connection exactly when the event has to do with it. -/
def Alternates (before : List (Event E)) : Event E → Prop
  | .attempted _ | .resolved _ | .connected => Closed before
  | .notified | .received | .described _ _ => Open before
  | .loginRepeated => False

/-- Attempts are made without a connection, and the end of a connection is notified once; what is
read or sent belongs to an open one, and then there is a current address. -/
theorem BoundConnection.events_alternate (c : BoundConnection E) (steps : List (Step E)) :
    Admitted Alternates (c.run steps).2 ∧
      (Closed (c.run steps).2 ∨ Open (c.run steps).2 ∧
        (c.run steps).1.context.currentAddress.isSome) := by
  constructor
  · refine (c.admitted_run steps).mono fun before e _ hadmits => ?_
    cases e with
    | attempted t => exact hadmits.1
    | described properties address => exact hadmits.1
    | resolved | connected | notified | received | loginRepeated => exact hadmits
  · have hinv := c.inv_run steps
    cases hidle : (c.run steps).1.isThreadIdle with
    | true => exact Or.inl (hinv.idle hidle).closed
    | false => exact Or.inr ⟨(hinv.busy hidle).isOpen, (hinv.busy hidle).current⟩

end DxFeed.Network
