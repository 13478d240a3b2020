import DxFeed.Connection.Heartbeats
import DxFeed.Library.Run

/-!
# Round-trip times

Two endpoints exchange heartbeats over a connection whose messages arrive in the order in which they
were sent, whenever they arrive.  Their clocks are ahead of the time by any offsets; a reconnect
loses the messages that are on their way, and leads to a new endpoint with another clock.

* `Link`, `Link.step`: the endpoints, the messages on their way, and the events;
* `Link.roundTrips`: for every heartbeat that the client has received, for how long it and the
  heartbeat that it answers were on their way;
* `Tracks`: what the marks have to do with the times;
* `reportsRoundTrips`: the client is told the round-trip times, every heartbeat can be composed, and
  no sum overflows.
-/

namespace DxFeed.Connection

open FixedWidth ServerMessageProcessor HeartbeatPayload Run

/-! ### Two endpoints -/

/-- A message on its way.  For the history: when it was sent, and for how long the heartbeat had
been on its way that its sender had received last. -/
structure LinkMessage where
  bytes : List Int8
  sentAt : ℤ
  heard : Option ℤ

/-- A client and a server, with the messages to them, the oldest ones in front; times are in
microseconds. -/
structure Link where
  now : ℤ
  clientOffset : ℤ
  serverOffset : ℤ
  client : Endpoint
  server : Endpoint
  toServer : List LinkMessage
  toClient : List LinkMessage
  /-- For how long the heartbeat was on its way that the server has received last. -/
  heard : Option ℤ
  /-- For how long the last heartbeat with an answer and the one it answers were on their way. -/
  roundTrip : Option ℤ
  /-- The value of `roundTrip` at each heartbeat that the client has received. -/
  roundTrips : List (Option ℤ)

/-- Milliseconds since the epoch. -/
abbrev TimeMillis := Fin (2 ^ 63)

inductive LinkEvent
  | elapse (microseconds : ℕ)
  | clientSends (timeMillis : TimeMillis)
  | serverSends (timeMillis : TimeMillis)
  | clientReceives
  | serverReceives
  | reconnect (serverOffset : ℤ)

inductive LinkFault
  | notComposed
  | overflow

/-- The clock that counts these microseconds. -/
def clockAt (microseconds : ℤ) : Int64 := Int64.ofInt microseconds

namespace Link

/-- A new connection. -/
def start (now clientOffset serverOffset : ℤ) : Link :=
  ⟨now, clientOffset, serverOffset, .init, .init, [], [], none, none, []⟩

variable (l : Link)

/-- An event: time passes, an endpoint sends a heartbeat or takes the next message, or the
connection is lost and made anew. -/
def step : LinkEvent → Link × List LinkFault
  | .elapse microseconds => ({ l with now := l.now + microseconds }, [])
  | .clientSends timeMillis =>
      let (payload, client) := l.client.createOutgoingHeartbeat (clockAt (l.now + l.clientOffset))
        (UInt64.ofNat timeMillis)
      match composeHeartbeatMessage payload with
      | none => ({ l with client := client }, [.notComposed])
      | some bytes =>
          ({ l with client := client, toServer := l.toServer ++ [⟨bytes, l.now, none⟩] }, [])
  | .serverSends timeMillis =>
      let (payload, server) := l.server.createOutgoingHeartbeat (clockAt (l.now + l.serverOffset))
        (UInt64.ofNat timeMillis)
      match composeHeartbeatMessage payload with
      | none => ({ l with server := server }, [.notComposed])
      | some bytes =>
          ({ l with server := server, toClient := l.toClient ++ [⟨bytes, l.now, l.heard⟩] }, [])
  | .clientReceives =>
      match l.toClient with
      | [] => (l, [])
      | m :: toClient =>
          match l.client.receive (clockAt (l.now + l.clientOffset)) m.bytes with
          | none => (l, [.overflow])
          | some client =>
              let roundTrip := (m.heard.map fun flight => flight + (l.now - m.sentAt)) <|> l.roundTrip
              ({ l with
                client := client
                toClient := toClient
                roundTrip := roundTrip
                roundTrips := l.roundTrips ++ [roundTrip] }, [])
  | .serverReceives =>
      match l.toServer with
      | [] => (l, [])
      | m :: toServer =>
          match l.server.receive (clockAt (l.now + l.serverOffset)) m.bytes with
          | none => (l, [.overflow])
          | some server =>
              ({ l with
                server := server
                toServer := toServer
                heard := some (l.now - m.sentAt) }, [])
  | .reconnect serverOffset =>
      ({ l with
        serverOffset := serverOffset
        server := .init
        toServer := []
        toClient := []
        heard := none }, [])

end Link

/-! ### Times and marks -/

/-- The time mark is the time, modulo `2 ^ 30`. -/
theorem currentTimeMark_clockAt (x : ℤ) :
    (currentTimeMark (clockAt x)).toInt ≡ x [ZMOD 2 ^ 30] := by
  have hmask := word_and_timeMarkMask (clockAt x).toUInt64.toUInt32
  have hword : word (currentTimeMark (clockAt x)) < 2 ^ 31 := by
    rw [currentTimeMark, hmask]
    omega
  have hclock : (clockAt x).toUInt64.toNat = (x % 2 ^ 64).toNat := by
    have hbits : (clockAt x).toUInt64.toNat = (BitVec.ofInt 64 x).toNat := rfl
    rw [hbits, BitVec.toNat_ofInt]
    rfl
  have hlow : (clockAt x).toUInt64.toUInt32.toNat = (x % 2 ^ 64).toNat % 2 ^ 32 := by
    rw [UInt64.toNat_toUInt32, hclock]
  rw [toInt_eq_word hword, currentTimeMark, hmask, hlow, Int.ModEq]
  omega

/-- What an endpoint says about the heartbeats that it has received. -/
def Link.Answers (l : Link) (heard : Option ℤ) (deltaMark : Int32) : Prop :=
  match heard with
  | none => deltaMark = deltaMarkUnknown
  | some flight => 0 ≤ flight ∧ IsDelta deltaMark (flight + l.serverOffset - l.clientOffset)

/-- The bytes are those of a heartbeat that was sent at a clock. -/
def LinkMessage.IsHeartbeat (m : LinkMessage) (clock : Int64) (deltaMark : Int32) : Prop :=
  ∃ timeMillis payload, IsSent clock timeMillis deltaMark payload ∧
    ∀ (e : Endpoint) (clock' : Int64),
      e.receive clock' m.bytes = e.processIncomingHeartbeatPayload clock' payload

/-- A round-trip time, as it is measured. -/
def Measures (rttMark : Int32) : Option ℤ → Prop
  | none => rttMark = 0
  | some roundTrip => 0 ≤ roundTrip ∧ IsDelta rttMark roundTrip

/-- What the marks have to do with the times. -/
structure Tracks (l : Link) : Prop where
  client : l.client.IsSteady
  server : l.server.IsSteady
  answers : l.Answers l.heard l.server.marks.lastDeltaMark
  toServer : ∀ m ∈ l.toServer, m.sentAt ≤ l.now ∧ ∃ deltaMark,
    (deltaMark = deltaMarkUnknown ∨ -2 ^ 29 ≤ deltaMark.toInt ∧ deltaMark.toInt < 2 ^ 29) ∧
      m.IsHeartbeat (clockAt (m.sentAt + l.clientOffset)) deltaMark
  toClient : ∀ m ∈ l.toClient, m.sentAt ≤ l.now ∧ ∃ deltaMark, l.Answers m.heard deltaMark ∧
    m.IsHeartbeat (clockAt (m.sentAt + l.serverOffset)) deltaMark
  measures : Measures l.client.marks.connectionRttMark l.roundTrip
  notified : List.Forall₂ (fun n roundTrip => Measures n.rttMark roundTrip) l.client.notified
    l.roundTrips

variable {l : Link}

theorem Link.Answers.range {heard : Option ℤ} {deltaMark : Int32} (h : l.Answers heard deltaMark) :
    deltaMark = deltaMarkUnknown ∨ -2 ^ 29 ≤ deltaMark.toInt ∧ deltaMark.toInt < 2 ^ 29 := by
  cases heard with
  | none => exact Or.inl h
  | some flight => exact Or.inr ⟨h.2.lower, h.2.upper⟩

theorem tracks_start (now clientOffset serverOffset : ℤ) :
    Tracks (.start now clientOffset serverOffset) where
  client := Endpoint.isSteady_init
  server := Endpoint.isSteady_init
  answers := rfl
  toServer := nofun
  toClient := nofun
  measures := rfl
  notified := .nil

/-! ### One event -/

/-- Every heartbeat of an endpoint is composed, and the message is that heartbeat. -/
theorem exists_heartbeat {e : Endpoint} (he : e.IsSteady) (clock : Int64)
    (timeMillis : TimeMillis) :
    ∃ bytes, composeHeartbeatMessage
        (e.createOutgoingHeartbeat clock (UInt64.ofNat timeMillis)).1 = some bytes ∧
      ∀ sentAt heard,
        (⟨bytes, sentAt, heard⟩ : LinkMessage).IsHeartbeat clock e.marks.lastDeltaMark := by
  have hsent := Endpoint.isSent_createOutgoingHeartbeat he clock (UInt64.ofNat timeMillis)
  have hmillis : (e.createOutgoingHeartbeat clock (UInt64.ofNat timeMillis)).1.timeMillis.toNat <
      2 ^ 63 := by
    have hlt := timeMillis.isLt
    rw [Endpoint.timeMillis_createOutgoingHeartbeat, UInt64.toNat_ofNat']
    omega
  obtain ⟨bytes, hbytes⟩ := exists_composeHeartbeatMessage hmillis
  exact ⟨bytes, hbytes, fun _ _ => ⟨_, _, hsent, receive_composeHeartbeatMessage hmillis hbytes⟩⟩

theorem Tracks.elapse (h : Tracks l) (microseconds : ℕ) :
    Tracks { l with now := l.now + microseconds } := by
  obtain ⟨hclient, hserver, hanswers, htoServer, htoClient, hmeasures, hnotified⟩ := h
  refine ⟨hclient, hserver, hanswers, fun m hm => ?_, fun m hm => ?_, hmeasures, hnotified⟩
  · obtain ⟨hle, hheartbeat⟩ := htoServer m hm
    exact ⟨by show m.sentAt ≤ l.now + microseconds; omega, hheartbeat⟩
  · obtain ⟨hle, hheartbeat⟩ := htoClient m hm
    exact ⟨by show m.sentAt ≤ l.now + microseconds; omega, hheartbeat⟩

theorem Endpoint.IsSteady.send {e : Endpoint} (he : e.IsSteady) (clock : Int64)
    (timeMillis : UInt64) : (e.createOutgoingHeartbeat clock timeMillis).2.IsSteady :=
  ⟨he.inRange, rfl⟩

theorem Tracks.clientSends (h : Tracks l) (timeMillis : TimeMillis) :
    Tracks (l.step (.clientSends timeMillis)).1 ∧ (l.step (.clientSends timeMillis)).2 = [] := by
  obtain ⟨bytes, hbytes, hheartbeat⟩ :=
    exists_heartbeat h.client (clockAt (l.now + l.clientOffset)) timeMillis
  have hclient := h.client.send (clockAt (l.now + l.clientOffset)) (UInt64.ofNat timeMillis)
  have hstep : l.step (.clientSends timeMillis) = ({ l with
      client := (l.client.createOutgoingHeartbeat (clockAt (l.now + l.clientOffset))
        (UInt64.ofNat timeMillis)).2
      toServer := l.toServer ++ [⟨bytes, l.now, none⟩] }, []) := by
    unfold Link.step
    dsimp only
    rw [hbytes]
  rw [hstep]
  refine ⟨⟨hclient, h.server, h.answers, fun m hm => ?_, h.toClient, h.measures, h.notified⟩,
    rfl⟩
  rcases List.mem_append.mp hm with hm | hm
  · exact h.toServer m hm
  · obtain rfl := List.mem_singleton.mp hm
    exact ⟨le_rfl, _, h.client.inRange.delta, hheartbeat _ _⟩

theorem Tracks.serverSends (h : Tracks l) (timeMillis : TimeMillis) :
    Tracks (l.step (.serverSends timeMillis)).1 ∧ (l.step (.serverSends timeMillis)).2 = [] := by
  obtain ⟨bytes, hbytes, hheartbeat⟩ :=
    exists_heartbeat h.server (clockAt (l.now + l.serverOffset)) timeMillis
  have hserver := h.server.send (clockAt (l.now + l.serverOffset)) (UInt64.ofNat timeMillis)
  have hstep : l.step (.serverSends timeMillis) = ({ l with
      server := (l.server.createOutgoingHeartbeat (clockAt (l.now + l.serverOffset))
        (UInt64.ofNat timeMillis)).2
      toClient := l.toClient ++ [⟨bytes, l.now, l.heard⟩] }, []) := by
    unfold Link.step
    dsimp only
    rw [hbytes]
  rw [hstep]
  refine ⟨⟨h.client, hserver, h.answers, h.toServer, fun m hm => ?_, h.measures, h.notified⟩,
    rfl⟩
  rcases List.mem_append.mp hm with hm | hm
  · exact h.toClient m hm
  · obtain rfl := List.mem_singleton.mp hm
    exact ⟨le_rfl, _, h.answers, hheartbeat _ _⟩

/-- The difference of the time marks of two clocks. -/
theorem timeMark_sub (x y : ℤ) :
    (currentTimeMark (clockAt x)).toInt - (currentTimeMark (clockAt y)).toInt ≡ x - y
      [ZMOD 2 ^ 30] :=
  (currentTimeMark_clockAt x).sub (currentTimeMark_clockAt y)

theorem Tracks.serverReceives (h : Tracks l) :
    Tracks (l.step .serverReceives).1 ∧ (l.step .serverReceives).2 = [] := by
  unfold Link.step
  cases hqueue : l.toServer with
  | nil => exact ⟨h, rfl⟩
  | cons m toServer =>
      obtain ⟨hle, deltaMark, hrange, timeMillis, payload, hsent, hreceive⟩ :=
        h.toServer m (hqueue ▸ List.mem_cons_self)
      obtain ⟨server, hprocess, hsteady, hmarked, -⟩ :=
        Endpoint.exists_process h.server hsent hrange (clockAt (l.now + l.serverOffset))
      simp only [hreceive, hprocess]
      refine ⟨⟨h.client, hsteady, ⟨by omega, ?_⟩, fun m' hm' => ?_, h.toClient, h.measures,
        h.notified⟩, trivial⟩
      · have hdelta := hmarked.delta hsent.hasTimeMark
        refine ⟨hdelta.congruent.trans ?_, hdelta.lower, hdelta.upper⟩
        rw [hsent.timeMark]
        have hsub := timeMark_sub (l.now + l.serverOffset) (m.sentAt + l.clientOffset)
        have htime : l.now + l.serverOffset - (m.sentAt + l.clientOffset) =
            l.now - m.sentAt + l.serverOffset - l.clientOffset := by ring
        rwa [htime] at hsub
      · exact h.toServer m' (hqueue ▸ List.mem_cons_of_mem m hm')

theorem Tracks.clientReceives (h : Tracks l) :
    Tracks (l.step .clientReceives).1 ∧ (l.step .clientReceives).2 = [] := by
  unfold Link.step
  cases hqueue : l.toClient with
  | nil => exact ⟨h, rfl⟩
  | cons m toClient =>
      obtain ⟨hle, deltaMark, hanswers, timeMillis, payload, hsent, hreceive⟩ :=
        h.toClient m (hqueue ▸ List.mem_cons_self)
      obtain ⟨client, hprocess, hsteady, hmarked, hnotified⟩ :=
        Endpoint.exists_process h.client hsent hanswers.range (clockAt (l.now + l.clientOffset))
      simp only [hreceive, hprocess]
      have hmeasures : Measures client.marks.connectionRttMark
          ((m.heard.map fun flight => flight + (l.now - m.sentAt)) <|> l.roundTrip) := by
        cases hheard : m.heard with
        | none =>
            -- a heartbeat without an answer leaves the round-trip time
            rw [hheard] at hanswers
            have hnone : ¬ payload.hasDeltaMark = true := fun hhas =>
              hsent.hasDeltaMark.mp hhas hanswers
            rw [hmarked.noRtt fun hboth => hnone hboth.2]
            exact h.measures
        | some flight =>
            rw [hheard] at hanswers
            obtain ⟨hnonneg, hdelta⟩ := hanswers
            have hknown := hdelta.ne_unknown
            have hrtt := hmarked.rtt hsent.hasTimeMark (hsent.hasDeltaMark.mpr hknown)
            refine ⟨?_, hrtt.congruent.trans ?_, hrtt.lower, hrtt.upper⟩
            · show 0 ≤ flight + (l.now - m.sentAt)
              omega
            rw [hsent.timeMark, hsent.deltaMark hknown]
            have hsum := (timeMark_sub (l.now + l.clientOffset) (m.sentAt + l.serverOffset)).add
              hdelta.congruent
            have htime : l.now + l.clientOffset - (m.sentAt + l.serverOffset) +
                (flight + l.serverOffset - l.clientOffset) = flight + (l.now - m.sentAt) := by ring
            rwa [htime] at hsum
      refine ⟨⟨hsteady, h.server, h.answers, h.toServer, fun m' hm' => ?_, hmeasures, ?_⟩, trivial⟩
      · exact h.toClient m' (hqueue ▸ List.mem_cons_of_mem m hm')
      · rw [hnotified]
        exact List.rel_append h.notified (.cons hmeasures .nil)

theorem Tracks.reconnect (h : Tracks l) (serverOffset : ℤ) :
    Tracks (l.step (.reconnect serverOffset)).1 where
  client := h.client
  server := Endpoint.isSteady_init
  answers := rfl
  toServer := nofun
  toClient := nofun
  measures := h.measures
  notified := h.notified

theorem Tracks.step (h : Tracks l) (event : LinkEvent) :
    Tracks (l.step event).1 ∧ (l.step event).2 = [] := by
  cases event with
  | elapse microseconds => exact ⟨h.elapse microseconds, rfl⟩
  | clientSends timeMillis => exact h.clientSends timeMillis
  | serverSends timeMillis => exact h.serverSends timeMillis
  | clientReceives => exact h.clientReceives
  | serverReceives => exact h.serverReceives
  | reconnect serverOffset => exact ⟨h.reconnect serverOffset, rfl⟩

/-! ### Runs -/

/-- The round-trip time that the listener is told: zero in front of the first one; then the one that
is measured, modulo `2 ^ 30` microseconds, and exactly that one if it is less than half of them. -/
structure Reports (n : Notification) (roundTrip : Option ℤ) : Prop where
  congruent : n.rttMark.toInt ≡ roundTrip.getD 0 [ZMOD 2 ^ 30]
  nonneg : 0 ≤ roundTrip.getD 0
  exact : roundTrip.getD 0 < 2 ^ 29 → n.rttMark.toInt = roundTrip.getD 0

theorem Measures.reports {n : Notification} {roundTrip : Option ℤ}
    (h : Measures n.rttMark roundTrip) : Reports n roundTrip := by
  cases roundTrip with
  | none =>
      have hzero : n.rttMark.toInt = 0 := by
        rw [show n.rttMark = 0 from h]
        rfl
      exact ⟨by rw [hzero]; rfl, le_rfl, fun _ => hzero⟩
  | some roundTrip =>
      obtain ⟨hnonneg, hcongruent, hlower, hupper⟩ := h
      refine ⟨hcongruent, hnonneg, fun hlt => ?_⟩
      rw [Option.getD_some] at hlt ⊢
      rw [Int.ModEq] at hcongruent
      omega

/-- In every run all heartbeats are composed, no sum of marks overflows, and for every heartbeat of
a server the client is told for how long it and the one of the client that it answers were on their
way, whatever the offsets of the clocks are, in this session and in those after reconnects. -/
theorem reportsRoundTrips (now clientOffset serverOffset : ℤ) (events : List LinkEvent) :
    (run Link.step (.start now clientOffset serverOffset) events).2 = [] ∧
      List.Forall₂ Reports
        (run Link.step (.start now clientOffset serverOffset) events).1.client.notified
        (run Link.step (.start now clientOffset serverOffset) events).1.roundTrips := by
  have hstep : ∀ (l : Link) (event : LinkEvent) (faults : List LinkFault),
      Tracks l ∧ faults = [] → True →
        Tracks (l.step event).1 ∧ faults ++ (l.step event).2 = [] := by
    rintro l event faults ⟨h, rfl⟩ -
    exact h.step event
  have hsteps : AllSteps (fun _ _ => True) Link.step (.start now clientOffset serverOffset)
      events := allSteps_true
  have hrun := run_invariant ⟨tracks_start now clientOffset serverOffset, rfl⟩ hsteps hstep
  obtain ⟨htracks, hfaults⟩ := hrun
  exact ⟨hfaults, htracks.notified.imp fun _ _ h => h.reports⟩

end DxFeed.Connection
