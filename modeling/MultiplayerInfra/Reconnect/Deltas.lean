import MultiplayerInfra.GameRoom.CommitOrder
import MultiplayerInfra.GameRoom.Participants
import MultiplayerInfra.Reconnect.Service

/-
  What a delta says about a match: its state was committed,
  and its reader was a player.

  Key definitions include:
    * `Reconnect.clusterRooms`
    * `Reconnect.backedFacts`
    * `Reconnect.tracedRooms`
    * `Reconnect.knownFacts`

  Key theorems include:
    * `Reconnect.logExtends_clusterSteps`
    * `Reconnect.delta_backed_by_log`
    * `Reconnect.delta_only_for_players`

  A request reads the hold slot, the state and the member set
  one after the other, with steps of the rooms in between.
-/

------------------------------------------------------------
-- Deltas and the Log
------------------------------------------------------------

namespace Reconnect

open Py GameRoom Machine

variable {α : Type} [PyNumber α]

/- The rooms with their loops and stores. -/
def clusterRooms
    (settings : Settings) :
    RedisRooms (Rooms α) (String × ClusterAct α) α where
  step := Rooms.step settings
  redis := fun rooms matchId => (rooms matchId).stores.redis

omit [PyNumber α] in
/- A state that was read is backed by the log of its match. -/
def backedFacts : Facts (Rooms α) α where
  hold := fun _ _ _ _ => True
  state := fun rooms matchId state =>
    Backed matchId (rooms matchId).stores.events state
  member := fun _ _ _ => True

/- No action of a room takes anything out of its log. -/
theorem logExtends_clusterSteps
    {settings : Settings}
    {matchId : String}
    {c c' : Cluster α}
    {act : ClusterAct α}
    (hOrder : CommitOrder matchId c)
    (hSteps : ClusterSteps settings matchId c act c') :
    LogExtends c.stores.events c'.stores.events := by
  cases hSteps with
  | @resume t i _ _ _ _ _ _ hTask hLoop hAwaits =>
      exact
        (owed_of_awaits hAwaits (hOrder.loops i _ hLoop)
          (hOrder.tasks t i _ hTask) hOrder.redis).1
  | _ => exact LogExtends.refl _

theorem logExtends_rooms
    {settings : Settings}
    {s t : Rooms α}
    {act : String × ClusterAct α}
    (hOrder : ∀ matchId, CommitOrder matchId (s matchId))
    (hStep : Rooms.step settings s act = some t)
    (matchId : String) :
    LogExtends (s matchId).stores.events
      (t matchId).stores.events := by
  rcases each_eq_some_iff.mp hStep with ⟨c, hThis, rfl⟩
  by_cases hSame : matchId = act.1
  · subst hSame
    rw [Function.update_self]
    exact
      logExtends_clusterSteps (hOrder act.1)
        (clusterSteps_of_step hThis)
  · rw [Function.update_of_ne hSame]
    exact LogExtends.refl _

/- The commit order keeps what a request has read. -/
theorem keeps_backedFacts
    (settings : Settings) :
    Keeps (clusterRooms settings) (fun _ _ => True)
      (fun rooms : Rooms α =>
        ∀ matchId, CommitOrder matchId (rooms matchId))
      backedFacts where
  inv := by
    intro rooms rooms' act hOrder _ hStep
    exact
      forall_of_each hOrder
        (fun hCluster =>
          commitOrder_step (hOrder act.1) hCluster)
        hStep
  state := fun hOrder hState =>
    (hOrder _).redis _ hState
  member := fun _ _ => trivial
  holder := fun _ _ => trivial
  holdKept := fun _ _ _ _ => trivial
  stateKept := fun hOrder _ hStep hBacked =>
    Backed.mono (logExtends_rooms hOrder hStep _) hBacked
  memberKept := fun _ _ _ _ => trivial

/-
  However the calls of the requests, the ticks of the rooms
  and their takeovers interleave: when a delta is answered,
  the log of its match has an acknowledged event with the
  delta's tick, and the delta shows every player of that
  event as the event has it.
-/
theorem delta_backed_by_log
    {settings : Settings}
    {s : State (Rooms α) α}
    (hRun :
      Reachable (step (clusterRooms settings))
        (start Rooms.empty) s)
    {delta : Delta α}
    (hAnswered : .done (.delta delta) ∈ s.requests) :
    ∃ entry ∈ (s.rooms delta.matchId).stores.events,
      entry.acked = true ∧
        entry.event.matchId = delta.matchId ∧
        entry.event.tickOrZero = delta.currentTick ∧
        ∀ pid pdata,
          entry.event.roster.get? pid = some pdata →
            delta.players.get? pid = some pdata := by
  have hAllowed :
      Reaches (step (clusterRooms settings))
        (Allowed (fun _ _ => True) backedFacts)
        (start Rooms.empty) s := by
    refine hRun.mono ?_
    intro s act _
    cases act <;> trivial
  have hInformed :=
    informed_of_reaches (keeps_backedFacts settings)
      (fun matchId => CommitOrder.empty matchId) hAllowed
  cases hInformed.requests _ hAnswered with
  | delta _ hState _ =>
      rcases hState with
        ⟨entry, hEntry, hAcked, hMatch, hTick, hPlayers⟩
      refine ⟨entry, hEntry, hAcked, hMatch, ?_, hPlayers⟩
      simp only [deltaOf, StateJson.tickOrZero, hTick]

/- What the first tick stores of its only player. -/
def heldState : StateJson Int where
  matchId := "room"
  tick := some 1
  players :=
    some (Dict.empty.set "ann" (PlayerState.new "ann").toJson)

/- The delta of a player whose slot is still there. -/
def heldDelta : Delta Int where
  matchId := "room"
  playerId := "ann"
  currentTick := 1
  players :=
    Dict.empty.set "ann" (PlayerState.new "ann").toJson
  leaderAddress := "game-room:8000"
  holdAvailable := true
  holdState := some ⟨some 0, some 0, some 100, some 0⟩

/-
  The first tick reaches Redis, a request reads it, and the
  loop dies before the request goes on.
-/
def answeredLate : State (Rooms Int) Int :=
  final (step (clusterRooms {})) (start Rooms.empty)
    (([.create 0 100, .join 0 "ann" none, .spawn 0 0,
        .resume 0 (.ok 101), .resume 0 .effect,
        .resume 0 (.ok 102), .resume 0 .effect].map
          (fun act => .rooms ("room", act))) ++
      [.setHold "room" "ann"
        ⟨some 0, some 0, some 100, some 0⟩,
        .begin "token" "room", .validated 0 (some "ann"),
        .call 0, .call 0, .rooms ("room", .crash {0}),
        .rooms ("room", .evict .state), .call 0,
        .found 0 none])
    (by decide +kernel)

theorem delta_backed_answeredLate :
    ∃ entry ∈ (answeredLate.rooms "room").stores.events,
      entry.acked = true ∧
        entry.event.matchId = "room" ∧
        entry.event.tickOrZero = 1 ∧
        ∀ pid pdata,
          entry.event.roster.get? pid = some pdata →
            heldDelta.players.get? pid = some pdata := by
  have hAnswered :
      .done (.delta heldDelta) ∈ answeredLate.requests := by
    decide +kernel
  exact
    delta_backed_by_log
      (reachable_of_run (run_eq_final (by decide +kernel)))
      hAnswered

end Reconnect

------------------------------------------------------------
-- Deltas and Players
------------------------------------------------------------

namespace Reconnect

open Py GameRoom Machine

variable {α : Type} [DecidableEq α]

/- The rooms with a record of where names come from. -/
def tracedRooms
    [PyNumber α]
    (settings : Settings) :
    RedisRooms (Rooms α × Provenance α)
      (String × ClusterAct α) α where
  step := observe (Rooms.step settings) noteProvenance
  redis := fun s matchId => (s.1 matchId).stores.redis

omit [DecidableEq α] in
/-
  A hold slot that was read belongs to the player, and the
  names that were read are players of the match.
-/
def knownFacts : Facts (Rooms α × Provenance α) α where
  hold := fun s matchId playerId value =>
    (matchId, playerId, value) ∈ s.2.slots
  state := fun s matchId state =>
    Names (s.2.Knows matchId) state.roster.keys
  member := fun s matchId playerId =>
    s.2.Knows matchId playerId

instance
    (s : Rooms α × Provenance α) :
    (act : String × ClusterAct α) →
      Decidable (LoadsWritten s act)
| (_, .load _ replies) =>
    inferInstanceAs (Decidable
      (∀ data ∈ replies.data, data ∈ s.2.data.map Prod.snd))
| (_, .create _ _) => isTrue trivial
| (_, .spawn _ _) => isTrue trivial
| (_, .resume _ _) => isTrue trivial
| (_, .input _ _ _) => isTrue trivial
| (_, .join _ _ _) => isTrue trivial
| (_, .leave _ _) => isTrue trivial
| (_, .stop _) => isTrue trivial
| (_, .crash _) => isTrue trivial
| (_, .deleteKeys) => isTrue trivial
| (_, .evict _) => isTrue trivial

instance
    (s : State (Rooms α × Provenance α) α) :
    (act : Act (String × ClusterAct α) α) →
      Decidable (Allowed LoadsWritten knownFacts s act)
| .rooms act =>
    inferInstanceAs (Decidable (LoadsWritten s.rooms act))
| .setHold matchId playerId value =>
    inferInstanceAs (Decidable
      ((matchId, playerId, value) ∈ s.rooms.2.slots))
| .dropHold _ _ => isTrue trivial
| .begin _ _ => isTrue trivial
| .validated _ _ => isTrue trivial
| .call _ => isTrue trivial
| .found _ _ => isTrue trivial
| .raise _ _ => isTrue trivial

variable [PyNumber α]

theorem keeps_knownFacts
    (settings : Settings) :
    Keeps (tracedRooms settings) LoadsWritten
      (RoomsKnown (α := α)) knownFacts where
  inv := roomsKnown_step
  state := fun hKnown hState =>
    (hKnown.rooms _).redis.state _ hState
  member := fun hKnown hMember =>
    (hKnown.rooms _).redis.players _ hMember
  holder := fun hKnown hHold =>
    hKnown.slots _ _ _ hHold
  holdKept := by
    intro s t act matchId playerId value _ _ hStep hHold
    rcases observe_eq_some_iff.mp hStep with ⟨_, hNote⟩
    simp only [knownFacts, hNote]
    exact slots_subset_note hHold
  stateKept := by
    intro s t act matchId state _ _ hStep hNames
    rcases observe_eq_some_iff.mp hStep with ⟨_, hNote⟩
    simp only [knownFacts, hNote]
    exact Names.mono hNames (fun _ => knows_note)
  memberKept := by
    intro s t act matchId playerId _ _ hStep hKnows
    rcases observe_eq_some_iff.mp hStep with ⟨_, hNote⟩
    simp only [knownFacts, hNote]
    exact knows_note hKnows

/-
  However the steps interleave: a delta is answered only to a
  player who joined the room (or one whose data reached it),
  and it shows nobody else either.
-/
theorem delta_only_for_players
    {settings : Settings}
    {s : State (Rooms α × Provenance α) α}
    (hRun :
      Reaches (step (tracedRooms settings))
        (Allowed LoadsWritten knownFacts)
        (start (Rooms.empty, Provenance.none)) s)
    {delta : Delta α}
    (hAnswered : .done (.delta delta) ∈ s.requests) :
    s.rooms.2.Knows delta.matchId delta.playerId ∧
      ∀ pid ∈ delta.players.keys,
        s.rooms.2.Knows delta.matchId pid := by
  have hInformed :=
    informed_of_reaches (keeps_knownFacts settings)
      roomsKnown_empty hRun
  cases hInformed.requests _ hAnswered with
  | delta _ hState hMember => exact ⟨hMember, hState⟩

/-
  A player leaves after the first tick; the next leader loads
  the state before the player asks for it.
-/
def askedAfterTakeover :
    State (Rooms Int × Provenance Int) Int :=
  final (step (tracedRooms {}))
    (start (Rooms.empty, Provenance.none))
    (([.create 0 100, .join 0 "ann" none, .spawn 0 0,
        .resume 0 (.ok 101), .resume 0 .effect,
        .resume 0 (.ok 102), .resume 0 .effect,
        .leave 0 "ann", .crash {0}, .create 1 110,
        .load 1 ⟨some (some heldState, some 0), none, none,
          [], 0⟩].map (fun act => .rooms ("room", act))) ++
      [.setHold "room" "ann"
        ⟨some 0, some 0, some 100, some 0⟩,
        .begin "token" "room", .validated 0 (some "ann"),
        .call 0, .call 0, .call 0, .found 0 none])
    (by decide +kernel)

theorem delta_only_askedAfterTakeover :
    askedAfterTakeover.rooms.2.Knows "room" "ann" ∧
      ∀ pid ∈ heldDelta.players.keys,
        askedAfterTakeover.rooms.2.Knows "room" pid := by
  have hAnswered :
      .done (.delta heldDelta) ∈
        askedAfterTakeover.requests := by
    decide +kernel
  exact
    delta_only_for_players
      (reaches_of_run (run_eq_final (by decide +kernel))
        (by decide +kernel))
      hAnswered

end Reconnect
