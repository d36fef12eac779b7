import MultiplayerInfra.Room.Machine

/-
  What spectators are sent, over takeovers and matches.

  Key definitions include:
    * `Room.Broadcast`
    * `Room.Spectated`
    * `Room.spectatedStep`
    * `Room.Feeds`
    * `Room.Delayed`

  Key theorems include:
    * `Room.Feeds.delayed`
    * `Room.spectated_step`
    * `Room.spectators_delayed_iff`

  The delay is that of a buffer in memory, which a new leader
  begins with nothing.
-/

------------------------------------------------------------
-- Broadcasts
------------------------------------------------------------

namespace Room

open Py GameRoom

variable {α : Type}

/- A loop object, and the tick at which it began. -/
structure LoopView (α : Type) where
  loop : GameLoop α
  began : Nat

/- A task of `broadcast_to_spectators`. -/
structure Broadcast (α : Type) where
  snapshot : StateJson α
  -- the state that it sends, once it has started
  delayed : Option (StateJson α)
  -- its loop, once another match was started
  past : Option (LoopView α)

/- One message to one spectator. -/
structure Send where
  -- the current tick of the match
  current : Nat
  -- the tick of the state that is sent
  tick : Nat
  -- the tick at which the loop of the broadcast began
  began : Nat
  delayTicks : Nat
deriving DecidableEq

/- A room with its broadcasts to spectators. -/
structure Spectated (α : Type) where
  room : State α
  began : Nat
  -- `state_snapshot` of the tick in progress
  snapshot : Option (StateJson α)
  broadcasts : List (Broadcast α)
  sends : List Send

def Spectated.empty : Spectated α where
  room := State.empty
  began := 0
  snapshot := none
  broadcasts := []
  sends := []

inductive SpectatedAct (α : Type) where
  | room (act : Act α)
  -- a broadcast starts, or sends to one more spectator
  | start (k : Nat)
  | send (k : Nat)

namespace Spectated

/- The loop of the leader. -/
def live (s : Spectated α) : Option (LoopView α) :=
  s.room.leader.map (fun ld => ⟨ld.loop, s.began⟩)

/- The loop of a broadcast. -/
def view
    (s : Spectated α)
    (b : Broadcast α) : Option (LoopView α) :=
  b.past.or s.live

/- The broadcast of a tick is created. -/
def broadcast
    (s : Spectated α) : List (Broadcast α) :=
  s.broadcasts ++
    s.snapshot.toList.map (fun snapshot =>
      { snapshot := snapshot
        delayed := none
        past := none })

/- The broadcasts of a loop that is replaced. -/
def retire (s : Spectated α) : List (Broadcast α) :=
  s.broadcasts.map (fun b => { b with past := s.view b })

/- What a step of the room means for the broadcasts. -/
def after
    (s : Spectated α)
    (act : Act α)
    (room : State α) : Spectated α :=
  match s.room.leader, act with
  | _, .takeover _ _ _ =>
      { s with
        room := room
        began :=
          (room.leader.map (fun ld =>
            ld.loop.state.tick)).getD 0
        snapshot := none
        broadcasts := [] }
  | _, .crash =>
      { s with
        room := room, snapshot := none, broadcasts := [] }
  | _, .delete (.ok _) =>
      { s with
        room := room
        began := 0
        snapshot := none
        broadcasts := s.retire }
  | some ⟨_, _, .inRun (.publishing _ event (some _))⟩,
      .resume (.ok _) =>
      { s with room := room, snapshot := some event }
  | some ⟨g, _, .inRun (.updatingRedis _ cmd true)⟩,
      .resume (.ok _) =>
      { s with
        room := room
        broadcasts :=
          if (nextRedisCmd g cmd).isNone then s.broadcast
          else s.broadcasts }
  | _, _ => { s with room := room }

/- The state that a broadcast sends, an object never empty. -/
def delayedState
    (v : LoopView α)
    (b : Broadcast α) : StateJson α :=
  (v.loop.spectatorBuffer.getDelayedState
    v.loop.state.tick).getD b.snapshot

end Spectated

def spectatedStep
    [PyNumber α]
    (settings : Settings)
    (interval : Nat)
    (matchId : String)
    (s : Spectated α) :
    SpectatedAct α → Option (Spectated α)
| .room act =>
    (step settings interval matchId s.room act).map
      (s.after act)
| .start k =>
    (s.broadcasts[k]?).bind (fun b =>
      (s.view b).bind (fun v =>
        if b.delayed.isSome then none
        else
          some
            { s with
              broadcasts :=
                s.broadcasts.set k
                  { b with
                    delayed :=
                      some
                        (Spectated.delayedState v b) } }))
| .send k =>
    (s.broadcasts[k]?).bind (fun b =>
      (s.view b).bind (fun v =>
        b.delayed.map (fun data =>
          { s with
            sends :=
              s.sends ++
                [{ current := v.loop.state.tick
                   tick := data.tickOrZero
                   began := v.began
                   delayTicks :=
                     v.loop.spectatorBuffer.delayTicks }] })))

end Room

------------------------------------------------------------
-- The Buffer of a Loop
------------------------------------------------------------

namespace Room

open Py GameRoom

variable {α : Type}
variable {settings : Settings}

/- The buffer has the ticks of the loop since it began. -/
structure Feeds
    (settings : Settings)
    (v : LoopView α) : Prop where
  maxSize :
    v.loop.spectatorBuffer.maxSize = settings.tickRate * 30
  delayTicks :
    v.loop.spectatorBuffer.delayTicks =
      settings.tickRate * 10
  holds :
    v.loop.spectatorBuffer.Holds v.began v.loop.state.tick
  states :
    ∀ entry ∈ v.loop.spectatorBuffer.buffer,
      entry.2.tickOrZero = entry.1

/-
  From now on the tick is far enough behind the current one
  as soon as the tick at which the loop began is.
-/
def Delayed (began delayTicks now tick : Nat) : Prop :=
  ∀ current, now ≤ current →
    (tick + delayTicks ≤ current ↔
      began + delayTicks < current)

/- Nothing else of a loop is about its buffer. -/
theorem Feeds.of_eq
    {v : LoopView α}
    {g : GameLoop α}
    (hFeeds : Feeds settings v)
    (hBuffer : g.spectatorBuffer = v.loop.spectatorBuffer)
    (hTick : g.state.tick = v.loop.state.tick) :
    Feeds settings ⟨g, v.began⟩ := by
  rcases v with ⟨g₀, began⟩
  rcases hFeeds with ⟨hMax, hDelay, hHolds, hStates⟩
  rw [← hBuffer] at hMax hDelay hHolds hStates
  rw [← hTick] at hHolds
  exact ⟨hMax, hDelay, hHolds, hStates⟩

/- A committed tick is appended. -/
theorem Feeds.commit
    {v : LoopView α}
    (hFeeds : Feeds settings v)
    (next : Players α)
    {event : StateJson α}
    (hTick : event.tickOrZero = v.loop.state.tick + 1)
    (offset : Int) :
    Feeds settings
      ⟨v.loop.commitTick next event offset, v.began⟩ := by
  have hBuffer :
      (v.loop.commitTick next event offset).spectatorBuffer =
        v.loop.spectatorBuffer.append event.tickOrZero
          event :=
    rfl
  refine ⟨hFeeds.maxSize, hFeeds.delayTicks, ?_, ?_⟩
  · have hNext := hFeeds.holds.append event
    rw [← hTick] at hNext
    exact hNext
  · intro entry hMem
    have hIn :
        entry ∈
          v.loop.spectatorBuffer.buffer ++
            [(event.tickOrZero, event)] := by
      rw [hBuffer, SpectatorRingBuffer.append] at hMem
      simp only at hMem
      split at hMem
      · exact List.mem_of_mem_tail hMem
      · exact hMem
    rcases List.mem_append.mp hIn with hOld | hNew
    · exact hFeeds.states entry hOld
    · rw [List.mem_singleton.mp hNew]

/- A new loop has an empty buffer, whatever it has loaded. -/
theorem feeds_beginRun
    {g : GameLoop α}
    (hBuffer :
      g.spectatorBuffer =
        SpectatorRingBuffer.empty (settings.tickRate * 30)
          (settings.tickRate * 10)) :
    Feeds settings ⟨(beginRun g).1, g.state.tick⟩ := by
  have hSame :
      (beginRun g).1.spectatorBuffer = g.spectatorBuffer :=
    rfl
  refine ⟨?_, ?_, ?_, ?_⟩
  · rw [hSame, hBuffer]
    rfl
  · rw [hSame, hBuffer]
    rfl
  · change (beginRun g).1.spectatorBuffer.Holds _ _
    rw [hSame, hBuffer]
    exact SpectatorRingBuffer.holds_empty _ _ _
  · intro entry hMem
    rw [hSame, hBuffer] at hMem
    cases hMem

/- The state that a broadcast finds in the buffer. -/
theorem Feeds.delayed
    {v : LoopView α}
    {b : Broadcast α}
    (hFeeds : Feeds settings v)
    (hBegan : v.began < b.snapshot.tickOrZero)
    (hNow : b.snapshot.tickOrZero ≤ v.loop.state.tick) :
    Delayed v.began v.loop.spectatorBuffer.delayTicks
      v.loop.state.tick
      (Spectated.delayedState v b).tickOrZero := by
  rcases hFeeds with
    ⟨hMax, hDelay, ⟨hOrder, hSize, hTicks⟩, hStates⟩
  intro current hLater
  cases hBuffer : v.loop.spectatorBuffer.buffer with
  | nil =>
      -- only a buffer without room is empty after a tick
      have hNone :
          Spectated.delayedState v b = b.snapshot := by
        simp [Spectated.delayedState,
          SpectatorRingBuffer.getDelayedState, hBuffer]
      rw [hBuffer, List.length_nil] at hSize
      rw [hNone]
      omega
  | cons oldest rest =>
      have hHead :
          v.loop.spectatorBuffer.buffer.head? =
            some oldest := by
        rw [hBuffer]
        rfl
      have hOldest :
          oldest.1 =
            v.loop.state.tick + 1 -
              v.loop.spectatorBuffer.buffer.length := by
        have hFirst := congrArg List.head? hTicks
        rw [List.head?_map, hHead, List.head?_range'] at hFirst
        have hSome :
            v.loop.spectatorBuffer.buffer.length ≠ 0 := by
          simp [hBuffer]
        rw [if_neg hSome] at hFirst
        exact Option.some.inj hFirst
      rcases SpectatorRingBuffer.getDelayedState_spec hHead
          v.loop.state.tick with
        ⟨entry, hMem, hFound, hEnough, hElse⟩
      have hTick :
          (Spectated.delayedState v b).tickOrZero =
            entry.1 := by
        rw [Spectated.delayedState, hFound]
        exact hStates entry hMem
      have hSince : oldest.1 ≤ entry.1 := by
        have hIn := List.mem_map_of_mem (f := Prod.fst) hMem
        rw [hTicks, List.mem_range'_1] at hIn
        omega
      have hLength :
          1 ≤ v.loop.spectatorBuffer.buffer.length := by
        simp [hBuffer]
      rw [hTick]
      by_cases hOld :
          oldest.1 + v.loop.spectatorBuffer.delayTicks ≤
            v.loop.state.tick
      · have hEntry := hEnough hOld
        omega
      · rcases hElse hOld with hEntry | rfl
        · omega
        · omega

end Room

------------------------------------------------------------
-- Invariant
------------------------------------------------------------

namespace Room

open Py GameRoom

variable {α : Type}
variable {settings : Settings}

/- A broadcast whose loop has reached its tick. -/
structure BroadcastFed
    (settings : Settings)
    (v : LoopView α)
    (b : Broadcast α) : Prop where
  feeds : Feeds settings v
  began : v.began < b.snapshot.tickOrZero
  now : b.snapshot.tickOrZero ≤ v.loop.state.tick
  delayed :
    ∀ data, b.delayed = some data →
      Delayed v.began v.loop.spectatorBuffer.delayTicks
        v.loop.state.tick data.tickOrZero

structure SpectatedFed
    (settings : Settings)
    (s : Spectated α) : Prop where
  live : ∀ v, s.live = some v → Feeds settings v
  publishing :
    ∀ g matchNo next event kept,
      s.room.leader =
          some
            ⟨g, matchNo,
              .inRun (.publishing next event kept)⟩ →
        event.tickOrZero = g.state.tick + 1
  snapshot :
    ∀ event, s.snapshot = some event →
      ∃ v, s.live = some v ∧
        v.began < event.tickOrZero ∧
          event.tickOrZero ≤ v.loop.state.tick
  broadcasts :
    ∀ b ∈ s.broadcasts,
      ∃ v, s.view b = some v ∧ BroadcastFed settings v b
  sends :
    ∀ send ∈ s.sends,
      (send.tick + send.delayTicks ≤ send.current ↔
        send.began + send.delayTicks < send.current)

theorem spectatedFed_empty :
    SpectatedFed settings (Spectated.empty : Spectated α) where
  live := by
    intro v hLive
    cases hLive
  publishing := by
    intro g matchNo next event kept hLeader
    cases hLeader
  snapshot := by
    intro event hSnapshot
    cases hSnapshot
  broadcasts := by
    intro b hMem
    cases hMem
  sends := by
    intro send hMem
    cases hMem

/- A later view of the same loop. -/
structure Follows
    (settings : Settings)
    (v v' : LoopView α) : Prop where
  began : v'.began = v.began
  delayTicks :
    v'.loop.spectatorBuffer.delayTicks =
      v.loop.spectatorBuffer.delayTicks
  tick : v.loop.state.tick ≤ v'.loop.state.tick
  feeds : Feeds settings v → Feeds settings v'

theorem BroadcastFed.follow
    {v v' : LoopView α}
    {b : Broadcast α}
    (hFed : BroadcastFed settings v b)
    (hFollows : Follows settings v v')
    (past : Option (LoopView α)) :
    BroadcastFed settings v' { b with past := past } where
  feeds := hFollows.feeds hFed.feeds
  began := by
    rw [hFollows.began]
    exact hFed.began
  now := hFed.now.trans hFollows.tick
  delayed := by
    intro data hData current hLater
    rw [hFollows.began, hFollows.delayTicks]
    exact
      hFed.delayed data hData current
        (hFollows.tick.trans hLater)

theorem Follows.refl
    (v : LoopView α) :
    Follows settings v v where
  began := rfl
  delayTicks := rfl
  tick := le_rfl
  feeds := id

/- The buffer and the tick are as they were. -/
theorem follows_of_eq
    {g g' : GameLoop α}
    (began : Nat)
    (hBuffer : g'.spectatorBuffer = g.spectatorBuffer)
    (hTick : g'.state.tick = g.state.tick) :
    Follows settings ⟨g, began⟩ ⟨g', began⟩ where
  began := rfl
  delayTicks := congrArg _ hBuffer
  tick := hTick.ge
  feeds := fun hFeeds => hFeeds.of_eq hBuffer hTick

/- Players change neither the buffer nor the tick. -/
theorem Plays.follows
    [PyNumber α]
    {g g' : GameLoop α}
    (hPlays : Plays g g')
    (began : Nat) :
    Follows settings ⟨g, began⟩ ⟨g', began⟩ := by
  refine follows_of_eq began ?_ hPlays.frame.1
  cases hPlays with
  | input playerId inputData => rfl
  | join playerId hold =>
      unfold GameLoop.addPlayer
      split
      · rfl
      · split <;> rfl
  | leave playerId =>
      unfold GameLoop.removePlayer
      split <;> rfl

/- The run task commits the tick that it has published. -/
theorem follows_of_awaits
    [PyNumber α]
    {matchNo : Nat}
    {st st' : Stores α}
    {g g' : GameLoop α}
    {aw aw' : Await α}
    {r : Reply}
    (hAwaits : Awaits matchNo st g aw r st' g' aw')
    (hPublishing :
      ∀ next event kept, aw = .publishing next event kept →
        event.tickOrZero = g.state.tick + 1)
    (began : Nat) :
    Follows settings ⟨g, began⟩ ⟨g', began⟩ ∧
      ∀ next event kept,
        aw' = .publishing next event kept →
          event.tickOrZero = g'.state.tick + 1 := by
  cases hAwaits with
  | head hResumes =>
      rcases hHead : loopHead g with ⟨g₁, aw₁⟩
      cases heads_loopHead hHead with
      | publish hRunning hBegin =>
          have hState := (frame_beginTick hBegin).1
          refine ⟨follows_of_eq began ?_ ?_, ?_⟩
          · exact
              (congrArg (fun p => p.1.spectatorBuffer)
                hBegin).symm
          · rw [hState]
          · intro next event kept hEq
            cases hEq
            rw [(isTick_of_beginTick hBegin).tickOrZero]
            rw [hState]
      | pause hRunning hBegin =>
          have hState := (frame_beginTick hBegin).1
          refine ⟨follows_of_eq began ?_ ?_, nofun⟩
          · exact
              (congrArg (fun p => p.1.spectatorBuffer)
                hBegin).symm
          · rw [hState]
      | finish hDone => exact ⟨Follows.refl _, nofun⟩
  | appendEvent =>
      refine ⟨Follows.refl _, ?_⟩
      intro next event kept hEq
      cases hEq
      exact hPublishing _ _ _ rfl
  | @commit next event offset now =>
      have hTick := hPublishing next event _ rfl
      have hFollows :
          Follows settings ⟨g, began⟩
            ⟨g.commitTick next event offset, began⟩ :=
        { began := rfl
          delayTicks := rfl
          tick := by
            rw [GameLoop.tick_commitTick, hTick]
            exact Nat.le_succ _
          feeds := fun hFeeds =>
            hFeeds.commit next hTick offset }
      exact ⟨hFollows, nofun⟩
  | redisDone _ =>
      unfold finishTick
      split
      · exact ⟨follows_of_eq began rfl rfl, nofun⟩
      · exact ⟨Follows.refl _, nofun⟩
  | endTelemetry =>
      unfold writeMatchRecord
      split <;> exact ⟨Follows.refl _, nofun⟩
  | retry =>
      unfold retrySave
      split <;> exact ⟨Follows.refl _, nofun⟩
  | _ => exact ⟨Follows.refl _, nofun⟩

end Room

------------------------------------------------------------
-- Steps
------------------------------------------------------------

namespace Room

open Py GameRoom

variable {α : Type}
variable {settings : Settings}
variable {s t : Spectated α}

/- A broadcast of a room whose loop goes on. -/
theorem SpectatedFed.view
    (hFed : SpectatedFed settings s)
    {b : Broadcast α}
    (hMem : b ∈ s.broadcasts)
    {v' : LoopView α}
    (hLive : t.live = some v')
    (hFollows :
      ∀ v, s.live = some v → Follows settings v v') :
    ∃ v, t.view b = some v ∧ BroadcastFed settings v b := by
  rcases hFed.broadcasts b hMem with ⟨v, hView, hOld⟩
  cases hPast : b.past with
  | some v₀ =>
      rw [Spectated.view, hPast, Option.some_or] at hView
      cases hView
      exact
        ⟨v, by rw [Spectated.view, hPast, Option.some_or],
          hOld⟩
  | none =>
      rw [Spectated.view, hPast, Option.none_or] at hView
      refine
        ⟨v', by rw [Spectated.view, hPast, Option.none_or, hLive],
          ?_⟩
      have hSame := hOld.follow (hFollows v hView) b.past
      exact hSame

/- A step in which the loop of the leader goes on. -/
theorem SpectatedFed.go
    (hFed : SpectatedFed settings s)
    {v v' : LoopView α}
    (hLive : s.live = some v)
    (hLive' : t.live = some v')
    (hFollows : Follows settings v v')
    (hPublishing :
      ∀ g matchNo next event kept,
        t.room.leader =
            some
              ⟨g, matchNo,
                .inRun (.publishing next event kept)⟩ →
          event.tickOrZero = g.state.tick + 1)
    (hSnapshot :
      ∀ event, t.snapshot = some event →
        s.snapshot = some event ∨
          v'.began < event.tickOrZero ∧
            event.tickOrZero ≤ v'.loop.state.tick)
    (hBroadcasts :
      t.broadcasts = s.broadcasts ∨
        t.broadcasts = s.broadcast)
    (hSends : t.sends = s.sends) :
    SpectatedFed settings t := by
  have hFeeds := hFollows.feeds (hFed.live v hLive)
  have hOld :
      ∀ b ∈ s.broadcasts,
        ∃ v, t.view b = some v ∧
          BroadcastFed settings v b := by
    intro b hMem
    refine hFed.view hMem hLive' ?_
    intro v₀ hView
    rw [hLive] at hView
    cases hView
    exact hFollows
  refine ⟨?_, hPublishing, ?_, ?_, ?_⟩
  · intro v₀ hView
    rw [hLive'] at hView
    cases hView
    exact hFeeds
  · intro event hEvent
    refine ⟨v', hLive', ?_⟩
    rcases hSnapshot event hEvent with hSame | hNew
    · rcases hFed.snapshot event hSame with
        ⟨v₀, hView, hBegan, hNow⟩
      rw [hLive] at hView
      cases hView
      rw [hFollows.began]
      exact ⟨hBegan, hNow.trans hFollows.tick⟩
    · exact hNew
  · intro b hMem
    rcases hBroadcasts with hSame | hMore
    · rw [hSame] at hMem
      exact hOld b hMem
    · rw [hMore] at hMem
      rcases List.mem_append.mp hMem with hMem | hNew
      · exact hOld b hMem
      · rcases List.mem_map.mp hNew with
          ⟨event, hEvent, rfl⟩
        rcases hFed.snapshot event
            (Option.mem_toList.mp hEvent) with
          ⟨v₀, hView, hBegan, hNow⟩
        rw [hLive] at hView
        cases hView
        refine ⟨v', ?_, hFeeds, ?_, ?_, nofun⟩
        · rw [Spectated.view, Option.none_or]
          exact hLive'
        · rw [hFollows.began]
          exact hBegan
        · exact hNow.trans hFollows.tick
  · rw [hSends]
    exact hFed.sends

/- A step after which no loop is left to broadcast. -/
theorem SpectatedFed.begin
    (hFed : SpectatedFed settings s)
    {g : GameLoop α}
    (hLive :
      t.live = some ⟨(beginRun g).1, g.state.tick⟩)
    (hBuffer :
      g.spectatorBuffer =
        SpectatorRingBuffer.empty (settings.tickRate * 30)
          (settings.tickRate * 10))
    (hPublishing :
      ∀ g matchNo next event kept,
        t.room.leader ≠
          some
            ⟨g, matchNo,
              .inRun (.publishing next event kept)⟩)
    (hSnapshot : t.snapshot = none)
    (hBroadcasts :
      ∀ b ∈ t.broadcasts,
        ∃ v, t.view b = some v ∧ BroadcastFed settings v b)
    (hSends : t.sends = s.sends) :
    SpectatedFed settings t := by
  refine ⟨?_, ?_, ?_, hBroadcasts, ?_⟩
  · intro v hView
    rw [hLive] at hView
    cases hView
    exact feeds_beginRun hBuffer
  · intro g matchNo next event kept hLeader
    exact absurd hLeader (hPublishing _ _ _ _ _)
  · intro event hEvent
    rw [hSnapshot] at hEvent
    cases hEvent
  · rw [hSends]
    exact hFed.sends

/- The broadcasts of a loop that is replaced keep it. -/
theorem SpectatedFed.retire
    (hFed : SpectatedFed settings s)
    {b : Broadcast α}
    (hMem : b ∈ s.retire) :
    ∃ v, t.view b = some v ∧ BroadcastFed settings v b := by
  rcases List.mem_map.mp hMem with ⟨b₀, hOld, rfl⟩
  rcases hFed.broadcasts b₀ hOld with ⟨v, hView, hB⟩
  refine ⟨v, ?_, hB.follow (Follows.refl v) _⟩
  rw [Spectated.view, hView]
  rfl

variable [PyNumber α]
variable {interval : Nat}
variable {matchId : String}

/- What `after` records of a step of the run task. -/
theorem after_resume
    {g : GameLoop α}
    {matchNo : Nat}
    {aw aw' : Await α}
    {r : Reply}
    {st' : Stores α}
    {g' : GameLoop α}
    (hLeader : s.room.leader = some ⟨g, matchNo, .inRun aw⟩)
    (hAwaits :
      Awaits matchNo s.room.stores g aw r st' g' aw')
    (room : State α) :
    (s.after (.resume r) room).room = room ∧
      (s.after (.resume r) room).began = s.began ∧
      (s.after (.resume r) room).sends = s.sends ∧
      ((s.after (.resume r) room).broadcasts =
          s.broadcasts ∨
        (s.after (.resume r) room).broadcasts =
          s.broadcast) ∧
      ∀ event,
        (s.after (.resume r) room).snapshot = some event →
          s.snapshot = some event ∨
            ∃ next offset,
              aw = .publishing next event (some offset) ∧
                g' = g.commitTick next event offset := by
  simp only [Spectated.after, hLeader]
  cases hAwaits with
  | @head _ r hResumes =>
      cases hResumes <;> cases r <;>
        exact ⟨rfl, rfl, rfl, .inl rfl, fun _ => .inl⟩
  | @commit next event offset now =>
      refine ⟨rfl, rfl, rfl, .inl rfl, ?_⟩
      intro event' hEvent
      cases hEvent
      exact .inr ⟨next, offset, rfl, rfl⟩
  | redisNext hNext =>
      refine ⟨rfl, rfl, rfl, ?_, fun _ => .inl⟩
      simp [hNext]
  | redisDone hNext =>
      refine ⟨rfl, rfl, rfl, ?_, fun _ => .inl⟩
      simp [hNext]
  | @endPublished event kept r =>
      cases r <;>
        exact ⟨rfl, rfl, rfl, .inl rfl, fun _ => .inl⟩
  | @endTelemetry outcome r now =>
      cases r <;>
        exact ⟨rfl, rfl, rfl, .inl rfl, fun _ => .inl⟩
  | _ => exact ⟨rfl, rfl, rfl, .inl rfl, fun _ => .inl⟩

omit [PyNumber α] in
/- The loop of the leader is as it was. -/
theorem SpectatedFed.same
    (hFed : SpectatedFed settings s)
    {room : State α}
    (hLoop :
      room.leader.map Leader.loop =
        s.room.leader.map Leader.loop)
    (hPublishing :
      ∀ g matchNo next event kept,
        room.leader =
            some
              ⟨g, matchNo,
                .inRun (.publishing next event kept)⟩ →
          event.tickOrZero = g.state.tick + 1) :
    SpectatedFed settings { s with room := room } := by
  have hLive :
      Spectated.live { s with room := room } = s.live := by
    have hBoth :=
      congrArg
        (Option.map (fun g => LoopView.mk g s.began)) hLoop
    rw [Option.map_map, Option.map_map] at hBoth
    exact hBoth
  refine ⟨?_, hPublishing, ?_, ?_, hFed.sends⟩
  · intro v hView
    rw [hLive] at hView
    exact hFed.live v hView
  · intro event hEvent
    rw [hLive]
    exact hFed.snapshot event hEvent
  · intro b hMem
    unfold Spectated.view
    rw [hLive]
    exact hFed.broadcasts b hMem

/- Players act on the loop of the leader. -/
theorem SpectatedFed.play
    (hFed : SpectatedFed settings s)
    {ld : Leader α}
    {g : GameLoop α}
    (hLeader : s.room.leader = some ld)
    (hPlays : Plays ld.loop g) :
    SpectatedFed settings
      { s with
        room :=
          { s.room with
            leader := some { ld with loop := g } } } := by
  rcases ld with ⟨g₀, matchNo, task⟩
  have hLive : s.live = some ⟨g₀, s.began⟩ := by
    rw [Spectated.live, hLeader]
    rfl
  refine
    hFed.go hLive rfl (hPlays.follows s.began) ?_
      (fun _ => .inl) (.inl rfl) rfl
  intro g₁ no next event kept hNow
  cases hNow
  rw [hPlays.frame.1]
  exact hFed.publishing _ _ _ _ _ hLeader

omit [PyNumber α] in
/- The leader crashes, and its broadcasts with it. -/
theorem SpectatedFed.crash
    (hFed : SpectatedFed settings s)
    {room : State α}
    (hLeader : room.leader = none) :
    SpectatedFed settings
      { s with
        room := room, snapshot := none, broadcasts := [] } where
  live := by
    intro v hView
    rw [Spectated.live, hLeader] at hView
    cases hView
  publishing := by
    intro g matchNo next event kept hNow
    rw [hLeader] at hNow
    cases hNow
  snapshot := nofun
  broadcasts := by
    intro b hMem
    cases hMem
  sends := hFed.sends

omit [PyNumber α] in
/- A broadcast finds its delayed state. -/
theorem SpectatedFed.start
    (hFed : SpectatedFed settings s)
    {k : Nat}
    {b : Broadcast α}
    {v : LoopView α}
    (hMem : b ∈ s.broadcasts)
    (hView : s.view b = some v) :
    SpectatedFed settings
      { s with
        broadcasts :=
          s.broadcasts.set k
            { b with
              delayed :=
                some (Spectated.delayedState v b) } } := by
  refine
    ⟨hFed.live, hFed.publishing, hFed.snapshot, ?_,
      hFed.sends⟩
  intro b' hMem'
  rcases List.mem_or_eq_of_mem_set hMem' with hOld | rfl
  · exact hFed.broadcasts b' hOld
  · rcases hFed.broadcasts b hMem with ⟨v₀, hView₀, hB⟩
    cases hView.symm.trans hView₀
    refine ⟨v, hView, hB.feeds, hB.began, hB.now, ?_⟩
    intro data hData
    cases hData
    exact hB.feeds.delayed hB.began hB.now

omit [PyNumber α] in
/- A broadcast sends its state once more. -/
theorem SpectatedFed.send
    (hFed : SpectatedFed settings s)
    {b : Broadcast α}
    {v : LoopView α}
    {data : StateJson α}
    (hMem : b ∈ s.broadcasts)
    (hView : s.view b = some v)
    (hData : b.delayed = some data) :
    SpectatedFed settings
      { s with
        sends :=
          s.sends ++
            [{ current := v.loop.state.tick
               tick := data.tickOrZero
               began := v.began
               delayTicks :=
                 v.loop.spectatorBuffer.delayTicks }] } := by
  refine
    ⟨hFed.live, hFed.publishing, hFed.snapshot,
      hFed.broadcasts, ?_⟩
  intro send hSend
  rcases List.mem_append.mp hSend with hOld | hNew
  · exact hFed.sends send hOld
  · rw [List.mem_singleton.mp hNew]
    rcases hFed.broadcasts b hMem with ⟨v₀, hView₀, hB⟩
    cases hView.symm.trans hView₀
    exact hB.delayed data hData _ le_rfl

end Room

------------------------------------------------------------
-- Runs
------------------------------------------------------------

namespace Room

open Py GameRoom
open Machine (Reachable reachable_of_run run_eq_final final)

variable {α : Type} [PyNumber α]
variable {settings : Settings}
variable {interval : Nat}
variable {matchId : String}
variable {s t : Spectated α}

theorem spectatedFed_resume
    {r : Reply}
    {room : State α}
    (hFed : SpectatedFed settings s)
    (hRoom : resume s.room r = some room) :
    SpectatedFed settings (s.after (.resume r) room) := by
  unfold resume at hRoom
  split at hRoom
  · rename_i g matchNo aw hLeader
    rcases Option.map_eq_some_iff.mp hRoom with
      ⟨⟨stores, g', aw'⟩, hAwait, rfl⟩
    have hAwaits := awaits_of_awaitStep hAwait
    have hPublishing :
        ∀ next event kept,
          aw = .publishing next event kept →
            event.tickOrZero = g.state.tick + 1 := by
      rintro next event kept rfl
      exact hFed.publishing _ _ _ _ _ hLeader
    have hTurn :
        Follows settings ⟨g, s.began⟩ ⟨g', s.began⟩ ∧
          ∀ next event kept,
            aw' = .publishing next event kept →
              event.tickOrZero = g'.state.tick + 1 :=
      follows_of_awaits hAwaits hPublishing s.began
    rcases hTurn with ⟨hFollows, hNext⟩
    rcases after_resume hLeader hAwaits
        { s.room.note matchNo aw r with
          stores := stores
          leader := some ⟨g', matchNo, .inRun aw'⟩ } with
      ⟨hSame, hBegan, hSends, hBroadcasts, hSnapshot⟩
    have hLive : s.live = some ⟨g, s.began⟩ := by
      rw [Spectated.live, hLeader]
      rfl
    refine hFed.go hLive ?_ hFollows ?_ ?_ hBroadcasts hSends
    · rw [Spectated.live, hSame, hBegan]
      rfl
    · intro g₁ no next event kept hNow
      rw [hSame] at hNow
      cases hNow
      exact hNext _ _ _ rfl
    · intro event hEvent
      rcases hSnapshot event hEvent with
        hOld | ⟨next, offset, rfl, rfl⟩
      · exact .inl hOld
      · right
        have hTick := hPublishing next event _ rfl
        have hOrder := (hFed.live _ hLive).holds.ordered
        simp only [GameLoop.tick_commitTick]
        simp only at hOrder
        omega
  · cases hRoom

theorem spectatedFed_room
    {act : Act α}
    {room : State α}
    (hFed : SpectatedFed settings s)
    (hRoom :
      step settings interval matchId s.room act =
        some room) :
    SpectatedFed settings (s.after act room) := by
  cases act with
  | takeover now checkpointRead schedule =>
      simp only [step] at hRoom
      split at hRoom
      · cases hRoom
      · rcases Option.map_eq_some_iff.mp hRoom with
          ⟨g, hLoad, rfl⟩
        rcases loadState_eq hLoad with ⟨state, offset, rfl⟩
        refine hFed.begin rfl rfl ?_ rfl ?_ rfl
        · intro g₁ no next event kept hNow
          cases hNow
        · intro b hMem
          cases hMem
  | resume r => exact spectatedFed_resume hFed hRoom
  | check isLeader =>
      simp only [step] at hRoom
      split at hRoom
      · rename_i g matchNo hLeader
        cases hRoom
        refine hFed.same (by rw [hLeader]; rfl) ?_
        intro g₁ no next event kept hNow
        cases isLeader <;> cases hNow
      · cases hRoom
  | delete r =>
      simp only [step] at hRoom
      split at hRoom
      · rename_i g matchNo hLeader
        cases hRoom
        refine hFed.same (by rw [hLeader]; rfl) ?_
        intro g₁ no next event kept hNow
        cases hNow
      · rename_i g matchNo now hLeader
        cases hRoom
        refine
          hFed.begin rfl rfl ?_ rfl
            (fun b hMem => hFed.retire hMem) rfl
        intro g₁ no next event kept hNow
        cases hNow
      · rename_i g matchNo applied now hLeader
        cases hRoom
        refine hFed.same (by rw [hLeader]; rfl) ?_
        intro g₁ no next event kept hNow
        cases hNow
      · cases hRoom
  | input playerId inputData =>
      rcases Option.map_eq_some_iff.mp hRoom with
        ⟨ld, hLeader, rfl⟩
      exact hFed.play hLeader (.input playerId inputData)
  | join playerId hold =>
      rcases Option.map_eq_some_iff.mp hRoom with
        ⟨ld, hLeader, rfl⟩
      exact hFed.play hLeader (.join playerId hold)
  | leave playerId =>
      rcases Option.map_eq_some_iff.mp hRoom with
        ⟨ld, hLeader, rfl⟩
      exact hFed.play hLeader (.leave playerId)
  | crash =>
      rcases Option.map_eq_some_iff.mp hRoom with
        ⟨ld, hLeader, rfl⟩
      exact hFed.crash rfl
  | evict key =>
      cases hRoom
      exact hFed.same rfl hFed.publishing
  | service act =>
      rcases Option.map_eq_some_iff.mp hRoom with
        ⟨⟨service, checkpoints⟩, hService, rfl⟩
      exact hFed.same rfl hFed.publishing

theorem spectatedFed_step
    {act : SpectatedAct α}
    (hFed : SpectatedFed settings s)
    (hStep :
      spectatedStep settings interval matchId s act =
        some t) :
    SpectatedFed settings t := by
  cases act with
  | room act =>
      rcases Option.map_eq_some_iff.mp hStep with
        ⟨room, hRoom, rfl⟩
      exact spectatedFed_room hFed hRoom
  | start k =>
      rcases Option.bind_eq_some_iff.mp hStep with
        ⟨b, hAt, hBind⟩
      rcases Option.bind_eq_some_iff.mp hBind with
        ⟨v, hView, hStart⟩
      split at hStart
      · cases hStart
      · cases hStart
        exact hFed.start (List.mem_of_getElem? hAt) hView
  | send k =>
      rcases Option.bind_eq_some_iff.mp hStep with
        ⟨b, hAt, hBind⟩
      rcases Option.bind_eq_some_iff.mp hBind with
        ⟨v, hView, hSend⟩
      rcases Option.map_eq_some_iff.mp hSend with
        ⟨data, hData, rfl⟩
      exact hFed.send (List.mem_of_getElem? hAt) hView hData

/-
  A state that is sent is behind the match by the delay
  exactly if the loop that sends it began before that.
-/
theorem spectators_delayed_iff
    (settings : Settings)
    (interval : Nat)
    (matchId : String)
    (s : Spectated α)
    (hReach :
      Reachable (spectatedStep settings interval matchId)
        Spectated.empty s)
    (send : Send)
    (hSend : send ∈ s.sends) :
    send.tick + send.delayTicks ≤ send.current ↔
      send.began + send.delayTicks < send.current := by
  have hFed : SpectatedFed settings s :=
    hReach.invariant spectatedFed_empty
      (fun hOld _ hStep => spectatedFed_step hOld hStep)
  exact hFed.sends send hSend

/- A tick whose first Redis command fails. -/
def shortTick : List (Act Int) :=
  [.resume .effect, .resume (.ok 101), .resume (.fail 102),
    .resume (.ok 103)]

/- A tick up to the creation of its broadcasts. -/
def broadcastTick : List (Act Int) :=
  [.resume .effect, .resume (.ok 104)] ++
    (List.replicate 5
      [.resume .effect, .resume (.ok 105)]).flatten

/- The first leader plays up to tick 11. -/
def elevenTicks : List (Act Int) :=
  [.takeover 100 true [], .resume (.ok 101)] ++
    (List.replicate 10 shortTick).flatten ++ broadcastTick

/- It crashes, and the next leader plays tick 12. -/
def resumedTicks : List (Act Int) :=
  elevenTicks ++
    [.crash, .takeover 200 true [], .resume (.ok 201)] ++
    broadcastTick

def steadyMatch : Spectated Int :=
  final (spectatedStep ⟨1, 100⟩ 300 "room") Spectated.empty
    (elevenTicks.map .room ++ [.start 0, .send 0])
    (by decide)

def resumedMatch : Spectated Int :=
  final (spectatedStep ⟨1, 100⟩ 300 "room") Spectated.empty
    (resumedTicks.map .room ++ [.start 0, .send 0])
    (by decide)

/- The first spectators are sent tick 1. -/
theorem spectators_delayed_iff_steadyMatch :
    steadyMatch.sends =
        [{ current := 11, tick := 1, began := 0
           delayTicks := 10 }] ∧
      ∀ send ∈ steadyMatch.sends,
        (send.tick + send.delayTicks ≤ send.current ↔
          send.began + send.delayTicks < send.current) :=
  ⟨by decide,
    spectators_delayed_iff ⟨1, 100⟩ 300 "room" steadyMatch
      (reachable_of_run (run_eq_final (by decide)))⟩

/- The live state is sent at tick 12. -/
theorem spectators_see_live :
    Reachable (spectatedStep ⟨1, 100⟩ 300 "room")
        Spectated.empty resumedMatch ∧
      resumedMatch.sends =
        [{ current := 12, tick := 12, began := 11
           delayTicks := 10 }] :=
  ⟨reachable_of_run (run_eq_final (by decide)), by decide⟩

end Room
