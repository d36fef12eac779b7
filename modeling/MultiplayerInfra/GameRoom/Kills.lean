import Mathlib.Data.List.Count
import Mathlib.Data.Prod.Basic
import MultiplayerInfra.GameRoom.DroppedTick
import MultiplayerInfra.GameRoom.OneLoop

/-
  Kill events: how many are reported of a player in a tick,
  and how often the player really falls.

  Key definitions include:
    * `GameRoom.falls`
    * `GameRoom.crossings`
    * `GameRoom.names`
    * `GameRoom.Falls`
    * `GameRoom.SparesFallen`

  Key theorems include:
    * `GameRoom.countP_killsOf`
    * `GameRoom.nodup_crossings`
    * `GameRoom.one_kill_per_fall`
-/

------------------------------------------------------------
-- Falling in One Tick
------------------------------------------------------------

namespace GameRoom

open Py

variable {α : Type}

/- Those whose health passes from above 0 to 0 or below. -/
def falls (players players' : Players α) : List String :=
  players'.keys.filter (fun pid =>
    (healthOf players pid).any (fun health => 0 < health) &&
      (healthOf players' pid).any (fun health => health ≤ 0))

/- The event reports the kill of the player. -/
def names (victim : String) : Telemetry α → Bool
| .kill _ victim' => victim' = victim
| _ => false

variable [PyNumber α]

/-
  The falls while the inputs of a tick are applied, in order;
  the tick ends where an input raises.
-/
def crossings :
    List (String × Json α) → Players α → List String
| [], _ => []
| (playerId, inputData) :: queue, players =>
    match applyInputTo playerId inputData players with
    | none => []
    | some (players', _) =>
        falls players players' ++ crossings queue players'

omit [PyNumber α] in
theorem mem_falls_iff
    {players players' : Players α}
    {pid : String} :
    pid ∈ falls players players' ↔
      (∃ health,
        healthOf players pid = some health ∧ 0 < health) ∧
      ∃ health,
        healthOf players' pid = some health ∧
          health ≤ 0 := by
  unfold falls
  simp only [List.mem_filter, Bool.and_eq_true,
    Option.any_eq_true, decide_eq_true_eq]
  constructor
  · rintro ⟨_, hBefore, hAfter⟩
    exact ⟨hBefore, hAfter⟩
  · rintro ⟨hBefore, health, hAfter, hLow⟩
    refine ⟨?_, hBefore, health, hAfter, hLow⟩
    rcases Option.map_eq_some_iff.mp hAfter with
      ⟨player, hGet, _⟩
    exact Dict.mem_keys_iff.mpr ⟨player, hGet⟩

omit [PyNumber α] in
theorem nodup_falls
    (players players' : Players α) :
    (falls players players').Nodup :=
  players'.nodup.filter _

/- Only the one who is hit can fall. -/
theorem falls_of_applied
    {playerId : String}
    {inputData : Json α}
    {players players' : Players α}
    {kills : List (Telemetry α)}
    (hApplied :
      Applied playerId inputData players players' kills)
    (pid : String) :
    pid ∈ falls players players' ↔
      ∃ enemy,
        hit playerId inputData players = some (pid, enemy) ∧
          0 < enemy.health ∧ enemy.health - 10 ≤ 0 := by
  rw [mem_falls_iff]
  have hThere :
      ∀ {health pid},
        healthOf players pid = some health →
          pid ∈ players.keys := by
    intro health pid hHealth
    rcases Option.map_eq_some_iff.mp hHealth with
      ⟨player, hGet, _⟩
    exact Dict.mem_keys_iff.mpr ⟨player, hGet⟩
  cases hApplied with
  | miss hMiss hSame =>
      rw [hMiss]
      constructor
      · rintro ⟨⟨health, hBefore, hHigh⟩,
          health', hAfter, hLow⟩
        rw [hSame pid (hThere hBefore), hBefore] at hAfter
        cases hAfter
        omega
      · rintro ⟨enemy, hNone, _⟩
        cases hNone
  | @hit victim enemy hHit hEnemy _ _ hHealth hSame =>
      have hVictim :
          healthOf players victim = some enemy.health := by
        rw [healthOf, hEnemy]
        rfl
      rw [hHit]
      constructor
      · rintro ⟨⟨health, hBefore, hHigh⟩,
          health', hAfter, hLow⟩
        by_cases hPid : pid = victim
        · subst hPid
          rw [hVictim] at hBefore
          rw [hHealth] at hAfter
          cases hBefore
          cases hAfter
          exact ⟨enemy, rfl, hHigh, hLow⟩
        · rw [hSame pid (hThere hBefore) hPid, hBefore]
            at hAfter
          cases hAfter
          omega
      · rintro ⟨enemy', hEq, hHigh, hLow⟩
        cases hEq
        exact
          ⟨⟨_, hVictim, hHigh⟩, _, hHealth, hLow⟩

end GameRoom

------------------------------------------------------------
-- Kills Reported in One Tick
------------------------------------------------------------

namespace GameRoom

open Py

variable {α : Type} [PyNumber α]

theorem keyed_applyInputTo
    {playerId : String}
    {inputData : Json α}
    {players players' : Players α}
    {kills : List (Telemetry α)}
    (hKeyed : Keyed players)
    (hApply :
      applyInputTo playerId inputData players =
        some (players', kills)) :
    Keyed players' := by
  rw [applyInputTo_eq] at hApply
  rcases Option.map_eq_some_iff.mp hApply with
    ⟨⟨moved, shoots⟩, hMove, hResult⟩
  have hMoved : Keyed moved := by
    rcases moved_of_moveInput hMove with
      ⟨player, x, y, hGet, rfl⟩
    have hPresent := keyed_ensurePlayer playerId hKeyed
    exact
      keyed_set hPresent (hPresent playerId player hGet)
  cases shoots with
  | false =>
      cases hResult
      exact hMoved
  | true =>
      simp only [if_true, shoot] at hResult
      split at hResult
      · cases hResult
        exact hMoved
      · split at hResult
        · rename_i nearest player hNearest hPlayer
          cases hResult
          exact
            keyed_set
              (keyed_set hMoved (hMoved _ nearest hNearest))
              (hMoved _ player hPlayer)
        · cases hResult
          exact hMoved

/- The kills that one input reports of a player. -/
theorem countP_of_applied
    {playerId : String}
    {inputData : Json α}
    {players players' : Players α}
    {kills : List (Telemetry α)}
    (hKeyed : Keyed players)
    (hApplied :
      Applied playerId inputData players players' kills)
    (hAlive :
      ∀ victim ∈ hit playerId inputData players,
        0 < victim.2.health)
    (pid : String) :
    kills.countP (names pid) =
      (falls players players').count pid := by
  have hFalls := falls_of_applied hApplied pid
  have hCount :
      (falls players players').count pid =
        if pid ∈ falls players players' then 1 else 0 :=
    (nodup_falls players players').count
  rw [hCount]
  cases hApplied with
  | miss hMiss _ =>
      rw [if_neg]
      · rfl
      · rw [hFalls, hMiss]
        rintro ⟨enemy, hNone, _⟩
        cases hNone
  | @hit victim enemy hHit hEnemy _ _ _ _ =>
      have hHigh := hAlive _ hHit
      have hName : enemy.playerId = victim :=
        hKeyed victim enemy hEnemy
      by_cases hKill : enemy.health - 10 ≤ 0
      · by_cases hPid : victim = pid
        · rw [if_pos hKill, if_pos]
          · simp [names, hName, hPid]
          · rw [hFalls]
            exact ⟨enemy, hPid ▸ hHit, hHigh, hKill⟩
        · rw [if_pos hKill, if_neg]
          · simp [names, hName, hPid]
          · rw [hFalls, hHit]
            rintro ⟨enemy', hEq, _⟩
            cases hEq
            exact hPid rfl
      · rw [if_neg hKill, if_neg]
        · rfl
        · rw [hFalls, hHit]
          rintro ⟨enemy', hEq, _, hLow⟩
          cases hEq
          exact hKill hLow

/-
  While nobody without health is hit, the kills that a queue
  reports of a player are the player's falls.
-/
theorem countP_killsOf
    (queue : List (String × Json α))
    {players : Players α}
    (hKeyed : Keyed players)
    (hAlive : HitsAbove 0 queue players)
    (pid : String) :
    (killsOf queue players).countP (names pid) =
      (crossings queue players).count pid := by
  induction queue generalizing players with
  | nil => rfl
  | cons input queue ih =>
      rcases input with ⟨playerId, inputData⟩
      simp only [HitsAbove] at hAlive
      simp only [killsOf, crossings]
      rcases hAlive with ⟨hFirst, hRest⟩
      cases hApply :
          applyInputTo playerId inputData players with
      | none => rfl
      | some result =>
          rcases result with ⟨players', kills⟩
          rw [hApply] at hRest
          simp only [List.countP_append, List.count_append]
          rw [ih (keyed_applyInputTo hKeyed hApply) hRest,
            countP_of_applied hKeyed
              (applied_of_applyInputTo hApply) hFirst pid]

/- Applying an input heals nobody. -/
theorem healthOf_le_of_applied
    {playerId : String}
    {inputData : Json α}
    {players players' : Players α}
    {kills : List (Telemetry α)}
    (hApplied :
      Applied playerId inputData players players' kills)
    {pid : String}
    {health : Int}
    (hHealth : healthOf players pid = some health) :
    ∃ health' ≤ health,
      healthOf players' pid = some health' := by
  have hThere : pid ∈ players.keys := by
    rcases Option.map_eq_some_iff.mp hHealth with
      ⟨player, hGet, _⟩
    exact Dict.mem_keys_iff.mpr ⟨player, hGet⟩
  cases hApplied with
  | miss _ hSame =>
      exact
        ⟨health, Int.le_refl _, (hSame pid hThere).trans hHealth⟩
  | @hit victim enemy _ hEnemy _ _ hHit hSame =>
      by_cases hPid : pid = victim
      · subst hPid
        rw [healthOf, hEnemy] at hHealth
        cases hHealth
        exact ⟨enemy.health - 10, by omega, hHit⟩
      · exact
          ⟨health, Int.le_refl _,
            (hSame pid hThere hPid).trans hHealth⟩

/- Who is down does not fall in the rest of the tick. -/
theorem not_mem_crossings
    (queue : List (String × Json α))
    {players : Players α}
    {pid : String}
    {health : Int}
    (hHealth : healthOf players pid = some health)
    (hDown : health ≤ 0) :
    pid ∉ crossings queue players := by
  induction queue generalizing players health with
  | nil => exact List.not_mem_nil
  | cons input queue ih =>
      rcases input with ⟨playerId, inputData⟩
      simp only [crossings]
      cases hApply :
          applyInputTo playerId inputData players with
      | none => exact List.not_mem_nil
      | some result =>
          rcases result with ⟨players', kills⟩
          have hApplied := applied_of_applyInputTo hApply
          rcases healthOf_le_of_applied hApplied hHealth with
            ⟨health', hLess, hAfter⟩
          rw [List.mem_append, not_or]
          refine ⟨?_, ih hAfter (Int.le_trans hLess hDown)⟩
          rw [mem_falls_iff]
          rintro ⟨⟨before, hBefore, hHigh⟩, _⟩
          rw [hHealth] at hBefore
          cases hBefore
          omega

/- Nobody falls twice in a tick. -/
theorem nodup_crossings
    (queue : List (String × Json α))
    (players : Players α) :
    (crossings queue players).Nodup := by
  induction queue generalizing players with
  | nil => exact List.nodup_nil
  | cons input queue ih =>
      rcases input with ⟨playerId, inputData⟩
      simp only [crossings]
      cases applyInputTo playerId inputData players with
      | none => exact List.nodup_nil
      | some result =>
          rcases result with ⟨players', kills⟩
          refine List.nodup_append'.mpr
            ⟨nodup_falls players players', ih players', ?_⟩
          intro pid hNow hLater
          rcases (mem_falls_iff.mp hNow).2 with
            ⟨health, hAfter, hLow⟩
          exact
            not_mem_crossings queue hAfter hLow hLater

end GameRoom

------------------------------------------------------------
-- Kills and Falls Over a Run
------------------------------------------------------------

namespace GameRoom

open Py Machine

variable {α : Type}

/- What is recorded of the falls in the ticks of a loop. -/
structure Falls where
  -- in the tick that is being published
  current : List String
  -- in the committed ticks
  past : List (Nat × String)
deriving DecidableEq

/- Nothing has happened yet. -/
def Falls.none : Falls where
  current := []
  past := []

variable [PyNumber α]

/- The falls of a tick are settled when it is committed. -/
def noteFalls
    (s : Play α)
    (act : PlayAct α)
    (t : Play α)
    (f : Falls) : Falls :=
  match act, s.aw, t.aw with
  | .reply (.ok _), .publishing _ event (some _), _ =>
      { current := []
        past :=
          f.past ++ f.current.map (fun pid =>
            (event.tickOrZero, pid)) }
  | .reply (.fail _), .publishing _ _ _, _ =>
      { f with current := [] }
  | .reply _, _, .publishing _ _ none =>
      { f with
        current :=
          crossings s.loop.inputQueue
            (copyPlayers s.loop.state.players) }
  | _, _, _ => f

/-
  In the tick that a running loop begins nobody without
  health is hit, and an input raises only before any kill.
-/
def SparesFallen (g : GameLoop α) : Prop :=
  g.running = true ∧ g.matchEnded = false →
    HitsAbove 0 g.inputQueue
        (copyPlayers g.state.players) ∧
      (g.beginTick.2.isNone = true →
        NoKill g.inputQueue (copyPlayers g.state.players))

instance (g : GameLoop α) : Decidable (SparesFallen g) :=
  inferInstanceAs (Decidable (_ → _))

/- The await is at the head of the loop of `run`. -/
def atHead : Await α → Bool
| .starting => true
| .sleeping => true
| _ => false

/- No publish of a tick fails. -/
def publishSucceeds : Await α → Reply → Bool
| .publishing _ _ _, .fail _ => false
| _, _ => true

/- The runs in which every publish succeeds. -/
def PublishesSucceed
    (s : Play α × Falls) : PlayAct α → Prop
| .reply r => publishSucceeds s.1.aw r = true
| _ => True

/- The runs in which every tick spares the fallen. -/
def TicksSpareFallen
    (s : Play α × Falls) : PlayAct α → Prop
| .reply _ => atHead s.1.aw = true → SparesFallen s.1.loop
| _ => True

instance
    (s : Play α × Falls)
    (act : PlayAct α) :
    Decidable (PublishesSucceed s act) :=
  match act with
  | .reply _ => inferInstanceAs (Decidable (_ = _))
  | .input _ _ => inferInstanceAs (Decidable True)
  | .join _ _ => inferInstanceAs (Decidable True)
  | .leave _ => inferInstanceAs (Decidable True)

instance
    (s : Play α × Falls)
    (act : PlayAct α) :
    Decidable (TicksSpareFallen s act) :=
  match act with
  | .reply _ => inferInstanceAs (Decidable (_ → _))
  | .input _ _ => inferInstanceAs (Decidable True)
  | .join _ _ => inferInstanceAs (Decidable True)
  | .leave _ => inferInstanceAs (Decidable True)

/- The kills of a player that were handed out with a tick. -/
def killsIn
    (g : GameLoop α)
    (tick : Nat)
    (pid : String) : Nat :=
  g.telemetryTasks.countP (fun e =>
    e.1 = tick && names pid e.2)

/- The invariant of the run. -/
structure KillsMatch (s : Play α × Falls) : Prop where
  tasks :
    ∀ tick pid,
      killsIn s.1.loop tick pid = s.2.past.count (tick, pid)
  pending :
    ∀ pid,
      s.1.loop.pendingTelemetry.countP (names pid) =
        s.2.current.count pid
  single : s.2.current.Nodup
  once : s.2.past.Nodup
  old : ∀ e ∈ s.2.past, e.1 ≤ s.1.loop.state.tick
  inFlight :
    ∀ next event kept,
      s.1.aw = .publishing next event kept →
        event.tickOrZero = s.1.loop.state.tick + 1
  idle :
    (∀ next event kept,
      s.1.aw ≠ .publishing next event kept) →
        s.2.current = []

/- A loop whose kills and tick are those of another one. -/
structure SameKills (g g' : GameLoop α) : Prop where
  tasks : g'.telemetryTasks = g.telemetryTasks
  pending :
    ∀ pid,
      g'.pendingTelemetry.countP (names pid) =
        g.pendingTelemetry.countP (names pid)
  tick : g'.state.tick = g.state.tick

omit [PyNumber α] in
theorem SameKills.refl (g : GameLoop α) : SameKills g g :=
  ⟨rfl, fun _ => rfl, rfl⟩

/- Players who join or leave are not kills. -/
theorem sameKills_addPlayer
    (g : GameLoop α)
    (playerId : String)
    (hold : Option (HoldJson α)) :
    SameKills g (g.addPlayer playerId hold) := by
  refine ⟨?_, ?_, g.tick_addPlayer playerId hold⟩
  · unfold GameLoop.addPlayer
    split
    · rfl
    · split <;> rfl
  · intro pid
    unfold GameLoop.addPlayer
    split
    · rfl
    · split
      · rfl
      · simp [names]

omit [PyNumber α] in
theorem sameKills_removePlayer
    (g : GameLoop α)
    (playerId : String) :
    SameKills g (g.removePlayer playerId).1 := by
  refine ⟨?_, ?_, g.tick_removePlayer playerId⟩
  · unfold GameLoop.removePlayer
    split <;> rfl
  · intro pid
    unfold GameLoop.removePlayer
    split
    · rfl
    · simp [names]

variable {s t : Play α}
variable {f : Falls}

omit [PyNumber α] in
/- Outside the publish of a tick, or while it goes on. -/
theorem KillsMatch.quiet
    (hMatch : KillsMatch (s, f))
    (hSame : SameKills s.loop t.loop)
    (hAwait :
      ∀ next event kept,
        t.aw = .publishing next event kept →
          ∃ kept', s.aw = .publishing next event kept')
    (hIdle :
      (∀ next event kept,
        t.aw ≠ .publishing next event kept) →
      ∀ next event kept,
        s.aw ≠ .publishing next event kept) :
    KillsMatch (t, f) where
  tasks := by
    intro tick pid
    rw [killsIn, hSame.tasks]
    exact hMatch.tasks tick pid
  pending := by
    intro pid
    rw [hSame.pending pid]
    exact hMatch.pending pid
  single := hMatch.single
  once := hMatch.once
  old := by
    intro e hMem
    rw [hSame.tick]
    exact hMatch.old e hMem
  inFlight := by
    intro next event kept hAw
    rcases hAwait next event kept hAw with ⟨kept', hOld⟩
    rw [hSame.tick]
    exact hMatch.inFlight next event kept' hOld
  idle := fun hNone => hMatch.idle (hIdle hNone)

/- A tick begins: its kills are pending, its falls current. -/
theorem killsMatch_begin
    {g' : GameLoop α}
    {next : Players α}
    {event : StateJson α}
    {stores : Stores α}
    (hMatch : KillsMatch (s, f))
    (hHead : f.current = [])
    (hSpares :
      HitsAbove 0 s.loop.inputQueue
        (copyPlayers s.loop.state.players))
    (hBegin : s.loop.beginTick = (g', some (next, event))) :
    KillsMatch
      (⟨stores, g', .publishing next event none⟩,
        { f with
          current :=
            crossings s.loop.inputQueue
              (copyPlayers s.loop.state.players) }) := by
  have hTick := (isTick_of_beginTick hBegin).tickOrZero
  have hLoop : s.loop.beginTick.1 = g' := by rw [hBegin]
  subst hLoop
  refine ⟨hMatch.tasks, ?_, nodup_crossings _ _, hMatch.once,
    hMatch.old, ?_, ?_⟩
  · intro pid
    have hPending :
        s.loop.beginTick.1.pendingTelemetry =
          s.loop.pendingTelemetry ++
            killsOf s.loop.inputQueue
              (copyPlayers s.loop.state.players) :=
      pendingTelemetry_drainInputs _ _ _
    have hBefore := hMatch.pending pid
    simp only [hHead, List.count_nil] at hBefore
    simp only [hPending, List.countP_append, hBefore,
      Nat.zero_add]
    exact
      countP_killsOf _ (keyed_copyPlayers _) hSpares pid
  · intro next' event' kept hAw
    cases hAw
    exact hTick
  · intro hNone
    exact absurd rfl (hNone next event none)

/- A tick whose input raises reported no kill. -/
theorem sameKills_raises
    {g g' : GameLoop α}
    (hClean :
      NoKill g.inputQueue (copyPlayers g.state.players))
    (hBegin : g.beginTick = (g', none)) :
    SameKills g g' := by
  have hLoop : g.beginTick.1 = g' := by rw [hBegin]
  subst hLoop
  refine ⟨rfl, ?_, rfl⟩
  intro pid
  have hPending :
      g.beginTick.1.pendingTelemetry =
        g.pendingTelemetry ++
          killsOf g.inputQueue
            (copyPlayers g.state.players) :=
    pendingTelemetry_drainInputs _ _ _
  rw [hPending, (killsOf_eq_nil_iff _ _).mpr hClean,
    List.append_nil]

omit [PyNumber α] in
/- No move of a snapshot is a kill. -/
theorem countP_moves
    (snapshot : StateJson α)
    (tick tick' : Nat)
    (pid : String) :
    ((snapshot.roster.entries.map (fun e =>
        Telemetry.move e.1 e.2)).map (fun telem =>
          (tick', telem))).countP
        (fun e => e.1 = tick && names pid e.2) =
      0 := by
  rw [List.map_map, List.countP_map,
    List.countP_eq_zero]
  intro e _
  simp [names]

omit [PyNumber α] in
/- What is handed out with the tick that is committed. -/
theorem killsIn_commitTick
    (g : GameLoop α)
    (next : Players α)
    (event : StateJson α)
    (offset tick : Nat)
    (pid : String) :
    killsIn (g.commitTick next event offset) tick pid =
      killsIn g tick pid +
        if event.tickOrZero = tick then
          g.pendingTelemetry.countP (names pid)
        else 0 := by
  have hTasks :
      (g.commitTick next event offset).telemetryTasks =
        g.telemetryTasks ++
          (g.pendingTelemetry ++
            event.roster.entries.map (fun e =>
              Telemetry.move e.1 e.2)).map (fun telem =>
                (event.tickOrZero, telem)) :=
    rfl
  rw [killsIn, hTasks, List.countP_append, List.map_append,
    List.countP_append, countP_moves, Nat.add_zero,
    List.countP_map, killsIn]
  congr 1
  by_cases hSame : event.tickOrZero = tick
  · rw [if_pos hSame]
    apply List.countP_congr
    intro telem _
    simp [hSame]
  · rw [if_neg hSame, List.countP_eq_zero]
    intro telem _
    simp [hSame]

omit [PyNumber α] in
/- The commit settles the falls of its tick. -/
theorem killsMatch_commit
    {next : Players α}
    {event : StateJson α}
    {offset : Nat}
    {stores : Stores α}
    {cmd : RedisCmd α}
    (hMatch : KillsMatch (s, f))
    (hAw : s.aw = .publishing next event (some offset)) :
    KillsMatch
      (⟨stores, s.loop.commitTick next event offset,
          .updatingRedis event.tickOrZero cmd false⟩,
        { current := []
          past :=
            f.past ++ f.current.map (fun pid =>
              (event.tickOrZero, pid)) }) := by
  have hTick :
      event.tickOrZero = s.loop.state.tick + 1 :=
    hMatch.inFlight _ _ _ hAw
  have hOldTick :
      ∀ e ∈ f.past, e.1 ≤ s.loop.state.tick :=
    hMatch.old
  refine ⟨?_, ?_, List.nodup_nil, ?_, ?_, ?_, ?_⟩
  · intro tick pid
    have hTasks := hMatch.tasks tick pid
    have hPending := hMatch.pending pid
    simp only at hTasks hPending ⊢
    rw [killsIn_commitTick, hTasks, hPending,
      List.count_append]
    congr 1
    by_cases hSame : event.tickOrZero = tick
    · rw [if_pos hSame, ← hSame,
        List.count_map_of_injective _ _
          (Prod.mk_right_injective _)]
    · rw [if_neg hSame, eq_comm, List.count_eq_zero]
      intro hMem
      rcases List.mem_map.mp hMem with ⟨pid', _, hEq⟩
      cases hEq
      exact hSame rfl
  · intro pid
    rfl
  · refine List.nodup_append'.mpr
      ⟨hMatch.once,
        hMatch.single.map (Prod.mk_right_injective _), ?_⟩
    intro e hOld hNew
    rcases List.mem_map.mp hNew with ⟨pid, _, rfl⟩
    have hBefore := hOldTick _ hOld
    omega
  · intro e hMem
    simp only [GameLoop.tick_commitTick]
    rcases List.mem_append.mp hMem with hOld | hNew
    · have hBefore := hOldTick e hOld
      omega
    · rcases List.mem_map.mp hNew with ⟨pid, _, rfl⟩
      exact Nat.le_refl _
  · intro next' event' kept hAw'
    cases hAw'
  · intro _
    rfl

/- Nothing is recorded outside the publish of a tick. -/
theorem noteFalls_quiet
    {act : PlayAct α}
    (hOld :
      ∀ next event kept,
        s.aw ≠ .publishing next event kept)
    (hNew :
      ∀ next event kept,
        t.aw ≠ .publishing next event kept)
    (f : Falls) :
    noteFalls s act t f = f := by
  unfold noteFalls
  split
  · rename_i hAw
    exact absurd hAw (hOld _ _ _)
  · rename_i hAw
    exact absurd hAw (hOld _ _ _)
  · rename_i hAw _ _
    exact absurd hAw (hNew _ _ _)
  · rfl

/- At the head of the loop the falls of the tick are noted. -/
theorem noteFalls_head
    (hHead : atHead s.aw = true)
    {r : Reply}
    {g : GameLoop α}
    {next : Players α}
    {event : StateJson α}
    {stores : Stores α} :
    noteFalls s (.reply r)
        ⟨stores, g, .publishing next event none⟩ f =
      { f with
        current :=
          crossings s.loop.inputQueue
            (copyPlayers s.loop.state.players) } := by
  rcases s with ⟨st, loop, aw⟩
  cases aw <;> cases hHead <;> cases r <;> rfl

omit [PyNumber α] in
theorem not_publishing_of_atHead
    {aw : Await α}
    (hHead : atHead aw = true)
    (next : Players α)
    (event : StateJson α)
    (kept : Option Nat) :
    aw ≠ .publishing next event kept := by
  rintro rfl
  cases hHead

/- A step that is not about the publish of a tick. -/
theorem killsMatch_aside
    {act : PlayAct α}
    {stores : Stores α}
    {g : GameLoop α}
    {aw : Await α}
    (hMatch : KillsMatch (s, f))
    (hSame : SameKills s.loop g)
    (hOld :
      ∀ next event kept,
        s.aw ≠ .publishing next event kept)
    (hNew :
      ∀ next event kept,
        aw ≠ .publishing next event kept) :
    KillsMatch
      (⟨stores, g, aw⟩,
        noteFalls s act ⟨stores, g, aw⟩ f) := by
  rw [noteFalls_quiet (t := ⟨stores, g, aw⟩) hOld hNew]
  exact
    hMatch.quiet (t := ⟨stores, g, aw⟩) hSame
      (fun next event kept hAw =>
        absurd hAw (hNew next event kept))
      (fun _ => hOld)

/- The task is at the head of the loop of `run`. -/
theorem killsMatch_head
    {r : Reply}
    {stores : Stores α}
    {g : GameLoop α}
    {aw : Await α}
    (hMatch : KillsMatch (s, f))
    (hHead : atHead s.aw = true)
    (hSpares : SparesFallen s.loop)
    (hHeads : Heads s.loop g aw) :
    KillsMatch
      (⟨stores, g, aw⟩,
        noteFalls s (.reply r) ⟨stores, g, aw⟩ f) := by
  have hOld := not_publishing_of_atHead hHead
  cases hHeads with
  | publish hRunning hBegin =>
      rw [noteFalls_head hHead]
      exact
        killsMatch_begin hMatch (hMatch.idle hOld)
          (hSpares hRunning).1 hBegin
  | pause hRunning hBegin =>
      have hRaises : s.loop.beginTick.2.isNone = true := by
        rw [hBegin]
        rfl
      have hSame : SameKills s.loop g :=
        sameKills_raises ((hSpares hRunning).2 hRaises) hBegin
      exact killsMatch_aside hMatch hSame hOld (by simp)
  | finish _ =>
      exact
        killsMatch_aside hMatch (SameKills.refl _) hOld
          (by simp)

/- One step of the task, by the kind of its transition. -/
theorem killsMatch_reply
    {producer : Nat}
    {r : Reply}
    {stores : Stores α}
    {g : GameLoop α}
    {aw : Await α}
    (hMatch : KillsMatch (s, f))
    (hSucceeds : PublishesSucceed (s, f) (.reply r))
    (hSpares : TicksSpareFallen (s, f) (.reply r))
    (hAwaits :
      Awaits producer s.stores s.loop s.aw r stores g aw) :
    KillsMatch
      (⟨stores, g, aw⟩,
        noteFalls s (.reply r) ⟨stores, g, aw⟩ f) := by
  simp only [PublishesSucceed] at hSucceeds
  simp only [TicksSpareFallen] at hSpares
  generalize hAw : s.aw = aw₀ at hAwaits
  cases hAwaits with
  | head hResumes =>
      have hHead : atHead s.aw = true := by
        rw [hAw]
        cases hResumes <;> rfl
      exact
        killsMatch_head hMatch hHead (hSpares hHead)
          (heads_loopHead rfl)
  | @appendEvent next event =>
      have hNote :
          ∀ {t : Play α} {offset},
            t.aw = .publishing next event (some offset) →
              noteFalls s (.reply .effect) t f = f := by
        intro t offset hNew
        simp [noteFalls, hNew]
      rw [hNote rfl]
      refine
        hMatch.quiet (t := ⟨_, _, _⟩) (SameKills.refl _)
          ?_ ?_
      · intro next event kept hNew
        cases hNew
        exact ⟨_, hAw⟩
      · intro hNone next event kept
        exact absurd rfl (hNone _ _ _)
  | @commit next event offset now =>
      have hNote :
          ∀ {t : Play α},
            noteFalls s (.reply (.ok now)) t f =
              { current := []
                past :=
                  f.past ++ f.current.map (fun pid =>
                    (event.tickOrZero, pid)) } := by
        intro t
        simp only [noteFalls, hAw]
      rw [hNote]
      exact killsMatch_commit hMatch hAw
  | dropTick =>
      rw [hAw] at hSucceeds
      cases hSucceeds
  | redisDone _ =>
      refine
        killsMatch_aside hMatch ?_ (by simp [hAw]) ?_
      · unfold finishTick
        split
        · exact ⟨rfl, fun _ => rfl, rfl⟩
        · exact SameKills.refl _
      · unfold finishTick
        split <;> simp
  | endTelemetry =>
      refine
        killsMatch_aside hMatch (SameKills.refl _)
          (by simp [hAw]) ?_
      unfold writeMatchRecord
      split <;> simp
  | retry =>
      refine
        killsMatch_aside hMatch (SameKills.refl _)
          (by simp [hAw]) ?_
      unfold retrySave
      split <;> simp
  | _ =>
      exact
        killsMatch_aside hMatch (SameKills.refl _)
          (by simp [hAw]) (by simp)

theorem killsMatch_step
    {producer : Nat}
    {s t : Play α × Falls}
    {act : PlayAct α}
    (hMatch : KillsMatch s)
    (hSucceeds : PublishesSucceed s act)
    (hSpares : TicksSpareFallen s act)
    (hStep :
      observe (Play.step producer) noteFalls s act =
        some t) :
    KillsMatch t := by
  rcases s with ⟨s, f⟩
  rcases t with ⟨t, f'⟩
  rcases observe_eq_some_iff.mp hStep with ⟨hPlay, hNote⟩
  simp only at hPlay hNote
  subst hNote
  have hPlays :
      ∀ {g act},
        SameKills s.loop g →
        (∀ r, act ≠ .reply r) →
        KillsMatch
          (s.setLoop g, noteFalls s act (s.setLoop g) f) := by
    intro g act hSame hOther
    have hNote : noteFalls s act (s.setLoop g) f = f := by
      cases act with
      | reply r => exact absurd rfl (hOther r)
      | _ => rfl
    rw [hNote]
    exact
      hMatch.quiet hSame
        (fun next event kept hAw => ⟨kept, hAw⟩)
        (fun hNone => hNone)
  cases playSteps_of_step hPlay with
  | input =>
      exact hPlays ⟨rfl, fun _ => rfl, rfl⟩ (by simp)
  | join =>
      exact hPlays (sameKills_addPlayer _ _ _) (by simp)
  | leave =>
      exact hPlays (sameKills_removePlayer _ _) (by simp)
  | reply hAwaits =>
      exact
        killsMatch_reply hMatch hSucceeds hSpares hAwaits

/-
  In every run of a loop in which every publish succeeds and
  the fallen are spared, the kills of a player that go out
  with a tick are the falls of the player in it: at most one.
-/
theorem one_kill_per_fall
    {producer : Nat}
    {stores : Stores α}
    {g : GameLoop α}
    {s : Play α × Falls}
    (hPending :
      ∀ pid, g.pendingTelemetry.countP (names pid) = 0)
    (hTasks : ∀ tick pid, killsIn g tick pid = 0)
    (hRun :
      Reaches (observe (Play.step producer) noteFalls)
        (fun s act =>
          PublishesSucceed s act ∧ TicksSpareFallen s act)
        (Play.start stores g, Falls.none) s)
    (tick : Nat)
    (pid : String) :
    killsIn s.1.loop tick pid = s.2.past.count (tick, pid) ∧
      s.2.past.count (tick, pid) ≤ 1 := by
  have hMatch : KillsMatch s := by
    refine hRun.invariant ?_
      (fun hMatch hOk hStep =>
        killsMatch_step hMatch hOk.1 hOk.2 hStep)
    refine ⟨?_, ?_, List.nodup_nil, List.nodup_nil, ?_, ?_,
      ?_⟩
    · intro tick pid
      exact (hTasks tick pid).trans List.count_nil.symm
    · intro pid
      exact (hPending pid).trans List.count_nil.symm
    · intro e hMem
      cases hMem
    · intro next event kept hAw
      cases hAw
    · intro _
      rfl
  exact
    ⟨hMatch.tasks tick pid,
      List.nodup_iff_count_le_one.mp hMatch.once _⟩

/- A player with 10 health left is shot once. -/
def oneShot : List (PlayAct Int) :=
  [.input "ann" (.obj [("shoot", .bool true)]),
    .reply (.ok 1), .reply .effect, .reply (.ok 2)]

theorem one_kill_per_fall_oneShot :
    let s :=
      final (observe (Play.step 0) noteFalls)
        (Play.start Stores.empty wounded, Falls.none)
        oneShot (by decide +kernel)
    s.2.past = [(1, "bob")] ∧
      killsIn s.1.loop 1 "bob" =
        s.2.past.count (1, "bob") ∧
      s.2.past.count (1, "bob") ≤ 1 :=
  ⟨by decide +kernel,
    one_kill_per_fall (fun _ => rfl) (fun _ _ => rfl)
      (reaches_of_run (run_eq_final (by decide +kernel))
        (by decide +kernel))
      1 "bob"⟩

/- Two shots reach him before he can start over. -/
theorem two_kills_for_one_fall :
    ∃ s,
      Reaches (observe (Play.step 0) noteFalls)
          PublishesSucceed
          (Play.start Stores.empty wounded, Falls.none) s ∧
        s.2.past = [(1, "bob")] ∧
          killsIn s.1.loop 1 "bob" = 2 :=
  ⟨final (observe (Play.step 0) noteFalls)
      (Play.start Stores.empty wounded, Falls.none)
      (.input "ann" (.obj [("shoot", .bool true)]) ::
        oneShot)
      (by decide +kernel),
    reaches_of_run (run_eq_final (by decide +kernel))
      (by decide +kernel),
    by decide +kernel, by decide +kernel⟩

end GameRoom
