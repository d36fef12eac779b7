import Mathlib.Logic.Function.Basic
import MultiplayerInfra.GameRoom.Stores
import MultiplayerInfra.Machine.Run

/-
  The reconnect handler: its requests, cut at every call to
  the auth service, to Redis and to etcd, beside rooms that
  go on meanwhile.

  Key definitions include:
    * `Reconnect.Delta`
    * `Reconnect.Point`
    * `Reconnect.begin`
    * `Reconnect.answer`
    * `Reconnect.step`
    * `Reconnect.Facts`
    * `Reconnect.Keeps`

  Key theorems include:
    * `Reconnect.steps_of_step`
    * `Reconnect.informed_of_reaches`

  The rooms are a parameter: a machine with the Redis keys
  of every match.  The auth service and etcd answer anything.
-/

------------------------------------------------------------
-- Requests
------------------------------------------------------------

namespace Reconnect

open Py GameRoom

/- The body of a successful response. -/
structure Delta (α : Type) where
  matchId : String
  playerId : String
  currentTick : Nat
  players : Dict String (PlayerJson α)
  leaderAddress : String
  holdAvailable : Bool
  holdState : Option (HoldJson α)
deriving DecidableEq

inductive Response (α : Type) where
  | delta (delta : Delta α)
  | error (status : Nat) (detail : String)
deriving DecidableEq

/- The call that a request waits for. -/
inductive Point (α : Type) where
  -- `validate_token`
  | validating (matchId : String)
  | readingHold (matchId playerId : String)
  | readingState
      (matchId playerId : String)
      (hold : Option (HoldJson α))
  -- `r.delete` of the hold slot of a match without a state
  | releasingHold (matchId playerId : String)
  -- `r.sismember`
  | checkingMember
      (matchId playerId : String)
      (hold : Option (HoldJson α))
      (state : StateJson α)
  -- `etcd.get` of the leader's address
  | readingLeader
      (matchId playerId : String)
      (hold : Option (HoldJson α))
      (state : StateJson α)
  | done (response : Response α)
deriving DecidableEq

variable {α : Type}

/- `reconnect` up to its first call; a missing field is "". -/
def begin (token matchId : String) : Point α :=
  if token = "" ∨ matchId = "" then
    .done (.error 400 "Missing token or match_id")
  else .validating matchId

/- `validate_token` has returned. -/
def validated
    (playerId : Option String) : Point α → Point α
| .validating matchId =>
    match playerId with
    | none => .done (.error 401 "Invalid token")
    | some p =>
        if p = "" then .done (.error 401 "Invalid token")
        else .readingHold matchId p
| point => point

/- The object `delta` of `reconnect`. -/
def deltaOf
    (matchId playerId : String)
    (hold : Option (HoldJson α))
    (state : StateJson α)
    (leaderAddress : Option String) : Delta α where
  matchId := matchId
  playerId := playerId
  currentTick := state.tickOrZero
  players := state.roster
  leaderAddress := leaderAddress.getD "game-room:8000"
  holdAvailable := hold.isSome
  holdState := hold

/- `etcd.get` has returned. -/
def found
    (leaderAddress : Option String) : Point α → Point α
| .readingLeader matchId playerId hold state =>
    .done (.delta
      (deltaOf matchId playerId hold state leaderAddress))
| point => point

/- A call to Redis has returned, of which it found this. -/
def answer
    (redis : RoomRedis α)
    (hold : Option (HoldJson α)) : Point α → Point α
| .readingHold matchId playerId =>
    .readingState matchId playerId hold
| .readingState matchId playerId held =>
    match redis.state with
    | none =>
        if held.isSome then .releasingHold matchId playerId
        else .done (.error 404 "No state found")
    | some state =>
        .checkingMember matchId playerId held state
| .releasingHold _ _ =>
    .done (.error 404 "Match ended, hold released")
| .checkingMember matchId playerId held state =>
    if playerId ∉ redis.players ∧ held.isSome = false then
      .done (.error 403 "Player is not part of this match")
    else .readingLeader matchId playerId held state
| point => point

/- The key family that a call to Redis is about. -/
def Point.asks : Point α → Option (String × String)
| .readingHold matchId playerId => some (matchId, playerId)
| .readingState matchId playerId _ =>
    some (matchId, playerId)
| .releasingHold matchId playerId =>
    some (matchId, playerId)
| .checkingMember matchId playerId _ _ =>
    some (matchId, playerId)
| _ => none

/- The state object that a request has read. -/
def Point.copy : Point α → Option (String × StateJson α)
| .checkingMember matchId _ _ state => some (matchId, state)
| .readingLeader matchId _ _ state => some (matchId, state)
| _ => none

end Reconnect

------------------------------------------------------------
-- The Machine
------------------------------------------------------------

namespace Reconnect

open Py GameRoom

/- A machine of all rooms, and what it keeps in Redis. -/
structure RedisRooms (E A α : Type) where
  step : E → A → Option E
  redis : E → String → RoomRedis α

/- The keys `hold:{match_id}:{player_id}`. -/
abbrev Holds (α : Type) :=
  String → String → Option (HoldJson α)

structure State (E α : Type) where
  rooms : E
  holds : Holds α
  requests : List (Point α)

inductive Act (A α : Type) where
  | rooms (act : A)
  -- `setex` of `remove_player`
  | setHold
      (matchId playerId : String)
      (value : HoldJson α)
  -- it expires, or `add_player` deletes it
  | dropHold (matchId playerId : String)
  | begin (token matchId : String)
  | validated (k : Nat) (playerId : Option String)
  -- the call to Redis takes effect and returns
  | call (k : Nat)
  | found (k : Nat) (leaderAddress : Option String)
  -- a call raises, whether or not it took effect
  | raise (k : Nat) (applied : Bool)

variable {E A α : Type}

namespace State

def setPoint
    (s : State E α)
    (k : Nat)
    (point : Point α) : State E α :=
  { s with requests := s.requests.set k point }

def setHold
    (s : State E α)
    (matchId playerId : String)
    (value : Option (HoldJson α)) : State E α :=
  { s with
    holds :=
      Function.update s.holds matchId
        (Function.update (s.holds matchId) playerId value) }

/- The effect of a call: only one call writes. -/
def apply (s : State E α) : Point α → State E α
| .releasingHold matchId playerId =>
    s.setHold matchId playerId none
| _ => s

end State

def start (rooms : E) : State E α where
  rooms := rooms
  holds := fun _ _ => none
  requests := []

/- The response to an exception that nothing catches. -/
def serverError : Response α :=
  .error 500 "Internal Server Error"

def step
    (env : RedisRooms E A α)
    (s : State E α) : Act A α → Option (State E α)
| .rooms act =>
    (env.step s.rooms act).map (fun rooms =>
      { s with rooms := rooms })
| .setHold matchId playerId value =>
    some (s.setHold matchId playerId (some value))
| .dropHold matchId playerId =>
    some (s.setHold matchId playerId none)
| .begin token matchId =>
    some { s with
      requests := s.requests ++ [begin token matchId] }
| .validated k playerId =>
    match s.requests[k]? with
    | some (.validating matchId) =>
        some (s.setPoint k
          (validated playerId (.validating matchId)))
    | _ => none
| .call k => do
    let point ← s.requests[k]?
    let (matchId, playerId) ← point.asks
    return (s.apply point).setPoint k
      (answer (env.redis s.rooms matchId)
        (s.holds matchId playerId) point)
| .found k leaderAddress =>
    match s.requests[k]? with
    | some (.readingLeader matchId playerId hold state) =>
        some (s.setPoint k
          (found leaderAddress
            (.readingLeader matchId playerId hold state)))
    | _ => none
| .raise k applied =>
    (s.requests[k]?).bind (fun point =>
      match point with
      | .done _ => none
      -- `validate_token` swallows every exception
      | .validating _ => none
      | _ =>
          some
            ((if applied then s.apply point else s).setPoint k
              (.done serverError)))

end Reconnect

------------------------------------------------------------
-- The Kinds of Steps
------------------------------------------------------------

namespace Reconnect

open Py GameRoom

variable {E A α : Type}

/- The transitions of `step`, one for each kind. -/
inductive Steps
    (env : RedisRooms E A α)
    (s : State E α) : Act A α → State E α → Prop where
  | rooms
      {act : A} {rooms : E}
      (hRooms : env.step s.rooms act = some rooms) :
      Steps env s (.rooms act) { s with rooms := rooms }
  | setHold
      {matchId playerId : String} {value : HoldJson α} :
      Steps env s (.setHold matchId playerId value)
        (s.setHold matchId playerId (some value))
  | dropHold {matchId playerId : String} :
      Steps env s (.dropHold matchId playerId)
        (s.setHold matchId playerId none)
  | begin {token matchId : String} :
      Steps env s (.begin token matchId)
        { s with
          requests := s.requests ++ [begin token matchId] }
  | validated
      {k : Nat} {playerId : Option String} {matchId : String}
      (hPoint : s.requests[k]? = some (.validating matchId)) :
      Steps env s (.validated k playerId)
        (s.setPoint k
          (validated playerId (.validating matchId)))
  | call
      {k : Nat} {point : Point α} {matchId playerId : String}
      (hPoint : s.requests[k]? = some point)
      (hAsks : point.asks = some (matchId, playerId)) :
      Steps env s (.call k)
        ((s.apply point).setPoint k
          (answer (env.redis s.rooms matchId)
            (s.holds matchId playerId) point))
  | found
      {k : Nat} {leaderAddress : Option String}
      {matchId playerId : String} {hold : Option (HoldJson α)}
      {state : StateJson α}
      (hPoint :
        s.requests[k]? =
          some
            (.readingLeader matchId playerId hold state)) :
      Steps env s (.found k leaderAddress)
        (s.setPoint k
          (found leaderAddress
            (.readingLeader matchId playerId hold state)))
  | raise
      {k : Nat} {applied : Bool} {point : Point α}
      (hPoint : s.requests[k]? = some point) :
      Steps env s (.raise k applied)
        ((if applied then s.apply point else s).setPoint k
          (.done serverError))

/- Every step of the function is one of the transitions. -/
theorem steps_of_step
    {env : RedisRooms E A α}
    {s t : State E α}
    {act : Act A α}
    (hStep : step env s act = some t) :
    Steps env s act t := by
  cases act with
  | rooms act =>
      rcases Option.map_eq_some_iff.mp hStep with
        ⟨rooms, hRooms, rfl⟩
      exact .rooms hRooms
  | setHold matchId playerId value =>
      cases hStep
      exact .setHold
  | dropHold matchId playerId =>
      cases hStep
      exact .dropHold
  | begin token matchId =>
      cases hStep
      exact .begin
  | validated k playerId =>
      simp only [step] at hStep
      split at hStep
      · rename_i matchId hPoint
        cases hStep
        exact .validated hPoint
      · cases hStep
  | call k =>
      simp only [step, Option.bind_eq_bind,
        Option.bind_eq_some_iff] at hStep
      rcases hStep with
        ⟨point, hPoint, ⟨matchId, playerId⟩, hAsks, hEq⟩
      cases hEq
      exact .call hPoint hAsks
  | found k leaderAddress =>
      simp only [step] at hStep
      split at hStep
      · rename_i matchId playerId hold state hPoint
        cases hStep
        exact .found hPoint
      · cases hStep
  | raise k applied =>
      rcases Option.bind_eq_some_iff.mp hStep with
        ⟨point, hPoint, hRest⟩
      split at hRest
      · cases hRest
      · cases hRest
      · cases hRest
        exact .raise hPoint

end Reconnect

------------------------------------------------------------
-- What Requests Have Read
------------------------------------------------------------

namespace Reconnect

open Py GameRoom Machine

variable {E A α : Type}

/- Facts about values that were read, in terms of the rooms. -/
structure Facts (E α : Type) where
  hold : E → String → String → HoldJson α → Prop
  state : E → String → StateJson α → Prop
  member : E → String → String → Prop

/- What a request has read satisfies the facts. -/
inductive Point.Meets
    (facts : Facts E α)
    (rooms : E) : Point α → Prop where
  | validating {matchId : String} :
      Meets facts rooms (.validating matchId)
  | readingHold {matchId playerId : String} :
      Meets facts rooms (.readingHold matchId playerId)
  | readingState
      {matchId playerId : String} {hold : Option (HoldJson α)}
      (hHold :
        ∀ value ∈ hold,
          facts.hold rooms matchId playerId value) :
      Meets facts rooms (.readingState matchId playerId hold)
  | releasingHold {matchId playerId : String} :
      Meets facts rooms (.releasingHold matchId playerId)
  | checkingMember
      {matchId playerId : String} {hold : Option (HoldJson α)}
      {state : StateJson α}
      (hHold :
        ∀ value ∈ hold,
          facts.hold rooms matchId playerId value)
      (hState : facts.state rooms matchId state) :
      Meets facts rooms
        (.checkingMember matchId playerId hold state)
  | readingLeader
      {matchId playerId : String} {hold : Option (HoldJson α)}
      {state : StateJson α}
      (hHold :
        ∀ value ∈ hold,
          facts.hold rooms matchId playerId value)
      (hState : facts.state rooms matchId state)
      (hMember : facts.member rooms matchId playerId) :
      Meets facts rooms
        (.readingLeader matchId playerId hold state)
  | delta
      {matchId playerId : String} {hold : Option (HoldJson α)}
      {state : StateJson α} {leaderAddress : Option String}
      (hHold :
        ∀ value ∈ hold,
          facts.hold rooms matchId playerId value)
      (hState : facts.state rooms matchId state)
      (hMember : facts.member rooms matchId playerId) :
      Meets facts rooms
        (.done (.delta
          (deltaOf matchId playerId hold state
            leaderAddress)))
  | error {status : Nat} {detail : String} :
      Meets facts rooms (.done (.error status detail))

/-
  The facts hold of what the rooms have in Redis, and no step
  of the rooms that meets `ok` ends them.
-/
structure Keeps
    (env : RedisRooms E A α)
    (ok : E → A → Prop)
    (I : E → Prop)
    (facts : Facts E α) : Prop where
  inv :
    ∀ {rooms rooms' : E} {act : A},
      I rooms → ok rooms act →
        env.step rooms act = some rooms' → I rooms'
  state :
    ∀ {rooms : E} {matchId : String} {state : StateJson α},
      I rooms → (env.redis rooms matchId).state = some state →
        facts.state rooms matchId state
  member :
    ∀ {rooms : E} {matchId playerId : String},
      I rooms → playerId ∈ (env.redis rooms matchId).players →
        facts.member rooms matchId playerId
  holder :
    ∀ {rooms : E} {matchId playerId : String}
      {value : HoldJson α},
      I rooms → facts.hold rooms matchId playerId value →
        facts.member rooms matchId playerId
  holdKept :
    ∀ {rooms rooms' : E} {act : A} {matchId playerId : String}
      {value : HoldJson α},
      I rooms → ok rooms act →
        env.step rooms act = some rooms' →
          facts.hold rooms matchId playerId value →
            facts.hold rooms' matchId playerId value
  stateKept :
    ∀ {rooms rooms' : E} {act : A} {matchId : String}
      {state : StateJson α},
      I rooms → ok rooms act →
        env.step rooms act = some rooms' →
          facts.state rooms matchId state →
            facts.state rooms' matchId state
  memberKept :
    ∀ {rooms rooms' : E} {act : A}
      {matchId playerId : String},
      I rooms → ok rooms act →
        env.step rooms act = some rooms' →
          facts.member rooms matchId playerId →
            facts.member rooms' matchId playerId

/- The condition on a step, with that on the rooms. -/
def Allowed
    (ok : E → A → Prop)
    (facts : Facts E α)
    (s : State E α) : Act A α → Prop
| .rooms act => ok s.rooms act
| .setHold matchId playerId value =>
    facts.hold s.rooms matchId playerId value
| _ => True

/- The invariant: every value that was read meets the facts. -/
structure Informed
    (I : E → Prop)
    (facts : Facts E α)
    (s : State E α) : Prop where
  rooms : I s.rooms
  holds :
    ∀ matchId playerId value,
      s.holds matchId playerId = some value →
        facts.hold s.rooms matchId playerId value
  requests :
    ∀ point ∈ s.requests, point.Meets facts s.rooms

variable {env : RedisRooms E A α}
variable {ok : E → A → Prop}
variable {I : E → Prop}
variable {facts : Facts E α}

/- No step of the rooms ends what a request knows. -/
theorem Point.Meets.kept
    {rooms rooms' : E}
    {act : A}
    {point : Point α}
    (hKeeps : Keeps env ok I facts)
    (hInv : I rooms)
    (hOk : ok rooms act)
    (hStep : env.step rooms act = some rooms')
    (hMeets : point.Meets facts rooms) :
    point.Meets facts rooms' := by
  cases hMeets with
  | validating => exact .validating
  | readingHold => exact .readingHold
  | readingState hHold =>
      exact
        .readingState (fun value hMem =>
          hKeeps.holdKept hInv hOk hStep (hHold value hMem))
  | releasingHold => exact .releasingHold
  | checkingMember hHold hState =>
      exact
        .checkingMember
          (fun value hMem =>
            hKeeps.holdKept hInv hOk hStep (hHold value hMem))
          (hKeeps.stateKept hInv hOk hStep hState)
  | readingLeader hHold hState hMember =>
      exact
        .readingLeader
          (fun value hMem =>
            hKeeps.holdKept hInv hOk hStep (hHold value hMem))
          (hKeeps.stateKept hInv hOk hStep hState)
          (hKeeps.memberKept hInv hOk hStep hMember)
  | delta hHold hState hMember =>
      exact
        .delta
          (fun value hMem =>
            hKeeps.holdKept hInv hOk hStep (hHold value hMem))
          (hKeeps.stateKept hInv hOk hStep hState)
          (hKeeps.memberKept hInv hOk hStep hMember)
  | error => exact .error

/- A call to Redis adds what it finds. -/
theorem meets_answer
    {rooms : E}
    {point : Point α}
    {matchId playerId : String}
    {hold : Option (HoldJson α)}
    (hKeeps : Keeps env ok I facts)
    (hInv : I rooms)
    (hHold :
      ∀ value ∈ hold, facts.hold rooms matchId playerId value)
    (hAsks : point.asks = some (matchId, playerId))
    (hMeets : point.Meets facts rooms) :
    (answer (env.redis rooms matchId) hold point).Meets facts
      rooms := by
  cases hMeets with
  | readingHold =>
      cases hAsks
      exact .readingState hHold
  | readingState hHeld =>
      cases hAsks
      simp only [answer]
      split
      · split
        · exact .releasingHold
        · exact .error
      · rename_i state hState
        exact
          .checkingMember hHeld (hKeeps.state hInv hState)
  | releasingHold => exact .error
  | @checkingMember _ _ held state hHeld hState =>
      cases hAsks
      simp only [answer]
      split
      · exact .error
      · rename_i hAllowed
        refine .readingLeader hHeld hState ?_
        rw [not_and_or, not_not] at hAllowed
        rcases hAllowed with hListed | hSlot
        · exact hKeeps.member hInv hListed
        · rw [Bool.not_eq_false] at hSlot
          rcases Option.isSome_iff_exists.mp hSlot with
            ⟨value, rfl⟩
          exact hKeeps.holder hInv (hHeld value rfl)
  | validating => cases hAsks
  | readingLeader _ _ _ => cases hAsks
  | delta _ _ _ => cases hAsks
  | error => cases hAsks

theorem informed_start
    {rooms : E}
    (hInit : I rooms) :
    Informed I facts (start rooms) where
  rooms := hInit
  holds := by
    intro matchId playerId value hHold
    cases hHold
  requests := by
    intro point hMem
    cases hMem

/- One request moves on. -/
theorem Informed.setPoint
    {s : State E α}
    (hInformed : Informed I facts s)
    (k : Nat)
    {point : Point α}
    (hPoint : point.Meets facts s.rooms) :
    Informed I facts (s.setPoint k point) where
  rooms := hInformed.rooms
  holds := hInformed.holds
  requests := by
    intro point' hMem
    rcases List.mem_or_eq_of_mem_set hMem with hOld | rfl
    · exact hInformed.requests point' hOld
    · exact hPoint

/- A hold slot is stored or vanishes. -/
theorem Informed.setHold
    {s : State E α}
    (hInformed : Informed I facts s)
    {matchId playerId : String}
    {value : Option (HoldJson α)}
    (hValue :
      ∀ v ∈ value, facts.hold s.rooms matchId playerId v) :
    Informed I facts (s.setHold matchId playerId value) where
  rooms := hInformed.rooms
  holds := by
    intro matchId' playerId' value' hHold
    simp only [State.setHold] at hHold
    by_cases hMatch : matchId' = matchId
    · subst hMatch
      rw [Function.update_self] at hHold
      by_cases hPlayer : playerId' = playerId
      · subst hPlayer
        rw [Function.update_self] at hHold
        exact hValue value' hHold
      · rw [Function.update_of_ne hPlayer] at hHold
        exact hInformed.holds _ _ _ hHold
    · rw [Function.update_of_ne hMatch] at hHold
      exact hInformed.holds _ _ _ hHold
  requests := hInformed.requests

/- The effect of a call that a request waits for. -/
theorem Informed.apply
    {s : State E α}
    (hInformed : Informed I facts s)
    (point : Point α) :
    Informed I facts (s.apply point) := by
  unfold State.apply
  split
  · exact hInformed.setHold nofun
  · exact hInformed

/- A call of a request leaves the rooms alone. -/
theorem rooms_apply
    (s : State E α)
    (point : Point α) :
    (s.apply point).rooms = s.rooms := by
  unfold State.apply
  split <;> rfl

theorem informed_step
    {s t : State E α}
    {act : Act A α}
    (hKeeps : Keeps env ok I facts)
    (hInformed : Informed I facts s)
    (hOk : Allowed ok facts s act)
    (hStep : step env s act = some t) :
    Informed I facts t := by
  cases steps_of_step hStep with
  | rooms hRooms =>
      refine
        ⟨hKeeps.inv hInformed.rooms hOk hRooms, ?_, ?_⟩
      · intro matchId playerId value hHold
        exact
          hKeeps.holdKept hInformed.rooms hOk hRooms
            (hInformed.holds matchId playerId value hHold)
      · intro point hMem
        exact
          (hInformed.requests point hMem).kept hKeeps
            hInformed.rooms hOk hRooms
  | setHold =>
      refine hInformed.setHold ?_
      intro value hValue
      cases hValue
      exact hOk
  | dropHold => exact hInformed.setHold nofun
  | begin =>
      refine ⟨hInformed.rooms, hInformed.holds, ?_⟩
      intro point hMem
      rcases List.mem_append.mp hMem with hOld | hNew
      · exact hInformed.requests point hOld
      · rw [List.mem_singleton.mp hNew, begin]
        split
        · exact .error
        · exact .validating
  | validated hPoint =>
      refine hInformed.setPoint _ ?_
      simp only [validated]
      split
      · exact .error
      · split
        · exact .error
        · exact .readingHold
  | @call k point matchId playerId hPoint hAsks =>
      refine (hInformed.apply point).setPoint k ?_
      rw [rooms_apply]
      exact
        meets_answer hKeeps hInformed.rooms
          (hInformed.holds matchId playerId) hAsks
          (hInformed.requests point
            (List.mem_of_getElem? hPoint))
  | found hPoint =>
      refine hInformed.setPoint _ ?_
      have hMeets :=
        hInformed.requests _ (List.mem_of_getElem? hPoint)
      cases hMeets with
      | readingLeader hHold hState hMember =>
          exact .delta hHold hState hMember
  | @raise k applied point hPoint =>
      split
      · exact (hInformed.apply point).setPoint k .error
      · exact hInformed.setPoint k .error

/- Along every run, requests know what the facts say. -/
theorem informed_of_reaches
    {rooms : E}
    {s : State E α}
    (hKeeps : Keeps env ok I facts)
    (hInit : I rooms)
    (hRun :
      Reaches (step env) (Allowed ok facts) (start rooms)
        s) :
    Informed I facts s :=
  hRun.invariant (informed_start hInit)
    (fun hInformed hOk hStep =>
      informed_step hKeeps hInformed hOk hStep)

end Reconnect
