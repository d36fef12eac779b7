import Mathlib.Logic.Function.Basic

/-
  The pool of rooms in etcd: matchmakers claim rooms, and
  the replicas of the rooms register and remove them.

  Key definitions include:
    * `RoomPool.Write`
    * `RoomPool.Matchmaker`
    * `RoomPool.Replica`
    * `RoomPool.roomIdOf`
    * `RoomPool.State`
    * `RoomPool.Act`
    * `RoomPool.step`

  Key theorems include:
    * `RoomPool.steps_of_step`

  A call that returns has taken effect.  The write of a call
  that raises may still take effect, then or later, once.
  Elections are left open: any running replica may gain or
  lose the leadership at any time.
-/

------------------------------------------------------------
-- Parties
------------------------------------------------------------

namespace RoomPool

/- What happens to a room, in the order in which it does. -/
inductive Event where
  -- `claim_available_room` returned the room
  | claimed (claim : Nat) (room : String)
  -- the room was given back by a failed `_assign_lobby`
  | gaveBack (claim : Nat)
  -- a replica of the room executes `end_match`
  | ended (room : String)
deriving DecidableEq

/-
  The writes to the key of a room, which is given without
  the prefix `/rooms/available/`.
-/
inductive Write where
  -- `register_room`; the claim that it gives back, if any
  | register (room : String) (givesBack : Option Nat)
  -- the claim transaction
  | flip (room : String)
  -- `remove_room`
  | remove (room : String)
deriving DecidableEq

/- A matchmaking worker between two of its calls. -/
inductive Matchmaker where
  -- the listed keys and values that are still to be tried
  | claiming (entries : List (String × String))
  -- the room is claimed for a lobby
  | assigning (claim : Nat) (room : String)
deriving DecidableEq

inductive Phase where
  | down
  | up
  -- `step_down` was called
  | stopping
  -- `_cleanup` has run; the process has not exited yet
  | stopped
deriving DecidableEq

/- A game-room process. -/
structure Replica where
  phase : Phase
  -- `is_leader`
  leader : Bool
  -- a game loop was started by this process
  led : Bool
  -- the `end_match` calls that have not registered the room
  ending : Nat
deriving DecidableEq

/- `key.split('/')[-1]` -/
def roomIdOf (key : String) : String :=
  String.ofList ((key.toList.splitOn '/').getLastD [])

def Replica.down : Replica where
  phase := .down
  leader := false
  led := false
  ending := 0

end RoomPool

------------------------------------------------------------
-- The Machine
------------------------------------------------------------

namespace RoomPool

/- Replicas `ι` and matchmakers `μ` over one pool. -/
structure State (ι μ : Type) where
  -- the keys under `/rooms/available/`
  pool : String → Option String
  replicas : ι → Replica
  matchmakers : μ → Matchmaker
  -- writes of calls that raised
  flight : List Write
  history : List Event

inductive Act (ι μ : Type) where
  -- `get_prefix`, which lists these keys
  | list (m : μ) (keys : List String)
  -- the next listed key is tried
  | claim (m : μ) (returns : Bool)
  -- `_assign_lobby`: whether `match.found` is published,
  -- and whether a `register_room` after a failure returns
  | assign (m : μ) (publishes returns : Bool)
  | crashMatchmaker (m : μ)
  -- `startup`, and whether its `register_room` returns
  | start (i : ι) (returns : Bool)
  | elected (i : ι)
  | lost (i : ι)
  | endMatch (i : ι)
  -- the `register_room` in `end_match`
  | returnRoom (i : ι) (returns : Bool)
  | stop (i : ι)
  -- `_cleanup`, and whether its `remove_room` returns
  | cleanup (i : ι) (returns : Bool)
  -- the process exits or is killed
  | crash (i : ι)
  -- the write of a raised call takes effect
  | land (k : Nat)

variable {ι μ : Type}

def State.empty : State ι μ where
  pool := fun _ => none
  replicas := fun _ => Replica.down
  matchmakers := fun _ => .claiming []
  flight := []
  history := []

variable [DecidableEq ι] [DecidableEq μ]

def State.setReplica
    (s : State ι μ)
    (i : ι)
    (r : Replica) : State ι μ :=
  { s with replicas := Function.update s.replicas i r }

def State.setMatchmaker
    (s : State ι μ)
    (m : μ)
    (w : Matchmaker) : State ι μ :=
  { s with matchmakers := Function.update s.matchmakers m w }

omit [DecidableEq ι] [DecidableEq μ] in
/- The effect of a write on the pool. -/
def State.apply
    (s : State ι μ) : Write → State ι μ
| .register room givesBack =>
    { s with
      pool :=
        Function.update s.pool room (some "available")
      history :=
        s.history ++ (givesBack.map .gaveBack).toList }
| .flip room =>
    if s.pool room = some "available" then
      { s with
        pool := Function.update s.pool room (some "in-use") }
    else s
| .remove room =>
    { s with pool := Function.update s.pool room none }

omit [DecidableEq ι] [DecidableEq μ] in
/- A call writes, and returns or raises. -/
def State.send
    (s : State ι μ)
    (w : Write)
    (returns : Bool) : State ι μ :=
  if returns then s.apply w
  else { s with flight := s.flight ++ [w] }

/-
  The next entry of a claim.  A key that was listed as taken
  is passed over without a transaction.
-/
def State.claimNext
    (s : State ι μ)
    (m : μ)
    (key value : String)
    (rest : List (String × String))
    (returns : Bool) : State ι μ :=
  if value ≠ "available" then
    s.setMatchmaker m (.claiming rest)
  else if returns = false then
    (s.send (.flip key) false).setMatchmaker m
      (.claiming rest)
  else if s.pool key = some "available" then
    State.setMatchmaker
      { s.apply (.flip key) with
        history :=
          s.history ++
            [.claimed s.history.length (roomIdOf key)] }
      m (.assigning s.history.length (roomIdOf key))
  else s.setMatchmaker m (.claiming rest)

/- One step; `room` is the match id of each replica. -/
def step
    (room : ι → String)
    (s : State ι μ) : Act ι μ → Option (State ι μ)
| .list m keys =>
    if s.matchmakers m = .claiming [] then
      some (s.setMatchmaker m
        (.claiming (keys.filterMap (fun key =>
          (s.pool key).map (fun value => (key, value))))))
    else none
| .claim m returns =>
    match s.matchmakers m with
    | .claiming ((key, value) :: rest) =>
        some (s.claimNext m key value rest returns)
    | _ => none
| .assign m publishes returns =>
    match s.matchmakers m with
    | .assigning claim r =>
        some
          (if publishes then
            s.setMatchmaker m (.claiming [])
          else
            (s.send (.register r (some claim))
              returns).setMatchmaker m (.claiming []))
    | _ => none
| .crashMatchmaker m =>
    some (s.setMatchmaker m (.claiming []))
| .start i returns =>
    if (s.replicas i).phase = .down then
      some ((s.send (.register (room i) none)
        returns).setReplica i
          { Replica.down with phase := .up })
    else none
| .elected i =>
    if (s.replicas i).phase = .up ∨
        (s.replicas i).phase = .stopping then
      some (s.setReplica i
        { s.replicas i with leader := true, led := true })
    else none
| .lost i =>
    some (s.setReplica i
      { s.replicas i with leader := false })
| .endMatch i =>
    if (s.replicas i).led then
      some (State.setReplica
        { s with history := s.history ++ [.ended (room i)] }
        i
        { s.replicas i with
          ending := (s.replicas i).ending + 1 })
    else none
| .returnRoom i returns =>
    if 0 < (s.replicas i).ending then
      some ((s.send (.register (room i) none)
        returns).setReplica i
          { s.replicas i with
            ending := (s.replicas i).ending - 1 })
    else none
| .stop i =>
    if (s.replicas i).phase = .up then
      some (s.setReplica i
        { s.replicas i with phase := .stopping })
    else none
| .cleanup i returns =>
    if (s.replicas i).phase = .stopping then
      some
        ((if (s.replicas i).leader then
            s.send (.remove (room i)) returns
          else s).setReplica i
            { s.replicas i with
              phase := .stopped
              leader := false })
    else none
| .crash i => some (s.setReplica i Replica.down)
| .land k =>
    (s.flight[k]?).map (fun w =>
      State.apply { s with flight := s.flight.eraseIdx k } w)

/- The transitions of `step`, one for each kind. -/
inductive Steps
    (room : ι → String)
    (s : State ι μ) :
    Act ι μ → State ι μ → Prop where
  | list
      {m : μ} {keys : List String}
      (hIdle : s.matchmakers m = .claiming []) :
      Steps room s (.list m keys)
        (s.setMatchmaker m
          (.claiming (keys.filterMap (fun key =>
            (s.pool key).map (fun value => (key, value))))))
  | claim
      {m : μ} {key value : String}
      {rest : List (String × String)} {returns : Bool}
      (hClaiming :
        s.matchmakers m = .claiming ((key, value) :: rest)) :
      Steps room s (.claim m returns)
        (s.claimNext m key value rest returns)
  | assign
      {m : μ} {claim : Nat} {r : String} {returns : Bool}
      (hAssigning : s.matchmakers m = .assigning claim r) :
      Steps room s (.assign m true returns)
        (s.setMatchmaker m (.claiming []))
  | giveBack
      {m : μ} {claim : Nat} {r : String} {returns : Bool}
      (hAssigning : s.matchmakers m = .assigning claim r) :
      Steps room s (.assign m false returns)
        ((s.send (.register r (some claim))
          returns).setMatchmaker m (.claiming []))
  | crashMatchmaker {m : μ} :
      Steps room s (.crashMatchmaker m)
        (s.setMatchmaker m (.claiming []))
  | start
      {i : ι} {returns : Bool}
      (hDown : (s.replicas i).phase = .down) :
      Steps room s (.start i returns)
        ((s.send (.register (room i) none)
          returns).setReplica i
            { Replica.down with phase := .up })
  | elected
      {i : ι}
      (hRuns :
        (s.replicas i).phase = .up ∨
          (s.replicas i).phase = .stopping) :
      Steps room s (.elected i)
        (s.setReplica i
          { s.replicas i with leader := true, led := true })
  | lost {i : ι} :
      Steps room s (.lost i)
        (s.setReplica i
          { s.replicas i with leader := false })
  | endMatch
      {i : ι}
      (hLed : (s.replicas i).led = true) :
      Steps room s (.endMatch i)
        (State.setReplica
          { s with history := s.history ++ [.ended (room i)] }
          i
          { s.replicas i with
            ending := (s.replicas i).ending + 1 })
  | returnRoom
      {i : ι} {returns : Bool}
      (hEnding : 0 < (s.replicas i).ending) :
      Steps room s (.returnRoom i returns)
        ((s.send (.register (room i) none)
          returns).setReplica i
            { s.replicas i with
              ending := (s.replicas i).ending - 1 })
  | stop
      {i : ι}
      (hUp : (s.replicas i).phase = .up) :
      Steps room s (.stop i)
        (s.setReplica i
          { s.replicas i with phase := .stopping })
  | removeRoom
      {i : ι} {returns : Bool}
      (hStopping : (s.replicas i).phase = .stopping)
      (hLeader : (s.replicas i).leader = true) :
      Steps room s (.cleanup i returns)
        ((s.send (.remove (room i)) returns).setReplica i
          { s.replicas i with
            phase := .stopped
            leader := false })
  | cleanup
      {i : ι} {returns : Bool}
      (hStopping : (s.replicas i).phase = .stopping)
      (hLeader : (s.replicas i).leader = false) :
      Steps room s (.cleanup i returns)
        (s.setReplica i
          { s.replicas i with
            phase := .stopped
            leader := false })
  | crash {i : ι} :
      Steps room s (.crash i) (s.setReplica i Replica.down)
  | land
      {k : Nat} {w : Write}
      (hFlight : s.flight[k]? = some w) :
      Steps room s (.land k)
        (State.apply
          { s with flight := s.flight.eraseIdx k } w)

/- Every step of the function is one of the transitions. -/
theorem steps_of_step
    {room : ι → String}
    {s t : State ι μ}
    {act : Act ι μ}
    (hStep : step room s act = some t) :
    Steps room s act t := by
  cases act with
  | list m keys =>
      simp only [step] at hStep
      split at hStep <;> cases hStep
      exact .list ‹_›
  | claim m returns =>
      simp only [step] at hStep
      split at hStep <;> cases hStep
      exact .claim ‹_›
  | assign m publishes returns =>
      simp only [step] at hStep
      split at hStep <;> cases hStep
      cases publishes with
      | true => exact .assign ‹_›
      | false => exact .giveBack ‹_›
  | crashMatchmaker m =>
      cases hStep
      exact .crashMatchmaker
  | start i returns =>
      simp only [step] at hStep
      split at hStep <;> cases hStep
      exact .start ‹_›
  | elected i =>
      simp only [step] at hStep
      split at hStep <;> cases hStep
      exact .elected ‹_›
  | lost i =>
      cases hStep
      exact .lost
  | endMatch i =>
      simp only [step] at hStep
      split at hStep <;> cases hStep
      exact .endMatch ‹_›
  | returnRoom i returns =>
      simp only [step] at hStep
      split at hStep <;> cases hStep
      exact .returnRoom ‹_›
  | stop i =>
      simp only [step] at hStep
      split at hStep <;> cases hStep
      exact .stop ‹_›
  | cleanup i returns =>
      simp only [step] at hStep
      split at hStep <;> cases hStep
      split
      · exact .removeRoom ‹_› ‹_›
      · exact .cleanup ‹_› (eq_false_of_ne_true ‹_›)
  | crash i =>
      cases hStep
      exact .crash
  | land k =>
      rcases Option.map_eq_some_iff.mp hStep with
        ⟨w, hFlight, rfl⟩
      exact .land hFlight

end RoomPool
