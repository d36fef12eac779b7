import MultiplayerInfra.Matchmaking.Matcher

/-
  The matchmaker loop: requests expire, lobbies waiting for
  a room are retried, and new lobbies claim a room or wait.

  Key definitions include:
    * `Matchmaking.claimAvailableRoom`
    * `Matchmaking.Attempt`
    * `Matchmaking.State`
    * `Matchmaking.State.retryPass`
    * `Matchmaking.State.assignPass`
    * `Matchmaking.State.iterate`
    * `Matchmaking.step`

  The outcomes of the calls to etcd and to the broker are
  part of the label of an iteration.
-/

------------------------------------------------------------
-- Room Claims
------------------------------------------------------------

namespace Matchmaking

/- The end of one claim transaction. -/
inductive Txn where
  -- it raised, possibly after it had taken effect
  | raised (applied : Bool)
  | done (success : Bool)
deriving DecidableEq

/- A listed room, and the transaction that claims it. -/
structure RoomEntry where
  room : String
  value : String
  txn : Txn
deriving DecidableEq

/-
  `claim_available_room` over the listed rooms: the claimed
  room, and the rooms of transactions that raised after they
  had taken effect.
-/
def claimAvailableRoom :
    List RoomEntry → Option String × List String
| [] => (none, [])
| entry :: rest =>
    if entry.value ≠ "available" then
      claimAvailableRoom rest
    else
      match entry.txn with
      | .raised false => claimAvailableRoom rest
      | .raised true =>
          ((claimAvailableRoom rest).1,
            entry.room :: (claimAvailableRoom rest).2)
      | .done true => (some entry.room, [])
      | .done false => claimAvailableRoom rest

/- What the loop meets when it seeks a room for a lobby. -/
structure Attempt where
  -- the listing, unless `get_prefix` raises
  listing : Option (List RoomEntry)
  -- whether `match.found` is published
  publishes : Bool
  -- whether `register_room` gives an unused room back
  releases : Bool

/- The claim raises. -/
def Attempt.Raises (a : Attempt) : Prop :=
  a.listing = none

instance (a : Attempt) : Decidable a.Raises :=
  decidable_of_iff _ Option.isNone_iff_eq_none

/- The claimed room; `if room_id` takes `""` for none. -/
def Attempt.room (a : Attempt) : Option String :=
  (a.listing.bind (fun rooms =>
    (claimAvailableRoom rooms).1)).filter (fun room =>
      room ≠ "")

/- Rooms that are flipped without the loop learning of it. -/
def Attempt.leaked (a : Attempt) : List String :=
  match a.listing with
  | none => []
  | some rooms =>
      ((claimAvailableRoom rooms).1.filter (fun room =>
        room = "")).toList ++ (claimAvailableRoom rooms).2

end Matchmaking

------------------------------------------------------------
-- The State
------------------------------------------------------------

namespace Matchmaking

/- A lobby, told apart by the order in which it was formed. -/
structure Lobby where
  number : Nat
  members : List MatchRequest
deriving DecidableEq

structure State where
  -- `matcher.pending`
  pending : List MatchRequest
  -- `_pending_lobbies`, with their retry counts
  pendingLobbies : List (Lobby × Nat)
  scaleUpDeficit : Nat
  -- the gauge `matchmaking_queue_depth`
  queueDepth : Int
  -- all requests given to `add_request`
  added : List MatchRequest
  -- the requests named by a published notification
  resolved : List MatchRequest
  -- the number of lobbies formed by `match_tick`
  formed : Nat
  -- the lobbies of the published `match.found`
  found : List Nat
  -- the rooms taken for lobbies and not given back
  held : List (Nat × String)
deriving DecidableEq

def State.empty : State where
  pending := []
  pendingLobbies := []
  scaleUpDeficit := 0
  queueDepth := 0
  added := []
  resolved := []
  formed := 0
  found := []
  held := []

/- What a message of the queue makes a request of. -/
structure Arrival where
  playerId : String
  elo : Int
  timestamp : Rat
deriving DecidableEq

/- `add_request` for a new request, and the gauge. -/
def State.addRequest
    (s : State)
    (arrival : Arrival) : State :=
  let request : MatchRequest :=
    { objectId := s.added.length
      playerId := arrival.playerId
      elo := arrival.elo
      timestamp := arrival.timestamp }
  { s with
    pending := s.pending ++ [request]
    added := s.added ++ [request]
    queueDepth := s.queueDepth + 1 }

/- The rooms that a claim takes for a lobby. -/
def State.take
    (s : State)
    (lobby : Lobby)
    (a : Attempt) : State :=
  { s with
    held :=
      (a.room.toList ++ a.leaked).map
        (fun room => (lobby.number, room)) ++ s.held }

/- `_assign_lobby` for the claimed room. -/
def State.assignLobby
    (s : State)
    (lobby : Lobby)
    (room : String)
    (a : Attempt) : State :=
  if a.publishes then
    { s with
      found := lobby.number :: s.found
      resolved := lobby.members ++ s.resolved
      queueDepth := s.queueDepth - lobby.members.length }
  else if a.releases then
    { s with held := s.held.erase (lobby.number, room) }
  else s

/- `_scale_up_deficit = max(0, _scale_up_deficit - 1)`. -/
def State.lowerDeficit (s : State) : State :=
  { s with scaleUpDeficit := s.scaleUpDeficit - 1 }

end Matchmaking

------------------------------------------------------------
-- One Iteration
------------------------------------------------------------

namespace Matchmaking

/- `_MAX_SCALE_RETRIES`. -/
def maxScaleRetries : Nat := 15

/- The outcomes of the calls of one iteration. -/
structure Tick where
  expireNow : Rat
  -- whether the `k`-th `match.expired` is published
  expirePublishes : Nat → Bool
  -- the attempt for the `k`-th pending lobby
  retries : Nat → Attempt
  -- requests that are added while the iteration awaits
  arrivals : List Arrival
  matchNow : Rat
  -- the attempt for the `k`-th new lobby
  attempts : Nat → Attempt

/- The elements of a list with their attempts. -/
def withAttempts
    {β : Type}
    (attempts : Nat → Attempt)
    (elements : List β) : List (β × Attempt) :=
  elements.zipIdx.map (fun e => (e.1, attempts e.2))

/-
  The expired requests leave the queue, whether or not the
  notification of the `k`-th is published.
-/
def State.expire
    (s : State)
    (settings : Settings)
    (t : Tick) : State :=
  let (expired, pending) :=
    expireRequests (settings.matchTimeoutSeconds * 2 : Int)
      t.expireNow s.pending
  { s with
    pending := pending
    resolved :=
      (expired.zipIdx.filter (fun e =>
        t.expirePublishes e.2)).map Prod.fst ++ s.resolved
    queueDepth := s.queueDepth - expired.length }

/-
  The retry pass over `_pending_lobbies`; the result has the
  list `still_pending`, unless a claim raises.
-/
def State.retryPass
    (s : State)
    (stillPending : List (Lobby × Nat)) :
    List ((Lobby × Nat) × Attempt) →
      State × Option (List (Lobby × Nat))
| [] => (s, some stillPending)
| ((lobby, retry), a) :: rest =>
    if a.Raises then (s, none)
    else
      match a.room with
      | some room =>
          State.retryPass
            (((s.take lobby a).assignLobby lobby room
              a).lowerDeficit)
            stillPending rest
      | none =>
          if retry < maxScaleRetries then
            State.retryPass (s.take lobby a)
              (stillPending ++ [(lobby, retry + 1)]) rest
          else
            State.retryPass (s.take lobby a).lowerDeficit
              stillPending rest

/-
  The loop over new lobbies, which ends when a claim raises.
  `ensure_game_rooms` catches its own exceptions.
-/
def State.assignPass
    (s : State) :
    List (Lobby × Attempt) → State
| [] => s
| (lobby, a) :: rest =>
    if a.Raises then s
    else
      match a.room with
      | some room =>
          State.assignPass
            ((s.take lobby a).assignLobby lobby room a) rest
      | none =>
          State.assignPass
            { s.take lobby a with
              scaleUpDeficit := s.scaleUpDeficit + 1
              pendingLobbies :=
                s.pendingLobbies ++ [(lobby, 0)] }
            rest

/- `match_tick`, with the lobbies numbered. -/
def State.matchTick
    (s : State)
    (settings : Settings)
    (now : Rat) : State × List Lobby :=
  let (lobbies, pending) :=
    Matchmaking.matchTick settings now s.pending
  ({ s with
      pending := pending
      formed := s.formed + lobbies.length },
    lobbies.zipIdx.map (fun e =>
      { number := s.formed + e.2, members := e.1 }))

/- New lobbies are formed and each tries to get a room. -/
def State.matchNew
    (s : State)
    (settings : Settings)
    (t : Tick) : State :=
  if matchTickRaises settings s.pending then
    { s with pending := sortByElo s.pending }
  else
    let (s', lobbies) := s.matchTick settings t.matchNow
    s'.assignPass (withAttempts t.attempts lobbies)

/- One turn of `matchmaker_loop`. -/
def State.iterate
    (s : State)
    (settings : Settings)
    (t : Tick) : State :=
  let expired := s.expire settings t
  match
    expired.retryPass []
      (withAttempts t.retries expired.pendingLobbies)
  with
  | (s', none) => s'
  | (s', some stillPending) =>
      State.matchNew
        (t.arrivals.foldl State.addRequest
          { s' with pendingLobbies := stillPending })
        settings t

inductive Act where
  | addRequest (arrival : Arrival)
  | iterate (t : Tick)

/- The loop between two iteration boundaries. -/
def step
    (settings : Settings)
    (s : State) : Act → Option State
| .addRequest arrival => some (s.addRequest arrival)
| .iterate t => some (s.iterate settings t)

end Matchmaking

------------------------------------------------------------
-- What the Parts of an Iteration Change
------------------------------------------------------------

namespace Matchmaking

namespace State

variable (s : State)
variable (lobby : Lobby)
variable (room : String)
variable (a : Attempt)

/- A claim changes only the rooms that are taken. -/
@[simp] theorem take_pending :
    (s.take lobby a).pending = s.pending := rfl

@[simp] theorem take_pendingLobbies :
    (s.take lobby a).pendingLobbies = s.pendingLobbies :=
  rfl

@[simp] theorem take_scaleUpDeficit :
    (s.take lobby a).scaleUpDeficit = s.scaleUpDeficit :=
  rfl

@[simp] theorem take_queueDepth :
    (s.take lobby a).queueDepth = s.queueDepth := rfl

@[simp] theorem take_added :
    (s.take lobby a).added = s.added := rfl

@[simp] theorem take_resolved :
    (s.take lobby a).resolved = s.resolved := rfl

@[simp] theorem take_formed :
    (s.take lobby a).formed = s.formed := rfl

/- An assignment leaves the queues as they are. -/
@[simp] theorem assignLobby_pending :
    (s.assignLobby lobby room a).pending = s.pending := by
  unfold assignLobby
  split
  · rfl
  · split <;> rfl

@[simp] theorem assignLobby_pendingLobbies :
    (s.assignLobby lobby room a).pendingLobbies =
      s.pendingLobbies := by
  unfold assignLobby
  split
  · rfl
  · split <;> rfl

@[simp] theorem assignLobby_scaleUpDeficit :
    (s.assignLobby lobby room a).scaleUpDeficit =
      s.scaleUpDeficit := by
  unfold assignLobby
  split
  · rfl
  · split <;> rfl

@[simp] theorem assignLobby_added :
    (s.assignLobby lobby room a).added = s.added := by
  unfold assignLobby
  split
  · rfl
  · split <;> rfl

@[simp] theorem assignLobby_formed :
    (s.assignLobby lobby room a).formed = s.formed := by
  unfold assignLobby
  split
  · rfl
  · split <;> rfl

theorem assignLobby_resolved :
    (s.assignLobby lobby room a).resolved =
      if a.publishes then lobby.members ++ s.resolved
      else s.resolved := by
  unfold assignLobby
  split
  · rfl
  · split <;> rfl

@[simp] theorem lowerDeficit_pending :
    s.lowerDeficit.pending = s.pending := rfl

@[simp] theorem lowerDeficit_pendingLobbies :
    s.lowerDeficit.pendingLobbies = s.pendingLobbies := rfl

@[simp] theorem lowerDeficit_queueDepth :
    s.lowerDeficit.queueDepth = s.queueDepth := rfl

@[simp] theorem lowerDeficit_added :
    s.lowerDeficit.added = s.added := rfl

@[simp] theorem lowerDeficit_resolved :
    s.lowerDeficit.resolved = s.resolved := rfl

@[simp] theorem lowerDeficit_formed :
    s.lowerDeficit.formed = s.formed := rfl

end State

/- Expiry leaves the lobbies alone. -/
theorem expire_pendingLobbies
    (s : State)
    (settings : Settings)
    (t : Tick) :
    (s.expire settings t).pendingLobbies =
      s.pendingLobbies :=
  rfl

/- Every element keeps its place when attempts are added. -/
@[simp] theorem map_fst_withAttempts
    {β : Type}
    (attempts : Nat → Attempt)
    (elements : List β) :
    (withAttempts attempts elements).map Prod.fst =
      elements := by
  unfold withAttempts
  rw [List.map_map]
  exact List.zipIdx_map_fst 0 elements

variable {s : State}

/- Expiry leaves the lobbies that are retried next. -/
theorem iterate_eq
    (s : State)
    (settings : Settings)
    (t : Tick) :
    s.iterate settings t =
      match
        (s.expire settings t).retryPass []
          (withAttempts t.retries s.pendingLobbies)
      with
      | (s', none) => s'
      | (s', some stillPending) =>
          State.matchNew
            (t.arrivals.foldl State.addRequest
              { s' with pendingLobbies := stillPending })
            settings t :=
  rfl

/- A claim of the retry pass raises. -/
theorem iterate_of_raised
    {settings : Settings}
    {t : Tick}
    (hNone :
      ((s.expire settings t).retryPass []
        (withAttempts t.retries s.pendingLobbies)).2 =
          none) :
    s.iterate settings t =
      ((s.expire settings t).retryPass []
        (withAttempts t.retries s.pendingLobbies)).1 := by
  rw [iterate_eq]
  split
  · rename_i s' hEq
    rw [hEq]
  · rename_i s' stillPending hEq
    rw [hEq] at hNone
    cases hNone

/- The retry pass completes. -/
theorem iterate_of_completed
    {settings : Settings}
    {t : Tick}
    {kept : List (Lobby × Nat)}
    (hSome :
      ((s.expire settings t).retryPass []
        (withAttempts t.retries s.pendingLobbies)).2 =
          some kept) :
    s.iterate settings t =
      State.matchNew
        (t.arrivals.foldl State.addRequest
          { ((s.expire settings t).retryPass []
              (withAttempts t.retries
                s.pendingLobbies)).1 with
            pendingLobbies := kept })
        settings t := by
  rw [iterate_eq]
  split
  · rename_i s' hEq
    rw [hEq] at hSome
    cases hSome
  · rename_i s' stillPending hEq
    rw [hEq] at hSome
    cases hSome
    rw [hEq]

/- The new lobbies of a tick that does not raise. -/
theorem matchNew_of_returns
    {settings : Settings}
    (t : Tick)
    (hReturns : ¬ matchTickRaises settings s.pending) :
    s.matchNew settings t =
      (s.matchTick settings t.matchNow).1.assignPass
        (withAttempts t.attempts
          (s.matchTick settings t.matchNow).2) := by
  rw [State.matchNew, if_neg hReturns]

/- The new lobbies are tried with the attempts of the tick. -/
theorem forall_attempts_matchTick
    {settings : Settings}
    {t : Tick}
    {P : Attempt → Prop}
    (hAll :
      ∀ k < (matchTick settings t.matchNow
          s.pending).1.length,
        P (t.attempts k)) :
    ∀ e ∈ withAttempts t.attempts
        (s.matchTick settings t.matchNow).2,
      P e.2 := by
  intro e hMem
  rcases List.mem_map.mp hMem with ⟨⟨lobby, k⟩, hIn, rfl⟩
  apply hAll
  have hLt := List.snd_lt_of_mem_zipIdx hIn
  simpa [State.matchTick] using hLt

/-
  The retry pass touches neither the queue nor the list that
  it runs over.
-/
theorem retryPass_frame
    (s : State)
    (stillPending : List (Lobby × Nat))
    (tries : List ((Lobby × Nat) × Attempt)) :
    (s.retryPass stillPending tries).1.pending =
        s.pending ∧
      (s.retryPass stillPending tries).1.pendingLobbies =
        s.pendingLobbies ∧
      (s.retryPass stillPending tries).1.added = s.added ∧
      (s.retryPass stillPending tries).1.formed =
        s.formed := by
  induction tries generalizing s stillPending with
  | nil => exact ⟨rfl, rfl, rfl, rfl⟩
  | cons e rest ih =>
      rcases e with ⟨⟨lobby, retry⟩, a⟩
      rw [State.retryPass]
      split
      · exact ⟨rfl, rfl, rfl, rfl⟩
      · split
        · rename_i room _
          simpa using
            ih
              ((s.take lobby a).assignLobby lobby room
                a).lowerDeficit
              stillPending
        · split
          · simpa using ih (s.take lobby a) _
          · simpa using
              ih (s.take lobby a).lowerDeficit stillPending

/- The pass completes exactly when no claim raises. -/
theorem retryPass_eq_none_iff
    (s : State)
    (stillPending : List (Lobby × Nat))
    (tries : List ((Lobby × Nat) × Attempt)) :
    (s.retryPass stillPending tries).2 = none ↔
      ∃ e ∈ tries, e.2.Raises := by
  induction tries generalizing s stillPending with
  | nil => simp [State.retryPass]
  | cons e rest ih =>
      rcases e with ⟨⟨lobby, retry⟩, a⟩
      rw [State.retryPass]
      split
      · rename_i hRaises
        simp [hRaises]
      · rename_i hClaims
        simp only [List.mem_cons, exists_eq_or_imp, hClaims,
          false_or]
        split
        · exact ih _ _
        · split
          · exact ih _ _
          · exact ih _ _

end Matchmaking
