import Mathlib.Logic.Function.Basic
import MultiplayerInfra.Machine.Run

/-
  The auth service: tokens, sessions, and its requests, cut
  at every call to Postgres and to Redis.

  Key definitions include:
    * `Auth.Jwt`
    * `Auth.createToken`
    * `Auth.decodeToken`
    * `Auth.Stores`
    * `Auth.Request`
    * `Auth.Point`
    * `Auth.step`

  Key theorems include:
    * `Auth.createToken_eq_iff`
    * `Auth.steps_of_step`

  A call that raises took effect before it raised or not at
  all.  Keys in Redis may expire at any time.
-/

------------------------------------------------------------
-- Tokens
------------------------------------------------------------

namespace Auth

/- The settings of `config.py` that tokens depend on. -/
structure Settings where
  jwtExpireMinutes : Nat := 24 * 60

/- The claims of a token; both times are whole seconds. -/
structure Payload where
  sub : String
  iat : Int
  exp : Int
deriving DecidableEq

/-
  `jwt.encode` and the signature check of `jwt.decode`, for
  one pair of keys.
-/
structure Jwt (τ : Type) where
  encode : Payload → τ
  decode : τ → Option Payload
  decode_encode :
    ∀ payload, decode (encode payload) = some payload

/- `bcrypt` with an explicit salt, and the tokens. -/
structure Crypto (τ : Type) where
  jwt : Jwt τ
  hashpw : String → String → String
  checkpw : String → String → Bool

/- Clock readings are microseconds. -/
def secondOf (now : Int) : Int :=
  now / 1000000

variable {τ : Type}

/- Different claims make different tokens. -/
theorem Jwt.encode_injective
    (jwt : Jwt τ) :
    Function.Injective jwt.encode := by
  intro p p' hEq
  have hDecode := congrArg jwt.decode hEq
  rw [jwt.decode_encode, jwt.decode_encode] at hDecode
  exact Option.some.inj hDecode

def payloadOf
    (settings : Settings)
    (playerId : String)
    (now : Int) : Payload where
  sub := playerId
  iat := secondOf now
  exp :=
    secondOf (now + settings.jwtExpireMinutes * 60 * 1000000)

/- `create_token`. -/
def createToken
    (jwt : Jwt τ)
    (settings : Settings)
    (playerId : String)
    (now : Int) : τ :=
  jwt.encode (payloadOf settings playerId now)

/-
  `decode_token`: a token that was issued in the future or is
  expired raises as well.
-/
def decodeToken
    (jwt : Jwt τ)
    (now : Int)
    (token : τ) : Option Payload :=
  (jwt.decode token).filter (fun payload =>
    payload.iat * 1000000 ≤ now ∧
      now < payload.exp * 1000000)

/- The player and the second of issue identify the claims. -/
theorem payloadOf_inj
    {settings : Settings}
    {playerId playerId' : String}
    {now now' : Int} :
    payloadOf settings playerId now =
        payloadOf settings playerId' now' ↔
      playerId = playerId' ∧ secondOf now = secondOf now' := by
  constructor
  · intro hEq
    exact
      ⟨congrArg Payload.sub hEq, congrArg Payload.iat hEq⟩
  · rintro ⟨rfl, hSecond⟩
    simp only [payloadOf, Payload.mk.injEq, true_and]
    unfold secondOf at hSecond ⊢
    omega

/- Two logins of a player in one second get one token. -/
theorem createToken_eq_iff
    (jwt : Jwt τ)
    (settings : Settings)
    (playerId playerId' : String)
    (now now' : Int) :
    createToken jwt settings playerId now =
        createToken jwt settings playerId' now' ↔
      playerId = playerId' ∧ secondOf now = secondOf now' :=
  jwt.encode_injective.eq_iff.trans payloadOf_inj

end Auth

------------------------------------------------------------
-- Stores
------------------------------------------------------------

namespace Auth

/- The columns that only a profile shows. -/
structure Stats where
  eloRating : Int := 1200
  wins : Nat := 0
  losses : Nat := 0
  totalMatches : Nat := 0
  averageScore : Rat := 0
deriving DecidableEq

/- A row of the table `players`. -/
structure Player where
  playerId : String
  username : String
  passwordHash : String
  stats : Stats := {}
deriving DecidableEq

/- The value of a key `session:{id}`. -/
structure SessionDoc (τ : Type) where
  playerId : String
  token : τ
deriving DecidableEq

/- The value of a key `player_session:{id}`. -/
structure PlayerSession (τ : Type) where
  sessionId : String
  token : τ
deriving DecidableEq

/- The two families of keys in Redis. -/
structure Sessions (τ : Type) where
  session : String → Option (SessionDoc τ)
  playerSession : String → Option (PlayerSession τ)

structure Stores (τ : Type) where
  players : List Player
  sessions : Sessions τ

variable {τ : Type}

def Stores.empty : Stores τ where
  players := []
  sessions :=
    { session := fun _ => none
      playerSession := fun _ => none }

namespace Sessions

/- `store_session`. -/
def storeSession
    (r : Sessions τ)
    (sessionId : String)
    (doc : SessionDoc τ) : Sessions τ :=
  { r with
    session :=
      Function.update r.session sessionId (some doc) }

/- `store_player_session`. -/
def storePlayerSession
    (r : Sessions τ)
    (playerId : String)
    (doc : PlayerSession τ) : Sessions τ :=
  { r with
    playerSession :=
      Function.update r.playerSession playerId (some doc) }

/- The keys that `delete_player_session` deletes. -/
def deleteKeys
    (r : Sessions τ)
    (playerId : String)
    (sessionId : Option String) : Sessions τ where
  session :=
    match sessionId with
    | none => r.session
    | some id => Function.update r.session id none
  playerSession :=
    Function.update r.playerSession playerId none

/- The key of a session expires. -/
def expireSession
    (r : Sessions τ)
    (sessionId : String) : Sessions τ :=
  { r with
    session := Function.update r.session sessionId none }

/- The token of a player's current session. -/
def currentToken
    (r : Sessions τ)
    (playerId : String) : Option τ :=
  (r.playerSession playerId).map PlayerSession.token

end Sessions

/- The username or the identifier is in use. -/
def Stores.Taken
    (st : Stores τ)
    (player : Player) : Prop :=
  ∃ row ∈ st.players,
    row.username = player.username ∨
      row.playerId = player.playerId

instance
    (st : Stores τ)
    (player : Player) :
    Decidable (st.Taken player) :=
  inferInstanceAs (Decidable
    (∃ row ∈ st.players,
      row.username = player.username ∨
        row.playerId = player.playerId))

def Stores.getPlayer
    (st : Stores τ)
    (playerId : String) : Option Player :=
  st.players.find? (fun row => row.playerId = playerId)

def Stores.getPlayerByUsername
    (st : Stores τ)
    (username : String) : Option Player :=
  st.players.find? (fun row => row.username = username)

end Auth

------------------------------------------------------------
-- Requests
------------------------------------------------------------

namespace Auth

inductive Request (τ : Type) where
  | register (username password : String)
  | login (username password : String)
  | refresh (token : τ)
  | logout (token : τ)
  | validate (token : τ)
  -- `get_player_profile`
  | profile (playerId : String) (token : τ)
deriving DecidableEq

inductive Response (τ : Type) where
  | token (accessToken : τ)
  | loggedOut
  | valid (playerId : String)
  | profile (player : Player)
  | error (status : Nat) (detail : String)
deriving DecidableEq

/- The call to a store that a request waits for. -/
inductive Point (τ : Type) where
  | createPlayer (player : Player)
  | getPlayerByUsername (username password : String)
  -- `_issue_session`
  | storeSession
      (playerId sessionId : String)
      (token : τ)
  | storePlayerSession
      (playerId sessionId : String)
      (token : τ)
  -- `get_player_session`, to compare the tokens
  | checkSession (playerId : String)
  | getPlayer (playerId : String)
  -- `delete_player_session`
  | readSession (playerId : String)
  | deleteKeys
      (playerId : String)
      (sessionId : Option String)
  | done (response : Response τ)
deriving DecidableEq

variable {τ : Type}

/- The token that a request presents. -/
def Request.token : Request τ → Option τ
| .register _ _ => none
| .login _ _ => none
| .refresh token => some token
| .logout token => some token
| .validate token => some token
| .profile _ token => some token

/- The response to an exception that nothing catches. -/
def serverError : Response τ :=
  .error 500 "Internal Server Error"

/- `_issue_session`, with a new session id. -/
def issueSession
    (crypto : Crypto τ)
    (settings : Settings)
    (playerId : String)
    (now : Int)
    (sessionId : String) : Point τ :=
  .storeSession playerId sessionId
    (createToken crypto.jwt settings playerId now)

/- A request up to its first call; a new player gets `id`. -/
def begin
    (crypto : Crypto τ)
    (now : Int)
    (id salt : String) : Request τ → Point τ
| .register username password =>
    .createPlayer
      { playerId := id
        username := username
        passwordHash := crypto.hashpw password salt }
| .login username password =>
    .getPlayerByUsername username password
| .refresh token =>
    match decodeToken crypto.jwt now token with
    | none => .done (.error 401 "Invalid or expired token")
    | some payload => .checkSession payload.sub
| .logout token =>
    match decodeToken crypto.jwt now token with
    | none => .done (.error 401 "Invalid or expired token")
    | some payload => .readSession payload.sub
| .validate token =>
    match decodeToken crypto.jwt now token with
    | none => .done (.error 401 "Invalid or expired token")
    | some payload => .checkSession payload.sub
| .profile playerId token =>
    match decodeToken crypto.jwt now token with
    | none => .done (.error 401 "Invalid token")
    | some payload =>
        if payload.sub = playerId then .checkSession playerId
        else .done (.error 403 "Forbidden")

/- A request that starts with a token reads its player. -/
inductive Begins
    (crypto : Crypto τ)
    (now : Int)
    (request : Request τ) : Point τ → Prop where
  | create
      {player : Player}
      (hToken : request.token = none) :
      Begins crypto now request (.createPlayer player)
  | find
      {username password : String}
      (hToken : request.token = none) :
      Begins crypto now request
        (.getPlayerByUsername username password)
  | reject
      {response : Response τ} :
      Begins crypto now request (.done response)
  | check
      {token : τ} {payload : Payload}
      (hToken : request.token = some token)
      (hDecode :
        decodeToken crypto.jwt now token = some payload) :
      Begins crypto now request (.checkSession payload.sub)
  | read
      {token : τ} {payload : Payload}
      (hToken : request.token = some token)
      (hDecode :
        decodeToken crypto.jwt now token = some payload) :
      Begins crypto now request (.readSession payload.sub)

theorem begins
    (crypto : Crypto τ)
    (now : Int)
    (id salt : String)
    (request : Request τ) :
    Begins crypto now request
      (begin crypto now id salt request) := by
  cases request with
  | register username password => exact .create rfl
  | login username password => exact .find rfl
  | refresh token =>
      simp only [begin]
      split
      · exact .reject
      · exact .check rfl ‹_›
  | logout token =>
      simp only [begin]
      split
      · exact .reject
      · exact .read rfl ‹_›
  | validate token =>
      simp only [begin]
      split
      · exact .reject
      · exact .check rfl ‹_›
  | profile playerId token =>
      simp only [begin]
      split
      · exact .reject
      · rename_i payload hDecode
        split
        · rename_i hSame
          rw [← hSame]
          exact .check rfl hDecode
        · exact .reject

/- The effect of a call on the stores. -/
def Stores.apply (st : Stores τ) : Point τ → Stores τ
| .createPlayer player =>
    if st.Taken player then st
    else { st with players := st.players ++ [player] }
| .storeSession playerId sessionId token =>
    { st with
      sessions :=
        st.sessions.storeSession sessionId
          { playerId := playerId, token := token } }
| .storePlayerSession playerId sessionId token =>
    { st with
      sessions :=
        st.sessions.storePlayerSession playerId
          { sessionId := sessionId, token := token } }
| .deleteKeys playerId sessionId =>
    { st with
      sessions := st.sessions.deleteKeys playerId sessionId }
| .getPlayerByUsername _ _ => st
| .checkSession _ => st
| .getPlayer _ => st
| .readSession _ => st
| .done _ => st

/- The detail of the error for a session that is over. -/
def Request.revokedDetail : Request τ → String
| .refresh _ => "Session revoked"
| _ => "Session revoked or expired"

/- `if session and session.get("sessionId")`. -/
def sessionIdOf
    (session : Option (PlayerSession τ)) : Option String :=
  (session.map PlayerSession.sessionId).filter (fun id =>
    id ≠ "")

variable [DecidableEq τ]

/-
  A request after a call has returned; `st` is what the call
  found in the stores.
-/
def answer
    (crypto : Crypto τ)
    (settings : Settings)
    (st : Stores τ)
    (request : Request τ)
    (now : Int)
    (id : String) : Point τ → Point τ
| .createPlayer player =>
    if st.Taken player then
      .done (.error 409 "Username already taken")
    else issueSession crypto settings player.playerId now id
| .getPlayerByUsername username password =>
    match st.getPlayerByUsername username with
    | none => .done (.error 401 "Invalid credentials")
    | some row =>
        if crypto.checkpw password row.passwordHash then
          issueSession crypto settings row.playerId now id
        else .done (.error 401 "Invalid credentials")
| .storeSession playerId sessionId token =>
    .storePlayerSession playerId sessionId token
| .storePlayerSession _ _ token => .done (.token token)
| .checkSession playerId =>
    if st.sessions.currentToken playerId = request.token then
      match request with
      | .validate _ => .done (.valid playerId)
      | _ => .getPlayer playerId
    else .done (.error 401 request.revokedDetail)
| .getPlayer playerId =>
    match st.getPlayer playerId, request with
    | none, .profile _ _ =>
        .done (.error 404 "Player not found")
    | none, _ => .done (.error 401 "User not found")
    | some row, .profile _ _ => .done (.profile row)
    | some _, _ =>
        issueSession crypto settings playerId now id
| .readSession playerId =>
    .deleteKeys playerId
      (sessionIdOf (st.sessions.playerSession playerId))
| .deleteKeys _ _ => .done .loggedOut
| .done response => .done response

end Auth

------------------------------------------------------------
-- The Machine
------------------------------------------------------------

namespace Auth

variable {τ : Type}

/- A request in progress or answered. -/
structure Handler (τ : Type) where
  request : Request τ
  -- `validate` would have rejected its token at its start
  dead : Bool
  point : Point τ

/- What happens to tokens, in the order in which it does. -/
inductive Event (τ : Type) where
  -- a token is returned to a player
  | returned (playerId : String) (token : τ)
  -- a logout of a player succeeds
  | loggedOut (playerId : String)
  -- a request that presents the token accepts it
  | accepted (token : τ)
deriving DecidableEq

structure State (τ : Type) where
  stores : Stores τ
  handlers : List (Handler τ)
  -- the identifiers drawn so far; `uuid4` repeats none
  ids : List String
  history : List (Event τ)

def State.empty : State τ where
  stores := Stores.empty
  handlers := []
  ids := []
  history := []

inductive Act (τ : Type) where
  | begin
      (request : Request τ)
      (now : Int)
      (id salt : String)
  -- the call of a handler takes effect and returns
  | ok (k : Nat) (now : Int) (id : String)
  -- it raises, whether or not it took effect
  | raise (k : Nat) (applied : Bool)
  | expireSession (sessionId : String)
  | expirePlayerSession (playerId : String)
deriving DecidableEq

def State.setHandler
    (s : State τ)
    (k : Nat)
    (h : Handler τ) : State τ :=
  { s with handlers := s.handlers.set k h }

/- The sessions in Redis. -/
def State.sessions (s : State τ) : Sessions τ :=
  s.stores.sessions

def State.setSessions
    (s : State τ)
    (r : Sessions τ) : State τ :=
  { s with stores := { s.stores with sessions := r } }

/- A handler that waits for a call. -/
def State.waiting
    (s : State τ)
    (k : Nat) : Option (Handler τ) :=
  (s.handlers[k]?).filter (fun h =>
    match h.point with
    | .done _ => false
    | _ => true)

/- The handler whose call takes effect in a step. -/
def State.served
    (s : State τ) : Act τ → Option (Handler τ)
| .ok k _ _ => s.handlers[k]?
| .raise k true => s.handlers[k]?
| _ => none

/- What a call that returned means for tokens. -/
def eventOf
    [DecidableEq τ]
    (st : Stores τ)
    (request : Request τ) : Point τ → Option (Event τ)
| .storePlayerSession playerId _ token =>
    some (.returned playerId token)
| .deleteKeys playerId _ => some (.loggedOut playerId)
| .checkSession playerId =>
    if st.sessions.currentToken playerId = request.token then
      request.token.map .accepted
    else none
| _ => none

/- `validate` rejects the token of a request. -/
def Rejected
    (crypto : Crypto τ)
    (st : Stores τ)
    (now : Int)
    (request : Request τ) : Prop :=
  ∃ token, request.token = some token ∧
    ∀ payload,
      decodeToken crypto.jwt now token = some payload →
        st.sessions.currentToken payload.sub ≠ some token

instance
    [DecidableEq τ]
    (crypto : Crypto τ)
    (st : Stores τ)
    (now : Int)
    (request : Request τ) :
    Decidable (Rejected crypto st now request) :=
  match h : request.token with
  | none => .isFalse (by
      rintro ⟨token, hToken, _⟩
      rw [h] at hToken
      cases hToken)
  | some token =>
      match h' : decodeToken crypto.jwt now token with
      | none => .isTrue ⟨token, h, by simp [h']⟩
      | some payload =>
          decidable_of_iff
            (st.sessions.currentToken payload.sub ≠
              some token) (by
            simp [Rejected, h, h'])

variable [DecidableEq τ]

/- The handler of a request that has made no call. -/
def Handler.start
    (crypto : Crypto τ)
    (st : Stores τ)
    (request : Request τ)
    (now : Int)
    (id salt : String) : Handler τ where
  request := request
  dead := Rejected crypto st now request
  point := begin crypto now id salt request

/- The handler that a step is a step of. -/
def State.actor
    (crypto : Crypto τ)
    (s : State τ) : Act τ → Option (Handler τ)
| .begin request now id salt =>
    some (.start crypto s.stores request now id salt)
| .ok k _ _ => s.handlers[k]?
| .raise k _ => s.handlers[k]?
| .expireSession _ => none
| .expirePlayerSession _ => none

def step
    (crypto : Crypto τ)
    (settings : Settings)
    (s : State τ) : Act τ → Option (State τ)
| .begin request now id salt =>
    if id ∈ s.ids then none
    else
      some
        { s with
          handlers :=
            s.handlers ++
              [.start crypto s.stores request now id salt]
          ids := id :: s.ids }
| .ok k now id =>
    if id ∈ s.ids then none
    else
      (s.waiting k).map (fun h =>
        { s.setHandler k
            { h with
              point :=
                answer crypto settings s.stores h.request now
                  id h.point } with
          stores := s.stores.apply h.point
          ids := id :: s.ids
          history :=
            s.history ++
              (eventOf s.stores h.request h.point).toList })
| .raise k applied =>
    (s.waiting k).map (fun h =>
      { s.setHandler k
          { h with point := .done serverError } with
        stores :=
          if applied then s.stores.apply h.point
          else s.stores })
| .expireSession sessionId =>
    some (s.setSessions (s.sessions.expireSession sessionId))
| .expirePlayerSession playerId =>
    some
      (s.setSessions (s.sessions.deleteKeys playerId none))

end Auth

------------------------------------------------------------
-- The Kinds of Steps
------------------------------------------------------------

namespace Auth

variable {τ : Type}

/- What `waiting` finds. -/
theorem waiting_eq_some
    {s : State τ}
    {k : Nat}
    {h : Handler τ}
    (hWaiting : s.waiting k = some h) :
    s.handlers[k]? = some h ∧
      ∀ response, h.point ≠ .done response := by
  rcases Option.filter_eq_some_iff.mp hWaiting with
    ⟨hHandler, hWaits⟩
  refine ⟨hHandler, ?_⟩
  intro response hDone
  rw [hDone] at hWaits
  cases hWaits

variable [DecidableEq τ]

/- The transitions of `step`, one for each kind. -/
inductive Steps
    (crypto : Crypto τ)
    (settings : Settings)
    (s : State τ) : Act τ → State τ → Prop where
  | begin
      {request : Request τ} {now : Int} {id salt : String}
      (hFresh : id ∉ s.ids) :
      Steps crypto settings s (.begin request now id salt)
        { s with
          handlers :=
            s.handlers ++
              [.start crypto s.stores request now id salt]
          ids := id :: s.ids }
  | ok
      {k : Nat} {now : Int} {id : String} {h : Handler τ}
      (hFresh : id ∉ s.ids)
      (hHandler : s.handlers[k]? = some h)
      (hWaits : ∀ response, h.point ≠ .done response) :
      Steps crypto settings s (.ok k now id)
        { s.setHandler k
            { h with
              point :=
                answer crypto settings s.stores h.request now
                  id h.point } with
          stores := s.stores.apply h.point
          ids := id :: s.ids
          history :=
            s.history ++
              (eventOf s.stores h.request h.point).toList }
  | raise
      {k : Nat} {applied : Bool} {h : Handler τ}
      (hHandler : s.handlers[k]? = some h) :
      Steps crypto settings s (.raise k applied)
        { s.setHandler k
            { h with point := .done serverError } with
          stores :=
            if applied then s.stores.apply h.point
            else s.stores }
  | expireSession {sessionId : String} :
      Steps crypto settings s (.expireSession sessionId)
        (s.setSessions (s.sessions.expireSession sessionId))
  | expirePlayerSession {playerId : String} :
      Steps crypto settings s (.expirePlayerSession playerId)
        (s.setSessions (s.sessions.deleteKeys playerId none))

/- Every step of the function is one of the transitions. -/
theorem steps_of_step
    {crypto : Crypto τ}
    {settings : Settings}
    {s t : State τ}
    {act : Act τ}
    (hStep : step crypto settings s act = some t) :
    Steps crypto settings s act t := by
  cases act with
  | begin request now id salt =>
      simp only [step] at hStep
      split at hStep
      · cases hStep
      · cases hStep
        exact .begin ‹_›
  | ok k now id =>
      simp only [step] at hStep
      split at hStep
      · cases hStep
      · rename_i hFresh
        rcases Option.map_eq_some_iff.mp hStep with
          ⟨h, hWaiting, rfl⟩
        rcases waiting_eq_some hWaiting with
          ⟨hHandler, hWaits⟩
        exact .ok hFresh hHandler hWaits
  | raise k applied =>
      rcases Option.map_eq_some_iff.mp hStep with
        ⟨h, hWaiting, rfl⟩
      exact .raise (waiting_eq_some hWaiting).1
  | expireSession sessionId =>
      cases hStep
      exact .expireSession
  | expirePlayerSession playerId =>
      cases hStep
      exact .expirePlayerSession

end Auth
