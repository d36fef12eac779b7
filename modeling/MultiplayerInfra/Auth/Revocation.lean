import MultiplayerInfra.Auth.Service
import MultiplayerInfra.Machine.History

/-
  A token that was returned to a player is not accepted any
  more once the player has logged out.

  Key definitions include:
    * `Auth.Apart`
    * `Auth.Vouched`

  Key theorems include:
    * `Auth.vouched_step`
    * `Auth.revocation_final`

  A session is known by its token, and a token by its player
  and the second of its issue.
-/

------------------------------------------------------------
-- The Condition
------------------------------------------------------------

namespace Auth

open History

variable {τ : Type}

/- The token is returned to the player. -/
def Returns : Event τ → String × τ → Prop
| .returned playerId token, k => k = (playerId, token)
| _, _ => False

/- The player logs out. -/
def LogsOut {κ : Type} : Event τ → String × κ → Prop
| .loggedOut playerId, k => k.1 = playerId
| _, _ => False

/- A request that presents the token accepts it. -/
def Accepts : Event τ → String × τ → Prop
| .accepted token, k => k.2 = token
| _, _ => False

/- The second in which a token was issued. -/
def issuedAt (jwt : Jwt τ) (token : τ) : Option Int :=
  (jwt.decode token).map Payload.iat

/- A token of this second is returned to the player. -/
def ReturnsOf
    (jwt : Jwt τ) :
    Event τ → String × Option Int → Prop
| .returned playerId token, k =>
    k = (playerId, issuedAt jwt token)
| _, _ => False

instance
    (jwt : Jwt τ)
    (e : Event τ)
    (k : String × Option Int) :
    Decidable (ReturnsOf jwt e k) :=
  match e with
  | .returned playerId token =>
      inferInstanceAs (Decidable
        (k = (playerId, issuedAt jwt token)))
  | .loggedOut _ | .accepted _ => .isFalse id

instance
    {κ : Type}
    (e : Event τ)
    (k : String × κ) :
    Decidable (LogsOut e k) :=
  match e with
  | .loggedOut playerId =>
      inferInstanceAs (Decidable (k.1 = playerId))
  | .returned _ _ | .accepted _ => .isFalse id

/- The player session that a call stores. -/
def Point.storing : Point τ → Option (String × τ)
| .storePlayerSession playerId _ token =>
    some (playerId, token)
| _ => none

/- The player session that a step stores. -/
def State.storing
    (s : State τ)
    (act : Act τ) : Option (String × τ) :=
  (s.served act).bind (fun h => h.point.storing)

/-
  The condition on a step: no session is stored for a player
  whose token was issued in the second of a token that was
  returned to this player before a logout.
-/
def Apart
    (jwt : Jwt τ)
    (s : State τ)
    (act : Act τ) : Prop :=
  ∀ e ∈ s.storing act,
    ¬ Closed (ReturnsOf jwt) LogsOut s.history
      (e.1, issuedAt jwt e.2)

instance
    (jwt : Jwt τ)
    (s : State τ)
    (act : Act τ) :
    Decidable (Apart jwt s act) :=
  inferInstanceAs (Decidable
    (∀ e ∈ s.storing act,
      ¬ Closed (ReturnsOf jwt) LogsOut s.history
        (e.1, issuedAt jwt e.2)))

end Auth

------------------------------------------------------------
-- Tokens and Their Players
------------------------------------------------------------

namespace Auth

open History

variable {τ : Type}

/- The player that a token was issued to. -/
def ownerOf (jwt : Jwt τ) (token : τ) : Option String :=
  (jwt.decode token).map Payload.sub

theorem ownerOf_createToken
    (jwt : Jwt τ)
    (settings : Settings)
    (playerId : String)
    (now : Int) :
    ownerOf jwt (createToken jwt settings playerId now) =
      some playerId := by
  rw [ownerOf, createToken, jwt.decode_encode]
  rfl

/- A call stores a token only for its own player. -/
def Point.Owned (jwt : Jwt τ) : Point τ → Prop
| .storeSession playerId _ token =>
    ownerOf jwt token = some playerId
| .storePlayerSession playerId _ token =>
    ownerOf jwt token = some playerId
| _ => True

theorem owned_issueSession
    (crypto : Crypto τ)
    (settings : Settings)
    (playerId : String)
    (now : Int)
    (id : String) :
    (issueSession crypto settings playerId now id).Owned
      crypto.jwt :=
  ownerOf_createToken _ _ _ _

theorem owned_begin
    (crypto : Crypto τ)
    (now : Int)
    (id salt : String)
    (request : Request τ) :
    (begin crypto now id salt request).Owned crypto.jwt := by
  have hBegins := begins crypto now id salt request
  generalize begin crypto now id salt request = point
    at hBegins ⊢
  cases hBegins <;> trivial

variable [DecidableEq τ]

theorem owned_answer
    (crypto : Crypto τ)
    (settings : Settings)
    (st : Stores τ)
    (request : Request τ)
    (now : Int)
    (id : String)
    {point : Point τ}
    (hOwned : point.Owned crypto.jwt) :
    (answer crypto settings st request now id point).Owned
      crypto.jwt := by
  cases point with
  | createPlayer player =>
      simp only [answer]
      split
      · trivial
      · exact owned_issueSession _ _ _ _ _
  | getPlayerByUsername username password =>
      simp only [answer]
      split
      · trivial
      · split
        · exact owned_issueSession _ _ _ _ _
        · trivial
  | storeSession playerId sessionId token => exact hOwned
  | storePlayerSession playerId sessionId token => trivial
  | checkSession playerId =>
      simp only [answer]
      split
      · split <;> trivial
      · trivial
  | getPlayer playerId =>
      simp only [answer]
      split
      · trivial
      · trivial
      · trivial
      · exact owned_issueSession _ _ _ _ _
  | readSession playerId => trivial
  | deleteKeys playerId sessionId => trivial
  | done response => trivial

end Auth

------------------------------------------------------------
-- Invariant
------------------------------------------------------------

namespace Auth

open History

variable {τ : Type}

/-
  Tokens are stored for and returned to their own players,
  and the token of a current session was not logged out.
-/
structure Vouched
    (jwt : Jwt τ)
    (s : State τ) : Prop where
  points : ∀ h ∈ s.handlers, h.point.Owned jwt
  owned :
    ∀ playerId token,
      s.sessions.currentToken playerId = some token →
        ownerOf jwt token = some playerId
  returned :
    ∀ playerId token,
      .returned playerId token ∈ s.history →
        ownerOf jwt token = some playerId
  current :
    ∀ playerId token,
      s.sessions.currentToken playerId = some token →
        ¬ Closed Returns LogsOut s.history
          (playerId, token)
  final :
    AtEach
      (fun before e =>
        ∀ k, Accepts e k →
          ¬ Closed Returns LogsOut before k)
      s.history

theorem vouched_empty (jwt : Jwt τ) :
    Vouched jwt State.empty where
  points := by
    intro h hMem
    cases hMem
  owned := by
    intro playerId token hCurrent
    cases hCurrent
  returned := by
    intro playerId token hMem
    cases hMem
  current := by
    intro playerId token hCurrent
    cases hCurrent
  final := atEach_nil _

/- What the current sessions are after an effect. -/
theorem currentToken_apply
    {st : Stores τ}
    {point : Point τ}
    {playerId : String}
    {token : τ}
    (hCurrent :
      (st.apply point).sessions.currentToken playerId =
        some token) :
    st.sessions.currentToken playerId = some token ∧
        (∀ sessionId,
          point ≠ .deleteKeys playerId sessionId) ∨
      ∃ sessionId,
        point =
          .storePlayerSession playerId sessionId token := by
  cases point with
  | createPlayer player =>
      simp only [Stores.apply] at hCurrent
      split at hCurrent
      · exact .inl ⟨hCurrent, by simp⟩
      · exact .inl ⟨hCurrent, by simp⟩
  | storePlayerSession pid sessionId stored =>
      by_cases hSame : playerId = pid
      · subst hSame
        simp only [Stores.apply, Sessions.currentToken,
          Sessions.storePlayerSession, Function.update_self]
          at hCurrent
        cases hCurrent
        exact .inr ⟨sessionId, rfl⟩
      · left
        simp only [Stores.apply, Sessions.currentToken,
          Sessions.storePlayerSession,
          Function.update_of_ne hSame] at hCurrent
        exact ⟨hCurrent, by simp⟩
  | deleteKeys pid sessionId =>
      by_cases hSame : playerId = pid
      · subst hSame
        simp [Stores.apply, Sessions.currentToken,
          Sessions.deleteKeys] at hCurrent
      · left
        simp only [Stores.apply, Sessions.currentToken,
          Sessions.deleteKeys, Function.update_of_ne hSame]
          at hCurrent
        refine ⟨hCurrent, ?_⟩
        intro sid hEq
        cases hEq
        exact hSame rfl
  | _ => exact .inl ⟨hCurrent, by simp⟩

end Auth

------------------------------------------------------------
-- Steps
------------------------------------------------------------

namespace Auth

open History

variable {τ : Type}
variable {crypto : Crypto τ}
variable {settings : Settings}
variable {s t : State τ}

/- The second of a token tells apart what was logged out. -/
theorem closed_of_closed
    {jwt : Jwt τ}
    {history : List (Event τ)}
    {playerId : String}
    {token : τ}
    (hClosed :
      Closed Returns LogsOut history (playerId, token)) :
    Closed (ReturnsOf jwt) LogsOut history
      (playerId, issuedAt jwt token) := by
  apply hClosed.map
  · intro e _ hReturns
    cases e with
    | returned playerId' token' =>
        cases hReturns
        rfl
    | loggedOut playerId' => cases hReturns
    | accepted token' => cases hReturns
  · intro e _ hLogsOut
    cases e with
    | loggedOut playerId' => exact hLogsOut
    | returned playerId' token' => cases hLogsOut
    | accepted token' => cases hLogsOut

/- The effect of a call keeps the current sessions vouched. -/
theorem vouched_apply
    {jwt : Jwt τ}
    (hVouched : Vouched jwt s)
    {point : Point τ}
    (hOwned : point.Owned jwt)
    (hApart :
      ∀ e ∈ point.storing,
        ¬ Closed (ReturnsOf jwt) LogsOut s.history
          (e.1, issuedAt jwt e.2))
    {playerId : String}
    {token : τ}
    (hCurrent :
      (s.stores.apply point).sessions.currentToken playerId =
        some token) :
    ownerOf jwt token = some playerId ∧
      ¬ Closed Returns LogsOut s.history
        (playerId, token) := by
  rcases currentToken_apply hCurrent with
    ⟨hOld, _⟩ | ⟨sessionId, rfl⟩
  · exact
      ⟨hVouched.owned playerId token hOld,
        hVouched.current playerId token hOld⟩
  · refine ⟨hOwned, ?_⟩
    intro hClosed
    exact hApart _ rfl (closed_of_closed hClosed)

/- A step that tells nothing about tokens. -/
theorem Vouched.quiet
    {jwt : Jwt τ}
    (hVouched : Vouched jwt s)
    (hHistory : t.history = s.history)
    (hPoints : ∀ h ∈ t.handlers, h.point.Owned jwt)
    (hCurrent :
      ∀ playerId token,
        t.sessions.currentToken playerId = some token →
          ownerOf jwt token = some playerId ∧
            ¬ Closed Returns LogsOut s.history
              (playerId, token)) :
    Vouched jwt t where
  points := hPoints
  owned := fun playerId token hToken =>
    (hCurrent playerId token hToken).1
  returned := by
    rw [hHistory]
    exact hVouched.returned
  current := by
    rw [hHistory]
    exact fun playerId token hToken =>
      (hCurrent playerId token hToken).2
  final := by
    rw [hHistory]
    exact hVouched.final

/- A current token is not logged out, whoever it is for. -/
theorem Vouched.not_closed
    {jwt : Jwt τ}
    (hVouched : Vouched jwt s)
    {playerId : String}
    {token : τ}
    (hCurrent :
      s.sessions.currentToken playerId = some token)
    (other : String) :
    ¬ Closed Returns LogsOut s.history (other, token) := by
  intro hClosed
  -- the token was returned to the player it is of
  rcases exists_open_of_closed hClosed with
    ⟨o, hMem, hOpen⟩
  cases o with
  | returned playerId' token' =>
      cases hOpen
      have hOwner := hVouched.returned other _ hMem
      rw [hVouched.owned playerId _ hCurrent] at hOwner
      cases hOwner
      exact hVouched.current _ _ hCurrent hClosed
  | loggedOut playerId' => cases hOpen
  | accepted token' => cases hOpen

/- Handlers of which one has moved. -/
theorem owned_set
    {jwt : Jwt τ}
    (hVouched : Vouched jwt s)
    {k : Nat}
    {moved : Handler τ}
    (hOwned : moved.point.Owned jwt) :
    ∀ h ∈ s.handlers.set k moved, h.point.Owned jwt := by
  intro h hMem
  rcases List.mem_or_eq_of_mem_set hMem with hOld | rfl
  · exact hVouched.points h hOld
  · exact hOwned

variable [DecidableEq τ]

/- What an event means, whichever call it came from. -/
theorem eventOf_eq_some
    {st : Stores τ}
    {request : Request τ}
    {point : Point τ}
    {e : Event τ}
    (hEvent : eventOf st request point = some e) :
    (∃ playerId sessionId token,
        point =
            .storePlayerSession playerId sessionId token ∧
          e = .returned playerId token) ∨
      (∃ playerId sessionId,
        point = .deleteKeys playerId sessionId ∧
          e = .loggedOut playerId) ∨
      ∃ playerId token,
        point = .checkSession playerId ∧
          st.sessions.currentToken playerId = some token ∧
            e = .accepted token := by
  unfold eventOf at hEvent
  split at hEvent
  · cases hEvent
    exact .inl ⟨_, _, _, rfl, rfl⟩
  · cases hEvent
    exact .inr (.inl ⟨_, _, rfl, rfl⟩)
  · split at hEvent
    · rename_i hSame
      rcases Option.map_eq_some_iff.mp hEvent with
        ⟨token, hToken, rfl⟩
      exact
        .inr
          (.inr ⟨_, token, rfl, hSame.trans hToken, rfl⟩)
    · cases hEvent
  · cases hEvent

/-
  A call that takes effect and returns: its event closes only
  tokens of a player whose session is deleted with it.
-/
theorem vouched_ok
    {k : Nat}
    {now : Int}
    {id : String}
    {h : Handler τ}
    (hVouched : Vouched crypto.jwt s)
    (hHandler : s.handlers[k]? = some h)
    (hApart :
      ∀ e ∈ h.point.storing,
        ¬ Closed (ReturnsOf crypto.jwt) LogsOut s.history
          (e.1, issuedAt crypto.jwt e.2)) :
    Vouched crypto.jwt
      { s.setHandler k
          { h with
            point :=
              answer crypto settings s.stores h.request now
                id h.point } with
        stores := s.stores.apply h.point
        ids := id :: s.ids
        history :=
          s.history ++
            (eventOf s.stores h.request h.point).toList } := by
  have hOwned :=
    hVouched.points h (List.mem_of_getElem? hHandler)
  have hPoints :
      ∀ r ∈ s.handlers.set k
          { h with
            point :=
              answer crypto settings s.stores h.request now
                id h.point },
        r.point.Owned crypto.jwt :=
    owned_set hVouched
      (owned_answer crypto settings s.stores h.request now id
        hOwned)
  cases hEvent : eventOf s.stores h.request h.point with
  | none =>
      refine hVouched.quiet (List.append_nil _) hPoints ?_
      intro playerId token hCurrent
      exact vouched_apply hVouched hOwned hApart hCurrent
  | some e =>
      refine ⟨hPoints, ?_, ?_, ?_, ?_⟩
      · intro playerId token hCurrent
        exact
          (vouched_apply hVouched hOwned hApart hCurrent).1
      · intro playerId token hMem
        rcases List.mem_append.mp hMem with hOld | hNew
        · exact hVouched.returned playerId token hOld
        · rw [Option.toList_some, List.mem_singleton] at hNew
          rcases eventOf_eq_some hEvent with
            ⟨pid, sid, stored, hPoint, rfl⟩ |
              ⟨pid, sid, _, rfl⟩ | ⟨pid, presented, _, _, rfl⟩
          · cases hNew
            rw [hPoint] at hOwned
            exact hOwned
          · cases hNew
          · cases hNew
      · intro playerId token hCurrent hClosed
        have hOld :=
          vouched_apply hVouched hOwned hApart hCurrent
        rw [Option.toList_some, closed_concat] at hClosed
        rcases hClosed with hBefore | ⟨hLogsOut, _⟩
        · exact hOld.2 hBefore
        · rcases eventOf_eq_some hEvent with
            ⟨pid, sid, stored, _, rfl⟩ |
              ⟨pid, sid, hPoint, rfl⟩ | ⟨pid, presented, _, _, rfl⟩
          · cases hLogsOut
          · -- the session of this player was just deleted
            cases hLogsOut
            rcases currentToken_apply hCurrent with
              ⟨_, hNot⟩ | ⟨sessionId, hStores⟩
            · exact hNot sid hPoint
            · rw [hPoint] at hStores
              cases hStores
          · cases hLogsOut
      · refine hVouched.final.concat ?_
        intro key hAccepts hClosed
        rcases eventOf_eq_some hEvent with
          ⟨pid, sid, stored, _, rfl⟩ |
            ⟨pid, sid, _, rfl⟩ |
              ⟨pid, presented, _, hCurrent, rfl⟩
        · cases hAccepts
        · cases hAccepts
        · rcases key with ⟨playerId, token⟩
          cases hAccepts
          exact
            hVouched.not_closed hCurrent playerId hClosed

theorem vouched_step
    {act : Act τ}
    (hVouched : Vouched crypto.jwt s)
    (hApart : Apart crypto.jwt s act)
    (hStep : step crypto settings s act = some t) :
    Vouched crypto.jwt t := by
  cases steps_of_step hStep with
  | @begin request now id salt hFresh =>
      refine hVouched.quiet rfl ?_ ?_
      · intro h hMem
        rcases List.mem_append.mp hMem with hOld | hNew
        · exact hVouched.points h hOld
        · rw [List.mem_singleton.mp hNew]
          exact owned_begin crypto now id salt request
      · intro playerId token hCurrent
        exact
          ⟨hVouched.owned playerId token hCurrent,
            hVouched.current playerId token hCurrent⟩
  | @ok k now id h hFresh hHandler hWaits =>
      apply vouched_ok hVouched hHandler
      intro e hStoring
      apply hApart
      simp only [State.storing, State.served, hHandler,
        Option.bind_some]
      exact hStoring
  | @raise k applied h hHandler =>
      have hOwned :=
        hVouched.points h (List.mem_of_getElem? hHandler)
      refine
        hVouched.quiet rfl (owned_set hVouched trivial) ?_
      intro playerId token hCurrent
      cases applied with
      | false =>
          exact
            ⟨hVouched.owned playerId token hCurrent,
              hVouched.current playerId token hCurrent⟩
      | true =>
          refine vouched_apply hVouched hOwned ?_ hCurrent
          intro e hStoring
          apply hApart
          simp only [State.storing, State.served, hHandler,
            Option.bind_some]
          exact hStoring
  | expireSession =>
      refine hVouched.quiet rfl hVouched.points ?_
      intro playerId token hCurrent
      exact
        ⟨hVouched.owned playerId token hCurrent,
          hVouched.current playerId token hCurrent⟩
  | @expirePlayerSession pid =>
      refine hVouched.quiet rfl hVouched.points ?_
      intro playerId token hCurrent
      have hDeleted :
          (s.stores.apply
            (.deleteKeys pid none)).sessions.currentToken
              playerId = some token :=
        hCurrent
      have hOld :
          s.sessions.currentToken playerId = some token := by
        rcases currentToken_apply hDeleted with
          ⟨hOld, _⟩ | ⟨sessionId, hNot⟩
        · exact hOld
        · cases hNot
      exact
        ⟨hVouched.owned playerId token hOld,
          hVouched.current playerId token hOld⟩

/-
  If no session is stored again for the second of a token
  that was returned before a logout, then revocation is
  final.
-/
theorem revocation_final
    (crypto : Crypto τ)
    (settings : Settings)
    (s : State τ)
    (hRun :
      Machine.Reaches (step crypto settings)
        (Apart crypto.jwt) State.empty s) :
    Final Returns LogsOut Accepts s.history := by
  have hVouched : Vouched crypto.jwt s :=
    hRun.invariant (vouched_empty crypto.jwt) vouched_step
  exact final_of_atEach hVouched.final

end Auth

------------------------------------------------------------
-- Two Logins
------------------------------------------------------------

namespace Auth

open History
open Machine (Reachable reachable_of_run)
open Machine (reaches_of_run run_eq_final final)

/- Tokens that are their own claims. -/
def plainCrypto : Crypto Payload where
  jwt :=
    { encode := id
      decode := some
      decode_encode := fun _ => rfl }
  hashpw := fun password _ => password
  checkpw := fun password hash => password = hash

/- The token that is issued to `ann` in a second. -/
def annToken (second : Int) : Payload :=
  payloadOf {} "p" (second * 1000000)

/- Handler `k` does a call for each of the identifiers. -/
def calls
    (k : Nat)
    (now : Int)
    (ids : List String) : List (Act Payload) :=
  ids.map (fun id => .ok k now id)

/- `ann` registers and logs out, both in second ten. -/
def signUpAndOut : List (Act Payload) :=
  [.begin (.register "ann" "secret") 10000000 "p" "salt"] ++
    calls 0 10000000 ["session-1", "u1", "u2"] ++
    [.begin (.logout (annToken 10)) 10500000 "u3" ""] ++
    calls 1 10500000 ["u4", "u5"]

/- She logs in again, and the first token is presented. -/
def loginAgain (now : Int) : List (Act Payload) :=
  signUpAndOut ++
    [.begin (.login "ann" "secret") now "u6" ""] ++
    calls 2 now ["session-2", "u7", "u8"] ++
    [.begin (.validate (annToken 10)) now "u9" ""] ++
    calls 3 now ["u10"]

def laterLogin : State Payload :=
  final (step plainCrypto {}) State.empty
    (loginAgain 12000000) (by decide)

def sameSecondLogin : State Payload :=
  final (step plainCrypto {}) State.empty
    (loginAgain 10900000) (by decide)

theorem revocation_final_laterLogin :
    laterLogin.history =
      [.returned "p" (annToken 10), .loggedOut "p",
        .returned "p" (annToken 12)] ∧
    Final Returns LogsOut Accepts laterLogin.history :=
  ⟨by decide,
    revocation_final plainCrypto {} laterLogin
      (reaches_of_run (run_eq_final (by decide))
        (by decide))⟩

theorem revoked_token_accepted :
    Reachable (step plainCrypto {}) State.empty
        sameSecondLogin ∧
      ¬ Final Returns LogsOut Accepts
        sameSecondLogin.history := by
  have hHistory :
      sameSecondLogin.history =
        [.returned "p" (annToken 10), .loggedOut "p",
          .returned "p" (annToken 10),
          .accepted (annToken 10)] := by
    decide
  refine ⟨reachable_of_run (run_eq_final (by decide)), ?_⟩
  intro hFinal
  exact
    hFinal [] [] [.returned "p" (annToken 10)] []
      (.returned "p" (annToken 10)) (.loggedOut "p")
      (.accepted (annToken 10)) ("p", annToken 10)
      hHistory rfl rfl rfl

end Auth
