import MultiplayerInfra.Auth.Revocation

/-
  Who gets a token or a profile: a client that presents the
  password of the account, or the token of its session.

  Key definitions include:
    * `Auth.Proves`
    * `Auth.Presents`
    * `Auth.noteChecked`
    * `Auth.Authorized`
    * `Auth.Entitled`
    * `Auth.Accounts`

  Key theorems include:
    * `Auth.earned_answer`
    * `Auth.accounts_step`
    * `Auth.answered_entitled`

  A refresh is answered with a token for the token presented,
  so that the chain of tokens may be long; the password was
  presented at its start.
-/

------------------------------------------------------------
-- Passwords, Sessions and Answers
------------------------------------------------------------

namespace Auth

variable {τ : Type}

/- The request presents the name and the password of a row. -/
def Proves
    (crypto : Crypto τ)
    (row : Player) : Request τ → Prop
| .register username password =>
    username = row.username ∧
      ∃ salt, crypto.hashpw password salt = row.passwordHash
| .login username password =>
    username = row.username ∧
      crypto.checkpw password row.passwordHash = true
| _ => False

/- The request presents a token of the player it is about. -/
def Presents
    (jwt : Jwt τ)
    (playerId : String) : Request τ → Prop
| .refresh token => ownerOf jwt token = some playerId
| .validate token => ownerOf jwt token = some playerId
| .profile id token =>
    id = playerId ∧ ownerOf jwt token = some playerId
| _ => False

/- The request asks for a token. -/
def Request.asksToken : Request τ → Bool
| .register _ _ => true
| .login _ _ => true
| .refresh _ => true
| _ => false

/- The requests so far, answered or not. -/
def State.requests (s : State τ) : List (Request τ) :=
  s.handlers.map Handler.request

/-
  A service, with the requests that have found their token to
  be the one of the player's current session.
-/
abbrev Watched (τ : Type) : Type :=
  State τ × List (Nat × String)

/- The player whose session a call finds to have the token. -/
def passed
    [DecidableEq τ]
    (st : Stores τ)
    (request : Request τ) : Point τ → Option String
| .checkSession playerId =>
    if st.sessions.currentToken playerId = request.token then
      some playerId
    else none
| _ => none

def noteChecked
    [DecidableEq τ]
    (s : State τ)
    (act : Act τ)
    (_ : State τ)
    (checked : List (Nat × String)) :
    List (Nat × String) :=
  match act with
  | .ok k _ _ =>
      match s.handlers[k]? with
      | none => checked
      | some h =>
          ((passed s.stores h.request h.point).map
            (Prod.mk k)).toList ++ checked
  | _ => checked

/- The player has a row, and its password was presented. -/
def Shown
    (crypto : Crypto τ)
    (s : State τ)
    (playerId : String) : Prop :=
  ∃ row ∈ s.stores.players,
    row.playerId = playerId ∧
      ∃ request ∈ s.requests, Proves crypto row request

/-
  The request `k` itself presented the password of the player,
  or a token that it found in the player's current session;
  and such sessions go back to a password.
-/
def Authorized
    (crypto : Crypto τ)
    (s : Watched τ)
    (k : Nat)
    (playerId : String)
    (request : Request τ) : Prop :=
  (∃ row ∈ s.1.stores.players,
      row.playerId = playerId ∧ Proves crypto row request) ∨
    Presents crypto.jwt playerId request ∧
      (k, playerId) ∈ s.2 ∧ Shown crypto s.1 playerId

/- What may be answered to the request `k`. -/
def Entitled
    (crypto : Crypto τ)
    (s : Watched τ)
    (k : Nat)
    (request : Request τ) : Response τ → Prop
| .token token =>
    request.asksToken = true ∧
      ∃ playerId,
        ownerOf crypto.jwt token = some playerId ∧
          Authorized crypto s k playerId request
| .valid playerId =>
    (∃ token, request = .validate token) ∧
      Authorized crypto s k playerId request
| .profile row =>
    row ∈ s.1.stores.players ∧
      (∃ token, request = .profile row.playerId token) ∧
        Authorized crypto s k row.playerId request
| .loggedOut =>
    ∃ token playerId,
      request = .logout token ∧
        ownerOf crypto.jwt token = some playerId
| .error _ _ => True

/- The request is the logout of a player. -/
def LogoutOf
    (jwt : Jwt τ)
    (playerId : String)
    (request : Request τ) : Prop :=
  ∃ token,
    request = .logout token ∧
      ownerOf jwt token = some playerId

/- What holds of a request at each of its calls. -/
def Point.Earned
    (crypto : Crypto τ)
    (s : Watched τ)
    (k : Nat)
    (request : Request τ) : Point τ → Prop
| .createPlayer player => Proves crypto player request
| .getPlayerByUsername username password =>
    request = .login username password
| .storeSession playerId _ token =>
    ownerOf crypto.jwt token = some playerId ∧
      request.asksToken = true ∧
        Authorized crypto s k playerId request
| .storePlayerSession playerId _ token =>
    ownerOf crypto.jwt token = some playerId ∧
      request.asksToken = true ∧
        Authorized crypto s k playerId request
| .checkSession playerId =>
    Presents crypto.jwt playerId request
| .getPlayer playerId =>
    (request.asksToken = true ∨
        ∃ token, request = .profile playerId token) ∧
      Authorized crypto s k playerId request
| .readSession playerId => LogoutOf crypto.jwt playerId request
| .deleteKeys playerId _ =>
    LogoutOf crypto.jwt playerId request
| .done response => Entitled crypto s k request response

variable {crypto : Crypto τ}

/- Neither rows nor requests nor checks vanish. -/
structure Grows (s t : Watched τ) : Prop where
  players : s.1.stores.players ⊆ t.1.stores.players
  requests : s.1.requests ⊆ t.1.requests
  checked : s.2 ⊆ t.2

variable {s t : Watched τ}
variable {k : Nat}

theorem Shown.mono
    {playerId : String}
    (hShown : Shown crypto s.1 playerId)
    (hGrows : Grows s t) :
    Shown crypto t.1 playerId := by
  rcases hShown with ⟨row, hRow, hId, request, hMem, hProves⟩
  exact
    ⟨row, hGrows.players hRow, hId, request,
      hGrows.requests hMem, hProves⟩

theorem Authorized.mono
    {playerId : String}
    {request : Request τ}
    (hAuthorized : Authorized crypto s k playerId request)
    (hGrows : Grows s t) :
    Authorized crypto t k playerId request := by
  rcases hAuthorized with
    ⟨row, hRow, hRest⟩ | ⟨hPresents, hChecked, hShown⟩
  · exact .inl ⟨row, hGrows.players hRow, hRest⟩
  · exact
      .inr
        ⟨hPresents, hGrows.checked hChecked,
          hShown.mono hGrows⟩

theorem Entitled.mono
    {request : Request τ}
    {response : Response τ}
    (hEntitled : Entitled crypto s k request response)
    (hGrows : Grows s t) :
    Entitled crypto t k request response := by
  cases response with
  | token token =>
      rcases hEntitled with ⟨hAsks, playerId, hOwner, hMay⟩
      exact ⟨hAsks, playerId, hOwner, hMay.mono hGrows⟩
  | valid playerId =>
      exact ⟨hEntitled.1, hEntitled.2.mono hGrows⟩
  | profile row =>
      rcases hEntitled with ⟨hRow, hAsks, hMay⟩
      exact ⟨hGrows.players hRow, hAsks, hMay.mono hGrows⟩
  | loggedOut => exact hEntitled
  | error status detail => trivial

theorem Point.Earned.mono
    {request : Request τ}
    {point : Point τ}
    (hEarned : point.Earned crypto s k request)
    (hGrows : Grows s t) :
    point.Earned crypto t k request := by
  cases point with
  | createPlayer player => exact hEarned
  | getPlayerByUsername username password => exact hEarned
  | storeSession playerId sessionId token =>
      exact
        ⟨hEarned.1, hEarned.2.1, hEarned.2.2.mono hGrows⟩
  | storePlayerSession playerId sessionId token =>
      exact
        ⟨hEarned.1, hEarned.2.1, hEarned.2.2.mono hGrows⟩
  | checkSession playerId => exact hEarned
  | getPlayer playerId =>
      exact ⟨hEarned.1, hEarned.2.mono hGrows⟩
  | readSession playerId => exact hEarned
  | deleteKeys playerId sessionId => exact hEarned
  | done response => exact Entitled.mono hEarned hGrows

/- Who proves a password asks for a token. -/
theorem asksToken_of_proves
    {row : Player}
    {request : Request τ}
    (hProves : Proves crypto row request) :
    request.asksToken = true := by
  cases request with
  | register username password => rfl
  | login username password => rfl
  | refresh token => exact hProves.elim
  | logout token => exact hProves.elim
  | validate token => exact hProves.elim
  | profile playerId token => exact hProves.elim

/- A player who is authorized has shown its password. -/
theorem Authorized.shown
    {playerId : String}
    {request : Request τ}
    (hAuthorized : Authorized crypto s k playerId request)
    (hListed : request ∈ s.1.requests) :
    Shown crypto s.1 playerId := by
  rcases hAuthorized with
    ⟨row, hRow, hId, hProves⟩ | ⟨_, _, hShown⟩
  · exact ⟨row, hRow, hId, request, hListed, hProves⟩
  · exact hShown

end Auth

------------------------------------------------------------
-- One Call
------------------------------------------------------------

namespace Auth

variable {τ : Type}
variable {crypto : Crypto τ}

theorem ownerOf_of_decodeToken
    {jwt : Jwt τ}
    {now : Int}
    {token : τ}
    {payload : Payload}
    (hDecode : decodeToken jwt now token = some payload) :
    ownerOf jwt token = some payload.sub := by
  rcases Option.filter_eq_some_iff.mp hDecode with ⟨hFound, _⟩
  rw [ownerOf, hFound]
  rfl

/- A request before its first call. -/
theorem earned_begin
    (crypto : Crypto τ)
    (s : Watched τ)
    (k : Nat)
    (now : Int)
    (id salt : String)
    (request : Request τ) :
    (begin crypto now id salt request).Earned crypto s k
      request := by
  cases request with
  | register username password => exact ⟨rfl, salt, rfl⟩
  | login username password => rfl
  | refresh token =>
      simp only [begin]
      split
      · trivial
      · exact ownerOf_of_decodeToken ‹_›
  | logout token =>
      simp only [begin]
      split
      · trivial
      · exact ⟨token, rfl, ownerOf_of_decodeToken ‹_›⟩
  | validate token =>
      simp only [begin]
      split
      · trivial
      · exact ownerOf_of_decodeToken ‹_›
  | profile playerId token =>
      simp only [begin]
      split
      · trivial
      · rename_i payload hDecode
        split
        · rename_i hSame
          refine ⟨rfl, ?_⟩
          rw [← hSame]
          exact ownerOf_of_decodeToken hDecode
        · trivial

/- A session for a player that is authorized. -/
theorem earned_issueSession
    {s : Watched τ}
    {k : Nat}
    {settings : Settings}
    {request : Request τ}
    {playerId : String}
    (now : Int)
    (id : String)
    (hAsks : request.asksToken = true)
    (hAuthorized : Authorized crypto s k playerId request) :
    (issueSession crypto settings playerId now id).Earned
      crypto s k request :=
  ⟨ownerOf_createToken _ _ _ _, hAsks, hAuthorized⟩

/- The invariant of rows, sessions and requests. -/
structure Accounts
    (crypto : Crypto τ)
    (s : Watched τ) : Prop where
  usernames :
    (s.1.stores.players.map Player.username).Nodup
  playerIds :
    (s.1.stores.players.map Player.playerId).Nodup
  sessions :
    ∀ playerId token,
      s.1.sessions.currentToken playerId = some token →
        Shown crypto s.1 playerId
  points :
    ∀ (k : Nat) (h : Handler τ),
      s.1.handlers[k]? = some h →
        h.point.Earned crypto s k h.request

theorem mem_of_getPlayer
    {st : Stores τ}
    {playerId : String}
    {row : Player}
    (hFound : st.getPlayer playerId = some row) :
    row ∈ st.players ∧ row.playerId = playerId := by
  refine ⟨List.mem_of_find?_eq_some hFound, ?_⟩
  simpa using List.find?_some hFound

theorem mem_of_getPlayerByUsername
    {st : Stores τ}
    {username : String}
    {row : Player}
    (hFound : st.getPlayerByUsername username = some row) :
    row ∈ st.players ∧ row.username = username := by
  refine ⟨List.mem_of_find?_eq_some hFound, ?_⟩
  simpa using List.find?_some hFound

variable [DecidableEq τ]

/-
  A call returns: `t` is the state with its effect, in which
  the request is still listed and a check is recorded.
-/
theorem earned_answer
    {settings : Settings}
    {s t : Watched τ}
    {k : Nat}
    {request : Request τ}
    {point : Point τ}
    (now : Int)
    (id : String)
    (hAccounts : Accounts crypto s)
    (hGrows : Grows s t)
    (hStores : t.1.stores = s.1.stores.apply point)
    (hChecked :
      ∀ playerId ∈ passed s.1.stores request point,
        (k, playerId) ∈ t.2)
    (hEarned : point.Earned crypto s k request) :
    (answer crypto settings s.1.stores request now id
      point).Earned crypto t k request := by
  cases point with
  | createPlayer player =>
      simp only [answer]
      split
      · trivial
      · rename_i hFree
        refine
          earned_issueSession now id
            (asksToken_of_proves hEarned)
            (.inl ⟨player, ?_, rfl, hEarned⟩)
        rw [hStores]
        simp [Stores.apply, hFree]
  | getPlayerByUsername username password =>
      simp only [Point.Earned] at hEarned
      subst hEarned
      simp only [answer]
      split
      · trivial
      · rename_i row hFound
        split
        · rename_i hCheck
          rcases mem_of_getPlayerByUsername hFound with
            ⟨hRow, hName⟩
          exact
            earned_issueSession now id rfl
              (.inl
                ⟨row, hGrows.players hRow, rfl, hName.symm,
                  hCheck⟩)
        · trivial
  | storeSession playerId sessionId token =>
      exact
        ⟨hEarned.1, hEarned.2.1, hEarned.2.2.mono hGrows⟩
  | storePlayerSession playerId sessionId token =>
      exact
        ⟨hEarned.2.1, playerId, hEarned.1,
          hEarned.2.2.mono hGrows⟩
  | checkSession playerId =>
      simp only [answer]
      split
      · rename_i hSame
        have hRecorded : (k, playerId) ∈ t.2 := by
          apply hChecked
          simp only [passed, hSame, if_true]
          rfl
        have hMay :
            ∀ {token : τ},
              request.token = some token →
                Authorized crypto t k playerId request := by
          intro token hToken
          exact
            .inr
              ⟨hEarned, hRecorded,
                (hAccounts.sessions playerId token
                  (hSame.trans hToken)).mono hGrows⟩
        cases request with
        | register username password => exact hEarned.elim
        | login username password => exact hEarned.elim
        | logout token => exact hEarned.elim
        | refresh token => exact ⟨.inl rfl, hMay rfl⟩
        | validate token => exact ⟨⟨token, rfl⟩, hMay rfl⟩
        | profile id' token =>
            refine ⟨.inr ⟨token, ?_⟩, hMay rfl⟩
            rw [hEarned.1]
      · trivial
  | getPlayer playerId =>
      rcases hEarned with ⟨hAsks, hMay⟩
      simp only [answer]
      split
      · trivial
      · trivial
      · rename_i row id' token hFound
        rcases mem_of_getPlayer hFound with ⟨hRow, rfl⟩
        refine
          ⟨hGrows.players hRow, ?_, hMay.mono hGrows⟩
        rcases hAsks with hAsks | hProfile
        · cases hAsks
        · exact hProfile
      · rename_i hOther
        refine earned_issueSession now id ?_ (hMay.mono hGrows)
        rcases hAsks with hAsks | ⟨token, rfl⟩
        · exact hAsks
        · exact absurd rfl (hOther playerId token)
  | readSession playerId => exact hEarned
  | deleteKeys playerId sessionId =>
      rcases hEarned with ⟨token, hLogout, hOwner⟩
      exact ⟨token, playerId, hLogout, hOwner⟩
  | done response => exact Entitled.mono hEarned hGrows

end Auth

------------------------------------------------------------
-- Steps
------------------------------------------------------------

namespace Auth

open Machine

variable {τ : Type}
variable {crypto : Crypto τ}
variable {settings : Settings}
variable {s t : Watched τ}

/- No call deletes a row. -/
theorem players_subset_apply
    (st : Stores τ)
    (point : Point τ) :
    st.players ⊆ (st.apply point).players := by
  cases point with
  | createPlayer player =>
      simp only [Stores.apply]
      split
      · exact List.Subset.refl _
      · exact List.subset_append_left _ _
  | _ => exact List.Subset.refl _

/- Names and identifiers stay unique. -/
theorem nodup_apply
    {st : Stores τ}
    (point : Point τ)
    (hNames : (st.players.map Player.username).Nodup)
    (hIds : (st.players.map Player.playerId).Nodup) :
    ((st.apply point).players.map Player.username).Nodup ∧
      ((st.apply point).players.map
        Player.playerId).Nodup := by
  cases point with
  | createPlayer player =>
      simp only [Stores.apply]
      split
      · exact ⟨hNames, hIds⟩
      · rename_i hFree
        simp only [List.map_append, List.map_cons,
          List.map_nil]
        constructor
        · refine
            List.nodup_append.mpr
              ⟨hNames, List.pairwise_singleton _ _, ?_⟩
          intro old hMem new hNew hEq
          rcases List.mem_map.mp hMem with ⟨row, hRow, rfl⟩
          rw [List.mem_singleton.mp hNew] at hEq
          exact hFree ⟨row, hRow, .inl hEq⟩
        · refine
            List.nodup_append.mpr
              ⟨hIds, List.pairwise_singleton _ _, ?_⟩
          intro old hMem new hNew hEq
          rcases List.mem_map.mp hMem with ⟨row, hRow, rfl⟩
          rw [List.mem_singleton.mp hNew] at hEq
          exact hFree ⟨row, hRow, .inr hEq⟩
  | _ => exact ⟨hNames, hIds⟩

/- A handler moves on: the requests stay the same. -/
theorem requests_setHandler
    {s : State τ}
    {k : Nat}
    {h : Handler τ}
    (hHandler : s.handlers[k]? = some h)
    (point : Point τ) :
    (s.handlers.set k { h with point := point }).map
        Handler.request =
      s.requests := by
  rcases List.getElem?_eq_some_iff.mp hHandler with
    ⟨hBound, rfl⟩
  rw [List.map_set]
  have hLength : k < s.requests.length := by
    rw [State.requests, List.length_map]
    exact hBound
  have hSelf := List.set_getElem_self hLength
  simp only [State.requests, List.getElem_map] at hSelf
  exact hSelf

theorem mem_requests
    {s : State τ}
    {k : Nat}
    {h : Handler τ}
    (hHandler : s.handlers[k]? = some h) :
    h.request ∈ s.requests :=
  List.mem_map.mpr ⟨h, List.mem_of_getElem? hHandler, rfl⟩

theorem accounts_empty :
    Accounts crypto ((State.empty, []) : Watched τ) where
  usernames := .nil
  playerIds := .nil
  sessions := nofun
  points := nofun

/- The sessions after an effect belong to players as before. -/
theorem shown_of_currentToken_apply
    {k : Nat}
    {h : Handler τ}
    {playerId : String}
    {token : τ}
    (hAccounts : Accounts crypto s)
    (hHandler : s.1.handlers[k]? = some h)
    (hCurrent :
      (s.1.stores.apply h.point).sessions.currentToken
          playerId =
        some token) :
    Shown crypto s.1 playerId := by
  rcases currentToken_apply hCurrent with
    ⟨hOld, _⟩ | ⟨sessionId, hStores⟩
  · exact hAccounts.sessions playerId token hOld
  · have hEarned := hAccounts.points k h hHandler
    rw [hStores] at hEarned
    exact hEarned.2.2.shown (mem_requests hHandler)

/- Keys that expire take no row and no request away. -/
theorem Accounts.setSessions
    (hAccounts : Accounts crypto s)
    {r : Sessions τ}
    (hFewer :
      ∀ playerId token,
        r.currentToken playerId = some token →
          s.1.sessions.currentToken playerId = some token) :
    Accounts crypto (s.1.setSessions r, s.2) where
  usernames := hAccounts.usernames
  playerIds := hAccounts.playerIds
  sessions := fun playerId token hCurrent =>
    hAccounts.sessions playerId token
      (hFewer playerId token hCurrent)
  points := hAccounts.points

/- A handler moves on, and the others keep what they have. -/
theorem points_set
    {k : Nat}
    {h : Handler τ}
    {point : Point τ}
    (hAccounts : Accounts crypto s)
    (hGrows : Grows s t)
    (hHandlers :
      t.1.handlers =
        s.1.handlers.set k { h with point := point })
    (hEarned : point.Earned crypto t k h.request)
    (j : Nat)
    (h' : Handler τ)
    (hOther : t.1.handlers[j]? = some h') :
    h'.point.Earned crypto t j h'.request := by
  rw [hHandlers, List.getElem?_set] at hOther
  split at hOther
  · rename_i hSame
    subst hSame
    split at hOther
    · cases hOther
      exact hEarned
    · cases hOther
  · exact (hAccounts.points j h' hOther).mono hGrows

variable [DecidableEq τ]

theorem subset_noteChecked
    (s : State τ)
    (act : Act τ)
    (t : State τ)
    (checked : List (Nat × String)) :
    checked ⊆ noteChecked s act t checked := by
  unfold noteChecked
  split
  · split
    · exact List.Subset.refl _
    · exact List.subset_append_right _ _
  · exact List.Subset.refl _

theorem accounts_step
    {act : Act τ}
    (hAccounts : Accounts crypto s)
    (hStep :
      observe (step crypto settings) noteChecked s act =
        some t) :
    Accounts crypto t := by
  rcases observe_eq_some_iff.mp hStep with ⟨hTaken, hNote⟩
  rcases t with ⟨t, checked⟩
  change step crypto settings s.1 act = some t at hTaken
  change checked = noteChecked s.1 act t s.2 at hNote
  have hChecked : s.2 ⊆ checked := by
    rw [hNote]
    exact subset_noteChecked _ _ _ _
  cases steps_of_step hTaken with
  | @begin request now id salt hFresh =>
      set t := ({ s.1 with
        handlers :=
          s.1.handlers ++
            [.start crypto s.1.stores request now id salt]
        ids := id :: s.1.ids } : State τ)
      have hGrows : Grows s (t, checked) := by
        refine ⟨List.Subset.refl _, ?_, hChecked⟩
        simp only [State.requests, t, List.map_append]
        exact List.subset_append_left _ _
      refine
        ⟨hAccounts.usernames, hAccounts.playerIds, ?_, ?_⟩
      · intro playerId token hCurrent
        exact
          (hAccounts.sessions playerId token hCurrent).mono
            hGrows
      · intro k h hHandler
        change
          (s.1.handlers ++
              [.start crypto s.1.stores request now id
                salt])[k]? =
            some h at hHandler
        rw [List.getElem?_append] at hHandler
        split at hHandler
        · exact (hAccounts.points k h hHandler).mono hGrows
        · rw [List.mem_singleton.mp
            (List.mem_of_getElem? hHandler)]
          exact earned_begin crypto _ k now id salt request
  | @ok k now id h hFresh hHandler hWaits =>
      set t := ({ s.1.setHandler k
          { h with
            point :=
              answer crypto settings s.1.stores h.request now
                id h.point } with
        stores := s.1.stores.apply h.point
        ids := id :: s.1.ids
        history :=
          s.1.history ++
            (eventOf s.1.stores h.request
              h.point).toList } :
        State τ)
      have hRequests : t.requests = s.1.requests :=
        requests_setHandler hHandler _
      have hGrows : Grows s (t, checked) :=
        ⟨players_subset_apply _ _,
          hRequests ▸ List.Subset.refl _, hChecked⟩
      rcases
          nodup_apply h.point hAccounts.usernames
            hAccounts.playerIds with
        ⟨hNames, hIds⟩
      refine ⟨hNames, hIds, ?_, ?_⟩
      · intro playerId token hCurrent
        exact
          (shown_of_currentToken_apply hAccounts hHandler
            hCurrent).mono hGrows
      · refine points_set hAccounts hGrows rfl ?_
        refine
          earned_answer now id hAccounts hGrows rfl ?_
            (hAccounts.points k h hHandler)
        intro playerId hPassed
        have hThis :
            passed s.1.stores h.request h.point =
              some playerId :=
          hPassed
        simp [hNote, noteChecked, hHandler, hThis]
  | @raise k applied h hHandler =>
      set t := ({ s.1.setHandler k
          { h with point := .done serverError } with
        stores :=
          if applied then s.1.stores.apply h.point
          else s.1.stores } : State τ)
      have hRequests : t.requests = s.1.requests :=
        requests_setHandler hHandler _
      have hGrows : Grows s (t, checked) := by
        refine
          ⟨?_, hRequests ▸ List.Subset.refl _, hChecked⟩
        cases applied with
        | false => exact List.Subset.refl _
        | true => exact players_subset_apply _ _
      have hRows :
          (t.stores.players.map Player.username).Nodup ∧
            (t.stores.players.map
              Player.playerId).Nodup := by
        cases applied with
        | false =>
            exact ⟨hAccounts.usernames, hAccounts.playerIds⟩
        | true =>
            exact
              nodup_apply h.point hAccounts.usernames
                hAccounts.playerIds
      refine ⟨hRows.1, hRows.2, ?_, ?_⟩
      · intro playerId token hCurrent
        refine Shown.mono ?_ hGrows
        cases applied with
        | false =>
            exact hAccounts.sessions playerId token hCurrent
        | true =>
            exact
              shown_of_currentToken_apply hAccounts hHandler
                hCurrent
      · exact points_set hAccounts hGrows rfl trivial
  | expireSession =>
      subst hNote
      exact hAccounts.setSessions (fun _ _ hCurrent => hCurrent)
  | @expirePlayerSession playerId =>
      subst hNote
      refine hAccounts.setSessions ?_
      intro playerId' token hCurrent
      by_cases hSame : playerId' = playerId
      · subst hSame
        simp [Sessions.currentToken, Sessions.deleteKeys]
          at hCurrent
      · simpa [Sessions.currentToken, Sessions.deleteKeys,
          Function.update_of_ne hSame] using hCurrent

/-
  In every reachable state: a token is answered to a request
  that itself presented the password of its player, or to a
  refresh that found its token in the player's session; a
  validation and a profile are answered to requests that
  found their token there; and such sessions go back to a
  password of the player.
-/
theorem answered_entitled
    {settings : Settings}
    {s : Watched τ}
    (hRun :
      Reachable (observe (step crypto settings) noteChecked)
        (State.empty, []) s)
    {k : Nat}
    {h : Handler τ}
    (hHandler : s.1.handlers[k]? = some h)
    {response : Response τ}
    (hDone : h.point = .done response) :
    Entitled crypto s k h.request response ∧
      (s.1.stores.players.map Player.username).Nodup ∧
        (s.1.stores.players.map Player.playerId).Nodup := by
  have hAccounts : Accounts crypto s :=
    hRun.invariant accounts_empty
      (fun hAccounts _ hStep =>
        accounts_step hAccounts hStep)
  have hEarned := hAccounts.points k h hHandler
  rw [hDone] at hEarned
  exact ⟨hEarned, hAccounts.usernames, hAccounts.playerIds⟩

/- She registers, refreshes, and asks for her profile. -/
def refreshedProfile : Watched Payload :=
  final (observe (step plainCrypto {}) noteChecked)
    (State.empty, [])
    ([.begin (.register "ann" "secret") 10000000 "p" "salt"] ++
      calls 0 10000000 ["session-1", "u1", "u2"] ++
      [.begin (.refresh (annToken 10)) 12000000 "u3" ""] ++
      calls 1 12000000 ["u4", "session-2", "u5", "u6"] ++
      [.begin (.profile "p" (annToken 12)) 13000000 "u7" ""] ++
      calls 2 13000000 ["u8", "u9"])
    (by decide)

def annRow : Player where
  playerId := "p"
  username := "ann"
  passwordHash := "secret"

theorem answered_entitled_refreshedProfile :
    Entitled plainCrypto refreshedProfile 2
        (.profile "p" (annToken 12)) (.profile annRow) ∧
      (refreshedProfile.1.stores.players.map
        Player.username).Nodup ∧
      (refreshedProfile.1.stores.players.map
        Player.playerId).Nodup := by
  have hHandler :
      refreshedProfile.1.handlers[2]? =
        some
          { request := .profile "p" (annToken 12)
            dead := false
            point := .done (.profile annRow) } := by
    rfl
  exact
    answered_entitled
      (reachable_of_run (run_eq_final (by decide)))
      hHandler rfl

end Auth
