import MultiplayerInfra.Auth.Revocation

/-
  A request whose token was superseded or revoked before it
  started leaves the sessions as they are.

  Key definitions include:
    * `Auth.Powerless`
    * `Auth.Heeded`
    * `Auth.Names`
    * `Auth.Heeds`

  Key theorems include:
    * `Auth.distinct_step`
    * `Auth.heeds_step`
    * `Auth.dead_token_powerless`

  `logout` deletes the current session of the player of its
  token, whichever token that session has; and it reads the
  session first and deletes it in a second call.
-/

------------------------------------------------------------
-- The Property and the Condition
------------------------------------------------------------

namespace Auth

variable {τ : Type}

/- Only sessions with this token end. -/
structure EndsOnly
    (token : τ)
    (r r' : Sessions τ) : Prop where
  playerSession :
    ∀ playerId doc,
      r.playerSession playerId = some doc →
        r'.playerSession playerId = none →
          doc.token = token
  session :
    ∀ sessionId doc,
      r.session sessionId = some doc →
        r'.session sessionId = none →
          doc.token = token

/-
  A step of a request with a dead token changes no session,
  and a logout ends only sessions with its own token.
-/
structure Powerless
    [DecidableEq τ]
    (crypto : Crypto τ)
    (s : State τ)
    (act : Act τ)
    (t : State τ) : Prop where
  dead :
    ∀ h ∈ s.actor crypto act,
      h.dead = true → t.sessions = s.sessions
  logout :
    ∀ h ∈ s.actor crypto act, ∀ token,
      h.request = .logout token →
        EndsOnly token s.sessions t.sessions

/- The player whose session a logout reads. -/
def Point.reading : Point τ → Option String
| .readSession playerId => some playerId
| _ => none

/- The player whose session a logout is to delete. -/
def Point.deleting : Point τ → Option String
| .deleteKeys playerId _ => some playerId
| _ => none

def Point.waits : Point τ → Bool
| .done _ => false
| _ => true

/- A logout finds no session, or that of its own token. -/
def ReadsOwn (s : State τ) (h : Handler τ) : Prop :=
  ∀ playerId ∈ h.point.reading,
    s.sessions.currentToken playerId = none ∨
      s.sessions.currentToken playerId = h.request.token

/-
  A session is not stored while a logout with another token
  is about to delete it, nor with the token of a request in
  progress that was started when the token was dead.
-/
def StoresApart (s : State τ) (h : Handler τ) : Prop :=
  ∀ e ∈ h.point.storing, ∀ r ∈ s.handlers,
    (r.point.deleting = some e.1 →
        r.request.token = some e.2) ∧
      (r.dead = true → r.point.waits = true →
        r.request.token ≠ some e.2)

/- The condition on a step. -/
def Heeded (s : State τ) (act : Act τ) : Prop :=
  ∀ h ∈ s.served act, ReadsOwn s h ∧ StoresApart s h

instance
    [DecidableEq τ]
    (s : State τ)
    (act : Act τ) :
    Decidable (Heeded s act) :=
  inferInstanceAs (Decidable
    (∀ h ∈ s.served act,
      (∀ playerId ∈ h.point.reading,
        s.sessions.currentToken playerId = none ∨
          s.sessions.currentToken playerId =
            h.request.token) ∧
      ∀ e ∈ h.point.storing, ∀ r ∈ s.handlers,
        (r.point.deleting = some e.1 →
            r.request.token = some e.2) ∧
          (r.dead = true → r.point.waits = true →
            r.request.token ≠ some e.2)))

end Auth

------------------------------------------------------------
-- Names of Sessions
------------------------------------------------------------

namespace Auth

variable {τ : Type}

/- The session and the token that a handler works on. -/
def Handler.named (h : Handler τ) : Option (String × τ) :=
  match h.point with
  | .storeSession _ sessionId token => some (sessionId, token)
  | .storePlayerSession _ sessionId token =>
      some (sessionId, token)
  | .deleteKeys _ (some sessionId) =>
      h.request.token.map (Prod.mk sessionId)
  | _ => none

/- A stored session has this name and this token. -/
def Sessions.Names
    (r : Sessions τ)
    (sessionId : String)
    (token : τ) : Prop :=
  (∃ doc, r.session sessionId = some doc ∧
      doc.token = token) ∨
    ∃ playerId,
      r.playerSession playerId = some ⟨sessionId, token⟩

/- A session is stored, or is worked on, with this token. -/
def Names
    (s : State τ)
    (sessionId : String)
    (token : τ) : Prop :=
  s.sessions.Names sessionId token ∨
    ∃ h ∈ s.handlers, h.named = some (sessionId, token)

/- Every session has one token, and a drawn identifier. -/
structure Distinct (s : State τ) : Prop where
  drawn :
    ∀ sessionId token,
      Names s sessionId token → sessionId ∈ s.ids
  unique :
    ∀ sessionId token token',
      Names s sessionId token →
        Names s sessionId token' → token = token'

theorem distinct_empty :
    Distinct (State.empty : State τ) := by
  have hNone :
      ∀ sessionId token,
        ¬ Names (State.empty : State τ) sessionId token := by
    rintro sessionId token
      ((⟨doc, hDoc, _⟩ | ⟨playerId, hDoc⟩) | ⟨h, hMem, _⟩)
    · cases hDoc
    · cases hDoc
    · cases hMem
  constructor
  · intro sessionId token hNames
    exact absurd hNames (hNone sessionId token)
  · intro sessionId token token' hNames
    exact absurd hNames (hNone sessionId token)

variable {s t : State τ}

/- No new names. -/
theorem Distinct.of_names
    (hDistinct : Distinct s)
    (hNames :
      ∀ sessionId token,
        Names t sessionId token → Names s sessionId token)
    (hIds : s.ids ⊆ t.ids) :
    Distinct t where
  drawn := fun sessionId token hName =>
    hIds
      (hDistinct.drawn sessionId token
        (hNames sessionId token hName))
  unique := fun sessionId token token' hName hName' =>
    hDistinct.unique sessionId token token'
      (hNames sessionId token hName)
      (hNames sessionId token' hName')

/- A fresh identifier names at most one new session. -/
theorem Distinct.of_fresh
    (hDistinct : Distinct s)
    {id : String}
    (issued : Option τ)
    (hFresh : id ∉ s.ids)
    (hNames :
      ∀ sessionId token,
        Names t sessionId token →
          Names s sessionId token ∨
            sessionId = id ∧ issued = some token)
    (hIds : t.ids = id :: s.ids) :
    Distinct t := by
  constructor
  · intro sessionId token hName
    rw [hIds, List.mem_cons]
    rcases hNames sessionId token hName with hOld | ⟨hNew, _⟩
    · exact .inr (hDistinct.drawn sessionId token hOld)
    · exact .inl hNew
  · intro sessionId token token' hName hName'
    rcases hNames sessionId token hName with
      hOld | ⟨hNew, hIssued⟩
    · rcases hNames sessionId token' hName' with
        hOld' | ⟨rfl, _⟩
      · exact
          hDistinct.unique sessionId token token' hOld hOld'
      · exact
          absurd (hDistinct.drawn _ token hOld) hFresh
    · rcases hNames sessionId token' hName' with
        hOld' | ⟨_, hIssued'⟩
      · rw [hNew] at hOld'
        exact absurd (hDistinct.drawn _ token' hOld') hFresh
      · exact Option.some.inj (hIssued.symm.trans hIssued')

/- The effect of a call names what its handler works on. -/
theorem names_apply
    {st : Stores τ}
    {h : Handler τ}
    {sessionId : String}
    {token : τ}
    (hNames :
      (st.apply h.point).sessions.Names sessionId token) :
    st.sessions.Names sessionId token ∨
      h.named = some (sessionId, token) := by
  cases hPoint : h.point with
  | createPlayer player =>
      rw [hPoint] at hNames
      simp only [Stores.apply] at hNames
      split at hNames <;> exact .inl hNames
  | storeSession pid sid stored =>
      rw [hPoint] at hNames
      rcases hNames with ⟨doc, hDoc, hToken⟩ | hOld
      · by_cases hSame : sessionId = sid
        · subst hSame
          simp only [Stores.apply, Sessions.storeSession,
            Function.update_self] at hDoc
          cases hDoc
          right
          rw [Handler.named, hPoint, ← hToken]
        · simp only [Stores.apply, Sessions.storeSession,
            Function.update_of_ne hSame] at hDoc
          exact .inl (.inl ⟨doc, hDoc, hToken⟩)
      · exact .inl (.inr hOld)
  | storePlayerSession pid sid stored =>
      rw [hPoint] at hNames
      rcases hNames with hOld | ⟨playerId, hDoc⟩
      · exact .inl (.inl hOld)
      · by_cases hSame : playerId = pid
        · subst hSame
          simp only [Stores.apply,
            Sessions.storePlayerSession,
            Function.update_self] at hDoc
          cases hDoc
          right
          rw [Handler.named, hPoint]
        · simp only [Stores.apply,
            Sessions.storePlayerSession,
            Function.update_of_ne hSame] at hDoc
          exact .inl (.inr ⟨playerId, hDoc⟩)
  | deleteKeys pid sid =>
      rw [hPoint] at hNames
      left
      rcases hNames with ⟨doc, hDoc, hToken⟩ | ⟨playerId, hDoc⟩
      · left
        refine ⟨doc, ?_, hToken⟩
        cases sid with
        | none => exact hDoc
        | some sid =>
            by_cases hSame : sessionId = sid
            · subst hSame
              simp [Stores.apply, Sessions.deleteKeys]
                at hDoc
            · simpa only [Stores.apply, Sessions.deleteKeys,
                Function.update_of_ne hSame] using hDoc
      · right
        refine ⟨playerId, ?_⟩
        by_cases hSame : playerId = pid
        · subst hSame
          simp [Stores.apply, Sessions.deleteKeys] at hDoc
        · simpa only [Stores.apply, Sessions.deleteKeys,
            Function.update_of_ne hSame] using hDoc
  | _ =>
      rw [hPoint] at hNames
      exact .inl hNames

end Auth

------------------------------------------------------------
-- Names Are Kept Apart
------------------------------------------------------------

namespace Auth

variable {τ : Type} [DecidableEq τ]
variable {crypto : Crypto τ}
variable {settings : Settings}
variable {s t : State τ}

/- A reply starts work on the drawn session at most. -/
def issuedBy : Point τ → Option τ
| .storeSession _ _ token => some token
| _ => none

omit [DecidableEq τ] in
/- A new session has the identifier that was just drawn. -/
theorem named_issueSession
    {request : Request τ}
    {dead : Bool}
    {playerId id sessionId : String}
    {now : Int}
    {token : τ}
    (hNamed :
      Handler.named
          { request := request
            dead := dead
            point :=
              issueSession crypto settings playerId now id } =
        some (sessionId, token)) :
    sessionId = id ∧
      issuedBy
          (issueSession crypto settings playerId now id) =
        some token := by
  cases hNamed
  exact ⟨rfl, rfl⟩

/- What a handler works on after a call has returned. -/
theorem named_answer
    {h : Handler τ}
    {now : Int}
    {id sessionId : String}
    {token : τ}
    (hReads : ReadsOwn s h)
    (hNamed :
      Handler.named
          { h with
            point :=
              answer crypto settings s.stores h.request now
                id h.point } =
        some (sessionId, token)) :
    s.sessions.Names sessionId token ∨
      h.named = some (sessionId, token) ∨
        sessionId = id ∧
          issuedBy
              (answer crypto settings s.stores h.request now
                id h.point) =
            some token := by
  cases hPoint : h.point with
  | createPlayer player =>
      rw [hPoint] at hNamed
      simp only [answer] at hNamed ⊢
      split at hNamed
      · cases hNamed
      · rename_i hNew
        rw [if_neg hNew]
        exact .inr (.inr (named_issueSession hNamed))
  | getPlayerByUsername username password =>
      rw [hPoint] at hNamed
      simp only [answer] at hNamed ⊢
      split at hNamed
      · cases hNamed
      · split at hNamed
        · rename_i row hRow hPassword
          rw [if_pos hPassword]
          exact .inr (.inr (named_issueSession hNamed))
        · cases hNamed
  | storeSession playerId sid stored =>
      rw [hPoint] at hNamed
      right
      left
      rw [Handler.named, hPoint]
      exact hNamed
  | storePlayerSession playerId sid stored =>
      rw [hPoint] at hNamed
      cases hNamed
  | checkSession playerId =>
      rw [hPoint] at hNamed
      simp only [answer] at hNamed
      split at hNamed
      · split at hNamed <;> cases hNamed
      · cases hNamed
  | getPlayer playerId =>
      rw [hPoint] at hNamed
      simp only [answer] at hNamed ⊢
      split at hNamed
      · cases hNamed
      · cases hNamed
      · cases hNamed
      · exact .inr (.inr (named_issueSession hNamed))
  | readSession playerId =>
      -- the session that is read has the presented token
      rw [hPoint] at hNamed
      left
      right
      simp only [answer, Handler.named] at hNamed
      split at hNamed
      · rename_i hEq
        cases hEq
      · rename_i hEq
        cases hEq
      · rename_i pid sid hEq
        injection hEq with _ hFound
        rcases Option.filter_eq_some_iff.mp hFound with
          ⟨hSession, _⟩
        rcases Option.map_eq_some_iff.mp hSession with
          ⟨doc, hDoc, rfl⟩
        rcases Option.map_eq_some_iff.mp hNamed with
          ⟨presented, hPresented, hPair⟩
        cases hPair
        refine ⟨playerId, ?_⟩
        have hToken := hReads playerId (by rw [hPoint]; rfl)
        have hDoc' :
            s.sessions.playerSession playerId = some doc :=
          hDoc
        rw [Sessions.currentToken, hDoc', hPresented]
          at hToken
        rcases hToken with hNone | hOwn
        · cases hNone
        · cases hOwn
          exact hDoc
      · cases hNamed
  | deleteKeys playerId sid =>
      rw [hPoint] at hNamed
      cases hNamed
  | done response =>
      rw [hPoint] at hNamed
      cases hNamed

/- No handler starts with a session. -/
theorem named_start
    (st : Stores τ)
    (request : Request τ)
    (now : Int)
    (id salt : String) :
    (Handler.start crypto st request now id salt).named =
      none := by
  have hBegins := begins crypto now id salt request
  unfold Handler.start Handler.named
  generalize begin crypto now id salt request = point
    at hBegins ⊢
  cases hBegins <;> rfl

omit [DecidableEq τ] in
/- Deleted and expired keys name nothing. -/
theorem names_setSessions
    {r : Sessions τ}
    (hSession :
      ∀ sessionId doc,
        r.session sessionId = some doc →
          s.sessions.session sessionId = some doc)
    (hPlayerSession :
      ∀ playerId doc,
        r.playerSession playerId = some doc →
          s.sessions.playerSession playerId = some doc)
    {sessionId : String}
    {token : τ}
    (hNames : Names (s.setSessions r) sessionId token) :
    Names s sessionId token := by
  rcases hNames with (⟨doc, hDoc, hToken⟩ | ⟨pid, hDoc⟩) | hWork
  · exact .inl (.inl ⟨doc, hSession _ _ hDoc, hToken⟩)
  · exact .inl (.inr ⟨pid, hPlayerSession _ _ hDoc⟩)
  · exact .inr hWork

/- An updated function without the key has no new values. -/
theorem of_update_none
    {κ ν : Type} [DecidableEq κ]
    {f : κ → Option ν}
    {k k' : κ}
    {v : ν}
    (hSome : Function.update f k none k' = some v) :
    f k' = some v ∧ k' ≠ k := by
  by_cases hSame : k' = k
  · subst hSame
    simp at hSome
  · rw [Function.update_of_ne hSame] at hSome
    exact ⟨hSome, hSame⟩

theorem distinct_step
    {act : Act τ}
    (hDistinct : Distinct s)
    (hHeeded : Heeded s act)
    (hStep : step crypto settings s act = some t) :
    Distinct t := by
  cases steps_of_step hStep with
  | @begin request now id salt hFresh =>
      refine
        hDistinct.of_names ?_ (List.subset_cons_self _ _)
      rintro sessionId token (hStored | ⟨h, hMem, hNamed⟩)
      · exact .inl hStored
      · rcases List.mem_append.mp hMem with hOld | hNew
        · exact .inr ⟨h, hOld, hNamed⟩
        · rw [List.mem_singleton.mp hNew, named_start]
            at hNamed
          cases hNamed
  | @ok k now id h hFresh hHandler hWaits =>
      have hMember := List.mem_of_getElem? hHandler
      refine
        hDistinct.of_fresh
          (issuedBy
            (answer crypto settings s.stores h.request now id
              h.point))
          hFresh ?_ rfl
      rintro sessionId token (hStored | ⟨r, hMem, hNamed⟩)
      · left
        rcases names_apply hStored with hOld | hWork
        · exact .inl hOld
        · exact .inr ⟨h, hMember, hWork⟩
      · rcases List.mem_or_eq_of_mem_set hMem with hOld | rfl
        · exact .inl (.inr ⟨r, hOld, hNamed⟩)
        · have hReads :=
            (hHeeded h (by
              rw [State.served, hHandler]
              rfl)).1
          rcases named_answer hReads hNamed with
            hOld | hWork | hNew
          · exact .inl (.inl hOld)
          · exact .inl (.inr ⟨h, hMember, hWork⟩)
          · exact .inr hNew
  | @raise k applied h hHandler =>
      have hMember := List.mem_of_getElem? hHandler
      refine
        hDistinct.of_names ?_ (List.Subset.refl _)
      rintro sessionId token (hStored | ⟨r, hMem, hNamed⟩)
      · cases applied with
        | false => exact .inl hStored
        | true =>
            rcases names_apply hStored with hOld | hWork
            · exact .inl hOld
            · exact .inr ⟨h, hMember, hWork⟩
      · rcases List.mem_or_eq_of_mem_set hMem with hOld | rfl
        · exact .inr ⟨r, hOld, hNamed⟩
        · cases hNamed
  | @expireSession expired =>
      refine
        hDistinct.of_names ?_ (List.Subset.refl _)
      intro sessionId token hNames
      refine names_setSessions ?_ ?_ hNames
      · intro sid doc hDoc
        exact (of_update_none hDoc).1
      · intro pid doc hDoc
        exact hDoc
  | @expirePlayerSession expired =>
      refine
        hDistinct.of_names ?_ (List.Subset.refl _)
      intro sessionId token hNames
      refine names_setSessions ?_ ?_ hNames
      · intro sid doc hDoc
        exact hDoc
      · intro pid doc hDoc
        exact (of_update_none hDoc).1

end Auth

------------------------------------------------------------
-- Invariant
------------------------------------------------------------

namespace Auth

variable {τ : Type}

/- The call after which a dead request will be rejected. -/
inductive Point.Presents : Point τ → String → Prop where
  | check {playerId : String} :
      Presents (.checkSession playerId) playerId
  | read {playerId : String} :
      Presents (.readSession playerId) playerId
  | delete {playerId : String} :
      Presents (.deleteKeys playerId none) playerId

/- The token of a request is not the current one. -/
def Handler.StaysDead
    (r : Sessions τ)
    (h : Handler τ) : Prop :=
  (∃ response, h.point = .done response) ∨
    ∃ playerId, h.point.Presents playerId ∧
      r.currentToken playerId ≠ h.request.token

/- What one request says about the sessions. -/
structure Handler.HeedsAlone
    (r : Sessions τ)
    (h : Handler τ) : Prop where
  presents : h.dead = true → h.request.token ≠ none
  dead : h.dead = true → h.StaysDead r
  deleting :
    ∀ playerId,
      h.point.deleting = some playerId →
        r.currentToken playerId = none ∨
          r.currentToken playerId = h.request.token

/-
  Dead requests stay dead, and a logout that is about to
  delete will find no session or its own.
-/
structure Heeds (s : State τ) : Prop where
  distinct : Distinct s
  presents :
    ∀ h ∈ s.handlers,
      h.dead = true → h.request.token ≠ none
  dead :
    ∀ h ∈ s.handlers,
      h.dead = true → h.StaysDead s.sessions
  deleting :
    ∀ h ∈ s.handlers, ∀ playerId,
      h.point.deleting = some playerId →
        s.sessions.currentToken playerId = none ∨
          s.sessions.currentToken playerId =
            h.request.token

theorem heeds_of_handlers
    {s : State τ}
    (hDistinct : Distinct s)
    (hAll : ∀ h ∈ s.handlers, h.HeedsAlone s.sessions) :
    Heeds s where
  distinct := hDistinct
  presents := fun h hMem => (hAll h hMem).presents
  dead := fun h hMem => (hAll h hMem).dead
  deleting := fun h hMem => (hAll h hMem).deleting

theorem heeds_empty : Heeds (State.empty : State τ) where
  distinct := distinct_empty
  presents := by
    intro h hMem
    cases hMem
  dead := by
    intro h hMem
    cases hMem
  deleting := by
    intro h hMem
    cases hMem

variable [DecidableEq τ]
variable {crypto : Crypto τ}
variable {settings : Settings}
variable {s t : State τ}

/- How a step can change the current token of a player. -/
theorem currentToken_step
    {act : Act τ}
    (hStep : step crypto settings s act = some t)
    (playerId : String) :
    t.sessions.currentToken playerId =
        s.sessions.currentToken playerId ∨
      t.sessions.currentToken playerId = none ∨
        ∃ h ∈ s.served act, ∃ token,
          h.point.storing = some (playerId, token) ∧
            t.sessions.currentToken playerId =
              some token := by
  have hServed :
      ∀ h ∈ s.served act,
        t.stores = s.stores.apply h.point →
          t.sessions.currentToken playerId =
              s.sessions.currentToken playerId ∨
            t.sessions.currentToken playerId = none ∨
              ∃ h ∈ s.served act, ∃ token,
                h.point.storing = some (playerId, token) ∧
                  t.sessions.currentToken playerId =
                    some token := by
    intro h hMem hStores
    cases hNow : t.sessions.currentToken playerId with
    | none => exact .inr (.inl rfl)
    | some token =>
        have hApplied :
            (s.stores.apply h.point).sessions.currentToken
                playerId =
              some token := by
          rw [← hStores]
          exact hNow
        rcases currentToken_apply hApplied with
          ⟨hOld, _⟩ | ⟨sessionId, hPoint⟩
        · exact .inl hOld.symm
        · refine .inr (.inr ⟨h, hMem, token, ?_, rfl⟩)
          rw [hPoint]
          rfl
  cases steps_of_step hStep with
  | begin hFresh => exact .inl rfl
  | @ok k now id h hFresh hHandler hWaits =>
      exact hServed h hHandler rfl
  | @raise k applied h hHandler =>
      cases applied with
      | false => exact .inl rfl
      | true => exact hServed h hHandler rfl
  | expireSession => exact .inl rfl
  | @expirePlayerSession expired =>
      by_cases hSame : playerId = expired
      · subst hSame
        right
        left
        simp [State.sessions, State.setSessions,
          Sessions.currentToken, Sessions.deleteKeys]
      · left
        simp [State.sessions, State.setSessions,
          Sessions.currentToken, Sessions.deleteKeys,
          Function.update_of_ne hSame]

/- A request that waits with a dead token stays dead. -/
theorem ne_currentToken_step
    {act : Act τ}
    (hHeeded : Heeded s act)
    (hStep : step crypto settings s act = some t)
    {h : Handler τ}
    (hMem : h ∈ s.handlers)
    (hDead : h.dead = true)
    (hToken : h.request.token ≠ none)
    (hWaits : h.point.waits = true)
    {playerId : String}
    (hOld :
      s.sessions.currentToken playerId ≠ h.request.token) :
    t.sessions.currentToken playerId ≠ h.request.token := by
  rcases currentToken_step hStep playerId with
    hSame | hNone | ⟨r, hServed, token, hStoring, hNow⟩
  · rw [hSame]
    exact hOld
  · rw [hNone]
    exact hToken.symm
  · rw [hNow]
    exact
      (((hHeeded r hServed).2 _ hStoring h hMem).2 hDead
        hWaits).symm

/- A session that a logout will delete stays its own. -/
theorem deleting_step
    {act : Act τ}
    (hHeeded : Heeded s act)
    (hStep : step crypto settings s act = some t)
    {h : Handler τ}
    (hMem : h ∈ s.handlers)
    {playerId : String}
    (hDeleting : h.point.deleting = some playerId)
    (hOld :
      s.sessions.currentToken playerId = none ∨
        s.sessions.currentToken playerId =
          h.request.token) :
    t.sessions.currentToken playerId = none ∨
      t.sessions.currentToken playerId =
        h.request.token := by
  rcases currentToken_step hStep playerId with
    hSame | hNone | ⟨r, hServed, token, hStoring, hNow⟩
  · rw [hSame]
    exact hOld
  · exact .inl hNone
  · right
    rw [hNow]
    exact
      (((hHeeded r hServed).2 _ hStoring h hMem).1
        hDeleting).symm

/- A handler that did not move keeps what it says. -/
theorem staysDead_step
    {act : Act τ}
    (hHeeds : Heeds s)
    (hHeeded : Heeded s act)
    (hStep : step crypto settings s act = some t)
    {h : Handler τ}
    (hMem : h ∈ s.handlers)
    (hDead : h.dead = true) :
    h.StaysDead t.sessions := by
  rcases hHeeds.dead h hMem hDead with
    hDone | ⟨playerId, hPresents, hOld⟩
  · exact .inl hDone
  · refine .inr ⟨playerId, hPresents, ?_⟩
    refine
      ne_currentToken_step hHeeded hStep hMem hDead
        (hHeeds.presents h hMem hDead) ?_ hOld
    cases hPoint : h.point with
    | done response =>
        rw [hPoint] at hPresents
        cases hPresents
    | _ => rfl

/- The reply to a dead request rejects it or deletes nothing. -/
theorem staysDead_answer
    {h : Handler τ}
    {now : Int}
    {id : String}
    (hReads : ReadsOwn s h)
    (hDead : h.StaysDead s.sessions) :
    Handler.StaysDead s.sessions
      { h with
        point :=
          answer crypto settings s.stores h.request now id
            h.point } := by
  rcases hDead with ⟨response, hDone⟩ |
    ⟨playerId, hPresents, hOld⟩
  · left
    exact ⟨response, by rw [hDone]; rfl⟩
  · cases hPoint : h.point with
    | checkSession pid =>
        rw [hPoint] at hPresents
        cases hPresents
        left
        refine ⟨.error 401 h.request.revokedDetail, ?_⟩
        simp only [answer]
        exact if_neg hOld
    | readSession pid =>
        have hRead := hReads pid (by rw [hPoint]; rfl)
        rw [hPoint] at hPresents
        cases hPresents
        -- it is not the own session, so there is none
        have hNone := hRead.resolve_right hOld
        have hNoDoc :
            s.sessions.playerSession playerId = none := by
          simpa [Sessions.currentToken] using hNone
        right
        refine ⟨playerId, ?_, hOld⟩
        have hPoint' :
            answer crypto settings s.stores h.request now id
                (.readSession playerId) =
              .deleteKeys playerId none := by
          have hFound :
              s.stores.sessions.playerSession playerId =
                none :=
            hNoDoc
          simp [answer, hFound, sessionIdOf]
        rw [hPoint']
        exact .delete
    | deleteKeys pid sid => exact .inl ⟨_, rfl⟩
    | done response => exact .inl ⟨_, rfl⟩
    | _ =>
        rw [hPoint] at hPresents
        cases hPresents

omit [DecidableEq τ] in
/- A call that a dead request makes leaves the sessions. -/
theorem sessions_apply_of_dead
    {h : Handler τ}
    (hDead : h.StaysDead s.sessions)
    (hDeleting :
      ∀ playerId,
        h.point.deleting = some playerId →
          s.sessions.currentToken playerId = none ∨
            s.sessions.currentToken playerId =
              h.request.token) :
    (s.stores.apply h.point).sessions = s.sessions := by
  rcases hDead with ⟨response, hDone⟩ |
    ⟨playerId, hPresents, hOld⟩
  · rw [hDone]
    rfl
  · cases hPoint : h.point with
    | checkSession pid => rfl
    | readSession pid => rfl
    | deleteKeys pid sid =>
        have hRead := hDeleting pid (by rw [hPoint]; rfl)
        rw [hPoint] at hPresents
        cases hPresents
        have hNone :
            s.sessions.playerSession playerId = none := by
          simpa [Sessions.currentToken] using
            hRead.resolve_right hOld
        have hSame :
            Function.update s.sessions.playerSession
                playerId none =
              s.sessions.playerSession := by
          rw [← hNone]
          exact Function.update_eq_self _ _
        change
          (⟨s.sessions.session,
            Function.update s.sessions.playerSession
              playerId none⟩ : Sessions τ) = s.sessions
        rw [hSame]
    | _ =>
        rw [hPoint] at hPresents
        cases hPresents

end Auth

------------------------------------------------------------
-- Steps
------------------------------------------------------------

namespace Auth

variable {τ : Type} [DecidableEq τ]
variable {crypto : Crypto τ}
variable {settings : Settings}
variable {s t : State τ}

/- A request that starts dead. -/
theorem staysDead_start
    {request : Request τ}
    {now : Int}
    {id salt : String}
    (hDead :
      (Handler.start crypto s.stores request now id
        salt).dead = true) :
    request.token ≠ none ∧
      (Handler.start crypto s.stores request now id
        salt).StaysDead s.sessions := by
  have hRejected : Rejected crypto s.stores now request :=
    of_decide_eq_true hDead
  rcases hRejected with ⟨token, hToken, hNot⟩
  refine ⟨by rw [hToken]; exact Option.some_ne_none _, ?_⟩
  have hBegins := begins crypto now id salt request
  unfold Handler.start Handler.StaysDead
  generalize begin crypto now id salt request = point
    at hBegins ⊢
  cases hBegins with
  | create hNone => cases hToken.symm.trans hNone
  | find hNone => cases hToken.symm.trans hNone
  | reject => exact .inl ⟨_, rfl⟩
  | check hPresented hDecode =>
      cases hToken.symm.trans hPresented
      refine .inr ⟨_, .check, ?_⟩
      rw [hPresented]
      exact hNot _ hDecode
  | read hPresented hDecode =>
      cases hToken.symm.trans hPresented
      refine .inr ⟨_, .read, ?_⟩
      rw [hPresented]
      exact hNot _ hDecode

/- No request starts with a deletion. -/
theorem deleting_start
    (st : Stores τ)
    (request : Request τ)
    (now : Int)
    (id salt : String) :
    (Handler.start crypto st request now id
        salt).point.deleting = none := by
  have hBegins := begins crypto now id salt request
  unfold Handler.start
  generalize begin crypto now id salt request = point
    at hBegins ⊢
  cases hBegins <;> rfl

/- A deletion follows the read of the same session. -/
theorem reading_of_deleting_answer
    {st : Stores τ}
    {request : Request τ}
    {now : Int}
    {id playerId : String}
    {point : Point τ}
    (hDeleting :
      (answer crypto settings st request now id
        point).deleting = some playerId) :
    point.reading = some playerId := by
  cases point with
  | createPlayer player =>
      simp only [answer] at hDeleting
      split at hDeleting <;> cases hDeleting
  | getPlayerByUsername username password =>
      simp only [answer] at hDeleting
      split at hDeleting
      · cases hDeleting
      · split at hDeleting <;> cases hDeleting
  | storeSession pid sid token => cases hDeleting
  | storePlayerSession pid sid token => cases hDeleting
  | checkSession pid =>
      simp only [answer] at hDeleting
      split at hDeleting
      · split at hDeleting <;> cases hDeleting
      · cases hDeleting
  | getPlayer pid =>
      simp only [answer] at hDeleting
      split at hDeleting <;> cases hDeleting
  | readSession pid => exact hDeleting
  | deleteKeys pid sid => cases hDeleting
  | done response => cases hDeleting

/- A handler that did not move. -/
theorem heedsAlone_kept
    {act : Act τ}
    (hHeeds : Heeds s)
    (hHeeded : Heeded s act)
    (hStep : step crypto settings s act = some t)
    {h : Handler τ}
    (hMem : h ∈ s.handlers) :
    h.HeedsAlone t.sessions where
  presents := hHeeds.presents h hMem
  dead := staysDead_step hHeeds hHeeded hStep hMem
  deleting := fun playerId hPoint =>
    deleting_step hHeeded hStep hMem hPoint
      (hHeeds.deleting h hMem playerId hPoint)

/- A request that starts. -/
theorem heedsAlone_start
    (request : Request τ)
    (now : Int)
    (id salt : String) :
    Handler.HeedsAlone s.sessions
      (.start crypto s.stores request now id salt) where
  presents := fun hOver => (staysDead_start hOver).1
  dead := fun hOver => (staysDead_start hOver).2
  deleting := by
    intro playerId hPoint
    rw [deleting_start] at hPoint
    cases hPoint

/- A request whose call has returned. -/
theorem heedsAlone_answer
    {h : Handler τ}
    (hHeeds : Heeds s)
    (hMem : h ∈ s.handlers)
    (hReads : ReadsOwn s h)
    (now : Int)
    (id : String) :
    Handler.HeedsAlone (s.stores.apply h.point).sessions
      { h with
        point :=
          answer crypto settings s.stores h.request now id
            h.point } where
  presents := hHeeds.presents h hMem
  dead := by
    intro hOver
    have hStays := hHeeds.dead h hMem hOver
    have hSame :
        (s.stores.apply h.point).sessions = s.sessions :=
      sessions_apply_of_dead hStays (hHeeds.deleting h hMem)
    rw [hSame]
    exact staysDead_answer hReads hStays
  deleting := by
    intro playerId hPoint
    have hReading := reading_of_deleting_answer hPoint
    have hSame :
        (s.stores.apply h.point).sessions = s.sessions := by
      cases hRead : h.point with
      | readSession pid => rfl
      | _ =>
          rw [hRead] at hReading
          cases hReading
    rw [hSame]
    exact hReads playerId hReading

omit [DecidableEq τ] in
/- A request whose call has raised. -/
theorem heedsAlone_raise
    {h : Handler τ}
    (hHeeds : Heeds s)
    (hMem : h ∈ s.handlers)
    (r : Sessions τ) :
    Handler.HeedsAlone r
      { h with point := .done serverError } where
  presents := hHeeds.presents h hMem
  dead := fun _ => .inl ⟨_, rfl⟩
  deleting := by
    intro playerId hPoint
    cases hPoint

theorem heeds_step
    {act : Act τ}
    (hHeeds : Heeds s)
    (hHeeded : Heeded s act)
    (hStep : step crypto settings s act = some t) :
    Heeds t := by
  have hKept :
      ∀ h ∈ s.handlers, h.HeedsAlone t.sessions :=
    fun h hMem =>
      heedsAlone_kept hHeeds hHeeded hStep hMem
  apply
    heeds_of_handlers
      (distinct_step hHeeds.distinct hHeeded hStep)
  cases steps_of_step hStep with
  | begin hFresh =>
      intro h hMem
      rcases List.mem_append.mp hMem with hOld | hNew
      · exact hKept h hOld
      · rw [List.mem_singleton.mp hNew]
        exact heedsAlone_start _ _ _ _
  | @ok k now id h hFresh hHandler hWaits =>
      have hReads : ReadsOwn s h :=
        (hHeeded h (by rw [State.served, hHandler]; rfl)).1
      intro r hMem
      rcases List.mem_or_eq_of_mem_set hMem with hOld | rfl
      · exact hKept r hOld
      · exact
          heedsAlone_answer hHeeds
            (List.mem_of_getElem? hHandler) hReads now id
  | @raise k applied h hHandler =>
      intro r hMem
      rcases List.mem_or_eq_of_mem_set hMem with hOld | rfl
      · exact hKept r hOld
      · exact
          heedsAlone_raise hHeeds
            (List.mem_of_getElem? hHandler) _
  | expireSession => exact hKept
  | expirePlayerSession => exact hKept

end Auth

------------------------------------------------------------
-- Dead Tokens
------------------------------------------------------------

namespace Auth

variable {τ : Type}
variable {s : State τ}

/- A call ends the session of a player by deleting it. -/
theorem deleting_of_ended
    {st : Stores τ}
    {point : Point τ}
    {playerId : String}
    {doc : PlayerSession τ}
    (hDoc : st.sessions.playerSession playerId = some doc)
    (hNone :
      (st.apply point).sessions.playerSession playerId =
        none) :
    point.deleting = some playerId := by
  cases point with
  | createPlayer player =>
      simp only [Stores.apply] at hNone
      split at hNone <;> cases hDoc.symm.trans hNone
  | storePlayerSession pid sid token =>
      by_cases hSame : playerId = pid
      · subst hSame
        simp [Stores.apply, Sessions.storePlayerSession]
          at hNone
      · simp [Stores.apply, Sessions.storePlayerSession,
          Function.update_of_ne hSame, hDoc] at hNone
  | deleteKeys pid sid =>
      by_cases hSame : playerId = pid
      · rw [hSame]
        rfl
      · simp [Stores.apply, Sessions.deleteKeys,
          Function.update_of_ne hSame, hDoc] at hNone
  | _ => cases hDoc.symm.trans hNone

/- A call ends a session by deleting its key. -/
theorem deleteKeys_of_ended
    {st : Stores τ}
    {point : Point τ}
    {sessionId : String}
    {doc : SessionDoc τ}
    (hDoc : st.sessions.session sessionId = some doc)
    (hNone :
      (st.apply point).sessions.session sessionId = none) :
    ∃ playerId,
      point = .deleteKeys playerId (some sessionId) := by
  cases point with
  | createPlayer player =>
      simp only [Stores.apply] at hNone
      split at hNone <;> cases hDoc.symm.trans hNone
  | storeSession pid sid token =>
      by_cases hSame : sessionId = sid
      · subst hSame
        simp [Stores.apply, Sessions.storeSession] at hNone
      · simp [Stores.apply, Sessions.storeSession,
          Function.update_of_ne hSame, hDoc] at hNone
  | deleteKeys pid sid =>
      cases sid with
      | none => cases hDoc.symm.trans hNone
      | some sid =>
          by_cases hSame : sessionId = sid
          · exact ⟨pid, by rw [hSame]⟩
          · simp [Stores.apply, Sessions.deleteKeys,
              Function.update_of_ne hSame, hDoc] at hNone
  | _ => cases hDoc.symm.trans hNone

/- The deletion of a logout ends its own session. -/
theorem endsOnly_apply
    {h : Handler τ}
    (hHeeds : Heeds s)
    (hMem : h ∈ s.handlers)
    {token : τ}
    (hToken : h.request.token = some token) :
    EndsOnly token s.sessions
      (s.stores.apply h.point).sessions := by
  constructor
  · intro playerId doc hDoc hNone
    have hDeleting := deleting_of_ended hDoc hNone
    have hOwn := hHeeds.deleting h hMem playerId hDeleting
    rw [Sessions.currentToken, hDoc, hToken] at hOwn
    rcases hOwn with hNobody | hSame
    · cases hNobody
    · exact Option.some.inj hSame
  · intro sessionId doc hDoc hNone
    rcases deleteKeys_of_ended hDoc hNone with
      ⟨playerId, hPoint⟩
    have hNamed : h.named = some (sessionId, token) := by
      rw [Handler.named, hPoint, hToken]
      rfl
    exact
      hHeeds.distinct.unique sessionId doc.token token
        (.inl (.inl ⟨doc, hDoc, rfl⟩))
        (.inr ⟨h, hMem, hNamed⟩)

/- Where nothing changes, nothing ends. -/
theorem endsOnly_refl
    (token : τ)
    (r : Sessions τ) :
    EndsOnly token r r where
  playerSession := fun _ _ hDoc hNone => by
    cases hDoc.symm.trans hNone
  session := fun _ _ hDoc hNone => by
    cases hDoc.symm.trans hNone

variable [DecidableEq τ]
variable {crypto : Crypto τ}
variable {settings : Settings}
variable {t : State τ}

/- The step of a handler whose call takes effect. -/
theorem powerless_apply
    {act : Act τ}
    {h : Handler τ}
    (hHeeds : Heeds s)
    (hMem : h ∈ s.handlers)
    (hActor : s.actor crypto act = some h)
    (hSessions :
      t.sessions = (s.stores.apply h.point).sessions) :
    Powerless crypto s act t where
  dead := by
    intro r hServed hOver
    cases hActor.symm.trans hServed
    rw [hSessions]
    exact
      sessions_apply_of_dead (hHeeds.dead h hMem hOver)
        (hHeeds.deleting h hMem)
  logout := by
    intro r hServed token hRequest
    cases hActor.symm.trans hServed
    rw [hSessions]
    refine endsOnly_apply hHeeds hMem ?_
    rw [hRequest]
    rfl

/- A step that leaves the sessions gives no token power. -/
theorem powerless_of_eq
    {act : Act τ}
    (hSessions : t.sessions = s.sessions) :
    Powerless crypto s act t where
  dead := fun _ _ _ => hSessions
  logout := by
    intro h _ token _
    rw [hSessions]
    exact endsOnly_refl token s.sessions

/- An expiry is the step of no handler. -/
theorem powerless_of_noone
    {act : Act τ}
    (hNoone : s.actor crypto act = none) :
    Powerless crypto s act t where
  dead := by
    intro h hActor
    rw [hNoone] at hActor
    cases hActor
  logout := by
    intro h hActor
    rw [hNoone] at hActor
    cases hActor

theorem powerless_step
    {act : Act τ}
    (hHeeds : Heeds s)
    (hStep : step crypto settings s act = some t) :
    Powerless crypto s act t := by
  cases steps_of_step hStep with
  | begin hFresh => exact powerless_of_eq rfl
  | @ok k now id h hFresh hHandler hWaits =>
      exact
        powerless_apply hHeeds
          (List.mem_of_getElem? hHandler) hHandler rfl
  | @raise k applied h hHandler =>
      cases applied with
      | false => exact powerless_of_eq rfl
      | true =>
          exact
            powerless_apply hHeeds
              (List.mem_of_getElem? hHandler) hHandler rfl
  | expireSession => exact powerless_of_noone rfl
  | expirePlayerSession => exact powerless_of_noone rfl

/-
  If logouts read the session of their own token and no
  session is stored between the two calls of a logout, then
  a dead token has no power.
-/
theorem dead_token_powerless
    (crypto : Crypto τ)
    (settings : Settings)
    (s t : State τ)
    (act : Act τ)
    (hRun :
      Machine.Reaches (step crypto settings) Heeded
        State.empty s)
    (hStep : step crypto settings s act = some t) :
    Powerless crypto s act t := by
  have hHeeds : Heeds s :=
    hRun.invariant heeds_empty heeds_step
  exact powerless_step hHeeds hStep

end Auth

------------------------------------------------------------
-- Two Sessions
------------------------------------------------------------

namespace Auth

open Machine (Reachable reachable_of_run)
open Machine (reaches_of_run run_eq_final final)

/- `ann` registers, logs in again, and logs out. -/
def loginTwice (second : Int) : List (Act Payload) :=
  [.begin (.register "ann" "secret") 10000000 "p" "salt"] ++
    calls 0 10000000 ["session-1", "u1", "u2"] ++
    [.begin (.login "ann" "secret") 12000000 "u3" ""] ++
    calls 1 12000000 ["session-2", "u4", "u5"] ++
    [.begin (.logout (annToken second)) 14000000 "u6" ""] ++
    calls 2 14000000 ["u7"]

/- The logout is about to delete the second session. -/
def ownLogout : State Payload :=
  final (step plainCrypto {}) State.empty (loginTwice 12)
    (by decide)

def oldLogout : State Payload :=
  final (step plainCrypto {}) State.empty (loginTwice 10)
    (by decide)

def deleteSession : Act Payload :=
  .ok 2 14000000 "u8"

/- The states after the deletion. -/
def afterOwnLogout : State Payload :=
  (step plainCrypto {} ownLogout deleteSession).get
    (by decide)

def afterOldLogout : State Payload :=
  (step plainCrypto {} oldLogout deleteSession).get
    (by decide)

theorem dead_token_powerless_ownLogout :
    ownLogout.sessions.currentToken "p" =
        some (annToken 12) ∧
      afterOwnLogout.sessions.currentToken "p" = none ∧
      Powerless plainCrypto ownLogout deleteSession
        afterOwnLogout :=
  ⟨by decide, by decide,
    dead_token_powerless plainCrypto {} ownLogout
      afterOwnLogout deleteSession
      (reaches_of_run (run_eq_final (by decide))
        (by decide))
      (Option.some_get _).symm⟩

/- A superseded token ends the current session. -/
theorem superseded_token_logs_out :
    Reachable (step plainCrypto {}) State.empty oldLogout ∧
      step plainCrypto {} oldLogout deleteSession =
        some afterOldLogout ∧
      ¬ Powerless plainCrypto oldLogout deleteSession
        afterOldLogout := by
  refine
    ⟨reachable_of_run (run_eq_final (by decide)),
      (Option.some_get _).symm, ?_⟩
  intro hPowerless
  have hEnds :=
    hPowerless.logout _ rfl (annToken 10) rfl
  have hToken :
      annToken 12 = annToken 10 :=
    hEnds.playerSession "p" ⟨"session-2", annToken 12⟩
      (by decide) (by decide)
  revert hToken
  decide

end Auth
