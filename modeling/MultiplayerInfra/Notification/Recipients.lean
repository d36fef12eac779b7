import MultiplayerInfra.Notification.Service

/-
  Whom the notification service sends to: a message goes out
  on sockets that players it lists have subscribed.

  Key definitions include:
    * `Notification.Body.recipients`
    * `Notification.MadeOf`
    * `Notification.Addressed`

  Key theorems include:
    * `Notification.addressed_sendNext`
    * `Notification.addressed_step`

  A socket is subscribed for one player.  An entry of the
  registry may be out of date, but it is never of another
  player.
-/

------------------------------------------------------------
-- The Invariant
------------------------------------------------------------

namespace Notification

open Py

/- `player_ids`. -/
def Body.recipients (body : Body) : List String :=
  body.playerIds.getD []

/- The message is what `dispatch` makes of a known body. -/
structure MadeOf
    (bodies : List Body)
    (message : Message) : Prop where
  known : message.payload ∈ bodies
  event : message.event = message.payload.event.getD "unknown"

/- The handler has subscribed its socket. -/
def Handler.past : Handler → Prop
| .receiving _ => True
| .returned => True
| _ => False

/- What remains to be sent is for players it lists. -/
def Dispatch.Fits (bodies : List Body) : Dispatch → Prop
| .sending message playerIds _ _ rest =>
    MadeOf bodies message ∧
      playerIds = message.payload.recipients ∧
        rest ⊆ playerIds
| .publishing message _ => MadeOf bodies message

/- A send is to a player whom the message lists. -/
def Listed
    (subscribed : List (String × Nat))
    (bodies : List Body)
    (e : Nat × Message) : Prop :=
  MadeOf bodies e.2 ∧
    ∃ playerId ∈ e.2.payload.recipients,
      (playerId, e.1) ∈ subscribed

structure Addressed
    (bodies : List Body)
    (s : State) : Prop where
  entries :
    ∀ playerId k, s.clientConnections.get? playerId = some k →
      (playerId, k) ∈ s.subscribed
  past :
    ∀ playerId k, (playerId, k) ∈ s.subscribed →
      (s.handlers k).past
  once :
    ∀ playerId playerId' k, (playerId, k) ∈ s.subscribed →
      (playerId', k) ∈ s.subscribed → playerId = playerId'
  dispatch : ∀ d, s.dispatch = some d → d.Fits bodies
  sent : ∀ e ∈ s.sent, Listed s.subscribed bodies e

theorem addressed_empty : Addressed [] State.empty where
  entries := nofun
  past := nofun
  once := nofun
  dispatch := nofun
  sent := nofun

end Notification

------------------------------------------------------------
-- Steps
------------------------------------------------------------

namespace Notification

open Py

variable {bodies bodies' : List Body}
variable {s t : State}
variable {message : Message}

theorem MadeOf.mono
    (hMade : MadeOf bodies message)
    (hSub : bodies ⊆ bodies') :
    MadeOf bodies' message :=
  ⟨hSub hMade.known, hMade.event⟩

/- More bodies are known. -/
theorem Addressed.mono
    (hAddressed : Addressed bodies s)
    (hSub : bodies ⊆ bodies') :
    Addressed bodies' s where
  entries := hAddressed.entries
  past := hAddressed.past
  once := hAddressed.once
  dispatch := by
    intro d hDispatch
    have hFits := hAddressed.dispatch d hDispatch
    cases d with
    | sending message playerIds playerId socket rest =>
        exact ⟨hFits.1.mono hSub, hFits.2⟩
    | publishing message rest => exact hFits.mono hSub
  sent := fun e hMem =>
    (hAddressed.sent e hMem).imp_left (·.mono hSub)

/- A handler that has subscribed does not start again. -/
theorem past_update
    {handlers : Nat → Handler}
    {k : Nat}
    {handler : Handler}
    (hPast : ¬ (handlers k).past ∨ handler.past)
    (k' : Nat)
    (hBefore : (handlers k').past) :
    (Function.update handlers k handler k').past := by
  by_cases hSame : k' = k
  · rw [hSame, Function.update_self]
    exact hPast.resolve_left (not_not.mpr (hSame ▸ hBefore))
  · rw [Function.update_of_ne hSame]
    exact hBefore

/- The registry may lose entries, and handlers go on. -/
theorem Addressed.frame
    (hAddressed : Addressed bodies s)
    (hEntries :
      ∀ playerId k,
        t.clientConnections.get? playerId = some k →
          s.clientConnections.get? playerId = some k)
    (hPast : ∀ k, (s.handlers k).past → (t.handlers k).past)
    (hSubscribed : t.subscribed = s.subscribed)
    (hDispatch : ∀ d, t.dispatch = some d → d.Fits bodies)
    (hSent : t.sent = s.sent) :
    Addressed bodies t where
  entries := by
    intro playerId k hEntry
    rw [hSubscribed]
    exact
      hAddressed.entries playerId k (hEntries playerId k hEntry)
  past := by
    intro playerId k hMem
    rw [hSubscribed] at hMem
    exact hPast k (hAddressed.past playerId k hMem)
  once := by
    rw [hSubscribed]
    exact hAddressed.once
  dispatch := hDispatch
  sent := by
    rw [hSent, hSubscribed]
    exact hAddressed.sent

/- The handler of a socket ends. -/
theorem addressed_endHandler
    (hAddressed : Addressed bodies s)
    (k : Nat) :
    Addressed bodies (s.endHandler k) :=
  have hReturned : Handler.past .returned := trivial
  hAddressed.frame (fun _ _ => id)
    (fun _ hPast => past_update (.inr hReturned) _ hPast) rfl
    hAddressed.dispatch rfl

theorem addressed_pop
    (hAddressed : Addressed bodies s)
    (playerId : String) :
    Addressed bodies (s.pop playerId) := by
  refine
    hAddressed.frame ?_ (fun _ => id) rfl hAddressed.dispatch
      rfl
  intro playerId' k hEntry
  rw [State.pop, Dict.get?_pop] at hEntry
  split at hEntry
  · cases hEntry
  · exact hEntry

/- The first subscription of a socket. -/
theorem addressed_subscribe
    {k : Nat}
    (hAddressed : Addressed bodies s)
    (hValidating : s.handlers k = .validating)
    (playerId : String) :
    Addressed bodies (s.subscribe k playerId) := by
  have hFresh : ∀ other, (other, k) ∉ s.subscribed := by
    intro other hMem
    have hPast := hAddressed.past other k hMem
    rw [hValidating] at hPast
    exact hPast
  have hReceiving : (Handler.receiving playerId).past := trivial
  have hMem :
      ∀ {other k'}, (other, k') ∈
          s.subscribed ++ [(playerId, k)] →
        (other, k') ∈ s.subscribed ∨
          other = playerId ∧ k' = k := by
    intro other k' hIn
    simpa using hIn
  refine ⟨?_, ?_, ?_, hAddressed.dispatch, ?_⟩
  · intro other k' hEntry
    rw [State.subscribe, Dict.get?_set] at hEntry
    split at hEntry
    · rename_i hSame
      cases hEntry
      rw [hSame]
      exact List.mem_append_right _ (List.mem_singleton_self _)
    · exact
        List.mem_append_left _ (hAddressed.entries _ _ hEntry)
  · intro other k' hIn
    rcases hMem hIn with hOld | ⟨_, rfl⟩
    · exact
        past_update (.inr hReceiving) k'
          (hAddressed.past other k' hOld)
    · simp only [State.subscribe, Function.update_self]
      exact hReceiving
  · intro other other' k' hIn hIn'
    rcases hMem hIn with hOld | ⟨rfl, rfl⟩
    · rcases hMem hIn' with hOld' | ⟨_, rfl⟩
      · exact hAddressed.once other other' k' hOld hOld'
      · exact absurd hOld (hFresh other)
    · rcases hMem hIn' with hOld' | ⟨rfl, _⟩
      · exact absurd hOld' (hFresh other')
      · rfl
  · intro e hSent
    rcases hAddressed.sent e hSent with
      ⟨hMade, other, hListed, hOld⟩
    exact
      ⟨hMade, other, hListed, List.mem_append_left _ hOld⟩

/- The loop of `dispatch` over the sockets. -/
theorem addressed_sendNext
    {rest : List String}
    (hAddressed : Addressed bodies s)
    (hMade : MadeOf bodies message)
    (hRest : rest ⊆ message.payload.recipients) :
    Addressed bodies
      (s.sendNext message message.payload.recipients
        rest) := by
  induction rest with
  | nil =>
      rw [State.sendNext]
      cases message.payload.recipients with
      | nil =>
          exact
            hAddressed.frame (fun _ _ => id) (fun _ => id) rfl
              nofun rfl
      | cons playerId others =>
          refine
            hAddressed.frame (fun _ _ => id) (fun _ => id) rfl
              ?_ rfl
          rintro d ⟨⟩
          exact hMade
  | cons playerId rest ih =>
      have hLater := List.subset_of_cons_subset hRest
      rw [State.sendNext]
      split
      · exact ih hLater
      · rename_i socket hEntry
        have hSubscribed :=
          hAddressed.entries playerId socket hEntry
        refine
          ⟨hAddressed.entries, hAddressed.past,
            hAddressed.once, ?_, ?_⟩
        · rintro d ⟨⟩
          exact ⟨hMade, rfl, hLater⟩
        · intro e hMem
          rcases List.mem_append.mp hMem with hOld | hNew
          · exact hAddressed.sent e hOld
          · rw [List.mem_singleton.mp hNew]
            exact
              ⟨hMade, playerId, hRest List.mem_cons_self,
                hSubscribed⟩

/- A message of the queue is taken. -/
theorem addressed_consume
    {body : Body}
    (hAddressed : Addressed bodies s)
    (hKnown : body ∈ bodies) :
    Addressed bodies (s.consume body) := by
  have hCounted :
      Addressed bodies
        (s.noteExpired (body.event.getD "unknown")) := by
    unfold State.noteExpired
    split
    · exact
        hAddressed.frame (fun _ _ => id) (fun _ => id) rfl
          hAddressed.dispatch rfl
    · exact hAddressed
  have hMade :
      MadeOf bodies
        { event := body.event.getD "unknown"
          payload := body } :=
    ⟨hKnown, rfl⟩
  exact
    addressed_sendNext hCounted hMade (List.Subset.refl _)

/- Only known bodies are taken from the queue. -/
theorem addressed_step
    {act : Act}
    (hAddressed : Addressed bodies s)
    (hKnown : ∀ body, act = .consume body → body ∈ bodies)
    (hStep : step s act = some t) :
    Addressed bodies t := by
  cases act with
  | connect k =>
      simp only [step] at hStep
      split at hStep
      · rename_i hAbsent
        cases hStep
        refine
          hAddressed.frame (fun _ _ => id)
            (fun k' => past_update (.inl ?_) k') rfl
            hAddressed.dispatch rfl
        rw [hAbsent]
        exact id
      · cases hStep
  | token k reply =>
      simp only [step] at hStep
      split at hStep
      · rename_i hAwaiting
        cases reply with
        | token =>
            cases hStep
            refine
              hAddressed.frame (fun _ _ => id)
                (fun k' => past_update (.inl ?_) k') rfl
                hAddressed.dispatch rfl
            rw [hAwaiting]
            exact id
        | refused =>
            cases hStep
            exact addressed_endHandler hAddressed k
      · cases hStep
  | validated k reply =>
      simp only [step] at hStep
      split at hStep
      · rename_i hValidating
        cases reply with
        | valid playerId =>
            cases hStep
            exact
              addressed_subscribe hAddressed hValidating
                playerId
        | refused =>
            cases hStep
            exact addressed_endHandler hAddressed k
      · cases hStep
  | drop k =>
      cases hStep
      exact
        hAddressed.frame (fun _ _ => id) (fun _ => id) rfl
          hAddressed.dispatch rfl
  | received k reply =>
      simp only [step] at hStep
      split at hStep
      · cases hStep
        exact hAddressed
      · rename_i playerId _
        cases hStep
        exact
          addressed_pop (addressed_endHandler hAddressed k)
            playerId
      · cases hStep
        exact addressed_endHandler hAddressed k
      · cases hStep
  | consume body =>
      simp only [step] at hStep
      split at hStep
      · cases hStep
        exact addressed_consume hAddressed (hKnown body rfl)
      · cases hStep
  | send reply =>
      simp only [step] at hStep
      split at hStep
      · rename_i hDispatch
        cases hStep
        rcases hAddressed.dispatch _ hDispatch with
          ⟨hMade, rfl, hRest⟩
        exact addressed_sendNext hAddressed hMade hRest
      · rename_i playerId socket rest closed hDispatch
        cases hStep
        rcases hAddressed.dispatch _ hDispatch with
          ⟨hMade, rfl, hRest⟩
        have hFailed :
            Addressed bodies
              (s.failSend playerId socket closed) :=
          (addressed_pop hAddressed playerId).frame
            (fun _ _ => id) (fun _ => id) rfl
            hAddressed.dispatch rfl
        exact addressed_sendNext hFailed hMade hRest
      · cases hStep
  | publish raises =>
      simp only [step] at hStep
      split at hStep
      · rename_i message _ rest hDispatch
        have hMade : MadeOf bodies message :=
          hAddressed.dispatch _ hDispatch
        split at hStep
        · cases hStep
          exact
            hAddressed.frame (fun _ _ => id) (fun _ => id) rfl
              nofun rfl
        · cases hStep
          cases rest with
          | nil =>
              exact
                hAddressed.frame (fun _ _ => id) (fun _ => id)
                  rfl nofun rfl
          | cons playerId rest =>
              refine
                hAddressed.frame (fun _ _ => id) (fun _ => id)
                  rfl ?_ rfl
              rintro d ⟨⟩
              exact hMade
      · cases hStep

end Notification
