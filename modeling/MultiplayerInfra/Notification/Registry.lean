import MultiplayerInfra.Notification.Service

/-
  Whether the registry has the socket that a player
  subscribed last, while that socket is open.

  Key definitions include:
    * `Notification.NewestNotified`
    * `Notification.pops`
    * `Notification.SparesNewest`
    * `Notification.Moves`

  Key theorems include:
    * `Notification.moves_of_step`
    * `Notification.newestNotified_step`
    * `Notification.newest_notified_iff`

  An entry is removed for a socket of the player: the one
  whose disconnect is handled, or the one to which a send
  failed.  The entry may be that of a later socket.
-/

------------------------------------------------------------
-- The Condition
------------------------------------------------------------

namespace Notification

open Py

/-
  The registry maps a player to the socket subscribed last,
  while it is open, and a dispatch that comes to the player
  sends to it.
-/
def NewestNotified (s : State) : Prop :=
  ∀ playerId k,
    newest s playerId = some k →
      s.isOpen k = true →
        s.clientConnections.get? playerId = some k ∧
          ∀ message playerIds rest,
            (s.sendNext message playerIds
                (playerId :: rest)).sent =
              s.sent ++ [(k, message)]

/-
  The player whose entry a step removes, the socket it is
  removed for, and whether that socket is closed then.
-/
def pops
    (s : State) : Act → Option (String × Nat × Bool)
| .received k .disconnected =>
    match s.handlers k with
    | .receiving playerId => some (playerId, k, true)
    | _ => none
| .send (.failed closed) =>
    match s.dispatch with
    | some (.sending _ _ playerId socket _) =>
        some (playerId, socket, closed)
    | _ => none
| _ => none

/-
  An entry is removed only if the newest socket of the
  player is not open, or is the one that closes.
-/
def SparesNewest
    (s : State)
    (act : Act) : Prop :=
  ∀ e ∈ pops s act, ∀ k ∈ newest s e.1,
    s.isOpen k = true → k = e.2.1 ∧ e.2.2 = true

instance
    (s : State)
    (act : Act) :
    Decidable (SparesNewest s act) :=
  inferInstanceAs (Decidable
    (∀ e ∈ pops s act, ∀ k ∈ newest s e.1,
      s.isOpen k = true → k = e.2.1 ∧ e.2.2 = true))

end Notification

------------------------------------------------------------
-- What a Step Does
------------------------------------------------------------

namespace Notification

open Py

/- What concerns the registry and the sockets. -/
structure SameRegistry (s t : State) : Prop where
  connections : t.clientConnections = s.clientConnections
  handlers : t.handlers = s.handlers
  isOpen : t.isOpen = s.isOpen
  subscribed : t.subscribed = s.subscribed

theorem SameRegistry.refl (s : State) : SameRegistry s s :=
  ⟨rfl, rfl, rfl, rfl⟩

theorem SameRegistry.trans
    {s t u : State}
    (hFirst : SameRegistry s t)
    (hSecond : SameRegistry t u) :
    SameRegistry s u where
  connections :=
    hSecond.connections.trans hFirst.connections
  handlers := hSecond.handlers.trans hFirst.handlers
  isOpen := hSecond.isOpen.trans hFirst.isOpen
  subscribed := hSecond.subscribed.trans hFirst.subscribed

/- Dispatching changes only what is under way and sent. -/
theorem sameRegistry_sendNext
    (s : State)
    (message : Message)
    (playerIds rest : List String) :
    SameRegistry s (s.sendNext message playerIds rest) := by
  induction rest with
  | nil =>
      unfold State.sendNext State.publishNext
      split <;> exact ⟨rfl, rfl, rfl, rfl⟩
  | cons playerId rest ih =>
      unfold State.sendNext
      split
      · exact ih
      · exact ⟨rfl, rfl, rfl, rfl⟩

theorem sameRegistry_consume
    (s : State)
    (body : Body) :
    SameRegistry s (s.consume body) := by
  have hCounted :
      SameRegistry s
        (s.noteExpired (body.event.getD "unknown")) := by
    unfold State.noteExpired
    split <;> exact ⟨rfl, rfl, rfl, rfl⟩
  exact hCounted.trans (sameRegistry_sendNext _ _ _ _)

/- The kinds of steps, as far as the registry goes. -/
inductive Moves (s : State) : Act → State → Prop where
  -- sockets may close and handlers may go on
  | quiet {act : Act} {t : State}
      (hPops : pops s act = none)
      (hConnections :
        t.clientConnections = s.clientConnections)
      (hSubscribed : t.subscribed = s.subscribed)
      (hOpen :
        ∀ k, t.isOpen k = true → s.isOpen k = true)
      (hHandlers :
        ∀ k, s.handlers k ≠ .absent →
          t.handlers k ≠ .absent) :
      Moves s act t
  | connect {k : Nat}
      (hAbsent : s.handlers k = .absent) :
      Moves s (.connect k)
        { s with
          handlers :=
            Function.update s.handlers k .awaitingToken
          isOpen := Function.update s.isOpen k true }
  | subscribe {k : Nat} {playerId : String}
      (hValidating : s.handlers k = .validating) :
      Moves s (.validated k (.valid playerId))
        (s.subscribe k playerId)
  | removes
      {act : Act} {t : State} {playerId : String}
      {k : Nat} {closed : Bool}
      (hPops : pops s act = some (playerId, k, closed))
      (hConnections :
        t.clientConnections =
          s.clientConnections.pop playerId)
      (hSubscribed : t.subscribed = s.subscribed)
      (hOpen :
        ∀ k', t.isOpen k' = true ↔
          s.isOpen k' = true ∧ ¬ (k' = k ∧ closed = true))
      (hHandlers :
        ∀ k, s.handlers k ≠ .absent →
          t.handlers k ≠ .absent) :
      Moves s act t

variable {s t : State}
variable {act : Act}

/- A step that only goes on with the dispatch. -/
theorem moves_of_sameRegistry
    (hPops : pops s act = none)
    (hSame : SameRegistry s t) :
    Moves s act t := by
  refine
    .quiet hPops hSame.connections hSame.subscribed ?_ ?_
  · intro k hOpen
    rw [hSame.isOpen] at hOpen
    exact hOpen
  · intro k hUsed
    rw [hSame.handlers]
    exact hUsed

/- A handler that goes on is not absent. -/
theorem update_ne_absent
    {handlers : Nat → Handler}
    {k : Nat}
    {handler : Handler}
    (hNe : handler ≠ .absent)
    (k' : Nat)
    (hUsed : handlers k' ≠ .absent) :
    Function.update handlers k handler k' ≠ .absent := by
  by_cases hSame : k' = k
  · rw [hSame, Function.update_self]
    exact hNe
  · rw [Function.update_of_ne hSame]
    exact hUsed

/- Closing a socket opens none. -/
theorem update_false_iff
    {isOpen : Nat → Bool}
    {k : Nat}
    (k' : Nat) :
    Function.update isOpen k false k' = true ↔
      isOpen k' = true ∧ k' ≠ k := by
  by_cases hSame : k' = k
  · simp [hSame]
  · simp [hSame]

/- A handler that ends without removing an entry. -/
theorem moves_endHandler
    {k : Nat}
    (hPops : pops s act = none) :
    Moves s act (s.endHandler k) :=
  .quiet hPops rfl rfl
    (fun k' hOpen => ((update_false_iff k').mp hOpen).1)
    (update_ne_absent (by simp))

/- Every step is of one of the kinds. -/
theorem moves_of_step
    (hStep : step s act = some t) :
    Moves s act t := by
  cases act with
  | connect k =>
      simp only [step] at hStep
      split at hStep
      · rename_i hAbsent
        cases hStep
        exact .connect hAbsent
      · cases hStep
  | token k reply =>
      simp only [step] at hStep
      split at hStep
      · cases reply with
        | token =>
            cases hStep
            exact
              .quiet rfl rfl rfl (fun _ hOpen => hOpen)
                (update_ne_absent (by simp))
        | refused =>
            cases hStep
            exact moves_endHandler rfl
      · cases hStep
  | validated k reply =>
      simp only [step] at hStep
      split at hStep
      · rename_i hValidating
        cases reply with
        | valid playerId =>
            cases hStep
            exact .subscribe hValidating
        | refused =>
            cases hStep
            exact moves_endHandler rfl
      · cases hStep
  | drop k =>
      cases hStep
      exact
        .quiet rfl rfl rfl
          (fun k' hOpen => ((update_false_iff k').mp hOpen).1)
          (fun _ hUsed => hUsed)
  | received k reply =>
      simp only [step] at hStep
      split at hStep
      · cases hStep
        exact moves_of_sameRegistry rfl (.refl s)
      · rename_i playerId hHandler
        cases hStep
        have hPops :
            pops s (.received k .disconnected) =
              some (playerId, k, true) := by
          simp [pops, hHandler]
        refine
          .removes hPops rfl rfl ?_
            (update_ne_absent (by simp))
        intro k'
        exact (update_false_iff k').trans (by simp)
      · cases hStep
        exact moves_endHandler rfl
      · cases hStep
  | consume body =>
      simp only [step] at hStep
      split at hStep
      · cases hStep
        exact
          moves_of_sameRegistry rfl
            (sameRegistry_consume s body)
      · cases hStep
  | send reply =>
      simp only [step] at hStep
      split at hStep
      · cases hStep
        exact
          moves_of_sameRegistry rfl
            (sameRegistry_sendNext _ _ _ _)
      · rename_i message playerIds playerId socket rest
          closed hDispatch
        cases hStep
        have hPops :
            pops s (.send (.failed closed)) =
              some (playerId, socket, closed) := by
          simp [pops, hDispatch]
        have hSame :=
          sameRegistry_sendNext (s.failSend playerId socket closed)
            message playerIds rest
        refine
          .removes hPops hSame.connections hSame.subscribed ?_
            ?_
        · intro k'
          rw [hSame.isOpen]
          cases closed with
          | false => simp [State.failSend, State.pop]
          | true => exact (update_false_iff k').trans (by simp)
        · intro k' hUsed
          rw [hSame.handlers]
          exact hUsed
      · cases hStep
  | publish raises =>
      simp only [step] at hStep
      split at hStep
      · split at hStep
        · cases hStep
          exact
            moves_of_sameRegistry rfl ⟨rfl, rfl, rfl, rfl⟩
        · cases hStep
          refine moves_of_sameRegistry rfl ?_
          unfold State.publishNext
          split <;> exact ⟨rfl, rfl, rfl, rfl⟩
      · cases hStep

end Notification

------------------------------------------------------------
-- The Newest Socket
------------------------------------------------------------

namespace Notification

open Py

/- The registry has the newest socket while it is open. -/
def Follows (s : State) : Prop :=
  ∀ playerId k,
    newest s playerId = some k →
      s.isOpen k = true →
        s.clientConnections.get? playerId = some k

/- A dispatch sends to the entry that it finds. -/
theorem newestNotified_iff
    (s : State) :
    NewestNotified s ↔ Follows s := by
  constructor
  · intro hNotified playerId k hNewest hOpen
    exact (hNotified playerId k hNewest hOpen).1
  · intro hFollows playerId k hNewest hOpen
    have hEntry := hFollows playerId k hNewest hOpen
    refine ⟨hEntry, ?_⟩
    intro message playerIds rest
    rw [State.sendNext, hEntry]

/- A socket that subscribed has a handler. -/
def Used (s : State) : Prop :=
  ∀ e ∈ s.subscribed, s.handlers e.2 ≠ .absent

theorem used_newest
    {s : State}
    (hUsed : Used s)
    {playerId : String}
    {k : Nat}
    (hNewest : newest s playerId = some k) :
    s.handlers k ≠ .absent := by
  have hMem := List.mem_of_getLast? hNewest
  rcases List.mem_filterMap.mp hMem with ⟨e, hIn, hGrant⟩
  split at hGrant
  · cases hGrant
    exact hUsed e hIn
  · cases hGrant

theorem newest_subscribe
    (s : State)
    (k : Nat)
    (playerId playerId' : String) :
    newest (s.subscribe k playerId) playerId' =
      if playerId' = playerId then some k
      else newest s playerId' := by
  unfold newest State.subscribe
  by_cases hSame : playerId = playerId'
  · subst hSame
    rw [if_pos rfl]
    exact History.holder_concat_of_some (if_pos rfl)
  · rw [if_neg (Ne.symm hSame)]
    exact History.holder_concat_of_none (if_neg hSame)

variable {s t : State}
variable {act : Act}

/- Handlers are not taken back. -/
theorem used_move
    (hUsed : Used s)
    (hMoves : Moves s act t) :
    Used t := by
  cases hMoves with
  | quiet _ _ hSubscribed _ hHandlers =>
      intro e hMem
      rw [hSubscribed] at hMem
      exact hHandlers _ (hUsed e hMem)
  | connect _ =>
      intro e hMem
      exact update_ne_absent (by simp) _ (hUsed e hMem)
  | @subscribe k playerId _ =>
      intro e hMem
      rcases List.mem_append.mp hMem with hOld | hNew
      · exact update_ne_absent (by simp) _ (hUsed e hOld)
      · rw [List.mem_singleton.mp hNew]
        simp [State.subscribe]
  | removes _ _ hSubscribed _ hHandlers =>
      intro e hMem
      rw [hSubscribed] at hMem
      exact hHandlers _ (hUsed e hMem)

/-
  Where the registry follows the newest sockets, it goes on
  to do so exactly when the step spares them.
-/
theorem follows_move
    (hUsed : Used s)
    (hFollows : Follows s)
    (hMoves : Moves s act t) :
    Follows t ↔ SparesNewest s act := by
  unfold SparesNewest
  cases hMoves with
  | quiet hPops hConnections hSubscribed hOpen _ =>
      rw [hPops]
      refine iff_of_true ?_ (by simp)
      intro playerId k hNewest hStill
      rw [newest, hSubscribed] at hNewest
      rw [hConnections]
      exact hFollows playerId k hNewest (hOpen k hStill)
  | @connect k hAbsent =>
      refine iff_of_true ?_ (by simp [pops])
      intro playerId k' hNewest hStill
      have hOther : k' ≠ k := by
        rintro rfl
        exact used_newest hUsed hNewest hAbsent
      refine hFollows playerId k' hNewest ?_
      simpa [Function.update_of_ne hOther] using hStill
  | @subscribe k playerId _ =>
      refine iff_of_true ?_ (by simp [pops])
      intro playerId' k' hNewest hStill
      rw [newest_subscribe] at hNewest
      refine (Dict.get?_set _ _ _ _).trans ?_
      split at hNewest
      · rename_i hSame
        rw [if_pos hSame]
        exact hNewest
      · rename_i hOther
        rw [if_neg hOther]
        exact hFollows playerId' k' hNewest hStill
  | @removes _ _ playerId k closed hPops hConnections
      hSubscribed hOpen _ =>
      rw [hPops]
      have hNewest :
          ∀ playerId', newest t playerId' =
            newest s playerId' := by
        intro playerId'
        rw [newest, newest, hSubscribed]
      simp only [Option.mem_def, Option.some.injEq,
        forall_eq']
      constructor
      · intro hNext k' hLast hStill
        by_contra hOther
        have hEntry :=
          hNext playerId k' ((hNewest _).trans hLast)
            ((hOpen k').mpr ⟨hStill, hOther⟩)
        rw [hConnections, Dict.get?_pop, if_pos rfl]
          at hEntry
        cases hEntry
      · intro hSpares playerId' k' hLast hStill
        rw [hNewest] at hLast
        rcases (hOpen k').mp hStill with ⟨hOld, hNot⟩
        rw [hConnections, Dict.get?_pop]
        split
        · rename_i hSame
          subst hSame
          exact absurd (hSpares k' hLast hOld) hNot
        · exact hFollows playerId' k' hLast hOld

end Notification

------------------------------------------------------------
-- Runs
------------------------------------------------------------

namespace Notification

open Py

/-
  In every run, all states notify the newest open sockets
  exactly when every step spares them.
-/
theorem newest_notified_iff
    (acts : List Act)
    (t : State)
    (hRun : Machine.run step State.empty acts = some t) :
    Machine.AllSteps step
        (fun s act =>
          ∀ t, step s act = some t → NewestNotified t)
        State.empty acts ↔
      Machine.AllSteps step SparesNewest State.empty acts := by
  have hUsed : Used State.empty := by
    intro e hMem
    cases hMem
  have hFirst : NewestNotified State.empty := by
    intro playerId k hNewest _
    cases hNewest
  refine
    Machine.always_iff_allSteps hRun hUsed hFirst ?_
  intro s t act hUsed hNotified hStep
  have hMoves := moves_of_step hStep
  refine ⟨used_move hUsed hMoves, ?_⟩
  rw [newestNotified_iff]
  exact
    follows_move hUsed ((newestNotified_iff s).mp hNotified)
      hMoves

/- Ann subscribes a socket. -/
def subscribes (k : Nat) : List Act :=
  [.connect k, .token k .token, .validated k (.valid "ann")]

/- She has a second one, and then closes it. -/
def closesSecond : List Act :=
  subscribes 0 ++ subscribes 1 ++
    [.drop 1, .received 1 .disconnected]

theorem newest_notified_closesSecond :
    Machine.AllSteps step
      (fun s act =>
        ∀ t, step s act = some t → NewestNotified t)
      State.empty closesSecond :=
  (newest_notified_iff closesSecond _
    (Machine.run_eq_final rfl)).mpr (by decide)

/- She reconnects before the old disconnect is handled. -/
def lateDisconnect : List Act :=
  subscribes 0 ++ [.drop 0] ++ subscribes 1 ++
    [.received 0 .disconnected]

/- `match.found` for Ann. -/
def matchFound : Body where
  event := some "match.found"
  playerIds := some ["ann"]
  roomId := some "arena"

/- She reconnects while a send to the old socket is tried. -/
def lateFailure : List Act :=
  subscribes 0 ++ [.consume matchFound, .drop 0] ++
    subscribes 1 ++ [.send (.failed true)]

/- The newest socket is open, and the registry lost it. -/
theorem newest_forgotten :
    (∃ hRuns,
      ¬ NewestNotified
        (Machine.final step State.empty lateDisconnect
          hRuns)) ∧
      ∃ hRuns,
        ¬ NewestNotified
          (Machine.final step State.empty lateFailure
            hRuns) := by
  refine ⟨⟨rfl, ?_⟩, rfl, ?_⟩
  · intro hNotified
    exact absurd (hNotified "ann" 1 rfl rfl).1 (by decide)
  · intro hNotified
    exact absurd (hNotified "ann" 1 rfl rfl).1 (by decide)

end Notification
