import MultiplayerInfra.Matchmaking.Assignments

/-
  How long a lobby waits for a room, and what the scale-up
  deficit counts.

  Key definitions include:
    * `Matchmaking.PassCompletes`
    * `Matchmaking.countPasses`
    * `Matchmaking.Aged`

  Key theorems include:
    * `Matchmaking.mem_retryPass`
    * `Matchmaking.lobbies_leave`
    * `Matchmaking.deficit_counts_lobbies`

  A pass over the waiting lobbies completes unless the claim
  of a room raises; a pass that does not complete leaves the
  list of lobbies, and their counts, as they were.
-/

------------------------------------------------------------
-- Passes over Lobbies
------------------------------------------------------------

namespace Matchmaking

/- The waiting lobbies after a completed retry pass. -/
theorem mem_retryPass
    {s : State}
    {stillPending kept : List (Lobby × Nat)}
    {tries : List ((Lobby × Nat) × Attempt)}
    (hKept : (s.retryPass stillPending tries).2 = some kept)
    {e : Lobby × Nat}
    (hMem : e ∈ kept) :
    e ∈ stillPending ∨
      ∃ lobby retry,
        (lobby, retry) ∈ tries.map Prod.fst ∧
          retry < maxScaleRetries ∧
            e = (lobby, retry + 1) := by
  induction tries generalizing s stillPending with
  | nil =>
      cases hKept
      exact .inl hMem
  | cons head rest ih =>
      rcases head with ⟨⟨lobby, retry⟩, a⟩
      have hLater :
          (∃ lobby' retry',
            (lobby', retry') ∈ rest.map Prod.fst ∧
              retry' < maxScaleRetries ∧
                e = (lobby', retry' + 1)) →
            ∃ lobby' retry',
              (lobby', retry') ∈
                  (((lobby, retry), a) :: rest).map
                    Prod.fst ∧
                retry' < maxScaleRetries ∧
                  e = (lobby', retry' + 1) := by
        rintro ⟨lobby', retry', hIn, hRest⟩
        exact
          ⟨lobby', retry', List.mem_cons_of_mem _ hIn, hRest⟩
      rw [State.retryPass] at hKept
      split at hKept
      · cases hKept
      · split at hKept
        · exact (ih hKept).imp_right hLater
        · split at hKept
          · rename_i hBelow
            rcases ih hKept with hOld | hRest
            · rcases List.mem_append.mp hOld with
                hBefore | hThis
              · exact .inl hBefore
              · rw [List.mem_singleton.mp hThis]
                exact
                  .inr
                    ⟨lobby, retry, List.mem_cons_self,
                      hBelow, rfl⟩
            · exact .inr (hLater hRest)
          · exact (ih hKept).imp_right hLater

/- The waiting lobbies after the loop over new ones. -/
theorem mem_assignPass
    {s : State}
    {tries : List (Lobby × Attempt)}
    {e : Lobby × Nat}
    (hMem : e ∈ (s.assignPass tries).pendingLobbies) :
    e ∈ s.pendingLobbies ∨
      e.2 = 0 ∧ e.1 ∈ tries.map Prod.fst := by
  induction tries generalizing s with
  | nil => exact .inl hMem
  | cons head rest ih =>
      rcases head with ⟨lobby, a⟩
      rw [State.assignPass] at hMem
      split at hMem
      · exact .inl hMem
      · split at hMem
        · rcases ih hMem with hOld | ⟨hZero, hIn⟩
          · left
            simpa using hOld
          · exact .inr ⟨hZero, List.mem_cons_of_mem _ hIn⟩
        · rcases ih hMem with hOld | ⟨hZero, hIn⟩
          · rcases List.mem_append.mp hOld with
              hBefore | hThis
            · exact .inl hBefore
            · rw [List.mem_singleton.mp hThis]
              exact .inr ⟨rfl, List.mem_cons_self⟩
          · exact .inr ⟨hZero, List.mem_cons_of_mem _ hIn⟩

/- A lobby that is formed has a number of its own. -/
theorem formed_le_of_mem_matchTick
    {s : State}
    {settings : Settings}
    {now : Rat}
    {lobby : Lobby}
    (hMem : lobby ∈ (s.matchTick settings now).2) :
    s.formed ≤ lobby.number := by
  have hNumber :=
    List.mem_map_of_mem (f := Lobby.number) hMem
  rw [numbers_matchTick] at hNumber
  rcases List.mem_map.mp hNumber with ⟨k, _, hEq⟩
  omega

/- The waiting lobbies after new ones were formed. -/
theorem mem_matchNew
    {s : State}
    {settings : Settings}
    {t : Tick}
    {e : Lobby × Nat}
    (hMem : e ∈ (s.matchNew settings t).pendingLobbies) :
    e ∈ s.pendingLobbies ∨
      e.2 = 0 ∧ s.formed ≤ e.1.number := by
  by_cases hRaises : matchTickRaises settings s.pending
  · rw [State.matchNew, if_pos hRaises] at hMem
    exact .inl hMem
  · rw [matchNew_of_returns t hRaises] at hMem
    rcases mem_assignPass hMem with hOld | ⟨hZero, hNew⟩
    · exact .inl hOld
    · rw [map_fst_withAttempts] at hNew
      exact .inr ⟨hZero, formed_le_of_mem_matchTick hNew⟩

theorem formed_le_matchNew
    (s : State)
    (settings : Settings)
    (t : Tick) :
    s.formed ≤ (s.matchNew settings t).formed := by
  by_cases hRaises : matchTickRaises settings s.pending
  · rw [State.matchNew, if_pos hRaises]
  · rw [matchNew_of_returns t hRaises,
      (assignPass_frame _ _).2.2]
    simp [State.matchTick]

/- Arrivals wait in the queue, not in a lobby. -/
theorem addRequests_frame
    (arrivals : List Arrival)
    (s : State) :
    (arrivals.foldl State.addRequest s).pendingLobbies =
        s.pendingLobbies ∧
      (arrivals.foldl State.addRequest s).formed =
        s.formed ∧
      (arrivals.foldl State.addRequest s).scaleUpDeficit =
        s.scaleUpDeficit := by
  induction arrivals generalizing s with
  | nil => exact ⟨rfl, rfl, rfl⟩
  | cons arrival arrivals ih => exact ih (s.addRequest arrival)

end Matchmaking

------------------------------------------------------------
-- Iterations
------------------------------------------------------------

namespace Matchmaking

open Machine

/- The action retries every waiting lobby. -/
def PassCompletes (s : State) : Act → Prop
| .iterate t =>
    ∀ e ∈ withAttempts t.retries s.pendingLobbies,
      ¬ e.2.Raises
| .addRequest _ => False

instance
    (s : State) :
    (act : Act) → Decidable (PassCompletes s act)
| .iterate t =>
    inferInstanceAs (Decidable
      (∀ e ∈ withAttempts t.retries s.pendingLobbies,
        ¬ e.2.Raises))
| .addRequest _ => isFalse not_false

/- The number of passes that have completed. -/
def countPasses
    (s : State)
    (act : Act)
    (_ : State)
    (n : Nat) : Nat :=
  if PassCompletes s act then n + 1 else n

variable {settings : Settings}
variable {s : State} {t : Tick}

/- Only a completed pass changes what lobbies wait. -/
theorem iterate_of_not_passCompletes
    (hRaises : ¬ PassCompletes s (.iterate t)) :
    (s.iterate settings t).pendingLobbies =
        s.pendingLobbies ∧
      (s.iterate settings t).formed = s.formed := by
  have hNone :
      ((s.expire settings t).retryPass []
        (withAttempts t.retries s.pendingLobbies)).2 =
          none := by
    rw [retryPass_eq_none_iff]
    simpa [PassCompletes] using hRaises
  rcases
      retryPass_frame (s.expire settings t) []
        (withAttempts t.retries s.pendingLobbies) with
    ⟨_, hLobbies, _, hFormed⟩
  rw [iterate_of_raised hNone]
  exact ⟨hLobbies, hFormed⟩

/- After it, lobbies were retried once more, or are new. -/
theorem iterate_of_passCompletes
    (hCompletes : PassCompletes s (.iterate t)) :
    s.formed ≤ (s.iterate settings t).formed ∧
      ∀ e ∈ (s.iterate settings t).pendingLobbies,
        (∃ lobby retry,
          (lobby, retry) ∈ s.pendingLobbies ∧
            retry < maxScaleRetries ∧
              e = (lobby, retry + 1)) ∨
          e.2 = 0 ∧ s.formed ≤ e.1.number := by
  have hSome :
      ((s.expire settings t).retryPass []
        (withAttempts t.retries s.pendingLobbies)).2 ≠
          none := by
    intro hNone
    rcases (retryPass_eq_none_iff _ _ _).mp hNone with
      ⟨e, hMem, hRaises⟩
    exact hCompletes e hMem hRaises
  rcases Option.ne_none_iff_exists'.mp hSome with
    ⟨kept, hKept⟩
  have hFormed :=
    (retryPass_frame (s.expire settings t) []
      (withAttempts t.retries s.pendingLobbies)).2.2.2
  rw [iterate_of_completed hKept]
  set queued :=
    t.arrivals.foldl State.addRequest
      { ((s.expire settings t).retryPass []
          (withAttempts t.retries s.pendingLobbies)).1 with
        pendingLobbies := kept }
    with hQueued
  rcases
      addRequests_frame t.arrivals
        { ((s.expire settings t).retryPass []
            (withAttempts t.retries
              s.pendingLobbies)).1 with
          pendingLobbies := kept } with
    ⟨hLobbies, hSame, _⟩
  rw [← hQueued] at hLobbies hSame
  have hStart : queued.formed = s.formed :=
    hSame.trans hFormed
  constructor
  · rw [← hStart]
    exact formed_le_matchNew queued settings t
  · intro e hMem
    rcases mem_matchNew hMem with hOld | hNew
    · rw [hLobbies] at hOld
      rcases mem_retryPass hKept hOld with hNever | hRetried
      · cases hNever
      · rw [map_fst_withAttempts] at hRetried
        exact .inl hRetried
    · rw [hStart] at hNew
      exact .inr hNew

/- The bound on the retries of a lobby. -/
def Retried (s : State) : Prop :=
  ∀ e ∈ s.pendingLobbies, e.2 ≤ maxScaleRetries

theorem retried_step
    {s t : State}
    {act : Act}
    (hRetried : Retried s)
    (hStep : step settings s act = some t) :
    Retried t := by
  cases act with
  | addRequest arrival =>
      cases hStep
      exact hRetried
  | iterate tick =>
      cases hStep
      by_cases hCompletes : PassCompletes s (.iterate tick)
      · intro e hMem
        rcases
            (iterate_of_passCompletes hCompletes).2 e hMem with
          ⟨lobby, retry, _, hBelow, rfl⟩ | ⟨hZero, _⟩
        · exact hBelow
        · rw [hZero]
          exact Nat.zero_le _
      · unfold Retried
        rw [(iterate_of_not_passCompletes hCompletes).1]
        exact hRetried

/-
  Lobbies with smaller numbers than `first` have been retried
  at least `n` times.
-/
structure Aged (first n : Nat) (s : State) : Prop where
  formed : first ≤ s.formed
  lobbies :
    ∀ e ∈ s.pendingLobbies, e.1.number < first → n ≤ e.2

/- Every pass that completes makes them older. -/
theorem aged_step
    {first n : Nat}
    {s t : State}
    {act : Act}
    (hAged : Aged first n s)
    (hStep : step settings s act = some t) :
    Aged first (countPasses s act t n) t := by
  cases act with
  | addRequest arrival =>
      cases hStep
      exact ⟨hAged.formed, hAged.lobbies⟩
  | iterate tick =>
      cases hStep
      by_cases hCompletes : PassCompletes s (.iterate tick)
      · rcases iterate_of_passCompletes hCompletes with
          ⟨hMore, hLobbies⟩
        rw [countPasses, if_pos hCompletes]
        refine ⟨hAged.formed.trans hMore, ?_⟩
        intro e hMem hOld
        rcases hLobbies e hMem with
          ⟨lobby, retry, hWaits, _, rfl⟩ | ⟨_, hNew⟩
        · exact
            Nat.succ_le_succ (hAged.lobbies _ hWaits hOld)
        · have hFormed := hAged.formed
          omega
      · have hSame :
            (s.iterate settings tick).pendingLobbies =
                s.pendingLobbies ∧
              (s.iterate settings tick).formed = s.formed :=
          iterate_of_not_passCompletes hCompletes
        rcases hSame with ⟨hLobbies, hFormed⟩
        rw [countPasses, if_neg hCompletes]
        refine ⟨hAged.formed.trans_eq hFormed.symm, ?_⟩
        rw [hLobbies]
        exact hAged.lobbies

/-
  However requests arrive and claims end: once more than
  fifteen passes have completed, no lobby that was formed
  before them waits any longer.
-/
theorem lobbies_leave
    {settings : Settings}
    {s t : State}
    {n : Nat}
    (hStart : Reachable (step settings) State.empty s)
    (hRun :
      Reachable (observe (step settings) countPasses) (s, 0)
        (t, n))
    (hMany : maxScaleRetries < n) :
    ∀ e ∈ t.pendingLobbies, s.formed ≤ e.1.number := by
  have hRetried : Retried s :=
    hStart.invariant (by simp [Retried, State.empty])
      (fun hRetried _ hStep => retried_step hRetried hStep)
  have hBoth :
      Retried t ∧ Aged s.formed n t := by
    refine
      hRun.invariant
        (I := fun u => Retried u.1 ∧ Aged s.formed u.2 u.1)
        ⟨hRetried, le_refl _, fun _ _ _ => Nat.zero_le _⟩
        ?_
    rintro ⟨u, k⟩ ⟨u', k'⟩ act ⟨hBelow, hAged⟩ _ hStep
    rcases observe_eq_some_iff.mp hStep with ⟨hNext, hCount⟩
    simp only at hNext hCount
    subst hCount
    exact ⟨retried_step hBelow hNext, aged_step hAged hNext⟩
  intro e hMem
  by_contra hOld
  have hLow := hBoth.2.lobbies e hMem (not_le.mp hOld)
  have hHigh := hBoth.1 e hMem
  omega

/- Two players queue while there is no room. -/
def pairArrives (first second : String) : List Act :=
  [.addRequest
      { playerId := first, elo := 1200, timestamp := 0 },
    .addRequest
      { playerId := second, elo := 1250, timestamp := 1 }]

def firstWaits : State :=
  final (step {}) State.empty
    (pairArrives "ann" "bob" ++ [.iterate (tickWith noRoom)])
    rfl

/- Another two come, and sixteen passes find no room. -/
def laterActs : List Act :=
  pairArrives "cat" "dan" ++
    List.replicate 16 (.iterate (tickWith noRoom))

def secondWaits : State × Nat :=
  final (observe (step {}) countPasses) (firstWaits, 0)
    laterActs rfl

theorem lobbies_leave_secondWaits :
    secondWaits.1.pendingLobbies.map
        (fun e => (e.1.number, e.2)) = [(1, 15)] ∧
      ∀ e ∈ secondWaits.1.pendingLobbies,
        firstWaits.formed ≤ e.1.number := by
  have hRun :
      Reachable (observe (step {}) countPasses)
        (firstWaits, 0) secondWaits :=
    reachable_of_run (run_eq_final rfl)
  refine ⟨by decide +kernel, ?_⟩
  exact
    lobbies_leave (n := secondWaits.2)
      (reachable_of_run (run_eq_final rfl)) hRun
      (by decide +kernel)

end Matchmaking

------------------------------------------------------------
-- The Deficit
------------------------------------------------------------

namespace Matchmaking

open Machine

/- No iteration ends in the middle of a retry pass. -/
def PassesComplete (s : State) : Act → Prop
| .iterate t => PassCompletes s (.iterate t)
| .addRequest _ => True

instance
    (s : State) :
    (act : Act) → Decidable (PassesComplete s act)
| .iterate t =>
    inferInstanceAs (Decidable (PassCompletes s (.iterate t)))
| .addRequest _ => isTrue trivial

/- A lobby that leaves lowers the deficit by one. -/
theorem deficit_retryPass
    {s : State}
    {stillPending kept : List (Lobby × Nat)}
    {tries : List ((Lobby × Nat) × Attempt)}
    (hKept : (s.retryPass stillPending tries).2 = some kept)
    (hDeficit :
      s.scaleUpDeficit =
        stillPending.length + tries.length) :
    (s.retryPass stillPending tries).1.scaleUpDeficit =
      kept.length := by
  induction tries generalizing s stillPending with
  | nil =>
      cases hKept
      simpa [State.retryPass] using hDeficit
  | cons head rest ih =>
      rcases head with ⟨⟨lobby, retry⟩, a⟩
      rw [List.length_cons] at hDeficit
      rw [State.retryPass] at hKept ⊢
      split at hKept
      · cases hKept
      · rename_i hClaims
        rw [if_neg hClaims]
        split at hKept
        · refine ih hKept ?_
          simp only [State.lowerDeficit,
            State.assignLobby_scaleUpDeficit,
            State.take_scaleUpDeficit]
          omega
        · split at hKept
          · rename_i hBelow
            rw [if_pos hBelow]
            refine ih hKept ?_
            simp only [State.take_scaleUpDeficit,
              List.length_append, List.length_singleton]
            omega
          · rename_i hBelow
            rw [if_neg hBelow]
            refine ih hKept ?_
            simp only [State.lowerDeficit,
              State.take_scaleUpDeficit]
            omega

/- A lobby that starts to wait raises it by one. -/
theorem deficit_assignPass
    {s : State}
    (tries : List (Lobby × Attempt))
    (hDeficit :
      s.scaleUpDeficit = s.pendingLobbies.length) :
    (s.assignPass tries).scaleUpDeficit =
      (s.assignPass tries).pendingLobbies.length := by
  induction tries generalizing s with
  | nil => exact hDeficit
  | cons head rest ih =>
      rcases head with ⟨lobby, a⟩
      rw [State.assignPass]
      split
      · exact hDeficit
      · split
        · apply ih
          simpa using hDeficit
        · apply ih
          simp [hDeficit]

theorem deficit_matchNew
    {s : State}
    (settings : Settings)
    (t : Tick)
    (hDeficit :
      s.scaleUpDeficit = s.pendingLobbies.length) :
    (s.matchNew settings t).scaleUpDeficit =
      (s.matchNew settings t).pendingLobbies.length := by
  by_cases hRaises : matchTickRaises settings s.pending
  · rw [State.matchNew, if_pos hRaises]
    exact hDeficit
  · rw [matchNew_of_returns t hRaises]
    exact deficit_assignPass _ hDeficit

/- Each action whose pass completes keeps the count. -/
theorem deficit_step
    {settings : Settings}
    {s t : State}
    {act : Act}
    (hDeficit :
      s.scaleUpDeficit = s.pendingLobbies.length)
    (hCompletes : PassesComplete s act)
    (hStep : step settings s act = some t) :
    t.scaleUpDeficit = t.pendingLobbies.length := by
  cases act with
  | addRequest arrival =>
      cases hStep
      exact hDeficit
  | iterate tick =>
      cases hStep
      have hSome :
          ((s.expire settings tick).retryPass []
            (withAttempts tick.retries
              s.pendingLobbies)).2 ≠ none := by
        intro hNone
        rcases (retryPass_eq_none_iff _ _ _).mp hNone with
          ⟨e, hMem, hRaises⟩
        exact hCompletes e hMem hRaises
      rcases Option.ne_none_iff_exists'.mp hSome with
        ⟨kept, hKept⟩
      rw [iterate_of_completed hKept]
      apply deficit_matchNew
      rcases
          addRequests_frame tick.arrivals
            { ((s.expire settings tick).retryPass []
                (withAttempts tick.retries
                  s.pendingLobbies)).1 with
              pendingLobbies := kept } with
        ⟨hLobbies, _, hSame⟩
      rw [hLobbies, hSame]
      refine deficit_retryPass hKept ?_
      rw [List.length_nil, Nat.zero_add,
        ← List.length_map (f := Prod.fst),
        map_fst_withAttempts]
      exact hDeficit

/-
  While no claim raises in a retry pass, the deficit is the
  number of lobbies that wait for a room: each of them is
  asked for once, however it leaves.
-/
theorem deficit_counts_lobbies
    {settings : Settings}
    {s : State}
    (hRun :
      Reaches (step settings) PassesComplete State.empty s) :
    s.scaleUpDeficit = s.pendingLobbies.length :=
  hRun.invariant
    (I := fun s => s.scaleUpDeficit = s.pendingLobbies.length)
    rfl
    (fun hDeficit hCompletes hStep =>
      deficit_step hDeficit hCompletes hStep)

theorem deficit_counts_firstWaits :
    firstWaits.scaleUpDeficit =
      firstWaits.pendingLobbies.length :=
  deficit_counts_lobbies
    (reaches_of_run (run_eq_final rfl) (by decide +kernel))

end Matchmaking
