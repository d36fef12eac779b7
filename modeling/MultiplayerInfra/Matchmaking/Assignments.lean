import MultiplayerInfra.Matchmaking.Accounting

/-
  How often a lobby is notified of a room, and how many
  rooms it takes.

  Key definitions include:
    * `Matchmaking.AssignedOnce`
    * `Matchmaking.AssignsInOrder`
    * `Matchmaking.Once`

  Key theorems include:
    * `Matchmaking.retryPass_once`
    * `Matchmaking.once_iterate`
    * `Matchmaking.assigned_once`

  The retry pass serves the list that it only replaces when
  it ends; a claim that raises in between leaves it.
-/

------------------------------------------------------------
-- The Condition
------------------------------------------------------------

namespace Matchmaking

/- The numbers of the lobbies in a list. -/
def numbersOf (lobbies : List (Lobby × Nat)) : List Nat :=
  lobbies.map (fun e => e.1.number)

/- The lobbies that wait for a room, by number. -/
def State.waiting (s : State) : List Nat :=
  numbersOf s.pendingLobbies

/-
  No lobby has two `match.found` or holds two rooms, none
  that waits is assigned, and the deficit counts those that
  wait.
-/
structure AssignedOnce (s : State) : Prop where
  found : ∀ n, s.found.count n ≤ 1
  held : ∀ n, (s.held.map Prod.fst).count n ≤ 1
  unassigned : ∀ n ∈ s.waiting, n ∉ s.found
  deficit : s.scaleUpDeficit = s.pendingLobbies.length

/-
  The condition on an iteration: no claim transaction takes
  effect and raises, and a claim of the retry pass raises
  only when every lobby before it found no room and may be
  retried.
-/
def AssignsInOrder
    (settings : Settings)
    (s : State) : Act → Prop
| .addRequest _ => True
| .iterate t =>
    (∀ e ∈ withAttempts t.retries s.pendingLobbies,
      e.2.leaked = []) ∧
    (∀ k < (matchTick settings t.matchNow
        (s.queued settings t).pending).1.length,
      (t.attempts k).leaked = []) ∧
    ((∃ e ∈ withAttempts t.retries s.pendingLobbies,
        e.2.Raises) →
      ∀ e ∈
          (withAttempts t.retries
            s.pendingLobbies).takeWhile
              (fun e => ¬ e.2.Raises),
        e.2.room = none ∧ e.1.2 < maxScaleRetries)

instance decidableAssignsInOrder
    (settings : Settings)
    (s : State) :
    (act : Act) → Decidable (AssignsInOrder settings s act)
| .addRequest _ => inferInstanceAs (Decidable True)
| .iterate t =>
    inferInstanceAs (Decidable
      ((∀ e ∈ withAttempts t.retries s.pendingLobbies,
          e.2.leaked = []) ∧
        (∀ k < (matchTick settings t.matchNow
            (s.queued settings t).pending).1.length,
          (t.attempts k).leaked = []) ∧
        ((∃ e ∈ withAttempts t.retries s.pendingLobbies,
            e.2.Raises) →
          ∀ e ∈
              (withAttempts t.retries
                s.pendingLobbies).takeWhile
                  (fun e => ¬ e.2.Raises),
            e.2.room = none ∧ e.1.2 < maxScaleRetries)))

end Matchmaking

------------------------------------------------------------
-- The Invariant
------------------------------------------------------------

namespace Matchmaking

/- The lobby was not notified and holds no room. -/
def Fresh (s : State) (n : Nat) : Prop :=
  n ∉ s.found ∧ n ∉ s.held.map Prod.fst

/- What was assigned was assigned once. -/
structure Single (s : State) : Prop where
  found : s.found.Nodup
  held : (s.held.map Prod.fst).Nodup
  foundFormed : ∀ n ∈ s.found, n < s.formed
  heldFormed : ∀ n ∈ s.held.map Prod.fst, n < s.formed

/- Lobbies that may still be assigned. -/
structure Unserved (s : State) (ns : List Nat) : Prop where
  nodup : ns.Nodup
  fresh : ∀ n ∈ ns, Fresh s n
  formed : ∀ n ∈ ns, n < s.formed

structure Once (s : State) : Prop where
  single : Single s
  unserved : Unserved s s.waiting
  deficit : s.scaleUpDeficit = s.pendingLobbies.length

variable {settings : Settings}
variable {s : State}

theorem Once.assignedOnce
    (hOnce : Once s) :
    AssignedOnce s where
  found := List.nodup_iff_count_le_one.mp hOnce.single.found
  held := List.nodup_iff_count_le_one.mp hOnce.single.held
  unassigned := fun n hMem =>
    (hOnce.unserved.fresh n hMem).1
  deficit := hOnce.deficit

theorem once_empty : Once State.empty := by
  refine ⟨⟨?_, ?_, ?_, ?_⟩, ⟨?_, ?_, ?_⟩, rfl⟩ <;>
    simp [State.empty, State.waiting, numbersOf]

/- Fewer lobbies may be waiting. -/
theorem Unserved.sublist
    {ns ns' : List Nat}
    (hUnserved : Unserved s ns)
    (hSub : ns'.Sublist ns) :
    Unserved s ns' where
  nodup := hUnserved.nodup.sublist hSub
  fresh := fun n hMem =>
    hUnserved.fresh n (hSub.subset hMem)
  formed := fun n hMem =>
    hUnserved.formed n (hSub.subset hMem)

/- Only the assignments and the numbers count. -/
theorem Single.of_eq
    {s' : State}
    (hSingle : Single s)
    (hFound : s'.found = s.found)
    (hHeld : s'.held = s.held)
    (hFormed : s'.formed = s.formed) :
    Single s' := by
  refine ⟨?_, ?_, ?_, ?_⟩
  · rw [hFound]
    exact hSingle.found
  · rw [hHeld]
    exact hSingle.held
  · rw [hFound, hFormed]
    exact hSingle.foundFormed
  · rw [hHeld, hFormed]
    exact hSingle.heldFormed

theorem Unserved.of_eq
    {s' : State}
    {ns : List Nat}
    (hUnserved : Unserved s ns)
    (hFound : s'.found = s.found)
    (hHeld : s'.held = s.held)
    (hFormed : s'.formed = s.formed) :
    Unserved s' ns := by
  refine ⟨hUnserved.nodup, ?_, ?_⟩
  · unfold Fresh
    rw [hFound, hHeld]
    exact hUnserved.fresh
  · rw [hFormed]
    exact hUnserved.formed

end Matchmaking

------------------------------------------------------------
-- One Lobby
------------------------------------------------------------

namespace Matchmaking

variable {s : State}
variable {lobby : Lobby}
variable {room : String}
variable {a : Attempt}

/- A claim without result takes nothing. -/
theorem take_eq_self
    (lobby : Lobby)
    (hRoom : a.room = none)
    (hLeaked : a.leaked = []) :
    s.take lobby a = s := by
  simp [State.take, hRoom, hLeaked]

/- The three ends of an assignment. -/
theorem assignLobby_cases
    (s : State)
    (lobby : Lobby)
    (hRoom : a.room = some room)
    (hLeaked : a.leaked = []) :
    (((s.take lobby a).assignLobby lobby room a).found =
          lobby.number :: s.found ∧
        ((s.take lobby a).assignLobby lobby room a).held =
          (lobby.number, room) :: s.held) ∨
      ((s.take lobby a).assignLobby lobby room a).found =
          s.found ∧
        (((s.take lobby a).assignLobby lobby room a).held =
            s.held ∨
          ((s.take lobby a).assignLobby lobby room a).held =
            (lobby.number, room) :: s.held) := by
  have hTake :
      (s.take lobby a).held =
        (lobby.number, room) :: s.held := by
    simp [State.take, hRoom, hLeaked]
  unfold State.assignLobby
  split
  · exact .inl ⟨rfl, hTake⟩
  · split
    · refine .inr ⟨rfl, .inl ?_⟩
      simp [hTake]
    · exact .inr ⟨rfl, .inr hTake⟩

theorem single_assignLobby
    (hSingle : Single s)
    (hFresh : Fresh s lobby.number)
    (hFormed : lobby.number < s.formed)
    (hRoom : a.room = some room)
    (hLeaked : a.leaked = []) :
    Single ((s.take lobby a).assignLobby lobby room a) := by
  have hHeldNew :
      (((lobby.number, room) :: s.held).map
          Prod.fst).Nodup := by
    rw [List.map_cons, List.nodup_cons]
    exact ⟨hFresh.2, hSingle.held⟩
  have hHeldFormed :
      ∀ n ∈ ((lobby.number, room) :: s.held).map Prod.fst,
        n < s.formed := by
    intro n hMem
    rw [List.map_cons] at hMem
    rcases List.mem_cons.mp hMem with rfl | hOld
    · exact hFormed
    · exact hSingle.heldFormed n hOld
  rcases
      assignLobby_cases s lobby hRoom hLeaked with
    ⟨hFound, hHeld⟩ | ⟨hFound, hHeld | hHeld⟩
  · refine ⟨?_, ?_, ?_, ?_⟩
    · rw [hFound]
      exact List.nodup_cons.mpr ⟨hFresh.1, hSingle.found⟩
    · rw [hHeld]
      exact hHeldNew
    · rw [hFound]
      intro n hMem
      rcases List.mem_cons.mp hMem with rfl | hOld
      · simpa using hFormed
      · simpa using hSingle.foundFormed n hOld
    · rw [hHeld]
      simpa using hHeldFormed
  · exact hSingle.of_eq hFound hHeld (by simp)
  · refine ⟨?_, ?_, ?_, ?_⟩
    · rw [hFound]
      exact hSingle.found
    · rw [hHeld]
      exact hHeldNew
    · rw [hFound]
      simpa using hSingle.foundFormed
    · rw [hHeld]
      simpa using hHeldFormed

/- Other lobbies stay fresh. -/
theorem unserved_assignLobby
    {ns : List Nat}
    (hUnserved : Unserved s ns)
    (hOther : lobby.number ∉ ns)
    (hRoom : a.room = some room)
    (hLeaked : a.leaked = []) :
    Unserved ((s.take lobby a).assignLobby lobby room a)
      ns := by
  refine ⟨hUnserved.nodup, ?_, ?_⟩
  · intro n hMem
    have hNe : n ≠ lobby.number := by
      rintro rfl
      exact hOther hMem
    have hFresh := hUnserved.fresh n hMem
    unfold Fresh at hFresh ⊢
    rcases
        assignLobby_cases s lobby hRoom hLeaked with
      ⟨hFound, hHeld⟩ | ⟨hFound, hHeld | hHeld⟩
    · rw [hFound, hHeld]
      simpa [hNe] using hFresh
    · rw [hFound, hHeld]
      exact hFresh
    · rw [hFound, hHeld]
      simpa [hNe] using hFresh
  · simpa using hUnserved.formed

end Matchmaking

------------------------------------------------------------
-- The Passes
------------------------------------------------------------

namespace Matchmaking

/- A pass that raises before it served anyone does nothing. -/
theorem retryPass_eq_self_of_raised
    (s : State)
    (stillPending : List (Lobby × Nat))
    (tries : List ((Lobby × Nat) × Attempt))
    (hRaises : ∃ e ∈ tries, e.2.Raises)
    (hLeaked : ∀ e ∈ tries, e.2.leaked = [])
    (hBefore :
      ∀ e ∈ tries.takeWhile (fun e => ¬ e.2.Raises),
        e.2.room = none ∧ e.1.2 < maxScaleRetries) :
    (s.retryPass stillPending tries).1 = s := by
  induction tries generalizing stillPending with
  | nil =>
      rcases hRaises with ⟨e, hMem, _⟩
      cases hMem
  | cons e rest ih =>
      rcases e with ⟨⟨lobby, retry⟩, a⟩
      rw [State.retryPass]
      split
      · rfl
      · rename_i hClaims
        rw [List.takeWhile_cons_of_pos (by
          simpa using hClaims)] at hBefore
        have hHead := hBefore _ List.mem_cons_self
        have hRest : ∃ e ∈ rest, e.2.Raises :=
          ((List.exists_mem_cons_iff _ _ _).mp
            hRaises).resolve_left hClaims
        simp only [hHead.1]
        rw [if_pos hHead.2,
          take_eq_self lobby hHead.1
            (hLeaked _ List.mem_cons_self)]
        exact
          ih _ hRest
            (fun e hMem =>
              hLeaked e (List.mem_cons_of_mem _ hMem))
            (fun e hMem =>
              hBefore e (List.mem_cons_of_mem _ hMem))

/-
  A completed pass: the deficit follows the lobbies that
  leave, and those that stay are unserved.
-/
theorem retryPass_once
    (s : State)
    (stillPending : List (Lobby × Nat))
    (tries : List ((Lobby × Nat) × Attempt))
    (hClaims : ∀ e ∈ tries, ¬ e.2.Raises)
    (hLeaked : ∀ e ∈ tries, e.2.leaked = [])
    (hSingle : Single s)
    (hUnserved :
      Unserved s
        (numbersOf stillPending ++
          numbersOf (tries.map Prod.fst)))
    (hDeficit :
      s.scaleUpDeficit =
        stillPending.length + tries.length) :
    ∃ kept,
      (s.retryPass stillPending tries).2 = some kept ∧
      Single (s.retryPass stillPending tries).1 ∧
      Unserved (s.retryPass stillPending tries).1
        (numbersOf kept) ∧
      (s.retryPass stillPending tries).1.scaleUpDeficit =
        kept.length := by
  induction tries generalizing s stillPending with
  | nil =>
      refine ⟨stillPending, rfl, hSingle, ?_, hDeficit⟩
      simpa [State.retryPass, numbersOf] using hUnserved
  | cons e rest ih =>
      rcases e with ⟨⟨lobby, retry⟩, a⟩
      have hClaimsRest : ∀ e ∈ rest, ¬ e.2.Raises :=
        fun e hMem =>
          hClaims e (List.mem_cons_of_mem _ hMem)
      have hLeakedRest : ∀ e ∈ rest, e.2.leaked = [] :=
        fun e hMem =>
          hLeaked e (List.mem_cons_of_mem _ hMem)
      have hNoLeak : a.leaked = [] :=
        hLeaked _ List.mem_cons_self
      have hOthers :
          Unserved s
            (numbersOf stillPending ++
              numbersOf (rest.map Prod.fst)) :=
        hUnserved.sublist
          ((List.sublist_cons_self _ _).append_left _)
      have hMember :
          lobby.number ∈
            numbersOf stillPending ++
              numbersOf
                ((((lobby, retry), a) :: rest).map
                  Prod.fst) := by
        simp [numbersOf]
      have hLess :
          s.scaleUpDeficit - 1 =
            stillPending.length + rest.length := by
        rw [List.length_cons] at hDeficit
        omega
      rw [State.retryPass,
        if_neg (hClaims _ List.mem_cons_self)]
      split
      · rename_i room hRoom
        have hNotOther :
            lobby.number ∉
              numbersOf stillPending ++
                numbersOf (rest.map Prod.fst) := by
          have hNodup := hUnserved.nodup
          simp only [numbersOf, List.map_cons] at hNodup
          exact (List.nodup_middle.mp hNodup).notMem
        refine
          ih
            ((s.take lobby a).assignLobby lobby room
              a).lowerDeficit
            stillPending hClaimsRest hLeakedRest ?_ ?_ ?_
        · exact
            (single_assignLobby hSingle
              (hUnserved.fresh _ hMember)
              (hUnserved.formed _ hMember) hRoom
              hNoLeak).of_eq rfl rfl rfl
        · exact
            (unserved_assignLobby hOthers hNotOther hRoom
              hNoLeak).of_eq rfl rfl rfl
        · simpa [State.lowerDeficit] using hLess
      · rename_i hRoom
        rw [take_eq_self lobby hRoom hNoLeak]
        split
        · refine
            ih s (stillPending ++ [(lobby, retry + 1)])
              hClaimsRest hLeakedRest hSingle ?_ ?_
          · simpa [numbersOf] using hUnserved
          · rw [List.length_cons] at hDeficit
            rw [List.length_append, List.length_singleton]
            omega
        · exact
            ih s.lowerDeficit stillPending hClaimsRest
              hLeakedRest (hSingle.of_eq rfl rfl rfl)
              (hOthers.of_eq rfl rfl rfl)
              (by simpa [State.lowerDeficit] using hLess)

/- New lobbies are served once, or wait with the others. -/
theorem assignPass_once
    (s : State)
    (tries : List (Lobby × Attempt))
    (hLeaked : ∀ e ∈ tries, e.2.leaked = [])
    (hSingle : Single s)
    (hUnserved :
      Unserved s
        (s.waiting ++
          (tries.map Prod.fst).map Lobby.number))
    (hDeficit :
      s.scaleUpDeficit = s.pendingLobbies.length) :
    Once (s.assignPass tries) := by
  induction tries generalizing s with
  | nil =>
      refine ⟨hSingle, ?_, hDeficit⟩
      simpa [State.assignPass] using hUnserved
  | cons e rest ih =>
      rcases e with ⟨lobby, a⟩
      have hLeakedRest : ∀ e ∈ rest, e.2.leaked = [] :=
        fun e hMem =>
          hLeaked e (List.mem_cons_of_mem _ hMem)
      have hNoLeak : a.leaked = [] :=
        hLeaked _ List.mem_cons_self
      have hMember :
          lobby.number ∈
            s.waiting ++
              ((((lobby, a) :: rest).map Prod.fst).map
                Lobby.number) := by
        simp
      have hNodup := hUnserved.nodup
      simp only [List.map_cons] at hNodup
      rw [State.assignPass]
      split
      · refine ⟨hSingle, ?_, hDeficit⟩
        exact
          hUnserved.sublist (List.sublist_append_left _ _)
      · split
        · rename_i room hRoom
          refine
            ih ((s.take lobby a).assignLobby lobby room a)
              hLeakedRest ?_ ?_ ?_
          · exact
              single_assignLobby hSingle
                (hUnserved.fresh _ hMember)
                (hUnserved.formed _ hMember) hRoom hNoLeak
          · refine
              unserved_assignLobby ?_ ?_ hRoom hNoLeak
            · have hSame :
                  ((s.take lobby a).assignLobby lobby room
                    a).waiting = s.waiting := by
                simp [State.waiting]
              rw [hSame]
              exact
                hUnserved.sublist
                  ((List.sublist_cons_self _ _).append_left
                    _)
            · simpa [State.waiting] using
                (List.nodup_middle.mp hNodup).notMem
          · simpa using hDeficit
        · rename_i hRoom
          rw [take_eq_self lobby hRoom hNoLeak]
          refine ih _ hLeakedRest (hSingle.of_eq rfl rfl rfl)
            ?_ ?_
          · refine
              Unserved.of_eq (s := s) ?_ rfl rfl rfl
            simpa [State.waiting, numbersOf] using hUnserved
          · simp [hDeficit]

end Matchmaking

------------------------------------------------------------
-- Runs
------------------------------------------------------------

namespace Matchmaking

variable {settings : Settings}
variable {s : State}

/- A state that differs in the queue only. -/
theorem Once.of_eq
    {s' : State}
    (hOnce : Once s)
    (hLobbies : s'.pendingLobbies = s.pendingLobbies)
    (hDeficit : s'.scaleUpDeficit = s.scaleUpDeficit)
    (hFound : s'.found = s.found)
    (hHeld : s'.held = s.held)
    (hFormed : s'.formed = s.formed) :
    Once s' := by
  refine ⟨hOnce.single.of_eq hFound hHeld hFormed, ?_, ?_⟩
  · unfold State.waiting
    rw [hLobbies]
    exact hOnce.unserved.of_eq hFound hHeld hFormed
  · rw [hDeficit, hLobbies]
    exact hOnce.deficit

theorem once_addRequests
    (hOnce : Once s)
    (arrivals : List Arrival) :
    Once (arrivals.foldl State.addRequest s) := by
  induction arrivals generalizing s with
  | nil => exact hOnce
  | cons arrival arrivals ih =>
      exact ih (hOnce.of_eq rfl rfl rfl rfl rfl)

/- The numbers of the lobbies formed by one `match_tick`. -/
theorem numbers_matchTick
    (s : State)
    (settings : Settings)
    (now : Rat) :
    (s.matchTick settings now).2.map Lobby.number =
      (List.range (matchTick settings now
        s.pending).1.length).map (s.formed + ·) := by
  simp only [State.matchTick, List.map_map]
  rw [List.range_eq_range', ← List.zipIdx_map_snd,
    List.map_map]
  rfl

/- Numbering gives the new lobbies numbers of their own. -/
theorem unserved_matchTick
    (hOnce : Once s)
    (now : Rat) :
    Unserved (s.matchTick settings now).1
      (s.waiting ++
        (s.matchTick settings now).2.map Lobby.number) := by
  have hNew :
      ∀ n ∈ (s.matchTick settings now).2.map Lobby.number,
        s.formed ≤ n ∧
          n < (s.matchTick settings now).1.formed := by
    intro n hMem
    rw [numbers_matchTick] at hMem
    rcases List.mem_map.mp hMem with ⟨k, hIn, rfl⟩
    rw [List.mem_range] at hIn
    simp only [State.matchTick]
    omega
  have hGrows :
      s.formed ≤ (s.matchTick settings now).1.formed := by
    simp [State.matchTick]
  refine ⟨?_, ?_, ?_⟩
  · refine List.nodup_append'.mpr
      ⟨hOnce.unserved.nodup, ?_, ?_⟩
    · rw [numbers_matchTick]
      exact
        List.nodup_range.map (fun _ _ hEq =>
          Nat.add_left_cancel hEq)
    · intro n hOld hIn
      have hLt := hOnce.unserved.formed n hOld
      have hLe := (hNew n hIn).1
      omega
  · intro n hMem
    rcases List.mem_append.mp hMem with hOld | hIn
    · exact hOnce.unserved.fresh n hOld
    · have hLe := (hNew n hIn).1
      constructor
      · intro hFound
        have hLt := hOnce.single.foundFormed n hFound
        omega
      · intro hHeld
        have hLt := hOnce.single.heldFormed n hHeld
        omega
  · intro n hMem
    rcases List.mem_append.mp hMem with hOld | hIn
    · exact
        (hOnce.unserved.formed n hOld).trans_le hGrows
    · exact (hNew n hIn).2

theorem once_matchNew
    {t : Tick}
    (hOnce : Once s)
    (hLeaked :
      ∀ k < (matchTick settings t.matchNow
          s.pending).1.length,
        (t.attempts k).leaked = []) :
    Once (s.matchNew settings t) := by
  unfold State.matchNew
  split
  · exact hOnce.of_eq rfl rfl rfl rfl rfl
  · change
      Once
        ((s.matchTick settings t.matchNow).1.assignPass
          (withAttempts t.attempts
            (s.matchTick settings t.matchNow).2))
    apply assignPass_once
    · exact
        forall_attempts_matchTick
          (P := fun a => a.leaked = []) hLeaked
    · have hGrows :
          s.formed ≤
            (s.matchTick settings t.matchNow).1.formed := by
        simp [State.matchTick]
      exact ⟨hOnce.single.found, hOnce.single.held,
        fun n hMem =>
          (hOnce.single.foundFormed n hMem).trans_le hGrows,
        fun n hMem =>
          (hOnce.single.heldFormed n hMem).trans_le hGrows⟩
    · rw [map_fst_withAttempts]
      exact unserved_matchTick hOnce t.matchNow
    · exact hOnce.deficit

theorem once_iterate
    {t : Tick}
    (hOnce : Once s)
    (hOrder : AssignsInOrder settings s (.iterate t)) :
    Once (s.iterate settings t) := by
  rcases hOrder with ⟨hRetries, hAttempts, hRaised⟩
  have hExpired : Once (s.expire settings t) :=
    hOnce.of_eq rfl rfl rfl rfl rfl
  by_cases hRaises :
      ∃ e ∈ withAttempts t.retries s.pendingLobbies,
        e.2.Raises
  · have hSelf :=
      retryPass_eq_self_of_raised (s.expire settings t) []
        _ hRaises hRetries (hRaised hRaises)
    rw [iterate_of_raised
      ((retryPass_eq_none_iff _ _ _).mpr hRaises), hSelf]
    exact hExpired
  · have hClaims :
        ∀ e ∈ withAttempts t.retries s.pendingLobbies,
          ¬ e.2.Raises :=
      fun e hMem hRaise => hRaises ⟨e, hMem, hRaise⟩
    rcases
        retryPass_once (s.expire settings t) []
          (withAttempts t.retries s.pendingLobbies) hClaims
          hRetries hExpired.single
          (by
            rw [map_fst_withAttempts]
            exact hExpired.unserved)
          (by
            have hLength :=
              congrArg List.length
                (map_fst_withAttempts t.retries
                  s.pendingLobbies)
            rw [List.length_map] at hLength
            rw [hLength, List.length_nil, Nat.zero_add]
            exact hExpired.deficit) with
      ⟨kept, hSome, hSingle, hUnserved, hDeficit⟩
    rw [iterate_of_completed hSome]
    have hAfter :
        Once
          { ((s.expire settings t).retryPass []
              (withAttempts t.retries
                s.pendingLobbies)).1 with
            pendingLobbies := kept } :=
      ⟨hSingle.of_eq rfl rfl rfl,
        hUnserved.of_eq rfl rfl rfl, hDeficit⟩
    refine
      once_matchNew (once_addRequests hAfter t.arrivals) ?_
    rw [pending_queued]
    exact hAttempts

theorem once_step
    {s' : State}
    {act : Act}
    (hOnce : Once s)
    (hOrder : AssignsInOrder settings s act)
    (hStep : step settings s act = some s') :
    Once s' := by
  cases act with
  | addRequest arrival =>
      cases hStep
      exact hOnce.of_eq rfl rfl rfl rfl rfl
  | iterate t =>
      cases hStep
      exact once_iterate hOnce hOrder

/-
  In every run whose iterations assign in order, no lobby is
  assigned twice.
-/
theorem assigned_once
    (settings : Settings)
    (s : State)
    (hRun :
      Machine.Reaches (step settings)
        (AssignsInOrder settings) State.empty s) :
    AssignedOnce s :=
  (hRun.invariant once_empty once_step).assignedOnce

end Matchmaking

------------------------------------------------------------
-- Two Lobbies
------------------------------------------------------------

namespace Matchmaking

/- The listing of the rooms raises. -/
def etcdDown : Attempt where
  listing := none
  publishes := true
  releases := true

/- Two pairs of players queue and find no room. -/
def twoLobbies : List Act :=
  [.addRequest
      { playerId := "ann", elo := 1000, timestamp := 0 },
    .addRequest
      { playerId := "bob", elo := 1010, timestamp := 0 },
    .addRequest
      { playerId := "cat", elo := 3000, timestamp := 0 },
    .addRequest
      { playerId := "dan", elo := 3010, timestamp := 0 },
    .iterate (tickWith noRoom)]

/- Each pending lobby gets a room of its own. -/
def tickBoth : Tick :=
  { tickWith noRoom with
    retries := fun k =>
      claimedRoom (if k = 0 then "beach" else "castle")
        true }

/- The claim for the second lobby raises. -/
def tickRaised : Tick :=
  { tickWith noRoom with
    retries := fun k =>
      if k = 0 then claimedRoom "arena" true else etcdDown }

def bothServed : List Act :=
  twoLobbies ++ [.iterate tickBoth]

def servedTwice : List Act :=
  twoLobbies ++ [.iterate tickRaised, .iterate tickBoth]

theorem assigned_once_bothServed :
    AssignedOnce
      (Machine.final (step {}) State.empty bothServed
        rfl) :=
  assigned_once {} _
    (Machine.reaches_of_run (Machine.run_eq_final rfl)
      (by decide +kernel))

theorem assigned_twice :
    Machine.Reachable (step {}) State.empty
        (Machine.final (step {}) State.empty servedTwice
          rfl) ∧
      ¬ AssignedOnce
        (Machine.final (step {}) State.empty servedTwice
          rfl) := by
  refine
    ⟨Machine.reachable_of_run (Machine.run_eq_final rfl),
      ?_⟩
  intro hOnce
  exact absurd (hOnce.found 0) (by decide +kernel)

end Matchmaking
