import MultiplayerInfra.Greedy.FirstLeast
import MultiplayerInfra.Leaderboard.Statistics

/-
  What a draw does to the win records: `end_match` names one
  winner even if several players share the top score, and
  `apply_match` counts a loss for the others.

  Key definitions include:
    * `Leaderboard.Leads`
    * `Leaderboard.recordChange`
    * `Leaderboard.DrawsAgree`

  Key theorems include:
    * `Leaderboard.leads_of_winner`
    * `Leaderboard.recordChange_eq`
    * `Leaderboard.drawsAgree_iff`
-/

------------------------------------------------------------
-- The Winner
------------------------------------------------------------

namespace Leaderboard

open Py GameRoom Greedy

variable {α : Type}

/- Nobody has a higher score. -/
def Leads
    (players : Players α)
    (pid : String) : Prop :=
  ∃ player,
    players.get? pid = some player ∧
      ∀ e ∈ players.entries, e.2.score ≤ player.score

/- The winner is the first of those with the top score. -/
theorem winner_eq_some_iff
    {g : GameLoop α}
    {pid : String} :
    g.winner = some pid ↔
      ∃ before player after,
        g.state.players.entries =
            before ++ (pid, player) :: after ∧
          (∀ e ∈ before, e.2.score < player.score) ∧
          ∀ e ∈ after, e.2.score ≤ player.score := by
  have hArgmax :
      g.winner =
        (g.state.players.entries.argmax (fun e =>
          e.2.score)).map Prod.fst := by
    unfold GameLoop.winner List.argmax
    congr 2
    funext best e
    cases best <;> rfl
  rw [hArgmax, Option.map_eq_some_iff]
  constructor
  · rintro ⟨⟨found, player⟩, hFirst, rfl⟩
    rcases firstLeast_of_argmax.mp hFirst with
      ⟨before, after, hParts⟩
    exact ⟨before, player, after, hParts⟩
  · rintro ⟨before, player, after, hParts⟩
    exact
      ⟨(pid, player),
        firstLeast_of_argmax.mpr ⟨before, after, hParts⟩, rfl⟩

theorem leads_of_winner
    {g : GameLoop α}
    {pid : String}
    (hWinner : g.winner = some pid) :
    Leads g.state.players pid := by
  rcases winner_eq_some_iff.mp hWinner with
    ⟨before, player, after, hEntries, hBefore, hAfter⟩
  have hThere : (pid, player) ∈ g.state.players.entries := by
    rw [hEntries]
    exact List.mem_append_right _ List.mem_cons_self
  refine ⟨player, g.state.players.get?_of_mem hThere, ?_⟩
  intro e hMem
  rw [hEntries] at hMem
  rcases List.mem_append.mp hMem with hEarly | hLate
  · exact (hBefore e hEarly).le
  · rcases List.mem_cons.mp hLate with rfl | hLater
    · exact le_refl _
    · exact hAfter e hLater

/- Somebody wins, if anybody plays. -/
theorem winner_isSome
    {g : GameLoop α}
    {pid : String}
    (hMem : pid ∈ g.state.players.keys) :
    ∃ winner, g.winner = some winner := by
  have hNonempty : g.state.players.entries ≠ [] := by
    intro hNobody
    rw [Dict.keys, hNobody] at hMem
    cases hMem
  rcases exists_first_greatest (fun e => e.2.score)
      hNonempty with
    ⟨before, ⟨winner, player⟩, after, hParts⟩
  exact
    ⟨winner,
      winner_eq_some_iff.mpr ⟨before, player, after, hParts⟩⟩

/- Whoever leads wins, had she joined first. -/
theorem winner_of_first
    {g : GameLoop α}
    {pid : String}
    {player : PlayerState α}
    {others : List (String × PlayerState α)}
    (hFirst :
      g.state.players.entries = (pid, player) :: others)
    (hLeads :
      ∀ e ∈ others, e.2.score ≤ player.score) :
    g.winner = some pid := by
  rw [winner_eq_some_iff]
  exact ⟨[], player, others, hFirst, by simp, hLeads⟩

/- Leading does not depend on the order of joining. -/
theorem Leads.perm
    {players players' : Players α}
    (hPerm : players'.entries.Perm players.entries)
    {pid : String}
    (hLeads : Leads players' pid) :
    Leads players pid := by
  rcases hLeads with ⟨player, hGet, hMost⟩
  refine ⟨player, ?_, fun e hMem => ?_⟩
  · rw [← Dict.get?_of_perm hPerm]
    exact hGet
  · exact hMost e (hPerm.mem_iff.mpr hMem)

/- The players, with one of them as the first to join. -/
theorem exists_joined_first
    {players : Players α}
    {pid : String}
    (hLeads : Leads players pid) :
    ∃ (players' : Players α) (player : PlayerState α)
        (others : List (String × PlayerState α)),
      players'.entries.Perm players.entries ∧
        players'.entries = (pid, player) :: others ∧
        ∀ e ∈ others, e.2.score ≤ player.score := by
  rcases hLeads with ⟨player, hGet, hMost⟩
  rcases List.append_of_mem (Dict.mem_of_get? hGet) with
    ⟨before, after, hEntries⟩
  have hPerm :
      ((pid, player) :: (before ++ after)).Perm
        players.entries := by
    rw [hEntries]
    exact List.perm_middle.symm
  refine
    ⟨⟨(pid, player) :: (before ++ after),
        (hPerm.map Prod.fst).nodup_iff.mpr players.nodup⟩,
      player, before ++ after, hPerm, rfl, ?_⟩
  intro e hMem
  exact
    hMost e
      (hPerm.mem_iff.mp (List.mem_cons_of_mem _ hMem))

end Leaderboard

------------------------------------------------------------
-- Records
------------------------------------------------------------

namespace Leaderboard

open Py GameRoom

variable {α β : Type} [RatingNumber β]

/-
  By how much the wins and the losses of a player grow when
  the event is applied; `none` without a row.
-/
def recordChange
    (board : Board β)
    (event : MatchEnd)
    (pid : String) : Option (Int × Int) := do
  let row ← board.players.get? pid
  let row' ← (applyMatch board event).1.players.get? pid
  return ((row'.wins : Int) - row.wins,
    (row'.losses : Int) - row.losses)

/- A duplicate changes no record. -/
theorem recordChange_of_mem
    {board : Board β}
    {event : MatchEnd}
    (hMem : matchKey event ∈ board.processed)
    (pid : String) :
    recordChange board event pid =
      (board.players.get? pid).map (fun _ => (0, 0)) := by
  rw [recordChange, applyMatch_of_mem hMem]
  cases hRow : board.players.get? pid with
  | none => rfl
  | some row => simp

/- The winner has a win more, the others have a loss more. -/
theorem recordChange_eq
    {board : Board β}
    {event : MatchEnd}
    (hNew : matchKey event ∉ board.processed)
    (pid : String) :
    recordChange board event pid =
      (board.players.get? pid).map (fun _ =>
        if pid ∈ event.players then
          if event.outcome.winner = some pid then (1, 0)
          else (0, 1)
        else (0, 0)) := by
  rcases get?_rate board event pid with ⟨ratings, hRate⟩
  have hAfter :
      (applyMatch board event).1.players =
        rate board event := by
    rw [applyMatch, if_neg hNew]
  rw [recordChange, hAfter, hRate]
  cases hRow : board.players.get? pid with
  | none => rfl
  | some row =>
      by_cases hPlayed : pid ∈ event.players
      · by_cases hWon : event.outcome.winner = some pid
        · simp [hPlayed, hWon, updatedRow]
        · simp [hPlayed, hWon, updatedRow]
      · simp [hPlayed]

/-
  Equal scores change the records of two rated players by the
  same, and nobody's record depends on who joined first.
-/
def DrawsAgree
    (board : Board β)
    (g : GameLoop α)
    (now : Timestamp) : Prop :=
  (∀ pid pid' player player',
    g.state.players.get? pid = some player →
    g.state.players.get? pid' = some player' →
    player.score = player'.score →
    pid ∈ board.players.keys →
    pid' ∈ board.players.keys →
      recordChange board (g.lifecycleEvent now) pid =
        recordChange board (g.lifecycleEvent now) pid') ∧
  ∀ players' : Players α,
    players'.entries.Perm g.state.players.entries →
      ∀ pid,
        recordChange board
            ((g.setPlayers players').lifecycleEvent now)
            pid =
          recordChange board (g.lifecycleEvent now) pid

/- The record of a player of a match that is applied. -/
theorem recordChange_of_rated
    {board : Board β}
    {g : GameLoop α}
    {now : Timestamp}
    {pid : String}
    (hNew : matchKey (g.lifecycleEvent now) ∉ board.processed)
    (hPlays : pid ∈ g.state.players.keys)
    (hRated : pid ∈ board.players.keys) :
    recordChange board (g.lifecycleEvent now) pid =
      some (if g.winner = some pid then (1, 0)
        else (0, 1)) := by
  rcases Dict.mem_keys_iff.mp hRated with ⟨row, hRow⟩
  have hPlayed :
      pid ∈ (g.lifecycleEvent now).players := hPlays
  rw [recordChange_eq hNew, hRow, Option.map_some,
    if_pos hPlayed]
  rfl

/-
  A rated player who leads is the only leader, if the record
  does not depend on who joined first.
-/
theorem only_leader_of_drawsAgree
    {board : Board β}
    {g : GameLoop α}
    {now : Timestamp}
    (hAgree : DrawsAgree board g now)
    (hNew : matchKey (g.lifecycleEvent now) ∉ board.processed)
    {pid pid' : String}
    (hLeads : Leads g.state.players pid)
    (hLeads' : Leads g.state.players pid')
    (hRated : pid ∈ board.players.keys) :
    pid' = pid := by
  by_contra hOther
  rcases exists_joined_first hLeads with
    ⟨players₁, player₁, others₁, hPerm₁, hFirst₁, hMost₁⟩
  rcases exists_joined_first hLeads' with
    ⟨players₂, player₂, others₂, hPerm₂, hFirst₂, hMost₂⟩
  have hPlays : pid ∈ g.state.players.keys := by
    rcases hLeads with ⟨player, hGet, _⟩
    exact Dict.mem_keys_iff.mpr ⟨player, hGet⟩
  have hJoined :
      ∀ players' : Players α,
        players'.entries.Perm g.state.players.entries →
          pid ∈ (g.setPlayers players').state.players.keys := by
    intro players' hPerm
    exact (hPerm.map Prod.fst).mem_iff.mpr hPlays
  have hWins :
      (g.setPlayers players₁).winner = some pid :=
    winner_of_first hFirst₁ hMost₁
  have hLoses :
      (g.setPlayers players₂).winner = some pid' :=
    winner_of_first hFirst₂ hMost₂
  have hSame :=
    (hAgree.2 players₁ hPerm₁ pid).trans
      (hAgree.2 players₂ hPerm₂ pid).symm
  rw [recordChange_of_rated (g := g.setPlayers players₁)
      hNew (hJoined _ hPerm₁) hRated,
    recordChange_of_rated (g := g.setPlayers players₂)
      hNew (hJoined _ hPerm₂) hRated,
    hWins, hLoses, if_pos rfl,
    if_neg (fun h => hOther (Option.some.inj h))] at hSame
  simp at hSame

/- A match that was counted before changes no record. -/
theorem drawsAgree_of_mem
    {board : Board β}
    {g : GameLoop α}
    {now : Timestamp}
    (hOld : matchKey (g.lifecycleEvent now) ∈ board.processed) :
    DrawsAgree board g now := by
  constructor
  · intro pid pid' _ _ _ _ _ hRated hRated'
    rcases Dict.mem_keys_iff.mp hRated with ⟨row, hRow⟩
    rcases Dict.mem_keys_iff.mp hRated' with ⟨row', hRow'⟩
    rw [recordChange_of_mem hOld, recordChange_of_mem hOld,
      hRow, hRow']
    rfl
  · intro players' _ pid
    have hOld' :
        matchKey
            ((g.setPlayers players').lifecycleEvent now) ∈
          board.processed := hOld
    rw [recordChange_of_mem hOld, recordChange_of_mem hOld']

/- Whoever ties with a leader leads. -/
theorem Leads.of_score_eq
    {players : Players α}
    {pid pid' : String}
    {player player' : PlayerState α}
    (hLeads : Leads players pid)
    (hGet : players.get? pid = some player)
    (hGet' : players.get? pid' = some player')
    (hScores : player.score = player'.score) :
    Leads players pid' := by
  rcases hLeads with ⟨leader, hLeader, hMost⟩
  rw [hGet] at hLeader
  cases hLeader
  refine ⟨player', hGet', fun e hMem => ?_⟩
  rw [← hScores]
  exact hMost e hMem

section OnlyLeader

variable {board : Board β}
variable {g : GameLoop α}
variable {pid pid' : String}
variable
  (hOnly :
    ∀ pid pid',
      Leads g.state.players pid →
      Leads g.state.players pid' →
      pid ∈ board.players.keys →
        pid' = pid)

include hOnly

omit [RatingNumber β] in
/- A winner of a draw would not be the only leader. -/
theorem winner_ne_of_tie
    {player player' : PlayerState α}
    (hGet : g.state.players.get? pid = some player)
    (hGet' : g.state.players.get? pid' = some player')
    (hScores : player.score = player'.score)
    (hRated : pid ∈ board.players.keys)
    (hOther : pid' ≠ pid) :
    g.winner ≠ some pid := by
  intro hWins
  have hLeads := leads_of_winner hWins
  have hLeads' := hLeads.of_score_eq hGet hGet' hScores
  exact hOther (hOnly pid pid' hLeads hLeads' hRated)

omit [RatingNumber β] in
/- The order of joining does not decide who wins. -/
theorem winner_setPlayers_iff
    {players' : Players α}
    (hPerm :
      players'.entries.Perm g.state.players.entries)
    (hPlays : pid ∈ g.state.players.keys)
    (hRated : pid ∈ board.players.keys) :
    (g.setPlayers players').winner = some pid ↔
      g.winner = some pid := by
  have hPlays' :
      pid ∈ (g.setPlayers players').state.players.keys :=
    (hPerm.map Prod.fst).mem_iff.mpr hPlays
  constructor
  · intro hWins
    have hLeads := (leads_of_winner hWins).perm hPerm
    rcases winner_isSome hPlays with ⟨winner, hWinner⟩
    rw [hWinner,
      hOnly pid winner hLeads (leads_of_winner hWinner)
        hRated]
  · intro hWins
    have hLeads := leads_of_winner hWins
    rcases winner_isSome hPlays' with ⟨winner, hWinner⟩
    rw [hWinner,
      hOnly pid winner hLeads
        ((leads_of_winner hWinner).perm hPerm) hRated]

/- Nor does it change a record. -/
theorem recordChange_setPlayers
    {now : Timestamp}
    (hNew : matchKey (g.lifecycleEvent now) ∉ board.processed)
    {players' : Players α}
    (hPerm :
      players'.entries.Perm g.state.players.entries) :
    recordChange board
        ((g.setPlayers players').lifecycleEvent now) pid =
      recordChange board (g.lifecycleEvent now) pid := by
  have hNew' :
      matchKey ((g.setPlayers players').lifecycleEvent now) ∉
        board.processed := hNew
  have hKeys :
      pid ∈ (g.setPlayers players').state.players.keys ↔
        pid ∈ g.state.players.keys :=
    (hPerm.map Prod.fst).mem_iff
  by_cases hRated : pid ∈ board.players.keys
  · by_cases hPlays : pid ∈ g.state.players.keys
    · have hWinner :=
        winner_setPlayers_iff hOnly hPerm hPlays hRated
      rw [recordChange_of_rated hNew' (hKeys.mpr hPlays)
          hRated,
        recordChange_of_rated hNew hPlays hRated]
      simp only [hWinner]
    · have hAway :
          pid ∉ ((g.setPlayers players').lifecycleEvent
            now).players :=
        fun hMem => hPlays (hKeys.mp hMem)
      have hAway' :
          pid ∉ (g.lifecycleEvent now).players := hPlays
      rw [recordChange_eq hNew', recordChange_eq hNew,
        if_neg hAway, if_neg hAway']
  · rw [recordChange_eq hNew', recordChange_eq hNew,
      Dict.get?_eq_none_iff.mpr hRated]
    rfl

end OnlyLeader

/-
  The win records treat draws as the ratings do exactly if a
  rated player who leads is the only leader, or the match was
  counted before.
-/
theorem drawsAgree_iff
    (board : Board β)
    (g : GameLoop α)
    (now : Timestamp) :
    DrawsAgree board g now ↔
      matchKey (g.lifecycleEvent now) ∈ board.processed ∨
        ∀ pid pid',
          Leads g.state.players pid →
          Leads g.state.players pid' →
          pid ∈ board.players.keys →
            pid' = pid := by
  by_cases hOld :
      matchKey (g.lifecycleEvent now) ∈ board.processed
  · exact iff_of_true (drawsAgree_of_mem hOld) (.inl hOld)
  · rw [or_iff_right hOld]
    constructor
    · intro hAgree pid pid' hLeads hLeads' hRated
      exact
        only_leader_of_drawsAgree hAgree hOld hLeads hLeads'
          hRated
    · intro hOnly
      constructor
      · intro pid pid' player player' hGet hGet' hScores
          hRated hRated'
        by_cases hSame : pid = pid'
        · rw [hSame]
        · have hPlays :=
            Dict.mem_keys_iff.mpr ⟨player, hGet⟩
          have hPlays' :=
            Dict.mem_keys_iff.mpr ⟨player', hGet'⟩
          have hNeither :=
            winner_ne_of_tie hOnly hGet hGet' hScores hRated
              (Ne.symm hSame)
          have hNeither' :=
            winner_ne_of_tie hOnly hGet' hGet hScores.symm
              hRated' hSame
          rw [recordChange_of_rated hOld hPlays hRated,
            recordChange_of_rated hOld hPlays' hRated',
            if_neg hNeither, if_neg hNeither']
      · intro players' hPerm pid
        exact recordChange_setPlayers hOnly hOld hPerm

/- Nobody scores: Ann, who joined first, wins against Bob. -/
theorem goalless_draw_has_winner :
    ¬ DrawsAgree
        { processed := []
          players :=
            (Dict.empty.set "ann"
              (⟨1200, 0, 0, 0, 0⟩ : PlayerRow Rat)).set "bob"
              ⟨1200, 0, 0, 0, 0⟩ }
        ((GameLoop.new {} "room-1" 0 : GameLoop Int).setPlayers
          ((Dict.empty.set "ann" (PlayerState.new "ann")).set
            "bob" (PlayerState.new "bob")))
        300 := by
  intro hAgree
  have hOnly : "bob" = "ann" := by
    refine only_leader_of_drawsAgree hAgree ?_ ?_ ?_ ?_
    · simp
    · exact ⟨PlayerState.new "ann", by decide, by decide⟩
    · exact ⟨PlayerState.new "bob", by decide, by decide⟩
    · simp [Dict.mem_keys_set]
  revert hOnly
  decide

end Leaderboard
