import MultiplayerInfra.Room.Rating

/-
  The results of ended matches: what was acknowledged on
  `match.lifecycle` before a match is deleted or recorded.

  Key definitions include:
    * `Room.Results`
    * `Room.resultsStep`
    * `Room.endPublishRaises`
    * `Room.ResultsKept`
    * `Room.EndAcked`

  Key theorems include:
    * `Room.endAcked_step`
    * `Room.results_kept`

  `end_match` goes on in the same way whether or not the
  publish of `match.end` has succeeded.
-/

------------------------------------------------------------
-- Acknowledged Results
------------------------------------------------------------

namespace Room

open Py GameRoom

variable {α : Type}

/- A room, with the lifecycle messages acknowledged to it. -/
structure Results (α : Type) where
  room : State α
  acked : List LifecycleEntry

def Results.empty : Results α where
  room := State.empty
  acked := []

/- The message whose acknowledgement a step receives. -/
def ackedEnd :
    Option (Leader α) → Act α → Option LifecycleEntry
| some ⟨_, matchNo, .inRun (.publishingEnd event true)⟩,
    .resume (.ok _) => some ⟨event, matchNo⟩
| _, _ => none

/- The publish of a `match.end` raises in this step. -/
def endPublishRaises : Option (Leader α) → Act α → Bool
| some ⟨_, _, .inRun (.publishingEnd _ _)⟩,
    .resume (.fail _) => true
| _, _ => false

def resultsStep
    [PyNumber α]
    (settings : Settings)
    (interval : Nat)
    (matchId : String)
    (s : Results α)
    (act : Act α) : Option (Results α) :=
  (step settings interval matchId s.room act).map (fun room =>
    { room := room
      acked :=
        s.acked ++ (ackedEnd s.room.leader act).toList })

/- No publish of a `match.end` raises. -/
def ResultsOk (s : Results α) (act : Act α) : Prop :=
  endPublishRaises s.room.leader act = false

instance
    (s : Results α)
    (act : Act α) :
    Decidable (ResultsOk s act) :=
  inferInstanceAs (Decidable (_ = false))

/- The event is about the match of these columns. -/
structure IsResult
    (matchId : String)
    (startedAt : Timestamp)
    (event : MatchEnd) : Prop where
  matchId : event.matchId = matchId
  startedAt : event.startedAt = startedAt

/- The `match.end` of a match is acknowledged, and logged. -/
def Results.Acked
    (s : Results α)
    (matchNo : Nat)
    (matchId : String)
    (startedAt : Timestamp) : Prop :=
  ∃ event, IsResult matchId startedAt event ∧
    ⟨event, matchNo⟩ ∈ s.acked ∧
      ⟨event, matchNo⟩ ∈ s.room.stores.lifecycle

/-
  The result is acknowledged before the keys of the match are
  deleted and the next match starts; and the result of every
  row of `matches` is.
-/
structure ResultsKept (s : Results α) : Prop where
  deleting :
    ∀ g matchNo applied,
      s.room.leader = some ⟨g, matchNo, .deleting applied⟩ →
        s.Acked matchNo g.matchId g.state.startedAt
  rows :
    ∀ row ∈ s.room.stores.matchRows,
      ∃ matchNo,
        s.Acked matchNo row.matchId row.startedAt

end Room

------------------------------------------------------------
-- Invariant
------------------------------------------------------------

namespace Room

open Py GameRoom

variable {α : Type}

/- The result of an ended match is still to be published. -/
def Ending : Await α → Prop
| .closingSockets => True
| .publishingEnd _ _ => True
| _ => False

/- The end of the task's match is acknowledged when it must. -/
structure TaskAcked
    (s : Results α)
    (matchNo : Nat)
    (g : GameLoop α)
    (aw : Await α) : Prop where
  running : g.matchEnded = false → g.running = true
  ended : InEnd aw → g.matchEnded = true
  returned : aw = .returned → g.matchEnded = true
  acked :
    g.matchEnded = true → ¬ Ending aw →
      s.Acked matchNo g.matchId g.state.startedAt
  event :
    ∀ event kept, aw = .publishingEnd event kept →
      IsResult g.matchId g.state.startedAt event ∧
        (kept = true →
          ⟨event, matchNo⟩ ∈ s.room.stores.lifecycle)
  row :
    ∀ attempt row applied,
      aw = .savingMatch attempt row applied ∨
          aw = .retryingSave attempt row →
        row.matchId = g.matchId ∧
          row.startedAt = g.state.startedAt

/- What is known of the leader and of the rows. -/
structure EndAcked (s : Results α) : Prop where
  task :
    ∀ g matchNo aw,
      s.room.leader = some ⟨g, matchNo, .inRun aw⟩ →
        TaskAcked s matchNo g aw
  kept : ResultsKept s

theorem endAcked_empty :
    EndAcked (Results.empty : Results α) where
  task := by
    intro g matchNo aw hLeader
    cases hLeader
  kept :=
    { deleting := by
        intro g matchNo applied hLeader
        cases hLeader
      rows := by
        intro row hMem
        cases hMem }

/- Acknowledgements and messages are not withdrawn. -/
structure AckedGrows (s t : Results α) : Prop where
  acked : s.acked ⊆ t.acked
  lifecycle :
    s.room.stores.lifecycle ⊆ t.room.stores.lifecycle

theorem Results.Acked.mono
    {s t : Results α}
    {matchNo : Nat}
    {matchId : String}
    {startedAt : Timestamp}
    (hAcked : s.Acked matchNo matchId startedAt)
    (hGrows : AckedGrows s t) :
    t.Acked matchNo matchId startedAt := by
  rcases hAcked with ⟨event, hIs, hOld, hLogged⟩
  exact
    ⟨event, hIs, hGrows.acked hOld,
      hGrows.lifecycle hLogged⟩

/- A loop of the same match in the same phase. -/
theorem TaskAcked.mono
    {s t : Results α}
    {matchNo : Nat}
    {g g' : GameLoop α}
    {aw : Await α}
    (hTask : TaskAcked s matchNo g aw)
    (hGrows : AckedGrows s t)
    (hId : g'.matchId = g.matchId)
    (hStarted : g'.state.startedAt = g.state.startedAt)
    (hRunning : g'.running = g.running)
    (hEnded : g'.matchEnded = g.matchEnded) :
    TaskAcked t matchNo g' aw := by
  rcases hTask with
    ⟨hRun, hEnd, hReturned, hAcked, hEvent, hRow⟩
  rw [← hRunning, ← hEnded] at hRun
  rw [← hEnded] at hEnd hReturned hAcked
  rw [← hId, ← hStarted] at hAcked hEvent
  simp only [← hId, ← hStarted] at hRow
  refine ⟨hRun, hEnd, hReturned, ?_, ?_, hRow⟩
  · intro hFlag hNot
    exact (hAcked hFlag hNot).mono hGrows
  · intro event kept hAwait
    rcases hEvent event kept hAwait with ⟨hIs, hLogged⟩
    exact ⟨hIs, fun hKept => hGrows.lifecycle (hLogged hKept)⟩

end Room

------------------------------------------------------------
-- The Run Task
------------------------------------------------------------

namespace Room

open Py GameRoom

variable {α : Type}
variable {s t : Results α}
variable {matchNo : Nat}
variable {g : GameLoop α}
variable {aw aw' : Await α}

theorem AckedGrows.refl
    (s : Results α) :
    AckedGrows s s where
  acked := List.Subset.refl _
  lifecycle := List.Subset.refl _

/- The next await of a task that has no end to publish. -/
theorem TaskAcked.next
    (hTask : TaskAcked s matchNo g aw)
    (hGrows : AckedGrows s t)
    (hNot : ¬ Ending aw)
    (hEnded : InEnd aw' → g.matchEnded = true)
    (hReturned : aw' = .returned → g.matchEnded = true)
    (hEvent : ∀ event kept, aw' ≠ .publishingEnd event kept)
    (hRow :
      ∀ attempt row applied,
        aw' = .savingMatch attempt row applied ∨
            aw' = .retryingSave attempt row →
          row.matchId = g.matchId ∧
            row.startedAt = g.state.startedAt) :
    TaskAcked t matchNo g aw' where
  running := hTask.running
  ended := hEnded
  returned := hReturned
  acked := fun hFlag _ => (hTask.acked hFlag hNot).mono hGrows
  event := fun event kept hAwait =>
    absurd hAwait (hEvent event kept)
  row := hRow

/- The awaits that say nothing about the end of a match. -/
def Quiet : Await α → Prop
| .starting => True
| .sleeping => True
| .publishing _ _ _ => True
| .updatingRedis _ _ _ => True
| _ => False

theorem TaskAcked.quiet
    (hTask : TaskAcked s matchNo g aw)
    (hGrows : AckedGrows s t)
    (hNot : ¬ Ending aw)
    (hQuiet : Quiet aw') :
    TaskAcked t matchNo g aw' := by
  cases aw' with
  | starting =>
      exact hTask.next hGrows hNot nofun nofun nofun nofun
  | sleeping =>
      exact hTask.next hGrows hNot nofun nofun nofun nofun
  | publishing next event kept =>
      exact hTask.next hGrows hNot nofun nofun nofun nofun
  | updatingRedis tick cmd applied =>
      exact hTask.next hGrows hNot nofun nofun nofun nofun
  | _ => cases hQuiet

/- A row of the own match is saved, or saved again. -/
theorem TaskAcked.saving
    (hTask : TaskAcked s matchNo g aw)
    (hGrows : AckedGrows s t)
    (hIn : InEnd aw)
    (hNot : ¬ Ending aw)
    {row : MatchRecord}
    (hRow :
      row.matchId = g.matchId ∧
        row.startedAt = g.state.startedAt)
    {attempt : Nat}
    (hNext :
      (∃ applied, aw' = .savingMatch attempt row applied) ∨
        aw' = .retryingSave attempt row) :
    TaskAcked t matchNo g aw' := by
  have hFlag := hTask.ended hIn
  rcases hNext with ⟨applied, rfl⟩ | rfl
  · refine
      hTask.next hGrows hNot (fun _ => hFlag) nofun nofun ?_
    intro _ _ _ hSame
    rcases hSame with hSame | hSame
    · cases hSame
      exact hRow
    · cases hSame
  · refine
      hTask.next hGrows hNot (fun _ => hFlag) nofun nofun ?_
    intro _ _ _ hSame
    rcases hSame with hSame | hSame
    · cases hSame
    · cases hSame
      exact hRow

variable [PyNumber α]
variable {g' : GameLoop α}
variable {st' : Stores α}
variable {r : Reply}

/- A step of the task outside the publish of the end. -/
theorem taskAcked_awaits
    (hTask : TaskAcked s matchNo g aw)
    (hGrows : AckedGrows s t)
    (hNot : ∀ event kept, aw ≠ .publishingEnd event kept)
    (hAwaits :
      Awaits matchNo s.room.stores g aw r st' g' aw') :
    TaskAcked t matchNo g' aw' := by
  have hRefl := AckedGrows.refl t
  cases hAwaits with
  | head hResumes =>
      have hNot : ¬ Ending aw := by
        cases hResumes <;> exact id
      rcases hHead : loopHead g with ⟨g₁, aw₁⟩
      cases heads_loopHead hHead with
      | @publish _ next event hRunning hBegin =>
          rcases frame_beginTick hBegin with
            ⟨hState, hId, hRun, hEnd, _⟩
          have hNext :
              TaskAcked t matchNo g
                (.publishing next event none) :=
            hTask.quiet hGrows hNot trivial
          exact
            hNext.mono hRefl hId
              (congrArg GameState.startedAt hState) hRun hEnd
      | pause hRunning hBegin =>
          rcases frame_beginTick hBegin with
            ⟨hState, hId, hRun, hEnd, _⟩
          have hNext : TaskAcked t matchNo g .sleeping :=
            hTask.quiet hGrows hNot trivial
          exact
            hNext.mono hRefl hId
              (congrArg GameState.startedAt hState) hRun hEnd
      | finish hDone =>
          have hFlag : g.matchEnded = true := by
            by_contra hUnset
            have hOpen := Bool.not_eq_true _ ▸ hUnset
            exact hDone ⟨hTask.running hOpen, hOpen⟩
          exact
            hTask.next hGrows hNot nofun (fun _ => hFlag)
              nofun nofun
  | appendEvent => exact hTask.quiet hGrows id trivial
  | @commit next event offset now =>
      have hNext :
          TaskAcked t matchNo g
            (.updatingRedis event.tickOrZero
              (.setState
                (g.commitTick next event
                  offset).state.toDict) false) :=
        hTask.quiet hGrows id trivial
      exact hNext.mono hRefl rfl rfl rfl rfl
  | dropTick => exact hTask.quiet hGrows id trivial
  | redisEffect => exact hTask.quiet hGrows id trivial
  | redisNext _ => exact hTask.quiet hGrows id trivial
  | redisDone _ =>
      unfold finishTick
      split
      · exact
          ⟨nofun, fun _ => rfl, nofun,
            fun _ hEnding => absurd trivial hEnding, nofun,
            nofun⟩
      · exact hTask.quiet hGrows id trivial
  | redisFail => exact hTask.quiet hGrows id trivial
  | farewell =>
      have hFlag := hTask.ended trivial
      refine
        ⟨hTask.running, fun _ => hFlag, nofun,
          fun _ hEnding => absurd trivial hEnding, ?_, nofun⟩
      intro event kept hAwait
      cases hAwait
      exact ⟨⟨rfl, rfl⟩, nofun⟩
  | appendEnd => exact absurd rfl (hNot _ _)
  | endPublished => exact absurd rfl (hNot _ _)
  | endTelemetry =>
      unfold writeMatchRecord
      split
      · exact hTask.quiet hGrows id trivial
      · exact
          hTask.saving hGrows trivial id ⟨rfl, rfl⟩
            (.inl ⟨_, rfl⟩)
  | @saveEffect attempt row =>
      exact
        hTask.saving hGrows trivial id
          (hTask.row attempt row false (.inl rfl))
          (.inl ⟨_, rfl⟩)
  | saved => exact hTask.quiet hGrows id trivial
  | @saveFailed attempt row applied now =>
      exact
        hTask.saving hGrows trivial id
          (hTask.row attempt row applied (.inl rfl))
          (.inr rfl)
  | @retry attempt row now =>
      unfold retrySave
      split
      · exact
          hTask.saving hGrows trivial id ⟨rfl, rfl⟩
            (.inl ⟨_, rfl⟩)
      · exact hTask.quiet hGrows id trivial

/- The publish of the end, and its acknowledgement. -/
theorem taskAcked_publishingEnd
    {event : MatchEnd}
    {kept : Bool}
    (hTask :
      TaskAcked s matchNo g (.publishingEnd event kept))
    (hGrows : AckedGrows s t)
    (hStep :
      awaitStep matchNo s.room.stores g
          (.publishingEnd event kept) r =
        some (st', g', aw'))
    (hStores : t.room.stores = st')
    (hAcked :
      (ackedEnd
          (some
            ⟨g, matchNo, .inRun (.publishingEnd event kept)⟩)
          (.resume r : Act α)).toList ⊆ t.acked)
    (hOk :
      endPublishRaises
          (some
            ⟨g, matchNo, .inRun (.publishingEnd event kept)⟩)
          (.resume r : Act α) = false) :
    TaskAcked t matchNo g' aw' := by
  have hFlag := hTask.ended trivial
  rcases hTask.event event kept rfl with ⟨hIs, hLogged⟩
  cases r with
  | effect =>
      cases kept with
      | true => cases hStep
      | false =>
          cases hStep
          refine
            ⟨hTask.running, fun _ => hFlag, nofun,
              fun _ hEnding => absurd trivial hEnding, ?_,
              nofun⟩
          intro event' kept' hAwait
          cases hAwait
          refine ⟨hIs, fun _ => ?_⟩
          rw [hStores]
          exact
            List.mem_append_right _
              (List.mem_singleton_self _)
  | ok now =>
      cases kept with
      | false => cases hStep
      | true =>
          cases hStep
          have hEntry : (⟨event, matchNo⟩ : LifecycleEntry) ∈
              t.acked :=
            hAcked (List.mem_singleton_self _)
          refine
            ⟨hTask.running, fun _ => hFlag, nofun,
              fun _ _ =>
                ⟨event, hIs, hEntry,
                  hGrows.lifecycle (hLogged rfl)⟩,
              nofun, nofun⟩
  | fail now => cases hOk

/- Only a save adds a row to `matches`. -/
theorem matchRows_of_awaits
    (hAwaits :
      Awaits matchNo s.room.stores g aw r st' g' aw')
    {row : MatchRecord}
    (hMem : row ∈ st'.matchRows) :
    row ∈ s.room.stores.matchRows ∨
      ∃ attempt, aw = .savingMatch attempt row false := by
  cases hAwaits with
  | @saveEffect attempt row' =>
      unfold Stores.saveMatch at hMem
      split at hMem
      · exact .inl hMem
      · rcases List.mem_append.mp hMem with hOld | hNew
        · exact .inl hOld
        · rw [List.mem_singleton.mp hNew]
          exact .inr ⟨attempt, rfl⟩
  | _ => exact .inl hMem

end Room

------------------------------------------------------------
-- Steps
------------------------------------------------------------

namespace Room

open Py GameRoom

variable {α : Type} [PyNumber α]
variable {settings : Settings}
variable {interval : Nat}
variable {matchId : String}
variable {s t : Results α}

/- Players change neither the match nor its phase. -/
theorem Plays.sameMatch
    {g g' : GameLoop α}
    (hPlays : Plays g g') :
    g'.matchId = g.matchId ∧
      g'.state.startedAt = g.state.startedAt ∧
        g'.running = g.running ∧
          g'.matchEnded = g.matchEnded := by
  cases hPlays with
  | input playerId inputData => exact ⟨rfl, rfl, rfl, rfl⟩
  | join playerId hold =>
      unfold GameLoop.addPlayer
      split
      · exact ⟨rfl, rfl, rfl, rfl⟩
      · split <;> exact ⟨rfl, rfl, rfl, rfl⟩
  | leave playerId =>
      unfold GameLoop.removePlayer
      split <;> exact ⟨rfl, rfl, rfl, rfl⟩

omit [PyNumber α] in
/- A loop that begins has not ended its match. -/
theorem taskAcked_begin
    {g : GameLoop α}
    (matchNo : Nat)
    (hFlag : g.matchEnded = false) :
    TaskAcked s matchNo (beginRun g).1 .starting := by
  have hUnset : (beginRun g).1.matchEnded ≠ true := by
    change g.matchEnded ≠ true
    rw [hFlag]
    exact Bool.false_ne_true
  exact
    ⟨fun _ => rfl, nofun, nofun,
      fun hEnded => absurd hEnded hUnset, nofun, nofun⟩

/- The lifecycle topic and the acknowledgements only grow. -/
theorem ackedGrows_step
    {act : Act α}
    (hStep :
      resultsStep settings interval matchId s act = some t) :
    AckedGrows s t := by
  rcases Option.map_eq_some_iff.mp hStep with
    ⟨room, hRoom, rfl⟩
  refine ⟨List.subset_append_left _ _, ?_⟩
  intro entry hMem
  exact lifecycle_step hRoom hMem

omit [PyNumber α] in
/- What a step leaves of the leader and of the rows. -/
theorem EndAcked.of_same
    (hEnd : EndAcked s)
    (hGrows : AckedGrows s t)
    (hTask :
      ∀ g matchNo aw,
        t.room.leader = some ⟨g, matchNo, .inRun aw⟩ →
          TaskAcked t matchNo g aw)
    (hDeleting :
      ∀ g matchNo applied,
        t.room.leader =
            some ⟨g, matchNo, .deleting applied⟩ →
          t.Acked matchNo g.matchId g.state.startedAt)
    (hRows :
      t.room.stores.matchRows = s.room.stores.matchRows) :
    EndAcked t := by
  refine ⟨hTask, hDeleting, ?_⟩
  intro row hMem
  rw [hRows] at hMem
  rcases hEnd.kept.rows row hMem with ⟨matchNo, hAcked⟩
  exact ⟨matchNo, hAcked.mono hGrows⟩

omit [PyNumber α] in
/- The leader goes on as it was. -/
theorem EndAcked.of_leader
    (hEnd : EndAcked s)
    (hGrows : AckedGrows s t)
    (hLeader : t.room.leader = s.room.leader)
    (hRows :
      t.room.stores.matchRows = s.room.stores.matchRows) :
    EndAcked t := by
  refine hEnd.of_same hGrows ?_ ?_ hRows
  · intro g no aw hNow
    rw [hLeader] at hNow
    exact
      (hEnd.task g no aw hNow).mono hGrows rfl rfl rfl rfl
  · intro g no applied hNow
    rw [hLeader] at hNow
    exact (hEnd.kept.deleting g no applied hNow).mono hGrows

/- The run task of the leader gets a reply. -/
theorem endAcked_resume
    {r : Reply}
    {g g' : GameLoop α}
    {no : Nat}
    {aw aw' : Await α}
    {stores : Stores α}
    (hEnd : EndAcked s)
    (hGrows : AckedGrows s t)
    (hOk : ResultsOk s (.resume r))
    (hLeader : s.room.leader = some ⟨g, no, .inRun aw⟩)
    (hAwait :
      awaitStep no s.room.stores g aw r =
        some (stores, g', aw'))
    (hNow : t.room.leader = some ⟨g', no, .inRun aw'⟩)
    (hStores : t.room.stores = stores)
    (hAcked :
      (ackedEnd s.room.leader (.resume r : Act α)).toList ⊆
        t.acked) :
    EndAcked t := by
  have hTask := hEnd.task g no aw hLeader
  have hAwaits := awaits_of_awaitStep hAwait
  rw [ResultsOk, hLeader] at hOk
  rw [hLeader] at hAcked
  have hNext : TaskAcked t no g' aw' := by
    by_cases hPublish :
        ∃ event kept, aw = .publishingEnd event kept
    · rcases hPublish with ⟨event, kept, rfl⟩
      exact
        taskAcked_publishingEnd hTask hGrows hAwait hStores
          hAcked hOk
    · exact
        taskAcked_awaits hTask hGrows
          (fun event kept hSame =>
            hPublish ⟨event, kept, hSame⟩)
          hAwaits
  refine ⟨?_, ?_, ?_⟩
  · intro g₁ no₁ aw₁ hAt
    cases hNow.symm.trans hAt
    exact hNext
  · intro g₁ no₁ applied hAt
    cases hNow.symm.trans hAt
  · intro row hMem
    rw [hStores] at hMem
    rcases matchRows_of_awaits hAwaits hMem with
      hOld | ⟨attempt, rfl⟩
    · rcases hEnd.kept.rows row hOld with ⟨no₁, hWas⟩
      exact ⟨no₁, hWas.mono hGrows⟩
    · rcases hTask.row attempt row false (.inl rfl) with
        ⟨hId, hStarted⟩
      refine ⟨no, ?_⟩
      rw [hId, hStarted]
      exact
        (hTask.acked (hTask.ended trivial) id).mono hGrows

theorem endAcked_step
    {act : Act α}
    (hEnd : EndAcked s)
    (hOk : ResultsOk s act)
    (hStep :
      resultsStep settings interval matchId s act = some t) :
    EndAcked t := by
  have hGrows := ackedGrows_step hStep
  rcases Option.map_eq_some_iff.mp hStep with
    ⟨room, hRoom, rfl⟩
  by_cases hResume : ∃ r, act = .resume r
  · rcases hResume with ⟨r, rfl⟩
    simp only [step, resume] at hRoom
    split at hRoom
    · rename_i g matchNo aw hLeader
      rcases Option.map_eq_some_iff.mp hRoom with
        ⟨⟨stores, g', aw'⟩, hAwait, rfl⟩
      exact
        endAcked_resume hEnd hGrows hOk hLeader hAwait rfl rfl
          (List.subset_append_right _ _)
    · cases hRoom
  · cases steps_of_step hRoom with
    | takeover hLeader hLoad =>
        refine hEnd.of_same hGrows ?_ ?_ rfl
        · intro g no aw hNow
          cases hNow
          exact
            taskAcked_begin _ (matchEnded_loadState hLoad)
        · intro g no applied hNow
          cases hNow
    | resume hLeader hAwaits => exact absurd ⟨_, rfl⟩ hResume
    | @check g matchNo isLeader hLeader =>
        have hTask := hEnd.task g matchNo .returned hLeader
        refine hEnd.of_same hGrows ?_ ?_ rfl
        · intro g₁ no aw hNow
          cases isLeader <;> cases hNow
        · intro g₁ no applied hNow
          cases isLeader with
          | false => cases hNow
          | true =>
              cases hNow
              exact
                (hTask.acked (hTask.returned rfl) id).mono
                  hGrows
    | @deleteKeys g matchNo hLeader =>
        refine hEnd.of_same hGrows ?_ ?_ rfl
        · intro g₁ no aw hNow
          cases hNow
        · intro g₁ no applied hNow
          cases hNow
          exact
            (hEnd.kept.deleting g matchNo false hLeader).mono
              hGrows
    | reset hLeader =>
        refine hEnd.of_same hGrows ?_ ?_ rfl
        · intro g no aw hNow
          cases hNow
          exact taskAcked_begin _ rfl
        · intro g no applied hNow
          cases hNow
    | deleteFail hLeader =>
        refine hEnd.of_same hGrows ?_ ?_ rfl
        · intro g no aw hNow
          cases hNow
        · intro g no applied hNow
          cases hNow
    | @play _ ld g hLeader hPlays =>
        rcases ld with ⟨g₀, matchNo, task⟩
        rcases hPlays.sameMatch with
          ⟨hId, hStarted, hRunning, hEnded⟩
        refine hEnd.of_same hGrows ?_ ?_ rfl
        · intro g₁ no aw hNow
          cases hNow
          exact
            (hEnd.task g₀ matchNo aw hLeader).mono hGrows hId
              hStarted hRunning hEnded
        · intro g₁ no applied hNow
          cases hNow
          rw [hId, hStarted]
          exact
            (hEnd.kept.deleting g₀ matchNo applied
              hLeader).mono hGrows
    | crash =>
        refine hEnd.of_same hGrows ?_ ?_ rfl
        · intro g no aw hNow
          cases hNow
        · intro g no applied hNow
          cases hNow
    | evict => exact hEnd.of_leader hGrows rfl rfl
    | service hService => exact hEnd.of_leader hGrows rfl rfl

end Room

------------------------------------------------------------
-- No Result Is Lost
------------------------------------------------------------

namespace Room

open Py GameRoom
open Machine (Reaches Reachable reachable_of_run)
open Machine (reaches_of_run run_eq_final final)

variable {α : Type} [PyNumber α]

/-
  If no publish of a `match.end` raises, then no result is
  lost at its source.
-/
theorem results_kept
    (settings : Settings)
    (interval : Nat)
    (matchId : String)
    (s : Results α)
    (hRun :
      Reaches (resultsStep settings interval matchId)
        ResultsOk Results.empty s) :
    ResultsKept s := by
  have hEnd : EndAcked s :=
    hRun.invariant endAcked_empty endAcked_step
  exact hEnd.kept

/- The match of `oneMatch`, up to the deletion of its keys. -/
def publishedMatch : Results Int :=
  final (resultsStep ⟨1, 1⟩ 300 "room") Results.empty
    (oneMatch.take 26) (by decide +kernel)

/- The same, but the publish of the end raises. -/
def unpublishedMatch : Results Int :=
  final (resultsStep ⟨1, 1⟩ 300 "room") Results.empty
    (oneMatch.take 18 ++ [.resume (.fail 109)] ++
      (oneMatch.take 26).drop 20)
    (by decide +kernel)

theorem results_kept_publishedMatch :
    publishedMatch.acked.length = 1 ∧
      publishedMatch.room.stores.matchRows.length = 1 ∧
      ResultsKept publishedMatch :=
  ⟨by decide +kernel, by decide +kernel,
    results_kept ⟨1, 1⟩ 300 "room" publishedMatch
      (reaches_of_run (run_eq_final (by decide +kernel))
        (by decide +kernel))⟩

/- The match has a row, its keys are deleted, and no message. -/
theorem result_lost :
    Reachable (resultsStep ⟨1, 1⟩ 300 "room")
        (Results.empty : Results Int) unpublishedMatch ∧
      unpublishedMatch.room.stores.matchRows.length = 1 ∧
      unpublishedMatch.room.stores.redis.state = none ∧
      unpublishedMatch.room.stores.lifecycle = [] ∧
      ¬ ResultsKept unpublishedMatch := by
  have hNone :
      unpublishedMatch.room.stores.lifecycle = [] := by
    decide +kernel
  refine
    ⟨reachable_of_run (run_eq_final (by decide +kernel)),
      by decide +kernel, by decide +kernel, hNone, ?_⟩
  intro hKept
  have hRow :
      ∃ row, row ∈ unpublishedMatch.room.stores.matchRows :=
    List.length_pos_iff_exists_mem.mp (by decide +kernel)
  rcases hRow with ⟨row, hMem⟩
  rcases hKept.rows row hMem with
    ⟨matchNo, event, _, _, hLogged⟩
  rw [hNone] at hLogged
  cases hLogged

end Room
