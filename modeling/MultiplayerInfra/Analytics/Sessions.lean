import MultiplayerInfra.Analytics.Consumer
import MultiplayerInfra.GameRoom.OneLoop
import MultiplayerInfra.Machine.History

/-
  The session events of one game loop, and how the consumer
  pairs them.

  Key definitions include:
    * `Analytics.Sessions`
    * `Analytics.noteSessions`
    * `Analytics.Bracketed`
    * `Analytics.Paired`
    * `Analytics.FirstDeparture`

  Key theorems include:
    * `Analytics.paired_of_bracketed`
    * `Analytics.tallied_step`
    * `Analytics.sessions_iff`

  Only a player whom the loop does not know starts a session
  by joining, while every known player who leaves ends one.
-/

------------------------------------------------------------
-- Session Events
------------------------------------------------------------

namespace Analytics

open GameRoom

variable {α : Type}

/- The session events so far, and what caused them. -/
structure Sessions (α : Type) where
  -- what the calls added to `_pending_telemetry`
  events : List (Telemetry α)
  -- who joined without a hold slot as an unknown player
  arrived : List String
  -- who left as a known player
  departed : List String

def Sessions.empty : Sessions α where
  events := []
  arrived := []
  departed := []

/- What `add_player` or `remove_player` adds in a step. -/
def produced
    (s : Play α)
    (act : PlayAct α)
    (t : Play α) : List (Telemetry α) :=
  match act with
  | .join _ _ | .leave _ =>
      t.loop.pendingTelemetry.drop
        s.loop.pendingTelemetry.length
  | _ => []

def noteSessions
    (s : Play α)
    (act : PlayAct α)
    (t : Play α)
    (r : Sessions α) : Sessions α where
  events := r.events ++ produced s act t
  arrived :=
    match act with
    | .join pid none =>
        if pid ∈ s.loop.state.players.keys then r.arrived
        else pid :: r.arrived
    | _ => r.arrived
  departed :=
    match act with
    | .leave pid =>
        if pid ∈ s.loop.state.players.keys then
          pid :: r.departed
        else r.departed
    | _ => r.departed

/- Whether an event starts or ends a session of a player. -/
def sessionOf
    (pid : String) : Telemetry α → Option Bool
| .sessionStart playerId =>
    if playerId = pid then some true else none
| .sessionEnd playerId =>
    if playerId = pid then some false else none
| _ => none

/-
  The session events of each player alternate, beginning
  with a start.
-/
def Bracketed (r : Sessions α) : Prop :=
  ∀ pid,
    History.Alternate true
      (r.events.filterMap (sessionOf pid))

/-
  A known player leaves for the first time, having joined
  the loop as an unknown one.
-/
def FirstDeparture
    (s : Play α × Sessions α) : PlayAct α → Prop
| .leave pid =>
    pid ∈ s.1.loop.state.players.keys →
      pid ∈ s.2.arrived ∧ pid ∉ s.2.departed
| _ => True

instance decidableFirstDeparture
    (s : Play α × Sessions α) :
    (act : PlayAct α) → Decidable (FirstDeparture s act)
| .input _ _ => inferInstanceAs (Decidable True)
| .join _ _ => inferInstanceAs (Decidable True)
| .leave pid =>
    inferInstanceAs (Decidable
      (pid ∈ s.1.loop.state.players.keys →
        pid ∈ s.2.arrived ∧ pid ∉ s.2.departed))
| .reply _ => inferInstanceAs (Decidable True)

end Analytics

------------------------------------------------------------
-- Pairing
------------------------------------------------------------

namespace Analytics

open Py GameRoom

variable {α : Type}

/- Whether a message starts a session of a player, and when. -/
def sessionMark
    (pid : String)
    (msg : Message) : Option (Bool × Rat) :=
  if msg.event = .sessionStart (some pid) then
    some (true, msg.time)
  else if msg.event = .sessionEnd (some pid) then
    some (false, msg.time)
  else none

/-
  Messages that bring the session events of each player in
  their order, among any others.
-/
def Delivers
    (r : Sessions α)
    (msgs : List Message) : Prop :=
  ∀ pid,
    (msgs.filterMap (sessionMark pid)).map Prod.fst =
      r.events.filterMap (sessionOf pid)

/-
  The end of a session: the last session message of the
  player is a start, and the time since it is observed.
-/
def Paired
    (before : List Message)
    (msg : Message) : Prop :=
  ∀ pid, msg.event = .sessionEnd (some pid) →
    ∃ started,
      History.holder (sessionMark pid) before =
          some (true, started) ∧
        (consumeTelemetry (before ++ [msg])).sessionDuration =
          (consumeTelemetry before).sessionDuration ++
            [msg.time - started]

variable {msgs : List Message}
variable {msg : Message}
variable {pid : String}

theorem sessionMark_eq_none
    (hStart : msg.event ≠ .sessionStart (some pid))
    (hEnd : msg.event ≠ .sessionEnd (some pid)) :
    sessionMark pid msg = none := by
  rw [sessionMark, if_neg hStart, if_neg hEnd]

theorem sessionMark_start
    (hEvent : msg.event = .sessionStart (some pid)) :
    sessionMark pid msg = some (true, msg.time) :=
  if_pos hEvent

theorem sessionMark_end
    (hEvent : msg.event = .sessionEnd (some pid)) :
    sessionMark pid msg = some (false, msg.time) := by
  rw [sessionMark, if_neg (by rw [hEvent]; simp),
    if_pos hEvent]

/- Other messages leave the session of a player alone. -/
theorem get?_activeSessions_handle
    (c : Consumer)
    (hStart : msg.event ≠ .sessionStart (some pid))
    (hEnd : msg.event ≠ .sessionEnd (some pid)) :
    (handle c msg).activeSessions.get? (some pid) =
      c.activeSessions.get? (some pid) := by
  unfold handle
  cases hEvent : msg.event with
  | sessionStart pid' =>
      rw [hEvent] at hStart
      have hOther : some pid ≠ pid' := by
        rintro rfl
        exact hStart rfl
      exact (Dict.get?_set _ _ _ _).trans (if_neg hOther)
  | sessionEnd pid' =>
      rw [hEvent] at hEnd
      have hOther : some pid ≠ pid' := by
        rintro rfl
        exact hEnd rfl
      simp only
      split
      · rfl
      · exact (Dict.get?_pop _ _ _).trans (if_neg hOther)
  | _ => rfl

/-
  A session is active when the last session message of the
  player was its start.
-/
theorem get?_activeSessions
    (msgs : List Message)
    (pid : String)
    (started : Rat) :
    (consumeTelemetry msgs).activeSessions.get? (some pid) =
        some started ↔
      History.holder (sessionMark pid) msgs =
        some (true, started) := by
  induction msgs using List.reverseRecOn with
  | nil =>
      simp [consumeTelemetry, Consumer.start,
        History.holder]
  | append_singleton msgs msg ih =>
      rw [consumeTelemetry_concat]
      by_cases hStart : msg.event = .sessionStart (some pid)
      · rw [History.holder_concat_of_some
          (sessionMark_start hStart)]
        simp [handle, hStart]
      · by_cases hEnd : msg.event = .sessionEnd (some pid)
        · rw [History.holder_concat_of_some
            (sessionMark_end hEnd)]
          simp only [handle, hEnd]
          split
          · rename_i hNone
            simp [hNone]
          · simp [Dict.get?_pop]
        · rw [History.holder_concat_of_none
              (sessionMark_eq_none hStart hEnd),
            get?_activeSessions_handle _ hStart hEnd, ih]

/- Events that alternate are paired wherever they arrive. -/
theorem paired_of_bracketed
    {r : Sessions α}
    (hBracketed : Bracketed r)
    (hDelivers : Delivers r msgs) :
    History.AtEach Paired msgs := by
  intro before msg after hSplit pid hEnd
  have hMarks := hBracketed pid
  rw [← hDelivers pid, hSplit, List.filterMap_append,
    List.filterMap_cons_some (sessionMark_end hEnd),
    List.map_append, List.map_cons] at hMarks
  rcases History.getLast?_of_alternate hMarks with
    hLast | ⟨_, hNever⟩
  · rw [List.getLast?_map] at hLast
    rcases Option.map_eq_some_iff.mp hLast with
      ⟨⟨_, started⟩, hHolder, rfl⟩
    refine ⟨started, hHolder, ?_⟩
    have hActive :=
      (get?_activeSessions before pid started).mpr hHolder
    rw [consumeTelemetry_concat]
    simp only [handle, hEnd, hActive]
  · cases hNever

end Analytics

------------------------------------------------------------
-- Steps of the Loop
------------------------------------------------------------

namespace Analytics

open Py GameRoom

variable {α : Type}

/-
  The events of a player are a start, if the player arrived,
  and as many ends as the player left.
-/
structure Tallied (s : Play α × Sessions α) : Prop where
  marks :
    ∀ pid,
      s.2.events.filterMap (sessionOf pid) =
        (if decide (pid ∈ s.2.arrived) then [true] else []) ++
          List.replicate (s.2.departed.count pid) false
  arrived :
    ∀ pid ∈ s.2.arrived, pid ∈ s.1.loop.state.players.keys
  departed :
    ∀ pid ∈ s.2.departed, pid ∈ s.1.loop.state.players.keys

theorem tallied_start (s : Play α) :
    Tallied (s, Sessions.empty) where
  marks := fun _ => rfl
  arrived := fun _ hMem => nomatch hMem
  departed := fun _ hMem => nomatch hMem

variable {s t : Play α}
variable {r : Sessions α}
variable {playerId : String}

/- Nobody left twice, or without having arrived. -/
theorem bracketed_iff
    (hTallied : Tallied (s, r)) :
    Bracketed r ↔
      ∀ pid,
        r.departed.count pid ≤
          if decide (pid ∈ r.arrived) then 1 else 0 := by
  unfold Bracketed
  apply forall_congr'
  intro pid
  rw [hTallied.marks pid]
  exact History.alternate_opened_iff _ _

/- No session event is produced and nobody is removed. -/
theorem tallied_quiet
    (hTallied : Tallied (s, r))
    (hKeys :
      s.loop.state.players.keys ⊆
        t.loop.state.players.keys) :
    Tallied (t, r) where
  marks := hTallied.marks
  arrived := fun pid hMem => hKeys (hTallied.arrived pid hMem)
  departed := fun pid hMem =>
    hKeys (hTallied.departed pid hMem)

/- An unknown player joins. -/
theorem tallied_arrival
    (hTallied : Tallied (s, r))
    (hNew : playerId ∉ s.loop.state.players.keys)
    (hKeys :
      s.loop.state.players.keys ⊆ t.loop.state.players.keys)
    (hKnown : playerId ∈ t.loop.state.players.keys) :
    Tallied
      (t,
        { r with
          events := r.events ++ [.sessionStart playerId]
          arrived := playerId :: r.arrived }) := by
  have hNotArrived : playerId ∉ r.arrived :=
    fun hMem => hNew (hTallied.arrived _ hMem)
  have hNotDeparted : playerId ∉ r.departed :=
    fun hMem => hNew (hTallied.departed _ hMem)
  refine ⟨?_, ?_, ?_⟩
  · intro pid
    have hMarks := hTallied.marks pid
    simp only [List.filterMap_append, hMarks]
    by_cases hSame : playerId = pid
    · subst hSame
      simp [sessionOf, hNotArrived,
        List.count_eq_zero.mpr hNotDeparted]
    · simp [sessionOf, hSame, Ne.symm hSame]
  · intro pid hMem
    rcases List.mem_cons.mp hMem with rfl | hOld
    · exact hKnown
    · exact hKeys (hTallied.arrived pid hOld)
  · intro pid hMem
    exact hKeys (hTallied.departed pid hMem)

/- The start of a new player does not break anything. -/
theorem bracketed_arrival
    (hTallied : Tallied (s, r))
    (hNew : playerId ∉ s.loop.state.players.keys)
    (hNext :
      Tallied
        (t,
          { r with
            events := r.events ++ [.sessionStart playerId]
            arrived := playerId :: r.arrived })) :
    Bracketed
        { r with
          events := r.events ++ [.sessionStart playerId]
          arrived := playerId :: r.arrived } ↔
      Bracketed r := by
  have hNotDeparted : playerId ∉ r.departed :=
    fun hMem => hNew (hTallied.departed _ hMem)
  rw [bracketed_iff hTallied, bracketed_iff hNext]
  apply forall_congr'
  intro pid
  by_cases hSame : playerId = pid
  · subst hSame
    simp [List.count_eq_zero.mpr hNotDeparted]
  · simp [Ne.symm hSame]

/- A known player leaves. -/
theorem tallied_departure
    (hTallied : Tallied (s, r))
    (hKnown : playerId ∈ s.loop.state.players.keys)
    (hKeys :
      s.loop.state.players.keys ⊆
        t.loop.state.players.keys) :
    Tallied
      (t,
        { r with
          events := r.events ++ [.sessionEnd playerId]
          departed := playerId :: r.departed }) := by
  refine ⟨?_, ?_, ?_⟩
  · intro pid
    have hMarks := hTallied.marks pid
    simp only [List.filterMap_append, hMarks]
    by_cases hSame : playerId = pid
    · subst hSame
      simp [sessionOf, List.replicate_succ']
    · simp [sessionOf, hSame]
  · intro pid hMem
    exact hKeys (hTallied.arrived pid hMem)
  · intro pid hMem
    rcases List.mem_cons.mp hMem with rfl | hOld
    · exact hKeys hKnown
    · exact hKeys (hTallied.departed pid hOld)

/- The end fits when the player arrived and never left. -/
theorem bracketed_departure
    (hTallied : Tallied (s, r))
    (hNext :
      Tallied
        (t,
          { r with
            events := r.events ++ [.sessionEnd playerId]
            departed := playerId :: r.departed })) :
    Bracketed
        { r with
          events := r.events ++ [.sessionEnd playerId]
          departed := playerId :: r.departed } ↔
      Bracketed r ∧
        playerId ∈ r.arrived ∧ playerId ∉ r.departed := by
  rw [bracketed_iff hTallied, bracketed_iff hNext]
  constructor
  · intro hAll
    refine ⟨?_, ?_⟩
    · intro pid
      exact
        Nat.le_trans
          (List.Sublist.count_le pid
            (List.sublist_cons_self playerId r.departed))
          (hAll pid)
    · have hOwn := hAll playerId
      rw [List.count_cons_self] at hOwn
      by_cases hArrived : playerId ∈ r.arrived
      · refine ⟨hArrived, List.count_eq_zero.mp ?_⟩
        simpa [hArrived] using hOwn
      · simp [hArrived] at hOwn
  · rintro ⟨hAll, hArrived, hFirst⟩ pid
    by_cases hSame : playerId = pid
    · subst hSame
      simp [hArrived, List.count_eq_zero.mpr hFirst]
    · rw [List.count_cons_of_ne hSame]
      exact hAll pid

end Analytics

------------------------------------------------------------
-- Runs
------------------------------------------------------------

namespace Analytics

open Py GameRoom

variable {α : Type} [PyNumber α]

/- What a join adds to the telemetry. -/
theorem pendingTelemetry_addPlayer
    (g : GameLoop α)
    (pid : String)
    (hold : Option (HoldJson α)) :
    (g.addPlayer pid hold).pendingTelemetry =
      g.pendingTelemetry ++
        if hold.isNone ∧ pid ∉ g.state.players.keys then
          [.sessionStart pid]
        else [] := by
  unfold GameLoop.addPlayer
  cases hold with
  | some saved => simp [GameLoop.setPlayers]
  | none =>
      simp only
      split
      · rename_i player hGet
        have hKnown := Dict.mem_keys_iff.mpr ⟨player, hGet⟩
        simp [GameLoop.setPlayers, hKnown]
      · rename_i hGet
        have hNew := Dict.get?_eq_none_iff.mp hGet
        simp [hNew]

omit [PyNumber α] in
/- What a departure adds to the telemetry. -/
theorem pendingTelemetry_removePlayer
    (g : GameLoop α)
    (pid : String) :
    (g.removePlayer pid).1.pendingTelemetry =
      g.pendingTelemetry ++
        if pid ∈ g.state.players.keys then
          [.sessionEnd pid]
        else [] := by
  unfold GameLoop.removePlayer
  split
  · rename_i hGet
    have hNew := Dict.get?_eq_none_iff.mp hGet
    simp [hNew]
  · rename_i player hGet
    have hKnown := Dict.mem_keys_iff.mpr ⟨player, hGet⟩
    simp [hKnown]

theorem produced_join
    (s : Play α)
    (pid : String)
    (hold : Option (HoldJson α)) :
    produced s (.join pid hold)
        (s.setLoop (s.loop.addPlayer pid hold)) =
      if hold.isNone ∧ pid ∉ s.loop.state.players.keys then
        [.sessionStart pid]
      else [] := by
  simp only [produced, Play.setLoop,
    pendingTelemetry_addPlayer, List.drop_left]

omit [PyNumber α] in
theorem produced_leave
    (s : Play α)
    (pid : String) :
    produced s (.leave pid)
        (s.setLoop (s.loop.removePlayer pid).1) =
      if pid ∈ s.loop.state.players.keys then
        [.sessionEnd pid]
      else [] := by
  simp only [produced, Play.setLoop,
    pendingTelemetry_removePlayer, List.drop_left]

omit [PyNumber α] in
/- A record without a new event stays as it was. -/
theorem noteSessions_quiet
    {s t : Play α}
    {act : PlayAct α}
    {r : Sessions α}
    (hNone : produced s act t = [])
    (hJoin :
      ∀ pid, act = .join pid none →
        pid ∈ s.loop.state.players.keys)
    (hLeave :
      ∀ pid, act = .leave pid →
        pid ∉ s.loop.state.players.keys) :
    noteSessions s act t r = r := by
  unfold noteSessions
  rw [hNone, List.append_nil]
  split
  · rw [if_pos (hJoin _ rfl)]
  · split
    · rw [if_neg (hLeave _ rfl)]
    · rfl

/- A join starts a session of an unknown player at most. -/
theorem tallied_join
    {s : Play α}
    {r : Sessions α}
    (hTallied : Tallied (s, r))
    (pid : String)
    (hold : Option (HoldJson α)) :
    let t := s.setLoop (s.loop.addPlayer pid hold)
    Tallied (t, noteSessions s (.join pid hold) t r) ∧
      (Bracketed (noteSessions s (.join pid hold) t r) ↔
        Bracketed r) := by
  intro t
  have hKeys :
      s.loop.state.players.keys ⊆
        t.loop.state.players.keys :=
    s.loop.subset_keys_addPlayer pid hold
  have hProduced := produced_join s pid hold
  by_cases hNew :
      hold.isNone ∧ pid ∉ s.loop.state.players.keys
  · rw [if_pos hNew] at hProduced
    rcases hNew with ⟨hHold, hUnknown⟩
    cases Option.isNone_iff_eq_none.mp hHold
    have hKnown : pid ∈ t.loop.state.players.keys :=
      s.loop.mem_keys_addPlayer pid none
    have hNext :=
      tallied_arrival hTallied hUnknown hKeys hKnown
    rw [noteSessions, hProduced]
    simp only [if_neg hUnknown]
    exact ⟨hNext, bracketed_arrival hTallied hUnknown hNext⟩
  · rw [if_neg hNew] at hProduced
    have hSame : noteSessions s (.join pid hold) t r = r := by
      refine noteSessions_quiet hProduced ?_ (by simp)
      rintro pid' hAct
      cases hAct
      simpa using hNew
    rw [hSame]
    exact ⟨tallied_quiet hTallied hKeys, Iff.rfl⟩

omit [PyNumber α] in
/- A departure ends a session of a known player. -/
theorem tallied_leave
    {s : Play α}
    {r : Sessions α}
    (hTallied : Tallied (s, r))
    (pid : String) :
    let t := s.setLoop (s.loop.removePlayer pid).1
    Tallied (t, noteSessions s (.leave pid) t r) ∧
      (Bracketed (noteSessions s (.leave pid) t r) ↔
        Bracketed r ∧ FirstDeparture (s, r) (.leave pid)) := by
  intro t
  have hKeys :
      s.loop.state.players.keys ⊆
        t.loop.state.players.keys :=
    s.loop.subset_keys_removePlayer pid
  have hProduced := produced_leave s pid
  by_cases hKnown : pid ∈ s.loop.state.players.keys
  · rw [if_pos hKnown] at hProduced
    have hNext := tallied_departure hTallied hKnown hKeys
    have hIff := bracketed_departure hTallied hNext
    rw [noteSessions, hProduced]
    simp only [if_pos hKnown]
    exact
      ⟨hNext, by simpa [FirstDeparture, hKnown] using hIff⟩
  · rw [if_neg hKnown] at hProduced
    have hSame : noteSessions s (.leave pid) t r = r := by
      refine noteSessions_quiet hProduced (by simp) ?_
      rintro pid' hAct
      cases hAct
      exact hKnown
    rw [hSame]
    exact
      ⟨tallied_quiet hTallied hKeys,
        by simp [FirstDeparture, hKnown]⟩

/-
  A step keeps the tally, and breaks the brackets exactly
  when it is a departure that is not the first.
-/
theorem tallied_step
    {producer : Nat}
    {s t : Play α × Sessions α}
    {act : PlayAct α}
    (hTallied : Tallied s)
    (hStep :
      Machine.observe (Play.step producer) noteSessions s
        act = some t) :
    Tallied t ∧
      (Bracketed t.2 ↔
        Bracketed s.2 ∧ FirstDeparture s act) := by
  rcases s with ⟨s, r⟩
  rcases t with ⟨t, r'⟩
  rcases Machine.observe_eq_some_iff.mp hStep with
    ⟨hPlay, hNote⟩
  simp only at hPlay hNote
  subst hNote
  cases playSteps_of_step hPlay with
  | input =>
      rw [noteSessions_quiet rfl (by simp) (by simp)]
      exact
        ⟨tallied_quiet hTallied (List.Subset.refl _),
          by simp [FirstDeparture]⟩
  | @join pid hold =>
      rcases tallied_join hTallied pid hold with
        ⟨hNext, hIff⟩
      exact ⟨hNext, by simpa [FirstDeparture] using hIff⟩
  | @leave pid => exact tallied_leave hTallied pid
  | reply hAwaits =>
      rw [noteSessions_quiet rfl (by simp) (by simp)]
      exact
        ⟨tallied_quiet hTallied
            (subset_keys_of_awaits hAwaits),
          by simp [FirstDeparture]⟩

/-
  In every run of one loop, from any players in it, the
  session events are bracketed and paired wherever they
  arrive, exactly when every known player who leaves had
  arrived on this loop and leaves for the first time.
-/
theorem sessions_iff
    (producer : Nat)
    (stores : Stores α)
    (g : GameLoop α)
    (acts : List (PlayAct α))
    (s : Play α)
    (r : Sessions α)
    (hRun :
      Machine.run
          (Machine.observe (Play.step producer) noteSessions)
          (Play.start stores g, Sessions.empty) acts =
        some (s, r)) :
    (Bracketed r ∧
        ∀ msgs, Delivers r msgs →
          History.AtEach Paired msgs) ↔
      Machine.AllSteps
        (Machine.observe (Play.step producer) noteSessions)
        FirstDeparture
        (Play.start stores g, Sessions.empty) acts := by
  have hAll :
      Bracketed r ↔
        Bracketed (Sessions.empty : Sessions α) ∧
          Machine.AllSteps
            (Machine.observe (Play.step producer)
              noteSessions)
            FirstDeparture
            (Play.start stores g, Sessions.empty) acts :=
    Machine.iff_allSteps_of_run
      (Q := fun s => Bracketed s.2)
      hRun (tallied_start _) tallied_step
  have hEmpty : Bracketed (Sessions.empty : Sessions α) :=
    fun _ => trivial
  simp only [hEmpty, true_and] at hAll
  rw [← hAll]
  constructor
  · exact fun hBoth => hBoth.1
  · intro hBracketed
    exact
      ⟨hBracketed,
        fun _ hDelivers =>
          paired_of_bracketed hBracketed hDelivers⟩

/- Ann joins a new loop and leaves it. -/
def oneVisit : List (PlayAct Int) :=
  [.join "ann" none, .leave "ann"]

/- She comes back to her hold slot, and leaves again. -/
def heldVisit : List (PlayAct Int) :=
  oneVisit ++
    [.join "ann"
        (some
          { x := some 0
            y := some 0
            health := some 100
            score := some 0 }),
      .leave "ann"]

/- She comes back when the slot is gone, and leaves again. -/
def lateVisit : List (PlayAct Int) :=
  oneVisit ++ oneVisit

/- What a new loop records of the acts of players. -/
def visits
    (acts : List (PlayAct Int))
    (hRuns :
      (Machine.run
        (Machine.observe (Play.step 0) noteSessions)
        (Play.start Stores.empty
            (GameLoop.new {} "arena" 0),
          Sessions.empty) acts).isSome = true) :
    Play Int × Sessions Int :=
  Machine.final
    (Machine.observe (Play.step 0) noteSessions)
    (Play.start Stores.empty (GameLoop.new {} "arena" 0),
      Sessions.empty)
    acts hRuns

theorem sessions_iff_oneVisit :
    Bracketed (visits oneVisit rfl).2 ∧
      ∀ msgs, Delivers (visits oneVisit rfl).2 msgs →
        History.AtEach Paired msgs :=
  (sessions_iff 0 Stores.empty (GameLoop.new {} "arena" 0)
    oneVisit _ _ (Machine.run_eq_final rfl)).mpr
      (by decide +kernel)

/- The second session ends without having started. -/
theorem sessions_not_bracketed :
    ¬ Bracketed (visits heldVisit rfl).2 ∧
      ¬ Bracketed (visits lateVisit rfl).2 := by
  constructor
  · intro hBracketed
    exact absurd (hBracketed "ann") (by decide +kernel)
  · intro hBracketed
    exact absurd (hBracketed "ann") (by decide +kernel)

end Analytics
