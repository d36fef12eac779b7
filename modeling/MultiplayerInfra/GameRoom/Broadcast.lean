import MultiplayerInfra.GameRoom.SpectatorBuffer
import MultiplayerInfra.Machine.Run
import MultiplayerInfra.Py.DictIter

/-
  The broadcasts of a match while players and spectators
  come and go between their sends.

  Key definitions include:
    * `GameRoom.Broadcasts.Broadcast`
    * `GameRoom.Broadcasts.State`
    * `GameRoom.Broadcasts.step`
    * `GameRoom.Broadcasts.Broadcast.ReachesAll`
    * `GameRoom.Broadcasts.Undisturbed`

  Key theorems include:
    * `GameRoom.Broadcasts.sound_step`
    * `GameRoom.Broadcasts.everyone_reached`

  Every broadcast is a task of its own over the dictionary
  that the handlers of the sockets change, and it is
  suspended in each send.
-/

------------------------------------------------------------
-- The State
------------------------------------------------------------

namespace GameRoom

namespace Broadcasts

open Py

/- `connected_players` and `connected_spectators`. -/
inductive Roster where
  | players
  | spectators
deriving DecidableEq

/- Where a broadcast stands; `ω` are the sockets. -/
inductive Phase (ω : Type) where
  -- between two awaits
  | looping
  -- `await ws.send_json`
  | sending (pid : String) (ws : ω)
  | finished
  | raised
deriving DecidableEq

def Phase.awaited? {ω : Type} :
    Phase ω → Option (String × ω)
| .looping => none
| .sending pid ws => some (pid, ws)
| .finished => none
| .raised => none

/- A broadcast with a record of what it did. -/
structure Broadcast (ω M : Type) where
  roster : Roster
  -- the argument, and what the loop sends
  stateSnapshot : M
  message : M
  iter : Dict.Iter
  phase : Phase ω
  -- `dead`, of which the code keeps the ids
  dead : List (String × ω)
  -- the sends so far: to whom, on which socket, and what
  sent : List (String × ω × M)
  -- the entries that it removed behind its loop
  removed : List (String × ω)
  -- every content of its dictionary since it began
  tables : List (Dict String ω)

structure State (ω M : Type) where
  connectedPlayers : Dict String ω
  connectedSpectators : Dict String ω
  spectatorBuffer : SpectatorRingBuffer M
  tick : Nat
  broadcasts : List (Broadcast ω M)

inductive Act (ω M : Type) where
  -- a handler has accepted the socket of a player
  | connect (roster : Roster) (pid : String) (ws : ω)
  -- a socket has disconnected, or its handler has failed
  | disconnect (roster : Roster) (pid : String)
  -- the match has ended, or the room has lost its match
  | clear
  -- a tick is committed
  | commit (stateSnapshot : M)
  -- the next steps are those of another `GameLoop`
  | newLoop (spectatorBuffer : SpectatorRingBuffer M) (tick : Nat)
  -- a broadcast task starts
  | toPlayers (stateSnapshot : M)
  | toSpectators (stateSnapshot : M)
  -- the send of a broadcast completes or fails
  | resume (i : Nat) (ok : Bool) (choice : Dict.Choice)

end Broadcasts

end GameRoom

------------------------------------------------------------
-- Steps
------------------------------------------------------------

namespace GameRoom

namespace Broadcasts

open Py

variable {ω M : Type}

namespace Broadcast

/- The loop is suspended in a send. -/
def running (r : Broadcast ω M) : Bool :=
  r.phase.awaited?.isSome

/- Before the first item of the loop. -/
def begin
    (roster : Roster)
    (d : Dict String ω)
    (stateSnapshot message : M) : Broadcast ω M where
  roster := roster
  stateSnapshot := stateSnapshot
  message := message
  iter := .start d
  phase := .looping
  dead := []
  sent := []
  removed := []
  tables := [d]

/- The dictionary under the loop changes from `d` to `d'`. -/
def notice
    (roster : Roster)
    (d d' : Dict String ω)
    (r : Broadcast ω M) : Broadcast ω M :=
  if r.roster = roster ∧ r.running = true then
    { r with
      iter := r.iter.notice d d'
      tables := r.tables ++ [d'] }
  else r

/- The awaited send is over. -/
def complete
    (r : Broadcast ω M)
    (ok : Bool) : Broadcast ω M :=
  { r with
    dead := r.dead ++ if ok then [] else r.phase.awaited?.toList }

/- The next item is sent to. -/
def send
    (r : Broadcast ω M)
    (pid : String)
    (ws : ω) : Broadcast ω M :=
  { r with
    iter := r.iter.advance
    phase := .sending pid ws
    sent := r.sent ++ [(pid, ws, r.message)] }

/- The dictionary behind the loop. -/
def sweep
    (r : Broadcast ω M)
    (d : Dict String ω) : Dict String ω :=
  d.popAll (r.dead.map Prod.fst)

def finish
    (r : Broadcast ω M)
    (d : Dict String ω) : Broadcast ω M :=
  { r with
    phase := .finished
    removed :=
      d.entries.filter (fun e => ((r.sweep d).get? e.1).isNone) }

end Broadcast

namespace State

def table (s : State ω M) : Roster → Dict String ω
| .players => s.connectedPlayers
| .spectators => s.connectedSpectators

/- A dictionary changes; the loops over it will notice. -/
def setTable
    (s : State ω M)
    (roster : Roster)
    (d : Dict String ω) : State ω M :=
  let broadcasts :=
    s.broadcasts.map (.notice roster (s.table roster) d)
  match roster with
  | .players =>
      { s with connectedPlayers := d, broadcasts := broadcasts }
  | .spectators =>
      { s with
        connectedSpectators := d
        broadcasts := broadcasts }

def setBroadcast
    (s : State ω M)
    (i : Nat)
    (r : Broadcast ω M) : State ω M :=
  { s with broadcasts := s.broadcasts.set i r }

/- From one item of the loop to the next, or to the end. -/
def proceed
    (s : State ω M)
    (i : Nat)
    (r : Broadcast ω M)
    (choice : Dict.Choice) : State ω M :=
  let d := s.table r.roster
  match r.iter.next d choice with
  | .raise => s.setBroadcast i { r with phase := .raised }
  | .entry e => s.setBroadcast i (r.send e.1 e.2)
  | .stop =>
      (s.setBroadcast i (r.finish d)).setTable r.roster
        (r.sweep d)

/- A new broadcast up to its first send. -/
def start
    (s : State ω M)
    (roster : Roster)
    (stateSnapshot message : M) : State ω M :=
  let r := .begin roster (s.table roster) stateSnapshot message
  State.proceed
    { s with broadcasts := s.broadcasts ++ [r] }
    s.broadcasts.length r .raise

def broadcastToPlayers
    (s : State ω M)
    (stateSnapshot : M) : State ω M :=
  s.start .players stateSnapshot stateSnapshot

def broadcastToSpectators
    (s : State ω M)
    (stateSnapshot : M) : State ω M :=
  let delayed :=
    (s.spectatorBuffer.getDelayedState s.tick).getD
      stateSnapshot
  s.start .spectators stateSnapshot delayed

/- Anybody may be connected when the first broadcast starts. -/
def initial
    (connectedPlayers connectedSpectators : Dict String ω)
    (spectatorBuffer : SpectatorRingBuffer M)
    (tick : Nat) : State ω M where
  connectedPlayers := connectedPlayers
  connectedSpectators := connectedSpectators
  spectatorBuffer := spectatorBuffer
  tick := tick
  broadcasts := []

end State

/- One step; no task is cancelled. -/
def step
    (s : State ω M) : Act ω M → Option (State ω M)
| .connect roster pid ws =>
    some (s.setTable roster ((s.table roster).set pid ws))
| .disconnect roster pid =>
    some (s.setTable roster ((s.table roster).pop pid))
| .clear =>
    some ((s.setTable .players Dict.empty).setTable .spectators
      Dict.empty)
| .commit stateSnapshot =>
    some { s with
      tick := s.tick + 1
      spectatorBuffer :=
        s.spectatorBuffer.append (s.tick + 1) stateSnapshot }
| .newLoop spectatorBuffer tick =>
    some { s with
      spectatorBuffer := spectatorBuffer
      tick := tick }
| .toPlayers stateSnapshot =>
    some (s.broadcastToPlayers stateSnapshot)
| .toSpectators stateSnapshot =>
    some (s.broadcastToSpectators stateSnapshot)
| .resume i ok choice =>
    match s.broadcasts[i]? with
    | none => none
    | some r =>
        if r.running then
          some (s.proceed i (r.complete ok) choice)
        else none

end Broadcasts

end GameRoom

------------------------------------------------------------
-- Tables and Tasks
------------------------------------------------------------

namespace GameRoom

namespace Broadcasts

open Py

variable {ω M : Type}

namespace State

theorem table_setTable
    (s : State ω M)
    (roster roster' : Roster)
    (d : Dict String ω) :
    (s.setTable roster d).table roster' =
      if roster' = roster then d else s.table roster' := by
  cases roster <;> cases roster' <;> rfl

theorem broadcasts_setTable
    (s : State ω M)
    (roster : Roster)
    (d : Dict String ω) :
    (s.setTable roster d).broadcasts =
      s.broadcasts.map
        (.notice roster (s.table roster) d) := by
  cases roster <;> rfl

@[simp] theorem table_setBroadcast
    (s : State ω M)
    (i : Nat)
    (r : Broadcast ω M) :
    (s.setBroadcast i r).table = s.table := by
  funext roster
  cases roster <;> rfl

variable {s : State ω M}
variable {r : Broadcast ω M}
variable {choice : Dict.Choice}

theorem proceed_of_entry
    {e : String × ω}
    (hNext :
      r.iter.next (s.table r.roster) choice = .entry e)
    (i : Nat) :
    s.proceed i r choice =
      s.setBroadcast i (r.send e.1 e.2) := by
  simp only [proceed, hNext]

theorem proceed_of_stop
    (hNext : r.iter.next (s.table r.roster) choice = .stop)
    (i : Nat) :
    s.proceed i r choice =
      (s.setBroadcast i (r.finish (s.table r.roster))).setTable
        r.roster (r.sweep (s.table r.roster)) := by
  simp only [proceed, hNext]

end State

end Broadcasts

end GameRoom

------------------------------------------------------------
-- Everyone Who Stays
------------------------------------------------------------

namespace GameRoom

namespace Broadcasts

open Py

variable {ω M : Type}

/-
  No broadcast raises or sends more often than there were
  entries.  Whoever was in the dictionary with one socket all
  along is sent the message once, and who is removed was
  there with the socket whose send failed.
-/
structure Broadcast.ReachesAll
    (r : Broadcast ω M) : Prop where
  message :
    r.roster = .players → r.message = r.stateSnapshot
  quiet : r.running = true ∨ r.phase = .finished
  bounded : r.sent.length ≤ r.iter.size
  once :
    r.phase = .finished →
      ∀ pid ws,
        (∀ d ∈ r.tables, d.get? pid = some ws) →
          r.sent.filter (fun e => e.1 = pid) =
            [(pid, ws, r.message)]
  removed : ∀ e ∈ r.removed, e ∈ r.dead

/-
  A broadcast whose dictionary has kept its keys goes on with
  one more send or is at its end, whatever its send came to.
-/
def Progresses
    (s : State ω M)
    (i : Nat) : Prop :=
  ∀ r ok choice,
    s.broadcasts[i]? = some r →
      r.running = true →
        r.iter.changed = false →
          ∃ t r',
            step s (.resume i ok choice) = some t ∧
              t.broadcasts[i]? = some r' ∧
              (r'.phase = .finished ∨
                r'.running = true ∧
                  r'.sent.length = r.sent.length + 1)

/-
  No loop goes on over a dictionary that keys were inserted
  into or removed from, and no player has another socket
  between a failed send and the end of its broadcast.
-/
def Undisturbed
    (s : State ω M) : Act ω M → Prop
| .connect roster pid _ =>
    ∀ r ∈ s.broadcasts,
      r.roster = roster → r.running = true →
        r.iter.changed = false → pid ∉ r.dead.map Prod.fst
| .resume i ok _ =>
    ∀ r ∈ s.broadcasts[i]?,
      r.iter.changed = false ∧
        (ok = false →
          ∀ e ∈ r.phase.awaited?,
            (s.table r.roster).get? e.1 = some e.2)
| _ => True

instance decidableUndisturbed
    [DecidableEq ω]
    (s : State ω M) :
    (act : Act ω M) → Decidable (Undisturbed s act)
| .connect roster pid _ =>
    inferInstanceAs (Decidable
      (∀ r ∈ s.broadcasts,
        r.roster = roster → r.running = true →
          r.iter.changed = false →
            pid ∉ r.dead.map Prod.fst))
| .resume i ok _ =>
    inferInstanceAs (Decidable
      (∀ r ∈ s.broadcasts[i]?,
        r.iter.changed = false ∧
          (ok = false →
            ∀ e ∈ r.phase.awaited?,
              (s.table r.roster).get? e.1 = some e.2)))
| .disconnect _ _ | .clear | .commit _ | .newLoop _ _
| .toPlayers _ | .toSpectators _ => isTrue trivial

/- A loop whose dictionary has kept its keys. -/
structure Tracks
    (d : Dict String ω)
    (r : Broadcast ω M) : Prop where
  iter : r.iter.At d (r.sent.map Prod.fst)
  current : d ∈ r.tables
  keys : ∀ d' ∈ r.tables, d'.keys = d.keys
  dead : ∀ e ∈ r.dead, d.get? e.1 = some e.2

/- What was sent is the message, to an entry of some time. -/
def SentToEntries (r : Broadcast ω M) : Prop :=
  ∀ e ∈ r.sent,
    e.2.2 = r.message ∧
      ∃ d ∈ r.tables, d.get? e.1 = some e.2.1

/- A broadcast over these dictionaries. -/
structure Sound
    (table : Roster → Dict String ω)
    (r : Broadcast ω M) : Prop where
  reaches : r.ReachesAll
  sent : SentToEntries r
  tracks :
    r.running = true → r.iter.changed = false →
      Tracks (table r.roster) r

/- The same within its loop, between two awaits. -/
structure Looping
    (d : Dict String ω)
    (r : Broadcast ω M) : Prop where
  message :
    r.roster = .players → r.message = r.stateSnapshot
  removed : ∀ e ∈ r.removed, e ∈ r.dead
  sent : SentToEntries r
  tracks : Tracks d r

/- At the end of the loop everyone who stayed was sent to. -/
theorem Looping.once
    {d : Dict String ω}
    {r : Broadcast ω M}
    (hLoop : Looping d r)
    (hAll : r.sent.map Prod.fst = d.keys)
    {pid : String}
    {ws : ω}
    (hStays : ∀ d' ∈ r.tables, d'.get? pid = some ws) :
    r.sent.filter (fun e => e.1 = pid) =
      [(pid, ws, r.message)] := by
  have hKey : pid ∈ r.sent.map Prod.fst := by
    rw [hAll]
    exact
      Dict.mem_keys_iff.mpr
        ⟨ws, hStays d hLoop.tracks.current⟩
  rcases List.mem_map.mp hKey with ⟨e, hEntry, rfl⟩
  have hNodup : (r.sent.map Prod.fst).Nodup := by
    rw [hAll]
    exact d.nodup
  rw [filter_key_eq_singleton hNodup hEntry]
  rcases hLoop.sent e hEntry with ⟨hMessage, d', hMem, hSocket⟩
  rw [hStays d' hMem] at hSocket
  cases hSocket
  rw [← hMessage]

/- The sweep removes entries whose own send failed. -/
theorem mem_dead_of_removed
    {d : Dict String ω}
    {r : Broadcast ω M}
    (hDead : ∀ e ∈ r.dead, d.get? e.1 = some e.2)
    {e : String × ω}
    (hRemoved : e ∈ (r.finish d).removed) :
    e ∈ r.dead := by
  rcases List.mem_filter.mp hRemoved with ⟨hEntry, hGone⟩
  have hSocket : d.get? e.1 = some e.2 := d.get?_of_mem hEntry
  have hKey : e.1 ∈ r.dead.map Prod.fst := by
    by_contra hOther
    rw [Broadcast.sweep, Dict.get?_popAll d hOther,
      hSocket] at hGone
    cases hGone
  rcases List.mem_map.mp hKey with ⟨e', hFailed, hSame⟩
  have hSocket' := hDead e' hFailed
  rw [hSame, hSocket] at hSocket'
  have hEq : e = e' :=
    Prod.ext hSame.symm (Option.some.inj hSocket')
  rw [hEq]
  exact hFailed

end Broadcasts

end GameRoom

------------------------------------------------------------
-- Preservation
------------------------------------------------------------

namespace GameRoom

namespace Broadcasts

open Py

variable {ω M : Type}

/- Every broadcast is sound. -/
def AllSound (s : State ω M) : Prop :=
  ∀ r ∈ s.broadcasts, Sound s.table r

/- A loop over another dictionary does not notice. -/
theorem Sound.of_table_eq
    {table table' : Roster → Dict String ω}
    {r : Broadcast ω M}
    (hSound : Sound table r)
    (hTable :
      r.running = true → table' r.roster = table r.roster) :
    Sound table' r where
  reaches := hSound.reaches
  sent := hSound.sent
  tracks := by
    intro hRunning hUnchanged
    rw [hTable hRunning]
    exact hSound.tracks hRunning hUnchanged

/- The buffer and the tick do not matter. -/
theorem AllSound.of_same
    {s s' : State ω M}
    (hAll : AllSound s)
    (hPlayers : s'.connectedPlayers = s.connectedPlayers)
    (hSpectators :
      s'.connectedSpectators = s.connectedSpectators)
    (hBroadcasts : s'.broadcasts = s.broadcasts) :
    AllSound s' := by
  intro r hMem
  rw [hBroadcasts] at hMem
  apply (hAll r hMem).of_table_eq
  intro _
  cases hRoster : r.roster with
  | players => exact hPlayers
  | spectators => exact hSpectators

theorem SentToEntries.mono
    {r r' : Broadcast ω M}
    (hSent : SentToEntries r)
    (hSame : r'.sent = r.sent)
    (hMessage : r'.message = r.message)
    (hTables : r.tables ⊆ r'.tables) :
    SentToEntries r' := by
  intro e hEntry
  rw [hSame] at hEntry
  rw [hMessage]
  rcases hSent e hEntry with ⟨hThis, d, hMem, hSocket⟩
  exact ⟨hThis, d, hTables hMem, hSocket⟩

/- A loop notices a change of its dictionary. -/
theorem Sound.notice
    {table : Roster → Dict String ω}
    {r : Broadcast ω M}
    {d : Dict String ω}
    (hSound : Sound table r)
    (hRunning : r.running = true)
    (hDead :
      r.iter.changed = false →
        d.keys = (table r.roster).keys →
          ∀ e ∈ r.dead, d.get? e.1 = some e.2) :
    Sound (Function.update table r.roster d)
      { r with
        iter := r.iter.notice (table r.roster) d
        tables := r.tables ++ [d] } := by
  rcases hSound with ⟨hReaches, hSent, hTracks⟩
  refine ⟨⟨hReaches.message, .inl hRunning,
    hReaches.bounded, ?_, hReaches.removed⟩, ?_, ?_⟩
  · intro hFinished
    simp only at hFinished
    rw [Broadcast.running, hFinished] at hRunning
    cases hRunning
  · exact
      hSent.mono rfl rfl (List.subset_append_left _ _)
  · intro _ hUnchanged
    rcases Dict.Iter.unchanged_of_notice hUnchanged with
      ⟨hBefore, hKeys⟩
    rcases hTracks hRunning hBefore with
      ⟨hIter, hCurrent, hSame, _⟩
    rw [Function.update_self]
    refine
      ⟨hIter.notice hUnchanged, by simp, ?_,
        hDead hBefore hKeys⟩
    intro d' hMem
    rcases List.mem_append.mp hMem with hOld | hNew
    · rw [hSame d' hOld, hKeys]
    · rw [List.mem_singleton.mp hNew]

/- A dictionary may change if no failed socket is replaced. -/
theorem AllSound.setTable
    {s : State ω M}
    {roster : Roster}
    {d : Dict String ω}
    (hAll : AllSound s)
    (hDead :
      ∀ r ∈ s.broadcasts,
        r.roster = roster → r.running = true →
          r.iter.changed = false →
            d.keys = (s.table roster).keys →
              ∀ e ∈ r.dead, d.get? e.1 = some e.2) :
    AllSound (s.setTable roster d) := by
  intro r' hMem
  rw [State.broadcasts_setTable] at hMem
  rcases List.mem_map.mp hMem with ⟨r, hOld, rfl⟩
  have hTable :
      (s.setTable roster d).table =
        Function.update s.table roster d := by
    funext roster'
    rw [State.table_setTable, Function.update_apply]
  rw [hTable]
  unfold Broadcast.notice
  split
  · rename_i hThis
    rcases hThis with ⟨rfl, hRunning⟩
    exact
      (hAll r hOld).notice hRunning
        (hDead r hOld rfl hRunning)
  · rename_i hOther
    rw [not_and] at hOther
    apply (hAll r hOld).of_table_eq
    intro hRunning
    rw [Function.update_of_ne]
    intro hRoster
    exact hOther hRoster hRunning

/- Removals never replace a socket. -/
theorem AllSound.setTable_of_subset
    {s : State ω M}
    {roster : Roster}
    {d : Dict String ω}
    (hAll : AllSound s)
    (hSubset : d.entries ⊆ (s.table roster).entries) :
    AllSound (s.setTable roster d) := by
  apply hAll.setTable
  rintro r hMem rfl hRunning hUnchanged hKeys e hFailed
  have hSocket :=
    ((hAll r hMem).tracks hRunning hUnchanged).dead e hFailed
  have hKey : e.1 ∈ d.keys := by
    rw [hKeys]
    exact Dict.mem_keys_iff.mpr ⟨e.2, hSocket⟩
  rw [Dict.get?_of_entries_subset hSubset hKey]
  exact hSocket

end Broadcasts

end GameRoom

------------------------------------------------------------
-- From Send to Send
------------------------------------------------------------

namespace GameRoom

namespace Broadcasts

open Py

variable {ω M : Type}

theorem looping_begin
    (roster : Roster)
    (d : Dict String ω)
    {stateSnapshot message : M}
    (hMessage :
      roster = .players → message = stateSnapshot) :
    Looping d (.begin roster d stateSnapshot message) where
  message := hMessage
  removed := nofun
  sent := nofun
  tracks := {
    iter := Dict.Iter.at_start d
    current := List.mem_singleton_self d
    keys := by
      intro d' hMem
      rw [List.mem_singleton.mp hMem]
    dead := nofun }

/- A failed send is one to a current socket. -/
theorem Sound.complete
    {table : Roster → Dict String ω}
    {r : Broadcast ω M}
    {ok : Bool}
    (hSound : Sound table r)
    (hRunning : r.running = true)
    (hUnchanged : r.iter.changed = false)
    (hFailed :
      ok = false →
        ∀ e ∈ r.phase.awaited?,
          (table r.roster).get? e.1 = some e.2) :
    Looping (table r.roster) (r.complete ok) := by
  rcases hSound with ⟨hReaches, hSent, hTracks⟩
  rcases hTracks hRunning hUnchanged with
    ⟨hIter, hCurrent, hKeys, hDead⟩
  refine ⟨hReaches.message, ?_, hSent,
    ⟨hIter, hCurrent, hKeys, ?_⟩⟩
  · intro e hMem
    exact
      List.mem_append_left _ (hReaches.removed e hMem)
  · intro e hMem
    rcases List.mem_append.mp hMem with hOld | hNew
    · exact hDead e hOld
    · cases ok with
      | true => cases hNew
      | false =>
          exact hFailed rfl e (Option.mem_toList.mp hNew)

/- The loop sends to the next entry. -/
theorem Looping.send
    {table : Roster → Dict String ω}
    {r : Broadcast ω M}
    {choice : Dict.Choice}
    {e : String × ω}
    (hLoop : Looping (table r.roster) r)
    (hNext :
      r.iter.next (table r.roster) choice = .entry e) :
    Sound table (r.send e.1 e.2) := by
  rcases hLoop with ⟨hMessage, hRemoved, hSent, hTracks⟩
  rcases hTracks.iter.of_next_entry hNext with
    ⟨hIter, hEntry⟩
  have hKeys :
      (r.send e.1 e.2).sent.map Prod.fst =
        r.sent.map Prod.fst ++ [e.1] := by
    simp [Broadcast.send]
  rw [← hKeys] at hIter
  refine ⟨⟨hMessage, .inl rfl, ?_, nofun, hRemoved⟩, ?_, ?_⟩
  · have hLength := hIter.length_le
    rw [List.length_map] at hLength
    exact hLength
  · intro e' hMem
    rcases List.mem_append.mp hMem with hOld | hNew
    · exact hSent e' hOld
    · rw [List.mem_singleton.mp hNew]
      exact
        ⟨rfl, _, hTracks.current,
          Dict.get?_of_mem _ hEntry⟩
  · intro _ _
    exact ⟨hIter, hTracks.current, hTracks.keys, hTracks.dead⟩

/- The loop is at its end. -/
theorem Looping.finish
    {table : Roster → Dict String ω}
    {r : Broadcast ω M}
    {choice : Dict.Choice}
    (hLoop : Looping (table r.roster) r)
    (hNext : r.iter.next (table r.roster) choice = .stop) :
    Sound table (r.finish (table r.roster)) := by
  have hIter := hLoop.tracks.iter
  have hAll := hIter.of_next_stop hNext
  refine ⟨⟨hLoop.message, .inr rfl, ?_, ?_, ?_⟩,
    hLoop.sent, nofun⟩
  · have hLength := hIter.length_le
    rw [List.length_map] at hLength
    exact hLength
  · intro _ pid ws hStays
    exact hLoop.once hAll hStays
  · intro e hRemoved
    exact mem_dead_of_removed hLoop.tracks.dead hRemoved

/- All broadcasts but the `i`-th one are sound. -/
def OthersSound
    (s : State ω M)
    (i : Nat) : Prop :=
  ∀ r, ∀ r' ∈ s.broadcasts.set i r,
    r' = r ∨ Sound s.table r'

theorem AllSound.others
    {s : State ω M}
    (hAll : AllSound s)
    (i : Nat) :
    OthersSound s i := by
  intro r r' hMem
  rcases List.mem_or_eq_of_mem_set hMem with hOld | hNew
  · exact .inr (hAll r' hOld)
  · exact .inl hNew

theorem OthersSound.setBroadcast
    {s : State ω M}
    {i : Nat}
    {r : Broadcast ω M}
    (hOthers : OthersSound s i)
    (hSound : Sound s.table r) :
    AllSound (s.setBroadcast i r) := by
  intro r' hMem
  rw [State.table_setBroadcast]
  rcases hOthers r r' hMem with rfl | hOther
  · exact hSound
  · exact hOther

/- A loop over the same keys goes on as it should. -/
theorem OthersSound.proceed
    {s : State ω M}
    {i : Nat}
    {r : Broadcast ω M}
    (hOthers : OthersSound s i)
    (hLoop : Looping (s.table r.roster) r)
    (choice : Dict.Choice) :
    AllSound (s.proceed i r choice) := by
  cases hNext : r.iter.next (s.table r.roster) choice with
  | raise =>
      exact absurd hNext (hLoop.tracks.iter.next_ne_raise _)
  | entry e =>
      rw [State.proceed_of_entry hNext]
      exact hOthers.setBroadcast (hLoop.send hNext)
  | stop =>
      rw [State.proceed_of_stop hNext]
      have hAll := hOthers.setBroadcast (hLoop.finish hNext)
      apply hAll.setTable_of_subset
      rw [State.table_setBroadcast]
      exact Dict.entries_popAll_subset _ _

theorem AllSound.start
    {s : State ω M}
    (hAll : AllSound s)
    (roster : Roster)
    {stateSnapshot message : M}
    (hMessage :
      roster = .players → message = stateSnapshot) :
    AllSound (s.start roster stateSnapshot message) := by
  refine OthersSound.proceed ?_
    (looping_begin roster (s.table roster) hMessage) .raise
  intro r r' hMem
  rw [List.set_append_right _ _ (Nat.le_refl _),
    Nat.sub_self] at hMem
  rcases List.mem_append.mp hMem with hOld | hNew
  · exact .inr (hAll r' hOld)
  · exact .inl (List.mem_singleton.mp hNew)

end Broadcasts

end GameRoom

------------------------------------------------------------
-- Whole Runs
------------------------------------------------------------

namespace GameRoom

namespace Broadcasts

open Py

variable {ω M : Type}

theorem sound_step
    {s t : State ω M}
    {act : Act ω M}
    (hAll : AllSound s)
    (hCalm : Undisturbed s act)
    (hStep : step s act = some t) :
    AllSound t := by
  cases act with
  | connect roster pid ws =>
      cases hStep
      apply hAll.setTable
      rintro r hMem rfl hRunning hUnchanged _ e hFailed
      have hOther : e.1 ≠ pid := by
        rintro rfl
        exact
          hCalm r hMem rfl hRunning hUnchanged
            (List.mem_map_of_mem hFailed)
      rw [Dict.get?_set, if_neg hOther]
      exact
        ((hAll r hMem).tracks hRunning hUnchanged).dead e
          hFailed
  | disconnect roster pid =>
      cases hStep
      exact hAll.setTable_of_subset List.filter_sublist.subset
  | clear =>
      cases hStep
      exact
        (hAll.setTable_of_subset
          (List.nil_subset _)).setTable_of_subset
            (List.nil_subset _)
  | commit stateSnapshot =>
      cases hStep
      exact hAll.of_same rfl rfl rfl
  | newLoop spectatorBuffer tick =>
      cases hStep
      exact hAll.of_same rfl rfl rfl
  | toPlayers stateSnapshot =>
      cases hStep
      exact hAll.start .players (fun _ => rfl)
  | toSpectators stateSnapshot =>
      cases hStep
      exact hAll.start .spectators nofun
  | resume i ok choice =>
      simp only [step] at hStep
      split at hStep
      · cases hStep
      · rename_i r hThis
        split at hStep
        · rename_i hRunning
          cases hStep
          rcases hCalm r hThis with ⟨hUnchanged, hFailed⟩
          have hSound := hAll r (List.mem_of_getElem? hThis)
          exact
            (hAll.others i).proceed
              (hSound.complete hRunning hUnchanged hFailed)
              choice
        · cases hStep

/- A resumed loop is at its end or sends once more. -/
theorem AllSound.progresses
    {s : State ω M}
    (hAll : AllSound s)
    (i : Nat) :
    Progresses s i := by
  intro r ok choice hThis hRunning hUnchanged
  have hTracks :=
    (hAll r (List.mem_of_getElem? hThis)).tracks hRunning
      hUnchanged
  have hIndex : i < s.broadcasts.length :=
    (List.getElem?_eq_some_iff.mp hThis).1
  have hStep :
      step s (.resume i ok choice) =
        some (s.proceed i (r.complete ok) choice) := by
    simp only [step, hThis, hRunning, if_true]
  have hSet :
      ∀ r', (s.setBroadcast i r').broadcasts[i]? = some r' :=
    fun r' => List.getElem?_set_self hIndex
  rw [hStep]
  cases hNext :
      (r.complete ok).iter.next (s.table r.roster) choice with
  | raise =>
      exact absurd hNext (hTracks.iter.next_ne_raise choice)
  | entry e =>
      refine
        ⟨_, (r.complete ok).send e.1 e.2, rfl, ?_,
          .inr ⟨rfl, List.length_append⟩⟩
      rw [State.proceed_of_entry hNext]
      exact hSet _
  | stop =>
      refine
        ⟨_, (r.complete ok).finish (s.table r.roster), rfl, ?_,
          .inl rfl⟩
      rw [State.proceed_of_stop hNext,
        State.broadcasts_setTable, List.getElem?_map, hSet]
      exact congrArg some (if_neg (fun h => nomatch h.2))

/-
  Whoever comes, goes or fails, and whatever the other
  broadcasts do: a broadcast whose dictionary keeps its keys
  reaches everyone who stays, and it removes nobody else than
  those whose sockets failed.
-/
theorem everyone_reached
    (connectedPlayers connectedSpectators : Dict String ω)
    (spectatorBuffer : SpectatorRingBuffer M)
    (tick : Nat)
    (s : State ω M)
    (hRun :
      Machine.Reaches step Undisturbed
        (State.initial connectedPlayers connectedSpectators
          spectatorBuffer tick) s) :
    (∀ r ∈ s.broadcasts, r.ReachesAll) ∧
      ∀ i, Progresses s i := by
  have hAll : AllSound s :=
    hRun.invariant nofun sound_step
  exact
    ⟨fun r hMem => (hAll r hMem).reaches,
      fun i => hAll.progresses i⟩

end Broadcasts

end GameRoom

------------------------------------------------------------
-- Joins and Reconnects
------------------------------------------------------------

namespace GameRoom

namespace Broadcasts

open Py

/- Two players with sockets 1 and 2, and one spectator. -/
def annAndCat : State Nat String :=
  State.initial
    ((Dict.empty.set "ann" 1).set "cat" 2)
    (Dict.empty.set "spectator-eve" 7)
    (.empty 10 0) 0

/- Two broadcasts side by side, and a delayed one. -/
def overlapping : List (Act Nat String) :=
  [.toPlayers "one", .connect .players "cat" 3,
    .toPlayers "two", .resume 1 true .raise,
    .resume 1 true .raise, .commit "three",
    .toSpectators "four", .resume 0 true .raise,
    .resume 0 false .raise, .connect .players "bob" 4,
    .resume 2 true .raise, .disconnect .players "ann"]

theorem everyone_reached_overlapping :
    (Machine.final step annAndCat overlapping
        rfl).broadcasts.map
          (fun r => (r.phase, r.sent, r.removed)) =
      [(.finished, [("ann", 1, "one"), ("cat", 3, "one")],
          [("cat", 3)]),
        (.finished, [("ann", 1, "two"), ("cat", 3, "two")],
          []),
        (.finished, [("spectator-eve", 7, "three")], [])] ∧
      (∀ r ∈
          (Machine.final step annAndCat overlapping
            rfl).broadcasts,
        r.ReachesAll) ∧
      ∀ i,
        Progresses
          (Machine.final step annAndCat overlapping rfl) i :=
  ⟨by decide,
    everyone_reached _ _ _ _ _
      (Machine.reaches_of_run (Machine.run_eq_final rfl)
        (by decide))⟩

/- Another player joins during the send to the first one. -/
def joinWhileSending : List (Act Nat String) :=
  [.toPlayers "one", .connect .players "bob" 3,
    .resume 0 true .raise]

/- A player is back before the broadcast removes her. -/
def backBeforeRemoval : List (Act Nat String) :=
  [.toPlayers "one", .resume 0 false .raise,
    .connect .players "ann" 3, .resume 0 true .raise]

/-
  The join ends the broadcast before its second send, and the
  player who is back loses the socket that has not failed.
-/
theorem join_and_reconnect_break_broadcast :
    (Machine.Reachable step annAndCat
        (Machine.final step annAndCat joinWhileSending rfl) ∧
      ¬ ∀ r ∈
          (Machine.final step annAndCat joinWhileSending
            rfl).broadcasts,
        r.ReachesAll) ∧
      Machine.Reachable step annAndCat
        (Machine.final step annAndCat backBeforeRemoval
          rfl) ∧
      ¬ ∀ r ∈
          (Machine.final step annAndCat backBeforeRemoval
            rfl).broadcasts,
        r.ReachesAll := by
  refine
    ⟨⟨Machine.reachable_of_run (Machine.run_eq_final rfl),
      ?_⟩,
      Machine.reachable_of_run (Machine.run_eq_final rfl), ?_⟩
  · intro hAll
    have hQuiet := (hAll _ (List.mem_singleton_self _)).quiet
    revert hQuiet
    decide
  · intro hAll
    have hRemoved :=
      (hAll _ (List.mem_singleton_self _)).removed ("ann", 3)
    revert hRemoved
    decide

end Broadcasts

end GameRoom
