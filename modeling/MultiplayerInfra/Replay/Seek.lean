import MultiplayerInfra.Replay.Archive
import MultiplayerInfra.Paging.Cursor

/-
  `seek_replay`, and a client that pages through an archived
  match with it.

  Key definitions include:
    * `Replay.seekReplay`
    * `Replay.seekAll`
    * `Replay.TicksUnsplit`

  Key theorems include:
    * `Replay.seek_iff`

  A page holds a number of events, while the client names
  the next one by a tick.
-/

------------------------------------------------------------
-- Seeking
------------------------------------------------------------

namespace Replay

open Py GameRoom

variable {α : Type}

/- The body of a reply of `/replay/{match_id}/seek`. -/
structure SeekReply (α : Type) where
  matchId : String
  tick : Nat
  events : List (StateJson α)
  remaining : Nat

/-
  `seek_replay` on the stored object; without one the reply
  is "Replay not found".
-/
def seekReplay
    (object : Option (List (StateJson α)))
    (matchId : String)
    (tick : Nat) : Option (SeekReply α) :=
  object.map (fun events =>
    let seeked :=
      events.filter (fun e => tick ≤ e.tickOrZero)
    { matchId := matchId
      tick := tick
      events := seeked.take 100
      -- `max(0, len(seeked) - 100)`
      remaining := seeked.length - 100 })

def SeekReply.page
    (reply : SeekReply α) : Paging.Page (StateJson α) where
  items := reply.events
  remaining := reply.remaining

/-
  What a client receives in at most `calls` calls that seeks
  from `n` and then behind the last tick it has got, while
  events remain.
-/
def seekAll
    (object : Option (List (StateJson α)))
    (matchId : String)
    (calls n : Nat) : Option (List (StateJson α)) :=
  Paging.collect StateJson.tickOrZero
    (fun tick =>
      (seekReplay object matchId tick).map SeekReply.page)
    calls n

/-
  The events behind every hundredth one of those sought are
  of a later tick than it.
-/
def TicksUnsplit
    (events : List (StateJson α))
    (n : Nat) : Prop :=
  ∀ i e e',
    (events.filter (fun e => n ≤ e.tickOrZero))[
        100 * (i + 1) - 1]? = some e →
      (events.filter (fun e => n ≤ e.tickOrZero))[
          100 * (i + 1)]? = some e' →
        e.tickOrZero < e'.tickOrZero

/- The replies are the pages of the stored events. -/
theorem seekAll_eq_collect
    (events : List (StateJson α))
    (matchId : String)
    (calls n : Nat) :
    seekAll (some events) matchId calls n =
      Paging.collect StateJson.tickOrZero
        (Paging.pages 100 StateJson.tickOrZero events)
        calls n :=
  rfl

/-
  From a sorted archive a client receives every event from
  `n` on, once and in order, exactly when no page ends
  within the events of one tick.
-/
theorem seek_iff
    (svc : Service α)
    (events : List (StateJson α))
    (matchId : String)
    (n : Nat)
    (hArchived : svc.archives.getLast? = some events)
    (hSorted :
      events.Pairwise (fun e e' =>
        e.tickOrZero ≤ e'.tickOrZero)) :
    (∃ calls,
      seekAll svc.archives.getLast? matchId calls n =
        some (events.filter (fun e =>
          n ≤ e.tickOrZero))) ↔
      TicksUnsplit events n := by
  simp only [hArchived, seekAll_eq_collect]
  exact Paging.collects_iff (by decide) hSorted n

/- Two pages, the second of which has one event. -/
theorem seek_iff_quiet :
    ∃ calls,
      seekAll [quietLog 101].getLast? "room-a" calls 0 =
        some ((quietLog 101).filter (fun e =>
          0 ≤ e.tickOrZero)) :=
  (seek_iff
    { Service.empty with archives := [quietLog 101] }
    (quietLog 101) "room-a" 0 rfl (by decide +kernel)).mpr
      (Paging.noSplit_of_strict (by decide)
        (by decide +kernel))

/- The last tick was published twice. -/
def repeatedTick : List (StateJson Int) :=
  quietLog 100 ++ [quietTick 100]

/-
  The repeated event is behind the first page, but not
  behind its last tick.
-/
theorem seek_loses_event :
    repeatedTick.Pairwise (fun e e' =>
        e.tickOrZero ≤ e'.tickOrZero) ∧
      ¬ ∃ calls,
        seekAll [repeatedTick].getLast? "room-a" calls 0 =
          some (repeatedTick.filter (fun e =>
            0 ≤ e.tickOrZero)) := by
  have hSorted :
      repeatedTick.Pairwise (fun e e' =>
        e.tickOrZero ≤ e'.tickOrZero) := by
    decide +kernel
  refine ⟨hSorted, ?_⟩
  intro hAll
  have hNone :=
    (Paging.collects_iff (by decide) hSorted 0).mp hAll
  exact
    absurd (hNone 0 (quietTick 100) (quietTick 100) rfl rfl)
      (by decide)

end Replay
