import MultiplayerInfra.GameRoom.GameLoop

/-
  The stores outside the process that a room writes: its
  events and lifecycle messages in Kafka, its keys in Redis,
  and its rows in the table `matches`.

  Key definitions include:
    * `GameRoom.RoomRedis`
    * `GameRoom.RedisCmd`
    * `GameRoom.RoomRedis.run`
    * `GameRoom.Stores`
    * `GameRoom.Stores.appendEvent`
    * `GameRoom.Stores.ackEvent`

  The offset of an event is its position in the log.  Each
  record carries the number of the loop or match that
  produced it, which no part of the program reads.
-/

------------------------------------------------------------
-- Redis
------------------------------------------------------------

namespace GameRoom

open Py

/- The three keys `match:{id}:...` of a room. -/
inductive RoomKey where
  | state
  | lastOffset
  | players
deriving DecidableEq

structure RoomRedis (α : Type) where
  state : Option (StateJson α)
  lastOffset : Option Int
  -- an absent set and an empty one are the same in Redis
  players : List String
deriving DecidableEq

/- The commands of `_update_redis`. -/
inductive RedisCmd (α : Type) where
  | setState (value : StateJson α)
  | setOffset (value : Int)
  | saddPlayers (members : List String)
  | expire (key : RoomKey)
deriving DecidableEq

namespace RoomRedis

variable {α : Type}

def empty : RoomRedis α where
  state := none
  lastOffset := none
  players := []

/-
  Execute one command.  A time to live is not counted down:
  a key may vanish at any time by `evict`.
-/
def run
    (redis : RoomRedis α) :
    RedisCmd α → RoomRedis α
| .setState value => { redis with state := some value }
| .setOffset value =>
    { redis with lastOffset := some value }
| .saddPlayers members =>
    { redis with
      players := (redis.players ++ members).dedup }
| .expire _ => redis

/- A key expires or is lost. -/
def evict
    (redis : RoomRedis α) :
    RoomKey → RoomRedis α
| .state => { redis with state := none }
| .lastOffset => { redis with lastOffset := none }
| .players => { redis with players := [] }

end RoomRedis

end GameRoom

------------------------------------------------------------
-- All Stores
------------------------------------------------------------

namespace GameRoom

open Py

structure LogEntry (α : Type) where
  event : StateJson α
  -- its producer received the acknowledgement
  acked : Bool
  producer : Nat
deriving DecidableEq

structure LifecycleEntry where
  event : MatchEnd
  producer : Nat
deriving DecidableEq

structure Stores (α : Type) where
  events : List (LogEntry α)
  lifecycle : List LifecycleEntry
  redis : RoomRedis α
  matchRows : List MatchRecord

namespace Stores

variable {α : Type}

def empty : Stores α where
  events := []
  lifecycle := []
  redis := RoomRedis.empty
  matchRows := []

def appendEvent
    (st : Stores α)
    (producer : Nat)
    (event : StateJson α) :
    Stores α :=
  { st with
    events := st.events ++ [{
      event := event
      acked := false
      producer := producer }] }

/- The producer of the record at `offset` learns of it. -/
def ackEvent
    (st : Stores α)
    (offset : Nat) :
    Stores α :=
  { st with
    events := st.events.modify offset (fun entry =>
      { entry with acked := true }) }

def runRedis
    (st : Stores α)
    (cmd : RedisCmd α) :
    Stores α :=
  { st with redis := st.redis.run cmd }

/- `redis.delete` of the three keys between two matches. -/
def deleteRoomKeys (st : Stores α) : Stores α :=
  { st with redis := RoomRedis.empty }

def evict
    (st : Stores α)
    (key : RoomKey) :
    Stores α :=
  { st with redis := st.redis.evict key }

def appendLifecycle
    (st : Stores α)
    (producer : Nat)
    (event : MatchEnd) :
    Stores α :=
  { st with
    lifecycle := st.lifecycle ++ [{
      event := event
      producer := producer }] }

/- `INSERT ... ON CONFLICT (match_id, started_at) DO NOTHING`. -/
def saveMatch
    (st : Stores α)
    (row : MatchRecord) :
    Stores α :=
  if st.matchRows.any (fun old =>
      old.matchId = row.matchId ∧
        old.startedAt = row.startedAt) then st
  else { st with matchRows := st.matchRows ++ [row] }

end Stores

end GameRoom

------------------------------------------------------------
-- Frame Facts
------------------------------------------------------------

namespace GameRoom

namespace Stores

variable {α : Type}
variable (st : Stores α)

@[simp] theorem events_appendEvent
    (producer : Nat)
    (event : StateJson α) :
    (st.appendEvent producer event).events =
      st.events ++ [⟨event, false, producer⟩] := by
  rfl

@[simp] theorem redis_appendEvent
    (producer : Nat)
    (event : StateJson α) :
    (st.appendEvent producer event).redis = st.redis := by
  rfl

@[simp] theorem events_runRedis
    (cmd : RedisCmd α) :
    (st.runRedis cmd).events = st.events := by
  rfl

@[simp] theorem events_saveMatch
    (row : MatchRecord) :
    (st.saveMatch row).events = st.events := by
  unfold saveMatch
  split <;> rfl

@[simp] theorem redis_saveMatch
    (row : MatchRecord) :
    (st.saveMatch row).redis = st.redis := by
  unfold saveMatch
  split <;> rfl

@[simp] theorem lifecycle_saveMatch
    (row : MatchRecord) :
    (st.saveMatch row).lifecycle = st.lifecycle := by
  unfold saveMatch
  split <;> rfl

/- Losing a key never makes the state key appear. -/
theorem state_evict
    {key : RoomKey}
    {value : StateJson α}
    (hState : (st.evict key).redis.state = some value) :
    st.redis.state = some value := by
  cases key with
  | state => cases hState
  | lastOffset => exact hState
  | players => exact hState

end Stores

end GameRoom

------------------------------------------------------------
-- Growth of the Log
------------------------------------------------------------

namespace GameRoom

variable {α : Type}

/- Every record keeps its offset and is never unacknowledged. -/
def LogExtends (log log' : List (LogEntry α)) : Prop :=
  ∀ (offset : Nat) (entry : LogEntry α),
    log[offset]? = some entry →
      ∃ acked,
        log'[offset]? = some { entry with acked := acked } ∧
          (entry.acked = true → acked = true)

namespace LogExtends

theorem refl
    (log : List (LogEntry α)) :
    LogExtends log log := by
  intro offset entry hAt
  exact ⟨entry.acked, hAt, id⟩

/- An acknowledged record stays in the log as it is. -/
theorem mem_of_acked
    {log log' : List (LogEntry α)}
    (hExtends : LogExtends log log')
    {entry : LogEntry α}
    (hEntry : entry ∈ log)
    (hAcked : entry.acked = true) :
    entry ∈ log' := by
  rcases List.mem_iff_getElem?.mp hEntry with ⟨i, hAt⟩
  rcases hExtends i entry hAt with ⟨acked, hAt', hKept⟩
  apply List.mem_iff_getElem?.mpr
  refine ⟨i, ?_⟩
  rw [hAt', hKept hAcked, ← hAcked]

end LogExtends

namespace Stores

variable (st : Stores α)

theorem logExtends_appendEvent
    (producer : Nat)
    (event : StateJson α) :
    LogExtends st.events
      (st.appendEvent producer event).events := by
  intro offset entry hAt
  have hLt := (List.getElem?_eq_some_iff.mp hAt).1
  refine ⟨entry.acked, ?_, id⟩
  rw [events_appendEvent, List.getElem?_append_left hLt]
  exact hAt

theorem logExtends_ackEvent
    (offset : Nat) :
    LogExtends st.events (st.ackEvent offset).events := by
  intro i entry hAt
  by_cases hEq : offset = i
  · exact
      ⟨true, by simp [ackEvent, hAt, hEq], fun _ => rfl⟩
  · exact
      ⟨entry.acked, by simp [ackEvent, hAt, hEq], id⟩

/- The log keeps its events when one is acknowledged. -/
theorem map_event_ackEvent
    (offset : Nat) :
    (st.ackEvent offset).events.map LogEntry.event =
      st.events.map LogEntry.event := by
  apply List.ext_getElem?
  intro i
  simp only [ackEvent, List.getElem?_map,
    List.getElem?_modify]
  cases st.events[i]? with
  | none => rfl
  | some entry =>
      by_cases hAt : offset = i <;> simp [hAt]

/- An appended record is at the offset that was returned. -/
theorem getElem?_appendEvent
    (producer : Nat)
    (event : StateJson α) :
    (st.appendEvent producer event).events[
        st.events.length]? =
      some ⟨event, false, producer⟩ := by
  simp

/- The acknowledged record is in the log. -/
theorem mem_ackEvent
    {offset : Nat}
    {entry : LogEntry α}
    (hAt : st.events[offset]? = some entry) :
    { entry with acked := true } ∈
      (st.ackEvent offset).events := by
  apply List.mem_iff_getElem?.mpr
  refine ⟨offset, ?_⟩
  simp [ackEvent, hAt]

end Stores

end GameRoom
