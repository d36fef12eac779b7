import MultiplayerInfra.Broker.Queue
import MultiplayerInfra.Machine.Run
import MultiplayerInfra.Matchmaking.Loop

/-
  How requests reach the matcher: the endpoint publishes to
  the queue `matchmaking.requests`, whose consumer validates
  the token, fetches the rating and adds a request.

  Key definitions include:
    * `Matchmaking.Consume.queueMatchmaking`
    * `Matchmaking.Consume.Stage`
    * `Matchmaking.Consume.step`
    * `Matchmaking.Consume.Accounted`

  Key theorems include:
    * `Matchmaking.Consume.steps_of_step`
    * `Matchmaking.Consume.placed_step`
    * `Matchmaking.Consume.judged_step`
    * `Matchmaking.Consume.paid_step`
    * `Matchmaking.Consume.requests_accounted`

  The consumer handles one message at a time.  When the
  connection is lost its deliveries are stale: the broker
  delivers those messages again, but the handler goes on.
  An exception ends the iteration, which gives back what has
  not been handled.
-/

------------------------------------------------------------
-- The Endpoint and the Consumer
------------------------------------------------------------

namespace Matchmaking.Consume

open Broker

/- The body of a message. -/
inductive Body where
  -- not JSON, or no object
  | unreadable
  -- its token, `""` for a missing one
  | object (token : String)
deriving DecidableEq

/- A message, told apart by the order of publication. -/
structure Message where
  number : Nat
  body : Body
deriving DecidableEq

/- How `publish_to_queue` ends. -/
inductive Publish where
  -- `connect_publish_channel` returns `None`
  | unreachable
  | confirmed
  | raised (applied : Bool)
deriving DecidableEq

/-
  `queue_matchmaking`: whether the message is published, and
  the status of the response.
-/
def queueMatchmaking
    (token : String)
    (playerId : Option String)
    (publish : Publish) : Bool × Nat :=
  if token = "" then (false, 400)
  else if playerId.getD "" = "" then (false, 401)
  else
    match publish with
    | .unreachable => (false, 202)
    | .confirmed => (true, 202)
    | .raised applied => (applied, 503)

/- A message at the consumer. -/
structure Delivery where
  message : Message
  -- the channel of the delivery is still open
  live : Bool
deriving DecidableEq

/- What the body of `message.process()` waits for. -/
inductive Stage where
  -- `validate_token`
  | validating
  -- `fetch_player_elo`
  | fetchingElo (playerId : String)
  -- it has ended: the message is acknowledged
  | succeeded
  -- it has raised: the message is rejected
  | failed
deriving DecidableEq

/- The body up to its first call. -/
def Body.start : Body → Stage
| .unreadable => .failed
| .object token =>
    if token = "" then .succeeded else .validating

structure State where
  broker : Queue Message
  -- `queue_iter`
  buffer : List Delivery
  current : Option (Delivery × Stage)
  published : Nat
  -- the requests given to `add_request`, by message
  added : List (Nat × Arrival)
  -- messages whose token was found invalid
  refused : List Nat
  -- messages that were too old
  expired : List Nat
  -- messages that the broker got back
  requeued : List Nat
deriving DecidableEq

def State.empty : State where
  broker := Queue.empty
  buffer := []
  current := none
  published := 0
  added := []
  refused := []
  expired := []
  requeued := []

/- `prefetch_count`. -/
def prefetchCount : Nat := 10

inductive Act where
  -- a request to the endpoint
  | post
      (token : String)
      (playerId : Option String)
      (publish : Publish)
  -- anybody else publishes
  | publish (body : Body)
  -- the first message of the queue expires
  | expire
  | deliver
  -- the consumer takes the first of its deliveries
  | next
  | validated (playerId : Option String)
  -- the rating is fetched, `None` for an error
  | fetched (elo : Option Int) (now : Rat)
  -- the message is acknowledged or rejected; whether an
  -- acknowledgement on a closed channel raises
  | settle (raises : Bool)
  | disconnect
  -- the iterator raises
  | abandon
  | crash
deriving DecidableEq

/- The messages that the broker counts as delivered. -/
def liveMessages (ds : List Delivery) : List Message :=
  (ds.filter Delivery.live).map Delivery.message

namespace State

def publish (s : State) (body : Body) : State :=
  { s with
    broker :=
      s.broker.publish
        { number := s.published, body := body }
    published := s.published + 1 }

/- The deliveries, the one that is being handled first. -/
def deliveries (s : State) : List Delivery :=
  (s.current.map Prod.fst).toList ++ s.buffer

/- The messages that the broker waits for. -/
def outstanding (s : State) : List Message :=
  liveMessages s.deliveries

def setStage
    (s : State)
    (d : Delivery)
    (stage : Stage) : State :=
  { s with current := some (d, stage) }

/- The end of a connection, seen from the broker. -/
def requeue (s : State) : State :=
  { s with
    broker := s.broker.requeue
    requeued :=
      s.broker.unacked.map Message.number ++ s.requeued }

end State

/- The loop over the deliveries is left. -/
def State.leave (s : State) : State :=
  { s.requeue with buffer := [], current := none }

/- A delivery whose channel has closed. -/
def Delivery.lose (d : Delivery) : Delivery :=
  { d with live := false }

/- The consumer after it has taken a delivery. -/
def next (s : State) : Option State :=
  match s.current, s.buffer with
  | none, d :: rest =>
      some
        { s with
          buffer := rest
          current := some (d, d.message.body.start) }
  | _, _ => none

/- `if not player_id: continue`. -/
def validated
    (s : State)
    (playerId : Option String) : Option State :=
  match s.current with
  | some (d, .validating) =>
      if playerId.getD "" = "" then
        some
          { s.setStage d .succeeded with
            refused := d.message.number :: s.refused }
      else
        some (s.setStage d (.fetchingElo (playerId.getD "")))
  | _ => none

/- `add_request`; a rating that is missing is 1200. -/
def fetched
    (s : State)
    (elo : Option Int)
    (now : Rat) : Option State :=
  match s.current with
  | some (d, .fetchingElo playerId) =>
      some
        { s.setStage d .succeeded with
          added :=
            s.added ++
              [(d.message.number,
                { playerId := playerId
                  elo := elo.getD 1200
                  timestamp := now })] }
  | _ => none

/-
  The end of `message.process()`.  A body that has raised
  raises again after the rejection.
-/
def settle (s : State) (raises : Bool) : Option State :=
  match s.current with
  | some (d, .succeeded) =>
      if d.live then
        some
          { s with
            current := none
            broker := s.broker.ack d.message }
      else if raises then some s.leave
      else some { s with current := none }
  | some (d, .failed) =>
      some
        ({ s with
          current := none
          broker :=
            if d.live then s.broker.reject d.message
            else s.broker } : State).leave
  | _ => none

def step (s : State) : Act → Option State
| .post token playerId publish =>
    some
      (if (queueMatchmaking token playerId publish).1 then
        s.publish (.object token)
      else s)
| .publish body => some (s.publish body)
| .expire =>
    s.broker.expire.map (fun (m, broker) =>
      { s with
        broker := broker
        expired := m.number :: s.expired })
| .deliver =>
    if s.broker.unacked.length < prefetchCount then
      s.broker.deliver.map (fun (m, broker) =>
        { s with
          broker := broker
          buffer := s.buffer ++ [⟨m, true⟩] })
    else none
| .next => next s
| .validated playerId => validated s playerId
| .fetched elo now => fetched s elo now
| .settle raises => settle s raises
| .disconnect =>
    some
      { s.requeue with
        buffer := s.buffer.map Delivery.lose
        current :=
          s.current.map (fun (d, stage) => (d.lose, stage)) }
| .abandon =>
    match s.current with
    | none => some s.leave
    | some _ => none
| .crash => some s.leave

end Matchmaking.Consume

------------------------------------------------------------
-- The Kinds of Steps
------------------------------------------------------------

namespace Matchmaking.Consume

open Broker

/- The transitions of `step`, one for each kind. -/
inductive Steps (s : State) : State → Prop where
  | idle : Steps s s
  | publish {body : Body} : Steps s (s.publish body)
  | expire
      {m : Message} {broker : Queue Message}
      (hExpire : s.broker.expire = some (m, broker)) :
      Steps s
        { s with
          broker := broker
          expired := m.number :: s.expired }
  | deliver
      {m : Message} {broker : Queue Message}
      (hDeliver : s.broker.deliver = some (m, broker)) :
      Steps s
        { s with
          broker := broker
          buffer := s.buffer ++ [⟨m, true⟩] }
  | next
      {d : Delivery} {rest : List Delivery}
      (hIdle : s.current = none)
      (hBuffer : s.buffer = d :: rest) :
      Steps s
        { s with
          buffer := rest
          current := some (d, d.message.body.start) }
  | refuse
      {d : Delivery}
      (hStage : s.current = some (d, .validating)) :
      Steps s
        { s.setStage d .succeeded with
          refused := d.message.number :: s.refused }
  | accept
      {d : Delivery} {playerId : String}
      (hStage : s.current = some (d, .validating)) :
      Steps s (s.setStage d (.fetchingElo playerId))
  | add
      {d : Delivery} {playerId : String} {arrival : Arrival}
      (hStage :
        s.current = some (d, .fetchingElo playerId)) :
      Steps s
        { s.setStage d .succeeded with
          added := s.added ++ [(d.message.number, arrival)] }
  | ack
      {d : Delivery}
      (hStage : s.current = some (d, .succeeded)) :
      Steps s
        { s with
          current := none
          broker :=
            if d.live then s.broker.ack d.message
            else s.broker }
  | reject
      {d : Delivery}
      (hStage : s.current = some (d, .failed)) :
      Steps s
        { s with
          current := none
          broker :=
            if d.live then s.broker.reject d.message
            else s.broker }
  | disconnect :
      Steps s
        { s.requeue with
          buffer := s.buffer.map Delivery.lose
          current :=
            s.current.map (fun (d, stage) =>
              (d.lose, stage)) }
  | leave {t : State} (hFirst : Steps s t) : Steps s t.leave

/- Every step of the function is one of the transitions. -/
theorem steps_of_step
    {s t : State}
    {act : Act}
    (hStep : step s act = some t) :
    Steps s t := by
  cases act with
  | post token playerId publish =>
      cases hStep
      split
      · exact .publish
      · exact .idle
  | publish body =>
      cases hStep
      exact .publish
  | expire =>
      rcases Option.map_eq_some_iff.mp hStep with
        ⟨⟨m, broker⟩, hExpire, rfl⟩
      exact .expire hExpire
  | deliver =>
      simp only [step] at hStep
      split at hStep
      · rcases Option.map_eq_some_iff.mp hStep with
          ⟨⟨m, broker⟩, hDeliver, rfl⟩
        exact .deliver hDeliver
      · cases hStep
  | next =>
      simp only [step, next] at hStep
      split at hStep
      · cases hStep
        exact .next ‹_› ‹_›
      · cases hStep
  | validated playerId =>
      simp only [step, validated] at hStep
      split at hStep
      · split at hStep
        · cases hStep
          exact .refuse ‹_›
        · cases hStep
          exact .accept ‹_›
      · cases hStep
  | fetched elo now =>
      simp only [step, fetched] at hStep
      split at hStep
      · cases hStep
        exact .add ‹_›
      · cases hStep
  | settle raises =>
      simp only [step, settle] at hStep
      split at hStep
      · rename_i d hStage
        have hAck := Steps.ack hStage
        split at hStep
        · rename_i hLive
          cases hStep
          rwa [if_pos hLive] at hAck
        · rename_i hStale
          rw [if_neg hStale] at hAck
          split at hStep
          · cases hStep
            exact .leave .idle
          · cases hStep
            exact hAck
      · cases hStep
        exact .leave (.reject ‹_›)
      · cases hStep
  | disconnect =>
      cases hStep
      exact .disconnect
  | abandon =>
      simp only [step] at hStep
      split at hStep
      · cases hStep
        exact .leave .idle
      · cases hStep
  | crash =>
      cases hStep
      exact .leave .idle

end Matchmaking.Consume

------------------------------------------------------------
-- Where Messages Are
------------------------------------------------------------

namespace Matchmaking.Consume

open Broker

variable {s t : State}

/- The broker waits for the deliveries that are live. -/
structure Placed (s : State) : Prop where
  numbers :
    (s.broker.all.map Message.number).Perm
      (List.range s.published)
  outstanding : s.outstanding.Perm s.broker.unacked

theorem placed_empty : Placed State.empty where
  numbers := .refl _
  outstanding := .refl _

theorem liveMessages_append
    (ds ds' : List Delivery) :
    liveMessages (ds ++ ds') =
      liveMessages ds ++ liveMessages ds' := by
  simp only [liveMessages, List.filter_append,
    List.map_append]

/- Nothing that was lost is live. -/
theorem liveMessages_lose
    (ds : List Delivery) :
    liveMessages (ds.map Delivery.lose) = [] := by
  simp [liveMessages, List.filter_map, Function.comp_def,
    Delivery.lose]

theorem mem_liveMessages
    {ds : List Delivery}
    {d : Delivery}
    (hMem : d ∈ ds)
    (hLive : d.live = true) :
    d.message ∈ liveMessages ds :=
  List.mem_map_of_mem (List.mem_filter.mpr ⟨hMem, hLive⟩)

theorem deliveries_of_current
    {d : Delivery}
    {stage : Stage}
    (hStage : s.current = some (d, stage)) :
    s.deliveries = d :: s.buffer := by
  rw [State.deliveries, hStage]
  rfl

/- A delivery that is handled and live is unacknowledged. -/
theorem Placed.mem_unacked
    (hPlaced : Placed s)
    {d : Delivery}
    {stage : Stage}
    (hStage : s.current = some (d, stage))
    (hLive : d.live = true) :
    d.message ∈ s.broker.unacked := by
  apply hPlaced.outstanding.subset
  refine mem_liveMessages ?_ hLive
  rw [deliveries_of_current hStage]
  exact List.mem_cons_self

/- The handler goes on with its delivery. -/
theorem Placed.of_deliveries
    (hPlaced : Placed s)
    (hBroker : t.broker = s.broker)
    (hPublished : t.published = s.published)
    (hDeliveries : t.deliveries = s.deliveries) :
    Placed t where
  numbers := by
    rw [hBroker, hPublished]
    exact hPlaced.numbers
  outstanding := by
    rw [State.outstanding, hDeliveries, hBroker]
    exact hPlaced.outstanding

/- What was delivered is ready again. -/
theorem Placed.requeue
    (hPlaced : Placed s)
    (hBroker : t.broker = s.broker.requeue)
    (hPublished : t.published = s.published)
    (hNone : t.outstanding = []) :
    Placed t where
  numbers := by
    rw [hBroker, hPublished]
    exact
      (Queue.perm_requeue.map Message.number).trans
        hPlaced.numbers
  outstanding := by
    rw [hNone, hBroker]
    exact .refl _

/- The message that is settled leaves the unacknowledged. -/
theorem Placed.settle
    (hPlaced : Placed s)
    {d : Delivery}
    {stage : Stage}
    {broker : Queue Message}
    (hStage : s.current = some (d, stage))
    (hUnacked :
      broker.unacked = s.broker.unacked.erase d.message)
    (hAll : d.live = true → broker.all.Perm s.broker.all) :
    Placed { s with
      current := none
      broker := if d.live then broker else s.broker } := by
  have hOutstanding := hPlaced.outstanding
  rw [State.outstanding, deliveries_of_current hStage]
    at hOutstanding
  cases hLive : d.live with
  | false =>
      refine ⟨hPlaced.numbers, ?_⟩
      simpa [State.outstanding, State.deliveries,
        liveMessages, hLive] using hOutstanding
  | true =>
      refine
        ⟨((hAll hLive).map Message.number).trans
          hPlaced.numbers, ?_⟩
      have hFirst :
          liveMessages (d :: s.buffer) =
            d.message :: liveMessages s.buffer := by
        simp [liveMessages, hLive]
      rw [hFirst] at hOutstanding
      have hErased := hOutstanding.erase d.message
      rw [List.erase_cons_head] at hErased
      exact hUnacked ▸ hErased

theorem placed_step
    (hPlaced : Placed s)
    (hSteps : Steps s t) :
    Placed t := by
  induction hSteps with
  | idle => exact hPlaced
  | publish =>
      refine ⟨?_, hPlaced.outstanding⟩
      refine (Queue.perm_publish.map Message.number).trans ?_
      rw [List.map_append, List.map_singleton,
        State.publish, List.range_succ]
      exact hPlaced.numbers.append_right _
  | expire hExpire =>
      refine
        ⟨((Queue.perm_expire hExpire).map
          Message.number).trans hPlaced.numbers, ?_⟩
      rw [(Queue.of_expire hExpire).1]
      exact hPlaced.outstanding
  | @deliver m broker hDeliver =>
      refine
        ⟨((Queue.perm_deliver hDeliver).map
          Message.number).trans hPlaced.numbers, ?_⟩
      rw [(Queue.of_deliver hDeliver).1]
      have hMore := hPlaced.outstanding.append_right [m]
      rw [State.outstanding, State.deliveries] at hMore ⊢
      rw [← List.append_assoc, liveMessages_append]
      exact hMore
  | next hIdle hBuffer =>
      refine hPlaced.of_deliveries rfl rfl ?_
      rw [State.deliveries, State.deliveries, hIdle, hBuffer]
      rfl
  | refuse hStage =>
      refine hPlaced.of_deliveries rfl rfl ?_
      rw [deliveries_of_current hStage]
      rfl
  | accept hStage =>
      refine hPlaced.of_deliveries rfl rfl ?_
      rw [deliveries_of_current hStage]
      rfl
  | add hStage =>
      refine hPlaced.of_deliveries rfl rfl ?_
      rw [deliveries_of_current hStage]
      rfl
  | ack hStage =>
      exact
        hPlaced.settle hStage rfl (fun hLive =>
          Queue.perm_ack (hPlaced.mem_unacked hStage hLive))
  | reject hStage =>
      exact
        hPlaced.settle hStage rfl (fun hLive =>
          Queue.perm_reject
            (hPlaced.mem_unacked hStage hLive))
  | disconnect =>
      refine hPlaced.requeue rfl rfl ?_
      have hLost :
          ((s.current.map (fun (d, stage) =>
              (d.lose, stage))).map Prod.fst).toList ++
              s.buffer.map Delivery.lose =
            s.deliveries.map Delivery.lose := by
        rw [State.deliveries, List.map_append]
        cases s.current <;> rfl
      rw [State.outstanding, State.deliveries, hLost,
        liveMessages_lose]
  | leave _ ih => exact ih.requeue rfl rfl rfl

end Matchmaking.Consume

------------------------------------------------------------
-- Why Messages Leave
------------------------------------------------------------

namespace Matchmaking.Consume

open Broker

variable {s t : State}

/- What an acknowledged message has come to. -/
def Answered (s : State) (m : Message) : Prop :=
  m.body = .object "" ∨ m.number ∈ s.refused ∨
    ∃ arrival, (m.number, arrival) ∈ s.added

/- What is known of a message at a stage. -/
def Stage.Fits (s : State) (m : Message) : Stage → Prop
| .succeeded => Answered s m
| .failed => m.body = .unreadable
| _ => True

structure Judged (s : State) : Prop where
  acked : ∀ m ∈ s.broker.acked, Answered s m
  dead :
    ∀ m ∈ s.broker.dead,
      m.number ∈ s.expired ∨ m.body = .unreadable
  current :
    ∀ d stage, s.current = some (d, stage) →
      stage.Fits s d.message

theorem judged_empty : Judged State.empty where
  acked := nofun
  dead := nofun
  current := nofun

/- What is recorded stays recorded. -/
structure Remembers (s t : State) : Prop where
  refused : s.refused ⊆ t.refused
  added : s.added ⊆ t.added
  expired : s.expired ⊆ t.expired

theorem Answered.mono
    {m : Message}
    (hAnswered : Answered s m)
    (hRemembers : Remembers s t) :
    Answered t m := by
  rcases hAnswered with hNone | hRefused | ⟨arrival, hAdded⟩
  · exact .inl hNone
  · exact .inr (.inl (hRemembers.refused hRefused))
  · exact .inr (.inr ⟨arrival, hRemembers.added hAdded⟩)

theorem Stage.Fits.mono
    {m : Message}
    {stage : Stage}
    (hFits : stage.Fits s m)
    (hRemembers : Remembers s t) :
    stage.Fits t m := by
  cases stage with
  | succeeded => exact Answered.mono hFits hRemembers
  | failed => exact hFits
  | validating => trivial
  | fetchingElo playerId => trivial

/- The places that messages leave to stay the same. -/
theorem Judged.frame
    (hJudged : Judged s)
    (hRemembers : Remembers s t)
    (hAcked : t.broker.acked = s.broker.acked)
    (hDead : t.broker.dead = s.broker.dead)
    (hCurrent :
      ∀ d stage, t.current = some (d, stage) →
        stage.Fits t d.message) :
    Judged t where
  acked := by
    rw [hAcked]
    exact fun m hMem => (hJudged.acked m hMem).mono hRemembers
  dead := by
    rw [hDead]
    exact fun m hMem =>
      (hJudged.dead m hMem).imp_left (hRemembers.expired ·)
  current := hCurrent

/- A message without a token or a readable body. -/
theorem fits_start
    (s : State)
    (m : Message) :
    m.body.start.Fits s m := by
  cases hBody : m.body with
  | unreadable => exact hBody
  | object token =>
      simp only [Body.start]
      split
      · rename_i hEmpty
        left
        rw [hBody, hEmpty]
      · trivial

theorem judged_step
    (hJudged : Judged s)
    (hSteps : Steps s t) :
    Judged t := by
  have hSame : ∀ {l : List Nat}, l ⊆ l := fun {_} _ => id
  induction hSteps with
  | idle => exact hJudged
  | publish =>
      exact
        hJudged.frame ⟨hSame, fun _ => id, hSame⟩ rfl rfl
          hJudged.current
  | @expire m broker hExpire =>
      rcases Queue.of_expire hExpire with ⟨_, hAcked, hDead⟩
      refine ⟨?_, ?_, hJudged.current⟩
      · rw [hAcked]
        exact hJudged.acked
      · rw [hDead]
        intro m' hMem
        rcases List.mem_append.mp hMem with hOld | hNew
        · exact
            (hJudged.dead m' hOld).imp_left
              (List.mem_cons_of_mem _)
        · rw [List.mem_singleton.mp hNew]
          exact .inl List.mem_cons_self
  | deliver hDeliver =>
      rcases Queue.of_deliver hDeliver with ⟨_, hAcked, hDead⟩
      exact
        hJudged.frame ⟨hSame, fun _ => id, hSame⟩ hAcked hDead
          hJudged.current
  | next hIdle hBuffer =>
      refine
        hJudged.frame ⟨hSame, fun _ => id, hSame⟩ rfl rfl ?_
      rintro d' stage ⟨⟩
      exact fits_start _ _
  | refuse hStage =>
      refine
        hJudged.frame
          ⟨List.subset_cons_self _ _, fun _ => id, hSame⟩ rfl
          rfl ?_
      rintro d' stage ⟨⟩
      exact .inr (.inl List.mem_cons_self)
  | accept hStage =>
      refine
        hJudged.frame ⟨hSame, fun _ => id, hSame⟩ rfl rfl ?_
      rintro d' stage ⟨⟩
      trivial
  | @add d playerId arrival hStage =>
      refine
        hJudged.frame
          ⟨hSame, List.subset_append_left _ _, hSame⟩ rfl rfl
          ?_
      rintro d' stage ⟨⟩
      exact
        .inr
          (.inr
            ⟨arrival,
              List.mem_append_right _
                (List.mem_singleton_self _)⟩)
  | @ack d hStage =>
      have hAnswered := hJudged.current d _ hStage
      refine ⟨?_, ?_, nofun⟩
      · intro m hMem
        split at hMem
        · rcases List.mem_append.mp hMem with hOld | hNew
          · exact hJudged.acked m hOld
          · rw [List.mem_singleton.mp hNew]
            exact hAnswered
        · exact hJudged.acked m hMem
      · intro m hMem
        split at hMem
        · exact hJudged.dead m hMem
        · exact hJudged.dead m hMem
  | @reject d hStage =>
      have hUnreadable := hJudged.current d _ hStage
      refine ⟨?_, ?_, nofun⟩
      · intro m hMem
        split at hMem
        · exact hJudged.acked m hMem
        · exact hJudged.acked m hMem
      · intro m hMem
        split at hMem
        · rcases List.mem_append.mp hMem with hOld | hNew
          · exact hJudged.dead m hOld
          · rw [List.mem_singleton.mp hNew]
            exact .inr hUnreadable
        · exact hJudged.dead m hMem
  | disconnect =>
      refine
        hJudged.frame ⟨hSame, fun _ => id, hSame⟩ rfl rfl ?_
      intro d stage hCurrent
      rcases Option.map_eq_some_iff.mp hCurrent with
        ⟨⟨d', stage'⟩, hOld, ⟨⟩⟩
      exact hJudged.current d' stage hOld
  | leave _ ih =>
      exact
        ih.frame ⟨hSame, fun _ => id, hSame⟩ rfl rfl nofun

end Matchmaking.Consume

------------------------------------------------------------
-- How Often Requests Are Added
------------------------------------------------------------

namespace Matchmaking.Consume

open Broker

variable {s t : State} {n : Nat}

/- The requests that were added for a message. -/
def addsOf (s : State) (n : Nat) : Nat :=
  (s.added.map Prod.fst).count n

/- It is not decided yet whether a request is added. -/
def Stage.open : Stage → Bool
| .validating => true
| .fetchingElo _ => true
| .succeeded => false
| .failed => false

/- The deliveries that may still add a request. -/
def State.undecided (s : State) : List Delivery :=
  ((s.current.filter (fun e => e.2.open)).map
    Prod.fst).toList ++ s.buffer

def staleOf (ds : List Delivery) (n : Nat) : Nat :=
  ds.countP (fun d => !d.live && d.message.number == n)

def liveOf (ds : List Delivery) (n : Nat) : Nat :=
  ds.countP (fun d => d.live && d.message.number == n)

/- The live delivery whose handling has succeeded. -/
def doneOf (s : State) (n : Nat) : Nat :=
  match s.current with
  | some (d, .succeeded) => liveOf [d] n
  | _ => 0

/- How often a message was acknowledged. -/
def acksOf (s : State) (n : Nat) : Nat :=
  (s.broker.acked.map Message.number).count n

/-
  Every addition is paid for by a delivery: one that the
  broker got back, that is acknowledged, or that is about to
  be.  A stale delivery is paid for before it adds.
-/
def Paid (s : State) (n : Nat) : Prop :=
  addsOf s n + staleOf s.undecided n ≤
    s.requeued.count n + acksOf s n + doneOf s n

theorem staleOf_cons
    (d : Delivery)
    (ds : List Delivery)
    (n : Nat) :
    staleOf (d :: ds) n = staleOf [d] n + staleOf ds n := by
  rw [staleOf, staleOf, staleOf, List.countP_cons,
    List.countP_singleton, Nat.add_comm]

theorem liveOf_cons
    (d : Delivery)
    (ds : List Delivery)
    (n : Nat) :
    liveOf (d :: ds) n = liveOf [d] n + liveOf ds n := by
  rw [liveOf, liveOf, liveOf, List.countP_cons,
    List.countP_singleton, Nat.add_comm]

/- A delivery is stale or live. -/
theorem staleOf_add_liveOf
    (ds : List Delivery)
    (n : Nat) :
    staleOf ds n + liveOf ds n =
      (ds.map (fun d => d.message.number)).count n := by
  induction ds with
  | nil => rfl
  | cons d ds ih =>
      rw [staleOf_cons, liveOf_cons, List.map_cons,
        List.count_cons, ← ih]
      rcases d with ⟨m, _ | _⟩ <;>
        simp only [staleOf, liveOf, List.countP_singleton,
          Bool.not_false, Bool.not_true, Bool.true_and,
          Bool.false_and, Bool.false_eq_true, if_false] <;>
        omega

/- When the connection is lost, all deliveries are stale. -/
theorem staleOf_lose
    (ds : List Delivery)
    (n : Nat) :
    staleOf (ds.map Delivery.lose) n =
      staleOf ds n + liveOf ds n := by
  rw [staleOf_add_liveOf, List.count, List.countP_map,
    staleOf, List.countP_map]
  rfl

theorem liveOf_eq_count
    (ds : List Delivery)
    (n : Nat) :
    liveOf ds n =
      ((liveMessages ds).map Message.number).count n := by
  rw [liveMessages, List.map_map, List.count,
    List.countP_map, List.countP_filter, liveOf]
  congr 1
  funext d
  exact Bool.and_comm _ _

theorem undecided_of_current
    {d : Delivery}
    {stage : Stage}
    (hStage : s.current = some (d, stage)) :
    s.undecided =
      if stage.open then d :: s.buffer else s.buffer := by
  rw [State.undecided, hStage]
  cases stage <;> rfl

theorem doneOf_of_current
    {d : Delivery}
    {stage : Stage}
    (hStage : s.current = some (d, stage)) :
    doneOf s n =
      if stage = .succeeded then liveOf [d] n else 0 := by
  rw [doneOf, hStage]
  cases stage <;> rfl

theorem staleOf_of_current
    {d : Delivery}
    {stage : Stage}
    (hStage : s.current = some (d, stage)) :
    staleOf s.undecided n =
      (if stage.open then staleOf [d] n else 0) +
        staleOf s.buffer n := by
  rw [undecided_of_current hStage]
  split
  · exact staleOf_cons d s.buffer n
  · exact (Nat.zero_add _).symm

theorem staleOf_of_idle
    (hIdle : s.current = none) :
    staleOf s.undecided n = staleOf s.buffer n := by
  rw [State.undecided, hIdle]
  rfl

theorem doneOf_of_idle
    (hIdle : s.current = none) :
    doneOf s n = 0 := by
  rw [doneOf, hIdle]

/- What may add and has added is unacknowledged. -/
theorem Placed.liveOf_add_doneOf
    (hPlaced : Placed s)
    (n : Nat) :
    liveOf s.undecided n + doneOf s n ≤
      (s.broker.unacked.map Message.number).count n := by
  have hPerm := hPlaced.outstanding.map Message.number
  rw [← hPerm.count_eq n, State.outstanding,
    ← liveOf_eq_count]
  cases hCurrent : s.current with
  | none =>
      simp [State.undecided, State.deliveries, doneOf,
        hCurrent]
  | some e =>
      rcases e with ⟨d, stage⟩
      have hFirst := liveOf_cons d s.buffer n
      rw [undecided_of_current hCurrent,
        doneOf_of_current hCurrent,
        deliveries_of_current hCurrent]
      cases stage <;> simp [Stage.open] <;> omega

theorem paid_empty
    (n : Nat) :
    Paid State.empty n :=
  Nat.le_refl 0

/- Nothing is added, acknowledged or given back. -/
theorem Paid.frame
    (hPaid : Paid s n)
    (hAdded : t.added = s.added)
    (hRequeued : t.requeued = s.requeued)
    (hAcked : t.broker.acked = s.broker.acked)
    (hLe :
      staleOf t.undecided n + doneOf s n ≤
        staleOf s.undecided n + doneOf t n) :
    Paid t n := by
  rw [Paid, addsOf, acksOf] at hPaid ⊢
  rw [hAdded, hRequeued, hAcked]
  omega

/- The first delivery is handled. -/
theorem paid_next
    {d : Delivery}
    {rest : List Delivery}
    (hPaid : Paid s n)
    (hIdle : s.current = none)
    (hBuffer : s.buffer = d :: rest) :
    Paid { s with
      buffer := rest
      current := some (d, d.message.body.start) } n := by
  have hFirst := staleOf_cons d rest n
  refine hPaid.frame rfl rfl rfl ?_
  rw [staleOf_of_current rfl, staleOf_of_idle hIdle,
    doneOf_of_idle hIdle, hBuffer, hFirst]
  dsimp only
  split <;> omega

/- The delivery that is handled is acknowledged. -/
theorem paid_ack
    {d : Delivery}
    (hPaid : Paid s n)
    (hStage : s.current = some (d, .succeeded)) :
    Paid { s with
      current := none
      broker :=
        if d.live then s.broker.ack d.message
        else s.broker } n := by
  rw [Paid, staleOf_of_current hStage,
    doneOf_of_current hStage] at hPaid
  rw [Paid, staleOf_of_idle rfl, doneOf_of_idle rfl]
  simp only [Stage.open, Bool.false_eq_true, if_false,
    if_true, Nat.zero_add] at hPaid
  cases hLive : d.live with
  | false =>
      have hNone : liveOf [d] n = 0 := by
        simp [liveOf, hLive]
      rw [hNone] at hPaid
      exact hPaid
  | true =>
      have hOne :
          liveOf [d] n = [d.message.number].count n := by
        rw [liveOf_eq_count, liveMessages,
          List.filter_cons_of_pos hLive]
        rfl
      have hAcks :
          acksOf
              { s with
                current := none
                broker := s.broker.ack d.message } n =
            acksOf s n + [d.message.number].count n := by
        rw [acksOf, acksOf, Queue.ack, List.map_append,
          List.count_append]
        rfl
      rw [hOne] at hPaid
      simp only [if_true, hAcks]
      exact hPaid.trans_eq (Nat.add_assoc _ _ _)

/- The delivery that is handled adds its request. -/
theorem paid_add
    {d : Delivery}
    {playerId : String}
    (hPaid : Paid s n)
    (hStage : s.current = some (d, .fetchingElo playerId))
    (arrival : Arrival) :
    Paid { s.setStage d .succeeded with
      added := s.added ++ [(d.message.number, arrival)] } n := by
  have hAdds :
      addsOf
          { s.setStage d .succeeded with
            added :=
              s.added ++ [(d.message.number, arrival)] } n =
        addsOf s n + [d.message.number].count n := by
    rw [addsOf, addsOf, List.map_append, List.count_append]
    rfl
  have hOne :
      staleOf [d] n + liveOf [d] n =
        [d.message.number].count n :=
    staleOf_add_liveOf [d] n
  rw [Paid, staleOf_of_current hStage,
    doneOf_of_current hStage] at hPaid
  rw [Paid, hAdds, staleOf_of_current rfl,
    doneOf_of_current rfl, ← hOne]
  simp only [Stage.open, reduceCtorEq, if_false, if_true,
    Bool.false_eq_true] at hPaid ⊢
  change
    addsOf s n + _ + _ ≤ s.requeued.count n + acksOf s n + _
  dsimp only [State.setStage]
  omega

/- What the broker gets back when the connection ends. -/
theorem count_requeue
    (s : State)
    (n : Nat) :
    s.requeue.requeued.count n =
      (s.broker.unacked.map Message.number).count n +
        s.requeued.count n :=
  List.count_append

/- All deliveries are stale, the broker has them back. -/
theorem paid_disconnect
    (hPlaced : Placed s)
    (hPaid : Paid s n) :
    Paid { s.requeue with
      buffer := s.buffer.map Delivery.lose
      current :=
        s.current.map (fun (d, stage) =>
          (d.lose, stage)) } n := by
  have hUnacked := hPlaced.liveOf_add_doneOf n
  have hUndecided :
      ({ s.requeue with
          buffer := s.buffer.map Delivery.lose
          current :=
            s.current.map (fun (d, stage) =>
              (d.lose, stage)) } : State).undecided =
        s.undecided.map Delivery.lose := by
    rw [State.undecided, State.undecided, List.map_append]
    cases hCurrent : s.current with
    | none => rfl
    | some e =>
        rcases e with ⟨d, stage⟩
        cases stage <;> rfl
  have hPaid' := hPaid
  rw [Paid] at hPaid' ⊢
  rw [hUndecided, staleOf_lose]
  change
    addsOf s n + _ ≤ s.requeue.requeued.count n + acksOf s n + _
  rw [count_requeue]
  omega

theorem paid_step
    (hPlaced : Placed s)
    (hPaid : Paid s n)
    (hSteps : Steps s t) :
    Paid t n := by
  induction hSteps with
  | idle => exact hPaid
  | publish => exact hPaid
  | expire hExpire =>
      exact
        hPaid.frame rfl rfl (Queue.of_expire hExpire).2.1
          (Nat.le_refl _)
  | deliver hDeliver =>
      refine
        hPaid.frame rfl rfl (Queue.of_deliver hDeliver).2.1
          (Nat.le_of_eq ?_)
      simp [staleOf, State.undecided, doneOf]
  | next hIdle hBuffer => exact paid_next hPaid hIdle hBuffer
  | refuse hStage =>
      refine hPaid.frame rfl rfl rfl ?_
      rw [staleOf_of_current rfl, staleOf_of_current hStage,
        doneOf_of_current hStage]
      simp only [Stage.open, State.setStage, reduceCtorEq,
        if_false, if_true, Bool.false_eq_true]
      omega
  | accept hStage =>
      refine hPaid.frame rfl rfl rfl ?_
      rw [staleOf_of_current rfl, staleOf_of_current hStage,
        doneOf_of_current hStage]
      simp [Stage.open, State.setStage]
  | @add d playerId arrival hStage =>
      exact paid_add hPaid hStage arrival
  | ack hStage => exact paid_ack hPaid hStage
  | reject hStage =>
      refine hPaid.frame rfl rfl ?_ ?_
      · dsimp only
        split <;> rfl
      · rw [staleOf_of_idle rfl, staleOf_of_current hStage,
          doneOf_of_current hStage]
        simp [Stage.open]
  | disconnect => exact paid_disconnect hPlaced hPaid
  | @leave u hFirst ih =>
      have hUnacked :=
        (placed_step hPlaced hFirst).liveOf_add_doneOf n
      rw [Paid] at ih ⊢
      change
        addsOf u n + 0 ≤
          u.requeue.requeued.count n + acksOf u n + 0
      rw [count_requeue]
      omega

end Matchmaking.Consume

------------------------------------------------------------
-- Requests Are Accounted For
------------------------------------------------------------

namespace Matchmaking.Consume

open Broker Machine

variable {s t : State} {n : Nat}

/- Only messages that were published come back. -/
def Known (s : State) : Prop :=
  ∀ n ∈ s.requeued, n < s.published

/- The number of a message was given to it alone. -/
theorem Placed.lt_published
    (hPlaced : Placed s)
    {m : Message}
    (hMem : m ∈ s.broker.all) :
    m.number < s.published :=
  List.mem_range.mp
    (hPlaced.numbers.subset (List.mem_map_of_mem hMem))

theorem Placed.count_le_one
    (hPlaced : Placed s)
    (n : Nat) :
    (s.broker.unacked.map Message.number).count n +
      acksOf s n ≤ 1 := by
  have hOnce :
      (s.broker.all.map Message.number).count n ≤ 1 := by
    rw [hPlaced.numbers.count_eq]
    exact List.nodup_iff_count_le_one.mp List.nodup_range n
  simp only [Queue.all, List.map_append, List.count_append]
    at hOnce
  rw [acksOf]
  omega

theorem known_requeue
    (hPlaced : Placed s)
    (hKnown : Known s) :
    ∀ n ∈ s.requeue.requeued, n < s.published := by
  intro n hMem
  rcases List.mem_append.mp hMem with hUnacked | hOld
  · rcases List.mem_map.mp hUnacked with ⟨m, hMem', rfl⟩
    refine hPlaced.lt_published (List.mem_append_right _ ?_)
    exact List.mem_append_left _ hMem'
  · exact hKnown n hOld

theorem known_step
    (hPlaced : Placed s)
    (hKnown : Known s)
    (hSteps : Steps s t) :
    Known t := by
  induction hSteps with
  | publish =>
      exact fun n hMem => (hKnown n hMem).trans (Nat.lt_succ_self _)
  | disconnect => exact known_requeue hPlaced hKnown
  | leave hFirst ih =>
      exact known_requeue (placed_step hPlaced hFirst) ih
  | idle => exact hKnown
  | expire hExpire => exact hKnown
  | deliver hDeliver => exact hKnown
  | next hIdle hBuffer => exact hKnown
  | refuse hStage => exact hKnown
  | accept hStage => exact hKnown
  | add hStage => exact hKnown
  | ack hStage => exact hKnown
  | reject hStage => exact hKnown

/- What is recorded of the messages stays recorded. -/
theorem grows_of_steps
    (hSteps : Steps s t) :
    s.added ⊆ t.added ∧
      s.broker.dead ⊆ t.broker.dead := by
  induction hSteps with
  | add hStage =>
      exact
        ⟨List.subset_append_left _ _, List.Subset.refl _⟩
  | expire hExpire =>
      refine ⟨List.Subset.refl _, ?_⟩
      rw [(Queue.of_expire hExpire).2.2]
      exact List.subset_append_left _ _
  | deliver hDeliver =>
      refine ⟨List.Subset.refl _, ?_⟩
      rw [(Queue.of_deliver hDeliver).2.2]
      exact List.Subset.refl _
  | ack hStage =>
      refine ⟨List.Subset.refl _, ?_⟩
      dsimp only
      split <;> exact List.Subset.refl _
  | reject hStage =>
      refine ⟨List.Subset.refl _, ?_⟩
      dsimp only
      split
      · exact List.subset_append_left _ _
      · exact List.Subset.refl _
  | leave _ ih => exact ih
  | idle => exact ⟨List.Subset.refl _, List.Subset.refl _⟩
  | publish =>
      exact ⟨List.Subset.refl _, List.Subset.refl _⟩
  | next hIdle hBuffer =>
      exact ⟨List.Subset.refl _, List.Subset.refl _⟩
  | refuse hStage =>
      exact ⟨List.Subset.refl _, List.Subset.refl _⟩
  | accept hStage =>
      exact ⟨List.Subset.refl _, List.Subset.refl _⟩
  | disconnect =>
      exact ⟨List.Subset.refl _, List.Subset.refl _⟩

/- What every step of the service keeps. -/
structure Sound (s : State) : Prop where
  placed : Placed s
  judged : Judged s
  paid : ∀ n, Paid s n
  known : Known s

theorem sound_step
    {act : Act}
    (hSound : Sound s)
    (hStep : step s act = some t) :
    Sound t :=
  have hSteps := steps_of_step hStep
  { placed := placed_step hSound.placed hSteps
    judged := judged_step hSound.judged hSteps
    paid := fun n =>
      paid_step hSound.placed (hSound.paid n) hSteps
    known := known_step hSound.placed hSound.known hSteps }

theorem sound_empty : Sound State.empty where
  placed := placed_empty
  judged := judged_empty
  paid := paid_empty
  known := nofun

theorem sound_of_reachable
    (hReach : Reachable step State.empty s) :
    Sound s :=
  hReach.invariant sound_empty
    (fun hSound _ hStep => sound_step hSound hStep)

/-
  Where the messages are, why they left, and which requests
  they have become.
-/
structure Accounted (s : State) : Prop where
  -- every message is in one place
  placed :
    (s.broker.all.map Message.number).Perm
      (List.range s.published)
  acked : ∀ m ∈ s.broker.acked, Answered s m
  dead :
    ∀ m ∈ s.broker.dead,
      m.number ∈ s.expired ∨ m.body = .unreadable
  -- a request is of a message
  added : ∀ n, 0 < addsOf s n → n < s.published
  -- it is added again only if the broker had it back
  again : ∀ n, addsOf s n ≤ s.requeued.count n + 1

theorem Sound.added
    (hSound : Sound s)
    (hAdded : 0 < addsOf s n) :
    n < s.published := by
  have hPaid := hSound.paid n
  have hUnacked := hSound.placed.liveOf_add_doneOf n
  rw [Paid] at hPaid
  rcases Nat.eq_zero_or_pos (s.requeued.count n) with
    hZero | hBack
  · have hMem :
        n ∈ s.broker.all.map Message.number := by
      rw [← List.count_pos_iff]
      simp only [Queue.all, List.map_append,
        List.count_append]
      rw [acksOf] at hPaid
      omega
    exact
      List.mem_range.mp (hSound.placed.numbers.subset hMem)
  · exact hSound.known n (List.count_pos_iff.mp hBack)

theorem Sound.again
    (hSound : Sound s)
    (n : Nat) :
    addsOf s n ≤ s.requeued.count n + 1 := by
  have hPaid := hSound.paid n
  have hUnacked := hSound.placed.liveOf_add_doneOf n
  have hOnce := hSound.placed.count_le_one n
  rw [Paid] at hPaid
  omega

theorem requests_accounted
    (hReach : Reachable step State.empty s) :
    Accounted s :=
  have hSound := sound_of_reachable hReach
  { placed := hSound.placed.numbers
    acked := hSound.judged.acked
    dead := hSound.judged.dead
    added := fun _ => hSound.added
    again := hSound.again }

/-
  The connection is lost while the rating is fetched: the
  request is added, the acknowledgement fails, and the
  message is handled again.
-/
def twiceActs : List Act :=
  [.post "tok" (some "ann") .confirmed,
    .publish .unreadable,
    .deliver, .deliver, .next, .validated (some "ann"),
    .disconnect,
    .fetched none 1, .settle true,
    .deliver, .next, .validated (some "ann"),
    .fetched (some 1300) 2, .settle false,
    .deliver, .next, .settle false]

def addedTwice : State :=
  final step State.empty twiceActs rfl

theorem requests_accounted_addedTwice :
    (addsOf addedTwice 0, addedTwice.requeued.count 0) =
        (2, 1) ∧
      Accounted addedTwice :=
  ⟨rfl, requests_accounted (reachable_of_run (run_eq_final rfl))⟩

end Matchmaking.Consume
