import MultiplayerInfra.Matchmaking.Notices
import MultiplayerInfra.Matchmaking.Requests
import MultiplayerInfra.Notification.Recipients

/-
  From the queue endpoint to the notification sockets: the
  consumer and the matchmaker share a process, and what they
  publish reaches the notification service.

  Key definitions include:
    * `Pipeline.State`
    * `Pipeline.State.bodies`
    * `Pipeline.step`
    * `Pipeline.Traced`

  Key theorems include:
    * `Pipeline.traced_step`
    * `Pipeline.notified_queued`

  The exchange may deliver a message any number of times and
  in any order.  A message of `matchmaking.requests` that is
  too old is dead-lettered to the same exchange.
-/

------------------------------------------------------------
-- The Services Together
------------------------------------------------------------

namespace Pipeline

open Matchmaking Notification

/- The body that is published for a notice. -/
def body : Notice → Body
| .expired request =>
    { event := some "match.expired"
      playerIds := some [request.playerId]
      roomId := none }
| .found lobby room =>
    { event := some "match.found"
      playerIds :=
        some (lobby.members.map MatchRequest.playerId)
      roomId := some room }

/- The message that the sockets get for a notice. -/
def message (notice : Notice) : Message where
  event :=
    match notice with
    | .expired _ => "match.expired"
    | .found _ _ => "match.found"
  payload := body notice

/- What `queue_matchmaking` publishes has none of the keys. -/
def deadLetter : Body where
  event := none
  playerIds := none
  roomId := none

structure State where
  consumer : Consume.State
  -- the requests that were added before the process started
  before : Nat
  matching : Matchmaking.State
  notices : List Notice
  notification : Notification.State

def State.empty : State where
  consumer := Consume.State.empty
  before := 0
  matching := Matchmaking.State.empty
  notices := []
  notification := Notification.State.empty

/- What the exchange routes to `notifications.match`. -/
def State.bodies (s : State) : List Body :=
  s.notices.map body ++
    s.consumer.broker.dead.map (fun _ => deadLetter)

/- What `add_request` is still called with. -/
def State.arrivals (s : State) : List Arrival :=
  (s.consumer.added.drop
    (s.before + s.matching.added.length)).map Prod.snd

inductive Act where
  | consume (act : Consume.Act)
  | give
  | iterate (t : Tick)
  | notify (act : Notification.Act)

/- Messages are taken from the exchange only. -/
def Takes (bodies : List Body) : Notification.Act → Prop
| .consume body => body ∈ bodies
| _ => True

instance
    (bodies : List Body) :
    (act : Notification.Act) → Decidable (Takes bodies act)
| .consume body => inferInstanceAs (Decidable (body ∈ bodies))
| .connect _ => isTrue trivial
| .token _ _ => isTrue trivial
| .validated _ _ => isTrue trivial
| .drop _ => isTrue trivial
| .received _ _ => isTrue trivial
| .send _ => isTrue trivial
| .publish _ => isTrue trivial

/-
  Only the endpoint publishes requests.  A crash loses what
  the matcher has.
-/
def consume
    (s : State) : Consume.Act → Option State
| .publish _ => none
| .crash =>
    (Consume.step s.consumer .crash).map (fun consumer =>
      { s with
        consumer := consumer
        before := consumer.added.length
        matching := Matchmaking.State.empty })
| act =>
    (Consume.step s.consumer act).map (fun consumer =>
      { s with consumer := consumer })

def step
    (settings : Settings)
    (s : State) : Act → Option State
| .consume act => consume s act
| .give =>
    s.arrivals.head?.map (fun arrival =>
      { s with matching := s.matching.addRequest arrival })
| .iterate t =>
    if t.arrivals <+: s.arrivals then
      some
        { s with
          matching := s.matching.iterate settings t
          notices :=
            s.notices ++ s.matching.notices settings t }
    else none
| .notify act =>
    if Takes s.bodies act then
      (Notification.step s.notification act).map (fun n =>
        { s with notification := n })
    else none

end Pipeline

------------------------------------------------------------
-- The Trace of a Request
------------------------------------------------------------

namespace Pipeline

open Matchmaking Notification

variable {settings : Settings} {s t : State}

/- The consumer has added a request of the player. -/
def Queued
    (added : List (Nat × Arrival))
    (request : MatchRequest) : Prop :=
  ∃ e ∈ added, e.2.playerId = request.playerId

structure Traced (s : State) : Prop where
  sound : Consume.Sound s.consumer
  owned : Owned s.matching
  matching :
    ∀ r ∈ s.matching.added, Queued s.consumer.added r
  notices :
    ∀ r ∈ requestsOf s.notices, Queued s.consumer.added r
  addressed : Addressed s.bodies s.notification

theorem traced_empty : Traced State.empty where
  sound := Consume.sound_empty
  owned := owned_empty
  matching := nofun
  notices := nofun
  addressed := addressed_empty

theorem Queued.mono
    {added added' : List (Nat × Arrival)}
    {request : MatchRequest}
    (hQueued : Queued added request)
    (hSub : added ⊆ added') :
    Queued added' request := by
  rcases hQueued with ⟨e, hMem, hPlayer⟩
  exact ⟨e, hSub hMem, hPlayer⟩

theorem mem_arrivals
    {arrival : Arrival}
    (hMem : arrival ∈ s.arrivals) :
    ∃ e ∈ s.consumer.added, e.2 = arrival := by
  rcases List.mem_map.mp hMem with ⟨e, hIn, hEq⟩
  exact ⟨e, List.mem_of_mem_drop hIn, hEq⟩

theorem bodies_subset
    (hNotices : s.notices ⊆ t.notices)
    (hDead :
      s.consumer.broker.dead ⊆ t.consumer.broker.dead) :
    s.bodies ⊆ t.bodies := by
  intro b hMem
  rcases List.mem_append.mp hMem with hNotice | hLetter
  · exact
      List.mem_append_left _ (List.map_subset _ hNotices hNotice)
  · exact
      List.mem_append_right _ (List.map_subset _ hDead hLetter)

/- The consumer has gone on. -/
theorem traced_consumer
    {act : Consume.Act}
    {consumer : Consume.State}
    (hTraced : Traced s)
    (hStep : Consume.step s.consumer act = some consumer) :
    Traced { s with consumer := consumer } := by
  rcases
      Consume.grows_of_steps (Consume.steps_of_step hStep) with
    ⟨hAdded, hDead⟩
  exact
    { sound := Consume.sound_step hTraced.sound hStep
      owned := hTraced.owned
      matching := fun r hMem =>
        (hTraced.matching r hMem).mono hAdded
      notices := fun r hMem =>
        (hTraced.notices r hMem).mono hAdded
      addressed :=
        hTraced.addressed.mono
          (bodies_subset (List.Subset.refl _) hDead) }

theorem traced_consume
    {act : Consume.Act}
    (hTraced : Traced s)
    (hStep : consume s act = some t) :
    Traced t := by
  unfold consume at hStep
  split at hStep
  · cases hStep
  · rcases Option.map_eq_some_iff.mp hStep with
      ⟨consumer, hConsumer, rfl⟩
    have hGone := traced_consumer hTraced hConsumer
    exact
      { sound := hGone.sound
        owned := owned_empty
        matching := nofun
        notices := hGone.notices
        addressed := hGone.addressed }
  · rcases Option.map_eq_some_iff.mp hStep with
      ⟨consumer, hConsumer, rfl⟩
    exact traced_consumer hTraced hConsumer

/- The matcher is given the next request. -/
theorem traced_give
    {arrival : Arrival}
    (hTraced : Traced s)
    (hMem : arrival ∈ s.arrivals) :
    Traced
      { s with matching := s.matching.addRequest arrival } where
  sound := hTraced.sound
  owned := owned_addRequest hTraced.owned arrival
  matching := by
    intro r hIn
    rcases List.mem_append.mp hIn with hOld | hNew
    · exact hTraced.matching r hOld
    · rcases mem_arrivals hMem with ⟨e, hAdded, rfl⟩
      rw [List.mem_singleton.mp hNew]
      exact ⟨e, hAdded, rfl⟩
  notices := hTraced.notices
  addressed := hTraced.addressed

theorem traced_iterate
    {tick : Tick}
    (hTraced : Traced s)
    (hArrivals : tick.arrivals ⊆ s.arrivals) :
    Traced
      { s with
        matching := s.matching.iterate settings tick
        notices :=
          s.notices ++ s.matching.notices settings tick } := by
  have hAdded :
      ∀ r ∈ (s.matching.iterate settings tick).added,
        Queued s.consumer.added r := by
    intro r hMem
    rcases mem_added_iterate hMem with
      hOld | ⟨arrival, hIn, hPlayer⟩
    · exact hTraced.matching r hOld
    · rcases mem_arrivals (hArrivals hIn) with
        ⟨e, hQueued, rfl⟩
      exact ⟨e, hQueued, hPlayer⟩
  refine
    { sound := hTraced.sound
      owned := owned_iterate hTraced.owned tick
      matching := hAdded
      notices := ?_
      addressed := ?_ }
  · intro r hMem
    rw [requestsOf_append] at hMem
    rcases List.mem_append.mp hMem with hOld | hNew
    · exact hTraced.notices r hOld
    · exact
        hAdded r (notices_requests hTraced.owned tick hNew)
  · exact
      hTraced.addressed.mono
        (bodies_subset (List.subset_append_left _ _)
          (List.Subset.refl _))

theorem traced_step
    {act : Act}
    (hTraced : Traced s)
    (hStep : step settings s act = some t) :
    Traced t := by
  cases act with
  | consume act => exact traced_consume hTraced hStep
  | give =>
      rcases Option.map_eq_some_iff.mp hStep with
        ⟨arrival, hHead, rfl⟩
      exact
        traced_give hTraced (List.mem_of_mem_head? hHead)
  | iterate tick =>
      simp only [step] at hStep
      split at hStep
      · rename_i hPrefix
        cases hStep
        exact traced_iterate hTraced hPrefix.subset
      · cases hStep
  | notify act =>
      simp only [step] at hStep
      split at hStep
      · rename_i hTakes
        rcases Option.map_eq_some_iff.mp hStep with
          ⟨notification, hNotify, rfl⟩
        have hAddressed :=
          addressed_step hTraced.addressed
            (fun body hTaken => by
              rw [hTaken] at hTakes
              exact hTakes)
            hNotify
        exact
          { sound := hTraced.sound
            owned := hTraced.owned
            matching := hTraced.matching
            notices := hTraced.notices
            addressed := hAddressed }
      · cases hStep

end Pipeline

------------------------------------------------------------
-- Who Is Notified
------------------------------------------------------------

namespace Pipeline

open Matchmaking Notification Machine

variable {settings : Settings} {s : State}

/- A dead letter lists nobody, a notice its players. -/
theorem mem_recipients_of_body
    {b : Body}
    {playerId : String}
    (hBody : b ∈ s.bodies)
    (hListed : playerId ∈ b.recipients) :
    ∃ notice ∈ s.notices,
      b = body notice ∧
        ∃ r ∈ notice.requests, r.playerId = playerId := by
  rcases List.mem_append.mp hBody with hNotice | hLetter
  · rcases List.mem_map.mp hNotice with ⟨notice, hMem, rfl⟩
    refine ⟨notice, hMem, rfl, ?_⟩
    cases notice with
    | expired request =>
        rw [List.mem_singleton.mp hListed]
        exact ⟨request, List.mem_singleton_self _, rfl⟩
    | found lobby room => exact List.mem_map.mp hListed
  · rcases List.mem_map.mp hLetter with ⟨m, _, rfl⟩
    cases hListed

/-
  A message on a socket is a published notice, of a request
  of the player who subscribed it, which the consumer added.
-/
theorem notified_queued
    (hRun : Reachable (step settings) State.empty s)
    {k : Nat}
    {sent : Message}
    (hSent : (k, sent) ∈ s.notification.sent) :
    ∃ notice ∈ s.notices,
      sent = message notice ∧
        ∃ r ∈ notice.requests,
          (∀ playerId,
            (playerId, k) ∈ s.notification.subscribed ↔
              playerId = r.playerId) ∧
          ∃ n arrival,
            (n, arrival) ∈ s.consumer.added ∧
              arrival.playerId = r.playerId ∧
                n < s.consumer.published := by
  have hTraced : Traced s :=
    hRun.invariant traced_empty
      (fun hTraced _ hStep => traced_step hTraced hStep)
  rcases hTraced.addressed.sent _ hSent with
    ⟨hMade, playerId, hListed, hSubscribed⟩
  rcases mem_recipients_of_body hMade.known hListed with
    ⟨notice, hNotice, hBody, r, hRequest, rfl⟩
  have hQueued :
      Queued s.consumer.added r :=
    hTraced.notices r
      (List.mem_flatMap.mpr ⟨notice, hNotice, hRequest⟩)
  rcases hQueued with ⟨⟨n, arrival⟩, hAdded, hPlayer⟩
  refine
    ⟨notice, hNotice, ?_, r, hRequest, ?_, n, arrival, hAdded,
      hPlayer, ?_⟩
  · rcases sent with ⟨event, payload⟩
    have hEvent := hMade.event
    simp only at hBody hEvent
    rw [hEvent, hBody]
    cases notice <;> rfl
  · intro other
    constructor
    · intro hOther
      exact
        hTraced.addressed.once other r.playerId k hOther
          hSubscribed
    · rintro rfl
      exact hSubscribed
  · apply hTraced.sound.added
    exact
      List.count_pos_iff.mpr (List.mem_map_of_mem hAdded)

/- A request of the player goes through the queue. -/
def queues (token playerId : String) (now : Rat) : List Act :=
  [.consume (.post token (some playerId) .confirmed),
    .consume .deliver, .consume .next,
    .consume (.validated (some playerId)),
    .consume (.fetched none now),
    .consume (.settle false), .give]

/-
  Ann subscribes, she and Bob get the room "arena", and the
  notification is sent to her.
-/
def pairActs : List Act :=
  [.notify (.connect 0), .notify (.token 0 .token),
    .notify (.validated 0 (.valid "ann"))] ++
    queues "tok1" "ann" 0 ++ queues "tok2" "bob" 1 ++
      [.iterate (tickWith (claimedRoom "arena" true)),
        .notify
          (.consume
            { event := some "match.found"
              playerIds := some ["ann", "bob"]
              roomId := some "arena" })]

def pairNotified : State :=
  final (step {}) State.empty pairActs (by decide +kernel)

theorem notified_queued_pair :
    pairNotified.notification.sent.map Prod.fst = [0] ∧
      ∀ e ∈ pairNotified.notification.sent,
        ∃ notice ∈ pairNotified.notices,
          e.2 = message notice := by
  refine ⟨by decide +kernel, ?_⟩
  intro e hMem
  rcases
      notified_queued
        (reachable_of_run (run_eq_final (by decide +kernel)))
        hMem with
    ⟨notice, hNotice, hSent, _⟩
  exact ⟨notice, hNotice, hSent⟩

end Pipeline
