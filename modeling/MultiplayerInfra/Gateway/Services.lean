import MultiplayerInfra.Gateway.Routes

/-
  Which routes of the services the gateways deliver.

  Key definitions include:
    * `Gateway.Segment`
    * `Gateway.matchesPath`
    * `Gateway.routes`
    * `Gateway.handsOn`
    * `Gateway.arrival`
    * `Gateway.published`

  Key theorems include:
    * `Gateway.replyFrom_eq_proxied_iff`
    * `Gateway.gateways_deliver`

  A service answers a request whose path matches one of its
  routes, so a gateway delivers a route if the path arrives
  at the service as it was sent.
-/

------------------------------------------------------------
-- Routes
------------------------------------------------------------

namespace Gateway

open Nginx

/- A part of the path of a route. -/
inductive Segment where
  | text (text : String)
  -- `[^/]+`, up to the next slash or the end
  | param
deriving DecidableEq

/- The path matches; what follows a parameter is a slash. -/
def matchesPath : List Segment → List Char → Bool
| [], path => path.isEmpty
| .text text :: rest, path =>
    text.toList.isPrefixOf path &&
      matchesPath rest (path.drop text.toList.length)
| .param :: rest, path =>
    !(path.takeWhile (fun c => c ≠ '/')).isEmpty &&
      matchesPath rest (path.dropWhile (fun c => c ≠ '/'))

structure Route where
  service : Service
  segments : List Segment
deriving DecidableEq

/- The routes without a parameter. -/
def plainRoutes : List (Service × String) :=
  [(.auth, "/health"), (.auth, "/ready"),
    (.auth, "/metrics"), (.auth, "/auth/register"),
    (.auth, "/auth/login"), (.auth, "/auth/refresh"),
    (.auth, "/auth/logout"), (.auth, "/auth/validate"),
    (.auth, "/.well-known/jwks.json"),
    (.matchmaking, "/health"), (.matchmaking, "/ready"),
    (.matchmaking, "/metrics"),
    (.matchmaking, "/matchmaking/queue"),
    (.reconnectHandler, "/health"),
    (.reconnectHandler, "/ready"),
    (.reconnectHandler, "/reconnect"),
    (.replay, "/health"), (.replay, "/ready"),
    (.leaderboard, "/health"), (.leaderboard, "/ready"),
    (.leaderboard, "/leaderboard"),
    (.leaderboard, "/metrics"),
    (.analytics, "/health"), (.analytics, "/ready"),
    (.analytics, "/metrics"),
    (.notification, "/health"), (.notification, "/ready"),
    (.notification, "/ws/notifications"),
    (.gameRoom, "/health"), (.gameRoom, "/ready"),
    (.gameRoom, "/metrics"), (.gameRoom, "/ws")]

/- The text before the parameter, and the one behind it. -/
def paramRoutes : List (Service × String × List Segment) :=
  [(.auth, "/players/", []),
    (.reconnectHandler, "/state/", []),
    (.replay, "/replay/", []),
    (.replay, "/replay/", [.text "/seek"]),
    (.leaderboard, "/leaderboard/player/", [])]

/- The routes of the services behind the gateway. -/
def routes : List Route :=
  plainRoutes.map (fun e => ⟨e.1, [.text e.2]⟩) ++
    paramRoutes.map (fun e =>
      ⟨e.1, .text e.2.1 :: .param :: e.2.2⟩)

/- The routes that Compose is meant to publish. -/
def published (route : Route) : Bool :=
  match route.segments with
  | [.text "/ready"] => false
  | [.text "/health"] => route.service = .auth
  | [.text "/metrics"] => route.service = .analytics
  | .text "/state/" :: _ => false
  | _ => true

/- The routes that begin with a prefix the chart removes. -/
def stripped (route : Route) : Bool :=
  match route.segments with
  | .text text :: _ =>
      removed.any (fun pre => pre.isPrefixOf text.toList)
  | _ => false

/- The routes whose query does not arrive. -/
def queryless (texts : List String) (route : Route) : Bool :=
  match route.segments with
  | [.text text] => text ∈ texts
  | _ => false

def composeQueryless : Route → Bool :=
  queryless ["/metrics", "/ws", "/ws/notifications", "/health"]

def helmQueryless : Route → Bool :=
  queryless ["/ws"]

end Gateway

------------------------------------------------------------
-- Arrival
------------------------------------------------------------

namespace Gateway

open Nginx

variable {locations : List (Location Char Service)}
variable {service : Service}
variable {path : List Char}

/-
  Whether the location hands the path on to the service as
  it is, and then whether the query goes with it.
-/
def handsOn
    (service : Service)
    (path : List Char)
    (l : Location Char Service) : Option Bool :=
  match l.action with
  | .pass other =>
      if other = service then some true else none
  | .fixed other uri =>
      if other = service ∧ uri = path then some false
      else none
  | .replace other uri =>
      if other = service ∧
          uri ++ path.drop l.pre.length = path then
        some true
      else none
  | .refuse _ => none

/- The same of the location that is selected. -/
def arrival
    (locations : List (Location Char Service))
    (service : Service)
    (path : List Char) : Option Bool :=
  if completes '/' locations path then none
  else (locate locations path).bind (handsOn service path)

theorem forward_eq_proxied_iff
    {l : Location Char Service}
    {args args' : Option (List Char)} :
    l.forward path args = .proxied ⟨service, path, args'⟩ ↔
      ∃ query, handsOn service path l = some query ∧
        args' = if query then args else none := by
  unfold Location.forward handsOn
  cases l.action with
  | pass other =>
      by_cases hOther : other = service
      · simp [hOther, eq_comm]
      · simp [hOther]
  | fixed other uri =>
      by_cases hBoth : other = service ∧ uri = path
      · simp [hBoth, eq_comm]
      · simp only [hBoth, if_false, reduceCtorEq, false_and,
          exists_false, iff_false, Reply.proxied.injEq,
          Target.mk.injEq]
        exact fun hAll => hBoth ⟨hAll.1, hAll.2.1⟩
  | replace other uri =>
      by_cases hBoth :
          other = service ∧
            uri ++ path.drop l.pre.length = path
      · simp [hBoth, eq_comm]
      · simp only [hBoth, if_false, reduceCtorEq, false_and,
          exists_false, iff_false, Reply.proxied.injEq,
          Target.mk.injEq]
        exact fun hAll => hBoth ⟨hAll.1, hAll.2.1⟩
  | refuse status => simp

theorem replyFrom_eq_proxied_iff
    {r : Request}
    {args : Option (List Char)} :
    replyFrom locations r =
        .proxied ⟨service, r.path, args⟩ ↔
      r.options = false ∧
        ∃ query,
          arrival locations service r.path = some query ∧
            args = if query then r.args else none := by
  unfold replyFrom arrival located
  cases r.options with
  | true => simp
  | false =>
      cases completes '/' locations r.path with
      | true => simp
      | false =>
          cases locate locations r.path with
          | none => simp
          | some l => simp [forward_eq_proxied_iff]

/- A path that begins with the text of a location. -/
theorem arrival_of_start
    {start : List Char}
    {l : Location Char Service}
    (hDistinct : Distinct locations)
    (hStart : start <+: path)
    (hL : l ∈ locations)
    (hMatches : l.pre <+: start)
    (hLongest :
      ∀ m ∈ locations, m.pre <+: start ∨ start <+: m.pre →
        m.pre.length ≤ l.pre.length) :
    arrival locations service path =
      handsOn service path l := by
  have hWhole : completes '/' locations path = false := by
    refine completes_eq_false hStart (fun m hM hOn => ?_)
    exact
      (hLongest m hM (.inr hOn)).trans hMatches.length_le
  rw [arrival, hWhole,
    locate_of_start hDistinct hStart hL hMatches hLongest]
  rfl

/- The prefix that was removed is put back. -/
theorem handsOn_replace_pre
    {pre : List Char}
    (hMatches : pre <+: path) :
    handsOn service path ⟨pre, .replace service pre⟩ =
      some true := by
  rcases hMatches with ⟨rest, rfl⟩
  simp [handsOn]

/- A location of both gateways that keeps what follows. -/
theorem arrival_of_kept
    (service : Service)
    (pre : List Char)
    {start : List Char}
    (hStart : start <+: path)
    (hMatches : pre <+: start)
    (hCompose : ⟨pre, .pass service⟩ ∈ composeLocations)
    (hHelm : ⟨pre, .replace service pre⟩ ∈ helmLocations)
    (hLongest :
      ∀ m ∈ composeLocations,
        m.pre <+: start ∨ start <+: m.pre →
          m.pre.length ≤ pre.length) :
    arrival composeLocations service path = some true ∧
      arrival helmLocations service path = some true := by
  constructor
  · rw [arrival_of_start distinct_compose hStart hCompose
      hMatches hLongest]
    exact if_pos rfl
  · rw [arrival_of_start distinct_helm hStart hHelm
      hMatches]
    · exact handsOn_replace_pre (hMatches.trans hStart)
    · intro m hM hEither
      rcases List.mem_map.mp
        (helm_subset (List.mem_map_of_mem hM))
        with ⟨m', hM', hPre⟩
      rw [← hPre] at hEither ⊢
      exact hLongest m' hM' hEither

end Gateway

------------------------------------------------------------
-- Delivery
------------------------------------------------------------

namespace Gateway

open Nginx

/- What arrives of a path that matches the route. -/
structure Arrives
    (route : Route)
    (path : List Char) : Prop where
  compose :
    arrival composeLocations route.service path =
      if published route then some (!composeQueryless route)
      else none
  helm :
    arrival helmLocations route.service path =
      if published route && !stripped route then
        some (!helmQueryless route)
      else none

instance
    (route : Route)
    (path : List Char) : Decidable (Arrives route path) :=
  decidable_of_iff (_ ∧ _)
    ⟨fun h => ⟨h.1, h.2⟩, fun h => ⟨h.compose, h.helm⟩⟩

theorem arrives_plain :
    ∀ e ∈ plainRoutes,
      Arrives ⟨e.1, [.text e.2]⟩ e.2.toList := by
  decide +kernel

/- A text alone is the whole path. -/
theorem eq_of_matchesPath
    {text : String}
    {path : List Char}
    (hMatches : matchesPath [.text text] path = true) :
    path = text.toList := by
  simp only [matchesPath, Bool.and_eq_true,
    List.isPrefixOf_iff_prefix, List.isEmpty_iff] at hMatches
  rcases hMatches with ⟨⟨rest, rfl⟩, hRest⟩
  rw [List.drop_left] at hRest
  rw [hRest, List.append_nil]

theorem prefix_of_matchesPath
    {text : String}
    {rest : List Segment}
    {path : List Char}
    (hMatches : matchesPath (.text text :: rest) path = true) :
    text.toList <+: path := by
  simp only [matchesPath, Bool.and_eq_true,
    List.isPrefixOf_iff_prefix] at hMatches
  exact hMatches.1

theorem arrives_param
    {e : Service × String × List Segment}
    {path : List Char}
    (hRoute : e ∈ paramRoutes)
    (hStart : e.2.1.toList <+: path) :
    Arrives ⟨e.1, .text e.2.1 :: .param :: e.2.2⟩ path := by
  simp only [paramRoutes, List.mem_cons, List.not_mem_nil,
    or_false] at hRoute
  rcases hRoute with rfl | rfl | rfl | rfl | rfl
  · have hBoth :=
      arrival_of_kept .auth "/players/".toList hStart
        (by decide) (by decide) (by decide) (by decide)
    exact ⟨hBoth.1, hBoth.2⟩
  -- only the location `/`, which refuses
  · constructor
    · rw [arrival_of_start
        (l := location "/" (.refuse 404)) distinct_compose
        hStart (by decide) (by decide) (by decide)]
      rfl
    · rw [arrival_of_start
        (l := location "/" (.refuse 404)) distinct_helm
        hStart (by decide) (by decide) (by decide)]
      rfl
  · have hBoth :=
      arrival_of_kept .replay "/replay/".toList hStart
        (by decide) (by decide) (by decide) (by decide)
    exact ⟨hBoth.1, hBoth.2⟩
  · have hBoth :=
      arrival_of_kept .replay "/replay/".toList hStart
        (by decide) (by decide) (by decide) (by decide)
    exact ⟨hBoth.1, hBoth.2⟩
  · have hBoth :=
      arrival_of_kept .leaderboard "/leaderboard".toList
        hStart (by decide) (by decide) (by decide) (by decide)
    exact ⟨hBoth.1, hBoth.2⟩

theorem arrives_of_matchesPath
    {route : Route}
    {path : List Char}
    (hRoute : route ∈ routes)
    (hMatches : matchesPath route.segments path = true) :
    Arrives route path := by
  rcases List.mem_append.mp hRoute with hPlain | hParam
  · rcases List.mem_map.mp hPlain with ⟨e, hE, rfl⟩
    rw [eq_of_matchesPath hMatches]
    exact arrives_plain e hE
  · rcases List.mem_map.mp hParam with ⟨e, hE, rfl⟩
    exact arrives_param hE (prefix_of_matchesPath hMatches)

/-
  Compose delivers the routes that it publishes; the chart
  delivers those of them it does not strip, over https.  A
  route with a query of its own gets it, except where the
  URI is fixed.
-/
theorem gateways_deliver
    (route : Route)
    (r : Request)
    (args : Option (List Char))
    (hRoute : route ∈ routes)
    (hMatches : matchesPath route.segments r.path = true) :
    (composeReply r =
          .proxied ⟨route.service, r.path, args⟩ ↔
        r.options = false ∧ published route = true ∧
          args =
            if composeQueryless route then none
            else r.args) ∧
      (helmReply r =
          .proxied ⟨route.service, r.path, args⟩ ↔
        r.https = true ∧ r.options = false ∧
          (published route = true ∧ stripped route = false) ∧
            args =
              if helmQueryless route then none
              else r.args) := by
  rcases arrives_of_matchesPath hRoute hMatches with
    ⟨hCompose, hHelm⟩
  constructor
  · rw [composeReply, replyFrom_eq_proxied_iff, hCompose]
    cases published route <;>
      cases composeQueryless route <;> simp
  · rw [helmReply]
    cases r.https with
    | false => simp
    | true =>
        rw [if_pos rfl, replyFrom_eq_proxied_iff, hHelm]
        cases published route <;> cases stripped route <;>
          cases helmQueryless route <;> simp

/- A seek, with its query. -/
theorem gateways_deliver_seek :
    composeReply
          ⟨true, false, "/replay/m1/seek".toList,
            some "tick=5".toList⟩ =
        .proxied
          ⟨.replay, "/replay/m1/seek".toList,
            some "tick=5".toList⟩ ∧
      helmReply
          ⟨true, false, "/replay/m1/seek".toList,
            some "tick=5".toList⟩ =
        .proxied
          ⟨.replay, "/replay/m1/seek".toList,
            some "tick=5".toList⟩ := by
  have hBoth :=
    gateways_deliver
      ⟨.replay, [.text "/replay/", .param, .text "/seek"]⟩
      ⟨true, false, "/replay/m1/seek".toList,
        some "tick=5".toList⟩
      (some "tick=5".toList) (by decide) (by decide)
  exact
    ⟨hBoth.1.mpr ⟨rfl, rfl, rfl⟩,
      hBoth.2.mpr ⟨rfl, rfl, ⟨rfl, rfl⟩, rfl⟩⟩

end Gateway
