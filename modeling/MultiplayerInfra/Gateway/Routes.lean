import MultiplayerInfra.Nginx.Location

/-
  The two gateways: the one of `infra/nginx/nginx.conf`, for
  Docker Compose, and the one of the Helm chart.

  Key definitions include:
    * `Gateway.composeLocations`
    * `Gateway.helmLocations`
    * `Gateway.composeReply`
    * `Gateway.helmReply`
    * `Gateway.SameRoute`

  Key theorems include:
    * `Gateway.gateways_agree`

  A `proxy_pass` with variables passes its URI as it is, and
  without variables it replaces the part that matched.  The
  instance that `$game_room_upstream` selects, the headers
  and the rate limits are apart from this.
-/

------------------------------------------------------------
-- Configurations
------------------------------------------------------------

namespace Gateway

open Nginx

inductive Service where
  | auth
  | matchmaking
  | reconnectHandler
  | replay
  | leaderboard
  | analytics
  | notification
  -- `$game_room_upstream`
  | gameRoom
deriving DecidableEq

structure Request where
  -- port 443
  https : Bool
  -- the method is OPTIONS
  options : Bool
  path : List Char
  args : Option (List Char)
deriving DecidableEq

/- A location with its prefix. -/
def location
    (pre : String)
    (action : Action Char Service) : Location Char Service where
  pre := pre.toList
  action := action

/- `infra/nginx/nginx.conf`. -/
def composeLocations : List (Location Char Service) :=
  [location "/auth/" (.pass .auth),
    location "/players/" (.pass .auth),
    location "/.well-known/" (.pass .auth),
    location "/matchmaking/" (.pass .matchmaking),
    location "/reconnect" (.pass .reconnectHandler),
    location "/replay/" (.pass .replay),
    location "/leaderboard" (.pass .leaderboard),
    location "/metrics" (.fixed .analytics "/metrics".toList),
    location "/ws" (.fixed .gameRoom "/ws".toList),
    location "/ws/notifications"
      (.fixed .notification "/ws/notifications".toList),
    location "/health" (.fixed .auth "/health".toList),
    location "/metrics/all" (.fixed .auth "/metrics".toList),
    location "/" (.refuse 404)]

/- `templates/nginx-config.yaml`. -/
def helmLocations : List (Location Char Service) :=
  [location "/auth/" (.replace .auth "/".toList),
    location "/players/" (.replace .auth "/players/".toList),
    location "/.well-known/"
      (.replace .auth "/.well-known/".toList),
    location "/matchmaking/" (.replace .matchmaking "/".toList),
    location "/reconnect"
      (.replace .reconnectHandler "/reconnect".toList),
    location "/replay/" (.replace .replay "/replay/".toList),
    location "/leaderboard"
      (.replace .leaderboard "/leaderboard".toList),
    location "/metrics" (.replace .analytics "/metrics".toList),
    location "/ws" (.fixed .gameRoom "/ws".toList),
    location "/ws/notifications"
      (.replace .notification "/ws/notifications".toList),
    location "/health" (.replace .auth "/health".toList),
    location "/" (.refuse 404)]

/- A path that no location matches is malformed. -/
def located
    (locations : List (Location Char Service))
    (path : List Char)
    (args : Option (List Char)) : Reply Char Service :=
  match locate locations path with
  | none => .status 400
  | some l => l.forward path args

def replyFrom
    (locations : List (Location Char Service))
    (r : Request) : Reply Char Service :=
  if r.options then .status 204
  else if completes '/' locations r.path then
    .moved r.https (r.path ++ ['/']) r.args
  else located locations r.path r.args

def composeReply (r : Request) : Reply Char Service :=
  replyFrom composeLocations r

/- The server of port 80 redirects. -/
def helmReply (r : Request) : Reply Char Service :=
  if r.https then replyFrom helmLocations r
  else .moved true r.path r.args

/- The prefixes that the chart removes. -/
def removed : List (List Char) :=
  ["/auth/".toList, "/matchmaking/".toList]

/- The paths that Compose passes whatever follows them. -/
def pinned : List (List Char) :=
  ["/metrics".toList, "/ws/notifications".toList,
    "/health".toList]

/- The two gateways make the same of the path. -/
def SameRoute
    (path : List Char)
    (args : Option (List Char)) : Prop :=
  (∀ pre ∈ removed, ¬ pre <+: path) ∧
    ∀ own ∈ pinned, own <+: path →
      path = own ∧ args = none

theorem distinct_compose : Distinct composeLocations := by
  decide

theorem distinct_helm : Distinct helmLocations := by
  decide

theorem helm_subset :
    helmLocations.map Location.pre ⊆
      composeLocations.map Location.pre := by
  decide

end Gateway

------------------------------------------------------------
-- Where They Agree
------------------------------------------------------------

namespace Gateway

open Nginx

variable {l m : Location Char Service}
variable {path : List Char}
variable {args : Option (List Char)}

/- A listed prefix of the path is one of the selected one. -/
theorem prefix_of_located
    (hLocate : locate composeLocations path = some l)
    {pre : List Char}
    (hListed : pre ∈ composeLocations.map Location.pre)
    (hPrefix : pre <+: path) :
    pre <+: l.pre := by
  rcases (locate_eq_some_iff distinct_compose).mp hLocate with
    ⟨_, hMatches, hLongest⟩
  rcases List.mem_map.mp hListed with ⟨m, hM, rfl⟩
  exact
    List.prefix_of_prefix_length_le hPrefix hMatches
      (hLongest m hM hPrefix)

theorem removed_listed :
    removed ⊆ composeLocations.map Location.pre := by
  decide

theorem pinned_listed :
    pinned ⊆ composeLocations.map Location.pre := by
  decide

/- The path with its own prefix put back. -/
theorem forward_replace_pre
    {service : Service}
    {pre : List Char}
    (hMatches : pre <+: path) :
    (⟨pre, .replace service pre⟩ :
        Location Char Service).forward path args =
      .proxied ⟨service, path, args⟩ := by
  rcases hMatches with ⟨rest, rfl⟩
  simp [Location.forward]

/- No prefix at which the gateways differ. -/
theorem sameRoute_of_located
    (hLocate : locate composeLocations path = some l)
    (hRemoved : ∀ pre ∈ removed, ¬ pre <+: l.pre)
    (hPinned : ∀ own ∈ pinned, ¬ own <+: l.pre) :
    SameRoute path args := by
  constructor
  · intro pre hMem hPrefix
    exact
      hRemoved pre hMem
        (prefix_of_located hLocate (removed_listed hMem)
          hPrefix)
  · intro own hMem hPrefix
    exact
      absurd
        (prefix_of_located hLocate (pinned_listed hMem)
          hPrefix)
        (hPinned own hMem)

/- A pinned path is the only one at which they may differ. -/
theorem sameRoute_of_pinned
    (hLocate : locate composeLocations path = some l)
    (hRemoved : ∀ pre ∈ removed, ¬ pre <+: l.pre)
    (hOwn : l.pre ∈ pinned)
    (hPinned : ∀ own ∈ pinned, own <+: l.pre → own = l.pre) :
    SameRoute path args ↔ path = l.pre ∧ args = none := by
  constructor
  · intro hSame
    refine hSame.2 l.pre hOwn ?_
    exact
      ((locate_eq_some_iff distinct_compose).mp hLocate).2.1
  · intro hExact
    refine ⟨?_, ?_⟩
    · intro pre hMem hPrefix
      exact
        hRemoved pre hMem
          (prefix_of_located hLocate (removed_listed hMem)
            hPrefix)
    · intro own hMem hPrefix
      rw [hPinned own hMem
        (prefix_of_located hLocate (pinned_listed hMem)
          hPrefix)]
      exact hExact

/- The chart selects the location with the same prefix. -/
theorem located_of_pair
    (hLocate : locate composeLocations path = some l)
    (hM : m ∈ helmLocations)
    (hSame : m.pre = l.pre) :
    located composeLocations path args =
          l.forward path args ∧
      located helmLocations path args =
        m.forward path args := by
  have hHelm :=
    locate_of_locate distinct_compose distinct_helm
      helm_subset hLocate hM hSame
  rw [located, located, hLocate, hHelm]
  exact ⟨rfl, rfl⟩

/- The prefix is put back, or there is none to remove. -/
theorem agree_of_kept
    (hLocate : locate composeLocations path = some l)
    (hM : m ∈ helmLocations)
    (hSame : m.pre = l.pre)
    (hForward : l.forward path args = m.forward path args)
    (hRemoved : ∀ pre ∈ removed, ¬ pre <+: l.pre)
    (hPinned : ∀ own ∈ pinned, ¬ own <+: l.pre) :
    located composeLocations path args =
        located helmLocations path args ↔
      SameRoute path args := by
  rcases located_of_pair hLocate hM hSame with
    ⟨hCompose, hHelm⟩
  rw [hCompose, hHelm]
  exact
    iff_of_true hForward
      (sameRoute_of_located hLocate hRemoved hPinned)

/- The chart takes the prefix off, and puts `/` instead. -/
theorem agree_of_removed
    {service : Service}
    {pre : List Char}
    (hLocate :
      locate composeLocations path =
        some ⟨pre, .pass service⟩)
    (hM : ⟨pre, .replace service ['/']⟩ ∈ helmLocations)
    (hRemoved : pre ∈ removed)
    (hLong : 1 < pre.length) :
    located composeLocations path args =
        located helmLocations path args ↔
      SameRoute path args := by
  have hMatches : pre <+: path :=
    ((locate_eq_some_iff distinct_compose).mp hLocate).2.1
  rcases located_of_pair hLocate hM rfl with
    ⟨hCompose, hHelm⟩
  rw [hCompose, hHelm]
  refine iff_of_false ?_ (fun hSame =>
    hSame.1 pre hRemoved hMatches)
  intro hEq
  have hLength := hMatches.length_le
  have hPath :
      path = '/' :: path.drop pre.length := by
    simpa [Location.forward] using hEq
  have hCount := congrArg List.length hPath
  rw [List.length_cons, List.length_drop] at hCount
  omega

/- Compose pins the path, and the chart keeps what follows. -/
theorem agree_of_pinned
    {service : Service}
    {pre : List Char}
    (hLocate :
      locate composeLocations path =
        some ⟨pre, .fixed service pre⟩)
    (hM : ⟨pre, .replace service pre⟩ ∈ helmLocations)
    (hRemoved : ∀ other ∈ removed, ¬ other <+: pre)
    (hOwn : pre ∈ pinned)
    (hPinned : ∀ own ∈ pinned, own <+: pre → own = pre) :
    located composeLocations path args =
        located helmLocations path args ↔
      SameRoute path args := by
  have hMatches : pre <+: path :=
    ((locate_eq_some_iff distinct_compose).mp hLocate).2.1
  rcases located_of_pair hLocate hM rfl with
    ⟨hCompose, hHelm⟩
  rw [hCompose, hHelm, forward_replace_pre hMatches,
    sameRoute_of_pinned hLocate hRemoved hOwn hPinned]
  simp only [Location.forward, Reply.proxied.injEq,
    Target.mk.injEq, true_and]
  exact and_congr eq_comm eq_comm

/- `/metrics/all` is a location of Compose alone. -/
theorem agree_of_metricsAll
    (hLocate :
      locate composeLocations path =
        some
          (location "/metrics/all"
            (.fixed .auth "/metrics".toList))) :
    located composeLocations path args =
        located helmLocations path args ↔
      SameRoute path args := by
  have hMatches :=
    ((locate_eq_some_iff distinct_compose).mp hLocate).2.1
  have hShort : "/metrics".toList <+: path :=
    List.IsPrefix.trans (by decide) hMatches
  have hHelm :
      locate helmLocations path =
        some
          (location "/metrics"
            (.replace .analytics "/metrics".toList)) :=
    locate_of_start distinct_helm hMatches (by decide)
      (by decide) (by decide)
  refine iff_of_false ?_ ?_
  · rw [located, located, hLocate, hHelm]
    simp [Location.forward, location]
  · intro hSame
    have hExact :=
      (hSame.2 "/metrics".toList (by decide) hShort).1
    rw [hExact] at hMatches
    revert hMatches
    decide

/- A path that Compose does not match at all. -/
theorem agree_of_none
    (hLocate : locate composeLocations path = none) :
    located composeLocations path args =
        located helmLocations path args ↔
      SameRoute path args := by
  have hNone := locate_eq_none_iff.mp hLocate
  have hNever :
      ∀ pre ∈ composeLocations.map Location.pre,
        ¬ pre <+: path := by
    intro pre hMem
    rcases List.mem_map.mp hMem with ⟨l, hL, rfl⟩
    exact hNone l hL
  have hHelm : locate helmLocations path = none := by
    refine locate_eq_none_iff.mpr (fun m hM => ?_)
    exact hNever m.pre (helm_subset (List.mem_map_of_mem hM))
  rw [located, located, hLocate, hHelm]
  refine iff_of_true rfl ⟨?_, ?_⟩
  · exact fun pre hMem => hNever pre (removed_listed hMem)
  · intro own hMem hPrefix
    exact absurd hPrefix (hNever own (pinned_listed hMem))

theorem located_agree
    (path : List Char)
    (args : Option (List Char)) :
    located composeLocations path args =
        located helmLocations path args ↔
      SameRoute path args := by
  cases hLocate : locate composeLocations path with
  | none => exact agree_of_none hLocate
  | some l =>
      rcases (locate_eq_some_iff distinct_compose).mp hLocate
        with ⟨hL, hMatches, _⟩
      have hPut :
          ∀ {service}, l.action = .pass service →
            ⟨l.pre, .replace service l.pre⟩ ∈ helmLocations →
            (∀ pre ∈ removed, ¬ pre <+: l.pre) →
            (∀ own ∈ pinned, ¬ own <+: l.pre) →
              (located composeLocations path args =
                  located helmLocations path args ↔
                SameRoute path args) := by
        intro service hAction hM hRemoved hPinned
        refine
          agree_of_kept hLocate hM rfl ?_ hRemoved hPinned
        rw [forward_replace_pre hMatches, Location.forward,
          hAction]
      simp only [composeLocations, List.mem_cons,
        List.not_mem_nil, or_false] at hL
      rcases hL with rfl | rfl | rfl | rfl | rfl | rfl | rfl |
        rfl | rfl | rfl | rfl | rfl | rfl
      · exact
          agree_of_removed hLocate (by decide) (by decide)
            (by decide)
      · exact
          hPut rfl (by decide) (by decide) (by decide)
      · exact
          hPut rfl (by decide) (by decide) (by decide)
      · exact
          agree_of_removed hLocate (by decide) (by decide)
            (by decide)
      · exact
          hPut rfl (by decide) (by decide) (by decide)
      · exact
          hPut rfl (by decide) (by decide) (by decide)
      · exact
          hPut rfl (by decide) (by decide) (by decide)
      · exact
          agree_of_pinned hLocate (by decide) (by decide)
            (by decide) (by decide)
      · exact
          agree_of_kept hLocate
            (m := location "/ws"
              (.fixed .gameRoom "/ws".toList))
            (by decide) rfl rfl (by decide) (by decide)
      · exact
          agree_of_pinned hLocate (by decide) (by decide)
            (by decide) (by decide)
      · exact
          agree_of_pinned hLocate (by decide) (by decide)
            (by decide) (by decide)
      · exact agree_of_metricsAll hLocate
      · exact
          agree_of_kept hLocate
            (m := location "/" (.refuse 404))
            (by decide) rfl rfl (by decide) (by decide)

end Gateway

------------------------------------------------------------
-- Requests
------------------------------------------------------------

namespace Gateway

open Nginx

/- A location does not redirect. -/
theorem located_ne_moved
    {locations : List (Location Char Service)}
    {https : Bool}
    {path target : List Char}
    {args query : Option (List Char)} :
    located locations path args ≠
      .moved https target query := by
  rw [located]
  split
  · exact nofun
  · unfold Location.forward
    split <;> exact nofun

/- The paths that lack a slash are those without an end. -/
theorem completes_agree
    (path : List Char) :
    completes '/' helmLocations path =
      completes '/' composeLocations path := by
  have hTable :
      ∀ full ∈ composeLocations.map Location.pre,
        completes '/' helmLocations full.dropLast =
          completes '/' composeLocations full.dropLast := by
    decide +kernel
  by_cases hFull :
      path ++ ['/'] ∈ composeLocations.map Location.pre
  · simpa using hTable (path ++ ['/']) hFull
  · rw [Bool.eq_false_iff.mpr
        (fun hYes => hFull (helm_subset (mem_of_completes hYes))),
      Bool.eq_false_iff.mpr
        (fun hYes => hFull (mem_of_completes hYes))]

theorem sameRoute_of_completes
    {path : List Char}
    {args : Option (List Char)}
    (hCompletes : completes '/' composeLocations path = true) :
    SameRoute path args := by
  have hTable :
      ∀ full ∈ composeLocations.map Location.pre,
        completes '/' composeLocations full.dropLast = true →
          (∀ pre ∈ removed, ¬ pre <+: full.dropLast) ∧
            ∀ own ∈ pinned, ¬ own <+: full.dropLast := by
    decide +kernel
  have hFree := hTable (path ++ ['/'])
    (mem_of_completes hCompletes)
  rw [List.dropLast_concat] at hFree
  rcases hFree hCompletes with ⟨hRemoved, hPinned⟩
  exact
    ⟨hRemoved,
      fun own hMem hPrefix =>
        absurd hPrefix (hPinned own hMem)⟩

/-
  The gateways give the same reply exactly to the requests
  that the chart does not redirect, that are preflights, or
  whose path they treat alike.
-/
theorem gateways_agree
    (r : Request) :
    composeReply r = helmReply r ↔
      r.https = true ∧
        (r.options = true ∨ SameRoute r.path r.args) := by
  rw [composeReply, helmReply, replyFrom, replyFrom,
    completes_agree]
  cases hHttps : r.https with
  | false =>
      refine iff_of_false ?_ (fun hBoth => nomatch hBoth.1)
      cases r.options with
      | true => exact nofun
      | false =>
          cases completes '/' composeLocations r.path with
          | true => exact nofun
          | false => exact located_ne_moved
  | true =>
      cases r.options with
      | true => exact iff_of_true rfl ⟨rfl, .inl rfl⟩
      | false =>
          cases hCompletes :
              completes '/' composeLocations r.path with
          | true =>
              refine iff_of_true rfl ⟨rfl, .inr ?_⟩
              exact sameRoute_of_completes hCompletes
          | false =>
              simpa using located_agree r.path r.args

end Gateway
