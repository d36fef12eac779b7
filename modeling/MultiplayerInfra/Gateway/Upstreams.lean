import MultiplayerInfra.Gateway.Routes
import MultiplayerInfra.Watcher.Routing

/-
  The server that a websocket of a game reaches through the
  gateways, by the file that the etcd watcher writes.

  Key definitions include:
    * `Gateway.argOf`
    * `Gateway.composeConf`
    * `Gateway.helmConf`
    * `Gateway.target`
    * `Gateway.roomServer`

  Key theorems include:
    * `Gateway.roomServer_eq`
    * `Gateway.websocket_server`

  A name that is not one of an upstream block would be
  looked up as a host.
-/

------------------------------------------------------------
-- Configurations
------------------------------------------------------------

namespace Gateway

open Py Nginx Watcher

/-
  `$arg_name`: the value of the first argument of that name,
  in any case of letters, and empty without one.
-/
def argOf
    (name : List Char)
    (args : Option (List Char)) : List Char :=
  match
    ((args.getD []).splitOn '&').find? (fun arg =>
      (arg.take name.length).map Char.toLower = name ∧
        (arg.drop name.length).head? = some '=')
  with
  | some arg => arg.drop (name.length + 1)
  | none => []

def matchIdOfArgs (args : Option (List Char)) : String :=
  String.ofList (argOf "match_id".toList args)

/- The blocks of the configuration that includes a file. -/
def withBlocks
    (blocks : List Nginx.Upstream)
    (conf : Conf) : Conf :=
  { conf with upstreams := blocks ++ conf.upstreams }

/- `infra/nginx/nginx.conf`. -/
def composeBlocks : List Nginx.Upstream :=
  [⟨"game_room_default", "game-room:8000"⟩]

/- `templates/nginx-config.yaml`. -/
def helmBlocks : List Nginx.Upstream :=
  [⟨"auth", "auth:8000"⟩,
    ⟨"matchmaking", "matchmaking:8000"⟩,
    ⟨"game_room", "game-room:8000"⟩,
    ⟨"reconnect", "reconnect-handler:8000"⟩,
    ⟨"replay", "replay:8000"⟩,
    ⟨"leaderboard", "leaderboard:8000"⟩,
    ⟨"analytics", "analytics:8000"⟩,
    ⟨"notification", "notification:8000"⟩]

/-
  With the file that the watcher writes.  The one that is
  there before has the blocks of no upstreams.
-/
def composeConf (upstreams : Upstreams) : Conf :=
  withBlocks composeBlocks
    (upstreamConf "game_room_default" upstreams)

/- `DEFAULT_UPSTREAM` is `game_room` in `_helpers.tpl`. -/
def helmConf (upstreams : Upstreams) : Conf :=
  withBlocks helmBlocks (upstreamConf "game_room" upstreams)

/- No expression of a map is tried on an empty value. -/
def roomServer
    (conf : Conf)
    (matchId : String) : Option String :=
  if matchId = "" then conf.serverOf conf.map.default
  else conf.serverFor matchId

/- The server behind a reply, if it is one of the rooms. -/
def behind
    (conf : Conf)
    (r : Request) : Reply Char Service → Option String
| .proxied ⟨.gameRoom, _, _⟩ =>
    roomServer conf (matchIdOfArgs r.args)
| _ => none

def composeServer
    (upstreams : Upstreams)
    (r : Request) : Option String :=
  behind (composeConf upstreams) r (composeReply r)

def helmServer
    (upstreams : Upstreams)
    (r : Request) : Option String :=
  behind (helmConf upstreams) r (helmReply r)

/- The match whose pattern takes an id. -/
def captor
    (upstreams : Upstreams)
    (matchId : String) : Option String :=
  if matchId = "" then none
  else
    (sortedIds upstreams).find?
      (fun i => decide (EndsWith matchId i))

/- The leader of that match, or else of the first one. -/
def target
    (upstreams : Upstreams)
    (matchId : String) : Option String :=
  match captor upstreams matchId with
  | some m => upstreams.get? m
  | none => (sortedIds upstreams).head?.bind upstreams.get?

/- NGINX loads the blocks: no two of them have one name. -/
structure Loads (upstreams : Upstreams) : Prop where
  names :
    ∀ m ∈ upstreams.keys, ∀ m' ∈ upstreams.keys,
      SameName m m' → m = m'
  notDefault : "default" ∉ upstreams.keys

end Gateway

------------------------------------------------------------
-- Evaluation
------------------------------------------------------------

namespace Gateway

open Py Nginx Watcher

variable {blocks : List Nginx.Upstream}
variable {defaultUpstream : String}
variable {upstreams : Upstreams}

theorem names_withBlocks :
    (withBlocks blocks
        (upstreamConf defaultUpstream
          upstreams)).upstreams.map Nginx.Upstream.name =
      blocks.map Nginx.Upstream.name ++
        (sortedIds upstreams).map safeName := by
  rw [withBlocks, List.map_append, names_upstreamConf]

/- The block of a match has its address. -/
theorem serverOf_safeName
    (defaultUpstream : String)
    {m : String}
    (hDistinct :
      (blocks.map Nginx.Upstream.name ++
        (sortedIds upstreams).map safeName).Nodup)
    (hListed : m ∈ sortedIds upstreams) :
    (withBlocks blocks
        (upstreamConf defaultUpstream upstreams)).serverOf
          (safeName m) =
      upstreams.get? m := by
  have hKey : m ∈ upstreams.keys :=
    (List.mem_insertionSort _).mp hListed
  rcases Dict.mem_keys_iff.mp hKey with ⟨address, hGet⟩
  rw [hGet]
  refine
    Conf.serverOf_eq_some (u := ⟨safeName m, address⟩) ?_ ?_
  · rw [names_withBlocks]
    exact hDistinct
  · refine List.mem_append_right blocks ?_
    exact
      List.mem_map.mpr
        ⟨(m, address), mem_sortedItems.mpr hGet, rfl⟩

/- An id that no pattern takes has the default. -/
theorem eval_of_not_captured
    {m : String}
    (hNone :
      (sortedIds upstreams).find?
          (fun i => decide (EndsWith m i)) =
        none) :
    (upstreamConf defaultUpstream upstreams).map.eval m =
      some (defaultName defaultUpstream upstreams) := by
  rw [MapBlock.eval, compiled_upstreamConf, Option.map_some]
  have hFind :
      ((sortedIds upstreams).map (fun i =>
          (Regex.suffix i.toList, safeName i))).find?
            (fun e => e.1.search m.toList) =
        none := by
    rw [List.find?_eq_none]
    intro e hMem
    rcases List.mem_map.mp hMem with ⟨i, hListed, rfl⟩
    intro hMatches
    have hEnds : EndsWith m i :=
      (Regex.search_suffix i.toList m.toList).mp hMatches
    exact
      List.find?_eq_none.mp hNone i hListed
        (decide_eq_true hEnds)
  rw [hFind]
  rfl

/- The server of the default: the first match has it. -/
theorem serverOf_default
    (defaultUpstream : String)
    (hDistinct :
      (blocks.map Nginx.Upstream.name ++
        (sortedIds upstreams).map safeName).Nodup) :
    (withBlocks blocks
        (upstreamConf defaultUpstream upstreams)).serverOf
          (defaultName defaultUpstream upstreams) =
      ((sortedIds upstreams).head?.bind upstreams.get?).or
        ((withBlocks blocks
          (upstreamConf defaultUpstream
            Dict.empty)).serverOf defaultUpstream) := by
  cases hIds : sortedIds upstreams with
  | nil =>
      have hItems : sortedItems upstreams = [] := by
        rw [← List.map_eq_nil_iff, map_fst_sortedItems, hIds]
      rw [defaultName, hIds]
      simp only [Conf.serverOf, withBlocks, upstreamConf,
        hItems]
      rfl
  | cons first rest =>
      have hFirst : first ∈ sortedIds upstreams := by
        rw [hIds]
        exact List.mem_cons_self
      have hServer :=
        serverOf_safeName defaultUpstream hDistinct hFirst
      rcases Dict.mem_keys_iff.mp
          ((List.mem_insertionSort _).mp hFirst) with
        ⟨address, hGet⟩
      rw [defaultName, hIds]
      simp only [hServer, hGet, List.head?_cons,
        Option.bind_some, Option.some_or]

/-
  The server of a match id: its leader, else that of the
  first match, else the one of the default.
-/
theorem roomServer_eq
    (matchId : String)
    (hDistinct :
      (blocks.map Nginx.Upstream.name ++
        (sortedIds upstreams).map safeName).Nodup) :
    roomServer
        (withBlocks blocks
          (upstreamConf defaultUpstream upstreams)) matchId =
      (target upstreams matchId).or
        ((withBlocks blocks
          (upstreamConf defaultUpstream
            Dict.empty)).serverOf defaultUpstream) := by
  have hDefault := serverOf_default defaultUpstream hDistinct
  by_cases hEmpty : matchId = ""
  · rw [roomServer, if_pos hEmpty, target, captor,
      if_pos hEmpty]
    exact hDefault
  · rw [roomServer, if_neg hEmpty, target, captor,
      if_neg hEmpty, Conf.serverFor]
    cases hFind :
        (sortedIds upstreams).find?
          (fun i => decide (EndsWith matchId i)) with
    | none =>
        change
          ((upstreamConf defaultUpstream upstreams).map.eval
            matchId).bind _ = _
        rw [eval_of_not_captured hFind, Option.bind_some]
        exact hDefault
    | some m =>
        have hListed : m ∈ sortedIds upstreams :=
          List.mem_of_find?_eq_some hFind
        rcases Dict.mem_keys_iff.mp
            ((List.mem_insertionSort _).mp hListed) with
          ⟨address, hGet⟩
        change
          ((upstreamConf defaultUpstream upstreams).map.eval
            matchId).bind _ = _
        rw [eval_upstreamConf hFind, Option.bind_some,
          serverOf_safeName _ hDistinct hListed]
        simp only [hGet, Option.some_or]

end Gateway

------------------------------------------------------------
-- Websockets
------------------------------------------------------------

namespace Gateway

open Py Nginx Watcher

variable {upstreams : Upstreams}

/- The names of a chart's blocks are no names of matches. -/
theorem nodup_of_loads
    (hLoads : Loads upstreams) :
    (composeBlocks.map Nginx.Upstream.name ++
        (sortedIds upstreams).map safeName).Nodup ∧
      (helmBlocks.map Nginx.Upstream.name ++
        (sortedIds upstreams).map safeName).Nodup := by
  have hNames := (nodup_names_iff upstreams).mpr hLoads.names
  constructor
  · refine
      List.Nodup.append (by decide) hNames ?_
    intro name hOwn hListed
    rcases List.mem_map.mp hListed with ⟨m, hSorted, rfl⟩
    have hDefault : safeName m = "game_room_default" := by
      simpa [composeBlocks] using hOwn
    rw [(safeName_eq_default_iff m).mp hDefault] at hSorted
    exact
      hLoads.notDefault ((List.mem_insertionSort _).mp hSorted)
  · refine
      List.Nodup.append (by decide) hNames ?_
    intro name hOwn hListed
    rcases List.mem_map.mp hListed with ⟨m, _, rfl⟩
    have hOther :
        ∀ name ∈ helmBlocks.map Nginx.Upstream.name,
          ¬ "game_room_".toList <+: name.toList := by
      decide
    refine hOther (safeName m) hOwn ?_
    rw [safeName, String.toList_append]
    exact List.prefix_append _ _

/- A default with a static block is a server. -/
theorem roomServer_of_static
    {blocks : List Nginx.Upstream}
    {defaultUpstream : String}
    {server : String}
    (matchId : String)
    (hDistinct :
      (blocks.map Nginx.Upstream.name ++
        (sortedIds upstreams).map safeName).Nodup)
    (hStatic :
      (withBlocks blocks
          (upstreamConf defaultUpstream
            Dict.empty)).serverOf defaultUpstream =
        some server) :
    roomServer
        (withBlocks blocks
          (upstreamConf defaultUpstream upstreams)) matchId =
      some ((target upstreams matchId).getD server) := by
  rw [roomServer_eq matchId hDistinct, hStatic]
  cases target upstreams matchId with
  | none => rfl
  | some address => rfl

/- Both gateways take a websocket to the rooms. -/
theorem replyFrom_ws
    {locations : List (Location Char Service)}
    {r : Request}
    (hPath : r.path = "/ws".toList)
    (hOptions : r.options = false)
    (hWhole : completes '/' locations "/ws".toList = false)
    (hLocate :
      locate locations "/ws".toList =
        some
          (location "/ws" (.fixed .gameRoom "/ws".toList))) :
    replyFrom locations r =
      .proxied ⟨.gameRoom, "/ws".toList, none⟩ := by
  rw [replyFrom, hOptions, hPath, hWhole, located, hLocate]
  rfl

theorem sortedIds_of_same
    {upstreams upstreams' : Upstreams}
    (hSame : upstreams.Same upstreams') :
    sortedIds upstreams = sortedIds upstreams' := by
  have hKeys : upstreams.keys.Perm upstreams'.keys := by
    refine
      (List.perm_ext_iff_of_nodup upstreams.nodup
        upstreams'.nodup).mpr ?_
    intro id
    show id ∈ upstreams.keys ↔ id ∈ upstreams'.keys
    rw [Dict.mem_keys_iff, Dict.mem_keys_iff, hSame id]
  have hSorted :=
    ((List.perm_insertionSort (· ≤ ·) upstreams.keys).trans
      hKeys).trans
        (List.perm_insertionSort (· ≤ ·) upstreams'.keys).symm
  exact
    hSorted.eq_of_pairwise'
      (List.pairwise_insertionSort _ _)
      (List.pairwise_insertionSort _ _)

/- The target is read off the entries alone. -/
theorem target_of_same
    {upstreams upstreams' : Upstreams}
    (hSame : upstreams.Same upstreams')
    (matchId : String) :
    target upstreams matchId = target upstreams' matchId := by
  have hGet : upstreams.get? = upstreams'.get? :=
    funext hSame
  rw [target, target, captor, captor,
    sortedIds_of_same hSame, hGet]

/-
  There is a target unless there is no entry, and it is that
  of the captor where there is one.
-/
theorem target_cases
    (upstreams : Upstreams)
    (matchId : String) :
    (upstreams.keys = [] ∧
        target upstreams matchId = none) ∨
      ∃ id address,
        upstreams.get? id = some address ∧
          target upstreams matchId = some address ∧
            ∀ id', captor upstreams matchId = some id' →
              id' = id := by
  have hEntry :
      ∀ id ∈ sortedIds upstreams,
        ∃ address, upstreams.get? id = some address := by
    intro id hListed
    exact
      Dict.mem_keys_iff.mp
        ((List.mem_insertionSort _).mp hListed)
  cases hCaptor : captor upstreams matchId with
  | some id =>
      right
      have hListed : id ∈ sortedIds upstreams := by
        unfold captor at hCaptor
        split at hCaptor
        · cases hCaptor
        · exact List.mem_of_find?_eq_some hCaptor
      rcases hEntry id hListed with ⟨address, hGet⟩
      refine ⟨id, address, hGet, ?_, ?_⟩
      · simp only [target, hCaptor, hGet]
      · intro id' hSame
        exact (Option.some.inj hSame).symm
  | none =>
      cases hIds : sortedIds upstreams with
      | nil =>
          left
          have hPerm :
              (sortedIds upstreams).Perm upstreams.keys :=
            List.perm_insertionSort (· ≤ ·) upstreams.keys
          rw [hIds] at hPerm
          refine ⟨hPerm.symm.eq_nil, ?_⟩
          simp only [target, hCaptor, hIds]
          rfl
      | cons first rest =>
          right
          have hListed : first ∈ sortedIds upstreams := by
            rw [hIds]
            exact List.mem_cons_self
          rcases hEntry first hListed with ⟨address, hGet⟩
          refine ⟨first, address, hGet, ?_, ?_⟩
          · simp only [target, hCaptor, hIds,
              List.head?_cons, Option.bind_some, hGet]
          · intro id' hNone
            cases hNone

/- The server that the Compose gateway has for a websocket. -/
theorem composeServer_ws
    {r : Request}
    (hLoads : Loads upstreams)
    (hPath : r.path = "/ws".toList)
    (hOptions : r.options = false) :
    composeServer upstreams r =
      some
        ((target upstreams (matchIdOfArgs r.args)).getD
          "game-room:8000") := by
  rw [composeServer, composeReply,
    replyFrom_ws hPath hOptions (by decide) (by decide)]
  exact
    roomServer_of_static _ (nodup_of_loads hLoads).1
      (by decide)

/-
  Whatever leaders the watcher has written, a websocket has a
  server behind both gateways, and the same: the leader of
  the match whose pattern takes the id, else that of the
  first match, else the static one.
-/
theorem websocket_server
    (upstreams : Upstreams)
    (r : Request)
    (hLoads : Loads upstreams)
    (hPath : r.path = "/ws".toList)
    (hOptions : r.options = false) :
    composeServer upstreams r =
        some
          ((target upstreams (matchIdOfArgs r.args)).getD
            "game-room:8000") ∧
      helmServer upstreams r =
        if r.https then composeServer upstreams r
        else none := by
  have hThere := composeServer_ws hLoads hPath hOptions
  refine ⟨hThere, ?_⟩
  rw [hThere, helmServer, helmReply]
  cases r.https with
  | false => rfl
  | true =>
      rw [if_pos rfl, if_pos rfl,
        replyFrom_ws hPath hOptions (by decide) (by decide)]
      exact
        roomServer_of_static _ (nodup_of_loads hLoads).2
          (by decide)

/- A websocket for a match that has no leader. -/
theorem websocket_server_otherMatch :
    composeServer (Dict.empty.set "arena" "room-1:8000")
          ⟨true, false, "/ws".toList,
            some "match_id=cave".toList⟩ =
        some "room-1:8000" ∧
      helmServer (Dict.empty.set "arena" "room-1:8000")
          ⟨true, false, "/ws".toList,
            some "match_id=cave".toList⟩ =
        some "room-1:8000" := by
  have hLoads :
      Loads (Dict.empty.set "arena" "room-1:8000") := by
    refine ⟨?_, by decide⟩
    intro m hMem m' hMem' _
    have hOne :
        (Dict.empty.set "arena" "room-1:8000").keys =
          ["arena"] := by
      decide
    rw [hOne, List.mem_singleton] at hMem hMem'
    rw [hMem, hMem']
  have hBoth :=
    websocket_server
      (Dict.empty.set "arena" "room-1:8000")
      ⟨true, false, "/ws".toList,
        some "match_id=cave".toList⟩
      hLoads rfl rfl
  have hTarget :
      target (Dict.empty.set "arena" "room-1:8000") "cave" =
        some "room-1:8000" := by
    decide
  have hArg :
      matchIdOfArgs (some "match_id=cave".toList) =
        "cave" := by
    decide
  rw [hArg, hTarget] at hBoth
  exact ⟨hBoth.1, hBoth.2.trans hBoth.1⟩

end Gateway
