import Mathlib.Data.List.Infix
import Mathlib.Data.List.MinMax
import Mathlib.Data.List.Nodup

/-
  Locations of a server that are selected by the longest
  prefix of the path, and what `proxy_pass` makes of it.

  Key definitions include:
    * `Nginx.Location`
    * `Nginx.locate`
    * `Nginx.completes`
    * `Nginx.Location.forward`

  Key theorems include:
    * `Nginx.locate_eq_some_iff`
    * `Nginx.locate_of_start`
    * `Nginx.locate_of_locate`
    * `Nginx.completes_eq_false`

  Paths are normalized and without escapes; the arguments of
  the query are apart from them, and an empty query counts as
  none.
-/

------------------------------------------------------------
-- Locations
------------------------------------------------------------

namespace Nginx

variable {α S : Type}

/- What a location does with a request. -/
inductive Action (α S : Type) where
  -- `proxy_pass` without a URI
  | pass (service : S)
  -- `proxy_pass` with variables and a URI
  | fixed (service : S) (uri : List α)
  -- `proxy_pass` with a URI and no variables
  | replace (service : S) (uri : List α)
  -- `return`
  | refuse (status : Nat)
deriving DecidableEq

structure Location (α S : Type) where
  pre : List α
  action : Action α S
deriving DecidableEq

/- A request as the service gets it. -/
structure Target (α S : Type) where
  service : S
  path : List α
  args : Option (List α)
deriving DecidableEq

inductive Reply (α S : Type) where
  | status (code : Nat)
  -- 301, to a URL with its scheme
  | moved
      (https : Bool)
      (path : List α)
      (args : Option (List α))
  | proxied (target : Target α S)
deriving DecidableEq

/- The part of a path that matched may be replaced. -/
def Location.forward
    (l : Location α S)
    (path : List α)
    (args : Option (List α)) : Reply α S :=
  match l.action with
  | .pass service => .proxied ⟨service, path, args⟩
  | .fixed service uri => .proxied ⟨service, uri, none⟩
  | .replace service uri =>
      .proxied
        ⟨service, uri ++ path.drop l.pre.length, args⟩
  | .refuse status => .status status

/- The location whose prefix is the longest. -/
def locate
    [DecidableEq α]
    (ls : List (Location α S))
    (path : List α) : Option (Location α S) :=
  (ls.filter (fun l => l.pre <+: path)).argmax
    (fun l => l.pre.length)

def Action.isPass : Action α S → Bool
| .refuse _ => false
| _ => true

/-
  `auto_redirect`: the path lacks the slash at the end of a
  location with a `proxy_pass`, and is not one itself.
-/
def completes
    [DecidableEq α]
    (slash : α)
    (ls : List (Location α S))
    (path : List α) : Bool :=
  ls.any (fun l =>
    decide (l.pre = path ++ [slash]) && l.action.isPass) &&
      ls.all (fun l => decide (l.pre ≠ path))

end Nginx

------------------------------------------------------------
-- The Longest Prefix
------------------------------------------------------------

namespace Nginx

variable {α S : Type} [DecidableEq α]
variable {ls ms : List (Location α S)}
variable {l m : Location α S}
variable {path : List α}

/- No two locations have one prefix. -/
abbrev Distinct (ls : List (Location α S)) : Prop :=
  (ls.map Location.pre).Nodup

omit [DecidableEq α] in
theorem Distinct.eq
    (hDistinct : Distinct ls)
    (hL : l ∈ ls)
    (hM : m ∈ ls)
    (hSame : l.pre = m.pre) :
    l = m :=
  List.inj_on_of_nodup_map hDistinct hL hM hSame

omit [DecidableEq α] in
/- Two prefixes of a path with one length are the same. -/
theorem pre_eq_of_length
    (hL : l.pre <+: path)
    (hM : m.pre <+: path)
    (hLength : l.pre.length = m.pre.length) :
    l.pre = m.pre :=
  (List.prefix_of_prefix_length_le hL hM
    hLength.le).eq_of_length hLength

theorem length_le_of_locate
    (hLocate : locate ls path = some l)
    (hM : m ∈ ls)
    (hMatches : m.pre <+: path) :
    m.pre.length ≤ l.pre.length :=
  List.le_of_mem_argmax (f := fun l => l.pre.length)
    (List.mem_filter.mpr ⟨hM, decide_eq_true hMatches⟩)
    hLocate

/- The location that is selected. -/
theorem locate_eq_some_iff
    (hDistinct : Distinct ls) :
    locate ls path = some l ↔
      l ∈ ls ∧ l.pre <+: path ∧
        ∀ m ∈ ls, m.pre <+: path →
          m.pre.length ≤ l.pre.length := by
  constructor
  · intro hLocate
    have hMem := List.mem_filter.mp (List.argmax_mem hLocate)
    exact
      ⟨hMem.1, of_decide_eq_true hMem.2,
        fun m hM hMatches =>
          length_le_of_locate hLocate hM hMatches⟩
  · rintro ⟨hL, hMatches, hLongest⟩
    have hIn : l ∈ ls.filter (fun l => l.pre <+: path) :=
      List.mem_filter.mpr ⟨hL, decide_eq_true hMatches⟩
    cases hLocate : locate ls path with
    | none =>
        rw [List.argmax_eq_none.mp hLocate] at hIn
        cases hIn
    | some m =>
        have hMem :=
          List.mem_filter.mp (List.argmax_mem hLocate)
        have hPrefix : m.pre <+: path :=
          of_decide_eq_true hMem.2
        have hLength : m.pre.length = l.pre.length :=
          le_antisymm (hLongest m hMem.1 hPrefix)
            (length_le_of_locate hLocate hL hMatches)
        rw [hDistinct.eq hMem.1 hL
          (pre_eq_of_length hPrefix hMatches hLength)]

/- The beginning of a path may decide it. -/
theorem locate_of_start
    {start : List α}
    (hDistinct : Distinct ls)
    (hStart : start <+: path)
    (hL : l ∈ ls)
    (hMatches : l.pre <+: start)
    (hLongest :
      ∀ m ∈ ls, m.pre <+: start ∨ start <+: m.pre →
        m.pre.length ≤ l.pre.length) :
    locate ls path = some l := by
  refine
    (locate_eq_some_iff hDistinct).mpr
      ⟨hL, hMatches.trans hStart, ?_⟩
  intro m hM hOther
  exact
    hLongest m hM
      (List.prefix_or_prefix_of_prefix hOther hStart)

/- A server with fewer locations, of which this is one. -/
theorem locate_of_locate
    (hLs : Distinct ls)
    (hMs : Distinct ms)
    (hSub : ms.map Location.pre ⊆ ls.map Location.pre)
    (hLocate : locate ls path = some l)
    (hM : m ∈ ms)
    (hSame : m.pre = l.pre) :
    locate ms path = some m := by
  rcases (locate_eq_some_iff hLs).mp hLocate with
    ⟨_, hMatches, hLongest⟩
  refine
    (locate_eq_some_iff hMs).mpr ⟨hM, hSame ▸ hMatches, ?_⟩
  intro other hOther hPrefix
  rcases List.mem_map.mp (hSub (List.mem_map_of_mem hOther))
    with ⟨l', hIn, hPre⟩
  rw [hSame, ← hPre]
  exact hLongest l' hIn (hPre ▸ hPrefix)

/- A path that no location matches. -/
theorem locate_eq_none_iff :
    locate ls path = none ↔
      ∀ l ∈ ls, ¬ l.pre <+: path := by
  rw [locate, List.argmax_eq_none, List.filter_eq_nil_iff]
  simp only [decide_eq_true_eq]

/- No location goes on where the beginning of a path ends. -/
theorem completes_eq_false
    {slash : α}
    {start : List α}
    (hStart : start <+: path)
    (hLongest :
      ∀ l ∈ ls, start <+: l.pre →
        l.pre.length ≤ start.length) :
    completes slash ls path = false := by
  rw [completes, Bool.and_eq_false_iff]
  refine .inl (List.any_eq_false.mpr ?_)
  intro l hL hBoth
  have hEq : l.pre = path ++ [slash] := by
    simp only [Bool.and_eq_true, decide_eq_true_eq] at hBoth
    exact hBoth.1
  have hShort := hLongest l hL
    (hEq ▸ hStart.trans (List.prefix_append path [slash]))
  rw [hEq, List.length_append, List.length_singleton]
    at hShort
  have hLength := hStart.length_le
  omega

theorem mem_of_completes
    {slash : α}
    (hCompletes : completes slash ls path = true) :
    path ++ [slash] ∈ ls.map Location.pre := by
  rw [completes, Bool.and_eq_true] at hCompletes
  rcases List.any_eq_true.mp hCompletes.1 with
    ⟨l, hL, hBoth⟩
  simp only [Bool.and_eq_true, decide_eq_true_eq] at hBoth
  exact hBoth.1 ▸ List.mem_map_of_mem hL

end Nginx
