import Mathlib.Data.List.Nodup
import Mathlib.Data.List.Infix

/-
  The part of an NGINX configuration that selects an
  upstream by a `map` block: upstream blocks, regular
  expression entries and the order in which they are tried.

  Key definitions include:
    * `Nginx.Regex`
    * `Nginx.Regex.parse`
    * `Nginx.Regex.search`
    * `Nginx.MapBlock.eval`
    * `Nginx.Conf.serverFor`

  Key theorems include:
    * `Nginx.Regex.search_suffix`
    * `Nginx.MapBlock.eval_eq_some`
    * `Nginx.Conf.serverOf_eq_some`

  A pattern is read as the text of a regular expression of
  literal characters and end anchors.
-/

------------------------------------------------------------
-- Regular Expressions
------------------------------------------------------------

namespace Nginx

inductive Atom where
  | char (c : Char)
  -- `$`, which also matches before a final newline
  | eol
deriving DecidableEq

abbrev Regex := List Atom

namespace Regex

/- The characters that are not literal outside a class. -/
def metacharacters : List Char :=
  ['\\', '^', '$', '.', '[', '|', '(', ')', '?', '*', '+',
    '{']

/-
  Read the text of a pattern.  A backslash makes the next
  character literal, unless that is a letter or a digit;
  other expressions are not read.
-/
def parse : List Char → Option Regex
| [] => some []
| [c] =>
    if c = '$' then some [.eol]
    else if c ∈ metacharacters then none
    else some [.char c]
| c :: d :: cs =>
    if c = '\\' then
      if d.isAlphanum then none
      else (parse cs).map (List.cons (.char d))
    else if c = '$' then
      (parse (d :: cs)).map (List.cons .eol)
    else if c ∈ metacharacters then none
    else (parse (d :: cs)).map (List.cons (.char c))

/- The expression matches at the start of the subject. -/
def matchesAt : Regex → List Char → Bool
| [], _ => true
| .char _ :: _, [] => false
| .char c :: r, d :: cs => c == d && matchesAt r cs
| .eol :: r, cs =>
    (cs.isEmpty || cs == ['\n']) && matchesAt r cs

/- The expression matches at some position. -/
def search
    (r : Regex)
    (subject : List Char) : Bool :=
  subject.tails.any (matchesAt r)

/- Literal characters, anchored at the end. -/
def suffix
    (cs : List Char) : Regex :=
  cs.map .char ++ [.eol]

end Regex

end Nginx

------------------------------------------------------------
-- Blocks
------------------------------------------------------------

namespace Nginx

structure Upstream where
  name : String
  server : String
deriving DecidableEq

/- `map $source $target`, with `~pattern value;` entries. -/
structure MapBlock where
  source : String
  target : String
  default : String
  regexes : List (String × String)
deriving DecidableEq

structure Conf where
  upstreams : List Upstream
  map : MapBlock
deriving DecidableEq

/- The lines of an `upstream` block. -/
def Upstream.lines
    (u : Upstream) : List String :=
  ["upstream " ++ u.name ++ " \x7b",
    "    server " ++ u.server ++ ";",
    "\x7d"]

/- The lines of a `map` block. -/
def MapBlock.lines
    (m : MapBlock) : List String :=
  ["map " ++ m.source ++ " " ++ m.target ++ " \x7b",
      "    default " ++ m.default ++ ";"] ++
    m.regexes.map
      (fun e => "    ~" ++ e.1 ++ " " ++ e.2 ++ ";") ++
    ["\x7d"]

/- The entries in file order, with their patterns read. -/
def MapBlock.compiled
    (m : MapBlock) :
    Option (List (Regex × String)) :=
  m.regexes.mapM
    (fun e =>
      (Regex.parse e.1.toList).map (fun r => (r, e.2)))

/- The value of the first entry that matches. -/
def MapBlock.eval
    (m : MapBlock)
    (subject : String) :
    Option String :=
  m.compiled.map (fun entries =>
    match
      entries.find? (fun e => e.1.search subject.toList)
    with
    | some e => e.2
    | none => m.default)

/- The server of the upstream block of a name. -/
def Conf.serverOf
    (conf : Conf)
    (name : String) :
    Option String :=
  (conf.upstreams.find? (fun u => u.name = name)).map
    Upstream.server

/- The server to which a value of the source is routed. -/
def Conf.serverFor
    (conf : Conf)
    (subject : String) :
    Option String :=
  (conf.map.eval subject).bind conf.serverOf

end Nginx

------------------------------------------------------------
-- Matching
------------------------------------------------------------

namespace Nginx

namespace Regex

theorem matchesAt_suffix
    (cs subject : List Char) :
    matchesAt (suffix cs) subject = true ↔
      subject = cs ∨ subject = cs ++ ['\n'] := by
  induction cs generalizing subject with
  | nil =>
      simp [suffix, matchesAt, List.isEmpty_iff]
  | cons c cs ih =>
      cases subject with
      | nil => simp [suffix, matchesAt]
      | cons d ds =>
          have hTail := ih ds
          simp only [suffix, List.map_cons,
            List.cons_append, matchesAt, Bool.and_eq_true,
            beq_iff_eq, List.cons.injEq] at hTail ⊢
          rw [hTail]
          constructor
          · rintro ⟨rfl, hEq | hEq⟩
            · exact .inl ⟨rfl, hEq⟩
            · exact .inr ⟨rfl, hEq⟩
          · rintro (⟨rfl, hEq⟩ | ⟨rfl, hEq⟩)
            · exact ⟨rfl, .inl hEq⟩
            · exact ⟨rfl, .inr hEq⟩

/- Only the end is anchored: any suffix is found. -/
theorem search_suffix
    (cs subject : List Char) :
    search (suffix cs) subject = true ↔
      cs <:+ subject ∨ cs ++ ['\n'] <:+ subject := by
  simp only [search, List.any_eq_true, List.mem_tails,
    matchesAt_suffix]
  constructor
  · rintro ⟨t, hTail, rfl | rfl⟩
    · exact .inl hTail
    · exact .inr hTail
  · rintro (hTail | hTail)
    · exact ⟨cs, hTail, .inl rfl⟩
    · exact ⟨cs ++ ['\n'], hTail, .inr rfl⟩

end Regex

/- The first matching entry decides. -/
theorem MapBlock.eval_eq_some
    {m : MapBlock}
    {subject : String}
    {entries : List (Regex × String)}
    {e : Regex × String}
    (hCompiled : m.compiled = some entries)
    (hFirst :
      entries.find?
          (fun e => e.1.search subject.toList) =
        some e) :
    m.eval subject = some e.2 := by
  simp [eval, hCompiled, hFirst]

/- A name that one block has finds that block. -/
theorem Conf.serverOf_eq_some
    {conf : Conf}
    {u : Upstream}
    (hDistinct :
      (conf.upstreams.map Upstream.name).Nodup)
    (hMem : u ∈ conf.upstreams) :
    conf.serverOf u.name = some u.server := by
  unfold serverOf
  cases hFind :
      conf.upstreams.find? (fun v => v.name = u.name) with
  | none =>
      have hNone := List.find?_eq_none.mp hFind u hMem
      simp at hNone
  | some v =>
      have hName : v.name = u.name := by
        simpa using List.find?_some hFind
      have hSame : v = u :=
        List.inj_on_of_nodup_map hDistinct
          (List.mem_of_find?_eq_some hFind) hMem hName
      rw [hSame]
      rfl

end Nginx
