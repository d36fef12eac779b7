import MultiplayerInfra.Nginx.Map
import MultiplayerInfra.Py.Dict
import Mathlib.Data.List.Sort
import Mathlib.Data.String.Basic

/-
  The NGINX configuration that the etcd watcher generates
  from the addresses of the match leaders.

  Key definitions include:
    * `Watcher.Upstreams`
    * `Watcher.safeName`
    * `Watcher.escape`
    * `Watcher.generateUpstreamConfig`
    * `Watcher.upstreamConf`

  Key theorems include:
    * `Watcher.generateUpstreamConfig_eq`
    * `Watcher.parse_escape`
    * `Watcher.safeName_eq_iff`

  The file is written line by line, as in the source; the
  configuration that those lines spell is a `Nginx.Conf`.
-/

------------------------------------------------------------
-- Names and Patterns
------------------------------------------------------------

namespace Watcher

open Py

/- The leader address of each match id. -/
abbrev Upstreams := Dict String String

/- `[a-zA-Z0-9_]`. -/
def isWord (c : Char) : Bool :=
  c.isAlphanum || c == '_'

/- `re.sub(r'[^a-zA-Z0-9_]', '_', match_id)`. -/
def sanitize (matchId : String) : String :=
  String.ofList
    (matchId.toList.map
      (fun c => if isWord c then c else '_'))

def safeName (matchId : String) : String :=
  "game_room_" ++ sanitize matchId

/- The characters that `re.escape` escapes. -/
def specialChars : List Char :=
  ['(', ')', '[', ']', '{', '}', '?', '*', '+', '-', '|',
    '^', '$', '\\', '.', '&', '~', '#', ' ', '\t', '\n',
    '\r', '\x0b', '\x0c']

def escapeChar (c : Char) : List Char :=
  if c ∈ specialChars then ['\\', c] else [c]

/- `re.escape(match_id)`. -/
def escape (matchId : String) : String :=
  String.ofList (matchId.toList.flatMap escapeChar)

end Watcher

------------------------------------------------------------
-- The Generated File
------------------------------------------------------------

namespace Watcher

open Py

/- `sorted(upstreams)`: ids compare by code points. -/
def sortedIds (upstreams : Upstreams) : List String :=
  upstreams.keys.insertionSort (· ≤ ·)

/- `sorted(upstreams.items())`; no two ids are equal. -/
def sortedItems
    (upstreams : Upstreams) :
    List (String × String) :=
  upstreams.entries.insertionSort (fun e e' => e.1 ≤ e'.1)

/-
  `DEFAULT_UPSTREAM`, or the first match's leader when there
  is a match.
-/
def defaultName
    (defaultUpstream : String)
    (upstreams : Upstreams) : String :=
  match sortedIds upstreams with
  | [] => defaultUpstream
  | first :: _ => safeName first

def generateUpstreamConfig
    (ctime defaultUpstream : String)
    (upstreams : Upstreams) : String :=
  "\n".intercalate
    (["# Auto-generated by etcd-watcher -- do not edit",
        "# Updated: " ++ ctime, ""] ++
      (sortedItems upstreams).flatMap (fun e =>
        ["upstream " ++ safeName e.1 ++ " \x7b",
          "    server " ++ e.2 ++ ";",
          "\x7d",
          ""]) ++
      ["map $arg_match_id $game_room_upstream \x7b",
        "    default " ++
          defaultName defaultUpstream upstreams ++ ";"] ++
      (sortedItems upstreams).map (fun e =>
        "    ~" ++ (escape e.1 ++ "$") ++ " " ++
          safeName e.1 ++ ";") ++
      ["\x7d"])

/-
  The blocks of the generated file, as NGINX reads them if no
  id has a semicolon, a quote or a backslash, which its lexer
  takes apart, and no two names of upstreams differ in case
  only, which NGINX does not tell apart.
-/
def upstreamConf
    (defaultUpstream : String)
    (upstreams : Upstreams) : Nginx.Conf where
  upstreams :=
    (sortedItems upstreams).map (fun e =>
      { name := safeName e.1, server := e.2 })
  map :=
    { source := "$arg_match_id"
      target := "$game_room_upstream"
      default := defaultName defaultUpstream upstreams
      regexes :=
        (sortedItems upstreams).map (fun e =>
          (escape e.1 ++ "$", safeName e.1)) }

/- The file is the text of these blocks under its header. -/
theorem generateUpstreamConfig_eq
    (ctime defaultUpstream : String)
    (upstreams : Upstreams) :
    generateUpstreamConfig ctime defaultUpstream upstreams =
      "\n".intercalate
        (["# Auto-generated by etcd-watcher -- do not edit",
            "# Updated: " ++ ctime, ""] ++
          (upstreamConf defaultUpstream
              upstreams).upstreams.flatMap
            (fun u => u.lines ++ [""]) ++
          (upstreamConf defaultUpstream
            upstreams).map.lines) := by
  unfold generateUpstreamConfig upstreamConf
  simp only [Nginx.MapBlock.lines, Nginx.Upstream.lines,
    List.flatMap_map, List.map_map, Function.comp_def,
    List.append_assoc, List.cons_append, List.nil_append]
  rfl

end Watcher

------------------------------------------------------------
-- Facts about Names and Patterns
------------------------------------------------------------

namespace Watcher

open Py

/- Reading a literal character of a pattern. -/
theorem parse_literal
    {c : Char}
    (hLiteral : c ∉ Nginx.Regex.metacharacters)
    (cs : List Char) :
    Nginx.Regex.parse (c :: cs) =
      (Nginx.Regex.parse cs).map (List.cons (.char c)) := by
  have hDollar : c ≠ '$' := by
    rintro rfl
    exact hLiteral (by decide)
  have hBackslash : c ≠ '\\' := by
    rintro rfl
    exact hLiteral (by decide)
  cases cs with
  | nil => simp [Nginx.Regex.parse, hDollar, hLiteral]
  | cons d ds =>
      simp [Nginx.Regex.parse, hBackslash, hDollar,
        hLiteral]

theorem parse_escaped
    {c : Char}
    (hSpecial : c.isAlphanum = false)
    (cs : List Char) :
    Nginx.Regex.parse ('\\' :: c :: cs) =
      (Nginx.Regex.parse cs).map (List.cons (.char c)) := by
  simp [Nginx.Regex.parse, hSpecial]

theorem isAlphanum_of_special :
    ∀ c ∈ specialChars, c.isAlphanum = false := by
  intro c hMem
  have hAll :
      specialChars.all (fun c => !c.isAlphanum) = true :=
    rfl
  simpa using List.all_eq_true.mp hAll c hMem

theorem metacharacters_subset :
    ∀ c ∈ Nginx.Regex.metacharacters,
      c ∈ specialChars := by
  intro c hMem
  have hAll :
      Nginx.Regex.metacharacters.all
          (fun c => specialChars.contains c) =
        true :=
    rfl
  simpa using List.all_eq_true.mp hAll c hMem

/- An escaped id is read as its own literal characters. -/
theorem parse_flatMap_escapeChar
    (cs : List Char) :
    Nginx.Regex.parse (cs.flatMap escapeChar ++ ['$']) =
      some (Nginx.Regex.suffix cs) := by
  induction cs with
  | nil => rfl
  | cons c cs ih =>
      rw [List.flatMap_cons, List.append_assoc]
      by_cases hSpecial : c ∈ specialChars
      · rw [escapeChar, if_pos hSpecial]
        simp only [List.cons_append, List.nil_append]
        rw [parse_escaped (isAlphanum_of_special c hSpecial),
          ih]
        rfl
      · rw [escapeChar, if_neg hSpecial]
        simp only [List.cons_append, List.nil_append]
        have hLiteral :
            c ∉ Nginx.Regex.metacharacters := by
          intro hMeta
          exact hSpecial (metacharacters_subset c hMeta)
        rw [parse_literal hLiteral, ih]
        rfl

theorem parse_escape
    (matchId : String) :
    Nginx.Regex.parse (escape matchId ++ "$").toList =
      some (Nginx.Regex.suffix matchId.toList) := by
  have hText :
      (escape matchId ++ "$").toList =
        matchId.toList.flatMap escapeChar ++ ['$'] := by
    rw [String.toList_append, escape, String.toList_ofList]
    rfl
  rw [hText, parse_flatMap_escapeChar]

/- Both characters are equal, or become an underscore. -/
def SameInName (c d : Char) : Prop :=
  c = d ∨ c.isAlphanum = false ∧ d.isAlphanum = false

instance (c d : Char) : Decidable (SameInName c d) :=
  inferInstanceAs (Decidable
    (c = d ∨ c.isAlphanum = false ∧ d.isAlphanum = false))

/- Two ids get the same upstream name. -/
def SameName (m m' : String) : Prop :=
  List.Forall₂ SameInName m.toList m'.toList

theorem sanitize_char_eq_iff
    (c d : Char) :
    (if isWord c then c else '_') =
        (if isWord d then d else '_') ↔
      SameInName c d := by
  have hUnderscore : '_'.isAlphanum = false := by decide
  unfold SameInName isWord
  by_cases hc : c.isAlphanum = true
  · by_cases hd : d.isAlphanum = true
    · simp [hc, hd]
    · by_cases hd' : d = '_'
      · subst hd'
        simp [hc]
      · have hne : c ≠ '_' := by
          rintro rfl
          simp [hUnderscore] at hc
        have hne' : c ≠ d := by
          rintro rfl
          exact hd hc
        simp [hc, hd, hd', hne, hne']
  · by_cases hd : d.isAlphanum = true
    · by_cases hc' : c = '_'
      · subst hc'
        simp [hd]
      · have hne : d ≠ '_' := by
          rintro rfl
          simp [hUnderscore] at hd
        have hne' : c ≠ d := by
          rintro rfl
          exact hc hd
        simp [hc, hd, hc', Ne.symm hne, hne']
    · by_cases hc' : c = '_' <;> by_cases hd' : d = '_' <;>
        simp [hc, hd, hc', hd']

theorem safeName_eq_iff
    (m m' : String) :
    safeName m = safeName m' ↔ SameName m m' := by
  have hNames :
      safeName m = safeName m' ↔
        m.toList.map (fun c => if isWord c then c else '_') =
          m'.toList.map
            (fun c => if isWord c then c else '_') := by
    rw [← String.toList_inj]
    simp [safeName, sanitize]
  rw [hNames, SameName]
  generalize m.toList = cs
  generalize m'.toList = ds
  induction cs generalizing ds with
  | nil => cases ds <;> simp
  | cons c cs ih =>
      cases ds with
      | nil => simp
      | cons d ds =>
          rw [List.map_cons, List.map_cons,
            List.cons.injEq, List.forall₂_cons]
          exact and_congr (sanitize_char_eq_iff c d) (ih ds)

end Watcher
