import Mathlib.Data.List.DropRight
import Mathlib.Data.List.Induction

/-
  Histories of events: what holds whenever an event happens,
  who holds a resource that changes hands, the level that
  its writes reach, in which order it is asked for, what is
  not used once it is closed, and whether openings and
  closings alternate.

  Key definitions include:
    * `History.AtEach`
    * `History.holder`
    * `History.since`
    * `History.MayWrite`
    * `History.Fenced`
    * `History.level`
    * `History.NeverFalls`
    * `History.Between`
    * `History.InOrder`
    * `History.Closed`
    * `History.Final`
    * `History.Alternate`

  Key theorems include:
    * `History.atEach_concat_iff`
    * `History.fenced_of_atEach`
    * `History.neverFalls_of_atEach`
    * `History.inOrder_of_atEach`
    * `History.final_of_atEach`
    * `History.getLast?_of_alternate`
-/

------------------------------------------------------------
-- Every Event
------------------------------------------------------------

namespace History

variable {ε : Type}

/- `P` holds of every event and the events before it. -/
def AtEach
    (P : List ε → ε → Prop)
    (h : List ε) : Prop :=
  ∀ h₁ e h₂, h = h₁ ++ e :: h₂ → P h₁ e

theorem atEach_nil
    (P : List ε → ε → Prop) :
    AtEach P [] := by
  intro h₁ e h₂ hEq
  exact absurd hEq (by simp)

theorem AtEach.concat
    {P : List ε → ε → Prop}
    {h : List ε}
    {e : ε}
    (hEach : AtEach P h)
    (hNew : P h e) :
    AtEach P (h ++ [e]) := by
  intro h₁ e' h₂ hEq
  rcases List.eq_nil_or_concat h₂ with rfl | ⟨h₃, last, rfl⟩
  · rcases List.append_inj' hEq rfl with ⟨rfl, hLast⟩
    cases hLast
    exact hNew
  · have hEq' : h ++ [e] = (h₁ ++ e' :: h₃) ++ [last] := by
      simpa using hEq
    exact hEach h₁ e' h₃ (List.append_inj' hEq' rfl).1

theorem atEach_concat_iff
    {P : List ε → ε → Prop}
    {h : List ε}
    {e : ε} :
    AtEach P (h ++ [e]) ↔ AtEach P h ∧ P h e := by
  constructor
  · intro hEach
    refine ⟨?_, hEach h e [] rfl⟩
    intro h₁ e' h₂ hEq
    exact hEach h₁ e' (h₂ ++ [e]) (by simp [hEq])
  · rintro ⟨hEach, hNew⟩
    exact hEach.concat hNew

theorem AtEach.mono
    {P Q : List ε → ε → Prop}
    {h : List ε}
    (hEach : AtEach P h)
    (hImp : ∀ before e, P before e → Q before e) :
    AtEach Q h :=
  fun h₁ e h₂ hEq => hImp h₁ e (hEach h₁ e h₂ hEq)

/- At most one event is added. -/
theorem AtEach.append_toList
    {P : List ε → ε → Prop}
    {h : List ε}
    {new : Option ε}
    (hEach : AtEach P h)
    (hNew : ∀ e, new = some e → P h e) :
    AtEach P (h ++ new.toList) := by
  cases new with
  | none =>
      rw [Option.toList_none, List.append_nil]
      exact hEach
  | some e => exact hEach.concat (hNew e rfl)

end History

------------------------------------------------------------
-- Holders
------------------------------------------------------------

namespace History

variable {ι ε : Type}
variable {grants confirms writes : ε → Option ι}
variable {h : List ε}

/- The last one that the resource was granted to. -/
def holder
    (grants : ε → Option ι)
    (h : List ε) : Option ι :=
  (h.filterMap grants).getLast?

/-
  Once a grant is confirmed, only those write to whom the
  resource was granted since.
-/
def Fenced
    (grants confirms writes : ε → Option ι)
    (h : List ε) : Prop :=
  ∀ h₁ h₂ h₃ h₄ g c w i j,
    h = h₁ ++ g :: (h₂ ++ c :: (h₃ ++ w :: h₄)) →
      grants g = some j →
        confirms c = some j →
          writes w = some i →
            i ≠ j →
              ∃ e ∈ h₂ ++ c :: h₃, grants e = some i

theorem holder_concat_of_none
    {e : ε}
    (hNone : grants e = none) :
    holder grants (h ++ [e]) = holder grants h := by
  rw [holder, List.filterMap_append,
    List.filterMap_cons_none hNone, List.filterMap_nil,
    List.append_nil, holder]

theorem holder_concat_of_some
    {e : ε}
    {i : ι}
    (hSome : grants e = some i) :
    holder grants (h ++ [e]) = some i := by
  rw [holder, List.filterMap_append,
    List.filterMap_cons_some hSome, List.filterMap_nil,
    List.getLast?_concat]

variable [DecidableEq ι]

/- What happened since the last grant to `j`. -/
def since
    (grants : ε → Option ι)
    (j : ι)
    (h : List ε) : List ε :=
  h.rtakeWhile (fun e => grants e ≠ some j)

/-
  For every confirmation to another one, the resource was
  granted to `i` after the confirmed grant.
-/
def MayWrite
    (grants confirms : ε → Option ι)
    (h : List ε)
    (i : ι) : Prop :=
  ∀ h₁ c h₂ j,
    h = h₁ ++ c :: h₂ →
      confirms c = some j →
        i ≠ j →
          (∃ e ∈ since grants j h₁, grants e = some i) ∨
            ∃ e ∈ h₂, grants e = some i

/- Who was granted it since may write after a confirmation. -/
theorem MayWrite.concat
    {e : ε}
    {i : ι}
    (hMay : MayWrite grants confirms h i)
    (hNew :
      ∀ j, confirms e = some j → i ≠ j →
        ∃ e' ∈ since grants j h, grants e' = some i) :
    MayWrite grants confirms (h ++ [e]) i := by
  intro h₁ c h₂ j hEq hConfirms hNe
  rcases List.eq_nil_or_concat h₂ with rfl | ⟨h₃, last, rfl⟩
  · rcases List.append_inj' hEq rfl with ⟨rfl, hLast⟩
    cases hLast
    exact .inl (hNew j hConfirms hNe)
  · rw [List.concat_eq_append] at hEq ⊢
    have hEq' : h ++ [e] = (h₁ ++ c :: h₃) ++ [last] := by
      simpa using hEq
    rcases List.append_inj' hEq' rfl with ⟨hBefore, _⟩
    rcases hMay h₁ c h₃ j hBefore hConfirms hNe with
      hSince | ⟨e', hMem, hGrant⟩
    · exact .inl hSince
    · exact .inr ⟨e', List.mem_append_left _ hMem, hGrant⟩

/- So may the one that it is granted to now. -/
theorem mayWrite_concat_of_grant
    {e : ε}
    {i : ι}
    (h : List ε)
    (hGrant : grants e = some i)
    (hNone : confirms e = none) :
    MayWrite grants confirms (h ++ [e]) i := by
  intro h₁ c h₂ j hEq hConfirms _
  rcases List.eq_nil_or_concat h₂ with rfl | ⟨h₃, last, rfl⟩
  · rcases List.append_inj' hEq rfl with ⟨_, hLast⟩
    cases hLast
    rw [hNone] at hConfirms
    cases hConfirms
  · rw [List.concat_eq_append] at hEq ⊢
    have hEq' : h ++ [e] = (h₁ ++ c :: h₃) ++ [last] := by
      simpa using hEq
    rcases List.append_inj' hEq' rfl with ⟨_, hLast⟩
    cases hLast
    exact
      .inr
        ⟨e,
          List.mem_append_right _
            (List.mem_singleton_self _),
          hGrant⟩

/- What happened since the last grant came after each. -/
theorem mem_of_mem_since
    {h' : List ε}
    {g e : ε}
    {j : ι}
    (hGrant : grants g = some j)
    (hMem : e ∈ since grants j (h ++ g :: h')) :
    e ∈ h' := by
  induction h' using List.reverseRecOn with
  | nil =>
      rw [since,
        List.rtakeWhile_concat_neg _ _ _ (by simp [hGrant])]
        at hMem
      cases hMem
  | append_singleton h' last ih =>
      have hEq :
          h ++ g :: (h' ++ [last]) =
            (h ++ g :: h') ++ [last] := by
        simp
      rw [hEq, since, List.rtakeWhile_concat] at hMem
      split at hMem
      · rcases List.mem_append.mp hMem with hOld | hLast
        · exact List.mem_append_left _ (ih hOld)
        · exact List.mem_append_right _ hLast
      · cases hMem

/- Where only such write, the others are fenced. -/
theorem fenced_of_atEach
    (hWrites :
      AtEach
        (fun before e =>
          ∀ i, writes e = some i →
            MayWrite grants confirms before i)
        h) :
    Fenced grants confirms writes h := by
  intro h₁ h₂ h₃ h₄ g c w i j hEq hGrant hConfirms hWrite hNe
  have hMay :
      MayWrite grants confirms
        ((h₁ ++ g :: h₂) ++ c :: h₃) i :=
    hWrites _ w h₄ (by simpa using hEq) i hWrite
  rcases hMay _ c h₃ j rfl hConfirms hNe with
    ⟨e, hMem, hOwn⟩ | ⟨e, hMem, hOwn⟩
  · exact
      ⟨e, List.mem_append_left _ (mem_of_mem_since hGrant hMem),
        hOwn⟩
  · exact
      ⟨e,
        List.mem_append_right _ (List.mem_cons_of_mem _ hMem),
        hOwn⟩

end History

------------------------------------------------------------
-- Levels
------------------------------------------------------------

namespace History

variable {ε : Type}
variable {sets : ε → Option Nat}
variable {clears : ε → Bool}
variable {h : List ε}

/- The level after one more event. -/
def raise
    (sets : ε → Option Nat)
    (clears : ε → Bool)
    (n : Nat)
    (e : ε) : Nat :=
  match sets e with
  | some m => max n m
  | none => if clears e then 0 else n

/- The highest level that was set since the last clearing. -/
def level
    (sets : ε → Option Nat)
    (clears : ε → Bool)
    (h : List ε) : Nat :=
  h.foldl (raise sets clears) 0

/- Without a clearing in between no lower level is set. -/
def NeverFalls
    (sets : ε → Option Nat)
    (clears : ε → Bool)
    (h : List ε) : Prop :=
  ∀ h₁ h₂ h₃ e e' n n',
    h = h₁ ++ e :: (h₂ ++ e' :: h₃) →
      sets e = some n →
        sets e' = some n' →
          (∀ c ∈ h₂, clears c = false) →
            n ≤ n'

theorem level_concat
    (sets : ε → Option Nat)
    (clears : ε → Bool)
    (h : List ε)
    (e : ε) :
    level sets clears (h ++ [e]) =
      raise sets clears (level sets clears h) e := by
  rw [level, List.foldl_append]
  rfl

theorem le_level_append
    {h' : List ε}
    {n : Nat}
    (hLevel : n ≤ level sets clears h)
    (hKept : ∀ c ∈ h', clears c = false) :
    n ≤ level sets clears (h ++ h') := by
  induction h' using List.reverseRecOn with
  | nil =>
      rw [List.append_nil]
      exact hLevel
  | append_singleton h' e ih =>
      have hPrior :=
        ih (fun c hMem => hKept c (List.mem_append_left _ hMem))
      have hLast : clears e = false :=
        hKept e
          (List.mem_append_right _ (List.mem_singleton_self _))
      rw [← List.append_assoc, level_concat, raise, hLast]
      split
      · exact Nat.le_trans hPrior (Nat.le_max_left _ _)
      · simpa using hPrior

/- Where nothing is set below the level, it never falls. -/
theorem neverFalls_of_atEach
    (hSets :
      AtEach
        (fun before e =>
          ∀ n, sets e = some n →
            level sets clears before ≤ n)
        h) :
    NeverFalls sets clears h := by
  intro h₁ h₂ h₃ e e' n n' hEq hSet hSet' hKept
  have hStart : n ≤ level sets clears (h₁ ++ [e]) := by
    rw [level_concat, raise, hSet]
    exact Nat.le_max_right _ _
  have hReached :
      n ≤ level sets clears (h₁ ++ [e] ++ h₂) :=
    le_level_append hStart hKept
  have hAbove :
      level sets clears (h₁ ++ [e] ++ h₂) ≤ n' :=
    hSets _ e' h₃ (by simpa using hEq) n' hSet'
  exact Nat.le_trans hReached hAbove

end History

------------------------------------------------------------
-- Questions and Answers
------------------------------------------------------------

namespace History

variable {ε κ : Type}
variable {sets : ε → Option Nat}
variable {clears : ε → Bool}
variable {asks : ε → Option κ}
variable {tells : ε → Option (κ × Nat)}
variable {h : List ε}
variable {k : κ}
variable {n : Nat}

/-
  The value lies between the level when it was asked for and
  the present one, if there was no clearing since.
-/
def Between
    (sets : ε → Option Nat)
    (clears : ε → Bool)
    (asks : ε → Option κ)
    (h : List ε)
    (k : κ)
    (n : Nat) : Prop :=
  ∀ h₁ q h₂,
    h = h₁ ++ q :: h₂ →
      asks q = some k →
        (∀ c ∈ q :: h₂, clears c = false) →
          level sets clears h₁ ≤ n ∧ n ≤ level sets clears h

/-
  Who asks after another was told a value is not told a lower
  one, if there was no clearing since that was asked for.
-/
def InOrder
    (clears : ε → Bool)
    (asks : ε → Option κ)
    (tells : ε → Option (κ × Nat))
    (h : List ε) : Prop :=
  ∀ h₁ h₂ h₃ h₄ h₅ q a q' a' k k' n n',
    h =
        h₁ ++ q ::
          (h₂ ++ a :: (h₃ ++ q' :: (h₄ ++ a' :: h₅))) →
      asks q = some k →
        tells a = some (k, n) →
          asks q' = some k' →
            tells a' = some (k', n') →
              (∀ c ∈ q :: (h₂ ++ a :: (h₃ ++ q' :: h₄)),
                clears c = false) →
                n ≤ n'

/- A value that is read now. -/
theorem between_of_level
    (asks : ε → Option κ)
    (k : κ)
    (hLevel : level sets clears h = n) :
    Between sets clears asks h k n := by
  intro h₁ q h₂ hEq _ hKept
  refine ⟨?_, Nat.le_of_eq hLevel.symm⟩
  rw [← hLevel, hEq]
  exact le_level_append (Nat.le_refl _) hKept

/- A value that was read before. -/
theorem Between.concat
    {e : ε}
    (hBetween : Between sets clears asks h k n)
    (hOther : asks e ≠ some k) :
    Between sets clears asks (h ++ [e]) k n := by
  intro h₁ q h₂ hEq hAsks hKept
  rcases List.eq_nil_or_concat h₂ with rfl | ⟨h₃, last, rfl⟩
  · rcases List.append_inj' hEq rfl with ⟨_, hLast⟩
    cases hLast
    exact absurd hAsks hOther
  · rw [List.concat_eq_append] at hEq hKept
    have hEq' : h ++ [e] = (h₁ ++ q :: h₃) ++ [last] := by
      simpa using hEq
    rcases List.append_inj' hEq' rfl with ⟨hBefore, hLast⟩
    cases hLast
    have hWithin :=
      hBetween h₁ q h₃ hBefore hAsks
        (fun c hMem =>
          hKept c (List.mem_append_left [e] hMem))
    refine ⟨hWithin.1, le_level_append hWithin.2 ?_⟩
    intro c hMem
    exact
      hKept c (List.mem_append_right (q :: h₃) hMem)

/- Values that were current are told in order. -/
theorem inOrder_of_atEach
    (hTells :
      AtEach
        (fun before e =>
          ∀ k n, tells e = some (k, n) →
            Between sets clears asks before k n)
        h) :
    InOrder clears asks tells h := by
  intro h₁ h₂ h₃ h₄ h₅ q a q' a' k k' n n' hEq hAsk hTell
    hAsk' hTell' hKept
  have hFirst :
      n ≤ level sets clears (h₁ ++ q :: h₂) := by
    refine
      (hTells (h₁ ++ q :: h₂) a _ (by simpa using hEq) k n
        hTell h₁ q h₂ rfl hAsk ?_).2
    intro c hMem
    exact
      hKept c
        (List.mem_append_left (a :: (h₃ ++ q' :: h₄)) hMem)
  have hReached :
      n ≤ level sets clears
        (h₁ ++ q :: h₂ ++ a :: h₃) := by
    refine le_level_append hFirst ?_
    intro c hMem
    refine hKept c (List.mem_cons_of_mem q ?_)
    refine List.mem_append_right h₂ ?_
    exact List.mem_append_left (q' :: h₄) hMem
  have hSecond :
      level sets clears (h₁ ++ q :: h₂ ++ a :: h₃) ≤ n' := by
    refine
      (hTells (h₁ ++ q :: h₂ ++ a :: h₃ ++ q' :: h₄) a' h₅
        (by simpa using hEq) k' n' hTell' _ q' h₄ rfl
        hAsk' ?_).1
    intro c hMem
    refine hKept c (List.mem_cons_of_mem q ?_)
    refine List.mem_append_right h₂ ?_
    exact List.mem_append_right (a :: h₃) hMem
  exact Nat.le_trans hReached hSecond

end History

------------------------------------------------------------
-- Closings
------------------------------------------------------------

namespace History

variable {ε κ : Type}
variable {opens closes uses : ε → κ → Prop}
variable {h : List ε}
variable {k : κ}

/- `k` was opened, and closed later. -/
def Closed
    (opens closes : ε → κ → Prop) :
    List ε → κ → Prop
| [], _ => False
| e :: h, k =>
    (opens e k ∧ ∃ e' ∈ h, closes e' k) ∨
      Closed opens closes h k

instance decidableClosed
    (opens closes : ε → κ → Prop)
    [∀ e k, Decidable (opens e k)]
    [∀ e k, Decidable (closes e k)] :
    (h : List ε) → (k : κ) →
      Decidable (Closed opens closes h k)
| [], _ => inferInstanceAs (Decidable False)
| e :: h, k =>
    have := decidableClosed opens closes h k
    inferInstanceAs (Decidable
      ((opens e k ∧ ∃ e' ∈ h, closes e' k) ∨
        Closed opens closes h k))

/- What was opened and closed is not used any more. -/
def Final
    (opens closes uses : ε → κ → Prop)
    (h : List ε) : Prop :=
  ∀ h₁ h₂ h₃ h₄ o c u k,
    h = h₁ ++ o :: (h₂ ++ c :: (h₃ ++ u :: h₄)) →
      opens o k →
        closes c k →
          ¬ uses u k

theorem closed_of_split
    {h₁ h₂ h₃ : List ε}
    {o c : ε}
    (hOpen : opens o k)
    (hClose : closes c k) :
    Closed opens closes (h₁ ++ o :: (h₂ ++ c :: h₃)) k := by
  induction h₁ with
  | nil => exact .inl ⟨hOpen, c, by simp, hClose⟩
  | cons e h₁ ih => exact .inr ih

theorem exists_open_of_closed
    (hClosed : Closed opens closes h k) :
    ∃ o ∈ h, opens o k := by
  induction h with
  | nil => cases hClosed
  | cons a h ih =>
      rcases hClosed with ⟨hOpen, _⟩ | hOld
      · exact ⟨a, List.mem_cons_self, hOpen⟩
      · rcases ih hOld with ⟨o, hMem, hOpen⟩
        exact ⟨o, List.mem_cons_of_mem _ hMem, hOpen⟩

/- An event closes what was opened before it. -/
theorem closed_concat
    {e : ε} :
    Closed opens closes (h ++ [e]) k ↔
      Closed opens closes h k ∨
        closes e k ∧ ∃ o ∈ h, opens o k := by
  induction h with
  | nil => simp [Closed]
  | cons a h ih =>
      simp only [List.cons_append, Closed, ih, List.mem_cons,
        List.mem_append, List.mem_nil_iff, or_false,
        exists_eq_or_imp]
      constructor
      · rintro (⟨hOpen, c, hMem | rfl, hClose⟩ |
          hOld | ⟨hClose, hOpened⟩)
        · exact .inl (.inl ⟨hOpen, c, hMem, hClose⟩)
        · exact .inr ⟨hClose, .inl hOpen⟩
        · exact .inl (.inr hOld)
        · exact .inr ⟨hClose, .inr hOpened⟩
      · rintro ((⟨hOpen, c, hMem, hClose⟩ | hOld) |
          ⟨hClose, hOpen | hOpened⟩)
        · exact .inl ⟨hOpen, c, .inl hMem, hClose⟩
        · exact .inr (.inl hOld)
        · exact .inl ⟨hOpen, e, .inr rfl, hClose⟩
        · exact .inr (.inr ⟨hClose, hOpened⟩)

/- Opening or closing more in another naming. -/
theorem Closed.map
    {κ' : Type}
    {opens' closes' : ε → κ' → Prop}
    {k' : κ'}
    (hClosed : Closed opens closes h k)
    (hOpens : ∀ e ∈ h, opens e k → opens' e k')
    (hCloses : ∀ e ∈ h, closes e k → closes' e k') :
    Closed opens' closes' h k' := by
  induction h with
  | nil => cases hClosed
  | cons a h ih =>
      rcases hClosed with ⟨hOpen, c, hMem, hClose⟩ | hOld
      · have hTail := List.mem_cons_of_mem a hMem
        exact
          .inl
            ⟨hOpens a List.mem_cons_self hOpen, c, hMem,
              hCloses c hTail hClose⟩
      · exact
          .inr
            (ih hOld
              (fun e hMem =>
                hOpens e (List.mem_cons_of_mem _ hMem))
              (fun e hMem =>
                hCloses e (List.mem_cons_of_mem _ hMem)))

/- Where no closed name is used, closings are final. -/
theorem final_of_atEach
    (hUses :
      AtEach
        (fun before e =>
          ∀ k, uses e k → ¬ Closed opens closes before k)
        h) :
    Final opens closes uses h := by
  intro h₁ h₂ h₃ h₄ o c u k hEq hOpen hClose hUse
  have hEq' :
      h = (h₁ ++ o :: (h₂ ++ c :: h₃)) ++ u :: h₄ := by
    simpa using hEq
  exact
    hUses _ u h₄ hEq' k hUse (closed_of_split hOpen hClose)

end History

------------------------------------------------------------
-- Alternation
------------------------------------------------------------

namespace History

/- Openings and closings in turn, from the given one on. -/
def Alternate : Bool → List Bool → Prop
| _, [] => True
| b, c :: cs => c = b ∧ Alternate (!b) cs

instance decidableAlternate :
    (b : Bool) → (cs : List Bool) →
      Decidable (Alternate b cs)
| _, [] => inferInstanceAs (Decidable True)
| b, c :: cs =>
    have := decidableAlternate (!b) cs
    inferInstanceAs (Decidable
      (c = b ∧ Alternate (!b) cs))

/- What comes before an event is its opposite or nothing. -/
theorem getLast?_of_alternate
    {b c : Bool}
    {cs ds : List Bool}
    (hAlternate : Alternate b (cs ++ c :: ds)) :
    cs.getLast? = some (!c) ∨ cs = [] ∧ c = b := by
  induction cs generalizing b with
  | nil => exact .inr ⟨rfl, hAlternate.1⟩
  | cons e cs ih =>
      rcases hAlternate with ⟨rfl, hRest⟩
      refine .inl ?_
      rcases ih hRest with hLast | ⟨rfl, rfl⟩
      · rw [List.getLast?_cons, hLast]
        rfl
      · simp

/- At most one opening and then closings. -/
theorem alternate_opened_iff
    (opened : Bool)
    (n : Nat) :
    Alternate true
        ((if opened then [true] else []) ++
          List.replicate n false) ↔
      n ≤ if opened then 1 else 0 := by
  cases opened <;>
    rcases n with _ | _ | n <;>
      simp [Alternate, List.replicate_succ]

end History
