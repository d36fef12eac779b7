import MultiplayerInfra.Kafka.Topic

/-
  The exit of a reader that counts down the partitions it
  waits for: what remained, and what it handled until then.

  Key definitions include:
    * `Kafka.Exit`
    * `Kafka.readLoop`
    * `Kafka.Grows`
    * `Kafka.Expired`

  Key theorems include:
    * `Kafka.readToEnd_eq`
    * `Kafka.readLoop_take`
    * `Kafka.remaining_eq_nil_iff`
    * `Kafka.emptied_iff`
    * `Kafka.processed_iff`

  Records may be appended while the reader polls; it waits
  for those below the watermarks that it read before.
-/

------------------------------------------------------------
-- The Loop and Its Exit
------------------------------------------------------------

namespace Kafka

variable {ε σ : Type}

/- The variables of the loop when it is left. -/
structure Exit (ε : Type) where
  remaining : List Nat
  handled : List (Message ε)

/- The loop of `readToEnd`, with the messages it handles. -/
def readLoop
    (target : Nat → Nat) :
    List Nat → List (Poll ε) → Option (Exit ε)
| [], _ => some { remaining := [], handled := [] }
| p :: remaining, [] =>
    some { remaining := p :: remaining, handled := [] }
| p :: remaining, .silent :: polls =>
    readLoop target (p :: remaining) polls
| _ :: _, .failed :: _ => none
| p :: remaining, .message msg :: polls =>
    (readLoop target
      (if target msg.partition ≤ msg.offset + 1 then
        (p :: remaining).filter (· ≠ msg.partition)
      else p :: remaining)
      polls).map (fun e =>
        { e with handled := msg :: e.handled })

/- The reader handles the messages of the loop in order. -/
theorem readToEnd_eq
    (handle : σ → Message ε → σ)
    (target : Nat → Nat)
    (remaining : List Nat)
    (polls : List (Poll ε))
    (s : σ) :
    readToEnd handle target remaining polls s =
      (readLoop target remaining polls).map (fun e =>
        e.handled.foldl handle s) := by
  fun_induction readToEnd handle target remaining polls s with
  | case1 polls s => cases polls <;> rfl
  | case2 p remaining s => rfl
  | case3 p remaining polls s ih => exact ih
  | case4 => rfl
  | case5 p remaining msg polls s ih =>
      rw [ih, readLoop, Option.map_map]
      rfl

/-
  The loop handles what it polls, until nothing remains or
  there are no more polls.
-/
theorem readLoop_take
    {target : Nat → Nat}
    {remaining : List Nat}
    {polls : List (Poll ε)}
    {e : Exit ε}
    (hLoop : readLoop target remaining polls = some e) :
    ∃ k ≤ polls.length,
      e.handled = messages (polls.take k) ∧
        readLoop target remaining (polls.take k) = some e ∧
        (e.remaining = [] ∨ k = polls.length) := by
  fun_induction readLoop target remaining polls
      generalizing e with
  | case1 polls =>
      cases hLoop
      refine ⟨0, Nat.zero_le _, rfl, ?_, .inl rfl⟩
      rw [List.take_zero, readLoop]
  | case2 p remaining =>
      cases hLoop
      exact ⟨0, Nat.le_refl _, rfl, rfl, .inr rfl⟩
  | case3 p remaining polls ih =>
      rcases ih hLoop with
        ⟨k, hLe, hHandled, hAgain, hStop⟩
      refine ⟨k + 1, ?_, hHandled, hAgain, ?_⟩
      · exact Nat.succ_le_succ hLe
      · rcases hStop with hNone | hAll
        · exact .inl hNone
        · exact .inr (by rw [hAll, List.length_cons])
  | case4 => cases hLoop
  | case5 p remaining msg polls ih =>
      rcases Option.map_eq_some_iff.mp hLoop with
        ⟨e', hRest, rfl⟩
      rcases ih hRest with
        ⟨k, hLe, hHandled, hAgain, hStop⟩
      refine ⟨k + 1, ?_, ?_, ?_, ?_⟩
      · exact Nat.succ_le_succ hLe
      · rw [List.take_succ_cons, messages, hHandled]
      · rw [List.take_succ_cons, readLoop, hAgain]
        rfl
      · rcases hStop with hNone | hAll
        · exact .inl hNone
        · exact .inr (by rw [hAll, List.length_cons])

end Kafka

------------------------------------------------------------
-- Topics That Grow
------------------------------------------------------------

namespace Kafka

variable {ε : Type}

/- Records were appended to the partitions. -/
def Grows (topic grown : Topic ε) : Prop :=
  List.Forall₂
    (fun p p' : Partition ε =>
      p'.low = p.low ∧ p.records <+: p'.records)
    topic grown

/- All records have expired: `low = high > 0`. -/
def Expired (topic : Topic ε) (p : Nat) : Prop :=
  recordsOf topic p = [] ∧ 0 < endOffset topic p

theorem Grows.startOffset
    {topic grown : Topic ε}
    (hGrows : Grows topic grown)
    (p : Nat) :
    startOffset grown p = startOffset topic p := by
  unfold Grows at hGrows
  induction hGrows generalizing p with
  | nil => rfl
  | cons hHead _ ih =>
      cases p with
      | zero => exact hHead.1
      | succ p => exact ih p

theorem Grows.recordsOf
    {topic grown : Topic ε}
    (hGrows : Grows topic grown)
    (p : Nat) :
    recordsOf topic p <+: recordsOf grown p := by
  unfold Grows at hGrows
  induction hGrows generalizing p with
  | nil => exact List.prefix_refl _
  | cons hHead _ ih =>
      cases p with
      | zero => exact hHead.2
      | succ p => exact ih p

theorem mem_unread
    {topic : Topic ε}
    {p : Nat} :
    p ∈ unread topic ↔ 0 < endOffset topic p := by
  unfold unread
  rw [List.mem_filter, List.mem_range, decide_eq_true_eq]
  constructor
  · exact fun h => h.2
  · intro hEnd
    refine ⟨?_, hEnd⟩
    by_contra hOut
    have hNone : topic[p]? = none :=
      List.getElem?_eq_none_iff.mpr (Nat.le_of_not_lt hOut)
    simp [endOffset, hNone] at hEnd

/- One poll for each entry of the schedule. -/
theorem length_deliver
    (topic : Topic ε)
    (pos : Nat → Nat)
    (schedule : List (Option Nat)) :
    (deliver topic pos schedule).length =
      schedule.length := by
  induction schedule generalizing pos with
  | nil => rfl
  | cons choice schedule ih =>
      cases choice with
      | none => simp [deliver, ih]
      | some p =>
          simp only [deliver]
          split <;> simp [ih]

theorem take_deliver
    (topic : Topic ε)
    (pos : Nat → Nat)
    (schedule : List (Option Nat))
    (k : Nat) :
    (deliver topic pos schedule).take k =
      deliver topic pos (schedule.take k) := by
  induction schedule generalizing pos k with
  | nil => simp [deliver]
  | cons choice schedule ih =>
      cases k with
      | zero => rfl
      | succ k =>
          cases choice with
          | none => simp [deliver, ih]
          | some p =>
              simp only [List.take_succ_cons, deliver]
              split <;> simp [ih]

end Kafka

------------------------------------------------------------
-- When Nothing Remains
------------------------------------------------------------

namespace Kafka

variable {ε : Type} {grown : Topic ε} {target : Nat → Nat}

/-
  The next `count` records of a partition, from `pos` on,
  include one that reaches the target.
-/
def ReachesTarget
    (grown : Topic ε)
    (target : Nat → Nat)
    (pos : Nat)
    (p count : Nat) : Prop :=
  ∃ i, pos ≤ i ∧ i < pos + count ∧
    i < (recordsOf grown p).length ∧
      target p ≤ startOffset grown p + i + 1

/- A poll that finds the end of its partition. -/
theorem reachesTarget_of_end
    {pos p count : Nat}
    (hEnd : (recordsOf grown p).length ≤ pos) :
    ¬ ReachesTarget grown target pos p count := by
  rintro ⟨i, hFrom, _, hThere, _⟩
  omega

/- The next record reaches the target, or a later one does. -/
theorem reachesTarget_succ
    {pos p count : Nat}
    (hThere : pos < (recordsOf grown p).length) :
    ReachesTarget grown target pos p (count + 1) ↔
      target p ≤ startOffset grown p + pos + 1 ∨
        ReachesTarget grown target (pos + 1) p count := by
  constructor
  · rintro ⟨i, hFrom, hTo, hLength, hTarget⟩
    rcases Nat.eq_or_lt_of_le hFrom with rfl | hLater
    · exact .inl hTarget
    · exact .inr ⟨i, hLater, by omega, hLength, hTarget⟩
  · rintro (hTarget | ⟨i, hFrom, hTo, hLength, hTarget⟩)
    · exact ⟨pos, Nat.le_refl _, by omega, hThere, hTarget⟩
    · exact ⟨i, by omega, by omega, hLength, hTarget⟩

/- A poll of one partition counts for no other. -/
theorem count_other
    {p p' : Nat}
    (hNe : p' ≠ p)
    (schedule : List (Option Nat)) :
    (some p :: schedule).count (some p') =
      schedule.count (some p') := by
  rw [List.count_cons_of_ne]
  exact fun hEq => hNe (Option.some.inj hEq).symm

/- A poll at the end of a partition changes nothing. -/
theorem forall_rest_of_end
    {pos : Nat → Nat}
    {p : Nat}
    (hEnd : (recordsOf grown p).length ≤ pos p)
    (remaining : List Nat)
    (schedule : List (Option Nat)) :
    (∀ p' ∈ remaining,
      ReachesTarget grown target (pos p') p'
        (schedule.count (some p'))) ↔
      ∀ p' ∈ remaining,
        ReachesTarget grown target (pos p') p'
          ((some p :: schedule).count (some p')) := by
  refine forall₂_congr (fun p' _ => ?_)
  by_cases hSame : p' = p
  · subst hSame
    exact
      iff_of_false (reachesTarget_of_end hEnd)
        (reachesTarget_of_end hEnd)
  · rw [count_other hSame]

/-
  What is still needed after one record of partition `p` was
  handled.
-/
theorem forall_rest_iff
    {pos : Nat → Nat}
    {p : Nat}
    {remaining rest : List Nat}
    (hThere : pos p < (recordsOf grown p).length)
    (hRest :
      (if target p ≤ startOffset grown p + pos p + 1 then
        remaining.filter (· ≠ p)
      else remaining) = rest)
    (schedule : List (Option Nat)) :
    (∀ p' ∈ rest,
      ReachesTarget grown target
        (Function.update pos p (pos p + 1) p') p'
        (schedule.count (some p'))) ↔
      ∀ p' ∈ remaining,
        ReachesTarget grown target (pos p') p'
          ((some p :: schedule).count (some p')) := by
  have hElse :
      ∀ p', p' ≠ p →
        (ReachesTarget grown target
            (Function.update pos p (pos p + 1) p') p'
            (schedule.count (some p')) ↔
          ReachesTarget grown target (pos p') p'
            ((some p :: schedule).count (some p'))) := by
    intro p' hNe
    rw [Function.update_of_ne hNe, count_other hNe]
  have hHere :
      ReachesTarget grown target (pos p) p
          ((some p :: schedule).count (some p)) ↔
        target p ≤ startOffset grown p + pos p + 1 ∨
          ReachesTarget grown target
            (Function.update pos p (pos p + 1) p) p
            (schedule.count (some p)) := by
    rw [List.count_cons_self, Function.update_self]
    exact reachesTarget_succ hThere
  subst hRest
  by_cases hDone :
      target p ≤ startOffset grown p + pos p + 1
  · rw [if_pos hDone]
    constructor
    · intro hAll p' hMem
      by_cases hSame : p' = p
      · subst hSame
        exact hHere.mpr (.inl hDone)
      · refine (hElse p' hSame).mp (hAll p' ?_)
        exact List.mem_filter.mpr ⟨hMem, by simpa using hSame⟩
    · intro hAll p' hMem
      rcases List.mem_filter.mp hMem with ⟨hThere', hNe⟩
      have hNe' : p' ≠ p := by simpa using hNe
      exact (hElse p' hNe').mpr (hAll p' hThere')
  · rw [if_neg hDone]
    refine forall₂_congr (fun p' _ => ?_)
    by_cases hSame : p' = p
    · subst hSame
      rw [hHere, or_iff_right hDone]
    · exact hElse p' hSame

/-
  The loop empties what remains exactly if a record that
  reaches the target is polled of each of these partitions.
-/
theorem remaining_eq_nil_iff
    (grown : Topic ε)
    (target : Nat → Nat)
    (schedule : List (Option Nat))
    (pos : Nat → Nat)
    (remaining : List Nat) :
    ∃ e, readLoop target remaining
          (deliver grown pos schedule) = some e ∧
        (e.remaining = [] ↔
          ∀ p ∈ remaining,
            ReachesTarget grown target (pos p) p
              (schedule.count (some p))) := by
  induction schedule generalizing pos remaining with
  | nil =>
      cases remaining with
      | nil => exact ⟨_, by rw [readLoop], by simp⟩
      | cons q remaining =>
          refine ⟨_, rfl, ?_⟩
          simp only [reduceCtorEq, false_iff, not_forall]
          refine ⟨q, List.mem_cons_self, ?_⟩
          rintro ⟨i, hFrom, hTo, _⟩
          rw [List.count_nil] at hTo
          omega
  | cons choice schedule ih =>
      cases remaining with
      | nil => exact ⟨_, by rw [readLoop], by simp⟩
      | cons q remaining =>
          cases choice with
          | none =>
              simp only [deliver, readLoop]
              rcases ih pos (q :: remaining) with
                ⟨e, hLoop, hIff⟩
              refine ⟨e, hLoop, hIff.trans ?_⟩
              simp
          | some p =>
              cases hNext : (recordsOf grown p)[pos p]? with
              | none =>
                  have hEnd := List.getElem?_eq_none_iff.mp hNext
                  simp only [deliver, hNext, readLoop]
                  rcases ih pos (q :: remaining) with
                    ⟨e, hLoop, hIff⟩
                  exact
                    ⟨e, hLoop,
                      hIff.trans
                        (forall_rest_of_end hEnd _ schedule)⟩
              | some value =>
                  have hThere :=
                    (List.getElem?_eq_some_iff.mp hNext).1
                  simp only [deliver, hNext, readLoop]
                  generalize hRest :
                    (if target p ≤
                        startOffset grown p + pos p + 1 then
                      (q :: remaining).filter (· ≠ p)
                    else q :: remaining) = rest
                  rcases ih
                      (Function.update pos p (pos p + 1))
                      rest with
                    ⟨e, hLoop, hIff⟩
                  let msg : Message ε :=
                    ⟨p, startOffset grown p + pos p, value⟩
                  refine
                    ⟨{ e with handled := msg :: e.handled }, ?_,
                      hIff.trans
                        (forall_rest_iff hThere hRest schedule)⟩
                  rw [hLoop]
                  rfl

/-
  A reader that waits for what the topic held when it grew:
  every partition with an end needs a record that reaches
  it, also one whose records had all expired.
-/
theorem emptied_iff
    {topic : Topic ε}
    (hGrows : Grows topic grown)
    (schedule : List (Option Nat)) :
    (∃ e, readLoop (endOffset topic) (unread topic)
          (deliver grown (fun _ => 0) schedule) = some e ∧
        e.remaining = []) ↔
      Covers topic schedule ∧
        ∀ p, Expired topic p →
          some p ∈ schedule ∧ recordsOf grown p ≠ [] := by
  rcases remaining_eq_nil_iff grown (endOffset topic)
      schedule (fun _ => 0) (unread topic) with
    ⟨e, hLoop, hIff⟩
  have hExit :
      (∃ e', readLoop (endOffset topic) (unread topic)
            (deliver grown (fun _ => 0) schedule) = some e' ∧
          e'.remaining = []) ↔
        e.remaining = [] := by
    rw [hLoop]
    constructor
    · rintro ⟨e', hSame, hNone⟩
      cases hSame
      exact hNone
    · exact fun hNone => ⟨e, rfl, hNone⟩
  have hStart := fun p => hGrows.startOffset p
  have hEnd := fun p => endOffset_eq topic p
  rw [hExit, hIff]
  constructor
  · intro hAll
    constructor
    · intro p
      by_cases hEmpty : (recordsOf topic p).length = 0
      · omega
      · have hUnread : p ∈ unread topic :=
          mem_unread.mpr (by rw [hEnd]; omega)
        rcases hAll p hUnread with
          ⟨i, _, hTo, _, hTarget⟩
        rw [hEnd, hStart] at hTarget
        omega
    · rintro p ⟨hNone, hPositive⟩
      rcases hAll p (mem_unread.mpr hPositive) with
        ⟨i, _, hTo, hLength, _⟩
      constructor
      · apply List.count_pos_iff.mp
        omega
      · intro hNil
        rw [hNil, List.length_nil] at hLength
        omega
  · rintro ⟨hCovers, hExpired⟩ p hUnread
    have hPositive := mem_unread.mp hUnread
    have hCount := hCovers p
    have hPrefix := (hGrows.recordsOf p).length_le
    by_cases hEmpty : recordsOf topic p = []
    · rcases hExpired p ⟨hEmpty, hPositive⟩ with
        ⟨hPolled, hAppended⟩
      have hPolls := List.count_pos_iff.mpr hPolled
      have hLength := List.length_pos_iff.mpr hAppended
      refine ⟨0, Nat.le_refl _, by omega, hLength, ?_⟩
      rw [hEnd, hStart, hEmpty, List.length_nil]
      omega
    · have hLength := List.length_pos_iff.mpr hEmpty
      refine
        ⟨(recordsOf topic p).length - 1, Nat.zero_le _,
          by omega, by omega, ?_⟩
      rw [hEnd, hStart]
      omega

/- A shorter prefix of a list is one of a longer prefix. -/
theorem isPrefix_take
    {l l' : List ε}
    {n : Nat}
    (hPrefix : l <+: l')
    (hLength : l.length ≤ n) :
    l <+: l'.take n := by
  have hSmall : l.length ≤ (l'.take n).length := by
    have hLe := hPrefix.length_le
    rw [List.length_take]
    omega
  exact
    List.prefix_of_prefix_length_le hPrefix
      (List.take_prefix n l') hSmall

/-
  Every record that the topic held is handled exactly if the
  polls are enough for all of them.
-/
theorem processed_iff
    {topic : Topic ε}
    (hGrows : Grows topic grown)
    {schedule : List (Option Nat)}
    {e : Exit ε}
    (hLoop :
      readLoop (endOffset topic) (unread topic)
        (deliver grown (fun _ => 0) schedule) = some e) :
    (∀ p,
      recordsOf topic p <+:
        (e.handled.filter (·.partition = p)).map
          Message.value) ↔
      Covers topic schedule := by
  rcases readLoop_take hLoop with
    ⟨k, hLe, hHandled, hAgain, hStop⟩
  rw [take_deliver] at hHandled hAgain
  have hValues :
      ∀ p,
        (e.handled.filter (·.partition = p)).map
            Message.value =
          (recordsOf grown p).take
            ((schedule.take k).count (some p)) := by
    intro p
    rw [hHandled, values_deliver, List.drop_zero]
  constructor
  · intro hAll p
    have hLength := (hAll p).length_le
    rw [hValues, List.length_take] at hLength
    have hCount :=
      (List.take_sublist k schedule).count_le (some p)
    omega
  · intro hCovers p
    have hTaken : Covers topic (schedule.take k) := by
      rcases hStop with hNone | hAll
      · exact
          ((emptied_iff hGrows (schedule.take k)).mp
            ⟨e, hAgain, hNone⟩).1
      · rw [length_deliver] at hAll
        rw [hAll, List.take_length]
        exact hCovers
    rw [hValues]
    exact isPrefix_take (hGrows.recordsOf p) (hTaken p)

end Kafka
