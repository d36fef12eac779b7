import Mathlib.Data.List.Basic

/-
  A topic as its consumer sees it: partitions with
  watermarks, polls, and a reader that stops once every
  partition has been read up to its end.

  Key definitions include:
    * `Kafka.Partition`
    * `Kafka.Message`
    * `Kafka.deliver`
    * `Kafka.readToEnd`
    * `Kafka.Covers`

  Key theorems include:
    * `Kafka.readToEnd_invariant`
    * `Kafka.values_deliver`
    * `Kafka.readToEnd_deliver`
    * `Kafka.filter_messages_of_keyed`
    * `Kafka.values_deliver_single`

  Order is kept inside a partition only: a schedule says
  from which partition each poll is answered.
-/

------------------------------------------------------------
-- Partitions and Polls
------------------------------------------------------------

namespace Kafka

variable {ε : Type}

/- The retained records; the first one has offset `low`. -/
structure Partition (ε : Type) where
  low : Nat
  records : List ε
deriving DecidableEq

/- The high watermark: the offset of the next record. -/
def Partition.high (p : Partition ε) : Nat :=
  p.low + p.records.length

/- The partitions of a topic, by number. -/
abbrev Topic (ε : Type) :=
  List (Partition ε)

structure Message (ε : Type) where
  partition : Nat
  offset : Nat
  value : ε
deriving DecidableEq

/- The result of one `consumer.poll`. -/
inductive Poll (ε : Type) where
  | silent
  | failed
  | message (msg : Message ε)
deriving DecidableEq

/- The messages among the results of polls. -/
def messages : List (Poll ε) → List (Message ε)
| [] => []
| .silent :: polls => messages polls
| .failed :: polls => messages polls
| .message msg :: polls => msg :: messages polls

/- The records of a partition that a topic has, if any. -/
def recordsOf
    (topic : Topic ε)
    (p : Nat) :
    List ε :=
  (topic[p]?.map Partition.records).getD []

/- The end offset of a partition, `0` for an unknown one. -/
def endOffset
    (topic : Topic ε)
    (p : Nat) :
    Nat :=
  (topic[p]?.map Partition.high).getD 0

/- The start offset of a partition, `0` for an unknown one. -/
def startOffset
    (topic : Topic ε)
    (p : Nat) :
    Nat :=
  (topic[p]?.map Partition.low).getD 0

/-
  The polls of a consumer that has read `pos p` records of
  each partition `p`.  A poll answered from partition `p`
  returns its next record, or nothing at its end.
-/
def deliver
    (topic : Topic ε) :
    (Nat → Nat) → List (Option Nat) → List (Poll ε)
| _, [] => []
| pos, none :: schedule =>
    .silent :: deliver topic pos schedule
| pos, some p :: schedule =>
    match (recordsOf topic p)[pos p]? with
    | none => .silent :: deliver topic pos schedule
    | some value =>
        .message {
          partition := p
          offset := startOffset topic p + pos p
          value := value } ::
          deliver topic
            (Function.update pos p (pos p + 1)) schedule

/- A schedule long enough to reach the end everywhere. -/
def Covers
    (topic : Topic ε)
    (schedule : List (Option Nat)) : Prop :=
  ∀ p,
    (recordsOf topic p).length ≤ schedule.count (some p)

end Kafka

------------------------------------------------------------
-- Reading to the End
------------------------------------------------------------

namespace Kafka

variable {ε σ : Type}

/- The partitions that a reader waits for: those with an end. -/
def unread (topic : Topic ε) : List Nat :=
  (List.range topic.length).filter
    (fun p => 0 < endOffset topic p)

/-
  Handle messages until nothing remains or the polls run out
  at the deadline; a failed poll raises.
-/
def readToEnd
    (handle : σ → Message ε → σ)
    (target : Nat → Nat) :
    List Nat → List (Poll ε) → σ → Option σ
| [], _, s => some s
| _ :: _, [], s => some s
| p :: remaining, .silent :: polls, s =>
    readToEnd handle target (p :: remaining) polls s
| _ :: _, .failed :: _, _ => none
| p :: remaining, .message msg :: polls, s =>
    readToEnd handle target
      (if target msg.partition ≤ msg.offset + 1 then
        (p :: remaining).filter (· ≠ msg.partition)
      else p :: remaining)
      polls (handle s msg)

/-
  What every message keeps holds at the end of the read.
-/
theorem readToEnd_invariant
    {handle : σ → Message ε → σ}
    {target : Nat → Nat}
    {I : σ → Prop}
    {remaining : List Nat}
    {polls : List (Poll ε)}
    {s t : σ}
    (hRead :
      readToEnd handle target remaining polls s = some t)
    (hInit : I s)
    (hKeeps :
      ∀ msg ∈ messages polls, ∀ s, I s → I (handle s msg)) :
    I t := by
  fun_induction readToEnd handle target remaining polls s with
  | case1 polls s =>
      cases hRead
      exact hInit
  | case2 p remaining s =>
      cases hRead
      exact hInit
  | case3 p remaining polls s ih =>
      exact ih hRead hInit hKeeps
  | case4 => cases hRead
  | case5 p remaining msg polls s ih =>
      refine ih hRead ?_ ?_
      · exact hKeeps msg List.mem_cons_self s hInit
      · intro msg' hMem
        exact hKeeps msg' (List.mem_cons_of_mem _ hMem)

end Kafka

------------------------------------------------------------
-- What Is Delivered
------------------------------------------------------------

namespace Kafka

variable {ε σ : Type}
variable (topic : Topic ε)

/- A topic's partition ends where its records end. -/
theorem endOffset_eq
    (p : Nat) :
    endOffset topic p =
      startOffset topic p + (recordsOf topic p).length := by
  unfold endOffset startOffset recordsOf
  cases topic[p]? with
  | none => rfl
  | some partition => rfl

/-
  The messages of one partition are consecutive records, as
  many as there were polls for it.
-/
theorem values_deliver
    (pos : Nat → Nat)
    (schedule : List (Option Nat))
    (p : Nat) :
    ((messages (deliver topic pos schedule)).filter
        (·.partition = p)).map Message.value =
      ((recordsOf topic p).drop (pos p)).take
        (schedule.count (some p)) := by
  induction schedule generalizing pos with
  | nil => simp [deliver, messages]
  | cons choice schedule ih =>
      cases choice with
      | none =>
          simp [deliver, messages, ih]
      | some q =>
          cases hNext : (recordsOf topic q)[pos q]? with
          | none =>
              simp only [deliver, hNext, messages, ih]
              by_cases hEq : q = p
              · subst hEq
                have hEnd :=
                  List.getElem?_eq_none_iff.mp hNext
                simp [List.drop_eq_nil_of_le hEnd]
              · simp [hEq]
          | some value =>
              simp only [deliver, hNext, messages]
              by_cases hEq : q = p
              · subst hEq
                rcases List.getElem?_eq_some_iff.mp hNext with
                  ⟨hLt, hValue⟩
                rw [List.filter_cons_of_pos (by simp),
                  List.map_cons, ih,
                  List.drop_eq_getElem_cons hLt,
                  List.count_cons_self, List.take_succ_cons,
                  hValue, Function.update_self]
              · rw [List.filter_cons_of_neg (by simp [hEq]), ih]
                have hOther :
                    Function.update pos q (pos q + 1) p =
                      pos p :=
                  Function.update_of_ne (Ne.symm hEq) _ _
                rw [hOther]
                simp [hEq]

/- A covering schedule delivers every record. -/
theorem values_deliver_of_covers
    {schedule : List (Option Nat)}
    (hCovers : Covers topic schedule)
    (p : Nat) :
    ((messages (deliver topic (fun _ => 0) schedule)).filter
        (·.partition = p)).map Message.value =
      recordsOf topic p := by
  rw [values_deliver, List.drop_zero]
  exact List.take_of_length_le (hCovers p)

/- Nothing is delivered once every partition is read. -/
theorem messages_deliver_of_exhausted
    {pos : Nat → Nat}
    (hDone : ∀ p, (recordsOf topic p).length ≤ pos p)
    (schedule : List (Option Nat)) :
    messages (deliver topic pos schedule) = [] := by
  induction schedule with
  | nil => rfl
  | cons choice schedule ih =>
      cases choice with
      | none => simpa [deliver, messages] using ih
      | some p =>
          have hNone : (recordsOf topic p)[pos p]? = none :=
            List.getElem?_eq_none_iff.mpr (hDone p)
          simpa [deliver, messages, hNone] using ih

/- Only the partitions of the topic have records. -/
theorem lt_length_of_record
    {p i : Nat}
    {value : ε}
    (hRecord : (recordsOf topic p)[i]? = some value) :
    p < topic.length := by
  by_contra hOut
  have hNone : topic[p]? = none :=
    List.getElem?_eq_none_iff.mpr (Nat.le_of_not_lt hOut)
  simp [recordsOf, hNone] at hRecord

/- A delivered message is a record of its partition. -/
theorem mem_recordsOf_of_delivered
    {pos : Nat → Nat}
    {schedule : List (Option Nat)}
    {msg : Message ε}
    (hMsg : msg ∈ messages (deliver topic pos schedule)) :
    msg.value ∈ recordsOf topic msg.partition := by
  have hFilter :
      msg ∈
        (messages (deliver topic pos schedule)).filter
          (·.partition = msg.partition) :=
    List.mem_filter.mpr ⟨hMsg, by simp⟩
  have hValue := List.mem_map_of_mem (f := Message.value) hFilter
  rw [values_deliver] at hValue
  exact List.mem_of_mem_drop (List.mem_of_mem_take hValue)

/-
  Stopping when nothing remains loses no message: the reader
  handles everything that the schedule delivers.
-/
theorem readToEnd_deliver_aux
    (handle : σ → Message ε → σ)
    (schedule : List (Option Nat))
    {pos : Nat → Nat}
    {remaining : List Nat}
    (hRead :
      ∀ p, p ∉ remaining →
        (recordsOf topic p).length ≤ pos p)
    (s : σ) :
    readToEnd handle (endOffset topic) remaining
        (deliver topic pos schedule) s =
      some ((messages (deliver topic pos schedule)).foldl
        handle s) := by
  induction schedule generalizing pos remaining s with
  | nil =>
      cases remaining <;> rfl
  | cons choice schedule ih =>
      cases remaining with
      | nil =>
          have hDone := messages_deliver_of_exhausted topic
            (fun p => hRead p (by simp)) (choice :: schedule)
          rw [hDone]
          unfold readToEnd
          rfl
      | cons q remaining =>
          cases choice with
          | none =>
              exact ih hRead s
          | some p =>
              cases hNext : (recordsOf topic p)[pos p]? with
              | none =>
                  simp only [deliver, hNext, readToEnd,
                    messages]
                  exact ih hRead s
              | some value =>
                  simp only [deliver, hNext, readToEnd,
                    messages, List.foldl_cons]
                  apply ih
                  intro p' hOut
                  by_cases hEq : p' = p
                  · subst hEq
                    rw [Function.update_self]
                    have hLt :=
                      (List.getElem?_eq_some_iff.mp hNext).1
                    by_cases hEnd :
                        endOffset topic p' ≤
                          startOffset topic p' + pos p' + 1
                    · rw [endOffset_eq] at hEnd
                      omega
                    · rw [if_neg hEnd] at hOut
                      have hOld := hRead p' hOut
                      omega
                  · rw [Function.update_of_ne hEq]
                    apply hRead
                    intro hMem
                    apply hOut
                    split
                    · exact List.mem_filter.mpr
                        ⟨hMem, by simpa using hEq⟩
                    · exact hMem

/- A reader that starts at the low watermarks. -/
theorem readToEnd_deliver
    (handle : σ → Message ε → σ)
    (schedule : List (Option Nat))
    (s : σ) :
    readToEnd handle (endOffset topic) (unread topic)
        (deliver topic (fun _ => 0) schedule) s =
      some
        ((messages
          (deliver topic (fun _ => 0) schedule)).foldl
            handle s) := by
  apply readToEnd_deliver_aux
  intro p hOut
  by_contra hLong
  have hLt : 0 < (recordsOf topic p).length := by
    omega
  have hRecord :
      (recordsOf topic p)[0]? =
        some (recordsOf topic p)[0] :=
    List.getElem?_eq_getElem hLt
  apply hOut
  apply List.mem_filter.mpr
  refine ⟨List.mem_range.mpr
    (lt_length_of_record topic hRecord), ?_⟩
  have hEnd := endOffset_eq topic p
  simp only [decide_eq_true_eq]
  omega

/-
  When all records that satisfy `own` are in partition `p`,
  they are delivered in the order in which they were stored.
-/
theorem filter_messages_of_keyed
    (own : ε → Bool)
    (p : Nat)
    {schedule : List (Option Nat)}
    (hKeyed :
      ∀ q, ∀ e ∈ recordsOf topic q, own e = true → q = p)
    (hCovers : Covers topic schedule) :
    ((messages (deliver topic (fun _ => 0) schedule)).map
        Message.value).filter own =
      (recordsOf topic p).filter own := by
  have hAt :
      ∀ msg ∈
        messages (deliver topic (fun _ => 0) schedule),
          own msg.value = true → msg.partition = p := by
    intro msg hMsg hOwn
    exact hKeyed msg.partition msg.value
      (mem_recordsOf_of_delivered topic hMsg) hOwn
  rw [← values_deliver_of_covers topic hCovers p]
  generalize
    messages (deliver topic (fun _ => 0) schedule) = msgs
      at hAt
  induction msgs with
  | nil => rfl
  | cons msg msgs ih =>
      have hRest := ih (fun m hMem =>
        hAt m (List.mem_cons_of_mem _ hMem))
      by_cases hOwn : own msg.value = true
      · have hHere := hAt msg (by simp) hOwn
        simp [hOwn, hHere, hRest]
      · by_cases hHere : msg.partition = p
        · simp [hOwn, hHere, hRest]
        · simp [hOwn, hHere, hRest]

/- The only partition of a topic is delivered in order. -/
theorem values_deliver_single
    (p : Partition ε)
    {schedule : List (Option Nat)}
    (hLong : p.records.length ≤ schedule.count (some 0)) :
    (messages (deliver [p] (fun _ => 0) schedule)).map
        Message.value =
      p.records := by
  have hKeyed :
      ∀ q, ∀ e ∈ recordsOf [p] q, true = true → q = 0 := by
    intro q e hMem _
    rcases q with _ | q
    · rfl
    · simp [recordsOf] at hMem
  have hCovers : Covers [p] schedule := by
    intro q
    rcases q with _ | q
    · simpa [recordsOf] using hLong
    · simp [recordsOf]
  have hAll :=
    filter_messages_of_keyed [p] (fun _ => true) 0 hKeyed
      hCovers
  rw [List.filter_true, List.filter_true] at hAll
  rw [hAll]
  rfl

end Kafka
