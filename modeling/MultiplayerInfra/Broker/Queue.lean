import Mathlib.Data.List.Perm.Basic

/-
  A queue of a message broker: messages that are ready, that
  were delivered and wait for an acknowledgement, and that
  have left.

  Key definitions include:
    * `Broker.Queue`
    * `Broker.Queue.deliver`
    * `Broker.Queue.requeue`
    * `Broker.Queue.all`

  Key theorems include:
    * `Broker.Queue.perm_publish`
    * `Broker.Queue.perm_deliver`
    * `Broker.Queue.perm_ack`
    * `Broker.Queue.perm_requeue`

  When a channel closes, what was delivered on it is ready
  again.  Only the first ready message may expire.
-/

------------------------------------------------------------
-- Operations
------------------------------------------------------------

namespace Broker

variable {M : Type}

structure Queue (M : Type) where
  ready : List M
  unacked : List M
  acked : List M
  -- rejected or expired
  dead : List M
deriving DecidableEq

namespace Queue

def empty : Queue M where
  ready := []
  unacked := []
  acked := []
  dead := []

/- Every message that was published, wherever it is. -/
def all (q : Queue M) : List M :=
  q.ready ++ (q.unacked ++ (q.acked ++ q.dead))

def publish (q : Queue M) (m : M) : Queue M :=
  { q with ready := q.ready ++ [m] }

/- The first message goes to a consumer. -/
def deliver (q : Queue M) : Option (M × Queue M) :=
  match q.ready with
  | [] => none
  | m :: rest =>
      some
        (m,
          { q with
            ready := rest
            unacked := q.unacked ++ [m] })

/- The first message is too old. -/
def expire (q : Queue M) : Option (M × Queue M) :=
  match q.ready with
  | [] => none
  | m :: rest =>
      some (m, { q with ready := rest, dead := q.dead ++ [m] })

/- A channel closes. -/
def requeue (q : Queue M) : Queue M :=
  { q with ready := q.unacked ++ q.ready, unacked := [] }

variable [DecidableEq M]

def ack (q : Queue M) (m : M) : Queue M :=
  { q with
    unacked := q.unacked.erase m
    acked := q.acked ++ [m] }

/- `reject` without `requeue`. -/
def reject (q : Queue M) (m : M) : Queue M :=
  { q with
    unacked := q.unacked.erase m
    dead := q.dead ++ [m] }

end Queue

end Broker

------------------------------------------------------------
-- Nothing Is Lost
------------------------------------------------------------

namespace Broker

namespace Queue

variable {M : Type} {q q' : Queue M} {m : M}

/- What else the first message leaves as it is. -/
theorem of_deliver
    (hDeliver : q.deliver = some (m, q')) :
    q'.unacked = q.unacked ++ [m] ∧
      q'.acked = q.acked ∧ q'.dead = q.dead := by
  unfold deliver at hDeliver
  split at hDeliver
  · cases hDeliver
  · cases hDeliver
    exact ⟨rfl, rfl, rfl⟩

theorem of_expire
    (hExpire : q.expire = some (m, q')) :
    q'.unacked = q.unacked ∧
      q'.acked = q.acked ∧ q'.dead = q.dead ++ [m] := by
  unfold expire at hExpire
  split at hExpire
  · cases hExpire
  · cases hExpire
    exact ⟨rfl, rfl, rfl⟩

variable [DecidableEq M]

/- How often a message is in each place. -/
theorem count_all
    (q : Queue M)
    (x : M) :
    q.all.count x =
      q.ready.count x + q.unacked.count x +
        q.acked.count x + q.dead.count x := by
  simp only [all, List.count_append]
  omega

theorem perm_publish :
    (q.publish m).all.Perm (q.all ++ [m]) := by
  rw [List.perm_iff_count]
  intro x
  rw [List.count_append, count_all, count_all]
  simp only [publish, List.count_append]
  omega

theorem perm_deliver
    (hDeliver : q.deliver = some (m, q')) :
    q'.all.Perm q.all := by
  unfold deliver at hDeliver
  split at hDeliver
  · cases hDeliver
  · rename_i rest hReady
    cases hDeliver
    rw [List.perm_iff_count]
    intro x
    simp only [count_all, hReady, List.count_append,
      List.count_cons, List.count_nil]
    omega

theorem perm_expire
    (hExpire : q.expire = some (m, q')) :
    q'.all.Perm q.all := by
  unfold expire at hExpire
  split at hExpire
  · cases hExpire
  · rename_i rest hReady
    cases hExpire
    rw [List.perm_iff_count]
    intro x
    simp only [count_all, hReady, List.count_append,
      List.count_cons, List.count_nil]
    omega

theorem perm_requeue :
    q.requeue.all.Perm q.all := by
  rw [List.perm_iff_count]
  intro x
  simp only [count_all, requeue, List.count_append,
    List.count_nil]
  omega

/- What is taken out of the unacknowledged messages. -/
theorem count_erase_add
    (hMem : m ∈ q.unacked)
    (x : M) :
    (q.unacked.erase m).count x + [m].count x =
      q.unacked.count x := by
  have hPerm := (List.perm_cons_erase hMem).count_eq x
  rw [hPerm]
  simp only [List.count_cons, List.count_nil, Nat.zero_add]

theorem perm_ack
    (hMem : m ∈ q.unacked) :
    (q.ack m).all.Perm q.all := by
  rw [List.perm_iff_count]
  intro x
  have hErase := count_erase_add hMem x
  simp only [count_all, ack, List.count_append]
  omega

theorem perm_reject
    (hMem : m ∈ q.unacked) :
    (q.reject m).all.Perm q.all := by
  rw [List.perm_iff_count]
  intro x
  have hErase := count_erase_add hMem x
  simp only [count_all, reject, List.count_append]
  omega

end Queue

end Broker
