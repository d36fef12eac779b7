import Mathlib.Logic.Function.Basic

/-
  A key-value server with leases and one-key transactions.

  Key definitions include:
    * `Etcd.Server`
    * `Etcd.Request`
    * `Etcd.Server.serve`
    * `Etcd.Request.Touches`
    * `Etcd.Request.Writes`

  Key theorems include:
    * `Etcd.Server.keys_serve_of_not_touches`
    * `Etcd.Server.leases_serve`
    * `Etcd.Server.keys_serve_create`
    * `Etcd.Server.get_of_serve`

  A key is attached to at most one lease.  A lease that ends
  takes its keys with it, so an entry whose lease is over
  cannot be built.
-/

------------------------------------------------------------
-- Servers
------------------------------------------------------------

namespace Etcd

/- A stored value and the lease that it is attached to. -/
structure Entry (ν : Type) where
  value : ν
  lease : Option Nat
deriving DecidableEq, Repr

/-
  The keys, the leases that are alive, and the identifier of
  the next lease.
-/
structure Server (κ ν : Type) where
  keys : κ → Option (Entry ν)
  leases : List Nat
  nextLease : Nat
  fresh : ∀ l ∈ leases, l < nextLease
  attached :
    ∀ k e, keys k = some e →
      ∀ l ∈ e.lease, l ∈ leases

/- What a client can ask for. -/
inductive Request (κ ν : Type) where
  | grant
  | revoke (lease : Nat)
  | refresh (lease : Nat)
  | get (key : κ)
  | put (key : κ) (value : ν) (lease : Nat)
  | create (key : κ) (value : ν) (lease : Nat)
  | deleteIf (key : κ) (value : ν)
deriving DecidableEq, Repr

/-
  What the server answers.  `rejected` reaches the client as
  an exception.
-/
inductive Response (ν : Type) where
  | granted (lease : Nat)
  | done
  | value (found : Option ν)
  | txn (succeeded : Bool)
  | rejected
deriving DecidableEq, Repr

end Etcd

------------------------------------------------------------
-- Operations
------------------------------------------------------------

namespace Etcd

namespace Server

variable {κ ν : Type}

/- A server without keys and leases. -/
def empty : Server κ ν where
  keys := fun _ => none
  leases := []
  nextLease := 0
  fresh := by
    intro l hLive
    cases hLive
  attached := by
    intro k e hKey
    cases hKey

/- Add a lease under a new identifier. -/
def grant (s : Server κ ν) : Server κ ν where
  keys := s.keys
  leases := s.nextLease :: s.leases
  nextLease := s.nextLease + 1
  fresh := by
    intro l hLive
    rcases List.mem_cons.mp hLive with rfl | hOld
    · exact Nat.lt_succ_self _
    · exact Nat.lt_succ_of_lt (s.fresh l hOld)
  attached := by
    intro k e hKey l hLease
    exact List.mem_cons_of_mem _ (s.attached k e hKey l hLease)

/- End a lease, by expiry or revocation, with its keys. -/
def endLease (s : Server κ ν) (lease : Nat) :
    Server κ ν where
  keys :=
    fun k => (s.keys k).filter (fun e => e.lease ≠ some lease)
  leases := s.leases.filter (fun l => l ≠ lease)
  nextLease := s.nextLease
  fresh := by
    intro l hLive
    exact s.fresh l (List.mem_filter.mp hLive).1
  attached := by
    intro k e hKey l hLease
    rcases Option.filter_eq_some_iff.mp hKey with
      ⟨hOld, hOther⟩
    apply List.mem_filter.mpr
    refine ⟨s.attached k e hOld l hLease, ?_⟩
    have hNe : e.lease ≠ some lease := by
      simpa using hOther
    rw [Option.mem_def.mp hLease] at hNe
    simpa using fun hEq : l = lease => hNe (hEq ▸ rfl)

variable [DecidableEq κ]

/- Write a key under a lease that is alive. -/
def write
    (s : Server κ ν)
    (key : κ)
    (value : ν)
    (lease : Nat)
    (hLive : lease ∈ s.leases) :
    Server κ ν where
  keys :=
    Function.update s.keys key (some ⟨value, some lease⟩)
  leases := s.leases
  nextLease := s.nextLease
  fresh := s.fresh
  attached := by
    intro k e hKey l hLease
    by_cases hSame : k = key
    · subst hSame
      rw [Function.update_self] at hKey
      cases hKey
      cases hLease
      exact hLive
    · rw [Function.update_of_ne hSame] at hKey
      exact s.attached k e hKey l hLease

/- Delete a key. -/
def delete (s : Server κ ν) (key : κ) : Server κ ν where
  keys := Function.update s.keys key none
  leases := s.leases
  nextLease := s.nextLease
  fresh := s.fresh
  attached := by
    intro k e hKey
    by_cases hSame : k = key
    · subst hSame
      rw [Function.update_self] at hKey
      cases hKey
    · rw [Function.update_of_ne hSame] at hKey
      exact s.attached k e hKey

/- The value of a key. -/
def get (s : Server κ ν) (key : κ) : Option ν :=
  (s.keys key).map Entry.value

variable [DecidableEq ν]

/-
  Execute one request atomically.  A write under a lease that
  is over is rejected; `create` writes a key without a
  version, `deleteIf` deletes a key with the given value.
-/
def serve (s : Server κ ν) :
    Request κ ν → Server κ ν × Response ν
| .grant => (s.grant, .granted s.nextLease)
| .revoke lease =>
    if lease ∈ s.leases then (s.endLease lease, .done)
    else (s, .rejected)
| .refresh _ => (s, .done)
| .get key => (s, .value (s.get key))
| .put key value lease =>
    if hLive : lease ∈ s.leases then
      (s.write key value lease hLive, .done)
    else (s, .rejected)
| .create key value lease =>
    if s.keys key = none then
      if hLive : lease ∈ s.leases then
        (s.write key value lease hLive, .txn true)
      else (s, .rejected)
    else (s, .txn false)
| .deleteIf key value =>
    if s.get key = some value then (s.delete key, .txn true)
    else (s, .txn false)

end Server

end Etcd

------------------------------------------------------------
-- What a Request Can Change
------------------------------------------------------------

namespace Etcd

/- The requests that may replace or delete a held entry. -/
def Request.Touches
    {κ ν : Type}
    (key : κ)
    (value : ν) : Request κ ν → Prop
| .put key' _ _ => key' = key
| .deleteIf key' value' => key' = key ∧ value' = value
| _ => False

namespace Server

variable {κ ν : Type}

/- A lease that is alive afterwards was alive, and not ended. -/
theorem mem_leases_endLease
    {s : Server κ ν}
    {lease l : Nat} :
    l ∈ (s.endLease lease).leases ↔
      l ∈ s.leases ∧ l ≠ lease := by
  simp [endLease]

/- The end of another lease keeps an entry. -/
theorem keys_endLease
    {s : Server κ ν}
    {lease l : Nat}
    {key : κ}
    {value : ν}
    (hKey : s.keys key = some ⟨value, some l⟩)
    (hNe : l ≠ lease) :
    (s.endLease lease).keys key =
      some ⟨value, some l⟩ := by
  simp [endLease, hKey, Option.filter, hNe]

variable [DecidableEq κ] [DecidableEq ν]

/- A lease that is alive after a request was alive or is new. -/
theorem leases_serve
    {s : Server κ ν}
    {request : Request κ ν}
    {l : Nat}
    (hLive : l ∈ (s.serve request).1.leases) :
    l ∈ s.leases ∨
      (request = .grant ∧ l = s.nextLease) := by
  cases request with
  | grant =>
      rcases List.mem_cons.mp hLive with hNew | hOld
      · exact .inr ⟨rfl, hNew⟩
      · exact .inl hOld
  | revoke lease =>
      simp only [serve] at hLive
      split at hLive
      · exact .inl (mem_leases_endLease.mp hLive).1
      · exact .inl hLive
  | refresh lease => exact .inl hLive
  | get key => exact .inl hLive
  | put key value lease =>
      simp only [serve] at hLive
      split at hLive <;> exact .inl hLive
  | create key value lease =>
      simp only [serve] at hLive
      split at hLive
      · split at hLive <;> exact .inl hLive
      · exact .inl hLive
  | deleteIf key value =>
      simp only [serve] at hLive
      split at hLive <;> exact .inl hLive

/- Identifiers of leases are not given out twice. -/
theorem nextLease_le_serve
    (s : Server κ ν)
    (request : Request κ ν) :
    s.nextLease ≤ (s.serve request).1.nextLease := by
  cases request with
  | grant => exact Nat.le_succ _
  | revoke lease =>
      simp only [serve]
      split <;> exact Nat.le_refl _
  | refresh lease => exact Nat.le_refl _
  | get key => exact Nat.le_refl _
  | put key value lease =>
      simp only [serve]
      split <;> exact Nat.le_refl _
  | create key value lease =>
      simp only [serve]
      split
      · split <;> exact Nat.le_refl _
      · exact Nat.le_refl _
  | deleteIf key value =>
      simp only [serve]
      split <;> exact Nat.le_refl _

/-
  While its lease is alive, an entry stays as it is under
  every request that does not touch it.
-/
theorem keys_serve_of_not_touches
    {s : Server κ ν}
    {request : Request κ ν}
    {key : κ}
    {value : ν}
    {l : Nat}
    (hKey : s.keys key = some ⟨value, some l⟩)
    (hNot : ¬ request.Touches key value)
    (hLive : l ∈ (s.serve request).1.leases) :
    (s.serve request).1.keys key =
      some ⟨value, some l⟩ := by
  cases request with
  | grant => exact hKey
  | revoke lease =>
      simp only [serve] at hLive ⊢
      split
      · rename_i hOn
        rw [if_pos hOn] at hLive
        exact keys_endLease hKey (mem_leases_endLease.mp hLive).2
      · exact hKey
  | refresh lease => exact hKey
  | get key' => exact hKey
  | put key' value' lease =>
      have hNe : key ≠ key' := fun hEq => hNot hEq.symm
      simp only [serve]
      split
      · exact (Function.update_of_ne hNe _ _).trans hKey
      · exact hKey
  | create key' value' lease =>
      simp only [serve]
      split
      · rename_i hAbsent
        have hNe : key ≠ key' := by
          rintro rfl
          rw [hKey] at hAbsent
          cases hAbsent
        split
        · exact (Function.update_of_ne hNe _ _).trans hKey
        · exact hKey
      · exact hKey
  | deleteIf key' value' =>
      simp only [serve]
      split
      · rename_i hHeld
        have hNe : key ≠ key' := by
          rintro rfl
          rw [get, hKey] at hHeld
          exact hNot ⟨rfl, (Option.some.inj hHeld).symm⟩
        exact (Function.update_of_ne hNe _ _).trans hKey
      · exact hKey

/- A creation that succeeds leaves the entry it asked for. -/
theorem keys_serve_create
    {s : Server κ ν}
    {key : κ}
    {value : ν}
    {lease : Nat}
    (hWon :
      (s.serve (.create key value lease)).2 = .txn true) :
    (s.serve (.create key value lease)).1.keys key =
      some ⟨value, some lease⟩ := by
  simp only [serve] at hWon ⊢
  split at hWon
  · rename_i hAbsent
    split at hWon
    · rename_i hLive
      rw [if_pos hAbsent, dif_pos hLive]
      exact Function.update_self _ _ _
    · cases hWon
  · cases hWon

end Server

end Etcd

------------------------------------------------------------
-- What a Request Can Write
------------------------------------------------------------

namespace Etcd

/- The requests that give a key a value. -/
def Request.Writes
    {κ ν : Type}
    (key : κ)
    (value : ν) : Request κ ν → Prop
| .put key' value' _ => key' = key ∧ value' = value
| .create key' value' _ => key' = key ∧ value' = value
| _ => False

namespace Server

variable {κ ν : Type}
variable {s : Server κ ν}
variable {key : κ}
variable {value : ν}

/- The end of a lease gives no key a value. -/
theorem get_of_endLease
    {lease : Nat}
    (hGet : (s.endLease lease).get key = some value) :
    s.get key = some value := by
  rcases Option.map_eq_some_iff.mp hGet with
    ⟨entry, hEntry, hValue⟩
  have hOld := (Option.filter_eq_some_iff.mp hEntry).1
  rw [get, hOld, Option.map_some, hValue]

variable [DecidableEq κ]

theorem get_of_write
    {key' : κ}
    {value' : ν}
    {lease : Nat}
    (hLive : lease ∈ s.leases)
    (hGet :
      (s.write key' value' lease hLive).get key =
        some value) :
    s.get key = some value ∨ key' = key ∧ value' = value := by
  by_cases hSame : key = key'
  · subst hSame
    right
    simpa [get, write] using hGet
  · left
    simpa [get, write, hSame] using hGet

variable [DecidableEq ν]

/- A value was there before, or is the one written. -/
theorem get_of_serve
    {request : Request κ ν}
    (hGet : (s.serve request).1.get key = some value) :
    s.get key = some value ∨ request.Writes key value := by
  cases request with
  | grant => exact .inl hGet
  | revoke lease =>
      simp only [serve] at hGet
      split at hGet
      · exact .inl (get_of_endLease hGet)
      · exact .inl hGet
  | refresh lease => exact .inl hGet
  | get key' => exact .inl hGet
  | put key' value' lease =>
      simp only [serve] at hGet
      split at hGet
      · exact get_of_write ‹_› hGet
      · exact .inl hGet
  | create key' value' lease =>
      simp only [serve] at hGet
      split at hGet
      · split at hGet
        · exact get_of_write ‹_› hGet
        · exact .inl hGet
      · exact .inl hGet
  | deleteIf key' value' =>
      left
      simp only [serve] at hGet
      split at hGet
      · by_cases hSame : key = key'
        · simp [get, delete, hSame] at hGet
        · simpa [get, delete, hSame] using hGet
      · exact hGet

end Server

end Etcd
