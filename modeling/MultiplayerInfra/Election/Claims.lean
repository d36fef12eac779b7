import MultiplayerInfra.Election.LeaderElection

/-
  What an election thread claims: the lease that it leads on,
  from the transaction that won it.

  Key definitions include:
    * `Election.LeaderElection.Claims`
    * `Election.LeaderElection.Placed`
    * `Election.LeaderElection.Ending`
    * `Election.LeaderElection.Moves`

  Key theorems include:
    * `Election.LeaderElection.moves_proceed`
    * `Election.LeaderElection.moves_returned`
    * `Election.LeaderElection.claims_reply`

  Only the reply to a transaction gives a thread a new claim;
  the code between two calls can at most drop it.
-/

------------------------------------------------------------
-- Claims
------------------------------------------------------------

namespace Election

open Etcd

/- The calls of a leader. -/
def Call.Leading : Call → Prop
| .campaignPut _ => True
| .serveGet => True
| .serveRefresh _ => True
| _ => False

/- The calls of a thread that has given up its lease. -/
def Call.Ending : Call → Prop
| .cleanupDelete => True
| .cleanupDeleteAddress => True
| _ => False

namespace LeaderElection

/- The thread leads on a lease, or has won it unknowingly. -/
def Claims (r : LeaderElection) (lease : Nat) : Prop :=
  r.lease = some lease ∧
    (r.isLeader = true ∨
      r.point = .calling (.campaignTxn lease) (some (.txn true)))

/- A lease that the thread holds or has been granted. -/
def Knows (r : LeaderElection) (lease : Nat) : Prop :=
  r.lease = some lease ∨
    r.point = .calling .campaignLease (some (.granted lease))

/- Where a leader is: elsewhere `is_leader` is not set. -/
def Leading (r : LeaderElection) : Prop :=
  match r.point with
  | .run => r.stop = true
  | .serving => True
  | .calling c _ => c.Leading
  | .crashed => True
  | .waiting => False
  | .finished => False

/- A thread at the end of `_cleanup`, or past it. -/
def Ending (r : LeaderElection) : Prop :=
  r.isLeader = false ∧
    match r.point with
    | .calling c _ => c.Ending
    | .finished => True
    | .crashed => True
    | .run => False
    | .serving => False
    | .waiting => False

/- What the place of a thread says about its fields. -/
structure Placed (r : LeaderElection) : Prop where
  leading : r.isLeader = true → r.Leading
  txn :
    ∀ lease reply,
      r.point = .calling (.campaignTxn lease) reply →
        r.lease = some lease

/- A thread that ends claims nothing. -/
theorem Ending.not_claims
    {r : LeaderElection}
    (hEnding : r.Ending)
    (lease : Nat) :
    ¬ r.Claims lease := by
  rintro ⟨_, hLeader | hWon⟩
  · rw [hEnding.1] at hLeader
    cases hLeader
  · have hPoint := hEnding.2
    rw [hWon] at hPoint
    exact hPoint

/- A thread that does not lead, outside the transaction. -/
theorem placed_of_not_leader
    {r : LeaderElection}
    (hLeader : r.isLeader = false)
    (hPoint :
      ∀ lease reply,
        r.point ≠ .calling (.campaignTxn lease) reply) :
    r.Placed := by
  constructor
  · intro hTrue
    rw [hLeader] at hTrue
    cases hTrue
  · intro lease reply hTxn
    exact absurd hTxn (hPoint lease reply)

/- `_revoke_lease` only makes a call. -/
theorem revokeLease_eq_call
    (r : LeaderElection)
    (revoke : Nat → Call)
    (next : Call) :
    ∃ c, r.revokeLease revoke next = r.call c ∧
      (c = next ∨ ∃ lease, c = revoke lease) := by
  unfold revokeLease
  cases r.lease with
  | none => exact ⟨next, rfl, .inl rfl⟩
  | some lease => exact ⟨revoke lease, rfl, .inr ⟨lease, rfl⟩⟩

/- A thread that starts a call has no reply yet. -/
theorem claims_call
    {r : LeaderElection}
    {c : Call}
    {lease : Nat}
    (hClaims : (r.call c).Claims lease) :
    r.lease = some lease ∧ r.isLeader = true := by
  rcases hClaims with ⟨hLease, hLeader | hWon⟩
  · exact ⟨hLease, hLeader⟩
  · cases hWon

theorem knows_call
    {r : LeaderElection}
    {c : Call}
    {lease : Nat}
    (hKnows : (r.call c).Knows lease) :
    r.lease = some lease := by
  rcases hKnows with hLease | hGranted
  · exact hLease
  · cases hGranted

theorem claims_revokeLease
    {r : LeaderElection}
    {revoke : Nat → Call}
    {next : Call}
    {lease : Nat}
    (hClaims : (r.revokeLease revoke next).Claims lease) :
    r.lease = some lease ∧ r.isLeader = true := by
  rcases revokeLease_eq_call r revoke next with ⟨c, hEq, _⟩
  rw [hEq] at hClaims
  exact claims_call hClaims

theorem knows_revokeLease
    {r : LeaderElection}
    {revoke : Nat → Call}
    {next : Call}
    {lease : Nat}
    (hKnows : (r.revokeLease revoke next).Knows lease) :
    r.lease = some lease := by
  rcases revokeLease_eq_call r revoke next with ⟨c, hEq, _⟩
  rw [hEq] at hKnows
  exact knows_call hKnows

/- `_revoke_lease` keeps a thread that does not lead placed. -/
theorem placed_revokeLease
    {r : LeaderElection}
    (hLeader : r.isLeader = false)
    {revoke : Nat → Call}
    {next : Call}
    (hRevoke : ∀ l lease, revoke l ≠ .campaignTxn lease)
    (hNext : ∀ lease, next ≠ .campaignTxn lease) :
    (r.revokeLease revoke next).Placed := by
  rcases revokeLease_eq_call r revoke next with ⟨c, hEq, hCall⟩
  rw [hEq]
  refine placed_of_not_leader hLeader ?_
  intro lease reply hTxn
  injection hTxn with hC _
  rcases hCall with rfl | ⟨l, rfl⟩
  · exact hNext lease hC
  · exact hRevoke l lease hC

end LeaderElection

end Election

------------------------------------------------------------
-- Steps of a Thread
------------------------------------------------------------

namespace Election

open Etcd

namespace LeaderElection

/-
  What the code between two calls can do: the thread claims
  and knows no lease that it did not claim or know before.
-/
structure Moves (r r' : LeaderElection) : Prop where
  placed : r'.Placed
  claims : ∀ lease, r'.Claims lease → r.Claims lease
  knows : ∀ lease, r'.Knows lease → r.Knows lease

/- A move to a loop head or a call that keeps the fields. -/
theorem moves_to
    {r : LeaderElection}
    {point : Point}
    (hLeading :
      r.isLeader = true → { r with point := point }.Leading)
    (hPoint : ∀ c reply, point = .calling c reply →
      reply = none ∧ ∀ lease, c ≠ .campaignTxn lease) :
    r.Moves { r with point := point } := by
  refine ⟨⟨hLeading, ?_⟩, ?_, ?_⟩
  · intro lease reply hTxn
    exact absurd rfl ((hPoint _ _ hTxn).2 lease)
  · rintro lease ⟨hLease, hLeader | hWon⟩
    · exact ⟨hLease, .inl hLeader⟩
    · cases (hPoint _ _ hWon).1
  · rintro lease (hLease | hGranted)
    · exact .inl hLease
    · cases (hPoint _ _ hGranted).1

/- Giving up `is_leader` and then revoking the lease. -/
theorem moves_giveUp
    {r : LeaderElection}
    {revoke : Nat → Call}
    {next : Call}
    (hRevoke : ∀ l lease, revoke l ≠ .campaignTxn lease)
    (hNext : ∀ lease, next ≠ .campaignTxn lease) :
    r.Moves
      ({ r with isLeader := false }.revokeLease
        revoke next) := by
  refine ⟨placed_revokeLease rfl hRevoke hNext, ?_, ?_⟩
  · intro lease hClaims
    cases (claims_revokeLease hClaims).2
  · intro lease hKnows
    have hLease := knows_revokeLease hKnows
    exact .inl hLease

/- Dropping the lease, without leading. -/
theorem moves_dropLease
    {r : LeaderElection}
    {point : Point}
    (hLeader : r.isLeader ≠ true)
    (hPoint : ∀ c reply, point = .calling c reply →
      reply = none ∧ ∀ lease, c ≠ .campaignTxn lease) :
    r.Moves { r with lease := none, point := point } := by
  refine ⟨⟨fun hTrue => absurd hTrue hLeader, ?_⟩, ?_, ?_⟩
  · intro lease reply hTxn
    exact absurd rfl ((hPoint _ _ hTxn).2 lease)
  · rintro lease ⟨hLease, _⟩
    cases hLease
  · rintro lease (hLease | hGranted)
    · cases hLease
    · cases (hPoint _ _ hGranted).1

/- `_dispatch` touches none of the fields. -/
theorem Moves.dispatch
    {r r' : LeaderElection}
    (hMoves : r.Moves r')
    (callback : Callback) :
    r.Moves (r'.dispatch callback) :=
  ⟨⟨hMoves.placed.leading, hMoves.placed.txn⟩,
    hMoves.claims, hMoves.knows⟩

theorem moves_loseLeadership (r : LeaderElection) :
    r.Moves r.loseLeadership := by
  unfold loseLeadership
  split
  · exact moves_giveUp (by simp) (by simp)
  · rename_i hLeader
    exact moves_to (fun hTrue => absurd hTrue hLeader) (by simp)

/- A loop head. -/
theorem moves_proceed
    {r r' : LeaderElection}
    (hPlaced : r.Placed)
    (hStep : r.proceed = some r') :
    r.Moves r' := by
  unfold proceed at hStep
  split at hStep
  · rename_i hPoint
    cases hStep
    split
    · exact moves_giveUp (by simp) (by simp)
    · rename_i hStop
      have hFalse : r.isLeader = false := by
        by_contra hLeader
        have hLeads := hPlaced.leading (by simpa using hLeader)
        rw [Leading, hPoint] at hLeads
        exact hStop hLeads
      refine ⟨placed_revokeLease hFalse (by simp) (by simp), ?_, ?_⟩
      · intro lease hClaims
        rw [campaign] at hClaims
        cases hFalse.symm.trans (claims_revokeLease hClaims).2
      · intro lease hKnows
        exact .inl (knows_revokeLease hKnows)
  · cases hStep
    split
    · exact moves_to (fun _ => trivial) (by simp)
    · rename_i hNot
      refine moves_to ?_ (by simp)
      intro hLeader
      have hStop : r.stop = true := by
        simpa [hLeader] using hNot
      exact hStop
  · rename_i hPoint
    have hFalse : r.isLeader ≠ true := by
      intro hLeader
      have hLeads := hPlaced.leading hLeader
      rw [Leading, hPoint] at hLeads
      exact hLeads
    cases hStep
    split <;>
      exact
        moves_to (fun hTrue => absurd hTrue hFalse) (by simp)
  · cases hStep
  · cases hStep
  · cases hStep

/- A lease arrives, and the transaction under it starts. -/
theorem moves_granted
    {r : LeaderElection}
    {lease : Nat}
    (hLeader : r.isLeader ≠ true)
    (hGranted :
      r.point =
        .calling .campaignLease (some (.granted lease))) :
    r.Moves
      ({ r with lease := some lease }.call
        (.campaignTxn lease)) := by
  refine ⟨⟨fun hTrue => absurd hTrue hLeader, ?_⟩, ?_, ?_⟩
  · intro l reply hTxn
    cases hTxn
    rfl
  · intro l hClaims
    exact absurd (claims_call hClaims).2 hLeader
  · intro l hKnows
    cases knows_call hKnows
    exact .inr hGranted

/- The thread learns that its transaction has won. -/
theorem moves_won
    {r : LeaderElection}
    {lease : Nat}
    (hPlaced : r.Placed)
    (hWon :
      r.point =
        .calling (.campaignTxn lease) (some (.txn true))) :
    r.Moves
      ({ r with isLeader := true }.call
        (.campaignPut lease)) := by
  have hLease := hPlaced.txn lease _ hWon
  refine ⟨⟨fun _ => trivial, ?_⟩, ?_, ?_⟩
  · intro l reply hTxn
    cases hTxn
  · intro l hClaims
    have hSame : r.lease = some l := (claims_call hClaims).1
    cases hLease.symm.trans hSame
    exact ⟨hLease, .inr hWon⟩
  · intro l hKnows
    have hSame : r.lease = some l := knows_call hKnows
    exact .inl hSame

/-
  The return of a call.  The answer is the reply of the
  server, or none if the call raised.
-/
theorem moves_returned
    {config : Config}
    {r : LeaderElection}
    {c : Call}
    {reply answer : Option Reply}
    (hPlaced : r.Placed)
    (hPoint : r.point = .calling c reply)
    (hAnswer : answer = none ∨ answer = reply) :
    r.Moves (r.returned config answer c) := by
  have hLeads : ¬ c.Leading → r.isLeader ≠ true := by
    intro hNot hLeader
    have hLeading := hPlaced.leading hLeader
    rw [Leading, hPoint] at hLeading
    exact hNot hLeading
  cases c with
  | campaignRevoke lease =>
      exact moves_dropLease (hLeads id) (by simp)
  | campaignLease =>
      simp only [returned]
      split
      · rcases hAnswer with hNone | hReply
        · cases hNone
        · exact moves_granted (hLeads id) (hReply ▸ hPoint)
      · exact moves_dropLease (hLeads id) (by simp)
  | campaignTxn lease =>
      have hFalse := hLeads id
      simp only [returned]
      split
      · rcases hAnswer with hNone | hReply
        · cases hNone
        · exact moves_won hPlaced (hReply ▸ hPoint)
      · exact
          moves_to (fun hTrue => absurd hTrue hFalse) (by simp)
      · exact moves_dropLease hFalse (by simp)
  | campaignPut lease =>
      have hServing : r.Moves { r with point := .serving } :=
        moves_to (fun _ => trivial) (by simp)
      exact hServing.dispatch _
  | serveGet =>
      simp only [returned]
      split
      · split
        · split
          · exact moves_to (fun _ => trivial) (by simp)
          · exact moves_loseLeadership r
        · exact moves_loseLeadership r
      · exact moves_loseLeadership r
  | serveRefresh lease =>
      simp only [returned]
      split
      · exact moves_to (fun _ => trivial) (by simp)
      · exact moves_loseLeadership r
  | loseRevoke lease =>
      exact moves_dropLease (hLeads id) (by simp)
  | loseDeleteAddress =>
      have hFalse := hLeads id
      exact
        (moves_to (fun hTrue => absurd hTrue hFalse)
          (by simp)).dispatch _
  | waitGet =>
      have hFalse := hLeads id
      simp only [returned]
      split <;>
        exact
          moves_to (fun hTrue => absurd hTrue hFalse) (by simp)
  | cleanupRevoke lease =>
      exact moves_dropLease (hLeads id) (by simp)
  | cleanupDelete =>
      have hFalse := hLeads id
      exact
        moves_to (fun hTrue => absurd hTrue hFalse) (by simp)
  | cleanupDeleteAddress =>
      have hFalse := hLeads id
      exact
        moves_to (fun hTrue => absurd hTrue hFalse) (by simp)

/- A thread that ends goes on ending. -/
theorem ending_returned
    {config : Config}
    {r : LeaderElection}
    {c : Call}
    {reply answer : Option Reply}
    (hPoint : r.point = .calling c reply)
    (hEnding : r.Ending) :
    (r.returned config answer c).Ending := by
  rcases hEnding with ⟨hFalse, hEnds⟩
  rw [hPoint] at hEnds
  cases c <;> first | exact ⟨hFalse, trivial⟩ | cases hEnds

/- It stands at no loop head. -/
theorem ending_proceed
    {r r' : LeaderElection}
    (hStep : r.proceed = some r')
    (hEnding : r.Ending) :
    r'.Ending := by
  rcases hEnding with ⟨_, hEnds⟩
  unfold proceed at hStep
  split at hStep <;> rename_i hPoint <;>
    rw [hPoint] at hEnds
  · cases hEnds
  · cases hEnds
  · cases hEnds
  · cases hStep
  · cases hStep
  · cases hStep

/- `step_down` only stops the loops. -/
theorem moves_stepDown
    {r : LeaderElection}
    (hPlaced : r.Placed) :
    r.Moves { r with stop := true } := by
  refine ⟨⟨?_, hPlaced.txn⟩, fun _ => id, fun _ => id⟩
  intro hLeader
  have hLeading := hPlaced.leading hLeader
  unfold Leading at hLeading ⊢
  split <;> simp_all

theorem moves_crash (r : LeaderElection) :
    r.Moves { r with point := .crashed } :=
  moves_to (fun _ => trivial) (by simp)

/- A reply that has not been read yet. -/
def reply
    (r : LeaderElection)
    (c : Call)
    (answer : Reply) : LeaderElection :=
  { r with point := .calling c (some answer) }

theorem placed_reply
    {r : LeaderElection}
    {c : Call}
    {answer : Reply}
    (hPlaced : r.Placed)
    (hPoint : r.point = .calling c none) :
    (r.reply c answer).Placed := by
  constructor
  · intro hLeader
    have hLeading := hPlaced.leading hLeader
    rw [Leading, hPoint] at hLeading
    exact hLeading
  · intro lease reply hTxn
    injection hTxn with hC _
    exact hPlaced.txn lease none (hC ▸ hPoint)

/- A new claim is the reply to a transaction that succeeded. -/
theorem claims_reply
    {r : LeaderElection}
    {c : Call}
    {answer : Reply}
    {lease : Nat}
    (hClaims : (r.reply c answer).Claims lease) :
    r.Claims lease ∨
      (c = .campaignTxn lease ∧ answer = .txn true) := by
  rcases hClaims with ⟨hLease, hLeader | hWon⟩
  · exact .inl ⟨hLease, .inl hLeader⟩
  · injection hWon with hC hReply
    exact .inr ⟨hC, Option.some.inj hReply⟩

theorem knows_reply
    {r : LeaderElection}
    {c : Call}
    {answer : Reply}
    {lease : Nat}
    (hKnows : (r.reply c answer).Knows lease) :
    r.Knows lease ∨
      (c = .campaignLease ∧ answer = .granted lease) := by
  rcases hKnows with hLease | hGranted
  · exact .inl (.inl hLease)
  · injection hGranted with hC hReply
    exact .inr ⟨hC, Option.some.inj hReply⟩

end LeaderElection

end Election
