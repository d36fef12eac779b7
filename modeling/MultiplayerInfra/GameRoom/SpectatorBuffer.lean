/-
  The ring buffer from which spectators see the match with a
  delay.

  Key definitions include:
    * `GameRoom.SpectatorRingBuffer`
    * `GameRoom.SpectatorRingBuffer.append`
    * `GameRoom.SpectatorRingBuffer.getDelayedState`
    * `GameRoom.SpectatorRingBuffer.Holds`
    * `GameRoom.SpectatorRingBuffer.appendRun`

  Key theorems include:
    * `GameRoom.SpectatorRingBuffer.Holds.append`
    * `GameRoom.SpectatorRingBuffer.getDelayedState_spec`
    * `GameRoom.SpectatorRingBuffer.exact_delay_line`
-/

------------------------------------------------------------
-- Ring Buffer
------------------------------------------------------------

namespace GameRoom

/- Entries are pairs of a tick and the state of that tick. -/
structure SpectatorRingBuffer (σ : Type) where
  buffer : List (Nat × σ)
  maxSize : Nat
  delayTicks : Nat

namespace SpectatorRingBuffer

variable {σ : Type}

def empty
    (maxSize delayTicks : Nat) :
    SpectatorRingBuffer σ where
  buffer := []
  maxSize := maxSize
  delayTicks := delayTicks

/- Append an entry, dropping the oldest one past the size. -/
def append
    (buf : SpectatorRingBuffer σ)
    (tick : Nat)
    (state : σ) :
    SpectatorRingBuffer σ :=
  let buffer := buf.buffer ++ [(tick, state)]
  { buf with
    buffer :=
      if buf.maxSize < buffer.length then buffer.tail
      else buffer }

/-
  The newest state that is at least `delay_ticks` old, or
  else the oldest one.  The target tick may be negative.
-/
def getDelayedState
    (buf : SpectatorRingBuffer σ)
    (currentTick : Nat) :
    Option σ :=
  let targetTick := (currentTick : Int) - buf.delayTicks
  match
    buf.buffer.reverse.find?
      (fun entry => (entry.1 : Int) ≤ targetTick) with
  | some entry => some entry.2
  | none => buf.buffer.head?.map Prod.snd

end SpectatorRingBuffer

end GameRoom

------------------------------------------------------------
-- Consecutive Ticks
------------------------------------------------------------

namespace GameRoom

namespace SpectatorRingBuffer

variable {σ : Type}

/- The last of the ticks after `first` up to `last`. -/
structure Holds
    (buf : SpectatorRingBuffer σ)
    (first last : Nat) : Prop where
  ordered : first ≤ last
  size : buf.buffer.length = min (last - first) buf.maxSize
  ticks :
    buf.buffer.map Prod.fst =
      List.range' (last + 1 - buf.buffer.length)
        buf.buffer.length

theorem holds_empty
    (maxSize delayTicks tick : Nat) :
    Holds
      (empty maxSize delayTicks : SpectatorRingBuffer σ)
      tick tick where
  ordered := Nat.le_refl tick
  size := by simp [empty]
  ticks := rfl

/- Appending the next tick. -/
theorem Holds.append
    {buf : SpectatorRingBuffer σ}
    {first last : Nat}
    (hHolds : buf.Holds first last)
    (state : σ) :
    (buf.append (last + 1) state).Holds first (last + 1) := by
  rcases hHolds with ⟨hOrder, hSize, hTicks⟩
  have hAll :
      (buf.buffer ++ [(last + 1, state)]).map Prod.fst =
        List.range' (last + 1 - buf.buffer.length)
          (buf.buffer.length + 1) := by
    rw [List.map_append, hTicks, List.range'_concat]
    have hNext :
        last + 1 - buf.buffer.length +
            1 * buf.buffer.length =
          last + 1 := by
      omega
    rw [hNext]
    rfl
  by_cases hFull : buf.maxSize < buf.buffer.length + 1
  · have hBuffer :
        (buf.append (last + 1) state).buffer =
          (buf.buffer ++ [(last + 1, state)]).tail := by
      simp [SpectatorRingBuffer.append, hFull]
    refine ⟨by omega, ?_, ?_⟩
    · rw [hBuffer]
      simp only [SpectatorRingBuffer.append,
        List.length_tail, List.length_append,
        List.length_singleton]
      omega
    · rw [hBuffer, List.map_tail, hAll, List.tail_range']
      simp only [List.length_tail, List.length_append,
        List.length_singleton]
      congr 1
      omega
  · have hBuffer :
        (buf.append (last + 1) state).buffer =
          buf.buffer ++ [(last + 1, state)] := by
      simp [SpectatorRingBuffer.append, hFull]
    refine ⟨by omega, ?_, ?_⟩
    · rw [hBuffer]
      simp only [SpectatorRingBuffer.append,
        List.length_append, List.length_singleton]
      omega
    · rw [hBuffer, hAll]
      simp only [List.length_append, List.length_singleton]
      congr 1
      omega

/-
  The state that is found is old enough, if the oldest entry
  is, and is that of the oldest entry otherwise.
-/
theorem getDelayedState_spec
    {buf : SpectatorRingBuffer σ}
    {oldest : Nat × σ}
    (hOldest : buf.buffer.head? = some oldest)
    (current : Nat) :
    ∃ entry ∈ buf.buffer,
      buf.getDelayedState current = some entry.2 ∧
        (oldest.1 + buf.delayTicks ≤ current →
          entry.1 + buf.delayTicks ≤ current) ∧
        (¬ oldest.1 + buf.delayTicks ≤ current →
          entry.1 + buf.delayTicks ≤ current ∨
            entry = oldest) := by
  have hMem : oldest ∈ buf.buffer :=
    List.mem_of_mem_head? hOldest
  cases hFind :
      buf.buffer.reverse.find? (fun entry =>
        (entry.1 : Int) ≤ (current : Int) - buf.delayTicks) with
  | some entry =>
      have hOld := List.find?_some hFind
      simp only [decide_eq_true_eq] at hOld
      have hEnough :
          entry.1 + buf.delayTicks ≤ current := by
        omega
      exact
        ⟨entry,
          List.mem_reverse.mp (List.mem_of_find?_eq_some hFind),
          by simp [getDelayedState, hFind],
          fun _ => hEnough, fun _ => .inl hEnough⟩
  | none =>
      have hNone :=
        List.find?_eq_none.mp hFind oldest
          (List.mem_reverse.mpr hMem)
      simp only [decide_eq_true_eq] at hNone
      exact
        ⟨oldest, hMem,
          by simp [getDelayedState, hFind, hOldest],
          fun hOld => absurd (by omega) hNone,
          fun _ => .inr rfl⟩

end SpectatorRingBuffer

end GameRoom

------------------------------------------------------------
-- Delay Line
------------------------------------------------------------

namespace GameRoom

namespace SpectatorRingBuffer

variable {σ : Type}

/- The buffer after `n` appends, at ticks from `first` on. -/
def appendRun
    (buf : SpectatorRingBuffer σ)
    (states : Nat → σ)
    (first : Nat) :
    Nat → SpectatorRingBuffer σ
| 0 => buf
| n + 1 =>
    (appendRun buf states first n).append (first + n)
      (states (first + n))

/- The entries of `count` ticks, up to but not including `last`. -/
def entriesBefore
    (states : Nat → σ)
    (last count : Nat) : List (Nat × σ) :=
  (List.range' (last - count) count).map (fun tick =>
    (tick, states tick))

theorem maxSize_appendRun
    (buf : SpectatorRingBuffer σ)
    (states : Nat → σ)
    (first n : Nat) :
    (appendRun buf states first n).maxSize = buf.maxSize := by
  induction n with
  | zero => rfl
  | succ n ih => exact ih

theorem delayTicks_appendRun
    (buf : SpectatorRingBuffer σ)
    (states : Nat → σ)
    (first n : Nat) :
    (appendRun buf states first n).delayTicks =
      buf.delayTicks := by
  induction n with
  | zero => rfl
  | succ n ih => exact ih

/- One more entry, with nothing dropped. -/
theorem entriesBefore_concat
    (states : Nat → σ)
    {last count : Nat}
    (hCount : count ≤ last) :
    entriesBefore states last count ++
        [(last, states last)] =
      entriesBefore states (last + 1) (count + 1) := by
  unfold entriesBefore
  rw [List.range'_concat, List.map_append]
  have hStart : last + 1 - (count + 1) = last - count := by
    omega
  have hLast : last - count + 1 * count = last := by
    omega
  rw [hStart, hLast]
  rfl

/- The oldest entry is dropped. -/
theorem tail_entriesBefore
    (states : Nat → σ)
    {last count : Nat}
    (hCount : count + 1 ≤ last) :
    (entriesBefore states last (count + 1)).tail =
      entriesBefore states last count := by
  unfold entriesBefore
  rw [← List.map_tail, List.tail_range']
  have hStart : last - (count + 1) + 1 = last - count := by
    omega
  rw [hStart]
  rfl

/- The buffer holds the last entries that it has room for. -/
theorem buffer_appendRun
    (maxSize delayTicks : Nat)
    (states : Nat → σ)
    (first n : Nat) :
    (appendRun (empty maxSize delayTicks) states first
        n).buffer =
      entriesBefore states (first + n) (min n maxSize) := by
  induction n with
  | zero =>
      simp [appendRun, empty, entriesBefore]
  | succ n ih =>
      have hAll :
          (appendRun (empty maxSize delayTicks) states first
                n).buffer ++
              [(first + n, states (first + n))] =
            entriesBefore states (first + n + 1)
              (min n maxSize + 1) := by
        rw [ih]
        apply entriesBefore_concat
        omega
      have hLength :
          (entriesBefore states (first + n + 1)
            (min n maxSize + 1)).length =
            min n maxSize + 1 := by
        simp [entriesBefore]
      simp only [appendRun, append, hAll, hLength,
        maxSize_appendRun]
      by_cases hFull : maxSize < min n maxSize + 1
      · have hSize : min (n + 1) maxSize = min n maxSize := by
          omega
        have hFull' :
            (empty maxSize delayTicks :
              SpectatorRingBuffer σ).maxSize <
                min n maxSize + 1 := hFull
        rw [if_pos hFull', hSize]
        apply tail_entriesBefore
        omega
      · have hSize :
            min (n + 1) maxSize = min n maxSize + 1 := by
          omega
        have hFits :
            ¬ (empty maxSize delayTicks :
              SpectatorRingBuffer σ).maxSize <
                min n maxSize + 1 := hFull
        rw [if_neg hFits, hSize]
        rfl

/- A tick that is still held is found from the newest on. -/
theorem find?_entriesBefore
    (states : Nat → σ)
    {last count tick : Nat}
    (hCount : count ≤ last)
    (hFrom : last - count ≤ tick)
    (hBefore : tick < last) :
    (entriesBefore states last count).reverse.find?
        (fun entry => (entry.1 : Int) ≤ tick) =
      some (tick, states tick) := by
  induction count generalizing last with
  | zero => omega
  | succ count ih =>
      cases last with
      | zero => omega
      | succ last =>
          rw [← entriesBefore_concat states (by omega),
            List.reverse_append, List.reverse_singleton,
            List.singleton_append]
          by_cases hNewest : tick = last
          · subst hNewest
            rw [List.find?_cons_of_pos (by simp)]
          · have hOlder : ¬ (last : Int) ≤ tick := by
              omega
            rw [List.find?_cons_of_neg (by simpa using hOlder)]
            exact ih (by omega) (by omega) (by omega)

/- Nothing is found before the oldest entry. -/
theorem find?_entriesBefore_eq_none
    (states : Nat → σ)
    {last count : Nat}
    {target : Int}
    (hTarget : target < (last - count : Nat)) :
    (entriesBefore states last count).reverse.find?
        (fun entry => (entry.1 : Int) ≤ target) = none := by
  rw [List.find?_eq_none]
  intro entry hMem
  rw [List.mem_reverse, entriesBefore, List.mem_map] at hMem
  rcases hMem with ⟨tick, hTick, rfl⟩
  have hFrom := (List.mem_range'_1.mp hTick).1
  simp only [decide_eq_true_eq]
  omega

/-
  After appends at the ticks from `s` to `t` the buffer holds
  the last of them, and the delayed state is that of
  `delay_ticks` ago, or of the first tick.
-/
theorem exact_delay_line
    {maxSize delayTicks : Nat}
    (hSize : delayTicks + 1 ≤ maxSize)
    (states : Nat → σ)
    {s t : Nat}
    (hRun : s ≤ t) :
    (appendRun (empty maxSize delayTicks) states s
        (t + 1 - s)).buffer =
        (List.range' (t + 1 - min (t - s + 1) maxSize)
          (min (t - s + 1) maxSize)).map (fun tick =>
            (tick, states tick)) ∧
      (appendRun (empty maxSize delayTicks) states s
          (t + 1 - s)).getDelayedState t =
        some (states (max s (t - delayTicks))) := by
  have hTicks : s + (t + 1 - s) = t + 1 := by
    omega
  have hCount : t + 1 - s = t - s + 1 := by
    omega
  have hBuffer :
      (appendRun (empty maxSize delayTicks) states s
          (t + 1 - s)).buffer =
        entriesBefore states (t + 1)
          (min (t - s + 1) maxSize) := by
    have hRun :=
      buffer_appendRun maxSize delayTicks states s (t + 1 - s)
    rw [hTicks] at hRun
    rw [hRun, hCount]
  refine ⟨hBuffer, ?_⟩
  have hDelay :
      (appendRun (empty maxSize delayTicks) states s
          (t + 1 - s)).delayTicks = delayTicks :=
    delayTicks_appendRun _ _ _ _
  unfold getDelayedState
  simp only [hBuffer, hDelay]
  by_cases hElapsed : s + delayTicks ≤ t
  · have hTarget :
        (t : Int) - delayTicks = (t - delayTicks : Nat) := by
      omega
    have hMax : max s (t - delayTicks) = t - delayTicks := by
      omega
    rw [hTarget, hMax,
      find?_entriesBefore states (by omega) (by omega)
        (by omega)]
  · -- the first tick has not been dropped yet
    have hAll : min (t - s + 1) maxSize = t - s + 1 := by
      omega
    have hMax : max s (t - delayTicks) = s := by
      omega
    rw [hAll, hMax,
      find?_entriesBefore_eq_none states (by omega)]
    have hFirst : t + 1 - (t - s + 1) = s := by
      omega
    simp [entriesBefore, List.range'_succ, hFirst]

/- Five ticks from a takeover on, with the least room. -/
theorem exact_delay_line_takeover :
    (appendRun (empty 3 2) (fun tick => tick * 10) 7
        (11 + 1 - 7)).buffer =
        (List.range' (11 + 1 - min (11 - 7 + 1) 3)
          (min (11 - 7 + 1) 3)).map (fun tick =>
            (tick, tick * 10)) ∧
      (appendRun (empty 3 2) (fun tick => tick * 10) 7
          (11 + 1 - 7)).getDelayedState 11 =
        some (max 7 (11 - 2) * 10) :=
  exact_delay_line (by omega) (fun tick => tick * 10)
    (by omega)

end SpectatorRingBuffer

end GameRoom
