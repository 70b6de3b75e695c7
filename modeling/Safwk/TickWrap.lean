import Safwk.DependencyWait

/-!
# The tick counter past its end

The wait for dependencies has a branch for a counter that has wrapped past
`INT64_MAX`. The time passed since `start` is then `INT64_MAX - start + finish + 1`;
the code has the two readings the other way round, and its sum exceeds `INT64_MAX`
for every pair that takes the branch. Without a wrap the duration is the elapsed time
and the loop is left at the first reading that reaches the timeout.
-/

namespace TickWrap

open AbilityRegistry DependencyWait Signed

/-- The duration is computed without overflow, is a value from 0 to `INT64_MAX`, and is
the number of ticks from one reading to the other on the wrapping counter. -/
def DurationOk (start finish : Tick) : Prop :=
  ∃ passed, duration start finish = some passed ∧ 0 ≤ passed ∧ passed ≤ int64Max ∧
    passed = (finish.count - start.count) % 2 ^ 63

theorem duration_of_lt {start finish : Tick} (wrapped : finish.count < start.count) :
    duration start finish = none := by
  have lower := finish.nonneg
  have upper := finish.le_max
  simp only [int64Max] at upper
  have fits : Fits 64 (int64Max - finish.count) := by
    rw [fits64_iff]
    simp only [int64Max]
    omega
  have overflows : ¬Fits 64 (int64Max - finish.count + start.count) := by
    rw [fits64_iff]
    simp only [int64Max]
    omega
  rw [duration, if_neg (not_le.mpr wrapped), checked_of_fits fits, Option.bind_some,
    checked_of_not_fits overflows]

theorem durationOk_iff (start finish : Tick) :
    DurationOk start finish ↔ start.count ≤ finish.count := by
  constructor
  · rintro ⟨passed, computed, -⟩
    by_contra wrapped
    rw [duration_of_lt (not_le.mp wrapped)] at computed
    cases computed
  · intro forward
    have lower := start.nonneg
    have upper := finish.le_max
    simp only [int64Max] at upper
    refine ⟨finish.count - start.count, duration_of_le forward, by omega, ?_, ?_⟩
    · simp only [int64Max]
      omega
    · rw [Int.emod_eq_of_lt]
      · omega
      · omega

/-- The ticks from the beginning of the call to the reading of turn `k`, on the wrapping
counter. -/
def elapsedTicks (W : World) (k : Nat) : Int :=
  ((W.clock (k + 1)).count - (W.clock 0).count) % 2 ^ 63

theorem waited_eq_elapsedTicks {W : World} {k : Nat}
    (ok : DurationOk (W.clock 0) (W.clock (k + 1))) : waited W k = elapsedTicks W k := by
  obtain ⟨passed, computed, -, -, same⟩ := ok
  rw [waited, computed, elapsedTicks, ← same]
  rfl

/-- The reading of turn `k` is taken: something was missing at every check so far and no
earlier reading reached the timeout. -/
def ReadingTaken (W : World) (ability : SystemAbility) (k : Nat) : Prop :=
  (∀ i ≤ k, missing W ability i ≠ []) ∧ ∀ i < k, elapsedTicks W i < ability.dependTimeout

/-- Every duration is computed as it should be, and the loop is left for the timeout
exactly at the first reading whose elapsed ticks reach it. -/
def LeavesInTime (W : World) (ability : SystemAbility) : Prop :=
  (∀ k, ReadingTaken W ability k → DurationOk (W.clock 0) (W.clock (k + 1))) ∧
  ∀ k, (∃ fuel, waitLoop W ability fuel 0 = some ⟨k, .timedOut⟩) ↔
    ReadingTaken W ability k ∧ ability.dependTimeout ≤ elapsedTicks W k

/-- No reading that the loop takes is below the one at the beginning of the call. -/
def Unwrapped (W : World) (ability : SystemAbility) : Prop :=
  ∀ k, ReadingTaken W ability k → (W.clock 0).count ≤ (W.clock (k + 1)).count

/-- Turns that the loop passes are turns whose readings are taken. -/
theorem readingTaken_of_passes {W : World} {ability : SystemAbility}
    (unwrapped : Unwrapped W ability) {k : Nat} (passes : ∀ i < k, Passes W ability i)
    (some : missing W ability k ≠ []) : ReadingTaken W ability k := by
  have missed : ∀ i ≤ k, missing W ability i ≠ [] := by
    intro i upTo
    rcases Nat.lt_or_eq_of_le upTo with below | rfl
    · exact (passes i below).1
    · exact some
  refine ⟨missed, ?_⟩
  intro i
  -- Below turn `i` all readings are taken, so the duration of turn `i` is the elapsed time.
  induction i using Nat.strongRecOn with
  | ind i ih =>
    intro below
    have taken : ReadingTaken W ability i :=
      ⟨fun j upTo => missed j (by omega), fun j earlier => ih j earlier (by omega)⟩
    have ok := (durationOk_iff _ _).mpr (unwrapped i taken)
    rw [← waited_eq_elapsedTicks ok]
    exact (passes i below).2

theorem passes_of_readingTaken {W : World} {ability : SystemAbility}
    (unwrapped : Unwrapped W ability) {k : Nat} (taken : ReadingTaken W ability k) :
    ∀ i < k, Passes W ability i := by
  intro i below
  have before : ReadingTaken W ability i :=
    ⟨fun j upTo => taken.1 j (by omega), fun j earlier => taken.2 j (by omega)⟩
  have ok := (durationOk_iff _ _).mpr (unwrapped i before)
  refine ⟨taken.1 i (by omega), ?_⟩
  rw [waited_eq_elapsedTicks ok]
  exact taken.2 i below

theorem leavesInTime_of_unwrapped {W : World} {ability : SystemAbility}
    (unwrapped : Unwrapped W ability) : LeavesInTime W ability := by
  have ok : ∀ k, ReadingTaken W ability k → DurationOk (W.clock 0) (W.clock (k + 1)) :=
    fun k taken => (durationOk_iff _ _).mpr (unwrapped k taken)
  refine ⟨ok, ?_⟩
  intro k
  constructor
  · rintro ⟨fuel, ran⟩
    obtain ⟨-, passes, some, late⟩ := waitLoop_spec ran
    have taken := readingTaken_of_passes unwrapped (fun i => passes i (Nat.zero_le i)) some
    refine ⟨taken, ?_⟩
    rw [← waited_eq_elapsedTicks (ok k taken)]
    exact late
  · rintro ⟨taken, late⟩
    have passes := passes_of_readingTaken unwrapped taken
    rw [← waited_eq_elapsedTicks (ok k taken)] at late
    have leaves : Leaves W ability ⟨0 + k, .timedOut⟩ := by
      rw [Nat.zero_add]
      exact ⟨taken.1 k le_rfl, late⟩
    have ran := waitLoop_of_leaves (fun i _ below => passes i (by omega)) leaves
    rw [Nat.zero_add] at ran
    exact ⟨k + 1, ran⟩

/-- For every pair of readings, and for every sequence of readings and answers: the time
passed is right, and the loop is left in time, exactly when the counter has not wrapped. -/
theorem elapsed_right_iff (start finish : Tick) (W : World) (ability : SystemAbility) :
    (DurationOk start finish ↔ start.count ≤ finish.count) ∧
      (LeavesInTime W ability ↔ Unwrapped W ability) := by
  refine ⟨durationOk_iff start finish, ?_⟩
  constructor
  · intro inTime k taken
    exact (durationOk_iff _ _).mp (inTime.1 k taken)
  · exact leavesInTime_of_unwrapped

/-- The last tick of the counter and the first. -/
def lastTick : Tick := ⟨int64Max, by decide, le_rfl⟩

def firstTick : Tick := ⟨0, le_rfl, by decide⟩

theorem wrapped_overflows :
    duration lastTick firstTick = none ∧ ¬DurationOk lastTick firstTick := by
  have wrapped : firstTick.count < lastTick.count := by decide
  exact ⟨duration_of_lt wrapped, fun ok => absurd ((durationOk_iff _ _).mp ok) (not_le.mpr wrapped)⟩

end TickWrap
