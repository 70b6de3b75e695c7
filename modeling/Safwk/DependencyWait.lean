import Safwk.AbilityRegistry
import Safwk.Library.Signed
import Safwk.ListenerTable

/-!
# Waiting for the dependencies of an ability

`StartDependSaTask` asks samgr for the dependencies of an ability until none is
missing or the depend timeout has passed. Then it asks once more, and this last check
alone decides whether the ability is started.

The clock and samgr are sequences: `clock k` is what the `k`-th call of `GetTickCount`
returns, the one at the beginning of the function being number 0, and `answers k` is
what samgr says during the `k`-th call of `CheckDependencyStatus`. Neither the sleep
between two checks nor the texts of the log are modelled. An ability is given; the
only caller tests the pointer.
-/

namespace DependencyWait

open AbilityRegistry ListenerTable Signed

/-- `INT64_MAX` -/
def int64Max : Int := 9223372036854775807

/-- What `GetTickCount` can return. -/
structure Tick where
  count : Int
  nonneg : 0 ≤ count
  le_max : count ≤ int64Max

/-- Which ids `CheckSystemAbility` finds; `none` if there is no samgr. -/
abbrev Answer := Option (Int → Bool)

/-- `overflow` is the value that the program goes on with when a signed operation of
64 bits overflows. -/
structure World where
  process : Process
  clock : Nat → Tick
  answers : Nat → Answer
  overflow : Int

def checkDependencyStatus (P : Process) (dependSa : List Int) : Answer → List Int
  | none => dependSa
  | some present =>
    dependSa.filter fun saId => checkInputSysAbilityId P saId && !present saId

/-- The expression for the time passed, `none` if one of its operations overflows. -/
def duration (start finish : Tick) : Option Int :=
  if start.count ≤ finish.count then checked 64 (finish.count - start.count)
  else
    (checked 64 (int64Max - finish.count)).bind fun rest => checked 64 (rest + start.count)

/-- Why the loop was left: a check found nothing missing, or the time was up. -/
inductive Exit where
  | allPresent
  | timedOut
  deriving DecidableEq

structure Left where
  turn : Nat
  exit : Exit
  deriving DecidableEq

/-- What the call did: whether `Start` was called, the number of the last clock reading
and that of the last check. -/
structure Outcome where
  started : Bool
  reading : Nat
  check : Nat
  deriving DecidableEq

section Task

variable (W : World) (ability : SystemAbility)

/-- The result of check number `k`. -/
def missing (k : Nat) : List Int :=
  checkDependencyStatus W.process ability.dependSa (W.answers k)

/-- The duration that turn number `k` of the loop computes. -/
def waited (k : Nat) : Int :=
  (duration (W.clock 0) (W.clock (k + 1))).getD W.overflow

/-- The loop from turn `turn` on: `lastSize` is the size of what check `turn` found. -/
def waitLoop : Nat → Nat → Option Left
  | 0, _ => none
  | fuel + 1, turn =>
    if 0 < (missing W ability turn).length then
      if waited W turn < ability.dependTimeout then waitLoop fuel (turn + 1)
      else some ⟨turn, .timedOut⟩
    else some ⟨turn, .allPresent⟩

/-- The call, if it returns within `fuel` turns of its loop. -/
def startDependSaTask (fuel : Nat) : Option Outcome :=
  (waitLoop W ability fuel 0).map fun left =>
    { started := (missing W ability (left.turn + 1)).isEmpty
      reading := match left.exit with
        | .allPresent => left.turn
        | .timedOut => left.turn + 1
      check := left.turn + 1 }

/-! ## The loop -/

/-- Turn number `k` goes on to another check. -/
def Passes (k : Nat) : Prop :=
  missing W ability k ≠ [] ∧ waited W k < ability.dependTimeout

/-- The loop is left in its turn `left.turn`. -/
def Leaves (left : Left) : Prop :=
  match left.exit with
  | .allPresent => missing W ability left.turn = []
  | .timedOut => missing W ability left.turn ≠ [] ∧ ability.dependTimeout ≤ waited W left.turn

variable {W ability}

theorem waitLoop_spec {fuel turn : Nat} {left : Left}
    (ran : waitLoop W ability fuel turn = some left) :
    turn ≤ left.turn ∧ (∀ k, turn ≤ k → k < left.turn → Passes W ability k) ∧
      Leaves W ability left := by
  induction fuel generalizing turn with
  | zero => cases ran
  | succ fuel ih =>
    rw [waitLoop] at ran
    by_cases some : 0 < (missing W ability turn).length
    · have notNone := List.length_pos_iff.mp some
      rw [if_pos some] at ran
      by_cases early : waited W turn < ability.dependTimeout
      · rw [if_pos early] at ran
        obtain ⟨later, passes, leaves⟩ := ih ran
        refine ⟨by omega, ?_, leaves⟩
        intro k from_ below
        by_cases first : k = turn
        · subst first
          exact ⟨notNone, early⟩
        · exact passes k (by omega) below
      · rw [if_neg early] at ran
        cases ran
        exact ⟨le_rfl, fun k from_ below => absurd from_ (not_le.mpr below), notNone, not_lt.mp early⟩
    · rw [if_neg some] at ran
      cases ran
      have none : missing W ability turn = [] := by simpa using some
      exact ⟨le_rfl, fun k from_ below => absurd from_ (not_le.mpr below), none⟩

/-- A loop that can be left is left: the turns before need one unit of fuel each. -/
theorem waitLoop_of_leaves {turn k : Nat} {exit : Exit}
    (passes : ∀ i, turn ≤ i → i < turn + k → Passes W ability i)
    (leaves : Leaves W ability ⟨turn + k, exit⟩) :
    waitLoop W ability (k + 1) turn = some ⟨turn + k, exit⟩ := by
  induction k generalizing turn with
  | zero =>
    rw [waitLoop]
    cases exit with
    | allPresent =>
      have none : missing W ability turn = [] := leaves
      rw [none]
      rfl
    | timedOut =>
      have left : missing W ability turn ≠ [] ∧ ability.dependTimeout ≤ waited W turn := leaves
      rw [if_pos (List.length_pos_iff.mpr left.1), if_neg (not_lt.mpr left.2)]
      rfl
  | succ k ih =>
    have now := passes turn le_rfl (by omega)
    have same : turn + (k + 1) = turn + 1 + k := by omega
    rw [waitLoop, if_pos (List.length_pos_iff.mpr now.1), if_pos now.2, same]
    rw [same] at leaves
    exact ih (fun i from_ below => passes i (by omega) (by omega)) leaves

end Task

/-! ## What a check says -/

/-- At the check that got this answer the dependency was not there. -/
def Absent (P : Process) (answer : Answer) (saId : Int) : Prop :=
  match answer with
  | none => True
  | some present => checkInputSysAbilityId P saId = true ∧ present saId = false

/-- At the check that got this answer the dependency was there. -/
def Present (answer : Answer) (saId : Int) : Prop :=
  ∃ present, answer = some present ∧ present saId = true

theorem absent_of_missing {P : Process} {dependSa : List Int} {answer : Answer}
    (some : checkDependencyStatus P dependSa answer ≠ []) :
    ∃ saId ∈ dependSa, Absent P answer saId := by
  obtain ⟨saId, member⟩ := List.exists_mem_of_ne_nil _ some
  cases answer with
  | none => exact ⟨saId, member, trivial⟩
  | some present =>
    obtain ⟨inList, wanted⟩ := List.mem_filter.mp member
    exact ⟨saId, inList, by simpa [Absent] using wanted⟩

theorem present_of_none_missing {P : Process} {dependSa : List Int} {answer : Answer}
    (none : checkDependencyStatus P dependSa answer = []) {saId : Int} (member : saId ∈ dependSa)
    (valid : checkInputSysAbilityId P saId = true) : Present answer saId := by
  cases answer with
  | none =>
    have empty : dependSa = [] := none
    rw [empty] at member
    cases member
  | some present =>
    refine ⟨present, rfl, ?_⟩
    have kept := List.filter_eq_nil_iff.mp none saId member
    simpa [valid] using kept

/-! ## Giving up -/

/-- Milliseconds between the beginning of the call and reading number `k`. -/
def elapsed (W : World) (k : Nat) : Int := (W.clock k).count - (W.clock 0).count

theorem duration_of_le {start finish : Tick} (forward : start.count ≤ finish.count) :
    duration start finish = some (finish.count - start.count) := by
  have lower := start.nonneg
  have upper := finish.le_max
  rw [duration, if_pos forward]
  apply checked_of_fits
  rw [fits64_iff]
  simp only [int64Max] at upper
  omega

theorem waited_of_le {W : World} {k : Nat}
    (forward : (W.clock 0).count ≤ (W.clock (k + 1)).count) : waited W k = elapsed W (k + 1) := by
  rw [waited, duration_of_le forward]
  rfl

/-- A call that gives up read the clock when the timeout had passed and missed a
dependency at its last check; a call that starts the ability found all valid ones. -/
def KeepsPromise (W : World) (ability : SystemAbility) : Prop :=
  ∀ fuel outcome, startDependSaTask W ability fuel = some outcome →
    (outcome.started = false →
      (∃ k ≤ outcome.reading, ability.dependTimeout ≤ elapsed W k) ∧
      ∃ saId ∈ ability.dependSa, Absent W.process (W.answers outcome.check) saId) ∧
    (outcome.started = true →
      ∀ saId ∈ ability.dependSa, checkInputSysAbilityId W.process saId = true →
        Present (W.answers outcome.check) saId)

/-- When the waiting ends because a check finds nothing missing, the next check finds
nothing missing either. -/
def StaysComplete (W : World) (ability : SystemAbility) : Prop :=
  ∀ k, (∀ i < k, missing W ability i ≠ [] ∧ elapsed W (i + 1) < ability.dependTimeout) →
    missing W ability k = [] → missing W ability (k + 1) = []

section Promise

variable {W : World} {ability : SystemAbility}

/-- With a clock that does not go back, the loop compares the elapsed time. -/
theorem passes_iff (forward : ∀ k, (W.clock 0).count ≤ (W.clock k).count) (k : Nat) :
    Passes W ability k ↔
      missing W ability k ≠ [] ∧ elapsed W (k + 1) < ability.dependTimeout := by
  rw [Passes, waited_of_le (forward (k + 1))]

/-- Waiting that ends at check `k`, and a dependency that is lost before the next check: the
call gives up. -/
theorem gives_up_of_lost (forward : ∀ k, (W.clock 0).count ≤ (W.clock k).count) {k : Nat}
    (waiting : ∀ i < k, missing W ability i ≠ [] ∧ elapsed W (i + 1) < ability.dependTimeout)
    (complete : missing W ability k = []) (lost : missing W ability (k + 1) ≠ []) :
    startDependSaTask W ability (k + 1) = some ⟨false, k, k + 1⟩ := by
  have ran : waitLoop W ability (k + 1) 0 = some ⟨0 + k, .allPresent⟩ := by
    apply waitLoop_of_leaves
    · intro i _ below
      exact (passes_iff forward i).mpr (waiting i (by omega))
    · simpa only [Leaves, Nat.zero_add] using complete
  rw [Nat.zero_add] at ran
  rw [startDependSaTask, ran]
  simp [lost]

theorem staysComplete_of_keepsPromise (forward : ∀ k, (W.clock 0).count ≤ (W.clock k).count)
    (promise : KeepsPromise W ability) (positive : 0 < ability.dependTimeout) :
    StaysComplete W ability := by
  intro k waiting complete
  by_contra lost
  have result := gives_up_of_lost forward waiting complete lost
  -- No reading that this call took shows the timeout.
  obtain ⟨⟨j, below, late⟩, -⟩ := (promise _ _ result).1 rfl
  cases j with
  | zero =>
    have atStart : elapsed W 0 = 0 := Int.sub_self _
    omega
  | succ i =>
    have early := (waiting i (Nat.lt_of_succ_le below)).2
    omega

/-- A call that gives up took a reading that shows the timeout. -/
theorem late_reading (forward : ∀ k, (W.clock 0).count ≤ (W.clock k).count)
    (condition : ability.dependTimeout ≤ 0 ∨ StaysComplete W ability) {fuel : Nat} {left : Left}
    (looped : waitLoop W ability fuel 0 = some left)
    (lost : missing W ability (left.turn + 1) ≠ []) :
    ∃ k ≤ (match left.exit with | .allPresent => left.turn | .timedOut => left.turn + 1),
      ability.dependTimeout ≤ elapsed W k := by
  obtain ⟨-, passes, leaves⟩ := waitLoop_spec looped
  obtain ⟨turn, exit⟩ := left
  cases exit with
  | timedOut =>
    have late : ability.dependTimeout ≤ waited W turn := leaves.2
    rw [waited_of_le (forward (turn + 1))] at late
    exact ⟨turn + 1, le_rfl, late⟩
  | allPresent =>
    have atStart : elapsed W 0 = 0 := Int.sub_self _
    rcases condition with trivially | stays
    · exact ⟨0, Nat.zero_le _, by omega⟩
    · have waiting := fun i below => (passes_iff forward i).mp (passes i (Nat.zero_le i) below)
      exact absurd (stays turn waiting leaves) lost

theorem keepsPromise_of_staysComplete (forward : ∀ k, (W.clock 0).count ≤ (W.clock k).count)
    (condition : ability.dependTimeout ≤ 0 ∨ StaysComplete W ability) :
    KeepsPromise W ability := by
  intro fuel outcome ran
  obtain ⟨left, looped, rfl⟩ := Option.map_eq_some_iff.mp ran
  refine ⟨?_, ?_⟩
  · intro notStarted
    have lost : missing W ability (left.turn + 1) ≠ [] := by simpa using notStarted
    exact ⟨late_reading forward condition looped lost, absent_of_missing lost⟩
  · intro isStarted saId member valid
    have none : missing W ability (left.turn + 1) = [] := by simpa using isStarted
    exact present_of_none_missing none member valid

end Promise

/-- For every clock that does not go back and every sequence of answers: the wait keeps
its promise exactly when the timeout is not positive or no dependency is lost between the
check that ends the waiting and the one that decides. -/
theorem keepsPromise_iff (W : World) (ability : SystemAbility)
    (forward : ∀ k, (W.clock 0).count ≤ (W.clock k).count) :
    KeepsPromise W ability ↔ ability.dependTimeout ≤ 0 ∨ StaysComplete W ability := by
  constructor
  · intro promise
    by_cases positive : ability.dependTimeout ≤ 0
    · exact Or.inl positive
    · exact Or.inr (staysComplete_of_keepsPromise forward promise (not_le.mp positive))
  · exact keepsPromise_of_staysComplete forward

/-- An ability that depends on SA 2. -/
def dependent : SystemAbility :=
  { SystemAbility.make 1 true with dependSa := [2] }

/-- A reading every 50 ms, up to the end of the range. -/
def steadyClock (k : Nat) : Tick where
  count := min (50 * k) int64Max
  nonneg := by simp only [int64Max]; omega
  le_max := min_le_right _ _

/-- SA 2 is there from the second check on. -/
def arriving : World where
  process := ⟨0, 16777215, fun _ => false⟩
  clock := steadyClock
  answers k := some fun _ => decide (1 ≤ k)
  overflow := 0

theorem missing_arriving (k : Nat) : missing arriving dependent k = [] ↔ 1 ≤ k := by
  by_cases there : 1 ≤ k
  · simp [missing, arriving, checkDependencyStatus, there]
  · have first : k = 0 := by omega
    subst first
    decide

theorem keepsPromise_iff_arriving : KeepsPromise arriving dependent := by
  refine (keepsPromise_iff arriving dependent ?_).mpr (Or.inr ?_)
  · intro k
    have first : (steadyClock 0).count = 0 := by decide
    change (steadyClock 0).count ≤ (steadyClock k).count
    rw [first]
    exact (steadyClock k).nonneg
  · intro k _ complete
    have there := (missing_arriving k).mp complete
    exact (missing_arriving (k + 1)).mpr (by omega)

/-- SA 2 is there at the first check and gone at the next. -/
def lostAtOnce : World :=
  { arriving with answers := fun k => some fun _ => decide (k = 0) }

theorem gives_up_early :
    (∀ k, (lostAtOnce.clock k).count ≤ (lostAtOnce.clock (k + 1)).count) ∧
      ¬KeepsPromise lostAtOnce dependent := by
  refine ⟨?_, ?_⟩
  · intro k
    simp only [lostAtOnce, arriving, steadyClock, int64Max]
    omega
  · intro promise
    have ran : startDependSaTask lostAtOnce dependent 1 = some ⟨false, 0, 1⟩ := by decide
    obtain ⟨⟨k, first, late⟩, -⟩ := (promise 1 _ ran).1 rfl
    have atStart : k = 0 := by simpa using first
    subst atStart
    revert late
    decide

end DependencyWait
