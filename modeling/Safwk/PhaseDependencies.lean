import Safwk.DependencyOrder

/-!
# Dependencies and boot phases

As long as no wait for a phase times out, the abilities that are being started are all of
one phase, and phases follow one another. An ability that depends on one of its own
process then waits in vain if that one belongs to a later phase: it is started only after
dependencies of its own or an earlier phase.
-/

namespace PhaseDependencies

open Transition Grounds AbilityRegistry BootDependencies DependencyOrder

section Pool

open BootPool BootOrder

variable {s t : BootPool.State SystemAbility} {a : BootPool.Action}

/-- What is on its way belongs to the phase that is waited for next. -/
def OnePhase (s : BootPool.State SystemAbility) : Prop :=
  ∀ task, Present task s → nextWait s.todo = some task.phase

/-- The wait ahead stays, or it has returned. -/
theorem moves_nextWait (move : BootPool.Moves s a t) (phased : Phased s.todo) :
    nextWait t.todo = nextWait s.todo ∨ ∃ p, nextWait s.todo = some p ∧
      ∀ q, nextWait t.todo = some q → p < q := by
  cases move with
  | skipNull ready next => exact Or.inl (by rw [next]; rfl)
  | lockMain ready next free => exact Or.inl (by rw [next]; rfl)
  | loadProfiles ready next => exact Or.inl (by rw [next]; rfl)
  | @waitReturns p rest ready next free zero =>
    rw [next] at phased
    exact Or.inr ⟨p, by rw [next]; rfl, fun q ahead => nextWait_later phased.1 ahead⟩
  | @waitTimesOut p rest ready next free nonzero =>
    rw [next] at phased
    exact Or.inr ⟨p, by rw [next]; rfl, fun q ahead => nextWait_later phased.1 ahead⟩
  | addTask | unlockMain | pop | started | lockWorker | decrement | unlockWorker => exact Or.inl rfl

theorem punctual_of_onePhase (one : OnePhase s) (a : BootPool.Action) : Punctual s a := by
  cases a with
  | decrement i =>
    simp only [Punctual, punctual]
    split
    · rename_i task holding
      have ahead := one task (Or.inr (Or.inr ⟨_, Threads.mem_of_getElem? holding, rfl⟩))
      simp [ahead]
    · rfl
  | _ => rfl

theorem moves_onePhase (move : BootPool.Moves s a t) (lock : LockOk s) (counted : Counted s)
    (one : OnePhase s) (inTime : a ≠ .timeout) : OnePhase t := by
  intro task present
  have was : nextWait s.todo = some task.phase := by
    rcases moves_present move present with old | ⟨rest, next⟩
    · exact one task old
    · have phased := counted.phased
      rw [next] at phased ⊢
      exact phased.1
  cases id move with
  | waitTimesOut ready next free nonzero => exact absurd rfl inTime
  | waitReturns ready next free zero =>
    -- the counter is 0, so nothing of this phase is left
    have positive := outstanding_pos lock free (t := task) present
    have count := counted.count task.phase was
    omega
  | skipNull ready next => exact (by rw [next] at was; exact was)
  | lockMain ready next free => exact (by rw [next] at was; exact was)
  | loadProfiles ready next => exact (by rw [next] at was; exact was)
  | addTask | unlockMain | pop | started | lockWorker | decrement | unlockWorker => exact was

end Pool

variable {E : Env} {n : Nat} {hosted : Int → Prop}

/-- `WaitForTasks` logs "start timeout!". -/
def timesOut : Action → Bool
  | .pool .timeout => true
  | _ => false

/-- The abilities publish themselves, and no wait for a phase times out. -/
def Orderly (hosted : Int → Prop) (s : State) (a : Action) : Prop :=
  SelfPublished hosted s a ∧ timesOut a = false

instance (hosted : Int → Prop) [DecidablePred hosted] (s : State) (a : Action) :
    Decidable (Orderly hosted s a) :=
  inferInstanceAs (Decidable (_ ∧ _))

/-- The phase that a boot task was started in. -/
def phaseOf : Event → Nat
  | .started task => task.phase
  | _ => 0

/-- Phases ascend. -/
def Ascends (e : Event) (older : List Event) : Prop :=
  ∀ task, e = .started task → ∀ d ∈ older, phaseOf d ≤ task.phase

structure InPhase (s : State) : Prop where
  lock : BootPool.LockOk s.pool
  counted : BootOrder.Counted s.pool
  one : OnePhase s.pool
  reached : ∀ e ∈ s.history, ∀ p, BootOrder.nextWait s.pool.todo = some p → phaseOf e ≤ p
  ascends : Each Ascends s.history

theorem InPhase.pool {s : State} (inPhase : InPhase s) {pool : BootPool.State SystemAbility}
    {a : BootPool.Action} (next : BootPool.Moves s.pool a pool) (inTime : a ≠ .timeout)
    (places : List Place) : InPhase { s with pool := pool, places := places } where
  lock := BootPool.moves_lockOk next inPhase.lock
  counted := BootOrder.moves_counted inPhase.lock inPhase.counted
    (punctual_of_onePhase inPhase.one a) next
  one := moves_onePhase next inPhase.lock inPhase.counted inPhase.one inTime
  reached := by
    intro e member p ahead
    rcases moves_nextWait next inPhase.counted.phased with same | ⟨q, now, later⟩
    · exact inPhase.reached e member p (same ▸ ahead)
    · have before := inPhase.reached e member q now
      have after := later p ahead
      omega
  ascends := inPhase.ascends

theorem moves_inPhase {s t : State} {a : Action} (move : Moves E s a t) (inPhase : InPhase s)
    (inTime : timesOut a = false) : InPhase t := by
  cases move with
  | pop idle next taken => exact inPhase.pool next (by simp) _
  | leaves found here next left => exact inPhase.pool next (by simp) _
  | pool next kept => exact inPhase.pool next (by rintro rfl; cases inTime) s.places
  | work found here takes quiet =>
    exact ⟨inPhase.lock, inPhase.counted, inPhase.one, inPhase.reached, inPhase.ascends⟩
  | @start i task found here =>
    have ahead := inPhase.one task (Or.inr (Or.inr ⟨_, Threads.mem_of_getElem? found, rfl⟩))
    refine ⟨inPhase.lock, inPhase.counted, inPhase.one, ?_, ?_, inPhase.ascends⟩
    · intro e member p next
      rcases List.mem_cons.mp member with rfl | old
      · exact Nat.le_of_eq (Option.some.inj (ahead.symm.trans next))
      · exact inPhase.reached e old p next
    · rintro _ ⟨rfl⟩ d older
      exact inPhase.reached d older task.phase ahead
  | @event _ e leads =>
    have silent : phaseOf e = 0 := by
      cases a <;> cases leads <;> rfl
    refine ⟨inPhase.lock, inPhase.counted, inPhase.one, ?_, ?_, inPhase.ascends⟩
    · intro d member p next
      rcases List.mem_cons.mp member with rfl | old
      · omega
      · exact inPhase.reached d old p next
    · rintro task rfl
      cases a <;> cases leads

theorem reachable_inPhase {s : State} {program : Program} (phased : BootOrder.Phased program)
    (reach : (machine E n program).Reachable (Orderly hosted) s) : InPhase s := by
  refine reach.invariant InPhase ?_ ?_
  · refine ⟨BootPool.initial_lockOk n program, BootOrder.initial_counted n phased, ?_, ?_, ?_⟩
    · rintro task (adding | queued | ⟨w, member, held⟩)
      · cases adding
      · cases queued
      · rw [List.eq_of_mem_replicate member] at held
        cases held
    · intro e member
      cases member
    · trivial
  · intro r a t _ inPhase allowed next
    exact moves_inPhase (moves_of_step next) inPhase allowed.2

/-- Any abilities and phases, any number of workers, any interleaving in which no wait times
out: a boot task starts its ability only after each of its dependencies of this process has
been started by a request, or by a boot task of the same or an earlier phase. -/
theorem dependencies_of_earlier_phases (E : Env) (n : Nat) (saId : Int)
    (abilityPhaseMap : Nat → Option (List (Option SystemAbility))) (hosted : Int → Prop)
    (fresh : ∀ id, hosted id → E.before id = false) (s : State)
    (reach : (machine E n (BootPool.findAndStartPhaseTasks saId abilityPhaseMap)).Reachable
      (Orderly hosted) s)
    (newer older : List Event) (task : BootTask) (split : s.history = newer ++ .started task :: older)
    (dependency : Int) (asked : Asked E task.ability dependency) (here : hosted dependency) :
    .requested dependency ∈ older ∨ ∃ first, .started first ∈ older ∧
      first.ability.saId = dependency ∧ first.phase ≤ task.phase := by
  have inPhase := reachable_inPhase
    (BootOrder.findAndStartPhaseTasks_phased saId abilityPhaseMap) reach
  have was := (reachable_careful reach).rests.split split dependency asked
  have founded := reachable_founded (fun _ _ allowed => allowed.1) reach
  rw [split] at founded
  obtain ⟨e, member, starts⟩ := started_of_wasPresent founded.tail.2 was here (fresh dependency here)
  have ascends := inPhase.ascends.split split task rfl e member
  cases e with
  | started first => exact Or.inr ⟨first, member, starts, ascends⟩
  | requested id =>
    obtain rfl : id = dependency := starts
    exact Or.inl member
  | published id => exact starts.elim
  | withdrawn id => exact starts.elim

/-- Ability 402 belongs to phase 1, and 401, which depends on it, to phase 2. -/
def twoPhases : Nat → Option (List (Option SystemAbility))
  | 1 => some [some (ability 402 [])]
  | 2 => some [some (ability 401 [402])]
  | _ => none

/-- The main thread waits for phase 1, in which 402 is started and published. -/
def twoPhasesRun : List Action :=
  addTask ++ [.pool (.pop 0 0), .enter 0 (tick 0), .start 0, .publish 402, .returns 0,
      .pool (.started 0), .pool (.lock 0), .pool (.decrement 0), .pool (.unlock 0),
      .pool .main, .pool .main] ++
    addTask ++ [.pool (.pop 0 0), .enter 0 (tick 10)] ++ checkOne 0 ++
    [.turn 0 (tick 10)] ++ checkOne 0 ++ [.start 0]

def twoPhasesState : State :=
  ((machine firstProcess 1 (BootPool.findAndStartPhaseTasks BootPool.defaultSaId twoPhases)).run
    (Orderly (401 ≤ ·)) (initial 1 (BootPool.findAndStartPhaseTasks BootPool.defaultSaId twoPhases))
    twoPhasesRun).get (by decide)

theorem dependencies_of_earlier_phases_two :
    twoPhasesState.history = [.started ⟨2, ability 401 [402]⟩, .published 402,
      .started ⟨1, ability 402 []⟩] ∧
    (.requested 402 ∈ [Event.published 402, .started ⟨1, ability 402 []⟩] ∨
      ∃ first, .started first ∈ [Event.published 402, .started ⟨1, ability 402 []⟩] ∧
        first.ability.saId = 402 ∧ first.phase ≤ 2) := by
  have reach : (machine firstProcess 1
      (BootPool.findAndStartPhaseTasks BootPool.defaultSaId twoPhases)).Reachable
      (Orderly (401 ≤ ·)) twoPhasesState := Machine.reachable_get twoPhasesRun (by decide)
  have history : twoPhasesState.history = [.started ⟨2, ability 401 [402]⟩, .published 402,
      .started ⟨1, ability 402 []⟩] := by decide
  exact ⟨history, dependencies_of_earlier_phases firstProcess 1 BootPool.defaultSaId twoPhases
    (401 ≤ ·) (fun _ _ => rfl) twoPhasesState reach [] _ _ history 402 ⟨by decide, by decide⟩
    (by decide)⟩

end PhaseDependencies
