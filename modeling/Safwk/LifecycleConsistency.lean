import Safwk.AbilityLifecycle

/-!
# Consistency of the lifecycle between calls

With every `OnStart` publishing exactly once, a quiescent ability should be
loaded exactly when it is running, and exactly when the last word was a
`Publish` and not the final write of a `Stop`. `Idle`, `Active` and `Start`
write without checking again after their callback. If such a write finds the
ability loaded, consistency is kept by every interleaving; if a `Stop` has
overtaken the call, the write resurrects a stopped ability.
-/

namespace LifecycleConsistency

open Transition AbilityLifecycle

def publishesOnce (s : State) : Action → Bool
  | .publish i c => s.threads[i]? == some (.onStart false) && (publish s.ability c).2
  | .publishElsewhere _ => false
  | .advance i => s.threads[i]? != some (.onStart false)
  | _ => true

/-- Every `OnStart` publishes successfully exactly once and nothing else publishes. -/
def PublishesOnce (s : State) (a : Action) : Prop := publishesOnce s a = true

instance (s : State) (a : Action) : Decidable (PublishesOnce s a) :=
  inferInstanceAs (Decidable (publishesOnce s a = true))

/-- The final writes that a `Stop` can overtake: the state written by `Idle`
after a zero delay and by `Active`, and the `isRunning_` written by `Start`. -/
def Overtakable : Pc → Bool
  | .idleFinal delayTime => delayTime == 0
  | .activeFinal => true
  | .startFinal => true
  | _ => false

def writesLoaded (s : State) : Action → Bool
  | .advance i =>
    match s.threads[i]? with
    | some pc => !Overtakable pc || s.ability.abilityState != .notLoaded
    | none => true
  | _ => true

/-- No final write of `Idle`, `Active` or `Start` finds the ability unloaded. -/
def WritesLoaded (s : State) (a : Action) : Prop := writesLoaded s a = true

instance (s : State) (a : Action) : Decidable (WritesLoaded s a) :=
  inferInstanceAs (Decidable (writesLoaded s a = true))

/-- The latest among the successful calls of `Publish` and the state writes of
`Stop` is a `Publish`. -/
def latestIsPublish : List Event → Bool
  | [] => false
  | .onStartPublish :: _ => true
  | .otherPublish :: _ => true
  | .stopWrite :: _ => false
  | _ :: rest => latestIsPublish rest

structure Consistent (s : State) : Prop where
  running : s.ability.abilityState ≠ .notLoaded ↔ s.ability.isRunning = true
  published : s.ability.abilityState ≠ .notLoaded ↔ latestIsPublish s.log = true

/-- What holds also while calls are in progress: a loaded ability that is not
yet running has a `Start` between its `Publish` and its last write. -/
structure Tracked (s : State) : Prop where
  published : s.ability.abilityState ≠ .notLoaded ↔ latestIsPublish s.log = true
  loaded : s.ability.isRunning = true → s.ability.abilityState ≠ .notLoaded
  starting : s.ability.abilityState ≠ .notLoaded →
    s.ability.isRunning = true ∨ .onStart true ∈ s.threads ∨ .startFinal ∈ s.threads

theorem initial_tracked (n : Nat) : Tracked (initial n) :=
  ⟨by simp [initial, latestIsPublish], by simp [initial], by simp [initial]⟩

/-- A step that leaves the ability and does not take a `Start` off its last write. -/
theorem Tracked.move {s : State} (tracked : Tracked s) {i : Nat} {p : Pc} (q : Pc)
    (lock : Option Nat) (log : List Event) (found : s.threads[i]? = some p)
    (notPublished : p ≠ .onStart true) (notFinal : p ≠ .startFinal)
    (same : latestIsPublish log = latestIsPublish s.log) :
    Tracked { s with threads := s.threads.set i q, onStartLock := lock, log := log } := by
  obtain ⟨published, loaded, starting⟩ := tracked
  refine ⟨published.trans (by rw [same]), loaded, ?_⟩
  intro state
  rcases starting state with running | inStart | final
  · exact Or.inl running
  · exact Or.inr (Or.inl (Threads.mem_set_of_ne found inStart (fun h => notPublished h.symm)))
  · exact Or.inr (Or.inr (Threads.mem_set_of_ne found final (fun h => notFinal h.symm)))

/-- A loaded ability is written to another loaded state. -/
theorem Tracked.write {s : State} (tracked : Tracked s) (state : SystemAbilityState)
    (before : s.ability.abilityState ≠ .notLoaded) (after : state ≠ .notLoaded) :
    Tracked { s with ability := { s.ability with abilityState := state } } := by
  obtain ⟨published, _, starting⟩ := tracked
  refine ⟨?_, fun _ => after, fun _ => starting before⟩
  exact ⟨fun _ => published.mp before, fun _ => after⟩

theorem advance_tracked {s : State} {i : Nat} {pc pc' : Pc} {ability : Ability}
    {events : List Event} (tracked : Tracked s) (found : s.threads[i]? = some pc)
    (once : pc ≠ .onStart false)
    (guard : Overtakable pc = true → s.ability.abilityState ≠ .notLoaded)
    (next : advance s.ability pc = some (ability, pc', events)) :
    Tracked { s with
      ability := ability, threads := s.threads.set i pc', log := events ++ s.log } := by
  cases pc with
  | outside | startEnter | startExit | onIdle => cases next
  | startCheck | idleCheck | activeCheck | stopCheck =>
    simp only [advance] at next
    split at next <;> cases next <;>
      exact tracked.move _ s.onStartLock _ found (by simp) (by simp) rfl
  | startReady | onActive | stopReady | onStop =>
    cases next
    exact tracked.move _ s.onStartLock _ found (by simp) (by simp) rfl
  | onStart b =>
    cases b with
    | false => exact False.elim (once rfl)
    | true =>
      cases next
      obtain ⟨published, loaded, _⟩ := tracked
      exact ⟨published, loaded, fun _ => Or.inr (Or.inr (Threads.mem_set_self found _))⟩
  | startFinal =>
    cases next
    exact ⟨tracked.published, fun _ => guard rfl, fun _ => Or.inl rfl⟩
  | idleFinal delayTime =>
    simp only [advance] at next
    split at next
    · rename_i zero
      cases next
      have before := guard (by simp [Overtakable, zero])
      have moved := tracked.move .outside s.onStartLock (.idleReturns delayTime :: s.log)
        found (by simp) (by simp) rfl
      exact moved.write .idle before (by simp)
    · cases next
      exact tracked.move _ s.onStartLock _ found (by simp) (by simp) rfl
  | activeFinal =>
    cases next
    have moved := tracked.move .outside s.onStartLock s.log found (by simp) (by simp) rfl
    exact moved.write .active (guard rfl) (by simp)
  | stopFinal =>
    cases next
    exact ⟨by simp [latestIsPublish], by simp, by simp⟩

theorem moves_tracked {s t : State} {a : Action} (move : Moves s a t)
    (once : PublishesOnce s a) (guard : WritesLoaded s a) (tracked : Tracked s) :
    Tracked t := by
  cases move with
  | call operation found => exact tracked.move _ s.onStartLock s.log found (by simp) (by simp) rfl
  | lock found free => exact tracked.move _ _ s.log found (by simp) (by simp) rfl
  | unlock found => exact tracked.move _ _ s.log found (by simp) (by simp) rfl
  | onIdleReturns delayTime found =>
    exact tracked.move _ s.onStartLock s.log found (by simp) (by simp) rfl
  | advance found next =>
    simp only [PublishesOnce, publishesOnce, found] at once
    simp only [WritesLoaded, writesLoaded, found] at guard
    refine advance_tracked tracked found (by simpa using once) ?_ next
    intro overtakable
    simpa [overtakable] using guard
  | publish c found =>
    simp only [PublishesOnce, publishesOnce, Bool.and_eq_true] at once
    rcases (publish_cases s.ability c).1 with ⟨succeeded, active⟩ | ⟨failed, _⟩
    · rw [succeeded]
      refine ⟨by simp [active, publishEvents, latestIsPublish], by simp [active], ?_⟩
      intro _
      have inside := Threads.mem_set_self found (.onStart true)
      exact Or.inr (Or.inl (by simpa using inside))
    · rw [failed] at once
      exact False.elim (Bool.false_ne_true once.2)
  | publishElsewhere c => exact False.elim (Bool.false_ne_true once)

/-- Any number of threads and calls: in every run whose final writes of `Idle`,
`Active` and `Start` find the ability loaded, a quiescent ability is loaded
exactly when it is running and exactly when the last word was a `Publish`. -/
theorem lifecycle_consistent (n : Nat) (s : State)
    (reach : (machine n).Reachable
      (fun s a => PublishesOnce s a ∧ WritesLoaded s a) s)
    (quiescent : Quiescent s) : Consistent s := by
  have tracked : Tracked s := by
    refine reach.invariant Tracked (initial_tracked n) ?_
    rintro r a t _ keep ⟨once, guard⟩ next
    exact moves_tracked (moves_of_step next) once guard keep
  refine ⟨⟨?_, tracked.loaded⟩, tracked.published⟩
  intro state
  rcases tracked.starting state with running | inStart | final
  · exact running
  · cases quiescent _ inStart
  · cases quiescent _ final

/-- `Start`, then an `Idle` and a `Stop` one after the other. -/
def stoppedAfterIdle : State where
  ability := ⟨.notLoaded, false, some 1⟩
  threads := [.outside, .outside]
  onStartLock := none
  log := [.stopWrite, .onStopEnd, .onStopBegin, .idleReturns 0, .onStartEnd, .onStartPublish,
    .onStartBegin]

theorem lifecycle_consistent_sequential :
    (machine 2).Reachable (fun s a => PublishesOnce s a ∧ WritesLoaded s a) stoppedAfterIdle ∧
      Quiescent stoppedAfterIdle ∧ Consistent stoppedAfterIdle := by
  have reach : (machine 2).Reachable (fun s a => PublishesOnce s a ∧ WritesLoaded s a)
      stoppedAfterIdle :=
    Machine.reachable_of_run
      [.call 0 .start, .lock 0, .advance 0, .advance 0, .publish 0 publishCall, .advance 0,
        .advance 0, .unlock 0, .call 1 .idle, .advance 1, .onIdleReturns 1 0, .advance 1,
        .call 0 .stop, .advance 0, .advance 0, .advance 0, .advance 0] (by decide)
  have quiescent : Quiescent stoppedAfterIdle := by decide
  exact ⟨reach, quiescent, lifecycle_consistent 2 _ reach quiescent⟩

/-- The `Stop` of thread 0 runs while `OnIdle` of thread 1 does; the write of
`IDLE` comes last. -/
def resurrected : State where
  ability := ⟨.idle, false, some 1⟩
  threads := [.outside, .outside]
  onStartLock := none
  log := [.idleReturns 0, .stopWrite, .onStopEnd, .onStopBegin, .onStartEnd, .onStartPublish,
    .onStartBegin]

theorem lifecycle_inconsistent :
    ¬ ∀ s, (machine 2).Reachable PublishesOnce s → Quiescent s → Consistent s := by
  intro consistent
  have reach : (machine 2).Reachable PublishesOnce resurrected :=
    Machine.reachable_of_run
      [.call 0 .start, .lock 0, .advance 0, .advance 0, .publish 0 publishCall, .advance 0,
        .advance 0, .unlock 0, .call 1 .idle, .advance 1, .call 0 .stop, .advance 0, .advance 0,
        .advance 0, .advance 0, .onIdleReturns 1 0, .advance 1] (by decide)
  have running := (consistent resurrected reach (by decide)).running.mp (by decide)
  cases running

end LifecycleConsistency
