import Safwk.AbilityLifecycle

/-!
# `OnStart` runs once per load

`onStartLock_` is held across the callback, so two callbacks cannot overlap. A
callback that published leaves `abilityState_` at `ACTIVE`; the next `Start`
checks for `NOT_LOADED` after it has taken the same lock, and only the final
write of a `Stop` puts that value back. Calls of `Publish` from anywhere else,
and an `Idle` or `Active` that finishes late, do not weaken the argument.
-/

namespace OnStartOnce

open Transition Trace AbilityLifecycle

/-- Since the last publishing `OnStart` a `Stop` has written its state. -/
def Unloaded (log : List Event) : Prop :=
  Cleared (· = .onStartPublish) (· = .stopWrite) log

/-- No `OnStart` is running. -/
def Ended (log : List Event) : Prop :=
  Cleared (· = .onStartBegin) (· = .onStartEnd) log

structure StartOrder (s : State) : Prop where
  unloaded : s.ability.abilityState = .notLoaded → Unloaded s.log
  ready : .startReady ∈ s.threads → Unloaded s.log
  ended : (∀ b, .onStart b ∉ s.threads) → Ended s.log
  overlap : Between (· = .onStartBegin) (· = .onStartBegin) (· = .onStartEnd) s.log
  reload : Between (· = .onStartPublish) (· = .onStartBegin) (· = .stopWrite) s.log

/-- Events that neither begin, end nor publish an `OnStart`, nor end a load. -/
def Neutral : Event → Prop
  | .onStartBegin => False
  | .onStartPublish => False
  | .onStartEnd => False
  | .stopWrite => False
  | _ => True

theorem initial_startOrder (n : Nat) : StartOrder (initial n) :=
  ⟨fun _ => cleared_nil, fun _ => cleared_nil, fun _ => cleared_nil, between_nil, between_nil⟩

/-- Neutral events, at most one of them, change no part of the log invariant. -/
theorem StartOrder.events {s : State} (order : StartOrder s) {events : List Event}
    (few : events = [] ∨ ∃ e, events = [e] ∧ Neutral e) :
    StartOrder { s with log := events ++ s.log } := by
  rcases few with rfl | ⟨e, rfl, neutral⟩
  · exact order
  · obtain ⟨unloaded, ready, ended, overlap, reload⟩ := order
    have notPublish : e ≠ .onStartPublish := by rintro rfl; exact neutral
    have notBegin : e ≠ .onStartBegin := by rintro rfl; exact neutral
    refine ⟨?_, ?_, ?_, ?_, ?_⟩
    · intro state
      exact (cleared_cons e s.log).mpr ⟨notPublish, Or.inr (unloaded state)⟩
    · intro member
      exact (cleared_cons e s.log).mpr ⟨notPublish, Or.inr (ready member)⟩
    · intro outside
      exact (cleared_cons e s.log).mpr ⟨notBegin, Or.inr (ended outside)⟩
    · exact (between_cons e s.log).mpr ⟨fun h => False.elim (notBegin h), overlap⟩
    · exact (between_cons e s.log).mpr ⟨fun h => False.elim (notBegin h), reload⟩

/-- A thread that is not in `OnStart` moves to a place other than the passed check. -/
theorem StartOrder.move {s : State} (order : StartOrder s) {i : Nat} {p : Pc} (q : Pc)
    (ability : Ability) (lock : Option Nat) (found : s.threads[i]? = some p)
    (notRunning : ∀ b, p ≠ .onStart b) (notReady : q ≠ .startReady)
    (state : ability.abilityState = .notLoaded → s.ability.abilityState = .notLoaded) :
    StartOrder { s with
      ability := ability, threads := s.threads.set i q, onStartLock := lock } := by
  obtain ⟨unloaded, ready, ended, overlap, reload⟩ := order
  refine ⟨fun h => unloaded (state h), ?_, ?_, overlap, reload⟩
  · intro member
    rcases Threads.mem_set_cases member with same | member
    · exact False.elim (notReady same.symm)
    · exact ready member
  · intro outside
    refine ended (fun b member => outside b ?_)
    exact Threads.mem_set_of_ne found member (fun same => notRunning b same.symm)

/-- `Start` passes its check. -/
theorem StartOrder.check {s : State} (order : StartOrder s) {i : Nat}
    (found : s.threads[i]? = some .startCheck) (state : s.ability.abilityState = .notLoaded) :
    StartOrder { s with threads := s.threads.set i .startReady } := by
  obtain ⟨unloaded, _, ended, overlap, reload⟩ := order
  refine ⟨unloaded, fun _ => unloaded state, ?_, overlap, reload⟩
  intro outside
  refine ended (fun b member => outside b ?_)
  exact Threads.mem_set_of_ne found member (by simp)

/-- `OnStart` begins. This thread has the start lock, so nobody else is inside the
callback. -/
theorem StartOrder.begin {s : State} (order : StartOrder s) (locked : StartLocked s) {i : Nat}
    (found : s.threads[i]? = some .startReady) :
    StartOrder { s with
      threads := s.threads.set i (.onStart false), log := .onStartBegin :: s.log } := by
  have cleared : Unloaded s.log := order.ready (Threads.mem_of_getElem? found)
  have alone : ∀ b, .onStart b ∉ s.threads :=
    fun b => locked.absent found trivial trivial (by simp)
  have grown : Unloaded (.onStartBegin :: s.log) :=
    (cleared_cons _ _).mpr ⟨by simp, Or.inr cleared⟩
  refine ⟨fun _ => grown, fun _ => grown, ?_, ?_, ?_⟩
  · intro outside
    exact False.elim (outside false (Threads.mem_set_self found _))
  · exact (between_cons _ _).mpr ⟨fun _ => order.ended alone, order.overlap⟩
  · exact (between_cons _ _).mpr ⟨fun _ => cleared, order.reload⟩

/-- `OnStart` ends. -/
theorem StartOrder.finish {s : State} (order : StartOrder s) (i : Nat) {q : Pc}
    (notReady : q ≠ .startReady) :
    StartOrder { s with threads := s.threads.set i q, log := .onStartEnd :: s.log } := by
  obtain ⟨unloaded, ready, _, overlap, reload⟩ := order
  refine ⟨?_, ?_, ?_, ?_, ?_⟩
  · intro state
    exact (cleared_cons _ _).mpr ⟨by simp, Or.inr (unloaded state)⟩
  · intro member
    rcases Threads.mem_set_cases member with same | member
    · exact False.elim (notReady same.symm)
    · exact (cleared_cons _ _).mpr ⟨by simp, Or.inr (ready member)⟩
  · intro _
    exact (cleared_cons _ _).mpr ⟨by simp, Or.inl rfl⟩
  · exact (between_cons _ _).mpr ⟨by simp, overlap⟩
  · exact (between_cons _ _).mpr ⟨by simp, reload⟩

/-- The final write of `Stop`. -/
theorem StartOrder.write {s : State} (order : StartOrder s) {i : Nat}
    (found : s.threads[i]? = some .stopFinal) (ability : Ability) :
    StartOrder { s with
      ability := ability, threads := s.threads.set i .outside, log := .stopWrite :: s.log } := by
  have moved := order.move .outside s.ability s.onStartLock found (by simp) (by simp) id
  obtain ⟨_, _, ended, overlap, reload⟩ := moved
  have cleared : Unloaded (.stopWrite :: s.log) :=
    (cleared_cons _ _).mpr ⟨by simp, Or.inl rfl⟩
  refine ⟨fun _ => cleared, fun _ => cleared, ?_, ?_, ?_⟩
  · intro outside
    exact (cleared_cons _ _).mpr ⟨by simp, Or.inr (ended outside)⟩
  · exact (between_cons _ _).mpr ⟨by simp, overlap⟩
  · exact (between_cons _ _).mpr ⟨by simp, reload⟩

theorem advance_startOrder {s : State} {i : Nat} {pc pc' : Pc} {ability : Ability}
    {events : List Event} (order : StartOrder s) (locked : StartLocked s)
    (found : s.threads[i]? = some pc)
    (next : advance s.ability pc = some (ability, pc', events)) :
    StartOrder { s with
      ability := ability, threads := s.threads.set i pc', log := events ++ s.log } := by
  cases pc with
  | outside | startEnter | startExit | onIdle => cases next
  | startCheck =>
    simp only [advance] at next
    split at next
    · rename_i state
      cases next
      exact order.check found state
    · cases next
      exact order.move .startExit s.ability s.onStartLock found (by simp) (by simp) id
  | startReady =>
    cases next
    exact order.begin locked found
  | onStart b =>
    cases next
    exact order.finish i (by simp)
  | stopFinal =>
    cases next
    exact order.write found _
  | idleCheck | activeCheck | stopCheck =>
    simp only [advance] at next
    split at next <;> cases next <;>
      exact (order.move _ s.ability s.onStartLock found (by simp) (by simp) id).events
        (by simp [Neutral])
  | idleFinal delayTime =>
    simp only [advance] at next
    split at next
    · cases next
      exact (order.move .outside { s.ability with abilityState := .idle } s.onStartLock
        found (by simp) (by simp) (fun h => by cases h)).events (by simp [Neutral])
    · cases next
      exact (order.move .outside s.ability s.onStartLock found (by simp) (by simp) id).events
        (by simp [Neutral])
  | activeFinal =>
    cases next
    exact order.move .outside { s.ability with abilityState := .active } s.onStartLock
      found (by simp) (by simp) (fun h => by cases h)
  | startFinal =>
    cases next
    exact order.move .startExit { s.ability with isRunning := true } s.onStartLock
      found (by simp) (by simp) id
  | onActive =>
    cases next
    exact order.move .activeFinal s.ability s.onStartLock found (by simp) (by simp) id
  | stopReady =>
    cases next
    exact (order.move .onStop s.ability s.onStartLock found (by simp) (by simp) id).events
      (by simp [Neutral])
  | onStop =>
    cases next
    exact (order.move .stopFinal s.ability s.onStartLock found (by simp) (by simp) id).events
      (by simp [Neutral])

/-- The thread that publishes is inside `OnStart`, so no other thread has passed
the check of `Start`. -/
theorem publish_startOrder {s : State} {i : Nat} {b : Bool} (order : StartOrder s)
    (locked : StartLocked s) (found : s.threads[i]? = some (.onStart b)) (c : PublishCall) :
    StartOrder { s with
      ability := (publish s.ability c).1
      threads := s.threads.set i (.onStart (b || (publish s.ability c).2))
      log := publishEvents (publish s.ability c).2 .onStartPublish ++ s.log } := by
  obtain ⟨unloaded, ready, ended, overlap, reload⟩ := order
  have running : ¬ ∀ b', .onStart b' ∉ s.threads.set i (.onStart (b || (publish s.ability c).2)) :=
    fun outside => outside _ (Threads.mem_set_self found _)
  rcases (publish_cases s.ability c).1 with ⟨succeeded, active⟩ | ⟨failed, same⟩
  · rw [succeeded] at running ⊢
    refine ⟨?_, ?_, fun outside => False.elim (running outside), ?_, ?_⟩
    · intro state
      rw [active] at state
      cases state
    · intro member
      rcases Threads.mem_set_cases member with impossible | member
      · cases impossible
      · have nobody : .startReady ∉ s.threads := locked.absent found trivial trivial (by simp)
        exact False.elim (nobody member)
    · exact (between_cons _ _).mpr ⟨by simp, overlap⟩
    · exact (between_cons _ _).mpr ⟨by simp, reload⟩
  · rw [failed] at running ⊢
    refine ⟨?_, ?_, fun outside => False.elim (running outside), overlap, reload⟩
    · intro state
      exact unloaded (same ▸ state)
    · intro member
      rcases Threads.mem_set_cases member with impossible | member
      · cases impossible
      · exact ready member

theorem moves_startOrder {s t : State} {a : Action} (move : Moves s a t)
    (locked : StartLocked s) (order : StartOrder s) : StartOrder t := by
  cases move with
  | call operation found =>
    exact order.move _ s.ability s.onStartLock found (by simp)
      (by cases operation <;> simp [entry]) id
  | lock found free => exact order.move _ s.ability _ found (by simp) (by simp) id
  | unlock found => exact order.move _ s.ability _ found (by simp) (by simp) id
  | advance found next => exact advance_startOrder order locked found next
  | onIdleReturns delayTime found =>
    exact order.move _ s.ability s.onStartLock found (by simp) (by simp) id
  | publish c found => exact publish_startOrder order locked found c
  | publishElsewhere c =>
    rcases (publish_cases s.ability c).1 with ⟨succeeded, active⟩ | ⟨failed, same⟩
    · rw [succeeded]
      have grown := order.events (Or.inr ⟨.otherPublish, rfl, trivial⟩)
      refine ⟨?_, grown.ready, grown.ended, grown.overlap, grown.reload⟩
      intro state
      rw [active] at state
      cases state
    · rw [failed]
      exact ⟨fun state => order.unloaded (same ▸ state), order.ready, order.ended,
        order.overlap, order.reload⟩

/-- Any number of threads, any interleaving: no two `OnStart` callbacks overlap,
and after one that published the next begins only once a `Stop` has set
`abilityState_` to `NOT_LOADED`. -/
theorem onStart_once_per_load (n : Nat) (s : State)
    (reach : (machine n).Reachable Free s) :
    (∀ (i j : Nat) (b c : Bool), s.threads[i]? = some (.onStart b) →
      s.threads[j]? = some (.onStart c) → i = j) ∧
    Between (· = .onStartBegin) (· = .onStartBegin) (· = .onStartEnd) s.log ∧
    Between (· = .onStartPublish) (· = .onStartBegin) (· = .stopWrite) s.log := by
  have order : StartOrder s := by
    refine reach.invariant StartOrder (initial_startOrder n) ?_
    intro r a t before keep _ next
    exact moves_startOrder (moves_of_step next) (reachable_startLocked before) keep
  refine ⟨?_, order.overlap, order.reload⟩
  intro i j b c hi hj
  exact (reachable_startLocked reach).unique hi trivial hj trivial

/-- Thread 0 starts the ability again after thread 1 has stopped it. -/
def restarted : State where
  ability := ⟨.notLoaded, false, some 1⟩
  threads := [.onStart false, .outside]
  onStartLock := some 0
  log := [.onStartBegin, .stopWrite, .onStopEnd, .onStopBegin, .onStartEnd, .onStartPublish,
    .onStartBegin]

theorem onStart_once_per_load_restarted :
    (machine 2).Reachable Free restarted ∧
    Between (· = .onStartBegin) (· = .onStartBegin) (· = .onStartEnd) restarted.log ∧
    Between (· = .onStartPublish) (· = .onStartBegin) (· = .stopWrite) restarted.log := by
  have reach : (machine 2).Reachable Free restarted :=
    Machine.reachable_of_run
      [.call 0 .start, .lock 0, .advance 0, .advance 0, .publish 0 publishCall, .advance 0,
        .advance 0, .unlock 0, .call 1 .stop, .advance 1, .advance 1, .advance 1, .advance 1,
        .call 0 .start, .lock 0, .advance 0, .advance 0] (by decide)
  exact ⟨reach, (onStart_once_per_load 2 restarted reach).2⟩

end OnStartOnce
