import Safwk.AbilityLifecycle

/-!
# `OnStop` runs once for each load

`Stop` has no counterpart of `onStartLock_`: it checks `abilityState_`, releases
`abilityLock` for the callback and writes `NOT_LOADED` at the end, so a second
`Stop` that checks in between runs the callback again. The same happens after
an `Idle` or `Active` that a `Stop` has overtaken writes its state over
`NOT_LOADED`.

Without these two kinds of steps there is a successful `Publish` between any
two callbacks. Calls of `Publish` may come from anywhere.
-/

namespace OnStopOnce

open Transition Trace AbilityLifecycle

/-- A `Stop` between its passed check and its final write. -/
def inStop : Pc → Bool
  | .stopReady => true
  | .onStop => true
  | .stopFinal => true
  | _ => false

/-- A `Stop` that passed its check and has not called `OnStop` yet. -/
def isReady : Pc → Bool
  | .stopReady => true
  | _ => false

/-- A successful call of `Publish`. -/
def Published (e : Event) : Prop := e = .onStartPublish ∨ e = .otherPublish

def stopsAlone (s : State) : Action → Bool
  | .advance i =>
    match s.threads[i]? with
    | some .stopCheck => s.ability.abilityState == .notLoaded || s.threads.countP inStop == 0
    | some (.idleFinal delayTime) => delayTime != 0 || s.ability.abilityState != .notLoaded
    | some .activeFinal => s.ability.abilityState != .notLoaded
    | _ => true
  | _ => true

/-- No `Stop` passes its check while another one is under way, and no `Idle` or
`Active` writes its state over `NOT_LOADED`. -/
def StopsAlone (s : State) (a : Action) : Prop := stopsAlone s a = true

instance (s : State) (a : Action) : Decidable (StopsAlone s a) :=
  inferInstanceAs (Decidable (stopsAlone s a = true))

/-- Every `OnStop` so far has been followed by a `Publish`. -/
def Reloaded (log : List Event) : Prop := Cleared (· = .onStopBegin) Published log

/-- At most one `Stop` is under way; a `Stop` that may call `OnStop` next, or
that could pass its check, finds the ability published since the last one. -/
structure StopOrder (s : State) : Prop where
  alone : s.threads.countP inStop ≤ 1
  spaced : Between (· = .onStopBegin) (· = .onStopBegin) Published s.log
  ready : 0 < s.threads.countP isReady → Reloaded s.log
  loaded : s.ability.abilityState ≠ .notLoaded → s.threads.countP inStop = 0 → Reloaded s.log

theorem initial_stopOrder (n : Nat) : StopOrder (initial n) := by
  constructor
  · simp [initial, List.countP_replicate, inStop]
  · exact between_nil
  · simp [initial, List.countP_replicate, isReady]
  · intro state
    exact False.elim (state rfl)

theorem isReady_le_inStop (threads : List Pc) : threads.countP isReady ≤ threads.countP inStop := by
  apply List.countP_mono_left
  intro pc _ ready
  cases pc <;> first | rfl | cases ready

/-- A step that leaves every `Stop` where it is and loads the ability only by a
`Publish`. -/
theorem StopOrder.keep {s t : State} (order : StopOrder s) (events : List Event)
    (grows : t.log = events ++ s.log) (quiet : ∀ e ∈ events, e ≠ .onStopBegin)
    (stops : t.threads.countP inStop = s.threads.countP inStop)
    (readies : t.threads.countP isReady = s.threads.countP isReady)
    (loads : t.ability.abilityState ≠ .notLoaded →
      s.ability.abilityState ≠ .notLoaded ∨ ∃ e ∈ events, Published e) : StopOrder t := by
  constructor
  · rw [stops]
    exact order.alone
  · rw [grows]
    exact between_append quiet order.spaced
  · intro ready
    rw [grows]
    exact cleared_append quiet (Or.inr (order.ready (readies ▸ ready)))
  · intro state none
    rw [grows]
    rcases loads state with before | published
    · exact cleared_append quiet (Or.inr (order.loaded before (stops.symm.trans none)))
    · exact cleared_append quiet (Or.inl published)

/-- The same for a thread that moves. -/
theorem StopOrder.move {s : State} (order : StopOrder s) {i : Nat} {p q : Pc} {a : Ability}
    {lock : Option Nat} (events : List Event) (found : s.threads[i]? = some p)
    (stops : inStop q = inStop p) (readies : isReady q = isReady p)
    (quiet : ∀ e ∈ events, e ≠ .onStopBegin)
    (loads : a.abilityState ≠ .notLoaded →
      s.ability.abilityState ≠ .notLoaded ∨ ∃ e ∈ events, Published e) :
    StopOrder ⟨a, s.threads.set i q, lock, events ++ s.log⟩ := by
  refine order.keep events rfl quiet ?_ ?_ loads
  · have moved := Threads.countP_set_add inStop q found
    rw [stops] at moved
    exact Nat.add_right_cancel moved
  · have moved := Threads.countP_set_add isReady q found
    rw [readies] at moved
    exact Nat.add_right_cancel moved

/-- A `Stop` passes its check: no other one is under way. -/
theorem StopOrder.check {s : State} (order : StopOrder s) {i : Nat} {lock : Option Nat}
    (found : s.threads[i]? = some .stopCheck) (state : s.ability.abilityState ≠ .notLoaded)
    (none : s.threads.countP inStop = 0) :
    StopOrder ⟨s.ability, s.threads.set i .stopReady, lock, s.log⟩ := by
  have stops := Threads.countP_set_add inStop .stopReady found
  simp only [inStop, Bool.toNat_false, Bool.toNat_true] at stops
  refine ⟨?_, order.spaced, fun _ => order.loaded state none, ?_⟩
  · dsimp only
    omega
  · intro _ after
    dsimp only at after
    omega

/-- `OnStop` begins: no other `Stop` is ready to begin one. -/
theorem StopOrder.begin {s : State} (order : StopOrder s) {i : Nat} {lock : Option Nat}
    (found : s.threads[i]? = some .stopReady) :
    StopOrder ⟨s.ability, s.threads.set i .onStop, lock, .onStopBegin :: s.log⟩ := by
  have stops := Threads.countP_set_add inStop .onStop found
  have readies := Threads.countP_set_add isReady .onStop found
  simp only [inStop, isReady, Bool.toNat_false, Bool.toNat_true] at stops readies
  have bound := isReady_le_inStop s.threads
  have alone := order.alone
  constructor
  · dsimp only
    omega
  · apply (between_cons _ _).mpr
    exact ⟨fun _ => order.ready (by omega), order.spaced⟩
  · intro ready
    dsimp only at ready
    omega
  · intro _ after
    dsimp only at after
    omega

/-- The final write of a `Stop`. -/
theorem StopOrder.write {s : State} (order : StopOrder s) {i : Nat} {lock : Option Nat}
    (found : s.threads[i]? = some .stopFinal) :
    StopOrder ⟨{ s.ability with abilityState := .notLoaded, isRunning := false },
      s.threads.set i .outside, lock, .stopWrite :: s.log⟩ := by
  have stops := Threads.countP_set_add inStop .outside found
  have readies := Threads.countP_set_add isReady .outside found
  simp only [inStop, isReady, Bool.toNat_false, Bool.toNat_true] at stops readies
  have alone := order.alone
  constructor
  · dsimp only
    omega
  · apply (between_cons _ _).mpr
    exact ⟨fun h => (by cases h), order.spaced⟩
  · intro ready
    dsimp only at ready
    exact (cleared_cons _ _).mpr ⟨fun h => (by cases h), Or.inr (order.ready (by omega))⟩
  · intro state
    exact False.elim (state rfl)

theorem advance_stopOrder {s : State} {i : Nat} {pc pc' : Pc} {ability : Ability}
    {events : List Event} (order : StopOrder s) (guard : StopsAlone s (.advance i))
    (found : s.threads[i]? = some pc)
    (next : advance s.ability pc = some (ability, pc', events)) :
    StopOrder { s with
      ability := ability, threads := s.threads.set i pc', log := events ++ s.log } := by
  cases pc with
  | outside | startEnter | startExit | onIdle => cases next
  | stopCheck =>
    simp only [advance] at next
    split at next
    · cases next
      exact order.move [] found rfl rfl (by simp) Or.inl
    · rename_i state
      cases next
      have none : s.threads.countP inStop = 0 := by
        simpa [StopsAlone, stopsAlone, found, state] using guard
      exact order.check found state none
  | stopReady =>
    cases next
    exact order.begin found
  | stopFinal =>
    cases next
    exact order.write found
  | idleFinal delayTime =>
    simp only [advance] at next
    split at next
    · rename_i zero
      cases next
      have state : s.ability.abilityState ≠ .notLoaded := by
        simpa [StopsAlone, stopsAlone, found, zero] using guard
      exact order.move [.idleReturns delayTime] found rfl rfl (by simp) (fun _ => Or.inl state)
    · cases next
      exact order.move [.idleReturns delayTime] found rfl rfl (by simp) Or.inl
  | activeFinal =>
    cases next
    have state : s.ability.abilityState ≠ .notLoaded := by
      simpa [StopsAlone, stopsAlone, found] using guard
    exact order.move [] found rfl rfl (by simp) (fun _ => Or.inl state)
  | startCheck | idleCheck | activeCheck =>
    simp only [advance] at next
    split at next <;> cases next <;> exact order.move _ found rfl rfl (by simp) Or.inl
  | startReady | onStart | startFinal | onActive | onStop =>
    cases next
    exact order.move _ found rfl rfl (by simp) Or.inl

/-- After a call of `Publish` the ability is loaded only if it was before, or
the call is logged. -/
theorem publish_loads (a : Ability) (c : PublishCall) {e : Event} (published : Published e)
    (loaded : (publish a c).1.abilityState ≠ .notLoaded) :
    a.abilityState ≠ .notLoaded ∨ ∃ e' ∈ publishEvents (publish a c).2 e, Published e' := by
  rcases (publish_cases a c).1 with ⟨succeeded, _⟩ | ⟨_, same⟩
  · right
    exact ⟨e, by simp [succeeded, publishEvents], published⟩
  · left
    rwa [← same]

theorem publishEvents_quiet (succeeded : Bool) {e : Event} (quiet : e ≠ .onStopBegin) :
    ∀ e' ∈ publishEvents succeeded e, e' ≠ .onStopBegin := by
  cases succeeded <;> simp [publishEvents, quiet]

theorem moves_stopOrder {s t : State} {a : Action} (move : Moves s a t)
    (guard : StopsAlone s a) (order : StopOrder s) : StopOrder t := by
  cases move with
  | call operation found =>
    apply order.move [] found _ _ (by simp) Or.inl
    all_goals cases operation <;> rfl
  | lock found free => exact order.move [] found rfl rfl (by simp) Or.inl
  | unlock found => exact order.move [] found rfl rfl (by simp) Or.inl
  | advance found next => exact advance_stopOrder order guard found next
  | onIdleReturns delayTime found => exact order.move [] found rfl rfl (by simp) Or.inl
  | publish c found =>
    exact order.move _ found rfl rfl (publishEvents_quiet _ (by simp))
      (publish_loads s.ability c (Or.inl rfl))
  | publishElsewhere c =>
    exact order.keep _ rfl (publishEvents_quiet _ (by simp)) rfl rfl
      (publish_loads s.ability c (Or.inr rfl))

/-- Any number of threads, any interleaving in which no `Stop` passes its check
during another one and no `Idle` or `Active` revives a stopped ability: between
the beginnings of two `OnStop` callbacks there is a successful `Publish`. -/
theorem onStop_once_per_load (n : Nat) (s : State)
    (reach : (machine n).Reachable StopsAlone s) :
    Between (· = .onStopBegin) (· = .onStopBegin) Published s.log := by
  have order : StopOrder s := by
    refine reach.invariant StopOrder (initial_stopOrder n) ?_
    intro r a t _ keep guard next
    exact moves_stopOrder (moves_of_step next) guard keep
  exact order.spaced

/-- Thread 0 loads the ability, thread 1 stops it, and both do so again. -/
def stoppedTwice : State where
  ability := ⟨.active, true, some 1⟩
  threads := [.outside, .onStop]
  onStartLock := none
  log := [.onStopBegin, .onStartEnd, .onStartPublish, .onStartBegin, .stopWrite, .onStopEnd,
    .onStopBegin, .onStartEnd, .onStartPublish, .onStartBegin]

theorem onStop_once_per_load_stoppedTwice :
    (machine 2).Reachable StopsAlone stoppedTwice ∧
    Between (· = .onStopBegin) (· = .onStopBegin) Published stoppedTwice.log := by
  have reach : (machine 2).Reachable StopsAlone stoppedTwice :=
    Machine.reachable_of_run
      [.call 0 .start, .lock 0, .advance 0, .advance 0, .publish 0 publishCall, .advance 0,
        .advance 0, .unlock 0, .call 1 .stop, .advance 1, .advance 1, .advance 1, .advance 1,
        .call 0 .start, .lock 0, .advance 0, .advance 0, .publish 0 publishCall, .advance 0,
        .advance 0, .unlock 0, .call 1 .stop, .advance 1, .advance 1] (by decide)
  exact ⟨reach, onStop_once_per_load 2 stoppedTwice reach⟩

/-- Two threads stop the same loaded ability: both pass the check before either
writes `NOT_LOADED`. -/
def stoppedTogether : State where
  ability := ⟨.active, false, some 1⟩
  threads := [.onStop, .onStop]
  onStartLock := none
  log := [.onStopBegin, .onStopBegin, .otherPublish]

theorem onStop_runs_twice :
    ¬ ∀ s, (machine 2).Reachable Free s →
      Between (· = .onStopBegin) (· = .onStopBegin) Published s.log := by
  intro once
  have reach : (machine 2).Reachable Free stoppedTogether :=
    Machine.reachable_of_run
      [.publishElsewhere publishCall, .call 0 .stop, .call 1 .stop, .advance 0, .advance 1,
        .advance 0, .advance 1] (by decide)
  have cleared := ((between_cons _ _).mp (once stoppedTogether reach)).1 rfl
  have first := ((cleared_cons _ _).mp cleared).1
  exact first rfl

end OnStopOnce
