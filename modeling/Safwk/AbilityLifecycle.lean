import Safwk.Library.Transition
import Safwk.Library.Trace
import Safwk.Library.Threads

/-!
# The lifecycle of one ability

`Start`, `Idle`, `Active` and `Stop` of `SystemAbility`, called by any number of
threads. Each call checks `abilityState_` under `abilityLock`, releases the lock,
runs the user's callback and writes the state under the lock again; only `Start`
keeps a lock of its own, `onStartLock_`, from the first statement to the last. A
section under `abilityLock` is one step; everything between two sections may be
interleaved with the other threads. The log records the callbacks, the
successful calls of `Publish` and the final state write of `Stop`.

The reasons handed to the callbacks and the reports to samgr at the end of
`Stop` do not influence the state and are left out.
-/

namespace AbilityLifecycle

open Transition

inductive SystemAbilityState where
  | notLoaded
  | active
  | idle
  deriving DecidableEq

/-- The part of a `SystemAbility` that its lifecycle reads and writes. -/
structure Ability where
  abilityState : SystemAbilityState
  isRunning : Bool
  publishObj : Option Int
  deriving DecidableEq

/-- `ERR_OK` -/
def errOk : Int := 0

/-- What a call of `Publish` is given: the object or a null pointer, whether
samgr was found, and the result of `AddSystemAbility`. -/
structure PublishCall where
  systemAbility : Option Int
  samgrProxy : Bool
  result : Int
  deriving DecidableEq

/-- A call of `Publish` that succeeds. -/
def publishCall : PublishCall := ⟨some 1, true, errOk⟩

def publish (a : Ability) (c : PublishCall) : Ability × Bool :=
  match c.systemAbility with
  | none => (a, false)
  | some object =>
    let a := { a with publishObj := some object }
    if c.samgrProxy = false then (a, false)
    else if c.result = errOk then ({ a with abilityState := .active }, true)
    else (a, false)

inductive Operation where
  | start
  | idle
  | active
  | stop
  deriving DecidableEq

/-- Where a thread is. `ready` is between a passed check and the callback;
`onStart` remembers whether this callback has published. -/
inductive Pc where
  | outside
  | startEnter
  | startCheck
  | startReady
  | onStart (published : Bool)
  | startFinal
  | startExit
  | idleCheck
  | onIdle
  | idleFinal (delayTime : Int)
  | activeCheck
  | onActive
  | activeFinal
  | stopCheck
  | stopReady
  | onStop
  | stopFinal
  deriving DecidableEq

def entry : Operation → Pc
  | .start => .startEnter
  | .idle => .idleCheck
  | .active => .activeCheck
  | .stop => .stopCheck

inductive Event where
  | onStartBegin
  | onStartPublish
  | onStartEnd
  | otherPublish
  | idleReturns (delayTime : Int)
  | onStopBegin
  | onStopEnd
  | stopWrite
  deriving DecidableEq

/-- One step of a thread that takes no lock but `abilityLock`. -/
def advance (a : Ability) : Pc → Option (Ability × Pc × List Event)
  | .startCheck =>
    if a.abilityState = .notLoaded then some (a, .startReady, [])
    else some (a, .startExit, [])
  | .startReady => some (a, .onStart false, [.onStartBegin])
  | .onStart _ => some (a, .startFinal, [.onStartEnd])
  | .startFinal => some ({ a with isRunning := true }, .startExit, [])
  | .idleCheck =>
    if a.abilityState = .active then some (a, .onIdle, [])
    else some (a, .outside, [.idleReturns (-1)])
  | .idleFinal delayTime =>
    if delayTime = 0 then
      some ({ a with abilityState := .idle }, .outside, [.idleReturns delayTime])
    else some (a, .outside, [.idleReturns delayTime])
  | .activeCheck =>
    if a.abilityState = .idle then some (a, .onActive, []) else some (a, .outside, [])
  | .onActive => some (a, .activeFinal, [])
  | .activeFinal => some ({ a with abilityState := .active }, .outside, [])
  | .stopCheck =>
    if a.abilityState = .notLoaded then some (a, .outside, [])
    else some (a, .stopReady, [])
  | .stopReady => some (a, .onStop, [.onStopBegin])
  | .onStop => some (a, .stopFinal, [.onStopEnd])
  | .stopFinal =>
    some ({ a with abilityState := .notLoaded, isRunning := false }, .outside, [.stopWrite])
  | .outside => none
  | .startEnter => none
  | .startExit => none
  | .onIdle => none

structure State where
  ability : Ability
  threads : List Pc
  onStartLock : Option Nat
  /-- Newest first. -/
  log : List Event
  deriving DecidableEq

/-- `publishElsewhere` is a call of `Publish` outside every `OnStart`. -/
inductive Action where
  | call (i : Nat) (operation : Operation)
  | lock (i : Nat)
  | unlock (i : Nat)
  | advance (i : Nat)
  | onIdleReturns (i : Nat) (delayTime : Int)
  | publish (i : Nat) (c : PublishCall)
  | publishElsewhere (c : PublishCall)
  deriving DecidableEq

/-- A successful `Publish` is an event, a failed one is not. -/
def publishEvents (succeeded : Bool) (e : Event) : List Event :=
  if succeeded then [e] else []

def step (s : State) : Action → Option State
  | .call i operation =>
    match s.threads[i]? with
    | some .outside => some { s with threads := s.threads.set i (entry operation) }
    | _ => none
  | .lock i =>
    match s.threads[i]?, s.onStartLock with
    | some .startEnter, none =>
      some { s with threads := s.threads.set i .startCheck, onStartLock := some i }
    | _, _ => none
  | .unlock i =>
    match s.threads[i]? with
    | some .startExit =>
      some { s with threads := s.threads.set i .outside, onStartLock := none }
    | _ => none
  | .advance i =>
    match s.threads[i]? with
    | some pc =>
      match advance s.ability pc with
      | some (ability, pc', events) =>
        some { s with
          ability := ability, threads := s.threads.set i pc', log := events ++ s.log }
      | none => none
    | none => none
  | .onIdleReturns i delayTime =>
    match s.threads[i]? with
    | some .onIdle => some { s with threads := s.threads.set i (.idleFinal delayTime) }
    | _ => none
  | .publish i c =>
    match s.threads[i]? with
    | some (.onStart published) =>
      let (ability, succeeded) := publish s.ability c
      some { s with
        ability := ability, threads := s.threads.set i (.onStart (published || succeeded))
        log := publishEvents succeeded .onStartPublish ++ s.log }
    | _ => none
  | .publishElsewhere c =>
    let (ability, succeeded) := publish s.ability c
    some { s with
      ability := ability, log := publishEvents succeeded .otherPublish ++ s.log }

/-- The constructor of `SystemAbility`, with `n` threads that have not called. -/
def initial (n : Nat) : State where
  ability := ⟨.notLoaded, false, none⟩
  threads := List.replicate n .outside
  onStartLock := none
  log := []

def machine (n : Nat) : Machine State Action where
  init := initial n
  step := step

/-- No call is in progress. -/
def Quiescent (s : State) : Prop := ∀ pc ∈ s.threads, pc = .outside

instance (s : State) : Decidable (Quiescent s) :=
  inferInstanceAs (Decidable (∀ pc ∈ s.threads, pc = .outside))

inductive Moves : State → Action → State → Prop
  | call {s : State} {i : Nat} (operation : Operation)
      (found : s.threads[i]? = some .outside) :
      Moves s (.call i operation)
        { s with threads := s.threads.set i (entry operation) }
  | lock {s : State} {i : Nat} (found : s.threads[i]? = some .startEnter)
      (free : s.onStartLock = none) :
      Moves s (.lock i)
        { s with threads := s.threads.set i .startCheck, onStartLock := some i }
  | unlock {s : State} {i : Nat} (found : s.threads[i]? = some .startExit) :
      Moves s (.unlock i)
        { s with threads := s.threads.set i .outside, onStartLock := none }
  | advance {s : State} {i : Nat} {pc pc' : Pc} {ability : Ability} {events : List Event}
      (found : s.threads[i]? = some pc)
      (next : advance s.ability pc = some (ability, pc', events)) :
      Moves s (.advance i) { s with
        ability := ability, threads := s.threads.set i pc', log := events ++ s.log }
  | onIdleReturns {s : State} {i : Nat} (delayTime : Int)
      (found : s.threads[i]? = some .onIdle) :
      Moves s (.onIdleReturns i delayTime)
        { s with threads := s.threads.set i (.idleFinal delayTime) }
  | publish {s : State} {i : Nat} {published : Bool} (c : PublishCall)
      (found : s.threads[i]? = some (.onStart published)) :
      Moves s (.publish i c) { s with
        ability := (publish s.ability c).1
        threads := s.threads.set i (.onStart (published || (publish s.ability c).2))
        log := publishEvents (publish s.ability c).2 .onStartPublish ++ s.log }
  | publishElsewhere {s : State} (c : PublishCall) :
      Moves s (.publishElsewhere c) { s with
        ability := (publish s.ability c).1
        log := publishEvents (publish s.ability c).2 .otherPublish ++ s.log }

theorem moves_of_step {s t : State} {a : Action} (h : step s a = some t) : Moves s a t := by
  cases a with
  | call i operation =>
    simp only [step] at h
    split at h
    · rename_i found
      exact Option.some.inj h ▸ .call operation found
    · cases h
  | lock i =>
    simp only [step] at h
    split at h
    · rename_i found free
      exact Option.some.inj h ▸ .lock found free
    · cases h
  | unlock i =>
    simp only [step] at h
    split at h
    · rename_i found
      exact Option.some.inj h ▸ .unlock found
    · cases h
  | advance i =>
    simp only [step] at h
    split at h
    · rename_i found
      split at h
      · rename_i next
        exact Option.some.inj h ▸ .advance found next
      · cases h
    · cases h
  | onIdleReturns i delayTime =>
    simp only [step] at h
    split at h
    · rename_i found
      exact Option.some.inj h ▸ .onIdleReturns delayTime found
    · cases h
  | publish i c =>
    simp only [step] at h
    split at h
    · rename_i found
      exact Option.some.inj h ▸ .publish c found
    · cases h
  | publishElsewhere c => exact Option.some.inj h ▸ .publishElsewhere c

/-- A successful `Publish` makes the ability active, a failed one leaves its
lifecycle alone; neither touches `isRunning_`. -/
theorem publish_cases (a : Ability) (c : PublishCall) :
    ((publish a c).2 = true ∧ (publish a c).1.abilityState = .active ∨
      (publish a c).2 = false ∧ (publish a c).1.abilityState = a.abilityState) ∧
    (publish a c).1.isRunning = a.isRunning := by
  rw [publish]
  split
  · exact ⟨Or.inr ⟨rfl, rfl⟩, rfl⟩
  · dsimp only
    split
    · exact ⟨Or.inr ⟨rfl, rfl⟩, rfl⟩
    · split
      · exact ⟨Or.inl ⟨rfl, rfl⟩, rfl⟩
      · exact ⟨Or.inr ⟨rfl, rfl⟩, rfl⟩

section StartLock

/-- The places of `Start` at which the thread has `onStartLock_`. -/
def Pc.HoldsStart : Pc → Prop
  | .startCheck => True
  | .startReady => True
  | .onStart _ => True
  | .startFinal => True
  | .startExit => True
  | _ => False

def StartLocked (s : State) : Prop :=
  Threads.Locked Pc.HoldsStart (fun i => s.onStartLock = some i) s.threads

theorem advance_holdsStart {a b : Ability} {pc pc' : Pc} {events : List Event}
    (next : advance a pc = some (b, pc', events)) : pc'.HoldsStart ↔ pc.HoldsStart := by
  cases pc with
  | outside | startEnter | startExit | onIdle => cases next
  | startCheck | idleCheck | idleFinal | activeCheck | stopCheck =>
    simp only [advance] at next
    split at next <;> cases next <;> exact Iff.rfl
  | startReady | onStart | startFinal | onActive | activeFinal | stopReady | onStop
  | stopFinal => cases next; exact Iff.rfl

theorem moves_startLocked {s t : State} {a : Action} (move : Moves s a t)
    (locked : StartLocked s) : StartLocked t := by
  cases move with
  | call operation found =>
    refine locked.set_same found ?_
    cases operation <;> exact Iff.rfl
  | @lock i found free =>
    refine locked.set ?_ (by simp [Pc.HoldsStart])
    intro j other
    simp [free, Ne.symm other]
  | @unlock i found =>
    have mine : s.onStartLock = some i := (locked i _ found).mp trivial
    refine locked.set ?_ (by simp [Pc.HoldsStart])
    intro j other
    simp [mine, Ne.symm other]
  | advance found next => exact locked.set_same found (advance_holdsStart next)
  | onIdleReturns delayTime found => exact locked.set_same found Iff.rfl
  | publish c found => exact locked.set_same found Iff.rfl
  | publishElsewhere c => exact locked

theorem reachable_startLocked {n : Nat} {ok : State → Action → Prop} {s : State}
    (reach : (machine n).Reachable ok s) : StartLocked s := by
  refine reach.invariant StartLocked ?_ ?_
  · intro i pc found
    have out : pc = .outside := List.eq_of_mem_replicate (Threads.mem_of_getElem? found)
    simp [out, Pc.HoldsStart, machine, initial]
  · intro r a t _ keep _ next
    exact moves_startLocked (moves_of_step next) keep

/-- Two threads inside `Start` are the same thread. -/
theorem StartLocked.unique {s : State} (locked : StartLocked s) {i j : Nat} {p q : Pc}
    (hi : s.threads[i]? = some p) (hp : p.HoldsStart)
    (hj : s.threads[j]? = some q) (hq : q.HoldsStart) : i = j := by
  have first : s.onStartLock = some i := (locked i p hi).mp hp
  have second : s.onStartLock = some j := (locked j q hj).mp hq
  exact Option.some.inj (first.symm.trans second)

/-- While a thread is at one place inside `Start`, no thread is at another one. -/
theorem StartLocked.absent {s : State} (locked : StartLocked s) {i : Nat} {p q : Pc}
    (hi : s.threads[i]? = some p) (hp : p.HoldsStart) (hq : q.HoldsStart) (other : q ≠ p) :
    q ∉ s.threads := by
  intro member
  obtain ⟨j, hj⟩ := List.mem_iff_getElem?.mp member
  have same := locked.unique hi hp hj hq
  subst same
  exact other (Option.some.inj (hj.symm.trans hi))

end StartLock

end AbilityLifecycle
