import Safwk.Library.Transition
import Safwk.Library.Threads
import Mathlib.Data.List.Basic

/-!
# Boot phases on the init pool

The main thread of `FindAndStartPhaseTasks` against the workers of `initPool_`.
`StartPhaseTasks` takes `startPhaseLock_`, increments `startTaskNum_` and calls
`AddTask` before it releases the lock; `StartSystemAbilityTask` takes the same
lock after the ability's start to decrement the counter. The pool itself is
outside the repository: it is used only through a bounded queue, on which
`AddTask` blocks at the limit and from which a worker removes a task before it
runs it, in no particular order.

The start of an ability, with or without dependencies, is one step that may be
delayed arbitrarily but returns. Null pointers of the phase lists are `none`.
-/

namespace BootPool

open Transition

universe u

variable {Ability : Type u}

/-- `MAX_TASK_NUMBER`, the limit given to `SetMaxTaskNum`. -/
def maxTaskNumber : Nat := 20

/-- `DEFAULT_SAID` -/
def defaultSaId : Int := -1

/-- `BOOT_START`, `CORE_START` and `OTHER_START`, in the order of the loop. -/
def bootPhases : List Nat := [1, 2, 3]

/-- A queued `StartSystemAbilityTask`, with the phase that enqueued it. -/
structure PhaseTask (Ability : Type u) where
  phase : Nat
  ability : Ability
  deriving DecidableEq

/-- Statements of the main thread. -/
inductive Op (Ability : Type u) where
  | startTask (phase : Nat) (ability : Option Ability)
  | initializeRunOnCreateSaProfiles (phase : Nat)
  | waitForTasks (phase : Nat)
  deriving DecidableEq

/-- The loop of `StartPhaseTasks`; an empty list is an immediate return. -/
def startPhaseTasks (phase : Nat) (systemAbilityList : List (Option Ability)) :
    List (Op Ability) :=
  systemAbilityList.map (Op.startTask phase)

/-- One round of the loop of `FindAndStartPhaseTasks`. In the default mode the
libraries of the next phase are loaded before the wait. -/
def visitPhase (saId : Int) (abilityPhaseMap : Nat → Option (List (Option Ability)))
    (bootPhase : Nat) : List (Op Ability) :=
  match abilityPhaseMap bootPhase with
  | some list =>
    if saId = defaultSaId then
      startPhaseTasks bootPhase list ++
        [.initializeRunOnCreateSaProfiles (bootPhase + 1), .waitForTasks bootPhase]
    else startPhaseTasks bootPhase list ++ [.waitForTasks bootPhase]
  | none =>
    if saId = defaultSaId then [.initializeRunOnCreateSaProfiles (bootPhase + 1)] else []

def findAndStartPhaseTasks (saId : Int)
    (abilityPhaseMap : Nat → Option (List (Option Ability))) : List (Op Ability) :=
  bootPhases.flatMap (visitPhase saId abilityPhaseMap)

/-- `adding` is inside `AddTask` with `startPhaseLock_` held. -/
inductive Main (Ability : Type u) where
  | ready
  | adding (task : PhaseTask Ability)
  | added
  deriving DecidableEq

/-- A pool worker, by its place in `StartSystemAbilityTask`. -/
inductive Worker (Ability : Type u) where
  | idle
  | starting (task : PhaseTask Ability)
  | waiting (task : PhaseTask Ability)
  | holding (task : PhaseTask Ability)
  | releasing (task : PhaseTask Ability)
  deriving DecidableEq

/-- The task a worker has popped and not yet finished. -/
def Worker.task? : Worker Ability → Option (PhaseTask Ability)
  | .idle => none
  | .starting t => some t
  | .waiting t => some t
  | .holding t => some t
  | .releasing t => some t

/-- The owner of `startPhaseLock_`. -/
inductive Owner where
  | main
  | worker (i : Nat)
  deriving DecidableEq

structure State (Ability : Type u) where
  todo : List (Op Ability)
  main : Main Ability
  queue : List (PhaseTask Ability)
  workers : List (Worker Ability)
  startPhaseLock : Option Owner
  startTaskNum : Nat
  /-- Phases whose `WaitForTasks` logged "start timeout!". -/
  timedOut : List Nat
  deriving DecidableEq

inductive Action where
  | main
  | timeout
  | pop (i k : Nat)
  | started (i : Nat)
  | lock (i : Nat)
  | decrement (i : Nat)
  | unlock (i : Nat)
  deriving DecidableEq

/-- `wait_for` returns only with the lock, so `WaitForTasks` is one step whose
two outcomes are the predicate and the timeout. -/
def stepMain (s : State Ability) : Option (State Ability) :=
  match s.main, s.todo with
  | .adding t, _ =>
    if s.queue.length < maxTaskNumber then
      some { s with main := .added, queue := s.queue ++ [t] }
    else none
  | .added, _ => some { s with main := .ready, startPhaseLock := none }
  | .ready, [] => none
  | .ready, .startTask _ none :: rest => some { s with todo := rest }
  | .ready, .startTask p (some a) :: rest =>
    if s.startPhaseLock = none then
      some { s with
        todo := rest, main := .adding ⟨p, a⟩, startPhaseLock := some .main
        startTaskNum := s.startTaskNum + 1 }
    else none
  | .ready, .initializeRunOnCreateSaProfiles _ :: rest => some { s with todo := rest }
  | .ready, .waitForTasks _ :: rest =>
    if s.startPhaseLock = none ∧ s.startTaskNum = 0 then some { s with todo := rest }
    else none

def stepTimeout (s : State Ability) : Option (State Ability) :=
  match s.main, s.todo with
  | .ready, .waitForTasks p :: rest =>
    if s.startPhaseLock = none ∧ s.startTaskNum ≠ 0 then
      some { s with todo := rest, startTaskNum := 0, timedOut := p :: s.timedOut }
    else none
  | _, _ => none

def step (s : State Ability) : Action → Option (State Ability)
  | .main => stepMain s
  | .timeout => stepTimeout s
  | .pop i k =>
    match s.workers[i]?, s.queue[k]? with
    | some .idle, some t =>
      some { s with queue := s.queue.eraseIdx k, workers := s.workers.set i (.starting t) }
    | _, _ => none
  | .started i =>
    match s.workers[i]? with
    | some (.starting t) => some { s with workers := s.workers.set i (.waiting t) }
    | _ => none
  | .lock i =>
    match s.workers[i]? with
    | some (.waiting t) =>
      if s.startPhaseLock = none then
        some { s with
          workers := s.workers.set i (.holding t), startPhaseLock := some (.worker i) }
      else none
    | _ => none
  | .decrement i =>
    match s.workers[i]? with
    | some (.holding t) =>
      some { s with
        workers := s.workers.set i (.releasing t), startTaskNum := s.startTaskNum - 1 }
    | _ => none
  | .unlock i =>
    match s.workers[i]? with
    | some (.releasing _) =>
      some { s with workers := s.workers.set i .idle, startPhaseLock := none }
    | _ => none

/-- `concurrentThreads` workers, nothing queued, the counter at 0. -/
def initial (concurrentThreads : Nat) (program : List (Op Ability)) : State Ability where
  todo := program
  main := .ready
  queue := []
  workers := List.replicate concurrentThreads .idle
  startPhaseLock := none
  startTaskNum := 0
  timedOut := []

def machine (concurrentThreads : Nat) (program : List (Op Ability)) :
    Machine (State Ability) Action where
  init := initial concurrentThreads program
  step := step

/-- The same steps as a relation, one constructor for each statement. -/
inductive Moves : State Ability → Action → State Ability → Prop
  | skipNull {s : State Ability} {p : Nat} {rest : List (Op Ability)}
      (ready : s.main = .ready) (next : s.todo = .startTask p none :: rest) :
      Moves s .main { s with todo := rest }
  | lockMain {s : State Ability} {p : Nat} {a : Ability} {rest : List (Op Ability)}
      (ready : s.main = .ready) (next : s.todo = .startTask p (some a) :: rest)
      (free : s.startPhaseLock = none) :
      Moves s .main { s with
        todo := rest, main := .adding ⟨p, a⟩, startPhaseLock := some .main
        startTaskNum := s.startTaskNum + 1 }
  | addTask {s : State Ability} {t : PhaseTask Ability} (adding : s.main = .adding t)
      (room : s.queue.length < maxTaskNumber) :
      Moves s .main { s with main := .added, queue := s.queue ++ [t] }
  | unlockMain {s : State Ability} (added : s.main = .added) :
      Moves s .main { s with main := .ready, startPhaseLock := none }
  | loadProfiles {s : State Ability} {p : Nat} {rest : List (Op Ability)}
      (ready : s.main = .ready)
      (next : s.todo = .initializeRunOnCreateSaProfiles p :: rest) :
      Moves s .main { s with todo := rest }
  | waitReturns {s : State Ability} {p : Nat} {rest : List (Op Ability)}
      (ready : s.main = .ready) (next : s.todo = .waitForTasks p :: rest)
      (free : s.startPhaseLock = none) (zero : s.startTaskNum = 0) :
      Moves s .main { s with todo := rest }
  | waitTimesOut {s : State Ability} {p : Nat} {rest : List (Op Ability)}
      (ready : s.main = .ready) (next : s.todo = .waitForTasks p :: rest)
      (free : s.startPhaseLock = none) (nonzero : s.startTaskNum ≠ 0) :
      Moves s .timeout
        { s with todo := rest, startTaskNum := 0, timedOut := p :: s.timedOut }
  | pop {s : State Ability} {i k : Nat} {t : PhaseTask Ability}
      (idle : s.workers[i]? = some .idle) (queued : s.queue[k]? = some t) :
      Moves s (.pop i k)
        { s with queue := s.queue.eraseIdx k, workers := s.workers.set i (.starting t) }
  | started {s : State Ability} {i : Nat} {t : PhaseTask Ability}
      (starting : s.workers[i]? = some (.starting t)) :
      Moves s (.started i) { s with workers := s.workers.set i (.waiting t) }
  | lockWorker {s : State Ability} {i : Nat} {t : PhaseTask Ability}
      (waiting : s.workers[i]? = some (.waiting t)) (free : s.startPhaseLock = none) :
      Moves s (.lock i) { s with
        workers := s.workers.set i (.holding t), startPhaseLock := some (.worker i) }
  | decrement {s : State Ability} {i : Nat} {t : PhaseTask Ability}
      (holding : s.workers[i]? = some (.holding t)) :
      Moves s (.decrement i) { s with
        workers := s.workers.set i (.releasing t), startTaskNum := s.startTaskNum - 1 }
  | unlockWorker {s : State Ability} {i : Nat} {t : PhaseTask Ability}
      (releasing : s.workers[i]? = some (.releasing t)) :
      Moves s (.unlock i)
        { s with workers := s.workers.set i .idle, startPhaseLock := none }

theorem stepMain_moves {s t : State Ability} (h : stepMain s = some t) :
    Moves s .main t := by
  unfold stepMain at h
  split at h
  · rename_i task hmain
    split at h
    · rename_i room
      exact Option.some.inj h ▸ .addTask hmain room
    · cases h
  · rename_i hmain
    exact Option.some.inj h ▸ .unlockMain hmain
  · cases h
  · rename_i hmain htodo
    exact Option.some.inj h ▸ .skipNull hmain htodo
  · rename_i hmain htodo
    split at h
    · rename_i free
      exact Option.some.inj h ▸ .lockMain hmain htodo free
    · cases h
  · rename_i hmain htodo
    exact Option.some.inj h ▸ .loadProfiles hmain htodo
  · rename_i hmain htodo
    split at h
    · rename_i free
      exact Option.some.inj h ▸ .waitReturns hmain htodo free.1 free.2
    · cases h

theorem stepTimeout_moves {s t : State Ability} (h : stepTimeout s = some t) :
    Moves s .timeout t := by
  unfold stepTimeout at h
  split at h
  · rename_i hmain htodo
    split at h
    · rename_i free
      exact Option.some.inj h ▸ .waitTimesOut hmain htodo free.1 free.2
    · cases h
  · cases h

/-- The step function does exactly what the relation lists. -/
theorem step_iff_moves {s t : State Ability} {a : Action} :
    step s a = some t ↔ Moves s a t := by
  constructor
  · intro h
    cases a with
    | main => exact stepMain_moves h
    | timeout => exact stepTimeout_moves h
    | pop i k =>
      simp only [step] at h
      split at h
      · rename_i idle queued
        exact Option.some.inj h ▸ .pop idle queued
      · cases h
    | started i =>
      simp only [step] at h
      split at h
      · rename_i starting
        exact Option.some.inj h ▸ .started starting
      · cases h
    | lock i =>
      simp only [step] at h
      split at h
      · rename_i waiting
        split at h
        · rename_i free
          exact Option.some.inj h ▸ .lockWorker waiting free
        · cases h
      · cases h
    | decrement i =>
      simp only [step] at h
      split at h
      · rename_i holding
        exact Option.some.inj h ▸ .decrement holding
      · cases h
    | unlock i =>
      simp only [step] at h
      split at h
      · rename_i releasing
        exact Option.some.inj h ▸ .unlockWorker releasing
      · cases h
  · intro h
    cases h <;> simp_all [step, stepMain, stepTimeout]

section Lock

/-- The places in `StartSystemAbilityTask` at which a worker has the lock. -/
def Worker.Holds : Worker Ability → Prop
  | .holding _ => True
  | .releasing _ => True
  | _ => False

/-- `startPhaseLock_` is a mutex: its owner is the one thread inside a guarded
section, and there is such a thread whenever there is an owner. -/
structure LockOk (s : State Ability) : Prop where
  main : s.main ≠ .ready ↔ s.startPhaseLock = some .main
  workers : Threads.Locked Worker.Holds
    (fun i => s.startPhaseLock = some (.worker i)) s.workers
  owner : ∀ i, s.startPhaseLock = some (.worker i) → i < s.workers.length

theorem initial_lockOk (n : Nat) (program : List (Op Ability)) :
    LockOk (initial n program) := by
  refine ⟨by simp [initial], ?_, by simp [initial]⟩
  intro i p found
  have idle : p = .idle := List.eq_of_mem_replicate (Threads.mem_of_getElem? found)
  simp [idle, initial, Worker.Holds]

theorem moves_lockOk {s t : State Ability} {a : Action} (move : Moves s a t)
    (ok : LockOk s) : LockOk t := by
  obtain ⟨main, workers, owner⟩ := ok
  cases move with
  | skipNull ready next => exact ⟨main, workers, owner⟩
  | loadProfiles ready next => exact ⟨main, workers, owner⟩
  | waitReturns ready next free zero => exact ⟨main, workers, owner⟩
  | waitTimesOut ready next free nonzero => exact ⟨main, workers, owner⟩
  | lockMain ready next free =>
    refine ⟨by simp, ?_, by simp⟩
    simpa [free] using workers
  | addTask adding room =>
    exact ⟨by simpa [adding] using main, workers, owner⟩
  | unlockMain added =>
    have held : s.startPhaseLock = some .main := main.mp (by simp [added])
    refine ⟨by simp, ?_, by simp⟩
    simpa [held] using workers
  | pop idle queued =>
    exact ⟨main, workers.set_same idle (by simp [Worker.Holds]), by simpa using owner⟩
  | started starting =>
    exact ⟨main, workers.set_same starting (by simp [Worker.Holds]), by simpa using owner⟩
  | decrement holding =>
    exact ⟨main, workers.set_same holding (by simp [Worker.Holds]), by simpa using owner⟩
  | @lockWorker i task waiting free =>
    have inside : i < s.workers.length := (List.getElem?_eq_some_iff.mp waiting).1
    have notMain : s.main = .ready := by
      by_contra busy
      have held := main.mp busy
      rw [free] at held
      cases held
    refine ⟨by simp [notMain], workers.set ?_ (by simp [Worker.Holds]), ?_⟩
    · intro j other
      simp [free, Ne.symm other]
    · intro j same
      have : i = j := by simpa using same
      simpa [← this] using inside
  | @unlockWorker i task releasing =>
    have held : s.startPhaseLock = some (.worker i) :=
      (workers i _ releasing).mp trivial
    have notMain : s.main = .ready := by
      by_contra busy
      have other := main.mp busy
      rw [held] at other
      cases other
    refine ⟨by simp [notMain], workers.set ?_ (by simp [Worker.Holds]), by simp⟩
    intro j other
    simp [held, Ne.symm other]

theorem reachable_lockOk {n : Nat} {program : List (Op Ability)}
    {ok : State Ability → Action → Prop} {s : State Ability}
    (reach : (machine n program).Reachable ok s) : LockOk s :=
  reach.invariant LockOk (initial_lockOk n program)
    (fun _ _ _ _ keep _ next => moves_lockOk (step_iff_moves.mp next) keep)

/-- With the lock free the main thread is between statements. -/
theorem LockOk.main_ready {s : State Ability} (ok : LockOk s)
    (free : s.startPhaseLock = none) : s.main = .ready := by
  by_contra busy
  have held := ok.main.mp busy
  rw [free] at held
  cases held

/-- With the lock free no worker is inside its guarded section. -/
theorem LockOk.workers_outside {s : State Ability} (ok : LockOk s)
    (free : s.startPhaseLock = none) {w : Worker Ability} (member : w ∈ s.workers) :
    ¬ w.Holds :=
  ok.workers.free (fun i held => by rw [free] at held; cases held) member

end Lock

end BootPool
