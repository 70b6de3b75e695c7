import Safwk.BootOrder
import Safwk.DependencyWait
import Safwk.Library.Grounds

/-!
# Boot and dependencies

What the workers of the init pool do between two steps of `BootPool`: the worker that
has taken a task starts the ability at once if it has no dependencies, and else asks
samgr for them, one id after the other, until none is missing or the time is up, and
then once more. Meanwhile other threads and other processes publish their abilities
and withdraw them, and samgr asks for abilities on demand, which starts them without a
look at their dependencies.

What samgr has is what the history says. The sleep between two checks, the watchdog and
the texts of the log are left out.
-/

namespace BootDependencies

open Transition AbilityRegistry ListenerTable DependencyWait

abbrev BootTask := BootPool.PhaseTask SystemAbility

inductive Event where
  | published (saId : Int)
  | withdrawn (saId : Int)
  /-- `Start` of a boot task. -/
  | started (task : BootTask)
  /-- `Start` on behalf of samgr. -/
  | requested (saId : Int)
  deriving DecidableEq

/-- `before` is what samgr had when the process came up, `overflow` as in
`DependencyWait`. -/
structure Env where
  process : Process
  before : Int → Bool
  overflow : Int

/-- What samgr has after a history, newest first. -/
def presentIn (before : Int → Bool) : List Event → Int → Bool
  | [], saId => before saId
  | .published id :: older, saId => decide (saId = id) || presentIn before older saId
  | .withdrawn id :: older, saId => !decide (saId = id) && presentIn before older saId
  | .started _ :: older, saId => presentIn before older saId
  | .requested _ :: older, saId => presentIn before older saId

/-- The checks of the loop and the one after it. -/
inductive Round where
  | loop
  | last

/-- Where a worker is in `StartSystemAbilityTask`. In `checking`, `left` has the ids that are
still to be asked for and `result` is `checkSaStatusResult`. -/
inductive Place where
  | outside
  | entered
  /-- `CheckDependencyStatus` before `GetSystemAbilityManager`. -/
  | asking (start : Tick) (round : Round)
  | checking (start : Tick) (round : Round) (left result : List Int)
  /-- At the condition of the loop. -/
  | deciding (start : Tick) (lastSize : Nat)
  | ready
  | onStart
  | returned

structure State where
  pool : BootPool.State SystemAbility
  /-- One for each worker. -/
  places : List Place
  /-- Newest first. -/
  history : List Event

inductive Action where
  | pool (a : BootPool.Action)
  | enter (i : Nat) (start : Tick)
  | getSystemAbilityManager (i : Nat) (found : Bool)
  | checkSystemAbility (i : Nat)
  | turn (i : Nat) (finish : Tick)
  | start (i : Nat)
  | returns (i : Nat)
  | publish (saId : Int)
  | withdraw (saId : Int)
  | request (saId : Int)

section Step

variable (E : Env)

/-- What comes after a check with this result. -/
def afterCheck (start : Tick) (result : List Int) : Round → Place
  | .loop => .deciding start result.length
  | .last => if result.isEmpty then .ready else .returned

/-- A step of a worker inside its task; `present` is what samgr has. -/
def stepPlace (present : Int → Bool) (ability : SystemAbility) : Place → Action → Option Place
  | .entered, .enter _ start =>
    if ability.dependSa.isEmpty then some .ready else some (.asking start .loop)
  | .asking start round, .getSystemAbilityManager _ found =>
    if found then some (.checking start round ability.dependSa [])
    else some (afterCheck start ability.dependSa round)
  | .checking start round [] result, .checkSystemAbility _ => some (afterCheck start result round)
  | .checking start round (saId :: left) result, .checkSystemAbility _ =>
    if checkInputSysAbilityId E.process saId && !present saId then
      some (.checking start round left (result ++ [saId]))
    else some (.checking start round left result)
  | .deciding start lastSize, .turn _ finish =>
    if 0 < lastSize ∧ (duration start finish).getD E.overflow < ability.dependTimeout then
      some (.asking start .loop)
    else some (.asking start .last)
  | .ready, .start _ => some .onStart
  | .onStart, .returns _ => some .returned
  | _, _ => none

/-- Worker `i` takes a step inside its task. -/
def stepWorker (s : State) (i : Nat) (a : Action) : Option State :=
  match s.pool.workers[i]?, s.places[i]? with
  | some (.starting task), some place =>
    match stepPlace E (presentIn E.before s.history) task.ability place a with
    | some next =>
      match a with
      | .start _ =>
        some { s with places := s.places.set i next, history := .started task :: s.history }
      | _ => some { s with places := s.places.set i next }
    | none => none
  | _, _ => none

/-- A worker that takes a task enters it, and leaves it only when its start has returned. -/
def stepPool (s : State) (a : BootPool.Action) : Option State :=
  match BootPool.step s.pool a with
  | none => none
  | some pool =>
    match a with
    | .pop i _ => some { s with pool := pool, places := s.places.set i .entered }
    | .started i =>
      match s.places[i]? with
      | some .returned => some { s with pool := pool, places := s.places.set i .outside }
      | _ => none
    | _ => some { s with pool := pool }

def step (s : State) : Action → Option State
  | .pool a => stepPool s a
  | .enter i start => stepWorker E s i (.enter i start)
  | .getSystemAbilityManager i found => stepWorker E s i (.getSystemAbilityManager i found)
  | .checkSystemAbility i => stepWorker E s i (.checkSystemAbility i)
  | .turn i finish => stepWorker E s i (.turn i finish)
  | .start i => stepWorker E s i (.start i)
  | .returns i => stepWorker E s i (.returns i)
  | .publish saId => some { s with history := .published saId :: s.history }
  | .withdraw saId => some { s with history := .withdrawn saId :: s.history }
  | .request saId => some { s with history := .requested saId :: s.history }

end Step

abbrev Program := List (BootPool.Op SystemAbility)

def initial (n : Nat) (program : Program) : State where
  pool := BootPool.initial n program
  places := List.replicate n .outside
  history := []

def machine (E : Env) (n : Nat) (program : Program) : Machine State Action where
  init := initial n program
  step := step E

/-! ## What one step does -/

/-- The event that a step outside the pool leads to. -/
def Action.event : Action → Option Event
  | .publish saId => some (.published saId)
  | .withdraw saId => some (.withdrawn saId)
  | .request saId => some (.requested saId)
  | _ => none

inductive Moves (E : Env) : State → Action → State → Prop
  | pop {s : State} {i k : Nat} {task : BootTask} {pool : BootPool.State SystemAbility}
      (idle : s.pool.workers[i]? = some .idle)
      (next : BootPool.Moves s.pool (.pop i k) pool)
      (taken : pool.workers = s.pool.workers.set i (.starting task)) :
      Moves E s (.pool (.pop i k)) { s with pool := pool, places := s.places.set i .entered }
  | leaves {s : State} {i : Nat} {task : BootTask} {pool : BootPool.State SystemAbility}
      (found : s.pool.workers[i]? = some (.starting task)) (here : s.places[i]? = some .returned)
      (next : BootPool.Moves s.pool (.started i) pool)
      (left : pool.workers = s.pool.workers.set i (.waiting task)) :
      Moves E s (.pool (.started i)) { s with pool := pool, places := s.places.set i .outside }
  | pool {s : State} {a : BootPool.Action} {pool : BootPool.State SystemAbility}
      (next : BootPool.Moves s.pool a pool)
      (kept : ∀ (i : Nat) (task : BootTask), pool.workers[i]? = some (.starting task) ↔
        s.pool.workers[i]? = some (.starting task)) :
      Moves E s (.pool a) { s with pool := pool }
  | work {s : State} {i : Nat} {a : Action} {task : BootTask} {place next : Place}
      (found : s.pool.workers[i]? = some (.starting task)) (here : s.places[i]? = some place)
      (takes : stepPlace E (presentIn E.before s.history) task.ability place a = some next)
      (quiet : ∀ j, a ≠ .start j) : Moves E s a { s with places := s.places.set i next }
  | start {s : State} {i : Nat} {task : BootTask}
      (found : s.pool.workers[i]? = some (.starting task)) (here : s.places[i]? = some .ready) :
      Moves E s (.start i)
        { s with places := s.places.set i .onStart, history := .started task :: s.history }
  | event {s : State} {a : Action} {e : Event} (leads : a.event = some e) :
      Moves E s a { s with history := e :: s.history }

/-- A worker that is not starting an ability moves to another such place. -/
theorem starting_set_iff {workers : List (BootPool.Worker SystemAbility)} {i : Nat}
    {w w' : BootPool.Worker SystemAbility} (found : workers[i]? = some w)
    (before : ∀ task, w ≠ .starting task) (after : ∀ task, w' ≠ .starting task) (j : Nat)
    (task : BootTask) :
    (workers.set i w')[j]? = some (.starting task) ↔ workers[j]? = some (.starting task) := by
  by_cases same : i = j
  · subst same
    have inside := (List.getElem?_eq_some_iff.mp found).1
    rw [List.getElem?_set_self inside, found]
    constructor
    · intro now
      exact absurd (Option.some.inj now) (after task)
    · intro was
      exact absurd (Option.some.inj was) (before task)
  · rw [List.getElem?_set_ne same]

theorem moves_of_stepPool {E : Env} {s t : State} {a : BootPool.Action}
    (next : stepPool s a = some t) : Moves E s (.pool a) t := by
  rw [stepPool] at next
  split at next
  · cases next
  · rename_i pool moved
    have move := BootPool.step_iff_moves.mp moved
    cases id move with
    | pop idle queued => exact Option.some.inj next ▸ .pop idle move rfl
    | started found =>
      simp only at next
      split at next
      · rename_i here
        exact Option.some.inj next ▸ .leaves found here move rfl
      · cases next
    | skipNull | lockMain | addTask | unlockMain | loadProfiles | waitReturns | waitTimesOut =>
      exact Option.some.inj next ▸ .pool move (fun _ _ => Iff.rfl)
    | lockWorker found free =>
      exact Option.some.inj next ▸ .pool move (starting_set_iff found (by simp) (by simp))
    | decrement found =>
      exact Option.some.inj next ▸ .pool move (starting_set_iff found (by simp) (by simp))
    | unlockWorker found =>
      exact Option.some.inj next ▸ .pool move (starting_set_iff found (by simp) (by simp))

theorem moves_of_stepWorker {E : Env} {s t : State} {i : Nat} {a : Action}
    (next : stepWorker E s i a = some t) (own : ∀ j, a = .start j → j = i) : Moves E s a t := by
  rw [stepWorker] at next
  split at next
  · rename_i task place found here
    split at next
    · rename_i after takes
      split at next
      · rename_i j
        obtain rfl := own j rfl
        cases place with
        | ready =>
          cases takes
          exact Option.some.inj next ▸ .start found here
        | checking start round left result => cases left <;> cases takes
        | _ => cases takes
      · rename_i quiet
        exact Option.some.inj next ▸ .work found here takes quiet
    · cases next
  · cases next

theorem moves_of_step {E : Env} {s t : State} {a : Action} (next : step E s a = some t) :
    Moves E s a t := by
  cases a with
  | pool a => exact moves_of_stepPool next
  | publish saId => exact Option.some.inj next ▸ .event rfl
  | withdraw saId => exact Option.some.inj next ▸ .event rfl
  | request saId => exact Option.some.inj next ▸ .event rfl
  | start i =>
    refine moves_of_stepWorker next ?_
    rintro j ⟨rfl⟩
    rfl
  | enter i start => exact moves_of_stepWorker next (by simp)
  | getSystemAbilityManager i found => exact moves_of_stepWorker next (by simp)
  | checkSystemAbility i => exact moves_of_stepWorker next (by simp)
  | turn i finish => exact moves_of_stepWorker next (by simp)
  | returns i => exact moves_of_stepWorker next (by simp)

/-- The pool does what `BootPool` says, or nothing. -/
theorem moves_pool {E : Env} {s t : State} {a : Action} (move : Moves E s a t) :
    t.pool = s.pool ∨ ∃ b, a = .pool b ∧ BootPool.Moves s.pool b t.pool := by
  cases move with
  | pop idle next taken => exact Or.inr ⟨_, rfl, next⟩
  | leaves found here next left => exact Or.inr ⟨_, rfl, next⟩
  | pool next kept => exact Or.inr ⟨_, rfl, next⟩
  | work found here takes quiet => exact Or.inl rfl
  | start found here => exact Or.inl rfl
  | event leads => exact Or.inl rfl

end BootDependencies
