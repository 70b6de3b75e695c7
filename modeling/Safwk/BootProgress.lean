import Safwk.BootDeadlock
import Safwk.DependencyOrder
import Safwk.Library.Budget

/-!
# The boot comes to an end

A dependency may never appear, and then the worker that waits for it gives up: between
two checks it sleeps, so the depend timeout of the ability bounds the number of its
checks. The steps of a whole boot are therefore bounded by a number that can be read off
the abilities of the phases, whatever other threads and processes do meanwhile, and if
the abilities fit into the workers and the queue the boot never stops before its end.
-/

namespace BootProgress

open Transition AbilityRegistry BootDependencies DependencyWait

/-! ## Readings of the clock -/

/-- `CHECK_DEPENDENT_SA_PERIOD`, in milliseconds. -/
def checkDependentSaPeriod : Int := 50

/-- The boot together with the last reading of each worker. What a worker has read when it
enters a wait is put one period back, so that its first reading is not before the start. -/
structure Clocked where
  state : State
  last : Nat → Int

def reading (last : Int) : Action → Int
  | .enter _ start => start.count - checkDependentSaPeriod
  | .turn _ finish => finish.count
  | _ => last

def readings (last : Nat → Int) (a : Action) : Nat → Int :=
  match a with
  | .enter i _ => Function.update last i (reading (last i) a)
  | .turn i _ => Function.update last i (reading (last i) a)
  | _ => last

def stepClocked (E : Env) (s : Clocked) (a : Action) : Option Clocked :=
  (step E s.state a).map fun t => ⟨t, readings s.last a⟩

def clocked (E : Env) (n : Nat) (program : Program) : Machine Clocked Action where
  init := ⟨initial n program, fun _ => 0⟩
  step := stepClocked E

/-- `usleep` takes as long as it says. -/
def Sleeps (s : Clocked) : Action → Prop
  | .turn i finish => s.last i + checkDependentSaPeriod ≤ finish.count
  | _ => True

instance (s : Clocked) (a : Action) : Decidable (Sleeps s a) :=
  match a with
  | .turn i finish => inferInstanceAs (Decidable (s.last i + checkDependentSaPeriod ≤ finish.count))
  | .pool _ | .enter _ _ | .getSystemAbilityManager _ _ | .checkSystemAbility _ | .start _
  | .returns _ | .publish _ | .withdraw _ | .request _ => inferInstanceAs (Decidable True)

/-- The steps of the main thread and of the workers. -/
def isBoot : Action → Bool
  | .publish _ => false
  | .withdraw _ => false
  | .request _ => false
  | _ => true

/-! ## The work that is left -/

section Work

variable (ability : SystemAbility)

/-- One `CheckDependencyStatus`. -/
def roundWork : Nat := ability.dependSa.length + 2

/-- The turns of the loop that can still end in a sleep. -/
def turnsLeft (start : Tick) (last : Int) : Nat :=
  ((start.count + ability.dependTimeout - last) / checkDependentSaPeriod).toNat

/-- From the condition of the loop on, the last check and `Start` included. -/
def decideWork (turns : Nat) : Nat :=
  turns * (roundWork ability + 1) + roundWork ability + 3

def placeWork (last : Int) : Place → Nat
  | .outside => 0
  | .entered =>
    1 + roundWork ability + decideWork ability
      ((ability.dependTimeout + checkDependentSaPeriod) / checkDependentSaPeriod).toNat
  | .asking start .loop => roundWork ability + decideWork ability (turnsLeft ability start last)
  | .asking _ .last => roundWork ability + 2
  | .checking start .loop left _ =>
    left.length + 1 + decideWork ability (turnsLeft ability start last)
  | .checking _ .last left _ => left.length + 3
  | .deciding start _ => decideWork ability (turnsLeft ability start last)
  | .ready => 2
  | .onStart => 1
  | .returned => 0

/-- From the queue to the release of `startPhaseLock_`. -/
def taskWork : Nat := placeWork ability 0 .entered + 5

end Work

def workerWork (last : Int) (place : Place) : BootPool.Worker SystemAbility → Nat
  | .idle => 0
  | .starting task => placeWork task.ability last place + 4
  | .waiting _ => 3
  | .holding _ => 2
  | .releasing _ => 1

def opWork : BootPool.Op SystemAbility → Nat
  | .startTask _ none => 1
  | .startTask _ (some ability) => taskWork ability + 3
  | .initializeRunOnCreateSaProfiles _ => 1
  | .waitForTasks _ => 1

def mainWork : BootPool.Main SystemAbility → Nat
  | .ready => 0
  | .adding task => taskWork task.ability + 2
  | .added => 1

/-- The work of a whole boot. -/
def bootWork (program : Program) : Nat := (program.map opWork).sum

def queueWork (queue : List BootTask) : Nat := (queue.map fun task => taskWork task.ability).sum

/-- What the main thread has left, with the tasks that no worker has taken. -/
def poolWork (pool : BootPool.State SystemAbility) : Nat :=
  bootWork pool.todo + mainWork pool.main + queueWork pool.queue

def workerLeft (s : Clocked) (i : Nat) : Nat :=
  match s.state.pool.workers[i]?, s.state.places[i]? with
  | some w, some place => workerWork (s.last i) place w
  | _, _ => 0

def total (s : Clocked) : Nat :=
  poolWork s.state.pool + ∑ i ∈ Finset.range s.state.pool.workers.length, workerLeft s i

/-! ## One step of a worker inside its task -/

/-- A wait began at most a period after the last reading. -/
def Since (last : Int) : Place → Prop
  | .asking start _ => start.count ≤ last + checkDependentSaPeriod
  | .checking start _ _ _ => start.count ≤ last + checkDependentSaPeriod
  | .deciding start _ => start.count ≤ last + checkDependentSaPeriod
  | _ => True

section Place

variable {E : Env} {present : Int → Bool} {ability : SystemAbility} {last : Int}
  {place next : Place} {a : Action}

theorem since_afterCheck {start : Tick} (since : start.count ≤ last + checkDependentSaPeriod)
    (result : List Int) (round : Round) : Since last (afterCheck start result round) := by
  cases round with
  | loop => exact since
  | last =>
    rw [afterCheck]
    split <;> trivial

theorem since_stepPlace (since : Since last place)
    (slept : ∀ j finish, a = .turn j finish → last + checkDependentSaPeriod ≤ finish.count)
    (takes : stepPlace E present ability place a = some next) : Since (reading last a) next := by
  unfold stepPlace at takes
  split at takes
  · rename_i start
    split at takes
    · cases takes
      trivial
    · cases takes
      simp only [Since, reading]
      omega
  · split at takes
    · cases takes
      exact since
    · cases takes
      exact since_afterCheck since _ _
  · cases takes
    exact since_afterCheck since _ _
  · split at takes
    · cases takes
      exact since
    · cases takes
      exact since
  · rename_i start lastSize j finish
    have later := slept j finish rfl
    have began : start.count ≤ last + checkDependentSaPeriod := since
    have positive : 0 ≤ checkDependentSaPeriod := by decide
    split at takes
    · cases takes
      simp only [Since, reading]
      omega
    · cases takes
      simp only [Since, reading]
      omega
  · cases takes
    trivial
  · cases takes
    trivial
  · cases takes

/-- A turn that ends in a sleep uses one up. -/
theorem turnsLeft_turn {start finish : Tick} (began : start.count ≤ last + checkDependentSaPeriod)
    (slept : last + checkDependentSaPeriod ≤ finish.count)
    (early : (duration start finish).getD E.overflow < ability.dependTimeout) :
    turnsLeft ability start finish.count + 1 ≤ turnsLeft ability start last := by
  rw [duration_of_le (by omega), Option.getD_some] at early
  simp only [turnsLeft, checkDependentSaPeriod] at *
  omega

theorem decideWork_turn (ability : SystemAbility) {turns turns' : Nat} (fewer : turns' + 1 ≤ turns) :
    roundWork ability + 1 + decideWork ability turns' ≤ decideWork ability turns := by
  have product := Nat.mul_le_mul_right (roundWork ability + 1) fewer
  rw [Nat.succ_mul] at product
  simp only [decideWork]
  omega

theorem afterCheck_work (ability : SystemAbility) (last : Int) (start : Tick) (result : List Int) (round : Round) :
    placeWork ability last (afterCheck start result round) ≤
      match round with
      | .loop => decideWork ability (turnsLeft ability start last)
      | .last => 2 := by
  cases round with
  | loop => exact Nat.le_refl _
  | last =>
    rw [afterCheck]
    split
    · exact Nat.le_refl _
    · exact Nat.zero_le _

theorem stepPlace_work (since : Since last place)
    (slept : ∀ j finish, a = .turn j finish → last + checkDependentSaPeriod ≤ finish.count)
    (takes : stepPlace E present ability place a = some next) :
    placeWork ability (reading last a) next + 1 ≤ placeWork ability last place := by
  unfold stepPlace at takes
  split at takes
  · rename_i start
    split at takes
    · cases takes
      simp only [placeWork, decideWork]
      omega
    · cases takes
      have turns : turnsLeft ability start (start.count - checkDependentSaPeriod) =
          ((ability.dependTimeout + checkDependentSaPeriod) / checkDependentSaPeriod).toNat := by
        rw [turnsLeft]
        congr 2
        omega
      simp only [placeWork, reading, turns]
      omega
  · rename_i start round i found
    split at takes
    · cases takes
      cases round <;> simp only [placeWork, reading, roundWork] <;> omega
    · cases takes
      have after := afterCheck_work ability last start ability.dependSa round
      cases round <;> simp only [placeWork, reading, roundWork] at after ⊢ <;> omega
  · rename_i start round result i
    cases takes
    have after := afterCheck_work ability last start result round
    cases round <;> simp only [placeWork, reading, List.length_nil] at after ⊢ <;> omega
  · rename_i start round saId left result i
    split at takes
    · cases takes
      cases round <;> simp only [placeWork, reading, List.length_cons] <;> omega
    · cases takes
      cases round <;> simp only [placeWork, reading, List.length_cons] <;> omega
  · rename_i start lastSize i finish
    split at takes
    · rename_i again
      cases takes
      have fewer := turnsLeft_turn (E := E) since (slept i finish rfl) again.2
      have less := decideWork_turn ability fewer
      simp only [placeWork, reading]
      omega
    · cases takes
      simp only [placeWork, decideWork]
      omega
  · cases takes
    exact Nat.le_refl _
  · cases takes
    exact Nat.le_refl _
  · cases takes

end Place

/-! ## One step of the boot -/

/-- The worker whose step inside its task this is. -/
def worker : Action → Option Nat
  | .enter i _ => some i
  | .getSystemAbilityManager i _ => some i
  | .checkSystemAbility i => some i
  | .turn i _ => some i
  | .start i => some i
  | .returns i => some i
  | _ => none

section Steps

variable {E : Env} {s t : Clocked} {a : Action} {i : Nat}

theorem readings_worker (mine : worker a = some i) (last : Nat → Int) :
    readings last a = Function.update last i (reading (last i) a) := by
  cases a <;> cases mine <;> first | rfl | exact (Function.update_eq_self i last).symm

/-- What a step of the boot is, and which reading it makes. -/
inductive Moves (E : Env) (s : Clocked) : Action → Clocked → Prop
  | pool {b : BootPool.Action} {after : State} (moved : BootDependencies.Moves E s.state (.pool b) after) :
      Moves E s (.pool b) ⟨after, s.last⟩
  | work {a : Action} {i : Nat} {task : BootTask} {place next : Place} {history : List Event}
      (mine : worker a = some i) (found : s.state.pool.workers[i]? = some (.starting task))
      (here : s.state.places[i]? = some place)
      (takes : stepPlace E (presentIn E.before s.state.history) task.ability place a = some next) :
      Moves E s a ⟨{ pool := s.state.pool, places := s.state.places.set i next, history := history },
        Function.update s.last i (reading (s.last i) a)⟩
  | event {a : Action} {history : List Event} (foreign : isBoot a = false) :
      Moves E s a ⟨{ s.state with history := history }, s.last⟩

theorem moves_of_worker {after : State} (mine : worker a = some i)
    (next : stepWorker E s.state i a = some after) : Moves E s a ⟨after, readings s.last a⟩ := by
  rw [readings_worker mine]
  rw [stepWorker] at next
  split at next
  · rename_i task place found here
    split at next
    · rename_i place' takes
      split at next
      · exact Option.some.inj next ▸ .work mine found here takes
      · exact Option.some.inj next ▸ .work mine found here takes
    · cases next
  · cases next

theorem moves_of_stepClocked (next : stepClocked E s a = some t) : Moves E s a t := by
  obtain ⟨after, moved, rfl⟩ := Option.map_eq_some_iff.mp next
  cases a with
  | pool b => exact .pool (moves_of_stepPool moved)
  | publish saId => exact Option.some.inj moved ▸ .event rfl
  | withdraw saId => exact Option.some.inj moved ▸ .event rfl
  | request saId => exact Option.some.inj moved ▸ .event rfl
  | enter j start => exact moves_of_worker rfl moved
  | getSystemAbilityManager j found => exact moves_of_worker rfl moved
  | checkSystemAbility j => exact moves_of_worker rfl moved
  | turn j finish => exact moves_of_worker rfl moved
  | start j => exact moves_of_worker rfl moved
  | returns j => exact moves_of_worker rfl moved

theorem slept_of_sleeps (mine : worker a = some i) (sleeps : Sleeps s a) :
    ∀ j finish, a = .turn j finish → s.last i + checkDependentSaPeriod ≤ finish.count := by
  rintro j finish rfl
  cases mine
  exact sleeps

/-- Each worker that starts an ability has a place inside its task. -/
structure Steady (s : Clocked) : Prop where
  length : s.state.places.length = s.state.pool.workers.length
  since : ∀ i place, s.state.places[i]? = some place → Since (s.last i) place
  inside : ∀ (i : Nat) (task : BootTask), s.state.pool.workers[i]? = some (.starting task) →
    s.state.places[i]? ≠ some .outside

theorem stepPlace_inside {present : Int → Bool} {ability : SystemAbility} {place : Place}
    (takes : stepPlace E present ability place a = some .outside) : False := by
  unfold stepPlace at takes
  split at takes
  · split at takes <;> cases takes
  · rename_i start round i found
    split at takes
    · cases takes
    · cases round with
      | loop => cases takes
      | last =>
        simp only [afterCheck] at takes
        split at takes <;> cases takes
  · rename_i start round result i
    cases round with
    | loop => cases takes
    | last =>
      simp only [afterCheck] at takes
      split at takes <;> cases takes
  · split at takes <;> cases takes
  · split at takes <;> cases takes
  · cases takes
  · cases takes
  · cases takes

theorem stepPlace_pool {present : Int → Bool} {ability : SystemAbility} {place next : Place}
    {b : BootPool.Action} (takes : stepPlace E present ability place (.pool b) = some next) :
    False := by
  cases place with
  | checking start round left result => cases left <;> cases takes
  | _ => cases takes

theorem moves_steady (move : Moves E s a t) (sleeps : Sleeps s a) (steady : Steady s) :
    Steady t := by
  obtain ⟨length, since, inside⟩ := steady
  cases move with
  | pool moved =>
    cases moved with
    | @pop i k task pool idle next taken =>
      refine ⟨by simpa [BootDeadlock.moves_workers_length next] using length, ?_, ?_⟩
      · intro j place found
        rcases Threads.getElem?_set_cases found with ⟨rfl, rfl⟩ | ⟨_, old⟩
        · trivial
        · exact since j place old
      · intro j task' found out
        rcases Threads.getElem?_set_cases out with ⟨_, impossible⟩ | ⟨other, old⟩
        · cases impossible
        · simp only [taken] at found
          rw [List.getElem?_set_ne (Ne.symm other)] at found
          exact inside j task' found old
    | @leaves i task pool found here next left =>
      refine ⟨by simpa [BootDeadlock.moves_workers_length next] using length, ?_, ?_⟩
      · intro j place now
        rcases Threads.getElem?_set_cases now with ⟨rfl, rfl⟩ | ⟨_, old⟩
        · trivial
        · exact since j place old
      · intro j task' now out
        simp only [left] at now
        rcases Threads.getElem?_set_cases now with ⟨_, impossible⟩ | ⟨other, old⟩
        · cases impossible
        · rw [List.getElem?_set_ne (Ne.symm other)] at out
          exact inside j task' old out
    | pool next kept =>
      exact ⟨length.trans (BootDeadlock.moves_workers_length next).symm, since,
        fun i task found => inside i task ((kept i task).mp found)⟩
    | work found here takes quiet => exact (stepPlace_pool takes).elim
    | event leads => cases leads
  | @work a i task place next history mine found here takes =>
    have slept := slept_of_sleeps mine sleeps
    refine ⟨by simpa using length, ?_, ?_⟩
    · intro j place' now
      rcases Threads.getElem?_set_cases now with ⟨rfl, rfl⟩ | ⟨other, old⟩
      · dsimp only
        rw [Function.update_self]
        exact since_stepPlace (since _ place here) slept takes
      · dsimp only
        rw [Function.update_of_ne other]
        exact since j place' old
    · intro j task' now out
      rcases Threads.getElem?_set_cases out with ⟨rfl, rfl⟩ | ⟨_, old⟩
      · exact stepPlace_inside takes
      · exact inside j task' now old
  | event foreign => exact ⟨length, since, inside⟩

/-! ## Every step is paid for -/

/-- One worker moves, and pays for what it takes from the queue. -/
theorem worker_budget {w w' : BootPool.Worker SystemAbility} {place place' : Place}
    (length : t.state.pool.workers.length = s.state.pool.workers.length)
    (found : s.state.pool.workers[i]? = some w) (here : s.state.places[i]? = some place)
    (foundNow : t.state.pool.workers[i]? = some w') (hereNow : t.state.places[i]? = some place')
    (others : ∀ j, j ≠ i → t.state.pool.workers[j]? = s.state.pool.workers[j]? ∧
      t.state.places[j]? = s.state.places[j]? ∧ t.last j = s.last j)
    (enough : poolWork t.state.pool + workerWork (t.last i) place' w' + 1 ≤
      poolWork s.state.pool + workerWork (s.last i) place w) : total t + 1 ≤ total s := by
  have inside := (List.getElem?_eq_some_iff.mp found).1
  have change : ∑ j ∈ Finset.range s.state.pool.workers.length, workerLeft t j +
        workerWork (s.last i) place w ≤
      ∑ j ∈ Finset.range s.state.pool.workers.length, workerLeft s j +
        workerWork (t.last i) place' w' := by
    refine sum_range_change inside ?_ ?_
    · intro j other
      obtain ⟨workers, places, last⟩ := others j other
      rw [workerLeft, workerLeft, workers, places, last]
    · rw [workerLeft, workerLeft, foundNow, hereNow, found, here]
      exact Nat.le_of_eq (Nat.add_comm _ _)
  rw [total, total, length]
  omega

/-- A worker moves outside its task, where its place does not matter. -/
theorem poolWorker_budget {pool : BootPool.State SystemAbility}
    {w w' : BootPool.Worker SystemAbility} (steady : Steady s)
    (found : s.state.pool.workers[i]? = some w)
    (moved : pool.workers = s.state.pool.workers.set i w')
    (less : ∀ place, workerWork (s.last i) place w' + 1 ≤ workerWork (s.last i) place w)
    (same : poolWork pool = poolWork s.state.pool) :
    total ⟨{ s.state with pool := pool }, s.last⟩ + 1 ≤ total s := by
  have inside := (List.getElem?_eq_some_iff.mp found).1
  have listed : i < s.state.places.length := by rw [steady.length]; exact inside
  have place := List.getElem?_eq_getElem listed
  have now : pool.workers[i]? = some w' := by
    rw [moved]
    exact List.getElem?_set_self inside
  refine worker_budget ?_ found place now place ?_ ?_
  · simp only [moved, List.length_set]
  · intro j other
    simp only [moved, List.getElem?_set_ne (Ne.symm other), and_self]
  · have step := less s.state.places[i]
    simp only [same]
    omega

/-- The main thread moves. -/
theorem main_budget {pool : BootPool.State SystemAbility}
    (workers : pool.workers = s.state.pool.workers)
    (less : poolWork pool + 1 ≤ poolWork s.state.pool) :
    total ⟨{ s.state with pool := pool }, s.last⟩ + 1 ≤ total s := by
  have same : ∀ j, workerLeft ⟨{ s.state with pool := pool }, s.last⟩ j = workerLeft s j := by
    intro j
    rw [workerLeft, workerLeft]
    simp only [workers]
  rw [total, total]
  simp only [same, workers]
  omega

theorem queue_eraseIdx {queue : List BootTask} {k : Nat} {task : BootTask}
    (queued : queue[k]? = some task) :
    queueWork (queue.eraseIdx k) + taskWork task.ability = queueWork queue := by
  obtain ⟨inside, rfl⟩ := List.getElem?_eq_some_iff.mp queued
  have whole := ((List.getElem_cons_eraseIdx_perm inside).map
    fun task : BootTask => taskWork task.ability).sum_eq
  rw [List.map_cons, List.sum_cons] at whole
  rw [queueWork, queueWork]
  omega

theorem pop_budget {k : Nat} {pool : BootPool.State SystemAbility} (steady : Steady s)
    (idle : s.state.pool.workers[i]? = some .idle)
    (next : BootPool.Moves s.state.pool (.pop i k) pool) :
    total ⟨{ s.state with pool := pool, places := s.state.places.set i .entered }, s.last⟩ + 1 ≤
      total s := by
  cases next with
  | @pop _ _ task _ queued =>
    have inside := (List.getElem?_eq_some_iff.mp idle).1
    have listed : i < s.state.places.length := by rw [steady.length]; exact inside
    have shorter := queue_eraseIdx queued
    have entered : workerWork (s.last i) .entered (.starting task) + 1 = taskWork task.ability := rfl
    refine worker_budget ?_ idle (List.getElem?_eq_getElem listed)
      (List.getElem?_set_self inside) (List.getElem?_set_self listed) ?_ ?_
    · simp only [List.length_set]
    · intro j other
      simp only [List.getElem?_set_ne (Ne.symm other), and_self]
    · simp only [poolWork]
      omega

theorem leaves_budget {task : BootTask} {pool : BootPool.State SystemAbility}
    (found : s.state.pool.workers[i]? = some (.starting task))
    (here : s.state.places[i]? = some .returned)
    (next : BootPool.Moves s.state.pool (.started i) pool) :
    total ⟨{ s.state with pool := pool, places := s.state.places.set i .outside }, s.last⟩ + 1 ≤
      total s := by
  cases next with
  | @started _ task' starting =>
    refine worker_budget ?_ found here
      (List.getElem?_set_self (List.getElem?_eq_some_iff.mp found).1)
      (List.getElem?_set_self (List.getElem?_eq_some_iff.mp here).1) ?_ ?_
    · simp only [List.length_set]
    · intro j other
      simp only [List.getElem?_set_ne (Ne.symm other), and_self]
    · simp only [poolWork, workerWork, placeWork]
      omega

theorem pool_budget {b : BootPool.Action} {pool : BootPool.State SystemAbility} (steady : Steady s)
    (next : BootPool.Moves s.state.pool b pool)
    (kept : ∀ (i : Nat) (task : BootTask), pool.workers[i]? = some (.starting task) ↔
      s.state.pool.workers[i]? = some (.starting task)) :
    total ⟨{ s.state with pool := pool }, s.last⟩ + 1 ≤ total s := by
  cases next with
  | skipNull ready todo =>
    refine main_budget rfl ?_
    simp only [poolWork, bootWork, todo, List.map_cons, List.sum_cons, opWork]
    omega
  | lockMain ready todo free =>
    refine main_budget rfl ?_
    simp only [poolWork, bootWork, todo, ready, List.map_cons, List.sum_cons, opWork, mainWork]
    omega
  | addTask adding room =>
    refine main_budget rfl ?_
    simp only [poolWork, queueWork, adding, mainWork, List.map_append, List.sum_append, List.map_cons,
      List.map_nil, List.sum_cons, List.sum_nil]
    omega
  | unlockMain added =>
    refine main_budget rfl ?_
    simp only [poolWork, added, mainWork]
    omega
  | loadProfiles ready todo =>
    refine main_budget rfl ?_
    simp only [poolWork, bootWork, todo, List.map_cons, List.sum_cons, opWork]
    omega
  | waitReturns ready todo free zero =>
    refine main_budget rfl ?_
    simp only [poolWork, bootWork, todo, List.map_cons, List.sum_cons, opWork]
    omega
  | waitTimesOut ready todo free nonzero =>
    refine main_budget rfl ?_
    simp only [poolWork, bootWork, todo, List.map_cons, List.sum_cons, opWork]
    omega
  | @pop i k task idle queued =>
    have now := (kept i task).mp (List.getElem?_set_self (List.getElem?_eq_some_iff.mp idle).1)
    cases idle.symm.trans now
  | @started i task starting =>
    have now := (kept i task).mpr starting
    rw [List.getElem?_set_self (List.getElem?_eq_some_iff.mp starting).1] at now
    cases now
  | lockWorker waiting free => exact poolWorker_budget steady waiting rfl (fun _ => Nat.le_refl _) rfl
  | decrement holding => exact poolWorker_budget steady holding rfl (fun _ => Nat.le_refl _) rfl
  | unlockWorker releasing =>
    exact poolWorker_budget steady releasing rfl (fun _ => Nat.le_refl _) rfl

theorem moves_budget (move : Moves E s a t) (sleeps : Sleeps s a) (steady : Steady s) :
    total t + (isBoot a).toNat ≤ total s := by
  cases move with
  | pool moved =>
    cases moved with
    | pop idle next taken => exact pop_budget steady idle next
    | leaves found here next left => exact leaves_budget found here next
    | pool next kept => exact pool_budget steady next kept
    | work found here takes quiet => exact (stepPlace_pool takes).elim
    | event leads => cases leads
  | @work a i task place next history mine found here takes =>
    have paid : (isBoot a).toNat ≤ 1 := Bool.toNat_le _
    have less := stepPlace_work (steady.since i place here) (slept_of_sleeps mine sleeps) takes
    refine Nat.le_trans (Nat.add_le_add_left paid _) ?_
    refine worker_budget rfl found here found
      (List.getElem?_set_self (List.getElem?_eq_some_iff.mp here).1) ?_ ?_
    · intro j other
      simp only [List.getElem?_set_ne (Ne.symm other), Function.update_of_ne other, and_self]
    · simp only [workerWork, Function.update_self]
      omega
  | event foreign =>
    rw [foreign]
    exact Nat.le_refl _

end Steps

/-! ## Until the end there is a next step -/

section Progress

variable {E : Env} {n : Nat} {program : Program} {ok : Clocked → Action → Prop} {s : Clocked}

/-- The main thread has left `FindAndStartPhaseTasks` and every task is finished. -/
def Over (pool : BootPool.State SystemAbility) : Prop :=
  pool.todo = [] ∧ pool.main = .ready ∧ pool.queue = [] ∧ ∀ w ∈ pool.workers, w = .idle

theorem reachable_pool (reach : (clocked E n program).Reachable ok s) :
    (BootPool.machine n program).Reachable Free s.state.pool := by
  refine reach.simulate (N := BootPool.machine n program) (fun s => s.state.pool) rfl ?_
  intro s a t _ _ _ next
  obtain ⟨after, moved, rfl⟩ := Option.map_eq_some_iff.mp next
  rcases moves_pool (moves_of_step moved) with same | ⟨b, _, move⟩
  · exact Or.inl same
  · exact Or.inr ⟨b, trivial, BootPool.step_iff_moves.mpr move⟩

theorem pool_enabled {pool : BootPool.State SystemAbility}
    (reach : (BootPool.machine n program).Reachable Free pool) (workers : 0 < n)
    (few : program.countP BootDeadlock.enqueues ≤ n + BootPool.maxTaskNumber)
    (going : ¬Over pool) : ∃ b after, BootPool.step pool b = some after := by
  by_cases unfinished : BootDeadlock.Unfinished pool
  · exact BootDeadlock.progress workers few pool reach unfinished
  · -- nothing but waits and loads are left, and nobody has the lock
    have idle : ∀ w ∈ pool.workers, w = .idle := by
      intro w member
      by_contra busy
      exact unfinished (Or.inr (Or.inr (Or.inr ⟨w, member, busy⟩)))
    have queue : pool.queue = [] := by
      by_contra queued
      exact unfinished (Or.inr (Or.inr (Or.inl queued)))
    have lock := BootPool.reachable_lockOk reach
    cases place : pool.main with
    | adding task => exact absurd (Or.inr (Or.inl ⟨task, place⟩)) unfinished
    | added => exact ⟨.main, _, BootPool.step_iff_moves.mpr (.unlockMain place)⟩
    | ready =>
      have free : pool.startPhaseLock = none := by
        cases owner : pool.startPhaseLock with
        | none => rfl
        | some owner' =>
          cases owner' with
          | main => exact absurd place (lock.main.mpr owner)
          | worker i =>
            have found := List.getElem?_eq_getElem (lock.owner i owner)
            have holds := (lock.workers i _ found).mpr owner
            rw [idle _ (Threads.mem_of_getElem? found)] at holds
            exact holds.elim
      cases todo : pool.todo with
      | nil => exact absurd ⟨todo, place, queue, idle⟩ going
      | cons op rest => exact BootDeadlock.main_moves place todo free

/-- A worker inside its task can go on. -/
theorem place_enabled (E : Env) (s : Clocked) (present : Int → Bool) (ability : SystemAbility)
    {place : Place} (inside : place ≠ .outside) (busy : place ≠ .returned) (i : Nat)
    (young : s.last i + checkDependentSaPeriod ≤ int64Max) :
    ∃ a next, worker a = some i ∧ Sleeps s a ∧ stepPlace E present ability place a = some next := by
  have zero : (0 : Int) ≤ int64Max := by decide
  cases place with
  | outside => exact absurd rfl inside
  | returned => exact absurd rfl busy
  | entered =>
    let start : Tick := ⟨0, le_refl _, zero⟩
    by_cases none : ability.dependSa.isEmpty = true
    · exact ⟨.enter i start, _, rfl, trivial, if_pos none⟩
    · exact ⟨.enter i start, _, rfl, trivial, if_neg none⟩
  | asking start round => exact ⟨.getSystemAbilityManager i true, _, rfl, trivial, rfl⟩
  | checking start round left result =>
    cases left with
    | nil => exact ⟨.checkSystemAbility i, _, rfl, trivial, rfl⟩
    | cons saId left =>
      by_cases missing : (ListenerTable.checkInputSysAbilityId E.process saId && !present saId) = true
      · exact ⟨.checkSystemAbility i, _, rfl, trivial, if_pos missing⟩
      · exact ⟨.checkSystemAbility i, _, rfl, trivial, if_neg missing⟩
  | deciding start lastSize =>
    let finish : Tick := ⟨max (s.last i + checkDependentSaPeriod) 0, le_max_right _ _,
      max_le young zero⟩
    have slept : Sleeps s (.turn i finish) := le_max_left _ _
    by_cases again : 0 < lastSize ∧ (duration start finish).getD E.overflow < ability.dependTimeout
    · exact ⟨.turn i finish, _, rfl, slept, if_pos again⟩
    · exact ⟨.turn i finish, _, rfl, slept, if_neg again⟩
  | ready => exact ⟨.start i, _, rfl, trivial, rfl⟩
  | onStart => exact ⟨.returns i, _, rfl, trivial, rfl⟩

theorem step_worker (E : Env) (s : State) {a : Action} {i : Nat} (mine : worker a = some i) :
    step E s a = stepWorker E s i a := by
  cases a <;> cases mine <;> rfl

theorem stepWorker_isSome {s : State} {a : Action} {i : Nat} {task : BootTask} {place next : Place}
    (found : s.pool.workers[i]? = some (.starting task)) (here : s.places[i]? = some place)
    (takes : stepPlace E (presentIn E.before s.history) task.ability place a = some next) :
    (stepWorker E s i a).isSome = true := by
  simp only [stepWorker, found, here, takes]
  split <;> rfl

theorem stepPool_isSome {s : State} {b : BootPool.Action} {after : BootPool.State SystemAbility}
    (next : BootPool.step s.pool b = some after) (stays : ∀ i, b ≠ .started i) :
    (stepPool s b).isSome = true := by
  cases b with
  | started i => exact absurd rfl (stays i)
  | _ => simp only [stepPool, next, Option.isSome_some]

theorem reachable_steady (reach : (clocked E n program).Reachable Sleeps s) : Steady s := by
  refine reach.invariant Steady ?_ ?_
  · refine ⟨by simp [clocked, initial, BootPool.initial], ?_, ?_⟩
    · intro i place found
      rw [List.eq_of_mem_replicate (Threads.mem_of_getElem? found)]
      trivial
    · intro i task found
      cases List.eq_of_mem_replicate (Threads.mem_of_getElem? found)
  · intro r a t _ steady sleeps next
    exact moves_steady (moves_of_stepClocked next) sleeps steady

theorem reachable_enabled (reach : (clocked E n program).Reachable Sleeps s) (workers : 0 < n)
    (few : program.countP BootDeadlock.enqueues ≤ n + BootPool.maxTaskNumber)
    (young : ∀ i, s.last i + checkDependentSaPeriod ≤ int64Max) (going : ¬Over s.state.pool) :
    ∃ a, isBoot a = true ∧ Sleeps s a ∧ (step E s.state a).isSome = true := by
  have steady := reachable_steady reach
  obtain ⟨b, after, next⟩ := pool_enabled (reachable_pool reach) workers few going
  by_cases leaves : ∃ i, b = .started i
  · -- the pool would go on; the worker may still have to finish its task
    obtain ⟨i, rfl⟩ := leaves
    cases BootPool.step_iff_moves.mp next with
    | @started _ task starting =>
      have listed : i < s.state.places.length := by
        rw [steady.length]
        exact (List.getElem?_eq_some_iff.mp starting).1
      have here := List.getElem?_eq_getElem listed
      by_cases back : s.state.places[i] = .returned
      · rw [back] at here
        refine ⟨.pool (.started i), rfl, trivial, ?_⟩
        simp only [step, stepPool, next, here, Option.isSome_some]
      · have inside : s.state.places[i] ≠ .outside := by
          intro out
          rw [out] at here
          exact steady.inside i task starting here
        obtain ⟨a, place, mine, sleeps, takes⟩ := place_enabled E s
          (presentIn E.before s.state.history) task.ability inside back i (young i)
        refine ⟨a, ?_, sleeps, ?_⟩
        · cases a <;> first | rfl | cases mine
        · rw [step_worker E s.state mine]
          exact stepWorker_isSome starting here takes
  · exact ⟨.pool b, rfl, trivial, stepPool_isSome next fun i same => leaves ⟨i, same⟩⟩

end Progress

end BootProgress
