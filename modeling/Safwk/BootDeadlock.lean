import Safwk.BootPool

/-!
# Deadlock freedom of the boot phases

`AddTask` may block on a full queue while its caller holds `startPhaseLock_`,
and a worker needs that lock to return to the queue. A stuck state therefore
has every worker waiting with a task, a full queue, and one more task in the
hands of the main thread. The count is exact: below it every unfinished state
of every program has a next step, and from it on the stuck state is reached.
-/

namespace BootDeadlock

open Transition BootPool

universe u

variable {Ability : Type u}

/-- Statements that enqueue a task; null abilities are skipped. -/
def enqueues : Op Ability → Bool
  | .startTask _ (some _) => true
  | _ => false

def busy : Worker Ability → Bool
  | .idle => false
  | _ => true

/-- Some ability is not yet enqueued or some task not yet finished. -/
def Unfinished (s : State Ability) : Prop :=
  (∃ op ∈ s.todo, enqueues op = true) ∨ (∃ t, s.main = .adding t) ∨
    s.queue ≠ [] ∨ ∃ w ∈ s.workers, w ≠ .idle

/-- As long as work is left, some thread can take a step. -/
def DeadlockFree (concurrentThreads : Nat) (program : List (Op Ability)) : Prop :=
  ∀ s, (machine concurrentThreads program).Reachable Free s → Unfinished s →
    ∃ a t, step s a = some t

section Accounting

def inHand : Main Ability → Nat
  | .adding _ => 1
  | _ => 0

/-- Tasks that are not finished, wherever they are. -/
def load (s : State Ability) : Nat :=
  s.todo.countP enqueues + inHand s.main + s.queue.length + s.workers.countP busy

theorem length_eraseIdx_add {queue : List (PhaseTask Ability)} {k : Nat} {t : PhaseTask Ability}
    (queued : queue[k]? = some t) : (queue.eraseIdx k).length + 1 = queue.length := by
  have inside := (List.getElem?_eq_some_iff.mp queued).1
  rw [List.length_eraseIdx_of_lt inside]
  omega

theorem moves_load {s t : State Ability} {a : Action} (move : Moves s a t) :
    load t ≤ load s := by
  cases move with
  | skipNull ready next => simp [load, next, enqueues]
  | loadProfiles ready next => simp [load, next, enqueues]
  | waitReturns ready next free zero => simp [load, next, enqueues]
  | waitTimesOut ready next free nonzero => simp [load, next, enqueues]
  | lockMain ready next free =>
    simp only [load, next, ready, inHand, List.countP_cons, enqueues, if_true]
    omega
  | addTask adding room =>
    simp only [load, adding, inHand, List.length_append, List.length_singleton]
    omega
  | unlockMain added => simp [load, added, inHand]
  | @pop i k task idle queued =>
    have count := Threads.countP_set_add busy (.starting task) idle
    have shorter := length_eraseIdx_add queued
    simp only [load, busy, Bool.toNat_true, Bool.toNat_false] at count ⊢
    omega
  | @started i task starting =>
    have count := Threads.countP_set_add busy (.waiting task) starting
    simp only [load, busy, Bool.toNat_true] at count ⊢
    omega
  | @lockWorker i task waiting free =>
    have count := Threads.countP_set_add busy (.holding task) waiting
    simp only [load, busy, Bool.toNat_true] at count ⊢
    omega
  | @decrement i task holding =>
    have count := Threads.countP_set_add busy (.releasing task) holding
    simp only [load, busy, Bool.toNat_true] at count ⊢
    omega
  | unlockWorker releasing =>
    have count := Threads.countP_set_add busy .idle releasing
    simp only [load, busy, Bool.toNat_true, Bool.toNat_false] at count ⊢
    omega

theorem moves_workers_length {s t : State Ability} {a : Action} (move : Moves s a t) :
    t.workers.length = s.workers.length := by
  cases move <;> simp

theorem reachable_load {n : Nat} {program : List (Op Ability)}
    {ok : State Ability → Action → Prop} {s : State Ability}
    (reach : (machine n program).Reachable ok s) :
    load s ≤ program.countP enqueues ∧ s.workers.length = n := by
  refine reach.invariant
    (fun s => load s ≤ program.countP enqueues ∧ s.workers.length = n) ?_ ?_
  · simp [machine, initial, load, inHand, List.countP_replicate, busy]
  · rintro s a t _ ⟨bound, size⟩ _ next
    have move := step_iff_moves.mp next
    exact ⟨Nat.le_trans (moves_load move) bound, (moves_workers_length move).trans size⟩

end Accounting

section Progress

/-- A worker is blocked only by an empty queue or by the lock. -/
theorem worker_moves {s : State Ability} {i : Nat} {w : Worker Ability}
    (found : s.workers[i]? = some w) (work : w = .idle → s.queue ≠ [])
    (free : ∀ t, w = .waiting t → s.startPhaseLock = none) :
    ∃ a t, step s a = some t := by
  cases w with
  | idle =>
    cases queue : s.queue with
    | nil => exact False.elim (work rfl queue)
    | cons t rest =>
      have queued : s.queue[0]? = some t := by simp [queue]
      exact ⟨.pop i 0, _, step_iff_moves.mpr (.pop found queued)⟩
  | starting t => exact ⟨.started i, _, step_iff_moves.mpr (.started found)⟩
  | waiting t => exact ⟨.lock i, _, step_iff_moves.mpr (.lockWorker found (free t rfl))⟩
  | holding t => exact ⟨.decrement i, _, step_iff_moves.mpr (.decrement found)⟩
  | releasing t => exact ⟨.unlock i, _, step_iff_moves.mpr (.unlockWorker found)⟩

theorem main_moves {s : State Ability} {op : Op Ability} {rest : List (Op Ability)}
    (ready : s.main = .ready) (next : s.todo = op :: rest)
    (free : s.startPhaseLock = none) : ∃ a t, step s a = some t := by
  cases op with
  | startTask p ability =>
    cases ability with
    | none => exact ⟨.main, _, step_iff_moves.mpr (.skipNull ready next)⟩
    | some a => exact ⟨.main, _, step_iff_moves.mpr (.lockMain ready next free)⟩
  | initializeRunOnCreateSaProfiles p =>
    exact ⟨.main, _, step_iff_moves.mpr (.loadProfiles ready next)⟩
  | waitForTasks p =>
    by_cases zero : s.startTaskNum = 0
    · exact ⟨.main, _, step_iff_moves.mpr (.waitReturns ready next free zero)⟩
    · exact ⟨.timeout, _, step_iff_moves.mpr (.waitTimesOut ready next free zero)⟩

/-- With the lock free, either the main thread goes on or a worker does. -/
theorem progress_unlocked {s : State Ability} (ok : LockOk s)
    (free : s.startPhaseLock = none) (positive : 0 < s.workers.length)
    (unfinished : Unfinished s) : ∃ a t, step s a = some t := by
  have ready := ok.main_ready free
  cases next : s.todo with
  | cons op rest => exact main_moves ready next free
  | nil =>
    by_cases active : ∃ w ∈ s.workers, w ≠ .idle
    · obtain ⟨w, member, notIdle⟩ := active
      obtain ⟨i, found⟩ := List.mem_iff_getElem?.mp member
      exact worker_moves found (fun idle => False.elim (notIdle idle)) (fun _ _ => free)
    · have queued : s.queue ≠ [] := by
        rcases unfinished with ⟨op, member, _⟩ | ⟨t, adding⟩ | queued | other
        · simp [next] at member
        · simp [ready] at adding
        · exact queued
        · exact False.elim (active other)
      obtain ⟨w, found⟩ : ∃ w, s.workers[0]? = some w :=
        ⟨_, List.getElem?_eq_getElem positive⟩
      exact worker_moves found (fun _ => queued) (fun _ _ => free)

/-- With the main thread inside `AddTask` on a full queue, a worker that does
not wait for the lock can go on. -/
theorem progress_full {s : State Ability} (full : maxTaskNumber ≤ s.queue.length)
    {w : Worker Ability} (member : w ∈ s.workers) (outside : ∀ t, w ≠ .waiting t) :
    ∃ a t, step s a = some t := by
  obtain ⟨i, found⟩ := List.mem_iff_getElem?.mp member
  refine worker_moves found ?_ (fun t waiting => False.elim (outside t waiting))
  rintro - empty
  simp [empty, maxTaskNumber] at full

theorem progress {n : Nat} {program : List (Op Ability)} (positive : 0 < n)
    (small : program.countP enqueues ≤ n + maxTaskNumber) : DeadlockFree n program := by
  intro s reach unfinished
  have ok := reachable_lockOk reach
  obtain ⟨bound, size⟩ := reachable_load reach
  cases held : s.startPhaseLock with
  | none => exact progress_unlocked ok held (by omega) unfinished
  | some owner =>
    cases owner with
    | worker i =>
      obtain ⟨w, found⟩ : ∃ w, s.workers[i]? = some w :=
        ⟨_, List.getElem?_eq_getElem (ok.owner i held)⟩
      have holds : w.Holds := (ok.workers i w found).mpr held
      refine worker_moves found ?_ ?_
      · rintro rfl
        exact False.elim holds
      · rintro t rfl
        exact False.elim holds
    | main =>
      cases place : s.main with
      | ready => exact False.elim (ok.main.mpr held place)
      | added => exact ⟨.main, _, step_iff_moves.mpr (.unlockMain place)⟩
      | adding task =>
        by_cases room : s.queue.length < maxTaskNumber
        · exact ⟨.main, _, step_iff_moves.mpr (.addTask place room)⟩
        · by_cases outside : ∃ w ∈ s.workers, ∀ t, w ≠ .waiting t
          · obtain ⟨w, member, notWaiting⟩ := outside
            exact progress_full (by omega) member notWaiting
          · have allBusy : s.workers.countP busy = s.workers.length := by
              apply List.countP_eq_length.mpr
              intro w member
              by_contra idle
              refine outside ⟨w, member, ?_⟩
              rintro t rfl
              exact idle rfl
            simp only [load, place, inHand] at bound
            omega

end Progress

section Deadlock

variable {n phase : Nat} {program : List (Op Ability)}

theorem reachable_move {s t : State Ability} {a : Action}
    (reach : (machine n program).Reachable Free s) (move : Moves s a t) :
    (machine n program).Reachable Free t :=
  .step reach trivial (step_iff_moves.mpr move)

/-- The main thread skips null abilities and takes the lock for the next task. -/
theorem reach_adding {s : State Ability} {list : List (Option Ability)}
    (reach : (machine n program).Reachable Free s) (ready : s.main = .ready)
    (free : s.startPhaseLock = none) (next : s.todo = startPhaseTasks phase list)
    (left : 0 < list.countP Option.isSome) :
    ∃ t task rest, (machine n program).Reachable Free t ∧ t.main = .adding task ∧
      t.startPhaseLock = some .main ∧ t.todo = startPhaseTasks phase rest ∧
      rest.countP Option.isSome + 1 = list.countP Option.isSome ∧
      t.queue = s.queue ∧ t.workers = s.workers := by
  induction list generalizing s with
  | nil => simp at left
  | cons ability rest ih =>
    cases ability with
    | none =>
      have skipped := reachable_move reach (.skipNull ready next)
      obtain ⟨t, task, rest', found⟩ := ih skipped ready free rfl (by simpa using left)
      exact ⟨t, task, rest', by simpa using found⟩
    | some a =>
      exact ⟨_, ⟨phase, a⟩, rest, reachable_move reach (.lockMain ready next free),
        rfl, rfl, rfl, by simp, rfl, rfl⟩

/-- A state on the way to the deadlock: the first `k` workers wait for the lock
with a task each, the others are idle, and `left` abilities are still to come. -/
structure Parked (n phase k queued left : Nat) (s : State Ability) : Prop where
  ready : s.main = .ready
  free : s.startPhaseLock = none
  todo : ∃ list, s.todo = startPhaseTasks phase list ∧ left ≤ list.countP Option.isSome
  queue : s.queue.length = queued
  size : s.workers.length = n
  waiting : ∀ i, i < k → ∃ t, s.workers[i]? = some (.waiting t)
  idle : ∀ i, k ≤ i → i < n → s.workers[i]? = some .idle

theorem Parked.enqueue {k queued left : Nat} {s : State Ability}
    (parked : Parked n phase k queued (left + 1) s)
    (reach : (machine n program).Reachable Free s) (room : queued < maxTaskNumber) :
    ∃ t, (machine n program).Reachable Free t ∧ Parked n phase k (queued + 1) left t := by
  obtain ⟨list, next, enough⟩ := parked.todo
  obtain ⟨t, task, rest, reached, adding, _, todo, count, queue, workers⟩ :=
    reach_adding reach parked.ready parked.free next (by omega)
  have fits : t.queue.length < maxTaskNumber := by rw [queue, parked.queue]; exact room
  have added := reachable_move reached (.addTask adding fits)
  refine ⟨_, reachable_move added (.unlockMain rfl), ?_⟩
  refine ⟨rfl, rfl, ⟨rest, todo, by omega⟩, ?_, ?_, ?_, ?_⟩
  · simp [queue, parked.queue]
  · simp [workers, parked.size]
  · simpa [workers] using parked.waiting
  · simpa [workers] using parked.idle

/-- An idle worker takes the only queued task and waits for the lock. -/
theorem Parked.park {k left : Nat} {s : State Ability}
    (parked : Parked n phase k 1 left s)
    (reach : (machine n program).Reachable Free s) (inside : k < n) :
    ∃ t, (machine n program).Reachable Free t ∧ Parked n phase (k + 1) 0 left t := by
  obtain ⟨task, single⟩ := List.length_eq_one_iff.mp parked.queue
  have idle := parked.idle k (Nat.le_refl k) inside
  have queued : s.queue[0]? = some task := by simp [single]
  have popped := reachable_move reach (.pop idle queued)
  have size := parked.size
  have here : (s.workers.set k (.starting task))[k]? = some (.starting task) := by
    rw [List.getElem?_set_self (by omega)]
  refine ⟨_, reachable_move popped (.started here), ?_⟩
  refine ⟨parked.ready, parked.free, parked.todo, ?_, ?_, ?_, ?_⟩
  · simp [single]
  · simpa using size
  · intro i hi
    by_cases same : i = k
    · subst same
      exact ⟨task, by simp [size, inside]⟩
    · obtain ⟨t, found⟩ := parked.waiting i (by omega)
      exact ⟨t, by simpa [Ne.symm same] using found⟩
  · intro i hi hn
    have other : k ≠ i := by omega
    simpa [other] using parked.idle i (by omega) hn

theorem reach_all_waiting (k left : Nat) (fits : k ≤ n) {s : State Ability}
    (parked : Parked n phase 0 0 (k + left) s)
    (reach : (machine n program).Reachable Free s) :
    ∃ t, (machine n program).Reachable Free t ∧ Parked n phase k 0 left t := by
  induction k generalizing left with
  | zero => exact ⟨s, reach, by simpa using parked⟩
  | succ k ih =>
    have split : k + 1 + left = k + (left + 1) := by omega
    obtain ⟨t, reached, waiting⟩ := ih (left + 1) (by omega) (split ▸ parked)
    obtain ⟨t, reached, enqueued⟩ := waiting.enqueue reached (by decide)
    exact enqueued.park reached (by omega)

theorem reach_full {k : Nat} (q left : Nat) (fits : q ≤ maxTaskNumber) {s : State Ability}
    (parked : Parked n phase k 0 (q + left) s)
    (reach : (machine n program).Reachable Free s) :
    ∃ t, (machine n program).Reachable Free t ∧ Parked n phase k q left t := by
  induction q generalizing left with
  | zero => exact ⟨s, reach, by simpa using parked⟩
  | succ q ih =>
    have split : q + 1 + left = q + (left + 1) := by omega
    obtain ⟨t, reached, filled⟩ := ih (left + 1) (by omega) (split ▸ parked)
    exact filled.enqueue reached (by omega)

/-- Everybody waits for the lock, its owner waits for the queue. -/
theorem full_stuck {s : State Ability} {task : PhaseTask Ability}
    (adding : s.main = .adding task) (held : s.startPhaseLock = some .main)
    (full : s.queue.length = maxTaskNumber)
    (waiting : ∀ w ∈ s.workers, ∃ t, w = .waiting t) (a : Action) :
    step s a = none := by
  cases next : step s a with
  | none => rfl
  | some t =>
    exfalso
    cases step_iff_moves.mp next with
    | skipNull ready | lockMain ready | loadProfiles ready | waitReturns ready
    | waitTimesOut ready => simp [adding] at ready
    | addTask _ room => omega
    | unlockMain added => simp [adding] at added
    | pop found | started found | decrement found | unlockWorker found =>
      obtain ⟨t, same⟩ := waiting _ (Threads.mem_of_getElem? found)
      cases same
    | lockWorker _ free => simp [held] at free

theorem reach_deadlock (n phase : Nat) (list : List (Option Ability))
    (large : n + maxTaskNumber < list.countP Option.isSome) :
    ∃ s, (machine n (startPhaseTasks phase list)).Reachable Free s ∧
      Unfinished s ∧ ∀ a, step s a = none := by
  have parked : Parked n phase 0 0 (n + (maxTaskNumber + 1))
      (initial n (startPhaseTasks phase list)) := by
    refine ⟨rfl, rfl, ⟨list, rfl, by omega⟩, rfl, by simp [initial], ?_, ?_⟩
    · intro i hi
      omega
    · intro i _ hn
      simp [initial, hn]
  obtain ⟨t, reached, waiting⟩ := reach_all_waiting n _ (Nat.le_refl n) parked .init
  obtain ⟨t, reached, full⟩ := reach_full _ _ (Nat.le_refl maxTaskNumber) waiting reached
  obtain ⟨rest, next, enough⟩ := full.todo
  obtain ⟨r, task, _, reached, adding, held, _, _, queue, workers⟩ :=
    reach_adding reached full.ready full.free next (by omega)
  refine ⟨r, reached, Or.inr (Or.inl ⟨task, adding⟩), ?_⟩
  apply full_stuck adding held (by rw [queue, full.queue])
  intro w member
  rw [workers] at member
  obtain ⟨i, found⟩ := List.mem_iff_getElem?.mp member
  have inside := (List.getElem?_eq_some_iff.mp found).1
  obtain ⟨t, same⟩ := full.waiting i (by have := full.size; omega)
  exact ⟨t, Option.some.inj (found.symm.trans same)⟩

end Deadlock

theorem enqueues_startPhaseTasks (phase : Nat) (list : List (Option Ability)) :
    (startPhaseTasks phase list).countP enqueues = list.countP Option.isSome := by
  rw [startPhaseTasks, List.countP_map]
  congr 1
  funext ability
  cases ability <;> rfl

/-- The phase start is deadlock free exactly when the abilities of the phase
fit into the workers and the queue together. -/
theorem startPhaseTasks_deadlockFree_iff (n : Nat) (workers : 0 < n) (phase : Nat)
    (systemAbilityList : List (Option Ability)) :
    DeadlockFree n (startPhaseTasks phase systemAbilityList) ↔
      systemAbilityList.countP Option.isSome ≤ n + maxTaskNumber := by
  constructor
  · intro free
    by_contra large
    obtain ⟨s, reach, unfinished, stuck⟩ :=
      reach_deadlock n phase systemAbilityList (by omega)
    obtain ⟨a, t, next⟩ := free s reach unfinished
    rw [stuck a] at next
    cases next
  · intro small
    exact progress workers (by rw [enqueues_startPhaseTasks]; exact small)

theorem startPhaseTasks_deadlockFree_one_worker :
    0 < 1 ∧ (DeadlockFree 1 (startPhaseTasks 1 (List.replicate 21 (some 0))) ↔
      (List.replicate 21 (some 0)).countP Option.isSome ≤ 1 + maxTaskNumber) :=
  ⟨by decide, startPhaseTasks_deadlockFree_iff 1 (by decide) 1 (List.replicate 21 (some 0))⟩

/-- One worker starts the first of 22 abilities while the main thread fills the
queue; then the main thread takes the lock for the last one. -/
def overfillSchedule : List Action :=
  [.main, .main, .main, .pop 0 0, .started 0] ++ List.replicate 61 .main

def overfilled : State Nat where
  todo := []
  main := .adding ⟨1, 0⟩
  queue := List.replicate 20 ⟨1, 0⟩
  workers := [.waiting ⟨1, 0⟩]
  startPhaseLock := some .main
  startTaskNum := 22
  timedOut := []

theorem startPhaseTasks_deadlocks :
    ¬ DeadlockFree 1 (startPhaseTasks 1 (List.replicate 22 (some 0))) := by
  intro free
  have result : (machine 1 (startPhaseTasks 1 (List.replicate 22 (some 0)))).run Free
      (initial 1 (startPhaseTasks 1 (List.replicate 22 (some 0)))) overfillSchedule =
        some overfilled := by decide
  obtain ⟨a, t, next⟩ := free overfilled
    (Machine.reachable_of_run overfillSchedule result) (Or.inr (Or.inl ⟨_, rfl⟩))
  have stuck := full_stuck (s := overfilled) rfl rfl rfl
    (by simp [overfilled]) a
  rw [stuck] at next
  cases next

end BootDeadlock
