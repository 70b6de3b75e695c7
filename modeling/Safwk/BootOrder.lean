import Safwk.BootPool

/-!
# Phase ordering

`startTaskNum_` is one counter for all phases: it is incremented for each
enqueued task, decremented by whichever task finishes, and set to 0 when
`WaitForTasks` gives up. It counts the tasks of the phase that is waited for as
long as no task of a phase that timed out decrements it. That condition is on
the state before a decrement; under it every wait that returns in time has seen
its whole phase finish, and without it the wait of one phase can be ended by
the tasks of another.
-/

namespace BootOrder

open Transition BootPool

universe u

variable {Ability : Type u}

/-- No task of phase `p` is queued or held by a worker. -/
def Completed (p : Nat) (s : State Ability) : Prop :=
  (∀ t ∈ s.queue, t.phase ≠ p) ∧ ∀ w ∈ s.workers, ∀ t, w.task? = some t → t.phase ≠ p

/-- A task of phase `p + 1` is enqueued only after phase `p` has finished or its
own wait has timed out, and a wait returns in time only for a finished phase. -/
structure PhaseOrdered (s : State Ability) : Prop where
  enqueue : ∀ t p, s.main = .adding t → t.phase = p + 1 → Completed p s ∨ p ∈ s.timedOut
  wait : ∀ p rest t, s.main = .ready → s.todo = .waitForTasks p :: rest →
    step s .main = some t → Completed p s

/-- The phase whose `WaitForTasks` comes next. -/
def nextWait : List (Op Ability) → Option Nat
  | [] => none
  | .waitForTasks p :: _ => some p
  | .startTask _ _ :: rest => nextWait rest
  | .initializeRunOnCreateSaProfiles _ :: rest => nextWait rest

def punctual (s : State Ability) : Action → Bool
  | .decrement i =>
    match s.workers[i]? with
    | some (.holding t) => s.startTaskNum == 0 || nextWait s.todo == some t.phase
    | _ => true
  | _ => true

/-- A worker decrements a positive counter only for a task of the phase that is
waited for next; the tasks of a phase that timed out find it at 0. -/
def Punctual (s : State Ability) (a : Action) : Prop := punctual s a = true

instance (s : State Ability) (a : Action) : Decidable (Punctual s a) :=
  inferInstanceAs (Decidable (punctual s a = true))

section Program

/-- The statement belongs to a phase after `p`. -/
def Later (p : Nat) : Op Ability → Prop
  | .startTask q _ => p < q
  | .waitForTasks q => p < q
  | .initializeRunOnCreateSaProfiles _ => True

/-- Every task is followed by the wait of its own phase, and phases ascend. -/
def Phased : List (Op Ability) → Prop
  | [] => True
  | .startTask p _ :: rest => nextWait rest = some p ∧ Phased rest
  | .waitForTasks p :: rest => (∀ op ∈ rest, Later p op) ∧ Phased rest
  | .initializeRunOnCreateSaProfiles _ :: rest => Phased rest

theorem nextWait_later {p q : Nat} {program : List (Op Ability)}
    (later : ∀ op ∈ program, Later p op) (next : nextWait program = some q) : p < q := by
  induction program with
  | nil => cases next
  | cons op rest ih =>
    have tail : ∀ op ∈ rest, Later p op :=
      fun op member => later op (List.mem_cons_of_mem _ member)
    cases op with
    | startTask _ _ => exact ih tail next
    | initializeRunOnCreateSaProfiles _ => exact ih tail next
    | waitForTasks r =>
      have same : r = q := Option.some.inj next
      exact same ▸ later _ List.mem_cons_self

theorem startPhaseTasks_phased {p : Nat} (list : List (Option Ability))
    {rest : List (Op Ability)} (next : nextWait rest = some p) (phased : Phased rest) :
    nextWait (startPhaseTasks p list ++ rest) = some p ∧
      Phased (startPhaseTasks p list ++ rest) := by
  induction list with
  | nil => exact ⟨next, phased⟩
  | cons ability list ih => exact ⟨ih.1, ih.1, ih.2⟩

theorem visitPhase_phased (saId : Int) (phases : Nat → Option (List (Option Ability)))
    {p : Nat} {rest : List (Op Ability)} (later : ∀ op ∈ rest, Later p op)
    (phased : Phased rest) : Phased (visitPhase saId phases p ++ rest) := by
  have waited : Phased (.waitForTasks p :: rest) := ⟨later, phased⟩
  rw [visitPhase]
  split
  · split
    · rw [List.append_assoc]
      have loaded : Phased (.initializeRunOnCreateSaProfiles (p + 1) ::
        .waitForTasks p :: rest) := waited
      exact (startPhaseTasks_phased _ rfl loaded).2
    · rw [List.append_assoc]
      exact (startPhaseTasks_phased _ rfl waited).2
  · split
    · exact phased
    · exact phased

theorem visitPhase_later (saId : Int) (phases : Nat → Option (List (Option Ability)))
    {p q : Nat} (before : p < q) : ∀ op ∈ visitPhase saId phases q, Later p op := by
  intro op member
  rw [visitPhase] at member
  split at member
  · split at member
    · simp only [startPhaseTasks, List.mem_append, List.mem_map, List.mem_cons,
        List.not_mem_nil, or_false] at member
      rcases member with ⟨ability, _, rfl⟩ | rfl | rfl
      · exact before
      · trivial
      · exact before
    · simp only [startPhaseTasks, List.mem_append, List.mem_map, List.mem_cons,
        List.not_mem_nil, or_false] at member
      rcases member with ⟨ability, _, rfl⟩ | rfl
      · exact before
      · exact before
  · split at member
    · simp only [List.mem_cons, List.not_mem_nil, or_false] at member
      subst member
      trivial
    · cases member

/-- The loop of `FindAndStartPhaseTasks` is phased in both start modes. -/
theorem findAndStartPhaseTasks_phased (saId : Int)
    (phases : Nat → Option (List (Option Ability))) :
    Phased (findAndStartPhaseTasks saId phases) := by
  have third : Phased (visitPhase saId phases 3 ++ []) :=
    visitPhase_phased saId phases (by simp) trivial
  have second : Phased (visitPhase saId phases 2 ++ (visitPhase saId phases 3 ++ [])) := by
    refine visitPhase_phased saId phases ?_ third
    rw [List.append_nil]
    exact visitPhase_later saId phases (by decide)
  change Phased (visitPhase saId phases 1 ++
    (visitPhase saId phases 2 ++ (visitPhase saId phases 3 ++ [])))
  refine visitPhase_phased saId phases ?_ second
  intro op member
  rw [List.append_nil] at member
  rcases List.mem_append.mp member with member | member
  · exact visitPhase_later saId phases (by decide) op member
  · exact visitPhase_later saId phases (by decide) op member

end Program

section Invariant

/-- The task is on its way: with the main thread, queued, or with a worker. -/
def Present (t : PhaseTask Ability) (s : State Ability) : Prop :=
  s.main = .adding t ∨ t ∈ s.queue ∨ ∃ w ∈ s.workers, w.task? = some t

def ofPhase (q : Nat) (t : PhaseTask Ability) : Bool := t.phase == q

/-- A worker whose task of phase `q` is still counted. -/
def countedIn (q : Nat) : Worker Ability → Bool
  | .starting t => ofPhase q t
  | .waiting t => ofPhase q t
  | .holding t => ofPhase q t
  | _ => false

def addingIn (q : Nat) : Main Ability → Nat
  | .adding t => (ofPhase q t).toNat
  | _ => 0

/-- Tasks of phase `q` that have not decremented the counter. -/
def outstanding (q : Nat) (s : State Ability) : Nat :=
  addingIn q s.main + s.queue.countP (ofPhase q) + s.workers.countP (countedIn q)

structure Counted (s : State Ability) : Prop where
  phased : Phased s.todo
  current : ∀ t, s.main = .adding t → nextWait s.todo = some t.phase
  bound : ∀ t q, Present t s → nextWait s.todo = some q → t.phase ≤ q
  late : ∀ t q, Present t s → nextWait s.todo = some q → t.phase < q → t.phase ∈ s.timedOut
  count : ∀ q, nextWait s.todo = some q → s.startTaskNum = outstanding q s

theorem Present.of_set {s : State Ability} {i : Nat} {w w' : Worker Ability}
    {t : PhaseTask Ability} (found : s.workers[i]? = some w)
    (held : ∃ v ∈ s.workers.set i w', v.task? = some t)
    (same : ∀ t, w'.task? = some t → w.task? = some t) :
    ∃ v ∈ s.workers, v.task? = some t := by
  obtain ⟨v, member, task⟩ := held
  rcases Threads.mem_set_cases member with rfl | member
  · exact ⟨w, Threads.mem_of_getElem? found, same t task⟩
  · exact ⟨v, member, task⟩

/-- Tasks appear only when the main thread takes the lock for them. -/
theorem moves_present {s s' : State Ability} {a : Action} (move : Moves s a s')
    {t : PhaseTask Ability} (present : Present t s') :
    Present t s ∨ ∃ rest, s.todo = .startTask t.phase (some t.ability) :: rest := by
  cases move with
  | skipNull ready next => exact Or.inl present
  | loadProfiles ready next => exact Or.inl present
  | waitReturns ready next free zero => exact Or.inl present
  | waitTimesOut ready next free nonzero => exact Or.inl present
  | lockMain ready next free =>
    rcases present with adding | other
    · cases adding
      exact Or.inr ⟨_, next⟩
    · exact Or.inl (Or.inr other)
  | addTask adding room =>
    rcases present with impossible | queued | held
    · cases impossible
    · rcases List.mem_append.mp queued with queued | last
      · exact Or.inl (Or.inr (Or.inl queued))
      · rw [List.mem_singleton.mp last]
        exact Or.inl (Or.inl adding)
    · exact Or.inl (Or.inr (Or.inr held))
  | unlockMain added =>
    rcases present with impossible | other
    · cases impossible
    · exact Or.inl (Or.inr other)
  | @pop i k task idle queued =>
    rcases present with adding | stays | ⟨w, member, same⟩
    · exact Or.inl (Or.inl adding)
    · exact Or.inl (Or.inr (Or.inl (List.mem_of_mem_eraseIdx stays)))
    · rcases Threads.mem_set_cases member with rfl | member
      · have same : task = t := Option.some.inj same
        exact Or.inl (Or.inr (Or.inl (same ▸ Threads.mem_of_getElem? queued)))
      · exact Or.inl (Or.inr (Or.inr ⟨w, member, same⟩))
  | started found | lockWorker found | decrement found =>
    rcases present with adding | queued | held
    · exact Or.inl (Or.inl adding)
    · exact Or.inl (Or.inr (Or.inl queued))
    · exact Or.inl (Or.inr (Or.inr (Present.of_set found held (fun _ h => h))))
  | unlockWorker found =>
    rcases present with adding | queued | held
    · exact Or.inl (Or.inl adding)
    · exact Or.inl (Or.inr (Or.inl queued))
    · exact Or.inl (Or.inr (Or.inr (Present.of_set found held (fun _ h => by cases h))))

/-- With the lock free, a task of phase `q` that is present is counted. -/
theorem outstanding_pos {s : State Ability} (lock : LockOk s)
    (free : s.startPhaseLock = none) {t : PhaseTask Ability} (present : Present t s) :
    0 < outstanding t.phase s := by
  rcases present with adding | queued | ⟨w, member, task⟩
  · have ready := lock.main_ready free
    rw [adding] at ready
    cases ready
  · have : 0 < s.queue.countP (ofPhase t.phase) :=
      List.countP_pos_iff.mpr ⟨t, queued, by simp [ofPhase]⟩
    simp only [outstanding]
    omega
  · have outside := lock.workers_outside free member
    have counted : countedIn t.phase w = true := by
      cases w with
      | idle => cases task
      | starting t' => cases task; simp [countedIn, ofPhase]
      | waiting t' => cases task; simp [countedIn, ofPhase]
      | holding t' => exact False.elim (outside trivial)
      | releasing t' => exact False.elim (outside trivial)
    have : 0 < s.workers.countP (countedIn t.phase) :=
      List.countP_pos_iff.mpr ⟨w, member, counted⟩
    simp only [outstanding]
    omega

/-- No present task belongs to a phase after all present ones. -/
theorem outstanding_zero {s : State Ability} {p q : Nat} (before : p < q)
    (bound : ∀ t, Present t s → t.phase ≤ p) : outstanding q s = 0 := by
  have queue : s.queue.countP (ofPhase q) = 0 := by
    apply List.countP_eq_zero.mpr
    intro t member same
    have := bound t (Or.inr (Or.inl member))
    simp only [ofPhase, beq_iff_eq] at same
    omega
  have workers : s.workers.countP (countedIn q) = 0 := by
    apply List.countP_eq_zero.mpr
    intro w member same
    have small : ∀ t, w.task? = some t → t.phase ≤ p :=
      fun t task => bound t (Or.inr (Or.inr ⟨w, member, task⟩))
    cases w with
    | idle | releasing t => cases same
    | starting t | waiting t | holding t =>
      have := small t rfl
      simp only [countedIn, ofPhase, beq_iff_eq] at same
      omega
  have main : addingIn q s.main = 0 := by
    cases place : s.main with
    | ready | added => rfl
    | adding t =>
      have := bound t (Or.inl place)
      have other : t.phase ≠ q := by omega
      simp [addingIn, ofPhase, other]
  rw [outstanding, queue, workers, main]

theorem initial_counted (n : Nat) {program : List (Op Ability)}
    (phased : Phased program) : Counted (initial n program) := by
  have absent : ∀ t : PhaseTask Ability, ¬ Present t (initial n program) := by
    rintro t (adding | queued | ⟨w, member, task⟩)
    · cases adding
    · cases queued
    · rw [List.eq_of_mem_replicate member] at task
      cases task
  refine ⟨phased, ?_, ?_, ?_, ?_⟩
  · intro t adding
    cases adding
  · intro t q present
    exact False.elim (absent t present)
  · intro t q present
    exact False.elim (absent t present)
  · intro q _
    simp [initial, outstanding, addingIn, List.countP_replicate, countedIn]

/-- Steps of the current phase: the wait ahead and the timeouts stay. -/
theorem Counted.same_phase {s s' : State Ability} {a : Action} (counted : Counted s)
    (move : Moves s a s') (phased : Phased s'.todo)
    (ahead : nextWait s'.todo = nextWait s.todo) (timeouts : s'.timedOut = s.timedOut)
    (current : ∀ t, s'.main = .adding t → nextWait s.todo = some t.phase)
    (count : ∀ q, nextWait s.todo = some q → s'.startTaskNum = outstanding q s') :
    Counted s' := by
  have origin : ∀ t, Present t s' → Present t s ∨ nextWait s.todo = some t.phase := by
    intro t present
    rcases moves_present move present with old | ⟨rest, next⟩
    · exact Or.inl old
    · have own := counted.phased
      rw [next] at own
      exact Or.inr (by rw [next]; exact own.1)
  refine ⟨phased, ?_, ?_, ?_, ?_⟩
  · intro t adding
    rw [ahead]
    exact current t adding
  · intro t q present next
    rw [ahead] at next
    rcases origin t present with old | own
    · exact counted.bound t q old next
    · have same : t.phase = q := Option.some.inj (own.symm.trans next)
      omega
  · intro t q present next before
    rw [ahead] at next
    rcases origin t present with old | own
    · rw [timeouts]
      exact counted.late t q old next before
    · have same : t.phase = q := Option.some.inj (own.symm.trans next)
      omega
  · intro q next
    rw [ahead] at next
    exact count q next

/-- The end of a wait: what is left of its phase must be on record as timed out. -/
theorem Counted.next_phase {s : State Ability} {p : Nat} {rest : List (Op Ability)}
    (counted : Counted s) (ready : s.main = .ready)
    (next : s.todo = .waitForTasks p :: rest) (timeouts : List Nat)
    (keeps : ∀ q ∈ s.timedOut, q ∈ timeouts)
    (left : ∀ t, Present t s → t.phase = p → p ∈ timeouts) :
    Counted { s with todo := rest, startTaskNum := 0, timedOut := timeouts } := by
  have here : nextWait s.todo = some p := by rw [next]; rfl
  have program := counted.phased
  rw [next] at program
  have bound : ∀ t, Present t s → t.phase ≤ p :=
    fun t present => counted.bound t p present here
  refine ⟨program.2, ?_, ?_, ?_, ?_⟩
  · intro t adding
    change s.main = .adding t at adding
    rw [ready] at adding
    cases adding
  · intro t q present ahead
    have small := bound t present
    have after := nextWait_later program.1 ahead
    omega
  · intro t q present ahead _
    by_cases own : t.phase = p
    · rw [own]
      exact left t present own
    · have small := bound t present
      exact keeps _ (counted.late t p present here (by omega))
  · intro q ahead
    exact (outstanding_zero (nextWait_later program.1 ahead) bound).symm

theorem moves_counted {s s' : State Ability} {a : Action} (lock : LockOk s)
    (counted : Counted s) (guard : Punctual s a) (move : Moves s a s') : Counted s' := by
  have program := counted.phased
  cases id move with
  | skipNull ready next =>
    rw [next] at program
    refine counted.same_phase move program.2 (by rw [next]; rfl) rfl counted.current ?_
    exact counted.count
  | loadProfiles ready next =>
    rw [next] at program
    refine counted.same_phase move program (by rw [next]; rfl) rfl counted.current ?_
    exact counted.count
  | @lockMain p a rest ready next free =>
    rw [next] at program
    have here : nextWait s.todo = some p := by rw [next]; exact program.1
    refine counted.same_phase move program.2 (by rw [next]; rfl) rfl ?_ ?_
    · intro t adding
      cases adding
      exact here
    · intro q ahead
      have before := counted.count q ahead
      have same : p = q := Option.some.inj (here.symm.trans ahead)
      simp only [outstanding, ready, addingIn, ofPhase, same, beq_self_eq_true,
        Bool.toNat_true] at before ⊢
      omega
  | @addTask t adding room =>
    refine counted.same_phase move program rfl rfl (fun t h => by cases h) ?_
    intro q ahead
    have before := counted.count q ahead
    simp only [outstanding, adding, addingIn, List.countP_append] at before ⊢
    cases own : ofPhase q t <;> simp [own] at before ⊢ <;> omega
  | unlockMain added =>
    refine counted.same_phase move program rfl rfl (fun t h => by cases h) ?_
    intro q ahead
    have before := counted.count q ahead
    simpa only [outstanding, added, addingIn] using before
  | @waitReturns p rest ready next free zero =>
    have result := counted.next_phase ready next s.timedOut (fun q member => member) ?_
    · rw [← zero] at result
      exact result
    · intro t present own
      have positive := outstanding_pos lock free present
      have count := counted.count p (by rw [next]; rfl)
      rw [own] at positive
      omega
  | @waitTimesOut p rest ready next free nonzero =>
    refine counted.next_phase ready next (p :: s.timedOut) ?_ ?_
    · intro q member
      exact List.mem_cons_of_mem p member
    · intro t _ _
      exact List.mem_cons_self
  | @pop i k t idle queued =>
    refine counted.same_phase move program rfl rfl counted.current ?_
    intro q ahead
    have before := counted.count q ahead
    have workers := Threads.countP_set_add (countedIn q) (.starting t) idle
    have queue := Threads.countP_eraseIdx_add (ofPhase q) queued
    simp only [outstanding, countedIn, Bool.toNat_false] at before workers ⊢
    omega
  | @started i t starting =>
    refine counted.same_phase move program rfl rfl counted.current ?_
    intro q ahead
    have before := counted.count q ahead
    have workers := Threads.countP_set_add (countedIn q) (.waiting t) starting
    simp only [outstanding, countedIn] at before workers ⊢
    omega
  | @lockWorker i t waiting free =>
    refine counted.same_phase move program rfl rfl counted.current ?_
    intro q ahead
    have before := counted.count q ahead
    have workers := Threads.countP_set_add (countedIn q) (.holding t) waiting
    simp only [outstanding, countedIn] at before workers ⊢
    omega
  | @unlockWorker i t releasing =>
    refine counted.same_phase move program rfl rfl counted.current ?_
    intro q ahead
    have before := counted.count q ahead
    have workers := Threads.countP_set_add (countedIn q) .idle releasing
    simp only [outstanding, countedIn, Bool.toNat_false] at before workers ⊢
    omega
  | @decrement i t holding =>
    refine counted.same_phase move program rfl rfl counted.current ?_
    intro q ahead
    have before := counted.count q ahead
    have workers := Threads.countP_set_add (countedIn q) (.releasing t) holding
    simp only [Punctual, punctual, holding, Bool.or_eq_true, beq_iff_eq] at guard
    simp only [outstanding, countedIn, Bool.toNat_false] at before workers ⊢
    -- a task of the awaited phase is counted, so a counter at 0 excludes it
    by_cases own : t.phase = q
    · simp only [ofPhase, own, beq_self_eq_true, Bool.toNat_true] at workers
      omega
    · have zero : s.startTaskNum = 0 := by
        rcases guard with zero | same
        · exact zero
        · exact False.elim (own (Option.some.inj (same.symm.trans ahead)))
      have other : ofPhase q t = false := by simp [ofPhase, own]
      simp only [other, Bool.toNat_false] at workers
      omega

end Invariant

theorem Counted.completed {s : State Ability} (counted : Counted s) {p q : Nat}
    (ahead : nextWait s.todo = some q) (before : p < q) :
    Completed p s ∨ p ∈ s.timedOut := by
  by_cases timeout : p ∈ s.timedOut
  · exact Or.inr timeout
  · refine Or.inl ⟨?_, ?_⟩
    · rintro t member rfl
      exact timeout (counted.late t q (Or.inr (Or.inl member)) ahead before)
    · rintro w member t task rfl
      exact timeout (counted.late t q (Or.inr (Or.inr ⟨w, member, task⟩)) ahead before)

theorem Counted.phaseOrdered {s : State Ability} (lock : LockOk s)
    (counted : Counted s) : PhaseOrdered s := by
  constructor
  · intro t p adding phase
    exact counted.completed (counted.current t adding) (by omega)
  · intro p rest t ready next step
    have here : nextWait s.todo = some p := by rw [next]; rfl
    cases step_iff_moves.mp step with
    | waitReturns _ _ free zero =>
      have none : ∀ t, Present t s → t.phase ≠ p := by
        rintro t present rfl
        have positive := outstanding_pos lock free present
        have count := counted.count t.phase here
        omega
      exact ⟨fun t member => none t (Or.inr (Or.inl member)),
        fun w member t task => none t (Or.inr (Or.inr ⟨w, member, task⟩))⟩
    | skipNull _ other | lockMain _ other | loadProfiles _ other =>
      rw [next] at other
      cases other
    | addTask other | unlockMain other =>
      rw [ready] at other
      cases other

/-- Phase ordering for every assignment of abilities to phases, both start modes,
every number of workers and every schedule without a late decrement. -/
theorem findAndStartPhaseTasks_ordered (concurrentThreads : Nat) (saId : Int)
    (abilityPhaseMap : Nat → Option (List (Option Ability))) (s : State Ability)
    (reach : (machine concurrentThreads
      (findAndStartPhaseTasks saId abilityPhaseMap)).Reachable Punctual s) :
    PhaseOrdered s := by
  have counted : Counted s := by
    refine reach.invariant Counted
      (initial_counted _ (findAndStartPhaseTasks_phased saId abilityPhaseMap)) ?_
    intro r a t before keep guard next
    exact moves_counted (reachable_lockOk before) keep guard (step_iff_moves.mp next)
  exact counted.phaseOrdered (reachable_lockOk reach)

/-- One ability in each phase. -/
def onePerPhase : Nat → Option (List (Option Nat))
  | 1 => some [some 1]
  | 2 => some [some 2]
  | 3 => some [some 3]
  | _ => none

/-- Phases 1 and 2 finish in time; the main thread is about to enqueue phase 3. -/
def bootedInTime : State Nat where
  todo := [.initializeRunOnCreateSaProfiles 4, .waitForTasks 3]
  main := .adding ⟨3, 3⟩
  queue := []
  workers := [.idle, .idle]
  startPhaseLock := some .main
  startTaskNum := 1
  timedOut := []

theorem findAndStartPhaseTasks_ordered_in_time :
    (machine 2 (findAndStartPhaseTasks defaultSaId onePerPhase)).Reachable Punctual
      bootedInTime ∧ PhaseOrdered bootedInTime := by
  have reach : (machine 2 (findAndStartPhaseTasks defaultSaId onePerPhase)).Reachable
      Punctual bootedInTime :=
    Machine.reachable_of_run
      [.main, .main, .main, .pop 0 0, .started 0, .lock 0, .decrement 0, .unlock 0,
        .main, .main, .main, .main, .main, .pop 1 0, .started 1, .lock 1, .decrement 1,
        .unlock 1, .main, .main, .main] (by decide)
  exact ⟨reach, findAndStartPhaseTasks_ordered 2 defaultSaId onePerPhase _ reach⟩

/-- Phase 1 times out, its task decrements the counter of phase 2, and phase 3
is enqueued while the task of phase 2 still runs. -/
def bootedTooEarly : State Nat where
  todo := [.initializeRunOnCreateSaProfiles 4, .waitForTasks 3]
  main := .adding ⟨3, 3⟩
  queue := []
  workers := [.idle, .starting ⟨2, 2⟩]
  startPhaseLock := some .main
  startTaskNum := 1
  timedOut := [1]

theorem findAndStartPhaseTasks_unordered :
    ¬ ∀ s, (machine 2 (findAndStartPhaseTasks defaultSaId onePerPhase)).Reachable Free s →
      PhaseOrdered s := by
  intro ordered
  have reach : (machine 2 (findAndStartPhaseTasks defaultSaId onePerPhase)).Reachable
      Free bootedTooEarly :=
    Machine.reachable_of_run
      [.main, .main, .main, .pop 0 0, .main, .timeout, .main, .main, .main, .pop 1 0,
        .started 0, .lock 0, .decrement 0, .unlock 0, .main, .main, .main] (by decide)
  rcases (ordered _ reach).enqueue ⟨3, 3⟩ 2 rfl rfl with completed | timeout
  · exact completed.2 (.starting ⟨2, 2⟩) (by simp [bootedTooEarly]) ⟨2, 2⟩ rfl rfl
  · simp [bootedTooEarly] at timeout

end BootOrder
