import Safwk.FfrtStatistics

/-!
# Clean-up tasks of earlier collections

A start cancels the clean-up task of the collection before it. A task that has fired
and waits for the lock cannot be cancelled; it runs after the start, and stops the new
collection and frees its buffer, for it does not know which collection it was posted
for. The result below excludes a collection that begins while a fired task waits, and
each of these can be ended so.
-/

namespace FfrtCleanUp

open FfrtStatistics Transition

/-- The task stopped no collection and freed no buffer of a start later than its own. -/
structure OwnOnly (cleanUp : CleanUp) : Prop where
  stopped : ∀ k, cleanUp.stopped = some k → k ≤ cleanUp.task
  freed : ∀ k, cleanUp.freed = some k → k ≤ cleanUp.task

instance (E : Env) (s : State) (label : Label) : Decidable (Begins E s label) :=
  match label with
  | .command _ _ _ => inferInstanceAs (Decidable (_ ∧ _ ∧ _))
  | .fires _ => inferInstanceAs (Decidable False)
  | .runs _ => inferInstanceAs (Decidable False)

/-- No collection begins while a fired task waits for the lock. -/
def NoneWaits (E : Env) (s : State) (label : Label) : Prop :=
  Begins E s label → TaskState.fired ∉ s.tasks

instance (E : Env) (s : State) (label : Label) : Decidable (NoneWaits E s label) :=
  inferInstanceAs (Decidable (_ → _))

/-- A fired task was posted with the buffer that is there. -/
def FiredOwn (s : State) : Prop :=
  ∀ b t, s.ffrtMetricBuffer = some b → Fired s t → t = b

structure Orderly (s : State) : Prop where
  fired : FiredOwn s
  cleanUps : ∀ cleanUp ∈ s.cleanUps, OwnOnly cleanUp

theorem firedOwn_of_none {s : State} (noBuffer : s.ffrtMetricBuffer = none) : FiredOwn s := by
  intro b t found
  rw [noBuffer] at found
  cases found

theorem not_fired_of_begun {s c s' : State} (noneWaits : TaskState.fired ∉ s.tasks)
    (cleared : Cleared s c) (begun : Begun c s') (t : Nat) : ¬Fired s' t := by
  intro fired
  rw [Fired, begun.tasks, List.getElem?_append] at fired
  split at fired
  · exact noneWaits (List.mem_of_getElem? ((cleared.fired t).mp fired))
  · have isPending := List.mem_of_getElem? fired
    cases List.mem_singleton.mp isPending

theorem Orderly.commanded {E : Env} {s s' : State} {label : Label} (orderly : Orderly s)
    (noneWaits : NoneWaits E s label) (commanded : Commanded E s label s') : Orderly s' := by
  cases commanded with
  | nothing => exact orderly
  | begins begins cleared begun =>
    refine ⟨?_, ?_⟩
    · intro b t _ fired
      exact absurd fired (not_fired_of_begun (noneWaits begins) cleared begun t)
    · rw [begun.cleanUps, cleared.cleanUps]
      exact orderly.cleanUps
  | stops enabled => exact ⟨orderly.fired, orderly.cleanUps⟩
  | ends ended cleanUps =>
    refine ⟨firedOwn_of_none ended.ffrtMetricBuffer, ?_⟩
    rw [cleanUps]
    exact orderly.cleanUps

/-- A task that runs while only its own buffer can be there ends only its own. -/
theorem ownOnly_of_fired {s : State} {task : Nat} (inv : Inv s) (orderly : Orderly s)
    (fired : Fired s task) : OwnOnly (cleanUpBy task s) := by
  have freed : ∀ k, s.ffrtMetricBuffer = some k → k ≤ task := by
    intro k found
    have same := orderly.fired k task found fired
    omega
  refine ⟨?_, freed⟩
  intro k stopped
  simp only [cleanUpBy] at stopped
  split at stopped
  · rename_i enabled
    obtain ⟨b, found⟩ := Option.ne_none_iff_exists'.mp (inv.enabled enabled)
    have last := (inv.owner b found).1
    have own := freed b found
    cases stopped
    change s.tasks.length - 1 ≤ task
    omega
  · cases stopped

theorem Orderly.stepped {E : Env} {s s' : State} {label : Label} (inv : Inv s)
    (orderly : Orderly s) (noneWaits : NoneWaits E s label) (stepped : Stepped E s label s') :
    Orderly s' := by
  cases stepped with
  | command commanded => exact orderly.commanded noneWaits commanded
  | @fires task pending =>
    refine ⟨?_, orderly.cleanUps⟩
    intro b t found fired
    by_cases same : t = task
    · subst same
      have isBuffer := (inv.pending t pending).1
      rw [isBuffer] at found
      exact Option.some.inj found
    · rw [Fired, List.getElem?_set_ne (Ne.symm same)] at fired
      exact orderly.fired b t found fired
  | runs fired ends cleanUps =>
    refine ⟨firedOwn_of_none ends.ffrtMetricBuffer, ?_⟩
    rw [cleanUps]
    intro cleanUp member
    rcases List.mem_append.mp member with earlier | last
    · exact orderly.cleanUps cleanUp earlier
    · rw [List.mem_singleton.mp last]
      exact ownOnly_of_fired inv orderly fired

/-- In every run in which no collection begins while a fired task waits: no clean-up task
ends a collection begun after the one it was posted for. -/
theorem cleanUps_ownOnly (E : Env) {s : State} (reach : (machine E).Reachable (NoneWaits E) s) :
    ∀ cleanUp ∈ s.cleanUps, OwnOnly cleanUp := by
  have start : Orderly (machine E).init :=
    ⟨firedOwn_of_none rfl, fun cleanUp member => by cases member⟩
  have orderly := reach.invariant Orderly start fun s label s' before orderly noneWaits next =>
    have inv := reachable_inv before
    orderly.stepped inv noneWaits (FfrtStatistics.stepped inv next)
  exact orderly.cleanUps

theorem begins_begun {E : Env} {s : State} {label : Label} (begins : Begins E s label) :
    ∃ s', step E s label = some s' ∧ Begun (clearFfrtStatisticsBufferLocked s) s' := by
  cases label with
  | command cmd dumped memory =>
    obtain ⟨isStart, idle, rfl⟩ := begins
    refine ⟨_, by rw [step, collectFfrtStatistics, if_pos isStart]; rfl, ?_⟩
    exact begun _ idle
  | fires _ => exact False.elim begins
  | runs _ => exact False.elim begins

/-- A start cannot cancel a fired task. -/
theorem waits_of_begun {s r : State} {task : Nat} (inv : Inv s) (waits : Fired s task)
    (begun : Begun (clearFfrtStatisticsBufferLocked s) r) :
    Fired r task ∧ task < (clearFfrtStatisticsBufferLocked s).tasks.length := by
  have early : task < (clearFfrtStatisticsBufferLocked s).tasks.length := by
    rw [inv.cleared.length]
    exact (List.getElem?_eq_some_iff.mp waits).1
  refine ⟨?_, early⟩
  rw [Fired, begun.tasks, List.getElem?_append_left early]
  exact (inv.cleared.fired task).mpr waits

/-- Every collection that begins while a fired task waits can be ended by that task: it
only has to get the lock next. -/
theorem newer_ended_of_waiting {E : Env} {s : State} (reach : (machine E).Reachable Free s)
    {label : Label} (begins : Begins E s label) {task : Nat} (waits : Fired s task) :
    ∃ s', (machine E).Reachable Free s' ∧ ∃ cleanUp ∈ s'.cleanUps, ¬OwnOnly cleanUp := by
  obtain ⟨r, next, begun⟩ := begins_begun begins
  have begunReach := Machine.Reachable.step reach trivial next
  obtain ⟨stillWaits, early⟩ := waits_of_begun (reachable_inv reach) waits begun
  have runs : (machine E).step r (.runs task) = some (clearFfrtStatistics task
      { r with tasks := r.tasks.set task .done }) := if_pos stillWaits
  obtain ⟨-, cleanUps⟩ := runs_spec (reachable_inv begunReach) task
  refine ⟨_, .step begunReach trivial runs, cleanUpBy task r, ?_, ?_⟩
  · rw [cleanUps]
    exact List.mem_append_right _ List.mem_cons_self
  · intro own
    have late : (clearFfrtStatisticsBufferLocked s).tasks.length ≤ task :=
      own.freed _ begun.ffrtMetricBuffer
    omega

/-- A second collection whose clean-up runs; the first task was cancelled in time. -/
def cancelledInTime : List Label :=
  [.command 0 true noStat, .command 1 true noStat, .command 0 true noStat, .fires 1, .runs 1]

def afterCancelled : State :=
  ((machine anyEnv).run (NoneWaits anyEnv) (machine anyEnv).init cancelledInTime).get (by decide)

theorem cleanUps_ownOnly_cancelled :
    afterCancelled.cleanUps = [⟨1, some 1, some 1⟩] ∧ OwnOnly ⟨1, some 1, some 1⟩ :=
  ⟨by decide, cleanUps_ownOnly anyEnv (Machine.reachable_get cancelledInTime (by decide)) _
    (by decide)⟩

/-- The first task waits for the lock while the collection is stopped and started again. -/
def waiting : List Label :=
  [.command 0 true noStat, .fires 0, .command 1 true noStat, .command 0 true noStat, .runs 0]

def afterWaiting : State :=
  ((machine anyEnv).run Free (machine anyEnv).init waiting).get (by decide)

theorem older_task_ends_newer :
    (machine anyEnv).Reachable Free afterWaiting ∧
      (⟨0, some 1, some 1⟩ : CleanUp) ∈ afterWaiting.cleanUps ∧ ¬OwnOnly ⟨0, some 1, some 1⟩ := by
  refine ⟨Machine.reachable_get waiting (by decide), by decide, ?_⟩
  intro own
  have early : 1 ≤ 0 := own.stopped 1 rfl
  omega

end FfrtCleanUp
