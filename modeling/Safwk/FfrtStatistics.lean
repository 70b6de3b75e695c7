import Safwk.Library.Transition
import Safwk.SaMain

/-!
# Collecting FFRT statistics

`CollectFfrtStatistics` starts and stops a collection and prints what was collected. A
start allocates a buffer and posts a task that cleans up a minute later, in case the
collection is forgotten. The commands and the task hold `ffrtMetricLock`. The timer
that fires a task does not: a fired task can wait for the lock while commands run, and
it can then no longer be cancelled.

A buffer has the number of the start that allocated it, and the tasks are numbered in
the order in which they are posted; as `PostTask` succeeds, both count the successful
starts. Two lists record what happened: the pointers given to `ffrt_dump` and to the
parser, and what each clean-up ended. The contents of the buffer are written by FFRT,
so the command that prints them brings them along. Whether `ffrt_dump` succeeds is a
choice of the environment; the clean-up only logs it. `GetFfrtStatistics` drops the
handler, and with it a queue in which, as is shown here, no task is left to fire.
-/

namespace FfrtStatistics

open Transition

/-! ## The parser -/

/-- `ffrt_stat` -/
structure FfrtStat where
  taskName : StdString
  startTime : UInt64
  endTime : UInt64

def collectFfrtMetricMaxSize : Nat := 5000

/-- The variables of the parser's loop. -/
structure Totals where
  taskInfo : StdString
  maxTime : UInt64
  minTime : UInt64
  sumTime : UInt64
  count : UInt64

def toString (n : UInt64) : StdString := Decimal.ofNat n.toNat

def Totals.add (totals : Totals) (stat : FfrtStat) : Totals :=
  let duration := stat.endTime - stat.startTime
  { sumTime := totals.sumTime + duration
    maxTime := max totals.maxTime duration
    minTime := min totals.minTime duration
    count := totals.count + 1
    taskInfo := totals.taskInfo ++ SaMain.cStr stat.taskName ++
      (StdString.literal " " ++ toString stat.startTime) ++
      (StdString.literal " " ++ toString stat.endTime ++ StdString.literal "\n") }

/-- The records of the buffer, where `memory` is what stands at its address and beyond. -/
def buffer (memory : Nat → FfrtStat) : List FfrtStat :=
  (List.range collectFfrtMetricMaxSize).map memory

/-- The loop from record number `i` on. To read a record that is not in the buffer fails. -/
def parseLoop (stats : List FfrtStat) (i : Nat) (totals : Totals) : Option Totals :=
  if i < collectFfrtMetricMaxSize then
    match stats[i]? with
    | none => none
    | some stat =>
      if SaMain.cStr stat.taskName = [] then some totals
      else if stat.endTime < stat.startTime then parseLoop stats (i + 1) totals
      else parseLoop stats (i + 1) (totals.add stat)
  else some totals
termination_by collectFfrtMetricMaxSize - i
decreasing_by
  all_goals simp only [collectFfrtMetricMaxSize] at *; omega

def line : StdString :=
  StdString.literal
    "-------------------------------------------------------------------------------------------\n"

/-- What is appended to the result when the loop has ended. -/
def Totals.print (totals : Totals) (result : StdString) : StdString :=
  let minTime := if totals.count = 0 then 0 else totals.minTime
  let avgTime := if totals.count = 0 then 0 else totals.sumTime / totals.count
  result ++
    (StdString.literal "sumTime:" ++ toString totals.sumTime ++
      StdString.literal " maxTime:" ++ toString totals.maxTime) ++
    (StdString.literal " minTime:" ++ toString minTime ++
      StdString.literal " avgTime:" ++ toString avgTime) ++
    (StdString.literal " cntTime:" ++ toString totals.count ++ StdString.literal "\n") ++
    line ++
    StdString.literal
      "taskName                                                        startTime(us)   endTime(us)\n" ++
    line ++ totals.taskInfo ++ line

/-- The variables before the loop. -/
def start : Totals where
  taskInfo := []
  maxTime := 0
  minTime := 18446744073709551615
  sumTime := 0
  count := 0

def ffrtStatisticsParser (stats : List FfrtStat) (result : StdString) : Option StdString :=
  (parseLoop stats 0 start).map fun totals => totals.print result

theorem buffer_getElem? (memory : Nat → FfrtStat) {i : Nat} (inside : i < collectFfrtMetricMaxSize) :
    (buffer memory)[i]? = some (memory i) := by
  rw [buffer, List.getElem?_map, List.getElem?_range inside]
  rfl

/-- Every record that the loop reads is in the buffer. -/
theorem parseLoop_buffer (memory : Nat → FfrtStat) (i : Nat) (totals : Totals) :
    ∃ last, parseLoop (buffer memory) i totals = some last := by
  fun_induction parseLoop (buffer memory) i totals with
  | case1 i totals inside missing =>
    rw [buffer_getElem? memory inside] at missing
    cases missing
  | case2 i totals => exact ⟨totals, rfl⟩
  | case3 i totals inside stat found isNamed early ih => exact ih
  | case4 i totals inside stat found isNamed late ih => exact ih
  | case5 i totals => exact ⟨totals, rfl⟩

/-! ## Tasks -/

/-- A posted task waits for its time, has fired and waits for the lock, has run, or was
cancelled before it fired. -/
inductive TaskState where
  | pending
  | fired
  | done
  | cancelled
  deriving DecidableEq

structure FFRTHandler where
  taskMap : String → Option Nat

/-- What a run of `ClearFfrtStatistics` ended: the task that ran, the collection it stopped
and the buffer it freed. -/
structure CleanUp where
  task : Nat
  stopped : Option Nat
  freed : Option Nat
  deriving DecidableEq

structure State where
  handler : Option FFRTHandler
  ffrtMetricBuffer : Option Nat
  collectEnable : Bool
  tasks : List TaskState
  given : List (Option Nat)
  cleanUps : List CleanUp

def State.start : State where
  handler := none
  ffrtMetricBuffer := none
  collectEnable := false
  tasks := []
  given := []
  cleanUps := []

/-- The buffer is given to `ffrt_dump` or to the parser. -/
def State.give (s : State) : State := { s with given := s.given ++ [s.ffrtMetricBuffer] }

def conversionFactor : Nat := 1000

def delayTime : Nat := 60 * 1000

def clearTask : String := "ClearFfrtStatistics"

/-- `FFRTHandler::PostTask`, when the queue takes the task. -/
def postTask (name : String) (delayTime : Nat) (s : State) : State :=
  match s.handler with
  | none => s
  | some handler =>
    if 18446744073709551615 / conversionFactor < delayTime then s
    else
      { s with
        tasks := s.tasks ++ [.pending]
        handler := some ⟨Function.update handler.taskMap name (some s.tasks.length)⟩ }

/-- `queue::cancel`: it fails if the task has fired. -/
def cancel (task : Nat) (tasks : List TaskState) : List TaskState :=
  if tasks[task]? = some .pending then tasks.set task .cancelled else tasks

/-- `FFRTHandler::RemoveTask`, if there is a handler. -/
def removeTask (name : String) (s : State) : State :=
  match s.handler with
  | none => s
  | some handler =>
    match handler.taskMap name with
    | none => s
    | some task =>
      { s with
        tasks := cancel task s.tasks
        handler := some ⟨Function.update handler.taskMap name none⟩ }

/-! ## The dumper -/

def clearFfrtStatisticsBufferLocked (s : State) : State :=
  removeTask clearTask { s with ffrtMetricBuffer := none }

def startFfrtStatistics (dumped : Bool) (result : StdString) (s : State) :
    Bool × StdString × State :=
  if s.collectEnable then (false, result ++ StdString.literal "collect has been started\n", s)
  else
    let s := clearFfrtStatisticsBufferLocked s
    let s := { s with ffrtMetricBuffer := some s.tasks.length }
    let s := s.give
    if !dumped then
      (false, result ++ StdString.literal "collect start failed\n",
        clearFfrtStatisticsBufferLocked s)
    else
      let s := { s with collectEnable := true }
      let s := if s.handler.isNone then { s with handler := some ⟨fun _ => none⟩ } else s
      (true, result ++ StdString.literal "collect start success\n", postTask clearTask delayTime s)

def stopFfrtStatistics (dumped : Bool) (result : StdString) (s : State) :
    Bool × StdString × State :=
  if !s.collectEnable then
    (false, result ++ StdString.literal "collect has not been started\n", s)
  else
    let s := { s with collectEnable := false }
    let s := s.give
    if !dumped then
      (false, result ++ StdString.literal "collect stop failed\n",
        clearFfrtStatisticsBufferLocked s)
    else (true, result ++ StdString.literal "collect stop success\n", s)

/-- It fails only if the parser does. -/
def getFfrtStatistics (memory : Nat → FfrtStat) (result : StdString) (s : State) :
    Option (Bool × StdString × State) :=
  if s.collectEnable then
    some (false, result ++ StdString.literal "collect has not been stopped\n", s)
  else if s.ffrtMetricBuffer.isNone then
    some (false, result ++ StdString.literal "info not collected\n", s)
  else
    let s := s.give
    (ffrtStatisticsParser (buffer memory) result).map fun result =>
      let s := clearFfrtStatisticsBufferLocked s
      (true, result, { s with handler := none })

/-- `ClearFfrtStatistics`, run by a task. A collection is that of the last successful start. -/
def clearFfrtStatistics (task : Nat) (s : State) : State :=
  let stopped := if s.collectEnable then some (s.tasks.length - 1) else none
  let s := { s with cleanUps := s.cleanUps ++ [CleanUp.mk task stopped s.ffrtMetricBuffer] }
  let s := if s.collectEnable then { s.give with collectEnable := false } else s
  clearFfrtStatisticsBufferLocked s

/-- The numbers of the commands, and the process. -/
structure Env where
  ffrtStatCmdStart : Int32
  ffrtStatCmdStop : Int32
  ffrtStatCmdGet : Int32
  pid : Int32

def collectFfrtStatistics (E : Env) (dumped : Bool) (memory : Nat → FfrtStat) (cmd : Int32)
    (result : StdString) (s : State) : Option (Bool × StdString × State) :=
  let result :=
    result ++ (StdString.literal "pid:" ++ Decimal.ofInt E.pid.toInt ++ StdString.literal " ")
  if cmd = E.ffrtStatCmdStart then some (startFfrtStatistics dumped result s)
  else if cmd = E.ffrtStatCmdStop then some (stopFfrtStatistics dumped result s)
  else if cmd = E.ffrtStatCmdGet then getFfrtStatistics memory result s
  else some (false, result, s)

/-- A command with the result of its `ffrt_dump` and the memory it finds, a timer that
fires, or a fired task that gets the lock and runs. -/
inductive Label where
  | command (cmd : Int32) (dumped : Bool) (memory : Nat → FfrtStat)
  | fires (task : Nat)
  | runs (task : Nat)

def step (E : Env) (s : State) : Label → Option State
  | .command cmd dumped memory =>
    (collectFfrtStatistics E dumped memory cmd [] s).map fun returned => returned.2.2
  | .fires task =>
    if s.tasks[task]? = some .pending then some { s with tasks := s.tasks.set task .fired }
    else none
  | .runs task =>
    if s.tasks[task]? = some .fired then
      some (clearFfrtStatistics task { s with tasks := s.tasks.set task .done })
    else none

def machine (E : Env) : Machine State Label := ⟨State.start, step E⟩

/-! ## What a step does -/

def Pending (s : State) (task : Nat) : Prop := s.tasks[task]? = some .pending

def Fired (s : State) (task : Nat) : Prop := s.tasks[task]? = some .fired

instance (s : State) (task : Nat) : Decidable (Pending s task) :=
  inferInstanceAs (Decidable (_ = _))

instance (s : State) (task : Nat) : Decidable (Fired s task) :=
  inferInstanceAs (Decidable (_ = _))

/-- Still to run: pending, or fired and waiting for the lock. -/
def Outstanding (s : State) (task : Nat) : Prop := Pending s task ∨ Fired s task

/-- The handler can cancel the task. -/
def Registered (s : State) (task : Nat) : Prop :=
  ∃ handler, s.handler = some handler ∧ handler.taskMap clearTask = some task

theorem cancel_length (task : Nat) (tasks : List TaskState) :
    (cancel task tasks).length = tasks.length := by
  unfold cancel
  split
  · exact List.length_set
  · rfl

/-- Another state than the one that was set was there before, at another place. -/
theorem set_getElem? {task t : Nat} {tasks : List TaskState} {new state : TaskState}
    (found : (tasks.set task new)[t]? = some state) (notNew : state ≠ new) :
    tasks[t]? = some state ∧ t ≠ task := by
  rw [List.getElem?_set] at found
  split at found
  · split at found
    · cases found
      exact absurd rfl notNew
    · cases found
  · rename_i other
    exact ⟨found, fun same => other same.symm⟩

/-- Cancelling touches no task but the one, and that only before it fires. -/
theorem cancel_getElem? {task t : Nat} {tasks : List TaskState} {state : TaskState}
    (found : (cancel task tasks)[t]? = some state) (notCancelled : state ≠ .cancelled) :
    tasks[t]? = some state ∧ ¬(state = .pending ∧ t = task) := by
  unfold cancel at found
  split at found
  · obtain ⟨before, other⟩ := set_getElem? found notCancelled
    exact ⟨before, fun same => other same.2⟩
  · rename_i waitsNot
    refine ⟨found, ?_⟩
    rintro ⟨rfl, rfl⟩
    exact waitsNot found

/-- A fired task cannot be cancelled. -/
theorem cancel_fired {task t : Nat} {tasks : List TaskState} (fired : tasks[t]? = some .fired) :
    (cancel task tasks)[t]? = some .fired := by
  unfold cancel
  split
  · rename_i pending
    have other : task ≠ t := by
      rintro rfl
      rw [fired] at pending
      cases pending
    rw [List.getElem?_set_ne other]
    exact fired
  · exact fired

/-- What a clean-up of the buffer leaves. -/
structure Cleared (s s' : State) : Prop where
  ffrtMetricBuffer : s'.ffrtMetricBuffer = none
  collectEnable : s'.collectEnable = s.collectEnable
  given : s'.given = s.given
  cleanUps : s'.cleanUps = s.cleanUps
  length : s'.tasks.length = s.tasks.length
  fired : ∀ t, Fired s' t ↔ Fired s t
  pending : ∀ t, ¬Pending s' t

/-- Nothing is registered, or the one registered task is cancelled and forgotten. -/
theorem removeTask_cases (s : State) :
    (removeTask clearTask s = s ∧ ∀ t, ¬Registered s t) ∨
      ∃ task handler, (∀ t, Registered s t → t = task) ∧
        removeTask clearTask s = { s with tasks := cancel task s.tasks, handler := handler } := by
  cases isHandler : s.handler with
  | none =>
    refine Or.inl ⟨by simp only [removeTask, isHandler], ?_⟩
    rintro t ⟨handler, found, -⟩
    rw [isHandler] at found
    cases found
  | some handler =>
    have only : ∀ t, Registered s t → handler.taskMap clearTask = some t := by
      rintro t ⟨handler', found, mapped⟩
      rw [isHandler] at found
      cases found
      exact mapped
    cases isTask : handler.taskMap clearTask with
    | none =>
      refine Or.inl ⟨by simp only [removeTask, isHandler, isTask], ?_⟩
      intro t registered
      have mapped := only t registered
      rw [isTask] at mapped
      cases mapped
    | some task =>
      refine Or.inr ⟨task, some ⟨Function.update handler.taskMap clearTask none⟩, ?_,
        by simp only [removeTask, isHandler, isTask]⟩
      intro t registered
      have mapped := only t registered
      rw [isTask] at mapped
      exact (Option.some.inj mapped).symm

/-- If every pending task is registered, clearing cancels it. -/
theorem cleared (s : State) (registered : ∀ t, Pending s t → Registered s t) :
    Cleared s (clearFfrtStatisticsBufferLocked s) := by
  unfold clearFfrtStatisticsBufferLocked
  rcases removeTask_cases { s with ffrtMetricBuffer := none } with
    ⟨same, unregistered⟩ | ⟨task, handler, only, changed⟩
  · rw [same]
    exact ⟨rfl, rfl, rfl, rfl, rfl, fun t => Iff.rfl,
      fun t pending => unregistered t (registered t pending)⟩
  · rw [changed]
    refine ⟨rfl, rfl, rfl, rfl, cancel_length task s.tasks, ?_, ?_⟩
    · intro t
      exact ⟨fun fired => (cancel_getElem? fired (by decide)).1, cancel_fired⟩
    · intro t pending
      obtain ⟨wasPending, notTask⟩ := cancel_getElem? pending (by decide)
      exact notTask ⟨rfl, only t (registered t wasPending)⟩

/-- What a successful start leaves, after it has cleared the state `s`. -/
structure Begun (s s' : State) : Prop where
  ffrtMetricBuffer : s'.ffrtMetricBuffer = some s.tasks.length
  collectEnable : s'.collectEnable = true
  given : s'.given = s.given ++ [some s.tasks.length]
  cleanUps : s'.cleanUps = s.cleanUps
  tasks : s'.tasks = s.tasks ++ [.pending]
  registered : Registered s' s.tasks.length

theorem postTask_eq {s : State} {handler : FFRTHandler} (isHandler : s.handler = some handler) :
    postTask clearTask delayTime s =
      { s with
        tasks := s.tasks ++ [.pending]
        handler := some ⟨Function.update handler.taskMap clearTask (some s.tasks.length)⟩ } := by
  have short : ¬18446744073709551615 / conversionFactor < delayTime := by decide
  simp only [postTask, isHandler, if_neg short]

theorem begun (result : StdString) {s : State} (idle : s.collectEnable = false) :
    Begun (clearFfrtStatisticsBufferLocked s) (startFfrtStatistics true result s).2.2 := by
  simp only [startFfrtStatistics, idle, Bool.false_eq_true, if_false, Bool.not_true]
  generalize clearFfrtStatisticsBufferLocked s = c
  cases isHandler : c.handler with
  | none =>
    simp only [State.give, Option.isNone_none, if_true]
    rw [postTask_eq rfl]
    exact ⟨rfl, rfl, rfl, rfl, rfl, _, rfl, by simp⟩
  | some handler =>
    simp only [State.give, Option.isNone_some, Bool.false_eq_true, if_false]
    rw [postTask_eq rfl]
    exact ⟨rfl, rfl, rfl, rfl, rfl, _, rfl, by simp⟩

/-! ## The invariant -/

structure Inv (s : State) : Prop where
  enabled : s.collectEnable = true → s.ffrtMetricBuffer ≠ none
  owner : ∀ b, s.ffrtMetricBuffer = some b → b + 1 = s.tasks.length ∧ Outstanding s b
  pending : ∀ t, Pending s t → s.ffrtMetricBuffer = some t ∧ Registered s t
  given : ∀ pointer ∈ s.given, pointer ≠ none

theorem inv_start : Inv State.start where
  enabled := fun enabled => by cases enabled
  owner := fun b found => by cases found
  pending := fun t found => by cases found
  given := fun pointer member => by cases member

theorem Inv.cleared {s : State} (inv : Inv s) : Cleared s (clearFfrtStatisticsBufferLocked s) :=
  FfrtStatistics.cleared s fun t pending => (inv.pending t pending).2

/-- Nothing is collected any more, and no task is left to fire. -/
structure Ended (s s' : State) : Prop where
  ffrtMetricBuffer : s'.ffrtMetricBuffer = none
  collectEnable : s'.collectEnable = false
  given : ∀ pointer ∈ s'.given, pointer ≠ none
  fired : ∀ t, Fired s' t → Fired s t
  pending : ∀ t, ¬Pending s' t

theorem Cleared.ended {s s' : State} (cleared : Cleared s s') (idle : s.collectEnable = false)
    (given : ∀ pointer ∈ s.given, pointer ≠ none) : Ended s s' where
  ffrtMetricBuffer := cleared.ffrtMetricBuffer
  collectEnable := cleared.collectEnable.trans idle
  given := by
    rw [cleared.given]
    exact given
  fired := fun t => (cleared.fired t).mp
  pending := cleared.pending

/-- Only the fired tasks of the state before matter. -/
theorem Ended.since {s r s' : State} (ended : Ended r s') (fired : ∀ t, Fired r t → Fired s t) :
    Ended s s' :=
  { ended with fired := fun t isFired => fired t (ended.fired t isFired) }

theorem Ended.inv {s s' : State} (ended : Ended s s') : Inv s' where
  enabled := fun enabled => by
    rw [ended.collectEnable] at enabled
    cases enabled
  owner := fun b found => by
    rw [ended.ffrtMetricBuffer] at found
    cases found
  pending := fun t pending => absurd pending (ended.pending t)
  given := ended.given

/-- Giving an allocated buffer keeps all pointers non-null. -/
theorem given_append {given : List (Option Nat)} {pointer : Option Nat}
    (all : ∀ p ∈ given, p ≠ none) (here : pointer ≠ none) : ∀ p ∈ given ++ [pointer], p ≠ none := by
  intro p member
  rcases List.mem_append.mp member with earlier | last
  · exact all p earlier
  · rw [List.mem_singleton.mp last]
    exact here

theorem Begun.inv {s s' : State} (begun : Begun s s') (noPending : ∀ t, ¬Pending s t)
    (given : ∀ pointer ∈ s.given, pointer ≠ none) : Inv s' := by
  have newest : Pending s' s.tasks.length := by
    rw [Pending, begun.tasks]
    exact List.getElem?_concat_length
  refine ⟨?_, ?_, ?_, ?_⟩
  · intro _
    rw [begun.ffrtMetricBuffer]
    exact Option.some_ne_none _
  · intro b found
    rw [begun.ffrtMetricBuffer] at found
    cases found
    exact ⟨by rw [begun.tasks, List.length_append, List.length_singleton], Or.inl newest⟩
  · intro t pending
    have isNewest : t = s.tasks.length := by
      by_contra other
      have bound : t < s'.tasks.length := (List.getElem?_eq_some_iff.mp pending).1
      rw [begun.tasks, List.length_append, List.length_singleton] at bound
      apply noPending t
      rw [Pending, begun.tasks, List.getElem?_append_left (by omega)] at pending
      exact pending
    rw [isNewest]
    exact ⟨begun.ffrtMetricBuffer, begun.registered⟩
  · rw [begun.given]
    exact given_append given (Option.some_ne_none _)

theorem Inv.stopped {s : State} (inv : Inv s) (enabled : s.collectEnable = true) :
    Inv { s.give with collectEnable := false } where
  enabled := fun enabled => by cases enabled
  owner := inv.owner
  pending := inv.pending
  given := given_append inv.given (inv.enabled enabled)

/-! ## Commands -/

/-- The command begins a collection. -/
def Begins (E : Env) (s : State) : Label → Prop
  | .command cmd dumped _ =>
    cmd = E.ffrtStatCmdStart ∧ s.collectEnable = false ∧ dumped = true
  | _ => False

/-- What a command does: nothing, begin a collection, stop it, or end it. -/
inductive Commanded (E : Env) (s : State) (label : Label) : State → Prop
  | nothing : Commanded E s label s
  | begins {c s' : State} (begins : Begins E s label) (cleared : Cleared s c)
      (begun : Begun c s') : Commanded E s label s'
  | stops (enabled : s.collectEnable = true) :
      Commanded E s label { s.give with collectEnable := false }
  | ends {s' : State} (ended : Ended s s') (cleanUps : s'.cleanUps = s.cleanUps) :
      Commanded E s label s'

section

variable {E : Env} {s : State} {label : Label}

theorem start_failed (inv : Inv s) (result : StdString) (idle : s.collectEnable = false) :
    Commanded E s label (startFfrtStatistics false result s).2.2 := by
  have first := inv.cleared
  simp only [startFfrtStatistics, idle, Bool.false_eq_true, if_false, Bool.not_false, if_true]
  generalize clearFfrtStatisticsBufferLocked s = c at first ⊢
  let allocated : State :=
    { c with ffrtMetricBuffer := some c.tasks.length, given := c.given ++ [some c.tasks.length] }
  have second : Cleared allocated (clearFfrtStatisticsBufferLocked allocated) :=
    cleared allocated fun t pending => absurd pending (first.pending t)
  have given : ∀ pointer ∈ allocated.given, pointer ≠ none := by
    apply given_append
    · rw [first.given]
      exact inv.given
    · exact Option.some_ne_none _
  have ended := second.ended (first.collectEnable.trans idle) given
  exact .ends (ended.since fun t => (first.fired t).mp) (second.cleanUps.trans first.cleanUps)

theorem start_commanded (inv : Inv s) (cmd : Int32) (isStart : cmd = E.ffrtStatCmdStart)
    (dumped : Bool) (memory : Nat → FfrtStat) (result : StdString) :
    Commanded E s (.command cmd dumped memory) (startFfrtStatistics dumped result s).2.2 := by
  cases enabled : s.collectEnable with
  | true =>
    simp only [startFfrtStatistics, enabled, if_true]
    exact .nothing
  | false =>
    cases dumped with
    | true => exact .begins ⟨isStart, enabled, rfl⟩ inv.cleared (begun result enabled)
    | false => exact start_failed inv result enabled

theorem stop_commanded (inv : Inv s) (dumped : Bool) (result : StdString) :
    Commanded E s label (stopFfrtStatistics dumped result s).2.2 := by
  cases enabled : s.collectEnable with
  | false =>
    simp only [stopFfrtStatistics, enabled, Bool.not_false, if_true]
    exact .nothing
  | true =>
    have stopped := inv.stopped enabled
    cases dumped with
    | true =>
      simp only [stopFfrtStatistics, enabled, Bool.not_true, Bool.false_eq_true, if_false]
      exact .stops enabled
    | false =>
      simp only [stopFfrtStatistics, enabled, Bool.not_true, Bool.false_eq_true, if_false,
        Bool.not_false, if_true]
      have ended := stopped.cleared.ended rfl stopped.given
      exact .ends (ended.since fun t fired => fired) stopped.cleared.cleanUps

theorem get_commanded (inv : Inv s) (memory : Nat → FfrtStat) (result : StdString) :
    ∃ returned, getFfrtStatistics memory result s = some returned ∧
      Commanded E s label returned.2.2 := by
  cases enabled : s.collectEnable with
  | true =>
    simp only [getFfrtStatistics, enabled, if_true]
    exact ⟨_, rfl, .nothing⟩
  | false =>
    cases isBuffer : s.ffrtMetricBuffer with
    | none =>
      simp only [getFfrtStatistics, enabled, isBuffer, Bool.false_eq_true, if_false,
        Option.isNone_none, if_true]
      exact ⟨_, rfl, .nothing⟩
    | some b =>
      obtain ⟨last, parsed⟩ := parseLoop_buffer memory 0 start
      simp only [getFfrtStatistics, enabled, isBuffer, Bool.false_eq_true, if_false,
        Option.isNone_some, ffrtStatisticsParser, parsed, Option.map_some]
      refine ⟨_, rfl, ?_⟩
      have given : ∀ pointer ∈ s.give.given, pointer ≠ none :=
        given_append inv.given (by rw [isBuffer]; exact Option.some_ne_none b)
      have cleared : Cleared s.give (clearFfrtStatisticsBufferLocked s.give) :=
        FfrtStatistics.cleared s.give fun t pending => (inv.pending t pending).2
      have ended := cleared.ended enabled given
      -- The handler is dropped after the task has been cancelled.
      exact .ends ⟨ended.ffrtMetricBuffer, ended.collectEnable, ended.given, ended.fired,
        ended.pending⟩ cleared.cleanUps

theorem commanded (inv : Inv s) (cmd : Int32) (dumped : Bool) (memory : Nat → FfrtStat)
    (result : StdString) :
    ∃ returned, collectFfrtStatistics E dumped memory cmd result s = some returned ∧
      Commanded E s (.command cmd dumped memory) returned.2.2 := by
  unfold collectFfrtStatistics
  by_cases isStart : cmd = E.ffrtStatCmdStart
  · simp only [if_pos isStart]
    exact ⟨_, rfl, start_commanded inv cmd isStart dumped memory _⟩
  by_cases isStop : cmd = E.ffrtStatCmdStop
  · simp only [if_neg isStart, if_pos isStop]
    exact ⟨_, rfl, stop_commanded inv dumped _⟩
  by_cases isGet : cmd = E.ffrtStatCmdGet
  · simp only [if_neg isStart, if_neg isStop, if_pos isGet]
    exact get_commanded inv memory _
  · simp only [if_neg isStart, if_neg isStop, if_neg isGet]
    exact ⟨_, rfl, .nothing⟩

end

/-- No command fails, so none reads past the end of the buffer. -/
theorem step_command {E : Env} {s : State} (inv : Inv s) (cmd : Int32) (dumped : Bool)
    (memory : Nat → FfrtStat) :
    ∃ s', step E s (.command cmd dumped memory) = some s' ∧
      Commanded E s (.command cmd dumped memory) s' := by
  obtain ⟨returned, computed, effect⟩ := commanded inv cmd dumped memory []
  refine ⟨returned.2.2, ?_, effect⟩
  rw [step, computed]
  rfl

theorem Commanded.inv {E : Env} {s s' : State} {label : Label} (inv : Inv s)
    (commanded : Commanded E s label s') : Inv s' := by
  cases commanded with
  | nothing => exact inv
  | begins _ cleared begun =>
    refine begun.inv cleared.pending ?_
    rw [cleared.given]
    exact inv.given
  | stops enabled => exact inv.stopped enabled
  | ends ended _ => exact ended.inv

/-! ## Tasks that fire and run -/

theorem Inv.fires {s : State} {task : Nat} (inv : Inv s) (pending : Pending s task) :
    Inv { s with tasks := s.tasks.set task .fired } where
  enabled := inv.enabled
  owner := by
    intro b found
    obtain ⟨last, outstanding⟩ := inv.owner b found
    refine ⟨last.trans List.length_set.symm, ?_⟩
    obtain ⟨isBuffer, -⟩ := inv.pending task pending
    have same : b = task := by
      rw [isBuffer] at found
      exact (Option.some.inj found).symm
    subst same
    have bound : b < s.tasks.length := by omega
    exact Or.inr (List.getElem?_set_self bound)
  pending := by
    intro t isPending
    obtain ⟨before, -⟩ := set_getElem? isPending (by decide)
    exact inv.pending t before
  given := inv.given

/-- What a fired task ends: the newest collection, if there is one, and the buffer. -/
def cleanUpBy (task : Nat) (s : State) : CleanUp :=
  ⟨task, if s.collectEnable then some (s.tasks.length - 1) else none, s.ffrtMetricBuffer⟩

theorem runs_spec {s : State} (inv : Inv s) (task : Nat) :
    Ended s (clearFfrtStatistics task { s with tasks := s.tasks.set task .done }) ∧
      (clearFfrtStatistics task { s with tasks := s.tasks.set task .done }).cleanUps =
        s.cleanUps ++ [cleanUpBy task s] := by
  have registered : ∀ t, (s.tasks.set task .done)[t]? = some .pending → Registered s t :=
    fun t pending => (inv.pending t (set_getElem? pending (by decide)).1).2
  have fired : ∀ t, (s.tasks.set task .done)[t]? = some .fired → Fired s t :=
    fun t isFired => (set_getElem? isFired (by decide)).1
  cases enabled : s.collectEnable with
  | true =>
    simp only [clearFfrtStatistics, cleanUpBy, enabled, if_true, List.length_set]
    have cleared := FfrtStatistics.cleared
      { s with
        collectEnable := false
        tasks := s.tasks.set task .done
        given := s.given ++ [s.ffrtMetricBuffer]
        cleanUps := s.cleanUps ++ [⟨task, some (s.tasks.length - 1), s.ffrtMetricBuffer⟩] }
      registered
    have stopped := inv.stopped enabled
    exact ⟨(cleared.ended rfl stopped.given).since fired, cleared.cleanUps⟩
  | false =>
    simp only [clearFfrtStatistics, cleanUpBy, enabled, Bool.false_eq_true, if_false]
    have cleared := FfrtStatistics.cleared
      { s with
        collectEnable := false
        tasks := s.tasks.set task .done
        cleanUps := s.cleanUps ++ [⟨task, none, s.ffrtMetricBuffer⟩] }
      registered
    exact ⟨(cleared.ended rfl inv.given).since fired, cleared.cleanUps⟩

/-- What a step does. -/
inductive Stepped (E : Env) (s : State) : Label → State → Prop
  | command {cmd : Int32} {dumped : Bool} {memory : Nat → FfrtStat} {s' : State}
      (commanded : Commanded E s (.command cmd dumped memory) s') :
      Stepped E s (.command cmd dumped memory) s'
  | fires {task : Nat} (pending : Pending s task) :
      Stepped E s (.fires task) { s with tasks := s.tasks.set task .fired }
  | runs {task : Nat} {s' : State} (fired : Fired s task) (ends : Ended s s')
      (cleanUps : s'.cleanUps = s.cleanUps ++ [cleanUpBy task s]) : Stepped E s (.runs task) s'

theorem stepped {E : Env} {s s' : State} {label : Label} (inv : Inv s)
    (next : step E s label = some s') : Stepped E s label s' := by
  cases label with
  | command cmd dumped memory =>
    obtain ⟨r, commands, effect⟩ := step_command inv cmd dumped memory
    rw [commands] at next
    cases next
    exact .command effect
  | fires task =>
    simp only [step] at next
    split at next
    · rename_i pending
      cases next
      exact .fires pending
    · cases next
  | runs task =>
    simp only [step] at next
    split at next
    · rename_i fired
      cases next
      obtain ⟨ends, cleanUps⟩ := runs_spec inv task
      exact .runs fired ends cleanUps
    · cases next

theorem Stepped.inv {E : Env} {s s' : State} {label : Label} (inv : Inv s)
    (stepped : Stepped E s label s') : Inv s' := by
  cases stepped with
  | command commanded => exact commanded.inv inv
  | fires pending => exact inv.fires pending
  | runs _ ends _ => exact ends.inv

theorem reachable_inv {E : Env} {ok : State → Label → Prop} {s : State}
    (reach : (machine E).Reachable ok s) : Inv s :=
  reach.invariant Inv inv_start fun _ _ _ _ inv _ next => (stepped inv next).inv inv

/-- In every order of commands and clean-ups: while something is collected there is a
buffer, while there is a buffer there is a task that has yet to run, at most one task is
pending, no null buffer was ever given to FFRT or the parser, and a task that runs leaves
neither collection nor buffer. -/
theorem collection_guarded (E : Env) {s : State} (reach : (machine E).Reachable Free s) :
    (s.collectEnable = true → s.ffrtMetricBuffer ≠ none) ∧
    (s.ffrtMetricBuffer ≠ none → ∃ task, Outstanding s task) ∧
    (∀ t t', Pending s t → Pending s t' → t = t') ∧
    (∀ pointer ∈ s.given, pointer ≠ none) ∧
    ∀ task s', step E s (.runs task) = some s' →
      s'.ffrtMetricBuffer = none ∧ s'.collectEnable = false := by
  have inv := reachable_inv reach
  refine ⟨inv.enabled, ?_, ?_, inv.given, ?_⟩
  · intro allocated
    obtain ⟨b, buffer⟩ := Option.ne_none_iff_exists'.mp allocated
    exact ⟨b, (inv.owner b buffer).2⟩
  · intro t t' pending pending'
    have first := (inv.pending t pending).1
    rw [(inv.pending t' pending').1] at first
    exact (Option.some.inj first).symm
  · intro task s' next
    cases stepped inv next with
    | runs _ ends _ => exact ⟨ends.ffrtMetricBuffer, ends.collectEnable⟩

/-- Some numbers for the three commands. -/
def anyEnv : Env := ⟨0, 1, 2, 1000⟩

def noStat : Nat → FfrtStat := fun _ => ⟨[], 0, 0⟩

/-- A collection is started, stopped, started again while the first task waits for the lock. -/
def restarted : List Label :=
  [.command 0 true noStat, .fires 0, .command 1 true noStat, .command 0 true noStat]

def afterRestarted : State :=
  ((machine anyEnv).run Free (machine anyEnv).init restarted).get (by decide)

theorem collection_guarded_restarted :
    afterRestarted.collectEnable = true ∧ Fired afterRestarted 0 ∧ Pending afterRestarted 1 ∧
      ∃ task, Outstanding afterRestarted task := by
  obtain ⟨enabled, outstanding, -⟩ :=
    collection_guarded anyEnv (Machine.reachable_get restarted (by decide))
  exact ⟨by decide, by decide, by decide, outstanding (enabled (by decide))⟩

end FfrtStatistics
