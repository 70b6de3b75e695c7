import Safwk.BootDependencies

/-!
# Dependencies come first

A boot task starts its ability only after it has found each dependency with samgr. If
the abilities of a process publish themselves only once they have been started, then
the order in which a process starts its abilities follows their dependencies, on any
number of workers and whatever else happens meanwhile. A group of abilities each of
which waits for another one of the group is never started at boot.
-/

namespace DependencyOrder

open Transition Grounds AbilityRegistry ListenerTable BootDependencies

variable {E : Env} {n : Nat} {program : Program} {ok : State → Action → Prop}

/-- Samgr had the ability at some time. -/
def WasPresent (before : Int → Bool) (history : List Event) (saId : Int) : Prop :=
  ∃ newer older, history = newer ++ older ∧ presentIn before older saId = true

theorem WasPresent.later {before : Int → Bool} {history : List Event} {saId : Int}
    (was : WasPresent before history saId) (e : Event) : WasPresent before (e :: history) saId := by
  obtain ⟨newer, older, split, present⟩ := was
  exact ⟨e :: newer, older, by rw [split, List.cons_append], present⟩

/-- The dependency is one that is asked for. -/
def Asked (E : Env) (ability : SystemAbility) (saId : Int) : Prop :=
  saId ∈ ability.dependSa ∧ checkInputSysAbilityId E.process saId = true

/-- What a worker knows of the dependencies that it has asked for. -/
def Knows (E : Env) (history : List Event) (ability : SystemAbility) : Place → Prop
  | .checking _ _ left result => ∃ done, ability.dependSa = done ++ left ∧
      ∀ saId ∈ done, checkInputSysAbilityId E.process saId = true →
        saId ∈ result ∨ WasPresent E.before history saId
  | .ready => ∀ saId, Asked E ability saId → WasPresent E.before history saId
  | _ => True

theorem Knows.later {history : List Event} {ability : SystemAbility} {place : Place}
    (knows : Knows E history ability place) (e : Event) : Knows E (e :: history) ability place := by
  cases place with
  | checking start round left result =>
    obtain ⟨done, whole, known⟩ := knows
    refine ⟨done, whole, ?_⟩
    intro saId member valid
    rcases known saId member valid with missing | was
    · exact Or.inl missing
    · exact Or.inr (was.later e)
  | ready => exact fun saId asked => (knows saId asked).later e
  | _ => trivial

theorem knows_afterCheck {history : List Event} {ability : SystemAbility} (start : DependencyWait.Tick)
    {result : List Int} (round : Round)
    (known : ∀ saId, Asked E ability saId → saId ∈ result ∨ WasPresent E.before history saId) :
    Knows E history ability (afterCheck start result round) := by
  cases round with
  | loop => trivial
  | last =>
    rw [afterCheck]
    split
    · rename_i empty
      intro saId asked
      rcases known saId asked with missing | was
      · rw [List.isEmpty_iff.mp empty] at missing
        cases missing
      · exact was
    · trivial

/-- One step inside a task. -/
theorem knows_stepPlace {history : List Event} {ability : SystemAbility} {place next : Place}
    {a : Action} (knows : Knows E history ability place)
    (takes : stepPlace E (presentIn E.before history) ability place a = some next) :
    Knows E history ability next := by
  unfold stepPlace at takes
  split at takes
  · -- without dependencies there is nothing to know
    split at takes
    · rename_i empty
      cases takes
      rintro saId ⟨member, _⟩
      rw [List.isEmpty_iff.mp empty] at member
      cases member
    · cases takes
      trivial
  · split at takes
    · cases takes
      refine ⟨[], rfl, ?_⟩
      intro saId member
      cases member
    · cases takes
      exact knows_afterCheck _ _ (fun saId asked => Or.inl asked.1)
  · cases takes
    obtain ⟨done, whole, known⟩ := knows
    rw [List.append_nil] at whole
    exact knows_afterCheck _ _ (fun saId asked => known saId (whole ▸ asked.1) asked.2)
  · rename_i start round saId left result index
    obtain ⟨done, whole, known⟩ := knows
    have split : ability.dependSa = (done ++ [saId]) ++ left := by simp [whole]
    by_cases absent : (checkInputSysAbilityId E.process saId &&
        !presentIn E.before history saId) = true
    · rw [if_pos absent] at takes
      cases takes
      refine ⟨done ++ [saId], split, ?_⟩
      intro id member valid
      rcases List.mem_append.mp member with member | last
      · rcases known id member valid with missing | was
        · exact Or.inl (List.mem_append_left _ missing)
        · exact Or.inr was
      · exact Or.inl (List.mem_append_right _ last)
    · rw [if_neg absent] at takes
      cases takes
      refine ⟨done ++ [saId], split, ?_⟩
      intro id member valid
      rcases List.mem_append.mp member with member | last
      · exact known id member valid
      · obtain rfl := List.mem_singleton.mp last
        refine Or.inr ⟨[], history, rfl, ?_⟩
        simpa [valid] using absent
  · split at takes
    · cases takes
      trivial
    · cases takes
      trivial
  · cases takes
    trivial
  · cases takes
    trivial
  · cases takes

/-- A start rests on the dependencies that samgr had before it. -/
def Rests (E : Env) : Event → List Event → Prop
  | .started task, older => ∀ saId, Asked E task.ability saId → WasPresent E.before older saId
  | _, _ => True

structure Careful (E : Env) (s : State) : Prop where
  knows : ∀ (i : Nat) (task : BootTask) (place : Place), s.pool.workers[i]? = some (.starting task) →
    s.places[i]? = some place → Knows E s.history task.ability place
  rests : Each (Rests E) s.history

theorem moves_careful {s t : State} {a : Action} (move : Moves E s a t) (careful : Careful E s) :
    Careful E t := by
  obtain ⟨knows, rests⟩ := careful
  cases move with
  | @pop i k task pool idle next taken =>
    refine ⟨?_, rests⟩
    intro j job place found here
    rcases Threads.getElem?_set_cases here with ⟨rfl, rfl⟩ | ⟨other, here⟩
    · trivial
    · have found : pool.workers[j]? = _ := found
      rw [taken, List.getElem?_set_ne (Ne.symm other)] at found
      exact knows j job place found here
  | @leaves i task pool found' here' next left =>
    refine ⟨?_, rests⟩
    intro j job place found here
    rcases Threads.getElem?_set_cases here with ⟨rfl, rfl⟩ | ⟨other, here⟩
    · trivial
    · have found : pool.workers[j]? = _ := found
      rw [left, List.getElem?_set_ne (Ne.symm other)] at found
      exact knows j job place found here
  | pool next kept =>
    exact ⟨fun j job place found here => knows j job place ((kept j job).mp found) here, rests⟩
  | @work i _ task place next found here takes quiet =>
    refine ⟨?_, rests⟩
    intro j job place' found' here'
    rcases Threads.getElem?_set_cases here' with ⟨rfl, rfl⟩ | ⟨other, here'⟩
    · obtain ⟨rfl⟩ : task = job := by simpa using found.symm.trans found'
      exact knows_stepPlace (knows j task place found here) takes
    · exact knows j job place' found' here'
  | @start i task found here =>
    refine ⟨?_, knows i task .ready found here, rests⟩
    intro j job place found' here'
    rcases Threads.getElem?_set_cases here' with ⟨rfl, rfl⟩ | ⟨other, here'⟩
    · trivial
    · exact (knows j job place found' here').later _
  | @event _ e leads =>
    refine ⟨fun j job place found here => (knows j job place found here).later e, ?_, rests⟩
    cases e with
    | started task => cases a <;> cases leads
    | _ => trivial

theorem reachable_careful {s : State} (reach : (machine E n program).Reachable ok s) :
    Careful E s := by
  refine reach.invariant (Careful E) ⟨?_, ?_⟩ ?_
  · intro i task place found
    have idle := List.eq_of_mem_replicate (Threads.mem_of_getElem? found)
    cases idle
  · trivial
  · intro r a t _ careful _ next
    exact moves_careful (moves_of_step next) careful

/-! ## Abilities that publish themselves -/

/-- The event starts the ability with this id. -/
def Starts (saId : Int) : Event → Prop
  | .started task => task.ability.saId = saId
  | .requested id => id = saId
  | _ => False

/-- `hosted` has the abilities of this process. They publish themselves, and only once
they have been started. -/
def SelfPublished (hosted : Int → Prop) (s : State) : Action → Prop
  | .publish saId => hosted saId → ∃ e ∈ s.history, Starts saId e
  | _ => True

instance (saId : Int) : DecidablePred (Starts saId)
  | .published _ => inferInstanceAs (Decidable False)
  | .withdrawn _ => inferInstanceAs (Decidable False)
  | .started task => inferInstanceAs (Decidable (task.ability.saId = saId))
  | .requested id => inferInstanceAs (Decidable (id = saId))

instance (hosted : Int → Prop) [DecidablePred hosted] (s : State) :
    DecidablePred (SelfPublished hosted s)
  | .publish saId => inferInstanceAs (Decidable (hosted saId → ∃ e ∈ s.history, Starts saId e))
  | .pool _ | .enter _ _ | .getSystemAbilityManager _ _ | .checkSystemAbility _ | .turn _ _
  | .start _ | .returns _ | .withdraw _ | .request _ => inferInstanceAs (Decidable True)

/-- A publication rests on a start. -/
def Founded (hosted : Int → Prop) : Event → List Event → Prop
  | .published saId, older => hosted saId → ∃ e ∈ older, Starts saId e
  | _, _ => True

theorem reachable_founded {hosted : Int → Prop} {s : State}
    (orderly : ∀ s a, ok s a → SelfPublished hosted s a)
    (reach : (machine E n program).Reachable ok s) : Each (Founded hosted) s.history := by
  refine reach.invariant (fun s : State => Each (Founded hosted) s.history) ?_ ?_
  · trivial
  · intro r a t _ founded allowed next
    cases moves_of_step next with
    | pop | leaves | pool | work => exact founded
    | start found here => exact ⟨trivial, founded⟩
    | event leads =>
      refine ⟨?_, founded⟩
      cases a <;> cases leads
      · exact orderly r _ allowed
      · trivial
      · trivial

theorem published_of_presentIn {before : Int → Bool} {history : List Event} {saId : Int}
    (present : presentIn before history saId = true) (fresh : before saId = false) :
    .published saId ∈ history := by
  induction history with
  | nil =>
    rw [presentIn, fresh] at present
    cases present
  | cons e older ih =>
    cases e with
    | published id =>
      by_cases same : saId = id
      · subst same
        exact List.mem_cons_self
      · exact List.mem_cons_of_mem _ (ih (by simpa [presentIn, same] using present))
    | withdrawn id =>
      have still : saId ≠ id ∧ presentIn before older saId = true := by
        simpa [presentIn] using present
      exact List.mem_cons_of_mem _ (ih still.2)
    | started task => exact List.mem_cons_of_mem _ (ih present)
    | requested id => exact List.mem_cons_of_mem _ (ih present)

/-- A dependency of this process that samgr had was started before. -/
theorem started_of_wasPresent {hosted : Int → Prop} {history : List Event} {saId : Int}
    (founded : Each (Founded hosted) history) (was : WasPresent E.before history saId)
    (local_ : hosted saId) (fresh : E.before saId = false) : ∃ e ∈ history, Starts saId e := by
  obtain ⟨newer, older, rfl, present⟩ := was
  obtain ⟨newer', older', split, basis⟩ := founded.tail.mem (published_of_presentIn present fresh)
  obtain ⟨e, member, starts⟩ := basis local_
  refine ⟨e, ?_, starts⟩
  rw [split]
  simp [member]

/-- Any number of workers, any interleaving with other threads and processes: when a boot task
starts an ability, samgr has had each of its dependencies. Those of this process that samgr
did not have at first, and that publish themselves only once started, have been started
before, at boot or by a request. -/
theorem started_after_dependencies (E : Env) (n : Nat) (program : Program)
    (ok : State → Action → Prop) (s : State) (reach : (machine E n program).Reachable ok s)
    (newer older : List Event) (task : BootTask) (split : s.history = newer ++ .started task :: older)
    (saId : Int) (asked : Asked E task.ability saId) :
    WasPresent E.before older saId ∧
      ∀ hosted : Int → Prop, (∀ saId, hosted saId → E.before saId = false) →
        (∀ s a, ok s a → SelfPublished hosted s a) → hosted saId → ∃ e ∈ older, Starts saId e := by
  have was := (reachable_careful reach).rests.split split saId asked
  refine ⟨was, ?_⟩
  intro hosted fresh orderly local_
  have founded := reachable_founded orderly reach
  rw [split] at founded
  exact started_of_wasPresent founded.tail.2 was local_ (fresh saId local_)

/-- An ability with this id and these dependencies, as its profile sets it up. -/
def ability (saId : Int) (dependSa : List Int) : SystemAbility where
  saId := saId
  libPath := "lib.z.so"
  isRunOnCreate := true
  dependSa := dependSa
  dependTimeout := 6000
  isDistributed := false
  dumpLevel := 1

/-- Nothing is with samgr when the process comes up. -/
def firstProcess : Env where
  process := ⟨1, 16777215, fun _ => true⟩
  before := fun _ => false
  overflow := 0

/-- A clock of a few minutes. -/
def tick (count : Nat) : DependencyWait.Tick where
  count := min count 1000000
  nonneg := by omega
  le_max := by
    rw [DependencyWait.int64Max]
    omega

/-- The statements of the main thread for one ability. -/
def addTask : List Action := [.pool .main, .pool .main, .pool .main]

/-- One check that asks for one id. -/
def checkOne (i : Nat) : List Action :=
  [.getSystemAbilityManager i true, .checkSystemAbility i, .checkSystemAbility i]

def bootProgram (abilities : List SystemAbility) : Program :=
  BootPool.findAndStartPhaseTasks BootPool.defaultSaId
    (fun phase => if phase = 1 then some (abilities.map some) else none)

/-- Ability 401 depends on 402. Its worker does not find it and asks again later; in between
the other worker starts 402, which publishes itself. -/
def inOrder : List Action :=
  addTask ++ addTask ++ [.pool (.pop 0 0), .pool (.pop 1 0), .enter 0 (tick 0)] ++
    checkOne 0 ++ [.enter 1 (tick 5), .start 1, .publish 402,
      .turn 0 (tick 10)] ++
    checkOne 0 ++ [.turn 0 (tick 60)] ++ checkOne 0 ++ [.start 0]

def pair : Program := bootProgram [ability 401 [402], ability 402 []]

def inOrderState : State :=
  ((machine firstProcess 2 pair).run (SelfPublished (401 ≤ ·)) (initial 2 pair) inOrder).get
    (by decide)

theorem started_after_dependencies_inOrder :
    inOrderState.history = [.started ⟨1, ability 401 [402]⟩, .published 402,
      .started ⟨1, ability 402 []⟩] ∧
    WasPresent firstProcess.before [.published 402, .started ⟨1, ability 402 []⟩] 402 ∧
    ∃ e ∈ [.published 402, .started ⟨1, ability 402 []⟩], Starts 402 e := by
  have history : inOrderState.history = [.started ⟨1, ability 401 [402]⟩, .published 402,
      .started ⟨1, ability 402 []⟩] := by decide
  have reach : (machine firstProcess 2 pair).Reachable (SelfPublished (401 ≤ ·)) inOrderState :=
    Machine.reachable_get inOrder (by decide)
  obtain ⟨was, started⟩ := started_after_dependencies firstProcess 2 pair
    (SelfPublished (401 ≤ ·)) inOrderState reach [] _ _ history 402 ⟨by decide, by decide⟩
  exact ⟨history, was, started (401 ≤ ·) (fun _ _ => rfl) (fun _ _ allowed => allowed) (by decide)⟩

/-! ## Abilities that wait for each other -/

/-- The task is one of the program. -/
def Planned (program : Program) (task : BootTask) : Prop :=
  .startTask task.phase (some task.ability) ∈ program

structure FromProgram (program : Program) (s : State) : Prop where
  todo : s.pool.todo ⊆ program
  present : ∀ task, BootOrder.Present task s.pool → Planned program task
  started : ∀ task, .started task ∈ s.history → Planned program task

theorem moves_todo {s t : BootPool.State SystemAbility} {a : BootPool.Action}
    (move : BootPool.Moves s a t) : t.todo ⊆ s.todo := by
  cases move with
  | skipNull ready next => exact next ▸ List.subset_cons_self _ _
  | lockMain ready next free => exact next ▸ List.subset_cons_self _ _
  | loadProfiles ready next => exact next ▸ List.subset_cons_self _ _
  | waitReturns ready next free zero => exact next ▸ List.subset_cons_self _ _
  | waitTimesOut ready next free nonzero => exact next ▸ List.subset_cons_self _ _
  | addTask | unlockMain | pop | started | lockWorker | decrement | unlockWorker =>
    exact List.Subset.refl _

theorem FromProgram.pool {s : State} (planned : FromProgram program s)
    {pool : BootPool.State SystemAbility} {a : BootPool.Action}
    (next : BootPool.Moves s.pool a pool) (places : List Place) :
    FromProgram program { s with pool := pool, places := places } := by
  refine ⟨List.Subset.trans (moves_todo next) planned.todo, ?_, planned.started⟩
  intro task present
  rcases BootOrder.moves_present next present with old | ⟨rest, first⟩
  · exact planned.present task old
  · exact planned.todo (by rw [first]; exact List.mem_cons_self)

theorem moves_fromProgram {s t : State} {a : Action} (move : Moves E s a t)
    (planned : FromProgram program s) : FromProgram program t := by
  cases move with
  | pop idle next taken => exact planned.pool next _
  | leaves found here next left => exact planned.pool next _
  | pool next kept => exact planned.pool next s.places
  | work found here takes quiet => exact ⟨planned.todo, planned.present, planned.started⟩
  | @start i task found here =>
    refine ⟨planned.todo, planned.present, ?_⟩
    intro other member
    rcases List.mem_cons.mp member with same | old
    · cases same
      exact planned.present task (Or.inr (Or.inr ⟨_, Threads.mem_of_getElem? found, rfl⟩))
    · exact planned.started other old
  | @event _ e leads =>
    refine ⟨planned.todo, planned.present, ?_⟩
    intro other member
    rcases List.mem_cons.mp member with same | old
    · subst same
      cases a <;> cases leads
    · exact planned.started other old

theorem reachable_fromProgram {s : State} (reach : (machine E n program).Reachable ok s) :
    FromProgram program s := by
  refine reach.invariant (FromProgram program) ⟨List.Subset.refl _, ?_, ?_⟩ ?_
  · rintro task (adding | queued | ⟨w, member, held⟩)
    · cases adding
    · cases queued
    · rw [List.eq_of_mem_replicate member] at held
      cases held
  · intro task member
    cases member
  · intro r a t _ planned _ next
    exact moves_fromProgram (moves_of_step next) planned

/-- Any number of workers, any interleaving: of a group of abilities of this process each of
which depends on one of the group, none is started at boot, unless one of them is requested. -/
theorem knot_never_started (E : Env) (n : Nat) (program : Program) (hosted : Int → Prop)
    (fresh : ∀ saId, hosted saId → E.before saId = false) (knot : Int → Prop)
    (here : ∀ saId, knot saId → hosted saId)
    (tied : ∀ phase ability, .startTask phase (some ability) ∈ program → knot ability.saId →
      ∃ saId, Asked E ability saId ∧ knot saId)
    (s : State) (reach : (machine E n program).Reachable (SelfPublished hosted) s)
    (unrequested : ∀ saId, .requested saId ∈ s.history → ¬knot saId)
    (task : BootTask) (member : .started task ∈ s.history) : ¬knot task.ability.saId := by
  have founded := reachable_founded (fun _ _ allowed => allowed) reach
  have regress : Each (fun e older => (∃ saId, knot saId ∧ Starts saId e) →
      ∃ d ∈ older, ∃ saId, knot saId ∧ Starts saId d) s.history := by
    refine each_of_split ?_
    rintro newer e older split ⟨saId, inKnot, starts⟩
    have listed : e ∈ s.history := by simp [split]
    cases e with
    | started task =>
      obtain rfl : task.ability.saId = saId := starts
      have planned := (reachable_fromProgram reach).started task listed
      obtain ⟨dependency, asked, tiedTo⟩ := tied _ _ planned inKnot
      have was := (reachable_careful reach).rests.split split dependency asked
      rw [split] at founded
      obtain ⟨d, earlier, first⟩ := started_of_wasPresent founded.tail.2 was
        (here dependency tiedTo) (fresh dependency (here dependency tiedTo))
      exact ⟨d, earlier, dependency, tiedTo, first⟩
    | requested id =>
      obtain rfl : id = saId := starts
      exact absurd inKnot (unrequested id listed)
    | published id => exact starts.elim
    | withdrawn id => exact starts.elim
  intro inKnot
  exact regress.none_of_regress _ member ⟨_, inKnot, rfl⟩

/-- Abilities 401 and 402 depend on each other; 403 on none. -/
def tangled : Program := bootProgram [ability 401 [402], ability 402 [401], ability 403 []]

/-- Both wait until their time is up and ask once more, while the third worker starts 403. -/
def tangledRun : List Action :=
  addTask ++ addTask ++ addTask ++
    [.pool (.pop 0 0), .pool (.pop 1 0), .pool (.pop 2 0), .enter 0 (tick 0),
      .enter 1 (tick 0), .enter 2 (tick 0), .start 2, .publish 403] ++
    checkOne 0 ++ checkOne 1 ++ [.turn 0 (tick 6000), .turn 1 (tick 6000)] ++
    checkOne 0 ++ checkOne 1 ++ [.pool (.started 0), .pool (.started 1)]

def tangledState : State :=
  ((machine firstProcess 3 tangled).run (SelfPublished (401 ≤ ·)) (initial 3 tangled)
    tangledRun).get (by decide)

theorem knot_never_started_tangled :
    tangledState.history = [.published 403, .started ⟨1, ability 403 []⟩] ∧
    ∀ task, .started task ∈ tangledState.history →
      ¬(task.ability.saId = 401 ∨ task.ability.saId = 402) := by
  have reach : (machine firstProcess 3 tangled).Reachable (SelfPublished (401 ≤ ·)) tangledState :=
    Machine.reachable_get tangledRun (by decide)
  have history : tangledState.history = [.published 403, .started ⟨1, ability 403 []⟩] := by decide
  refine ⟨history, ?_⟩
  refine knot_never_started firstProcess 3 tangled (401 ≤ ·) (fun _ _ => rfl)
    (fun saId => saId = 401 ∨ saId = 402) ?_ ?_ tangledState reach ?_
  · rintro saId (rfl | rfl) <;> decide
  · intro phase starting member inKnot
    have listed : phase = 1 ∧ starting = ability 401 [402] ∨
        phase = 1 ∧ starting = ability 402 [401] ∨ phase = 1 ∧ starting = ability 403 [] := by
      simpa [tangled, bootProgram, BootPool.findAndStartPhaseTasks, BootPool.bootPhases,
        BootPool.visitPhase, BootPool.startPhaseTasks, BootPool.defaultSaId] using member
    rcases listed with ⟨_, rfl⟩ | ⟨_, rfl⟩ | ⟨_, rfl⟩
    · exact ⟨402, ⟨by decide, by decide⟩, Or.inr rfl⟩
    · exact ⟨401, ⟨by decide, by decide⟩, Or.inl rfl⟩
    · exact absurd inKnot (by decide)
  · intro saId requested
    rw [history] at requested
    simp at requested

end DependencyOrder
