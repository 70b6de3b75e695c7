import Safwk.AbilityRegistry
import Safwk.Library.Transition
import Safwk.Library.Threads

/-!
# Only trusted abilities are started

`CheckTrustSa` edits the list of profiles once, before any library is loaded.
Everything that registers or starts an ability afterwards must go through that
list: `AddAbility` needs a profile, the phase lists and `GetAbility` need a
registered ability, and `Start` is called on what these return.

Any number of threads run the operations of `LocalAbilityManager` in any order.
A section under `localAbilityMapLock_` is one step. A library load is a set of
calls of `AddAbility`, made by any thread at any time and for any abilities; what
`LoadSaLib` returns and whether the dependencies of an ability come up is the
`answer` of a step.
-/

namespace TrustedAbilities

open Transition AbilityRegistry

/-- `RETRY_TIMES_FOR_ONDEMAND` -/
def retryTimesForOndemand : Nat := 10

/-- `runTask` is a thread of the pool that takes the next task. -/
inductive Call where
  | addAbility (ability : Option SystemAbility)
  | removeAbility (systemAbilityId : Int)
  | clearResource
  | initializeRunOnCreateSaProfiles (bootPhase : Nat)
  | initializeOnDemandSaProfile (saId : Int)
  | startPhaseTasks (bootPhase : Nat)
  | runTask
  | startAbility (systemAbilityId : Int)
  deriving DecidableEq

/-- Where a thread is inside its call. -/
inductive Pc where
  | outside
  /-- `AddAbility` has found the profile and waits for the lock. -/
  | adding (ability : SystemAbility) (saProfile : SaProfile)
  /-- In `OpenSo`. -/
  | openingSo (bootPhase : Nat)
  /-- The loop of `InitializeRunOnCreateSaProfiles`. -/
  | initializing (bootPhase : Nat) (saProfileList : List SaProfile)
  /-- In the `LoadSaLib` of `InitializeOnDemandSaProfile`. -/
  | loadingProfile (saId : Int)
  | initializingOnDemand (saProfile : SaProfile)
  /-- The loop of `StartPhaseTasks`. -/
  | startingPhase (systemAbilityList : List SystemAbility)
  /-- In `StartSystemAbilityTask`. -/
  | startingTask (ability : SystemAbility)
  /-- In `StartDependSaTask`. -/
  | waitingForDepend (ability : SystemAbility)
  /-- In the `LoadSaLib` of `StartOndemandSystemAbility`. -/
  | loadingAbility (systemAbilityId : Int)
  | waitingForAbility (systemAbilityId : Int) (timeout : Nat)
  /-- `OnStartAbility` before `GetAbility`. -/
  | onStartAbility (systemAbilityId : Int)
  /-- `OnStartAbility` before `Start`. -/
  | startingAbility (ability : SystemAbility)
  deriving DecidableEq

structure Shared where
  manager : Manager
  /-- The tasks of the pool, oldest first. -/
  tasks : List SystemAbility
  /-- The abilities on which `Start` was called, newest first. -/
  started : List SystemAbility

/-- The first statements of a call, up to the first lock or library load. -/
def enter (s : Shared) : Call → Shared × Pc
  | .addAbility none => (s, .outside)
  | .addAbility (some ability) =>
    match getProfile s.manager.saProfiles ability.saId with
    | none => (s, .outside)
    | some saProfile => (s, .adding ability saProfile)
  | .removeAbility systemAbilityId =>
    ({ s with manager := (removeAbility s.manager systemAbilityId).1 }, .outside)
  | .clearResource => ({ s with manager := clearResource s.manager }, .outside)
  | .initializeRunOnCreateSaProfiles bootPhase =>
    if otherStart < bootPhase then (s, .outside) else (s, .openingSo bootPhase)
  | .initializeOnDemandSaProfile saId => (s, .loadingProfile saId)
  | .startPhaseTasks bootPhase =>
    match s.manager.abilityPhaseMap bootPhase with
    | none => (s, .outside)
    | some systemAbilityList => (s, .startingPhase systemAbilityList)
  | .runTask =>
    match s.tasks with
    | [] => (s, .outside)
    | ability :: tasks => ({ s with tasks := tasks }, .startingTask ability)
  | .startAbility systemAbilityId => (s, .loadingAbility systemAbilityId)

/-- `Start` is called on the ability. -/
def start (s : Shared) (ability : SystemAbility) : Shared :=
  { s with started := ability :: s.started }

def advance (s : Shared) (answer : Bool) : Pc → Option (Shared × Pc)
  | .outside => none
  | .adding ability saProfile =>
    some ({ s with manager := (addSection s.manager ability saProfile).1 }, .outside)
  | .openingSo bootPhase =>
    if s.manager.saProfiles = [] then some (s, .outside)
    else some (s, .initializing bootPhase s.manager.saProfiles)
  | .initializing _ [] => some (s, .outside)
  | .initializing bootPhase (saProfile :: saProfileList) =>
    if saProfile.bootPhase ≠ bootPhase then some (s, .initializing bootPhase saProfileList)
    else
      some ({ s with manager := (initializeSaProfilesInnerLocked s.manager saProfile).1 },
        .initializing bootPhase saProfileList)
  | .loadingProfile saId =>
    if answer = false then some (s, .outside)
    else
      match getProfile s.manager.saProfiles saId with
      | none => some (s, .outside)
      | some saProfile => some (s, .initializingOnDemand saProfile)
  | .initializingOnDemand saProfile =>
    some ({ s with manager := (initializeSaProfilesInnerLocked s.manager saProfile).1 }, .outside)
  | .startingPhase [] => some (s, .outside)
  | .startingPhase (systemAbility :: systemAbilityList) =>
    some ({ s with tasks := s.tasks ++ [systemAbility] }, .startingPhase systemAbilityList)
  | .startingTask ability =>
    if ability.dependSa = [] then some (start s ability, .outside)
    else some (s, .waitingForDepend ability)
  | .waitingForDepend ability =>
    if answer then some (start s ability, .outside) else some (s, .outside)
  | .loadingAbility systemAbilityId =>
    if answer = false then some (s, .outside)
    else some (s, .waitingForAbility systemAbilityId retryTimesForOndemand)
  | .waitingForAbility _ 0 => some (s, .outside)
  | .waitingForAbility systemAbilityId (timeout + 1) =>
    match getAbility s.manager systemAbilityId with
    | some _ => some (s, .onStartAbility systemAbilityId)
    | none => some (s, .waitingForAbility systemAbilityId timeout)
  | .onStartAbility systemAbilityId =>
    match getAbility s.manager systemAbilityId with
    | none => some (s, .outside)
    | some ability => some (s, .startingAbility ability)
  | .startingAbility ability => some (start s ability, .outside)

structure State where
  shared : Shared
  threads : List Pc

inductive Action where
  | call (i : Nat) (c : Call)
  | advance (i : Nat) (answer : Bool)
  deriving DecidableEq

def step (s : State) : Action → Option State
  | .call i c =>
    match s.threads[i]? with
    | some .outside => some ⟨(enter s.shared c).1, s.threads.set i (enter s.shared c).2⟩
    | _ => none
  | .advance i answer =>
    match s.threads[i]? with
    | some pc =>
      match advance s.shared answer pc with
      | some (shared, pc') => some ⟨shared, s.threads.set i pc'⟩
      | none => none
    | none => none

/-- The process after `CheckTrustSa`, with `n` threads. -/
def initial (n : Nat) (process : String) (trustConfig : Option TrustMaps)
    (saProfiles : List SaProfile) : State where
  shared := ⟨Manager.parsed (checkTrustSa trustConfig process saProfiles saProfiles), [], []⟩
  threads := List.replicate n .outside

def machine (n : Nat) (process : String) (trustConfig : Option TrustMaps)
    (saProfiles : List SaProfile) : Machine State Action where
  init := initial n process trustConfig saProfiles
  step := step

/-! ## The invariant -/

section Trust

variable {trust : Finset Int}

/-- The manager knows only trusted ids, each ability under its own. -/
structure ManagerTrusted (trust : Finset Int) (m : Manager) : Prop where
  profiles : ∀ saProfile ∈ m.saProfiles, saProfile.saId ∈ trust
  keys : KeysMatch m
  registered : ∀ saId ability, m.localAbilityMap saId = some ability → ability.saId ∈ trust
  phases : ∀ bootPhase saList, m.abilityPhaseMap bootPhase = some saList →
    ∀ ability ∈ saList, ability.saId ∈ trust

structure SharedTrusted (trust : Finset Int) (s : Shared) : Prop where
  manager : ManagerTrusted trust s.manager
  tasks : ∀ ability ∈ s.tasks, ability.saId ∈ trust
  started : ∀ ability ∈ s.started, ability.saId ∈ trust

/-- What a thread has in its hands is trusted. Profiles still to be initialised
are looked up in `localAbilityMap_` again. -/
def Pc.Trusted (trust : Finset Int) : Pc → Prop
  | .adding ability _ => ability.saId ∈ trust
  | .startingPhase systemAbilityList => ∀ ability ∈ systemAbilityList, ability.saId ∈ trust
  | .startingTask ability => ability.saId ∈ trust
  | .waitingForDepend ability => ability.saId ∈ trust
  | .startingAbility ability => ability.saId ∈ trust
  | _ => True

theorem parsed_trusted {saProfiles : List SaProfile}
    (profiles : ∀ saProfile ∈ saProfiles, saProfile.saId ∈ trust) :
    ManagerTrusted trust (Manager.parsed saProfiles) := by
  constructor
  · exact profiles
  · exact parsed_keysMatch saProfiles
  · intro saId ability found
    cases found
  · intro bootPhase saList found
    cases found

theorem ManagerTrusted.addSection {m : Manager} (trusted : ManagerTrusted trust m)
    {ability : SystemAbility} (known : ability.saId ∈ trust) (saProfile : SaProfile) :
    ManagerTrusted trust (addSection m ability saProfile).1 := by
  constructor
  · rw [addSection_saProfiles]
    exact trusted.profiles
  · exact addSection_keysMatch trusted.keys ability saProfile
  · intro saId registered found
    rcases addSection_map m ability saProfile saId registered found with before | ⟨_, rfl⟩
    · exact trusted.registered saId registered before
    · rw [SystemAbility.setProfile_saId]
      exact known
  · rw [addSection_abilityPhaseMap]
    exact trusted.phases

theorem ManagerTrusted.removeAbility {m : Manager} (trusted : ManagerTrusted trust m)
    (systemAbilityId : Int) : ManagerTrusted trust (removeAbility m systemAbilityId).1 := by
  simp only [AbilityRegistry.removeAbility]
  split
  · exact trusted
  · have before : ∀ saId ability,
        Function.update m.localAbilityMap systemAbilityId none saId = some ability →
          m.localAbilityMap saId = some ability := by
      intro saId ability found
      by_cases same : saId = systemAbilityId
      · subst same
        simp at found
      · rwa [Function.update_of_ne same] at found
    constructor
    · exact trusted.profiles
    · intro saId ability found
      exact trusted.keys saId ability (before saId ability found)
    · intro saId ability found
      exact trusted.registered saId ability (before saId ability found)
    · exact trusted.phases

theorem ManagerTrusted.clearResource {m : Manager} (trusted : ManagerTrusted trust m) :
    ManagerTrusted trust (clearResource m) := by
  refine ⟨?_, trusted.keys, trusted.registered, trusted.phases⟩
  simp [AbilityRegistry.clearResource]

/-- A phase list takes its abilities from `localAbilityMap_`. -/
theorem ManagerTrusted.innerLocked {m : Manager} (trusted : ManagerTrusted trust m)
    (saProfile : SaProfile) :
    ManagerTrusted trust (initializeSaProfilesInnerLocked m saProfile).1 := by
  simp only [initializeSaProfilesInnerLocked]
  split
  · exact trusted
  · rename_i systemAbility found
    split
    · exact trusted
    · refine ⟨trusted.profiles, trusted.keys, trusted.registered, ?_⟩
      intro bootPhase saList listed ability member
      by_cases same : bootPhase = saProfile.bootPhase
      · subst same
        simp only [Function.update_self, Option.some.injEq] at listed
        subst listed
        rcases List.mem_append.mp member with old | new
        · cases before : m.abilityPhaseMap saProfile.bootPhase with
          | none => simp [before] at old
          | some saList =>
            rw [before, Option.getD_some] at old
            exact trusted.phases _ saList before ability old
        · rw [List.mem_singleton.mp new]
          exact trusted.registered _ systemAbility found
      · dsimp only at listed
        rw [Function.update_of_ne same] at listed
        exact trusted.phases bootPhase saList listed ability member

theorem SharedTrusted.withManager {s : Shared} (trusted : SharedTrusted trust s) {m : Manager}
    (manager : ManagerTrusted trust m) : SharedTrusted trust { s with manager := m } :=
  ⟨manager, trusted.tasks, trusted.started⟩

theorem SharedTrusted.start {s : Shared} (trusted : SharedTrusted trust s)
    {ability : SystemAbility} (known : ability.saId ∈ trust) :
    SharedTrusted trust (start s ability) := by
  refine ⟨trusted.manager, trusted.tasks, ?_⟩
  intro other member
  rcases List.mem_cons.mp member with rfl | old
  · exact known
  · exact trusted.started other old

theorem enter_trusted {s : Shared} (trusted : SharedTrusted trust s) (c : Call) :
    SharedTrusted trust (enter s c).1 ∧ (enter s c).2.Trusted trust := by
  cases c with
  | addAbility ability =>
    cases ability with
    | none => exact ⟨trusted, trivial⟩
    | some ability =>
      simp only [enter]
      split
      · exact ⟨trusted, trivial⟩
      · rename_i saProfile found
        obtain ⟨member, same⟩ := getProfile_some found
        refine ⟨trusted, ?_⟩
        rw [Pc.Trusted, ← same]
        exact trusted.manager.profiles saProfile member
  | removeAbility systemAbilityId =>
    exact ⟨trusted.withManager (trusted.manager.removeAbility systemAbilityId), trivial⟩
  | clearResource => exact ⟨trusted.withManager trusted.manager.clearResource, trivial⟩
  | initializeRunOnCreateSaProfiles bootPhase =>
    simp only [enter]
    split <;> exact ⟨trusted, trivial⟩
  | initializeOnDemandSaProfile saId => exact ⟨trusted, trivial⟩
  | startPhaseTasks bootPhase =>
    simp only [enter]
    split
    · exact ⟨trusted, trivial⟩
    · rename_i saList listed
      exact ⟨trusted, trusted.manager.phases bootPhase saList listed⟩
  | runTask =>
    simp only [enter]
    split
    · exact ⟨trusted, trivial⟩
    · rename_i ability tasks queue
      have queued := trusted.tasks
      rw [queue] at queued
      refine ⟨⟨trusted.manager, ?_, trusted.started⟩, queued ability List.mem_cons_self⟩
      intro other member
      exact queued other (List.mem_cons_of_mem ability member)
  | startAbility systemAbilityId => exact ⟨trusted, trivial⟩

theorem advance_trusted {s t : Shared} {answer : Bool} {pc pc' : Pc}
    (trusted : SharedTrusted trust s) (hands : pc.Trusted trust)
    (next : advance s answer pc = some (t, pc')) :
    SharedTrusted trust t ∧ pc'.Trusted trust := by
  cases pc with
  | outside => cases next
  | adding ability saProfile =>
    cases next
    exact ⟨trusted.withManager (trusted.manager.addSection hands saProfile), trivial⟩
  | openingSo bootPhase =>
    simp only [advance] at next
    split at next <;> cases next <;> exact ⟨trusted, trivial⟩
  | initializing bootPhase saProfileList =>
    cases saProfileList with
    | nil =>
      cases next
      exact ⟨trusted, trivial⟩
    | cons saProfile saProfileList =>
      simp only [advance] at next
      split at next <;> cases next
      · exact ⟨trusted, trivial⟩
      · exact ⟨trusted.withManager (trusted.manager.innerLocked saProfile), trivial⟩
  | loadingProfile saId =>
    simp only [advance] at next
    split at next
    · cases next
      exact ⟨trusted, trivial⟩
    · split at next <;> cases next <;> exact ⟨trusted, trivial⟩
  | initializingOnDemand saProfile =>
    cases next
    exact ⟨trusted.withManager (trusted.manager.innerLocked saProfile), trivial⟩
  | startingPhase systemAbilityList =>
    cases systemAbilityList with
    | nil =>
      cases next
      exact ⟨trusted, trivial⟩
    | cons systemAbility systemAbilityList =>
      cases next
      refine ⟨⟨trusted.manager, ?_, trusted.started⟩, ?_⟩
      · intro ability member
        rcases List.mem_append.mp member with old | new
        · exact trusted.tasks ability old
        · rw [List.mem_singleton.mp new]
          exact hands systemAbility List.mem_cons_self
      · intro ability member
        exact hands ability (List.mem_cons_of_mem systemAbility member)
  | startingTask ability =>
    simp only [advance] at next
    split at next <;> cases next
    · exact ⟨trusted.start hands, trivial⟩
    · exact ⟨trusted, hands⟩
  | waitingForDepend ability =>
    simp only [advance] at next
    split at next <;> cases next
    · exact ⟨trusted.start hands, trivial⟩
    · exact ⟨trusted, trivial⟩
  | loadingAbility systemAbilityId =>
    simp only [advance] at next
    split at next <;> cases next <;> exact ⟨trusted, trivial⟩
  | waitingForAbility systemAbilityId timeout =>
    cases timeout with
    | zero =>
      cases next
      exact ⟨trusted, trivial⟩
    | succ timeout =>
      simp only [advance] at next
      split at next <;> cases next <;> exact ⟨trusted, trivial⟩
  | onStartAbility systemAbilityId =>
    simp only [advance] at next
    split at next <;> cases next
    · exact ⟨trusted, trivial⟩
    · rename_i ability found
      exact ⟨trusted, trusted.manager.registered systemAbilityId ability found⟩
  | startingAbility ability =>
    cases next
    exact ⟨trusted.start hands, trivial⟩

structure AllTrusted (trust : Finset Int) (s : State) : Prop where
  shared : SharedTrusted trust s.shared
  threads : ∀ pc ∈ s.threads, pc.Trusted trust

theorem AllTrusted.move {s : State} (trusted : AllTrusted trust s) (i : Nat) {shared : Shared}
    {pc : Pc} (moved : SharedTrusted trust shared ∧ pc.Trusted trust) :
    AllTrusted trust ⟨shared, s.threads.set i pc⟩ := by
  refine ⟨moved.1, ?_⟩
  intro other member
  rcases Threads.mem_set_cases member with rfl | old
  · exact moved.2
  · exact trusted.threads other old

theorem step_allTrusted {s t : State} {a : Action} (trusted : AllTrusted trust s)
    (next : step s a = some t) : AllTrusted trust t := by
  cases a with
  | call i c =>
    simp only [step] at next
    split at next
    · rw [← Option.some.inj next]
      exact trusted.move i (enter_trusted trusted.shared c)
    · cases next
  | advance i answer =>
    simp only [step] at next
    split at next
    · rename_i pc found
      split at next
      · rename_i shared pc' moved
        rw [← Option.some.inj next]
        have hands := trusted.threads pc (Threads.mem_of_getElem? found)
        exact trusted.move i (advance_trusted trusted.shared hands moved)
      · cases next
    · cases next

end Trust

/-- Any profiles, any process, any trust file that parses to a nonempty map; any
number of threads and any interleaving of library loads, initialisation and
starts: `Start` is called on trusted abilities only, and every key of
`localAbilityMap_` is the id of its ability. -/
theorem started_trusted (n : Nat) (process : String) (trustMaps : TrustMaps)
    (nonempty : trustMaps.entries ≠ []) (saProfiles : List SaProfile) (s : State)
    (reach : (machine n process (some trustMaps) saProfiles).Reachable Free s) :
    (∀ ability ∈ s.shared.started, ability.saId ∈ trustSet trustMaps process) ∧
    ∀ saId ability, s.shared.manager.localAbilityMap saId = some ability →
      ability.saId = saId := by
  have trusted : AllTrusted (trustSet trustMaps process) s := by
    refine reach.invariant (AllTrusted (trustSet trustMaps process)) ?_ ?_
    · refine ⟨⟨parsed_trusted ?_, by simp [machine, initial], by simp [machine, initial]⟩, ?_⟩
      · intro saProfile kept
        exact checkTrustSa_trusted nonempty process saProfiles kept
      · intro pc member
        rw [List.eq_of_mem_replicate member]
        trivial
    · intro r a t _ keep _ next
      exact step_allTrusted keep next
  exact ⟨trusted.shared.started, trusted.shared.manager.keys⟩

/-- A profile in boot phase 1 with nothing special. -/
def plainProfile (saId : Int) (runOnCreate : Bool) : SaProfile :=
  ⟨saId, "liba.z.so", 1, runOnCreate, [], 6000, false, 0⟩

/-- Three profiles of one library, the trust file lists two of them. -/
def sharedLibrary : Machine State Action :=
  machine 2 "proc" (some ⟨[⟨"proc", {1, 2}⟩], by simp⟩)
    [plainProfile 1 true, plainProfile 2 false, plainProfile 3 true]

/-- Ability 1 is started at boot, then abilities 2 and 3 are requested. -/
def sharedSchedule : List Action :=
  [.call 0 (.initializeRunOnCreateSaProfiles 1),
    .call 1 (.addAbility (some (.make 1 true))), .advance 1 true,
    .call 1 (.addAbility (some (.make 2 false))), .advance 1 true,
    .call 1 (.addAbility (some (.make 3 true))),
    .advance 0 true, .advance 0 true, .advance 0 true, .advance 0 true,
    .call 0 (.startPhaseTasks 1), .advance 0 true, .advance 0 true, .advance 0 true,
    .call 0 .runTask, .advance 0 true,
    .call 0 (.startAbility 2), .advance 0 true, .advance 0 true, .advance 0 true,
    .advance 0 true,
    .call 1 (.startAbility 3), .advance 1 true, .advance 1 true]

def sharedState : State :=
  (sharedLibrary.run Free sharedLibrary.init sharedSchedule).get (by decide)

theorem started_trusted_sharedLibrary :
    sharedState.shared.started.map (·.saId) = [2, 1] ∧
    (∀ ability ∈ sharedState.shared.started, ability.saId ∈ ({1, 2} : Finset Int)) ∧
    ∀ saId ability, sharedState.shared.manager.localAbilityMap saId = some ability →
      ability.saId = saId := by
  refine ⟨by decide, ?_⟩
  have reach : sharedLibrary.Reachable Free sharedState :=
    Machine.reachable_get sharedSchedule (by decide)
  exact started_trusted 2 "proc" ⟨[⟨"proc", {1, 2}⟩], by simp⟩ (by simp) _ sharedState reach

end TrustedAbilities
