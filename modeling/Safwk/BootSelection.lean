import Mathlib.Data.List.Count
import Safwk.AbilityRegistry

/-!
# What is started at boot and what is offered on demand

Two selections are made from the same profiles. `RegisterOnDemandSystemAbility`
asks `NeedRegisterOnDemand` for every profile. `FindAndStartPhaseTasks` starts the
phase lists, which hold whatever abilities happen to be registered when
their phase is initialised. The loop of `InitializeRunOnCreateSaProfiles` does
not look at `runOnCreate`, so an ability that is not run on create gets into its
phase list when a library loaded by then contains it.

Every library loads, and loading it adds each ability it contains; adding an
ability once more changes nothing. The profiles are those left by the trust
check.
-/

namespace BootSelection

open AbilityRegistry

/-- The abilities that a library adds when it is loaded. -/
abbrev Libraries := String → List SystemAbility

def openLibrary (libraries : Libraries) (m : Manager) (libPath : String) : Manager :=
  (libraries libPath).foldl (fun m ability => (addAbility m (some ability)).1) m

/-- The profiles whose libraries `OpenSo` loads. -/
def opened (saProfiles : List SaProfile) (bootPhase : Nat) : List SaProfile :=
  saProfiles.filter (fun saProfile => saProfile.runOnCreate && saProfile.bootPhase == bootPhase)

def openSo (libraries : Libraries) (m : Manager) (bootPhase : Nat) : Manager :=
  (opened m.saProfiles bootPhase).foldl
    (fun m saProfile => openLibrary libraries m saProfile.libPath) m

def loadSaLib (libraries : Libraries) (m : Manager) (saId : Int) : Manager × Bool :=
  match getProfile m.saProfiles saId with
  | none => (m, false)
  | some saProfile => (openLibrary libraries m saProfile.libPath, true)

/-- The loop of `InitializeRunOnCreateSaProfiles`. -/
def initializePhase (m : Manager) (bootPhase : Nat) (saProfileList : List SaProfile) : Manager :=
  saProfileList.foldl (fun m saProfile =>
    if saProfile.bootPhase ≠ bootPhase then m
    else (initializeSaProfilesInnerLocked m saProfile).1) m

def initializeRunOnCreateSaProfiles (libraries : Libraries) (m : Manager) (bootPhase : Nat) :
    Manager × Bool :=
  if otherStart < bootPhase then (m, false)
  else
    let m := openSo libraries m bootPhase
    if m.saProfiles = [] then (m, false)
    else (initializePhase m bootPhase m.saProfiles, true)

def initializeOnDemandSaProfile (libraries : Libraries) (m : Manager) (saId : Int) :
    Manager × Bool :=
  let (m, result) := loadSaLib libraries m saId
  if result = false then (m, false)
  else
    match getProfile m.saProfiles saId with
    | some saProfile => initializeSaProfilesInnerLocked m saProfile
    | none => (m, false)

def initializeSaProfiles (libraries : Libraries) (m : Manager) (saId : Int) : Manager × Bool :=
  if saId ≠ defaultSaId then initializeOnDemandSaProfile libraries m saId
  else initializeRunOnCreateSaProfiles libraries m bootStart

def needRegisterOnDemand (saProfile : SaProfile) (saId : Int) : Bool :=
  saId == defaultSaId && !saProfile.runOnCreate || saId != defaultSaId && saProfile.saId != saId

/-- The ids handed to `AddOnDemandSystemAbilityInfo`. -/
def registerOnDemandSystemAbility (m : Manager) (saId : Int) : List Int :=
  (m.saProfiles.filter (fun saProfile => needRegisterOnDemand saProfile saId)).map (·.saId)

/-- A call of `StartPhaseTasks`, if the phase has a list. -/
def startPhaseTasks (m : Manager) (bootPhase : Nat) : List (Nat × List SystemAbility) :=
  match m.abilityPhaseMap bootPhase with
  | none => []
  | some systemAbilityList => [(bootPhase, systemAbilityList)]

/-- The loop of a default start: a phase is initialised while the tasks of the
one before it run. -/
def startPhases (libraries : Libraries) : List Nat → Manager → List (Nat × List SystemAbility)
  | [], _ => []
  | bootPhase :: rest, m =>
    startPhaseTasks m bootPhase ++
      startPhases libraries rest
        (initializeRunOnCreateSaProfiles libraries m (bootPhase + 1)).1

/-- The phases from `BOOT_START` to `OTHER_START`. -/
def bootPhases : List Nat := [1, 2, 3]

def findAndStartPhaseTasks (libraries : Libraries) (m : Manager) (saId : Int) :
    List (Nat × List SystemAbility) :=
  if saId = defaultSaId then startPhases libraries bootPhases m
  else bootPhases.flatMap (startPhaseTasks m)

/-- What a start of the process has done: the ids offered on demand and the
calls of `StartPhaseTasks`. -/
structure Booted where
  registered : List Int
  phases : List (Nat × List SystemAbility)
  deriving DecidableEq

/-- The process exits before it has registered or started anything. -/
def exited : Booted := ⟨[], []⟩

/-- Whether samgr came up in time and the result of `AddSystemProcess`. -/
structure Samgr where
  ready : Bool
  addSystemProcess : Int
  deriving DecidableEq

/-- `ERR_OK` -/
def errOk : Int := 0

def run (libraries : Libraries) (samgr : Samgr) (m : Manager) (saId : Int) : Booted :=
  if samgr.addSystemProcess ≠ errOk then exited
  else ⟨registerOnDemandSystemAbility m saId, findAndStartPhaseTasks libraries m saId⟩

def doStartSAProcess (libraries : Libraries) (samgr : Samgr) (saProfiles : List SaProfile)
    (saId : Int) : Booted :=
  let (m, ret) := initializeSaProfiles libraries (Manager.parsed saProfiles) saId
  if ret = false then exited
  else if samgr.ready = false then exited
  else run libraries samgr m saId

/-- The ids of the abilities passed to `StartPhaseTasks`. -/
def startedIds (phases : List (Nat × List SystemAbility)) : List Int :=
  phases.flatMap (fun phase => phase.2.map (·.saId))

/-- Every configured ability is started once at boot or offered on demand, and
what is started is what the start mode asks for. -/
structure Selected (saProfiles : List SaProfile) (saId : Int) (booted : Booted) : Prop where
  exactlyOne : ∀ saProfile ∈ saProfiles,
    (startedIds booted.phases).count saProfile.saId = 1 ∧ saProfile.saId ∉ booted.registered ∨
    saProfile.saId ∉ startedIds booted.phases ∧ saProfile.saId ∈ booted.registered
  increasing : (booted.phases.map Prod.fst).Pairwise (· < ·)
  byDefault : saId = defaultSaId → ∀ id, id ∈ startedIds booted.phases ↔
    ∃ saProfile ∈ saProfiles, saProfile.runOnCreate = true ∧ saProfile.saId = id
  onDemand : saId ≠ defaultSaId → ∀ id, id ∈ startedIds booted.phases ↔ id = saId

/-! ## Loading libraries -/

/-- From `m` to `m'` nothing happened but calls of `AddAbility`, for the ids in
`added`. -/
structure Loaded (m : Manager) (added : Int → Prop) (m' : Manager) : Prop where
  saProfiles : m'.saProfiles = m.saProfiles
  abilityPhaseMap : m'.abilityPhaseMap = m.abilityPhaseMap
  keys : KeysMatch m → KeysMatch m'
  registered : ∀ saId, (m'.localAbilityMap saId).isSome ↔
    (m.localAbilityMap saId).isSome ∨
      added saId ∧ ∃ saProfile ∈ m.saProfiles, saProfile.saId = saId

theorem Loaded.nothing (m : Manager) : Loaded m (fun _ => False) m := by
  refine ⟨rfl, rfl, id, ?_⟩
  simp

theorem Loaded.then {m m' m'' : Manager} {added added' : Int → Prop}
    (first : Loaded m added m') (second : Loaded m' added' m'') :
    Loaded m (fun saId => added saId ∨ added' saId) m'' := by
  refine ⟨second.saProfiles.trans first.saProfiles,
    second.abilityPhaseMap.trans first.abilityPhaseMap, fun keys => second.keys (first.keys keys), ?_⟩
  intro saId
  rw [second.registered, first.registered, first.saProfiles, or_assoc, ← or_and_right]

theorem Loaded.congr {m m' : Manager} {added added' : Int → Prop} (loaded : Loaded m added m')
    (same : ∀ saId, added saId ↔ added' saId) : Loaded m added' m' := by
  rwa [← funext fun saId => propext (same saId)]

/-- Loads one after the other. -/
theorem Loaded.foldl {α : Type} {f : Manager → α → Manager} {added : α → Int → Prop}
    (each : ∀ m a, Loaded m (added a) (f m a)) (as : List α) (m : Manager) :
    Loaded m (fun saId => ∃ a ∈ as, added a saId) (as.foldl f m) := by
  induction as generalizing m with
  | nil => exact (Loaded.nothing m).congr (by simp)
  | cons a as ih => exact ((each m a).then (ih (f m a))).congr (by simp)

theorem addAbility_loaded (m : Manager) (ability : SystemAbility) :
    Loaded m (fun saId => ability.saId = saId) (addAbility m (some ability)).1 := by
  simp only [addAbility]
  split
  · rename_i missing
    refine ⟨rfl, rfl, id, ?_⟩
    rintro saId
    have none := (getProfile_isSome m.saProfiles ability.saId).not.mp (by simp [missing])
    constructor
    · exact Or.inl
    · rintro (before | ⟨rfl, known⟩)
      · exact before
      · exact False.elim (none known)
  · rename_i saProfile found
    obtain ⟨member, same⟩ := getProfile_some found
    have known : ∃ saProfile ∈ m.saProfiles, saProfile.saId = ability.saId :=
      ⟨saProfile, member, same⟩
    constructor
    · exact addSection_saProfiles m ability saProfile
    · exact addSection_abilityPhaseMap m ability saProfile
    · intro keys
      exact addSection_keysMatch keys ability saProfile
    · intro saId
      simp only [addSection]
      split
      · rename_i before
        constructor
        · exact Or.inl
        · rintro (before' | ⟨rfl, _⟩)
          · exact before'
          · simp [before]
      · by_cases here : saId = ability.saId
        · subst here
          simpa using Or.inr known
        · simp [Function.update_of_ne here, Ne.symm here]

/-- The library contains an ability with this id. -/
def contains (libraries : Libraries) (libPath : String) (saId : Int) : Bool :=
  (libraries libPath).any (fun ability => ability.saId == saId)

theorem openLibrary_loaded (libraries : Libraries) (m : Manager) (libPath : String) :
    Loaded m (fun saId => contains libraries libPath saId = true)
      (openLibrary libraries m libPath) := by
  have loaded := Loaded.foldl addAbility_loaded (libraries libPath) m
  exact loaded.congr (by simp [contains])

theorem openSo_loaded (libraries : Libraries) (m : Manager) (bootPhase : Nat) :
    Loaded m (fun saId => ∃ saProfile ∈ opened m.saProfiles bootPhase,
      contains libraries saProfile.libPath saId = true) (openSo libraries m bootPhase) := by
  apply Loaded.foldl
  intro m saProfile
  exact openLibrary_loaded libraries m saProfile.libPath

/-! ## Filling a phase list -/

/-- The ids in the list of a phase. -/
def idsAt (m : Manager) (bootPhase : Nat) : List Int :=
  ((m.abilityPhaseMap bootPhase).getD []).map (·.saId)

theorem startedIds_startPhaseTasks (m : Manager) (bootPhase : Nat) :
    startedIds (startPhaseTasks m bootPhase) = idsAt m bootPhase := by
  cases h : m.abilityPhaseMap bootPhase <;> simp [startPhaseTasks, startedIds, idsAt, h]

/-- The profiles that the loop of a phase puts into its list. -/
def selects (m : Manager) (bootPhase : Nat) (saProfile : SaProfile) : Bool :=
  saProfile.bootPhase == bootPhase && (m.localAbilityMap saProfile.saId).isSome

/-- From `m` to `m'` the list of one phase has been extended by `ids`. -/
structure Extended (m : Manager) (bootPhase : Nat) (ids : List Int) (m' : Manager) : Prop where
  saProfiles : m'.saProfiles = m.saProfiles
  localAbilityMap : m'.localAbilityMap = m.localAbilityMap
  here : idsAt m' bootPhase = idsAt m bootPhase ++ ids
  others : ∀ other ≠ bootPhase, m'.abilityPhaseMap other = m.abilityPhaseMap other

theorem innerLocked_extended {m : Manager} (keys : KeysMatch m) (saProfile : SaProfile)
    (valid : saProfile.bootPhase ≤ otherStart) :
    Extended m saProfile.bootPhase
      (if (m.localAbilityMap saProfile.saId).isSome then [saProfile.saId] else [])
      (initializeSaProfilesInnerLocked m saProfile).1 := by
  cases found : m.localAbilityMap saProfile.saId with
  | none => constructor <;> simp [initializeSaProfilesInnerLocked, found]
  | some systemAbility =>
    have same := keys saProfile.saId systemAbility found
    constructor
    · simp [initializeSaProfilesInnerLocked, found, Nat.not_lt.mpr valid]
    · simp [initializeSaProfilesInnerLocked, found, Nat.not_lt.mpr valid]
    · simp [initializeSaProfilesInnerLocked, found, Nat.not_lt.mpr valid, idsAt, same]
    · intro other different
      simp [initializeSaProfilesInnerLocked, found, Nat.not_lt.mpr valid,
        Function.update_of_ne different]

/-- The loop lists the registered abilities of its phase in profile order,
whether they are run on create or not. -/
theorem initializePhase_extended {m : Manager} (keys : KeysMatch m) {bootPhase : Nat}
    (valid : bootPhase ≤ otherStart) (saProfileList : List SaProfile) :
    Extended m bootPhase ((saProfileList.filter (selects m bootPhase)).map (·.saId))
      (initializePhase m bootPhase saProfileList) := by
  induction saProfileList generalizing m with
  | nil => exact ⟨rfl, rfl, by simp [initializePhase], fun _ _ => rfl⟩
  | cons saProfile saProfileList ih =>
    by_cases phase : saProfile.bootPhase = bootPhase
    · subst phase
      have first := innerLocked_extended keys saProfile valid
      have keys' : KeysMatch (initializeSaProfilesInnerLocked m saProfile).1 := by
        intro saId ability found
        rw [first.localAbilityMap] at found
        exact keys saId ability found
      have rest := ih keys'
      have same : selects (initializeSaProfilesInnerLocked m saProfile).1 saProfile.bootPhase =
          selects m saProfile.bootPhase := by
        funext other
        rw [selects, first.localAbilityMap, selects]
      rw [same] at rest
      have unrolled : initializePhase m saProfile.bootPhase (saProfile :: saProfileList) =
          initializePhase (initializeSaProfilesInnerLocked m saProfile).1 saProfile.bootPhase
            saProfileList := by simp [initializePhase]
      rw [unrolled]
      refine ⟨rest.saProfiles.trans first.saProfiles,
        rest.localAbilityMap.trans first.localAbilityMap, ?_,
        fun other different => (rest.others other different).trans (first.others other different)⟩
      rw [rest.here, first.here, List.append_assoc]
      cases registered : (m.localAbilityMap saProfile.saId).isSome <;>
        simp [selects, registered]
    · have skipped : selects m bootPhase saProfile = false := by simp [selects, phase]
      have unrolled : initializePhase m bootPhase (saProfile :: saProfileList) =
          initializePhase m bootPhase saProfileList := by simp [initializePhase, phase]
      rw [unrolled, List.filter_cons_of_neg (by simp [skipped])]
      exact ih keys

/-! ## A default start -/

/-- A library loaded up to this phase contains the ability. -/
def ready (libraries : Libraries) (saProfiles : List SaProfile) (bootPhase : Nat) (saId : Int) :
    Bool :=
  saProfiles.any (fun saProfile => saProfile.runOnCreate && decide (saProfile.bootPhase ≤ bootPhase)
    && contains libraries saProfile.libPath saId)

theorem ready_succ (libraries : Libraries) (saProfiles : List SaProfile) (bootPhase : Nat)
    (saId : Int) :
    ready libraries saProfiles (bootPhase + 1) saId = true ↔
      ready libraries saProfiles bootPhase saId = true ∨
      ∃ saProfile ∈ opened saProfiles (bootPhase + 1),
        contains libraries saProfile.libPath saId = true := by
  simp only [ready, opened, List.any_eq_true, List.mem_filter, Bool.and_eq_true, decide_eq_true_eq,
    beq_iff_eq]
  constructor
  · rintro ⟨saProfile, member, ⟨runOnCreate, phase⟩, inside⟩
    rcases Nat.lt_or_ge bootPhase saProfile.bootPhase with later | earlier
    · exact Or.inr ⟨saProfile, ⟨member, runOnCreate, by omega⟩, inside⟩
    · exact Or.inl ⟨saProfile, member, ⟨runOnCreate, earlier⟩, inside⟩
  · rintro (⟨saProfile, member, ⟨runOnCreate, phase⟩, inside⟩ |
      ⟨saProfile, ⟨member, runOnCreate, phase⟩, inside⟩)
    · exact ⟨saProfile, member, ⟨runOnCreate, by omega⟩, inside⟩
    · exact ⟨saProfile, member, ⟨runOnCreate, by omega⟩, inside⟩

/-- The ids in the list of a phase when its tasks are started. -/
def listed (libraries : Libraries) (saProfiles : List SaProfile) (bootPhase : Nat) : List Int :=
  (saProfiles.filter (fun saProfile => saProfile.bootPhase == bootPhase &&
    ready libraries saProfiles bootPhase saProfile.saId)).map (·.saId)

/-- The manager when the phases up to this one have been initialised. -/
structure Stage (libraries : Libraries) (saProfiles : List SaProfile) (bootPhase : Nat)
    (m : Manager) : Prop where
  profiles : m.saProfiles = saProfiles
  keys : KeysMatch m
  registered : ∀ saProfile ∈ saProfiles, (m.localAbilityMap saProfile.saId).isSome =
    ready libraries saProfiles bootPhase saProfile.saId
  here : idsAt m bootPhase = listed libraries saProfiles bootPhase
  later : ∀ other, bootPhase < other → m.abilityPhaseMap other = none

section DefaultStart

variable (libraries : Libraries) {saProfiles : List SaProfile}

theorem parsed_stage (valid : ∀ saProfile ∈ saProfiles, 1 ≤ saProfile.bootPhase) :
    Stage libraries saProfiles 0 (Manager.parsed saProfiles) := by
  have early : ∀ saId, ready libraries saProfiles 0 saId = false := by
    intro saId
    simp only [ready, List.any_eq_false, Bool.and_eq_true, decide_eq_true_eq, not_and]
    intro saProfile member ⟨_, phase⟩
    have := valid saProfile member
    omega
  refine ⟨rfl, parsed_keysMatch saProfiles, ?_, ?_, fun _ _ => rfl⟩
  · intro saProfile _
    rw [early]
    rfl
  · simp [idsAt, listed, early, Manager.parsed]

variable {libraries}

theorem Stage.next {bootPhase : Nat} {m : Manager}
    (stage : Stage libraries saProfiles bootPhase m) (some : saProfiles ≠ [])
    (valid : bootPhase + 1 ≤ otherStart) :
    Stage libraries saProfiles (bootPhase + 1)
      (initializeRunOnCreateSaProfiles libraries m (bootPhase + 1)).1 ∧
    (initializeRunOnCreateSaProfiles libraries m (bootPhase + 1)).2 = true := by
  have loaded := openSo_loaded libraries m (bootPhase + 1)
  have profiles : (openSo libraries m (bootPhase + 1)).saProfiles = saProfiles :=
    loaded.saProfiles.trans stage.profiles
  have keys := loaded.keys stage.keys
  have registered : ∀ saProfile ∈ saProfiles,
      ((openSo libraries m (bootPhase + 1)).localAbilityMap saProfile.saId).isSome =
        ready libraries saProfiles (bootPhase + 1) saProfile.saId := by
    intro saProfile member
    rw [Bool.eq_iff_iff, loaded.registered, ready_succ, stage.registered saProfile member,
      stage.profiles]
    apply or_congr_right
    exact and_iff_left ⟨saProfile, member, rfl⟩
  have extended := initializePhase_extended keys valid saProfiles
  have unrolled : initializeRunOnCreateSaProfiles libraries m (bootPhase + 1) =
      (initializePhase (openSo libraries m (bootPhase + 1)) (bootPhase + 1) saProfiles, true) := by
    simp [initializeRunOnCreateSaProfiles, profiles, some, Nat.not_lt.mpr valid]
  rw [unrolled]
  refine ⟨⟨extended.saProfiles.trans profiles, ?_, ?_, ?_, ?_⟩, rfl⟩
  · intro saId ability found
    rw [extended.localAbilityMap] at found
    exact keys saId ability found
  · rw [extended.localAbilityMap]
    exact registered
  · have empty : idsAt (openSo libraries m (bootPhase + 1)) (bootPhase + 1) = [] := by
      simp [idsAt, loaded.abilityPhaseMap, stage.later (bootPhase + 1) (by omega)]
    rw [extended.here, empty, List.nil_append, listed]
    congr 1
    apply List.filter_congr
    intro saProfile member
    rw [selects, registered saProfile member]
  · intro other later
    rw [extended.others other (by omega), loaded.abilityPhaseMap]
    exact stage.later other (by omega)

/-- What a default start passes to `StartPhaseTasks`. -/
theorem startPhases_ids {m : Manager} (stage : Stage libraries saProfiles 1 m)
    (some : saProfiles ≠ []) :
    startedIds (startPhases libraries bootPhases m) =
      listed libraries saProfiles 1 ++ (listed libraries saProfiles 2 ++
        listed libraries saProfiles 3) := by
  have second := (stage.next some (by decide)).1
  have third := (second.next some (by decide)).1
  have ids : ∀ first rest, startedIds (first ++ rest) = startedIds first ++ startedIds rest := by
    intro first rest
    exact List.flatMap_append
  simp only [bootPhases, startPhases, ids, startedIds_startPhaseTasks, stage.here, second.here,
    third.here]
  simp [startedIds]

theorem startPhaseTasks_phases (m : Manager) (bootPhase : Nat) :
    ((startPhaseTasks m bootPhase).map Prod.fst).Sublist [bootPhase] := by
  cases h : m.abilityPhaseMap bootPhase <;> simp [startPhaseTasks, h]

theorem startPhases_phases (phases : List Nat) (m : Manager) :
    ((startPhases libraries phases m).map Prod.fst).Sublist phases := by
  induction phases generalizing m with
  | nil => exact List.Sublist.refl []
  | cons bootPhase rest ih =>
    rw [startPhases, List.map_append]
    exact (startPhaseTasks_phases m bootPhase).append (ih _)

/-- All ids that a default start passes on. -/
def listedAll (libraries : Libraries) (saProfiles : List SaProfile) : List Int :=
  bootPhases.flatMap (listed libraries saProfiles)

theorem mem_listed {bootPhase : Nat} {id : Int} :
    id ∈ listed libraries saProfiles bootPhase ↔ ∃ saProfile ∈ saProfiles,
      saProfile.bootPhase = bootPhase ∧ ready libraries saProfiles bootPhase id = true ∧
        saProfile.saId = id := by
  simp only [listed, List.mem_map, List.mem_filter, Bool.and_eq_true, beq_iff_eq]
  constructor
  · rintro ⟨saProfile, ⟨member, phase, isReady⟩, rfl⟩
    exact ⟨saProfile, member, phase, isReady, rfl⟩
  · rintro ⟨saProfile, member, phase, isReady, rfl⟩
    exact ⟨saProfile, ⟨member, phase, isReady⟩, rfl⟩

theorem saProfile_unique (distinct : (saProfiles.map (·.saId)).Nodup) {p q : SaProfile}
    (hp : p ∈ saProfiles) (hq : q ∈ saProfiles) (same : p.saId = q.saId) : p = q :=
  List.inj_on_of_nodup_map distinct hp hq same

theorem listedAll_nodup (distinct : (saProfiles.map (·.saId)).Nodup) :
    (listedAll libraries saProfiles).Nodup := by
  rw [listedAll, List.nodup_flatMap]
  constructor
  · intro bootPhase _
    exact distinct.sublist (List.filter_sublist.map _)
  · have different : bootPhases.Pairwise (· ≠ ·) := by decide
    apply different.imp
    intro first second other
    apply List.disjoint_left.mpr
    intro id inFirst inSecond
    obtain ⟨p, hp, phase, _, sameId⟩ := mem_listed.mp inFirst
    obtain ⟨q, hq, phase', _, sameId'⟩ := mem_listed.mp inSecond
    have same := saProfile_unique distinct hp hq (sameId.trans sameId'.symm)
    exact other (phase.symm.trans ((congrArg SaProfile.bootPhase same).trans phase'))

theorem mem_bootPhases {bootPhase : Nat} (valid : 1 ≤ bootPhase ∧ bootPhase ≤ otherStart) :
    bootPhase ∈ bootPhases := by
  obtain ⟨low, high⟩ := valid
  simp only [otherStart] at high
  simp only [bootPhases, List.mem_cons, List.not_mem_nil, or_false]
  omega

/-- A configured ability is started at boot exactly when a library loaded up to
its phase contains it. -/
theorem mem_listedAll (distinct : (saProfiles.map (·.saId)).Nodup)
    (valid : ∀ saProfile ∈ saProfiles,
      1 ≤ saProfile.bootPhase ∧ saProfile.bootPhase ≤ otherStart)
    {saProfile : SaProfile} (member : saProfile ∈ saProfiles) :
    saProfile.saId ∈ listedAll libraries saProfiles ↔
      ready libraries saProfiles saProfile.bootPhase saProfile.saId = true := by
  simp only [listedAll, List.mem_flatMap, mem_listed]
  constructor
  · rintro ⟨bootPhase, _, other, hother, rfl, isReady, same⟩
    rwa [saProfile_unique distinct hother member same] at isReady
  · intro isReady
    exact ⟨saProfile.bootPhase, mem_bootPhases (valid saProfile member), saProfile, member, rfl,
      isReady, rfl⟩

/-- Only configured abilities are started. -/
theorem listedAll_configured {id : Int} (started : id ∈ listedAll libraries saProfiles) :
    ∃ saProfile ∈ saProfiles, saProfile.saId = id := by
  simp only [listedAll, List.mem_flatMap, mem_listed] at started
  obtain ⟨_, _, saProfile, member, _, _, same⟩ := started
  exact ⟨saProfile, member, same⟩

end DefaultStart

/-- No library of a run-on-create profile contains an ability that is not run
on create and whose phase is initialised then or later. -/
def Separate (libraries : Libraries) (saProfiles : List SaProfile) : Prop :=
  ∀ p ∈ saProfiles, ∀ q ∈ saProfiles, p.runOnCreate = false → q.runOnCreate = true →
    q.bootPhase ≤ p.bootPhase → contains libraries q.libPath p.saId = false

instance (libraries : Libraries) (saProfiles : List SaProfile) :
    Decidable (Separate libraries saProfiles) :=
  inferInstanceAs (Decidable (∀ p ∈ saProfiles, ∀ q ∈ saProfiles, p.runOnCreate = false →
    q.runOnCreate = true → q.bootPhase ≤ p.bootPhase → contains libraries q.libPath p.saId = false))

section Selection

variable {libraries : Libraries} {samgr : Samgr} {saProfiles : List SaProfile}
variable (distinct : (saProfiles.map (·.saId)).Nodup)
variable (valid : ∀ saProfile ∈ saProfiles,
  1 ≤ saProfile.bootPhase ∧ saProfile.bootPhase ≤ otherStart)
variable (own : ∀ saProfile ∈ saProfiles, contains libraries saProfile.libPath saProfile.saId = true)

include own in
/-- A run-on-create ability is in its own library, which its phase loads. -/
theorem ready_of_runOnCreate {p : SaProfile} (member : p ∈ saProfiles)
    (runOnCreate : p.runOnCreate = true) :
    ready libraries saProfiles p.bootPhase p.saId = true := by
  simp only [ready, List.any_eq_true, Bool.and_eq_true, decide_eq_true_eq]
  exact ⟨p, member, ⟨runOnCreate, le_refl _⟩, own p member⟩

theorem separate_iff : Separate libraries saProfiles ↔
    ∀ p ∈ saProfiles, p.runOnCreate = false →
      ready libraries saProfiles p.bootPhase p.saId = false := by
  simp only [Separate, ready, List.any_eq_false, Bool.and_eq_true, decide_eq_true_eq, not_and,
    Bool.not_eq_true]
  constructor
  · intro separate p hp notCreate q hq ⟨create, phase⟩
    exact separate p hp q hq notCreate create phase
  · intro notReady p hp q hq notCreate create phase
    exact notReady p hp notCreate q hq ⟨create, phase⟩

/-- The ids that a default start offers on demand. -/
theorem mem_registered_default (distinct : (saProfiles.map (·.saId)).Nodup) {p : SaProfile}
    (member : p ∈ saProfiles) :
    p.saId ∈ (saProfiles.filter (fun q => needRegisterOnDemand q defaultSaId)).map (·.saId) ↔
      p.runOnCreate = false := by
  simp only [List.mem_map, List.mem_filter]
  constructor
  · rintro ⟨q, ⟨hq, need⟩, same⟩
    rw [saProfile_unique distinct hq member same] at need
    simpa [needRegisterOnDemand] using need
  · intro notCreate
    exact ⟨p, ⟨member, by simp [needRegisterOnDemand, notCreate]⟩, rfl⟩

include distinct valid own in
theorem selected_default_iff {booted : Booted}
    (started : startedIds booted.phases = listedAll libraries saProfiles)
    (registered : booted.registered =
      (saProfiles.filter (fun q => needRegisterOnDemand q defaultSaId)).map (·.saId))
    (increasing : (booted.phases.map Prod.fst).Pairwise (· < ·)) :
    Selected saProfiles defaultSaId booted ↔ Separate libraries saProfiles := by
  rw [separate_iff]
  constructor
  · intro selected p member notCreate
    have offered := (mem_registered_default distinct member).mpr notCreate
    rw [← registered] at offered
    rcases selected.exactlyOne p member with ⟨_, absent⟩ | ⟨absent, _⟩
    · exact False.elim (absent offered)
    · rw [started, mem_listedAll distinct valid member] at absent
      exact Bool.eq_false_iff.mpr absent
  · intro separate
    have listed_iff : ∀ p ∈ saProfiles,
        (p.saId ∈ listedAll libraries saProfiles ↔ p.runOnCreate = true) := by
      intro p member
      rw [mem_listedAll distinct valid member]
      constructor
      · intro isReady
        by_contra notCreate
        have notReady := separate p member (Bool.eq_false_iff.mpr notCreate)
        rw [notReady] at isReady
        cases isReady
      · exact ready_of_runOnCreate own member
    constructor
    · intro p member
      rw [started, registered, mem_registered_default distinct member, listed_iff p member]
      cases create : p.runOnCreate with
      | true =>
        left
        refine ⟨?_, by simp⟩
        exact List.count_eq_one_of_mem (listedAll_nodup distinct) ((listed_iff p member).mpr create)
      | false =>
        right
        exact ⟨by simp, rfl⟩
    · exact increasing
    · intro _ id
      rw [started]
      constructor
      · intro member
        obtain ⟨p, hp, rfl⟩ := listedAll_configured member
        exact ⟨p, hp, (listed_iff p hp).mp member, rfl⟩
      · rintro ⟨p, hp, create, rfl⟩
        exact (listed_iff p hp).mpr create
    · intro other
      exact False.elim (other rfl)

variable (libraries) in
include valid in
/-- A default start, computed. -/
theorem doStartSAProcess_default (ready : samgr.ready = true)
    (added : samgr.addSystemProcess = errOk) :
    startedIds (doStartSAProcess libraries samgr saProfiles defaultSaId).phases =
      listedAll libraries saProfiles ∧
    (doStartSAProcess libraries samgr saProfiles defaultSaId).registered =
      (saProfiles.filter (fun q => needRegisterOnDemand q defaultSaId)).map (·.saId) ∧
    ((doStartSAProcess libraries samgr saProfiles defaultSaId).phases.map Prod.fst).Pairwise
      (· < ·) := by
  by_cases empty : saProfiles = []
  · subst empty
    refine ⟨?_, rfl, List.Pairwise.nil⟩
    simp [doStartSAProcess, initializeSaProfiles, initializeRunOnCreateSaProfiles, openSo, opened,
      Manager.parsed, otherStart, bootStart, exited, startedIds, listedAll, listed]
  · obtain ⟨stage, initialised⟩ :=
      (parsed_stage libraries (fun p member => (valid p member).1)).next empty (by decide)
    have unrolled : doStartSAProcess libraries samgr saProfiles defaultSaId =
        ⟨registerOnDemandSystemAbility (initializeRunOnCreateSaProfiles libraries
            (Manager.parsed saProfiles) bootStart).1 defaultSaId,
          startPhases libraries bootPhases (initializeRunOnCreateSaProfiles libraries
            (Manager.parsed saProfiles) bootStart).1⟩ := by
      simp [doStartSAProcess, initializeSaProfiles, bootStart, initialised, ready, run, added,
        findAndStartPhaseTasks]
    rw [unrolled]
    refine ⟨?_, ?_, ?_⟩
    · rw [bootStart, startPhases_ids stage empty]
      simp [listedAll, bootPhases]
    · rw [bootStart, registerOnDemandSystemAbility, stage.profiles]
    · exact List.Pairwise.sublist (startPhases_phases bootPhases _) (by decide)

/-- The manager after `InitializeOnDemandSaProfile`: one phase has a list, and
the requested ability is alone in it. -/
theorem initializeOnDemandSaProfile_lists {saProfile : SaProfile}
    (found : getProfile saProfiles saProfile.saId = some saProfile)
    (valid : saProfile.bootPhase ≤ otherStart)
    (own : contains libraries saProfile.libPath saProfile.saId = true) :
    (initializeOnDemandSaProfile libraries (Manager.parsed saProfiles) saProfile.saId).2 = true ∧
    Extended (openLibrary libraries (Manager.parsed saProfiles) saProfile.libPath)
      saProfile.bootPhase [saProfile.saId]
      (initializeOnDemandSaProfile libraries (Manager.parsed saProfiles) saProfile.saId).1 := by
  have loaded := openLibrary_loaded libraries (Manager.parsed saProfiles) saProfile.libPath
  have keys := loaded.keys (parsed_keysMatch saProfiles)
  have registered : ((openLibrary libraries (Manager.parsed saProfiles)
      saProfile.libPath).localAbilityMap saProfile.saId).isSome = true := by
    rw [loaded.registered]
    exact Or.inr ⟨own, saProfile, (getProfile_some found).1, rfl⟩
  have extended := innerLocked_extended keys saProfile valid
  rw [if_pos registered] at extended
  have unrolled : initializeOnDemandSaProfile libraries (Manager.parsed saProfiles)
      saProfile.saId = initializeSaProfilesInnerLocked
        (openLibrary libraries (Manager.parsed saProfiles) saProfile.libPath) saProfile := by
    have parsed : (Manager.parsed saProfiles).saProfiles = saProfiles := rfl
    simp [initializeOnDemandSaProfile, loadSaLib, loaded.saProfiles, parsed, found]
  rw [unrolled]
  refine ⟨?_, extended⟩
  obtain ⟨systemAbility, there⟩ := Option.isSome_iff_exists.mp registered
  simp [initializeSaProfilesInnerLocked, there, Nat.not_lt.mpr valid]

/-- With one list, the loop over the phases finds that list. -/
theorem startedIds_onDemand {m m' : Manager} {saProfile : SaProfile}
    (valid : 1 ≤ saProfile.bootPhase ∧ saProfile.bootPhase ≤ otherStart)
    (fresh : ∀ bootPhase, m.abilityPhaseMap bootPhase = none)
    (extended : Extended m saProfile.bootPhase [saProfile.saId] m') :
    startedIds (bootPhases.flatMap (startPhaseTasks m')) = [saProfile.saId] := by
  have ids : ∀ bootPhase, idsAt m' bootPhase =
      if bootPhase = saProfile.bootPhase then [saProfile.saId] else [] := by
    intro bootPhase
    split
    · rename_i same
      rw [same, extended.here]
      simp [idsAt, fresh]
    · rename_i different
      simp [idsAt, extended.others bootPhase different, fresh]
  have flat : startedIds (bootPhases.flatMap (startPhaseTasks m')) =
      bootPhases.flatMap (idsAt m') := by
    rw [startedIds, List.flatMap_assoc]
    exact List.flatMap_congr fun bootPhase _ => startedIds_startPhaseTasks m' bootPhase
  have phase := mem_bootPhases valid
  simp only [bootPhases, List.mem_cons, List.not_mem_nil, or_false] at phase
  rw [flat, funext ids]
  rcases phase with first | second | third
  · simp [bootPhases, first]
  · simp [bootPhases, second]
  · simp [bootPhases, third]

theorem startPhaseTasks_increasing (m : Manager) :
    ((bootPhases.flatMap (startPhaseTasks m)).map Prod.fst).Pairwise (· < ·) := by
  have phases : ((bootPhases.flatMap (startPhaseTasks m)).map Prod.fst).Sublist bootPhases := by
    simp only [bootPhases, List.flatMap_cons, List.flatMap_nil, List.map_append, List.map_nil]
    exact (startPhaseTasks_phases m 1).append
      ((startPhaseTasks_phases m 2).append ((startPhaseTasks_phases m 3).append .slnil))
  exact List.Pairwise.sublist phases (by decide)

/-- The ids that an on-demand start offers on demand. -/
theorem mem_registered_onDemand {m : Manager} {saId : Int} (requested : saId ≠ defaultSaId)
    {p : SaProfile} (member : p ∈ m.saProfiles) :
    p.saId ∈ registerOnDemandSystemAbility m saId ↔ p.saId ≠ saId := by
  simp only [registerOnDemandSystemAbility, List.mem_map, List.mem_filter]
  constructor
  · rintro ⟨q, ⟨hq, need⟩, same⟩
    rw [← same]
    simpa [needRegisterOnDemand, requested] using need
  · intro different
    exact ⟨p, ⟨member, by simp [needRegisterOnDemand, requested, different]⟩, rfl⟩

include distinct valid own in
theorem selected_onDemand {saProfile : SaProfile} (member : saProfile ∈ saProfiles)
    (requested : saProfile.saId ≠ defaultSaId) (ready : samgr.ready = true)
    (added : samgr.addSystemProcess = errOk) :
    Selected saProfiles saProfile.saId
      (doStartSAProcess libraries samgr saProfiles saProfile.saId) := by
  have found : getProfile saProfiles saProfile.saId = some saProfile := by
    obtain ⟨other, there⟩ := Option.isSome_iff_exists.mp
      ((getProfile_isSome saProfiles saProfile.saId).mpr ⟨saProfile, member, rfl⟩)
    obtain ⟨hother, same⟩ := getProfile_some there
    rwa [saProfile_unique distinct hother member same] at there
  have loaded := openLibrary_loaded libraries (Manager.parsed saProfiles) saProfile.libPath
  have fresh : ∀ bootPhase, (openLibrary libraries (Manager.parsed saProfiles)
      saProfile.libPath).abilityPhaseMap bootPhase = none := by
    intro bootPhase
    rw [loaded.abilityPhaseMap]
    rfl
  obtain ⟨initialised, extended⟩ :=
    initializeOnDemandSaProfile_lists found (valid saProfile member).2 (own saProfile member)
  have unrolled : doStartSAProcess libraries samgr saProfiles saProfile.saId =
      ⟨registerOnDemandSystemAbility (initializeOnDemandSaProfile libraries
          (Manager.parsed saProfiles) saProfile.saId).1 saProfile.saId,
        bootPhases.flatMap (startPhaseTasks (initializeOnDemandSaProfile libraries
          (Manager.parsed saProfiles) saProfile.saId).1)⟩ := by
    simp [doStartSAProcess, initializeSaProfiles, requested, initialised, ready, run, added,
      findAndStartPhaseTasks]
  rw [unrolled]
  have started := startedIds_onDemand (valid saProfile member) fresh extended
  have profiles := extended.saProfiles.trans loaded.saProfiles
  constructor
  · intro p hp
    have listed : p ∈ (initializeOnDemandSaProfile libraries (Manager.parsed saProfiles)
        saProfile.saId).1.saProfiles := by
      rw [profiles]
      exact hp
    rw [started, mem_registered_onDemand requested listed]
    by_cases same : p.saId = saProfile.saId
    · left
      simp [same]
    · right
      simp [same]
  · exact startPhaseTasks_increasing _
  · intro isDefault
    exact False.elim (requested isDefault)
  · intro _ id
    rw [started, List.mem_singleton]

end Selection

/-- Distinct ids, boot phases from 1 to 3, every profile's library containing its
ability: a start in either mode selects as configured exactly when it is not a
default start in which a library loaded for a run-on-create ability brings in one
that is not run on create, in time for its phase. -/
theorem selected_iff_separate (libraries : Libraries) (samgr : Samgr)
    (saProfiles : List SaProfile) (saId : Int)
    (distinct : (saProfiles.map (·.saId)).Nodup)
    (valid : ∀ saProfile ∈ saProfiles, 1 ≤ saProfile.bootPhase ∧ saProfile.bootPhase ≤ otherStart)
    (own : ∀ saProfile ∈ saProfiles, contains libraries saProfile.libPath saProfile.saId = true)
    (mode : saId = defaultSaId ∨ ∃ saProfile ∈ saProfiles, saProfile.saId = saId)
    (ready : samgr.ready = true) (added : samgr.addSystemProcess = errOk) :
    Selected saProfiles saId (doStartSAProcess libraries samgr saProfiles saId) ↔
      (saId = defaultSaId → Separate libraries saProfiles) := by
  by_cases isDefault : saId = defaultSaId
  · subst isDefault
    obtain ⟨started, registered, increasing⟩ :=
      doStartSAProcess_default libraries valid ready added
    rw [selected_default_iff distinct valid own started registered increasing]
    simp
  · obtain ⟨saProfile, member, rfl⟩ := mode.resolve_left isDefault
    have selected := selected_onDemand distinct valid own member isDefault ready added
    constructor
    · intro _ same
      exact False.elim (isDefault same)
    · intro _
      exact selected

/-- A profile without dependencies. -/
def simpleProfile (saId : Int) (libPath : String) (bootPhase : Nat) (runOnCreate : Bool) :
    SaProfile :=
  ⟨saId, libPath, bootPhase, runOnCreate, [], 6000, false, 0⟩

/-- The library contains the abilities of the profiles that name it. -/
def configured (saProfiles : List SaProfile) : Libraries := fun libPath =>
  (saProfiles.filter (fun saProfile => saProfile.libPath == libPath)).map
    (fun saProfile => SystemAbility.make saProfile.saId saProfile.runOnCreate)

/-- samgr is up and takes the process. -/
def samgrUp : Samgr := ⟨true, errOk⟩

/-- Abilities 3 and 4 share a library that is loaded for phase 3, too late for
ability 4, whose phase is 2. -/
def lateLibrary : List SaProfile :=
  [simpleProfile 1 "a" 1 true, simpleProfile 2 "b" 1 false, simpleProfile 3 "c" 3 true,
    simpleProfile 4 "c" 2 false]

theorem selected_iff_separate_lateLibrary :
    Separate (configured lateLibrary) lateLibrary ∧
    Selected lateLibrary defaultSaId
      (doStartSAProcess (configured lateLibrary) samgrUp lateLibrary defaultSaId) ∧
    Selected lateLibrary 4 (doStartSAProcess (configured lateLibrary) samgrUp lateLibrary 4) := by
  have distinct : (lateLibrary.map (·.saId)).Nodup := by decide
  have valid : ∀ saProfile ∈ lateLibrary,
      1 ≤ saProfile.bootPhase ∧ saProfile.bootPhase ≤ otherStart := by decide
  have own : ∀ saProfile ∈ lateLibrary,
      contains (configured lateLibrary) saProfile.libPath saProfile.saId = true := by decide
  have separate : Separate (configured lateLibrary) lateLibrary := by decide
  refine ⟨separate, ?_, ?_⟩
  · exact (selected_iff_separate (configured lateLibrary) samgrUp lateLibrary defaultSaId distinct
      valid own (Or.inl rfl) rfl rfl).mpr fun _ => separate
  · exact (selected_iff_separate (configured lateLibrary) samgrUp lateLibrary 4 distinct valid own
      (Or.inr (by decide)) rfl rfl).mpr fun _ => separate

/-- Ability 2 is not run on create and shares the library of ability 1, which is. -/
def commonLibrary : List SaProfile :=
  [simpleProfile 1 "a" 1 true, simpleProfile 2 "a" 1 false]

/-- A default start both starts ability 2 and offers it on demand. -/
theorem started_and_offered :
    ¬ ∀ (libraries : Libraries) (samgr : Samgr) (saProfiles : List SaProfile) (saId : Int),
      (saProfiles.map (·.saId)).Nodup →
      (∀ saProfile ∈ saProfiles, 1 ≤ saProfile.bootPhase ∧ saProfile.bootPhase ≤ otherStart) →
      (∀ saProfile ∈ saProfiles, contains libraries saProfile.libPath saProfile.saId = true) →
      (saId = defaultSaId ∨ ∃ saProfile ∈ saProfiles, saProfile.saId = saId) →
      samgr.ready = true → samgr.addSystemProcess = errOk →
      Selected saProfiles saId (doStartSAProcess libraries samgr saProfiles saId) := by
  intro always
  have selected := always (configured commonLibrary) samgrUp commonLibrary defaultSaId (by decide)
    (by decide) (by decide) (Or.inl rfl) rfl rfl
  have one := selected.exactlyOne (simpleProfile 2 "a" 1 false) (by decide)
  revert one
  decide

end BootSelection
