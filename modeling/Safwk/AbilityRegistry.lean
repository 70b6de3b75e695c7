import Mathlib.Data.List.AList
import Mathlib.Data.Finset.Basic
import Mathlib.Logic.Function.Basic

/-!
# Profiles, registered abilities and phase lists

What `LocalAbilityManager` knows about the abilities of its process: the profiles
the parser has kept, `localAbilityMap_`, which the static initialisers of loaded
libraries fill through `AddAbility`, and `abilityPhaseMap_`, which decides what
is started at boot.

The parser belongs to samgr. Of it only its list of profiles is used: removing
an id deletes every profile with it, and looking an id up finds the first one.
Process names are unconverted text; the code turns them from UTF-16 to UTF-8
and back.
-/

namespace AbilityRegistry

/-- The fields of a profile that this process reads. -/
structure SaProfile where
  saId : Int
  libPath : String
  bootPhase : Nat
  runOnCreate : Bool
  dependSa : List Int
  dependTimeout : Int
  distributed : Bool
  dumpLevel : Nat
  deriving DecidableEq

structure SystemAbility where
  saId : Int
  libPath : String
  isRunOnCreate : Bool
  dependSa : List Int
  dependTimeout : Int
  isDistributed : Bool
  dumpLevel : Nat
  deriving DecidableEq

/-- `DEFAULT_SAID`, the argument of a default start. -/
def defaultSaId : Int := -1

/-- `BOOT_START` -/
def bootStart : Nat := 1

/-- `OTHER_START`, the last boot phase. -/
def otherStart : Nat := 3

def minDependencyTimeout : Int := 200

def maxDependencyTimeout : Int := 60000

def defaultDependencyTimeout : Int := 6000

/-- The constructor of `SystemAbility`. -/
def SystemAbility.make (systemAbilityId : Int) (runOnCreate : Bool) : SystemAbility where
  saId := systemAbilityId
  libPath := ""
  isRunOnCreate := runOnCreate
  dependSa := []
  dependTimeout := defaultDependencyTimeout
  isDistributed := false
  dumpLevel := 0

/-- A timeout outside its range leaves the old one. -/
def SystemAbility.setDependTimeout (ability : SystemAbility) (dependTimeout : Int) :
    SystemAbility :=
  if minDependencyTimeout ≤ dependTimeout ∧ dependTimeout ≤ maxDependencyTimeout then
    { ability with dependTimeout := dependTimeout }
  else ability

/-- The setters that `AddAbility` calls with the profile's values. -/
def SystemAbility.setProfile (ability : SystemAbility) (saProfile : SaProfile) : SystemAbility :=
  let ability := { ability with
    libPath := saProfile.libPath
    isRunOnCreate := saProfile.runOnCreate
    dependSa := saProfile.dependSa }
  let ability := ability.setDependTimeout saProfile.dependTimeout
  { ability with isDistributed := saProfile.distributed, dumpLevel := saProfile.dumpLevel }

@[simp] theorem SystemAbility.setProfile_saId (ability : SystemAbility) (saProfile : SaProfile) :
    (ability.setProfile saProfile).saId = ability.saId := by
  simp only [SystemAbility.setProfile, SystemAbility.setDependTimeout]
  split <;> rfl

structure Manager where
  /-- `saProfiles_` of the parser. -/
  saProfiles : List SaProfile
  localAbilityMap : Int → Option SystemAbility
  abilityPhaseMap : Nat → Option (List SystemAbility)

/-- The manager after the profiles have been parsed. -/
def Manager.parsed (saProfiles : List SaProfile) : Manager :=
  ⟨saProfiles, fun _ => none, fun _ => none⟩

/-! ## The parser -/

def getProfile (saProfiles : List SaProfile) (saId : Int) : Option SaProfile :=
  saProfiles.find? (fun saProfile => saProfile.saId == saId)

def removeSaProfile (saProfiles : List SaProfile) (saId : Int) : List SaProfile :=
  saProfiles.filter (fun saProfile => saProfile.saId != saId)

theorem getProfile_some {saProfiles : List SaProfile} {saId : Int} {saProfile : SaProfile}
    (found : getProfile saProfiles saId = some saProfile) :
    saProfile ∈ saProfiles ∧ saProfile.saId = saId := by
  constructor
  · exact List.mem_of_find?_eq_some found
  · simpa using List.find?_some found

theorem getProfile_isSome (saProfiles : List SaProfile) (saId : Int) :
    (getProfile saProfiles saId).isSome ↔ ∃ saProfile ∈ saProfiles, saProfile.saId = saId := by
  simp [getProfile, List.find?_isSome]

/-! ## The trust list -/

/-- Trusted ids by process, as read from the trust file. -/
abbrev TrustMaps := AList (fun _ : String => Finset Int)

/-- `trustMaps[process]`, which is empty for a process that is not listed. -/
def trustSet (trustMaps : TrustMaps) (process : String) : Finset Int :=
  (trustMaps.lookup process).getD ∅

/-- `none` is a trust file that is missing or does not parse. -/
def checkTrustSa (trustConfig : Option TrustMaps) (process : String)
    (saInfos saProfiles : List SaProfile) : List SaProfile :=
  match trustConfig with
  | none => saProfiles
  | some trustMaps =>
    if trustMaps.entries = [] then saProfiles
    else
      saInfos.foldl (fun saProfiles saInfo =>
        if saInfo.saId ∈ trustSet trustMaps process then saProfiles
        else removeSaProfile saProfiles saInfo.saId) saProfiles

/-- The loop of `CheckTrustSa` keeps no profile of an untrusted id it meets. -/
theorem removeUntrusted_mem (trust : Finset Int) (saInfos saProfiles : List SaProfile)
    (saProfile : SaProfile) :
    saProfile ∈ saInfos.foldl (fun saProfiles saInfo =>
        if saInfo.saId ∈ trust then saProfiles
        else removeSaProfile saProfiles saInfo.saId) saProfiles ↔
      saProfile ∈ saProfiles ∧
        ∀ saInfo ∈ saInfos, saInfo.saId ∉ trust → saProfile.saId ≠ saInfo.saId := by
  induction saInfos generalizing saProfiles with
  | nil => simp
  | cons saInfo saInfos ih =>
    rw [List.foldl_cons, ih]
    by_cases trusted : saInfo.saId ∈ trust
    · simp [trusted]
    · simp [trusted, removeSaProfile, and_assoc]

/-- The list that `CheckTrustSa` is given is the parser's own, so that only
profiles of trusted ids are left. -/
theorem checkTrustSa_trusted {trustMaps : TrustMaps} (nonempty : trustMaps.entries ≠ [])
    (process : String) (saProfiles : List SaProfile) {saProfile : SaProfile}
    (kept : saProfile ∈ checkTrustSa (some trustMaps) process saProfiles saProfiles) :
    saProfile.saId ∈ trustSet trustMaps process := by
  simp only [checkTrustSa, if_neg nonempty] at kept
  obtain ⟨member, different⟩ := (removeUntrusted_mem _ saProfiles saProfiles saProfile).mp kept
  by_contra untrusted
  exact different saProfile member untrusted rfl

/-! ## Sections under `localAbilityMapLock_` -/

/-- `AddAbility` after it has found the profile. -/
def addSection (m : Manager) (ability : SystemAbility) (saProfile : SaProfile) : Manager × Bool :=
  let saId := ability.saId
  match m.localAbilityMap saId with
  | some _ => (m, false)
  | none =>
    let ability := ability.setProfile saProfile
    ({ m with localAbilityMap := Function.update m.localAbilityMap saId (some ability) }, true)

def addAbility (m : Manager) (ability : Option SystemAbility) : Manager × Bool :=
  match ability with
  | none => (m, false)
  | some ability =>
    match getProfile m.saProfiles ability.saId with
    | none => (m, false)
    | some saProfile => addSection m ability saProfile

def removeAbility (m : Manager) (systemAbilityId : Int) : Manager × Bool :=
  if systemAbilityId ≤ 0 then (m, false)
  else
    ({ m with localAbilityMap := Function.update m.localAbilityMap systemAbilityId none }, true)

/-- `ClearResource`: the parser forgets its profiles. -/
def clearResource (m : Manager) : Manager := { m with saProfiles := [] }

def getAbility (m : Manager) (systemAbilityId : Int) : Option SystemAbility :=
  m.localAbilityMap systemAbilityId

/-- `AddAbility` stores no null pointer, so the test for one is left out. -/
def initializeSaProfilesInnerLocked (m : Manager) (saProfile : SaProfile) : Manager × Bool :=
  match m.localAbilityMap saProfile.saId with
  | none => (m, false)
  | some systemAbility =>
    if otherStart < saProfile.bootPhase then (m, false)
    else
      let saList := (m.abilityPhaseMap saProfile.bootPhase).getD [] ++ [systemAbility]
      ({ m with
        abilityPhaseMap := Function.update m.abilityPhaseMap saProfile.bootPhase (some saList) },
        true)

/-- Every ability is registered under its own id. -/
def KeysMatch (m : Manager) : Prop :=
  ∀ saId ability, m.localAbilityMap saId = some ability → ability.saId = saId

theorem parsed_keysMatch (saProfiles : List SaProfile) : KeysMatch (Manager.parsed saProfiles) := by
  intro saId ability found
  cases found

@[simp] theorem addSection_saProfiles (m : Manager) (ability : SystemAbility)
    (saProfile : SaProfile) : (addSection m ability saProfile).1.saProfiles = m.saProfiles := by
  simp only [addSection]
  split <;> rfl

@[simp] theorem addSection_abilityPhaseMap (m : Manager) (ability : SystemAbility)
    (saProfile : SaProfile) :
    (addSection m ability saProfile).1.abilityPhaseMap = m.abilityPhaseMap := by
  simp only [addSection]
  split <;> rfl

theorem addSection_map (m : Manager) (ability : SystemAbility) (saProfile : SaProfile)
    (saId : Int) (registered : SystemAbility) :
    (addSection m ability saProfile).1.localAbilityMap saId = some registered →
      m.localAbilityMap saId = some registered ∨
      saId = ability.saId ∧ registered = ability.setProfile saProfile := by
  intro found
  simp only [addSection] at found
  split at found
  · exact Or.inl found
  · simp only [Function.update_apply] at found
    split at found
    · rename_i same
      exact Or.inr ⟨same, (Option.some.inj found).symm⟩
    · exact Or.inl found

theorem addSection_keysMatch {m : Manager} (keys : KeysMatch m) (ability : SystemAbility)
    (saProfile : SaProfile) : KeysMatch (addSection m ability saProfile).1 := by
  intro saId registered found
  rcases addSection_map m ability saProfile saId registered found with before | ⟨rfl, rfl⟩
  · exact keys saId registered before
  · exact SystemAbility.setProfile_saId ability saProfile

end AbilityRegistry
