import Mathlib.Order.Lattice
import Safwk.AbilityRegistry
import Safwk.Library.Signed
import Safwk.Library.SortedMap

/-!
# Unloading abilities that nobody uses

A profile can say after how many seconds without a request an ability that is started
on demand is unloaded. `InitUnusedCfg` turns the seconds into milliseconds, kept
between one minute and two hours, and a timer runs `IdentifyUnusedOndemand`, which
compares them with the time since the last request.

The product of the seconds and 1000 is computed with 32 bits and widened afterwards.
When it overflows it has no defined value, and `overflow` says what the program goes
on with. Everywhere else the comparison is exact.
-/

namespace UnusedAbilities

open Signed

/-- A profile with its `stopOnDemand.unusedTimeout`, in seconds. -/
structure SaProfile extends AbilityRegistry.SaProfile where
  unusedTimeout : Int32

/-- The object that an ability has published. -/
structure IPCObjectStub where
  lastRequestTime : UInt64

/-- An ability in `localAbilityMap_`, with its `publishObj_`. -/
structure LocalAbility where
  publishObj : Option IPCObjectStub

abbrev LocalAbilityMap := Int → Option LocalAbility

def timeSToMs : Int := 1000

/-- `ONDEMAND_SA_UNUSED_TIMEOUT_LOWLIMIT` -/
def unusedTimeoutLowLimit : Int := 1000 * 60 * 1

/-- `ONDEMAND_SA_UNUSED_TIMEOUT_UPLIMIT` -/
def unusedTimeoutUpLimit : Int := 1000 * 60 * 120

/-- The product of two 32-bit numbers. -/
def millisecTimeout (overflow : Int → Int32) (timeout : Int32) : Int :=
  (checked 32 (timeout.toInt * timeSToMs)).getD (overflow (timeout.toInt * timeSToMs)).toInt

def limitUnusedTimeout (overflow : Int → Int32) (saId : Int) (timeout : Int32)
    (unusedCfgMap : SortedMap Int Int32) : SortedMap Int Int32 :=
  let millisecTimeout := millisecTimeout overflow timeout
  if millisecTimeout < unusedTimeoutLowLimit then
    unusedCfgMap.assign saId (Int32.ofInt unusedTimeoutLowLimit)
  else if unusedTimeoutUpLimit < millisecTimeout then
    unusedCfgMap.assign saId (Int32.ofInt unusedTimeoutUpLimit)
  else unusedCfgMap.assign saId (Int32.ofInt millisecTimeout)

def initUnusedCfg (overflow : Int → Int32) (saProfileList : List SaProfile)
    (unusedCfgMap : SortedMap Int Int32) : SortedMap Int Int32 :=
  saProfileList.foldl (fun unusedCfgMap saProfile =>
    if !saProfile.runOnCreate && saProfile.unusedTimeout != -1 then
      limitUnusedTimeout overflow saProfile.saId saProfile.unusedTimeout unusedCfgMap
    else unusedCfgMap) unusedCfgMap

def getSaLastRequestTime (localAbilityMap : LocalAbilityMap) (saId : Int) : Option UInt64 :=
  match localAbilityMap saId with
  | none => none
  | some ability =>
    match ability.publishObj with
    | none => none
    | some saStub => some saStub.lastRequestTime

/-- The ids that `UnloadSystemAbility` is called with, if samgr is there. -/
def identifyUnusedOndemand (samgr : Bool) (currTime : UInt64) (localAbilityMap : LocalAbilityMap)
    (unusedCfgMap : SortedMap Int Int32) : List Int :=
  if !samgr then []
  else
    unusedCfgMap.entries.filterMap fun it =>
      match getSaLastRequestTime localAbilityMap it.1 with
      | none => none
      | some lastRequestTime =>
        if currTime ≤ lastRequestTime then none
        else
          let threshold := it.2.toInt64.toUInt64
          let idleTime := currTime - lastRequestTime
          if threshold < idleTime then some it.1 else none

/-! ## The configuration -/

/-- The profile asks for the ability to be unloaded when it is unused. -/
def Configured (saProfile : SaProfile) : Prop :=
  saProfile.runOnCreate = false ∧ saProfile.unusedTimeout ≠ -1

instance (saProfile : SaProfile) : Decidable (Configured saProfile) :=
  inferInstanceAs (Decidable (_ ∧ _))

/-- The milliseconds, kept within their limits. -/
def limited (millisec : Int) : Int := min (max millisec unusedTimeoutLowLimit) unusedTimeoutUpLimit

theorem limited_bounds (millisec : Int) : 60000 ≤ limited millisec ∧ limited millisec ≤ 7200000 := by
  simp only [limited, unusedTimeoutLowLimit, unusedTimeoutUpLimit]
  omega

theorem limitUnusedTimeout_eq (overflow : Int → Int32) (saId : Int) (timeout : Int32)
    (unusedCfgMap : SortedMap Int Int32) :
    limitUnusedTimeout overflow saId timeout unusedCfgMap =
      unusedCfgMap.assign saId (Int32.ofInt (limited (millisecTimeout overflow timeout))) := by
  simp only [limitUnusedTimeout, limited]
  split
  · rename_i low
    rw [max_eq_right (le_of_lt low), min_eq_left (by decide)]
  · rename_i notLow
    rw [max_eq_left (not_lt.mp notLow)]
    split
    · rename_i high
      rw [min_eq_right (le_of_lt high)]
    · rename_i notHigh
      rw [min_eq_left (not_lt.mp notHigh)]

theorem initUnusedCfg_cons (overflow : Int → Int32) (saProfile : SaProfile)
    (rest : List SaProfile) (unusedCfgMap : SortedMap Int Int32) :
    initUnusedCfg overflow (saProfile :: rest) unusedCfgMap =
      initUnusedCfg overflow rest
        (if Configured saProfile then
          unusedCfgMap.assign saProfile.saId
            (Int32.ofInt (limited (millisecTimeout overflow saProfile.unusedTimeout)))
        else unusedCfgMap) := by
  rw [initUnusedCfg, List.foldl_cons, limitUnusedTimeout_eq]
  by_cases configured : Configured saProfile
  · have test : (!saProfile.runOnCreate && saProfile.unusedTimeout != -1) = true := by
      simpa [Configured] using configured
    rw [if_pos test, if_pos configured]
    rfl
  · have test : ¬(!saProfile.runOnCreate && saProfile.unusedTimeout != -1) = true := by
      simpa [Configured] using configured
    rw [if_neg test, if_neg configured]
    rfl

/-- Every value in the map comes from a configured profile of its id. -/
theorem configured_of_lookup {overflow : Int → Int32} {saProfileList : List SaProfile}
    {unusedCfgMap : SortedMap Int Int32} {s : Int} {value : Int32}
    (found : (initUnusedCfg overflow saProfileList unusedCfgMap).entries.lookup s = some value) :
    (∃ saProfile ∈ saProfileList, Configured saProfile ∧ saProfile.saId = s ∧
      value = Int32.ofInt (limited (millisecTimeout overflow saProfile.unusedTimeout))) ∨
      unusedCfgMap.entries.lookup s = some value := by
  induction saProfileList generalizing unusedCfgMap with
  | nil => exact Or.inr found
  | cons saProfile rest ih =>
    rw [initUnusedCfg_cons] at found
    rcases ih found with ⟨later, member, rest'⟩ | here
    · exact Or.inl ⟨later, List.mem_cons_of_mem saProfile member, rest'⟩
    · split at here
      · rename_i configured
        rw [SortedMap.lookup_assign] at here
        split at here
        · rename_i same
          exact Or.inl ⟨saProfile, List.mem_cons_self, configured, same.symm,
            (Option.some.inj here).symm⟩
        · exact Or.inr here
      · exact Or.inr here

/-- An id without a profile keeps its value. -/
theorem lookup_of_not_mem {overflow : Int → Int32} {saProfileList : List SaProfile}
    {unusedCfgMap : SortedMap Int Int32} {s : Int}
    (absent : ∀ saProfile ∈ saProfileList, saProfile.saId ≠ s) :
    (initUnusedCfg overflow saProfileList unusedCfgMap).entries.lookup s =
      unusedCfgMap.entries.lookup s := by
  induction saProfileList generalizing unusedCfgMap with
  | nil => rfl
  | cons saProfile rest ih =>
    have other := absent saProfile List.mem_cons_self
    rw [initUnusedCfg_cons, ih fun later member => absent later (List.mem_cons_of_mem _ member)]
    split
    · rw [SortedMap.lookup_assign, if_neg (Ne.symm other)]
    · rfl

/-- Distinct ids: each configured profile decides the value of its id. -/
theorem lookup_of_configured {overflow : Int → Int32} {saProfileList : List SaProfile}
    {unusedCfgMap : SortedMap Int Int32} (distinct : (saProfileList.map (·.saId)).Nodup)
    {saProfile : SaProfile} (member : saProfile ∈ saProfileList)
    (configured : Configured saProfile) :
    (initUnusedCfg overflow saProfileList unusedCfgMap).entries.lookup saProfile.saId =
      some (Int32.ofInt (limited (millisecTimeout overflow saProfile.unusedTimeout))) := by
  induction saProfileList generalizing unusedCfgMap with
  | nil => cases member
  | cons first rest ih =>
    obtain ⟨fresh, distinct⟩ := List.nodup_cons.mp distinct
    rw [initUnusedCfg_cons]
    rcases List.mem_cons.mp member with rfl | member
    · have absent : ∀ later ∈ rest, later.saId ≠ saProfile.saId := by
        intro later inRest same
        exact fresh (List.mem_map.mpr ⟨later, inRest, same⟩)
      rw [lookup_of_not_mem absent, if_pos configured, SortedMap.lookup_assign, if_pos rfl]
    · exact ih distinct member

/-! ## The comparison -/

theorem getSaLastRequestTime_iff {localAbilityMap : LocalAbilityMap} {s : Int} {last : UInt64} :
    getSaLastRequestTime localAbilityMap s = some last ↔
      ∃ ability saStub, localAbilityMap s = some ability ∧ ability.publishObj = some saStub ∧
        saStub.lastRequestTime = last := by
  unfold getSaLastRequestTime
  cases localAbilityMap s with
  | none => simp
  | some ability =>
    cases published : ability.publishObj with
    | none => simp [published]
    | some saStub => simp [published]

/-- The unsigned comparison is the one of the integers. -/
theorem exceeds_iff {k : Int} (lower : 0 ≤ k) (upper : k ≤ 7200000) (currTime last : UInt64) :
    (¬currTime ≤ last ∧ (Int32.ofInt k).toInt64.toUInt64 < currTime - last) ↔
      k < (currTime.toNat : Int) - last.toNat := by
  have widened : (Int32.ofInt k).toInt64.toInt = k := by
    rw [Int32.toInt_toInt64]
    apply toInt_ofInt32
    rw [fits32_iff]
    omega
  have nonneg : 0 ≤ (Int32.ofInt k).toInt64 := by
    rw [Int64.le_iff_toInt_le, widened]
    exact lower
  have threshold : (Int32.ofInt k).toInt64.toUInt64.toNat = k.toNat := by
    rw [Int64.toNat_toUInt64_of_le nonneg, Int64.toNatClampNeg, widened]
  by_cases early : currTime ≤ last
  · have order : currTime.toNat ≤ last.toNat := early
    constructor
    · exact fun both => absurd early both.1
    · intro exceeds
      omega
  · have order : last.toNat ≤ currTime.toNat := le_of_lt (not_le.mp early)
    rw [UInt64.lt_iff_toNat_lt, threshold, UInt64.toNat_sub_of_le currTime last order]
    constructor
    · rintro ⟨-, exceeds⟩
      omega
    · intro exceeds
      exact ⟨early, by omega⟩

theorem mem_identifyUnusedOndemand {currTime : UInt64} {localAbilityMap : LocalAbilityMap}
    {unusedCfgMap : SortedMap Int Int32} {s : Int} :
    s ∈ identifyUnusedOndemand true currTime localAbilityMap unusedCfgMap ↔
      ∃ value last, unusedCfgMap.entries.lookup s = some value ∧
        getSaLastRequestTime localAbilityMap s = some last ∧
        ¬currTime ≤ last ∧ value.toInt64.toUInt64 < currTime - last := by
  simp only [identifyUnusedOndemand, Bool.not_true, Bool.false_eq_true, if_false,
    List.mem_filterMap, ← SortedMap.mem_iff_lookup unusedCfgMap.sorted]
  constructor
  · rintro ⟨⟨id, value⟩, member, unloaded⟩
    cases requested : getSaLastRequestTime localAbilityMap id with
    | none =>
      simp only [requested] at unloaded
      cases unloaded
    | some last =>
      simp only [requested] at unloaded
      split at unloaded
      · cases unloaded
      · rename_i late
        split at unloaded
        · rename_i exceeds
          cases unloaded
          exact ⟨value, last, member, requested, late, exceeds⟩
        · cases unloaded
  · rintro ⟨value, last, member, requested, late, exceeds⟩
    refine ⟨(s, value), member, ?_⟩
    simp only [requested, if_neg late, if_pos exceeds]

/-! ## Which abilities are unloaded -/

/-- The ability should be unloaded: its profile says when, it has published an object, and
the last request is longer ago than the seconds of the profile, within their limits. -/
def Unused (saProfileList : List SaProfile) (currTime : UInt64)
    (localAbilityMap : LocalAbilityMap) (s : Int) : Prop :=
  ∃ saProfile ∈ saProfileList, saProfile.saId = s ∧ saProfile.runOnCreate = false ∧
    saProfile.unusedTimeout ≠ -1 ∧
    ∃ ability saStub, localAbilityMap s = some ability ∧ ability.publishObj = some saStub ∧
      min (max (1000 * saProfile.unusedTimeout.toInt) 60000) 7200000 <
        (currTime.toNat : Int) - saStub.lastRequestTime.toNat

/-- Exactly the unused abilities are unloaded, whatever an overflowing product is. -/
def UnloadsUnused (saProfileList : List SaProfile) : Prop :=
  ∀ (overflow : Int → Int32) (currTime : UInt64) (localAbilityMap : LocalAbilityMap) (s : Int),
    s ∈ identifyUnusedOndemand true currTime localAbilityMap
        (initUnusedCfg overflow saProfileList SortedMap.empty) ↔
      Unused saProfileList currTime localAbilityMap s

/-- The milliseconds of every configured timeout are a 32-bit number. -/
def TimeoutsFit (saProfileList : List SaProfile) : Prop :=
  ∀ saProfile ∈ saProfileList, Configured saProfile →
    Fits 32 (1000 * saProfile.unusedTimeout.toInt)

/-- A configured ability whose last request is longer ago than a threshold. -/
def Overdue (threshold : Int32 → Int) (saProfileList : List SaProfile) (currTime : UInt64)
    (localAbilityMap : LocalAbilityMap) (s : Int) : Prop :=
  ∃ saProfile ∈ saProfileList, saProfile.saId = s ∧ Configured saProfile ∧
    ∃ ability saStub, localAbilityMap s = some ability ∧ ability.publishObj = some saStub ∧
      threshold saProfile.unusedTimeout < (currTime.toNat : Int) - saStub.lastRequestTime.toNat

section

variable {saProfileList : List SaProfile} {currTime : UInt64} {localAbilityMap : LocalAbilityMap}
  {overflow : Int → Int32} {s : Int}

theorem unused_iff : Unused saProfileList currTime localAbilityMap s ↔
    Overdue (fun timeout => limited (1000 * timeout.toInt)) saProfileList currTime
      localAbilityMap s := by
  constructor
  · rintro ⟨saProfile, member, same, onDemand, given, exceeds⟩
    exact ⟨saProfile, member, same, ⟨onDemand, given⟩, exceeds⟩
  · rintro ⟨saProfile, member, same, ⟨onDemand, given⟩, exceeds⟩
    exact ⟨saProfile, member, same, onDemand, given, exceeds⟩

/-- What the code does: the limits are applied to what the multiplication gave. -/
theorem unloaded_iff (distinct : (saProfileList.map (·.saId)).Nodup) :
    s ∈ identifyUnusedOndemand true currTime localAbilityMap
        (initUnusedCfg overflow saProfileList SortedMap.empty) ↔
      Overdue (fun timeout => limited (millisecTimeout overflow timeout)) saProfileList currTime
        localAbilityMap s := by
  rw [mem_identifyUnusedOndemand]
  constructor
  · rintro ⟨value, last, found, requested, exceeds⟩
    rcases configured_of_lookup found with ⟨saProfile, member, configured, same, rfl⟩ | nothing
    · obtain ⟨ability, saStub, registered, published, rfl⟩ := getSaLastRequestTime_iff.mp requested
      obtain ⟨lower, upper⟩ := limited_bounds (millisecTimeout overflow saProfile.unusedTimeout)
      refine ⟨saProfile, member, same, configured, ability, saStub, registered, published, ?_⟩
      exact (exceeds_iff (by omega) upper currTime saStub.lastRequestTime).mp exceeds
    · cases nothing
  · rintro ⟨saProfile, member, rfl, configured, ability, saStub, registered, published, exceeds⟩
    obtain ⟨lower, upper⟩ := limited_bounds (millisecTimeout overflow saProfile.unusedTimeout)
    refine ⟨_, saStub.lastRequestTime, lookup_of_configured distinct member configured,
      getSaLastRequestTime_iff.mpr ⟨ability, saStub, registered, published, rfl⟩, ?_⟩
    exact (exceeds_iff (by omega) upper currTime saStub.lastRequestTime).mpr exceeds

/-- Thresholds that agree on the configured profiles have the same effect. -/
theorem Overdue.congr {threshold threshold' : Int32 → Int}
    (same : ∀ saProfile ∈ saProfileList, Configured saProfile →
      threshold saProfile.unusedTimeout = threshold' saProfile.unusedTimeout)
    (overdue : Overdue threshold saProfileList currTime localAbilityMap s) :
    Overdue threshold' saProfileList currTime localAbilityMap s := by
  obtain ⟨saProfile, member, isId, configured, ability, saStub, registered, published, exceeds⟩ :=
    overdue
  rw [same saProfile member configured] at exceeds
  exact ⟨saProfile, member, isId, configured, ability, saStub, registered, published, exceeds⟩

theorem millisecTimeout_of_fits {timeout : Int32} (fits : Fits 32 (1000 * timeout.toInt)) :
    millisecTimeout overflow timeout = 1000 * timeout.toInt := by
  have product : timeout.toInt * timeSToMs = 1000 * timeout.toInt := Int.mul_comm _ _
  rw [millisecTimeout, product, checked_of_fits fits]
  rfl

theorem millisecTimeout_of_overflow {timeout : Int32}
    (overflows : ¬Fits 32 (1000 * timeout.toInt)) :
    millisecTimeout overflow timeout = (overflow (1000 * timeout.toInt)).toInt := by
  have product : timeout.toInt * timeSToMs = 1000 * timeout.toInt := Int.mul_comm _ _
  rw [millisecTimeout, product, checked_of_not_fits overflows]
  rfl

theorem unloadsUnused_of_fit (distinct : (saProfileList.map (·.saId)).Nodup)
    (fit : TimeoutsFit saProfileList) : UnloadsUnused saProfileList := by
  intro overflow currTime localAbilityMap s
  rw [unloaded_iff distinct, unused_iff]
  constructor
  · apply Overdue.congr
    intro saProfile member configured
    rw [millisecTimeout_of_fits (fit saProfile member configured)]
  · apply Overdue.congr
    intro saProfile member configured
    rw [millisecTimeout_of_fits (fit saProfile member configured)]

/-- Every ability has published an object that got its last request at time 0. -/
def idleSinceBoot : LocalAbilityMap := fun _ => some ⟨some ⟨0⟩⟩

/-- A minute and a millisecond later an ability is overdue exactly if its threshold is a
minute. -/
theorem overdue_minute_iff (distinct : (saProfileList.map (·.saId)).Nodup)
    {saProfile : SaProfile} (member : saProfile ∈ saProfileList)
    (configured : Configured saProfile) {threshold : Int32 → Int} :
    Overdue threshold saProfileList 60001 idleSinceBoot saProfile.saId ↔
      threshold saProfile.unusedTimeout ≤ 60000 := by
  have time : ((60001 : UInt64).toNat : Int) - (0 : UInt64).toNat = 60001 := by decide
  constructor
  · rintro ⟨other, inList, same, -, ability, saStub, registered, published, exceeds⟩
    have isSame : other = saProfile := List.inj_on_of_nodup_map distinct inList member same
    cases registered
    cases published
    rw [isSame, time] at exceeds
    omega
  · intro isLow
    refine ⟨saProfile, member, rfl, configured, _, _, rfl, rfl, ?_⟩
    rw [time]
    omega

/-- A product that overflows may be taken for one on the other side of the limits. -/
theorem fit_of_unloadsUnused (distinct : (saProfileList.map (·.saId)).Nodup)
    (right : UnloadsUnused saProfileList) : TimeoutsFit saProfileList := by
  intro saProfile member configured
  by_contra overflows
  have agree : ∀ overflow : Int → Int32,
      (limited (overflow (1000 * saProfile.unusedTimeout.toInt)).toInt ≤ 60000 ↔
        limited (1000 * saProfile.unusedTimeout.toInt) ≤ 60000) := by
    intro overflow
    have here := right overflow 60001 idleSinceBoot saProfile.saId
    rw [unloaded_iff distinct, unused_iff, overdue_minute_iff distinct member configured,
      overdue_minute_iff distinct member configured, millisecTimeout_of_overflow overflows] at here
    exact here
  have low := (agree fun _ => 0).mp (by decide)
  have high := (agree fun _ => 7200000).mpr low
  exact absurd high (by decide)

end

/-- For profiles with distinct ids: exactly the unused abilities are unloaded, at every time
and for all last requests, exactly when the milliseconds of every configured timeout fit
into 32 bits. -/
theorem unloadsUnused_iff (saProfileList : List SaProfile)
    (distinct : (saProfileList.map (·.saId)).Nodup) :
    UnloadsUnused saProfileList ↔ TimeoutsFit saProfileList :=
  ⟨fit_of_unloadsUnused distinct, unloadsUnused_of_fit distinct⟩

/-- An ability that is started on demand. -/
def onDemandProfile (saId : Int) (unusedTimeout : Int32) : SaProfile where
  saId := saId
  libPath := ""
  bootPhase := 3
  runOnCreate := false
  dependSa := []
  dependTimeout := 6000
  distributed := false
  dumpLevel := 0
  unusedTimeout := unusedTimeout

theorem unloadsUnused_iff_small :
    UnloadsUnused [onDemandProfile 401 30, onDemandProfile 402 3600, onDemandProfile 403 (-1)] := by
  apply (unloadsUnused_iff _ (by decide)).mpr
  intro saProfile member _
  simp only [List.mem_cons, List.not_mem_nil, or_false] at member
  rcases member with rfl | rfl | rfl
  · decide
  · decide
  · decide

/-- The product as it is when it wraps around. -/
def wrapped (product : Int) : Int32 := Int32.ofInt product

/-- After 100 seconds without a request an ability with a timeout of 2147484 seconds is
unloaded, though it should not be for two hours. -/
theorem unloaded_early :
    401 ∈ identifyUnusedOndemand true 100000 idleSinceBoot
        (initUnusedCfg wrapped [onDemandProfile 401 2147484] SortedMap.empty) ∧
      ¬Unused [onDemandProfile 401 2147484] 100000 idleSinceBoot 401 ∧
      ¬UnloadsUnused [onDemandProfile 401 2147484] := by
  have unloaded : 401 ∈ identifyUnusedOndemand true 100000 idleSinceBoot
      (initUnusedCfg wrapped [onDemandProfile 401 2147484] SortedMap.empty) := by decide
  have inUse : ¬Unused [onDemandProfile 401 2147484] 100000 idleSinceBoot 401 := by
    rintro ⟨saProfile, member, -, -, -, ability, saStub, registered, published, exceeds⟩
    cases List.mem_singleton.mp member
    cases registered
    cases published
    exact absurd exceeds (by decide)
  refine ⟨unloaded, inUse, fun right => inUse ((right wrapped 100000 idleSinceBoot 401).mp unloaded)⟩

end UnusedAbilities
