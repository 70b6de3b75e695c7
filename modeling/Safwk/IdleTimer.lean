import Mathlib.Logic.Function.Basic
import Safwk.Library.Grounds
import Safwk.Library.Transition
import Safwk.UnusedAbilities

/-!
# The timer for unused abilities

When a process has come up and none of its abilities is to run all the time,
`StartTimedQuery` sets up a timer whose thread runs `IdentifyUnusedOndemand` again and
again. The function reads the clock once and then looks at one configured ability after
the other. Other threads register abilities, publish objects and serve requests in between:
the two checks of `StartTimedQuery` take the lock one after the other and release it before
the timer starts, and the sweep looks up the ability, its object and the time of its last
request one by one and calls samgr after that.

Abilities and objects are numbered. What is registered and published, and when requests
came, is what the history says. An object notes the time of each request that reaches it.
The timer comes from another library: it calls back on one thread, at any time, and is
joined when it is shut down. The history also records the check for resident abilities and
when a sweep begins and ends, which the program only logs.
-/

namespace IdleTimer

open Transition UnusedAbilities

inductive Event where
  /-- `AddAbility` enters the ability and sets its `isRunOnCreate_`. -/
  | added (saId : Int) (ability : Nat) (isRunOnCreate : Bool)
  | removed (saId : Int)
  /-- `publishObj_` of the ability is set. -/
  | published (ability saStub : Nat)
  | requested (saStub : Nat) (time : UInt64)
  /-- `IsResident` returned false. -/
  | notResident
  | timerStarted
  | sweepBegins (currTime : UInt64)
  /-- `UnloadSystemAbility` -/
  | unloaded (saId : Int) (currTime : UInt64)
  | sweepEnds (currTime : UInt64)

/-- What does not change while the process runs. -/
structure Env where
  saProfileList : List SaProfile
  overflow : Int → Int32
  /-- `GetSystemAbilitId` of each ability. -/
  saId : Nat → Int
  /-- What each object says before its first request. -/
  created : Nat → UInt64

section History

/-- `localAbilityMap_` after a history, newest first. -/
def localAbilityMap : List Event → SortedMap Int Nat
  | [] => .empty
  | .added saId ability _ :: older => (localAbilityMap older).assign saId ability
  | .removed saId :: older => (localAbilityMap older).erase saId
  | _ :: older => localAbilityMap older

def isRunOnCreate : List Event → Nat → Bool
  | [] => fun _ => false
  | .added _ ability flag :: older => Function.update (isRunOnCreate older) ability flag
  | _ :: older => isRunOnCreate older

def publishObj : List Event → Nat → Option Nat
  | [] => fun _ => none
  | .published ability saStub :: older => Function.update (publishObj older) ability (some saStub)
  | _ :: older => publishObj older

def lastRequestTime (E : Env) : List Event → Nat → UInt64
  | [] => E.created
  | .requested saStub time :: older => Function.update (lastRequestTime E older) saStub time
  | _ :: older => lastRequestTime E older

/-- The ability that `GetAbility` returns. -/
def getAbility (history : List Event) (saId : Int) : Option Nat :=
  (localAbilityMap history).entries.lookup saId

/-- All abilities with their objects at one moment. -/
def published (E : Env) (history : List Event) : LocalAbilityMap := fun saId =>
  (getAbility history saId).map fun ability =>
    ⟨(publishObj history ability).map fun saStub => ⟨lastRequestTime E history saStub⟩⟩

def isResident (history : List Event) : Bool :=
  (localAbilityMap history).entries.any fun it => isRunOnCreate history it.2

end History

/-- `StartTimedQuery`, `idleTimer_`, and where its thread is. -/
inductive Timer where
  | none
  /-- `StartTimedQuery` found no id of the white list. -/
  | queried
  /-- It goes on to `StartOnDemandTimer`. -/
  | starting
  | waiting
  | identifying (currTime : UInt64) (left : List (Int × Int32))
  | hasAbility (currTime : UInt64) (it : Int × Int32) (ability : Nat) (left : List (Int × Int32))
  | hasObject (currTime : UInt64) (it : Int × Int32) (saStub : Nat) (left : List (Int × Int32))
  /-- The time is exceeded. -/
  | exceeded (currTime : UInt64) (it : Int × Int32) (left : List (Int × Int32))

structure State where
  /-- Newest first. -/
  history : List Event
  /-- The steady clock, in milliseconds. -/
  now : UInt64
  unusedCfgMap : SortedMap Int Int32
  idleTimer : Timer

inductive Action where
  | addAbility (ability : Nat)
  | removeAbility (saId : Int)
  | publish (ability saStub : Nat)
  | request (saStub : Nat)
  | pass (milliseconds : UInt64)
  /-- `StartTimedQuery` up to its first check. -/
  | startTimedQuery
  | isResident
  | startOnDemandTimer
  | identifyUnusedOndemand (samgr : Bool)
  /-- The next step of its loop, or the end of it. -/
  | look
  | stopTimedQuery

/-- The white list is empty. -/
def noNeedCheckUnused (saId : Int) : Bool :=
  let saIdWhiteList : List Int := []
  saIdWhiteList.contains saId

def isConfigUnused (unusedCfgMap : SortedMap Int Int32) : Bool :=
  !unusedCfgMap.entries.isEmpty

/-- The comparisons of `IdentifyUnusedOndemand`. -/
def exceeds (currTime lastRequestTime : UInt64) (value : Int32) : Bool :=
  if currTime ≤ lastRequestTime then false
  else
    let threshold := value.toInt64.toUInt64
    let idleTime := currTime - lastRequestTime
    decide (threshold < idleTime)

section Step

variable (E : Env)

def startOnDemandTimer (s : State) : State :=
  let unusedCfgMap := initUnusedCfg E.overflow E.saProfileList s.unusedCfgMap
  if isConfigUnused unusedCfgMap then
    { s with
      unusedCfgMap := unusedCfgMap
      idleTimer := .waiting
      history := .timerStarted :: s.history }
  else { s with unusedCfgMap := unusedCfgMap, idleTimer := .none }

/-- One step of the sweep. -/
def look (s : State) : Option State :=
  match s.idleTimer with
  | .identifying currTime [] =>
    some { s with idleTimer := .waiting, history := .sweepEnds currTime :: s.history }
  | .identifying currTime (it :: left) =>
    match getAbility s.history it.1 with
    | none => some { s with idleTimer := .identifying currTime left }
    | some ability => some { s with idleTimer := .hasAbility currTime it ability left }
  | .hasAbility currTime it ability left =>
    match publishObj s.history ability with
    | none => some { s with idleTimer := .identifying currTime left }
    | some saStub => some { s with idleTimer := .hasObject currTime it saStub left }
  | .hasObject currTime it saStub left =>
    if exceeds currTime (lastRequestTime E s.history saStub) it.2 then
      some { s with idleTimer := .exceeded currTime it left }
    else some { s with idleTimer := .identifying currTime left }
  | .exceeded currTime it left =>
    some { s with
      idleTimer := .identifying currTime left
      history := .unloaded it.1 currTime :: s.history }
  | _ => none

def step (s : State) : Action → Option State
  | .addAbility ability =>
    match E.saProfileList.find? fun saProfile => saProfile.saId = E.saId ability with
    | none => some s
    | some saProfile =>
      match getAbility s.history (E.saId ability) with
      | some _ => some s
      | none =>
        some { s with
          history := .added (E.saId ability) ability saProfile.runOnCreate :: s.history }
  | .removeAbility saId =>
    if saId ≤ 0 then some s else some { s with history := .removed saId :: s.history }
  | .publish ability saStub => some { s with history := .published ability saStub :: s.history }
  | .request saStub => some { s with history := .requested saStub s.now :: s.history }
  | .pass milliseconds =>
    if s.now.toNat + milliseconds.toNat < UInt64.size then
      some { s with now := s.now + milliseconds }
    else none
  | .startTimedQuery =>
    match s.idleTimer with
    | .none =>
      if (localAbilityMap s.history).entries.any fun it => noNeedCheckUnused it.1 then some s
      else some { s with idleTimer := .queried }
    | _ => none
  | .isResident =>
    match s.idleTimer with
    | .queried =>
      if !isResident s.history then
        some { s with idleTimer := .starting, history := .notResident :: s.history }
      else some { s with idleTimer := .none }
    | _ => none
  | .startOnDemandTimer =>
    match s.idleTimer with
    | .starting => some (startOnDemandTimer E s)
    | _ => none
  | .identifyUnusedOndemand samgr =>
    match s.idleTimer with
    | .waiting =>
      if !samgr then some s
      else
        some { s with
          idleTimer := .identifying s.now s.unusedCfgMap.entries
          history := .sweepBegins s.now :: s.history }
    | _ => none
  | .look => look E s
  | .stopTimedQuery =>
    match s.idleTimer with
    | .none => some s
    | .waiting => some { s with idleTimer := .none }
    | _ => none

end Step

def initial (now : UInt64) : State where
  history := []
  now := now
  unusedCfgMap := .empty
  idleTimer := .none

def machine (E : Env) (now : UInt64) : Machine State Action where
  init := initial now
  step := step E

/-! ## What one step does -/

/-- What other threads do. -/
def Foreign : Event → Prop
  | .added _ _ _ => True
  | .removed _ => True
  | .published _ _ => True
  | .requested _ _ => True
  | _ => False

/-- The steps of the sweep. -/
inductive Looks (E : Env) (s : State) : State → Prop
  | noAbility {currTime : UInt64} {it : Int × Int32} {left : List (Int × Int32)}
      (here : s.idleTimer = .identifying currTime (it :: left))
      (absent : getAbility s.history it.1 = none) :
      Looks E s { s with idleTimer := .identifying currTime left }
  | ability {currTime : UInt64} {it : Int × Int32} {ability : Nat} {left : List (Int × Int32)}
      (here : s.idleTimer = .identifying currTime (it :: left))
      (found : getAbility s.history it.1 = some ability) :
      Looks E s { s with idleTimer := .hasAbility currTime it ability left }
  | noObject {currTime : UInt64} {it : Int × Int32} {ability : Nat} {left : List (Int × Int32)}
      (here : s.idleTimer = .hasAbility currTime it ability left)
      (absent : publishObj s.history ability = none) :
      Looks E s { s with idleTimer := .identifying currTime left }
  | object {currTime : UInt64} {it : Int × Int32} {ability saStub : Nat}
      {left : List (Int × Int32)} (here : s.idleTimer = .hasAbility currTime it ability left)
      (found : publishObj s.history ability = some saStub) :
      Looks E s { s with idleTimer := .hasObject currTime it saStub left }
  | keeps {currTime : UInt64} {it : Int × Int32} {saStub : Nat} {left : List (Int × Int32)}
      (here : s.idleTimer = .hasObject currTime it saStub left)
      (inTime : exceeds currTime (lastRequestTime E s.history saStub) it.2 = false) :
      Looks E s { s with idleTimer := .identifying currTime left }
  | exceeds {currTime : UInt64} {it : Int × Int32} {saStub : Nat} {left : List (Int × Int32)}
      (here : s.idleTimer = .hasObject currTime it saStub left)
      (late : exceeds currTime (lastRequestTime E s.history saStub) it.2 = true) :
      Looks E s { s with idleTimer := .exceeded currTime it left }
  | unloads {currTime : UInt64} {it : Int × Int32} {left : List (Int × Int32)}
      (here : s.idleTimer = .exceeded currTime it left) :
      Looks E s { s with
        idleTimer := .identifying currTime left
        history := .unloaded it.1 currTime :: s.history }
  | ends {currTime : UInt64} (here : s.idleTimer = .identifying currTime []) :
      Looks E s { s with idleTimer := .waiting, history := .sweepEnds currTime :: s.history }

inductive Moves (E : Env) (s : State) : State → Prop
  | nothing : Moves E s s
  | foreign {e : Event} (other : Foreign e)
      (time : ∀ saStub time, e = .requested saStub time → time = s.now) :
      Moves E s { s with history := e :: s.history }
  | pass (milliseconds : UInt64) (small : s.now.toNat + milliseconds.toNat < UInt64.size) :
      Moves E s { s with now := s.now + milliseconds }
  | queries (off : s.idleTimer = .none) : Moves E s { s with idleTimer := .queried }
  | resident (here : s.idleTimer = .queried) : Moves E s { s with idleTimer := .none }
  | onDemand (here : s.idleTimer = .queried) (none : isResident s.history = false) :
      Moves E s { s with idleTimer := .starting, history := .notResident :: s.history }
  | unconfigured (here : s.idleTimer = .starting) :
      Moves E s { s with
        unusedCfgMap := initUnusedCfg E.overflow E.saProfileList s.unusedCfgMap
        idleTimer := .none }
  | starts (here : s.idleTimer = .starting) :
      Moves E s { s with
        unusedCfgMap := initUnusedCfg E.overflow E.saProfileList s.unusedCfgMap
        idleTimer := .waiting
        history := .timerStarted :: s.history }
  | begins (waiting : s.idleTimer = .waiting) :
      Moves E s { s with
        idleTimer := .identifying s.now s.unusedCfgMap.entries
        history := .sweepBegins s.now :: s.history }
  | looks {t : State} (sweep : Looks E s t) : Moves E s t
  | stops (waiting : s.idleTimer = .waiting) : Moves E s { s with idleTimer := .none }

theorem looks_of_look {E : Env} {s t : State} (next : look E s = some t) : Looks E s t := by
  unfold look at next
  split at next
  · rename_i here
    exact Option.some.inj next ▸ .ends here
  · rename_i here
    split at next
    · rename_i absent
      exact Option.some.inj next ▸ .noAbility here absent
    · rename_i found
      exact Option.some.inj next ▸ .ability here found
  · rename_i here
    split at next
    · rename_i absent
      exact Option.some.inj next ▸ .noObject here absent
    · rename_i found
      exact Option.some.inj next ▸ .object here found
  · rename_i here
    split at next
    · rename_i late
      exact Option.some.inj next ▸ .exceeds here late
    · rename_i inTime
      exact Option.some.inj next ▸ .keeps here (by simpa using inTime)
  · rename_i here
    exact Option.some.inj next ▸ .unloads here
  · cases next

theorem moves_startOnDemandTimer {E : Env} {s : State} (here : s.idleTimer = .starting) :
    Moves E s (startOnDemandTimer E s) := by
  simp only [startOnDemandTimer]
  split
  · exact .starts here
  · exact .unconfigured here

theorem moves_of_step {E : Env} {s t : State} {a : Action} (next : step E s a = some t) :
    Moves E s t := by
  cases a with
  | addAbility ability =>
    simp only [step] at next
    split at next
    · exact Option.some.inj next ▸ .nothing
    · split at next
      · exact Option.some.inj next ▸ .nothing
      · exact Option.some.inj next ▸ .foreign trivial (by simp)
  | removeAbility saId =>
    simp only [step] at next
    split at next
    · exact Option.some.inj next ▸ .nothing
    · exact Option.some.inj next ▸ .foreign trivial (by simp)
  | publish ability saStub => exact Option.some.inj next ▸ .foreign trivial (by simp)
  | request saStub => exact Option.some.inj next ▸ .foreign trivial (by simp)
  | pass milliseconds =>
    simp only [step] at next
    split at next
    · rename_i small
      exact Option.some.inj next ▸ .pass milliseconds small
    · cases next
  | startTimedQuery =>
    simp only [step] at next
    split at next
    · rename_i off
      split at next
      · exact Option.some.inj next ▸ .nothing
      · exact Option.some.inj next ▸ .queries off
    · cases next
  | isResident =>
    simp only [step] at next
    split at next
    · rename_i here
      split at next
      · rename_i none
        exact Option.some.inj next ▸ .onDemand here (by simpa using none)
      · exact Option.some.inj next ▸ .resident here
    · cases next
  | startOnDemandTimer =>
    simp only [step] at next
    split at next
    · rename_i here
      exact Option.some.inj next ▸ moves_startOnDemandTimer here
    · cases next
  | identifyUnusedOndemand samgr =>
    simp only [step] at next
    split at next
    · rename_i waiting
      cases samgr with
      | false => exact Option.some.inj next ▸ .nothing
      | true => exact Option.some.inj next ▸ .begins waiting
    · cases next
  | look => exact .looks (looks_of_look next)
  | stopTimedQuery =>
    simp only [step] at next
    split at next
    · exact Option.some.inj next ▸ .nothing
    · rename_i waiting
      exact Option.some.inj next ▸ .stops waiting
    · cases next

end IdleTimer
