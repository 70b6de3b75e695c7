import Safwk.AbilityLifecycle
import Safwk.ManagerStub
import Safwk.StartReason
import Safwk.TrustedAbilities

/-!
# Requests from samgr to abilities

A request to start or stop an ability stores its reason and leaves the rest to a
detached thread: the thread loads the library, waits until the ability has
registered, looks it up and calls `Start` or `Stop` on what it finds. The reason is
read later still, inside `Start` and `Stop`, by the id of the ability. `IdleAbility`
and `ActiveAbility` take the reason along and call the ability on the thread of the
request.

An ability is an object with its own lifecycle; it may be taken out of
`localAbilityMap_` while threads are inside it. Any number of threads run in any
order. What is under one lock is one step, and so is what lies between two locks.
`stored` and the numbers that threads carry are not in the program: they record
which requests there were, so that a reason can be traced back to the request it
came from.

The results of the requests are left out: `StartAbility` and `StopAbility` return
true, the others fail exactly if `GetAbility` finds nothing.
-/

namespace AbilityRequests

open Transition StartReason

/-- An ability in memory. -/
abbrev Object := Nat

/-- `saIdOf` is the `saId_` of an object, which is set when it is built. -/
structure Env where
  saIdOf : Object → Int32
  stringToJsonObj : StdString → Json
  undefined : ℚ → Int

/-- The two calls that fetch their reason from the manager. -/
inductive Kind where
  | start
  | stop
  deriving DecidableEq

inductive Callback where
  | onStart
  | onStop
  | onIdle
  | onActive
  deriving DecidableEq

def Kind.callback : Kind → Callback
  | start => .onStart
  | stop => .onStop

def Kind.operation : Kind → AbilityLifecycle.Operation
  | start => .start
  | stop => .stop

/-- Where the call has passed its check and fetches the reason. -/
def Kind.ready : Kind → AbilityLifecycle.Pc
  | start => .startReady
  | stop => .stopReady

/-- `saIdToStartReason_` or `saIdToStopReason_`, and everything ever stored in it, the
oldest first. -/
structure Reasons where
  map : Int32 → Option Json
  stored : Int32 → List Json

/-- `SetStartReason` and `SetStopReason` -/
def Reasons.set (reasons : Reasons) (saId : Int32) (event : Json) : Reasons where
  map := Function.update reasons.map saId (some event)
  stored := Function.update reasons.stored saId (reasons.stored saId ++ [event])

/-- `GetStartReason` and `GetStopReason`: `operator[]` adds a null value for an id that
has none. -/
def Reasons.get (reasons : Reasons) (saId : Int32) : Json × Reasons :=
  match reasons.map saId with
  | some event => (event, reasons)
  | none => (.null, { reasons with map := Function.update reasons.map saId (some .null) })

/-- What a thread inside an ability is about. `request` is the number of its request among
those of the ability, if it came with one; `seen` is how many there were when the reason
was read. -/
inductive Job where
  | called (kind : Kind) (request : Option Nat)
  | holding (callback : Callback) (request : Option Nat) (seen : Nat) (json : Json)
  | running

inductive Pc where
  | outside
  /-- In the `LoadSaLib` of `StartOndemandSystemAbility`. -/
  | loading (saId : Int32) (request : Nat)
  | waiting (saId : Int32) (request timeout : Nat)
  /-- `OnStartAbility` or `OnStopAbility` before `GetAbility`. -/
  | looking (kind : Kind) (saId : Int32) (request : Nat)
  /-- In a call on an ability, whose lifecycle says where. -/
  | inside (object : Object) (job : Job)

/-- A callback with the reason it was given. -/
structure Given where
  object : Object
  callback : Callback
  request : Option Nat
  reason : SystemAbilityOnDemandReason

/-- The callbacks that have no part in the lifecycle. -/
inductive Message where
  | onDeviceLevelChanged (type level : Int32) (action : StdString)
  | onExtension (extension : StdString)
  | onSvcCmd (fd : Int32) (args : List ManagerStub.U16String)
  deriving DecidableEq

structure State where
  localAbilityMap : Int32 → Option Object
  startReasons : Reasons
  stopReasons : Reasons
  lifecycle : Object → AbilityLifecycle.State
  threads : List Pc
  /-- Newest first. -/
  given : List Given
  /-- Newest first. -/
  messages : List (Object × Message)

def State.reasons (s : State) : Kind → Reasons
  | .start => s.startReasons
  | .stop => s.stopReasons

def State.setReasons (s : State) (reasons : Reasons) : Kind → State
  | .start => { s with startReasons := reasons }
  | .stop => { s with stopReasons := reasons }

section SetReasons

variable (s : State) (reasons : Reasons) (kind : Kind)

@[simp] theorem setReasons_localAbilityMap :
    (s.setReasons reasons kind).localAbilityMap = s.localAbilityMap := by cases kind <;> rfl

@[simp] theorem setReasons_lifecycle :
    (s.setReasons reasons kind).lifecycle = s.lifecycle := by cases kind <;> rfl

@[simp] theorem setReasons_threads :
    (s.setReasons reasons kind).threads = s.threads := by cases kind <;> rfl

@[simp] theorem setReasons_given :
    (s.setReasons reasons kind).given = s.given := by cases kind <;> rfl

@[simp] theorem setReasons_reasons :
    (s.setReasons reasons kind).reasons = Function.update s.reasons kind reasons := by
  funext other
  cases kind <;> cases other <;> rfl

end SetReasons

inductive Action where
  /-- `SetStartReason` from the main function. -/
  | setStartReason (saId : Int32) (event : Json)
  /-- `StartAbility`; `i` is the detached thread. -/
  | startAbility (i : Nat) (saId : Int32) (eventStr : StdString)
  | stopAbility (i : Nat) (saId : Int32) (eventStr : StdString)
  | idleAbility (i : Nat) (saId : Int32) (idleReason : Json)
  | activeAbility (i : Nat) (saId : Int32) (activeReason : Json)
  /-- `SendStrategyToSA`, `SystemAbilityExtProc` and `ServiceControlCmd` -/
  | deliver (saId : Int32) (message : Message)
  /-- A task of a boot phase calls `Start`. -/
  | startTask (i : Nat) (object : Object)
  /-- `found` says whether the parser has a profile. -/
  | addAbility (object : Object) (found : Bool)
  | removeAbility (saId : Int32)
  | loadSaLib (i : Nat) (isExist : Bool)
  | poll (i : Nat)
  | getAbility (i : Nat)
  | getReason (i : Nat)
  /-- A step of thread `i` inside its ability. `memory` and `samgrProxy` are for the
  reason it may build. -/
  | inner (i : Nat) (a : AbilityLifecycle.Action) (memory : Int32) (samgrProxy : Option Samgr)
  | publishElsewhere (object : Object) (c : AbilityLifecycle.PublishCall)

/-- The thread that a step inside an ability belongs to. -/
def mover : AbilityLifecycle.Action → Option Nat
  | .call _ _ => none
  | .lock i => some i
  | .unlock i => some i
  | .advance i => some i
  | .onIdleReturns i _ => some i
  | .publish i _ => some i
  | .publishElsewhere _ => none

/-- The callback that begins when a thread goes from one place to the next. -/
def begins : AbilityLifecycle.Pc → AbilityLifecycle.Pc → Option Callback
  | .startReady, .onStart _ => some .onStart
  | .stopReady, .onStop => some .onStop
  | .idleCheck, .onIdle => some .onIdle
  | .activeCheck, .onActive => some .onActive
  | _, _ => none

section Step

variable (E : Env)

/-- The reason that a callback is given for a JSON value. -/
def build (memory : Int32) (samgrProxy : Option Samgr) (json : Json) :
    SystemAbilityOnDemandReason :=
  (getOnDemandReasonExtraData samgrProxy (jsonToOnDemandReason E.undefined memory json)).1

/-- A request thread is created if thread `i` is not in use. -/
def spawn (s : State) (i : Nat) (pc : Pc) : Option State :=
  match s.threads[i]? with
  | some .outside => some { s with threads := s.threads.set i pc }
  | _ => none

/-- Thread `i` calls the ability. -/
def call (s : State) (i : Nat) (object : Object) (operation : AbilityLifecycle.Operation)
    (job : Job) : Option State :=
  match AbilityLifecycle.step (s.lifecycle object) (.call i operation) with
  | none => none
  | some lifecycle =>
    some { s with
      lifecycle := Function.update s.lifecycle object lifecycle
      threads := s.threads.set i (.inside object job) }

/-- `IdleAbility` and `ActiveAbility` -/
def callNow (s : State) (i : Nat) (saId : Int32) (operation : AbilityLifecycle.Operation)
    (callback : Callback) (reason : Json) : Option State :=
  match s.threads[i]? with
  | some .outside =>
    match s.localAbilityMap saId with
    | none => some s
    | some object => call s i object operation (.holding callback none 0 reason)
  | _ => none

/-- The number that the next request of this kind gets. -/
def State.requests (s : State) (kind : Kind) (saId : Int32) : Nat :=
  ((s.reasons kind).stored saId).length

/-- Where a thread is after a step inside its ability. -/
def leave (object : Object) (job : Job) : AbilityLifecycle.Pc → Pc
  | .outside => .outside
  | _ => .inside object job

/-- A callback begins with the reason that the thread holds, and only then. -/
def advanceInside (s : State) (i : Nat) (a : AbilityLifecycle.Action) (memory : Int32)
    (samgrProxy : Option Samgr) : Option State :=
  match s.threads[i]? with
  | some (.inside object job) =>
    match (s.lifecycle object).threads[i]?, AbilityLifecycle.step (s.lifecycle object) a with
    | some before, some lifecycle =>
      match lifecycle.threads[i]? with
      | some after =>
        match begins before after, job with
        | none, job =>
          some { s with
            lifecycle := Function.update s.lifecycle object lifecycle
            threads := s.threads.set i (leave object job after) }
        | some callback, .holding _ request _ json =>
          some { s with
            lifecycle := Function.update s.lifecycle object lifecycle
            threads := s.threads.set i (leave object .running after)
            given := ⟨object, callback, request, build E memory samgrProxy json⟩ :: s.given }
        | some _, _ => none
      | none => none
    | _, _ => none
  | _ => none

def step (s : State) : Action → Option State
  | .setStartReason saId event => some (s.setReasons (s.startReasons.set saId event) .start)
  | .startAbility i saId eventStr =>
    spawn (s.setReasons (s.startReasons.set saId (E.stringToJsonObj eventStr)) .start) i
      (.loading saId (s.requests .start saId))
  | .stopAbility i saId eventStr =>
    spawn (s.setReasons (s.stopReasons.set saId (E.stringToJsonObj eventStr)) .stop) i
      (.looking .stop saId (s.requests .stop saId))
  | .idleAbility i saId idleReason => callNow s i saId .idle .onIdle idleReason
  | .activeAbility i saId activeReason => callNow s i saId .active .onActive activeReason
  | .deliver saId message =>
    match s.localAbilityMap saId with
    | none => some s
    | some object => some { s with messages := (object, message) :: s.messages }
  | .startTask i object =>
    match s.threads[i]? with
    | some .outside => call s i object .start (.called .start none)
    | _ => none
  | .addAbility object found =>
    if found = false then some s
    else
      match s.localAbilityMap (E.saIdOf object) with
      | some _ => some s
      | none =>
        some { s with
          localAbilityMap := Function.update s.localAbilityMap (E.saIdOf object) (some object) }
  | .removeAbility saId =>
    if saId ≤ 0 then some s
    else some { s with localAbilityMap := Function.update s.localAbilityMap saId none }
  | .loadSaLib i isExist =>
    match s.threads[i]? with
    | some (.loading saId request) =>
      if isExist = false then some { s with threads := s.threads.set i .outside }
      else
        some { s with threads :=
          s.threads.set i (.waiting saId request TrustedAbilities.retryTimesForOndemand) }
    | _ => none
  | .poll i =>
    match s.threads[i]? with
    | some (.waiting _ _ 0) => some { s with threads := s.threads.set i .outside }
    | some (.waiting saId request (timeout + 1)) =>
      match s.localAbilityMap saId with
      | some _ => some { s with threads := s.threads.set i (.looking .start saId request) }
      | none => some { s with threads := s.threads.set i (.waiting saId request timeout) }
    | _ => none
  | .getAbility i =>
    match s.threads[i]? with
    | some (.looking kind saId request) =>
      match s.localAbilityMap saId with
      | none => some { s with threads := s.threads.set i .outside }
      | some object => call s i object kind.operation (.called kind (some request))
    | _ => none
  | .getReason i =>
    match s.threads[i]? with
    | some (.inside object (.called kind request)) =>
      if (s.lifecycle object).threads[i]? = some kind.ready then
        let saId := E.saIdOf object
        let (json, reasons) := (s.reasons kind).get saId
        let held := .holding kind.callback request (s.requests kind saId) json
        some { s.setReasons reasons kind with
          threads := s.threads.set i (.inside object held) }
      else none
    | _ => none
  | .inner i a memory samgrProxy =>
    if mover a = some i then advanceInside E s i a memory samgrProxy else none
  | .publishElsewhere object c =>
    match AbilityLifecycle.step (s.lifecycle object) (.publishElsewhere c) with
    | none => none
    | some lifecycle =>
      some { s with lifecycle := Function.update s.lifecycle object lifecycle }

end Step

/-- Nothing is registered, nothing stored, and no thread is in use. -/
def initial (n : Nat) : State where
  localAbilityMap := fun _ => none
  startReasons := ⟨fun _ => none, fun _ => []⟩
  stopReasons := ⟨fun _ => none, fun _ => []⟩
  lifecycle := fun _ => AbilityLifecycle.initial n
  threads := List.replicate n .outside
  given := []
  messages := []

def machine (E : Env) (n : Nat) : Machine State Action where
  init := initial n
  step := step E

/-- Every ability has id 401, and a text is stored as it is: for closed runs. -/
def oneAbility : Env where
  saIdOf := fun _ => 401
  stringToJsonObj := Json.string
  undefined := fun _ => 0

/-! ## What one step does -/

/-- The places that one step of a thread inside an ability connects. -/
inductive Goes : AbilityLifecycle.Pc → AbilityLifecycle.Pc → Prop
  | lock : Goes .startEnter .startCheck
  | startPasses : Goes .startCheck .startReady
  | startRefused : Goes .startCheck .startExit
  | onStart : Goes .startReady (.onStart false)
  | publish (published published' : Bool) : Goes (.onStart published) (.onStart published')
  | onStartEnds (published : Bool) : Goes (.onStart published) .startFinal
  | startWrites : Goes .startFinal .startExit
  | unlock : Goes .startExit .outside
  | onIdle : Goes .idleCheck .onIdle
  | idleRefused : Goes .idleCheck .outside
  | onIdleReturns (delayTime : Int) : Goes .onIdle (.idleFinal delayTime)
  | idleWrites (delayTime : Int) : Goes (.idleFinal delayTime) .outside
  | onActive : Goes .activeCheck .onActive
  | activeRefused : Goes .activeCheck .outside
  | onActiveEnds : Goes .onActive .activeFinal
  | activeWrites : Goes .activeFinal .outside
  | stopPasses : Goes .stopCheck .stopReady
  | stopRefused : Goes .stopCheck .outside
  | onStop : Goes .stopReady .onStop
  | onStopEnds : Goes .onStop .stopFinal
  | stopWrites : Goes .stopFinal .outside

theorem goes_of_advance {a b : AbilityLifecycle.Ability} {pc pc' : AbilityLifecycle.Pc}
    {events : List AbilityLifecycle.Event}
    (next : AbilityLifecycle.advance a pc = some (b, pc', events)) : Goes pc pc' := by
  cases pc with
  | outside | startEnter | startExit | onIdle => cases next
  | startCheck | idleCheck | idleFinal | activeCheck | stopCheck =>
    simp only [AbilityLifecycle.advance] at next
    split at next <;> cases next <;> constructor
  | startReady | onStart | startFinal | onActive | activeFinal | stopReady | onStop
  | stopFinal => cases next; constructor

/-- A step of thread `i` inside an ability moves that thread and no other. -/
theorem goes_of_step {l l' : AbilityLifecycle.State} {a : AbilityLifecycle.Action} {i : Nat}
    (mine : mover a = some i) (next : AbilityLifecycle.step l a = some l') :
    ∃ before after, l.threads[i]? = some before ∧ l'.threads = l.threads.set i after ∧
      Goes before after := by
  cases AbilityLifecycle.moves_of_step next with
  | call operation found => cases mine
  | lock found free =>
    cases mine
    exact ⟨_, _, found, rfl, .lock⟩
  | unlock found =>
    cases mine
    exact ⟨_, _, found, rfl, .unlock⟩
  | advance found moved =>
    cases mine
    exact ⟨_, _, found, rfl, goes_of_advance moved⟩
  | onIdleReturns delayTime found =>
    cases mine
    exact ⟨_, _, found, rfl, .onIdleReturns delayTime⟩
  | publish c found =>
    cases mine
    exact ⟨_, _, found, rfl, .publish _ _⟩
  | publishElsewhere c => cases mine

/-- The state after thread `i` has called the ability. -/
def State.called (s : State) (i : Nat) (object : Object) (operation : AbilityLifecycle.Operation)
    (job : Job) : State :=
  let lifecycle := s.lifecycle object
  { s with
    lifecycle := Function.update s.lifecycle object
      { lifecycle with threads := lifecycle.threads.set i (AbilityLifecycle.entry operation) }
    threads := s.threads.set i (.inside object job) }

theorem call_eq {s t : State} {i : Nat} {object : Object}
    {operation : AbilityLifecycle.Operation} {job : Job}
    (result : call s i object operation job = some t) :
    (s.lifecycle object).threads[i]? = some .outside ∧ t = s.called i object operation job := by
  rw [call] at result
  split at result
  · cases result
  · rename_i lifecycle next
    cases result
    cases AbilityLifecycle.moves_of_step next with
    | call operation found => exact ⟨found, rfl⟩

theorem call_of_outside {s : State} {i : Nat} {object : Object}
    (found : (s.lifecycle object).threads[i]? = some .outside)
    (operation : AbilityLifecycle.Operation) (job : Job) :
    call s i object operation job = some (s.called i object operation job) := by
  simp only [call, AbilityLifecycle.step, found]
  rfl

/-- The requests that may find nothing to do. -/
def Action.mayDoNothing : Action → Bool
  | .idleAbility _ _ _ => true
  | .activeAbility _ _ _ => true
  | .deliver _ _ => true
  | .addAbility _ _ => true
  | .removeAbility _ => true
  | _ => false

inductive Moves (E : Env) : State → Action → State → Prop
  | nothing {s : State} {a : Action} (possible : a.mayDoNothing = true)
      (ignored : step E s a = some s) : Moves E s a s
  | setStartReason {s : State} (saId : Int32) (event : Json) :
      Moves E s (.setStartReason saId event)
        { s with startReasons := s.startReasons.set saId event }
  | startAbility {s : State} {i : Nat} (saId : Int32) (eventStr : StdString)
      (found : s.threads[i]? = some .outside) :
      Moves E s (.startAbility i saId eventStr) { s with
        startReasons := s.startReasons.set saId (E.stringToJsonObj eventStr)
        threads := s.threads.set i (.loading saId (s.requests .start saId)) }
  | stopAbility {s : State} {i : Nat} (saId : Int32) (eventStr : StdString)
      (found : s.threads[i]? = some .outside) :
      Moves E s (.stopAbility i saId eventStr) { s with
        stopReasons := s.stopReasons.set saId (E.stringToJsonObj eventStr)
        threads := s.threads.set i (.looking .stop saId (s.requests .stop saId)) }
  | idleAbility {s : State} {i : Nat} {saId : Int32} {object : Object} (idleReason : Json)
      (found : s.threads[i]? = some .outside) (registered : s.localAbilityMap saId = some object)
      (free : (s.lifecycle object).threads[i]? = some .outside) :
      Moves E s (.idleAbility i saId idleReason)
        (s.called i object .idle (.holding .onIdle none 0 idleReason))
  | activeAbility {s : State} {i : Nat} {saId : Int32} {object : Object} (activeReason : Json)
      (found : s.threads[i]? = some .outside) (registered : s.localAbilityMap saId = some object)
      (free : (s.lifecycle object).threads[i]? = some .outside) :
      Moves E s (.activeAbility i saId activeReason)
        (s.called i object .active (.holding .onActive none 0 activeReason))
  | deliver {s : State} {saId : Int32} {object : Object} (message : Message)
      (registered : s.localAbilityMap saId = some object) :
      Moves E s (.deliver saId message) { s with messages := (object, message) :: s.messages }
  | startTask {s : State} {i : Nat} {object : Object} (found : s.threads[i]? = some .outside)
      (free : (s.lifecycle object).threads[i]? = some .outside) :
      Moves E s (.startTask i object) (s.called i object .start (.called .start none))
  | addAbility {s : State} {object : Object}
      (fresh : s.localAbilityMap (E.saIdOf object) = none) :
      Moves E s (.addAbility object true) { s with
        localAbilityMap := Function.update s.localAbilityMap (E.saIdOf object) (some object) }
  | removeAbility {s : State} {saId : Int32} (valid : ¬saId ≤ 0) :
      Moves E s (.removeAbility saId)
        { s with localAbilityMap := Function.update s.localAbilityMap saId none }
  | loadFails {s : State} {i : Nat} {saId : Int32} {request : Nat}
      (found : s.threads[i]? = some (.loading saId request)) :
      Moves E s (.loadSaLib i false) { s with threads := s.threads.set i .outside }
  | loads {s : State} {i : Nat} {saId : Int32} {request : Nat}
      (found : s.threads[i]? = some (.loading saId request)) :
      Moves E s (.loadSaLib i true) { s with
        threads :=
          s.threads.set i (.waiting saId request TrustedAbilities.retryTimesForOndemand) }
  | timesOut {s : State} {i : Nat} {saId : Int32} {request : Nat}
      (found : s.threads[i]? = some (.waiting saId request 0)) :
      Moves E s (.poll i) { s with threads := s.threads.set i .outside }
  | appears {s : State} {i : Nat} {saId : Int32} {request timeout : Nat} {object : Object}
      (found : s.threads[i]? = some (.waiting saId request (timeout + 1)))
      (registered : s.localAbilityMap saId = some object) :
      Moves E s (.poll i) { s with threads := s.threads.set i (.looking .start saId request) }
  | waits {s : State} {i : Nat} {saId : Int32} {request timeout : Nat}
      (found : s.threads[i]? = some (.waiting saId request (timeout + 1)))
      (missing : s.localAbilityMap saId = none) :
      Moves E s (.poll i) { s with threads := s.threads.set i (.waiting saId request timeout) }
  | notFound {s : State} {i : Nat} {kind : Kind} {saId : Int32} {request : Nat}
      (found : s.threads[i]? = some (.looking kind saId request))
      (missing : s.localAbilityMap saId = none) :
      Moves E s (.getAbility i) { s with threads := s.threads.set i .outside }
  | getAbility {s : State} {i : Nat} {kind : Kind} {saId : Int32} {request : Nat}
      {object : Object} (found : s.threads[i]? = some (.looking kind saId request))
      (registered : s.localAbilityMap saId = some object)
      (free : (s.lifecycle object).threads[i]? = some .outside) :
      Moves E s (.getAbility i) (s.called i object kind.operation (.called kind (some request)))
  | getReason {s : State} {i : Nat} {object : Object} {kind : Kind} {request : Option Nat}
      (found : s.threads[i]? = some (.inside object (.called kind request)))
      (ready : (s.lifecycle object).threads[i]? = some kind.ready) :
      Moves E s (.getReason i)
        { s.setReasons ((s.reasons kind).get (E.saIdOf object)).2 kind with
          threads := s.threads.set i (.inside object (.holding kind.callback request
            (s.requests kind (E.saIdOf object)) ((s.reasons kind).get (E.saIdOf object)).1)) }
  | quiet {s : State} {i : Nat} {object : Object} {job : Job} {a : AbilityLifecycle.Action}
      {lifecycle : AbilityLifecycle.State} {before after : AbilityLifecycle.Pc}
      (memory : Int32) (samgrProxy : Option Samgr)
      (found : s.threads[i]? = some (.inside object job)) (mine : mover a = some i)
      (next : AbilityLifecycle.step (s.lifecycle object) a = some lifecycle)
      (was : (s.lifecycle object).threads[i]? = some before)
      (moved : lifecycle.threads = (s.lifecycle object).threads.set i after)
      (goes : Goes before after) (silent : begins before after = none) :
      Moves E s (.inner i a memory samgrProxy) { s with
        lifecycle := Function.update s.lifecycle object lifecycle
        threads := s.threads.set i (leave object job after) }
  | callback {s : State} {i : Nat} {object : Object} {held callback : Callback}
      {request : Option Nat} {seen : Nat} {json : Json} {a : AbilityLifecycle.Action}
      {lifecycle : AbilityLifecycle.State} {before after : AbilityLifecycle.Pc}
      (memory : Int32) (samgrProxy : Option Samgr)
      (found : s.threads[i]? = some (.inside object (.holding held request seen json)))
      (mine : mover a = some i)
      (next : AbilityLifecycle.step (s.lifecycle object) a = some lifecycle)
      (was : (s.lifecycle object).threads[i]? = some before)
      (moved : lifecycle.threads = (s.lifecycle object).threads.set i after)
      (goes : Goes before after) (starts : begins before after = some callback) :
      Moves E s (.inner i a memory samgrProxy) { s with
        lifecycle := Function.update s.lifecycle object lifecycle
        threads := s.threads.set i (leave object .running after)
        given := ⟨object, callback, request, build E memory samgrProxy json⟩ :: s.given }
  | publishElsewhere {s : State} {object : Object} {lifecycle : AbilityLifecycle.State}
      (c : AbilityLifecycle.PublishCall)
      (next : AbilityLifecycle.step (s.lifecycle object) (.publishElsewhere c) = some lifecycle) :
      Moves E s (.publishElsewhere object c)
        { s with lifecycle := Function.update s.lifecycle object lifecycle }

theorem moves_callNow {s t : State} {i : Nat} {saId : Int32}
    {operation : AbilityLifecycle.Operation} {callback : Callback} {reason : Json}
    (result : callNow s i saId operation callback reason = some t) :
    t = s ∨ ∃ object, s.threads[i]? = some .outside ∧ s.localAbilityMap saId = some object ∧
      (s.lifecycle object).threads[i]? = some .outside ∧
      t = s.called i object operation (.holding callback none 0 reason) := by
  rw [callNow] at result
  split at result
  · rename_i found
    split at result
    · exact Or.inl (Option.some.inj result).symm
    · rename_i object registered
      obtain ⟨free, rfl⟩ := call_eq result
      exact Or.inr ⟨object, found, registered, free, rfl⟩
  · cases result

theorem moves_advanceInside {E : Env} {s t : State} {i : Nat} {a : AbilityLifecycle.Action}
    {memory : Int32} {samgrProxy : Option Samgr} (mine : mover a = some i)
    (result : advanceInside E s i a memory samgrProxy = some t) :
    Moves E s (.inner i a memory samgrProxy) t := by
  rw [advanceInside] at result
  split at result
  · rename_i object job found
    split at result
    · rename_i before lifecycle was next
      obtain ⟨before', after, was', moved, goes⟩ := goes_of_step mine next
      obtain rfl : before = before' := Option.some.inj (was.symm.trans was')
      have inside := (List.getElem?_eq_some_iff.mp was).1
      have now : lifecycle.threads[i]? = some after := by
        rw [moved]
        exact List.getElem?_set_self inside
      simp only [now] at result
      split at result
      · rename_i silent
        cases result
        exact .quiet memory samgrProxy found mine next was moved goes silent
      · rename_i starts
        cases result
        exact .callback memory samgrProxy found mine next was moved goes starts
      · cases result
    · cases result
  · cases result

theorem moves_of_step {E : Env} {s t : State} {a : Action} (next : step E s a = some t) :
    Moves E s a t := by
  cases a with
  | setStartReason saId event => exact Option.some.inj next ▸ .setStartReason saId event
  | startAbility i saId eventStr =>
    simp only [step, spawn] at next
    split at next
    · rename_i found
      exact Option.some.inj next ▸ .startAbility saId eventStr found
    · cases next
  | stopAbility i saId eventStr =>
    simp only [step, spawn] at next
    split at next
    · rename_i found
      exact Option.some.inj next ▸ .stopAbility saId eventStr found
    · cases next
  | idleAbility i saId idleReason =>
    rcases moves_callNow next with same | ⟨object, found, registered, free, rfl⟩
    · subst same
      exact .nothing rfl next
    · exact .idleAbility idleReason found registered free
  | activeAbility i saId activeReason =>
    rcases moves_callNow next with same | ⟨object, found, registered, free, rfl⟩
    · subst same
      exact .nothing rfl next
    · exact .activeAbility activeReason found registered free
  | deliver saId message =>
    have ran := next
    simp only [step] at next
    split at next
    · cases next
      exact .nothing rfl ran
    · rename_i registered
      exact Option.some.inj next ▸ .deliver message registered
  | startTask i object =>
    simp only [step] at next
    split at next
    · rename_i found
      obtain ⟨free, rfl⟩ := call_eq next
      exact .startTask found free
    · cases next
  | addAbility object found =>
    have ran := next
    simp only [step] at next
    split at next
    · cases next
      exact .nothing rfl ran
    · rename_i profile
      split at next
      · cases next
        exact .nothing rfl ran
      · rename_i fresh
        obtain rfl : found = true := by simpa using profile
        exact Option.some.inj next ▸ .addAbility fresh
  | removeAbility saId =>
    have ran := next
    simp only [step] at next
    split at next
    · cases next
      exact .nothing rfl ran
    · rename_i valid
      exact Option.some.inj next ▸ .removeAbility valid
  | loadSaLib i isExist =>
    simp only [step] at next
    split at next
    · rename_i found
      cases isExist with
      | false => exact Option.some.inj next ▸ .loadFails found
      | true => exact Option.some.inj next ▸ .loads found
    · cases next
  | poll i =>
    simp only [step] at next
    split at next
    · rename_i found
      exact Option.some.inj next ▸ .timesOut found
    · rename_i found
      split at next
      · rename_i registered
        exact Option.some.inj next ▸ .appears found registered
      · rename_i missing
        exact Option.some.inj next ▸ .waits found missing
    · cases next
  | getAbility i =>
    simp only [step] at next
    split at next
    · rename_i found
      split at next
      · rename_i missing
        exact Option.some.inj next ▸ .notFound found missing
      · rename_i registered
        obtain ⟨free, rfl⟩ := call_eq next
        exact .getAbility found registered free
    · cases next
  | getReason i =>
    simp only [step] at next
    split at next
    · rename_i object kind request found
      split at next
      · rename_i ready
        exact Option.some.inj next ▸ .getReason found ready
      · cases next
    · cases next
  | inner i a memory samgrProxy =>
    simp only [step] at next
    split at next
    · rename_i mine
      exact moves_advanceInside mine next
    · cases next
  | publishElsewhere object c =>
    simp only [step] at next
    split at next
    · cases next
    · rename_i advanced
      exact Option.some.inj next ▸ .publishElsewhere c advanced

theorem step_of_moves {E : Env} {s t : State} {a : Action} (move : Moves E s a t) :
    step E s a = some t := by
  cases move with
  | nothing possible ignored => exact ignored
  | setStartReason saId event => rfl
  | startAbility saId eventStr found => simp only [step, spawn, setReasons_threads, found]; rfl
  | stopAbility saId eventStr found => simp only [step, spawn, setReasons_threads, found]; rfl
  | idleAbility idleReason found registered free =>
    simp only [step, callNow, found, registered, call_of_outside free]
  | activeAbility activeReason found registered free =>
    simp only [step, callNow, found, registered, call_of_outside free]
  | deliver message registered => simp only [step, registered]
  | startTask found free => simp only [step, found, call_of_outside free]
  | addAbility fresh => simp only [step, fresh, Bool.true_eq_false, if_false]
  | removeAbility valid => simp only [step, if_neg valid]
  | loadFails found => simp only [step, found, if_true]
  | loads found => simp only [step, found, Bool.true_eq_false, if_false]
  | timesOut found => simp only [step, found]
  | appears found registered => simp only [step, found, registered]
  | waits found missing => simp only [step, found, missing]
  | notFound found missing => simp only [step, found, missing]
  | getAbility found registered free =>
    simp only [step, found, registered, call_of_outside free]
  | getReason found ready => simp only [step, found, ready, if_true]
  | @quiet i object job a lifecycle before after memory samgrProxy found mine next was moved goes
      silent =>
    have now : lifecycle.threads[i]? = some after := by
      rw [moved, List.getElem?_set_self (List.getElem?_eq_some_iff.mp was).1]
    simp only [step, mine, if_true, advanceInside, found, was, next, now, silent]
  | @callback i object held callback request seen json a lifecycle before after memory samgrProxy
      found mine next was moved goes starts =>
    have now : lifecycle.threads[i]? = some after := by
      rw [moved, List.getElem?_set_self (List.getElem?_eq_some_iff.mp was).1]
    simp only [step, mine, if_true, advanceInside, found, was, next, now, starts]
  | publishElsewhere c next => simp only [step, next]

end AbilityRequests
