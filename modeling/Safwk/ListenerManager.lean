import Safwk.ListenerTable

/-!
# Calls on the table of listeners

The manager is the table, the set of abilities this process is subscribed to
at samgr, and a log of what happened, newest first. A call is a section under
`listenerLock_`, with the effects it leaves to do after the section. The
answers of samgr are data of the call: whether there is a proxy, what
`CheckSystemAbility` finds, and what `SubscribeSystemAbility` and
`UnSubscribeSystemAbility` return.

samgr keeps one subscription for the one status-change object of the process:
subscribing twice and unsubscribing twice change nothing, and a call that
returns an error changes nothing either.
-/

namespace ListenerManager

open ListenerTable

/-- A process with the id range of samgr and every ability loaded. -/
def anyProcess : Process := ⟨1, 0xffffff, fun _ => true⟩

inductive Event
  /-- A listener was pushed to the list of the watched ability. -/
  | registered (systemAbilityId listenerSaId : Int)
  /-- The entry of the watched ability was created or erased. -/
  | entryChanged (systemAbilityId : Int)
  | removeSystemAbilityListener (systemAbilityId listenerSaId : Int)
  | findAndNotifyAbilityListeners (systemAbilityId : Int) (code : Code)
  /-- `NotifyAbilityListener` was called; `called` when it found the ability and
  the code names one of its callbacks. -/
  | notifyAbilityListener (systemAbilityId listenerSaId : Int) (code : Code) (called : Bool)
  /-- `SubscribeSystemAbility` or `UnSubscribeSystemAbility` succeeded. -/
  | samgrDone (systemAbilityId : Int)
  deriving DecidableEq

structure Manager where
  localListenerMap : ListenerMap
  subscribed : Int → Bool
  log : List Event

def start : Manager where
  localListenerMap := fun _ => none
  subscribed := fun _ => false
  log := []

/-- The process is subscribed to the ability exactly when the table has an entry. -/
def Agree (s : Int) (m : Manager) : Prop := m.subscribed s = (m.localListenerMap s).isSome

instance (s : Int) (m : Manager) : Decidable (Agree s m) :=
  inferInstanceAs (Decidable (m.subscribed s = (m.localListenerMap s).isSome))

/-- What a call does after its section. -/
inductive Effect
  | notifyAbilityListener (listenerSaId : Int) (code : Code)
  | subscribeSystemAbility
  | unSubscribeSystemAbility
  deriving DecidableEq

inductive Call
  | addSystemAbilityListener (systemAbilityId listenerSaId : Int)
  | removeSystemAbilityListener (systemAbilityId listenerSaId : Int)
  | findAndNotifyAbilityListeners (systemAbilityId : Int) (code : Code)
  deriving DecidableEq

/-- The watched ability of a call. -/
def Call.about : Call → Int
  | .addSystemAbilityListener s _ => s
  | .removeSystemAbilityListener s _ => s
  | .findAndNotifyAbilityListeners s _ => s

/-- `AddSystemAbilityListener` or `RemoveSystemAbilityListener` for the ability. -/
def Concerns (s : Int) : Call → Prop
  | .addSystemAbilityListener s' _ => s' = s
  | .removeSystemAbilityListener s' _ => s' = s
  | .findAndNotifyAbilityListeners _ _ => False

/-- The manager after a section, the effects left to do, and what the call
returns unless one of them fails. -/
structure Section where
  manager : Manager
  effects : List Effect
  result : Bool

/-- The call returned before it took the lock. -/
def refuse (m : Manager) : Section := ⟨m, [], false⟩

/-! ## The three calls up to the end of their section -/

def addEvents (map : ListenerMap) (s l : Int) : List Event :=
  (if listed map s l then [] else [.registered s l]) ++
    (if (map s).isNone then [.entryChanged s] else [])

def addEffects (added : Added) (l : Int) : List Effect :=
  if 1 < added.listenerListSize then
    if added.isNeedNotify then [.notifyAbilityListener l .onAddSystemAbility] else []
  else [.subscribeSystemAbility]

def enterAdd (m : Manager) (s l : Int) (object : Bool) : Section :=
  let added := addSection m.localListenerMap s l object
  ⟨{ m with localListenerMap := added.map, log := addEvents m.localListenerMap s l ++ m.log },
    addEffects added l, true⟩

/-- `samgrProxy` is what `CheckSystemAbility` answers, if there is a proxy. -/
def addSystemAbilityListener (P : Process) (m : Manager) (s l : Int)
    (samgrProxy : Option Bool) : Section :=
  if !checkInputSysAbilityId P s || !checkInputSysAbilityId P l then refuse m
  else
    match samgrProxy with
    | none => refuse m
    | some object => enterAdd m s l object

def enterRemove (m : Manager) (s l : Int) : Section :=
  let removed := removeSection m.localListenerMap s l
  ⟨{ m with
      localListenerMap := removed.map
      log := (if removed.erased then [.entryChanged s] else []) ++
        .removeSystemAbilityListener s l :: m.log },
    if removed.erased then [.unSubscribeSystemAbility] else [], true⟩

def removeSystemAbilityListener (P : Process) (m : Manager) (s l : Int) : Section :=
  if !checkInputSysAbilityId P s || !checkInputSysAbilityId P l then refuse m
  else enterRemove m s l

def findAndNotifyAbilityListeners (m : Manager) (s : Int) (code : Code) : Section :=
  let (map, listenerSaIdVec) := findSection m.localListenerMap s code
  ⟨{ m with localListenerMap := map, log := .findAndNotifyAbilityListeners s code :: m.log },
    listenerSaIdVec.map fun l => .notifyAbilityListener l code, true⟩

@[simp]
theorem enterAdd_localListenerMap (m : Manager) (s l : Int) (object : Bool) :
    (enterAdd m s l object).manager.localListenerMap =
      (addSection m.localListenerMap s l object).map :=
  rfl

@[simp]
theorem enterRemove_localListenerMap (m : Manager) (s l : Int) :
    (enterRemove m s l).manager.localListenerMap = (removeSection m.localListenerMap s l).map :=
  rfl

@[simp]
theorem findAndNotify_localListenerMap (m : Manager) (s : Int) (code : Code) :
    (findAndNotifyAbilityListeners m s code).manager.localListenerMap =
      (findSection m.localListenerMap s code).1 :=
  rfl

theorem enterAdd_effects (m : Manager) (s l : Int) (object : Bool) :
    (enterAdd m s l object).effects =
      if 1 < sizeAfterAdd m.localListenerMap s l then
        (if needNotify m.localListenerMap s object then [l] else []).map
          fun l => .notifyAbilityListener l .onAddSystemAbility
      else [.subscribeSystemAbility] := by
  simp only [enterAdd, addEffects, addSection_listenerListSize, addSection_isNeedNotify]
  by_cases need : needNotify m.localListenerMap s object = true
  · simp only [need, if_true, List.map_cons, List.map_nil]
  · simp only [need, Bool.false_eq_true, if_false, List.map_nil]

theorem mem_addEffects {m : Manager} {s' l' l : Int} {object : Bool} {code : Code}
    (member : .notifyAbilityListener l code ∈ (enterAdd m s' l' object).effects) :
    l = l' ∧ code = .onAddSystemAbility ∧ 1 < sizeAfterAdd m.localListenerMap s' l' ∧
      needNotify m.localListenerMap s' object = true := by
  rw [enterAdd_effects] at member
  split at member
  · rename_i long
    obtain ⟨l'', inside, same⟩ := List.mem_map.mp member
    split at inside
    · rename_i need
      obtain rfl := List.mem_singleton.mp inside
      cases same
      exact ⟨rfl, rfl, long, need⟩
    · cases inside
  · cases List.mem_singleton.mp member

theorem enterRemove_effects (m : Manager) (s l : Int) :
    (enterRemove m s l).effects =
      if (removeSection m.localListenerMap s l).erased then [.unSubscribeSystemAbility] else [] :=
  rfl

theorem findAndNotify_effects (m : Manager) (s : Int) (code : Code) :
    (findAndNotifyAbilityListeners m s code).effects =
      (findSection m.localListenerMap s code).2.map fun l => .notifyAbilityListener l code :=
  rfl

theorem mem_findEffects {m : Manager} {s l : Int} {code code' : Code} :
    .notifyAbilityListener l code' ∈ (findAndNotifyAbilityListeners m s code).effects ↔
      code' = code ∧ l ∈ (findSection m.localListenerMap s code).2 := by
  rw [findAndNotify_effects, List.mem_map]
  constructor
  · rintro ⟨l', inside, same⟩
    cases same
    exact ⟨rfl, inside⟩
  · rintro ⟨rfl, inside⟩
    exact ⟨l, inside, rfl⟩

def enter (P : Process) (m : Manager) (samgrProxy : Option Bool) : Call → Section
  | .addSystemAbilityListener s l => addSystemAbilityListener P m s l samgrProxy
  | .removeSystemAbilityListener s l => removeSystemAbilityListener P m s l
  | .findAndNotifyAbilityListeners s code => findAndNotifyAbilityListeners m s code

/-- The call passes the checks it makes before it takes the lock. -/
def accepts (P : Process) (samgrProxy : Option Bool) : Call → Bool
  | .addSystemAbilityListener s l =>
    checkInputSysAbilityId P s && checkInputSysAbilityId P l && samgrProxy.isSome
  | .removeSystemAbilityListener s l => checkInputSysAbilityId P s && checkInputSysAbilityId P l
  | .findAndNotifyAbilityListeners _ _ => true

/-- Everything a call can do up to the end of its section. -/
theorem enter_cases (P : Process) (m : Manager) (samgrProxy : Option Bool) (call : Call) :
    (accepts P samgrProxy call = false ∧ enter P m samgrProxy call = refuse m) ∨
      accepts P samgrProxy call = true ∧
        ((∃ s l object, call = .addSystemAbilityListener s l ∧ samgrProxy = some object ∧
            enter P m samgrProxy call = enterAdd m s l object) ∨
          (∃ s l, call = .removeSystemAbilityListener s l ∧
            enter P m samgrProxy call = enterRemove m s l) ∨
          (∃ s code, call = .findAndNotifyAbilityListeners s code ∧
            enter P m samgrProxy call = findAndNotifyAbilityListeners m s code)) := by
  cases call with
  | addSystemAbilityListener s l =>
    simp only [enter, addSystemAbilityListener, accepts]
    split
    · rename_i invalid
      refine Or.inl ⟨?_, rfl⟩
      cases hs : checkInputSysAbilityId P s <;> cases hl : checkInputSysAbilityId P l <;>
        simp_all
    · rename_i valid
      cases samgrProxy with
      | none => exact Or.inl ⟨by simp, rfl⟩
      | some object => exact Or.inr ⟨by simpa using valid, Or.inl ⟨s, l, object, rfl, rfl, rfl⟩⟩
  | removeSystemAbilityListener s l =>
    simp only [enter, removeSystemAbilityListener, accepts]
    split
    · rename_i invalid
      refine Or.inl ⟨?_, rfl⟩
      cases hs : checkInputSysAbilityId P s <;> simp_all
    · rename_i valid
      exact Or.inr ⟨by simpa using valid, Or.inr (Or.inl ⟨s, l, rfl, rfl⟩)⟩
  | findAndNotifyAbilityListeners s code =>
    exact Or.inr ⟨rfl, Or.inr (Or.inr ⟨s, code, rfl, rfl⟩)⟩

/-! ## The effects -/

/-- What samgr answers after a section: whether `RemoveSystemAbilityListener`
gets a proxy, and the code that the samgr call returns. -/
structure Reply where
  samgrProxy : Bool
  ret : Int
  deriving DecidableEq

/-- Every samgr call succeeds. -/
def Reply.good : Reply := ⟨true, 0⟩

def notifyAbilityListener (P : Process) (m : Manager) (s l : Int) (code : Code) : Manager :=
  let called := P.localAbilityMap l && decide (code ≠ .other)
  { m with log := .notifyAbilityListener s l code called :: m.log }

/-- samgr adds the process to, or drops it from, the subscribers of an ability. -/
def samgrDone (m : Manager) (s : Int) (subscribed : Bool) : Manager :=
  { m with
    subscribed := Function.update m.subscribed s subscribed
    log := .samgrDone s :: m.log }

/-- One effect of a call about `s`, and whether the call goes on to return true. -/
def perform (P : Process) (m : Manager) (s : Int) (reply : Reply) : Effect → Manager × Bool
  | .notifyAbilityListener l code => (notifyAbilityListener P m s l code, true)
  | .subscribeSystemAbility =>
    if reply.ret ≠ 0 then (m, false) else (samgrDone m s true, true)
  | .unSubscribeSystemAbility =>
    if !reply.samgrProxy then (m, false)
    else if reply.ret ≠ 0 then (m, false)
    else (samgrDone m s false, true)

@[simp]
theorem perform_localListenerMap (P : Process) (m : Manager) (s : Int) (reply : Reply)
    (effect : Effect) : (perform P m s reply effect).1.localListenerMap = m.localListenerMap := by
  simp only [perform]
  split
  · rfl
  · split <;> rfl
  · split
    · rfl
    · split <;> rfl

/-! ## The last notice to a listener -/

/-- The code of the last counted notice to the listener since it registered. -/
def lastNotice (counted : Bool → Bool) (s l : Int) : List Event → Option Code
  | [] => none
  | .registered s' l' :: log => if s' = s ∧ l' = l then none else lastNotice counted s l log
  | .notifyAbilityListener s' l' code called :: log =>
    if s' = s ∧ l' = l ∧ counted called = true then some code else lastNotice counted s l log
  | _ :: log => lastNotice counted s l log

/-- The last callback that the listener received. -/
def lastCallback (s l : Int) (log : List Event) : Option Code := lastNotice id s l log

/-- The last code that was handed to `NotifyAbilityListener`. -/
def lastHandOver (s l : Int) (log : List Event) : Option Code := lastNotice (fun _ => true) s l log

theorem lastNotice_addEvents {counted : Bool → Bool} {map : ListenerMap} {s l s' l' : Int}
    {log : List Event} :
    lastNotice counted s l (addEvents map s' l' ++ log) =
      if s' = s ∧ l' = l ∧ listed map s' l' = false then none else lastNotice counted s l log := by
  rw [addEvents]
  cases listed map s' l' <;> cases (map s').isNone <;> simp [lastNotice]

theorem lastNotice_enterRemove {counted : Bool → Bool} {m : Manager} {s l s' l' : Int} :
    lastNotice counted s l (enterRemove m s' l').manager.log = lastNotice counted s l m.log := by
  cases erased : (removeSection m.localListenerMap s' l').erased <;>
    simp [enterRemove, erased, lastNotice]

/-- Only a notice to the listener itself counts. -/
theorem lastNotice_perform {P : Process} {counted : Bool → Bool} {m : Manager} {s l s' : Int}
    {reply : Reply} {effect : Effect}
    (other : ∀ code, ¬ (s' = s ∧ effect = .notifyAbilityListener l code)) :
    lastNotice counted s l (perform P m s' reply effect).1.log = lastNotice counted s l m.log := by
  cases effect with
  | notifyAbilityListener l' code =>
    simp only [perform, notifyAbilityListener, lastNotice]
    apply if_neg
    rintro ⟨rfl, rfl, -⟩
    exact other code ⟨rfl, rfl⟩
  | subscribeSystemAbility =>
    simp only [perform]
    split <;> rfl
  | unSubscribeSystemAbility =>
    simp only [perform]
    split
    · rfl
    · split <;> rfl

/-! ## The table stays well formed -/

theorem start_tableOk : TableOk start.localListenerMap := by
  intro s listenerList found
  cases found

theorem enter_tableOk (P : Process) (m : Manager) (samgrProxy : Option Bool) (call : Call)
    (ok : TableOk m.localListenerMap) :
    TableOk (enter P m samgrProxy call).manager.localListenerMap := by
  rcases enter_cases P m samgrProxy call with ⟨-, entered⟩ |
    ⟨-, ⟨s, l, object, -, -, entered⟩ | ⟨s, l, -, entered⟩ | ⟨s, code, -, entered⟩⟩ <;>
    rw [entered]
  · exact ok
  · exact addSection_tableOk _ s l object ok
  · exact removeSection_tableOk _ s l ok
  · exact findSection_tableOk _ s code ok

/-- Only ids that pass the check have an entry. -/
def ValidIds (P : Process) (map : ListenerMap) : Prop :=
  ∀ s, (map s).isSome = true → checkInputSysAbilityId P s = true

theorem enter_validIds (P : Process) (m : Manager) (samgrProxy : Option Bool) (call : Call)
    (valid : ValidIds P m.localListenerMap) :
    ValidIds P (enter P m samgrProxy call).manager.localListenerMap := by
  intro s' present
  rcases enter_cases P m samgrProxy call with ⟨-, entered⟩ |
    ⟨yes, ⟨s, l, object, rfl, rfl, entered⟩ | ⟨s, l, rfl, entered⟩ | ⟨s, code, rfl, entered⟩⟩ <;>
    rw [entered] at present
  · exact valid s' present
  · by_cases same : s' = s
    · subst same
      simp only [accepts, Bool.and_eq_true] at yes
      exact yes.1.1
    · rw [enterAdd_localListenerMap, addSection_other _ s l object same] at present
      exact valid s' present
  · by_cases same : s' = s
    · subst same
      simp only [accepts, Bool.and_eq_true] at yes
      exact yes.1
    · rw [enterRemove_localListenerMap, removeSection_other _ s l same] at present
      exact valid s' present
  · rw [findAndNotify_localListenerMap, findSection_isSome] at present
    exact valid s' present

/-- A section leaves the subscriptions alone. -/
@[simp]
theorem enter_subscribed (P : Process) (m : Manager) (samgrProxy : Option Bool) (call : Call) :
    (enter P m samgrProxy call).manager.subscribed = m.subscribed := by
  rcases enter_cases P m samgrProxy call with ⟨-, entered⟩ |
    ⟨-, ⟨s, l, object, -, -, entered⟩ | ⟨s, l, -, entered⟩ | ⟨s, code, -, entered⟩⟩ <;>
    rw [entered] <;> rfl

theorem enter_add_registered {P : Process} {m : Manager} {s l s' l' : Int} {object : Bool}
    {state : ListenerState}
    (after : Registered (enter P m (some object)
      (.addSystemAbilityListener s l)).manager.localListenerMap s' l' state) :
    Registered m.localListenerMap s' l' state ∨
      (s' = s ∧ l' = l ∧ listed m.localListenerMap s l = false ∧
        state = pushedState (needNotify m.localListenerMap s object)) := by
  simp only [enter, addSystemAbilityListener] at after
  split at after
  · exact Or.inl after
  · exact (addSection_registered _ s l object).mp after

theorem enter_remove_registered {P : Process} {m : Manager} {s l s' l' : Int}
    {samgrProxy : Option Bool} {state : ListenerState}
    (after : Registered (enter P m samgrProxy
      (.removeSystemAbilityListener s l)).manager.localListenerMap s' l' state) :
    Registered m.localListenerMap s' l' state := by
  simp only [enter, removeSystemAbilityListener] at after
  split at after
  · exact after
  · exact removeSection_registered _ s l after

end ListenerManager
