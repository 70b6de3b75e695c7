import Mathlib.Data.List.Nodup
import Mathlib.Logic.Function.Basic
import Safwk.Library.Transition

/-!
# The table of listeners

`localListenerMap_` maps a watched ability to the listeners that registered
for it, each with a flag that remembers whether it has been told that the
ability is up. Three functions touch the table, each in one `listenerLock_`
section: `AddSystemAbilityListener`, `RemoveSystemAbilityListener` and
`FindAndNotifyAbilityListeners`. Whatever else a call does, it does after that
section: it notifies listeners, or it subscribes or unsubscribes at samgr.

A call is therefore its section followed by a list of effects. The section is
one step here. Nothing is said yet about how sections and effects of different
calls interleave.
-/

namespace ListenerTable

/-- `ListenerState`. -/
inductive ListenerState
  | init
  | notified
  deriving DecidableEq, Repr

/-- The codes of `ISystemAbilityStatusChange`, the ignored ones as one. -/
inductive Code
  | onAddSystemAbility
  | onRemoveSystemAbility
  | other
  deriving DecidableEq, Repr

abbrev Listener := Int × ListenerState

abbrev ListenerMap := Int → Option (List Listener)

/-- What the listener code reads and never changes: the range of valid ids and
the ids of the abilities of this process. -/
structure Process where
  firstSysAbilityId : Int
  lastSysAbilityId : Int
  localAbilityMap : Int → Bool

def checkInputSysAbilityId (P : Process) (systemAbilityId : Int) : Bool :=
  decide (P.firstSysAbilityId ≤ systemAbilityId) && decide (systemAbilityId ≤ P.lastSysAbilityId)

/-! ## The sections under the lock -/

/-- The `find_if` of the sections that look for one listener. -/
def isListener (listenerSaId : Int) (listener : Listener) : Bool :=
  listener.1 == listenerSaId

/-- What `AddSystemAbilityListener` keeps from its section. -/
structure Added where
  map : ListenerMap
  isNeedNotify : Bool
  listenerListSize : Nat

/-- The flag of a listener that is pushed. -/
def pushedState (isNeedNotify : Bool) : ListenerState :=
  if isNeedNotify then .notified else .init

/-- The section of `AddSystemAbilityListener`; `object` is whether
`CheckSystemAbility` finds the watched ability. -/
def addSection (map : ListenerMap) (systemAbilityId listenerSaId : Int) (object : Bool) : Added :=
  let listenerList := (map systemAbilityId).getD []
  let isNeedNotify := decide (0 < listenerList.length) && object
  let listenerList' :=
    if listenerList.any (isListener listenerSaId) then listenerList
    else listenerList ++ [(listenerSaId, pushedState isNeedNotify)]
  ⟨Function.update map systemAbilityId (some listenerList'), isNeedNotify, listenerList'.length⟩

/-- What `RemoveSystemAbilityListener` keeps from its section. -/
structure Removed where
  map : ListenerMap
  erased : Bool

/-- The section of `RemoveSystemAbilityListener`. -/
def removeSection (map : ListenerMap) (systemAbilityId listenerSaId : Int) : Removed :=
  match map systemAbilityId with
  | none => ⟨map, false⟩
  | some listenerList =>
    let rest := listenerList.eraseP (isListener listenerSaId)
    if rest.isEmpty then ⟨Function.update map systemAbilityId none, true⟩
    else ⟨Function.update map systemAbilityId (some rest), false⟩

/-- One turn of the first loop of `FindAndNotifyAbilityListeners`. -/
def markAdded (listener : Listener) : Listener :=
  if listener.2 = .init then (listener.1, .notified) else listener

/-- One turn of the second loop. -/
def markRemoved (listener : Listener) : Listener :=
  if listener.2 = .notified then (listener.1, .init) else listener

/-- The section of `FindAndNotifyAbilityListeners`, with the listeners it will
notify. -/
def findSection (map : ListenerMap) (systemAbilityId : Int) (code : Code) :
    ListenerMap × List Int :=
  match map systemAbilityId with
  | none => (map, [])
  | some listenerList =>
    match code with
    | .onAddSystemAbility =>
      (Function.update map systemAbilityId (some (listenerList.map markAdded)),
        (listenerList.filter fun listener => listener.2 = .init).map Prod.fst)
    | .onRemoveSystemAbility =>
      (Function.update map systemAbilityId (some (listenerList.map markRemoved)),
        listenerList.map Prod.fst)
    | .other => (map, [])

/-! ## What the table says about a listener -/

/-- The listener stands in the list of the watched ability with this flag. -/
def Registered (map : ListenerMap) (s l : Int) (state : ListenerState) : Prop :=
  ∃ listenerList, map s = some listenerList ∧ (l, state) ∈ listenerList

/-- The list of an entry is never empty and names no listener twice. -/
def TableOk (map : ListenerMap) : Prop :=
  ∀ s listenerList, map s = some listenerList →
    listenerList ≠ [] ∧ (listenerList.map Prod.fst).Nodup

/-- `find_if` finds the listener. -/
def listed (map : ListenerMap) (s l : Int) : Bool :=
  ((map s).getD []).any (isListener l)

theorem listed_iff {map : ListenerMap} {s l : Int} :
    listed map s l = true ↔ ∃ state, Registered map s l state := by
  simp only [listed, Registered]
  cases found : map s with
  | none => simp
  | some listenerList =>
    simp only [Option.getD_some, List.any_eq_true, isListener, beq_iff_eq, Option.some.injEq]
    constructor
    · rintro ⟨⟨l', state⟩, member, rfl⟩
      exact ⟨state, listenerList, rfl, member⟩
    · rintro ⟨state, _, rfl, member⟩
      exact ⟨(l, state), member, rfl⟩

/-- The listeners of an ability that have the flag. -/
def withState (map : ListenerMap) (s : Int) (state : ListenerState) : List Int :=
  (((map s).getD []).filter fun listener => listener.2 = state).map Prod.fst

theorem mem_withState {map : ListenerMap} {s l : Int} {state : ListenerState} :
    l ∈ withState map s state ↔ Registered map s l state := by
  rw [withState, Registered]
  cases found : map s with
  | none => simp
  | some listenerList => simp

theorem Registered.unique {map : ListenerMap} {s l : Int} {state state' : ListenerState}
    (ok : TableOk map) (left : Registered map s l state) (right : Registered map s l state') :
    state = state' := by
  obtain ⟨listenerList, found, member⟩ := left
  obtain ⟨listenerList', found', member'⟩ := right
  have same : listenerList = listenerList' := Option.some.inj (found.symm.trans found')
  subst same
  have distinct := (ok s listenerList found).2
  exact congrArg Prod.snd (List.inj_on_of_nodup_map distinct member member' rfl)

/-! ## What each section does to the table -/

section Add

variable (map : ListenerMap) (s l : Int) (object : Bool)

/-- Whether the section of `Add` decides to notify. -/
def needNotify : Bool :=
  decide (0 < ((map s).getD []).length) && object

theorem needNotify_of_entry (ok : TableOk map) (present : (map s).isSome = true) :
    needNotify map s object = object := by
  obtain ⟨listenerList, found⟩ := Option.isSome_iff_exists.mp present
  have nonempty := List.length_pos_iff.mpr (ok s listenerList found).1
  simp [needNotify, found, nonempty]

/-- How long the list is when the section of `Add` ends. -/
def sizeAfterAdd : Nat :=
  ((map s).getD []).length + if listed map s l then 0 else 1

theorem addSection_isNeedNotify :
    (addSection map s l object).isNeedNotify = needNotify map s object :=
  rfl

theorem addSection_listenerListSize :
    (addSection map s l object).listenerListSize = sizeAfterAdd map s l := by
  rw [addSection, sizeAfterAdd, listed]
  by_cases present : ((map s).getD []).any (isListener l) = true
  · simp [present]
  · simp [present]

/-- Only an ability with an entry has a list that grows beyond one listener. -/
theorem isNone_of_long (long : 1 < sizeAfterAdd map s l) : (map s).isNone = false := by
  cases found : map s with
  | none => simp [sizeAfterAdd, listed, found] at long
  | some listenerList => rfl

theorem addSection_isSome : ((addSection map s l object).map s).isSome = true := by
  simp [addSection]

theorem addSection_other {s' : Int} (other : s' ≠ s) :
    (addSection map s l object).map s' = map s' := by
  simp [addSection, Function.update_of_ne other]

theorem addSection_registered {s' l' : Int} {state : ListenerState} :
    Registered (addSection map s l object).map s' l' state ↔
      Registered map s' l' state ∨
        (s' = s ∧ l' = l ∧ listed map s l = false ∧
          state = pushedState (needNotify map s object)) := by
  by_cases same : s' = s
  · subst same
    simp only [Registered, listed, needNotify, addSection]
    cases found : map s' with
    | none => simp
    | some listenerList =>
      by_cases present : listenerList.any (isListener l) = true
      · simp [present]
      · simp [present]
  · simp only [Registered]
    rw [addSection_other map s l object same]
    simp [same]

theorem addSection_tableOk (ok : TableOk map) : TableOk (addSection map s l object).map := by
  intro s' listenerList found
  by_cases same : s' = s
  · subst same
    have distinct : (((map s').getD []).map Prod.fst).Nodup := by
      cases before : map s' with
      | none => simp
      | some listenerList => exact (ok s' listenerList before).2
    simp only [addSection, Function.update_self, Option.some.injEq] at found
    subst found
    split
    · rename_i present
      refine ⟨?_, distinct⟩
      intro empty
      simp [empty] at present
    · rename_i absent
      refine ⟨by simp, ?_⟩
      rw [List.map_append, List.nodup_append]
      refine ⟨distinct, by simp, ?_⟩
      intro a old b new same
      have hb : b = l := by simpa using new
      obtain ⟨listener, member, rfl⟩ := List.mem_map.mp old
      exact absent (List.any_eq_true.mpr ⟨listener, member, by simp [isListener, same, hb]⟩)
  · rw [addSection_other map s l object same] at found
    exact ok s' listenerList found

end Add

section Remove

variable (map : ListenerMap) (s l : Int)

/-- The listener is the only one of the watched ability. -/
def onlyListener : Bool :=
  match map s with
  | some [listener] => isListener l listener
  | _ => false

/-- All that the section of `Remove` can do. -/
theorem removeSection_cases :
    (map s = none ∧ removeSection map s l = ⟨map, false⟩) ∨
    (∃ listenerList, map s = some listenerList ∧
      listenerList.eraseP (isListener l) = [] ∧
      removeSection map s l = ⟨Function.update map s none, true⟩) ∨
    ∃ listenerList, map s = some listenerList ∧
      listenerList.eraseP (isListener l) ≠ [] ∧
      removeSection map s l =
        ⟨Function.update map s (some (listenerList.eraseP (isListener l))), false⟩ := by
  rw [removeSection]
  cases map s with
  | none => exact Or.inl ⟨rfl, rfl⟩
  | some listenerList =>
    refine Or.inr ?_
    by_cases empty : listenerList.eraseP (isListener l) = []
    · exact Or.inl ⟨listenerList, rfl, empty, by simp [empty]⟩
    · exact Or.inr ⟨listenerList, rfl, empty, by simp [empty]⟩

theorem removeSection_other {s' : Int} (other : s' ≠ s) :
    (removeSection map s l).map s' = map s' := by
  rcases removeSection_cases map s l with
    ⟨_, removed⟩ | ⟨_, _, _, removed⟩ | ⟨_, _, _, removed⟩
  · rw [removed]
  · simp [removed, Function.update_of_ne other]
  · simp [removed, Function.update_of_ne other]

/-- The section either erases the entry or keeps whether there is one. -/
theorem removeSection_isSome :
    ((removeSection map s l).map s).isSome =
      ((map s).isSome && !(removeSection map s l).erased) := by
  rcases removeSection_cases map s l with
    ⟨found, removed⟩ | ⟨_, found, _, removed⟩ | ⟨_, found, _, removed⟩
  · simp [removed, found]
  · simp [removed, found]
  · simp [removed, found]

theorem removeSection_erased_isSome (erased : (removeSection map s l).erased = true) :
    (map s).isSome = true := by
  rcases removeSection_cases map s l with
    ⟨_, removed⟩ | ⟨_, found, _, _⟩ | ⟨_, found, _, _⟩
  · rw [removed] at erased
    cases erased
  · simp [found]
  · simp [found]

theorem removeSection_erased (ok : TableOk map) :
    (removeSection map s l).erased = onlyListener map s l := by
  rw [removeSection, onlyListener]
  cases found : map s with
  | none => rfl
  | some listenerList =>
    have nonempty := (ok s listenerList found).1
    match listenerList with
    | [] => exact False.elim (nonempty rfl)
    | [listener] =>
      by_cases here : isListener l listener = true
      · simp [here]
      · simp [here]
    | first :: second :: rest =>
      by_cases here : isListener l first = true
      · simp [here]
      · simp [here]

theorem removeSection_registered {s' l' : Int} {state : ListenerState}
    (after : Registered (removeSection map s l).map s' l' state) :
    Registered map s' l' state := by
  by_cases same : s' = s
  · subst same
    obtain ⟨rest, found, member⟩ := after
    rcases removeSection_cases map s' l with
      ⟨_, removed⟩ | ⟨_, _, _, removed⟩ | ⟨listenerList, before, _, removed⟩
    · rw [removed] at found
      exact ⟨rest, found, member⟩
    · simp [removed] at found
    · simp only [removed, Function.update_self, Option.some.injEq] at found
      subst found
      exact ⟨listenerList, before, List.mem_of_mem_eraseP member⟩
  · obtain ⟨listenerList, found, member⟩ := after
    rw [removeSection_other map s l same] at found
    exact ⟨listenerList, found, member⟩

/-- Only the listener itself leaves the table. -/
theorem removeSection_keeps {s' l' : Int} {state : ListenerState}
    (before : Registered map s' l' state) (other : ¬ (s' = s ∧ l' = l)) :
    Registered (removeSection map s l).map s' l' state := by
  by_cases same : s' = s
  · subst same
    obtain ⟨listenerList, found, member⟩ := before
    have apart : ¬ isListener l (l', state) = true := by
      intro here
      exact other ⟨rfl, by simpa [isListener] using here⟩
    have remains := (List.mem_eraseP_of_neg apart).mpr member
    rcases removeSection_cases map s' l with
      ⟨absent, _⟩ | ⟨_, found', empty, _⟩ | ⟨_, found', _, removed⟩
    · rw [absent] at found
      cases found
    · rw [found] at found'
      cases found'
      rw [empty] at remains
      cases remains
    · rw [found] at found'
      cases found'
      exact ⟨_, by simp [removed], remains⟩
  · obtain ⟨listenerList, found, member⟩ := before
    exact ⟨listenerList, (removeSection_other map s l same).trans found, member⟩

/-- A listener that stands in the list once is gone when it is erased once. -/
theorem removeSection_gone (ok : TableOk map) (state : ListenerState) :
    ¬ Registered (removeSection map s l).map s l state := by
  rintro ⟨rest, found, member⟩
  rcases removeSection_cases map s l with
    ⟨absent, removed⟩ | ⟨_, _, _, removed⟩ | ⟨listenerList, before, _, removed⟩
  · simp [removed, absent] at found
  · simp [removed] at found
  · simp only [removed, Function.update_self, Option.some.injEq] at found
    subst found
    obtain ⟨listener, left, right, _, here, split, erased⟩ :=
      List.exists_of_eraseP (List.mem_of_mem_eraseP member) (p := isListener l)
        (beq_self_eq_true l)
    have once := (ok s listenerList before).2
    rw [split, List.map_append, List.map_cons, List.nodup_middle, List.nodup_cons,
      ← List.map_append, beq_iff_eq.mp here] at once
    rw [erased] at member
    exact once.1 (List.mem_map_of_mem member)

theorem removeSection_tableOk (ok : TableOk map) : TableOk (removeSection map s l).map := by
  intro s' rest found
  by_cases same : s' = s
  · subst same
    rcases removeSection_cases map s' l with
      ⟨_, removed⟩ | ⟨_, _, _, removed⟩ | ⟨listenerList, before, remains, removed⟩
    · rw [removed] at found
      exact ok s' rest found
    · simp [removed] at found
    · simp only [removed, Function.update_self, Option.some.injEq] at found
      subst found
      refine ⟨remains, ?_⟩
      exact (ok s' listenerList before).2.sublist (List.eraseP_sublist.map Prod.fst)
  · rw [removeSection_other map s l same] at found
    exact ok s' rest found

end Remove

section Find

variable (map : ListenerMap) (s : Int) (code : Code)

/-- The flag a listener has after the section. -/
def stateAfter : Code → ListenerState → ListenerState
  | .onAddSystemAbility, _ => .notified
  | .onRemoveSystemAbility, _ => .init
  | .other, state => state

/-- The section will notify a listener that has this flag. -/
def notifies : Code → ListenerState → Bool
  | .onAddSystemAbility, state => state = .init
  | .onRemoveSystemAbility, _ => true
  | .other, _ => false

theorem markAdded_eq : markAdded = fun listener => (listener.1, .notified) := by
  funext ⟨l, state⟩
  cases state <;> rfl

theorem markRemoved_eq : markRemoved = fun listener => (listener.1, .init) := by
  funext ⟨l, state⟩
  cases state <;> rfl

/-- The three branches of the section in one equation. -/
theorem findSection_same {listenerList : List Listener} (found : map s = some listenerList) :
    findSection map s code =
      (Function.update map s
          (some (listenerList.map fun listener => (listener.1, stateAfter code listener.2))),
        (listenerList.filter fun listener => notifies code listener.2).map Prod.fst) := by
  rw [findSection, found]
  cases code with
  | onAddSystemAbility => simp [markAdded_eq, stateAfter, notifies]
  | onRemoveSystemAbility => simp [markRemoved_eq, stateAfter, notifies]
  | other => simp [stateAfter, notifies, ← found]

theorem findSection_none (found : map s = none) : findSection map s code = (map, []) := by
  rw [findSection, found]

theorem findSection_other {s' : Int} (other : s' ≠ s) : (findSection map s code).1 s' = map s' := by
  cases found : map s with
  | none => rw [findSection_none map s code found]
  | some listenerList =>
    rw [findSection_same map s code found]
    exact Function.update_of_ne other _ _

theorem findSection_isSome (s' : Int) : ((findSection map s code).1 s').isSome = (map s').isSome := by
  by_cases same : s' = s
  · subst same
    cases found : map s' with
    | none => simp [findSection_none map s' code found, found]
    | some listenerList => simp [findSection_same map s' code found]
  · rw [findSection_other map s code same]

theorem findSection_registered {s' l' : Int} {state : ListenerState} :
    Registered (findSection map s code).1 s' l' state ↔
      ∃ before, Registered map s' l' before ∧
        state = if s' = s then stateAfter code before else before := by
  by_cases same : s' = s
  · subst same
    simp only [Registered]
    cases found : map s' with
    | none => simp [findSection_none map s' code found, found]
    | some listenerList =>
      simp only [findSection_same map s' code found, Function.update_self, Option.some.injEq]
      simp [eq_comm]
  · simp only [Registered]
    rw [findSection_other map s code same]
    simp [same]

theorem findSection_notifies {l : Int} :
    l ∈ (findSection map s code).2 ↔
      ∃ state, Registered map s l state ∧ notifies code state = true := by
  simp only [Registered]
  cases found : map s with
  | none => simp [findSection_none map s code found]
  | some listenerList => simp [findSection_same map s code found]

theorem findSection_nodup (ok : TableOk map) : (findSection map s code).2.Nodup := by
  cases found : map s with
  | none => simp [findSection_none map s code found]
  | some listenerList =>
    rw [findSection_same map s code found]
    exact (ok s listenerList found).2.sublist (List.filter_sublist.map Prod.fst)

theorem findSection_tableOk (ok : TableOk map) : TableOk (findSection map s code).1 := by
  intro s' listenerList' found'
  by_cases same : s' = s
  · subst same
    cases found : map s' with
    | none =>
      rw [findSection_none map s' code found] at found'
      exact ok s' listenerList' found'
    | some listenerList =>
      simp only [findSection_same map s' code found, Function.update_self,
        Option.some.injEq] at found'
      subst found'
      obtain ⟨nonempty, distinct⟩ := ok s' listenerList found
      refine ⟨by simpa using nonempty, ?_⟩
      rw [List.map_map]
      exact distinct
  · rw [findSection_other map s code same] at found'
    exact ok s' listenerList' found'

end Find

end ListenerTable
