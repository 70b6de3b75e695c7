import Safwk.ListenerThreads

/-!
# The table of listeners as a record of its history

On any number of threads and in any order of their steps, the table holds what the
sections under `listenerLock_` have put there: a listener is registered for an ability
if and only if the last section that added or removed it added it. A call that is
refused before it takes the lock has no section. A removal that finds nothing has one,
and so has an addition of a listener that is there already.

This is about the table alone. Whether a listener in it is told anything is not.
-/

namespace ListenerHistory

open ListenerTable ListenerManager ListenerThreads Transition

/-- What a step does about a listener in a section of its own: `true` for
`AddSystemAbilityListener`, `false` for `RemoveSystemAbilityListener`. -/
def change (P : Process) (s l : Int) : Action → Option Bool
  | .enter _ (.addSystemAbilityListener s' l') samgrProxy =>
    if accepts P samgrProxy (.addSystemAbilityListener s' l') = true ∧ s' = s ∧ l' = l then
      some true
    else none
  | .enter _ (.removeSystemAbilityListener s' l') samgrProxy =>
    if accepts P samgrProxy (.removeSystemAbilityListener s' l') = true ∧ s' = s ∧ l' = l then
      some false
    else none
  | _ => none

/-- What the last of the sections about a listener did. -/
def lastChange (P : Process) (s l : Int) (schedule : List Action) : Option Bool :=
  (schedule.filterMap (change P s l)).getLast?

theorem lastChange_append (P : Process) (s l : Int) (schedule : List Action) (a : Action) :
    lastChange P s l (schedule ++ [a]) = (change P s l a).or (lastChange P s l schedule) := by
  rw [lastChange, List.filterMap_append, List.getLast?_append, lastChange]
  cases changed : change P s l a with
  | none => simp [changed]
  | some added => simp [changed]

/-! ## Who is listed after a section -/

section Sections

variable (map : ListenerMap) (s l : Int)

theorem listed_addSection (s' l' : Int) (object : Bool) :
    listed (addSection map s' l' object).map s l =
      if s' = s ∧ l' = l then true else listed map s l := by
  apply Bool.eq_iff_iff.mpr
  split
  · rename_i same
    obtain ⟨rfl, rfl⟩ := same
    refine iff_of_true (listed_iff.mpr ?_) rfl
    by_cases present : listed map s' l' = true
    · obtain ⟨state, before⟩ := listed_iff.mp present
      exact ⟨state, (addSection_registered map s' l' object).mpr (Or.inl before)⟩
    · have absent : listed map s' l' = false := Bool.eq_false_iff.mpr present
      exact ⟨_, (addSection_registered map s' l' object).mpr
        (Or.inr ⟨rfl, rfl, absent, rfl⟩)⟩
  · rename_i other
    rw [listed_iff, listed_iff]
    apply exists_congr
    intro state
    rw [addSection_registered]
    apply or_iff_left
    rintro ⟨rfl, rfl, -⟩
    exact other ⟨rfl, rfl⟩

theorem listed_removeSection (ok : TableOk map) (s' l' : Int) :
    listed (removeSection map s' l').map s l =
      if s' = s ∧ l' = l then false else listed map s l := by
  apply Bool.eq_iff_iff.mpr
  split
  · rename_i same
    obtain ⟨rfl, rfl⟩ := same
    refine iff_of_false ?_ Bool.false_ne_true
    intro present
    obtain ⟨state, after⟩ := listed_iff.mp present
    exact removeSection_gone map s' l' ok state after
  · rename_i other
    rw [listed_iff, listed_iff]
    apply exists_congr
    intro state
    constructor
    · exact removeSection_registered map s' l'
    · intro before
      refine removeSection_keeps map s' l' before ?_
      rintro ⟨rfl, rfl⟩
      exact other ⟨rfl, rfl⟩

theorem listed_findSection (s' : Int) (code : Code) :
    listed (findSection map s' code).1 s l = listed map s l := by
  apply Bool.eq_iff_iff.mpr
  rw [listed_iff, listed_iff]
  simp only [findSection_registered]
  constructor
  · rintro ⟨state, before, registered, -⟩
    exact ⟨before, registered⟩
  · rintro ⟨before, registered⟩
    exact ⟨_, before, registered, rfl⟩

/-- The listeners of an ability in the order of the list. -/
def listeners (map : ListenerMap) (s : Int) : Option (List Int) :=
  (map s).map fun listenerList => listenerList.map Prod.fst

/-- A report changes flags and nothing else. -/
theorem listeners_findSection (s' : Int) (code : Code) :
    listeners (findSection map s' code).1 s = listeners map s := by
  by_cases same : s = s'
  · subst same
    cases found : map s with
    | none => rw [findSection_none map s code found]
    | some listenerList =>
      simp only [findSection_same map s code found, listeners, Function.update_self, found,
        Option.map_some, List.map_map]
      rfl
  · rw [listeners, findSection_other map s' code same, listeners]

end Sections

/-! ## Steps and runs -/

/-- Who is listed after a step, from who was listed before it. -/
theorem listed_step {P : Process} {st st' : State} {a : Action} (s l : Int)
    (ok : TableOk st.manager.localListenerMap) (next : step P st a = some st') :
    listed st'.manager.localListenerMap s l =
      (change P s l a).getD (listed st.manager.localListenerMap s l) := by
  cases moves_of_step next with
  | @enters i call samgrProxy idle =>
    rcases enter_cases P st.manager samgrProxy call with ⟨no, entered⟩ |
      ⟨yes, ⟨s', l', object, rfl, rfl, entered⟩ | ⟨s', l', rfl, entered⟩ |
        ⟨s', code, rfl, entered⟩⟩
    · have unchanged : change P s l (.enter i call samgrProxy) = none := by
        cases call <;> simp [change, no]
      simp only [entered, refuse, unchanged, Option.getD_none]
    · simp only [entered, enterAdd_localListenerMap, listed_addSection, change, yes, true_and]
      split <;> rfl
    · simp only [entered, enterRemove_localListenerMap, listed_removeSection _ _ _ ok, change, yes,
        true_and]
      split <;> rfl
    · simp only [entered, findAndNotify_localListenerMap, listed_findSection, change,
        Option.getD_none]
  | performs => simp only [perform_localListenerMap, change, Option.getD_none]

/-- A listener is in the table exactly if it was added last. -/
theorem listed_run {P : Process} {threadCount : Nat} {schedule : List Action} {st : State}
    (ran : (machine P threadCount).run Free (machine P threadCount).init schedule = some st)
    (s l : Int) :
    listed st.manager.localListenerMap s l = (lastChange P s l schedule).getD false := by
  refine Machine.run_invariant
    (fun past st => listed st.manager.localListenerMap s l = (lastChange P s l past).getD false)
    rfl ?_ ran
  intro past st a st' reach inTable _ next
  rw [listed_step s l (reachable_tableOk reach) next, inTable, lastChange_append]
  cases change P s l a <;> rfl

/-- Only ids that pass the check are listeners. -/
def ValidListeners (P : Process) (map : ListenerMap) : Prop :=
  ∀ s l state, Registered map s l state → checkInputSysAbilityId P l = true

theorem enter_validListeners (P : Process) (m : Manager) (samgrProxy : Option Bool) (call : Call)
    (valid : ValidListeners P m.localListenerMap) :
    ValidListeners P (enter P m samgrProxy call).manager.localListenerMap := by
  intro s' l' state after
  rcases enter_cases P m samgrProxy call with ⟨-, entered⟩ |
    ⟨yes, ⟨s, l, object, rfl, rfl, entered⟩ | ⟨s, l, rfl, entered⟩ | ⟨s, code, rfl, entered⟩⟩ <;>
    rw [entered] at after
  · exact valid s' l' state after
  · rcases (addSection_registered _ s l object).mp after with before | ⟨-, rfl, -⟩
    · exact valid s' l' state before
    · simp only [accepts, Bool.and_eq_true] at yes
      exact yes.1.2
  · exact valid s' l' state (removeSection_registered _ s l after)
  · obtain ⟨before, registered, -⟩ := (findSection_registered _ s code).mp after
    exact valid s' l' before registered

theorem reachable_validListeners {P : Process} {n : Nat} {ok : State → Action → Prop} {st : State}
    (reach : (machine P n).Reachable ok st) : ValidListeners P st.manager.localListenerMap := by
  refine reach.invariant (fun st => ValidListeners P st.manager.localListenerMap) ?_ ?_
  · rintro s l state ⟨listenerList, found, -⟩
    cases found
  · intro st a st' _ valid _ next
    cases moves_of_step next with
    | enters => exact enter_validListeners P st.manager _ _ valid
    | performs =>
      dsimp only
      rw [perform_localListenerMap]
      exact valid

theorem checkInputSysAbilityId_iff {P : Process} {id : Int} :
    checkInputSysAbilityId P id = true ↔
      P.firstSysAbilityId ≤ id ∧ id ≤ P.lastSysAbilityId := by
  simp [checkInputSysAbilityId]

/-- A listener table after any run: no list is empty or names a listener twice, all ids are
in range, a listener is there exactly if the last section about it added it, and neither
the section of `FindAndNotifyAbilityListeners` nor anything done outside a section changes
the listeners or their order. -/
theorem table_records_history (P : Process) (threadCount : Nat) {schedule : List Action}
    {st : State}
    (ran : (machine P threadCount).run Free (machine P threadCount).init schedule = some st) :
    (∀ s listenerList, st.manager.localListenerMap s = some listenerList →
      listenerList ≠ [] ∧ (listenerList.map Prod.fst).Nodup ∧
      (P.firstSysAbilityId ≤ s ∧ s ≤ P.lastSysAbilityId) ∧
      ∀ listener ∈ listenerList,
        P.firstSysAbilityId ≤ listener.1 ∧ listener.1 ≤ P.lastSysAbilityId) ∧
    (∀ s l, (∃ state, Registered st.manager.localListenerMap s l state) ↔
      lastChange P s l schedule = some true) ∧
    (∀ i s code samgrProxy st',
      step P st (.enter i (.findAndNotifyAbilityListeners s code) samgrProxy) = some st' →
      listeners st'.manager.localListenerMap = listeners st.manager.localListenerMap) ∧
    ∀ i reply st', step P st (.perform i reply) = some st' →
      st'.manager.localListenerMap = st.manager.localListenerMap := by
  have reach : (machine P threadCount).Reachable Free st := Machine.reachable_of_run schedule ran
  refine ⟨?_, ?_, ?_, ?_⟩
  · intro s listenerList found
    obtain ⟨nonempty, distinct⟩ := reachable_tableOk reach s listenerList found
    refine ⟨nonempty, distinct, ?_, ?_⟩
    · have present : (st.manager.localListenerMap s).isSome = true := by rw [found]; rfl
      exact checkInputSysAbilityId_iff.mp (reachable_validIds reach s present)
    · rintro ⟨l, state⟩ member
      exact checkInputSysAbilityId_iff.mp
        (reachable_validListeners reach s l state ⟨listenerList, found, member⟩)
  · intro s l
    rw [← listed_iff, listed_run ran s l]
    cases lastChange P s l schedule <;> simp
  · intro i s code samgrProxy st' next
    cases moves_of_step next with
    | enters =>
      funext s'
      exact listeners_findSection _ s' s code
  · intro i reply st' next
    cases moves_of_step next with
    | performs => exact perform_localListenerMap P st.manager _ reply _

/-- Two listeners come, one of them leaves and comes back. -/
def comeBack : List Action :=
  [.enter 0 (.addSystemAbilityListener 5 7) (some true), .perform 0 Reply.good,
    .enter 0 (.addSystemAbilityListener 5 8) (some false),
    .enter 0 (.removeSystemAbilityListener 5 7) (some true),
    .enter 0 (.addSystemAbilityListener 5 7) (some false)]

def afterComeBack : State :=
  ((machine anyProcess 1).run Free (machine anyProcess 1).init comeBack).get (by decide)

theorem table_records_history_comeBack :
    afterComeBack.manager.localListenerMap 5 = some [(8, .init), (7, .init)] ∧
      lastChange anyProcess 5 7 comeBack = some true ∧
      ∃ state, Registered afterComeBack.manager.localListenerMap 5 7 state := by
  have ran : (machine anyProcess 1).run Free (machine anyProcess 1).init comeBack =
      some afterComeBack := (Option.some_get _).symm
  obtain ⟨-, history, -⟩ := table_records_history anyProcess 1 ran
  exact ⟨by decide, by decide, (history 5 7).mpr (by decide)⟩

end ListenerHistory
