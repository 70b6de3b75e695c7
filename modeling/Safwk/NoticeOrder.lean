import Safwk.ListenerThreads

/-!
# The order of notices

A section decides which listeners to notify and changes their flags; the
notices go out after the lock has been released. A notice can therefore be
overtaken by one that was decided later, and the listener ends with a callback
that contradicts its flag. It also ends so when a listener that is `INIT` adds
itself again on the direct path, which tells it that the ability is up and
leaves the flag alone.

Apart from these two cases the last callback of every registered listener
agrees with its flag. Which abilities are loaded does not change here.
-/

namespace NoticeOrder

open ListenerTable ListenerManager ListenerThreads Transition

/-- The code agrees with the flag. -/
def Fits (code : Code) (state : ListenerState) : Prop :=
  state = .notified ↔ code = .onAddSystemAbility

/-- The flag that is about to be set contradicts a notice still to come. -/
def contradicts (st : State) (s l : Int) : ListenerState → Bool
  | .init => awaits st s l .onAddSystemAbility
  | .notified => awaits st s l .onRemoveSystemAbility

/-- The call changes a flag against a notice still to come, or adds an `INIT`
listener again on the direct path. -/
def overtakes (st : State) : Action → Bool
  | .enter _ (.addSystemAbilityListener s l) (some object) =>
    let map := st.manager.localListenerMap
    if listed map s l then
      decide (l ∈ withState map s .init) && decide (1 < sizeAfterAdd map s l) &&
        needNotify map s object
    else contradicts st s l (pushedState (needNotify map s object))
  | .enter _ (.findAndNotifyAbilityListeners s .onAddSystemAbility) _ =>
    (withState st.manager.localListenerMap s .init).any fun l => contradicts st s l .notified
  | .enter _ (.findAndNotifyAbilityListeners s .onRemoveSystemAbility) _ =>
    (withState st.manager.localListenerMap s .notified).any fun l => contradicts st s l .init
  | _ => false

def InOrder (st : State) (a : Action) : Prop := overtakes st a = false

instance (st : State) (a : Action) : Decidable (InOrder st a) :=
  inferInstanceAs (Decidable (overtakes st a = false))

/-- Notices still to come fit the flag; when none is, the last callback does. -/
structure Told (P : Process) (s l : Int) (st : State) : Prop where
  coming : ∀ state code, Registered st.manager.localListenerMap s l state → code ≠ .other →
    awaits st s l code = true → Fits code state
  last : ∀ state code, Registered st.manager.localListenerMap s l state →
    (∀ code, code ≠ .other → awaits st s l code = false) →
    lastCallback s l st.manager.log = some code → Fits code state
  loaded : ∀ code, lastCallback s l st.manager.log = some code → P.localAbilityMap l = true

theorem told_start (P : Process) (n : Nat) (s l : Int) : Told P s l (machine P n).init := by
  constructor
  · rintro state code ⟨listenerList, found, -⟩
    cases found
  · rintro state code ⟨listenerList, found, -⟩
    cases found
  · intro code received
    cases received

/-- No flag of the listener changes and no notice to it is decided or made. -/
theorem Told.carry {P : Process} {s l : Int} {st st' : State} (told : Told P s l st)
    (registered : ∀ state, Registered st'.manager.localListenerMap s l state →
      Registered st.manager.localListenerMap s l state)
    (awaiting : ∀ code, awaits st' s l code = awaits st s l code)
    (callback : lastCallback s l st'.manager.log = lastCallback s l st.manager.log) :
    Told P s l st' := by
  constructor
  · intro state code after known awaited
    rw [awaiting] at awaited
    exact told.coming state code (registered state after) known awaited
  · intro state code after none received
    rw [callback] at received
    exact told.last state code (registered state after)
      (fun code known => (awaiting code).symm.trans (none code known)) received
  · intro code received
    rw [callback] at received
    exact told.loaded code received

section Enter

variable {P : Process} {s l : Int} {st : State} {i : Nat} {m : Manager} {call : Call}
  {todo : List Effect}

/-- Nothing awaited afterwards was awaited before. -/
theorem none_awaits_enters (idle : st.threads[i]? = some .idle)
    (none : ∀ code, code ≠ .other →
      awaits ⟨m, st.threads.set i (resume call todo)⟩ s l code = false) :
    ∀ code, code ≠ .other → awaits st s l code = false := by
  intro code known
  apply Bool.eq_false_iff.mpr
  intro awaited
  have kept := none code known
  rw [Bool.eq_false_iff, Ne, awaits_enters idle] at kept
  exact kept (Or.inl awaited)

end Enter

/-- A notice still to come that does not contradict the flag fits it. -/
theorem fits_of_contradicts {st : State} {s l : Int} {code : Code} {state : ListenerState}
    (fine : contradicts st s l state = false) (known : code ≠ .other)
    (awaited : awaits st s l code = true) : Fits code state := by
  cases state with
  | init =>
    refine ⟨fun h => (by cases h), ?_⟩
    rintro rfl
    rw [contradicts, awaited] at fine
    cases fine
  | notified =>
    refine ⟨fun _ => ?_, fun _ => rfl⟩
    cases code with
    | onAddSystemAbility => rfl
    | onRemoveSystemAbility =>
      rw [contradicts, awaited] at fine
      cases fine
    | other => exact False.elim (known rfl)

theorem Told.add {P : Process} {s l : Int} {st : State} {i : Nat} {s' l' : Int} {object : Bool}
    (told : Told P s l st) (idle : st.threads[i]? = some .idle)
    (order : overtakes st (.enter i (.addSystemAbilityListener s' l') (some object)) = false) :
    Told P s l ⟨(enterAdd st.manager s' l' object).manager,
      st.threads.set i (resume (.addSystemAbilityListener s' l')
        (enterAdd st.manager s' l' object).effects)⟩ := by
  have log : lastCallback s l (enterAdd st.manager s' l' object).manager.log = _ :=
    lastNotice_addEvents
  constructor
  · intro state code after known awaited
    rcases (addSection_registered _ s' l' object).mp after with before |
      ⟨rfl, rfl, fresh, rfl⟩
    · rcases (awaits_enters idle code).mp awaited with awaited | ⟨about, member⟩
      · exact told.coming state code before known awaited
      · obtain rfl : s' = s := about
        -- The direct path for a listener that is already there finds it `NOTIFIED`.
        obtain ⟨rfl, rfl, long, need⟩ := mem_addEffects member
        have present := listed_iff.mpr ⟨state, before⟩
        refine ⟨fun _ => rfl, fun _ => ?_⟩
        cases state with
        | notified => rfl
        | init =>
          simp only [overtakes, present, if_true, long, need, decide_true, Bool.and_true,
            decide_eq_false_iff_not] at order
          exact False.elim (order (mem_withState.mpr before))
    · have fine : contradicts st s l (pushedState (needNotify st.manager.localListenerMap s object)) =
          false := by
        simpa [overtakes, fresh] using order
      rcases (awaits_enters idle code).mp awaited with awaited | ⟨-, member⟩
      · exact fits_of_contradicts fine known awaited
      · obtain ⟨-, rfl, -, need⟩ := mem_addEffects member
        rw [need]
        exact ⟨fun _ => rfl, fun _ => rfl⟩
  · intro state code after none received
    rw [log] at received
    split at received
    · cases received
    · rename_i old
      rcases (addSection_registered _ s' l' object).mp after with before |
        ⟨rfl, rfl, fresh, rfl⟩
      · exact told.last state code before (none_awaits_enters idle none) received
      · exact False.elim (old ⟨rfl, rfl, fresh⟩)
  · intro code received
    rw [log] at received
    split at received
    · cases received
    · exact told.loaded code received

theorem Told.remove {P : Process} {s l : Int} {st : State} {i : Nat} {s' l' : Int}
    (told : Told P s l st) (idle : st.threads[i]? = some .idle) :
    Told P s l ⟨(enterRemove st.manager s' l').manager,
      st.threads.set i (resume (.removeSystemAbilityListener s' l')
        (enterRemove st.manager s' l').effects)⟩ := by
  refine told.carry (fun state => removeSection_registered _ s' l') ?_ lastNotice_enterRemove
  intro code
  apply owes_enters_same idle
  intro _ member
  rw [enterRemove_effects] at member
  split at member
  · cases List.mem_singleton.mp member
  · cases member

/-- A listener that is notified gets the flag of the notice. -/
theorem fits_stateAfter {code : Code} {state : ListenerState}
    (notified : notifies code state = true) : Fits code (stateAfter code state) := by
  cases code with
  | onAddSystemAbility => exact ⟨fun _ => rfl, fun _ => rfl⟩
  | onRemoveSystemAbility => exact ⟨fun h => (by cases h), fun h => (by cases h)⟩
  | other => cases notified

/-- A listener whose flag changes is notified. -/
theorem notifies_of_stateAfter_ne {code : Code} {state : ListenerState}
    (changed : stateAfter code state ≠ state) : notifies code state = true := by
  cases code with
  | onAddSystemAbility =>
    cases state with
    | init => rfl
    | notified => exact False.elim (changed rfl)
  | onRemoveSystemAbility => rfl
  | other => exact False.elim (changed rfl)

/-- No notice still to come contradicts a flag that the section changes. -/
theorem not_contradicts_of_changed {st : State} {i : Nat} {s l : Int} {code : Code}
    {samgrProxy : Option Bool} {state : ListenerState}
    (order : overtakes st (.enter i (.findAndNotifyAbilityListeners s code) samgrProxy) = false)
    (before : Registered st.manager.localListenerMap s l state)
    (changed : stateAfter code state ≠ state) :
    contradicts st s l (stateAfter code state) = false := by
  have member := mem_withState.mpr before
  cases code with
  | onAddSystemAbility =>
    cases state with
    | init => exact Bool.eq_false_iff.mpr (List.any_eq_false.mp order l member)
    | notified => exact False.elim (changed rfl)
  | onRemoveSystemAbility =>
    cases state with
    | init => exact False.elim (changed rfl)
    | notified => exact Bool.eq_false_iff.mpr (List.any_eq_false.mp order l member)
  | other => exact False.elim (changed rfl)

theorem Told.find {P : Process} {s l : Int} {st : State} {i : Nat} {s' : Int} {code : Code}
    {samgrProxy : Option Bool} (told : Told P s l st)
    (table : TableOk st.manager.localListenerMap) (idle : st.threads[i]? = some .idle)
    (order : overtakes st (.enter i (.findAndNotifyAbilityListeners s' code) samgrProxy) = false) :
    Told P s l ⟨(findAndNotifyAbilityListeners st.manager s' code).manager,
      st.threads.set i (resume (.findAndNotifyAbilityListeners s' code)
        (findAndNotifyAbilityListeners st.manager s' code).effects)⟩ := by
  by_cases mine : s' = s
  · subst mine
    constructor
    · intro state code' after known awaited
      obtain ⟨before, registered, rfl⟩ := (findSection_registered _ s' code).mp after
      rw [if_pos rfl]
      rcases (awaits_enters idle code').mp awaited with awaited | ⟨-, member⟩
      · by_cases changed : stateAfter code before = before
        · rw [changed]
          exact told.coming before code' registered known awaited
        · exact fits_of_contradicts (not_contradicts_of_changed order registered changed) known
            awaited
      · obtain ⟨rfl, inside⟩ := mem_findEffects.mp member
        obtain ⟨state, found, notified⟩ := (findSection_notifies _ s' code').mp inside
        rw [registered.unique table found]
        exact fits_stateAfter notified
    · intro state code' after none received
      obtain ⟨before, registered, rfl⟩ := (findSection_registered _ s' code).mp after
      rw [if_pos rfl]
      by_cases changed : stateAfter code before = before
      · rw [changed]
        exact told.last before code' registered (none_awaits_enters idle none) received
      · -- A changed flag would be followed by a notice.
        have notified := notifies_of_stateAfter_ne changed
        have member := mem_findEffects.mpr
          ⟨rfl, (findSection_notifies _ s' code).mpr ⟨before, registered, notified⟩⟩
        have known : code ≠ .other := by
          rintro rfl
          cases notified
        have quiet := none code known
        rw [Bool.eq_false_iff, Ne, awaits_enters idle] at quiet
        exact False.elim (quiet (Or.inr ⟨rfl, member⟩))
    · exact told.loaded
  · refine told.carry ?_ ?_ rfl
    · intro state after
      obtain ⟨before, registered, rfl⟩ := (findSection_registered _ s' code).mp after
      rw [if_neg (fun h => mine h.symm)]
      exact registered
    · exact fun code' => owes_enters_same idle (fun about => False.elim (mine about))

theorem Told.enters {P : Process} {s l : Int} {st : State} {i : Nat} {call : Call}
    {samgrProxy : Option Bool} (told : Told P s l st)
    (table : TableOk st.manager.localListenerMap) (idle : st.threads[i]? = some .idle)
    (order : overtakes st (.enter i call samgrProxy) = false) :
    Told P s l ⟨(enter P st.manager samgrProxy call).manager,
      st.threads.set i (resume call (enter P st.manager samgrProxy call).effects)⟩ := by
  rcases enter_cases P st.manager samgrProxy call with ⟨-, entered⟩ |
    ⟨-, ⟨s', l', object, rfl, rfl, entered⟩ | ⟨s', l', rfl, entered⟩ | ⟨s', code, rfl, entered⟩⟩ <;>
    rw [entered]
  · refine told.carry (fun _ registered => registered) ?_ rfl
    exact fun code => owes_enters_same idle (fun _ => List.not_mem_nil)
  · exact told.add idle order
  · exact told.remove idle
  · exact told.find table idle order

theorem Told.notify {P : Process} {s l : Int} {st : State} {i : Nat} {call : Call} {code : Code}
    {rest : List Effect} (told : Told P s l st)
    (found : st.threads[i]? = some (.inCall call (.notifyAbilityListener l code :: rest)))
    (about : call.about = s) :
    Told P s l ⟨notifyAbilityListener P st.manager s l code,
      st.threads.set i (resume call rest)⟩ := by
  have log : lastCallback s l (notifyAbilityListener P st.manager s l code).log =
      if s = s ∧ l = l ∧ (P.localAbilityMap l && decide (code ≠ .other)) = true then some code
      else lastCallback s l st.manager.log :=
    rfl
  constructor
  · intro state code' registered known awaited
    exact told.coming state code' registered known (owes_before_performs found awaited)
  · intro state code' registered none received
    rw [log] at received
    split at received
    · rename_i called
      obtain rfl := Option.some.inj received
      have known : code ≠ .other := by simpa using (Bool.and_eq_true_iff.mp called.2.2).2
      exact told.coming state code registered known (about ▸ owes_first found)
    · rename_i uncalled
      -- The ability is loaded, so the code was one that has no callback.
      have unknown : code = .other := by
        by_contra known
        exact uncalled ⟨rfl, rfl, by simp [told.loaded code' received, known]⟩
      refine told.last state code' registered ?_ received
      intro later known
      rw [← none later known]
      refine (owes_performs_same found ?_).symm
      rintro ⟨-, same⟩
      cases same
      exact known unknown
  · intro code' received
    rw [log] at received
    split at received
    · rename_i called
      exact (Bool.and_eq_true_iff.mp called.2.2).1
    · exact told.loaded code' received

theorem Told.performs {P : Process} {s l : Int} {st : State} {i : Nat} {call : Call}
    {effect : Effect} {rest : List Effect} {reply : Reply} (told : Told P s l st)
    (found : st.threads[i]? = some (.inCall call (effect :: rest))) :
    Told P s l ⟨(perform P st.manager call.about reply effect).1,
      st.threads.set i (resume call rest)⟩ := by
  by_cases mine : ∃ code, call.about = s ∧ effect = .notifyAbilityListener l code
  · obtain ⟨code, about, rfl⟩ := mine
    subst about
    exact told.notify found rfl
  · have other : ∀ code, ¬ (call.about = s ∧ effect = .notifyAbilityListener l code) :=
      fun code same => mine ⟨code, same⟩
    refine told.carry ?_ ?_ (lastNotice_perform other)
    · intro state registered
      rw [perform_localListenerMap] at registered
      exact registered
    · intro code
      apply owes_performs_same found
      exact fun same => other code ⟨same.1, same.2.symm⟩

theorem reachable_told {P : Process} {n : Nat} {st : State}
    (reach : (machine P n).Reachable InOrder st) (s l : Int) : Told P s l st := by
  refine reach.invariant (Told P s l) (told_start P n s l) ?_
  intro st a st' before told order next
  cases moves_of_step next with
  | enters idle => exact told.enters (reachable_tableOk before) idle order
  | performs found => exact told.performs found

/-- When no notice is overtaken, a listener is `NOTIFIED` exactly when its last
callback was `OnAddSystemAbility`. -/
theorem notified_iff_lastCallback {P : Process} {n : Nat} {st : State}
    (reach : (machine P n).Reachable InOrder st) (quiet : Quiet st) {s l : Int}
    {state : ListenerState} (registered : Registered st.manager.localListenerMap s l state)
    {code : Code} (received : lastCallback s l st.manager.log = some code) :
    state = .notified ↔ code = .onAddSystemAbility :=
  (reachable_told reach s l).last state code registered
    (fun code _ => quiet.owes s (.notifyAbilityListener l code)) received

/-- Listener 3 is told directly, and then the ability is reported down. -/
def orderedSchedule : List Action :=
  [.enter 0 (.addSystemAbilityListener 1 2) (some true), .perform 0 .good,
    .enter 0 (.addSystemAbilityListener 1 3) (some true), .perform 0 .good,
    .enter 1 (.findAndNotifyAbilityListeners 1 .onRemoveSystemAbility) none,
    .perform 1 .good, .perform 1 .good]

def afterOrdered : State :=
  ((machine anyProcess 2).run InOrder (machine anyProcess 2).init orderedSchedule).get (by decide)

theorem notified_iff_lastCallback_ordered :
    Registered afterOrdered.manager.localListenerMap 1 3 .init ∧
      (ListenerState.init = .notified ↔ Code.onRemoveSystemAbility = .onAddSystemAbility) := by
  have registered : Registered afterOrdered.manager.localListenerMap 1 3 .init :=
    ⟨[(2, .init), (3, .init)], by decide, by decide⟩
  exact ⟨registered, notified_iff_lastCallback (Machine.reachable_get orderedSchedule (by decide))
    (by decide) registered (by decide)⟩

/-- The direct notice of thread 0 is overtaken by the report on thread 1. -/
def overtakenSchedule : List Action :=
  [.enter 0 (.addSystemAbilityListener 1 2) (some true), .perform 0 .good,
    .enter 0 (.addSystemAbilityListener 1 3) (some true),
    .enter 1 (.findAndNotifyAbilityListeners 1 .onRemoveSystemAbility) none,
    .perform 1 .good, .perform 1 .good, .perform 0 .good]

def afterOvertaken : State :=
  ((machine anyProcess 2).run Free (machine anyProcess 2).init overtakenSchedule).get (by decide)

theorem notified_contradicts_lastCallback :
    ∃ st s l state code, (machine anyProcess 2).Reachable Free st ∧ Quiet st ∧
      Registered st.manager.localListenerMap s l state ∧
      lastCallback s l st.manager.log = some code ∧
      ¬ (state = .notified ↔ code = .onAddSystemAbility) :=
  ⟨afterOvertaken, 1, 3, .init, .onAddSystemAbility,
    Machine.reachable_get overtakenSchedule (by decide), by decide,
    ⟨[(2, .init), (3, .init)], by decide, by decide⟩, by decide, by decide⟩

end NoticeOrder
