import Safwk.SamgrCallbacks

/-!
# Start notices and deliveries still under way

A delivery decides whom to notify under the lock and notifies outside it. A
listener that removes itself and registers again during such a delivery is
pushed as `NOTIFIED` when the ability is up, and is then still handed the old
report that the ability is down. The report that it is up again skips it.

All listeners of an ability that is up end marked, whatever the schedule. That
the last code handed to each of them is `ON_ADD_SYSTEM_ABILITY` needs that no
listener is pushed as `NOTIFIED` while a delivery owes it the other report.
-/

namespace LostNotices

open ListenerTable ListenerManager ListenerThreads SubscriptionRaces SamgrCallbacks Transition
  Threads

/-- A listener is pushed as `NOTIFIED` while a delivery owes it a report that the
ability is down. -/
def pushedEarly (w : World) : SamgrCallbacks.Action → Bool
  | .add _ s l =>
    !listed w.state.manager.localListenerMap s l &&
      needNotify w.state.manager.localListenerMap s (w.up s) &&
      awaits w.state s l .onRemoveSystemAbility
  | _ => false

def Waits (w : World) (a : SamgrCallbacks.Action) : Prop := pushedEarly w a = false

instance (w : World) (a : SamgrCallbacks.Action) : Decidable (Waits w a) :=
  inferInstanceAs (Decidable (pushedEarly w a = false))

/-! ## Who owes which notice -/

/-- Reports that an ability is down are owed only by deliveries. -/
def OwedByDelivery (st : State) : Prop :=
  ∀ call todo l code, Thread.inCall call todo ∈ st.threads →
    .notifyAbilityListener l code ∈ todo →
    code ≠ .other ∧ (code = .onRemoveSystemAbility → inDelivery (.inCall call todo) = true)

theorem enter_owedByDelivery {P : Process} {m : Manager} {samgrProxy : Option Bool} {call : Call}
    {l : Int} {code : Code}
    (member : .notifyAbilityListener l code ∈ (enter P m samgrProxy call).effects) :
    code ≠ .other ∧ (code = .onRemoveSystemAbility →
      inDelivery (.inCall call (enter P m samgrProxy call).effects) = true) := by
  rcases enter_cases P m samgrProxy call with ⟨-, entered⟩ |
    ⟨-, ⟨s, l', object, rfl, rfl, entered⟩ | ⟨s, l', rfl, entered⟩ | ⟨s, code', rfl, entered⟩⟩ <;>
    rw [entered] at member
  · cases member
  · obtain ⟨-, rfl, -, -⟩ := mem_addEffects member
    exact ⟨by decide, fun h => (by cases h)⟩
  · rw [enterRemove_effects] at member
    split at member
    · cases List.mem_singleton.mp member
    · cases member
  · obtain ⟨rfl, inside⟩ := mem_findEffects.mp member
    obtain ⟨state, -, notified⟩ := (findSection_notifies _ s code).mp inside
    refine ⟨?_, fun _ => rfl⟩
    rintro rfl
    cases notified

theorem reachable_owedByDelivery {P : Process} {n : Nat} {ok : State → ListenerThreads.Action → Prop}
    {st : State} (reach : (ListenerThreads.machine P n).Reachable ok st) : OwedByDelivery st := by
  refine reach.invariant OwedByDelivery ?_ ?_
  · intro call todo l code member
    cases List.eq_of_mem_replicate member
  · intro st a st' _ owed _ next call todo l code member owes
    cases ListenerThreads.moves_of_step next with
    | enters idle =>
      rcases mem_set_cases member with same | member
      · obtain ⟨rfl, rfl⟩ := resume_eq_inCall same.symm
        exact enter_owedByDelivery owes
      · exact owed call todo l code member owes
    | @performs i reply call' effect rest found =>
      rcases mem_set_cases member with same | member
      · obtain ⟨rfl, rfl⟩ := resume_eq_inCall same.symm
        have before := owed call (effect :: todo) l code (mem_of_getElem? found)
          (List.mem_cons_of_mem effect owes)
        refine ⟨before.1, fun removed => ?_⟩
        have delivering := before.2 removed
        cases call with
        | addSystemAbilityListener s l' => cases delivering
        | removeSystemAbilityListener s l' => cases delivering
        | findAndNotifyAbilityListeners s code' => rfl
      · exact owed call todo l code member owes

/-- Without a delivery nobody is owed a report that the ability is down. -/
theorem OwedByDelivery.alone {st : State} (owed : OwedByDelivery st)
    (alone : st.threads.any inDelivery = false) (s l : Int) :
    awaits st s l .onRemoveSystemAbility = false := by
  apply List.any_eq_false.mpr
  intro t member awaited
  cases t with
  | idle => cases awaited
  | inCall call todo =>
    simp only [owesIn, Bool.and_eq_true, decide_eq_true_eq] at awaited
    exact List.any_eq_false.mp alone _ member
      ((owed call todo l _ member awaited.2).2 rfl)

/-! ## A marked listener has been told, or is about to be -/

def Informed (s l : Int) (st : State) : Prop :=
  Registered st.manager.localListenerMap s l .notified →
    awaits st s l .onRemoveSystemAbility = false ∧
      (awaits st s l .onAddSystemAbility = true ∨
        lastHandOver s l st.manager.log = some .onAddSystemAbility)

/-- A section that keeps the flag, notifies only of starts and registers nobody
anew keeps the listener informed. -/
theorem Informed.enterKept {s l : Int} {st : State} {i : Nat} {m : Manager} {call : Call}
    {todo : List Effect} (informed : Informed s l st) (idle : st.threads[i]? = some .idle)
    (before : Registered st.manager.localListenerMap s l .notified)
    (apart : call.about = s → .notifyAbilityListener l .onRemoveSystemAbility ∉ todo)
    (log : lastHandOver s l m.log = lastHandOver s l st.manager.log) :
    awaits ⟨m, st.threads.set i (resume call todo)⟩ s l .onRemoveSystemAbility = false ∧
      (awaits ⟨m, st.threads.set i (resume call todo)⟩ s l .onAddSystemAbility = true ∨
        lastHandOver s l m.log = some .onAddSystemAbility) := by
  obtain ⟨quiet, told⟩ := informed before
  refine ⟨(owes_enters_same idle apart).trans quiet, ?_⟩
  rw [log, awaits_enters idle]
  exact told.imp_left Or.inl

theorem Informed.add {s l : Int} {st : State} {i : Nat} {s' l' : Int} {object : Bool}
    (informed : Informed s l st) (idle : st.threads[i]? = some .idle)
    (waits : s' = s → l' = l → listed st.manager.localListenerMap s' l' = false →
      needNotify st.manager.localListenerMap s' object = true →
      awaits st s' l' .onRemoveSystemAbility = false) :
    Informed s l ⟨(enterAdd st.manager s' l' object).manager,
      st.threads.set i (resume (.addSystemAbilityListener s' l')
        (enterAdd st.manager s' l' object).effects)⟩ := by
  have starts : .notifyAbilityListener l .onRemoveSystemAbility ∉
      (enterAdd st.manager s' l' object).effects := by
    intro member
    cases (mem_addEffects member).2.1
  intro after
  rcases (addSection_registered _ s' l' object).mp after with before | ⟨rfl, rfl, fresh, flag⟩
  · refine informed.enterKept idle before (fun _ => starts) ?_
    refine lastNotice_addEvents.trans (if_neg ?_)
    rintro ⟨rfl, rfl, fresh⟩
    rw [listed_iff.mpr ⟨_, before⟩] at fresh
    cases fresh
  · have need : needNotify st.manager.localListenerMap s object = true := by
      by_contra no
      rw [Bool.eq_false_iff.mpr no] at flag
      cases flag
    have long : 1 < sizeAfterAdd st.manager.localListenerMap s l := by
      have nonempty : 0 < ((st.manager.localListenerMap s).getD []).length :=
        of_decide_eq_true (Bool.and_eq_true_iff.mp need).1
      simp only [sizeAfterAdd, fresh]
      simpa using nonempty
    refine ⟨(owes_enters_same idle (fun _ => starts)).trans (waits rfl rfl fresh need), Or.inl ?_⟩
    rw [awaits_enters idle, enterAdd_effects, if_pos long, if_pos need]
    exact Or.inr ⟨rfl, List.mem_singleton_self _⟩

theorem Informed.remove {s l : Int} {st : State} {i : Nat} {s' l' : Int}
    (informed : Informed s l st) (idle : st.threads[i]? = some .idle) :
    Informed s l ⟨(enterRemove st.manager s' l').manager,
      st.threads.set i (resume (.removeSystemAbilityListener s' l')
        (enterRemove st.manager s' l').effects)⟩ := by
  intro after
  refine informed.enterKept idle (removeSection_registered _ s' l' after) ?_ lastNotice_enterRemove
  intro _ member
  rw [enterRemove_effects] at member
  split at member
  · cases List.mem_singleton.mp member
  · cases member

theorem Informed.find {s l : Int} {st : State} {i : Nat} {s' : Int} {code : Code}
    (informed : Informed s l st) (idle : st.threads[i]? = some .idle)
    (alone : awaits st s l .onRemoveSystemAbility = false) :
    Informed s l ⟨(findAndNotifyAbilityListeners st.manager s' code).manager,
      st.threads.set i (resume (.findAndNotifyAbilityListeners s' code)
        (findAndNotifyAbilityListeners st.manager s' code).effects)⟩ := by
  intro after
  obtain ⟨state, before, flag⟩ := (findSection_registered _ s' code).mp after
  have starts : s' = s → .notifyAbilityListener l .onRemoveSystemAbility ∉
      (findAndNotifyAbilityListeners st.manager s' code).effects := by
    rintro rfl member
    obtain ⟨rfl, -⟩ := mem_findEffects.mp member
    rw [if_pos rfl] at flag
    cases flag
  cases state with
  | notified => exact informed.enterKept idle before starts rfl
  | init =>
    -- The flag was raised by this very section, which then notifies the listener.
    have mine : s = s' := by
      by_contra other
      rw [if_neg other] at flag
      cases flag
    subst mine
    have raised : code = .onAddSystemAbility := by
      rw [if_pos rfl] at flag
      cases code with
      | onAddSystemAbility => rfl
      | onRemoveSystemAbility => cases flag
      | other => cases flag
    subst raised
    refine ⟨(owes_enters_same idle (fun _ => starts rfl)).trans alone, Or.inl ?_⟩
    rw [awaits_enters idle]
    refine Or.inr ⟨rfl, mem_findEffects.mpr ⟨rfl, ?_⟩⟩
    exact (findSection_notifies _ s .onAddSystemAbility).mpr ⟨.init, before, rfl⟩

theorem Informed.enters {P : Process} {s l : Int} {st : State} {i : Nat} {call : Call}
    {samgrProxy : Option Bool} (informed : Informed s l st) (idle : st.threads[i]? = some .idle)
    (waits : ∀ object, call = .addSystemAbilityListener s l → samgrProxy = some object →
      listed st.manager.localListenerMap s l = false →
      needNotify st.manager.localListenerMap s object = true →
      awaits st s l .onRemoveSystemAbility = false)
    (alone : ∀ s' code, call = .findAndNotifyAbilityListeners s' code →
      awaits st s l .onRemoveSystemAbility = false) :
    Informed s l ⟨(enter P st.manager samgrProxy call).manager,
      st.threads.set i (resume call (enter P st.manager samgrProxy call).effects)⟩ := by
  rcases enter_cases P st.manager samgrProxy call with ⟨-, entered⟩ |
    ⟨-, ⟨s', l', object, rfl, rfl, entered⟩ | ⟨s', l', rfl, entered⟩ | ⟨s', code, rfl, entered⟩⟩ <;>
    rw [entered]
  · intro before
    exact informed.enterKept idle before (fun _ => List.not_mem_nil) rfl
  · apply informed.add idle
    rintro rfl rfl
    exact waits object rfl rfl
  · exact informed.remove idle
  · exact informed.find idle (alone s' code rfl)

theorem Informed.performs {P : Process} {s l : Int} {st : State} {i : Nat} {call : Call}
    {effect : Effect} {rest : List Effect} {reply : Reply} (informed : Informed s l st)
    (owed : OwedByDelivery st)
    (found : st.threads[i]? = some (.inCall call (effect :: rest))) :
    Informed s l ⟨(perform P st.manager call.about reply effect).1,
      st.threads.set i (resume call rest)⟩ := by
  intro after
  rw [perform_localListenerMap] at after
  obtain ⟨quiet, told⟩ := informed after
  refine ⟨Bool.eq_false_iff.mpr fun later => ?_, ?_⟩
  · rw [show awaits st s l .onRemoveSystemAbility = true from owes_before_performs found later]
      at quiet
    cases quiet
  · by_cases mine : ∃ code, call.about = s ∧ effect = .notifyAbilityListener l code
    · obtain ⟨code, rfl, rfl⟩ := mine
      have known := (owed call _ l code (mem_of_getElem? found) List.mem_cons_self).1
      have started : code = .onAddSystemAbility := by
        cases code with
        | onAddSystemAbility => rfl
        | onRemoveSystemAbility =>
          rw [show awaits st call.about l .onRemoveSystemAbility = true from owes_first found]
            at quiet
          cases quiet
        | other => exact False.elim (known rfl)
      subst started
      refine Or.inr ?_
      simp [perform, notifyAbilityListener, lastHandOver, lastNotice]
    · have other : ∀ code, ¬ (call.about = s ∧ effect = .notifyAbilityListener l code) :=
        fun code same => mine ⟨code, same⟩
      rcases told with awaited | handed
      · refine Or.inl ((owes_after_performs found awaited).resolve_right ?_)
        exact fun same => other _ ⟨same.1, same.2.symm⟩
      · exact Or.inr ((lastNotice_perform other).trans handed)

theorem Informed.moves {P : Process} {n : Nat} {s l : Int} {w w' : World}
    {a : SamgrCallbacks.Action}
    (inner : (ListenerThreads.machine P n).Reachable (InTurn P) w.state)
    (informed : Informed s l w.state) (waits : Waits w a)
    (moves : SamgrCallbacks.Moves P w a w') : Informed s l w'.state := by
  have owed := reachable_owedByDelivery inner
  cases moves with
  | adds alone next =>
    cases ListenerThreads.moves_of_step next with
    | enters idle =>
      refine informed.enters idle ?_ (fun _ _ same => (by cases same))
      rintro object same up fresh need
      cases same
      cases up
      simpa [Waits, pushedEarly, fresh, need] using waits
  | removes alone next =>
    cases ListenerThreads.moves_of_step next with
    | enters idle =>
      exact informed.enters idle (fun _ same => (by cases same)) (fun _ _ same => (by cases same))
  | performs next =>
    cases ListenerThreads.moves_of_step next with
    | performs found => exact informed.performs owed found
  | delivers queued alone next =>
    cases ListenerThreads.moves_of_step next with
    | enters idle =>
      exact informed.enters idle (fun _ same => (by cases same))
        (fun _ _ _ => owed.alone alone s l)
  | drops => exact informed
  | changes => exact informed

theorem reachable_informed {P : Process} {n : Nat} {w : World}
    (reach : (SamgrCallbacks.machine P n).Reachable Waits w) (s l : Int) :
    Informed s l w.state := by
  refine reach.invariant (fun w => Informed s l w.state) ?_ ?_
  · rintro ⟨listenerList, found, -⟩
    cases found
  · intro w a w' before informed waits next
    exact informed.moves (reachable_state before) waits (SamgrCallbacks.moves_of_step next)

/-- Listeners of an ability that is up are marked when nothing is in flight. -/
theorem marked_of_up {P : Process} {n : Nat} {ok : World → SamgrCallbacks.Action → Prop}
    {w : World} (reach : (SamgrCallbacks.machine P n).Reachable ok w) (quiet : Quiet w.state)
    (delivered : w.callbacks = []) {s l : Int} (up : w.up s = true) {state : ListenerState}
    (registered : Registered w.state.manager.localListenerMap s l state) : state = .notified := by
  have known : Known true s w := by
    refine reach.invariant (Known true s) (known_start P n true s) ?_
    intro w a w' before known _ next
    refine known.moves (reachable_state before) ?_ (SamgrCallbacks.moves_of_step next)
    intro _ _ _ _ down
    cases down
  exact known.flags (reachable_state reach) quiet delivered up registered

/-- When nothing is in flight, the ability is up and no listener was pushed
early, every listener is marked and was last told that the ability is up. -/
theorem started_notice_kept {P : Process} {n : Nat} {w : World}
    (reach : (SamgrCallbacks.machine P n).Reachable Waits w) (quiet : Quiet w.state)
    (delivered : w.callbacks = []) {s : Int} (up : w.up s = true) {l : Int}
    {state : ListenerState}
    (registered : Registered w.state.manager.localListenerMap s l state) :
    state = .notified ∧
      lastHandOver s l w.state.manager.log = some .onAddSystemAbility := by
  obtain rfl := marked_of_up reach quiet delivered up registered
  obtain ⟨-, told⟩ := reachable_informed reach s l registered
  refine ⟨rfl, told.resolve_left ?_⟩
  exact Bool.eq_false_iff.mp (quiet.owes s (.notifyAbilityListener l .onAddSystemAbility))

/-- Two listeners are told of a start; then the ability stops and starts. -/
def restartPrefix : List SamgrCallbacks.Action :=
  [.add 0 1 2, .perform 0, .add 0 1 3, .change 1 true, .deliver 1, .perform 1, .perform 1,
    .change 1 false, .change 1 true]

/-- The stop is delivered, and then listener 3 registers again. -/
def deliveredSchedule : List SamgrCallbacks.Action :=
  restartPrefix ++ [.deliver 1, .perform 1, .perform 1, .remove 0 1 3, .add 0 1 3, .perform 0,
    .deliver 1, .perform 1]

def afterDelivered : World :=
  ((SamgrCallbacks.machine anyProcess 2).run Waits (SamgrCallbacks.machine anyProcess 2).init
    deliveredSchedule).get (by decide)

theorem started_notice_kept_delivered :
    Registered afterDelivered.state.manager.localListenerMap 1 3 .notified ∧
      lastHandOver 1 3 afterDelivered.state.manager.log = some .onAddSystemAbility := by
  have registered : Registered afterDelivered.state.manager.localListenerMap 1 3 .notified :=
    ⟨[(2, .notified), (3, .notified)], by decide, by decide⟩
  exact ⟨registered, (started_notice_kept (Machine.reachable_get deliveredSchedule (by decide))
    (by decide) (by decide) (by decide) registered).2⟩

/-- Listener 3 registers again while the stop is being delivered. -/
def interruptedSchedule : List SamgrCallbacks.Action :=
  restartPrefix ++ [.deliver 1, .remove 0 1 3, .add 0 1 3, .perform 0, .perform 1, .perform 1,
    .deliver 1, .perform 1]

def afterInterrupted : World :=
  ((SamgrCallbacks.machine anyProcess 2).run Free (SamgrCallbacks.machine anyProcess 2).init
    interruptedSchedule).get (by decide)

theorem started_notice_lost :
    ∃ w s l state, (SamgrCallbacks.machine anyProcess 2).Reachable Free w ∧ Quiet w.state ∧
      w.callbacks = [] ∧ w.up s = true ∧
      Registered w.state.manager.localListenerMap s l state ∧
      lastHandOver s l w.state.manager.log = some .onRemoveSystemAbility :=
  ⟨afterInterrupted, 1, 3, .notified, Machine.reachable_get interruptedSchedule (by decide),
    by decide, by decide, by decide, ⟨[(2, .notified), (3, .notified)], by decide, by decide⟩,
    by decide⟩

end LostNotices
