import Mathlib.Algebra.Group.Even
import Mathlib.Algebra.Ring.Parity
import Safwk.ListenerCalls

/-!
# Subscriptions when samgr calls fail

A call that returns true should leave the process subscribed exactly to the
abilities that have listeners. The table is changed before samgr is asked and
is not put back when samgr fails, so the agreement of one ability is a parity:
it is lost by one change that samgr did not carry out and found again by the
next one. The result below says exactly which calls return true out of
agreement. Lookups, subscriptions and unsubscriptions fail as they like.
-/

namespace SubscriptionFailures

open ListenerTable ListenerManager ListenerCalls Transition

/-- How often the entry was created or erased since samgr last carried out a
call about the ability. -/
def openChanges (s : Int) : List Event → Nat
  | [] => 0
  | .entryChanged s' :: log => openChanges s log + if s' = s then 1 else 0
  | .samgrDone s' :: log => if s' = s then 0 else openChanges s log
  | _ :: log => openChanges s log

/-- Every change that samgr has not carried out turns the agreement over. -/
def Tally (s : Int) (m : Manager) : Prop := Agree s m ↔ Even (openChanges s m.log)

theorem openChanges_notices (P : Process) (s s' : Int) (code : Code) (listenerSaIdVec : List Int)
    (log : List Event) :
    openChanges s (notices P s' code listenerSaIdVec ++ log) = openChanges s log := by
  induction listenerSaIdVec generalizing log with
  | nil => rfl
  | cons l rest ih =>
    rw [notices_cons, ih]
    rfl

theorem openChanges_addEvents (map : ListenerMap) (s s' l : Int) (log : List Event) :
    openChanges s (addEvents map s' l ++ log) =
      openChanges s log + if s' = s ∧ (map s').isNone = true then 1 else 0 := by
  rw [addEvents]
  cases listed map s' l <;> cases (map s').isNone <;> simp [openChanges]

theorem tally_start (s : Int) : Tally s start := by
  simp [Tally, Agree, start, openChanges]

/-- A new entry flips both sides; any other section of `Add` keeps both. -/
theorem Tally.enterAdd {s : Int} {m : Manager} (tally : Tally s m) (s' l : Int) (object : Bool) :
    Tally s (enterAdd m s' l object).manager := by
  rw [Tally, Agree] at tally ⊢
  simp only [ListenerManager.enterAdd, openChanges_addEvents]
  by_cases same : s' = s
  · subst same
    rw [addSection_isSome]
    cases found : m.localListenerMap s' with
    | none =>
      rw [found] at tally
      simp only [Option.isNone_none, and_self, if_true, Nat.even_add_one, ← tally]
      cases m.subscribed s' <;> simp
    | some listenerList => simpa [found] using tally
  · rw [addSection_other _ s' l object (fun h => same h.symm)]
    simpa [same] using tally

theorem Tally.enterRemove {s : Int} {m : Manager} (tally : Tally s m) (s' l : Int) :
    Tally s (enterRemove m s' l).manager := by
  rw [Tally, Agree] at tally ⊢
  simp only [ListenerManager.enterRemove]
  by_cases same : s' = s
  · subst same
    rw [removeSection_isSome]
    cases erased : (removeSection m.localListenerMap s' l).erased with
    | false => simpa [openChanges] using tally
    | true =>
      have present := removeSection_erased_isSome _ s' l erased
      rw [present] at tally ⊢
      simp only [if_true, List.singleton_append, openChanges, Nat.even_add_one, ← tally]
      cases m.subscribed s' <;> simp
  · rw [removeSection_other _ s' l (fun h => same h.symm)]
    cases (removeSection m.localListenerMap s' l).erased <;> simpa [openChanges, same] using tally

theorem Tally.find {s : Int} {m : Manager} (tally : Tally s m) (s' : Int) (code : Code) :
    Tally s (findAndNotifyAbilityListeners m s' code).manager := by
  rw [Tally, Agree] at tally ⊢
  simp only [findAndNotifyAbilityListeners, findSection_isSome, openChanges]
  exact tally

theorem Tally.noticed {s : Int} {m : Manager} (tally : Tally s m) (P : Process) (s' : Int)
    (code : Code) (listenerSaIdVec : List Int) :
    Tally s { m with log := notices P s' code listenerSaIdVec ++ m.log } := by
  rw [Tally] at tally ⊢
  rw [openChanges_notices]
  exact tally

/-- What samgr carries out agrees with the table, so the count starts again. -/
theorem Tally.samgrDone {s : Int} {m : Manager} (tally : Tally s m) (s' : Int) (subscribed : Bool)
    (agrees : (m.localListenerMap s').isSome = subscribed) :
    Tally s (samgrDone m s' subscribed) := by
  rw [Tally, Agree] at tally ⊢
  simp only [ListenerManager.samgrDone, openChanges]
  by_cases same : s' = s
  · subst same
    simp [agrees]
  · rw [Function.update_of_ne (fun h => same h.symm)]
    simpa [same] using tally

theorem tally_of_does {P : Process} {m m' : Manager} {a : Label} {result : Bool} {s : Int}
    (did : Does P m a m' result) (before : Tally s m) : Tally s m' := by
  cases did with
  | refused => exact before
  | addedDirectly => exact (before.enterAdd _ _ _).noticed P _ _ _
  | @addedSubscribed s' l object _ _ _ =>
    exact (before.enterAdd _ _ _).samgrDone s' true (addSection_isSome _ s' l object)
  | addedFailed => exact before.enterAdd _ _ _
  | removedKept => exact before.enterRemove _ _
  | @removedUnsubscribed s' l _ _ _ erased =>
    refine (before.enterRemove _ _).samgrDone s' false ?_
    simp [enterRemove, removeSection_isSome, erased]
  | removedFailed => exact before.enterRemove _ _
  | found => exact (before.find _ _).noticed P _ _ _

theorem reachable_tally {P : Process} {ok : Manager → Label → Prop} {m : Manager}
    (reach : (machine P).Reachable ok m) (s : Int) : Tally s m := by
  refine reach.invariant (Tally s) (tally_start s) ?_
  intro m a m' _ tally _ next
  obtain rfl : (doCall P m a).1 = m' := Option.some.inj next
  exact tally_of_does (does P m a) tally

/-- The call will ask samgr to subscribe or to unsubscribe. -/
def asksSamgr (m : Manager) : Call → Bool
  | .addSystemAbilityListener s l => decide (sizeAfterAdd m.localListenerMap s l ≤ 1)
  | .removeSystemAbilityListener s l => onlyListener m.localListenerMap s l
  | .findAndNotifyAbilityListeners _ _ => false

/-- The call passes its checks and returns true without asking samgr. -/
def Shortcut (P : Process) (m : Manager) (a : Label) : Prop :=
  accepts P a.samgrProxy a.call = true ∧ asksSamgr m a.call = false

/-- A call that asks samgr, or fails its checks, returns true only in agreement. -/
theorem agree_of_asked {P : Process} {m m' : Manager} {a : Label} {s : Int}
    (did : Does P m a m' true) (concerns : Concerns s a.call) (table : TableOk m.localListenerMap)
    (asked : ¬ Shortcut P m a) : Agree s m' := by
  cases did with
  | addedDirectly yes long =>
    exact False.elim (asked ⟨yes, decide_eq_false (Nat.not_le.mpr long)⟩)
  | @addedSubscribed s' l object _ _ _ =>
    obtain rfl : s' = s := concerns
    simp only [Agree, samgrDone, Function.update_self]
    exact (addSection_isSome _ s' l object).symm
  | @removedKept s' l _ _ yes kept =>
    rw [removeSection_erased _ s' l table] at kept
    exact False.elim (asked ⟨yes, kept⟩)
  | @removedUnsubscribed s' l _ _ _ erased =>
    obtain rfl : s' = s := concerns
    simp [Agree, samgrDone, enterRemove, removeSection_isSome, erased]
  | found => exact False.elim concerns

/-- A shortcut returns true and changes neither the entry nor the subscription. -/
theorem openChanges_of_shortcut {P : Process} {m m' : Manager} {a : Label} {result : Bool}
    {s : Int} (did : Does P m a m' result) (table : TableOk m.localListenerMap)
    (shortcut : Shortcut P m a) :
    result = true ∧ openChanges s m'.log = openChanges s m.log := by
  obtain ⟨accepted, asks⟩ := shortcut
  cases did with
  | refused no =>
    rw [no] at accepted
    cases accepted
  | @addedDirectly s' l object _ _ long =>
    refine ⟨rfl, ?_⟩
    rw [openChanges_notices]
    simp [enterAdd, openChanges_addEvents, isNone_of_long _ _ _ long]
  | addedSubscribed _ short => exact False.elim (short (Nat.not_le.mp (of_decide_eq_false asks)))
  | addedFailed _ short => exact False.elim (short (Nat.not_le.mp (of_decide_eq_false asks)))
  | @removedKept s' l _ _ _ kept => exact ⟨rfl, by simp [enterRemove, kept, openChanges]⟩
  | @removedUnsubscribed s' l _ _ _ erased =>
    rw [removeSection_erased _ s' l table] at erased
    exact False.elim (Bool.false_ne_true (asks.symm.trans erased))
  | @removedFailed s' l _ _ _ erased =>
    rw [removeSection_erased _ s' l table] at erased
    exact False.elim (Bool.false_ne_true (asks.symm.trans erased))
  | found => exact ⟨rfl, openChanges_notices P s _ _ _ _⟩

/-- A call that returns true leaves the ability in agreement, unless it took a
shortcut on an agreement that was already lost. -/
theorem returnsTrue_agree_iff {P : Process} {m : Manager} {s : Int} {a : Label}
    (reach : (machine P).Reachable Free m) (concerns : Concerns s a.call) :
    ((doCall P m a).2 = true → Agree s (doCall P m a).1) ↔
      (Shortcut P m a → Even (openChanges s m.log)) := by
  have table := reachable_tableOk reach
  have did := does P m a
  have after := tally_of_does did (reachable_tally reach s)
  constructor
  · intro agrees shortcut
    obtain ⟨returned, same⟩ := openChanges_of_shortcut (s := s) did table shortcut
    rw [← same]
    exact after.mp (agrees returned)
  · intro even returned
    by_cases shortcut : Shortcut P m a
    · obtain ⟨-, same⟩ := openChanges_of_shortcut (s := s) did table shortcut
      apply after.mpr
      rw [same]
      exact even shortcut
    · rw [returned] at did
      exact agree_of_asked did concerns table shortcut

/-- Its `SubscribeSystemAbility` fails after the entry has been created. -/
def failedAdd : Label := ⟨.addSystemAbilityListener 1 2, some true, ⟨true, 1⟩⟩

def afterFailedAdd : Manager := (doCall anyProcess start failedAdd).1

theorem afterFailedAdd_reachable : (machine anyProcess).Reachable Free afterFailedAdd :=
  .step .init trivial rfl

/-- The same listener tries again: samgr is asked again. -/
def retriedAdd : Label := ⟨.addSystemAbilityListener 1 2, some true, .good⟩

theorem returnsTrue_agree_retried :
    (doCall anyProcess afterFailedAdd retriedAdd).2 = true ∧
      Agree 1 (doCall anyProcess afterFailedAdd retriedAdd).1 := by
  have returned : (doCall anyProcess afterFailedAdd retriedAdd).2 = true := by decide
  have concerns : Concerns 1 retriedAdd.call := rfl
  refine ⟨returned, (returnsTrue_agree_iff afterFailedAdd_reachable concerns).mpr ?_ returned⟩
  rintro ⟨-, asks⟩
  revert asks
  decide

/-- Another listener finds the half-made entry and does not subscribe. -/
theorem returnsTrue_disagree :
    ∃ m a s, (machine anyProcess).Reachable Free m ∧ Concerns s a.call ∧
      (doCall anyProcess m a).2 = true ∧ ¬ Agree s (doCall anyProcess m a).1 :=
  ⟨afterFailedAdd, ⟨.addSystemAbilityListener 1 3, some true, .good⟩, 1,
    afterFailedAdd_reachable, rfl, by decide, by decide⟩

end SubscriptionFailures
