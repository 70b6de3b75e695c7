import Safwk.Library.Trace
import Safwk.ListenerCalls

/-!
# One start notice for each time the ability is up

`FindAndNotifyAbilityListeners` skips a listener that is already `NOTIFIED`.
`AddSystemAbilityListener` hands over the same notice directly and looks only
at the length of the list and at samgr, so a listener that adds itself again
is told twice. Without such a call the flag and the hand-overs agree: either
the listener is marked, or its last start notice has been separated.
-/

namespace StartNotices

open ListenerTable ListenerManager ListenerCalls Transition Trace

/-- `ON_ADD_SYSTEM_ABILITY` is handed over to the listener. -/
def Handed (s l : Int) : Event → Prop
  | .notifyAbilityListener s' l' code _ => s' = s ∧ l' = l ∧ code = .onAddSystemAbility
  | _ => False

/-- The ability is reported down, or the listener removes itself. -/
def Separates (s l : Int) : Event → Prop
  | .findAndNotifyAbilityListeners s' code => s' = s ∧ code = .onRemoveSystemAbility
  | .removeSystemAbilityListener s' l' => s' = s ∧ l' = l
  | _ => False

/-- Between two start notices there is a separating call. -/
def Spaced (s l : Int) (log : List Event) : Prop :=
  Between (Handed s l) (Handed s l) (Separates s l) log

def Answered (s l : Int) (log : List Event) : Prop :=
  Cleared (Handed s l) (Separates s l) log

/-- No listener that is already registered adds itself while others listen too
and the ability is up. -/
def addsOnce (m : Manager) (a : Label) : Bool :=
  match a.call, a.samgrProxy with
  | .addSystemAbilityListener s l, some object =>
    !(listed m.localListenerMap s l && decide (1 < sizeAfterAdd m.localListenerMap s l) &&
      needNotify m.localListenerMap s object)
  | _, _ => true

def AddsOnce (m : Manager) (a : Label) : Prop := addsOnce m a = true

instance (m : Manager) (a : Label) : Decidable (AddsOnce m a) :=
  inferInstanceAs (Decidable (addsOnce m a = true))

/-- Notices are spaced, and an unanswered one is remembered by the flag. -/
structure Once (s l : Int) (m : Manager) : Prop where
  spaced : Spaced s l m.log
  marked : Registered m.localListenerMap s l .notified ∨ Answered s l m.log

theorem once_start (s l : Int) : Once s l start := ⟨between_nil, Or.inr cleared_nil⟩

/-- Events that hand nothing over keep the invariant when the flag stays or one
of them separates. -/
theorem Once.quiet {s l : Int} {m m' : Manager} (once : Once s l m) (events : List Event)
    (grows : m'.log = events ++ m.log) (quiet : ∀ e ∈ events, ¬ Handed s l e)
    (keeps : Registered m.localListenerMap s l .notified →
      Registered m'.localListenerMap s l .notified ∨ ∃ e ∈ events, Separates s l e) :
    Once s l m' := by
  constructor
  · rw [grows]
    exact between_append quiet once.spaced
  · rw [Answered]
    rw [grows]
    rcases once.marked with marked | answered
    · rcases keeps marked with marked' | separated
      · exact Or.inl marked'
      · exact Or.inr (cleared_append quiet (Or.inl separated))
    · exact Or.inr (cleared_append quiet (Or.inr answered))

/-- A round of notices reaches each listener at most once. -/
theorem spaced_notices {P : Process} {s l s' : Int} {code : Code} {listenerSaIdVec : List Int}
    {log : List Event} (distinct : listenerSaIdVec.Nodup) (spaced : Spaced s l log)
    (answered : s' = s → code = .onAddSystemAbility → l ∈ listenerSaIdVec → Answered s l log) :
    Spaced s l (notices P s' code listenerSaIdVec ++ log) := by
  induction listenerSaIdVec generalizing log with
  | nil => exact spaced
  | cons first rest ih =>
    obtain ⟨fresh, distinct'⟩ := List.nodup_cons.mp distinct
    rw [notices_cons]
    apply ih distinct'
    · apply (between_cons _ log).mpr
      refine ⟨?_, spaced⟩
      rintro ⟨rfl, rfl, rfl⟩
      exact answered rfl rfl List.mem_cons_self
    · intro hs hcode later
      apply (cleared_cons _ log).mpr
      refine ⟨?_, Or.inr (answered hs hcode (List.mem_cons_of_mem first later))⟩
      rintro ⟨-, rfl, -⟩
      exact fresh later

theorem addEvents_quiet {map : ListenerMap} {s l s' l' : Int} :
    ∀ e ∈ addEvents map s' l', ¬ Handed s l e := by
  intro e member handed
  rw [addEvents] at member
  rcases List.mem_append.mp member with member | member
  · split at member
    · cases member
    · rw [List.mem_singleton.mp member] at handed
      exact handed
  · split at member
    · rw [List.mem_singleton.mp member] at handed
      exact handed
    · cases member

theorem Once.enterAdd {s l : Int} {m : Manager} (once : Once s l m) (s' l' : Int)
    (object : Bool) : Once s l (enterAdd m s' l' object).manager := by
  refine once.quiet (addEvents m.localListenerMap s' l') rfl addEvents_quiet ?_
  intro marked
  exact Or.inl ((addSection_registered _ s' l' object).mpr (Or.inl marked))

theorem Once.enterRemove {s l : Int} {m : Manager} (once : Once s l m) (s' l' : Int) :
    Once s l (enterRemove m s' l').manager := by
  refine once.quiet ((if (removeSection m.localListenerMap s' l').erased then
      [.entryChanged s'] else []) ++ [.removeSystemAbilityListener s' l'])
    (by simp [ListenerManager.enterRemove]) ?_ ?_
  · intro e member handed
    split at member
    · rcases List.mem_cons.mp member with rfl | member
      · exact handed
      · rw [List.mem_singleton.mp member] at handed
        exact handed
    · rw [List.mem_singleton.mp member] at handed
      exact handed
  · intro marked
    by_cases mine : s = s' ∧ l = l'
    · exact Or.inr ⟨.removeSystemAbilityListener s' l', by simp, mine.1.symm, mine.2.symm⟩
    · exact Or.inl (removeSection_keeps _ s' l' marked mine)

theorem Once.samgrDone {s l : Int} {m : Manager} (once : Once s l m) (s' : Int)
    (subscribed : Bool) : Once s l (samgrDone m s' subscribed) := by
  refine once.quiet [.samgrDone s'] rfl ?_ Or.inl
  intro e member handed
  rw [List.mem_singleton.mp member] at handed
  exact handed

/-- The direct path: the listener is new, so no earlier notice is unanswered,
and it is pushed as `NOTIFIED`. -/
theorem Once.addDirectly {P : Process} {s l : Int} {m : Manager} (once : Once s l m) {s' l' : Int}
    {object : Bool} (need : needNotify m.localListenerMap s' object = true)
    (fresh : listed m.localListenerMap s' l' = false) :
    Once s l { (ListenerManager.enterAdd m s' l' object).manager with
      log := notices P s' .onAddSystemAbility [l'] ++
        (ListenerManager.enterAdd m s' l' object).manager.log } := by
  have entered := once.enterAdd s' l' object
  by_cases mine : s' = s ∧ l' = l
  · obtain ⟨rfl, rfl⟩ := mine
    have answered : Answered s' l' m.log := by
      rcases once.marked with marked | answered
      · have found := listed_iff.mpr ⟨_, marked⟩
        rw [fresh] at found
        cases found
      · exact answered
    constructor
    · apply spaced_notices (List.nodup_singleton l') entered.spaced
      rintro - - -
      exact cleared_append addEvents_quiet (Or.inr answered)
    · refine Or.inl ((addSection_registered _ s' l' object).mpr (Or.inr ⟨rfl, rfl, fresh, ?_⟩))
      rw [need]
      rfl
  · refine entered.quiet (notices P s' .onAddSystemAbility [l']) rfl ?_ Or.inl
    intro e member handed
    obtain ⟨x, inside, called, rfl⟩ := mem_notices member
    exact mine ⟨handed.1, (List.mem_singleton.mp inside).symm.trans handed.2.1⟩

theorem found_quiet {s l s' : Int} {code : Code} :
    ∀ e ∈ [Event.findAndNotifyAbilityListeners s' code], ¬ Handed s l e := by
  intro e member handed
  rw [List.mem_singleton.mp member] at handed
  exact handed

/-- The ability is reported up: a listener that is notified now was `INIT`, so
its last start notice is answered. -/
theorem Once.findStart {P : Process} {s l : Int} {m : Manager} (once : Once s l m)
    (table : TableOk m.localListenerMap) :
    Once s l { (findAndNotifyAbilityListeners m s .onAddSystemAbility).manager with
      log := notices P s .onAddSystemAbility
          (findSection m.localListenerMap s .onAddSystemAbility).2 ++
        (findAndNotifyAbilityListeners m s .onAddSystemAbility).manager.log } := by
  have answered : l ∈ (findSection m.localListenerMap s .onAddSystemAbility).2 →
      Answered s l m.log := by
    intro member
    obtain ⟨state, registered, notified⟩ := (findSection_notifies _ s _).mp member
    rcases once.marked with marked | answered
    · rw [registered.unique table marked] at notified
      cases notified
    · exact answered
  constructor
  · apply spaced_notices (findSection_nodup _ s _ table) (between_append found_quiet once.spaced)
    intro _ _ member
    exact cleared_append found_quiet (Or.inr (answered member))
  · by_cases present : ∃ state, Registered m.localListenerMap s l state
    · obtain ⟨state, registered⟩ := present
      exact Or.inl ((findSection_registered _ s .onAddSystemAbility).mpr
        ⟨state, registered, by rw [if_pos rfl]; rfl⟩)
    · rcases once.marked with marked | answered
      · exact False.elim (present ⟨_, marked⟩)
      · refine Or.inr (cleared_append ?_ (Or.inr (cleared_append found_quiet (Or.inr answered))))
        intro e member handed
        obtain ⟨x, inside, called, rfl⟩ := mem_notices member
        obtain ⟨state, registered, -⟩ := (findSection_notifies _ s _).mp inside
        exact present ⟨state, handed.2.1 ▸ registered⟩

/-- Any other report hands over no start notice; a report that the ability is
down clears the flag and separates. -/
theorem Once.findOther {P : Process} {s l : Int} {m : Manager} (once : Once s l m) {s' : Int}
    {code : Code} (other : ¬ (s' = s ∧ code = .onAddSystemAbility)) :
    Once s l { (findAndNotifyAbilityListeners m s' code).manager with
      log := notices P s' code (findSection m.localListenerMap s' code).2 ++
        (findAndNotifyAbilityListeners m s' code).manager.log } := by
  refine once.quiet (notices P s' code (findSection m.localListenerMap s' code).2 ++
    [.findAndNotifyAbilityListeners s' code]) (by simp [findAndNotifyAbilityListeners]) ?_ ?_
  · intro e member handed
    rcases List.mem_append.mp member with member | member
    · obtain ⟨x, inside, called, rfl⟩ := mem_notices member
      exact other ⟨handed.1, handed.2.2⟩
    · exact found_quiet e member handed
  · intro marked
    by_cases down : s' = s ∧ code = .onRemoveSystemAbility
    · exact Or.inr ⟨.findAndNotifyAbilityListeners s' code, by simp, down⟩
    · refine Or.inl ((findSection_registered _ s' code).mpr ⟨_, marked, ?_⟩)
      split
      · rename_i same
        cases code with
        | onAddSystemAbility => rfl
        | onRemoveSystemAbility => exact False.elim (down ⟨same.symm, rfl⟩)
        | other => rfl
      · rfl

theorem once_of_does {P : Process} {m m' : Manager} {a : Label} {result : Bool} {s l : Int}
    (did : Does P m a m' result) (table : TableOk m.localListenerMap) (allowed : AddsOnce m a)
    (once : Once s l m) : Once s l m' := by
  cases did with
  | refused => exact once
  | @addedDirectly s' l' object reply yes long =>
    by_cases need : needNotify m.localListenerMap s' object = true
    · have fresh : listed m.localListenerMap s' l' = false := by
        simpa [AddsOnce, addsOnce, need, long] using allowed
      rw [if_pos need]
      exact once.addDirectly need fresh
    · rw [if_neg need]
      exact once.enterAdd s' l' object
  | addedSubscribed => exact (once.enterAdd _ _ _).samgrDone _ true
  | addedFailed => exact once.enterAdd _ _ _
  | removedKept => exact once.enterRemove _ _
  | removedUnsubscribed => exact (once.enterRemove _ _).samgrDone _ false
  | removedFailed => exact once.enterRemove _ _
  | @found s' code _ _ =>
    by_cases start : s' = s ∧ code = .onAddSystemAbility
    · obtain ⟨rfl, rfl⟩ := start
      exact once.findStart table
    · exact once.findOther start

/-- While no registered listener adds itself on the direct path, start notices
to a listener are always separated. -/
theorem startNotices_spaced {P : Process} {m : Manager}
    (reach : (machine P).Reachable AddsOnce m) (s l : Int) : Spaced s l m.log := by
  have once : Once s l m := by
    refine reach.invariant (Once s l) (once_start s l) ?_
    intro m a m' before once allowed next
    obtain rfl : (doCall P m a).1 = m' := Option.some.inj next
    exact once_of_does (does P m a) (reachable_tableOk before) allowed once
  exact once.spaced

/-- Two listeners register, the ability starts, stops and starts. -/
def upDownUp : List Label :=
  [⟨.addSystemAbilityListener 1 2, some false, .good⟩,
    ⟨.addSystemAbilityListener 1 3, some false, .good⟩,
    ⟨.findAndNotifyAbilityListeners 1 .onAddSystemAbility, none, .good⟩,
    ⟨.findAndNotifyAbilityListeners 1 .onRemoveSystemAbility, none, .good⟩,
    ⟨.findAndNotifyAbilityListeners 1 .onAddSystemAbility, none, .good⟩]

def afterUpDownUp : Manager :=
  ((machine anyProcess).run AddsOnce (machine anyProcess).init upDownUp).get (by decide)

theorem startNotices_spaced_twice :
    afterUpDownUp.log.count (.notifyAbilityListener 1 2 .onAddSystemAbility true) = 2 ∧
      Spaced 1 2 afterUpDownUp.log :=
  ⟨by decide, startNotices_spaced (Machine.reachable_get upDownUp (by decide)) 1 2⟩

/-- Listener 3 is told that the ability is up and adds itself again. -/
def addsAgain : List Label :=
  [⟨.addSystemAbilityListener 1 2, some true, .good⟩,
    ⟨.addSystemAbilityListener 1 3, some true, .good⟩,
    ⟨.addSystemAbilityListener 1 3, some true, .good⟩]

def afterAddsAgain : Manager :=
  ((machine anyProcess).run Free (machine anyProcess).init addsAgain).get (by decide)

theorem startNotices_repeated :
    ∃ m s l, (machine anyProcess).Reachable Free m ∧ ¬ Spaced s l m.log := by
  refine ⟨afterAddsAgain, 1, 3, Machine.reachable_get addsAgain (by decide), ?_⟩
  intro spaced
  have twice : afterAddsAgain.log = [] ++ .notifyAbilityListener 1 3 .onAddSystemAbility true ::
      ([] ++ .notifyAbilityListener 1 3 .onAddSystemAbility true ::
        [.registered 1 3, .samgrDone 1, .registered 1 2, .entryChanged 1]) := by
    decide
  obtain ⟨e, member, -⟩ := spaced _ _ _ _ _ twice ⟨rfl, rfl, rfl⟩ ⟨rfl, rfl, rfl⟩
  cases member

end StartNotices
