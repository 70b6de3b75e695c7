import Safwk.ListenerThreads

/-!
# Subscriptions when calls overlap

An `Add` that creates the entry of an ability subscribes after it has released
the lock, and a `Remove` that erases the entry unsubscribes after it has
released the lock. The two samgr calls can arrive in the other order than the
two sections. The result below covers every interleaving in which no such pair
crosses: no call that will subscribe starts while an unsubscription for the
ability is still to be made, and the other way round. samgr calls succeed.
-/

namespace SubscriptionRaces

open ListenerTable ListenerManager ListenerThreads Transition

/-- Every samgr call succeeds. -/
def Succeeds (_ : State) : Action → Prop
  | .enter _ _ _ => True
  | .perform _ reply => reply = .good

instance (st : State) (a : Action) : Decidable (Succeeds st a) :=
  match a with
  | .enter _ _ _ => inferInstanceAs (Decidable True)
  | .perform _ reply => inferInstanceAs (Decidable (reply = .good))

/-- The call will subscribe while an unsubscription is owed, or unsubscribe
while a subscription is owed. One that is refused before the lock does neither. -/
def crosses (P : Process) (st : State) : Action → Bool
  | .enter _ (.addSystemAbilityListener s l) samgrProxy =>
    accepts P samgrProxy (.addSystemAbilityListener s l) &&
      decide (sizeAfterAdd st.manager.localListenerMap s l ≤ 1) &&
      owes st s .unSubscribeSystemAbility
  | .enter _ (.removeSystemAbilityListener s l) samgrProxy =>
    accepts P samgrProxy (.removeSystemAbilityListener s l) &&
      onlyListener st.manager.localListenerMap s l && owes st s .subscribeSystemAbility
  | _ => false

def InTurn (P : Process) (st : State) (a : Action) : Prop :=
  Succeeds st a ∧ crosses P st a = false

instance (P : Process) (st : State) (a : Action) : Decidable (InTurn P st a) :=
  inferInstanceAs (Decidable (Succeeds st a ∧ crosses P st a = false))

/-- What is owed for an ability brings the subscription to where the table is. -/
structure Converges (s : Int) (st : State) : Prop where
  subscribing : owes st s .subscribeSystemAbility = true →
    (st.manager.localListenerMap s).isSome = true ∧ owes st s .unSubscribeSystemAbility = false
  unsubscribing : owes st s .unSubscribeSystemAbility = true →
    (st.manager.localListenerMap s).isSome = false
  settled : owes st s .subscribeSystemAbility = false →
    owes st s .unSubscribeSystemAbility = false → Agree s st.manager

/-- Nothing that matters for the ability changes. -/
theorem Converges.carry {s : Int} {st st' : State} (converges : Converges s st)
    (subscribe : owes st' s .subscribeSystemAbility = owes st s .subscribeSystemAbility)
    (unSubscribe : owes st' s .unSubscribeSystemAbility = owes st s .unSubscribeSystemAbility)
    (entry : (st'.manager.localListenerMap s).isSome = (st.manager.localListenerMap s).isSome)
    (subscribed : st'.manager.subscribed s = st.manager.subscribed s) : Converges s st' := by
  constructor
  · rw [subscribe, unSubscribe, entry]
    exact converges.subscribing
  · rw [unSubscribe, entry]
    exact converges.unsubscribing
  · unfold Agree
    rw [subscribe, unSubscribe, entry, subscribed]
    exact converges.settled

theorem converges_start (P : Process) (n : Nat) (s : Int) : Converges s (machine P n).init := by
  constructor
  · intro owed
    rw [owes_start] at owed
    cases owed
  · intro owed
    rw [owes_start] at owed
    cases owed
  · intro _ _
    rfl

section Enter

variable {P : Process} {st : State} {i : Nat} {s : Int} {m : Manager} {todo : List Effect}
  {call : Call}

/-- A section that leaves no samgr call for the ability to do. -/
theorem Converges.enterQuiet (converges : Converges s st) (idle : st.threads[i]? = some .idle)
    (quiet : call.about = s → .subscribeSystemAbility ∉ todo ∧ .unSubscribeSystemAbility ∉ todo)
    (entry : (m.localListenerMap s).isSome = (st.manager.localListenerMap s).isSome)
    (subscribed : m.subscribed s = st.manager.subscribed s) :
    Converges s ⟨m, st.threads.set i (resume call todo)⟩ := by
  refine converges.carry ?_ ?_ entry subscribed
  · exact owes_enters_same idle (fun about => (quiet about).1)
  · exact owes_enters_same idle (fun about => (quiet about).2)

/-- A section that leaves a subscription to do, with an entry in the table. -/
theorem converges_subscribing (idle : st.threads[i]? = some .idle) (about : call.about = s)
    (entry : (m.localListenerMap s).isSome = true)
    (turn : owes st s .unSubscribeSystemAbility = false) :
    Converges s ⟨m, st.threads.set i (resume call [.subscribeSystemAbility])⟩ := by
  have unSubscribe : owes ⟨m, st.threads.set i (resume call [.subscribeSystemAbility])⟩ s
      .unSubscribeSystemAbility = false := by
    rw [owes_enters_same idle (by simp), turn]
  constructor
  · exact fun _ => ⟨entry, unSubscribe⟩
  · intro owed
    rw [unSubscribe] at owed
    cases owed
  · intro none _
    have owed := (owes_enters (m := m) (s := s) idle).mpr
      (Or.inr ⟨about, List.mem_singleton_self .subscribeSystemAbility⟩)
    rw [none] at owed
    cases owed

/-- A section that leaves an unsubscription to do, with no entry in the table. -/
theorem converges_unsubscribing (idle : st.threads[i]? = some .idle) (about : call.about = s)
    (entry : (m.localListenerMap s).isSome = false)
    (turn : owes st s .subscribeSystemAbility = false) :
    Converges s ⟨m, st.threads.set i (resume call [.unSubscribeSystemAbility])⟩ := by
  have subscribe : owes ⟨m, st.threads.set i (resume call [.unSubscribeSystemAbility])⟩ s
      .subscribeSystemAbility = false := by
    rw [owes_enters_same idle (by simp), turn]
  constructor
  · intro owed
    rw [subscribe] at owed
    cases owed
  · exact fun _ => entry
  · intro _ none
    have owed := (owes_enters (m := m) (s := s) idle).mpr
      (Or.inr ⟨about, List.mem_singleton_self .unSubscribeSystemAbility⟩)
    rw [none] at owed
    cases owed

end Enter

theorem not_mem_notifies {effect : Effect} {code : Code} {listenerSaIdVec : List Int}
    (asks : effect = .subscribeSystemAbility ∨ effect = .unSubscribeSystemAbility) :
    effect ∉ listenerSaIdVec.map fun l => .notifyAbilityListener l code := by
  intro member
  obtain ⟨l, -, same⟩ := List.mem_map.mp member
  rcases asks with rfl | rfl <;> cases same

theorem Converges.add {s : Int} {st : State} {i : Nat} {s' l : Int} {object : Bool}
    (converges : Converges s st) (idle : st.threads[i]? = some .idle)
    (turn : sizeAfterAdd st.manager.localListenerMap s' l ≤ 1 →
      owes st s' .unSubscribeSystemAbility = false) :
    Converges s ⟨(enterAdd st.manager s' l object).manager,
      st.threads.set i (resume (.addSystemAbilityListener s' l)
        (enterAdd st.manager s' l object).effects)⟩ := by
  by_cases mine : s' = s
  · subst mine
    rw [enterAdd_effects]
    by_cases long : 1 < sizeAfterAdd st.manager.localListenerMap s' l
    · rw [if_pos long]
      refine converges.enterQuiet idle
        (fun _ => ⟨not_mem_notifies (Or.inl rfl), not_mem_notifies (Or.inr rfl)⟩) ?_ rfl
      have present := isNone_of_long _ s' l long
      rw [Option.isNone_eq_false_iff] at present
      exact (addSection_isSome _ s' l object).trans present.symm
    · rw [if_neg long]
      exact converges_subscribing idle rfl (addSection_isSome _ s' l object)
        (turn (Nat.not_lt.mp long))
  · refine converges.enterQuiet idle (fun about => False.elim (mine about)) ?_ rfl
    rw [enterAdd_localListenerMap, addSection_other _ s' l object (fun h => mine h.symm)]

theorem Converges.remove {s : Int} {st : State} {i : Nat} {s' l : Int}
    (converges : Converges s st) (table : TableOk st.manager.localListenerMap)
    (idle : st.threads[i]? = some .idle)
    (turn : onlyListener st.manager.localListenerMap s' l = true →
      owes st s' .subscribeSystemAbility = false) :
    Converges s ⟨(enterRemove st.manager s' l).manager,
      st.threads.set i (resume (.removeSystemAbilityListener s' l)
        (enterRemove st.manager s' l).effects)⟩ := by
  have entry := removeSection_isSome st.manager.localListenerMap s' l
  by_cases mine : s' = s
  · subst mine
    rw [enterRemove_effects]
    cases erased : (removeSection st.manager.localListenerMap s' l).erased with
    | false =>
      refine converges.enterQuiet idle (fun _ => ⟨by simp, by simp⟩) ?_ rfl
      simpa [erased] using entry
    | true =>
      refine converges_unsubscribing idle rfl (by simpa [erased] using entry) (turn ?_)
      rw [← removeSection_erased _ s' l table]
      exact erased
  · refine converges.enterQuiet idle (fun about => False.elim (mine about)) ?_ rfl
    rw [enterRemove_localListenerMap, removeSection_other _ s' l (fun h => mine h.symm)]

theorem Converges.enters {P : Process} {s : Int} {st : State} {i : Nat} {call : Call}
    {samgrProxy : Option Bool} (converges : Converges s st)
    (table : TableOk st.manager.localListenerMap) (idle : st.threads[i]? = some .idle)
    (turn : crosses P st (.enter i call samgrProxy) = false) :
    Converges s ⟨(enter P st.manager samgrProxy call).manager,
      st.threads.set i (resume call (enter P st.manager samgrProxy call).effects)⟩ := by
  rcases enter_cases P st.manager samgrProxy call with ⟨-, entered⟩ |
    ⟨accepted, ⟨s', l, object, rfl, rfl, entered⟩ | ⟨s', l, rfl, entered⟩ |
      ⟨s', code, rfl, entered⟩⟩ <;>
    rw [entered]
  · exact converges.enterQuiet idle (fun _ => ⟨List.not_mem_nil, List.not_mem_nil⟩) rfl rfl
  · apply converges.add idle
    intro short
    simpa [crosses, accepted, short] using turn
  · apply converges.remove table idle
    intro only
    simpa [crosses, accepted, only] using turn
  · exact converges.enterQuiet idle
      (fun _ => ⟨not_mem_notifies (Or.inl rfl), not_mem_notifies (Or.inr rfl)⟩)
      (findSection_isSome _ s' code s) rfl

section Perform

variable {P : Process} {s : Int} {st : State} {i : Nat} {call : Call} {rest : List Effect}
  {m : Manager}

/-- An effect that is not a samgr call for the ability. -/
theorem Converges.performQuiet {effect : Effect} (converges : Converges s st)
    (found : st.threads[i]? = some (.inCall call (effect :: rest)))
    (quiet : call.about = s →
      effect ≠ .subscribeSystemAbility ∧ effect ≠ .unSubscribeSystemAbility)
    (map : m.localListenerMap = st.manager.localListenerMap)
    (subscribed : m.subscribed s = st.manager.subscribed s) :
    Converges s ⟨m, st.threads.set i (resume call rest)⟩ := by
  refine converges.carry ?_ ?_ (by rw [map]) subscribed
  · exact owes_performs_same found (fun mine => (quiet mine.1).1 mine.2.symm)
  · exact owes_performs_same found (fun mine => (quiet mine.1).2 mine.2.symm)

theorem Converges.subscribe (converges : Converges s st)
    (found : st.threads[i]? = some (.inCall call (.subscribeSystemAbility :: rest)))
    (about : call.about = s) :
    Converges s ⟨samgrDone st.manager s true, st.threads.set i (resume call rest)⟩ := by
  obtain ⟨entry, unSubscribe⟩ := converges.subscribing (about ▸ owes_first found)
  have unSubscribe' : owes ⟨samgrDone st.manager s true, st.threads.set i (resume call rest)⟩ s
      .unSubscribeSystemAbility = false := by
    rw [owes_performs_same found (by simp), unSubscribe]
  constructor
  · exact fun _ => ⟨entry, unSubscribe'⟩
  · intro owed
    rw [unSubscribe'] at owed
    cases owed
  · intro _ _
    simpa [Agree, samgrDone] using entry

theorem Converges.unSubscribe (converges : Converges s st)
    (found : st.threads[i]? = some (.inCall call (.unSubscribeSystemAbility :: rest)))
    (about : call.about = s) :
    Converges s ⟨samgrDone st.manager s false, st.threads.set i (resume call rest)⟩ := by
  have owed := about ▸ owes_first found
  have entry := converges.unsubscribing owed
  constructor
  · intro subscribing
    rw [(converges.subscribing (owes_before_performs found subscribing)).2] at owed
    cases owed
  · exact fun _ => entry
  · intro _ _
    simpa [Agree, samgrDone] using entry

end Perform

theorem Converges.performs {P : Process} {s : Int} {st : State} {i : Nat} {call : Call}
    {effect : Effect} {rest : List Effect} (converges : Converges s st)
    (found : st.threads[i]? = some (.inCall call (effect :: rest))) :
    Converges s ⟨(perform P st.manager call.about .good effect).1,
      st.threads.set i (resume call rest)⟩ := by
  cases effect with
  | notifyAbilityListener l code =>
    exact converges.performQuiet found (fun _ => ⟨by simp, by simp⟩) rfl rfl
  | subscribeSystemAbility =>
    by_cases about : call.about = s
    · subst about
      exact converges.subscribe found rfl
    · exact converges.performQuiet found (fun h => False.elim (about h)) rfl
        (Function.update_of_ne (fun h => about h.symm) _ _)
  | unSubscribeSystemAbility =>
    by_cases about : call.about = s
    · subst about
      exact converges.unSubscribe found rfl
    · exact converges.performQuiet found (fun h => False.elim (about h)) rfl
        (Function.update_of_ne (fun h => about h.symm) _ _)

theorem reachable_converges {P : Process} {n : Nat} {st : State}
    (reach : (machine P n).Reachable (InTurn P) st) (s : Int) : Converges s st := by
  refine reach.invariant (Converges s) (converges_start P n s) ?_
  rintro st a st' before converges ⟨succeeds, turn⟩ next
  cases moves_of_step next with
  | enters idle => exact converges.enters (reachable_tableOk before) idle turn
  | performs found =>
    obtain rfl := succeeds
    exact converges.performs found

theorem Converges.agree {s : Int} {st : State} (converges : Converges s st)
    (asks : AsksInTurn st) (unchanging : Unchanging s st) : Agree s st.manager :=
  converges.settled (asks.owes unchanging (Or.inl rfl)) (asks.owes unchanging (Or.inr rfl))

/-- When no crossing call was started, the subscription of an ability agrees with
the table in every state in which no call adds or removes its listeners. -/
theorem agree_of_inTurn {P : Process} {n : Nat} {st : State}
    (reach : (machine P n).Reachable (InTurn P) st) (s : Int) (unchanging : Unchanging s st) :
    Agree s st.manager :=
  (reachable_converges reach s).agree (reachable_asksInTurn reach) unchanging

/-- Two threads: an `Add` without a proxy, which is refused while an unsubscription
is owed, and later an `Add` whose notification overlaps a `Remove`. -/
def inTurnSchedule : List Action :=
  [.enter 0 (.addSystemAbilityListener 1 2) (some true), .perform 0 .good,
    .enter 1 (.removeSystemAbilityListener 1 2) none,
    .enter 0 (.addSystemAbilityListener 1 2) none, .perform 1 .good,
    .enter 0 (.addSystemAbilityListener 1 2) (some true), .perform 0 .good,
    .enter 0 (.addSystemAbilityListener 1 3) (some true),
    .enter 1 (.removeSystemAbilityListener 1 2) none, .perform 0 .good]

def afterInTurn : State :=
  ((machine anyProcess 2).run (InTurn anyProcess) (machine anyProcess 2).init
    inTurnSchedule).get (by decide)

theorem agree_of_inTurn_overlapping :
    afterInTurn.manager.subscribed 1 = true ∧ Agree 1 afterInTurn.manager := by
  have quiet : Quiet afterInTurn := by decide
  exact ⟨by decide,
    agree_of_inTurn (Machine.reachable_get inTurnSchedule (by decide)) 1 (quiet.unchanging 1)⟩

/-- The unsubscription of a `Remove` arrives after the subscription of the `Add`
that followed it: the listener is registered and will not hear anything. -/
def crossingSchedule : List Action :=
  [.enter 0 (.addSystemAbilityListener 1 2) (some true), .perform 0 .good,
    .enter 1 (.removeSystemAbilityListener 1 2) none,
    .enter 0 (.addSystemAbilityListener 1 2) (some true), .perform 0 .good, .perform 1 .good]

def afterCrossing : State :=
  ((machine anyProcess 2).run Succeeds (machine anyProcess 2).init crossingSchedule).get (by decide)

theorem disagree_of_crossing :
    ∃ st s, (machine anyProcess 2).Reachable Succeeds st ∧ Unchanging s st ∧
      ¬ Agree s st.manager := by
  have quiet : Quiet afterCrossing := by decide
  exact ⟨afterCrossing, 1, Machine.reachable_get crossingSchedule (by decide),
    quiet.unchanging 1, by decide⟩

end SubscriptionRaces
