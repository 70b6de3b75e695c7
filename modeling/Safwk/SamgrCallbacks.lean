import Safwk.SubscriptionRaces

/-!
# Callbacks from samgr

The threads of `ListenerThreads` are put next to the abilities they watch.
Abilities go up and down at any time. samgr sends one callback for every change
of an ability the process is subscribed to, and one for a fresh subscription to
an ability that is up. Callbacks are delivered first in, first out, one at a
time, and a delivery is a call of `FindAndNotifyAbilityListeners`.

Calls that add or remove listeners exclude each other; they do not exclude
deliveries. Every samgr call succeeds, and `CheckSystemAbility` finds exactly
the abilities that are up.
-/

namespace SamgrCallbacks

open ListenerTable ListenerManager ListenerThreads SubscriptionRaces Transition

structure World where
  state : State
  up : Int → Bool
  /-- The callbacks in flight, the oldest first. -/
  callbacks : List (Int × Code)

inductive Action
  | add (i : Nat) (systemAbilityId listenerSaId : Int)
  | remove (i : Nat) (systemAbilityId listenerSaId : Int)
  | perform (i : Nat)
  | deliver (i : Nat)
  | change (systemAbilityId : Int) (up : Bool)
  deriving DecidableEq

/-- The thread is in a call that adds or removes a listener. -/
def inUpdate : Thread → Bool
  | .inCall (.addSystemAbilityListener _ _) _ => true
  | .inCall (.removeSystemAbilityListener _ _) _ => true
  | _ => false

/-- The thread delivers a callback. -/
def inDelivery : Thread → Bool
  | .inCall (.findAndNotifyAbilityListeners _ _) _ => true
  | _ => false

/-- The callback that reports the ability up or down. -/
def report (up : Bool) : Code :=
  if up then .onAddSystemAbility else .onRemoveSystemAbility

/-- The subscription that the thread is about to make, if the process is not yet
subscribed. -/
def freshSubscription (w : World) (i : Nat) : Option Int :=
  match w.state.threads[i]? with
  | some (.inCall call (.subscribeSystemAbility :: _)) =>
    if w.state.manager.subscribed call.about then none else some call.about
  | _ => none

/-- samgr answers a fresh subscription to an ability that is up. -/
def firstReport (w : World) (i : Nat) : List (Int × Code) :=
  match freshSubscription w i with
  | some s => if w.up s then [(s, report true)] else []
  | none => []

/-- samgr reports a change to a process that is subscribed. -/
def changeReport (w : World) (s : Int) (up : Bool) : List (Int × Code) :=
  if w.state.manager.subscribed s then [(s, report up)] else []

def step (P : Process) (w : World) : Action → Option World
  | .add i s l =>
    if w.state.threads.any inUpdate then none
    else (ListenerThreads.step P w.state
      (.enter i (.addSystemAbilityListener s l) (some (w.up s)))).map
        fun st => { w with state := st }
  | .remove i s l =>
    if w.state.threads.any inUpdate then none
    else (ListenerThreads.step P w.state
      (.enter i (.removeSystemAbilityListener s l) none)).map fun st => { w with state := st }
  | .perform i =>
    (ListenerThreads.step P w.state (.perform i .good)).map
      fun st => { w with state := st, callbacks := w.callbacks ++ firstReport w i }
  | .deliver i =>
    match w.callbacks with
    | [] => none
    | (s, code) :: rest =>
      if w.state.threads.any inDelivery then none
      else if checkInputSysAbilityId P s then
        (ListenerThreads.step P w.state
          (.enter i (.findAndNotifyAbilityListeners s code) none)).map
            fun st => { w with state := st, callbacks := rest }
      else some { w with callbacks := rest }
  | .change s up =>
    if w.up s = up then none
    else some { w with
      up := Function.update w.up s up
      callbacks := w.callbacks ++ changeReport w s up }

def machine (P : Process) (threadCount : Nat) : Machine World Action where
  init := ⟨(ListenerThreads.machine P threadCount).init, fun _ => false, []⟩
  step := step P

/-- Everything a step can do. -/
inductive Moves (P : Process) (w : World) : Action → World → Prop
  | adds {i : Nat} {s l : Int} {st : State} (alone : w.state.threads.any inUpdate = false)
      (next : ListenerThreads.step P w.state
        (.enter i (.addSystemAbilityListener s l) (some (w.up s))) = some st) :
      Moves P w (.add i s l) { w with state := st }
  | removes {i : Nat} {s l : Int} {st : State} (alone : w.state.threads.any inUpdate = false)
      (next : ListenerThreads.step P w.state
        (.enter i (.removeSystemAbilityListener s l) none) = some st) :
      Moves P w (.remove i s l) { w with state := st }
  | performs {i : Nat} {st : State}
      (next : ListenerThreads.step P w.state (.perform i .good) = some st) :
      Moves P w (.perform i)
        { w with state := st, callbacks := w.callbacks ++ firstReport w i }
  | delivers {i : Nat} {s : Int} {code : Code} {rest : List (Int × Code)} {st : State}
      (queued : w.callbacks = (s, code) :: rest)
      (alone : w.state.threads.any inDelivery = false)
      (next : ListenerThreads.step P w.state
        (.enter i (.findAndNotifyAbilityListeners s code) none) = some st) :
      Moves P w (.deliver i) { w with state := st, callbacks := rest }
  | drops {i : Nat} {s : Int} {code : Code} {rest : List (Int × Code)}
      (queued : w.callbacks = (s, code) :: rest)
      (invalid : checkInputSysAbilityId P s = false) :
      Moves P w (.deliver i) { w with callbacks := rest }
  | changes {s : Int} {up : Bool} (differs : w.up s ≠ up) :
      Moves P w (.change s up)
        { w with
          up := Function.update w.up s up
          callbacks := w.callbacks ++ changeReport w s up }

theorem moves_of_step {P : Process} {w w' : World} {a : Action}
    (next : step P w a = some w') : Moves P w a w' := by
  cases a with
  | add i s l =>
    simp only [step] at next
    split at next
    · cases next
    · rename_i alone
      obtain ⟨st, inner, rfl⟩ := Option.map_eq_some_iff.mp next
      exact .adds (Bool.eq_false_iff.mpr alone) inner
  | remove i s l =>
    simp only [step] at next
    split at next
    · cases next
    · rename_i alone
      obtain ⟨st, inner, rfl⟩ := Option.map_eq_some_iff.mp next
      exact .removes (Bool.eq_false_iff.mpr alone) inner
  | perform i =>
    obtain ⟨st, inner, rfl⟩ := Option.map_eq_some_iff.mp next
    exact .performs inner
  | deliver i =>
    simp only [step] at next
    split at next
    · cases next
    · rename_i s code rest queued
      split at next
      · cases next
      · rename_i alone
        split at next
        · obtain ⟨st, inner, rfl⟩ := Option.map_eq_some_iff.mp next
          exact .delivers queued (Bool.eq_false_iff.mpr alone) inner
        · rename_i invalid
          obtain rfl := Option.some.inj next
          exact .drops queued (Bool.eq_false_iff.mpr invalid)
  | change s up =>
    simp only [step] at next
    split at next
    · cases next
    · rename_i differs
      obtain rfl := Option.some.inj next
      exact .changes differs

/-! ## The threads follow `ListenerThreads` without crossing calls -/

theorem unchanging_of_alone {st : State} (alone : st.threads.any inUpdate = false) (s : Int) :
    Unchanging s st := by
  intro call todo member concerns
  have idle := List.any_eq_false.mp alone _ member
  cases call with
  | addSystemAbilityListener s' l => exact idle rfl
  | removeSystemAbilityListener s' l => exact idle rfl
  | findAndNotifyAbilityListeners s' code => exact concerns

theorem inTurn_of_alone {P : Process} {st : State} {i : Nat} {call : Call} {samgrProxy : Option Bool}
    (asks : AsksInTurn st) (alone : st.threads.any inUpdate = false) :
    InTurn P st (.enter i call samgrProxy) := by
  refine ⟨trivial, ?_⟩
  cases call with
  | addSystemAbilityListener s l =>
    simp [crosses, asks.owes (unchanging_of_alone alone s) (Or.inr rfl)]
  | removeSystemAbilityListener s l =>
    simp [crosses, asks.owes (unchanging_of_alone alone s) (Or.inl rfl)]
  | findAndNotifyAbilityListeners s code => rfl

theorem reachable_state {P : Process} {n : Nat} {ok : World → Action → Prop} {w : World}
    (reach : (machine P n).Reachable ok w) :
    (ListenerThreads.machine P n).Reachable (InTurn P) w.state := by
  refine reach.simulate World.state rfl ?_
  intro w a w' _ inner _ next
  have asks := reachable_asksInTurn inner
  cases moves_of_step next with
  | adds alone moved => exact Or.inr ⟨_, inTurn_of_alone asks alone, moved⟩
  | removes alone moved => exact Or.inr ⟨_, inTurn_of_alone asks alone, moved⟩
  | @performs i _ moved => exact Or.inr ⟨.perform i .good, ⟨rfl, rfl⟩, moved⟩
  | @delivers i s code _ _ queued alone moved =>
    exact Or.inr ⟨.enter i (.findAndNotifyAbilityListeners s code) none, ⟨trivial, rfl⟩, moved⟩
  | drops => exact Or.inl rfl
  | changes => exact Or.inl rfl

/-! ## What the queue still has to say about an ability -/

/-- The newest callback in flight for the ability. -/
def lastQueued (s : Int) : List (Int × Code) → Option Code
  | [] => none
  | (s', code) :: rest => (lastQueued s rest).or (if s' = s then some code else none)

theorem lastQueued_append (s : Int) (queue : List (Int × Code)) (s' : Int) (code : Code) :
    lastQueued s (queue ++ [(s', code)]) = if s' = s then some code else lastQueued s queue := by
  induction queue with
  | nil => simp [lastQueued]
  | cons first rest ih =>
    simp only [List.cons_append, lastQueued, ih]
    by_cases same : s' = s
    · simp [same]
    · simp [same]

/-- The newest callback tells the truth about the ability, or none is in flight
and the flags of all its listeners do. -/
def Reported (up : Bool) (s : Int) (w : World) : Prop :=
  lastQueued s w.callbacks = some (report up) ∨
    (lastQueued s w.callbacks = none ∧
      ∀ l state, Registered w.state.manager.localListenerMap s l state → state = pushedState up)

/-- While the process is subscribed to the ability and it is up, or down, that is
reported. -/
def Known (up : Bool) (s : Int) (w : World) : Prop :=
  w.state.manager.subscribed s = true → w.up s = up → Reported up s w

theorem Reported.carry {up : Bool} {s : Int} {w w' : World} (reported : Reported up s w)
    (queue : lastQueued s w'.callbacks = lastQueued s w.callbacks)
    (registered : ∀ l state, Registered w'.state.manager.localListenerMap s l state →
      Registered w.state.manager.localListenerMap s l state) : Reported up s w' := by
  rw [Reported, queue]
  rcases reported with queued | ⟨empty, flags⟩
  · exact Or.inl queued
  · exact Or.inr ⟨empty, fun l state after => flags l state (registered l state after)⟩

/-- The oldest callback leaves the queue. If it was the only one about the ability,
the flags must now say what it said. -/
theorem Reported.take {up : Bool} {s : Int} {w w' : World} (reported : Reported up s w) {s' : Int}
    {code : Code} (queued : w.callbacks = (s', code) :: w'.callbacks)
    (mine : s' = s → code = report up →
      ∀ l state, Registered w'.state.manager.localListenerMap s l state → state = pushedState up)
    (other : s' ≠ s → ∀ l state, Registered w'.state.manager.localListenerMap s l state →
      Registered w.state.manager.localListenerMap s l state) : Reported up s w' := by
  by_cases here : s' = s
  · rw [Reported, queued, lastQueued, if_pos here] at reported
    cases later : lastQueued s w'.callbacks with
    | some code' =>
      refine Or.inl ?_
      simpa [later] using reported
    | none =>
      have truth : code = report up := by simpa [later] using reported
      exact Or.inr ⟨later, mine here truth⟩
  · refine reported.carry ?_ (other here)
    rw [queued, lastQueued, if_neg here, Option.or_none]

theorem Known.adds {P : Process} {up : Bool} {s : Int} {w : World} {i : Nat} {s' l : Int}
    {st : State} (known : Known up s w) (table : TableOk w.state.manager.localListenerMap)
    (agree : Agree s w.state.manager)
    (next : ListenerThreads.step P w.state
      (.enter i (.addSystemAbilityListener s' l) (some (w.up s'))) = some st) :
    Known up s { w with state := st } := by
  cases ListenerThreads.moves_of_step next with
  | enters idle =>
    intro subscribed here
    dsimp only at subscribed here
    rw [enter_subscribed] at subscribed
    rcases known subscribed here with queued | ⟨empty, flags⟩
    · exact Or.inl queued
    · refine Or.inr ⟨empty, ?_⟩
      intro l' state after
      rcases enter_add_registered after with before | ⟨rfl, -, -, rfl⟩
      · exact flags l' state before
      · -- The list is not empty, so the flag is what `CheckSystemAbility` says.
        rw [needNotify_of_entry _ s _ table (agree.symm.trans subscribed), here]

theorem Known.removes {P : Process} {up : Bool} {s : Int} {w : World} {i : Nat} {s' l : Int}
    {st : State} (known : Known up s w)
    (next : ListenerThreads.step P w.state
      (.enter i (.removeSystemAbilityListener s' l) none) = some st) :
    Known up s { w with state := st } := by
  cases ListenerThreads.moves_of_step next with
  | enters idle =>
    intro subscribed here
    dsimp only at subscribed here
    rw [enter_subscribed] at subscribed
    exact (known subscribed here).carry rfl (fun l' state => enter_remove_registered)

theorem freshSubscription_subscribe {w : World} {i : Nat} {call : Call} {rest : List Effect}
    (found : w.state.threads[i]? = some (.inCall call (.subscribeSystemAbility :: rest))) :
    freshSubscription w i =
      if w.state.manager.subscribed call.about then none else some call.about := by
  simp [freshSubscription, found]

/-- Only an ability that is freshly subscribed to is reported. -/
theorem lastQueued_firstReport {w : World} {i : Nat} {s : Int}
    (other : freshSubscription w i ≠ some s) :
    lastQueued s (w.callbacks ++ firstReport w i) = lastQueued s w.callbacks := by
  rw [firstReport]
  cases fresh : freshSubscription w i with
  | none => simp
  | some s' =>
    have apart : s' ≠ s := by
      rintro rfl
      exact other fresh
    dsimp only
    split
    · rw [lastQueued_append, if_neg apart]
    · rw [List.append_nil]

/-- A fresh subscription makes the report itself when the ability is up; when it
is down, what is in flight from before has to be right already. -/
theorem Known.subscribes {up : Bool} {s : Int} {w : World} {i : Nat} {st : State}
    (fresh : w.up s = false → up = false → Reported false s w)
    (subscribing : freshSubscription w i = some s)
    (map : st.manager.localListenerMap = w.state.manager.localListenerMap) :
    Known up s { w with state := st, callbacks := w.callbacks ++ firstReport w i } := by
  intro _ here
  dsimp only at here
  cases up with
  | true =>
    refine Or.inl ?_
    simp [firstReport, subscribing, here, lastQueued_append]
  | false =>
    refine (fresh here rfl).carry ?_ (fun l state after => map ▸ after)
    simp [firstReport, subscribing, here]

theorem Known.performs {P : Process} {up : Bool} {s : Int} {w : World} {i : Nat} {st : State}
    (known : Known up s w)
    (fresh : freshSubscription w i = some s → w.up s = false → up = false → Reported false s w)
    (next : ListenerThreads.step P w.state (.perform i .good) = some st) :
    Known up s { w with state := st, callbacks := w.callbacks ++ firstReport w i } := by
  cases ListenerThreads.moves_of_step next with
  | @performs _ _ call effect rest found =>
    have map := perform_localListenerMap P w.state.manager call.about .good effect
    by_cases subscribing : freshSubscription w i = some s
    · exact Known.subscribes (fresh subscribing) subscribing map
    · intro subscribed here
      have before : w.state.manager.subscribed s = true := by
        cases effect with
        | notifyAbilityListener l code => exact subscribed
        | subscribeSystemAbility =>
          by_cases about : call.about = s
          · subst about
            by_contra absent
            exact subscribing (by simp [freshSubscription_subscribe found, absent])
          · exact (Function.update_of_ne (fun h => about h.symm) _ _).symm.trans subscribed
        | unSubscribeSystemAbility =>
          by_cases about : call.about = s
          · subst about
            simp [perform, samgrDone, Reply.good] at subscribed
          · exact (Function.update_of_ne (fun h => about h.symm) _ _).symm.trans subscribed
      refine (known before here).carry (lastQueued_firstReport subscribing) ?_
      exact fun l state after => map ▸ after

/-- A report that is delivered last sets every flag to what it says. -/
theorem stateAfter_report (up : Bool) (state : ListenerState) :
    stateAfter (report up) state = pushedState up := by
  cases up <;> rfl

theorem Known.delivers {P : Process} {up : Bool} {s : Int} {w : World} {i : Nat} {s' : Int}
    {code : Code} {rest : List (Int × Code)} {st : State} (known : Known up s w)
    (queued : w.callbacks = (s', code) :: rest)
    (next : ListenerThreads.step P w.state
      (.enter i (.findAndNotifyAbilityListeners s' code) none) = some st) :
    Known up s { w with state := st, callbacks := rest } := by
  cases ListenerThreads.moves_of_step next with
  | enters idle =>
    intro subscribed here
    dsimp only at subscribed here
    rw [enter_subscribed] at subscribed
    apply (known subscribed here).take queued
    · rintro rfl truth l state after
      obtain ⟨before, -, rfl⟩ := (findSection_registered _ s' code).mp after
      rw [if_pos rfl, truth, stateAfter_report]
    · intro other l state after
      obtain ⟨before, registered, rfl⟩ := (findSection_registered _ s' code).mp after
      rw [if_neg (fun h => other h.symm)]
      exact registered

theorem Known.drops {P : Process} {up : Bool} {s : Int} {w : World} {s' : Int} {code : Code}
    {rest : List (Int × Code)} (known : Known up s w)
    (valid : ValidIds P w.state.manager.localListenerMap)
    (queued : w.callbacks = (s', code) :: rest) (invalid : checkInputSysAbilityId P s' = false) :
    Known up s { w with callbacks := rest } := by
  intro subscribed here
  apply (known subscribed here).take queued
  · rintro rfl - l state ⟨listenerList, found, -⟩
    have passes := valid s' (Option.isSome_iff_exists.mpr ⟨listenerList, found⟩)
    rw [invalid] at passes
    cases passes
  · intro _ l state registered
    exact registered

theorem Known.changes {up : Bool} {s : Int} {w : World} {s' : Int} {up' : Bool}
    (known : Known up s w) :
    Known up s { w with
      up := Function.update w.up s' up'
      callbacks := w.callbacks ++ changeReport w s' up' } := by
  intro subscribed here
  dsimp only at subscribed here
  by_cases mine : s' = s
  · subst mine
    rw [Function.update_self] at here
    subst here
    refine Or.inl ?_
    simp [changeReport, subscribed, lastQueued_append]
  · rw [Function.update_of_ne (fun h => mine h.symm)] at here
    refine (known subscribed here).carry ?_ (fun _ _ after => after)
    rw [changeReport]
    split
    · simp [lastQueued_append, mine]
    · simp

/-- Every step keeps an ability known, but for a fresh subscription to an ability
that is down. -/
theorem Known.moves {P : Process} {n : Nat} {up : Bool} {s : Int} {w w' : World} {a : Action}
    (inner : (ListenerThreads.machine P n).Reachable (InTurn P) w.state) (known : Known up s w)
    (fresh : ∀ i, a = .perform i → freshSubscription w i = some s → w.up s = false →
      up = false → Reported false s w)
    (moves : Moves P w a w') : Known up s w' := by
  cases moves with
  | adds alone next =>
    have agree := (reachable_converges inner s).agree (reachable_asksInTurn inner)
      (unchanging_of_alone alone s)
    exact known.adds (reachable_tableOk inner) agree next
  | removes alone next => exact known.removes next
  | @performs i _ next => exact known.performs (fresh i rfl) next
  | delivers queued alone next => exact known.delivers queued next
  | drops queued invalid => exact known.drops (reachable_validIds inner) queued invalid
  | changes differs => exact known.changes

theorem known_start (P : Process) (n : Nat) (up : Bool) (s : Int) :
    Known up s (machine P n).init := by
  intro subscribed
  cases subscribed

/-- When nothing is in flight, every flag says whether the ability is up. -/
theorem Known.flags {P : Process} {n : Nat} {up : Bool} {s l : Int} {w : World}
    {state : ListenerState} (known : Known up s w)
    (inner : (ListenerThreads.machine P n).Reachable (InTurn P) w.state)
    (quiet : Quiet w.state) (delivered : w.callbacks = []) (here : w.up s = up)
    (registered : Registered w.state.manager.localListenerMap s l state) :
    state = pushedState up := by
  have agree := (reachable_converges inner s).agree (reachable_asksInTurn inner)
    (quiet.unchanging s)
  obtain ⟨listenerList, found, -⟩ := id registered
  have subscribed : w.state.manager.subscribed s = true :=
    agree.trans (Option.isSome_iff_exists.mpr ⟨listenerList, found⟩)
  rcases known subscribed here with queued | ⟨-, flags⟩
  · rw [delivered] at queued
    cases queued
  · exact flags l state registered

end SamgrCallbacks
