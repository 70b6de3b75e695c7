import Safwk.SamgrCallbacks

/-!
# Callbacks of an earlier subscription

A callback that samgr queued for one subscription can be delivered after the
process has unsubscribed and subscribed again. If the ability went down in
between, nobody was told, and the old callback marks the new listener although
the ability is down; the listener is then skipped when the ability next starts.

The result below excludes exactly the subscriptions at which this begins: those
made while the ability is down and what is in flight, or the flags, still say
that it is up.
-/

namespace StaleCallbacks

open ListenerTable ListenerManager ListenerThreads SubscriptionRaces SamgrCallbacks Transition

/-- What is in flight for the ability ends with a report that it is down, or
nothing is in flight and no listener is marked. -/
def reportedDown (w : World) (s : Int) : Bool :=
  decide (lastQueued s w.callbacks = some .onRemoveSystemAbility) ||
    decide (lastQueued s w.callbacks = none ∧
      withState w.state.manager.localListenerMap s .notified = [])

/-- A fresh subscription to an ability that is down and not reported down. -/
def stale (w : World) : SamgrCallbacks.Action → Bool
  | .perform i =>
    match freshSubscription w i with
    | some s => !w.up s && !reportedDown w s
    | none => false
  | _ => false

def Current (w : World) (a : SamgrCallbacks.Action) : Prop := stale w a = false

instance (w : World) (a : SamgrCallbacks.Action) : Decidable (Current w a) :=
  inferInstanceAs (Decidable (stale w a = false))

theorem reported_of_reportedDown {w : World} {s : Int} (down : reportedDown w s = true) :
    Reported false s w := by
  rcases Bool.or_eq_true_iff.mp down with queued | settled
  · exact Or.inl (of_decide_eq_true queued)
  · obtain ⟨empty, unmarked⟩ := of_decide_eq_true settled
    refine Or.inr ⟨empty, ?_⟩
    intro l state registered
    cases state with
    | init => rfl
    | notified =>
      have member := mem_withState.mpr registered
      rw [unmarked] at member
      cases member

theorem reachable_knownDown {P : Process} {n : Nat} {w : World}
    (reach : (SamgrCallbacks.machine P n).Reachable Current w) (s : Int) : Known false s w := by
  refine reach.invariant (Known false s) (known_start P n false s) ?_
  intro w a w' before known current next
  refine known.moves (reachable_state before) ?_ (SamgrCallbacks.moves_of_step next)
  rintro i rfl subscribing down -
  apply reported_of_reportedDown
  simpa [Current, stale, subscribing, down] using current

/-- When nothing is in flight and the ability is down, no listener is `NOTIFIED`. -/
theorem unmarked_of_down {P : Process} {n : Nat} {w : World}
    (reach : (SamgrCallbacks.machine P n).Reachable Current w) (quiet : Quiet w.state)
    (delivered : w.callbacks = []) {s : Int} (down : w.up s = false) (l : Int) :
    ¬ Registered w.state.manager.localListenerMap s l .notified := by
  intro registered
  have flag := (reachable_knownDown reach s).flags (reachable_state reach) quiet delivered down
    registered
  cases flag

/-- The ability stops and is reported before the listener registers again. -/
def reportedSchedule : List SamgrCallbacks.Action :=
  [.change 1 true, .add 0 1 2, .perform 0, .change 1 false, .remove 0 1 2, .perform 0,
    .add 0 1 2, .perform 0, .deliver 1, .perform 1, .deliver 1, .perform 1]

def afterReported : World :=
  ((SamgrCallbacks.machine anyProcess 2).run Current (SamgrCallbacks.machine anyProcess 2).init
    reportedSchedule).get (by decide)

theorem unmarked_of_down_reported :
    Registered afterReported.state.manager.localListenerMap 1 2 .init ∧
      ¬ Registered afterReported.state.manager.localListenerMap 1 2 .notified :=
  ⟨⟨[(2, .init)], by decide, by decide⟩,
    unmarked_of_down (Machine.reachable_get reportedSchedule (by decide)) (by decide) (by decide)
      (by decide) 2⟩

/-- The ability stops unobserved between the two registrations, and the callback
of the first one is delivered after the second. -/
def staleSchedule : List SamgrCallbacks.Action :=
  [.change 1 true, .add 0 1 2, .perform 0, .remove 0 1 2, .perform 0, .change 1 false,
    .add 0 1 2, .perform 0, .deliver 1, .perform 1]

def afterStale : World :=
  ((SamgrCallbacks.machine anyProcess 2).run Free (SamgrCallbacks.machine anyProcess 2).init
    staleSchedule).get (by decide)

theorem marked_while_down :
    ∃ w s l, (SamgrCallbacks.machine anyProcess 2).Reachable Free w ∧ Quiet w.state ∧
      w.callbacks = [] ∧ w.up s = false ∧
      Registered w.state.manager.localListenerMap s l .notified :=
  ⟨afterStale, 1, 2, Machine.reachable_get staleSchedule (by decide), by decide, by decide,
    by decide, ⟨[(2, .notified)], by decide, by decide⟩⟩

end StaleCallbacks
