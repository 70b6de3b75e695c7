import Safwk.Library.Budget
import Safwk.RequestLifecycles

/-!
# Requests and callbacks are counted

A thread that serves a request makes one call on one ability, and a call runs at most
one callback. So an ability gets no callback that was not asked for: its `OnStart` runs
at most as often as it was requested or started by a boot phase, and `OnStop`, `OnIdle`
and `OnActive` at most as often as they were requested.
-/

namespace RequestCounts

open Transition StartReason AbilityRequests

section Count

variable (E : Env) (callback : Callback) (saId : Int32)

/-- The action asks for the callback of the ability with this id. -/
def asks : Action → Bool
  | .startAbility _ id _ => callback = .onStart && id = saId
  | .startTask _ object => callback = .onStart && E.saIdOf object = saId
  | .stopAbility _ id _ => callback = .onStop && id = saId
  | .idleAbility _ id _ => callback = .onIdle && id = saId
  | .activeAbility _ id _ => callback = .onActive && id = saId
  | _ => false

/-- A thread may still run the callback. -/
def pending : Pc → Bool
  | .outside => false
  | .loading id _ => callback = .onStart && id = saId
  | .waiting id _ _ => callback = .onStart && id = saId
  | .looking kind id _ => callback = kind.callback && id = saId
  | .inside object (.called kind _) => callback = kind.callback && E.saIdOf object = saId
  | .inside object (.holding held _ _ _) => callback = held && E.saIdOf object = saId
  | .inside _ .running => false

/-- The callback was run. -/
def ran (g : Given) : Bool := callback = g.callback && E.saIdOf g.object = saId

/-- The callbacks that were run or may still be run. -/
def owed (s : State) : Nat :=
  s.given.countP (ran E callback saId) + s.threads.countP (pending E callback saId)

end Count

variable {E : Env} {callback : Callback} {saId : Int32}

/-- A thread moves: it goes on to owe what it owed, less, or what was just asked for. -/
theorem owed_set {s : State} {i : Nat} {p : Pc} (q : Pc) (found : s.threads[i]? = some p)
    {asked : Nat} (fair : (pending E callback saId q).toNat ≤
      (pending E callback saId p).toNat + asked) :
    s.given.countP (ran E callback saId) +
      (s.threads.set i q).countP (pending E callback saId) ≤ owed E callback saId s + asked := by
  have moved := Threads.countP_set_add (pending E callback saId) q found
  rw [owed]
  omega

theorem pending_leave (object : Object) (job : Job) (after : AbilityLifecycle.Pc) :
    (pending E callback saId (leave object job after)).toNat ≤
      (pending E callback saId (.inside object job)).toNat := by
  cases after with
  | outside => exact Nat.zero_le _
  | _ => exact Nat.le_refl _

theorem moves_owed {s t : State} {a : Action} (move : Moves E s a t) (coupled : Coupled s)
    (keys : KeysMatch E s) :
    owed E callback saId t ≤ owed E callback saId s + (asks E callback saId a).toNat := by
  cases move with
  | nothing possible ignored => exact Nat.le_add_right _ _
  | setStartReason id event => exact Nat.le_refl _
  | startAbility id eventStr found =>
    exact owed_set (.loading id _) found (Nat.le_of_eq (Nat.zero_add _).symm)
  | stopAbility id eventStr found =>
    exact owed_set (.looking .stop id _) found (Nat.le_of_eq (Nat.zero_add _).symm)
  | @idleAbility i id object idleReason found registered free =>
    have keyed := keys id object registered
    exact owed_set (.inside object _) found (by simp [pending, asks, keyed])
  | @activeAbility i id object activeReason found registered free =>
    have keyed := keys id object registered
    exact owed_set (.inside object _) found (by simp [pending, asks, keyed])
  | deliver message registered => exact Nat.le_refl _
  | @startTask i object found free =>
    exact owed_set (.inside object _) found (Nat.le_of_eq (Nat.zero_add _).symm)
  | addAbility fresh => exact Nat.le_refl _
  | removeAbility valid => exact Nat.le_refl _
  | loadFails found => exact owed_set .outside found (Nat.zero_le _)
  | @loads i id request found => exact owed_set (.waiting id request _) found (Nat.le_refl _)
  | timesOut found => exact owed_set .outside found (Nat.zero_le _)
  | @appears i id request timeout object found registered =>
    exact owed_set (.looking .start id request) found (Nat.le_refl _)
  | @waits i id request timeout found missing =>
    exact owed_set (.waiting id request timeout) found (Nat.le_refl _)
  | notFound found missing => exact owed_set .outside found (Nat.zero_le _)
  | @getAbility i kind id request object found registered free =>
    have keyed := keys id object registered
    exact owed_set (.inside object _) found (by simp [pending, keyed])
  | @getReason i object kind request found ready =>
    have held := owed_set (E := E) (.inside object (.holding kind.callback request
      (s.requests kind (E.saIdOf object)) ((s.reasons kind).get (E.saIdOf object)).1)) found
      (Nat.le_add_right (pending E callback saId (.inside object (.called kind request))).toNat 0)
    rw [owed, setReasons_given]
    exact held
  | @quiet i object job _ _ before after _ _ found =>
    exact owed_set (leave object job after) found
      (Nat.le_trans (pending_leave object job after) (Nat.le_add_right _ _))
  | @callback i object held begun request seen json _ _ before after memory samgrProxy found _ _
      was _ goes starts =>
    obtain ⟨pc, place, fits⟩ := coupled.inside i object _ found
    obtain rfl : pc = before := Option.some.inj (place.symm.trans was)
    obtain ⟨rfl, _⟩ := goes_callback goes fits starts
    have moved := Threads.countP_set_add (pending E callback saId) (leave object .running after) found
    have done : pending E callback saId (leave object .running after) = false := by
      cases after <;> rfl
    have given : ran E callback saId ⟨object, held, request, build E memory samgrProxy json⟩ =
        pending E callback saId (.inside object (.holding held request seen json)) := rfl
    rw [done, Bool.toNat_false] at moved
    rw [owed, owed, List.countP_cons, given]
    dsimp only
    cases owes : pending E callback saId (.inside object (.holding held request seen json)) with
    | false =>
      rw [owes, Bool.toNat_false] at moved
      simp only [Bool.false_eq_true, if_false]
      omega
    | true =>
      rw [owes, Bool.toNat_true] at moved
      simp only [if_true]
      omega
  | publishElsewhere c next => exact Nat.le_refl _

/-- Any number of threads, any interleaving: an ability gets a callback at most as often as
it was asked for. -/
theorem callbacks_asked_for (E : Env) (n : Nat) (schedule : List Action) (s : State)
    (result : (machine E n).run Free (initial n) schedule = some s) (callback : Callback)
    (saId : Int32) :
    s.given.countP (ran E callback saId) ≤ schedule.countP (asks E callback saId) := by
  have budget := Machine.run_budget (M := machine E n) (owed E callback saId) (fun _ => 0)
    (fun a => 1 * (asks E callback saId a).toNat) (fun r a t before _ next => by
      rw [Nat.one_mul]
      exact moves_owed (moves_of_step next) (reachable_coupled before) (reachable_keysMatch before))
    result
  have nothing : owed E callback saId (machine E n).init = 0 := by
    simp [owed, machine, initial, List.countP_replicate, pending]
  rw [sum_map_toNat, nothing] at budget
  rw [owed] at budget
  omega

/-- Two requests to start the ability. The second thread gets the lock when the first has
published and finds the ability loaded. -/
def askedTwice : List Action :=
  [.addAbility 0 true, .startAbility 0 401 [97], .startAbility 1 401 [98],
    .loadSaLib 0 true, .poll 0, .getAbility 0, .inner 0 (.lock 0) 0 none,
    .inner 0 (.advance 0) 0 none, .getReason 0, .inner 0 (.advance 0) 0 none,
    .inner 0 (.publish 0 AbilityLifecycle.publishCall) 0 none, .inner 0 (.advance 0) 0 none,
    .inner 0 (.advance 0) 0 none, .inner 0 (.unlock 0) 0 none,
    .loadSaLib 1 true, .poll 1, .getAbility 1, .inner 1 (.lock 1) 0 none,
    .inner 1 (.advance 1) 0 none, .inner 1 (.unlock 1) 0 none]

def askedTwiceState : State :=
  ((machine oneAbility 2).run Free (initial 2) askedTwice).get (by decide)

theorem callbacks_asked_for_twice :
    askedTwiceState.given.countP (ran oneAbility .onStart 401) = 1 ∧
    askedTwice.countP (asks oneAbility .onStart 401) = 2 ∧
    askedTwiceState.given.countP (ran oneAbility .onStart 401) ≤
      askedTwice.countP (asks oneAbility .onStart 401) := by
  have result : (machine oneAbility 2).run Free (initial 2) askedTwice = some askedTwiceState :=
    (Option.some_get (by decide)).symm
  exact ⟨by decide, by decide,
    callbacks_asked_for oneAbility 2 askedTwice askedTwiceState result .onStart 401⟩

end RequestCounts
