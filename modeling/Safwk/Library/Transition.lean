import Mathlib.Logic.Relation

/-!
# Machines driven by a scheduler

A machine is an executable partial step function: every choice that the
environment can make is part of the label, so a schedule is a list of labels
and a closed run can be evaluated. Restrictions on the environment are guards
on the state before a step. A statement about all schedules uses the guard
`Free`; a statement about a class of schedules names its guard.
-/

namespace Transition

universe u v w x

/-- No restriction on the schedule. -/
def Free {σ : Type u} {α : Type v} (_ : σ) (_ : α) : Prop := True

instance {σ : Type u} {α : Type v} (s : σ) (a : α) : Decidable (Free s a) :=
  inferInstanceAs (Decidable True)

structure Machine (σ : Type u) (α : Type v) where
  init : σ
  step : σ → α → Option σ

namespace Machine

variable {σ : Type u} {α : Type v} (M : Machine σ α) {ok : σ → α → Prop}

/-- States reached by schedules all of whose steps meet the guard. -/
inductive Reachable (ok : σ → α → Prop) : σ → Prop
  | init : Reachable ok M.init
  | step {s t : σ} {a : α} (before : Reachable ok s) (allowed : ok s a)
      (next : M.step s a = some t) : Reachable ok t

/-- Execute a schedule, refusing a label that the guard excludes. -/
def run (ok : σ → α → Prop) [∀ s a, Decidable (ok s a)] : σ → List α → Option σ
  | s, [] => some s
  | s, a :: rest => if ok s a then (M.step s a).bind (fun t => run ok t rest) else none

variable {M}

/-- The invariant rule: earlier invariants may be used through reachability. -/
theorem Reachable.invariant (inv : σ → Prop) (start : inv M.init)
    (keeps : ∀ s a t, M.Reachable ok s → inv s → ok s a → M.step s a = some t → inv t)
    {s : σ} (reach : M.Reachable ok s) : inv s := by
  induction reach with
  | init => exact start
  | step before allowed next ih => exact keeps _ _ _ before ih allowed next

theorem Reachable.run [∀ s a, Decidable (ok s a)] {s t : σ} {schedule : List α}
    (reach : M.Reachable ok s) (result : M.run ok s schedule = some t) :
    M.Reachable ok t := by
  induction schedule generalizing s with
  | nil =>
    have same : s = t := Option.some.inj result
    exact same ▸ reach
  | cons a rest ih =>
    rw [Machine.run] at result
    split at result
    · rename_i allowed
      obtain ⟨r, next, tail⟩ := Option.bind_eq_some_iff.mp result
      exact ih (.step reach allowed next) tail
    · cases result

/-- A schedule that evaluates to a state is a proof that the state is reachable. -/
theorem reachable_of_run [∀ s a, Decidable (ok s a)] {t : σ} (schedule : List α)
    (result : M.run ok M.init schedule = some t) : M.Reachable ok t :=
  Reachable.run .init result

/-- The same for states that cannot be compared: name the state by its schedule. -/
theorem reachable_get [∀ s a, Decidable (ok s a)] (schedule : List α)
    (ends : (M.run ok M.init schedule).isSome = true) :
    M.Reachable ok ((M.run ok M.init schedule).get ends) :=
  reachable_of_run schedule (Option.some_get ends).symm

/-- The invariant rule for statements about a state and the schedule that led to it. -/
theorem run_invariant [∀ s a, Decidable (ok s a)] (inv : List α → σ → Prop)
    (start : inv [] M.init)
    (keeps : ∀ past s a t, M.Reachable ok s → inv past s → ok s a → M.step s a = some t →
      inv (past ++ [a]) t)
    {schedule : List α} {t : σ} (result : M.run ok M.init schedule = some t) : inv schedule t := by
  suffices general : ∀ past s, M.Reachable ok s → inv past s → M.run ok s schedule = some t →
      inv (past ++ schedule) t by
    exact general [] M.init .init start result
  clear result
  induction schedule with
  | nil =>
    intro past s reach before result
    obtain rfl : s = t := Option.some.inj result
    rwa [List.append_nil]
  | cons a rest ih =>
    intro past s reach before result
    rw [Machine.run] at result
    split at result
    · rename_i allowed
      obtain ⟨r, next, tail⟩ := Option.bind_eq_some_iff.mp result
      have after := ih (past ++ [a]) r (.step reach allowed next)
        (keeps past s a r reach before allowed next) tail
      rwa [List.append_assoc, List.singleton_append] at after
    · cases result

/-- Forward simulation: each guarded step is matched by a guarded step of the
other machine or by no step at all. -/
theorem Reachable.simulate {τ : Type w} {β : Type x} {N : Machine τ β}
    {ok' : τ → β → Prop} (view : σ → τ) (start : view M.init = N.init)
    (follows : ∀ s a t, M.Reachable ok s → N.Reachable ok' (view s) → ok s a →
      M.step s a = some t →
      view t = view s ∨ ∃ b, ok' (view s) b ∧ N.step (view s) b = some (view t))
    {s : σ} (reach : M.Reachable ok s) : N.Reachable ok' (view s) := by
  induction reach with
  | init => exact start ▸ .init
  | step before allowed next ih =>
    rcases follows _ _ _ before ih allowed next with same | ⟨b, allowed', next'⟩
    · exact same ▸ ih
    · exact .step ih allowed' next'

end Machine

end Transition
