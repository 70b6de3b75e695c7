import Mathlib.Data.List.Basic

/-!
# Programs with a log of what they did

A state has a log and a part that only logged actions may change. A quiet program
leaves both alone. A program acts at most once if it is quiet or adds one allowed
entry to the log. The rules go through a program from its first action to its last.
-/

namespace Effects

universe u v w

variable {σ α β : Type u} {κ : Type v} {μ : Type w}

/-- What is observed of a state. -/
structure View (σ : Type u) (κ : Type v) (μ : Type w) where
  log : σ → List κ
  kept : σ → μ

/-- From one state to the other nothing was logged and the kept part is the same. -/
structure Same (view : View σ κ μ) (s s' : σ) : Prop where
  log : view.log s' = view.log s
  kept : view.kept s' = view.kept s

def Quiet (view : View σ κ μ) (program : StateM σ α) : Prop :=
  ∀ s, Same view s (program.run s).2

/-- The program is quiet, or logs one allowed entry. -/
def AtMostOnce (view : View σ κ μ) (Allowed : κ → Prop) (program : StateM σ α) : Prop :=
  ∀ s, Same view s (program.run s).2 ∨
    ∃ entry, Allowed entry ∧ view.log (program.run s).2 = view.log s ++ [entry]

variable {view : View σ κ μ} {Allowed : κ → Prop}

/-- Go on from where the first program ended. -/
theorem run_bind {first : StateM σ α} {next : α → StateM σ β} {s s' : σ} {a : α}
    (ran : first.run s = (a, s')) : (first >>= next).run s = (next a).run s' := by
  rw [StateT.run_bind, ran]
  rfl

theorem Quiet.pure (a : α) : Quiet view (Pure.pure a : StateM σ α) :=
  fun _ => ⟨rfl, rfl⟩

theorem Quiet.bind {first : StateM σ α} {next : α → StateM σ β} (one : Quiet view first)
    (two : ∀ a, Quiet view (next a)) : Quiet view (first >>= next) := by
  intro s
  have before := one s
  have after := two (first.run s).1 (first.run s).2
  exact ⟨after.log.trans before.log, after.kept.trans before.kept⟩

theorem Quiet.ite {c : Prop} [Decidable c] {yes no : StateM σ α} (one : Quiet view yes)
    (two : Quiet view no) : Quiet view (if c then yes else no) := by
  split
  · exact one
  · exact two

theorem Quiet.atMostOnce {program : StateM σ α} (quiet : Quiet view program) :
    AtMostOnce view Allowed program :=
  fun s => Or.inl (quiet s)

theorem AtMostOnce.pure (a : α) : AtMostOnce view Allowed (Pure.pure a : StateM σ α) :=
  (Quiet.pure a).atMostOnce

/-- The branch that is taken knows the condition. -/
theorem AtMostOnce.ite {c : Prop} [Decidable c] {yes no : StateM σ α}
    (one : c → AtMostOnce view Allowed yes) (two : ¬c → AtMostOnce view Allowed no) :
    AtMostOnce view Allowed (if c then yes else no) := by
  split
  · exact one ‹_›
  · exact two ‹_›

/-- What runs before the action is quiet. -/
theorem AtMostOnce.after {first : StateM σ α} {next : α → StateM σ β} (quiet : Quiet view first)
    (acts : ∀ a, AtMostOnce view Allowed (next a)) : AtMostOnce view Allowed (first >>= next) := by
  intro s
  have before := quiet s
  rcases acts (first.run s).1 (first.run s).2 with same | ⟨entry, allowed, logged⟩
  · exact Or.inl ⟨same.log.trans before.log, same.kept.trans before.kept⟩
  · refine Or.inr ⟨entry, allowed, ?_⟩
    rw [before.log] at logged
    exact logged

/-- What runs after the action is quiet. -/
theorem AtMostOnce.before {first : StateM σ α} {next : α → StateM σ β}
    (acts : AtMostOnce view Allowed first) (quiet : ∀ a, Quiet view (next a)) :
    AtMostOnce view Allowed (first >>= next) := by
  intro s
  have after := quiet (first.run s).1 (first.run s).2
  rcases acts s with same | ⟨entry, allowed, logged⟩
  · exact Or.inl ⟨after.log.trans same.log, after.kept.trans same.kept⟩
  · exact Or.inr ⟨entry, allowed, after.log.trans logged⟩

theorem AtMostOnce.mono {Allowed' : κ → Prop} {program : StateM σ α}
    (acts : AtMostOnce view Allowed program) (weaker : ∀ entry, Allowed entry → Allowed' entry) :
    AtMostOnce view Allowed' program := by
  intro s
  rcases acts s with same | ⟨entry, allowed, logged⟩
  · exact Or.inl same
  · exact Or.inr ⟨entry, weaker entry allowed, logged⟩

end Effects
