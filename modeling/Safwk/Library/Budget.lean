import Mathlib
import Safwk.Library.Transition

/-!
# Accounting along a run

Every step pays for what it does out of a stock that only some steps refill. What a
whole run has paid is then bounded by what was put in. The stock of a system of threads
is the sum of what each thread has left; a step of one thread changes one summand.
-/

namespace Transition

universe u v

variable {σ : Type u} {α : Type v} {M : Machine σ α} {ok : σ → α → Prop}

/-- The same amount for every action of a kind. -/
theorem sum_map_toNat (amount : Nat) (p : α → Bool) (schedule : List α) :
    (schedule.map fun a => amount * (p a).toNat).sum = amount * schedule.countP p := by
  induction schedule with
  | nil => rfl
  | cons a rest ih =>
    rw [List.map_cons, List.sum_cons, ih, List.countP_cons, Nat.mul_add]
    cases p a
    · simp
    · simp only [Bool.toNat_true, if_true]
      omega

/-- The payments of a run and what is left do not exceed what was put in. -/
theorem Machine.run_budget [∀ s a, Decidable (ok s a)] (stock : σ → Nat) (pays refills : α → Nat)
    (each : ∀ s a t, M.Reachable ok s → ok s a → M.step s a = some t →
      stock t + pays a ≤ stock s + refills a)
    {schedule : List α} {t : σ} (result : M.run ok M.init schedule = some t) :
    stock t + (schedule.map pays).sum ≤ stock M.init + (schedule.map refills).sum := by
  refine Machine.run_invariant (M := M)
    (fun past s => stock s + (past.map pays).sum ≤ stock M.init + (past.map refills).sum)
    (Nat.le_refl _) ?_ result
  intro past s a t reach before allowed next
  have now := each s a t reach allowed next
  simp only [List.map_append, List.map_cons, List.map_nil, List.sum_append, List.sum_cons,
    List.sum_nil]
  omega

/-- One summand changes. -/
theorem sum_range_change {f g : Nat → Nat} {n i : Nat} (inside : i < n)
    (others : ∀ j, j ≠ i → g j = f j) {out gain : Nat} (here : g i + out ≤ f i + gain) :
    ∑ j ∈ Finset.range n, g j + out ≤ ∑ j ∈ Finset.range n, f j + gain := by
  have member : i ∈ Finset.range n := Finset.mem_range.mpr inside
  have rest : ∑ j ∈ (Finset.range n).erase i, g j = ∑ j ∈ (Finset.range n).erase i, f j := by
    refine Finset.sum_congr rfl ?_
    intro j inErase
    exact others j (Finset.ne_of_mem_erase inErase)
  have splitF := Finset.add_sum_erase (Finset.range n) f member
  have splitG := Finset.add_sum_erase (Finset.range n) g member
  omega

end Transition
