import Mathlib.Logic.Function.Basic

/-!
# Encodings that show where they end

An encoding into lists is delimited if no encoding can be mistaken for the beginning of
another one, so that what is encoded and what follows it can both be read off. Delimited
encodings can be put one after the other; a list of them is delimited by an element that
no encoding begins with.
-/

namespace Framing

universe u v w

variable {α : Type u} {β : Type v} {γ : Type w}

/-- What is encoded and what follows are determined. -/
def Delimited (f : α → List γ) : Prop :=
  ∀ x y rest rest', f x ++ rest = f y ++ rest' → x = y ∧ rest = rest'

/-- Parts of a value one after the other. -/
theorem Delimited.append {f : α → List γ} {g : β → List γ} (first : Delimited f)
    (second : Delimited g) : Delimited fun p : α × β => f p.1 ++ g p.2 := by
  rintro ⟨a, b⟩ ⟨a', b'⟩ rest rest' same
  simp only [List.append_assoc] at same
  obtain ⟨rfl, after⟩ := first _ _ _ _ same
  obtain ⟨rfl, end_⟩ := second _ _ _ _ after
  exact ⟨rfl, end_⟩

/-- A fixed text before every value. -/
theorem Delimited.after {f : α → List γ} (delimited : Delimited f) (l : List γ) :
    Delimited fun x => l ++ f x := by
  intro x y rest rest' same
  simp only [List.append_assoc] at same
  exact delimited x y rest rest' (List.append_cancel_left same)

/-- A fixed text after every value. -/
theorem Delimited.before {f : α → List γ} (delimited : Delimited f) (l : List γ) :
    Delimited fun x => f x ++ l := by
  intro x y rest rest' same
  simp only [List.append_assoc] at same
  obtain ⟨values, after⟩ := delimited _ _ _ _ same
  exact ⟨values, List.append_cancel_left after⟩

/-- A list, up to an element that no value begins with. -/
theorem Delimited.list {f : α → List γ} (delimited : Delimited f) {stop : γ}
    (begins : ∀ x, ∃ first rest, f x = first :: rest ∧ first ≠ stop) :
    Delimited fun xs : List α => xs.flatMap f ++ [stop] := by
  intro xs
  induction xs with
  | nil =>
    intro ys rest rest' same
    cases ys with
    | nil => exact ⟨rfl, by simpa using same⟩
    | cons y ys =>
      obtain ⟨first, tail, shape, other⟩ := begins y
      simp only [List.flatMap_nil, List.flatMap_cons, shape, List.nil_append, List.cons_append,
        List.cons.injEq] at same
      exact absurd same.1.symm other
  | cons x xs ih =>
    intro ys rest rest' same
    cases ys with
    | nil =>
      obtain ⟨first, tail, shape, other⟩ := begins x
      simp only [List.flatMap_nil, List.flatMap_cons, shape, List.nil_append, List.cons_append,
        List.cons.injEq] at same
      exact absurd same.1 other
    | cons y ys =>
      simp only [List.flatMap_cons, List.append_assoc] at same
      obtain ⟨rfl, after⟩ := delimited _ _ _ _ same
      obtain ⟨rfl, end_⟩ := ih ys rest rest' (by simpa only [List.append_assoc] using after)
      exact ⟨rfl, end_⟩

end Framing
