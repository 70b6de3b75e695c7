import Mathlib.Data.List.Basic

/-!
# Writing to and reading from a first-in first-out buffer

A buffer is any state with a list of unread items. Writers add items at the end,
readers take them from the front. The rules say what a sequence of writers adds,
and what a sequence of readers makes of the items it meets.
-/

namespace Fifo

universe u

variable {ε σ ι α β : Type u}

theorem bind_ok {first : EStateM ε σ α} {next : α → EStateM ε σ β} {s s' : σ} {value : α}
    (ran : first s = .ok value s') : (first >>= next) s = next value s' := by
  simp only [bind, EStateM.bind, ran]

theorem bind_error {first : EStateM ε σ α} {next : α → EStateM ε σ β} {s s' : σ} {failure : ε}
    (ran : first s = .error failure s') : (first >>= next) s = .error failure s' := by
  simp only [bind, EStateM.bind, ran]

/-- A program that succeeds has succeeded in both of its parts. -/
theorem bind_inv {first : EStateM ε σ α} {next : α → EStateM ε σ β} {s s'' : σ} {result : β}
    (ran : (first >>= next) s = .ok result s'') :
    ∃ value s', first s = .ok value s' ∧ next value s' = .ok result s'' := by
  cases middle : first s with
  | ok value s' =>
    rw [bind_ok middle] at ran
    exact ⟨value, s', rfl, ran⟩
  | error failure s' =>
    rw [bind_error middle] at ran
    cases ran

/-- Every run of the writer succeeds. -/
def Accepts (writer : EStateM ε σ PUnit) : Prop :=
  ∀ s, ∃ s', writer s = .ok ⟨⟩ s'

/-- A successful run adds these items at the end. -/
def Appends (contents : σ → List ι) (writer : EStateM ε σ PUnit) (items : List ι) : Prop :=
  ∀ s s', writer s = .ok ⟨⟩ s' → contents s' = contents s ++ items

/-- With these items at the front, the reader takes them and returns the value. -/
def Reads (contents : σ → List ι) (reader : EStateM ε σ α) (items : List ι) (value : α) : Prop :=
  ∀ s rest, contents s = items ++ rest → ∃ s', reader s = .ok value s' ∧ contents s' = rest

/-- With these items at the front, the reader fails. -/
def Fails (contents : σ → List ι) (reader : EStateM ε σ α) (items : List ι) (failure : ε) : Prop :=
  ∀ s rest, contents s = items ++ rest → ∃ s', reader s = .error failure s'

variable {contents : σ → List ι}

theorem Accepts.seq {first second : EStateM ε σ PUnit} (one : Accepts first)
    (two : Accepts second) : Accepts (do first; second) := by
  intro s
  obtain ⟨s', ran⟩ := one s
  obtain ⟨s'', ran'⟩ := two s'
  exact ⟨s'', (bind_ok ran).trans ran'⟩

theorem Appends.seq {first second : EStateM ε σ PUnit} {items items' : List ι}
    (one : Appends contents first items) (two : Appends contents second items') :
    Appends contents (do first; second) (items ++ items') := by
  intro s s'' ran
  obtain ⟨value, s', ran, ran'⟩ := bind_inv ran
  rw [two s' s'' ran', one s s' ran, List.append_assoc]

theorem Reads.pure (value : α) : Reads contents (Pure.pure value : EStateM ε σ α) [] value := by
  intro s rest front
  exact ⟨s, rfl, front⟩

theorem Reads.bind {reader : EStateM ε σ α} {next : α → EStateM ε σ β} {items items' : List ι}
    {value : α} {result : β} (one : Reads contents reader items value)
    (two : Reads contents (next value) items' result) :
    Reads contents (reader >>= next) (items ++ items') result := by
  intro s rest front
  obtain ⟨s', ran, left⟩ := one s (items' ++ rest) (by rw [front, List.append_assoc])
  obtain ⟨s'', ran', left'⟩ := two s' rest left
  exact ⟨s'', (bind_ok ran).trans ran', left'⟩

theorem Reads.bind_fails {reader : EStateM ε σ α} {next : α → EStateM ε σ β}
    {items items' : List ι} {value : α} {failure : ε} (one : Reads contents reader items value)
    (two : Fails contents (next value) items' failure) :
    Fails contents (reader >>= next) (items ++ items') failure := by
  intro s rest front
  obtain ⟨s', ran, left⟩ := one s (items' ++ rest) (by rw [front, List.append_assoc])
  obtain ⟨s'', ran'⟩ := two s' rest left
  exact ⟨s'', (bind_ok ran).trans ran'⟩

/-- Nothing after a failed read runs, whatever items follow. -/
theorem Fails.bind {reader : EStateM ε σ α} {next : α → EStateM ε σ β} {items : List ι}
    {failure : ε} (one : Fails contents reader items failure) (items' : List ι) :
    Fails contents (reader >>= next) (items ++ items') failure := by
  intro s rest front
  obtain ⟨s', ran⟩ := one s (items' ++ rest) (by rw [front, List.append_assoc])
  exact ⟨s', bind_error ran⟩

end Fifo
