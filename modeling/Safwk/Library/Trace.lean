import Mathlib.Data.List.Basic

/-!
# Separation of events in a log

Logs are kept newest first, so that a step prepends its events. `Between`
says that a later `last` event never follows an earlier `first` event without
a `sep` event strictly between the two. `Cleared` is the part of that property
a state has to remember: every `first` event so far has been separated.
-/

namespace Trace

universe u v

variable {α : Type u} {first last sep : α → Prop}

/-- Every `first` event has a more recent `sep` event. -/
def Cleared (first sep : α → Prop) (log : List α) : Prop :=
  ∀ newer a older, log = newer ++ a :: older → first a → ∃ c ∈ newer, sep c

/-- Between a `first` event and a more recent `last` event there is a `sep` event. -/
def Between (first last sep : α → Prop) (log : List α) : Prop :=
  ∀ newer b mid a older, log = newer ++ b :: (mid ++ a :: older) →
    first a → last b → ∃ c ∈ mid, sep c

theorem cleared_nil : Cleared first sep ([] : List α) := by
  intro newer a older split
  simp at split

theorem between_nil : Between first last sep ([] : List α) := by
  intro newer b mid a older split
  simp at split

theorem cleared_cons (e : α) (log : List α) :
    Cleared first sep (e :: log) ↔ ¬ first e ∧ (sep e ∨ Cleared first sep log) := by
  constructor
  · intro cleared
    refine ⟨?_, ?_⟩
    · intro he
      obtain ⟨c, hc, _⟩ := cleared [] e log rfl he
      cases hc
    · by_cases hs : sep e
      · exact Or.inl hs
      · refine Or.inr ?_
        intro newer a older split ha
        obtain ⟨c, hc, hsep⟩ := cleared (e :: newer) a older (by rw [split]; rfl) ha
        rcases List.mem_cons.mp hc with rfl | hc
        · exact False.elim (hs hsep)
        · exact ⟨c, hc, hsep⟩
  · rintro ⟨notFirst, closed⟩ newer a older split ha
    cases newer with
    | nil =>
      have he : e = a := (List.cons.inj split).1
      exact False.elim (notFirst (he ▸ ha))
    | cons b newer =>
      obtain ⟨rfl, tail⟩ := List.cons.inj split
      rcases closed with hs | cleared
      · exact ⟨e, List.mem_cons_self, hs⟩
      · obtain ⟨c, hc, hsep⟩ := cleared newer a older tail ha
        exact ⟨c, List.mem_cons_of_mem e hc, hsep⟩

theorem between_cons (e : α) (log : List α) :
    Between first last sep (e :: log) ↔
      (last e → Cleared first sep log) ∧ Between first last sep log := by
  constructor
  · intro between
    refine ⟨?_, ?_⟩
    · intro he mid a older split ha
      exact between [] e mid a older (by rw [split]; rfl) ha he
    · intro newer b mid a older split ha hb
      exact between (e :: newer) b mid a older (by rw [split]; rfl) ha hb
  · rintro ⟨now, before⟩ newer b mid a older split ha hb
    cases newer with
    | nil =>
      obtain ⟨rfl, tail⟩ := List.cons.inj split
      exact now hb mid a older tail ha
    | cons c newer => exact before newer b mid a older (List.cons.inj split).2 ha hb

/-- A block of events without a `first` keeps the log cleared, or clears it. -/
theorem cleared_append {events log : List α} (quiet : ∀ e ∈ events, ¬ first e)
    (closed : (∃ e ∈ events, sep e) ∨ Cleared first sep log) :
    Cleared first sep (events ++ log) := by
  induction events with
  | nil =>
    rcases closed with ⟨e, member, _⟩ | cleared
    · cases member
    · exact cleared
  | cons e rest ih =>
    have quiet' := fun d member => quiet d (List.mem_cons_of_mem e member)
    refine (cleared_cons e (rest ++ log)).mpr ⟨quiet e List.mem_cons_self, ?_⟩
    rcases closed with ⟨d, member, separated⟩ | cleared
    · rcases List.mem_cons.mp member with rfl | member
      · exact Or.inl separated
      · exact Or.inr (ih quiet' (Or.inl ⟨d, member, separated⟩))
    · exact Or.inr (ih quiet' (Or.inr cleared))

theorem between_append {events log : List α} (quiet : ∀ e ∈ events, ¬ last e)
    (between : Between first last sep log) : Between first last sep (events ++ log) := by
  induction events with
  | nil => exact between
  | cons e rest ih =>
    apply (between_cons e (rest ++ log)).mpr
    refine ⟨?_, ih (fun d member => quiet d (List.mem_cons_of_mem e member))⟩
    intro he
    exact False.elim (quiet e List.mem_cons_self he)

end Trace
