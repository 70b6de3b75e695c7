import Mathlib.Data.List.Basic

/-!
# Events that rest on earlier events

A log is kept newest first. `Each` says something of every event together with the
part of the log that is older than it. If an event of some kind always needs an older
event of that kind, then there is none: a log has a beginning.
-/

namespace Grounds

universe u

variable {α : Type u} {p : α → List α → Prop} {log : List α}

/-- Every event, with what is older than it. -/
def Each (p : α → List α → Prop) : List α → Prop
  | [] => True
  | e :: older => p e older ∧ Each p older

theorem Each.split (each : Each p log) {newer : List α} {e : α} {older : List α}
    (here : log = newer ++ e :: older) : p e older := by
  subst here
  induction newer with
  | nil => exact each.1
  | cons d newer ih => exact ih each.2

/-- An event of the log, with what is older than it. -/
theorem Each.mem (each : Each p log) {e : α} (member : e ∈ log) :
    ∃ newer older, log = newer ++ e :: older ∧ p e older := by
  obtain ⟨newer, older, here⟩ := List.append_of_mem member
  exact ⟨newer, older, here, each.split here⟩

theorem each_of_split
    (all : ∀ newer e older, log = newer ++ e :: older → p e older) : Each p log := by
  induction log with
  | nil => trivial
  | cons e older ih =>
    refine ⟨all [] e older rfl, ih ?_⟩
    intro newer d older' here
    exact all (e :: newer) d older' (by rw [here, List.cons_append])

theorem Each.tail {newer older : List α} (each : Each p (newer ++ older)) : Each p older := by
  induction newer with
  | nil => exact each
  | cons e newer ih => exact ih each.2

/-- No infinite regress. -/
theorem Each.none_of_regress {bad : α → Prop}
    (each : Each (fun e older => bad e → ∃ d ∈ older, bad d) log) : ∀ e ∈ log, ¬bad e := by
  induction log with
  | nil =>
    intro e member
    cases member
  | cons e older ih =>
    have fine := ih each.2
    intro d member worse
    rcases List.mem_cons.mp member with rfl | member
    · obtain ⟨c, earlier, bad⟩ := each.1 worse
      exact fine c earlier bad
    · exact fine d member worse

end Grounds
