import Mathlib.Data.List.Basic

/-!
# Cutting a list at a separator

`cut` takes what stands before the first separator, drops the separator and goes on
with the rest, as a loop over `find` and `substr` does. What follows the last
separator belongs to no field. A list with `n` separators therefore has `n` fields,
and the fields with their separators are a beginning of the list.
-/

namespace Cut

universe u

variable {α : Type u} [DecidableEq α]

/-- The fields that end in a separator. -/
def cut (sep : α) (l : List α) : List (List α) :=
  match found : l.findIdx? (· == sep) with
  | none => []
  | some pos => l.take pos :: cut sep (l.drop (pos + 1))
termination_by l.length
decreasing_by
  have inside := (List.findIdx?_eq_some_iff_getElem.mp found).1
  simp only [List.length_drop]
  omega

theorem cut_of_not_mem {sep : α} {l : List α} (absent : sep ∉ l) : cut sep l = [] := by
  have none : l.findIdx? (· == sep) = none := by
    apply List.findIdx?_eq_none_iff.mpr
    intro a member
    exact beq_eq_false_iff_ne.mpr (ne_of_mem_of_not_mem member absent)
  rw [cut]
  split
  · rfl
  · rename_i pos found
    rw [none] at found
    cases found

/-- The first field is what stands before the first separator. -/
theorem cut_append {sep : α} {field : List α} (free : sep ∉ field) (rest : List α) :
    cut sep (field ++ sep :: rest) = field :: cut sep rest := by
  have place : (field ++ sep :: rest).findIdx? (· == sep) = some field.length := by
    have none : field.findIdx? (· == sep) = none := by
      apply List.findIdx?_eq_none_iff.mpr
      intro a member
      exact beq_eq_false_iff_ne.mpr (ne_of_mem_of_not_mem member free)
    rw [List.findIdx?_append, none]
    simp [List.findIdx?_cons]
  rw [cut]
  split
  · rename_i found
    rw [place] at found
    cases found
  · rename_i pos found
    rw [place] at found
    cases found
    have after : (field ++ sep :: rest).drop (field.length + 1) = rest := by
      simp [List.drop_append]
    rw [List.take_left, after]

/-- Fields with a separator after each, and what follows the last separator. -/
def joined (sep : α) (fields : List (List α)) (rest : List α) : List α :=
  fields.foldr (fun field tail => field ++ sep :: tail) rest

theorem cut_joined {sep : α} {fields : List (List α)} (free : ∀ field ∈ fields, sep ∉ field)
    (rest : List α) : cut sep (joined sep fields rest) = fields ++ cut sep rest := by
  induction fields with
  | nil => rfl
  | cons field fields ih =>
    have later := ih fun other member => free other (List.mem_cons_of_mem field member)
    have here := cut_append (free field List.mem_cons_self) (joined sep fields rest)
    rw [later] at here
    exact here

theorem exists_joined (sep : α) (l : List α) :
    ∃ fields rest, (∀ field ∈ fields, sep ∉ field) ∧ sep ∉ rest ∧ l = joined sep fields rest := by
  induction len : l.length using Nat.strongRecOn generalizing l with
  | ind n ih =>
    by_cases member : sep ∈ l
    · obtain ⟨field, tail, rfl, free⟩ := List.eq_append_cons_of_mem member
      have shorter : tail.length < n := by
        rw [List.length_append, List.length_cons] at len
        omega
      obtain ⟨fields, rest, allFree, last, rfl⟩ := ih tail.length shorter tail rfl
      refine ⟨field :: fields, rest, ?_, last, rfl⟩
      intro other inFields
      rcases List.mem_cons.mp inFields with rfl | inFields
      · exact free
      · exact allFree other inFields
    · exact ⟨[], l, fun field inFields => absurd inFields List.not_mem_nil, member, rfl⟩

/-- The fields of a list, and the rest they leave. -/
theorem joined_cut (sep : α) (l : List α) :
    (∀ field ∈ cut sep l, sep ∉ field) ∧
      ∃ rest, sep ∉ rest ∧ l = joined sep (cut sep l) rest := by
  obtain ⟨fields, rest, free, last, rfl⟩ := exists_joined sep l
  rw [cut_joined free, cut_of_not_mem last, List.append_nil]
  exact ⟨free, rest, last, rfl⟩

/-- There are as many fields as separators. -/
theorem length_cut (sep : α) (l : List α) : (cut sep l).length = l.count sep := by
  obtain ⟨fields, rest, free, last, rfl⟩ := exists_joined sep l
  rw [cut_joined free, cut_of_not_mem last, List.append_nil]
  induction fields with
  | nil => exact (List.count_eq_zero_of_not_mem last).symm
  | cons field fields ih =>
    have later := ih fun other member => free other (List.mem_cons_of_mem field member)
    have none := List.count_eq_zero_of_not_mem (free field List.mem_cons_self)
    simp only [joined, List.foldr_cons, List.count_append, List.count_cons_self, none,
      List.length_cons]
    simp only [joined] at later
    omega

end Cut
