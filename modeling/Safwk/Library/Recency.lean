import Mathlib.Data.Finset.Card
import Mathlib.Data.List.Nodup
import Mathlib.Data.List.TakeWhile

/-!
# Recency lists with expiry

A bounded list of entries, most recently used first. `idealAdd` and `idealGet`
are the operations on a list that holds live entries only. `lazyAdd` and
`lazyGet` find dead entries still in the list: they drop one when it is looked
up, and all of them when a new entry does not fit. The live part of the
lazy list is the ideal list (`lazyAdd_live`, `lazyGet_live`).

`ahead es key` are the keys used more recently than `key`. An operation on
another key puts at most that key in front (`lazyAdd_ahead`, `lazyGet_ahead`),
and an entry is evicted only behind `capacity - 1` others.
-/

namespace Recency

universe u v w

variable {κ : Type u} {υ : Type v} {τ : Type w}

structure Entry (κ : Type u) (υ : Type v) (τ : Type w) where
  key : κ
  value : υ
  stamp : τ
  deriving DecidableEq

variable [DecidableEq κ] (es : List (Entry κ υ τ)) (live : Entry κ υ τ → Bool)

def keys : List κ := es.map Entry.key

def find (key : κ) : Option (Entry κ υ τ) := es.find? (fun e => e.key = key)

def without (key : κ) : List (Entry κ υ τ) := es.filter (fun e => e.key ≠ key)

def idealAdd (capacity : Nat) (e : Entry κ υ τ) : List (Entry κ υ τ) :=
  if e.key ∈ keys es then e :: without es e.key
  else if es.length < capacity then e :: es
  else e :: es.dropLast

def lazyAdd (capacity : Nat) (e : Entry κ υ τ) : List (Entry κ υ τ) :=
  if e.key ∈ keys es then e :: without es e.key
  else if es.length < capacity then e :: es
  else if es.all live then e :: es.dropLast
  else e :: es.filter live

def idealGet (key : κ) : List (Entry κ υ τ) × Option υ :=
  match find es key with
  | none => (es, none)
  | some e => (e :: without es key, some e.value)

def lazyGet (key : κ) : List (Entry κ υ τ) × Option υ :=
  match find es key with
  | none => (es, none)
  | some e => if live e then (e :: without es key, some e.value) else (without es key, none)

/-! ## Finding and leaving out a key -/

variable {es live}

theorem find_some {key : κ} {e : Entry κ υ τ} (found : find es key = some e) :
    e ∈ es ∧ e.key = key := by
  constructor
  · exact List.mem_of_find?_eq_some found
  · simpa using List.find?_some found

theorem find_eq_none {key : κ} : find es key = none ↔ key ∉ keys es := by
  simp [find, keys, List.find?_eq_none]

theorem find_of_mem (nodup : (keys es).Nodup) {e : Entry κ υ τ} (member : e ∈ es) :
    find es e.key = some e := by
  cases found : find es e.key with
  | none => exact False.elim (find_eq_none.mp found (List.mem_map_of_mem member))
  | some other =>
    obtain ⟨there, same⟩ := find_some found
    rw [List.inj_on_of_nodup_map nodup there member same]

omit [DecidableEq κ] in
theorem keys_sublist {es' : List (Entry κ υ τ)} (sublist : es'.Sublist es) :
    (keys es').Sublist (keys es) := sublist.map Entry.key

theorem find_sublist {es' : List (Entry κ υ τ)} (sublist : es'.Sublist es)
    (nodup : (keys es).Nodup) {e : Entry κ υ τ} (member : e ∈ es') :
    find es' e.key = some e :=
  find_of_mem (nodup.sublist (keys_sublist sublist)) member

theorem without_absent {key : κ} (absent : key ∉ keys es) : without es key = es := by
  rw [without, List.filter_eq_self]
  intro e member
  simp only [decide_eq_true_eq]
  intro same
  exact absent (same ▸ List.mem_map_of_mem member)

theorem without_filter (key : κ) :
    (without es key).filter live = without (es.filter live) key := by
  simp only [without]
  exact List.filter_comm _ _ es

theorem find_without_self (key : κ) : find (without es key) key = none := by
  simp [find_eq_none, keys, without]

/-- A dead entry is not found among the live ones. -/
theorem find_filter_dead (nodup : (keys es).Nodup) {key : κ} {e : Entry κ υ τ}
    (found : find es key = some e) (dead : live e = false) : find (es.filter live) key = none := by
  obtain ⟨member, rfl⟩ := find_some found
  rw [find_eq_none]
  intro there
  obtain ⟨other, hother, same⟩ := List.mem_map.mp there
  obtain ⟨inside, alive⟩ := List.mem_filter.mp hother
  rw [List.inj_on_of_nodup_map nodup inside member same, dead] at alive
  cases alive

/-! ## The live part of a lazy list -/

omit [DecidableEq κ] in
theorem length_filter_lt {e : Entry κ υ τ} (member : e ∈ es) (dead : live e = false) :
    (es.filter live).length < es.length := by
  apply List.length_filter_lt_length_iff_exists.mpr
  exact ⟨e, member, by simp [dead]⟩

theorem lazyAdd_live (nodup : (keys es).Nodup) {capacity : Nat} (bound : es.length ≤ capacity)
    {e : Entry κ υ τ} (alive : live e = true) :
    (lazyAdd es live capacity e).filter live = idealAdd (es.filter live) capacity e := by
  have shorter : (es.filter live).length ≤ es.length := List.length_filter_le live es
  cases found : find es e.key with
  | some old =>
    obtain ⟨member, same⟩ := find_some found
    have stored : e.key ∈ keys es := same ▸ List.mem_map_of_mem member
    rw [lazyAdd, if_pos stored, List.filter_cons_of_pos alive, without_filter]
    cases fresh : live old with
    | true =>
      have kept : e.key ∈ keys (es.filter live) :=
        same ▸ List.mem_map_of_mem (List.mem_filter.mpr ⟨member, fresh⟩)
      rw [idealAdd, if_pos kept]
    | false =>
      -- the dead entry takes a slot, so the live ones leave one free
      have gone := find_eq_none.mp (find_filter_dead nodup found fresh)
      have fewer := length_filter_lt member fresh
      rw [idealAdd, if_neg gone, if_pos (by omega), without_absent gone]
  | none =>
    have absent := find_eq_none.mp found
    have gone : e.key ∉ keys (es.filter live) := fun there =>
      absent ((keys_sublist List.filter_sublist).subset there)
    rw [lazyAdd, if_neg absent, idealAdd, if_neg gone]
    split
    · rw [List.filter_cons_of_pos alive, if_pos (by omega)]
    · rename_i full
      split
      · rename_i allLive
        have same : es.filter live = es := List.filter_eq_self.mpr (List.all_eq_true.mp allLive)
        have same' : es.dropLast.filter live = es.dropLast := by
          apply List.filter_eq_self.mpr
          intro x member
          exact List.all_eq_true.mp allLive x (List.mem_of_mem_dropLast member)
        rw [List.filter_cons_of_pos alive, same, same', if_neg full]
      · rename_i someDead
        obtain ⟨x, member, dead⟩ : ∃ x ∈ es, live x = false := by
          simpa [List.all_eq_true] using someDead
        have fewer := length_filter_lt member dead
        rw [List.filter_cons_of_pos alive, List.filter_filter, if_pos (by omega)]
        simp

theorem lazyGet_live (nodup : (keys es).Nodup) (key : κ) :
    (lazyGet es live key).1.filter live = (idealGet (es.filter live) key).1 ∧
    (lazyGet es live key).2 = (idealGet (es.filter live) key).2 := by
  cases found : find es key with
  | none =>
    have gone : find (es.filter live) key = none := find_eq_none.mpr fun there =>
      find_eq_none.mp found ((keys_sublist List.filter_sublist).subset there)
    simp only [lazyGet, idealGet, found, gone, and_self]
  | some e =>
    cases alive : live e with
    | true =>
      obtain ⟨member, rfl⟩ := find_some found
      have kept : find (es.filter live) e.key = some e :=
        find_sublist List.filter_sublist nodup (List.mem_filter.mpr ⟨member, alive⟩)
      simp only [lazyGet, idealGet, found, kept, alive, if_true, List.filter_cons_of_pos,
        without_filter, and_self]
    | false =>
      have gone := find_filter_dead nodup found alive
      have same := without_absent (find_eq_none.mp gone)
      simp only [lazyGet, idealGet, found, gone, alive, Bool.false_eq_true, if_false,
        without_filter, same, and_self]

/-! ## Keys in front of a key -/

section Ahead

/-- The keys in front of `key`; all of them if it is not there. -/
def ahead (listed : List κ) (key : κ) : List κ := listed.takeWhile (· ≠ key)

theorem ahead_cons_self (listed : List κ) (key : κ) : ahead (key :: listed) key = [] := by
  simp [ahead]

theorem ahead_cons_ne (listed : List κ) {key other : κ} (different : other ≠ key) :
    ahead (other :: listed) key = other :: ahead listed key := by
  simp [ahead, different]

theorem ahead_sublist {listed listed' : List κ} (sublist : listed'.Sublist listed)
    (nodup : listed.Nodup) {key : κ} (member : key ∈ listed') :
    ahead listed' key ⊆ ahead listed key := by
  induction sublist with
  | slnil => exact List.Subset.refl _
  | @cons listed' listed other sublist ih =>
    obtain ⟨fresh, nodup⟩ := List.nodup_cons.mp nodup
    have different : other ≠ key := fun same => fresh (same ▸ sublist.subset member)
    rw [ahead_cons_ne listed different]
    exact List.subset_cons_of_subset other (ih nodup member)
  | @cons_cons listed' listed other sublist ih =>
    obtain ⟨fresh, nodup⟩ := List.nodup_cons.mp nodup
    by_cases same : other = key
    · subst same
      rw [ahead_cons_self]
      exact List.nil_subset _
    · rw [ahead_cons_ne listed same, ahead_cons_ne listed' same]
      have inside : key ∈ listed' := (List.mem_cons.mp member).resolve_left (Ne.symm same)
      exact List.cons_subset_cons other (ih nodup inside)

/-- All keys but the last are in front of the last. -/
theorem ahead_last {listed : List κ} {key : κ} (member : key ∈ listed)
    (last : key ∉ listed.dropLast) : ahead listed key = listed.dropLast := by
  have nonempty : listed ≠ [] := List.ne_nil_of_mem member
  have split := List.dropLast_append_getLast nonempty
  have isLast : key = listed.getLast nonempty := by
    rw [← split, List.mem_append] at member
    exact List.mem_singleton.mp (member.resolve_left last)
  rw [ahead]
  conv_lhs => rw [← split]
  rw [List.takeWhile_append_of_pos]
  · simp [isLast]
  · intro other inside
    simp only [decide_eq_true_eq]
    intro same
    exact last (same ▸ inside)

/-- An entry that stays behind a new one in front has at most the new key more
in front of it. -/
theorem ahead_cons_sublist {es' : List (Entry κ υ τ)} (nodup : (keys es).Nodup)
    (sublist : es'.Sublist es) {e x : Entry κ υ τ} (different : e.key ≠ x.key) (member : x ∈ es') :
    ahead (keys (e :: es')) x.key ⊆ e.key :: ahead (keys es) x.key := by
  rw [keys, List.map_cons, ahead_cons_ne _ different]
  apply List.cons_subset_cons
  exact ahead_sublist (keys_sublist sublist) nodup (List.mem_map_of_mem member)

theorem mem_without {key : κ} {x : Entry κ υ τ} (member : x ∈ es) (different : key ≠ x.key) :
    x ∈ without es key := by
  simp [without, member, Ne.symm different]

variable (live) in
/-- Adding another key leaves an entry in the list, or purges it as dead, or
evicts it behind `capacity - 1` others. -/
theorem lazyAdd_ahead (nodup : (keys es).Nodup) (capacity : Nat) {e x : Entry κ υ τ}
    (different : e.key ≠ x.key) (member : x ∈ es) :
    x ∈ lazyAdd es live capacity e ∧
      ahead (keys (lazyAdd es live capacity e)) x.key ⊆ e.key :: ahead (keys es) x.key ∨
    x.key ∉ keys (lazyAdd es live capacity e) ∧
      (live x = false ∨ capacity ≤ (e.key :: ahead (keys es) x.key).toFinset.card) := by
  have keep : ∀ es' : List (Entry κ υ τ), es'.Sublist es → x ∈ es' →
      x ∈ e :: es' ∧ ahead (keys (e :: es')) x.key ⊆ e.key :: ahead (keys es) x.key := by
    intro es' sublist inside
    exact ⟨List.mem_cons_of_mem e inside, ahead_cons_sublist nodup sublist different inside⟩
  have leave : ∀ es' : List (Entry κ υ τ), es'.Sublist es → x ∉ es' → x.key ∉ keys (e :: es') := by
    intro es' sublist outside there
    rw [keys, List.map_cons, List.mem_cons] at there
    obtain ⟨other, inside, same⟩ := List.mem_map.mp (there.resolve_left (Ne.symm different))
    rw [List.inj_on_of_nodup_map nodup (sublist.subset inside) member same] at inside
    exact outside inside
  rw [lazyAdd]
  split
  · exact Or.inl (keep _ List.filter_sublist (mem_without member different))
  · rename_i absent
    split
    · exact Or.inl (keep es (List.Sublist.refl es) member)
    · rename_i full
      split
      · by_cases inside : x ∈ es.dropLast
        · exact Or.inl (keep _ (List.dropLast_sublist es) inside)
        · have gone := leave _ (List.dropLast_sublist es) inside
          refine Or.inr ⟨gone, Or.inr ?_⟩
          have last : x.key ∉ (keys es).dropLast := by
            rw [keys, ← List.map_dropLast]
            intro there
            exact gone (List.mem_cons_of_mem e.key there)
          have front : ahead (keys es) x.key = (keys es).dropLast :=
            ahead_last (List.mem_map_of_mem member) last
          have distinct : (e.key :: ahead (keys es) x.key).Nodup := by
            rw [front, List.nodup_cons]
            exact ⟨fun there => absent (List.mem_of_mem_dropLast there),
              nodup.sublist (List.dropLast_sublist _)⟩
          rw [List.toFinset_card_of_nodup distinct, front, List.length_cons,
            List.length_dropLast, keys, List.length_map]
          omega
      · cases alive : live x with
        | true =>
          exact Or.inl (keep _ List.filter_sublist (List.mem_filter.mpr ⟨member, alive⟩))
        | false =>
          refine Or.inr ⟨leave _ List.filter_sublist ?_, Or.inl rfl⟩
          simp [alive]

variable (live) in
/-- Looking up another key leaves an entry in the list; only a hit puts a key
in front of it. -/
theorem lazyGet_ahead (nodup : (keys es).Nodup) {key : κ} {x : Entry κ υ τ}
    (different : key ≠ x.key) (member : x ∈ es) :
    x ∈ (lazyGet es live key).1 ∧ ahead (keys (lazyGet es live key).1) x.key ⊆
      if (lazyGet es live key).2.isSome then key :: ahead (keys es) x.key
      else ahead (keys es) x.key := by
  have inside := mem_without member different
  cases found : find es key with
  | none =>
    simp only [lazyGet, found, Option.isSome_none, Bool.false_eq_true, if_false]
    exact ⟨member, List.Subset.refl _⟩
  | some e =>
    have same := (find_some found).2
    cases alive : live e with
    | true =>
      simp only [lazyGet, found, alive, if_true, Option.isSome_some]
      refine ⟨List.mem_cons_of_mem e inside, ?_⟩
      have front := ahead_cons_sublist nodup List.filter_sublist (same ▸ different) inside
      rwa [same] at front
    | false =>
      simp only [lazyGet, found, alive, Bool.false_eq_true, if_false, Option.isSome_none]
      refine ⟨inside, ?_⟩
      exact ahead_sublist (keys_sublist List.filter_sublist) nodup (List.mem_map_of_mem inside)

end Ahead

end Recency
