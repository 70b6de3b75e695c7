import Mathlib.Order.Lattice
import Mathlib.Data.List.Basic

/-!
# Maps as sorted lists

A map whose entries are visited in the order of their keys, each key once.
`insert` keeps an entry that is there, `assign` replaces it. Inserting the entries
of a map one by one builds the same map again; of several insertions for one key
the first counts.
-/

universe u v

/-- Entries with increasing keys. -/
structure SortedMap (κ : Type u) (υ : Type v) [LinearOrder κ] where
  entries : List (κ × υ)
  sorted : entries.Pairwise (fun a b => a.1 < b.1)

namespace SortedMap

variable {κ : Type u} {υ : Type v} [LinearOrder κ]

@[ext] theorem ext {m m' : SortedMap κ υ} (same : m.entries = m'.entries) : m = m' := by
  cases m
  cases m'
  cases same
  rfl

def empty : SortedMap κ υ := ⟨[], List.Pairwise.nil⟩

def insertEntry (key : κ) (value : υ) : List (κ × υ) → List (κ × υ)
  | [] => [(key, value)]
  | (other, value') :: rest =>
    if key < other then (key, value) :: (other, value') :: rest
    else if key = other then (other, value') :: rest
    else (other, value') :: insertEntry key value rest

theorem mem_insertEntry {key : κ} {value : υ} {entries : List (κ × υ)} {entry : κ × υ}
    (member : entry ∈ insertEntry key value entries) : entry = (key, value) ∨ entry ∈ entries := by
  induction entries with
  | nil => exact Or.inl (List.mem_singleton.mp member)
  | cons first rest ih =>
    simp only [insertEntry] at member
    split at member
    · exact List.mem_cons.mp member
    · split at member
      · exact Or.inr member
      · rcases List.mem_cons.mp member with rfl | member
        · exact Or.inr List.mem_cons_self
        · exact (ih member).imp_right (List.mem_cons_of_mem first)

theorem insertEntry_sorted (key : κ) (value : υ) {entries : List (κ × υ)}
    (sorted : entries.Pairwise (fun a b => a.1 < b.1)) :
    (insertEntry key value entries).Pairwise (fun a b => a.1 < b.1) := by
  induction entries with
  | nil => exact List.pairwise_singleton _ _
  | cons first rest ih =>
    obtain ⟨below, tail⟩ := List.pairwise_cons.mp sorted
    simp only [insertEntry]
    split
    · rename_i smaller
      refine List.pairwise_cons.mpr ⟨?_, sorted⟩
      intro entry member
      rcases List.mem_cons.mp member with rfl | member
      · exact smaller
      · exact lt_trans smaller (below entry member)
    · rename_i notSmaller
      split
      · exact sorted
      · rename_i different
        refine List.pairwise_cons.mpr ⟨?_, ih tail⟩
        intro entry member
        rcases mem_insertEntry member with rfl | member
        · exact lt_of_le_of_ne (not_lt.mp notSmaller) (Ne.symm different)
        · exact below entry member

def insert (m : SortedMap κ υ) (key : κ) (value : υ) : SortedMap κ υ :=
  ⟨insertEntry key value m.entries, insertEntry_sorted key value m.sorted⟩

/-- Insertions one after the other, into an empty map. -/
def ofList (pairs : List (κ × υ)) : SortedMap κ υ :=
  pairs.foldl (fun m pair => insert m pair.1 pair.2) empty

/-- A key above all others goes to the end. -/
theorem insertEntry_last {key : κ} {value : υ} {entries : List (κ × υ)}
    (above : ∀ entry ∈ entries, entry.1 < key) :
    insertEntry key value entries = entries ++ [(key, value)] := by
  induction entries with
  | nil => rfl
  | cons first rest ih =>
    have lower := above first List.mem_cons_self
    simp only [insertEntry, if_neg (not_lt.mpr (le_of_lt lower)), if_neg (ne_of_gt lower),
      List.cons_append]
    rw [ih fun entry member => above entry (List.mem_cons_of_mem first member)]

theorem foldl_insert_entries (m : SortedMap κ υ) (pairs : List (κ × υ))
    (sorted : (m.entries ++ pairs).Pairwise (fun a b => a.1 < b.1)) :
    (pairs.foldl (fun m pair => insert m pair.1 pair.2) m).entries = m.entries ++ pairs := by
  induction pairs generalizing m with
  | nil => simp
  | cons pair pairs ih =>
    have above : ∀ entry ∈ m.entries, entry.1 < pair.1 := by
      intro entry member
      exact (List.pairwise_append.mp sorted).2.2 entry member pair List.mem_cons_self
    have grown : (insert m pair.1 pair.2).entries = m.entries ++ [pair] := insertEntry_last above
    rw [List.foldl_cons, ih, grown, List.append_assoc, List.singleton_append]
    rwa [grown, List.append_assoc, List.singleton_append]

theorem ofList_entries (m : SortedMap κ υ) : ofList m.entries = m := by
  apply ext
  exact foldl_insert_entries empty m.entries (by simpa [empty] using m.sorted)

theorem mem_ofList {pairs : List (κ × υ)} {entry : κ × υ}
    (member : entry ∈ (ofList pairs).entries) : entry ∈ pairs := by
  suffices general : ∀ m : SortedMap κ υ,
      entry ∈ (pairs.foldl (fun m pair => insert m pair.1 pair.2) m).entries →
        entry ∈ m.entries ∨ entry ∈ pairs by
    rcases general empty member with absurdity | member
    · cases absurdity
    · exact member
  clear member
  induction pairs with
  | nil => exact fun m member => Or.inl member
  | cons pair pairs ih =>
    intro m member
    rcases ih (insert m pair.1 pair.2) member with member | member
    · rcases mem_insertEntry member with rfl | member
      · exact Or.inr List.mem_cons_self
      · exact Or.inl member
    · exact Or.inr (List.mem_cons_of_mem pair member)

theorem nodup_of_sorted {entries : List (κ × υ)}
    (sorted : entries.Pairwise (fun a b => a.1 < b.1)) : entries.Nodup :=
  sorted.imp fun lower => ne_of_apply_ne Prod.fst (ne_of_lt lower)

/-! ## Looking up a key -/

section Lookup

variable [BEq κ] [LawfulBEq κ]

theorem lookup_above {key : κ} {entries : List (κ × υ)}
    (above : ∀ entry ∈ entries, key < entry.1) : entries.lookup key = none := by
  apply List.lookup_eq_none_iff.mpr
  intro entry member
  exact bne_iff_ne.mpr (ne_of_lt (above entry member))

/-- An entry is what its key finds. -/
theorem mem_iff_lookup {entries : List (κ × υ)}
    (sorted : entries.Pairwise (fun a b => a.1 < b.1)) {key : κ} {value : υ} :
    (key, value) ∈ entries ↔ entries.lookup key = some value := by
  induction entries with
  | nil => simp
  | cons first rest ih =>
    obtain ⟨other, value'⟩ := first
    obtain ⟨below, tail⟩ := List.pairwise_cons.mp sorted
    rw [List.mem_cons, ih tail]
    by_cases same : key = other
    · subst same
      have absent : rest.lookup key = none := lookup_above below
      simp [absent, eq_comm]
    · have different : (key == other) = false := beq_eq_false_iff_ne.mpr same
      simp [List.lookup_cons, different, same]

/-- A map is determined by what its keys find. -/
theorem ext_lookup {m m' : SortedMap κ υ}
    (same : ∀ key, m.entries.lookup key = m'.entries.lookup key) : m = m' := by
  apply ext
  have members : ∀ entry, entry ∈ m.entries ↔ entry ∈ m'.entries := by
    rintro ⟨key, value⟩
    rw [mem_iff_lookup m.sorted, mem_iff_lookup m'.sorted, same]
  have permuted := (List.perm_ext_iff_of_nodup (nodup_of_sorted m.sorted)
    (nodup_of_sorted m'.sorted)).mpr members
  refine permuted.eq_of_pairwise ?_ m.sorted m'.sorted
  intro entry entry' _ _ lower higher
  exact absurd (lt_trans lower higher) (lt_irrefl _)

/-- The only entry for a key is the last one as well. -/
theorem lookup_reverse {entries : List (κ × υ)}
    (sorted : entries.Pairwise (fun a b => a.1 < b.1)) (key : κ) :
    entries.reverse.lookup key = entries.lookup key := by
  induction entries with
  | nil => rfl
  | cons first rest ih =>
    obtain ⟨other, value⟩ := first
    obtain ⟨below, tail⟩ := List.pairwise_cons.mp sorted
    rw [List.reverse_cons, List.lookup_append, ih tail]
    by_cases same : key = other
    · subst same
      have absent : rest.lookup key = none := lookup_above below
      simp [absent]
    · have different : (key == other) = false := beq_eq_false_iff_ne.mpr same
      simp [List.lookup_cons, different]

/-- An entry that is there stays, another key gets the new value. -/
theorem lookup_insertEntry (key : κ) (value : υ) {entries : List (κ × υ)}
    (sorted : entries.Pairwise (fun a b => a.1 < b.1)) (k : κ) :
    (insertEntry key value entries).lookup k = (entries.lookup k).or ([(key, value)].lookup k) := by
  induction entries with
  | nil => rfl
  | cons first rest ih =>
    obtain ⟨other, value'⟩ := first
    obtain ⟨below, tail⟩ := List.pairwise_cons.mp sorted
    simp only [insertEntry]
    split
    · rename_i smaller
      by_cases same : k = key
      · subst same
        have absent : ((other, value') :: rest).lookup k = none := by
          apply lookup_above
          intro entry member
          rcases List.mem_cons.mp member with rfl | member
          · exact smaller
          · exact lt_trans smaller (below entry member)
        simp [absent]
      · have different : (k == key) = false := beq_eq_false_iff_ne.mpr same
        simp [List.lookup_cons, different]
    · split
      · rename_i same
        subst same
        by_cases found : k = key
        · simp [found]
        · have different : (k == key) = false := beq_eq_false_iff_ne.mpr found
          simp [List.lookup_cons, different]
      · by_cases found : k = other
        · simp [found]
        · have different : (k == other) = false := beq_eq_false_iff_ne.mpr found
          rw [List.lookup_cons, List.lookup_cons, different]
          exact ih tail

/-- Of several insertions for one key the first counts. -/
theorem lookup_ofList (pairs : List (κ × υ)) (key : κ) :
    (ofList pairs).entries.lookup key = pairs.lookup key := by
  suffices general : ∀ m : SortedMap κ υ,
      (pairs.foldl (fun m pair => insert m pair.1 pair.2) m).entries.lookup key =
        (m.entries.lookup key).or (pairs.lookup key) by
    exact general empty
  induction pairs with
  | nil => simp
  | cons pair pairs ih =>
    intro m
    rw [List.foldl_cons, ih]
    have grown : (insert m pair.1 pair.2).entries.lookup key =
        (m.entries.lookup key).or ([pair].lookup key) := lookup_insertEntry pair.1 pair.2 m.sorted key
    rw [grown, Option.or_assoc, ← List.lookup_append, List.singleton_append]

/-- The map without the entry for a key. -/
def erase (m : SortedMap κ υ) (key : κ) : SortedMap κ υ :=
  ⟨m.entries.filter (fun entry => entry.1 != key), m.sorted.filter _⟩

theorem lookup_filter_ne (entries : List (κ × υ)) (key k : κ) :
    (entries.filter (fun entry => entry.1 != key)).lookup k =
      if k = key then none else entries.lookup k := by
  induction entries with
  | nil => simp
  | cons first rest ih =>
    obtain ⟨other, value⟩ := first
    by_cases dropped : other = key
    · subst dropped
      rw [List.filter_cons_of_neg (by simp), ih]
      by_cases same : k = other
      · simp [same]
      · have different : (k == other) = false := beq_eq_false_iff_ne.mpr same
        simp [same, List.lookup_cons, different]
    · rw [List.filter_cons_of_pos (by simpa using dropped), List.lookup_cons, List.lookup_cons, ih]
      by_cases same : k = other
      · subst same
        simp [dropped]
      · have different : (k == other) = false := beq_eq_false_iff_ne.mpr same
        simp [different]

theorem lookup_erase (m : SortedMap κ υ) (key k : κ) :
    (erase m key).entries.lookup k = if k = key then none else m.entries.lookup k :=
  lookup_filter_ne m.entries key k

/-- Give a key a value, whether or not it had one. -/
def assign (m : SortedMap κ υ) (key : κ) (value : υ) : SortedMap κ υ :=
  insert (erase m key) key value

theorem lookup_assign (m : SortedMap κ υ) (key : κ) (value : υ) (k : κ) :
    (assign m key value).entries.lookup k =
      if k = key then some value else m.entries.lookup k := by
  have grown : (assign m key value).entries.lookup k =
      ((erase m key).entries.lookup k).or ([(key, value)].lookup k) :=
    lookup_insertEntry key value (erase m key).sorted k
  rw [grown, lookup_erase]
  by_cases same : k = key
  · simp [same]
  · have different : (k == key) = false := beq_eq_false_iff_ne.mpr same
    simp [same, List.lookup_cons, different]

end Lookup

end SortedMap
