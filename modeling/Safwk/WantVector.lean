import Safwk.ReasonParcel

/-!
# The flat want vector of the Rust extra data

Rust keeps the want map as one vector, key after value after key. Two loops read it:
`want`, where a later value replaces an earlier one, and the C++ writer, where
`std::map::insert` keeps the first. What comes back from a parcel is a vector without
repeated keys, which both loops read alike. So the map survives exactly when, for
every key, the first and the last of its values are the same.
-/

namespace WantVector

open Fifo OnDemandReason ReasonParcel

variable {σ : Type} {parcel : MsgParcel σ} {contents : σ → List Item}

structure NulFreeExtraData (extraData : Rust.OnDemandReasonExtraData) : Prop where
  data : NulFree extraData.data
  want : ∀ s ∈ extraData.want, NulFree s

/-- The keys of a want vector with their values, in order. -/
def keyValues : List String → List (String × String)
  | key :: value :: rest => (key, value) :: keyValues rest
  | _ => []

/-- For every key, the first and the last of its values are the same. -/
def FirstIsLast (want : List String) : Prop :=
  ∀ key, (keyValues want).lookup key = (keyValues want).reverse.lookup key

theorem pairs_of_nulFree {want : List String} (free : ∀ s ∈ want, NulFree s) :
    pairs want = keyValues want := by
  induction want using keyValues.induct with
  | case1 key value rest ih =>
    have freeKey := free key (by simp)
    have freeValue := free value (by simp)
    have freeRest : ∀ s ∈ rest, NulFree s := fun s member => free s (by simp [member])
    rw [pairs, keyValues, cString_of_nulFree freeKey, cString_of_nulFree freeValue, ih freeRest]
  | case2 want short =>
    rcases want with _ | ⟨key, _ | ⟨value, rest⟩⟩
    · rfl
    · rfl
    · exact False.elim (short key value rest rfl)

/-- The loop of `want` leaves the last value of every key. -/
theorem getElem?_wantLoop (res : Std.HashMap String String) (want : List String) (key : String) :
    (Rust.wantLoop res want)[key]? = ((keyValues want).reverse.lookup key).or res[key]? := by
  induction res, want using Rust.wantLoop.induct with
  | case1 res k v rest ih =>
    rw [Rust.wantLoop, ih, keyValues, List.reverse_cons, List.lookup_append, Option.or_assoc,
      Std.HashMap.getElem?_insert]
    by_cases same : key = k
    · simp [same]
    · have forward : (k == key) = false := beq_eq_false_iff_ne.mpr (Ne.symm same)
      have backward : (key == k) = false := beq_eq_false_iff_ne.mpr same
      simp [List.lookup_cons, forward, backward]
  | case2 want res short =>
    rcases want with _ | ⟨k, _ | ⟨v, rest⟩⟩
    · simp [Rust.wantLoop, keyValues]
    · simp [Rust.wantLoop, keyValues]
    · exact False.elim (short k v rest rfl)

theorem getElem?_want (extraData : Rust.OnDemandReasonExtraData) (key : String) :
    (Rust.want extraData)[key]? = (keyValues extraData.want).reverse.lookup key := by
  rw [Rust.want, getElem?_wantLoop]
  simp

theorem keyValues_mem {want : List String} {entry : String × String}
    (member : entry ∈ keyValues want) : entry.1 ∈ want ∧ entry.2 ∈ want := by
  induction want using keyValues.induct with
  | case1 key value rest ih =>
    rcases List.mem_cons.mp member with rfl | member
    · simp
    · obtain ⟨isKey, isValue⟩ := ih member
      simp [isKey, isValue]
  | case2 want short =>
    rcases want with _ | ⟨key, _ | ⟨value, rest⟩⟩
    · cases member
    · cases member
    · exact False.elim (short key value rest rfl)

/-- The map that the C++ writer makes has no other strings than the vector. -/
theorem wantMap_nulFree {want : List String} (free : ∀ s ∈ want, NulFree s) :
    NulFreeWant (wantMap want) := by
  have inVector : ∀ entry ∈ (wantMap want).entries, entry.1 ∈ want ∧ entry.2 ∈ want := by
    intro entry member
    rw [wantMap, pairs_of_nulFree free] at member
    exact keyValues_mem (SortedMap.mem_ofList member)
  exact
    { key := fun entry member => free _ (inVector entry member).1
      value := fun entry member => free _ (inVector entry member).2 }

/-- A flattened map holds its entries, as C strings. -/
theorem keyValues_flattenWant (map : WantMap) :
    keyValues (flattenWant map) =
      map.entries.map fun entry => (cString entry.1, cString entry.2) := by
  rw [flattenWant]
  induction map.entries with
  | nil => rfl
  | cons entry rest ih =>
    simp only [List.flatMap_cons, List.cons_append, List.nil_append, keyValues, ih, List.map_cons]

/-- What the reader makes of the carried extra data. -/
def readBack (extraData : Rust.OnDemandReasonExtraData) : Rust.OnDemandReasonExtraData :=
  { data := extraData.data
    code := extraData.code
    want := flattenWant (wantMap extraData.want) }

/-- On the way through the parcel a key keeps its first value. -/
theorem getElem?_want_readBack {extraData : Rust.OnDemandReasonExtraData}
    (free : NulFreeExtraData extraData) (key : String) :
    (Rust.want (readBack extraData))[key]? = (keyValues extraData.want).lookup key := by
  rw [getElem?_want, readBack, keyValues_flattenWant,
    entries_cString (wantMap_nulFree free.want), SortedMap.lookup_reverse (wantMap extraData.want).sorted, wantMap,
    pairs_of_nulFree free.want, SortedMap.lookup_ofList]

/-- Writing the extra data to the parcel and reading them back both succeed, and what
is read has the same data, the same code and the same want map. -/
def Survives (parcel : MsgParcel σ) (s : σ) (extraData : Rust.OnDemandReasonExtraData) : Prop :=
  ∃ s' s'' extraData', extraData.serialize parcel s = .ok () s' ∧
    Rust.OnDemandReasonExtraData.deserialize parcel s' = .ok extraData' s'' ∧
    extraData'.data = extraData.data ∧ extraData'.code = extraData.code ∧
    ∀ key : String, (Rust.want extraData')[key]? = (Rust.want extraData)[key]?

theorem written_readBack (lawful : Lawful parcel contents) {s s' : σ}
    {extraData : Rust.OnDemandReasonExtraData} (empty : contents s = [])
    (written : extraData.serialize parcel s = .ok () s') :
    ∃ s'', Rust.OnDemandReasonExtraData.deserialize parcel s' = .ok (readBack extraData) s'' := by
  have front := appends_extraData lawful extraData s s' written
  rw [empty, List.nil_append] at front
  obtain ⟨s'', read, -⟩ :=
    reads_extraData lawful (carried extraData) s' [] (by rw [front, List.append_nil])
  exact ⟨s'', read⟩

/-- Rust extra data survive a parcel exactly when no key has a last value that differs
from its first. -/
theorem extraData_survives_iff (lawful : Lawful parcel contents) (accepting : Accepting parcel)
    (extraData : Rust.OnDemandReasonExtraData) (free : NulFreeExtraData extraData) (s : σ)
    (empty : contents s = []) :
    Survives parcel s extraData ↔ FirstIsLast extraData.want := by
  constructor
  · rintro ⟨s', s'', extraData', written, read, -, -, same⟩ key
    obtain ⟨left, read'⟩ := written_readBack lawful empty written
    have isBack : readBack extraData = extraData' := by
      rw [read'] at read
      cases read
      rfl
    rw [← getElem?_want_readBack free, isBack, same, getElem?_want]
  · intro firstIsLast
    obtain ⟨s', written⟩ := accepts_extraData accepting extraData s
    obtain ⟨s'', read⟩ := written_readBack lawful empty written
    refine ⟨s', s'', readBack extraData, written, read, rfl, rfl, ?_⟩
    intro key
    rw [getElem?_want_readBack free, firstIsLast key, getElem?_want]

/-- A key given twice with one value, and a last string without a value. -/
def repeated : Rust.OnDemandReasonExtraData :=
  { data := "payload", code := 7, want := ["a", "1", "b", "2", "a", "1", "c"] }

theorem repeated_firstIsLast : FirstIsLast repeated.want := by
  intro key
  by_cases isA : key = "a"
  · subst isA
    rfl
  · have notA : (key == "a") = false := beq_eq_false_iff_ne.mpr isA
    simp [repeated, keyValues, List.lookup_cons, notA]

theorem extraData_survives_iff_repeated : Survives itemParcel [] repeated :=
  (extraData_survives_iff lawful_itemParcel accepting_itemParcel repeated
    ⟨by decide, by decide⟩ [] rfl).mpr repeated_firstIsLast

/-- A key given twice with two values. -/
def replaced : Rust.OnDemandReasonExtraData :=
  { data := "payload", code := 7, want := ["a", "1", "a", "2"] }

theorem replaced_lost :
    Lawful itemParcel id ∧ Accepting itemParcel ∧ NulFreeExtraData replaced ∧
      ¬Survives itemParcel [] replaced := by
  have free : NulFreeExtraData replaced := ⟨by decide, by decide⟩
  refine ⟨lawful_itemParcel, accepting_itemParcel, free, ?_⟩
  rintro ⟨s', s'', extraData', written, read, -, -, same⟩
  obtain ⟨left, read'⟩ := written_readBack lawful_itemParcel rfl written
  rw [read'] at read
  cases read
  have value := same "a"
  rw [getElem?_want_readBack free, getElem?_want] at value
  revert value
  decide

end WantVector
