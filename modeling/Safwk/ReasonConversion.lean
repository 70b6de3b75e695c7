import Safwk.WantVector

/-!
# From C++ reasons to Rust reasons

Rust gets its copy of the C++ extra data on two paths: `BuildReasonWrapper` makes it in a
live callback, `DeserializeOnDemandReasonExtraData` from a parcel. Both take the strings
of the want map as C strings. The data are a C string in a live callback only.

A string with a NUL is cut there. So the copy is complete, and the same on both paths,
exactly when no string of the reason holds one. Nothing is said about how such a string
gets into a reason; JSON can carry it.
-/

namespace ReasonConversion

open OnDemandReason ReasonParcel WantVector

/-- The copy that a live callback gets and the one read from a parcel are the same and
complete. -/
structure Complete (reason : SystemAbilityOnDemandReason)
    (fromParcel : Rust.OnDemandReasonExtraData) : Prop where
  samePaths : (buildReasonWrapper reason).extraData = fromParcel
  data : fromParcel.data = reason.extraData.data
  code : fromParcel.code = reason.extraData.code
  want : ∀ key : String,
    (Rust.want fromParcel)[key]? = reason.extraData.want.entries.lookup key
  name : (buildReasonWrapper reason).name = reason.reasonName
  value : (buildReasonWrapper reason).value = reason.reasonValue
  reasonId : (buildReasonWrapper reason).reasonId.repr = reason.reasonId.value
  extraDataId : (buildReasonWrapper reason).extraDataId = reason.extraDataId

theorem nulFree_of_cString {s : String} (same : cString s = s) : NulFree s := by
  rw [← same]
  exact nulFree_cString s

/-- What `want` gives for a key is a C string, and so is the key. -/
theorem nulFree_of_want {map : WantMap} {extraData : Rust.OnDemandReasonExtraData}
    (flattened : extraData.want = flattenWant map) {key value : String}
    (found : (Rust.want extraData)[key]? = some value) : NulFree key ∧ NulFree value := by
  rw [getElem?_want, flattened, keyValues_flattenWant] at found
  obtain ⟨before, after, split, -⟩ := List.lookup_eq_some_iff.mp found
  have member : (key, value) ∈
      map.entries.map fun entry => (cString entry.1, cString entry.2) := by
    rw [← List.mem_reverse, split]
    exact List.mem_append_right before List.mem_cons_self
  obtain ⟨entry, -, same⟩ := List.mem_map.mp member
  cases same
  exact ⟨nulFree_cString entry.1, nulFree_cString entry.2⟩

theorem want_complete {map : WantMap} {extraData : Rust.OnDemandReasonExtraData}
    (flattened : extraData.want = flattenWant map) :
    (∀ key : String, (Rust.want extraData)[key]? = map.entries.lookup key) ↔ NulFreeWant map := by
  constructor
  · intro same
    have free : ∀ entry ∈ map.entries, NulFree entry.1 ∧ NulFree entry.2 := by
      intro entry member
      have found := (SortedMap.mem_iff_lookup map.sorted).mp member
      rw [← same] at found
      exact nulFree_of_want flattened found
    exact ⟨fun entry member => (free entry member).1, fun entry member => (free entry member).2⟩
  · intro free key
    rw [getElem?_want, flattened, keyValues_flattenWant, entries_cString free,
      SortedMap.lookup_reverse map.sorted]

section

variable {σ : Type} (parcel : MsgParcel σ)

theorem deserialize_eq {s s' : σ} {extraData : OnDemandReasonExtraData}
    (read : parcel.readParcelable s = (some extraData, s')) :
    (deserializeOnDemandReasonExtraData parcel s).1 =
      { data := extraData.data, code := extraData.code, want := flattenWant extraData.want } := by
  simp only [deserializeOnDemandReasonExtraData, bind, StateT.bind, read]
  rfl

/-- A reason arrives complete, and the same on both paths, exactly when none of its strings
holds a NUL. -/
theorem complete_iff (reason : SystemAbilityOnDemandReason) {s s' : σ}
    (read : parcel.readParcelable s = (some reason.extraData, s')) :
    Complete reason (deserializeOnDemandReasonExtraData parcel s).1 ↔ NulFreeReason reason := by
  rw [deserialize_eq parcel read]
  constructor
  · intro complete
    have dataKept : cString reason.extraData.data = reason.extraData.data :=
      congrArg Rust.OnDemandReasonExtraData.data complete.samePaths
    exact
      { name := nulFree_of_cString complete.name
        value := nulFree_of_cString complete.value
        data := nulFree_of_cString dataKept
        want := (want_complete rfl).mp complete.want }
  · intro free
    exact
      { samePaths := by rw [buildReasonWrapper, cString_of_nulFree free.data]
        data := rfl
        code := rfl
        want := (want_complete rfl).mpr free.want
        name := cString_of_nulFree free.name
        value := cString_of_nulFree free.value
        reasonId := rfl
        extraDataId := rfl }

end

theorem complete_iff_commonEvent :
    Complete commonEvent
      (deserializeOnDemandReasonExtraData itemParcel [.parcelable commonEvent.extraData]).1 :=
  (complete_iff itemParcel commonEvent rfl).mpr commonEvent_nulFree

/-- A NUL in the data, and two keys that differ only behind a NUL. -/
def withNul : SystemAbilityOnDemandReason :=
  { commonEvent with
    extraData :=
      { code := 7
        data := "a\x00b"
        want := SortedMap.ofList [("k\x001", "x"), ("k\x002", "y")] } }

/-- On the two paths the data differ, and one of the two keys is lost on both. -/
theorem withNul_cut :
    (buildReasonWrapper withNul).extraData.data = "a" ∧
      (deserializeOnDemandReasonExtraData itemParcel [.parcelable withNul.extraData]).1.data =
        withNul.extraData.data ∧
      (buildReasonWrapper withNul).extraData.want = ["k", "x", "k", "y"] ∧
      ¬Complete withNul
        (deserializeOnDemandReasonExtraData itemParcel [.parcelable withNul.extraData]).1 := by
  refine ⟨by decide, rfl, by decide, ?_⟩
  intro complete
  have same := complete.samePaths
  revert same
  decide

end ReasonConversion
