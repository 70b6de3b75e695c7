import Safwk.StartReason

/-!
# Reasons that depend on nothing but the JSON

An ability that a boot phase starts has no stored reason, so `Start` builds one from
the null value. No setter is called, and the id is what the memory held. If it happens
to be that of a common event, samgr is asked for extra data. A JSON number that the
type of a field cannot hold is the other way in which a field is neither the JSON's
value nor a default.
-/

namespace ReasonDetermined

open OnDemandReason Signed StartReason

/-- The JSON value that `Start` reads. -/
def storedReason (m : Manager) (saId : Int32) : Json := (m.saIdToStartReason saId).getD .null

theorem getStartReason_fst (m : Manager) (saId : Int32) :
    (getStartReason m saId).1 = storedReason m saId := by
  unfold getStartReason storedReason
  cases m.saIdToStartReason saId <;> rfl

/-- Whatever the memory held: every field of the reason that `Start` builds is the JSON's
value, or a default where the JSON has none, and samgr is asked for extra data exactly if
the JSON's event id is that of a common event. Only the id has no default in the source,
and `defaultId` is any. -/
structure Determined (undefined : ℚ → Int) (samgrProxy : Option Samgr) (m : Manager)
    (saId defaultId : Int32) : Prop where
  reasonId : ∀ memory,
    ((start undefined memory samgrProxy m saId).built.reasonId.toInt : ℚ) =
      (numberAt (storedReason m saId) eventId).getD defaultId.toInt
  reasonName : ∀ memory, (start undefined memory samgrProxy m saId).built.reasonName =
    (textAt (storedReason m saId) name).getD []
  reasonValue : ∀ memory, (start undefined memory samgrProxy m saId).built.reasonValue =
    (textAt (storedReason m saId) value).getD []
  extraDataId : ∀ memory,
    ((start undefined memory samgrProxy m saId).built.extraDataId.toInt : ℚ) =
      (numberAt (storedReason m saId) extraDataId).getD (-1)
  extraData : ∀ memory, (start undefined memory samgrProxy m saId).built.extraData = {}
  asked : ∀ memory, (start undefined memory samgrProxy m saId).asked ≠ [] ↔
    numberAt (storedReason m saId) eventId = some (OnDemandReasonId.commonEvent.value.toInt : ℚ)

/-- The JSON has an event id, its numbers are integers that the fields can hold, and there
is a samgr to ask if the event is a common event. -/
structure Plain (samgrProxy : Option Samgr) (json : Json) : Prop where
  eventId : ∃ n : Int, numberAt json eventId = some (n : ℚ) ∧ Fits 32 n
  extraDataId : ∀ q, numberAt json extraDataId = some q → ∃ n : Int, q = n ∧ Fits 64 n
  proxy : samgrProxy.isSome = true ∨
    numberAt json StartReason.eventId ≠ some (OnDemandReasonId.commonEvent.value.toInt : ℚ)

section

variable {undefined : ℚ → Int} {samgrProxy : Option Samgr} {m : Manager} {saId defaultId : Int32}

theorem start_built (memory : Int32) :
    (start undefined memory samgrProxy m saId).built =
      jsonToOnDemandReason undefined memory (storedReason m saId) := by
  rw [← getStartReason_fst]
  rfl

theorem start_asked (memory : Int32) :
    (start undefined memory samgrProxy m saId).asked ≠ [] ↔
      samgrProxy.isSome = true ∧
        (start undefined memory samgrProxy m saId).built.reasonId =
          OnDemandReasonId.commonEvent.value := by
  rw [start_built, ← getStartReason_fst]
  exact asked_iff samgrProxy _

/-- Without an event id the field is the memory's. -/
theorem built_reasonId_of_none (absent : numberAt (storedReason m saId) eventId = none)
    (memory : Int32) : (start undefined memory samgrProxy m saId).built.reasonId = memory := by
  rw [start_built, jsonToOnDemandReason_eq, int32_none_of_numberAt undefined absent]
  rfl

theorem built_reasonId_of_fits {n : Int}
    (found : numberAt (storedReason m saId) eventId = some (n : ℚ)) (fits : Fits 32 n)
    (memory : Int32) :
    (start undefined memory samgrProxy m saId).built.reasonId = Int32.ofInt n := by
  rw [start_built, jsonToOnDemandReason_eq, int32_of_numberAt undefined found fits]
  rfl

theorem Determined.plain (determined : Determined undefined samgrProxy m saId defaultId) :
    Plain samgrProxy (storedReason m saId) := by
  have hasId : ∃ n : Int, numberAt (storedReason m saId) eventId = some (n : ℚ) ∧ Fits 32 n := by
    cases found : numberAt (storedReason m saId) eventId with
    | none =>
      -- The field follows the memory, so it has no fixed default.
      have fixed : ∀ memory : Int32, memory.toInt = defaultId.toInt := by
        intro memory
        have same := determined.reasonId memory
        rw [built_reasonId_of_none found memory, found] at same
        exact Int.cast_inj.mp same
      have zero := fixed 0
      have one := fixed 1
      rw [← one] at zero
      exact absurd zero (by decide)
    | some q =>
      have same := determined.reasonId 0
      rw [found, Option.getD_some] at same
      exact ⟨_, congrArg some same.symm, fits_toInt32 _⟩
  refine ⟨hasId, ?_, ?_⟩
  · intro q found
    have same := determined.extraDataId 0
    rw [found, Option.getD_some] at same
    exact ⟨_, same.symm, fits_toInt64 _⟩
  · by_cases common : numberAt (storedReason m saId) eventId =
        some (OnDemandReasonId.commonEvent.value.toInt : ℚ)
    · exact Or.inl ((start_asked 0).mp ((determined.asked 0).mpr common)).1
    · exact Or.inr common

theorem determined_of_plain (plain : Plain samgrProxy (storedReason m saId)) :
    Determined undefined samgrProxy m saId defaultId := by
  obtain ⟨n, found, fits⟩ := plain.eventId
  have sameId : (Int32.ofInt n).toInt = n := toInt_ofInt32 fits
  refine
    { reasonId := ?_, reasonName := ?_, reasonValue := ?_, extraDataId := ?_
      extraData := ?_, asked := ?_ }
  · intro memory
    rw [built_reasonId_of_fits found fits, found, sameId]
    rfl
  · intro memory
    rw [start_built, jsonToOnDemandReason_eq]
  · intro memory
    rw [start_built, jsonToOnDemandReason_eq]
  · intro memory
    rw [start_built, jsonToOnDemandReason_eq]
    cases stored : numberAt (storedReason m saId) extraDataId with
    | none =>
      have minusOne : (-1 : Int64).toInt = -1 := by decide
      rw [int64_none_of_numberAt undefined stored, Option.getD_none, Option.getD_none, minusOne]
      rfl
    | some q =>
      obtain ⟨k, rfl, fits'⟩ := plain.extraDataId q stored
      rw [int64_of_numberAt undefined stored fits', Option.getD_some, Option.getD_some,
        toInt_ofInt64 fits']
  · intro memory
    rw [start_built, jsonToOnDemandReason_eq]
  · intro memory
    rw [start_asked, built_reasonId_of_fits found fits, found]
    have sameEvent : Int32.ofInt n = OnDemandReasonId.commonEvent.value ↔
        some (n : ℚ) = some (OnDemandReasonId.commonEvent.value.toInt : ℚ) := by
      rw [Option.some_inj, Int.cast_inj, ← Int32.toInt_inj, sameId]
    rw [sameEvent]
    constructor
    · exact fun both => both.2
    · intro common
      refine ⟨?_, common⟩
      rcases plain.proxy with there | notCommon
      · exact there
      · exact absurd (found.trans common) notCommon

end

/-- For every id and every stored value: the reason is determined by the JSON exactly when
the JSON is plain. -/
theorem determined_iff (undefined : ℚ → Int) (samgrProxy : Option Samgr) (m : Manager)
    (saId defaultId : Int32) :
    Determined undefined samgrProxy m saId defaultId ↔
      Plain samgrProxy (storedReason m saId) :=
  ⟨Determined.plain, determined_of_plain⟩

/-- No reason is stored, as before every start by a boot phase. -/
def bootStarted : Manager := ⟨fun _ => none⟩

/-- A samgr that has no extra data. -/
def noExtraData : Samgr := fun _ => none

theorem bootStarted_undetermined :
    (¬∃ defaultId, Determined (fun _ => 0) (some noExtraData) bootStarted 401 defaultId) ∧
      (start (fun _ => 0) 4 (some noExtraData) bootStarted 401).asked = [-1] ∧
      (start (fun _ => 0) 0 (some noExtraData) bootStarted 401).asked = [] := by
  refine ⟨?_, rfl, rfl⟩
  rintro ⟨defaultId, determined⟩
  obtain ⟨n, found, -⟩ := determined.plain.eventId
  cases found

end ReasonDetermined
