import Safwk.Json
import Safwk.OnDemandReason

/-!
# Why an ability is started

`LocalAbilityManager` keeps the start reason of each ability as a JSON value. `Start`
fetches it, turns it into a `SystemAbilityOnDemandReason` with `JsonToOnDemandReason`,
and asks samgr for extra data when the reason is a common event.

The enumeration `OnDemandReasonId` is represented by an `int`, and the JSON library
casts the number it finds to it, so the id here is any 32-bit number. The member
`reasonId_` has no initialiser: what it holds until `SetId` is called is whatever the
memory held, `memory` below. The part of `Start` that takes locks and changes the
state of the ability is in `AbilityLifecycle`.
-/

namespace StartReason

open OnDemandReason Signed

def eventId : StdString := StdString.literal "eventId"

def name : StdString := StdString.literal "name"

def value : StdString := StdString.literal "value"

def extraDataId : StdString := StdString.literal "extraDataId"

/-- The C++ `SystemAbilityOnDemandReason`. -/
structure SystemAbilityOnDemandReason where
  reasonId : Int32
  reasonName : StdString
  reasonValue : StdString
  extraDataId : Int64
  extraData : OnDemandReasonExtraData

/-- The object that the default constructor leaves. -/
def SystemAbilityOnDemandReason.make (memory : Int32) : SystemAbilityOnDemandReason where
  reasonId := memory
  reasonName := []
  reasonValue := []
  extraDataId := -1
  extraData := {}

def SystemAbilityOnDemandReason.hasExtraData (reason : SystemAbilityOnDemandReason) : Bool :=
  reason.reasonId == OnDemandReasonId.commonEvent.value

/-- Call the setter with the value, if the JSON has one of the right kind. -/
def setFrom {α : Type} (found : Option α)
    (set : SystemAbilityOnDemandReason → α → SystemAbilityOnDemandReason)
    (reason : SystemAbilityOnDemandReason) : SystemAbilityOnDemandReason :=
  match found with
  | some a => set reason a
  | none => reason

def jsonToOnDemandReason (undefined : ℚ → Int) (memory : Int32) (reasonJson : Json) :
    SystemAbilityOnDemandReason :=
  let onDemandStartReason := SystemAbilityOnDemandReason.make memory
  let onDemandStartReason := setFrom ((reasonJson.member eventId).bind (Json.int32 undefined))
    (fun reason id => { reason with reasonId := id }) onDemandStartReason
  let onDemandStartReason := setFrom ((reasonJson.member name).bind Json.text)
    (fun reason text => { reason with reasonName := text }) onDemandStartReason
  let onDemandStartReason := setFrom ((reasonJson.member value).bind Json.text)
    (fun reason text => { reason with reasonValue := text }) onDemandStartReason
  setFrom ((reasonJson.member extraDataId).bind (Json.int64 undefined))
    (fun reason id => { reason with extraDataId := id }) onDemandStartReason

/-- The start reasons that the manager keeps. -/
structure Manager where
  saIdToStartReason : Int32 → Option Json

def setStartReason (m : Manager) (saId : Int32) (event : Json) : Manager :=
  ⟨Function.update m.saIdToStartReason saId (some event)⟩

/-- `operator[]` of the map adds a null value for an id that has none. -/
def getStartReason (m : Manager) (saId : Int32) : Json × Manager :=
  match m.saIdToStartReason saId with
  | some event => (event, m)
  | none => (.null, setStartReason m saId .null)

/-- How samgr answers `GetOnDemandReasonExtraData`: `none` if the call fails or its parcel
does not hold extra data. -/
abbrev Samgr := Int64 → Option OnDemandReasonExtraData

/-- The reason with its extra data, and the extra data ids that samgr was asked for. -/
def getOnDemandReasonExtraData (samgrProxy : Option Samgr)
    (onDemandStartReason : SystemAbilityOnDemandReason) :
    SystemAbilityOnDemandReason × List Int64 :=
  if onDemandStartReason.hasExtraData then
    match samgrProxy with
    | none => (onDemandStartReason, [])
    | some samgr =>
      match samgr onDemandStartReason.extraDataId with
      | none => (onDemandStartReason, [onDemandStartReason.extraDataId])
      | some extraData =>
        ({ onDemandStartReason with extraData := extraData }, [onDemandStartReason.extraDataId])
  else (onDemandStartReason, [])

/-- What `Start` does with the reason: what it builds from the JSON, what it asks samgr
for, and what it gives to `OnStart`. -/
structure Started where
  built : SystemAbilityOnDemandReason
  asked : List Int64
  given : SystemAbilityOnDemandReason
  manager : Manager

def start (undefined : ℚ → Int) (memory : Int32) (samgrProxy : Option Samgr) (m : Manager)
    (saId : Int32) : Started :=
  let (startReason, m) := getStartReason m saId
  let onDemandStartReason := jsonToOnDemandReason undefined memory startReason
  let (given, asked) := getOnDemandReasonExtraData samgrProxy onDemandStartReason
  ⟨onDemandStartReason, asked, given, m⟩

/-! ## What the JSON determines -/

/-- The number under a key, if there is one. -/
def numberAt (json : Json) (key : StdString) : Option ℚ := (json.member key).bind Json.number

/-- The text under a key, if there is one. -/
def textAt (json : Json) (key : StdString) : Option StdString := (json.member key).bind Json.text

theorem jsonToOnDemandReason_eq (undefined : ℚ → Int) (memory : Int32) (reasonJson : Json) :
    jsonToOnDemandReason undefined memory reasonJson =
      { reasonId := ((reasonJson.member eventId).bind (Json.int32 undefined)).getD memory
        reasonName := (textAt reasonJson name).getD []
        reasonValue := (textAt reasonJson value).getD []
        extraDataId := ((reasonJson.member extraDataId).bind (Json.int64 undefined)).getD (-1)
        extraData := {} } := by
  rw [jsonToOnDemandReason, textAt, textAt]
  cases (reasonJson.member eventId).bind (Json.int32 undefined) <;>
    cases (reasonJson.member name).bind Json.text <;>
    cases (reasonJson.member value).bind Json.text <;>
    cases (reasonJson.member extraDataId).bind (Json.int64 undefined) <;> rfl

theorem int32_of_numberAt (undefined : ℚ → Int) {json : Json} {key : StdString} {n : Int}
    (found : numberAt json key = some (n : ℚ)) (fits : Fits 32 n) :
    (json.member key).bind (Json.int32 undefined) = some (Int32.ofInt n) := by
  obtain ⟨member, inJson, denotes⟩ := Option.bind_eq_some_iff.mp found
  rw [inJson]
  exact Json.int32_of_fits undefined denotes fits

theorem int64_of_numberAt (undefined : ℚ → Int) {json : Json} {key : StdString} {n : Int}
    (found : numberAt json key = some (n : ℚ)) (fits : Fits 64 n) :
    (json.member key).bind (Json.int64 undefined) = some (Int64.ofInt n) := by
  obtain ⟨member, inJson, denotes⟩ := Option.bind_eq_some_iff.mp found
  rw [inJson]
  exact Json.int64_of_fits undefined denotes fits

theorem int32_none_of_numberAt (undefined : ℚ → Int) {json : Json} {key : StdString}
    (absent : numberAt json key = none) : (json.member key).bind (Json.int32 undefined) = none := by
  cases found : json.member key with
  | none => rfl
  | some member =>
    rw [numberAt, found] at absent
    exact (Json.int32_none_iff undefined member).mpr absent

theorem int64_none_of_numberAt (undefined : ℚ → Int) {json : Json} {key : StdString}
    (absent : numberAt json key = none) : (json.member key).bind (Json.int64 undefined) = none := by
  cases found : json.member key with
  | none => rfl
  | some member =>
    rw [numberAt, found] at absent
    exact (Json.int64_none_iff undefined member).mpr absent

/-- samgr is asked exactly if it is there and the id is that of a common event. -/
theorem asked_iff (samgrProxy : Option Samgr) (reason : SystemAbilityOnDemandReason) :
    (getOnDemandReasonExtraData samgrProxy reason).2 ≠ [] ↔
      samgrProxy.isSome = true ∧ reason.reasonId = OnDemandReasonId.commonEvent.value := by
  unfold getOnDemandReasonExtraData SystemAbilityOnDemandReason.hasExtraData
  by_cases common : reason.reasonId = OnDemandReasonId.commonEvent.value
  · cases samgrProxy with
    | none => simp [common]
    | some samgr =>
      cases answer : samgr reason.extraDataId <;> simp [common, answer]
  · simp [common]

end StartReason
