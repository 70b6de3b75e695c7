import Mathlib.Data.String.Basic
import Safwk.Library.SortedMap

/-!
# On-demand reasons in C++ and in Rust

A Rust ability is told why it is started or stopped through a copy of the C++
`SystemAbilityOnDemandReason` that `BuildReasonWrapper` makes. The Rust copy can be
written to a message parcel and read back. Its extra data go through the C++
`OnDemandReasonExtraData`, a `Parcelable`; the other fields are written one by one.

Strings are Unicode text. `std::map` visits its keys in the order of their bytes,
which is that of their code points. The members of a parcel belong to the IPC
library and are a parameter; an operation on a parcel that fails may still have
changed it. The `.data()` of a Rust string denotes its characters up to the first
NUL, as it does when a C string is expected.
-/

namespace OnDemandReason

/-- `std::map<std::string, std::string>` -/
abbrev WantMap := SortedMap String String

/-- The C++ `OnDemandReasonId`. -/
inductive OnDemandReasonId where
  | interfaceCall
  | deviceOnline
  | settingSwitch
  | param
  | commonEvent
  | timedEvent
  | unrefEvent
  deriving DecidableEq

def OnDemandReasonId.value : OnDemandReasonId → Int32
  | interfaceCall => 0
  | deviceOnline => 1
  | settingSwitch => 2
  | param => 3
  | commonEvent => 4
  | timedEvent => 5
  | unrefEvent => 6

/-- The C++ `OnDemandReasonExtraData`. -/
structure OnDemandReasonExtraData where
  code : Int32 := -1
  data : String := ""
  want : WantMap := SortedMap.empty

/-- The C++ `SystemAbilityOnDemandReason`. -/
structure SystemAbilityOnDemandReason where
  reasonId : OnDemandReasonId
  reasonName : String
  reasonValue : String
  extraDataId : Int64 := -1
  extraData : OnDemandReasonExtraData := {}

namespace Rust

/-- The shared enumeration, which `cxx` represents by its number: a value that C++
passes need not be one of the members declared in Rust. -/
structure OnDemandReasonId where
  repr : Int32
  deriving DecidableEq

namespace OnDemandReasonId

def interfaceCall : OnDemandReasonId := ⟨0⟩

def deviceOnline : OnDemandReasonId := ⟨1⟩

def settingSwitch : OnDemandReasonId := ⟨2⟩

def param : OnDemandReasonId := ⟨3⟩

def commonEvent : OnDemandReasonId := ⟨4⟩

def timedEvent : OnDemandReasonId := ⟨5⟩

end OnDemandReasonId

structure OnDemandReasonExtraData where
  data : String := ""
  code : Int32 := 0
  want : List String := []
  deriving DecidableEq

structure SystemAbilityOnDemandReason where
  name : String
  value : String
  reasonId : OnDemandReasonId
  extraData : OnDemandReasonExtraData
  extraDataId : Int64
  deriving DecidableEq

end Rust

def nul : Char := Char.ofNat 0

/-- The text of a C string: what stands before the first NUL. -/
def cString (s : String) : String := String.ofList (s.toList.takeWhile (· != nul))

/-- The loop over a map that pushes each key and each value, as C strings. -/
def flattenWant (map : WantMap) : List String :=
  map.entries.flatMap fun entry => [cString entry.1, cString entry.2]

def buildReasonWrapper (reason : SystemAbilityOnDemandReason) :
    Rust.SystemAbilityOnDemandReason where
  name := cString reason.reasonName
  value := cString reason.reasonValue
  reasonId := ⟨reason.reasonId.value⟩
  extraData :=
    { data := cString reason.extraData.data
      code := reason.extraData.code
      want := flattenWant reason.extraData.want }
  extraDataId := reason.extraDataId

/-- The status codes of the IPC library, of which the code names one. -/
inductive IpcStatusCode where
  | failed
  | other (code : Int32)
  deriving DecidableEq

/-- A `MsgParcel` and the `MessageParcel` behind it. -/
structure MsgParcel (σ : Type) where
  writeString : String → EStateM IpcStatusCode σ Unit
  readString : EStateM IpcStatusCode σ String
  writeI32 : Int32 → EStateM IpcStatusCode σ Unit
  readI32 : EStateM IpcStatusCode σ Int32
  writeI64 : Int64 → EStateM IpcStatusCode σ Unit
  readI64 : EStateM IpcStatusCode σ Int64
  writeParcelable : OnDemandReasonExtraData → StateM σ Bool
  readParcelable : StateM σ (Option OnDemandReasonExtraData)

variable {σ : Type} (parcel : MsgParcel σ)

/-- The pairs at `i` and `i + 1` for `i = 0, 2, ..`; a last string on its own is left. -/
def pairs : List String → List (String × String)
  | key :: value :: rest => (cString key, cString value) :: pairs rest
  | _ => []

/-- `std::map::insert` keeps the value of a key that is there. -/
def wantMap (want : List String) : WantMap := SortedMap.ofList (pairs want)

def serializeOnDemandReasonExtraData (extraData : Rust.OnDemandReasonExtraData) : StateM σ Bool :=
  parcel.writeParcelable
    { code := extraData.code, data := extraData.data, want := wantMap extraData.want }

def deserializeOnDemandReasonExtraData : StateM σ Rust.OnDemandReasonExtraData := do
  match ← parcel.readParcelable with
  | none => return {}
  | some reason =>
    return { data := reason.data, code := reason.code, want := flattenWant reason.want }

def Rust.OnDemandReasonId.serialize (id : Rust.OnDemandReasonId) :
    EStateM IpcStatusCode σ Unit :=
  parcel.writeI32 id.repr

def Rust.OnDemandReasonId.deserialize : EStateM IpcStatusCode σ Rust.OnDemandReasonId := do
  match (← parcel.readI32).toInt with
  | 0 => return interfaceCall
  | 1 => return deviceOnline
  | 2 => return settingSwitch
  | 3 => return param
  | 4 => return commonEvent
  | 5 => return timedEvent
  | _ => throw .failed

def Rust.OnDemandReasonExtraData.serialize (extraData : Rust.OnDemandReasonExtraData) :
    EStateM IpcStatusCode σ Unit := fun s =>
  match serializeOnDemandReasonExtraData parcel extraData s with
  | (true, s') => .ok () s'
  | (false, s') => .error .failed s'

def Rust.OnDemandReasonExtraData.deserialize :
    EStateM IpcStatusCode σ Rust.OnDemandReasonExtraData := fun s =>
  let (extraData, s') := deserializeOnDemandReasonExtraData parcel s
  .ok extraData s'

/-- The loop of `want`: the iterator gives a key, then its value; a last string on its
own is dropped. `HashMap::insert` replaces the value of a key that is there. -/
def Rust.wantLoop (res : Std.HashMap String String) : List String → Std.HashMap String String
  | k :: v :: rest => wantLoop (res.insert k v) rest
  | _ => res

/-- The method `want` of the Rust extra data. -/
def Rust.want (extraData : Rust.OnDemandReasonExtraData) : Std.HashMap String String :=
  wantLoop ∅ extraData.want

def Rust.SystemAbilityOnDemandReason.serialize (reason : Rust.SystemAbilityOnDemandReason) :
    EStateM IpcStatusCode σ Unit := do
  parcel.writeString reason.name
  parcel.writeString reason.value
  reason.reasonId.serialize parcel
  reason.extraData.serialize parcel
  parcel.writeI64 reason.extraDataId

def Rust.SystemAbilityOnDemandReason.deserialize :
    EStateM IpcStatusCode σ Rust.SystemAbilityOnDemandReason := do
  let name ← parcel.readString
  let value ← parcel.readString
  let reasonId ← Rust.OnDemandReasonId.deserialize parcel
  let extraData ← Rust.OnDemandReasonExtraData.deserialize parcel
  let extraDataId ← parcel.readI64
  return { name, value, reasonId, extraData, extraDataId }

end OnDemandReason
