import Mathlib.Data.List.Infix
import Safwk.Library.Cut
import Safwk.Library.Decimal
import Safwk.StartReason

/-!
# The command line of an SA process

`main` and its copy `StartSA` start the abilities of a profile. If the command line has
an event argument, it names the ability to start on demand and the reason: five fields,
each ended by a `#`. The argument is cut at every `#`, and the number of pieces decides.

An argument is the bytes its pointer points to, and ends at the first NUL. The process
name, the allocator settings that `-m` introduces and the log are left out. `StrToInt`
and the range of valid ids come from other libraries. `atoi` is the number at the
beginning of the text; if an `int` cannot hold it the result is undefined, and
`overflow` says what it is.
-/

namespace SaMain

open Signed StartReason

/-- What comes from other libraries. -/
structure Env where
  firstSysAbilityId : Int
  lastSysAbilityId : Int
  strToInt : StdString → Option Int32
  overflow : Int → Int32

def hash : UInt8 := 35

def defaultSaId : Int32 := -1

def partEventNum : Nat := 5

def maxLength : Nat := 2000

def idIndex : Nat := 1

def nameIndex : Nat := 2

def valueIndex : Nat := 3

def extraDataIdIndex : Nat := 4

/-- The text of a C string. -/
def cStr (s : StdString) : StdString := s.takeWhile (· != 0)

def atoi (E : Env) (text : StdString) : Int32 :=
  if Fits 32 (Decimal.read text) then Int32.ofInt (Decimal.read text)
  else E.overflow (Decimal.read text)

/-- A JSON number made from an `int`. -/
def ofInt32 (n : Int32) : Json := .numberInteger n.toInt64

/-- `ParseArgv` of `main.cpp`, on the argument it is given. -/
def parseArgv (E : Env) (argument : StdString) (eventMap : Json) : Int32 × Json :=
  let eventStr := cStr argument
  if maxLength < eventStr.length then (defaultSaId, eventMap)
  else
    let eventVec := Cut.cut hash eventStr
    if eventVec.length ≠ partEventNum then (defaultSaId, eventMap)
    else
      match E.strToInt (eventVec.getD 0 []) with
      | none => (defaultSaId, eventMap)
      | some saId =>
        let eventMap := eventMap.assign eventId (ofInt32 (atoi E (eventVec.getD idIndex [])))
        let eventMap := eventMap.assign name (.string (eventVec.getD nameIndex []))
        let eventMap := eventMap.assign value (.string (eventVec.getD valueIndex []))
        let eventMap :=
          eventMap.assign extraDataId (ofInt32 (atoi E (eventVec.getD extraDataIdIndex [])))
        (saId, eventMap)

def checkSaId (E : Env) (saId : Int32) : Bool :=
  decide (E.firstSysAbilityId ≤ saId.toInt) && decide (saId.toInt ≤ E.lastSysAbilityId)

/-- `InitMallopt`: each `-m` before the last argument moves the event argument by two. -/
def initMallopt (argv : List StdString) (ondemandLoad eventIndex : Nat) : Nat × Nat :=
  argv.dropLast.foldl (fun indices argument =>
    if cStr argument = StdString.literal "-m" then (indices.1 + 2, indices.2 + 2) else indices)
    (ondemandLoad, eventIndex)

/-- `ONDEMAND_LOAD` and `EVENT_INDEX`, moved by `InitMallopt`. -/
def indices (argv : List StdString) : Nat × Nat := initMallopt argv 2 2

/-- `DoStartSAProcess`: the profile path and the id that it hands to
`LocalAbilityManager::DoStartSAProcess`, unless the path is invalid. -/
def doStartSAProcess (argv : List StdString) (saId : Int32) : Option (StdString × Int32) :=
  if 1 < argv.length then
    let filePath := cStr (argv.getD 1 [])
    if filePath.isEmpty ∨ ¬StdString.literal ".json" <:+: filePath then none
    else some (filePath, saId)
  else some (StdString.literal "/system/usr/default.json", saId)

/-- The return value, the start reasons, the call of `SetStartReason` and that of
`LocalAbilityManager::DoStartSAProcess`. -/
structure Outcome where
  ret : Int32
  manager : Manager
  stored : Option (Int32 × Json)
  process : Option (StdString × Int32)

def main (E : Env) (argv : List StdString) (m : Manager) : Outcome :=
  let argc := argv.length
  if argc < 2 ∨ 64 < argc then ⟨-1, m, none, none⟩
  else
    let (ondemandLoad, eventIndex) := indices argv
    if ondemandLoad < argc then
      if argc ≤ eventIndex then ⟨0, m, none, none⟩
      else
        let (saId, eventMap) := parseArgv E (argv.getD eventIndex []) .null
        if checkSaId E saId then
          ⟨0, setStartReason m saId eventMap, some (saId, eventMap), doStartSAProcess argv saId⟩
        else ⟨0, m, none, none⟩
    else ⟨0, m, none, doStartSAProcess argv defaultSaId⟩

namespace SystemAbilityStart

/-- `ParseArgv` of `system_ability_start.cpp`. -/
def parseArgv (E : Env) (argument : StdString) (eventMap : Json) : Int32 × Json :=
  let eventStr := cStr argument
  if maxLength < eventStr.length then (defaultSaId, eventMap)
  else
    let eventVec := Cut.cut hash eventStr
    if eventVec.length ≠ partEventNum then (defaultSaId, eventMap)
    else
      match E.strToInt (eventVec.getD 0 []) with
      | none => (defaultSaId, eventMap)
      | some saId =>
        let eventMap := eventMap.assign eventId (ofInt32 (atoi E (eventVec.getD idIndex [])))
        let eventMap := eventMap.assign name (.string (eventVec.getD nameIndex []))
        let eventMap := eventMap.assign value (.string (eventVec.getD valueIndex []))
        let extraDataId' := atoi E (eventVec.getD extraDataIdIndex [])
        let eventMap := eventMap.assign extraDataId (ofInt32 extraDataId')
        (saId, eventMap)

def startSA (E : Env) (argv : List StdString) (m : Manager) : Outcome :=
  let argc := argv.length
  if argc < 2 ∨ 64 < argc then ⟨-1, m, none, none⟩
  else
    let (ondemandLoad, eventIndex) := indices argv
    if ondemandLoad < argc then
      if argc ≤ eventIndex then ⟨0, m, none, none⟩
      else
        let (saId, eventMap) := parseArgv E (argv.getD eventIndex []) .null
        if checkSaId E saId then
          ⟨0, setStartReason m saId eventMap, some (saId, eventMap), doStartSAProcess argv saId⟩
        else ⟨0, m, none, none⟩
    else ⟨0, m, none, doStartSAProcess argv defaultSaId⟩

end SystemAbilityStart

end SaMain
