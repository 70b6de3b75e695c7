import Safwk.Json
import Safwk.Library.Cut
import Safwk.Library.Decimal
import Safwk.Library.Framing

/-!
# The report on IPC statistics

`GetIpcStatistics` prints what the IPC framework has counted: a part for the process, in
it a part for each caller, and in that a part for each interface that the caller used.
The framework is outside the repository and goes on counting while the report is made, so
that two calls for the same interface may disagree: each number of the report is the
result of its own call. The types of the numbers are those of the framework; all are
printed by `std::to_string`.

The text is enough to get every number back. A descriptor comes from the interface and may
hold anything but a line break, also the texts of the report itself.
-/

namespace IpcStatistics

open Cut Framing

/-- An `IPCInterfaceInfo`, its descriptor after `Str16ToStr8`, and what is printed for it. -/
structure Interface where
  desc : StdString
  code : Int
  count : Int
  totalCost : Int
  maxCost : Int
  minCost : Int
  averCost : Int
  deriving DecidableEq

/-- What is printed for a calling process. -/
structure Caller where
  pid : Int
  count : Int
  cost : Int
  interfaces : List Interface
  deriving DecidableEq

structure Statistics where
  pid : Int
  totalCount : Int
  totalCost : Int
  callers : List Caller
  deriving DecidableEq

/-- `std::to_string` -/
def toString (n : Int) : StdString := Decimal.ofInt n

/-! ## The text -/

/-- The body of the inner loop. -/
def appendInterface (result : StdString) (info : Interface) : StdString :=
  let result := result ++ StdString.literal
    "\n~~~~~~~~~~~~~~~~~~~~~~~~~~~~~~~~InterfaceStatisticsInfo~~~~~~~~~~~~~~~~~~~~~~~~~~~~~"
  let result := result ++ StdString.literal "\nDescriptorCode:"
  let result := result ++ (info.desc ++ StdString.literal "_" ++ toString info.code)
  let result := result ++ StdString.literal "\nDescriptorCodeCount:"
  let result := result ++ toString info.count
  let result := result ++ StdString.literal "\nDescriptorCodeTimeCost:"
  let result := result ++ StdString.literal "\nTotal:"
  let result := result ++ toString info.totalCost
  let result := result ++ StdString.literal " | Max:"
  let result := result ++ toString info.maxCost
  let result := result ++ StdString.literal " | Min:"
  let result := result ++ toString info.minCost
  let result := result ++ StdString.literal " | Avg:"
  let result := result ++ toString info.averCost
  result ++ StdString.literal
    "\n~~~~~~~~~~~~~~~~~~~~~~~~~~~~~~~~~~~~~~~~~~~~~~~~~~~~~~~~~~~~~~~~~~~~~~~~~~~~~~~~~~~~"

/-- The body of the outer loop. -/
def appendCaller (result : StdString) (caller : Caller) : StdString :=
  let result := result ++ StdString.literal
    "\n--------------------------------ProcessStatisticsInfo-------------------------------"
  let result := result ++ StdString.literal "\nCallingPid:"
  let result := result ++ toString caller.pid
  let result := result ++ StdString.literal "\nCallingPidTotalCount:"
  let result := result ++ toString caller.count
  let result := result ++ StdString.literal "\nCallingPidTotalTimeCost:"
  let result := result ++ toString caller.cost
  let result := caller.interfaces.foldl appendInterface result
  result ++ StdString.literal
    "\n------------------------------------------------------------------------------------"

def getIpcStatistics (statistics : Statistics) (result : StdString) : Bool × StdString :=
  let result := result ++ StdString.literal
    "********************************GlobalStatisticsInfo********************************"
  let result := result ++ StdString.literal "\nCurrentPid:"
  let result := result ++ toString statistics.pid
  let result := result ++ StdString.literal "\nTotalCount:"
  let result := result ++ toString statistics.totalCount
  let result := result ++ StdString.literal "\nTotalTimeCost:"
  let result := result ++ toString statistics.totalCost
  let result := statistics.callers.foldl appendCaller result
  let result := result ++ StdString.literal
    "\n************************************************************************************\n"
  (true, result)

/-- `DUMP_SUCCESS` -/
def dumpSuccess : StdString := StdString.literal " success\n"

/-- `DUMP_FAIL` -/
def dumpFail : StdString := StdString.literal " fail\n"

/-- `ret` is the result of `IPCPayloadStatistics::StartStatistics`. -/
def startIpcStatistics (pid : Int) (ret : Bool) : Bool × StdString :=
  let result := StdString.literal "StartIpcStatistics pid:" ++ toString pid
  (ret, result ++ if ret then dumpSuccess else dumpFail)

/-- `ret` is the result of `IPCPayloadStatistics::StopStatistics`. -/
def stopIpcStatistics (pid : Int) (ret : Bool) : Bool × StdString :=
  let result := StdString.literal "StopIpcStatistics pid:" ++ toString pid
  (ret, result ++ if ret then dumpSuccess else dumpFail)

/-- The numbers of the commands. -/
structure Env where
  ipcStatCmdStart : Int32
  ipcStatCmdStop : Int32
  ipcStatCmdGet : Int32
  ipcStatCmdMax : Int32

/-- What the IPC framework does and says during a command. -/
structure Answers where
  pid : Int
  started : Bool
  stopped : Bool
  statistics : Statistics

/-- What the command returns and, if it gets that far, the text that it saves to the
descriptor; `saved` is the result of `SaveStringToFd`. -/
def ipcStatCmdProc (E : Env) (answers : Answers) (saved : Bool) (cmd : Int32) :
    Bool × Option StdString :=
  if cmd < E.ipcStatCmdStart ∨ E.ipcStatCmdMax ≤ cmd then (false, none)
  else
    let done :=
      if cmd = E.ipcStatCmdStart then some (startIpcStatistics answers.pid answers.started)
      else if cmd = E.ipcStatCmdStop then some (stopIpcStatistics answers.pid answers.stopped)
      else if cmd = E.ipcStatCmdGet then some (getIpcStatistics answers.statistics [])
      else none
    match done with
    | none => (false, none)
    | some (ret, result) => if saved then (ret, some result) else (false, some result)

/-! ## The lines of the text -/

/-- A number and the blank after it. -/
def number (n : Int) : StdString := toString n ++ [32]

/-- Each line after a line break. -/
def broken (lines : List StdString) : StdString := lines.flatMap fun line => 10 :: line

theorem broken_append (lines more : List StdString) :
    broken (lines ++ more) = broken lines ++ broken more :=
  List.flatMap_append

theorem foldl_append {α : Type} {f : StdString → α → StdString} {g : α → List StdString}
    (each : ∀ result x, f result x = result ++ broken (g x)) (xs : List α) (result : StdString) :
    xs.foldl f result = result ++ broken (xs.flatMap g) := by
  induction xs generalizing result with
  | nil => simp [broken]
  | cons x xs ih =>
    rw [List.foldl_cons, ih, each, List.flatMap_cons, broken_append, List.append_assoc]

/-- No descriptor has a line break. -/
def Plain (statistics : Statistics) : Prop :=
  ∀ caller ∈ statistics.callers, ∀ info ∈ caller.interfaces, 10 ∉ info.desc

/-- What there is to report about a command. -/
inductive Report where
  | started (pid : Int) (success : Bool)
  | stopped (pid : Int) (success : Bool)
  | collected (statistics : Statistics)
  deriving DecidableEq

/-- The report of a command, if it is one. -/
def report (E : Env) (answers : Answers) (cmd : Int32) : Option Report :=
  if cmd < E.ipcStatCmdStart ∨ E.ipcStatCmdMax ≤ cmd then none
  else if cmd = E.ipcStatCmdStart then some (.started answers.pid answers.started)
  else if cmd = E.ipcStatCmdStop then some (.stopped answers.pid answers.stopped)
  else if cmd = E.ipcStatCmdGet then some (.collected answers.statistics)
  else none

def Report.success : Report → Bool
  | .started _ success => success
  | .stopped _ success => success
  | .collected _ => true

def Report.text : Report → StdString
  | .started pid success => (startIpcStatistics pid success).2
  | .stopped pid success => (stopIpcStatistics pid success).2
  | .collected statistics => (getIpcStatistics statistics []).2

def Report.Plain : Report → Prop
  | .collected statistics => IpcStatistics.Plain statistics
  | _ => True

def commands : Env := ⟨0, 1, 2, 3⟩

end IpcStatistics
