import Safwk.Json
import Safwk.Library.Effects

/-!
# The stub of the local ability manager

`OnRemoteRequest` checks the interface token and a permission of the caller, looks the
request code up in a table and runs the handler it finds there. A handler reads its
arguments from the parcel, invokes one operation of the manager and writes a reply.

The parcels, the token service and the numbers of the requests and of the errors come
from other libraries. The operations of the manager are any; what matters here is
which of them are invoked, and with what. For a code that is not in the table the base
class answers, which knows the parcels but not the manager. The log is left out.
-/

namespace ManagerStub

open Effects

abbrev U16String := List UInt16

/-- The local operations. -/
inductive Operation where
  | startAbility
  | stopAbility
  | activeAbility
  | idleAbility
  | sendStrategyToSA
  | ipcStatCmdProc
  | ffrtStatCmdProc
  | ffrtDumperProc
  | systemAbilityExtProc
  | serviceControlCmd
  deriving DecidableEq

/-- A call of a local operation. -/
inductive Call where
  | startAbility (saId : Int32) (eventStr : StdString)
  | stopAbility (saId : Int32) (eventStr : StdString)
  | activeAbility (saId : Int32) (activeReason : Json)
  | idleAbility (saId : Int32) (idleReason : Json)
  | sendStrategyToSA (type saId level : Int32) (action : StdString)
  | ipcStatCmdProc (fd cmd : Int32)
  | ffrtStatCmdProc (fd cmd : Int32)
  | ffrtDumperProc
  | systemAbilityExtProc (extension : StdString) (saId : Int32) (isAsync : Bool)
  | serviceControlCmd (fd saId : Int32) (args : List U16String)

def Call.operation : Call → Operation
  | startAbility _ _ => .startAbility
  | stopAbility _ _ => .stopAbility
  | activeAbility _ _ => .activeAbility
  | idleAbility _ _ => .idleAbility
  | sendStrategyToSA _ _ _ _ => .sendStrategyToSA
  | ipcStatCmdProc _ _ => .ipcStatCmdProc
  | ffrtStatCmdProc _ _ => .ffrtStatCmdProc
  | ffrtDumperProc => .ffrtDumperProc
  | systemAbilityExtProc _ _ _ => .systemAbilityExtProc
  | serviceControlCmd _ _ _ => .serviceControlCmd

/-- The SA id among the arguments. -/
def Call.saId : Call → Option Int32
  | startAbility saId _ => some saId
  | stopAbility saId _ => some saId
  | activeAbility saId _ => some saId
  | idleAbility saId _ => some saId
  | sendStrategyToSA _ saId _ _ => some saId
  | ipcStatCmdProc _ _ => none
  | ffrtStatCmdProc _ _ => none
  | ffrtDumperProc => none
  | systemAbilityExtProc _ saId _ => some saId
  | serviceControlCmd _ saId _ => some saId

/-- The libraries and the operations of the manager. `σ` is the request parcel, `ρ` the
reply and `μ` the manager. A read that reports its failure gives `none`. -/
structure Env (σ ρ μ : Type) where
  readInterfaceToken : StateM σ U16String
  readInt32 : StateM σ (Option Int32)
  readString : StateM σ StdString
  tryReadString : StateM σ (Option StdString)
  readFileDescriptor : StateM σ Int32
  readString16Vector : StateM σ (Option (List U16String))
  writeBool : Bool → StateM ρ Bool
  writeInt32 : Int32 → StateM ρ Bool
  writeString : StdString → StateM ρ Bool
  /-- `IPCObjectStub::OnRemoteRequest` -/
  objectStub : UInt32 → StateM (σ × ρ) Int32
  /-- `SafwkInterfaceCode` -/
  interfaceCode : Operation → UInt32
  interfaceToken : U16String
  verifyAccessToken : UInt32 → String → Int32
  permissionGranted : Int32
  firstSysAbilityId : Int
  lastSysAbilityId : Int
  errNone : Int32
  errNullObject : Int32
  errPermissionDenied : Int32
  invalidData : Int32
  stringToJsonObj : StdString → Json
  startAbility : Int32 → StdString → StateM μ Bool
  stopAbility : Int32 → StdString → StateM μ Bool
  activeAbility : Int32 → Json → StateM μ Bool
  /-- Returns also what it leaves in `delayTime`. -/
  idleAbility : Int32 → Json → Int32 → StateM μ (Bool × Int32)
  sendStrategyToSA : Int32 → Int32 → Int32 → StdString → StateM μ Bool
  ipcStatCmdProc : Int32 → Int32 → StateM μ Bool
  ffrtStatCmdProc : Int32 → Int32 → StateM μ Bool
  /-- Returns also what it leaves in the result string. -/
  ffrtDumperProc : StdString → StateM μ (Bool × StdString)
  /-- Gets pointers to both parcels. -/
  systemAbilityExtProc : StdString → Int32 → Bool → StateM (σ × ρ × μ) Int32
  serviceControlCmd : Int32 → Int32 → List U16String → StateM μ Int32

/-- The state of a request. -/
structure World (σ ρ μ : Type) where
  data : σ
  reply : ρ
  manager : μ
  invoked : List Call
  closed : List Int32

section Stub

variable {σ ρ μ : Type}

/-- Run a read on the request parcel. -/
def fromData {α : Type} (read : StateM σ α) : StateM (World σ ρ μ) α := fun w =>
  let (a, data) := read.run w.data
  (a, { w with data := data })

/-- Run a write on the reply. -/
def toReply {α : Type} (write : StateM ρ α) : StateM (World σ ρ μ) α := fun w =>
  let (a, reply) := write.run w.reply
  (a, { w with reply := reply })

/-- `::close` -/
def close (fd : Int32) : StateM (World σ ρ μ) Unit := fun w =>
  ((), { w with closed := w.closed ++ [fd] })

/-- Invoke an operation of the manager. -/
def invoke {α : Type} (call : Call) (operation : StateM μ α) : StateM (World σ ρ μ) α := fun w =>
  let (a, manager) := operation.run w.manager
  (a, { w with manager := manager, invoked := w.invoked ++ [call] })

/-- Invoke an operation that also gets the parcels. -/
def invokeWithParcels {α : Type} (call : Call) (operation : StateM (σ × ρ × μ) α) :
    StateM (World σ ρ μ) α := fun w =>
  let (a, data, reply, manager) := operation.run (w.data, w.reply, w.manager)
  (a, { w with data := data, reply := reply, manager := manager, invoked := w.invoked ++ [call] })

/-- Run code that gets the parcels and nothing else. -/
def withParcels {α : Type} (program : StateM (σ × ρ) α) : StateM (World σ ρ μ) α := fun w =>
  let (a, data, reply) := program.run (w.data, w.reply)
  (a, { w with data := data, reply := reply })

def permissionExtTransaction : String := "ohos.permission.ACCESS_EXT_SYSTEM_ABILITY"

def permissionManage : String := "ohos.permission.MANAGE_SYSTEM_ABILITY"

def permissionSvc : String := "ohos.permission.CONTROL_SVC_CMD"

variable (E : Env σ ρ μ)

def checkPermission (callingTokenId code : UInt32) : Bool :=
  let permissionToCheck :=
    if code = E.interfaceCode .systemAbilityExtProc then permissionExtTransaction
    else if code = E.interfaceCode .serviceControlCmd then permissionSvc
    else permissionManage
  E.verifyAccessToken callingTokenId permissionToCheck == E.permissionGranted

def checkInputSysAbilityId (systemAbilityId : Int32) : Bool :=
  decide (E.firstSysAbilityId ≤ systemAbilityId.toInt) &&
    decide (systemAbilityId.toInt ≤ E.lastSysAbilityId)

def enforceInterceToken : StateM (World σ ρ μ) Bool := do
  let interfaceToken ← fromData E.readInterfaceToken
  return interfaceToken == E.interfaceToken

/-- `StartAbilityInner` and `StopAbilityInner` differ in the operation. -/
def startStopInner (operation : Int32 → StdString → StateM (World σ ρ μ) Bool) :
    StateM (World σ ρ μ) Int32 := do
  let some saId ← fromData E.readInt32 | return E.errNullObject
  if !checkInputSysAbilityId E saId then
    return E.errNullObject
  let eventStr ← fromData E.readString
  if eventStr.isEmpty then
    return E.errNullObject
  let _ ← operation saId eventStr
  return E.errNone

def startAbilityInner : StateM (World σ ρ μ) Int32 :=
  startStopInner E fun saId eventStr =>
    invoke (.startAbility saId eventStr) (E.startAbility saId eventStr)

def stopAbilityInner : StateM (World σ ρ μ) Int32 :=
  startStopInner E fun saId eventStr =>
    invoke (.stopAbility saId eventStr) (E.stopAbility saId eventStr)

def activeAbilityInner : StateM (World σ ρ μ) Int32 := do
  let some saId ← fromData E.readInt32 | return E.errNullObject
  if !checkInputSysAbilityId E saId then
    return E.errNullObject
  let activeReason := E.stringToJsonObj (← fromData E.readString)
  let result ← invoke (.activeAbility saId activeReason) (E.activeAbility saId activeReason)
  if !(← toReply (E.writeBool result)) then
    return E.errNullObject
  return E.errNone

def idleAbilityInner : StateM (World σ ρ μ) Int32 := do
  let some saId ← fromData E.readInt32 | return E.errNullObject
  if !checkInputSysAbilityId E saId then
    return E.errNullObject
  let idleReason := E.stringToJsonObj (← fromData E.readString)
  let (result, delayTime) ← invoke (.idleAbility saId idleReason) (E.idleAbility saId idleReason 0)
  if !(← toReply (E.writeBool result)) then
    return E.errNullObject
  if !(← toReply (E.writeInt32 delayTime)) then
    return E.errNullObject
  return E.errNone

def sendStrategyToSAInner : StateM (World σ ρ μ) Int32 := do
  let some type ← fromData E.readInt32 | return E.errNullObject
  let some saId ← fromData E.readInt32 | return E.errNullObject
  if !checkInputSysAbilityId E saId then
    return E.errNullObject
  let some level ← fromData E.readInt32 | return E.errNullObject
  let some action ← fromData E.tryReadString | return E.errNullObject
  let result ← invoke (.sendStrategyToSA type saId level action)
    (E.sendStrategyToSA type saId level action)
  if !result then
    return E.errNullObject
  return E.errNone

/-- `IpcStatCmdProcInner` and `FfrtStatCmdProcInner` differ in the operation. -/
def statCmdProcInner (operation : Int32 → Int32 → StateM (World σ ρ μ) Bool) :
    StateM (World σ ρ μ) Int32 := do
  let fd ← fromData E.readFileDescriptor
  if fd < 0 then
    return E.errNullObject
  let some cmd ← fromData E.readInt32
    | close fd
      return E.errNullObject
  let result ← operation fd cmd
  if !(← toReply (E.writeBool result)) then
    close fd
    return E.errNullObject
  close fd
  return E.errNone

def ipcStatCmdProcInner : StateM (World σ ρ μ) Int32 :=
  statCmdProcInner E fun fd cmd => invoke (.ipcStatCmdProc fd cmd) (E.ipcStatCmdProc fd cmd)

def ffrtStatCmdProcInner : StateM (World σ ρ μ) Int32 :=
  statCmdProcInner E fun fd cmd => invoke (.ffrtStatCmdProc fd cmd) (E.ffrtStatCmdProc fd cmd)

def ffrtDumperProcInner : StateM (World σ ρ μ) Int32 := do
  let (_, ffrtDumperInfo) ← invoke .ffrtDumperProc (E.ffrtDumperProc [])
  if !(← toReply (E.writeString ffrtDumperInfo)) then
    return E.errNullObject
  return E.errNone

def systemAbilityExtProcInner : StateM (World σ ρ μ) Int32 := do
  let some saId ← fromData E.readInt32 | return E.invalidData
  if !checkInputSysAbilityId E saId then
    return E.invalidData
  let extension ← fromData E.readString
  if extension.isEmpty then
    return E.invalidData
  let result ← invokeWithParcels (.systemAbilityExtProc extension saId false)
    (E.systemAbilityExtProc extension saId false)
  if result ≠ E.errNone then
    return result
  return E.errNone

def serviceControlCmdInner : StateM (World σ ρ μ) Int32 := do
  let some systemAbilityId ← fromData E.readInt32 | return E.invalidData
  if !checkInputSysAbilityId E systemAbilityId then
    return E.invalidData
  let fd ← fromData E.readFileDescriptor
  if fd < 0 then
    return E.invalidData
  let some args ← fromData E.readString16Vector
    | close fd
      return E.invalidData
  let result ← invoke (.serviceControlCmd fd systemAbilityId args)
    (E.serviceControlCmd fd systemAbilityId args)
  close fd
  return result

/-- The assignments of the constructor, in its order. -/
def memberFuncs : List (UInt32 × StateM (World σ ρ μ) Int32) :=
  [(E.interfaceCode .startAbility, startAbilityInner E),
    (E.interfaceCode .stopAbility, stopAbilityInner E),
    (E.interfaceCode .activeAbility, activeAbilityInner E),
    (E.interfaceCode .idleAbility, idleAbilityInner E),
    (E.interfaceCode .sendStrategyToSA, sendStrategyToSAInner E),
    (E.interfaceCode .ipcStatCmdProc, ipcStatCmdProcInner E),
    (E.interfaceCode .ffrtDumperProc, ffrtDumperProcInner E),
    (E.interfaceCode .systemAbilityExtProc, systemAbilityExtProcInner E),
    (E.interfaceCode .ffrtStatCmdProc, ffrtStatCmdProcInner E),
    (E.interfaceCode .serviceControlCmd, serviceControlCmdInner E)]

def memberFuncMap : UInt32 → Option (StateM (World σ ρ μ) Int32) :=
  (memberFuncs E).foldl (fun map entry => Function.update map entry.1 (some entry.2)) fun _ => none

def onRemoteRequest (callingTokenId code : UInt32) : StateM (World σ ρ μ) Int32 := do
  if !(← enforceInterceToken E) then
    return E.errPermissionDenied
  if checkPermission E callingTokenId code = false then
    return E.errPermissionDenied
  match memberFuncMap E code with
  | some memberFunc => memberFunc
  | none => withParcels (E.objectStub code)

/-! ## What a handler does -/

/-- What a request may change: the manager, and which operations were invoked. -/
def view : View (World σ ρ μ) Call μ := ⟨World.invoked, World.manager⟩

theorem run_fromData {α : Type} {read : StateM σ α} (w : World σ ρ μ) {a : α} {data : σ}
    (ran : read.run w.data = (a, data)) : (fromData read).run w = (a, { w with data := data }) := by
  change ((read.run w.data).1, { w with data := (read.run w.data).2 }) = _
  rw [ran]

theorem quiet_fromData {α : Type} (read : StateM σ α) :
    Quiet (view : View (World σ ρ μ) Call μ) (fromData read) :=
  fun _ => ⟨rfl, rfl⟩

theorem quiet_toReply {α : Type} (write : StateM ρ α) :
    Quiet (view : View (World σ ρ μ) Call μ) (toReply write) :=
  fun _ => ⟨rfl, rfl⟩

theorem quiet_close (fd : Int32) : Quiet (view : View (World σ ρ μ) Call μ) (close fd) :=
  fun _ => ⟨rfl, rfl⟩

theorem quiet_withParcels {α : Type} (program : StateM (σ × ρ) α) :
    Quiet (view : View (World σ ρ μ) Call μ) (withParcels program) :=
  fun _ => ⟨rfl, rfl⟩

/-- Code that closes the descriptor and returns. -/
theorem quiet_close_pure (fd : Int32) (ret : Int32) :
    Quiet (view : View (World σ ρ μ) Call μ) (do close fd; pure ret) :=
  (quiet_close fd).bind fun _ => Quiet.pure ret

section

variable {Allowed : Call → Prop}

theorem acts_invoke {α : Type} {call : Call} (allowed : Allowed call) (operation : StateM μ α) :
    AtMostOnce (view : View (World σ ρ μ) Call μ) Allowed (invoke call operation) :=
  fun _ => Or.inr ⟨call, allowed, rfl⟩

theorem acts_invokeWithParcels {α : Type} {call : Call} (allowed : Allowed call)
    (operation : StateM (σ × ρ × μ) α) :
    AtMostOnce (view : View (World σ ρ μ) Call μ) Allowed (invokeWithParcels call operation) :=
  fun _ => Or.inr ⟨call, allowed, rfl⟩

/-- A read that may fail. -/
theorem acts_read {α β : Type} (read : StateM σ (Option α))
    {next : Option α → StateM (World σ ρ μ) β} (failed : AtMostOnce view Allowed (next none))
    (goesOn : ∀ a, AtMostOnce view Allowed (next (some a))) :
    AtMostOnce view Allowed (fromData read >>= next) := by
  refine AtMostOnce.after (quiet_fromData read) ?_
  intro found
  cases found with
  | none => exact failed
  | some a => exact goesOn a

end

/-- The call is one of this operation, and its SA id, if it takes one, is valid. -/
structure Proper (operation : Operation) (call : Call) : Prop where
  operation : call.operation = operation
  saId : ∀ saId, call.saId = some saId →
    E.firstSysAbilityId ≤ saId.toInt ∧ saId.toInt ≤ E.lastSysAbilityId

/-- A handler invokes its own operation, properly, or nothing. -/
def Handles (operation : Operation) (handler : StateM (World σ ρ μ) Int32) : Prop :=
  AtMostOnce view (Proper E operation) handler

variable {E}

theorem Proper.of_checked {operation : Operation} {call : Call} {saId : Int32}
    (sameOperation : call.operation = operation) (sameSaId : call.saId = some saId)
    (valid : checkInputSysAbilityId E saId = true) : Proper E operation call := by
  refine ⟨sameOperation, ?_⟩
  intro saId' isSaId
  rw [sameSaId] at isSaId
  cases isSaId
  simpa [checkInputSysAbilityId] using valid

theorem Proper.of_none {operation : Operation} {call : Call}
    (sameOperation : call.operation = operation) (noSaId : call.saId = none) :
    Proper E operation call := by
  refine ⟨sameOperation, ?_⟩
  intro saId isSaId
  rw [noSaId] at isSaId
  cases isSaId

/-- The beginning of every handler that takes an SA id: it goes on with a valid one only. -/
theorem handles_checked {operation : Operation} {saId ret : Int32}
    {next : StateM (World σ ρ μ) Int32}
    (goesOn : checkInputSysAbilityId E saId = true → Handles E operation next) :
    Handles E operation (if !checkInputSysAbilityId E saId then pure ret else next) := by
  refine AtMostOnce.ite (fun _ => AtMostOnce.pure ret) ?_
  intro notInvalid
  apply goesOn
  simpa using notInvalid

theorem handles_startStopInner {operation : Operation} {call : Int32 → StdString → Call}
    (perform : Int32 → StdString → StateM μ Bool)
    (sameOperation : ∀ saId eventStr, (call saId eventStr).operation = operation)
    (sameSaId : ∀ saId eventStr, (call saId eventStr).saId = some saId) :
    Handles E operation (startStopInner E fun saId eventStr =>
      invoke (call saId eventStr) (perform saId eventStr)) := by
  refine acts_read _ (AtMostOnce.pure _) fun saId => ?_
  refine handles_checked fun valid => ?_
  refine AtMostOnce.after (quiet_fromData _) ?_
  intro eventStr
  refine AtMostOnce.ite (fun _ => AtMostOnce.pure _) ?_
  intro _
  have proper : Proper E operation (call saId eventStr) :=
    Proper.of_checked (sameOperation saId eventStr) (sameSaId saId eventStr) valid
  exact (acts_invoke proper _).before fun _ => Quiet.pure _

theorem handles_activeAbilityInner : Handles E .activeAbility (activeAbilityInner E) := by
  refine acts_read _ (AtMostOnce.pure _) fun saId => ?_
  refine handles_checked fun valid => ?_
  refine AtMostOnce.after (quiet_fromData _) ?_
  intro text
  refine (acts_invoke (Proper.of_checked rfl rfl valid) _).before ?_
  intro result
  exact (quiet_toReply _).bind fun _ => Quiet.ite (Quiet.pure _) (Quiet.pure _)

theorem handles_idleAbilityInner : Handles E .idleAbility (idleAbilityInner E) := by
  refine acts_read _ (AtMostOnce.pure _) fun saId => ?_
  refine handles_checked fun valid => ?_
  refine AtMostOnce.after (quiet_fromData _) ?_
  intro text
  refine (acts_invoke (Proper.of_checked rfl rfl valid) _).before ?_
  rintro ⟨result, delayTime⟩
  refine (quiet_toReply _).bind fun _ => Quiet.ite (Quiet.pure _) ?_
  exact (quiet_toReply _).bind fun _ => Quiet.ite (Quiet.pure _) (Quiet.pure _)

theorem handles_sendStrategyToSAInner : Handles E .sendStrategyToSA (sendStrategyToSAInner E) := by
  refine acts_read _ (AtMostOnce.pure _) fun type => ?_
  refine acts_read _ (AtMostOnce.pure _) fun saId => ?_
  refine handles_checked fun valid => ?_
  refine acts_read _ (AtMostOnce.pure _) fun level => ?_
  refine acts_read _ (AtMostOnce.pure _) fun action => ?_
  refine (acts_invoke (Proper.of_checked rfl rfl valid) _).before ?_
  intro result
  exact Quiet.ite (Quiet.pure _) (Quiet.pure _)

theorem handles_statCmdProcInner {operation : Operation} {call : Int32 → Int32 → Call}
    (perform : Int32 → Int32 → StateM μ Bool)
    (sameOperation : ∀ fd cmd, (call fd cmd).operation = operation)
    (noSaId : ∀ fd cmd, (call fd cmd).saId = none) :
    Handles E operation (statCmdProcInner E fun fd cmd =>
      invoke (call fd cmd) (perform fd cmd)) := by
  refine AtMostOnce.after (quiet_fromData _) ?_
  intro fd
  refine AtMostOnce.ite (fun _ => AtMostOnce.pure _) ?_
  intro _
  refine acts_read _ (quiet_close_pure fd _).atMostOnce fun cmd => ?_
  have proper : Proper E operation (call fd cmd) :=
    Proper.of_none (sameOperation fd cmd) (noSaId fd cmd)
  refine (acts_invoke proper _).before ?_
  intro result
  refine (quiet_toReply _).bind ?_
  intro written
  exact Quiet.ite (quiet_close_pure fd _) (quiet_close_pure fd _)

theorem handles_ffrtDumperProcInner : Handles E .ffrtDumperProc (ffrtDumperProcInner E) := by
  refine (acts_invoke (Proper.of_none rfl rfl) _).before ?_
  rintro ⟨result, ffrtDumperInfo⟩
  exact (quiet_toReply _).bind fun _ => Quiet.ite (Quiet.pure _) (Quiet.pure _)

theorem handles_systemAbilityExtProcInner :
    Handles E .systemAbilityExtProc (systemAbilityExtProcInner E) := by
  refine acts_read _ (AtMostOnce.pure _) fun saId => ?_
  refine handles_checked fun valid => ?_
  refine AtMostOnce.after (quiet_fromData _) ?_
  intro extension
  refine AtMostOnce.ite (fun _ => AtMostOnce.pure _) ?_
  intro _
  refine (acts_invokeWithParcels (Proper.of_checked rfl rfl valid) _).before ?_
  intro result
  exact Quiet.ite (Quiet.pure _) (Quiet.pure _)

theorem handles_serviceControlCmdInner :
    Handles E .serviceControlCmd (serviceControlCmdInner E) := by
  refine acts_read _ (AtMostOnce.pure _) fun saId => ?_
  refine handles_checked fun valid => ?_
  refine AtMostOnce.after (quiet_fromData _) ?_
  intro fd
  refine AtMostOnce.ite (fun _ => AtMostOnce.pure _) ?_
  intro _
  refine acts_read _ (quiet_close_pure fd _).atMostOnce fun args => ?_
  refine (acts_invoke (Proper.of_checked rfl rfl valid) _).before ?_
  intro result
  exact quiet_close_pure fd result

/-! ## The table -/

/-- What assignments to a map leave under a key comes from one of them. -/
theorem mem_of_assigned {α β : Type} [DecidableEq α] {entries : List (α × β)}
    {map : α → Option β} {key : α} {value : β}
    (found : (entries.foldl (fun (map : α → Option β) entry =>
      Function.update map entry.1 (some entry.2)) map) key = some value) :
    (key, value) ∈ entries ∨ map key = some value := by
  induction entries generalizing map with
  | nil => exact Or.inr found
  | cons entry entries ih =>
    rcases ih found with later | now
    · exact Or.inl (List.mem_cons_of_mem entry later)
    · by_cases same : key = entry.1
      · subst same
        simp only [Function.update_self, Option.some.injEq] at now
        subst now
        exact Or.inl List.mem_cons_self
      · simp only [Function.update_of_ne same] at now
        exact Or.inr now

/-- The code is bound to the operation that its handler invokes. -/
theorem handles_of_memberFuncMap {code : UInt32} {handler : StateM (World σ ρ μ) Int32}
    (found : memberFuncMap E code = some handler) :
    ∃ operation, E.interfaceCode operation = code ∧ Handles E operation handler := by
  have member : (code, handler) ∈ memberFuncs E := by
    rcases mem_of_assigned found with member | nothing
    · exact member
    · cases nothing
  simp only [memberFuncs, List.mem_cons, List.not_mem_nil, or_false, Prod.mk.injEq] at member
  rcases member with ⟨rfl, rfl⟩ | ⟨rfl, rfl⟩ | ⟨rfl, rfl⟩ | ⟨rfl, rfl⟩ | ⟨rfl, rfl⟩ | ⟨rfl, rfl⟩ |
    ⟨rfl, rfl⟩ | ⟨rfl, rfl⟩ | ⟨rfl, rfl⟩ | ⟨rfl, rfl⟩
  · exact ⟨.startAbility, rfl, handles_startStopInner _ (fun _ _ => rfl) fun _ _ => rfl⟩
  · exact ⟨.stopAbility, rfl, handles_startStopInner _ (fun _ _ => rfl) fun _ _ => rfl⟩
  · exact ⟨.activeAbility, rfl, handles_activeAbilityInner⟩
  · exact ⟨.idleAbility, rfl, handles_idleAbilityInner⟩
  · exact ⟨.sendStrategyToSA, rfl, handles_sendStrategyToSAInner⟩
  · exact ⟨.ipcStatCmdProc, rfl, handles_statCmdProcInner _ (fun _ _ => rfl) fun _ _ => rfl⟩
  · exact ⟨.ffrtDumperProc, rfl, handles_ffrtDumperProcInner⟩
  · exact ⟨.systemAbilityExtProc, rfl, handles_systemAbilityExtProcInner⟩
  · exact ⟨.ffrtStatCmdProc, rfl, handles_statCmdProcInner _ (fun _ _ => rfl) fun _ _ => rfl⟩
  · exact ⟨.serviceControlCmd, rfl, handles_serviceControlCmdInner⟩

/-! ## Requests -/

variable (E)

/-- The caller has the permission. -/
def Holds (callingTokenId : UInt32) (permission : String) : Prop :=
  E.verifyAccessToken callingTokenId permission = E.permissionGranted

/-- The request may invoke this call. -/
structure Admissible (callingTokenId code : UInt32) (data : σ) (call : Call) : Prop where
  token : (E.readInterfaceToken.run data).1 = E.interfaceToken
  extension : code = E.interfaceCode .systemAbilityExtProc →
    Holds E callingTokenId permissionExtTransaction
  serviceControl : code = E.interfaceCode .serviceControlCmd →
    code ≠ E.interfaceCode .systemAbilityExtProc → Holds E callingTokenId permissionSvc
  manage : code ≠ E.interfaceCode .systemAbilityExtProc →
    code ≠ E.interfaceCode .serviceControlCmd → Holds E callingTokenId permissionManage
  bound : E.interfaceCode call.operation = code
  saId : ∀ saId, call.saId = some saId →
    E.firstSysAbilityId ≤ saId.toInt ∧ saId.toInt ≤ E.lastSysAbilityId

variable {E}

theorem admissible_of_proper {callingTokenId code : UInt32} {data : σ} {operation : Operation}
    {call : Call} (token : (E.readInterfaceToken.run data).1 = E.interfaceToken)
    (permitted : checkPermission E callingTokenId code = true)
    (bound : E.interfaceCode operation = code) (proper : Proper E operation call) :
    Admissible E callingTokenId code data call := by
  simp only [checkPermission, beq_iff_eq] at permitted
  refine
    { token := token, extension := ?_, serviceControl := ?_, manage := ?_
      bound := by rw [proper.operation, bound], saId := proper.saId }
  · intro isExtension
    rw [if_pos isExtension] at permitted
    exact permitted
  · intro isService notExtension
    rw [if_neg notExtension, if_pos isService] at permitted
    exact permitted
  · intro notExtension notService
    rw [if_neg notExtension, if_neg notService] at permitted
    exact permitted

/-- A request that passes its checks invokes at most one call, an admissible one. -/
theorem onRemoteRequest_run (callingTokenId code : UInt32) (w : World σ ρ μ) :
    Same view w ((onRemoteRequest E callingTokenId code).run w).2 ∨
      ∃ call, Admissible E callingTokenId code w.data call ∧
        ((onRemoteRequest E callingTokenId code).run w).2.invoked = w.invoked ++ [call] := by
  have enforced : Quiet (view : View (World σ ρ μ) Call μ) (enforceInterceToken E) :=
    (quiet_fromData _).bind fun _ => Quiet.pure _
  by_cases token : (E.readInterfaceToken.run w.data).1 = E.interfaceToken
  · suffices acts : AtMostOnce view (Admissible E callingTokenId code w.data)
        (onRemoteRequest E callingTokenId code) by exact acts w
    refine AtMostOnce.after enforced ?_
    intro accepted
    refine AtMostOnce.ite (fun _ => AtMostOnce.pure _) ?_
    intro _
    refine AtMostOnce.ite (fun _ => AtMostOnce.pure _) ?_
    intro notDenied
    have permitted : checkPermission E callingTokenId code = true := by simpa using notDenied
    cases found : memberFuncMap E code with
    | none => exact (quiet_withParcels _).atMostOnce
    | some handler =>
      obtain ⟨operation, bound, handles⟩ := handles_of_memberFuncMap found
      exact handles.mono fun call proper => admissible_of_proper token permitted bound proper
  · have refused : (enforceInterceToken E).run w =
        (false, { w with data := (E.readInterfaceToken.run w.data).2 }) := by
      have read : E.readInterfaceToken.run w.data =
          ((E.readInterfaceToken.run w.data).1, (E.readInterfaceToken.run w.data).2) := rfl
      rw [enforceInterceToken, run_bind (run_fromData w read), beq_eq_false_iff_ne.mpr token]
      rfl
    have denied : (onRemoteRequest E callingTokenId code).run w =
        (E.errPermissionDenied, { w with data := (E.readInterfaceToken.run w.data).2 }) := by
      rw [onRemoteRequest, run_bind refused]
      rfl
    rw [denied]
    exact Or.inl ⟨rfl, rfl⟩

/-- For every code, every parcel and every caller: a request invokes at most one local
operation, and only a call that is admissible; if it invokes none the manager is as it
was, and a request without an admissible call invokes none. -/
theorem onRemoteRequest_gated (E : Env σ ρ μ) (callingTokenId code : UInt32) (w : World σ ρ μ) :
    (∃ calls, ((onRemoteRequest E callingTokenId code).run w).2.invoked = w.invoked ++ calls ∧
      calls.length ≤ 1 ∧ (∀ call ∈ calls, Admissible E callingTokenId code w.data call) ∧
      (calls = [] → ((onRemoteRequest E callingTokenId code).run w).2.manager = w.manager)) ∧
    ((¬∃ call, Admissible E callingTokenId code w.data call) →
      ((onRemoteRequest E callingTokenId code).run w).2.invoked = w.invoked ∧
      ((onRemoteRequest E callingTokenId code).run w).2.manager = w.manager) := by
  rcases onRemoteRequest_run callingTokenId code w with same | ⟨call, admissible, logged⟩
  · refine ⟨⟨[], ?_, Nat.zero_le 1, ?_, fun _ => same.kept⟩, fun _ => ⟨same.log, same.kept⟩⟩
    · rw [List.append_nil]
      exact same.log
    · intro call member
      cases member
  · refine ⟨⟨[call], logged, le_rfl, ?_, ?_⟩, fun nothing => absurd ⟨call, admissible⟩ nothing⟩
    · intro call' member
      rw [List.mem_singleton.mp member]
      exact admissible
    · intro empty
      cases empty

end Stub

end ManagerStub
