import Safwk.Library.Effects
import Safwk.SaMain

/-!
# The command `svc`

`SvcControl::Main` parses the arguments of `svc`, asks samgr for the local ability manager
of the service that is named, and sends it the remaining arguments. `ServiceLine` and
`HelpLine` are the grammar of the command line, `NotEnough` and `Exceed` two ways to miss
it; every other line is invalid.

An argument is null or the bytes at its address. samgr, the local ability manager and
the conversion to UTF-16 are parameters; nothing is assumed about what they answer. The
log lines are left out, the lines printed are not.
-/

namespace SvcControl

open Effects

abbrev U16String := List UInt16

inductive SvcCmd where
  | argsCntNotEnough
  | argsCntExceed
  | argsInvalid
  | helpCmd
  | wifiCmd
  | bluetoothCmd
  | nearlinkCmd
  deriving DecidableEq

def SvcCmd.value : SvcCmd → Int32
  | argsCntNotEnough => -4
  | argsCntExceed => -3
  | argsInvalid => -2
  | helpCmd => -1
  | wifiCmd => 1120
  | bluetoothCmd => 1130
  | nearlinkCmd => 1190

def argMaxCount : Int32 := 64

def argMinCount : Int32 := 2

def singleArgMaxLen : Nat := 256

def timeOut : Int32 := 4

/-- What `argv` points to. -/
abbrev Argv := Nat → Option StdString

/-! ## Parsing -/

/-- The loop over the arguments, from number `i` on. -/
def scan (argc : Int32) (argv : Argv) (i : Nat) : Option SvcCmd :=
  if (i : Int) < argc.toInt then
    match argv i with
    | none => some .argsInvalid
    | some arg =>
      let len := (SaMain.cStr arg).length
      if len = 0 then some .argsInvalid
      else if singleArgMaxLen < len then some .argsInvalid
      else scan argc argv (i + 1)
  else none
termination_by (argc.toInt - i).toNat
decreasing_by omega

def options : List (StdString × SvcCmd × Bool) :=
  [(StdString.literal "wifi", .wifiCmd, false),
    (StdString.literal "bluetooth", .bluetoothCmd, false),
    (StdString.literal "nearlink", .nearlinkCmd, false),
    (StdString.literal "help", .helpCmd, true)]

/-- The command and `isEnd`, which is false before the call. -/
def parseCmd (argv : Argv) (cnt : Nat) : SvcCmd × Bool :=
  match options.find? fun op => (argv cnt).map SaMain.cStr = some op.1 with
  | some (_, cmd, isEnd) => (cmd, isEnd)
  | none => (.argsInvalid, false)

def parse (argc : Int32) (argv : Argv) : SvcCmd :=
  if argc < argMinCount then .argsCntNotEnough
  else if argMaxCount < argc then .argsCntExceed
  else
    match scan argc argv 0 with
    | some cmd => cmd
    | none =>
      let (cmd, isEnd) := parseCmd argv 1
      if cmd = .argsInvalid then cmd
      else if isEnd ∧ 2 < argc then .argsCntExceed
      else if ¬isEnd ∧ argc = 2 then .argsCntNotEnough
      else cmd

def cmdErrorToString (cmd : SvcCmd) : StdString :=
  if cmd.value < SvcCmd.argsCntNotEnough.value then StdString.literal "exception error code"
  else
    match cmd with
    | .argsInvalid => StdString.literal "argument invalid"
    | .argsCntExceed => StdString.literal "argument's cnt exceed"
    | .argsCntNotEnough => StdString.literal "argument's cnt not enough"
    | _ => []

/-! ## Sending -/

/-- samgr, the local ability managers behind it and the conversion of strings. -/
structure Env (σ : Type) where
  str8ToStr16 : StdString → U16String
  /-- Whether a pointer is returned, as in the next. -/
  getSystemAbilityManager : StateM σ Bool
  getLocalAbilityManagerProxy : Int32 → StateM σ Bool
  loadSystemAbility : Int32 → Int32 → StateM σ Unit
  serviceControlCmd : Int32 → Int32 → List U16String → StateM σ Int32
  noError : Int32

/-- A call that reaches samgr or a local ability manager. -/
inductive Contact where
  | getSystemAbilityManager
  | getLocalAbilityManagerProxy (saId : Int32)
  | loadSystemAbility (saId timeout : Int32)
  | serviceControlCmd (fd saId : Int32) (args : List U16String)
  deriving DecidableEq

structure World (σ : Type) where
  samgr : σ
  contacts : List Contact
  printed : List (Int32 × StdString)

section Main

variable {σ : Type}

def contact {α : Type} (call : Contact) (operation : StateM σ α) : StateM (World σ) α := fun w =>
  let (a, samgr) := operation.run w.samgr
  (a, { w with samgr := samgr, contacts := w.contacts ++ [call] })

def dprintf (fd : Int32) (text : StdString) : StateM (World σ) Unit := fun w =>
  ((), { w with printed := w.printed ++ [(fd, text)] })

def helpText : StdString :=
  StdString.literal "svc wifi | bluetooth | nearlink enable | disable | help\n"

def helpInfo (fd : Int32) : StateM (World σ) Unit := dprintf fd helpText

variable (E : Env σ)

/-- The second loop of `SetCmdArgs`, from number `i` on. -/
def setCmdArgs (argc : Int32) (argv : Argv) (i : Nat) (args : List U16String) : List U16String :=
  if (i : Int) < argc.toInt then
    setCmdArgs argc argv (i + 1) (args ++ [E.str8ToStr16 (SaMain.cStr ((argv i).getD []))])
  else args
termination_by (argc.toInt - i).toNat
decreasing_by omega

/-- The proxy, which is asked for again after the ability has been loaded. -/
def getLocalObj (saId : Int32) : StateM (World σ) Bool := do
  let localObj ← contact (.getLocalAbilityManagerProxy saId) (E.getLocalAbilityManagerProxy saId)
  if localObj then return true
  else
    contact (.loadSystemAbility saId timeOut) (E.loadSystemAbility saId timeOut)
    contact (.getLocalAbilityManagerProxy saId) (E.getLocalAbilityManagerProxy saId)

/-- The call of `ServiceControlCmd` and what follows it. -/
def sendCmd (saId : Int32) (args : List U16String) (outFd : Int32) : StateM (World σ) Int32 := do
  let ret ← contact (.serviceControlCmd outFd saId args) (E.serviceControlCmd outFd saId args)
  if ret ≠ E.noError then
    dprintf outFd (StdString.literal "set service cmd failed, ret: " ++ Decimal.ofInt ret.toInt ++
      StdString.literal "\n")
    return -1
  else
    dprintf outFd (StdString.literal "set service cmd success\n")
    return ret

def main (argc : Int32) (argv : Option Argv) (outFd : Int32) : StateM (World σ) Int32 := do
  match argv with
  | none =>
    dprintf outFd (StdString.literal "argument is null\n")
    helpInfo outFd
    return -1
  | some argv =>
    let cmd := parse argc argv
    if cmd = .helpCmd then
      helpInfo outFd
      return 0
    else if cmd.value ≤ SvcCmd.argsInvalid.value then
      dprintf outFd (StdString.literal "parse failed, parse status: " ++ cmdErrorToString cmd ++
        StdString.literal "\n")
      helpInfo outFd
      return -1
    else
      let saId := cmd.value
      let sysm ← contact .getSystemAbilityManager E.getSystemAbilityManager
      if !sysm then
        dprintf outFd (StdString.literal "get object of system ability manager failed\n")
        return -1
      else
        let localObj ← getLocalObj E saId
        if !localObj then
          dprintf outFd (StdString.literal "get object of local ability manager proxy failed\n")
          return -1
        else sendCmd E saId (setCmdArgs E argc argv 2 []) outFd

end Main

/-! ## The grammar -/

inductive Service where
  | wifi
  | bluetooth
  | nearlink

def Service.name : Service → StdString
  | wifi => StdString.literal "wifi"
  | bluetooth => StdString.literal "bluetooth"
  | nearlink => StdString.literal "nearlink"

def Service.saId : Service → Int32
  | wifi => 1120
  | bluetooth => 1130
  | nearlink => 1190

def helpWord : StdString := StdString.literal "help"

/-- An argument that is there, not empty and not too long. -/
def WellFormedArg (arg : Option StdString) : Prop :=
  ∃ bytes, arg = some bytes ∧ 1 ≤ (SaMain.cStr bytes).length ∧ (SaMain.cStr bytes).length ≤ 256

def WellFormed (argc : Int32) (argv : Argv) : Prop :=
  ∀ i : Nat, (i : Int) < argc.toInt → WellFormedArg (argv i)

/-- The argument is this word. -/
def Spells (arg : Option StdString) (word : StdString) : Prop := arg.map SaMain.cStr = some word

instance (arg : Option StdString) (word : StdString) : Decidable (Spells arg word) :=
  inferInstanceAs (Decidable (_ = _))

/-- A service with at least one argument. -/
structure ServiceLine (argc : Int32) (argv : Argv) (service : Service) : Prop where
  enough : 3 ≤ argc.toInt
  notMany : argc.toInt ≤ 64
  wellFormed : WellFormed argc argv
  word : Spells (argv 1) service.name

/-- The word `help` alone. -/
structure HelpLine (argc : Int32) (argv : Argv) : Prop where
  count : argc.toInt = 2
  wellFormed : WellFormed argc argv
  word : Spells (argv 1) helpWord

/-- Too few arguments, or a service alone. -/
def NotEnough (argc : Int32) (argv : Argv) : Prop :=
  argc.toInt < 2 ∨
    argc.toInt = 2 ∧ WellFormed argc argv ∧ ∃ service : Service, Spells (argv 1) service.name

/-- Too many arguments, or more after `help`. -/
def Exceed (argc : Int32) (argv : Argv) : Prop :=
  64 < argc.toInt ∨
    3 ≤ argc.toInt ∧ argc.toInt ≤ 64 ∧ WellFormed argc argv ∧ Spells (argv 1) helpWord

/-- A line in range whose arguments are not well formed, or that names no command. -/
def Invalid (argc : Int32) (argv : Argv) : Prop :=
  2 ≤ argc.toInt ∧ argc.toInt ≤ 64 ∧
    (¬WellFormed argc argv ∨
      (∀ service : Service, ¬Spells (argv 1) service.name) ∧ ¬Spells (argv 1) helpWord)

/-- Every line is one of these. -/
theorem line_cases (argc : Int32) (argv : Argv) :
    NotEnough argc argv ∨ Exceed argc argv ∨ HelpLine argc argv ∨
      (∃ service, ServiceLine argc argv service) ∨ Invalid argc argv := by
  by_cases few : argc.toInt < 2
  · exact Or.inl (Or.inl few)
  by_cases many : 64 < argc.toInt
  · exact Or.inr (Or.inl (Or.inl many))
  by_cases wellFormed : WellFormed argc argv
  · by_cases isHelp : Spells (argv 1) helpWord
    · by_cases alone : argc.toInt = 2
      · exact Or.inr (Or.inr (Or.inl ⟨alone, wellFormed, isHelp⟩))
      · exact Or.inr (Or.inl (Or.inr ⟨by omega, by omega, wellFormed, isHelp⟩))
    · by_cases isService : ∃ service : Service, Spells (argv 1) service.name
      · by_cases alone : argc.toInt = 2
        · exact Or.inl (Or.inr ⟨alone, wellFormed, isService⟩)
        · obtain ⟨service, named⟩ := isService
          exact Or.inr (Or.inr (Or.inr (Or.inl ⟨service, by omega, by omega, wellFormed, named⟩)))
      · refine Or.inr (Or.inr (Or.inr (Or.inr ⟨by omega, by omega, Or.inr ⟨?_, isHelp⟩⟩)))
        intro service named
        exact isService ⟨service, named⟩
  · exact Or.inr (Or.inr (Or.inr (Or.inr ⟨by omega, by omega, Or.inl wellFormed⟩)))

/-! ## The parser follows the grammar -/

/-- The loop rejects a line with an argument that is not well formed, and no other. -/
theorem scan_spec (argc : Int32) (argv : Argv) (i : Nat) :
    ((∀ j : Nat, i ≤ j → (j : Int) < argc.toInt → WellFormedArg (argv j)) ∧
        scan argc argv i = none) ∨
      (∃ j : Nat, (j : Int) < argc.toInt ∧ ¬WellFormedArg (argv j)) ∧
        scan argc argv i = some .argsInvalid := by
  fun_induction scan argc argv i with
  | case1 i inside isNull =>
    refine Or.inr ⟨⟨i, inside, ?_⟩, rfl⟩
    rintro ⟨bytes, isBytes, -⟩
    rw [isNull] at isBytes
    cases isBytes
  | case2 i inside arg isArg len empty =>
    refine Or.inr ⟨⟨i, inside, ?_⟩, rfl⟩
    rintro ⟨bytes, isBytes, lower, -⟩
    rw [isArg] at isBytes
    cases isBytes
    omega
  | case3 i inside arg isArg len nonempty long =>
    refine Or.inr ⟨⟨i, inside, ?_⟩, rfl⟩
    rintro ⟨bytes, isBytes, -, upper⟩
    rw [isArg] at isBytes
    cases isBytes
    exact absurd upper (Nat.not_le.mpr long)
  | case4 i inside arg isArg len nonempty short ih =>
    refine ih.imp_left ?_
    rintro ⟨rest, passed⟩
    refine ⟨?_, passed⟩
    intro j from_i toEnd
    by_cases here : j = i
    · subst here
      exact ⟨arg, isArg, Nat.one_le_iff_ne_zero.mpr nonempty, Nat.not_lt.mp short⟩
    · exact rest j (by omega) toEnd
  | case5 i atEnd =>
    refine Or.inl ⟨?_, rfl⟩
    intro j from_i toEnd
    omega

theorem scan_wellFormed {argc : Int32} {argv : Argv} (wellFormed : WellFormed argc argv) :
    scan argc argv 0 = none := by
  rcases scan_spec argc argv 0 with ⟨-, passed⟩ | ⟨⟨j, inside, wrong⟩, -⟩
  · exact passed
  · exact absurd (wellFormed j inside) wrong

theorem scan_not_wellFormed {argc : Int32} {argv : Argv} (wrong : ¬WellFormed argc argv) :
    scan argc argv 0 = some .argsInvalid := by
  rcases scan_spec argc argv 0 with ⟨all, -⟩ | ⟨-, rejected⟩
  · exact absurd (fun j inside => all j (Nat.zero_le j) inside) wrong
  · exact rejected

def Service.cmd : Service → SvcCmd
  | wifi => .wifiCmd
  | bluetooth => .bluetoothCmd
  | nearlink => .nearlinkCmd

theorem Service.cmd_value (service : Service) : service.cmd.value = service.saId := by
  cases service <;> rfl

section ParseCmd

variable {argv : Argv} {cnt : Nat}

theorem parseCmd_service {service : Service} (named : Spells (argv cnt) service.name) :
    parseCmd argv cnt = (service.cmd, false) := by
  rw [Spells] at named
  rw [parseCmd, named]
  cases service <;> rfl

theorem parseCmd_help (named : Spells (argv cnt) helpWord) :
    parseCmd argv cnt = (.helpCmd, true) := by
  rw [Spells] at named
  rw [parseCmd, named]
  rfl

theorem parseCmd_other (noService : ∀ service : Service, ¬Spells (argv cnt) service.name)
    (notHelp : ¬Spells (argv cnt) helpWord) : parseCmd argv cnt = (.argsInvalid, false) := by
  have none : (options.find? fun op => (argv cnt).map SaMain.cStr = some op.1) = none := by
    apply List.find?_eq_none.mpr
    intro op member
    simp only [options, List.mem_cons, List.not_mem_nil, or_false] at member
    rcases member with rfl | rfl | rfl | rfl
    · exact fun found => noService .wifi (of_decide_eq_true found)
    · exact fun found => noService .bluetooth (of_decide_eq_true found)
    · exact fun found => noService .nearlink (of_decide_eq_true found)
    · exact fun found => notHelp (of_decide_eq_true found)
  rw [parseCmd, none]

end ParseCmd

section Parse

variable {argc : Int32} {argv : Argv}

theorem lt_argMinCount : argc < argMinCount ↔ argc.toInt < 2 := Int32.lt_iff_toInt_lt

theorem argMaxCount_lt : argMaxCount < argc ↔ 64 < argc.toInt := by
  rw [Int32.lt_iff_toInt_lt]
  rfl

theorem two_lt_iff : 2 < argc ↔ 2 < argc.toInt := Int32.lt_iff_toInt_lt

theorem eq_two_iff : argc = 2 ↔ argc.toInt = 2 := Int32.toInt_inj.symm

theorem parse_few (few : argc.toInt < 2) : parse argc argv = .argsCntNotEnough := by
  rw [parse, if_pos (lt_argMinCount.mpr few)]

theorem parse_many (many : 64 < argc.toInt) : parse argc argv = .argsCntExceed := by
  have enough : ¬argc < argMinCount := by
    rw [lt_argMinCount]
    omega
  rw [parse, if_neg enough, if_pos (argMaxCount_lt.mpr many)]

/-- A number of arguments in range leaves the decision to the loop. -/
theorem parse_inRange (lower : 2 ≤ argc.toInt) (upper : argc.toInt ≤ 64) :
    parse argc argv =
      match scan argc argv 0 with
      | some cmd => cmd
      | none =>
        if (parseCmd argv 1).1 = .argsInvalid then (parseCmd argv 1).1
        else if (parseCmd argv 1).2 ∧ 2 < argc then .argsCntExceed
        else if ¬(parseCmd argv 1).2 ∧ argc = 2 then .argsCntNotEnough
        else (parseCmd argv 1).1 := by
  have enough : ¬argc < argMinCount := by
    rw [lt_argMinCount]
    omega
  have notMany : ¬argMaxCount < argc := by
    rw [argMaxCount_lt]
    omega
  rw [parse, if_neg enough, if_neg notMany]

theorem parse_notEnough (line : NotEnough argc argv) : parse argc argv = .argsCntNotEnough := by
  rcases line with few | ⟨alone, wellFormed, service, named⟩
  · exact parse_few few
  · rw [parse_inRange (by omega) (by omega), scan_wellFormed wellFormed, parseCmd_service named]
    cases service <;> simp [Service.cmd, eq_two_iff, alone]

theorem parse_exceed (line : Exceed argc argv) : parse argc argv = .argsCntExceed := by
  rcases line with many | ⟨enough, notMany, wellFormed, named⟩
  · exact parse_many many
  · have more : 2 < argc := two_lt_iff.mpr (by omega)
    rw [parse_inRange (by omega) notMany, scan_wellFormed wellFormed, parseCmd_help named]
    simp [more]

theorem parse_help (line : HelpLine argc argv) : parse argc argv = .helpCmd := by
  have count := line.count
  have notMore : ¬2 < argc := by
    rw [two_lt_iff]
    omega
  rw [parse_inRange (by omega) (by omega), scan_wellFormed line.wellFormed, parseCmd_help line.word]
  simp [notMore]

theorem parse_service {service : Service} (line : ServiceLine argc argv service) :
    parse argc argv = service.cmd := by
  have enough := line.enough
  have notAlone : ¬argc = 2 := by
    rw [eq_two_iff]
    omega
  rw [parse_inRange (by omega) line.notMany, scan_wellFormed line.wellFormed,
    parseCmd_service line.word]
  cases service <;> simp [Service.cmd, notAlone]

theorem parse_invalid (line : Invalid argc argv) : parse argc argv = .argsInvalid := by
  obtain ⟨lower, upper, wrong⟩ := line
  rw [parse_inRange lower upper]
  rcases wrong with notWellFormed | ⟨noService, notHelp⟩
  · rw [scan_not_wellFormed notWellFormed]
  · by_cases wellFormed : WellFormed argc argv
    · rw [scan_wellFormed wellFormed, parseCmd_other noService notHelp]
      rfl
    · rw [scan_not_wellFormed wellFormed]

/-- A line, and the command it stands for. -/
inductive Line (argc : Int32) (argv : Argv) : SvcCmd → Prop
  | notEnough (line : NotEnough argc argv) : Line argc argv .argsCntNotEnough
  | exceed (line : Exceed argc argv) : Line argc argv .argsCntExceed
  | invalid (line : Invalid argc argv) : Line argc argv .argsInvalid
  | help (line : HelpLine argc argv) : Line argc argv .helpCmd
  | service {service : Service} {cmd : SvcCmd} (isCmd : cmd = service.cmd)
      (line : ServiceLine argc argv service) : Line argc argv cmd

theorem parse_line (argc : Int32) (argv : Argv) : Line argc argv (parse argc argv) := by
  rcases line_cases argc argv with line | line | line | ⟨service, line⟩ | line
  · rw [parse_notEnough line]
    exact .notEnough line
  · rw [parse_exceed line]
    exact .exceed line
  · rw [parse_help line]
    exact .help line
  · exact .service (parse_service line) line
  · rw [parse_invalid line]
    exact .invalid line

theorem line_of_parse {cmd : SvcCmd} (parsed : parse argc argv = cmd) : Line argc argv cmd := by
  rw [← parsed]
  exact parse_line argc argv

theorem parse_notEnough_iff : parse argc argv = .argsCntNotEnough ↔ NotEnough argc argv := by
  refine ⟨?_, parse_notEnough⟩
  intro parsed
  cases line_of_parse parsed with
  | notEnough line => exact line
  | @service service cmd isCmd line => cases service <;> cases isCmd

theorem parse_exceed_iff : parse argc argv = .argsCntExceed ↔ Exceed argc argv := by
  refine ⟨?_, parse_exceed⟩
  intro parsed
  cases line_of_parse parsed with
  | exceed line => exact line
  | @service service cmd isCmd line => cases service <;> cases isCmd

theorem parse_help_iff : parse argc argv = .helpCmd ↔ HelpLine argc argv := by
  refine ⟨?_, parse_help⟩
  intro parsed
  cases line_of_parse parsed with
  | help line => exact line
  | @service service cmd isCmd line => cases service <;> cases isCmd

theorem Service.cmd_inj {service service' : Service} (same : service.cmd = service'.cmd) :
    service = service' := by
  cases service <;> cases service' <;> first | rfl | cases same

theorem parse_service_iff {service : Service} :
    parse argc argv = service.cmd ↔ ServiceLine argc argv service := by
  refine ⟨?_, parse_service⟩
  intro parsed
  generalize isCmd : service.cmd = cmd at parsed
  cases line_of_parse parsed with
  | @service service' cmd isCmd' line =>
    rw [Service.cmd_inj (isCmd.trans isCmd')]
    exact line
  | _ => cases service <;> cases isCmd

/-- Whatever is neither in the grammar nor missing or exceeding it is invalid. -/
theorem parse_invalid_iff :
    parse argc argv = .argsInvalid ↔
      ¬NotEnough argc argv ∧ ¬Exceed argc argv ∧ ¬HelpLine argc argv ∧
        ∀ service, ¬ServiceLine argc argv service := by
  constructor
  · intro parsed
    refine ⟨?_, ?_, ?_, ?_⟩
    · intro line
      rw [parse_notEnough line] at parsed
      cases parsed
    · intro line
      rw [parse_exceed line] at parsed
      cases parsed
    · intro line
      rw [parse_help line] at parsed
      cases parsed
    · intro service line
      rw [parse_service line] at parsed
      cases service <;> cases parsed
  · rintro ⟨notFew, notMany, notHelp, noService⟩
    rcases line_cases argc argv with line | line | line | ⟨service, line⟩ | line
    · exact absurd line notFew
    · exact absurd line notMany
    · exact absurd line notHelp
    · exact absurd line (noService service)
    · exact parse_invalid line

end Parse

def wifiEnable : Argv
  | 0 => some (StdString.literal "svc")
  | 1 => some (StdString.literal "wifi")
  | 2 => some (StdString.literal "enable")
  | _ => none

example : parse 3 wifiEnable = .wifiCmd := by
  have wellFormed : WellFormed 3 wifiEnable := by
    intro i inside
    have three : (3 : Int32).toInt = 3 := rfl
    match i with
    | 0 => exact ⟨_, rfl, by decide, by decide⟩
    | 1 => exact ⟨_, rfl, by decide, by decide⟩
    | 2 => exact ⟨_, rfl, by decide, by decide⟩
    | i + 3 => omega
  have line : ServiceLine 3 wifiEnable .wifi := ⟨by decide, by decide, wellFormed, by decide⟩
  exact parse_service line

/-! ## What `Main` does with a line -/

/-- What a `ServiceControlCmd` is sent with. -/
structure Command where
  fd : Int32
  saId : Int32
  args : List U16String

def Contact.command : Contact → Option Command
  | .serviceControlCmd fd saId args => some ⟨fd, saId, args⟩
  | _ => none

section

variable {σ : Type}

/-- The commands sent so far. -/
def commands (w : World σ) : List Command := w.contacts.filterMap Contact.command

def commandView : View (World σ) Command Unit := ⟨commands, fun _ => ()⟩

theorem dprintf_quiet (fd : Int32) (text : StdString) : Quiet commandView (dprintf (σ := σ) fd text) :=
  fun _ => ⟨rfl, rfl⟩

theorem commands_contact {α : Type} (call : Contact) (operation : StateM σ α) (w : World σ) :
    commands ((contact call operation).run w).2 = commands w ++ call.command.toList := by
  have logged : ((contact call operation).run w).2.contacts = w.contacts ++ [call] := rfl
  rw [commands, logged, List.filterMap_append, commands]
  cases isCommand : call.command <;> simp [isCommand]

theorem contact_quiet {α : Type} {call : Contact} (operation : StateM σ α)
    (noCommand : call.command = none) : Quiet commandView (contact call operation) := by
  intro w
  refine ⟨?_, rfl⟩
  have logged := commands_contact call operation w
  rw [noCommand] at logged
  exact logged.trans (List.append_nil _)

variable (E : Env σ)

theorem getLocalObj_quiet (saId : Int32) : Quiet commandView (getLocalObj E saId) :=
  (contact_quiet _ rfl).bind fun _ =>
    .ite (.pure true) ((contact_quiet _ rfl).bind fun _ => contact_quiet _ rfl)

/-- One command is sent. -/
theorem sendCmd_once (saId : Int32) (args : List U16String) (outFd : Int32) :
    AtMostOnce commandView (· = ⟨outFd, saId, args⟩) (sendCmd E saId args outFd) := by
  refine .before ?_ fun ret => ?_
  · intro w
    exact Or.inr ⟨_, rfl, commands_contact _ _ w⟩
  · exact .ite ((dprintf_quiet _ _).bind fun _ => .pure _) ((dprintf_quiet _ _).bind fun _ => .pure _)

/-- The conversions of the arguments from number 2 on. -/
def conversions (argc : Int32) (argv : Argv) : List U16String :=
  (List.range' 2 (argc.toInt.toNat - 2)).map fun i =>
    E.str8ToStr16 (SaMain.cStr ((argv i).getD []))

/-- The loop pushes one conversion after the other. The induction is on the number of
arguments that are left. -/
theorem setCmdArgs_eq (argc : Int32) (argv : Argv) (left : Nat) {i : Nat}
    (remaining : argc.toInt = i + left) (args : List U16String) :
    setCmdArgs E argc argv i args =
      args ++ (List.range' i left).map fun i =>
        E.str8ToStr16 (SaMain.cStr ((argv i).getD [])) := by
  induction left generalizing i args with
  | zero =>
    rw [setCmdArgs, if_neg (by omega)]
    simp
  | succ left ih =>
    rw [setCmdArgs, if_pos (by omega), ih (by omega), List.range'_succ, List.map_cons,
      List.append_assoc, List.singleton_append]

theorem setCmdArgs_conversions {argc : Int32} {argv : Argv} (enough : 2 ≤ argc.toInt) :
    setCmdArgs E argc argv 2 [] = conversions E argc argv := by
  rw [setCmdArgs_eq E argc argv (argc.toInt.toNat - 2) (by omega), conversions, List.nil_append]

theorem main_of_service {argc : Int32} {argv : Argv} {service : Service}
    (line : ServiceLine argc argv service) (outFd : Int32) :
    main E argc (some argv) outFd = (do
      let sysm ← contact .getSystemAbilityManager E.getSystemAbilityManager
      if !sysm then
        dprintf outFd (StdString.literal "get object of system ability manager failed\n")
        return -1
      else
        let localObj ← getLocalObj E service.saId
        if !localObj then
          dprintf outFd (StdString.literal "get object of local ability manager proxy failed\n")
          return -1
        else sendCmd E service.saId (conversions E argc argv) outFd) := by
  have enough := line.enough
  have converted : setCmdArgs E argc argv 2 [] = conversions E argc argv :=
    setCmdArgs_conversions E (by omega)
  have notHelp : service.cmd ≠ .helpCmd := by cases service <;> decide
  have noError : ¬service.saId ≤ SvcCmd.argsInvalid.value := by cases service <;> decide
  simp only [main, parse_service line, if_neg notHelp, service.cmd_value, if_neg noError, converted]

/-- A service is sent at most one command. -/
theorem main_service {argc : Int32} {argv : Argv} {service : Service}
    (line : ServiceLine argc argv service) (outFd : Int32) :
    AtMostOnce commandView (· = ⟨outFd, service.saId, conversions E argc argv⟩)
      (main E argc (some argv) outFd) := by
  rw [main_of_service E line]
  refine .after (contact_quiet _ rfl) fun sysm => ?_
  refine .ite (fun _ => ((dprintf_quiet _ _).bind fun _ => .pure _).atMostOnce) fun _ => ?_
  refine .after (getLocalObj_quiet E _) fun localObj => ?_
  exact .ite (fun _ => ((dprintf_quiet _ _).bind fun _ => .pure _).atMostOnce)
    fun _ => sendCmd_once E _ _ outFd

/-- samgr has a proxy of the ability, at once or after the ability has been loaded. -/
inductive Located (saId : Int32) (s s' : σ) : Prop
  | atOnce (there : (E.getLocalAbilityManagerProxy saId).run s = (true, s'))
  | loaded {asked loaded : σ} (missing : (E.getLocalAbilityManagerProxy saId).run s = (false, asked))
      (loads : (E.loadSystemAbility saId timeOut).run asked = ((), loaded))
      (there : (E.getLocalAbilityManagerProxy saId).run loaded = (true, s'))

section Served

variable {E} {w : World σ}

theorem contact_run {α : Type} (call : Contact) {operation : StateM σ α} {a : α} {s : σ}
    (answered : operation.run w.samgr = (a, s)) :
    ∃ w', (contact call operation).run w = (a, w') ∧ w'.samgr = s ∧
      commands w' = commands w ++ call.command.toList := by
  have ran : (contact call operation).run w =
      ((operation.run w.samgr).1,
        { w with samgr := (operation.run w.samgr).2, contacts := w.contacts ++ [call] }) := rfl
  have logged := commands_contact call operation w
  rw [ran, answered] at logged ⊢
  exact ⟨_, rfl, rfl, logged⟩

theorem getLocalObj_located {saId : Int32} {s : σ} (located : Located E saId w.samgr s) :
    ∃ w', (getLocalObj E saId).run w = (true, w') ∧ w'.samgr = s ∧ commands w' = commands w := by
  have quiet := (getLocalObj_quiet E saId w).log
  rw [getLocalObj] at quiet ⊢
  cases located with
  | atOnce there =>
    obtain ⟨w₁, asks, rfl, -⟩ := contact_run (.getLocalAbilityManagerProxy saId) there
    rw [run_bind asks, if_pos rfl] at quiet ⊢
    exact ⟨w₁, rfl, rfl, quiet⟩
  | loaded missing loads there =>
    obtain ⟨w₁, asks, rfl, -⟩ := contact_run (.getLocalAbilityManagerProxy saId) missing
    obtain ⟨w₂, asked, rfl, -⟩ := contact_run (.loadSystemAbility saId timeOut) loads
    obtain ⟨w₃, again, rfl, -⟩ := contact_run (.getLocalAbilityManagerProxy saId) there
    rw [run_bind asks, if_neg Bool.false_ne_true, run_bind asked, again] at quiet ⊢
    exact ⟨w₃, rfl, rfl, quiet⟩

/-- The command is sent, and its result is returned if it is `NO_ERROR`. -/
theorem sendCmd_run {saId outFd ret : Int32} {args : List U16String} {s : σ}
    (served : (E.serviceControlCmd outFd saId args).run w.samgr = (ret, s)) :
    ∃ w', (sendCmd E saId args outFd).run w = (if ret = E.noError then ret else -1, w') ∧
      w'.samgr = s ∧ commands w' = commands w ++ [⟨outFd, saId, args⟩] := by
  obtain ⟨w₁, sends, rfl, sent⟩ := contact_run (.serviceControlCmd outFd saId args) served
  rw [sendCmd, run_bind sends]
  by_cases success : ret = E.noError
  · rw [if_neg (not_not_intro success), if_pos success]
    exact ⟨_, rfl, rfl, sent⟩
  · rw [if_pos success, if_neg success]
    exact ⟨_, rfl, rfl, sent⟩

/-- If samgr is there and has a proxy of the service, the service is sent its command, and
`Main` returns the result of the call, or -1 if the call failed. -/
theorem main_served {argc : Int32} {argv : Argv} {service : Service}
    (line : ServiceLine argc argv service) (outFd : Int32) {found located served : σ} {ret : Int32}
    (isFound : E.getSystemAbilityManager.run w.samgr = (true, found))
    (isLocated : Located E service.saId found located)
    (isServed : (E.serviceControlCmd outFd service.saId (conversions E argc argv)).run located =
      (ret, served)) :
    ∃ w', (main E argc (some argv) outFd).run w = (if ret = E.noError then ret else -1, w') ∧
      w'.samgr = served ∧
      commands w' = commands w ++ [⟨outFd, service.saId, conversions E argc argv⟩] := by
  obtain ⟨w₁, finds, rfl, asked⟩ := contact_run .getSystemAbilityManager isFound
  obtain ⟨w₂, locates, rfl, quiet⟩ := getLocalObj_located isLocated
  obtain ⟨w₃, sends, rfl, sent⟩ := sendCmd_run isServed
  refine ⟨w₃, ?_, rfl, ?_⟩
  · rw [main_of_service E line, run_bind finds, if_neg (by decide), run_bind locates,
      if_neg (by decide), sends]
  · have noneYet : commands w₁ = commands w := asked.trans (List.append_nil (commands w))
    rw [sent, quiet, noneYet]

end Served

theorem main_help {argc : Int32} {argv : Argv} (line : HelpLine argc argv) (outFd : Int32)
    (w : World σ) :
    (main E argc (some argv) outFd).run w =
      (0, { w with printed := w.printed ++ [(outFd, helpText)] }) := by
  simp only [main, parse_help line, if_pos]
  rfl

/-- A line that is not in the grammar: two lines are printed. -/
theorem main_other {argc : Int32} {argv : Argv} (notHelp : ¬HelpLine argc argv)
    (noService : ∀ service, ¬ServiceLine argc argv service) (outFd : Int32) (w : World σ) :
    ∃ printed, (main E argc (some argv) outFd).run w = (-1, { w with printed := printed }) := by
  have isLine := parse_line argc argv
  simp only [main]
  generalize parse argc argv = cmd at isLine
  cases isLine with
  | help line => exact absurd line notHelp
  | service _ line => exact absurd line (noService _)
  | _ => exact ⟨_, rfl⟩

/-- `svc` accepts exactly its grammar. A command is sent only for a service with
arguments, to that service, with the conversions of the arguments, and at most once. `help`
alone prints the help. Any other line fails without a contact to samgr, and `Parse` tells
the three kinds of failure apart. -/
theorem main_follows_grammar (argc : Int32) (argv : Option Argv) (outFd : Int32) (w : World σ) :
    (commands ((main E argc argv outFd).run w).2 = commands w ∨
      ∃ argv' service, argv = some argv' ∧ ServiceLine argc argv' service ∧
        commands ((main E argc argv outFd).run w).2 =
          commands w ++ [⟨outFd, service.saId, conversions E argc argv'⟩]) ∧
    (∀ argv', argv = some argv' → HelpLine argc argv' →
      (main E argc argv outFd).run w =
        (0, { w with printed := w.printed ++ [(outFd, helpText)] })) ∧
    ((∀ argv', argv = some argv' →
        ¬HelpLine argc argv' ∧ ∀ service, ¬ServiceLine argc argv' service) →
      ∃ printed, (main E argc argv outFd).run w = (-1, { w with printed := printed })) ∧
    ∀ argv', (parse argc argv' = .argsCntNotEnough ↔ NotEnough argc argv') ∧
      (parse argc argv' = .argsCntExceed ↔ Exceed argc argv') ∧
      (parse argc argv' = .helpCmd ↔ HelpLine argc argv') ∧
      (∀ service : Service, parse argc argv' = service.cmd ↔ ServiceLine argc argv' service) ∧
      (parse argc argv' = .argsInvalid ↔
        ¬NotEnough argc argv' ∧ ¬Exceed argc argv' ∧ ¬HelpLine argc argv' ∧
          ∀ service, ¬ServiceLine argc argv' service) := by
  refine ⟨?_, ?_, ?_, ?_⟩
  · cases argv with
    | none => exact Or.inl rfl
    | some argv' =>
      by_cases isService : ∃ service, ServiceLine argc argv' service
      · obtain ⟨service, line⟩ := isService
        rcases main_service E line outFd w with same | ⟨command, rfl, sent⟩
        · exact Or.inl same.log
        · exact Or.inr ⟨argv', service, rfl, line, sent⟩
      by_cases isHelp : HelpLine argc argv'
      · rw [main_help E isHelp outFd w]
        exact Or.inl rfl
      · obtain ⟨printed, ran⟩ :=
          main_other E isHelp (fun service line => isService ⟨service, line⟩) outFd w
        rw [ran]
        exact Or.inl rfl
  · rintro argv' rfl line
    exact main_help E line outFd w
  · intro other
    cases argv with
    | none => exact ⟨_, rfl⟩
    | some argv' => exact main_other E (other argv' rfl).1 (other argv' rfl).2 outFd w
  · intro argv'
    exact ⟨parse_notEnough_iff, parse_exceed_iff, parse_help_iff, fun service => parse_service_iff,
      parse_invalid_iff⟩

end

end SvcControl
