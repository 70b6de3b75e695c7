import Safwk.EventGrammar

/-!
# Two ways to the same reason

An event reaches an ability on the command line of a new process, or as a JSON text
that samgr sends to `StartAbility` of a running one. The two reasons are the same
unless the extra data id needs more than 32 bits: the command line reads it with
`atoi`, though the reason and the JSON path hold 64 bits. A NUL byte in the name or
the value ends the argument early, and then no reason is stored.

Of the JSON text only the value that `StringToJsonObj` makes of it matters; the parser
is in another library. The same holds for `StrToInt`, which reads a decimal number
exactly. `StartAbility` here is the part that stores the reason.
-/

namespace StartPaths

open EventGrammar SaMain Signed StartReason

/-- An event and the ability it is for. -/
structure Event where
  saId : Int32
  id : Int32
  name : StdString
  value : StdString
  extraDataId : Int64

def Event.parts (e : Event) : Parts where
  saId := Decimal.ofInt e.saId.toInt
  id := Decimal.ofInt e.id.toInt
  name := e.name
  value := e.value
  extraDataId := Decimal.ofInt e.extraDataId.toInt
  rest := []

/-- An event that can be written as an argument of the right shape. -/
structure Writable (E : Env) extends Event where
  valid : E.firstSysAbilityId ≤ saId.toInt ∧ saId.toInt ≤ E.lastSysAbilityId
  nameFree : hash ∉ name
  valueFree : hash ∉ value
  short : toEvent.parts.argument.length ≤ 2000

/-- The JSON value has the fields of the event. -/
structure Denotes (json : Json) (e : Event) : Prop where
  eventId : numberAt json eventId = some (e.id.toInt : ℚ)
  name : textAt json name = some e.name
  value : textAt json value = some e.value
  extraDataId : numberAt json extraDataId = some (e.extraDataId.toInt : ℚ)

def startAbility (stringToJsonObj : StdString → Json) (m : Manager) (systemAbilityId : Int32)
    (eventStr : StdString) : Manager :=
  setStartReason m systemAbilityId (stringToJsonObj eventStr)

/-- The reason that `Start` builds for an ability. -/
def reasonOf (undefined : ℚ → Int) (memory : Int32) (m : Manager) (saId : Int32) :
    SystemAbilityOnDemandReason :=
  jsonToOnDemandReason undefined memory (getStartReason m saId).1

structure SameReason (a b : SystemAbilityOnDemandReason) : Prop where
  reasonId : a.reasonId = b.reasonId
  reasonName : a.reasonName = b.reasonName
  reasonValue : a.reasonValue = b.reasonValue
  extraDataId : a.extraDataId = b.extraDataId

/-- A command line whose event argument is `argument`. -/
structure Given (argv : List StdString) (argument : StdString) : Prop where
  enough : 2 ≤ argv.length
  few : argv.length ≤ 64
  inside : (indices argv).1 < argv.length
  here : argv.getD (indices argv).2 [] = argument

/-- What the two paths work with: the libraries, the state before, and the memory at the
place of each reason. -/
structure Setting where
  E : Env
  stringToJsonObj : StdString → Json
  undefined : ℚ → Int
  memory : Int32
  memory' : Int32
  manager : Manager
  manager' : Manager

/-- `main` stores a reason for the ability, and it is the one that `StartAbility` stores. -/
def Agree (S : Setting) (argv : List StdString) (eventStr : StdString) (saId : Int32) : Prop :=
  (∃ event, (main S.E argv S.manager).stored = some (saId, event)) ∧
    SameReason (reasonOf S.undefined S.memory (main S.E argv S.manager).manager saId)
      (reasonOf S.undefined S.memory'
        (startAbility S.stringToJsonObj S.manager' saId eventStr) saId)

/-- A stored reason is the one that is fetched. -/
theorem getStartReason_setStartReason (m : Manager) (saId : Int32) (event : Json) :
    (getStartReason (setStartReason m saId event) saId).1 = event := by
  rw [getStartReason, setStartReason]
  simp only [Function.update_self]

/-- The reason that a JSON value with the fields of an event gives. -/
theorem reason_of_denotes (undefined : ℚ → Int) (memory : Int32) {json : Json} {e : Event}
    (denotes : Denotes json e) :
    jsonToOnDemandReason undefined memory json =
      { reasonId := e.id, reasonName := e.name, reasonValue := e.value
        extraDataId := e.extraDataId, extraData := {} } := by
  have id : Int32.ofInt e.id.toInt = e.id :=
    Int32.toInt_inj.mp (toInt_ofInt32 (fits_toInt32 e.id))
  have extra : Int64.ofInt e.extraDataId.toInt = e.extraDataId :=
    Int64.toInt_inj.mp (toInt_ofInt64 (fits_toInt64 e.extraDataId))
  rw [jsonToOnDemandReason_eq, int32_of_numberAt undefined denotes.eventId (fits_toInt32 _),
    int64_of_numberAt undefined denotes.extraDataId (fits_toInt64 _), denotes.name,
    denotes.value, id, extra]
  rfl

/-! ## The argument -/

/-- `atoi` reads back what was printed, if an `int` can hold it. -/
theorem atoi_ofInt (E : Env) {n : Int} (fits : Fits 32 n) :
    atoi E (Decimal.ofInt n) = Int32.ofInt n := by
  rw [atoi, Decimal.read_ofInt, if_pos fits]

/-- The event as the command line delivers it. -/
def Event.narrowed (E : Env) (e : Event) : Event :=
  { e with extraDataId := (atoi E (Decimal.ofInt e.extraDataId.toInt)).toInt64 }

theorem denotes_event (E : Env) (e : Event) : Denotes (e.parts.event E) (e.narrowed E) := by
  have id : atoi E (Decimal.ofInt e.id.toInt) = e.id := by
    rw [atoi_ofInt E (fits_toInt32 e.id)]
    exact Int32.toInt_inj.mp (toInt_ofInt32 (fits_toInt32 e.id))
  have first : numberAt (e.parts.event E) StartReason.eventId =
      some ((atoi E (Decimal.ofInt e.id.toInt)).toInt64.toInt : ℚ) := rfl
  refine ⟨?_, rfl, rfl, rfl⟩
  rw [first, id, Int32.toInt_toInt64]
  rfl

/-- An `int` can hold the extra data id exactly if the command line delivers it. -/
theorem narrowed_iff (E : Env) (e : Event) :
    (e.narrowed E).extraDataId = e.extraDataId ↔ Fits 32 e.extraDataId.toInt := by
  constructor
  · intro same
    have value : (atoi E (Decimal.ofInt e.extraDataId.toInt)).toInt = e.extraDataId.toInt := by
      rw [← Int32.toInt_toInt64]
      exact congrArg Int64.toInt same
    rw [← value]
    exact fits_toInt32 _
  · intro fits
    apply Int64.toInt_inj.mp
    have delivered : (e.narrowed E).extraDataId =
        (atoi E (Decimal.ofInt e.extraDataId.toInt)).toInt64 := rfl
    rw [delivered, Int32.toInt_toInt64, atoi_ofInt E fits, toInt_ofInt32 fits]

theorem hash_not_mem_ofInt (n : Int) : hash ∉ Decimal.ofInt n :=
  Decimal.not_mem_ofInt (by decide) (by decide)

theorem nul_not_mem_ofInt (n : Int) : (0 : UInt8) ∉ Decimal.ofInt n :=
  Decimal.not_mem_ofInt (by decide) (by decide)

section

variable {E : Env} (e : Writable E)

theorem fields_free : ∀ field ∈ e.parts.fields, hash ∉ field := by
  intro field member
  simp only [Parts.fields, Event.parts, List.mem_cons, List.not_mem_nil, or_false] at member
  rcases member with rfl | rfl | rfl | rfl | rfl
  · exact hash_not_mem_ofInt _
  · exact hash_not_mem_ofInt _
  · exact e.nameFree
  · exact e.valueFree
  · exact hash_not_mem_ofInt _

theorem count_argument : e.parts.argument.count hash = 5 := by
  have noRest : Cut.cut hash e.parts.rest = [] := Cut.cut_of_not_mem List.not_mem_nil
  rw [← Cut.length_cut, argument_eq_joined, Cut.cut_joined (fields_free e), noRest]
  rfl

/-- Without a NUL byte the argument is the whole text. -/
theorem cStr_argument (name : (0 : UInt8) ∉ e.name) (value : (0 : UInt8) ∉ e.value) :
    cStr e.parts.argument = e.parts.argument := by
  apply List.takeWhile_eq_self_iff.mpr
  intro b member
  have notNul : b ≠ 0 := by
    rintro rfl
    have hashNotNul : (0 : UInt8) ≠ hash := by decide
    simp only [Parts.argument, Event.parts, List.mem_append, List.mem_cons, List.not_mem_nil,
      hashNotNul, name, value, nul_not_mem_ofInt, or_self] at member
  simpa using notNul

/-- A text that is cut within its front part has no more `#` than that part. -/
theorem count_cStr_le {front : StdString} (nul : (0 : UInt8) ∈ front) (rest : StdString) :
    (cStr (front ++ rest)).count hash ≤ front.count hash := by
  have shorter : (front.takeWhile (· != 0)).length ≠ front.length := by
    intro same
    have whole := (List.takeWhile_sublist (· != (0 : UInt8))).eq_of_length same
    have nonzero := List.takeWhile_eq_self_iff.mp whole 0 nul
    exact absurd nonzero (by decide)
  rw [cStr, List.takeWhile_append, if_neg shorter]
  exact (List.takeWhile_sublist _).count_le hash

/-- With a NUL byte the last `#` is cut off. -/
theorem count_cStr_argument (nul : (0 : UInt8) ∈ e.name ∨ (0 : UInt8) ∈ e.value) :
    (cStr e.parts.argument).count hash < 5 := by
  let front := e.parts.saId ++ hash :: (e.parts.id ++ hash :: (e.name ++ hash :: e.value))
  have split : e.parts.argument =
      front ++ hash :: (e.parts.extraDataId ++ hash :: e.parts.rest) := by
    simp [front, Parts.argument, Event.parts]
  have inFront : (0 : UInt8) ∈ front := by
    rcases nul with inName | inValue
    · simp [front, inName]
    · simp [front, inValue]
  have three : front.count hash = 3 := by
    have free : ∀ {l : StdString}, hash ∉ l → l.count hash = 0 :=
      fun absent => List.count_eq_zero_of_not_mem absent
    have saId : e.parts.saId.count hash = 0 := free (hash_not_mem_ofInt _)
    have id : e.parts.id.count hash = 0 := free (hash_not_mem_ofInt _)
    simp only [front, List.count_append, List.count_cons_self, saId, id, free e.nameFree,
      free e.valueFree]
  have bound := count_cStr_le inFront (hash :: (e.parts.extraDataId ++ hash :: e.parts.rest))
  rw [split]
  omega

end

/-! ## The two paths -/

section

variable {S : Setting} {argv : List StdString} {eventStr : StdString} (e : Writable S.E)

theorem main_of_nul (given : Given argv e.parts.argument)
    (invalid : defaultSaId.toInt < S.E.firstSysAbilityId)
    (nul : (0 : UInt8) ∈ e.name ∨ (0 : UInt8) ∈ e.value) :
    (main S.E argv S.manager).stored = none := by
  have few := count_cStr_argument e nul
  rw [main_of_rejected S.manager invalid given.enough given.few given.inside]
  rw [given.here]
  rintro ⟨n, event, accepts⟩
  have five := accepts.hashes
  omega

theorem main_of_plain (given : Given argv e.parts.argument)
    (exact : ∀ n : Int32, S.E.strToInt (Decimal.ofInt n.toInt) = some n)
    (name : (0 : UInt8) ∉ e.name) (value : (0 : UInt8) ∉ e.value) :
    main S.E argv S.manager =
      ⟨0, setStartReason S.manager e.saId (e.parts.event S.E), some (e.saId, e.parts.event S.E),
        doStartSAProcess argv e.saId⟩ := by
  have accepts : Accepts S.E e.parts.argument e.saId (e.parts.event S.E) :=
    { short := e.short
      hashes := count_argument e
      parts := ⟨e.parts, rfl, fields_free e, exact e.saId, rfl⟩
      valid := e.valid }
  apply main_of_accepts S.manager given.enough given.few given.inside
  rw [given.here, cStr_argument e name value]
  exact accepts

/-- Where `main` stores the reason, it is the narrowed event. -/
theorem sameReason_iff (given : Given argv e.parts.argument)
    (exact : ∀ n : Int32, S.E.strToInt (Decimal.ofInt n.toInt) = some n)
    (faithful : Denotes (S.stringToJsonObj eventStr) e.toEvent)
    (name : (0 : UInt8) ∉ e.name) (value : (0 : UInt8) ∉ e.value) :
    Agree S argv eventStr e.saId ↔ Fits 32 e.extraDataId.toInt := by
  rw [Agree, main_of_plain e given exact name value, reasonOf, reasonOf, startAbility,
    getStartReason_setStartReason, getStartReason_setStartReason,
    reason_of_denotes S.undefined S.memory (denotes_event S.E e.toEvent),
    reason_of_denotes S.undefined S.memory' faithful, ← narrowed_iff S.E e.toEvent]
  constructor
  · exact fun agree => agree.2.extraDataId
  · exact fun same => ⟨⟨_, rfl⟩, ⟨rfl, rfl, rfl, same⟩⟩

end

/-- The two paths deliver the same reason exactly if an `int` can hold the extra data id
and no NUL byte ends the argument early. -/
theorem agree_iff (S : Setting) {argv : List StdString} {eventStr : StdString}
    (e : Writable S.E) (invalid : defaultSaId.toInt < S.E.firstSysAbilityId)
    (exact : ∀ n : Int32, S.E.strToInt (Decimal.ofInt n.toInt) = some n)
    (given : Given argv e.parts.argument)
    (faithful : Denotes (S.stringToJsonObj eventStr) e.toEvent) :
    Agree S argv eventStr e.saId ↔
      Fits 32 e.extraDataId.toInt ∧ (0 : UInt8) ∉ e.name ∧ (0 : UInt8) ∉ e.value := by
  by_cases nul : (0 : UInt8) ∈ e.name ∨ (0 : UInt8) ∈ e.value
  · constructor
    · rintro ⟨⟨event, stored⟩, -⟩
      rw [main_of_nul e given invalid nul] at stored
      cases stored
    · rintro ⟨-, name, value⟩
      exact absurd nul (not_or.mpr ⟨name, value⟩)
  · obtain ⟨name, value⟩ := not_or.mp nul
    rw [sameReason_iff e given exact faithful name value]
    exact ⟨fun fits => ⟨fits, name, value⟩, fun all => all.1⟩

/-! ## An event with a large id -/

theorem exactEnv_exact (n : Int32) : exactEnv.strToInt (Decimal.ofInt n.toInt) = some n := by
  change exactStrToInt (Decimal.ofInt n.toInt) = some n
  rw [exactStrToInt, Decimal.read_ofInt, if_pos ⟨rfl, fits_toInt32 n⟩]
  exact congrArg some (Int32.toInt_inj.mp (toInt_ofInt32 (fits_toInt32 n)))

theorem given_eventArgv (argument : StdString) : Given (eventArgv argument) argument := by
  have place : indices (eventArgv argument) = (2, 2) := rfl
  have three : (eventArgv argument).length = 3 := rfl
  refine ⟨by omega, by omega, ?_, ?_⟩
  · rw [place, three]
    decide
  · rw [place]
    rfl

/-- A screen event for the ability 401, with its extra data id. -/
def screenEvent (extraDataId : Int64) : Event where
  saId := 401
  id := 4
  name := StdString.literal "usual.event.SCREEN_ON"
  value := []
  extraDataId := extraDataId

/-- The JSON text of the event. -/
def screenText (extraDataId : UInt64) : StdString :=
  StdString.literal "\x7b\"eventId\":4,\"extraDataId\":" ++ Decimal.ofNat extraDataId.toNat ++
    StdString.literal ",\"name\":\"usual.event.SCREEN_ON\",\"value\":\"\"\x7d"

/-- The value that the parser makes of it. -/
def screenJson (extraDataId : UInt64) : Json :=
  .object
    [(StartReason.eventId, .numberUnsigned 4),
      (StartReason.extraDataId, .numberUnsigned extraDataId),
      (StartReason.name, .string (StdString.literal "usual.event.SCREEN_ON")),
      (StartReason.value, .string [])]

/-- A manager without reasons, and a parser that knows the text of this event. -/
def screenSetting (extraDataId : UInt64) : Setting where
  E := exactEnv
  stringToJsonObj text := if text = screenText extraDataId then screenJson extraDataId else .null
  undefined _ := 0
  memory := 0
  memory' := 0
  manager := ⟨fun _ => none⟩
  manager' := ⟨fun _ => none⟩

theorem screen_parsed (extraDataId : UInt64) :
    (screenSetting extraDataId).stringToJsonObj (screenText extraDataId) =
      screenJson extraDataId := by
  simp only [screenSetting, if_true]

def smallScreen : Writable exactEnv where
  toEvent := screenEvent 410
  valid := by decide
  nameFree := by decide
  valueFree := by decide
  short := by decide

def largeScreen : Writable exactEnv where
  toEvent := screenEvent 4294967296
  valid := by decide
  nameFree := by decide
  valueFree := by decide
  short := by decide

theorem agree_iff_small :
    Agree (screenSetting 410) (eventArgv smallScreen.parts.argument) (screenText 410) 401 := by
  have given := given_eventArgv smallScreen.parts.argument
  have faithful : Denotes ((screenSetting 410).stringToJsonObj (screenText 410))
      smallScreen.toEvent := by
    rw [screen_parsed]
    exact ⟨rfl, rfl, rfl, rfl⟩
  exact (agree_iff (screenSetting 410) smallScreen (by decide) exactEnv_exact given faithful).mpr
    ⟨by decide, by decide, by decide⟩

theorem large_differs :
    Given (eventArgv largeScreen.parts.argument) largeScreen.parts.argument ∧
      Denotes ((screenSetting 4294967296).stringToJsonObj (screenText 4294967296))
        largeScreen.toEvent ∧
      ¬Agree (screenSetting 4294967296) (eventArgv largeScreen.parts.argument)
        (screenText 4294967296) 401 := by
  have given := given_eventArgv largeScreen.parts.argument
  have faithful : Denotes ((screenSetting 4294967296).stringToJsonObj (screenText 4294967296))
      largeScreen.toEvent := by
    rw [screen_parsed]
    exact ⟨rfl, rfl, rfl, rfl⟩
  refine ⟨given, faithful, fun agree => ?_⟩
  have fits := (sameReason_iff (S := screenSetting 4294967296) largeScreen given exactEnv_exact
    faithful (by decide) (by decide)).mp agree
  exact absurd fits (by decide)

end StartPaths
