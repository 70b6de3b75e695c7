import Safwk.SaMain

/-!
# What the command line accepts

An event argument is accepted exactly if it has at most 2000 bytes and five `#`, and
the text before the first `#` is the number of a valid ability. The texts between the
`#` become the start reason, empty or not, and what follows the last `#` is ignored.
With any other argument nothing is stored and no process is started. The rejection
relies on `DEFAULT_SAID` being no valid id.
-/

namespace EventGrammar

open SaMain StartReason

/-- The texts of an argument with five `#`. -/
structure Parts where
  saId : StdString
  id : StdString
  name : StdString
  value : StdString
  extraDataId : StdString
  rest : StdString

/-- The texts that a `#` ends. -/
def Parts.fields (p : Parts) : List StdString := [p.saId, p.id, p.name, p.value, p.extraDataId]

def Parts.argument (p : Parts) : StdString :=
  p.saId ++ hash :: (p.id ++ hash :: (p.name ++ hash :: (p.value ++ hash ::
    (p.extraDataId ++ hash :: p.rest))))

def Parts.event (E : Env) (p : Parts) : Json :=
  .object
    [(StartReason.eventId, ofInt32 (atoi E p.id)), (StartReason.name, .string p.name),
      (StartReason.value, .string p.value),
      (StartReason.extraDataId, ofInt32 (atoi E p.extraDataId))]

/-- The argument `s` asks for the ability `n` with the start reason `m`. -/
structure Accepts (E : Env) (s : StdString) (n : Int32) (m : Json) : Prop where
  short : s.length ≤ 2000
  hashes : s.count hash = 5
  parts : ∃ p : Parts, s = p.argument ∧ (∀ field ∈ p.fields, hash ∉ field) ∧
    E.strToInt p.saId = some n ∧ m = p.event E
  valid : E.firstSysAbilityId ≤ n.toInt ∧ n.toInt ≤ E.lastSysAbilityId

theorem argument_eq_joined (p : Parts) : p.argument = Cut.joined hash p.fields p.rest := rfl

theorem checkSaId_iff (E : Env) (n : Int32) :
    checkSaId E n = true ↔ E.firstSysAbilityId ≤ n.toInt ∧ n.toInt ≤ E.lastSysAbilityId := by
  simp [checkSaId]

/-- The four assignments to the empty event map. -/
theorem assigned (a b c d : Json) :
    (((Json.null.assign eventId a).assign name b).assign value c).assign extraDataId d =
      .object [(eventId, a), (name, b), (value, c), (extraDataId, d)] := by
  have first : (eventId != name) = true ∧ (eventId != value) = true ∧
      (eventId != extraDataId) = true := by decide
  have second : (name != value) = true ∧ (name != extraDataId) = true := by decide
  have third : (value != extraDataId) = true := by decide
  simp [Json.assign, first, second, third]

theorem cut_argument {p : Parts} (free : ∀ field ∈ p.fields, hash ∉ field)
    (hashes : p.argument.count hash = 5) : Cut.cut hash p.argument = p.fields := by
  have split : Cut.cut hash p.argument = p.fields ++ Cut.cut hash p.rest := Cut.cut_joined free p.rest
  have five : (Cut.cut hash p.argument).length = 5 := (Cut.length_cut hash p.argument).trans hashes
  have none : Cut.cut hash p.rest = [] := by
    rw [split, List.length_append] at five
    apply List.eq_nil_of_length_eq_zero
    simp only [Parts.fields, List.length_cons, List.length_nil] at five
    omega
  rw [split, none, List.append_nil]

theorem exists_parts {s : StdString} (hashes : s.count hash = 5) :
    ∃ p : Parts, s = p.argument ∧ ∀ field ∈ p.fields, hash ∉ field := by
  obtain ⟨free, rest, -, whole⟩ := Cut.joined_cut hash s
  have five : (Cut.cut hash s).length = 5 := (Cut.length_cut hash s).trans hashes
  match Cut.cut hash s, five, free, whole with
  | [a, b, c, d, e], _, free, whole => exact ⟨⟨a, b, c, d, e, rest⟩, whole, free⟩

section

variable {E : Env} {argument : StdString} {n : Int32} {m : Json}

/-- The parser on an argument of the right shape. -/
theorem parseArgv_parts {p : Parts} (whole : cStr argument = p.argument)
    (free : ∀ field ∈ p.fields, hash ∉ field) (hashes : (cStr argument).count hash = 5)
    (short : (cStr argument).length ≤ 2000) :
    parseArgv E argument .null =
      match E.strToInt p.saId with
      | none => (defaultSaId, .null)
      | some n => (n, p.event E) := by
  have pieces : Cut.cut hash (cStr argument) = p.fields := by
    rw [whole] at hashes ⊢
    exact cut_argument free hashes
  have notLong : ¬maxLength < (cStr argument).length := not_lt.mpr short
  rw [parseArgv, if_neg notLong, pieces, if_neg (by simp [Parts.fields, partEventNum])]
  have saId : p.fields.getD 0 [] = p.saId := rfl
  rw [saId]
  cases E.strToInt p.saId with
  | none => rfl
  | some n => exact congrArg (Prod.mk n) (assigned _ _ _ _)

/-- Every other argument leaves the default id and an empty event map. -/
theorem parseArgv_other
    (other : ¬((cStr argument).length ≤ 2000 ∧ (cStr argument).count hash = 5)) :
    parseArgv E argument .null = (defaultSaId, .null) := by
  rw [parseArgv]
  by_cases long : maxLength < (cStr argument).length
  · rw [if_pos long]
  · have notFive : (Cut.cut hash (cStr argument)).length ≠ partEventNum := by
      rw [Cut.length_cut]
      exact fun five => other ⟨not_lt.mp long, five⟩
    rw [if_neg long, if_pos notFive]

/-- The default id does not pass the check. -/
theorem default_rejected (invalid : defaultSaId.toInt < E.firstSysAbilityId) :
    checkSaId E defaultSaId = false := by
  rw [Bool.eq_false_iff, ne_eq, checkSaId_iff]
  omega

/-- An argument of the right shape passes if its first text is the number of a valid id. -/
theorem accepts_of_parts {p : Parts} (whole : cStr argument = p.argument)
    (free : ∀ field ∈ p.fields, hash ∉ field) (hashes : (cStr argument).count hash = 5)
    (short : (cStr argument).length ≤ 2000)
    (invalid : defaultSaId.toInt < E.firstSysAbilityId)
    (answer : parseArgv E argument .null = (n, m)) (checked : checkSaId E n = true) :
    Accepts E (cStr argument) n m := by
  rw [parseArgv_parts whole free hashes short] at answer
  refine ⟨short, hashes, ⟨p, whole, free, ?_⟩, (checkSaId_iff E n).mp checked⟩
  cases read : E.strToInt p.saId with
  | none =>
    rw [read] at answer
    cases answer
    rw [default_rejected invalid] at checked
    cases checked
  | some k =>
    rw [read] at answer
    cases answer
    exact ⟨rfl, rfl⟩

theorem parseArgv_of_accepts (accepts : Accepts E (cStr argument) n m) :
    parseArgv E argument .null = (n, m) ∧ checkSaId E n = true := by
  obtain ⟨short, hashes, ⟨p, whole, free, read, rfl⟩, valid⟩ := accepts
  refine ⟨?_, (checkSaId_iff E n).mpr valid⟩
  rw [parseArgv_parts whole free hashes short, read]

/-- The parser's answer passes the check of the id exactly for accepted arguments. -/
theorem parseArgv_iff (invalid : defaultSaId.toInt < E.firstSysAbilityId) :
    (parseArgv E argument .null = (n, m) ∧ checkSaId E n = true) ↔
      Accepts E (cStr argument) n m := by
  refine ⟨?_, parseArgv_of_accepts⟩
  rintro ⟨answer, checked⟩
  by_cases shape : (cStr argument).length ≤ 2000 ∧ (cStr argument).count hash = 5
  · obtain ⟨p, whole, free⟩ := exists_parts shape.2
    exact accepts_of_parts whole free shape.2 shape.1 invalid answer checked
  · rw [parseArgv_other shape] at answer
    cases answer
    rw [default_rejected invalid] at checked
    cases checked

end

/-- The two indices move together. -/
theorem indices_eq (argv : List StdString) : (indices argv).1 = (indices argv).2 := by
  suffices general : ∀ (l : List StdString) (k : Nat),
      (l.foldl (fun indices argument =>
        if cStr argument = StdString.literal "-m" then (indices.1 + 2, indices.2 + 2)
        else indices) (k, k)).1 =
      (l.foldl (fun indices argument =>
        if cStr argument = StdString.literal "-m" then (indices.1 + 2, indices.2 + 2)
        else indices) (k, k)).2 by
    exact general argv.dropLast 2
  intro l
  induction l with
  | nil => exact fun k => rfl
  | cons argument l ih =>
    intro k
    rw [List.foldl_cons]
    split
    · exact ih (k + 2)
    · exact ih k

theorem parseArgv_copies (E : Env) (argument : StdString) (eventMap : Json) :
    SystemAbilityStart.parseArgv E argument eventMap = SaMain.parseArgv E argument eventMap := rfl

theorem startSA_eq_main (E : Env) (argv : List StdString) (m : Manager) :
    SystemAbilityStart.startSA E argv m = main E argv m := rfl

/-- `main` when it is given an event argument. -/
theorem main_event (E : Env) {argv : List StdString} (m : Manager) (enough : 2 ≤ argv.length)
    (few : argv.length ≤ 64) (given : (indices argv).1 < argv.length) :
    main E argv m =
      let parsed := parseArgv E (argv.getD (indices argv).2 []) .null
      if checkSaId E parsed.1 then
        ⟨0, setStartReason m parsed.1 parsed.2, some parsed, doStartSAProcess argv parsed.1⟩
      else ⟨0, m, none, none⟩ := by
  have inside : ¬argv.length ≤ (indices argv).2 := by
    rw [← indices_eq]
    omega
  have counted : ¬(argv.length < 2 ∨ 64 < argv.length) := by omega
  rw [main, if_neg counted]
  simp only [if_pos given, if_neg inside]

/-- `main` when the event argument is accepted. -/
theorem main_of_accepts {E : Env} {argv : List StdString} (m : Manager) {n : Int32} {event : Json}
    (enough : 2 ≤ argv.length) (few : argv.length ≤ 64) (given : (indices argv).1 < argv.length)
    (accepts : Accepts E (cStr (argv.getD (indices argv).2 [])) n event) :
    main E argv m =
      ⟨0, setStartReason m n event, some (n, event), doStartSAProcess argv n⟩ := by
  obtain ⟨answer, checked⟩ := parseArgv_of_accepts accepts
  rw [main_event E m enough few given, answer]
  simp only [checked, if_true]

/-- `main` when it is not. -/
theorem main_of_rejected {E : Env} {argv : List StdString} (m : Manager)
    (invalid : defaultSaId.toInt < E.firstSysAbilityId) (enough : 2 ≤ argv.length)
    (few : argv.length ≤ 64) (given : (indices argv).1 < argv.length)
    (rejects : ¬∃ n event, Accepts E (cStr (argv.getD (indices argv).2 [])) n event) :
    main E argv m = ⟨0, m, none, none⟩ := by
  rw [main_event E m enough few given]
  generalize answer : parseArgv E (argv.getD (indices argv).2 []) .null = parsed
  obtain ⟨n, event⟩ := parsed
  have unchecked : ¬checkSaId E n = true := by
    intro checked
    exact rejects ⟨n, event, (parseArgv_iff invalid).mp ⟨answer, checked⟩⟩
  simp only [unchecked, if_false, Bool.false_eq_true]

/-- `DoStartSAProcess` takes the path: it has some text with `.json` in it. -/
def ValidProfile (argv : List StdString) : Prop :=
  cStr (argv.getD 1 []) ≠ [] ∧ StdString.literal ".json" <:+: cStr (argv.getD 1 [])

theorem doStartSAProcess_valid {argv : List StdString} (n : Int32) (enough : 2 ≤ argv.length)
    (valid : ValidProfile argv) : doStartSAProcess argv n = some (cStr (argv.getD 1 []), n) := by
  have passes : ¬((cStr (argv.getD 1 [])).isEmpty ∨
      ¬StdString.literal ".json" <:+: cStr (argv.getD 1 [])) := by
    rintro (empty | noJson)
    · exact valid.1 (List.isEmpty_iff.mp empty)
    · exact noJson valid.2
  rw [doStartSAProcess, if_pos (by omega)]
  exact if_neg passes

theorem doStartSAProcess_invalid {argv : List StdString} (n : Int32) (enough : 2 ≤ argv.length)
    (invalid : ¬ValidProfile argv) : doStartSAProcess argv n = none := by
  have fails : (cStr (argv.getD 1 [])).isEmpty ∨
      ¬StdString.literal ".json" <:+: cStr (argv.getD 1 []) := by
    by_cases empty : cStr (argv.getD 1 []) = []
    · exact Or.inl (List.isEmpty_iff.mpr empty)
    · exact Or.inr (fun json => invalid ⟨empty, json⟩)
  rw [doStartSAProcess, if_pos (by omega)]
  exact if_pos fails

/-- What going on with the ability `n` and the start reason `event` means: the reason is
handed over once and is the one found under the id, the other reasons stay, and the
process of the profile is started for the id if the path is taken. -/
structure GoesOn (argv : List StdString) (m : Manager) (outcome : Outcome) (n : Int32)
    (event : Json) : Prop where
  stored : outcome.stored = some (n, event)
  reason : outcome.manager.saIdToStartReason n = some event
  others : ∀ k, k ≠ n → outcome.manager.saIdToStartReason k = m.saIdToStartReason k
  started : ValidProfile argv → outcome.process = some (cStr (argv.getD 1 []), n)
  refused : ¬ValidProfile argv → outcome.process = none

theorem goesOn_of_accepts {E : Env} {argv : List StdString} (m : Manager) {n : Int32}
    {event : Json} (enough : 2 ≤ argv.length) (few : argv.length ≤ 64)
    (given : (indices argv).1 < argv.length)
    (accepts : Accepts E (cStr (argv.getD (indices argv).2 [])) n event) :
    GoesOn argv m (main E argv m) n event := by
  rw [main_of_accepts m enough few given accepts]
  constructor
  · rfl
  · simp [setStartReason]
  · intro k other
    simp [setStartReason, other]
  · exact doStartSAProcess_valid n enough
  · exact doStartSAProcess_invalid n enough

/-- `main` and `StartSA` go on with an ability and a reason exactly if the event argument
asks for them; otherwise nothing is stored or started. The copies agree everywhere. -/
theorem main_accepts_iff (E : Env) (invalid : defaultSaId.toInt < E.firstSysAbilityId) :
    (∀ argument eventMap, SystemAbilityStart.parseArgv E argument eventMap =
      SaMain.parseArgv E argument eventMap) ∧
    (∀ argv m, SystemAbilityStart.startSA E argv m = main E argv m) ∧
    ∀ (argv : List StdString) (m : Manager), 2 ≤ argv.length → argv.length ≤ 64 →
      (indices argv).1 < argv.length →
      (∀ n event, GoesOn argv m (main E argv m) n event ↔
        Accepts E (cStr (argv.getD (indices argv).2 [])) n event) ∧
      ((¬∃ n event, Accepts E (cStr (argv.getD (indices argv).2 [])) n event) →
        (main E argv m).stored = none ∧ (main E argv m).manager = m ∧
          (main E argv m).process = none) := by
  refine ⟨parseArgv_copies E, startSA_eq_main E, ?_⟩
  intro argv m enough few given
  refine ⟨?_, ?_⟩
  · intro n event
    constructor
    · intro goesOn
      have stored := goesOn.stored
      by_cases accepted : ∃ n event, Accepts E (cStr (argv.getD (indices argv).2 [])) n event
      · obtain ⟨n', event', accepts⟩ := accepted
        rw [main_of_accepts m enough few given accepts] at stored
        cases stored
        exact accepts
      · rw [main_of_rejected m invalid enough few given accepted] at stored
        cases stored
    · exact goesOn_of_accepts m enough few given
  · intro rejects
    rw [main_of_rejected m invalid enough few given rejects]
    exact ⟨rfl, rfl, rfl⟩

/-- The number a decimal text denotes, if an `int` can hold it. -/
def exactStrToInt (text : StdString) : Option Int32 :=
  if Decimal.ofInt (Decimal.read text) = text ∧ Signed.Fits 32 (Decimal.read text) then
    some (Int32.ofInt (Decimal.read text))
  else none

/-- Libraries with some range of ids, and an `atoi` that gives 0 on overflow. -/
def exactEnv : Env := ⟨1, 16777215, exactStrToInt, fun _ => 0⟩

/-- An event for the ability 401, with an empty value and text after the last `#`. -/
def screenOn : Parts where
  saId := Decimal.ofInt 401
  id := Decimal.ofInt 4
  name := StdString.literal "usual.event.SCREEN_ON"
  value := []
  extraDataId := Decimal.ofInt 410
  rest := StdString.literal "tail"

/-- A command line with an event argument. -/
def eventArgv (argument : StdString) : List StdString :=
  [StdString.literal "sa_main", StdString.literal "/system/profile/foo.json", argument]

theorem screenOn_accepts :
    Accepts exactEnv (cStr screenOn.argument) 401 (screenOn.event exactEnv) := by
  have whole : cStr screenOn.argument = screenOn.argument := by decide
  rw [whole]
  refine ⟨by decide, by decide, ⟨screenOn, rfl, by decide, ?_, rfl⟩, by decide⟩
  change exactStrToInt (Decimal.ofInt 401) = some 401
  rw [exactStrToInt, Decimal.read_ofInt]
  rfl

/-- The argument without its last `#`. -/
def truncated : StdString := StdString.literal "401#4#usual.event.SCREEN_ON##410"

theorem truncated_rejected (n : Int32) (event : Json) :
    ¬Accepts exactEnv (cStr truncated) n event := by
  intro accepts
  exact absurd accepts.hashes (by decide)

theorem eventArgv_valid (argument : StdString) : ValidProfile (eventArgv argument) := by
  change cStr (StdString.literal "/system/profile/foo.json") ≠ [] ∧
    StdString.literal ".json" <:+: cStr (StdString.literal "/system/profile/foo.json")
  exact ⟨by decide, by decide⟩

theorem main_accepts_iff_screenOn :
    ((main exactEnv (eventArgv screenOn.argument) ⟨fun _ => none⟩).process =
        some (StdString.literal "/system/profile/foo.json", 401) ∧
      (main exactEnv (eventArgv screenOn.argument) ⟨fun _ => none⟩).manager.saIdToStartReason 401 =
        some (screenOn.event exactEnv)) ∧
    (main exactEnv (eventArgv truncated) ⟨fun _ => none⟩).stored = none ∧
    (main exactEnv (eventArgv truncated) ⟨fun _ => none⟩).process = none := by
  obtain ⟨-, -, accepts⟩ := main_accepts_iff exactEnv (by decide)
  have first := (accepts (eventArgv screenOn.argument) ⟨fun _ => none⟩ (by decide) (by decide)
    (by decide)).1 401 (screenOn.event exactEnv)
  have second := (accepts (eventArgv truncated) ⟨fun _ => none⟩ (by decide) (by decide)
    (by decide)).2
  have place : (indices (eventArgv screenOn.argument)).2 = 2 := by decide
  have place' : (indices (eventArgv truncated)).2 = 2 := by decide
  have path : cStr ((eventArgv screenOn.argument).getD 1 []) =
      StdString.literal "/system/profile/foo.json" := by decide
  rw [place] at first
  rw [place'] at second
  have goesOn := first.mpr screenOn_accepts
  have started := goesOn.started (eventArgv_valid screenOn.argument)
  rw [path] at started
  have rejects : ¬∃ n event, Accepts exactEnv (cStr ((eventArgv truncated).getD 2 [])) n event := by
    rintro ⟨n, event, accepts⟩
    exact truncated_rejected n event accepts
  obtain ⟨stored, -, process⟩ := second rejects
  exact ⟨⟨started, goesOn.reason⟩, stored, process⟩

end EventGrammar
