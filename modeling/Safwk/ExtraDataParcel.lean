import Mathlib.Data.List.Lex
import Safwk.Library.Fifo
import Safwk.Library.SortedMap
import Safwk.Json

/-!
# Extra data in a parcel

`Marshalling` writes the code, the data and the want map of an
`OnDemandReasonExtraData`, the map as the text of a JSON object. `Unmarshalling` reads the
three fields back. Here strings are bytes, as a parcel can hold any.

The parcel and the JSON library are parameters. Of the library it is assumed that its
objects have no key twice and, for the round trip, that a text it prints for an object of
strings, or for null, is parsed as what was printed. Printing raises an exception if
a string is no valid UTF-8; text that is no JSON is parsed as null.

The loop over the parsed value is written for objects. An iterator visits the elements of
an array too, and any other value but null once, but only the iterator of an object
has a key.
-/

/-- `std::string` compares its bytes as unsigned numbers. -/
instance byteLinearOrder : LinearOrder UInt8 where
  le_refl := UInt8.le_refl
  le_trans _ _ _ := UInt8.le_trans
  le_antisymm _ _ := UInt8.le_antisymm
  le_total := UInt8.le_total
  lt_iff_le_not_ge a b := by
    rw [UInt8.lt_iff_toNat_lt, UInt8.le_iff_toNat_le, UInt8.le_iff_toNat_le]
    omega
  toDecidableLE := inferInstance
  toDecidableEq := inferInstance
  toDecidableLT := inferInstance

namespace ExtraDataParcel

open Fifo

/-- `std::map<std::string, std::string>` -/
abbrev WantMap := SortedMap StdString StdString

structure OnDemandReasonExtraData where
  code : Int32
  data : StdString
  want : WantMap

/-- A function returns `false` or a null pointer, or an exception leaves it. -/
inductive Failure where
  | refused
  | raised
  deriving DecidableEq

/-- The members of a `Parcel`. -/
structure Parcel (σ : Type) where
  writeInt32 : Int32 → StateM σ Bool
  readInt32 : StateM σ (Option Int32)
  writeString : StdString → StateM σ Bool
  readString : StateM σ (Option StdString)

/-- The JSON library: `dump`, which may raise an exception, and the parser. -/
structure JsonText where
  dump : Json → Option StdString
  stringToJsonObj : StdString → Json
  distinct : ∀ text members, stringToJsonObj text = .object members →
    (members.map Prod.fst).Nodup

section

variable {σ α : Type}

/-- `if (!...) return false;` -/
def orFalse (write : StateM σ Bool) : EStateM Failure σ Unit := fun s =>
  match write s with
  | (true, s') => .ok () s'
  | (false, s') => .error .refused s'

/-- `if (!...) return nullptr;` -/
def orNull (read : StateM σ (Option α)) : EStateM Failure σ α := fun s =>
  match read s with
  | (some value, s') => .ok value s'
  | (none, s') => .error .refused s'

/-- The `ReadString` without an argument, which gives the empty string if it fails. -/
def orEmpty (read : StateM σ (Option StdString)) : EStateM Failure σ StdString := fun s =>
  match read s with
  | (text, s') => .ok (text.getD []) s'

variable (parcel : Parcel σ) (json : JsonText)

/-! ## Writing -/

/-- The value that the loop over the map makes; it stays null if the map is empty. -/
def payload (want : WantMap) : Json :=
  want.entries.foldl (fun payload entry => payload.assign entry.1 (.string entry.2)) .null

def marshalling (extraData : OnDemandReasonExtraData) : EStateM Failure σ Unit := do
  orFalse (parcel.writeInt32 extraData.code)
  orFalse (parcel.writeString extraData.data)
  match json.dump (payload extraData.want) with
  | none => throw .raised
  | some text => orFalse (parcel.writeString text)

/-! ## Reading -/

/-- What an iterator visits, with its `key()` where it has one. -/
def visited : Json → List (Option StdString × Json)
  | .null => []
  | .object members => members.map fun member => (some member.1, member.2)
  | .array elements => elements.map fun element => (none, element)
  | primitive => [(none, primitive)]

/-- The loop over the payload; `key()` raises an exception where there is no key. -/
def collect (want : WantMap) : List (Option StdString × Json) → Option WantMap
  | [] => some want
  | (key, .string text) :: rest =>
    match key with
    | none => none
    | some key => collect (want.assign key text) rest
  | _ :: rest => collect want rest

def unmarshalling : EStateM Failure σ OnDemandReasonExtraData := do
  let code ← orNull parcel.readInt32
  let data ← orNull parcel.readString
  let payload := json.stringToJsonObj (← orEmpty parcel.readString)
  match collect SortedMap.empty (visited payload) with
  | none => throw .raised
  | some want => return { code, data, want }

end

/-! ## What the loop collects -/

/-- The text of a member that is a string. -/
def stringMember (payload : Json) (key : StdString) : Option StdString :=
  (payload.member key).bind Json.text

/-- No string is visited that has no key. -/
def Keyed : Json → Prop
  | .string _ => False
  | .array elements => ∀ element ∈ elements, element.text = none
  | _ => True

/-- One turn of the loop. -/
theorem collect_cons (want : WantMap) (key : Option StdString) (value : Json)
    (rest : List (Option StdString × Json)) :
    collect want ((key, value) :: rest) =
      match value.text, key with
      | none, _ => collect want rest
      | some _, none => none
      | some text, some key => collect (want.assign key text) rest := by
  cases value <;> cases key <;> rfl

theorem collect_keyless (want : WantMap) {values : List Json}
    (noText : ∀ value ∈ values, value.text = none) :
    collect want (values.map fun value => (none, value)) = some want := by
  induction values with
  | nil => rfl
  | cons value rest ih =>
    rw [List.map_cons, collect_cons, noText value List.mem_cons_self]
    exact ih fun other member => noText other (List.mem_cons_of_mem value member)

/-- The first string without a key ends the loop. -/
theorem collect_keyless_raised (want : WantMap) {values : List Json} {value : Json}
    (member : value ∈ values) (isText : value.text ≠ none) :
    collect want (values.map fun value => (none, value)) = none := by
  induction values with
  | nil => cases member
  | cons first rest ih =>
    rw [List.map_cons, collect_cons]
    cases firstText : first.text with
    | some text => rfl
    | none =>
      rcases List.mem_cons.mp member with rfl | member
      · exact absurd firstText isText
      · exact ih member

/-- Of an object the members that are strings are collected. The induction is over the
members; a key that has been assigned does not come again. -/
theorem collect_members (want : WantMap) {members : List (StdString × Json)}
    (distinct : (members.map Prod.fst).Nodup) :
    ∃ want', collect want (members.map fun member => (some member.1, member.2)) = some want' ∧
      ∀ key, want'.entries.lookup key =
        ((members.lookup key).bind Json.text).or (want.entries.lookup key) := by
  induction members generalizing want with
  | nil => exact ⟨want, rfl, fun key => rfl⟩
  | cons first rest ih =>
    obtain ⟨k, value⟩ := first
    obtain ⟨isNew, distinct⟩ := List.nodup_cons.mp distinct
    have absent : rest.lookup k = none := by
      apply List.lookup_eq_none_iff.mpr
      intro member inRest
      exact bne_iff_ne.mpr (ne_of_mem_of_not_mem (List.mem_map_of_mem inRest) isNew).symm
    rw [List.map_cons, collect_cons]
    cases isText : value.text with
    | none =>
      obtain ⟨want', collected, found⟩ := ih want distinct
      refine ⟨want', collected, ?_⟩
      intro key
      rw [found, List.lookup_cons]
      by_cases same : key = k
      · simp [same, absent, isText]
      · have different : (key == k) = false := beq_eq_false_iff_ne.mpr same
        rw [different]
    | some text =>
      obtain ⟨want', collected, found⟩ := ih (want.assign k text) distinct
      refine ⟨want', collected, ?_⟩
      intro key
      rw [found, List.lookup_cons, SortedMap.lookup_assign]
      by_cases same : key = k
      · simp [same, absent, isText]
      · have different : (key == k) = false := beq_eq_false_iff_ne.mpr same
        rw [different, if_neg same]

/-- The loop raises an exception exactly if a string without a key is visited. -/
theorem collect_visited {payload : Json}
    (distinct : ∀ members, payload = .object members → (members.map Prod.fst).Nodup) :
    (¬Keyed payload ∧ collect SortedMap.empty (visited payload) = none) ∨
      Keyed payload ∧ ∃ want, collect SortedMap.empty (visited payload) = some want ∧
        ∀ key, want.entries.lookup key = stringMember payload key := by
  cases payload with
  | string value => exact Or.inl ⟨id, rfl⟩
  | array elements =>
    by_cases noText : ∀ element ∈ elements, element.text = none
    · exact Or.inr ⟨noText, SortedMap.empty, collect_keyless _ noText, fun key => rfl⟩
    · refine Or.inl ⟨noText, ?_⟩
      push Not at noText
      obtain ⟨element, member, isText⟩ := noText
      exact collect_keyless_raised _ member isText
  | object members =>
    obtain ⟨want, collected, found⟩ := collect_members SortedMap.empty (distinct members rfl)
    refine Or.inr ⟨trivial, want, collected, ?_⟩
    intro key
    rw [found]
    exact Option.or_none
  -- Null is not visited at all, a number or a truth value is not a string.
  | _ => exact Or.inr ⟨trivial, SortedMap.empty, rfl, fun key => rfl⟩

section

variable {σ : Type} (parcel : Parcel σ) (json : JsonText)

/-- The text of the third field, if the first two can be read. -/
def thirdField (s : σ) : Option StdString :=
  match parcel.readInt32 s with
  | (none, _) => none
  | (some _, s') =>
    match parcel.readString s' with
    | (none, _) => none
    | (some _, s'') => some ((parcel.readString s'').1.getD [])

/-- `Unmarshalling` by what it finds in the three fields. -/
theorem unmarshalling_cases (s : σ) :
    (thirdField parcel s = none ∧ ∃ s', unmarshalling parcel json s = .error .refused s') ∨
      ∃ text code data s', thirdField parcel s = some text ∧
        unmarshalling parcel json s =
          match collect SortedMap.empty (visited (json.stringToJsonObj text)) with
          | none => .error .raised s'
          | some want => .ok { code, data, want } s' := by
  simp only [unmarshalling, thirdField]
  rcases first : parcel.readInt32 s with ⟨_ | code, s₁⟩
  · have failed : orNull parcel.readInt32 s = .error .refused s₁ := by simp only [orNull, first]
    exact Or.inl ⟨rfl, s₁, bind_error failed⟩
  have readCode : orNull parcel.readInt32 s = .ok code s₁ := by simp only [orNull, first]
  rw [bind_ok readCode]
  rcases second : parcel.readString s₁ with ⟨_ | data, s₂⟩
  · have failed : orNull parcel.readString s₁ = .error .refused s₂ := by simp only [orNull, second]
    exact Or.inl ⟨by simp only [second], s₂, bind_error failed⟩
  have readData : orNull parcel.readString s₁ = .ok data s₂ := by simp only [orNull, second]
  rw [bind_ok readData]
  rcases third : parcel.readString s₂ with ⟨text, s₃⟩
  have readText : orEmpty parcel.readString s₂ = .ok (text.getD []) s₃ := by
    simp only [orEmpty, third]
  rw [bind_ok readText]
  refine Or.inr ⟨text.getD [], code, data, s₃, by simp only [second, third], ?_⟩
  cases collect SortedMap.empty (visited (json.stringToJsonObj (text.getD []))) <;> rfl

/-- `Unmarshalling` returns a null pointer, or an object whose want map holds the members
of the third field that are strings. -/
def Total (s : σ) : Prop :=
  (∃ s', unmarshalling parcel json s = .error .refused s') ∨
    ∃ extraData s' text, unmarshalling parcel json s = .ok extraData s' ∧
      thirdField parcel s = some text ∧
      ∀ key, extraData.want.entries.lookup key = stringMember (json.stringToJsonObj text) key

theorem not_total {s s' : σ} (raised : unmarshalling parcel json s = .error .raised s') :
    ¬Total parcel json s := by
  rintro (⟨s'', refused⟩ | ⟨extraData, s'', text, returned, -⟩)
  · rw [raised] at refused
    cases refused
  · rw [raised] at returned
    cases returned

/-- `Unmarshalling` does so unless it gets to a third field that is a JSON string, or an
array with a string in it. -/
theorem unmarshalling_total_iff (s : σ) :
    Total parcel json s ↔
      ∀ text, thirdField parcel s = some text → Keyed (json.stringToJsonObj text) := by
  rcases unmarshalling_cases parcel json s with
    ⟨noField, s', refused⟩ | ⟨text, code, data, s', isField, result⟩
  · refine iff_of_true (Or.inl ⟨s', refused⟩) ?_
    intro text isField
    rw [noField] at isField
    cases isField
  rcases collect_visited (json.distinct text) with
    ⟨notKeyed, raised⟩ | ⟨keyed, want, collected, found⟩
  · rw [raised] at result
    refine iff_of_false (not_total parcel json result) ?_
    intro allKeyed
    exact notKeyed (allKeyed text isField)
  · rw [collected] at result
    apply iff_of_true
    · exact Or.inr ⟨{ code, data, want }, s', text, result, isField, found⟩
    · intro text' isField'
      rw [isField] at isField'
      cases isField'
      exact keyed

end

/-! ## The round trip -/

inductive Item where
  | int32 (n : Int32)
  | string (text : StdString)

section

variable {σ : Type} {parcel : Parcel σ} {contents : σ → List Item} {json : JsonText}

/-- What was written is read back in order. -/
structure Lawful (parcel : Parcel σ) (contents : σ → List Item) : Prop where
  writeInt32 : ∀ n, Appends contents (orFalse (parcel.writeInt32 n)) [.int32 n]
  readInt32 : ∀ n, Reads contents (orNull parcel.readInt32) [.int32 n] n
  writeString : ∀ text, Appends contents (orFalse (parcel.writeString text)) [.string text]
  readString : ∀ text, Reads contents (orNull parcel.readString) [.string text] text

/-- Null, or an object of strings with its keys in order, as the library keeps them. -/
def StringsOnly : Json → Prop
  | .null => True
  | .object members =>
    members.Pairwise (fun a b => a.1 < b.1) ∧ ∀ member ∈ members, member.2.text ≠ none
  | _ => False

/-- What is printed is parsed as what it was. -/
def ParsesBack (json : JsonText) : Prop :=
  ∀ payload text, StringsOnly payload → json.dump payload = some text →
    json.stringToJsonObj text = payload

theorem reads_orEmpty (lawful : Lawful parcel contents) (text : StdString) :
    Reads contents (orEmpty parcel.readString) [.string text] text := by
  intro s rest front
  obtain ⟨s', read, left⟩ := lawful.readString text s rest front
  refine ⟨s', ?_, left⟩
  simp only [orNull] at read
  split at read
  · rename_i found
    cases read
    simp only [orEmpty, found, Option.getD_some]
  · cases read

/-- A successful `Marshalling` has written three fields. -/
theorem marshalling_appends (lawful : Lawful parcel contents)
    {extraData : OnDemandReasonExtraData} {s s' : σ}
    (marshalled : marshalling parcel json extraData s = .ok () s') :
    ∃ text, json.dump (payload extraData.want) = some text ∧
      contents s' = contents s ++ [.int32 extraData.code, .string extraData.data, .string text] := by
  obtain ⟨_, s₁, wroteCode, marshalled⟩ := bind_inv marshalled
  obtain ⟨_, s₂, wroteData, marshalled⟩ := bind_inv marshalled
  cases dumped : json.dump (payload extraData.want) with
  | none =>
    rw [dumped] at marshalled
    cases marshalled
  | some text =>
    rw [dumped] at marshalled
    refine ⟨text, rfl, ?_⟩
    rw [lawful.writeString _ _ _ marshalled, lawful.writeString _ _ _ wroteData,
      lawful.writeInt32 _ _ _ wroteCode, List.append_assoc, List.append_assoc]
    rfl

/-- A member that is a string. -/
def stringEntry (entry : StdString × StdString) : StdString × Json := (entry.1, .string entry.2)

/-- New keys go to the end of an object. -/
theorem foldl_assign (done rest : List (StdString × StdString))
    (sorted : (done ++ rest).Pairwise (fun a b => a.1 < b.1)) :
    rest.foldl (fun payload entry => payload.assign entry.1 (.string entry.2))
        (Json.object (done.map stringEntry)) =
      Json.object ((done ++ rest).map stringEntry) := by
  induction rest generalizing done with
  | nil => rw [List.append_nil, List.foldl_nil]
  | cons entry rest ih =>
    have isNew : (done.map stringEntry).filter (fun member => member.1 != entry.1) =
        done.map stringEntry := by
      apply List.filter_eq_self.mpr
      intro member inDone
      obtain ⟨earlier, isEarlier, rfl⟩ := List.mem_map.mp inDone
      have lower := (List.pairwise_append.mp sorted).2.2 earlier isEarlier entry List.mem_cons_self
      exact bne_iff_ne.mpr (ne_of_lt lower)
    have split : done ++ entry :: rest = (done ++ [entry]) ++ rest := by simp
    rw [split] at sorted ⊢
    rw [List.foldl_cons, Json.assign, isNew, ← ih (done ++ [entry]) sorted, List.map_append]
    rfl

theorem payload_eq (want : WantMap) :
    payload want =
      if want.entries = [] then .null else .object (want.entries.map stringEntry) := by
  obtain ⟨entries, sorted⟩ := want
  cases entries with
  | nil => rfl
  | cons first rest => exact foldl_assign [first] rest sorted

theorem payload_stringsOnly (want : WantMap) : StringsOnly (payload want) := by
  rw [payload_eq]
  split
  · trivial
  · refine ⟨List.pairwise_map.mpr want.sorted, ?_⟩
    intro member inPayload
    obtain ⟨entry, -, rfl⟩ := List.mem_map.mp inPayload
    exact Option.some_ne_none entry.2

theorem payload_keyed (want : WantMap) : Keyed (payload want) := by
  rw [payload_eq]
  split <;> trivial

theorem lookup_stringEntry (entries : List (StdString × StdString)) (key : StdString) :
    (entries.map stringEntry).lookup key = (entries.lookup key).map Json.string := by
  induction entries with
  | nil => rfl
  | cons entry rest ih =>
    rw [List.map_cons, stringEntry, List.lookup_cons, List.lookup_cons, ih]
    split <;> rfl

/-- The members of the payload are the entries of the map. -/
theorem stringMember_payload (want : WantMap) (key : StdString) :
    stringMember (payload want) key = want.entries.lookup key := by
  rw [payload_eq]
  split
  · rename_i empty
    rw [empty]
    rfl
  · rw [stringMember, Json.member, lookup_stringEntry]
    cases want.entries.lookup key <;> rfl

/-- The loop of the reader undoes the loop of the writer. -/
theorem collect_payload (parsesBack : ParsesBack json) {want : WantMap} {text : StdString}
    (dumped : json.dump (payload want) = some text) :
    collect SortedMap.empty (visited (json.stringToJsonObj text)) = some want := by
  have parsed := parsesBack (payload want) text (payload_stringsOnly want) dumped
  rcases collect_visited (json.distinct text) with
    ⟨notKeyed, -⟩ | ⟨-, want', collected, found⟩
  · rw [parsed] at notKeyed
    exact absurd (payload_keyed want) notKeyed
  · have same : want' = want := by
      apply SortedMap.ext_lookup
      intro key
      rw [found, parsed, stringMember_payload]
    rw [collected, same]

/-- What a successful `Marshalling` writes into an empty parcel, `Unmarshalling` reads back. -/
theorem unmarshalling_marshalling (lawful : Lawful parcel contents) (parsesBack : ParsesBack json)
    (extraData : OnDemandReasonExtraData) {s s' : σ} (empty : contents s = [])
    (marshalled : marshalling parcel json extraData s = .ok () s') :
    ∃ s'', unmarshalling parcel json s' = .ok extraData s'' := by
  obtain ⟨text, dumped, written⟩ := marshalling_appends lawful marshalled
  have collected := collect_payload parsesBack dumped
  have reads : Reads contents (unmarshalling parcel json)
      ([.int32 extraData.code] ++ ([.string extraData.data] ++ ([.string text] ++ []))) extraData := by
    apply Reads.bind (lawful.readInt32 _)
    apply Reads.bind (lawful.readString _)
    apply Reads.bind (reads_orEmpty lawful _)
    simp only [collected]
    exact Reads.pure _
  obtain ⟨s'', read, -⟩ := reads s' [] (by rw [written, empty]; rfl)
  exact ⟨s'', read⟩

end

/-! ## Two parcels -/

/-- A parcel that is the list of its unread items. -/
def itemParcel : Parcel (List Item) where
  writeInt32 n := fun items => (true, items ++ [.int32 n])
  readInt32
    | .int32 n :: rest => (some n, rest)
    | items => (none, items)
  writeString text := fun items => (true, items ++ [.string text])
  readString
    | .string text :: rest => (some text, rest)
    | items => (none, items)

theorem lawful_itemParcel : Lawful itemParcel id where
  writeInt32 n items items' written := by
    cases written
    rfl
  readInt32 n items rest front := by
    cases front
    exact ⟨rest, rfl, rfl⟩
  writeString text items items' written := by
    cases written
    rfl
  readString text items rest front := by
    cases front
    exact ⟨rest, rfl, rfl⟩

def oneKey : StdString := StdString.literal "a"

def oneValue : StdString := StdString.literal "1"

/-- The text of an object with one member. -/
def objectText : StdString := StdString.literal "\x7b\"a\":\"1\"\x7d"

/-- The text of an array with one string. -/
def arrayText : StdString := StdString.literal "[\"a\"]"

/-- A library as far as it is asked about these two texts. -/
def smallJson : JsonText where
  dump
    | .object [(k, .string v)] => if k = oneKey ∧ v = oneValue then some objectText else none
    | _ => none
  stringToJsonObj text :=
    if text = objectText then .object [(oneKey, .string oneValue)]
    else if text = arrayText then .array [.string oneKey]
    else .null
  distinct text members parsed := by
    split at parsed
    · cases parsed
      decide
    · split at parsed <;> cases parsed

theorem smallJson_parsesBack : ParsesBack smallJson := by
  intro payload text _ dumped
  simp only [smallJson] at dumped ⊢
  split at dumped
  · split at dumped
    · rename_i isKey
      cases dumped
      rw [if_pos rfl, isKey.1, isKey.2]
    · cases dumped
  · cases dumped

def oneWant : OnDemandReasonExtraData where
  code := 7
  data := StdString.literal "payload"
  want := SortedMap.ofList [(oneKey, oneValue)]

theorem unmarshalling_marshalling_oneWant :
    ∃ s, marshalling itemParcel smallJson oneWant [] = .ok () s ∧
      ∃ s', unmarshalling itemParcel smallJson s = .ok oneWant s' :=
  ⟨_, rfl, unmarshalling_marshalling lawful_itemParcel smallJson_parsesBack oneWant rfl rfl⟩

/-- A third field with a string in an array raises an exception. -/
theorem unmarshalling_raised :
    unmarshalling itemParcel smallJson [.int32 0, .string oneValue, .string arrayText] =
        .error .raised [] ∧
      ¬Total itemParcel smallJson [.int32 0, .string oneValue, .string arrayText] := by
  have raised : unmarshalling itemParcel smallJson [.int32 0, .string oneValue, .string arrayText] =
      .error .raised [] := rfl
  exact ⟨raised, not_total itemParcel smallJson raised⟩

end ExtraDataParcel
