import Mathlib.Data.List.TakeWhile
import Safwk.Library.Fifo
import Safwk.OnDemandReason

/-!
# Reasons through a parcel

A parcel gives back what was written to it, in order. Then the want map survives
being flattened and inserted again, and with it the extra data. The reason as a
whole comes back exactly when the reader knows its id: `UNREF_EVENT` is a member of
the C++ enumeration that the reader's match leaves out.
-/

namespace ReasonParcel

open Fifo OnDemandReason

inductive Item where
  | string (s : String)
  | i32 (n : Int32)
  | i64 (n : Int64)
  | parcelable (extraData : OnDemandReasonExtraData)

variable {σ : Type} {parcel : MsgParcel σ} {contents : σ → List Item}

/-- What was written is read back in order. -/
structure Lawful (parcel : MsgParcel σ) (contents : σ → List Item) : Prop where
  writeString : ∀ s, Appends contents (parcel.writeString s) [.string s]
  readString : ∀ s, Reads contents parcel.readString [.string s] s
  writeI32 : ∀ n, Appends contents (parcel.writeI32 n) [.i32 n]
  readI32 : ∀ n, Reads contents parcel.readI32 [.i32 n] n
  writeI64 : ∀ n, Appends contents (parcel.writeI64 n) [.i64 n]
  readI64 : ∀ n, Reads contents parcel.readI64 [.i64 n] n
  writeParcelable : ∀ x s s', parcel.writeParcelable x s = (true, s') →
    contents s' = contents s ++ [.parcelable x]
  readParcelable : ∀ x s rest, contents s = .parcelable x :: rest →
    ∃ s', parcel.readParcelable s = (some x, s') ∧ contents s' = rest

/-- The parcel takes every write. -/
structure Accepting (parcel : MsgParcel σ) : Prop where
  writeString : ∀ s, Accepts (parcel.writeString s)
  writeI32 : ∀ n, Accepts (parcel.writeI32 n)
  writeI64 : ∀ n, Accepts (parcel.writeI64 n)
  writeParcelable : ∀ x s, ∃ s', parcel.writeParcelable x s = (true, s')

def NulFree (s : String) : Prop := nul ∉ s.toList

instance (s : String) : Decidable (NulFree s) := inferInstanceAs (Decidable (nul ∉ s.toList))

structure NulFreeWant (map : WantMap) : Prop where
  key : ∀ entry ∈ map.entries, NulFree entry.1
  value : ∀ entry ∈ map.entries, NulFree entry.2

structure NulFreeReason (reason : SystemAbilityOnDemandReason) : Prop where
  name : NulFree reason.reasonName
  value : NulFree reason.reasonValue
  data : NulFree reason.extraData.data
  want : NulFreeWant reason.extraData.want

theorem cString_of_nulFree {s : String} (free : NulFree s) : cString s = s := by
  have whole : s.toList.takeWhile (· != nul) = s.toList := by
    apply List.takeWhile_eq_self_iff.mpr
    intro c member
    exact bne_iff_ne.mpr (ne_of_mem_of_not_mem member free)
  rw [cString, whole, String.ofList_toList]

theorem nulFree_cString (s : String) : NulFree (cString s) := by
  intro member
  rw [cString, String.toList_ofList] at member
  have different := List.mem_takeWhile_imp member
  exact bne_iff_ne.mp different rfl

theorem cString_cString (s : String) : cString (cString s) = cString s :=
  cString_of_nulFree (nulFree_cString s)

/-- The pairs of a flattened map are its entries, as C strings. -/
theorem pairs_flattenWant (map : WantMap) :
    pairs (flattenWant map) = map.entries.map fun entry => (cString entry.1, cString entry.2) := by
  rw [flattenWant]
  induction map.entries with
  | nil => rfl
  | cons entry rest ih =>
    simp only [List.flatMap_cons, List.cons_append, List.nil_append, pairs, cString_cString, ih,
      List.map_cons]

theorem entries_cString {map : WantMap} (free : NulFreeWant map) :
    (map.entries.map fun entry => (cString entry.1, cString entry.2)) = map.entries := by
  conv_rhs => rw [← List.map_id map.entries]
  apply List.map_congr_left
  intro entry member
  rw [cString_of_nulFree (free.key entry member), cString_of_nulFree (free.value entry member)]
  rfl

theorem pairs_flattenWant_nulFree {map : WantMap} (free : NulFreeWant map) :
    pairs (flattenWant map) = map.entries := by
  rw [pairs_flattenWant, entries_cString free]

theorem wantMap_flattenWant {map : WantMap} (free : NulFreeWant map) :
    wantMap (flattenWant map) = map := by
  rw [wantMap, pairs_flattenWant_nulFree free, SortedMap.ofList_entries]

/-- The C++ extra data that `SerializeOnDemandReasonExtraData` hands to the parcel. -/
def carried (extraData : Rust.OnDemandReasonExtraData) : OnDemandReasonExtraData :=
  { code := extraData.code, data := extraData.data, want := wantMap extraData.want }

theorem serialize_carried (extraData : Rust.OnDemandReasonExtraData) :
    serializeOnDemandReasonExtraData parcel extraData =
      parcel.writeParcelable (carried extraData) :=
  rfl

theorem accepts_extraData (accepting : Accepting parcel)
    (extraData : Rust.OnDemandReasonExtraData) : Accepts (extraData.serialize parcel) := by
  intro s
  obtain ⟨s', written⟩ := accepting.writeParcelable (carried extraData) s
  refine ⟨s', ?_⟩
  simp only [Rust.OnDemandReasonExtraData.serialize, serialize_carried, written]

theorem appends_extraData (lawful : Lawful parcel contents)
    (extraData : Rust.OnDemandReasonExtraData) :
    Appends contents (extraData.serialize parcel) [.parcelable (carried extraData)] := by
  intro s s' ran
  simp only [Rust.OnDemandReasonExtraData.serialize, serialize_carried] at ran
  split at ran
  · rename_i s'' written
    cases ran
    exact lawful.writeParcelable _ _ _ written
  · cases ran

theorem reads_extraData (lawful : Lawful parcel contents) (carried : OnDemandReasonExtraData) :
    Reads contents (Rust.OnDemandReasonExtraData.deserialize parcel) [.parcelable carried]
      { data := carried.data, code := carried.code, want := flattenWant carried.want } := by
  intro s rest front
  obtain ⟨s', read, left⟩ := lawful.readParcelable carried s rest front
  refine ⟨s', ?_, left⟩
  simp only [Rust.OnDemandReasonExtraData.deserialize, deserializeOnDemandReasonExtraData,
    bind, StateT.bind, read]
  rfl

/-- The extra data that `BuildReasonWrapper` makes come back as they were. -/
theorem roundTrip_extraData (lawful : Lawful parcel contents)
    {reason : SystemAbilityOnDemandReason} (free : NulFreeReason reason) :
    Reads contents (Rust.OnDemandReasonExtraData.deserialize parcel)
      [.parcelable (carried (buildReasonWrapper reason).extraData)]
      (buildReasonWrapper reason).extraData := by
  have read := reads_extraData lawful (carried (buildReasonWrapper reason).extraData)
  simp only [carried, buildReasonWrapper, wantMap_flattenWant free.want] at read ⊢
  exact read

theorem reads_id (lawful : Lawful parcel contents) {id : OnDemandReasonId}
    (known : id ≠ .unrefEvent) :
    Reads contents (Rust.OnDemandReasonId.deserialize parcel) [.i32 id.value] ⟨id.value⟩ := by
  rw [← List.append_nil [Item.i32 id.value]]
  apply Reads.bind (lawful.readI32 id.value)
  cases id with
  | unrefEvent => exact absurd rfl known
  | _ => exact Reads.pure _

/-- The reader has no case for the number of `UNREF_EVENT`. -/
theorem fails_unrefEvent (lawful : Lawful parcel contents) :
    Fails contents (Rust.OnDemandReasonId.deserialize parcel)
      [.i32 OnDemandReasonId.unrefEvent.value] .failed := by
  rw [← List.append_nil [Item.i32 _]]
  apply Reads.bind_fails (lawful.readI32 _)
  intro s rest front
  exact ⟨s, rfl⟩

/-- What a written reason leaves in the parcel. -/
def items (reason : Rust.SystemAbilityOnDemandReason) : List Item :=
  [.string reason.name] ++ ([.string reason.value] ++ ([.i32 reason.reasonId.repr] ++
    ([.parcelable (carried reason.extraData)] ++ [.i64 reason.extraDataId])))

theorem accepts_reason (accepting : Accepting parcel)
    (reason : Rust.SystemAbilityOnDemandReason) : Accepts (reason.serialize parcel) := by
  apply Accepts.seq (accepting.writeString _)
  apply Accepts.seq (accepting.writeString _)
  apply Accepts.seq (accepting.writeI32 _)
  apply Accepts.seq (accepts_extraData accepting _)
  exact accepting.writeI64 _

theorem appends_reason (lawful : Lawful parcel contents)
    (reason : Rust.SystemAbilityOnDemandReason) :
    Appends contents (reason.serialize parcel) (items reason) := by
  apply Appends.seq (lawful.writeString _)
  apply Appends.seq (lawful.writeString _)
  apply Appends.seq (lawful.writeI32 _)
  apply Appends.seq (appends_extraData lawful _)
  exact lawful.writeI64 _

theorem reads_reason (lawful : Lawful parcel contents) {reason : SystemAbilityOnDemandReason}
    (free : NulFreeReason reason) (known : reason.reasonId ≠ .unrefEvent) :
    Reads contents (Rust.SystemAbilityOnDemandReason.deserialize parcel)
      (items (buildReasonWrapper reason)) (buildReasonWrapper reason) := by
  apply Reads.bind (lawful.readString _)
  apply Reads.bind (lawful.readString _)
  apply Reads.bind (reads_id lawful known)
  apply Reads.bind (roundTrip_extraData lawful free)
  rw [← List.append_nil [Item.i64 _]]
  apply Reads.bind (lawful.readI64 _)
  exact Reads.pure _

theorem fails_reason (lawful : Lawful parcel contents) {reason : SystemAbilityOnDemandReason}
    (unref : reason.reasonId = .unrefEvent) :
    Fails contents (Rust.SystemAbilityOnDemandReason.deserialize parcel)
      (items (buildReasonWrapper reason)) .failed := by
  apply Reads.bind_fails (lawful.readString _)
  apply Reads.bind_fails (lawful.readString _)
  apply Fails.bind
  simp only [buildReasonWrapper, unref]
  exact fails_unrefEvent lawful

/-- Writing the reason to the parcel and reading it back both succeed, and what is read
equals what was written. -/
def Survives (parcel : MsgParcel σ) (s : σ) (reason : Rust.SystemAbilityOnDemandReason) : Prop :=
  ∃ s' s'', reason.serialize parcel s = .ok () s' ∧
    Rust.SystemAbilityOnDemandReason.deserialize parcel s' = .ok reason s''

theorem not_survives (lawful : Lawful parcel contents) {reason : SystemAbilityOnDemandReason}
    (unref : reason.reasonId = .unrefEvent) {s : σ} (empty : contents s = []) :
    ¬Survives parcel s (buildReasonWrapper reason) := by
  rintro ⟨s', s'', written, read⟩
  have front := appends_reason lawful _ s s' written
  rw [empty, List.nil_append] at front
  obtain ⟨left, failed⟩ := fails_reason lawful unref s' [] (by rw [front, List.append_nil])
  rw [failed] at read
  cases read

/-- A converted reason survives a parcel exactly when its id is not `UNREF_EVENT`. -/
theorem survives_iff (lawful : Lawful parcel contents) (accepting : Accepting parcel)
    (reason : SystemAbilityOnDemandReason) (free : NulFreeReason reason) (s : σ)
    (empty : contents s = []) :
    Survives parcel s (buildReasonWrapper reason) ↔ reason.reasonId ≠ .unrefEvent := by
  constructor
  · intro survives unref
    exact not_survives lawful unref empty survives
  · intro known
    obtain ⟨s', written⟩ := accepts_reason accepting (buildReasonWrapper reason) s
    have front := appends_reason lawful _ s s' written
    rw [empty, List.nil_append] at front
    obtain ⟨s'', read, -⟩ :=
      reads_reason lawful free known s' [] (by rw [front, List.append_nil])
    exact ⟨s', s'', written, read⟩

/-- A parcel that is the list of its unread items. -/
def itemParcel : MsgParcel (List Item) where
  writeString s := fun items => .ok () (items ++ [.string s])
  readString
    | .string s :: rest => .ok s rest
    | items => .error (.other 1) items
  writeI32 n := fun items => .ok () (items ++ [.i32 n])
  readI32
    | .i32 n :: rest => .ok n rest
    | items => .error (.other 1) items
  writeI64 n := fun items => .ok () (items ++ [.i64 n])
  readI64
    | .i64 n :: rest => .ok n rest
    | items => .error (.other 1) items
  writeParcelable x := fun items => (true, items ++ [.parcelable x])
  readParcelable
    | .parcelable x :: rest => (some x, rest)
    | items => (none, items)

theorem lawful_itemParcel : Lawful itemParcel id where
  writeString s items items' written := by
    cases written
    rfl
  readString s items rest front := by
    cases front
    exact ⟨rest, rfl, rfl⟩
  writeI32 n items items' written := by
    cases written
    rfl
  readI32 n items rest front := by
    cases front
    exact ⟨rest, rfl, rfl⟩
  writeI64 n items items' written := by
    cases written
    rfl
  readI64 n items rest front := by
    cases front
    exact ⟨rest, rfl, rfl⟩
  writeParcelable x items items' written := by
    cases written
    rfl
  readParcelable x items rest front := by
    cases front
    exact ⟨rest, rfl, rfl⟩

theorem accepting_itemParcel : Accepting itemParcel where
  writeString _ _ := ⟨_, rfl⟩
  writeI32 _ _ := ⟨_, rfl⟩
  writeI64 _ _ := ⟨_, rfl⟩
  writeParcelable _ _ := ⟨_, rfl⟩

/-- A common event that carries two wants. -/
def commonEvent : SystemAbilityOnDemandReason :=
  { reasonId := .commonEvent
    reasonName := "usual.event.SCREEN_ON"
    reasonValue := ""
    extraDataId := 3
    extraData :=
      { code := 7
        data := "payload"
        want := SortedMap.ofList [("b", "2"), ("a", "1")] } }

theorem commonEvent_nulFree : NulFreeReason commonEvent where
  name := by decide
  value := by decide
  data := by decide
  want := ⟨by decide, by decide⟩

theorem survives_iff_commonEvent : Survives itemParcel [] (buildReasonWrapper commonEvent) :=
  (survives_iff lawful_itemParcel accepting_itemParcel commonEvent commonEvent_nulFree []
    rfl).mpr (by decide)

def unrefEvent : SystemAbilityOnDemandReason :=
  { commonEvent with reasonId := .unrefEvent }

theorem unrefEvent_lost :
    Lawful itemParcel id ∧ Accepting itemParcel ∧ NulFreeReason unrefEvent ∧
      ¬Survives itemParcel [] (buildReasonWrapper unrefEvent) := by
  refine ⟨lawful_itemParcel, accepting_itemParcel, { commonEvent_nulFree with }, ?_⟩
  exact not_survives lawful_itemParcel rfl rfl

end ReasonParcel
