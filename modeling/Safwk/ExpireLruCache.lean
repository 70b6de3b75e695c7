import Mathlib.Data.List.AList
import Mathlib.Data.List.Nodup
import Safwk.Library.Transition

/-!
# The LRU cache with expiry

`ExpireLruCache` keeps its entries in three containers: `data_` and `timestamp_`
are maps, `keys_` lists the keys from the most to the least recently used. Each
operation changes them one after the other under `lock_`.

Operations read the clock more than once: `DoAdd` for the new timestamp, and
every `IsExpired` for itself. `now` gives the readings of one operation in the
order of the calls; nothing is assumed about them here. A map is visited in
the order of its list, not of its keys, which only decides which reading an
entry is compared with.

`none` is undefined behaviour: the last key of an empty list is read, or an
iterator at the end of a container is used.
-/

namespace ExpireLruCache

open Transition

universe u v

variable {κ : Type u} {υ : Type v} [DecidableEq κ]

/-- The members of an `ExpireLruCache`. -/
structure RawCache (κ : Type u) (υ : Type v) where
  size : Nat
  expireTimeMilliSec : Int
  data : AList (fun _ : κ => υ)
  timestamp : AList (fun _ : κ => Int)
  keys : List κ

/-- `DEFAULT_EXPIRE_TIME` -/
def defaultExpireTime : Int := 1000

/-- The constructor. -/
def construct (κ : Type u) (υ : Type v) (cacheSize : Nat) (expireTimeSec : Int) :
    RawCache κ υ where
  size := if 0 < cacheSize then cacheSize else 1
  expireTimeMilliSec := if expireTimeSec < 0 then defaultExpireTime else expireTimeSec
  data := ∅
  timestamp := ∅
  keys := []

/-- `Timestamp::IsExpired` with the reading it makes. -/
def isExpired (now ts interval : Int) : Bool := decide (interval < now - ts)

/-- `std::map::insert`, which keeps an entry that is there. -/
def insertNew {β : Type v} (m : AList (fun _ : κ => β)) (key : κ) (value : β) :
    AList (fun _ : κ => β) :=
  if key ∈ m then m else m.insert key value

/-- `std::find` and `splice` to the front of `keys_`. -/
def moveToFront (keys : List κ) (key : κ) : Option (List κ) :=
  if key ∈ keys then some (key :: keys.erase key) else none

def doRemove (c : RawCache κ υ) (key : κ) : RawCache κ υ :=
  { c with
    keys := c.keys.filter (· ≠ key)
    data := c.data.erase key
    timestamp := c.timestamp.erase key }

def doClear (c : RawCache κ υ) : RawCache κ υ :=
  { c with data := ∅, timestamp := ∅, keys := [] }

/-- The loop of `DoClearExpiredCache` over what it has not visited yet. Erasing
the visited entry leaves the rest of the map alone. -/
def clearExpired (now : Nat → Int) :
    List (Sigma fun _ : κ => Int) → RawCache κ υ → Bool → RawCache κ υ × Bool
  | [], c, ifClear => (c, ifClear)
  | ⟨key, ts⟩ :: rest, c, ifClear =>
    if isExpired (now 0) ts c.expireTimeMilliSec then
      clearExpired (fun i => now (i + 1)) rest
        { c with
          keys := c.keys.filter (· ≠ key)
          data := c.data.erase key
          timestamp := c.timestamp.erase key } true
    else clearExpired (fun i => now (i + 1)) rest c ifClear

def doClearExpiredCache (now : Nat → Int) (c : RawCache κ υ) : RawCache κ υ × Bool :=
  clearExpired now c.timestamp.entries c false

/-- `keys_.back()` and the three removals after it. -/
def dropBack (c : RawCache κ υ) : Option (RawCache κ υ) :=
  match c.keys.getLast? with
  | none => none
  | some lruKey =>
    some { c with
      data := c.data.erase lruKey
      timestamp := c.timestamp.erase lruKey
      keys := c.keys.dropLast }

/-- What `DoAdd` does for an absent key before it inserts the new entry. -/
def makeRoom (now : Nat → Int) (c : RawCache κ υ) : Option (RawCache κ υ) :=
  if c.size ≤ c.data.keys.length then
    let (c, ifClearExpiredCache) :=
      if 0 < c.expireTimeMilliSec then doClearExpiredCache now c else (c, false)
    if ifClearExpiredCache = false then dropBack c else some c
  else some c

def doAdd (now : Nat → Int) (c : RawCache κ υ) (key : κ) (value : υ) : Option (RawCache κ υ) :=
  if key ∈ c.data then
    -- erasing `timestampIter` needs an entry there
    if key ∈ c.timestamp then
      (moveToFront c.keys key).map fun keys => { c with
        data := insertNew (c.data.erase key) key value
        timestamp := insertNew (c.timestamp.erase key) key (now 0)
        keys := keys }
    else none
  else
    (makeRoom (fun i => now (i + 1)) c).map fun c => { c with
      data := insertNew c.data key value
      timestamp := insertNew c.timestamp key (now 0)
      keys := key :: c.keys }

def doGet (now : Nat → Int) (c : RawCache κ υ) (key : κ) : Option (RawCache κ υ × Option υ) :=
  match c.data.lookup key with
  | none => some (c, none)
  | some value =>
    match c.timestamp.lookup key with
    | none => none
    | some ts =>
      if 0 < c.expireTimeMilliSec ∧ isExpired (now 0) ts c.expireTimeMilliSec = true then
        some ({ c with
          data := c.data.erase key
          timestamp := c.timestamp.erase key
          keys := c.keys.filter (· ≠ key) }, none)
      else (moveToFront c.keys key).map fun keys => ({ c with keys := keys }, some value)

inductive Op (κ : Type u) (υ : Type v) where
  | add (key : κ) (value : υ)
  | get (key : κ)
  | remove (key : κ)
  | clear
  deriving DecidableEq

/-- An operation with what it returns; only `Get` returns something. -/
def exec (now : Nat → Int) (c : RawCache κ υ) : Op κ υ → Option (RawCache κ υ × Option υ)
  | .add key value => (doAdd now c key value).map fun c => (c, none)
  | .get key => doGet now c key
  | .remove key => some (doRemove c key, none)
  | .clear => some (doClear c, none)

/-! ## The representation invariant -/

structure WellFormed (c : RawCache κ υ) : Prop where
  data : ∀ key, key ∈ c.data ↔ key ∈ c.keys
  timestamp : ∀ key, key ∈ c.timestamp ↔ key ∈ c.keys
  nodup : c.keys.Nodup
  room : c.keys.length ≤ c.size
  size : 1 ≤ c.size

omit [DecidableEq κ] in
theorem construct_wellFormed (cacheSize : Nat) (expireTimeSec : Int) :
    WellFormed (construct κ υ cacheSize expireTimeSec) := by
  constructor
  · simp [construct]
  · simp [construct]
  · exact List.nodup_nil
  · simp [construct]
  · simp only [construct]
    split <;> omega

omit [DecidableEq κ] in
/-- The two maps have as many entries as there are keys. -/
theorem WellFormed.data_length {c : RawCache κ υ} (wf : WellFormed c) :
    c.data.keys.length = c.keys.length := by
  apply List.Perm.length_eq
  apply (List.perm_ext_iff_of_nodup c.data.keys_nodup wf.nodup).mpr
  intro key
  exact AList.mem_keys.symm.trans (wf.data key)

/-- From `c` to `c'` some entries were dropped and nothing else happened. -/
structure Shrunk (c c' : RawCache κ υ) : Prop where
  size : c'.size = c.size
  expireTimeMilliSec : c'.expireTimeMilliSec = c.expireTimeMilliSec
  keys : c'.keys.Sublist c.keys
  data : ∀ key ∈ c'.keys, c'.data.lookup key = c.data.lookup key
  timestamp : ∀ key ∈ c'.keys, c'.timestamp.lookup key = c.timestamp.lookup key

theorem Shrunk.refl (c : RawCache κ υ) : Shrunk c c :=
  ⟨rfl, rfl, List.Sublist.refl _, fun _ _ => rfl, fun _ _ => rfl⟩

theorem Shrunk.trans {c c' c'' : RawCache κ υ} (first : Shrunk c c') (second : Shrunk c' c'') :
    Shrunk c c'' := by
  constructor
  · exact second.size.trans first.size
  · exact second.expireTimeMilliSec.trans first.expireTimeMilliSec
  · exact second.keys.trans first.keys
  · intro key member
    exact (second.data key member).trans (first.data key (second.keys.subset member))
  · intro key member
    exact (second.timestamp key member).trans (first.timestamp key (second.keys.subset member))

/-- Erasing from both maps all keys that leave the list keeps the invariant. -/
theorem WellFormed.erase {c : RawCache κ υ} (wf : WellFormed c) (key : κ) {keys : List κ}
    (sublist : keys.Sublist c.keys) (kept : ∀ other, other ∈ keys ↔ other ≠ key ∧ other ∈ c.keys) :
    WellFormed { c with
      data := c.data.erase key, timestamp := c.timestamp.erase key, keys := keys } ∧
    Shrunk c { c with
      data := c.data.erase key, timestamp := c.timestamp.erase key, keys := keys } := by
  constructor
  · constructor
    · intro other
      rw [AList.mem_erase, wf.data, kept]
    · intro other
      rw [AList.mem_erase, wf.timestamp, kept]
    · exact wf.nodup.sublist sublist
    · exact le_trans sublist.length_le wf.room
    · exact wf.size
  · refine ⟨rfl, rfl, sublist, ?_, ?_⟩
    · intro other member
      exact AList.lookup_erase_ne ((kept other).mp member).1
    · intro other member
      exact AList.lookup_erase_ne ((kept other).mp member).1

theorem doRemove_wellFormed {c : RawCache κ υ} (wf : WellFormed c) (key : κ) :
    WellFormed (doRemove c key) ∧ Shrunk c (doRemove c key) := by
  apply wf.erase key List.filter_sublist
  intro other
  simp [and_comm]

omit [DecidableEq κ] in
theorem doClear_wellFormed {c : RawCache κ υ} (wf : WellFormed c) : WellFormed (doClear c) := by
  constructor
  · simp [doClear]
  · simp [doClear]
  · exact List.nodup_nil
  · simp [doClear]
  · exact wf.size

/-- Removing a key that is there makes the list shorter. -/
theorem doRemove_length {c : RawCache κ υ} {key : κ} (member : key ∈ c.keys) :
    (doRemove c key).keys.length < c.keys.length := by
  apply List.length_filter_lt_length_iff_exists.mpr
  exact ⟨key, member, by simp⟩

theorem clearExpired_reported (now : Nat → Int) (visited : List (Sigma fun _ : κ => Int))
    (c : RawCache κ υ) : (clearExpired now visited c true).2 = true := by
  induction visited generalizing now c with
  | nil => rfl
  | cons entry rest ih =>
    simp only [clearExpired]
    split <;> exact ih _ _

/-- A loop that reports nothing has changed nothing. -/
theorem clearExpired_unchanged (now : Nat → Int) (visited : List (Sigma fun _ : κ => Int))
    (c : RawCache κ υ) (nothing : (clearExpired now visited c false).2 = false) :
    (clearExpired now visited c false).1 = c := by
  induction visited generalizing now with
  | nil => rfl
  | cons entry rest ih =>
    simp only [clearExpired] at nothing ⊢
    split at nothing
    · rw [clearExpired_reported] at nothing
      cases nothing
    · rename_i live
      rw [if_neg live]
      exact ih _ nothing

/-- The loop drops entries, at least one if it reports so. -/
theorem clearExpired_wellFormed (now : Nat → Int) (visited : List (Sigma fun _ : κ => Int))
    {c : RawCache κ υ} (wf : WellFormed c) (ifClear : Bool)
    (distinct : visited.NodupKeys) (stored : ∀ key ∈ visited.keys, key ∈ c.keys) :
    WellFormed (clearExpired now visited c ifClear).1 ∧
    Shrunk c (clearExpired now visited c ifClear).1 ∧
    ((clearExpired now visited c ifClear).2 = true →
      ifClear = true ∨ (clearExpired now visited c ifClear).1.keys.length < c.keys.length) := by
  induction visited generalizing now c ifClear with
  | nil => exact ⟨wf, Shrunk.refl c, Or.inl⟩
  | cons entry rest ih =>
    obtain ⟨key, ts⟩ := entry
    obtain ⟨fresh, distinct⟩ := List.nodupKeys_cons.mp distinct
    simp only [clearExpired]
    split
    · obtain ⟨removed, shrunk⟩ := doRemove_wellFormed wf key
      have shorter : (doRemove c key).keys.length < c.keys.length :=
        doRemove_length (stored key (by simp))
      have still : ∀ other ∈ rest.keys, other ∈ (doRemove c key).keys := by
        intro other member
        have different : other ≠ key := fun same => fresh (same ▸ member)
        simpa [doRemove, different] using stored other (List.mem_cons_of_mem key member)
      obtain ⟨wf', shrunk', _⟩ := ih (fun i => now (i + 1)) removed true distinct still
      refine ⟨wf', shrunk.trans shrunk', ?_⟩
      intro _
      exact Or.inr (lt_of_le_of_lt shrunk'.keys.length_le shorter)
    · exact ih (fun i => now (i + 1)) wf ifClear distinct
        (fun other member => stored other (List.mem_cons_of_mem key member))

theorem doClearExpiredCache_wellFormed (now : Nat → Int) {c : RawCache κ υ} (wf : WellFormed c) :
    WellFormed (doClearExpiredCache now c).1 ∧ Shrunk c (doClearExpiredCache now c).1 ∧
    ((doClearExpiredCache now c).2 = true →
      (doClearExpiredCache now c).1.keys.length < c.keys.length) := by
  obtain ⟨wf', shrunk, shorter⟩ := clearExpired_wellFormed now c.timestamp.entries wf false
    c.timestamp.nodupKeys (fun key member => (wf.timestamp key).mp member)
  exact ⟨wf', shrunk, fun cleared => (shorter cleared).resolve_left (by simp)⟩

theorem dropBack_wellFormed {c : RawCache κ υ} (wf : WellFormed c) (stored : c.keys ≠ []) :
    ∃ c', dropBack c = some c' ∧ WellFormed c' ∧ Shrunk c c' ∧ c'.keys = c.keys.dropLast := by
  have last : c.keys.getLast? = some (c.keys.getLast stored) := List.getLast?_eq_getLast_of_ne_nil stored
  have kept : ∀ other, other ∈ c.keys.dropLast ↔
      other ≠ c.keys.getLast stored ∧ other ∈ c.keys := by
    intro other
    have nodup := wf.nodup
    rw [← List.dropLast_append_getLast stored, List.nodup_append] at nodup
    have whole : other ∈ c.keys ↔ other ∈ c.keys.dropLast ∨ other = c.keys.getLast stored := by
      conv_lhs => rw [← List.dropLast_append_getLast stored]
      simp
    rw [whole]
    constructor
    · intro member
      exact ⟨nodup.2.2 other member _ (by simp), Or.inl member⟩
    · rintro ⟨different, member | same⟩
      · exact member
      · exact False.elim (different same)
  obtain ⟨wf', shrunk⟩ := wf.erase (c.keys.getLast stored) (List.dropLast_sublist c.keys) kept
  refine ⟨_, ?_, wf', shrunk, rfl⟩
  simp [dropBack, last]

/-- After `makeRoom` there is room, and `keys_.back()` was called on a key. -/
theorem makeRoom_wellFormed (now : Nat → Int) {c : RawCache κ υ} (wf : WellFormed c) :
    ∃ c', makeRoom now c = some c' ∧ WellFormed c' ∧ Shrunk c c' ∧ c'.keys.length < c'.size := by
  simp only [makeRoom]
  rw [wf.data_length]
  split
  · rename_i full
    have room := wf.room
    have size := wf.size
    have stored : c.keys ≠ [] := by
      intro empty
      simp only [empty, List.length_nil] at full
      omega
    have evict : ∃ c', dropBack c = some c' ∧ WellFormed c' ∧ Shrunk c c' ∧
        c'.keys.length < c'.size := by
      obtain ⟨c', dropped, wf', shrunk, keys⟩ := dropBack_wellFormed wf stored
      refine ⟨c', dropped, wf', shrunk, ?_⟩
      rw [keys, List.length_dropLast, shrunk.size]
      omega
    split
    · obtain ⟨wf', shrunk, shorter⟩ := doClearExpiredCache_wellFormed now wf
      split
      · rename_i nothing
        have same : (doClearExpiredCache now c).1 = c := clearExpired_unchanged now _ c nothing
        rwa [same]
      · rename_i cleared
        refine ⟨_, rfl, wf', shrunk, ?_⟩
        have := shorter (by simpa using cleared)
        rw [shrunk.size]
        omega
    · simpa using evict
  · rename_i space
    exact ⟨c, rfl, wf, Shrunk.refl c, Nat.not_le.mp space⟩

/-- A new entry in front. -/
def put (c : RawCache κ υ) (key : κ) (value : υ) (ts : Int) : RawCache κ υ :=
  { c with
    data := insertNew c.data key value
    timestamp := insertNew c.timestamp key ts
    keys := key :: c.keys }

/-- A stored key moves to the front. -/
def touch (c : RawCache κ υ) (key : κ) : RawCache κ υ :=
  { c with keys := key :: c.keys.filter (· ≠ key) }

theorem moveToFront_eq {keys : List κ} {key : κ} (nodup : keys.Nodup) (member : key ∈ keys) :
    moveToFront keys key = some (key :: keys.filter (· ≠ key)) := by
  have test : (fun other => other != key) = (fun other => decide (other ≠ key)) := by
    funext other
    rw [Bool.eq_iff_iff]
    simp
  rw [moveToFront, if_pos member, nodup.erase_eq_filter, test]

theorem mem_insertNew {β : Type v} (m : AList (fun _ : κ => β)) (key other : κ) (value : β) :
    other ∈ insertNew m key value ↔ other = key ∨ other ∈ m := by
  rw [insertNew]
  split
  · rename_i there
    constructor
    · exact Or.inr
    · rintro (rfl | member)
      · exact there
      · exact member
  · exact AList.mem_insert m

theorem put_wellFormed {c : RawCache κ υ} (wf : WellFormed c) {key : κ} (absent : key ∉ c.keys)
    (room : c.keys.length < c.size) (value : υ) (ts : Int) : WellFormed (put c key value ts) := by
  constructor
  · intro other
    simp only [put, mem_insertNew, wf.data, List.mem_cons]
  · intro other
    simp only [put, mem_insertNew, wf.timestamp, List.mem_cons]
  · exact List.nodup_cons.mpr ⟨absent, wf.nodup⟩
  · exact Nat.succ_le_of_lt room
  · exact wf.size

theorem touch_wellFormed {c : RawCache κ υ} (wf : WellFormed c) {key : κ} (stored : key ∈ c.keys) :
    WellFormed (touch c key) := by
  have same : ∀ other, other ∈ c.keys ↔ other ∈ (touch c key).keys := by
    intro other
    by_cases here : other = key
    · simp [touch, here, stored]
    · simp [touch, here]
  constructor
  · intro other
    exact (wf.data other).trans (same other)
  · intro other
    exact (wf.timestamp other).trans (same other)
  · refine List.nodup_cons.mpr ⟨by simp, wf.nodup.sublist List.filter_sublist⟩
  · have shorter : (c.keys.filter (· ≠ key)).length < c.keys.length := doRemove_length stored
    have room := wf.room
    simp only [touch, List.length_cons]
    omega
  · exact wf.size

/-! ## The operations on a well-formed cache -/

/-- `DoAdd` drops the old entry of the key, or makes room, and then puts the new
entry in front. -/
theorem doAdd_put (now : Nat → Int) {c : RawCache κ υ} (wf : WellFormed c) (key : κ) (value : υ) :
    ∃ c', doAdd now c key value = some (put c' key value (now 0)) ∧ WellFormed c' ∧
      Shrunk c c' ∧ key ∉ c'.keys ∧ c'.keys.length < c'.size ∧
      (key ∈ c.keys → c' = doRemove c key) ∧
      (key ∉ c.keys → makeRoom (fun i => now (i + 1)) c = some c') := by
  by_cases stored : key ∈ c.keys
  · obtain ⟨wf', shrunk⟩ := doRemove_wellFormed wf key
    refine ⟨doRemove c key, ?_, wf', shrunk, by simp [doRemove], ?_, fun _ => rfl,
      fun absent => absurd stored absent⟩
    · simp only [doAdd, if_pos ((wf.data key).mpr stored), if_pos ((wf.timestamp key).mpr stored),
        moveToFront_eq wf.nodup stored]
      rfl
    · exact lt_of_lt_of_le (doRemove_length stored) wf.room
  · obtain ⟨c', made, wf', shrunk, room⟩ := makeRoom_wellFormed (fun i => now (i + 1)) wf
    refine ⟨c', ?_, wf', shrunk, fun member => stored (shrunk.keys.subset member), room,
      fun there => absurd there stored, fun _ => made⟩
    simp only [doAdd, if_neg ((wf.data key).not.mpr stored), made]
    rfl

theorem doGet_absent (now : Nat → Int) {c : RawCache κ υ} (wf : WellFormed c) {key : κ}
    (absent : key ∉ c.keys) : doGet now c key = some (c, none) := by
  have missing : c.data.lookup key = none :=
    AList.lookup_eq_none.mpr ((wf.data key).not.mpr absent)
  simp only [doGet, missing]

/-- A stored key has a value and a timestamp. -/
theorem WellFormed.stored {c : RawCache κ υ} (wf : WellFormed c) {key : κ} (member : key ∈ c.keys) :
    ∃ value ts, c.data.lookup key = some value ∧ c.timestamp.lookup key = some ts := by
  obtain ⟨value, hvalue⟩ := Option.isSome_iff_exists.mp
    (AList.lookup_isSome.mpr ((wf.data key).mpr member))
  obtain ⟨ts, hts⟩ := Option.isSome_iff_exists.mp
    (AList.lookup_isSome.mpr ((wf.timestamp key).mpr member))
  exact ⟨value, ts, hvalue, hts⟩

/-- The entry counts as expired for this reading. -/
def Expired (expireTimeMilliSec now ts : Int) : Prop :=
  0 < expireTimeMilliSec ∧ isExpired now ts expireTimeMilliSec = true

instance (expireTimeMilliSec now ts : Int) : Decidable (Expired expireTimeMilliSec now ts) :=
  inferInstanceAs (Decidable (_ ∧ _))

/-- `DoGet` of a stored key drops it if it has expired and moves it to the front
if it has not. -/
theorem doGet_stored (now : Nat → Int) {c : RawCache κ υ} (wf : WellFormed c) {key : κ}
    (member : key ∈ c.keys) {value : υ} {ts : Int} (hvalue : c.data.lookup key = some value)
    (hts : c.timestamp.lookup key = some ts) :
    doGet now c key =
      if Expired c.expireTimeMilliSec (now 0) ts then some (doRemove c key, none)
      else some (touch c key, some value) := by
  simp only [doGet, hvalue, hts, moveToFront_eq wf.nodup member]
  rfl

theorem exec_wellFormed (now : Nat → Int) {c : RawCache κ υ} (wf : WellFormed c) (op : Op κ υ) :
    ∃ c' result, exec now c op = some (c', result) ∧ WellFormed c' := by
  cases op with
  | add key value =>
    obtain ⟨c', added, wf', _, absent, room, _⟩ := doAdd_put now wf key value
    exact ⟨_, none, by simp only [exec, added, Option.map_some],
      put_wellFormed wf' absent room value (now 0)⟩
  | get key =>
    by_cases member : key ∈ c.keys
    · obtain ⟨value, ts, hvalue, hts⟩ := wf.stored member
      simp only [exec, doGet_stored now wf member hvalue hts]
      split
      · exact ⟨_, _, rfl, (doRemove_wellFormed wf key).1⟩
      · exact ⟨_, _, rfl, touch_wellFormed wf member⟩
    · exact ⟨c, none, doGet_absent now wf member, wf⟩
  | remove key => exact ⟨_, none, rfl, (doRemove_wellFormed wf key).1⟩
  | clear => exact ⟨_, none, rfl, doClear_wellFormed wf⟩

/-- An operation with the clock readings it makes. -/
abbrev Call (κ : Type u) (υ : Type v) := (Nat → Int) × Op κ υ

def machine (κ : Type u) (υ : Type v) [DecidableEq κ] (cacheSize : Nat) (expireTimeSec : Int) :
    Machine (RawCache κ υ) (Call κ υ) where
  init := construct κ υ cacheSize expireTimeSec
  step c call := (exec call.1 c call.2).map Prod.fst

theorem reachable_wellFormed {cacheSize : Nat} {expireTimeSec : Int} {c : RawCache κ υ}
    (reach : (machine κ υ cacheSize expireTimeSec).Reachable Free c) : WellFormed c := by
  refine reach.invariant WellFormed (construct_wellFormed cacheSize expireTimeSec) ?_
  intro r call t _ wf _ next
  obtain ⟨c', result, executed, wf'⟩ := exec_wellFormed call.1 wf call.2
  have same : c' = t := by simpa [machine, executed] using next
  exact same ▸ wf'

/-- Any capacity, any expire time, any sequence of operations, any clock readings:
the maps have the same keys, `keys_` lists exactly these and each once, there are
at most `size_` entries, and no operation reads the last key of an empty list,
uses an iterator at the end of `timestamp_` or splices a key it has not found. -/
theorem representation_invariant (cacheSize : Nat) (expireTimeSec : Int) (c : RawCache κ υ)
    (reach : (machine κ υ cacheSize expireTimeSec).Reachable Free c) :
    (∀ key, key ∈ c.data ↔ key ∈ c.timestamp) ∧ (∀ key, key ∈ c.keys ↔ key ∈ c.data) ∧
    c.keys.Nodup ∧ c.data.keys.length ≤ c.size ∧ 1 ≤ c.size ∧
    (∀ key, key ∈ c.data → c.timestamp.lookup key ≠ none ∧ key ∈ c.keys) ∧
    (c.size ≤ c.data.keys.length → c.keys ≠ []) ∧
    ∀ now op, exec now c op ≠ none := by
  have wf := reachable_wellFormed reach
  refine ⟨?_, ?_, wf.nodup, ?_, wf.size, ?_, ?_, ?_⟩
  · intro key
    exact (wf.data key).trans (wf.timestamp key).symm
  · intro key
    exact (wf.data key).symm
  · rw [wf.data_length]
    exact wf.room
  · intro key member
    have listed := (wf.data key).mp member
    obtain ⟨_, ts, _, hts⟩ := wf.stored listed
    exact ⟨by simp [hts], listed⟩
  · intro full empty
    have size := wf.size
    rw [wf.data_length, empty, List.length_nil] at full
    omega
  · intro now op
    obtain ⟨c', result, executed, _⟩ := exec_wellFormed now wf op
    simp [executed]

/-- Capacity 2, expire time 10: the clock runs backwards in the middle of the
third `Add`, which purges one of two entries; the last `Add` drops the last key. -/
def purgeSchedule : List (Call Nat Nat) :=
  [(fun _ => 0, .add 1 10), (fun _ => 15, .add 2 20), (fun i => 20 - 2 * i, .add 3 30),
    (fun _ => 16, .get 2), (fun _ => 16, .add 4 40), (fun _ => 16, .remove 7)]

def purged : RawCache Nat Nat :=
  ((machine Nat Nat 2 10).run Free (machine Nat Nat 2 10).init purgeSchedule).get (by decide)

theorem representation_invariant_purged :
    purged.keys = [4, 2] ∧ (∀ key, key ∈ purged.data ↔ key ∈ purged.timestamp) ∧
    (∀ key, key ∈ purged.keys ↔ key ∈ purged.data) ∧ purged.data.keys.length ≤ purged.size := by
  have reach : (machine Nat Nat 2 10).Reachable Free purged :=
    Machine.reachable_get purgeSchedule (by decide)
  obtain ⟨maps, keys, _, bound, _⟩ := representation_invariant 2 10 purged reach
  exact ⟨by decide, maps, keys, bound⟩

/-! ## Caches with their invariant -/

structure Cache (κ : Type u) (υ : Type v) [DecidableEq κ] where
  raw : RawCache κ υ
  wellFormed : WellFormed raw

def Cache.new (κ : Type u) (υ : Type v) [DecidableEq κ] (cacheSize : Nat) (expireTimeSec : Int) :
    Cache κ υ :=
  ⟨construct κ υ cacheSize expireTimeSec, construct_wellFormed cacheSize expireTimeSec⟩

theorem Cache.exec_isSome (c : Cache κ υ) (now : Nat → Int) (op : Op κ υ) :
    (ExpireLruCache.exec now c.raw op).isSome = true := by
  obtain ⟨c', result, executed, _⟩ := exec_wellFormed now c.wellFormed op
  simp [executed]

theorem Cache.get_wellFormed (c : Cache κ υ) (now : Nat → Int) (op : Op κ υ) :
    WellFormed ((ExpireLruCache.exec now c.raw op).get (c.exec_isSome now op)).1 := by
  obtain ⟨c', result, executed, wf⟩ := exec_wellFormed now c.wellFormed op
  simpa [executed] using wf

/-- Operations on a well-formed cache are total. -/
def Cache.exec (c : Cache κ υ) (now : Nat → Int) (op : Op κ υ) : Cache κ υ × Option υ :=
  (⟨_, c.get_wellFormed now op⟩,
    ((ExpireLruCache.exec now c.raw op).get (c.exec_isSome now op)).2)

theorem Cache.exec_eq (c : Cache κ υ) (now : Nat → Int) (op : Op κ υ) :
    ExpireLruCache.exec now c.raw op = some ((c.exec now op).1.raw, (c.exec now op).2) :=
  (Option.some_get (c.exec_isSome now op)).symm

/-- Timed operations, each reading the clock once, with their results. -/
def Cache.run (c : Cache κ υ) : List (Int × Op κ υ) → Cache κ υ × List (Option υ)
  | [] => (c, [])
  | (now, op) :: rest =>
    let (c, result) := c.exec (fun _ => now) op
    let (c, results) := c.run rest
    (c, result :: results)

end ExpireLruCache
