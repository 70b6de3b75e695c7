import Safwk.ExpireLruCache
import Safwk.Library.Recency

/-!
# The entries of a cache in order of last use

`entries c` reads the three containers as one recency list. With one clock
reading for a whole operation, each operation of the cache is the lazy
operation on that list (`exec_entries`): the dead entries are those that
`IsExpired` rejects.
-/

namespace CacheEntries

open ExpireLruCache Recency

universe u v

variable {κ : Type u} {υ : Type v} [DecidableEq κ]

abbrev Stored (κ : Type u) (υ : Type v) := Entry κ υ Int

/-- What the two maps store for a key. -/
def entryOf (c : RawCache κ υ) (key : κ) : Option (Stored κ υ) :=
  match c.data.lookup key, c.timestamp.lookup key with
  | some value, some ts => some ⟨key, value, ts⟩
  | _, _ => none

def entries (c : RawCache κ υ) : List (Stored κ υ) := c.keys.filterMap (entryOf c)

/-- The entry is not rejected by an `IsExpired` at this reading. -/
def live (expireTimeMilliSec now : Int) (e : Stored κ υ) : Bool :=
  !decide (Expired expireTimeMilliSec now e.stamp)

/-- The operations on the list of entries. -/
def execEntries (size : Nat) (expireTimeMilliSec now : Int) (es : List (Stored κ υ)) :
    Op κ υ → List (Stored κ υ) × Option υ
  | .add key value => (lazyAdd es (live expireTimeMilliSec now) size ⟨key, value, now⟩, none)
  | .get key => lazyGet es (live expireTimeMilliSec now) key
  | .remove key => (without es key, none)
  | .clear => ([], none)

theorem entryOf_some {c : RawCache κ υ} {key : κ} {e : Stored κ υ} (found : entryOf c key = some e) :
    e.key = key ∧ c.data.lookup key = some e.value ∧ c.timestamp.lookup key = some e.stamp := by
  simp only [entryOf] at found
  split at found
  · rename_i value ts hvalue hts
    cases found
    exact ⟨rfl, hvalue, hts⟩
  · cases found

theorem entryOf_stored {c : RawCache κ υ} (wf : WellFormed c) {key : κ} (member : key ∈ c.keys) :
    ∃ e, entryOf c key = some e := by
  obtain ⟨value, ts, hvalue, hts⟩ := wf.stored member
  exact ⟨⟨key, value, ts⟩, by simp only [entryOf, hvalue, hts]⟩

theorem filterMap_entryOf_keys (c : RawCache κ υ) (listed : List κ)
    (stored : ∀ key ∈ listed, ∃ e, entryOf c key = some e) :
    keys (listed.filterMap (entryOf c)) = listed := by
  induction listed with
  | nil => rfl
  | cons key listed ih =>
    obtain ⟨e, found⟩ := stored key List.mem_cons_self
    rw [List.filterMap_cons_some found, keys, List.map_cons, (entryOf_some found).1]
    congr 1
    exact ih fun other member => stored other (List.mem_cons_of_mem key member)

/-- The entries have the keys of `keys_`, in its order. -/
theorem keys_entries {c : RawCache κ υ} (wf : WellFormed c) : keys (entries c) = c.keys :=
  filterMap_entryOf_keys c c.keys fun _ member => entryOf_stored wf member

theorem nodup_entries {c : RawCache κ υ} (wf : WellFormed c) : (keys (entries c)).Nodup := by
  rw [keys_entries wf]
  exact wf.nodup

theorem length_entries {c : RawCache κ υ} (wf : WellFormed c) :
    (entries c).length = c.keys.length := by
  rw [← keys_entries wf, keys, List.length_map]

theorem find_entries {c : RawCache κ υ} (wf : WellFormed c) {key : κ} {e : Stored κ υ}
    (member : key ∈ c.keys) (found : entryOf c key = some e) : find (entries c) key = some e := by
  have inside : e ∈ entries c := List.mem_filterMap.mpr ⟨key, member, found⟩
  have same := find_of_mem (nodup_entries wf) inside
  rwa [(entryOf_some found).1] at same

theorem find_entries_absent {c : RawCache κ υ} (wf : WellFormed c) {key : κ}
    (absent : key ∉ c.keys) : find (entries c) key = none := by
  rw [find_eq_none, keys_entries wf]
  exact absent

/-! ## Dropping entries -/

/-- What is left after some entries were dropped is read off the old maps. -/
theorem entries_shrunk {c c' : RawCache κ υ} (shrunk : Shrunk c c') :
    entries c' = c'.keys.filterMap (entryOf c) := by
  apply List.filterMap_congr
  intro key member
  simp only [entryOf, shrunk.data key member, shrunk.timestamp key member]

theorem entries_doRemove {c : RawCache κ υ} (wf : WellFormed c) (key : κ) :
    entries (doRemove c key) = without (entries c) key := by
  rw [entries_shrunk (doRemove_wellFormed wf key).2, without, entries, List.filter_filterMap]
  simp only [doRemove]
  rw [List.filterMap_filter]
  apply List.filterMap_congr
  intro other _
  cases found : entryOf c other with
  | none => simp
  | some e =>
    have same := (entryOf_some found).1
    by_cases here : other = key
    · simp [here, Option.filter, same]
    · simp [here, Option.filter, same]

theorem entries_dropBack {c c' : RawCache κ υ} (wf : WellFormed c) (shrunk : Shrunk c c')
    (dropped : c'.keys = c.keys.dropLast) (stored : c.keys ≠ []) :
    entries c' = (entries c).dropLast := by
  obtain ⟨e, found⟩ := entryOf_stored wf (List.getLast_mem stored)
  have split : entries c = c.keys.dropLast.filterMap (entryOf c) ++ [e] := by
    rw [entries]
    conv_lhs => rw [← List.dropLast_append_getLast stored]
    rw [List.filterMap_append, List.filterMap_cons_some found, List.filterMap_nil]
  rw [entries_shrunk shrunk, dropped, split, List.dropLast_concat]

/-- The purge drops the entries whose visited timestamps have expired. -/
theorem entries_clearExpired (now : Int) (visited : List (Sigma fun _ : κ => Int))
    {c : RawCache κ υ} (wf : WellFormed c) (ifClear : Bool) :
    entries (clearExpired (fun _ => now) visited c ifClear).1 =
      (entries c).filter (fun e => visited.all fun stamped =>
        decide (stamped.1 = e.key → isExpired now stamped.2 c.expireTimeMilliSec = false)) ∧
    (clearExpired (fun _ => now) visited c ifClear).2 =
      (ifClear || visited.any fun stamped => isExpired now stamped.2 c.expireTimeMilliSec) := by
  induction visited generalizing c ifClear with
  | nil => simp [clearExpired]
  | cons entry rest ih =>
    obtain ⟨key, ts⟩ := entry
    simp only [clearExpired]
    split
    · rename_i expired
      obtain ⟨wf', shrunk⟩ := doRemove_wellFormed wf key
      obtain ⟨filtered, reported⟩ := ih wf' true
      constructor
      · refine filtered.trans ?_
        rw [entries_doRemove wf key, without, List.filter_filter]
        apply List.filter_congr
        intro e _
        have here : decide (e.key ≠ key) = decide (key = e.key →
            isExpired now ts c.expireTimeMilliSec = false) := by
          simp only [expired, decide_eq_decide]
          exact ⟨fun different same => absurd same.symm different, fun h same => by
            cases h same.symm⟩
        rw [List.all_cons, ← here, Bool.and_comm]
        rfl
      · refine reported.trans ?_
        simp [expired]
    · rename_i live
      obtain ⟨filtered, reported⟩ := ih wf ifClear
      constructor
      · rw [filtered]
        apply List.filter_congr
        intro e _
        simp [live]
      · rw [reported]
        simp [live]

theorem mem_entries {c : RawCache κ υ} {e : Stored κ υ} (member : e ∈ entries c) :
    c.timestamp.lookup e.key = some e.stamp := by
  obtain ⟨key, _, found⟩ := List.mem_filterMap.mp member
  obtain ⟨same, _, hts⟩ := entryOf_some found
  rw [same]
  exact hts

/-- A stored timestamp is the stamp of an entry. -/
theorem entry_of_timestamp {c : RawCache κ υ} (wf : WellFormed c) {key : κ} {ts : Int}
    (stamped : ⟨key, ts⟩ ∈ c.timestamp.entries) :
    ∃ e ∈ entries c, e.key = key ∧ e.stamp = ts := by
  have hts : c.timestamp.lookup key = some ts := AList.mem_lookup_iff.mpr stamped
  have listed : key ∈ c.keys :=
    (wf.timestamp key).mp (AList.lookup_isSome.mp (by simp [hts]))
  obtain ⟨e, found⟩ := entryOf_stored wf listed
  obtain ⟨same, _, hts'⟩ := entryOf_some found
  exact ⟨e, List.mem_filterMap.mpr ⟨key, listed, found⟩, same,
    Option.some.inj (hts'.symm.trans hts)⟩

omit [DecidableEq κ] in
theorem live_eq {expireTimeMilliSec : Int} (positive : 0 < expireTimeMilliSec) (now : Int)
    (e : Stored κ υ) :
    live expireTimeMilliSec now e = !isExpired now e.stamp expireTimeMilliSec := by
  simp [live, Expired, positive]

theorem entries_doClearExpiredCache (now : Int) {c : RawCache κ υ} (wf : WellFormed c)
    (positive : 0 < c.expireTimeMilliSec) :
    entries (doClearExpiredCache (fun _ => now) c).1 =
      (entries c).filter (live c.expireTimeMilliSec now) ∧
    (doClearExpiredCache (fun _ => now) c).2 =
      !(entries c).all (live c.expireTimeMilliSec now) := by
  obtain ⟨filtered, reported⟩ := entries_clearExpired now c.timestamp.entries wf false
  constructor
  · rw [doClearExpiredCache, filtered]
    apply List.filter_congr
    intro e member
    rw [live_eq positive, Bool.eq_iff_iff, List.all_eq_true]
    simp only [decide_eq_true_eq, Bool.not_eq_true']
    constructor
    · intro fresh
      exact fresh ⟨e.key, e.stamp⟩ (AList.mem_lookup_iff.mp (mem_entries member)) rfl
    · rintro fresh ⟨key, ts⟩ stamped same
      dsimp only at same
      subst same
      have hts : c.timestamp.lookup e.key = some ts := AList.mem_lookup_iff.mpr stamped
      rw [mem_entries member] at hts
      rwa [← Option.some.inj hts]
  · rw [doClearExpiredCache, reported, Bool.false_or, Bool.eq_iff_iff, Bool.not_eq_true',
      List.all_eq_false, List.any_eq_true]
    constructor
    · rintro ⟨⟨key, ts⟩, stamped, expired⟩
      obtain ⟨e, member, _, rfl⟩ := entry_of_timestamp wf stamped
      exact ⟨e, member, by simp [live_eq positive, expired]⟩
    · rintro ⟨e, member, dead⟩
      rw [live_eq positive] at dead
      exact ⟨⟨e.key, e.stamp⟩, AList.mem_lookup_iff.mp (mem_entries member), by simpa using dead⟩

omit [DecidableEq κ] in
/-- With an expire time of 0 nothing expires. -/
theorem live_of_nonpositive {expireTimeMilliSec : Int} (zero : ¬ 0 < expireTimeMilliSec) (now : Int)
    (e : Stored κ υ) : live expireTimeMilliSec now e = true := by
  simp [live, Expired, zero]

theorem entries_makeRoom (now : Int) {c c' : RawCache κ υ} (wf : WellFormed c)
    (made : makeRoom (fun _ => now) c = some c') :
    entries c' =
      if (entries c).length < c.size then entries c
      else if (entries c).all (live c.expireTimeMilliSec now) then (entries c).dropLast
      else (entries c).filter (live c.expireTimeMilliSec now) := by
  simp only [makeRoom, wf.data_length] at made
  rw [length_entries wf]
  split at made
  · rename_i full
    rw [if_neg (Nat.not_lt.mpr full)]
    have stored : c.keys ≠ [] := by
      intro empty
      have size := wf.size
      rw [empty, List.length_nil] at full
      omega
    have evict : dropBack c = some c' → entries c' = (entries c).dropLast := by
      intro dropped
      obtain ⟨c'', dropped', _, shrunk, keys⟩ := dropBack_wellFormed wf stored
      rw [dropped, Option.some.injEq] at dropped'
      exact entries_dropBack wf (dropped' ▸ shrunk) (dropped' ▸ keys) stored
    by_cases positive : 0 < c.expireTimeMilliSec
    · rw [if_pos positive] at made
      obtain ⟨filtered, reported⟩ := entries_doClearExpiredCache now wf positive
      rw [reported] at made
      split at made
      · rename_i nothing
        have allLive : (entries c).all (live c.expireTimeMilliSec now) = true := by
          simpa using nothing
        rw [if_pos allLive]
        apply evict
        have unchanged : (doClearExpiredCache (fun _ => now) c).1 = c :=
          clearExpired_unchanged _ _ c (by
            rw [← doClearExpiredCache, reported, allLive]
            rfl)
        rwa [unchanged] at made
      · rename_i some
        have someDead : ¬ (entries c).all (live c.expireTimeMilliSec now) = true := by
          simpa using some
        rw [if_neg someDead, ← filtered, Option.some.inj made]
    · rw [if_neg positive] at made
      have allLive : (entries c).all (live c.expireTimeMilliSec now) = true := by
        rw [List.all_eq_true]
        intro e _
        exact live_of_nonpositive positive now e
      rw [if_pos allLive]
      exact evict (by simpa using made)
  · rename_i space
    rw [if_pos (Nat.not_le.mp space), Option.some.inj made]

/-! ## The operations -/

theorem lookup_insertNew_self {β : Type v} {m : AList (fun _ : κ => β)} {key : κ}
    (absent : key ∉ m) (value : β) : (insertNew m key value).lookup key = some value := by
  rw [insertNew, if_neg absent, AList.lookup_insert]

theorem lookup_insertNew_ne {β : Type v} (m : AList (fun _ : κ => β)) {key other : κ}
    (different : other ≠ key) (value : β) :
    (insertNew m key value).lookup other = m.lookup other := by
  rw [insertNew]
  split
  · rfl
  · exact AList.lookup_insert_ne different

theorem entryOf_put_self {c : RawCache κ υ} (wf : WellFormed c) {key : κ} (absent : key ∉ c.keys)
    (value : υ) (ts : Int) : entryOf (put c key value ts) key = some ⟨key, value, ts⟩ := by
  have hvalue := lookup_insertNew_self ((wf.data key).not.mpr absent) value
  have hts := lookup_insertNew_self ((wf.timestamp key).not.mpr absent) ts
  simp only [entryOf, put, hvalue, hts]

theorem entryOf_put_ne (c : RawCache κ υ) {key other : κ} (different : other ≠ key) (value : υ)
    (ts : Int) : entryOf (put c key value ts) other = entryOf c other := by
  simp only [entryOf, put, lookup_insertNew_ne _ different]

theorem entries_put {c : RawCache κ υ} (wf : WellFormed c) {key : κ} (absent : key ∉ c.keys)
    (value : υ) (ts : Int) : entries (put c key value ts) = ⟨key, value, ts⟩ :: entries c := by
  have others : c.keys.filterMap (entryOf (put c key value ts)) = entries c := by
    apply List.filterMap_congr
    intro other member
    have different : other ≠ key := fun same => absent (same ▸ member)
    exact entryOf_put_ne c different value ts
  have unfolded : entries (put c key value ts) =
      (key :: c.keys).filterMap (entryOf (put c key value ts)) := rfl
  rw [unfolded, List.filterMap_cons_some (entryOf_put_self wf absent value ts), others]

theorem entries_touch {c : RawCache κ υ} (wf : WellFormed c) {key : κ} {e : Stored κ υ}
    (found : entryOf c key = some e) :
    entries (touch c key) = e :: without (entries c) key := by
  rw [← entries_doRemove wf key, entries_shrunk (doRemove_wellFormed wf key).2]
  exact List.filterMap_cons_some found

/-! ## What an operation leaves, for any clock readings -/

theorem mem_keys_of_entryOf {c : RawCache κ υ} (wf : WellFormed c) {key : κ} {e : Stored κ υ}
    (found : entryOf c key = some e) : key ∈ c.keys := by
  apply (wf.data key).mp
  apply AList.lookup_isSome.mp
  simp [(entryOf_some found).2.1]

theorem entryOf_shrunk {c c' : RawCache κ υ} (wf : WellFormed c') (shrunk : Shrunk c c') {key : κ}
    {e : Stored κ υ} (found : entryOf c' key = some e) : entryOf c key = some e := by
  have member := mem_keys_of_entryOf wf found
  rw [← found]
  simp only [entryOf, shrunk.data key member, shrunk.timestamp key member]

/-- After an `Add` an entry is the added one, or an old one of another key. -/
theorem entryOf_add (c : Cache κ υ) (now : Nat → Int) (key : κ) (value : υ) {other : κ}
    {e : Stored κ υ}
    (found : entryOf (c.exec now (.add key value)).1.raw other = some e) :
    other = key ∧ e = ⟨key, value, now 0⟩ ∨ other ≠ key ∧ entryOf c.raw other = some e := by
  have executed := c.exec_eq now (.add key value)
  obtain ⟨room, added, wf, shrunk, absent, _⟩ := doAdd_put now c.wellFormed key value
  simp only [exec, added, Option.map_some, Option.some.injEq, Prod.mk.injEq] at executed
  rw [← executed.1] at found
  by_cases same : other = key
  · subst same
    rw [entryOf_put_self wf absent] at found
    exact Or.inl ⟨rfl, (Option.some.inj found).symm⟩
  · rw [entryOf_put_ne room same] at found
    exact Or.inr ⟨same, entryOf_shrunk wf shrunk found⟩

/-- What a `Get` can do. -/
theorem get_cases (c : Cache κ υ) (now : Nat → Int) (key : κ) :
    ((c.exec now (.get key)).1.raw = c.raw ∧ (c.exec now (.get key)).2 = none) ∨
    ∃ value ts, entryOf c.raw key = some ⟨key, value, ts⟩ ∧
      (Expired c.raw.expireTimeMilliSec (now 0) ts ∧
          (c.exec now (.get key)).1.raw = doRemove c.raw key ∧
          (c.exec now (.get key)).2 = none ∨
        ¬ Expired c.raw.expireTimeMilliSec (now 0) ts ∧
          (c.exec now (.get key)).1.raw = touch c.raw key ∧
          (c.exec now (.get key)).2 = some value) := by
  have executed := c.exec_eq now (.get key)
  by_cases member : key ∈ c.raw.keys
  · obtain ⟨value, ts, hvalue, hts⟩ := c.wellFormed.stored member
    simp only [exec, doGet_stored now c.wellFormed member hvalue hts] at executed
    refine Or.inr ⟨value, ts, by simp only [entryOf, hvalue, hts], ?_⟩
    split at executed
    · rename_i expired
      obtain ⟨state, result⟩ := Prod.mk.inj (Option.some.inj executed)
      exact Or.inl ⟨expired, state.symm, result.symm⟩
    · rename_i fresh
      obtain ⟨state, result⟩ := Prod.mk.inj (Option.some.inj executed)
      exact Or.inr ⟨fresh, state.symm, result.symm⟩
  · simp only [exec, doGet_absent now c.wellFormed member] at executed
    obtain ⟨state, result⟩ := Prod.mk.inj (Option.some.inj executed)
    exact Or.inl ⟨state.symm, result.symm⟩

/-- After a `Get` every entry is an old one. -/
theorem entryOf_get (c : Cache κ υ) (now : Nat → Int) (key : κ) {other : κ} {e : Stored κ υ}
    (found : entryOf (c.exec now (.get key)).1.raw other = some e) :
    entryOf c.raw other = some e := by
  rcases get_cases c now key with ⟨state, _⟩ | ⟨_, _, _, ⟨_, state, _⟩ | ⟨_, state, _⟩⟩
  · rwa [state] at found
  · rw [state] at found
    obtain ⟨wf, shrunk⟩ := doRemove_wellFormed c.wellFormed key
    exact entryOf_shrunk wf shrunk found
  · rw [state] at found
    exact found

/-- A `Get` that hits returns a stored value that has not expired. -/
theorem get_hit (c : Cache κ υ) (now : Nat → Int) (key : κ) {value : υ}
    (hit : (c.exec now (.get key)).2 = some value) :
    ∃ ts, entryOf c.raw key = some ⟨key, value, ts⟩ ∧
      ¬ Expired c.raw.expireTimeMilliSec (now 0) ts := by
  rcases get_cases c now key with
    ⟨_, result⟩ | ⟨stored, ts, found, ⟨_, _, result⟩ | ⟨fresh, _, result⟩⟩
  · rw [hit] at result
    cases result
  · rw [hit] at result
    cases result
  · rw [hit, Option.some.injEq] at result
    subst result
    exact ⟨ts, found, fresh⟩

theorem entryOf_clear (c : Cache κ υ) (now : Nat → Int) (key : κ) :
    entryOf (c.exec now .clear).1.raw key = none := by
  have executed := c.exec_eq now .clear
  simp only [exec] at executed
  rw [← (Prod.mk.inj (Option.some.inj executed)).1]
  simp [entryOf, doClear]

/-- No operation changes the expire time. -/
theorem exec_expireTimeMilliSec (c : Cache κ υ) (now : Nat → Int) (op : Op κ υ) :
    (c.exec now op).1.raw.expireTimeMilliSec = c.raw.expireTimeMilliSec := by
  have executed := c.exec_eq now op
  cases op with
  | add key value =>
    obtain ⟨room, added, _, shrunk, _⟩ := doAdd_put now c.wellFormed key value
    simp only [exec, added, Option.map_some, Option.some.injEq, Prod.mk.injEq] at executed
    rw [← executed.1]
    exact shrunk.expireTimeMilliSec
  | get key =>
    rcases get_cases c now key with ⟨state, _⟩ | ⟨_, _, _, ⟨_, state, _⟩ | ⟨_, state, _⟩⟩
    · rw [state]
    · rw [state, doRemove]
    · rw [state, touch]
  | remove key =>
    rw [← (Prod.mk.inj (Option.some.inj executed)).1]
    rfl
  | clear =>
    rw [← (Prod.mk.inj (Option.some.inj executed)).1]
    rfl

/-! ## One clock reading -/

/-- An operation that reads the clock once is the lazy operation on the entries. -/
theorem exec_entries (now : Int) {c c' : RawCache κ υ} (wf : WellFormed c) {op : Op κ υ}
    {result : Option υ} (executed : exec (fun _ => now) c op = some (c', result)) :
    c'.size = c.size ∧ c'.expireTimeMilliSec = c.expireTimeMilliSec ∧
    (entries c', result) = execEntries c.size c.expireTimeMilliSec now (entries c) op := by
  cases op with
  | add key value =>
    obtain ⟨room, added, wf', shrunk, absent, _, stored, missing⟩ :=
      doAdd_put (fun _ => now) wf key value
    simp only [exec, added, Option.map_some, Option.some.injEq, Prod.mk.injEq] at executed
    obtain ⟨rfl, rfl⟩ := executed
    refine ⟨shrunk.size, shrunk.expireTimeMilliSec, ?_⟩
    rw [entries_put wf' absent, execEntries, lazyAdd]
    simp only [keys_entries wf]
    by_cases there : key ∈ c.keys
    · rw [if_pos there, stored there, entries_doRemove wf key]
    · rw [if_neg there, entries_makeRoom now wf (missing there)]
      split
      · rfl
      · split <;> rfl
  | get key =>
    by_cases member : key ∈ c.keys
    · obtain ⟨value, ts, hvalue, hts⟩ := wf.stored member
      have found : entryOf c key = some ⟨key, value, ts⟩ := by simp only [entryOf, hvalue, hts]
      have listed := find_entries wf member found
      simp only [exec, doGet_stored _ wf member hvalue hts] at executed
      simp only [execEntries, lazyGet, listed]
      split at executed
      · rename_i expired
        cases executed
        refine ⟨rfl, rfl, ?_⟩
        rw [if_neg (by simp [live, expired]), entries_doRemove wf key]
      · rename_i fresh
        cases executed
        refine ⟨rfl, rfl, ?_⟩
        rw [if_pos (by simp [live, fresh]), entries_touch wf found]
    · simp only [exec, doGet_absent _ wf member] at executed
      cases executed
      refine ⟨rfl, rfl, ?_⟩
      simp only [execEntries, lazyGet, find_entries_absent wf member]
  | remove key =>
    cases executed
    exact ⟨rfl, rfl, by rw [execEntries, entries_doRemove wf key]⟩
  | clear =>
    cases executed
    exact ⟨rfl, rfl, rfl⟩

end CacheEntries
