import Safwk.CacheEntries

/-!
# The cache behaves as if expired entries vanished at once

The ideal cache holds unexpired entries only, in order of last use. `Add` and a
`Get` that hits move an entry to the front, only `Add` sets its time, and adding
an absent key drops the least recently used entry when the cache is full of
unexpired ones.

The real cache keeps expired entries until a `Get` of their key or an `Add`
that finds no room. Its live entries are the entries of the ideal cache at every
moment from the last operation on, so no run can tell the two apart.
-/

namespace IdealCache

open ExpireLruCache Recency CacheEntries

universe u v

variable {κ : Type u} {υ : Type v} [DecidableEq κ]

/-! ## The ideal cache -/

/-- A capacity of 0 counts as 1. -/
def capacity (cacheSize : Nat) : Nat := max cacheSize 1

/-- How long an entry lives, in milliseconds; `none` is for ever. -/
def lifetime (expireTimeSec : Int) : Option Int :=
  if expireTimeSec = 0 then none
  else if expireTimeSec < 0 then some 1000
  else some expireTimeSec

def unexpired (life : Option Int) (now : Int) (e : Stored κ υ) : Bool :=
  match life with
  | none => true
  | some limit => decide (now - e.stamp ≤ limit)

/-- The entries held at a moment. -/
def held (life : Option Int) (now : Int) (es : List (Stored κ υ)) : List (Stored κ υ) :=
  es.filter (unexpired life now)

def idealExec (size : Nat) (life : Option Int) (now : Int) (es : List (Stored κ υ)) :
    Op κ υ → List (Stored κ υ) × Option υ
  | .add key value => (idealAdd (held life now es) size ⟨key, value, now⟩, none)
  | .get key => idealGet (held life now es) key
  | .remove key => (without (held life now es) key, none)
  | .clear => ([], none)

/-- The results of a run of the ideal cache. -/
def idealRun (size : Nat) (life : Option Int) :
    List (Stored κ υ) → List (Int × Op κ υ) → List (Option υ)
  | _, [] => []
  | es, (now, op) :: rest =>
    (idealExec size life now es op).2 ::
      idealRun size life (idealExec size life now es op).1 rest

/-! ## The simulation -/

omit [DecidableEq κ] in
/-- An entry that is unexpired was so before. -/
theorem unexpired_before {life : Option Int} {now later : Int} (le : now ≤ later)
    {e : Stored κ υ} (alive : unexpired life later e = true) : unexpired life now e = true := by
  cases life with
  | none => rfl
  | some limit =>
    simp only [unexpired, decide_eq_true_eq] at alive ⊢
    omega

omit [DecidableEq κ] in
theorem held_held {life : Option Int} {now later : Int} (le : now ≤ later)
    (es : List (Stored κ υ)) : held life later (held life now es) = held life later es := by
  simp only [held, List.filter_filter]
  apply List.filter_congr
  intro e _
  rw [Bool.eq_iff_iff, Bool.and_eq_true]
  exact ⟨And.left, fun alive => ⟨alive, unexpired_before le alive⟩⟩

/-- The code's test for expiry is the ideal one. -/
def SameLife (expireTimeMilliSec : Int) (life : Option Int) : Prop :=
  life = none ∧ expireTimeMilliSec = 0 ∨ life = some expireTimeMilliSec ∧ 0 < expireTimeMilliSec

omit [DecidableEq κ] in
theorem SameLife.live {expireTimeMilliSec : Int} {life : Option Int}
    (same : SameLife expireTimeMilliSec life) (now : Int) :
    (live expireTimeMilliSec now : Stored κ υ → Bool) = unexpired life now := by
  funext e
  rcases same with ⟨rfl, rfl⟩ | ⟨rfl, positive⟩
  · exact live_of_nonpositive (by simp) now e
  · rw [live_eq positive, unexpired, isExpired, ← decide_not]
    simp

omit [DecidableEq κ] in
/-- Every fresh entry is unexpired. -/
theorem SameLife.fresh {expireTimeMilliSec : Int} {life : Option Int}
    (same : SameLife expireTimeMilliSec life) (now : Int) (key : κ) (value : υ) :
    unexpired life now (⟨key, value, now⟩ : Stored κ υ) = true := by
  rcases same with ⟨rfl, rfl⟩ | ⟨rfl, positive⟩
  · rfl
  · simp only [unexpired, decide_eq_true_eq]
    omega

/-- One operation on the stored and on the held entries. -/
theorem execEntries_ideal {expireTimeMilliSec : Int} {life : Option Int}
    (same : SameLife expireTimeMilliSec life) (now : Int) {size : Nat} {es : List (Stored κ υ)}
    (nodup : (keys es).Nodup) (bound : es.length ≤ size) {ideal : List (Stored κ υ)}
    (agree : held life now ideal = held life now es) (op : Op κ υ) :
    held life now (execEntries size expireTimeMilliSec now es op).1 =
      (idealExec size life now ideal op).1 ∧
    (execEntries size expireTimeMilliSec now es op).2 = (idealExec size life now ideal op).2 := by
  cases op with
  | add key value =>
    simp only [execEntries, idealExec, agree, same.live]
    exact ⟨lazyAdd_live nodup bound (same.fresh now key value), trivial⟩
  | get key =>
    simp only [execEntries, idealExec, agree, same.live]
    exact lazyGet_live nodup key
  | remove key =>
    simp only [execEntries, idealExec, agree]
    exact ⟨without_filter key, trivial⟩
  | clear => exact ⟨rfl, rfl⟩

/-- From a moment on, both caches hold the same unexpired entries. -/
def Agree (life : Option Int) (since : Int) (c : Cache κ υ) (ideal : List (Stored κ υ)) : Prop :=
  ∀ now, since ≤ now → held life now ideal = held life now (entries c.raw)

theorem Agree.step {life : Option Int} {since now : Int} {c : Cache κ υ}
    {ideal : List (Stored κ υ)} (same : SameLife c.raw.expireTimeMilliSec life)
    (agree : Agree life since c ideal) (le : since ≤ now) (op : Op κ υ) :
    Agree life now (c.exec (fun _ => now) op).1 (idealExec c.raw.size life now ideal op).1 ∧
    (c.exec (fun _ => now) op).2 = (idealExec c.raw.size life now ideal op).2 ∧
    (c.exec (fun _ => now) op).1.raw.size = c.raw.size ∧
    SameLife (c.exec (fun _ => now) op).1.raw.expireTimeMilliSec life := by
  obtain ⟨size, expire, executed⟩ :=
    exec_entries now c.wellFormed (c.exec_eq (fun _ => now) op)
  have bound : (entries c.raw).length ≤ c.raw.size := by
    rw [length_entries c.wellFormed]
    exact c.wellFormed.room
  obtain ⟨state, result⟩ :=
    execEntries_ideal same now (nodup_entries c.wellFormed) bound (agree now le) op
  rw [← executed] at state result
  refine ⟨?_, result, size, expire ▸ same⟩
  intro later after
  rw [← state, held_held after]

theorem run_ideal {life : Option Int} {since : Int} {c : Cache κ υ} {ideal : List (Stored κ υ)}
    (same : SameLife c.raw.expireTimeMilliSec life) (agree : Agree life since c ideal)
    (calls : List (Int × Op κ υ)) (clock : (calls.map Prod.fst).Pairwise (· ≤ ·))
    (later : ∀ call ∈ calls, since ≤ call.1) :
    (c.run calls).2 = idealRun c.raw.size life ideal calls := by
  induction calls generalizing c ideal since with
  | nil => rfl
  | cons call rest ih =>
    obtain ⟨now, op⟩ := call
    obtain ⟨agree', result, size, same'⟩ :=
      agree.step same (later (now, op) List.mem_cons_self) op
    rw [List.map_cons, List.pairwise_cons] at clock
    have rest_later : ∀ call ∈ rest, now ≤ call.1 := by
      intro call member
      exact clock.1 call.1 (List.mem_map_of_mem member)
    have tail := ih same' agree' clock.2 rest_later
    rw [size] at tail
    simp only [Cache.run, idealRun, result, tail]

theorem new_sameLife (cacheSize : Nat) (expireTimeSec : Int) :
    SameLife (Cache.new κ υ cacheSize expireTimeSec).raw.expireTimeMilliSec
      (lifetime expireTimeSec) := by
  simp only [Cache.new, construct, lifetime, defaultExpireTime]
  split
  · right
    rw [if_neg (by omega)]
    exact ⟨rfl, by omega⟩
  · split
    · rename_i zero
      exact Or.inl ⟨rfl, zero⟩
    · exact Or.inr ⟨rfl, by omega⟩

/-- Any capacity, any expire time, any sequence of operations with a clock that
does not go back and is read once for each: all results are those of the ideal
cache. -/
theorem results_ideal (cacheSize : Nat) (expireTimeSec : Int) (calls : List (Int × Op κ υ))
    (clock : (calls.map Prod.fst).Pairwise (· ≤ ·)) :
    ((Cache.new κ υ cacheSize expireTimeSec).run calls).2 =
      idealRun (capacity cacheSize) (lifetime expireTimeSec) [] calls := by
  have size : (Cache.new κ υ cacheSize expireTimeSec).raw.size = capacity cacheSize := by
    simp only [Cache.new, construct, capacity]
    split <;> omega
  rw [← size]
  cases calls with
  | nil => rfl
  | cons first rest =>
    have agree : Agree (lifetime expireTimeSec) first.1 (Cache.new κ υ cacheSize expireTimeSec) [] :=
      fun _ _ => rfl
    apply run_ideal (new_sameLife cacheSize expireTimeSec) agree _ clock
    intro call member
    rcases List.mem_cons.mp member with rfl | member
    · exact le_refl _
    · rw [List.map_cons, List.pairwise_cons] at clock
      exact clock.1 call.1 (List.mem_map_of_mem member)

/-- Capacity 2, expire time 10. At time 15 the entry of key 1 has expired and
is still stored; adding key 3 must not evict key 2. -/
def leftover : List (Int × Op Nat Nat) :=
  [(0, .add 1 10), (8, .add 2 20), (15, .add 3 30), (16, .get 1), (16, .get 2), (16, .get 3)]

theorem results_ideal_leftover :
    ((Cache.new Nat Nat 2 10).run leftover).2 = idealRun (capacity 2) (lifetime 10) [] leftover ∧
    idealRun (capacity 2) (lifetime 10) [] leftover =
      [none, none, none, none, some 20, some 30] :=
  ⟨results_ideal 2 10 leftover (by decide), by decide⟩

end IdealCache
