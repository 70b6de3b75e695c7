import Safwk.CacheEntries

/-!
# How long an entry survives

An entry leaves the cache by its own `Remove`, by `Clear`, by expiry, or because
it is the last of `size_` entries when another key is added. The keys in front of
it were all used after it was used itself, so the last case needs `size_`
different other keys since then.
-/

namespace CacheSurvival

open ExpireLruCache Recency CacheEntries

universe u v

variable {κ : Type u} {υ : Type v} [DecidableEq κ]

/-- The key that an operation uses: the one passed to `Add` or hit by `Get`. -/
def usedIn : Op κ υ → Option υ → List κ
  | .add key _, _ => [key]
  | .get key, some _ => [key]
  | .get _, none => []
  | .remove _, _ => []
  | .clear, _ => []

/-- The keys used in a run, newest first. -/
def usedBy (c : Cache κ υ) : List (Int × Op κ υ) → List κ
  | [] => []
  | (now, op) :: rest =>
    usedBy (c.exec (fun _ => now) op).1 rest ++ usedIn op (c.exec (fun _ => now) op).2

/-- The operation neither replaces nor removes the entry of the key. -/
def Spares (key : κ) : Op κ υ → Prop
  | .add other _ => other ≠ key
  | .get _ => True
  | .remove other => other ≠ key
  | .clear => False

instance (key : κ) : (op : Op κ υ) → Decidable (Spares key op)
  | .add other _ => inferInstanceAs (Decidable (other ≠ key))
  | .get _ => inferInstanceAs (Decidable True)
  | .remove other => inferInstanceAs (Decidable (other ≠ key))
  | .clear => inferInstanceAs (Decidable False)

/-- The entry is there with only keys in front that were used since it was; or it
has expired, or `size` others were used since. -/
def Surviving (size : Nat) (expireTimeMilliSec : Int) (x : Stored κ υ) (used : List κ) (now : Int)
    (es : List (Stored κ υ)) : Prop :=
  x ∈ es ∧ ahead (keys es) x.key ⊆ ahead used x.key ∨
  x.key ∉ keys es ∧
    (live expireTimeMilliSec now x = false ∨ size ≤ (ahead used x.key).toFinset.card)

omit [DecidableEq κ] in
/-- An expired entry stays expired. -/
theorem live_before {expireTimeMilliSec now later : Int} (le : now ≤ later) {x : Stored κ υ}
    (dead : live expireTimeMilliSec now x = false) : live expireTimeMilliSec later x = false := by
  simp only [live, Expired, isExpired, Bool.not_eq_false', decide_eq_true_eq] at dead ⊢
  omega

/-- A use of another key keeps the keys used since. -/
theorem ahead_append_ne {used : List κ} {key : κ} {newer : List κ} (others : key ∉ newer) :
    ahead (newer ++ used) key = newer ++ ahead used key := by
  rw [ahead, List.takeWhile_append_of_pos]
  · rfl
  · intro other member
    simp only [decide_eq_true_eq]
    intro same
    exact others (same ▸ member)

theorem card_ahead_append {used newer : List κ} {key : κ} (others : key ∉ newer) :
    (ahead used key).toFinset.card ≤ (ahead (newer ++ used) key).toFinset.card := by
  rw [ahead_append_ne others, List.toFinset_append]
  exact Finset.card_le_card Finset.subset_union_right

/-- No operation but `Add` brings in a key. -/
theorem keys_execEntries {size : Nat} {expireTimeMilliSec now : Int} {es : List (Stored κ υ)}
    {op : Op κ υ} {key : κ} (spares : Spares key op) (absent : key ∉ keys es) :
    key ∉ keys (execEntries size expireTimeMilliSec now es op).1 := by
  have sub : ∀ es' : List (Stored κ υ), es'.Sublist es → key ∉ keys es' :=
    fun es' sublist there => absent ((keys_sublist sublist).subset there)
  cases op with
  | add other value =>
    have front : ∀ es' : List (Stored κ υ), es'.Sublist es →
        key ∉ keys ((⟨other, value, now⟩ : Stored κ υ) :: es') := by
      intro es' sublist there
      rcases List.mem_cons.mp there with same | there
      · exact spares same.symm
      · exact sub es' sublist there
    simp only [execEntries, lazyAdd]
    split
    · exact front _ List.filter_sublist
    · split
      · exact front _ (List.Sublist.refl es)
      · split
        · exact front _ (List.dropLast_sublist es)
        · exact front _ List.filter_sublist
  | get other =>
    cases found : find es other with
    | none => simpa only [execEntries, lazyGet, found] using absent
    | some e =>
      obtain ⟨member, rfl⟩ := find_some found
      simp only [execEntries, lazyGet, found]
      split
      · intro there
        rcases List.mem_cons.mp there with same | there
        · exact absent (same ▸ List.mem_map_of_mem member)
        · exact sub _ List.filter_sublist there
      · exact sub _ List.filter_sublist
  | remove other => exact sub _ List.filter_sublist
  | clear => exact sub _ (List.nil_sublist es)

/-- Without its entry a key is not used. -/
theorem not_usedIn {size : Nat} {expireTimeMilliSec now : Int} {es : List (Stored κ υ)}
    {op : Op κ υ} {key : κ} (spares : Spares key op) (absent : key ∉ keys es) :
    key ∉ usedIn op (execEntries size expireTimeMilliSec now es op).2 := by
  cases op with
  | add other value => simpa [usedIn] using Ne.symm spares
  | get other =>
    by_cases same : other = key
    · subst same
      simp [execEntries, lazyGet, find_eq_none.mpr absent, usedIn]
    · cases (execEntries size expireTimeMilliSec now es (.get other)).2 with
      | none => simp [usedIn]
      | some value => simpa [usedIn] using Ne.symm same
  | remove other => simp [usedIn]
  | clear => exact False.elim spares

/-- One operation on the entries. -/
theorem Surviving.exec {size : Nat} {expireTimeMilliSec now later : Int} {x : Stored κ υ}
    {used : List κ} {es : List (Stored κ υ)} (nodup : (keys es).Nodup)
    (surviving : Surviving size expireTimeMilliSec x used now es) (le : now ≤ later) (op : Op κ υ)
    (spares : Spares x.key op) :
    Surviving size expireTimeMilliSec x
      (usedIn op (execEntries size expireTimeMilliSec later es op).2 ++ used) later
      (execEntries size expireTimeMilliSec later es op).1 := by
  rcases surviving with ⟨member, front⟩ | ⟨absent, gone⟩
  · have grown : ∀ key ≠ x.key, key :: ahead (keys es) x.key ⊆ ahead (key :: used) x.key := by
      intro key different
      rw [ahead_cons_ne used different]
      exact List.cons_subset_cons key front
    cases op with
    | add key value =>
      have different : (⟨key, value, later⟩ : Stored κ υ).key ≠ x.key := spares
      rcases lazyAdd_ahead (live expireTimeMilliSec later) nodup size different member with
        ⟨stays, ahead'⟩ | ⟨leaves, dead | many⟩
      · exact Or.inl ⟨stays, List.Subset.trans ahead' (grown key spares)⟩
      · exact Or.inr ⟨leaves, Or.inl dead⟩
      · refine Or.inr ⟨leaves, Or.inr (le_trans many ?_)⟩
        apply Finset.card_le_card
        intro other inside
        exact List.mem_toFinset.mpr (grown key spares (List.mem_toFinset.mp inside))
    | get key =>
      by_cases same : key = x.key
      · subst same
        simp only [execEntries, lazyGet, find_of_mem nodup member]
        cases alive : live expireTimeMilliSec later x with
        | true =>
          refine Or.inl ⟨List.mem_cons_self, ?_⟩
          rw [if_pos rfl, keys, List.map_cons, ahead_cons_self]
          exact List.nil_subset _
        | false =>
          refine Or.inr ⟨?_, Or.inl alive⟩
          exact find_eq_none.mp (find_without_self x.key)
      · obtain ⟨stays, ahead'⟩ :=
          lazyGet_ahead (live expireTimeMilliSec later) nodup same member
        refine Or.inl ⟨stays, List.Subset.trans ahead' ?_⟩
        simp only [execEntries]
        cases (lazyGet es (live expireTimeMilliSec later) key).2 with
        | none => exact front
        | some value => exact grown key same
    | remove key =>
      have inside := mem_without member spares
      refine Or.inl ⟨inside, List.Subset.trans ?_ front⟩
      exact ahead_sublist (keys_sublist List.filter_sublist) nodup (List.mem_map_of_mem inside)
    | clear => exact False.elim spares
  · refine Or.inr ⟨keys_execEntries spares absent, ?_⟩
    rcases gone with dead | many
    · exact Or.inl (live_before le dead)
    · exact Or.inr (le_trans many (card_ahead_append (not_usedIn spares absent)))

theorem Surviving.later {size : Nat} {expireTimeMilliSec now later : Int} {x : Stored κ υ}
    {used : List κ} {es : List (Stored κ υ)}
    (surviving : Surviving size expireTimeMilliSec x used now es) (le : now ≤ later) :
    Surviving size expireTimeMilliSec x used later es := by
  rcases surviving with stays | ⟨absent, dead | many⟩
  · exact Or.inl stays
  · exact Or.inr ⟨absent, Or.inl (live_before le dead)⟩
  · exact Or.inr ⟨absent, Or.inr many⟩

/-! ## Runs of the cache -/

theorem run_append (c : Cache κ υ) (first second : List (Int × Op κ υ)) :
    (c.run (first ++ second)).1 = ((c.run first).1.run second).1 := by
  induction first generalizing c with
  | nil => rfl
  | cons call rest ih =>
    obtain ⟨now, op⟩ := call
    simp only [List.cons_append, Cache.run, ih]

theorem run_params (c : Cache κ υ) (calls : List (Int × Op κ υ)) :
    (c.run calls).1.raw.size = c.raw.size ∧
    (c.run calls).1.raw.expireTimeMilliSec = c.raw.expireTimeMilliSec := by
  induction calls generalizing c with
  | nil => exact ⟨rfl, rfl⟩
  | cons call rest ih =>
    obtain ⟨now, op⟩ := call
    obtain ⟨size, expire, _⟩ := exec_entries now c.wellFormed (c.exec_eq (fun _ => now) op)
    obtain ⟨size', expire'⟩ := ih (c.exec (fun _ => now) op).1
    exact ⟨size'.trans size, expire'.trans expire⟩

theorem Surviving.run {c : Cache κ υ} {x : Stored κ υ} {used : List κ} {now final : Int}
    (surviving : Surviving c.raw.size c.raw.expireTimeMilliSec x used now (entries c.raw))
    (le : now ≤ final) (calls : List (Int × Op κ υ))
    (clock : ((now :: calls.map Prod.fst) ++ [final]).Pairwise (· ≤ ·))
    (spares : ∀ call ∈ calls, Spares x.key call.2) :
    Surviving c.raw.size c.raw.expireTimeMilliSec x (usedBy c calls ++ used) final
      (entries (c.run calls).1.raw) := by
  induction calls generalizing c used now with
  | nil => exact surviving.later le
  | cons call rest ih =>
    obtain ⟨time, op⟩ := call
    simp only [List.map_cons, List.cons_append, List.pairwise_cons] at clock
    obtain ⟨after, rising⟩ := clock
    have before : now ≤ time := after time List.mem_cons_self
    obtain ⟨size, expire, executed⟩ :=
      exec_entries time c.wellFormed (c.exec_eq (fun _ => time) op)
    have next := surviving.exec (nodup_entries c.wellFormed) before op
      (spares (time, op) List.mem_cons_self)
    rw [← executed, ← size, ← expire] at next
    have upTo : time ≤ final := rising.1 final (by simp)
    have tail := ih next upTo (by simpa using rising)
      fun call member => spares call (List.mem_cons_of_mem _ member)
    rw [size, expire] at tail
    simpa only [Cache.run, usedBy, List.append_assoc] using tail

/-- A new entry is in front. -/
theorem added_surviving (c : Cache κ υ) (key : κ) (value : υ) (now : Int) :
    Surviving c.raw.size c.raw.expireTimeMilliSec ⟨key, value, now⟩ [] now
      (entries (c.exec (fun _ => now) (.add key value)).1.raw) := by
  obtain ⟨_, _, executed⟩ :=
    exec_entries now c.wellFormed (c.exec_eq (fun _ => now) (.add key value))
  obtain ⟨rest, front⟩ : ∃ rest, entries (c.exec (fun _ => now) (.add key value)).1.raw =
      ⟨key, value, now⟩ :: rest := by
    have added := congrArg Prod.fst executed
    simp only [execEntries, lazyAdd] at added
    rw [added]
    split
    · exact ⟨_, rfl⟩
    · split
      · exact ⟨_, rfl⟩
      · split <;> exact ⟨_, rfl⟩
  rw [front]
  refine Or.inl ⟨List.mem_cons_self, ?_⟩
  rw [keys, List.map_cons, ahead_cons_self]
  exact List.nil_subset _

/-- A surviving entry that has not expired, with fewer than `size` others used since,
is what `Get` returns. -/
theorem Surviving.get {c : Cache κ υ} {x : Stored κ υ} {used : List κ} {now : Int}
    (surviving : Surviving c.raw.size c.raw.expireTimeMilliSec x used now (entries c.raw))
    (alive : live c.raw.expireTimeMilliSec now x = true)
    (few : (ahead used x.key).toFinset.card < c.raw.size) :
    (c.exec (fun _ => now) (.get x.key)).2 = some x.value := by
  obtain ⟨_, _, executed⟩ := exec_entries now c.wellFormed (c.exec_eq (fun _ => now) (.get x.key))
  have result := congrArg Prod.snd executed
  rcases surviving with ⟨member, _⟩ | ⟨_, dead | many⟩
  · have found := find_of_mem (nodup_entries c.wellFormed) member
    simp only [execEntries, lazyGet, found, alive, if_true] at result
    exact result
  · rw [alive] at dead
    cases dead
  · omega

omit [DecidableEq κ] in
theorem live_of_young {expireTimeMilliSec now : Int} {x : Stored κ υ}
    (young : expireTimeMilliSec = 0 ∨ now - x.stamp ≤ expireTimeMilliSec) :
    live expireTimeMilliSec now x = true := by
  simp only [live, Expired, isExpired, Bool.not_eq_true', decide_eq_false_iff_not,
    decide_eq_true_eq]
  omega

/-- Any capacity, expire time and run with a clock that does not go back and is
read once for each operation: after the last `Add` of a key, without a `Remove` of
it or a `Clear`, within its expire time, and with fewer than `size_` other keys
used since it was last used itself, `Get` returns the value. -/
theorem get_survives (cacheSize : Nat) (expireTimeSec : Int)
    (before after : List (Int × Op κ υ)) (key : κ) (value : υ) (added now : Int)
    (clock : ((before ++ (added, Op.add key value) :: (after ++ [(now, Op.get key)])).map
      Prod.fst).Pairwise (· ≤ ·))
    (spares : ∀ call ∈ after, Spares key call.2)
    (young : (Cache.new κ υ cacheSize expireTimeSec).raw.expireTimeMilliSec = 0 ∨
      now - added ≤ (Cache.new κ υ cacheSize expireTimeSec).raw.expireTimeMilliSec)
    (few : (ahead (usedBy ((Cache.new κ υ cacheSize expireTimeSec).run
        (before ++ [(added, .add key value)])).1 after) key).toFinset.card <
      (Cache.new κ υ cacheSize expireTimeSec).raw.size) :
    (((Cache.new κ υ cacheSize expireTimeSec).run
      (before ++ (added, .add key value) :: after)).1.exec (fun _ => now) (.get key)).2 =
        some value := by
  generalize Cache.new κ υ cacheSize expireTimeSec = c at young few ⊢
  -- the cache before the last `Add`, after it, and before the `Get`
  have start := added_surviving (c.run before).1 key value added
  have split : (c.run (before ++ [(added, .add key value)])).1 =
      ((c.run before).1.exec (fun _ => added) (.add key value)).1 := by
    rw [run_append]
    rfl
  have whole : (c.run (before ++ (added, .add key value) :: after)).1 =
      ((c.run (before ++ [(added, .add key value)])).1.run after).1 := by
    rw [← run_append, List.append_assoc, List.singleton_append]
  obtain ⟨size, expire⟩ := run_params c (before ++ [(added, .add key value)])
  obtain ⟨size', expire'⟩ := run_params c before
  obtain ⟨size'', expire''⟩ := run_params c (before ++ (added, .add key value) :: after)
  rw [← split, size', expire', ← size, ← expire] at start
  rw [List.map_append, List.pairwise_append, List.map_cons, List.map_append] at clock
  have rising := clock.2.1
  have upTo : added ≤ now := by
    rw [List.pairwise_cons] at rising
    exact rising.1 now (by simp)
  have final := start.run upTo after (by simpa using rising) spares
  rw [List.append_nil, ← whole, size, expire, ← size'', ← expire''] at final
  rw [← expire''] at young
  rw [← size''] at few
  exact final.get (live_of_young young) few

/-- Capacity 2: key 1 is hit between the two other keys, so only one of them has
been used since. -/
def hitBetween : List (Int × Op Nat Nat) :=
  [(1, .add 2 20), (2, .get 1), (3, .add 3 30), (4, .remove 7)]

theorem get_survives_hitBetween :
    (ahead (usedBy ((Cache.new Nat Nat 2 100).run [(0, .add 1 10)]).1 hitBetween) 1) = [3] ∧
    (((Cache.new Nat Nat 2 100).run ([] ++ (0, .add 1 10) :: hitBetween)).1.exec (fun _ => 5)
      (.get 1)).2 = some 10 := by
  have few : ahead (usedBy ((Cache.new Nat Nat 2 100).run
      ([] ++ [(0, .add 1 10)])).1 hitBetween) 1 = [3] := by decide
  refine ⟨few, get_survives 2 100 [] hitBetween 1 10 0 5 (by decide) (by decide) (by decide) ?_⟩
  rw [few]
  decide

end CacheSurvival
