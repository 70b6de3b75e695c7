import Mathlib.Data.List.Nodup
import Mathlib.Data.List.Range
import Safwk.RustAbilities

/-!
# Who holds a stub and who owns a wrapper

The references to a `RemoteServiceStub` are those of the calls, of the other processes and
of every `publishObj_` whose reference no assignment gave up. `StubsOk` and `WrappersOk` say
that the counts are right and that the live blocks are those that are held or owned.
-/

namespace RustHolders

open Ownership RustAbilities

/-! ## Holders of a stub -/

/-- The `publishObj_` of the wrapper has a reference to the stub: it points to it, and no
assignment gave that reference up. -/
def pointsTo (publishObj : List (Option Nat)) (storing : List (Nat × Nat)) (k w : Nat) : Bool :=
  publishObj[w]? == some (some k) && !storing.any fun call => call.1 == w

def objects (publishObj : List (Option Nat)) (storing : List (Nat × Nat)) (k : Nat) : Nat :=
  (List.range publishObj.length).countP (pointsTo publishObj storing k)

/-- How many of these calls have a reference to the stub. -/
def refs (calls : List (Nat × Nat)) (k : Nat) : Nat := calls.countP fun call => call.2 == k

/-- How many references to a stub there are. -/
def held (s : State) (k : Nat) : Nat :=
  refs s.publishing k + refs s.assigning k + refs s.storing k + s.serving.count k +
    s.remotes.count k + objects s.publishObj s.storing k

theorem countP_erase_add {α : Type} [BEq α] [LawfulBEq α] {l : List α} {a : α} (f : α → Bool)
    (member : a ∈ l) : (l.erase a).countP f + (f a).toNat = l.countP f := by
  have perm := (List.perm_cons_erase member).countP_eq f
  rw [perm, List.countP_cons]
  cases f a <;> rfl

theorem refs_cons (calls : List (Nat × Nat)) (w k j : Nat) :
    refs ((w, k) :: calls) j = refs calls j + if j = k then 1 else 0 := by
  rw [refs, refs, List.countP_cons]
  by_cases same : j = k
  · simp [same]
  · simp [same, Ne.symm same]

theorem refs_erase {calls : List (Nat × Nat)} {w k : Nat} (member : (w, k) ∈ calls) (j : Nat) :
    refs (calls.erase (w, k)) j + (if j = k then 1 else 0) = refs calls j := by
  have total := countP_erase_add (fun call => call.2 == j) member
  have flag : (k == j).toNat = if j = k then 1 else 0 := by
    by_cases same : j = k
    · simp [same]
    · simp [same, Ne.symm same]
  rw [flag] at total
  exact total

theorem refs_pos {calls : List (Nat × Nat)} {w k : Nat} (member : (w, k) ∈ calls) :
    0 < refs calls k :=
  List.countP_pos_iff.mpr ⟨_, member, beq_self_eq_true k⟩

theorem count_erase_add {l : List Nat} {k : Nat} (member : k ∈ l) (j : Nat) :
    (l.erase k).count j + (if j = k then 1 else 0) = l.count j := by
  rw [List.count_erase]
  by_cases same : j = k
  · subst same
    have positive := List.count_pos_iff.mpr member
    simp only [beq_self_eq_true, if_true]
    omega
  · simp [same, Ne.symm same]

theorem count_cons_add (l : List Nat) (k j : Nat) :
    (k :: l).count j = l.count j + if j = k then 1 else 0 := by
  rw [List.count_cons]
  by_cases same : j = k
  · simp [same]
  · simp [same, Ne.symm same]

section Objects

variable {publishObj changed : List (Option Nat)} {storing storing' : List (Nat × Nat)}
  {w k : Nat}

theorem pointsTo_iff : pointsTo publishObj storing k w = true ↔
    publishObj[w]? = some (some k) ∧ ∀ call ∈ storing, call.1 ≠ w := by
  simp [pointsTo]

/-- How the count of references changes with one `publishObj_`. -/
theorem objects_change (length : changed.length = publishObj.length)
    (inside : w < publishObj.length)
    (others : ∀ v, v ≠ w → pointsTo changed storing' k v = pointsTo publishObj storing k v) :
    objects changed storing' k + (pointsTo publishObj storing k w).toNat =
      objects publishObj storing k + (pointsTo changed storing' k w).toNat := by
  have member : w ∈ List.range publishObj.length := List.mem_range.mpr inside
  have before := countP_erase_add (pointsTo publishObj storing k) member
  have after := countP_erase_add (pointsTo changed storing' k) member
  have rest : ((List.range publishObj.length).erase w).countP (pointsTo changed storing' k) =
      ((List.range publishObj.length).erase w).countP (pointsTo publishObj storing k) := by
    apply List.countP_congr
    intro v inRest
    rw [others v (List.nodup_range.mem_erase_iff.mp inRest).1]
  rw [objects, objects, length]
  omega

/-- A pointer that nobody assigns to is a reference to the stub that is there. -/
theorem pointsTo_toNat {old : Nat} (found : publishObj[w]? = some (some old))
    (settled : ∀ call ∈ storing, call.1 ≠ w) :
    (pointsTo publishObj storing k w).toNat = if k = old then 1 else 0 := by
  by_cases same : k = old
  · subst same
    rw [pointsTo_iff.mpr ⟨found, settled⟩, if_pos rfl]
    rfl
  · have other : pointsTo publishObj storing k w = false := by
      simp [pointsTo, found, Ne.symm same]
    rw [other, if_neg same]
    rfl

theorem pointsTo_null (null : ∀ old, publishObj[w]? ≠ some (some old)) :
    pointsTo publishObj storing k w = false := by
  simp [pointsTo, null k]

theorem pointsTo_storing {new : Nat} (running : (w, new) ∈ storing) :
    pointsTo publishObj storing k w = false := by
  rw [← Bool.not_eq_true, pointsTo_iff]
  exact fun points => points.2 (w, new) running rfl

end Objects

section Held

variable {s : State} {w k : Nat}

theorem held_of_publishing (running : (w, k) ∈ s.publishing) : 0 < held s k := by
  have positive := refs_pos running
  rw [held]
  omega

theorem held_of_serving (running : k ∈ s.serving) : 0 < held s k := by
  have positive := List.count_pos_iff.mpr running
  rw [held]
  omega

theorem held_of_remotes (known : k ∈ s.remotes) : 0 < held s k := by
  have positive := List.count_pos_iff.mpr known
  rw [held]
  omega

theorem held_of_object (found : s.publishObj[w]? = some (some k))
    (settled : ∀ call ∈ s.storing, call.1 ≠ w) : 0 < held s k := by
  have inside := (List.getElem?_eq_some_iff.mp found).1
  have positive : 0 < objects s.publishObj s.storing k :=
    List.countP_pos_iff.mpr ⟨w, List.mem_range.mpr inside, pointsTo_iff.mpr ⟨found, settled⟩⟩
  rw [held]
  omega

end Held

/-- The stubs and their boxes, `held` being the number of references. -/
structure StubsOk (held : Nat → Nat) (s : State) : Prop where
  counted : Counted held s.remoteStubs
  owned : Owned (fun p => p ∈ s.lost ∨ ∃ k, s.inner[k]? = some p ∧ 0 < held k) s.abilityStubs
  complete : s.inner.length = s.remoteStubs.blocks.next
  nodup : s.inner.Nodup
  below : ∀ p ∈ s.inner, p < s.abilityStubs.next
  apart : ∀ p ∈ s.lost, p ∉ s.inner

section Stubs

variable {h h' : Nat → Nat} {s : State} {k : Nat}

theorem StubsOk.box (ok : StubsOk h s) (mine : 0 < h k) : ∃ p, s.inner[k]? = some p := by
  have inside := ok.counted.owned.below k mine
  rw [← ok.complete] at inside
  exact ⟨_, List.getElem?_eq_getElem inside⟩

theorem StubsOk.acquire (ok : StubsOk h s) (mine : 0 < h k)
    (grown : ∀ j, h' j = if j = k then h j + 1 else h j) :
    StubsOk h' { s with remoteStubs := s.remoteStubs.acquire k } := by
  have same : (s.remoteStubs.acquire k).blocks = s.remoteStubs.blocks := ok.counted.owned.use mine
  have positive : ∀ j, 0 < h' j ↔ 0 < h j := by
    intro j
    rw [grown j]
    by_cases here : j = k
    · subst here
      simp [mine]
    · simp [here]
  refine ⟨ok.counted.acquire mine grown, ?_, ?_, ok.nodup, ok.below, ok.apart⟩
  · refine ok.owned.congr ?_
    intro p
    simp only [positive]
  · dsimp only
    rw [same]
    exact ok.complete

theorem StubsOk.dropRef (ok : StubsOk h s) (mine : 0 < h k)
    (shrunk : ∀ j, h' j = if j = k then h j - 1 else h j) : StubsOk h' (dropRef s k) := by
  obtain ⟨box, here⟩ := ok.box mine
  have next : (s.remoteStubs.release k).blocks.next = s.remoteStubs.blocks.next := by
    simp only [Shared.release, Blocks.free, Blocks.use]
    split <;> split <;> rfl
  have counted : Counted h' (s.remoteStubs.release k) := ok.counted.release mine shrunk
  by_cases last : h k = 1
  · -- the last reference: nobody else points to the box
    have isLast : s.remoteStubs.isLast k = true := ok.counted.isLast.mpr last
    have frees : (RustAbilities.dropRef s k).abilityStubs = s.abilityStubs.free box := by
      simp only [RustAbilities.dropRef, isLast, if_true, here]
    have nextFree : (s.abilityStubs.free box).next = s.abilityStubs.next := by
      simp only [Blocks.free]
      split <;> rfl
    refine ⟨counted, ?_, ok.complete.trans next.symm, ok.nodup, ?_, ok.apart⟩
    · rw [frees]
      refine (ok.owned.free (Or.inr ⟨k, here, mine⟩)).congr ?_
      intro p
      constructor
      · rintro (lost | ⟨j, other, positive⟩)
        · refine ⟨Or.inl lost, ?_⟩
          rintro rfl
          exact ok.apart p lost (List.mem_of_getElem? here)
        · have different : j ≠ k := by
            rintro rfl
            rw [shrunk j, if_pos rfl, last] at positive
            omega
          rw [shrunk j, if_neg different] at positive
          refine ⟨Or.inr ⟨j, other, positive⟩, ?_⟩
          rintro rfl
          have inside := (List.getElem?_eq_some_iff.mp other).1
          exact different ((List.getElem?_inj inside ok.nodup).mp (other.trans here.symm))
      · rintro ⟨lost | ⟨j, other, positive⟩, notBox⟩
        · exact Or.inl lost
        · have different : j ≠ k := by
            rintro rfl
            exact notBox (Option.some.inj (other.symm.trans here))
          exact Or.inr ⟨j, other, by rw [shrunk j, if_neg different]; exact positive⟩
    · intro p member
      rw [frees, nextFree]
      exact ok.below p member
  · have notLast : s.remoteStubs.isLast k = false := by
      rw [← Bool.not_eq_true, ok.counted.isLast]
      exact last
    have keeps : (RustAbilities.dropRef s k).abilityStubs = s.abilityStubs := by
      simp only [RustAbilities.dropRef, notLast, Bool.false_eq_true, if_false]
    refine ⟨counted, ?_, ok.complete.trans next.symm, ok.nodup, ?_, ok.apart⟩
    · rw [keeps]
      refine ok.owned.congr ?_
      intro p
      have positive : ∀ j, 0 < h' j ↔ 0 < h j := by
        intro j
        rw [shrunk j]
        by_cases same : j = k
        · subst same
          simp only [if_true]
          omega
        · simp [same]
      simp only [positive]
      rfl
    · intro p member
      rw [keeps]
      exact ok.below p member

theorem StubsOk.create (ok : StubsOk h s) (w : Nat)
    (grown : ∀ j, h' j = if j = s.remoteStubs.blocks.next then 1 else h j) :
    StubsOk h' { s with
      abilityStubs := s.abilityStubs.alloc
      remoteStubs := s.remoteStubs.create
      inner := s.inner ++ [s.abilityStubs.next]
      publishing := (w, s.remoteStubs.blocks.next) :: s.publishing } := by
  have fresh : s.abilityStubs.next ∉ s.inner := fun member =>
    Nat.lt_irrefl _ (ok.below _ member)
  refine ⟨ok.counted.create grown, ?_, ?_, ?_, ?_, ?_⟩
  · refine ok.owned.alloc.congr ?_
    intro p
    constructor
    · rintro (lost | ⟨k, here, positive⟩)
      · exact Or.inl (Or.inl lost)
      · by_cases last : k = s.remoteStubs.blocks.next
        · subst last
          rw [← ok.complete, List.getElem?_concat_length] at here
          exact Or.inr (Option.some.inj here).symm
        · rw [grown k, if_neg last] at positive
          have inside := ok.counted.owned.below k positive
          rw [← ok.complete] at inside
          rw [List.getElem?_append_left inside] at here
          exact Or.inl (Or.inr ⟨k, here, positive⟩)
    · rintro ((lost | ⟨k, here, positive⟩) | rfl)
      · exact Or.inl lost
      · have inside := ok.counted.owned.below k positive
        have notNew : k ≠ s.remoteStubs.blocks.next := Nat.ne_of_lt inside
        rw [← ok.complete] at inside
        refine Or.inr ⟨k, ?_, ?_⟩
        · rw [List.getElem?_append_left inside]
          exact here
        · rw [grown k, if_neg notNew]
          exact positive
      · refine Or.inr ⟨s.remoteStubs.blocks.next, ?_, ?_⟩
        · rw [← ok.complete, List.getElem?_concat_length]
        · rw [grown, if_pos rfl]
          exact Nat.one_pos
  · simp [Shared.create, Blocks.alloc, ok.complete]
  · exact List.nodup_append.mpr ⟨ok.nodup, List.nodup_singleton _, by
      intro p member q last
      rw [List.mem_singleton.mp last]
      rintro rfl
      exact fresh member⟩
  · intro p member
    rcases List.mem_append.mp member with old | last
    · exact Nat.lt_succ_of_lt (ok.below p old)
    · rw [List.mem_singleton.mp last]
      exact Nat.lt_succ_self _
  · intro p lost member
    rcases List.mem_append.mp member with old | last
    · exact ok.apart p lost old
    · rw [List.mem_singleton.mp last] at lost
      exact Nat.lt_irrefl _ (ok.owned.below _ (Or.inl lost))

/-- The parts of the state that `StubsOk` is about. -/
theorem StubsOk.congr {t : State} (ok : StubsOk h s) (remoteStubs : t.remoteStubs = s.remoteStubs)
    (abilityStubs : t.abilityStubs = s.abilityStubs) (inner : t.inner = s.inner)
    (lost : t.lost = s.lost) : StubsOk h t := by
  refine ⟨?_, ?_, ?_, ?_, ?_, ?_⟩
  · rw [remoteStubs]
    exact ok.counted
  · rw [abilityStubs, inner, lost]
    exact ok.owned
  · rw [remoteStubs, inner]
    exact ok.complete
  · rw [inner]
    exact ok.nodup
  · rw [abilityStubs, inner]
    exact ok.below
  · rw [inner, lost]
    exact ok.apart

/-- `MakeSptr` returns null and the box stays where it is. -/
theorem StubsOk.lose (ok : StubsOk h s) :
    StubsOk h { s with
      abilityStubs := s.abilityStubs.alloc, lost := s.abilityStubs.next :: s.lost } := by
  refine ⟨ok.counted, ?_, ok.complete, ok.nodup, fun p member => Nat.lt_succ_of_lt (ok.below p member), ?_⟩
  · refine ok.owned.alloc.congr ?_
    intro p
    simp only [List.mem_cons]
    rw [or_assoc, or_comm]
  · intro p lost member
    rcases List.mem_cons.mp lost with rfl | old
    · exact Nat.lt_irrefl _ (ok.below _ member)
    · exact ok.apart p old member

end Stubs

/-! ## The wrappers -/

/-- The wrapper has an owner: a Rust value, or it was given up with `into_raw`. -/
def Kept (s : State) (w : Nat) : Prop := w ∈ s.unique ∨ w ∈ s.raw

structure WrappersOk (s : State) : Prop where
  wrappers : Owned (Kept s) s.systemAbilities
  boxes : Owned (Kept s) s.abilityWrappers
  nexts : s.abilityWrappers.next = s.systemAbilities.next
  ability : s.ability = List.range s.systemAbilities.next
  objects : s.publishObj.length = s.systemAbilities.next
  nodup : s.unique.Nodup
  apart : ∀ w ∈ s.unique, w ∉ s.raw
  registered : ∀ w ∈ s.registered, w ∈ s.raw
  handlers : ∀ w ∈ s.handlers, w ∈ s.raw
  publishing : ∀ call ∈ s.publishing, call.1 ∈ s.raw

section Wrappers

variable {s : State} {w k : Nat}

theorem WrappersOk.box (ok : WrappersOk s) (kept : Kept s w) : s.ability[w]? = some w := by
  rw [ok.ability, List.getElem?_range (ok.wrappers.below w kept)]

/-- A callback on a wrapper that is kept finds everything alive. -/
theorem WrappersOk.callAbility (ok : WrappersOk s) (kept : Kept s w) : callAbility s w = s := by
  simp only [RustAbilities.callAbility, ok.box kept, ok.wrappers.use kept, ok.boxes.use kept]

theorem WrappersOk.use (ok : WrappersOk s) (kept : Kept s w) :
    s.systemAbilities.use w = s.systemAbilities :=
  ok.wrappers.use kept

/-- The parts of the state that `WrappersOk` is about. -/
theorem WrappersOk.congr {t : State} (ok : WrappersOk s)
    (systemAbilities : t.systemAbilities = s.systemAbilities)
    (abilityWrappers : t.abilityWrappers = s.abilityWrappers) (ability : t.ability = s.ability)
    (objects : t.publishObj.length = s.publishObj.length) (unique : t.unique = s.unique)
    (raw : t.raw = s.raw) (registered : ∀ w ∈ t.registered, w ∈ s.registered)
    (handlers : ∀ w ∈ t.handlers, w ∈ s.handlers ∨ w ∈ s.registered)
    (publishing : ∀ call ∈ t.publishing, call ∈ s.publishing ∨ call.1 ∈ s.handlers) :
    WrappersOk t := by
  have kept : ∀ w, Kept t w ↔ Kept s w := by
    intro w
    simp only [Kept, unique, raw]
  refine ⟨?_, ?_, ?_, ?_, ?_, ?_, ?_, ?_, ?_, ?_⟩
  · rw [systemAbilities]
    exact ok.wrappers.congr kept
  · rw [abilityWrappers]
    exact ok.boxes.congr kept
  · rw [abilityWrappers, systemAbilities]
    exact ok.nexts
  · rw [ability, systemAbilities]
    exact ok.ability
  · rw [objects, systemAbilities]
    exact ok.objects
  · rw [unique]
    exact ok.nodup
  · rw [unique, raw]
    exact ok.apart
  · intro w member
    rw [raw]
    exact ok.registered w (registered w member)
  · intro w member
    rw [raw]
    rcases handlers w member with old | new
    · exact ok.handlers w old
    · exact ok.registered w new
  · intro call member
    rw [raw]
    rcases publishing call member with old | new
    · exact ok.publishing call old
    · exact ok.handlers _ new

theorem WrappersOk.frame {t : State} (ok : WrappersOk s)
    (systemAbilities : t.systemAbilities = s.systemAbilities)
    (abilityWrappers : t.abilityWrappers = s.abilityWrappers) (ability : t.ability = s.ability)
    (objects : t.publishObj.length = s.publishObj.length) (unique : t.unique = s.unique)
    (raw : t.raw = s.raw) (registered : t.registered = s.registered)
    (handlers : t.handlers = s.handlers) (publishing : t.publishing = s.publishing) :
    WrappersOk t := by
  refine ok.congr systemAbilities abilityWrappers ability objects unique raw ?_ ?_ ?_
  · rw [registered]
    exact fun _ member => member
  · rw [handlers]
    exact fun _ member => Or.inl member
  · rw [publishing]
    exact fun _ member => Or.inl member

theorem WrappersOk.freeWrapper (ok : WrappersOk s) (mine : w ∈ s.unique) :
    WrappersOk (freeWrapper { s with unique := s.unique.erase w } w) := by
  have kept : Kept s w := Or.inl mine
  have gone : ∀ p, (p ∈ s.unique.erase w ∨ p ∈ s.raw) ↔ Kept s p ∧ p ≠ w := by
    intro p
    rw [ok.nodup.mem_erase_iff, Kept]
    constructor
    · rintro (⟨other, member⟩ | given)
      · exact ⟨Or.inl member, other⟩
      · refine ⟨Or.inr given, ?_⟩
        rintro rfl
        exact ok.apart p mine given
    · rintro ⟨member | given, other⟩
      · exact Or.inl ⟨other, member⟩
      · exact Or.inr given
  have freeNext : ∀ b : Blocks, (b.free w).next = b.next := by
    intro b
    simp only [Blocks.free]
    split <;> rfl
  simp only [RustAbilities.freeWrapper, ok.box kept]
  refine ⟨(ok.wrappers.free kept).congr gone, (ok.boxes.free kept).congr gone, ?_, ?_, ?_,
    ok.nodup.erase w, ?_, ok.registered, ok.handlers, ok.publishing⟩
  · simp only [freeNext, ok.nexts]
  · simp only [freeNext, ok.ability]
  · simp only [freeNext, ok.objects, List.length_set]
  · intro v member
    exact ok.apart v (List.mem_of_mem_erase member)

end Wrappers

end RustHolders
