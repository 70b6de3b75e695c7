import Safwk.RustAccess

/-!
# No pointer between Rust and C++ dangles

The wrappers that are alive are those that a Rust value owns and those that were given up
to the manager; a `RemoteServiceStub` is alive as long as there is a reference to it, and
each box as long as what owns it. So no callback, no handler and no request finds a block
that is gone, nothing is freed twice, and the only box that no destructor will take back
is one that `MakeSptr` made no stub for.

This needs one thing that no lock of the source gives: a `publishObj_` that has a stub is
not assigned while it is read, and it is never assigned twice at once. The first `Publish`
of an ability may overlap with reads.
-/

namespace RustOwnership

open Transition Ownership RustAbilities RustHolders RustAccess

structure Inv (s : State) : Prop where
  wrappers : WrappersOk s
  stubs : StubsOk (held s) s
  access : AccessOk s

section Steps

variable {s : State} {w k : Nat}

/-- As many references as before, wherever they are kept. -/
theorem Inv.keep {t : State} (inv : Inv s) (wrappers : WrappersOk t) (access : AccessOk t)
    (remoteStubs : t.remoteStubs = s.remoteStubs) (abilityStubs : t.abilityStubs = s.abilityStubs)
    (inner : t.inner = s.inner) (lost : t.lost = s.lost) (same : ∀ j, held t j = held s j) :
    Inv t := by
  refine ⟨wrappers, ?_, access⟩
  rw [funext same]
  exact inv.stubs.congr remoteStubs abilityStubs inner lost

/-- A reference more, wherever it is kept. -/
theorem Inv.acquire {t : State} (inv : Inv s) (mine : 0 < held s k) (wrappers : WrappersOk t)
    (access : AccessOk t) (remoteStubs : t.remoteStubs = s.remoteStubs.acquire k)
    (abilityStubs : t.abilityStubs = s.abilityStubs) (inner : t.inner = s.inner)
    (lost : t.lost = s.lost) (grown : ∀ j, held t j = held s j + if j = k then 1 else 0) : Inv t := by
  refine ⟨wrappers, ?_, access⟩
  have more : StubsOk (held t) { s with remoteStubs := s.remoteStubs.acquire k } := by
    refine inv.stubs.acquire mine ?_
    intro j
    rw [grown j]
    split <;> rfl
  exact more.congr remoteStubs abilityStubs inner lost

/-- A reference less: `before` is the state before it is taken out of the state. -/
theorem Inv.release {before : State} (inv : Inv before) (mine : 0 < held before k)
    (wrappers : WrappersOk s) (access : AccessOk s) (remoteStubs : s.remoteStubs = before.remoteStubs)
    (abilityStubs : s.abilityStubs = before.abilityStubs) (inner : s.inner = before.inner)
    (lost : s.lost = before.lost)
    (shrunk : ∀ j, held s j + (if j = k then 1 else 0) = held before j) : Inv (dropRef s k) := by
  refine ⟨wrappers.frame rfl rfl rfl rfl rfl rfl rfl rfl rfl, ?_,
    access.frame rfl rfl rfl rfl (fun _ member => member) (fun _ member => member)⟩
  have stubs : StubsOk (held before) s :=
    inv.stubs.congr remoteStubs abilityStubs inner lost
  refine stubs.dropRef mine ?_
  intro j
  have here : held (dropRef s k) j = held s j := rfl
  have total := shrunk j
  rw [here]
  split
  · rename_i same
    rw [if_pos same] at total
    omega
  · rename_i other
    rw [if_neg other] at total
    omega

theorem Inv.build (inv : Inv s) :
    Inv { s with
      abilityWrappers := s.abilityWrappers.alloc
      systemAbilities := s.systemAbilities.alloc
      ability := s.ability ++ [s.abilityWrappers.next]
      publishObj := s.publishObj ++ [none]
      unique := s.systemAbilities.next :: s.unique } := by
  have ok := inv.wrappers
  have new : ¬Kept s s.systemAbilities.next := fun kept =>
    Nat.lt_irrefl _ (ok.wrappers.below _ kept)
  have old : ∀ w, w < s.publishObj.length → (s.publishObj ++ [none])[w]? = s.publishObj[w]? :=
    fun w inside => List.getElem?_append_left inside
  refine inv.keep ⟨?_, ?_, ?_, ?_, ?_, ?_, ?_, ok.registered, ok.handlers, ok.publishing⟩ ?_
    rfl rfl rfl rfl ?_
  · refine ok.wrappers.alloc.congr ?_
    intro p
    simp only [Kept, List.mem_cons]
    rw [or_assoc, or_comm]
  · refine ok.boxes.alloc.congr ?_
    intro p
    simp only [Kept, List.mem_cons, ok.nexts]
    rw [or_assoc, or_comm]
  · simp [Blocks.alloc, ok.nexts]
  · simp [Blocks.alloc, ok.nexts, ok.ability, List.range_succ]
  · simp [Blocks.alloc, ok.objects]
  · exact List.nodup_cons.mpr ⟨fun member => new (Or.inl member), ok.nodup⟩
  · intro w member
    rcases List.mem_cons.mp member with rfl | old
    · exact fun given => new (Or.inr given)
    · exact ok.apart w old
  · refine inv.access.congr (fun _ given => given) ?_ rfl rfl (fun _ member => member)
      (fun _ member => member)
    intro w given
    refine old w ?_
    rw [ok.objects]
    exact ok.wrappers.below w (Or.inr given)
  · intro j
    have rest : (List.range s.publishObj.length).countP
        (pointsTo (s.publishObj ++ [none]) s.storing j) = objects s.publishObj s.storing j := by
      apply List.countP_congr
      intro w member
      rw [pointsTo, pointsTo, old w (List.mem_range.mp member)]
    have last : pointsTo (s.publishObj ++ [none]) s.storing j s.publishObj.length = false := by
      simp [pointsTo]
    have same : objects (s.publishObj ++ [none]) s.storing j =
        objects s.publishObj s.storing j := by
      rw [objects, List.length_append, List.length_singleton, List.range_succ, List.countP_append,
        rest, List.countP_singleton, last]
      rfl
    simp only [held, same]

theorem Inv.drop (inv : Inv s) (mine : w ∈ s.unique) :
    Inv (deleteWrapper { s with unique := s.unique.erase w } w) := by
  have ok := inv.wrappers
  have notGiven : w ∉ s.raw := ok.apart w mine
  have inside : w < s.publishObj.length := by
    rw [ok.objects]
    exact ok.wrappers.below w (Or.inl mine)
  have wrappers := ok.freeWrapper mine
  have access : AccessOk (freeWrapper { s with unique := s.unique.erase w } w) := by
    refine inv.access.congr (fun _ given => given) ?_ rfl rfl (fun _ member => member)
      (fun _ member => member)
    intro v given
    refine List.getElem?_set_ne ?_
    rintro rfl
    exact notGiven given
  -- nobody is left who assigns to the pointer
  have settled : ∀ call ∈ s.storing, call.1 ≠ w := by
    rintro call member rfl
    exact notGiven (inv.access.storing call member)
  have change : ∀ j, objects (s.publishObj.set w none) s.storing j +
      (pointsTo s.publishObj s.storing j w).toNat = objects s.publishObj s.storing j := by
    intro j
    have others : ∀ v, v ≠ w → pointsTo (s.publishObj.set w none) s.storing j v =
        pointsTo s.publishObj s.storing j v := by
      intro v other
      rw [pointsTo, pointsTo, List.getElem?_set_ne (Ne.symm other)]
    have null : pointsTo (s.publishObj.set w none) s.storing j w = false := by
      simp [pointsTo, inside]
    have moved := objects_change List.length_set inside others
    rw [null] at moved
    exact moved
  rw [deleteWrapper]
  split
  · rename_i old found
    refine inv.release (held_of_object found settled) wrappers access rfl rfl rfl rfl ?_
    intro j
    have moved := change j
    rw [pointsTo_toNat found settled] at moved
    simp only [held, RustAbilities.freeWrapper]
    omega
  · rename_i null
    refine inv.keep wrappers access rfl rfl rfl rfl ?_
    intro j
    have moved := change j
    rw [pointsTo_null null] at moved
    simp only [held, RustAbilities.freeWrapper, Bool.toNat_false] at moved ⊢
    omega

theorem Inv.register (inv : Inv s) (mine : w ∈ s.unique) (accepted : Bool) :
    Inv { s with
      systemAbilities := s.systemAbilities.use w
      unique := s.unique.erase w
      raw := w :: s.raw
      registered := if accepted then w :: s.registered else s.registered } := by
  have ok := inv.wrappers
  rw [ok.use (Or.inl mine)]
  have kept : ∀ v, (v ∈ s.unique.erase w ∨ v ∈ w :: s.raw) ↔ Kept s v := by
    intro v
    rw [ok.nodup.mem_erase_iff, List.mem_cons, Kept]
    by_cases same : v = w
    · subst same
      simp [mine]
    · simp [same]
  refine inv.keep ⟨ok.wrappers.congr kept, ok.boxes.congr kept, ok.nexts, ok.ability, ok.objects,
    ok.nodup.erase w, ?_, ?_, ?_, ?_⟩ ?_ rfl rfl rfl rfl (fun _ => rfl)
  · intro v member given
    obtain ⟨other, old⟩ := ok.nodup.mem_erase_iff.mp member
    rcases List.mem_cons.mp given with same | before
    · exact other same
    · exact ok.apart v old before
  · intro v member
    by_cases taken : accepted = true
    · simp only [taken, if_true, List.mem_cons] at member
      rcases member with rfl | old
      · exact List.mem_cons_self
      · exact List.mem_cons_of_mem _ (ok.registered v old)
    · simp only [taken] at member
      exact List.mem_cons_of_mem _ (ok.registered v member)
  · intro v member
    exact List.mem_cons_of_mem _ (ok.handlers v member)
  · intro call member
    exact List.mem_cons_of_mem _ (ok.publishing call member)
  · exact inv.access.congr (fun _ given => List.mem_cons_of_mem _ given) (fun _ _ => rfl) rfl rfl
      (fun _ member => member) (fun _ member => member)

theorem Inv.onStart (inv : Inv s) (known : w ∈ s.registered) :
    Inv { callAbility s w with handlers := w :: s.handlers } := by
  have ok := inv.wrappers
  rw [ok.callAbility (Or.inr (ok.registered w known))]
  refine inv.keep (ok.congr rfl rfl rfl rfl rfl rfl (fun _ member => member) ?_ (fun _ => Or.inl))
    (inv.access.frame rfl rfl rfl rfl (fun _ member => member) (fun _ member => member))
    rfl rfl rfl rfl (fun _ => rfl)
  intro v member
  rcases List.mem_cons.mp member with rfl | old
  · exact Or.inr known
  · exact Or.inl old

theorem Inv.callback (inv : Inv s) (known : w ∈ s.registered) : Inv (callAbility s w) := by
  rw [inv.wrappers.callAbility (Or.inr (inv.wrappers.registered w known))]
  exact inv

theorem Inv.use (inv : Inv s) (given : w ∈ s.raw) :
    Inv { s with systemAbilities := s.systemAbilities.use w } := by
  rw [inv.wrappers.use (Or.inr given)]
  exact inv

theorem Inv.lose (inv : Inv s) (given : w ∈ s.raw) :
    Inv { s with
      systemAbilities := s.systemAbilities.use w
      abilityStubs := s.abilityStubs.alloc
      lost := s.abilityStubs.next :: s.lost } := by
  obtain ⟨ok, stubs, access⟩ := inv
  rw [ok.use (Or.inr given)]
  exact ⟨ok.frame rfl rfl rfl rfl rfl rfl rfl rfl rfl, stubs.lose.congr rfl rfl rfl rfl,
    access.frame rfl rfl rfl rfl (fun _ member => member) (fun _ member => member)⟩

theorem Inv.publish (inv : Inv s) (known : w ∈ s.handlers) :
    Inv { s with
      systemAbilities := s.systemAbilities.use w
      abilityStubs := s.abilityStubs.alloc
      remoteStubs := s.remoteStubs.create
      inner := s.inner ++ [s.abilityStubs.next]
      publishing := (w, s.remoteStubs.blocks.next) :: s.publishing } := by
  obtain ⟨ok, stubs, access⟩ := inv
  rw [ok.use (Or.inr (ok.handlers w known))]
  refine ⟨ok.congr rfl rfl rfl rfl rfl rfl (fun _ member => member) (fun _ => Or.inl) ?_,
    stubs.create w ?_,
    access.frame rfl rfl rfl rfl (fun _ member => member) (fun _ member => member)⟩
  · intro call member
    rcases List.mem_cons.mp member with rfl | old
    · exact Or.inr known
    · exact Or.inl old
  · -- nobody has a reference to a stub that is not made yet
    have fresh : held s s.remoteStubs.blocks.next = 0 := by
      by_contra some
      exact Nat.lt_irrefl _ (stubs.counted.owned.below _ (Nat.pos_of_ne_zero some))
    intro j
    have more := refs_cons s.publishing w s.remoteStubs.blocks.next j
    by_cases new : j = s.remoteStubs.blocks.next
    · subst new
      simp only [held] at fresh
      simp only [held, more, if_true]
      omega
    · simp only [held, more, if_neg new]
      omega

/-- The assignment is alone and takes its reference. -/
theorem Inv.assign (inv : Inv s) (running : (w, k) ∈ s.publishing) (settled : assigns s w = 0)
    (unread : reads s w = false) :
    Inv { s with
      systemAbilities := s.systemAbilities.use w
      remoteStubs := s.remoteStubs.acquire k
      assigning := (w, k) :: s.assigning } := by
  have given := inv.wrappers.publishing _ running
  rw [inv.wrappers.use (Or.inr given)]
  refine inv.acquire (held_of_publishing running) ?_ ?_ rfl rfl rfl rfl ?_
  · exact inv.wrappers.frame rfl rfl rfl rfl rfl rfl rfl rfl rfl
  · exact inv.access.assign given settled unread rfl rfl rfl rfl rfl rfl
  · intro j
    have more := refs_cons s.assigning w k j
    simp only [held, more]
    omega

/-- The old stub loses a reference and the pointer is not one any more. -/
theorem Inv.giveUp (inv : Inv s) (running : (w, k) ∈ s.assigning) :
    Inv (match s.publishObj[w]? with
      | some (some old) => dropRef (toStoring s w k) old
      | _ => toStoring s w k) := by
  have given : w ∈ s.raw := inv.access.assigning _ running
  have inside : w < s.publishObj.length := by
    rw [inv.wrappers.objects]
    exact inv.wrappers.wrappers.below w (Or.inr given)
  have settled := inv.access.only running
  have wrappers : WrappersOk (toStoring s w k) :=
    inv.wrappers.frame (inv.wrappers.use (Or.inr given)) rfl rfl rfl rfl rfl rfl rfl rfl
  have access := inv.access.toStoring running
  have change : ∀ j, objects s.publishObj ((w, k) :: s.storing) j +
      (pointsTo s.publishObj s.storing j w).toNat = objects s.publishObj s.storing j := by
    intro j
    have others : ∀ v, v ≠ w → pointsTo s.publishObj ((w, k) :: s.storing) j v =
        pointsTo s.publishObj s.storing j v := by
      intro v other
      have different : (w == v) = false := beq_eq_false_iff_ne.mpr (Ne.symm other)
      simp [pointsTo, different]
    have stored : (w, k) ∈ (w, k) :: s.storing := List.mem_cons_self
    have moved := objects_change rfl inside others
    rw [pointsTo_storing stored] at moved
    exact moved
  have same : ∀ j, held (toStoring s w k) j + (pointsTo s.publishObj s.storing j w).toNat =
      held s j := by
    intro j
    have moved := change j
    have erased := refs_erase running j
    have more := refs_cons s.storing w k j
    simp only [held, toStoring, more]
    omega
  split
  · rename_i old found
    refine inv.release (held_of_object found settled) wrappers access rfl rfl rfl rfl ?_
    intro j
    rw [← same j, pointsTo_toNat found settled]
  · rename_i null
    refine inv.keep wrappers access rfl rfl rfl rfl ?_
    intro j
    rw [← same j, pointsTo_null null]
    rfl

/-- The reference that the assignment had is that of the pointer. -/
theorem Inv.store (inv : Inv s) (running : (w, k) ∈ s.storing) :
    Inv { s with
      systemAbilities := s.systemAbilities.use w
      publishObj := s.publishObj.set w (some k)
      storing := s.storing.erase (w, k) } := by
  have given : w ∈ s.raw := inv.access.storing _ running
  have inside : w < s.publishObj.length := by
    rw [inv.wrappers.objects]
    exact inv.wrappers.wrappers.below w (Or.inr given)
  rw [inv.wrappers.use (Or.inr given)]
  refine inv.keep ?_ (inv.access.store running rfl rfl rfl rfl rfl rfl) rfl rfl rfl rfl ?_
  · exact inv.wrappers.frame rfl rfl rfl List.length_set rfl rfl rfl rfl rfl
  · intro j
    have others : ∀ v, v ≠ w →
        pointsTo (s.publishObj.set w (some k)) (s.storing.erase (w, k)) j v =
          pointsTo s.publishObj s.storing j v := by
      intro v other
      have still : (s.storing.erase (w, k)).any (fun call => call.1 == v) =
          s.storing.any fun call => call.1 == v := by
        rw [Bool.eq_iff_iff, List.any_eq_true, List.any_eq_true]
        constructor
        · rintro ⟨call, member, here⟩
          exact ⟨call, List.mem_of_mem_erase member, here⟩
        · rintro ⟨call, member, here⟩
          refine ⟨call, (List.mem_erase_of_ne ?_).mpr member, here⟩
          rintro rfl
          exact other (beq_iff_eq.mp here).symm
      rw [pointsTo, pointsTo, still, List.getElem?_set_ne (Ne.symm other)]
    have moved := objects_change (k := j) List.length_set inside others
    have found : (s.publishObj.set w (some k))[w]? = some (some k) :=
      List.getElem?_set_self inside
    rw [pointsTo_storing running,
      pointsTo_toNat found (inv.access.stored running), Bool.toNat_false] at moved
    have erased := refs_erase running j
    simp only [held]
    omega

/-- The pointer that a read finds keeps its reference until the reader has its own. -/
theorem Inv.readPublished (inv : Inv s) (given : w ∈ s.raw)
    (found : s.publishObj[w]? = some (some k)) (settled : assigns s w = 0) :
    Inv { s with
      systemAbilities := s.systemAbilities.use w
      adding := (w, k) :: s.adding } := by
  rw [inv.wrappers.use (Or.inr given)]
  refine inv.keep ?_ ?_ rfl rfl rfl rfl (fun _ => rfl)
  · exact inv.wrappers.frame rfl rfl rfl rfl rfl rfl rfl rfl rfl
  · obtain ⟨assigning, storing, alone, adding, copying⟩ := inv.access
    refine ⟨assigning, storing, alone, ?_, copying⟩
    intro call member
    rcases List.mem_cons.mp member with rfl | old
    · exact ⟨given, found, settled⟩
    · exact adding call old

theorem Inv.readObject (inv : Inv s) (given : w ∈ s.raw)
    (found : s.publishObj[w]? = some (some k)) (settled : assigns s w = 0) :
    Inv { s with
      systemAbilities := s.systemAbilities.use w
      copying := (w, k) :: s.copying } := by
  rw [inv.wrappers.use (Or.inr given)]
  refine inv.keep ?_ ?_ rfl rfl rfl rfl (fun _ => rfl)
  · exact inv.wrappers.frame rfl rfl rfl rfl rfl rfl rfl rfl rfl
  · obtain ⟨assigning, storing, alone, adding, copying⟩ := inv.access
    refine ⟨assigning, storing, alone, adding, ?_⟩
    intro call member
    rcases List.mem_cons.mp member with rfl | old
    · exact ⟨given, found, settled⟩
    · exact copying call old

theorem Inv.addSystemAbility (inv : Inv s) (reading : (w, k) ∈ s.adding) :
    Inv { s with
      remoteStubs := s.remoteStubs.acquire k
      adding := s.adding.erase (w, k)
      remotes := k :: s.remotes } := by
  refine inv.acquire (inv.access.adding _ reading).held_pos ?_ ?_ rfl rfl rfl rfl ?_
  · exact inv.wrappers.frame rfl rfl rfl rfl rfl rfl rfl rfl rfl
  · exact inv.access.frame rfl rfl rfl rfl (fun _ => List.mem_of_mem_erase) (fun _ member => member)
  · intro j
    simp only [held, count_cons_add]
    omega

theorem Inv.copyObject (inv : Inv s) (reading : (w, k) ∈ s.copying) :
    Inv { s with
      remoteStubs := s.remoteStubs.acquire k
      copying := s.copying.erase (w, k)
      serving := k :: s.serving } := by
  refine inv.acquire (inv.access.copying _ reading).held_pos ?_ ?_ rfl rfl rfl rfl ?_
  · exact inv.wrappers.frame rfl rfl rfl rfl rfl rfl rfl rfl rfl
  · exact inv.access.frame rfl rfl rfl rfl (fun _ member => member) (fun _ => List.mem_of_mem_erase)
  · intro j
    simp only [held, count_cons_add]
    omega

theorem Inv.onRemoteRequest (inv : Inv s) (known : k ∈ s.remotes) :
    Inv { s with
      remoteStubs := s.remoteStubs.acquire k
      serving := k :: s.serving
      abilityStubs :=
        match s.inner[k]? with
        | some p => s.abilityStubs.use p
        | none => s.abilityStubs } := by
  have mine := held_of_remotes known
  obtain ⟨box, here⟩ := inv.stubs.box mine
  have alive : s.abilityStubs.use box = s.abilityStubs :=
    inv.stubs.owned.use (Or.inr ⟨k, here, mine⟩)
  simp only [here, alive]
  refine inv.acquire mine ?_ ?_ rfl rfl rfl rfl ?_
  · exact inv.wrappers.frame rfl rfl rfl rfl rfl rfl rfl rfl rfl
  · exact inv.access.frame rfl rfl rfl rfl (fun _ member => member) (fun _ member => member)
  · intro j
    simp only [held, count_cons_add]
    omega

theorem Inv.publishReturns (inv : Inv s) (running : (w, k) ∈ s.publishing) :
    Inv (dropRef { s with publishing := s.publishing.erase (w, k) } k) := by
  refine inv.release (held_of_publishing running) ?_ ?_ rfl rfl rfl rfl ?_
  · refine inv.wrappers.congr rfl rfl rfl rfl rfl rfl (fun _ member => member) (fun _ => Or.inl) ?_
    intro call member
    exact Or.inl (List.mem_of_mem_erase member)
  · exact inv.access.frame rfl rfl rfl rfl (fun _ member => member) (fun _ member => member)
  · intro j
    have total := refs_erase running j
    simp only [held]
    omega

theorem Inv.served (inv : Inv s) (running : k ∈ s.serving) :
    Inv (dropRef { s with serving := s.serving.erase k } k) := by
  refine inv.release (held_of_serving running) ?_ ?_ rfl rfl rfl rfl ?_
  · exact inv.wrappers.frame rfl rfl rfl rfl rfl rfl rfl rfl rfl
  · exact inv.access.frame rfl rfl rfl rfl (fun _ member => member) (fun _ member => member)
  · intro j
    have total := count_erase_add running j
    simp only [held]
    omega

theorem Inv.forget (inv : Inv s) (known : k ∈ s.remotes) :
    Inv (dropRef { s with remotes := s.remotes.erase k } k) := by
  refine inv.release (held_of_remotes known) ?_ ?_ rfl rfl rfl rfl ?_
  · exact inv.wrappers.frame rfl rfl rfl rfl rfl rfl rfl rfl rfl
  · exact inv.access.frame rfl rfl rfl rfl (fun _ member => member) (fun _ member => member)
  · intro j
    have total := count_erase_add known j
    simp only [held]
    omega

end Steps

/-! ## Every run -/

theorem initial_inv : Inv initial := by
  refine ⟨⟨?_, ?_, rfl, rfl, rfl, List.nodup_nil, ?_, ?_, ?_, ?_⟩,
    ⟨?_, ?_, rfl, List.nodup_nil, ?_, ?_⟩, ⟨?_, ?_, ?_, ?_, ?_⟩⟩
  · exact owned_empty.congr fun w => by simp [Kept, initial]
  · exact owned_empty.congr fun w => by simp [Kept, initial]
  · exact fun w member => (List.not_mem_nil member).elim
  · exact fun w member => (List.not_mem_nil member).elim
  · exact fun w member => (List.not_mem_nil member).elim
  · exact fun call member => (List.not_mem_nil member).elim
  · exact counted_empty
  · exact owned_empty.congr fun p => by simp [initial]
  · exact fun p member => (List.not_mem_nil member).elim
  · exact fun p member => (List.not_mem_nil member).elim
  · exact fun call member => (List.not_mem_nil member).elim
  · exact fun call member => (List.not_mem_nil member).elim
  · exact fun w => Nat.zero_le 1
  · exact fun call member => (List.not_mem_nil member).elim
  · exact fun call member => (List.not_mem_nil member).elim

/-- What an exclusive read finds is readable. -/
theorem settled_of_found {s : State} {w k : Nat}
    (exclusive : assigns s w = 0 ∨ s.publishObj[w]? = some none)
    (found : s.publishObj[w]? = some (some k)) : assigns s w = 0 := by
  refine exclusive.resolve_right ?_
  rw [found]
  intro null
  cases null

theorem step_inv {s t : State} {a : Action} (inv : Inv s) (exclusive : Exclusive s a)
    (moved : step s a = some t) : Inv t := by
  have known : ∀ w ∈ s.registered, w ∈ s.raw := inv.wrappers.registered
  have handled : ∀ w ∈ s.handlers, w ∈ s.raw := inv.wrappers.handlers
  cases a with
  | build =>
    obtain rfl := Option.some.inj moved
    exact inv.build
  | drop w =>
    simp only [step, Option.ite_none_right_eq_some, Option.some.injEq] at moved
    obtain ⟨mine, rfl⟩ := moved
    exact inv.drop mine
  | register w accepted =>
    simp only [step, Option.ite_none_right_eq_some, Option.some.injEq] at moved
    obtain ⟨mine, rfl⟩ := moved
    exact inv.register mine accepted
  | onStart w =>
    simp only [step, Option.ite_none_right_eq_some, Option.some.injEq] at moved
    obtain ⟨member, rfl⟩ := moved
    exact inv.onStart member
  | callback w =>
    simp only [step, Option.ite_none_right_eq_some, Option.some.injEq] at moved
    obtain ⟨member, rfl⟩ := moved
    exact inv.callback member
  | handle w =>
    simp only [step, Option.ite_none_right_eq_some, Option.some.injEq] at moved
    obtain ⟨member, rfl⟩ := moved
    exact inv.use (handled w member)
  | publish w made =>
    simp only [step, Option.ite_none_right_eq_some] at moved
    obtain ⟨member, here⟩ := moved
    cases made with
    | true =>
      obtain rfl := Option.some.inj here
      exact inv.publish member
    | false =>
      obtain rfl := Option.some.inj here
      exact inv.lose (handled w member)
  | assign w k =>
    simp only [step, Option.ite_none_right_eq_some, Option.some.injEq] at moved
    obtain ⟨running, rfl⟩ := moved
    exact inv.assign running exclusive.1 exclusive.2
  | giveUp w k =>
    simp only [step, Option.ite_none_right_eq_some] at moved
    obtain ⟨running, here⟩ := moved
    have after := inv.giveUp running
    split at here
    · rename_i old found
      obtain rfl := Option.some.inj here
      rw [found] at after
      exact after
    · rename_i null
      obtain rfl := Option.some.inj here
      split at after
      · rename_i old found
        exact (null old found).elim
      · exact after
  | store w k =>
    simp only [step, Option.ite_none_right_eq_some, Option.some.injEq] at moved
    obtain ⟨running, rfl⟩ := moved
    exact inv.store running
  | readPublished w k =>
    simp only [step, Option.ite_none_right_eq_some] at moved
    obtain ⟨running, here⟩ := moved
    have given : w ∈ s.raw := inv.wrappers.publishing _ running
    split at here
    · rename_i object found
      obtain rfl := Option.some.inj here
      exact inv.readPublished given found (settled_of_found exclusive found)
    · obtain rfl := Option.some.inj here
      exact inv.use given
  | addSystemAbility w k =>
    simp only [step, Option.ite_none_right_eq_some, Option.some.injEq] at moved
    obtain ⟨reading, rfl⟩ := moved
    exact inv.addSystemAbility reading
  | publishReturns w k =>
    simp only [step, Option.ite_none_right_eq_some, Option.some.injEq] at moved
    obtain ⟨running, rfl⟩ := moved
    exact inv.publishReturns running
  | onRemoteRequest k =>
    simp only [step, Option.ite_none_right_eq_some, Option.some.injEq] at moved
    obtain ⟨member, rfl⟩ := moved
    exact inv.onRemoteRequest member
  | readObject w =>
    simp only [step, Option.ite_none_right_eq_some] at moved
    obtain ⟨member, here⟩ := moved
    split at here
    · rename_i k found
      obtain rfl := Option.some.inj here
      exact inv.readObject (known w member) found (settled_of_found exclusive found)
    · obtain rfl := Option.some.inj here
      exact inv.use (known w member)
  | copyObject w k =>
    simp only [step, Option.ite_none_right_eq_some, Option.some.injEq] at moved
    obtain ⟨reading, rfl⟩ := moved
    exact inv.copyObject reading
  | served k =>
    simp only [step, Option.ite_none_right_eq_some, Option.some.injEq] at moved
    obtain ⟨running, rfl⟩ := moved
    exact inv.served running
  | forget k =>
    simp only [step, Option.ite_none_right_eq_some, Option.some.injEq] at moved
    obtain ⟨member, rfl⟩ := moved
    exact inv.forget member

theorem reachable_inv {s : State} (reach : machine.Reachable Exclusive s) : Inv s :=
  reach.invariant Inv initial_inv fun _ _ _ _ inv exclusive moved => step_inv inv exclusive moved

/-! ## Safety -/

/-- As long as the accesses to `publishObj_` are exclusive, there is no use after free and
no double free in any of the four kinds of memory, and each block is alive exactly as long
as it has an owner. -/
theorem ownership_safe {s : State} (reach : machine.Reachable Exclusive s) :
    (s.systemAbilities.faulty = false ∧ s.abilityWrappers.faulty = false ∧
      s.remoteStubs.blocks.faulty = false ∧ s.abilityStubs.faulty = false) ∧
    (∀ w, s.systemAbilities.live w = true ↔ w ∈ s.unique ∨ w ∈ s.raw) ∧
    (∀ w p, s.ability[w]? = some p → s.abilityWrappers.live p = s.systemAbilities.live w) ∧
    (∀ k, s.remoteStubs.blocks.live k = true ↔ 0 < held s k) ∧
    (∀ k p, s.inner[k]? = some p → s.abilityStubs.live p = s.remoteStubs.blocks.live k) ∧
    ∀ p, s.abilityStubs.live p = true → p ∈ s.lost ∨ p ∈ s.inner := by
  obtain ⟨ok, stubs, -⟩ := reachable_inv reach
  refine ⟨⟨ok.wrappers.sound, ok.boxes.sound, stubs.counted.owned.sound, stubs.owned.sound⟩,
    ok.wrappers.live, ?_, stubs.counted.owned.live, ?_, ?_⟩
  · intro w p here
    rw [ok.ability] at here
    have same : p = w := by
      have inside := (List.getElem?_eq_some_iff.mp here).1
      rw [List.getElem?_range (by simpa using inside)] at here
      exact (Option.some.inj here).symm
    subst same
    rw [Bool.eq_iff_iff, ok.boxes.live, ok.wrappers.live]
  · intro k p here
    rw [Bool.eq_iff_iff, stubs.owned.live, stubs.counted.owned.live]
    constructor
    · rintro (lost | ⟨j, other, positive⟩)
      · exact absurd (List.mem_of_getElem? here) (stubs.apart p lost)
      · have inside := (List.getElem?_eq_some_iff.mp other).1
        have same := (List.getElem?_inj inside stubs.nodup).mp (other.trans here.symm)
        subst same
        exact positive
    · intro positive
      exact Or.inr ⟨k, here, positive⟩
  · intro p alive
    rcases (stubs.owned.live p).mp alive with lost | ⟨k, here, _⟩
    · exact Or.inl lost
    · exact Or.inr (List.mem_of_getElem? here)

/-- The timer reads the pointer during the first `Publish` and again before the second,
whose stub replaces the first one while a request runs on it; another ability is built and
dropped. -/
def replaced : List Action :=
  [.build, .register 0 true, .onStart 0, .publish 0 true, .assign 0 0, .readObject 0,
    .giveUp 0 0, .store 0 0, .readPublished 0 0, .readObject 0, .addSystemAbility 0 0,
    .copyObject 0 0, .publishReturns 0 0, .onRemoteRequest 0, .publish 0 true, .assign 0 1,
    .giveUp 0 1, .store 0 1, .readPublished 0 1, .addSystemAbility 0 1, .forget 0,
    .publishReturns 0 1, .served 0, .served 0, .publish 0 false, .build, .drop 1]

theorem replaced_ends : (machine.run Exclusive machine.init replaced).isSome = true := by decide

theorem ownership_safe_replaced :
    ∃ s, machine.Reachable Exclusive s ∧ s.systemAbilities.live 0 = true ∧
      s.systemAbilities.live 1 = false ∧ s.remoteStubs.blocks.live 0 = false ∧
      s.abilityStubs.live 0 = false ∧ s.abilityStubs.live 1 = true ∧ s.lost = [2] ∧
      (s.systemAbilities.faulty = false ∧ s.abilityWrappers.faulty = false ∧
        s.remoteStubs.blocks.faulty = false ∧ s.abilityStubs.faulty = false) := by
  have reach := Machine.reachable_get replaced replaced_ends
  refine ⟨_, reach, ?_, ?_, ?_, ?_, ?_, ?_, (ownership_safe reach).1⟩ <;> decide

/-- The timer has read the pointer when a second `Publish` replaces the stub, which nobody
else has a reference to, and takes its reference afterwards. -/
def raced : List Action :=
  [.build, .register 0 true, .onStart 0, .publish 0 true, .assign 0 0, .giveUp 0 0, .store 0 0,
    .publishReturns 0 0, .publish 0 true, .readObject 0, .assign 0 1, .giveUp 0 1, .copyObject 0 0]

/-- Without the condition the copy uses a stub that is freed. -/
example : ((machine.run Free machine.init raced).map fun s => s.remoteStubs.blocks.faulty) =
    some true := by
  decide

end RustOwnership
