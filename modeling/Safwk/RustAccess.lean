import Safwk.RustHolders

/-!
# Accesses to the published object

No lock guards `publishObj_`. The accesses are exclusive if an assignment overlaps with no
other one, and with a read only as long as the pointer is still null, as in the first
`Publish` of an ability. Then a reader's stub stays where it was read.
-/

namespace RustAccess

open RustAbilities RustHolders

/-- How many assignments to the wrapper's `publishObj_` are going on. -/
def assigns (s : State) (w : Nat) : Nat :=
  s.assigning.countP (fun call => call.1 == w) + s.storing.countP (fun call => call.1 == w)

/-- Somebody has read the pointer and will take a reference. -/
def reads (s : State) (w : Nat) : Bool :=
  s.adding.any (fun call => call.1 == w) || s.copying.any (fun call => call.1 == w)

/-- An assignment starts while nobody else accesses the `publishObj_`, which until its
end is read only if it was null. -/
def Exclusive (s : State) : Action → Prop
  | .assign w _ => assigns s w = 0 ∧ reads s w = false
  | .readPublished w _ => assigns s w = 0 ∨ s.publishObj[w]? = some none
  | .readObject w => assigns s w = 0 ∨ s.publishObj[w]? = some none
  | _ => True

instance (s : State) (a : Action) : Decidable (Exclusive s a) :=
  match a with
  | .assign w _ => inferInstanceAs (Decidable (assigns s w = 0 ∧ reads s w = false))
  | .readPublished w _ =>
    inferInstanceAs (Decidable (assigns s w = 0 ∨ s.publishObj[w]? = some none))
  | .readObject w => inferInstanceAs (Decidable (assigns s w = 0 ∨ s.publishObj[w]? = some none))
  | .build | .drop _ | .register _ _ | .onStart _ | .callback _ | .handle _ | .publish _ _
  | .giveUp _ _ | .store _ _ | .addSystemAbility _ _ | .publishReturns _ _ | .onRemoteRequest _
  | .copyObject _ _ | .served _ | .forget _ => inferInstanceAs (Decidable True)

/-- What a read found is still there, and nobody assigns. -/
def Readable (s : State) (call : Nat × Nat) : Prop :=
  call.1 ∈ s.raw ∧ s.publishObj[call.1]? = some (some call.2) ∧ assigns s call.1 = 0

structure AccessOk (s : State) : Prop where
  assigning : ∀ call ∈ s.assigning, call.1 ∈ s.raw
  storing : ∀ call ∈ s.storing, call.1 ∈ s.raw
  alone : ∀ w, assigns s w ≤ 1
  adding : ∀ call ∈ s.adding, Readable s call
  copying : ∀ call ∈ s.copying, Readable s call

section Access

variable {s : State} {w k : Nat}

theorem not_storing (settled : assigns s w = 0) : ∀ call ∈ s.storing, call.1 ≠ w := by
  intro call member same
  have positive : 0 < s.storing.countP (fun call => call.1 == w) :=
    List.countP_pos_iff.mpr ⟨call, member, by simp [same]⟩
  rw [assigns] at settled
  omega

/-- While one assignment goes on there is no other, before or after its middle step. -/
theorem AccessOk.only (ok : AccessOk s) (running : (w, k) ∈ s.assigning) :
    ∀ call ∈ s.storing, call.1 ≠ w := by
  intro call member same
  have first : 0 < s.assigning.countP (fun call => call.1 == w) :=
    List.countP_pos_iff.mpr ⟨_, running, beq_self_eq_true w⟩
  have second : 0 < s.storing.countP (fun call => call.1 == w) :=
    List.countP_pos_iff.mpr ⟨call, member, by simp [same]⟩
  have atMost := ok.alone w
  rw [assigns] at atMost
  omega

theorem assigns_of_storing (running : (w, k) ∈ s.storing) : 0 < assigns s w := by
  have positive : 0 < s.storing.countP (fun call => call.1 == w) :=
    List.countP_pos_iff.mpr ⟨_, running, beq_self_eq_true w⟩
  rw [assigns]
  omega

theorem AccessOk.congr {t : State} (ok : AccessOk s) (raw : ∀ w ∈ s.raw, w ∈ t.raw)
    (objects : ∀ w ∈ s.raw, t.publishObj[w]? = s.publishObj[w]?)
    (assigning : t.assigning = s.assigning) (storing : t.storing = s.storing)
    (adding : ∀ call ∈ t.adding, call ∈ s.adding)
    (copying : ∀ call ∈ t.copying, call ∈ s.copying) : AccessOk t := by
  have same : ∀ w, assigns t w = assigns s w := by
    intro w
    rw [assigns, assigns, assigning, storing]
  have readable : ∀ call, Readable s call → Readable t call := by
    rintro call ⟨given, found, settled⟩
    exact ⟨raw _ given, (objects _ given).trans found, (same _).trans settled⟩
  constructor
  · rw [assigning]
    exact fun call member => raw _ (ok.assigning call member)
  · rw [storing]
    exact fun call member => raw _ (ok.storing call member)
  · intro w
    rw [same]
    exact ok.alone w
  · exact fun call member => readable call (ok.adding call (adding call member))
  · exact fun call member => readable call (ok.copying call (copying call member))

theorem AccessOk.frame {t : State} (ok : AccessOk s) (raw : t.raw = s.raw)
    (publishObj : t.publishObj = s.publishObj) (assigning : t.assigning = s.assigning)
    (storing : t.storing = s.storing) (adding : ∀ call ∈ t.adding, call ∈ s.adding)
    (copying : ∀ call ∈ t.copying, call ∈ s.copying) : AccessOk t := by
  refine ok.congr ?_ ?_ assigning storing adding copying
  · rw [raw]
    exact fun _ given => given
  · rw [publishObj]
    exact fun _ _ => rfl

/-- The assignments go through their steps while the readers, who are at other wrappers, wait. -/
theorem AccessOk.assignments {t : State} (ok : AccessOk s) (given : w ∈ s.raw)
    (raw : t.raw = s.raw) (objects : ∀ v, v ≠ w → t.publishObj[v]? = s.publishObj[v]?)
    (assigning : ∀ call ∈ t.assigning, call.1 = w ∨ call ∈ s.assigning)
    (storing : ∀ call ∈ t.storing, call.1 = w ∨ call ∈ s.storing)
    (others : ∀ v, v ≠ w → assigns t v = assigns s v) (alone : assigns t w ≤ 1)
    (unread : reads s w = false) (adding : t.adding = s.adding) (copying : t.copying = s.copying) :
    AccessOk t := by
  simp only [reads, Bool.or_eq_false_iff, List.any_eq_false, beq_iff_eq] at unread
  have readable : ∀ call, call.1 ≠ w → Readable s call → Readable t call := by
    rintro call other ⟨old, found, settled⟩
    rw [Readable, raw, objects _ other, others _ other]
    exact ⟨old, found, settled⟩
  constructor
  · intro call member
    rw [raw]
    rcases assigning call member with rfl | old
    · exact given
    · exact ok.assigning call old
  · intro call member
    rw [raw]
    rcases storing call member with rfl | old
    · exact given
    · exact ok.storing call old
  · intro v
    by_cases same : v = w
    · rw [same]
      exact alone
    · rw [others v same]
      exact ok.alone v
  · rw [adding]
    exact fun call member => readable call (unread.1 call member) (ok.adding call member)
  · rw [copying]
    exact fun call member => readable call (unread.2 call member) (ok.copying call member)

/-- Nobody reads while an assignment goes on. -/
theorem AccessOk.unread (ok : AccessOk s) (going : 0 < assigns s w) : reads s w = false := by
  have settled : ∀ call, Readable s call → call.1 ≠ w := by
    rintro call readable rfl
    have none := readable.2.2
    omega
  rw [reads, Bool.or_eq_false_iff, List.any_eq_false, List.any_eq_false]
  constructor
  · intro call member here
    exact settled call (ok.adding call member) (beq_iff_eq.mp here)
  · intro call member here
    exact settled call (ok.copying call member) (beq_iff_eq.mp here)

theorem countP_cons_eq (calls : List (Nat × Nat)) (w k v : Nat) :
    ((w, k) :: calls).countP (fun call => call.1 == v) =
      calls.countP (fun call => call.1 == v) + (w == v).toNat := by
  rw [List.countP_cons]
  cases w == v <;> rfl

theorem countP_erase_eq {calls : List (Nat × Nat)} (member : (w, k) ∈ calls) (v : Nat) :
    (calls.erase (w, k)).countP (fun call => call.1 == v) + (w == v).toNat =
      calls.countP (fun call => call.1 == v) :=
  countP_erase_add (fun call => call.1 == v) member

theorem AccessOk.assign (ok : AccessOk s) (given : w ∈ s.raw) (settled : assigns s w = 0)
    (unread : reads s w = false) {t : State} (raw : t.raw = s.raw)
    (publishObj : t.publishObj = s.publishObj) (assigning : t.assigning = (w, k) :: s.assigning)
    (storing : t.storing = s.storing) (adding : t.adding = s.adding)
    (copying : t.copying = s.copying) : AccessOk t := by
  have more : ∀ v, assigns t v = assigns s v + (w == v).toNat := by
    intro v
    rw [assigns, assigns, assigning, storing, countP_cons_eq]
    omega
  refine ok.assignments given raw (fun v _ => by rw [publishObj]) ?_ ?_ ?_ ?_ unread adding copying
  · rw [assigning]
    intro call member
    rcases List.mem_cons.mp member with rfl | old
    · exact Or.inl rfl
    · exact Or.inr old
  · rw [storing]
    exact fun call member => Or.inr member
  · intro v other
    rw [more v, beq_eq_false_iff_ne.mpr (Ne.symm other)]
    rfl
  · rw [more w, settled, beq_self_eq_true]
    exact Nat.le_refl 1

theorem AccessOk.toStoring (ok : AccessOk s) (running : (w, k) ∈ s.assigning) :
    AccessOk (toStoring s w k) := by
  have same : ∀ v, assigns (RustAbilities.toStoring s w k) v = assigns s v := by
    intro v
    have erased := countP_erase_eq running v
    simp only [assigns, RustAbilities.toStoring, countP_cons_eq]
    omega
  have going : 0 < assigns s w := by
    have positive : 0 < s.assigning.countP (fun call => call.1 == w) :=
      List.countP_pos_iff.mpr ⟨_, running, beq_self_eq_true w⟩
    rw [assigns]
    omega
  refine ok.assignments (ok.assigning _ running) rfl (fun v _ => rfl) ?_ ?_ (fun v _ => same v) ?_
    (ok.unread going) rfl rfl
  · exact fun call member => Or.inr (List.mem_of_mem_erase member)
  · intro call member
    rcases List.mem_cons.mp member with rfl | old
    · exact Or.inl rfl
    · exact Or.inr old
  · rw [same]
    exact ok.alone w

theorem AccessOk.store (ok : AccessOk s) (running : (w, k) ∈ s.storing) {t : State}
    (raw : t.raw = s.raw) (publishObj : t.publishObj = s.publishObj.set w (some k))
    (assigning : t.assigning = s.assigning) (storing : t.storing = s.storing.erase (w, k))
    (adding : t.adding = s.adding) (copying : t.copying = s.copying) : AccessOk t := by
  have less : ∀ v, assigns t v + (w == v).toNat = assigns s v := by
    intro v
    have erased := countP_erase_eq running v
    simp only [assigns, assigning, storing]
    omega
  refine ok.assignments (ok.storing _ running) raw ?_ ?_ ?_ ?_ ?_
    (ok.unread (assigns_of_storing running)) adding copying
  · intro v other
    rw [publishObj, List.getElem?_set_ne (Ne.symm other)]
  · rw [assigning]
    exact fun call member => Or.inr member
  · rw [storing]
    exact fun call member => Or.inr (List.mem_of_mem_erase member)
  · intro v other
    have total := less v
    rw [beq_eq_false_iff_ne.mpr (Ne.symm other), Bool.toNat_false] at total
    exact total
  · have total := less w
    have atMost := ok.alone w
    rw [beq_self_eq_true, Bool.toNat_true] at total
    dsimp only
    omega

/-- The last step of the assignment leaves no other behind. -/
theorem AccessOk.stored (ok : AccessOk s) (running : (w, k) ∈ s.storing) :
    ∀ call ∈ s.storing.erase (w, k), call.1 ≠ w := by
  intro call member same
  have erased := countP_erase_eq running w
  have another : 0 < (s.storing.erase (w, k)).countP (fun call => call.1 == w) :=
    List.countP_pos_iff.mpr ⟨call, member, by simp [same]⟩
  have atMost := ok.alone w
  rw [assigns] at atMost
  simp only [beq_self_eq_true, Bool.toNat_true] at erased
  omega

theorem Readable.held_pos (readable : Readable s (w, k)) : 0 < held s k :=
  held_of_object readable.2.1 (not_storing readable.2.2)

end Access

end RustAccess
