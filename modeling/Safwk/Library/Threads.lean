import Mathlib.Data.List.Basic

/-!
# A list of threads and a lock with one owner

A thread is an entry of a list and moves by `List.set`. `Locked` ties the
program counters at which a thread holds a lock to the recorded owner; one
lemma then covers acquiring, releasing and every step that leaves the lock
alone. The two counting lemmas are stated without subtraction.
-/

namespace Threads

universe u

variable {π : Type u}

/-- A thread is at a holding program counter exactly when it is the owner. -/
def Locked (holds : π → Prop) (owner : Nat → Prop) (threads : List π) : Prop :=
  ∀ i p, threads[i]? = some p → (holds p ↔ owner i)

theorem getElem?_set_cases {threads : List π} {i j : Nat} {q r : π}
    (found : (threads.set i q)[j]? = some r) :
    (j = i ∧ r = q) ∨ (j ≠ i ∧ threads[j]? = some r) := by
  rw [List.getElem?_set] at found
  by_cases same : i = j
  · subst same
    rw [if_pos rfl] at found
    split at found
    · exact Or.inl ⟨rfl, (Option.some.inj found).symm⟩
    · cases found
  · rw [if_neg same] at found
    exact Or.inr ⟨fun h => same h.symm, found⟩

theorem Locked.set {holds : π → Prop} {owner owner' : Nat → Prop} {threads : List π}
    {i : Nat} {q : π} (locked : Locked holds owner threads)
    (others : ∀ j, j ≠ i → (owner j ↔ owner' j)) (mine : holds q ↔ owner' i) :
    Locked holds owner' (threads.set i q) := by
  intro j r found
  rcases getElem?_set_cases found with ⟨rfl, rfl⟩ | ⟨other, found⟩
  · exact mine
  · exact (locked j r found).trans (others j other)

/-- The owner moves between program counters that hold the lock, or a thread
that does not hold it stays outside. -/
theorem Locked.set_same {holds : π → Prop} {owner : Nat → Prop} {threads : List π}
    {i : Nat} {p q : π} (locked : Locked holds owner threads)
    (found : threads[i]? = some p) (same : holds q ↔ holds p) :
    Locked holds owner (threads.set i q) :=
  locked.set (fun _ _ => Iff.rfl) (same.trans (locked i p found))

/-- With no owner, no thread is at a holding program counter. -/
theorem Locked.free {holds : π → Prop} {owner : Nat → Prop} {threads : List π}
    (locked : Locked holds owner threads) (noOwner : ∀ i, ¬ owner i)
    {p : π} (member : p ∈ threads) : ¬ holds p := by
  intro held
  obtain ⟨i, found⟩ := List.mem_iff_getElem?.mp member
  exact noOwner i ((locked i p found).mp held)

theorem mem_set_cases {threads : List π} {i : Nat} {q r : π}
    (member : r ∈ threads.set i q) : r = q ∨ r ∈ threads :=
  (List.mem_or_eq_of_mem_set member).symm

theorem mem_of_getElem? {threads : List π} {i : Nat} {p : π}
    (found : threads[i]? = some p) : p ∈ threads :=
  List.mem_iff_getElem?.mpr ⟨i, found⟩

/-- A thread at another program counter than the one that moves stays. -/
theorem mem_set_of_ne {threads : List π} {i : Nat} {p q r : π}
    (found : threads[i]? = some p) (member : r ∈ threads) (other : r ≠ p) :
    r ∈ threads.set i q := by
  obtain ⟨j, place⟩ := List.mem_iff_getElem?.mp member
  have different : i ≠ j := by
    rintro rfl
    exact other (Option.some.inj (place.symm.trans found))
  exact mem_of_getElem? (by rw [List.getElem?_set_ne different]; exact place)

theorem mem_set_self {threads : List π} {i : Nat} {p : π}
    (found : threads[i]? = some p) (q : π) : q ∈ threads.set i q := by
  have inside := (List.getElem?_eq_some_iff.mp found).1
  exact mem_of_getElem? (List.getElem?_set_self inside)

theorem countP_set_add {threads : List π} {i : Nat} {p : π} (f : π → Bool) (q : π)
    (found : threads[i]? = some p) :
    (threads.set i q).countP f + (f p).toNat = threads.countP f + (f q).toNat := by
  obtain ⟨inside, same⟩ := List.getElem?_eq_some_iff.mp found
  rw [List.countP_set inside, same]
  cases hp : f p with
  | true =>
    have positive : 0 < threads.countP f :=
      List.countP_pos_iff.mpr ⟨p, mem_of_getElem? found, hp⟩
    cases f q <;> simp <;> omega
  | false => cases f q <;> simp

theorem countP_eraseIdx_add {queue : List π} {k : Nat} {p : π} (f : π → Bool)
    (found : queue[k]? = some p) :
    (queue.eraseIdx k).countP f + (f p).toNat = queue.countP f := by
  induction queue generalizing k with
  | nil => simp at found
  | cons q rest ih =>
    cases k with
    | zero =>
      have same : q = p := by simpa using found
      subst same
      cases h : f q <;> simp [h]
    | succ k =>
      have tail := ih (k := k) (by simpa using found)
      simp only [List.eraseIdx_cons_succ, List.countP_cons]
      omega

end Threads
