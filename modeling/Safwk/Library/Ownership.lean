import Mathlib.Logic.Function.Basic

/-!
# Memory with owners

Blocks of memory are numbered in the order in which they are allocated. Using or freeing
a block that is not live is a fault, and a fault is remembered. `Owned` says that there
was none and which blocks are live; the rules say what an owner may do. Shared blocks
have a count of references and are freed with the last one; `Counted` ties the count to
the number of holders.
-/

namespace Ownership

structure Blocks where
  live : Nat → Bool
  next : Nat
  faulty : Bool

namespace Blocks

def empty : Blocks := ⟨fun _ => false, 0, false⟩

def alloc (b : Blocks) : Blocks :=
  { b with live := Function.update b.live b.next true, next := b.next + 1 }

def use (b : Blocks) (p : Nat) : Blocks := if b.live p then b else { b with faulty := true }

def free (b : Blocks) (p : Nat) : Blocks :=
  if b.live p then { b with live := Function.update b.live p false }
  else { b with faulty := true }

end Blocks

/-- There was no fault, and the live blocks are those that have an owner. -/
structure Owned (owned : Nat → Prop) (b : Blocks) : Prop where
  sound : b.faulty = false
  live : ∀ p, b.live p = true ↔ owned p
  below : ∀ p, owned p → p < b.next

variable {owned owned' : Nat → Prop} {b : Blocks} {p : Nat}

theorem owned_empty : Owned (fun _ => False) .empty :=
  ⟨rfl, fun _ => by simp [Blocks.empty], fun _ impossible => impossible.elim⟩

theorem Owned.congr (here : Owned owned b) (same : ∀ p, owned' p ↔ owned p) : Owned owned' b :=
  ⟨here.sound, fun p => (here.live p).trans (same p).symm, fun p mine => here.below p ((same p).mp mine)⟩

theorem Owned.alloc (here : Owned owned b) : Owned (fun p => owned p ∨ p = b.next) b.alloc := by
  refine ⟨here.sound, ?_, ?_⟩
  · intro p
    by_cases same : p = b.next
    · subst same
      simp [Blocks.alloc]
    · simp [Blocks.alloc, here.live p, same]
  · rintro p (mine | rfl)
    · exact Nat.lt_succ_of_lt (here.below p mine)
    · exact Nat.lt_succ_self _

theorem Owned.use (here : Owned owned b) (mine : owned p) : b.use p = b :=
  if_pos ((here.live p).mpr mine)

theorem Owned.free (here : Owned owned b) (mine : owned p) :
    Owned (fun q => owned q ∧ q ≠ p) (b.free p) := by
  rw [Blocks.free, if_pos ((here.live p).mpr mine)]
  refine ⟨here.sound, ?_, fun q still => here.below q still.1⟩
  intro q
  by_cases same : q = p
  · subst same
    simp
  · simp [here.live q, same]

/-- Blocks with a count of references each. -/
structure Shared where
  blocks : Blocks
  refs : Nat → Nat

namespace Shared

def empty : Shared := ⟨.empty, fun _ => 0⟩

/-- A new block with one reference. -/
def create (s : Shared) : Shared where
  blocks := s.blocks.alloc
  refs := Function.update s.refs s.blocks.next 1

def acquire (s : Shared) (k : Nat) : Shared where
  blocks := s.blocks.use k
  refs := Function.update s.refs k (s.refs k + 1)

/-- The reference that is given up is the last one. -/
def isLast (s : Shared) (k : Nat) : Bool := s.refs k == 1

def release (s : Shared) (k : Nat) : Shared where
  blocks := if s.isLast k then s.blocks.free k else s.blocks.use k
  refs := Function.update s.refs k (s.refs k - 1)

end Shared

/-- The counts are the numbers of holders, and the blocks that are held are live. -/
structure Counted (held : Nat → Nat) (s : Shared) : Prop where
  owned : Owned (fun k => 0 < held k) s.blocks
  refs : ∀ k, s.refs k = held k

variable {held held' : Nat → Nat} {s : Shared} {k : Nat}

theorem counted_empty : Counted (fun _ => 0) .empty :=
  ⟨owned_empty.congr fun _ => by simp, fun _ => rfl⟩

theorem Counted.create (here : Counted held s)
    (grown : ∀ j, held' j = if j = s.blocks.next then 1 else held j) : Counted held' s.create := by
  refine ⟨here.owned.alloc.congr ?_, ?_⟩
  · intro j
    rw [grown j]
    by_cases same : j = s.blocks.next
    · simp [same]
    · simp [same]
  · intro j
    rw [grown j]
    by_cases same : j = s.blocks.next
    · subst same
      simp [Shared.create]
    · simp [Shared.create, here.refs j, same]

theorem Counted.acquire (here : Counted held s) (mine : 0 < held k)
    (grown : ∀ j, held' j = if j = k then held j + 1 else held j) :
    Counted held' (s.acquire k) := by
  refine ⟨?_, ?_⟩
  · have same : (s.acquire k).blocks = s.blocks := here.owned.use mine
    rw [same]
    refine here.owned.congr ?_
    intro j
    rw [grown j]
    by_cases mineToo : j = k
    · subst mineToo
      simp [mine]
    · simp [mineToo]
  · intro j
    rw [grown j]
    by_cases same : j = k
    · subst same
      simp [Shared.acquire, here.refs]
    · simp [Shared.acquire, here.refs j, same]

theorem Counted.isLast (here : Counted held s) : s.isLast k = true ↔ held k = 1 := by
  rw [Shared.isLast, here.refs k, beq_iff_eq]

theorem Counted.release (here : Counted held s) (mine : 0 < held k)
    (shrunk : ∀ j, held' j = if j = k then held j - 1 else held j) :
    Counted held' (s.release k) := by
  refine ⟨?_, ?_⟩
  · by_cases last : held k = 1
    · have frees : (s.release k).blocks = s.blocks.free k := if_pos (here.isLast.mpr last)
      rw [frees]
      refine (here.owned.free mine).congr ?_
      intro j
      rw [shrunk j]
      by_cases same : j = k
      · subst same
        simp [last]
      · simp [same]
    · have keeps : (s.release k).blocks = s.blocks :=
        (if_neg fun isLast => last (here.isLast.mp isLast)).trans (here.owned.use mine)
      rw [keeps]
      refine here.owned.congr ?_
      intro j
      rw [shrunk j]
      by_cases same : j = k
      · subst same
        simp only [if_true]
        omega
      · simp [same]
  · intro j
    rw [shrunk j]
    by_cases same : j = k
    · subst same
      simp [Shared.release, here.refs]
    · simp [Shared.release, here.refs j, same]

end Ownership
