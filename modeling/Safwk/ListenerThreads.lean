import Safwk.Library.Threads
import Safwk.ListenerManager

/-!
# Listener calls on many threads

Any number of threads run listener calls. A call enters its `listenerLock_`
section in one step and then does its effects one at a time; steps of other
threads come between in any order. No fairness is assumed, and samgr answers as
it likes.

A samgr call is always the last effect of a call, so a failed one ends it.
-/

namespace ListenerThreads

open ListenerTable ListenerManager Transition Threads

inductive Thread
  | idle
  | inCall (call : Call) (todo : List Effect)
  deriving DecidableEq

structure State where
  manager : Manager
  threads : List Thread

inductive Action
  | enter (i : Nat) (call : Call) (samgrProxy : Option Bool)
  | perform (i : Nat) (reply : Reply)
  deriving DecidableEq

/-- A call with nothing left to do has returned. -/
def resume (call : Call) : List Effect → Thread
  | [] => .idle
  | effect :: rest => .inCall call (effect :: rest)

def step (P : Process) (st : State) : Action → Option State
  | .enter i call samgrProxy =>
    match st.threads[i]? with
    | some .idle =>
      let entered := enter P st.manager samgrProxy call
      some ⟨entered.manager, st.threads.set i (resume call entered.effects)⟩
    | _ => none
  | .perform i reply =>
    match st.threads[i]? with
    | some (.inCall call (effect :: rest)) =>
      some ⟨(perform P st.manager call.about reply effect).1, st.threads.set i (resume call rest)⟩
    | _ => none

def machine (P : Process) (threadCount : Nat) : Machine State Action where
  init := ⟨start, List.replicate threadCount .idle⟩
  step := step P

/-- Everything a step can do. -/
inductive Moves (P : Process) (st : State) : Action → State → Prop
  | enters {i : Nat} {call : Call} {samgrProxy : Option Bool}
      (idle : st.threads[i]? = some .idle) :
      Moves P st (.enter i call samgrProxy)
        ⟨(enter P st.manager samgrProxy call).manager,
          st.threads.set i (resume call (enter P st.manager samgrProxy call).effects)⟩
  | performs {i : Nat} {reply : Reply} {call : Call} {effect : Effect} {rest : List Effect}
      (found : st.threads[i]? = some (.inCall call (effect :: rest))) :
      Moves P st (.perform i reply)
        ⟨(perform P st.manager call.about reply effect).1, st.threads.set i (resume call rest)⟩

theorem moves_of_step {P : Process} {st st' : State} {a : Action}
    (next : step P st a = some st') : Moves P st a st' := by
  cases a with
  | enter i call samgrProxy =>
    simp only [step] at next
    split at next
    · rename_i idle
      obtain rfl := Option.some.inj next
      exact .enters idle
    · cases next
  | perform i reply =>
    simp only [step] at next
    split at next
    · rename_i found
      obtain rfl := Option.some.inj next
      exact .performs found
    · cases next

theorem reachable_tableOk {P : Process} {n : Nat} {ok : State → Action → Prop} {st : State}
    (reach : (machine P n).Reachable ok st) : TableOk st.manager.localListenerMap := by
  refine reach.invariant (fun st => TableOk st.manager.localListenerMap) start_tableOk ?_
  intro st a st' _ table _ next
  cases moves_of_step next with
  | enters => exact enter_tableOk P st.manager _ _ table
  | performs =>
    dsimp only
    rw [perform_localListenerMap]
    exact table

theorem reachable_validIds {P : Process} {n : Nat} {ok : State → Action → Prop} {st : State}
    (reach : (machine P n).Reachable ok st) : ValidIds P st.manager.localListenerMap := by
  refine reach.invariant (fun st => ValidIds P st.manager.localListenerMap) ?_ ?_
  · intro s present
    cases present
  · intro st a st' _ valid _ next
    cases moves_of_step next with
    | enters => exact enter_validIds P st.manager _ _ valid
    | performs =>
      dsimp only
      rw [perform_localListenerMap]
      exact valid

/-! ## Effects that are still to come -/

/-- The thread will do this effect for the watched ability. -/
def owesIn (s : Int) (effect : Effect) : Thread → Bool
  | .idle => false
  | .inCall call todo => decide (call.about = s) && decide (effect ∈ todo)

/-- Some thread will do this effect for the watched ability. -/
def owes (st : State) (s : Int) (effect : Effect) : Bool :=
  st.threads.any (owesIn s effect)

theorem owesIn_resume {s : Int} {effect : Effect} {call : Call} {todo : List Effect} :
    owesIn s effect (resume call todo) = true ↔ call.about = s ∧ effect ∈ todo := by
  cases todo with
  | nil => simp [resume, owesIn]
  | cons first rest => simp [resume, owesIn]

theorem owes_start {P : Process} {n : Nat} {s : Int} {effect : Effect} :
    owes (machine P n).init s effect = false := by
  simp [machine, owes, owesIn]

theorem owes_enters {st : State} {i : Nat} {call : Call} {todo : List Effect} {m : Manager}
    {s : Int} {effect : Effect} (idle : st.threads[i]? = some .idle) :
    owes ⟨m, st.threads.set i (resume call todo)⟩ s effect = true ↔
      owes st s effect = true ∨ (call.about = s ∧ effect ∈ todo) := by
  simp only [owes]
  rw [List.any_eq_true, List.any_eq_true]
  constructor
  · rintro ⟨t, member, owed⟩
    rcases mem_set_cases member with rfl | member
    · exact Or.inr (owesIn_resume.mp owed)
    · exact Or.inl ⟨t, member, owed⟩
  · rintro (⟨t, member, owed⟩ | mine)
    · refine ⟨t, mem_set_of_ne idle member ?_, owed⟩
      rintro rfl
      cases owed
    · exact ⟨resume call todo, mem_set_self idle _, owesIn_resume.mpr mine⟩

theorem owes_before_performs {st : State} {i : Nat} {call : Call} {first : Effect}
    {rest : List Effect} {m : Manager} {s : Int} {effect : Effect}
    (found : st.threads[i]? = some (.inCall call (first :: rest)))
    (after : owes ⟨m, st.threads.set i (resume call rest)⟩ s effect = true) :
    owes st s effect = true := by
  rw [owes] at after ⊢
  rw [List.any_eq_true] at after ⊢
  obtain ⟨t, member, owed⟩ := after
  rcases mem_set_cases member with rfl | member
  · obtain ⟨about, inside⟩ := owesIn_resume.mp owed
    refine ⟨_, mem_of_getElem? found, ?_⟩
    simp [owesIn, about, inside]
  · exact ⟨t, member, owed⟩

theorem owes_after_performs {st : State} {i : Nat} {call : Call} {first : Effect}
    {rest : List Effect} {m : Manager} {s : Int} {effect : Effect}
    (found : st.threads[i]? = some (.inCall call (first :: rest)))
    (before : owes st s effect = true) :
    owes ⟨m, st.threads.set i (resume call rest)⟩ s effect = true ∨
      (call.about = s ∧ effect = first) := by
  rw [owes] at before ⊢
  rw [List.any_eq_true] at before ⊢
  obtain ⟨t, member, owed⟩ := before
  by_cases moving : t = .inCall call (first :: rest)
  · subst moving
    simp only [owesIn, Bool.and_eq_true, decide_eq_true_eq] at owed
    obtain ⟨about, inside⟩ := owed
    rcases List.mem_cons.mp inside with same | later
    · exact Or.inr ⟨about, same⟩
    · exact Or.inl ⟨_, mem_set_self found _, owesIn_resume.mpr ⟨about, later⟩⟩
  · exact Or.inl ⟨t, mem_set_of_ne found member moving, owed⟩

/-- A section that does not decide on the effect leaves alone who owes it. -/
theorem owes_enters_same {st : State} {i : Nat} {call : Call} {todo : List Effect} {m : Manager}
    {s : Int} {effect : Effect} (idle : st.threads[i]? = some .idle)
    (apart : call.about = s → effect ∉ todo) :
    owes ⟨m, st.threads.set i (resume call todo)⟩ s effect = owes st s effect := by
  apply Bool.eq_iff_iff.mpr
  rw [owes_enters idle]
  exact or_iff_left (fun mine => apart mine.1 mine.2)

/-- Doing another effect leaves alone who owes this one. -/
theorem owes_performs_same {st : State} {i : Nat} {call : Call} {first : Effect}
    {rest : List Effect} {m : Manager} {s : Int} {effect : Effect}
    (found : st.threads[i]? = some (.inCall call (first :: rest)))
    (apart : ¬ (call.about = s ∧ effect = first)) :
    owes ⟨m, st.threads.set i (resume call rest)⟩ s effect = owes st s effect := by
  apply Bool.eq_iff_iff.mpr
  constructor
  · exact owes_before_performs found
  · intro before
    exact (owes_after_performs found before).resolve_right apart

/-- The effect that a thread does next is owed. -/
theorem owes_first {st : State} {i : Nat} {call : Call} {first : Effect} {rest : List Effect}
    (found : st.threads[i]? = some (.inCall call (first :: rest))) :
    owes st call.about first = true := by
  apply List.any_eq_true.mpr
  exact ⟨_, mem_of_getElem? found, by simp [owesIn]⟩

/-- A notice with this code to the listener is still to come. -/
def awaits (st : State) (s l : Int) (code : Code) : Bool :=
  owes st s (.notifyAbilityListener l code)

theorem awaits_enters {s l : Int} {st : State} {i : Nat} {m : Manager} {call : Call}
    {todo : List Effect} (idle : st.threads[i]? = some .idle) (code : Code) :
    awaits ⟨m, st.threads.set i (resume call todo)⟩ s l code = true ↔
      awaits st s l code = true ∨ (call.about = s ∧ .notifyAbilityListener l code ∈ todo) :=
  owes_enters idle

/-- No call is in progress. -/
def Quiet (st : State) : Prop := ∀ t ∈ st.threads, t = .idle

instance (st : State) : Decidable (Quiet st) :=
  inferInstanceAs (Decidable (∀ t ∈ st.threads, t = .idle))

theorem Quiet.owes {st : State} (quiet : Quiet st) (s : Int) (effect : Effect) :
    owes st s effect = false := by
  apply List.any_eq_false.mpr
  intro t member
  rw [quiet t member]
  exact Bool.false_ne_true

/-- Only calls that add or remove a listener ask samgr. -/
def AsksInTurn (st : State) : Prop :=
  ∀ call todo, Thread.inCall call todo ∈ st.threads →
    (.subscribeSystemAbility ∈ todo ∨ .unSubscribeSystemAbility ∈ todo) → Concerns call.about call

theorem resume_eq_inCall {call call' : Call} {todo todo' : List Effect}
    (same : resume call todo = .inCall call' todo') : call' = call ∧ todo' = todo := by
  cases todo with
  | nil => cases same
  | cons effect rest =>
    cases same
    exact ⟨rfl, rfl⟩

theorem reachable_asksInTurn {P : Process} {n : Nat} {ok : State → Action → Prop} {st : State}
    (reach : (machine P n).Reachable ok st) : AsksInTurn st := by
  refine reach.invariant AsksInTurn ?_ ?_
  · intro call todo member
    have idle := List.eq_of_mem_replicate member
    cases idle
  · intro st a st' _ turn _ next call todo member asks
    cases moves_of_step next with
    | @enters i call' samgrProxy idle =>
      rcases mem_set_cases member with same | member
      · obtain ⟨rfl, rfl⟩ := resume_eq_inCall same.symm
        cases call with
        | addSystemAbilityListener s l => rfl
        | removeSystemAbilityListener s l => rfl
        | findAndNotifyAbilityListeners s code =>
          simp [enter, findAndNotify_effects] at asks
      · exact turn call todo member asks
    | @performs i reply call' effect rest found =>
      rcases mem_set_cases member with same | member
      · obtain ⟨rfl, rfl⟩ := resume_eq_inCall same.symm
        refine turn call (effect :: todo) (mem_of_getElem? found) ?_
        exact asks.imp (List.mem_cons_of_mem effect) (List.mem_cons_of_mem effect)
      · exact turn call todo member asks

/-- No call that adds or removes a listener of the ability is in progress. -/
def Unchanging (s : Int) (st : State) : Prop :=
  ∀ call todo, Thread.inCall call todo ∈ st.threads → ¬ Concerns s call

theorem Quiet.unchanging {st : State} (quiet : Quiet st) (s : Int) : Unchanging s st := by
  intro call todo member
  cases quiet _ member

theorem AsksInTurn.owes {st : State} {s : Int} (turn : AsksInTurn st) (unchanging : Unchanging s st)
    {effect : Effect} (asks : effect = .subscribeSystemAbility ∨ effect = .unSubscribeSystemAbility) :
    owes st s effect = false := by
  apply List.any_eq_false.mpr
  intro t member owed
  cases t with
  | idle => cases owed
  | inCall call todo =>
    simp only [owesIn, Bool.and_eq_true, decide_eq_true_eq] at owed
    obtain ⟨rfl, inside⟩ := owed
    refine unchanging call todo member (turn call todo member ?_)
    rcases asks with rfl | rfl
    · exact Or.inl inside
    · exact Or.inr inside

end ListenerThreads
