import Safwk.RequestLifecycles

/-!
# Abilities do not interfere

Reasons, registrations and lifecycles are kept by id, and a thread serves one ability at
a time. So a run looks to one ability as if the requests for all the others had never
been made: what is registered under its id, the reasons stored for it, its lifecycle,
the callbacks and messages it gets and the threads that serve it are those of a run in
which only its own requests occur.
-/

namespace RequestIsolation

open Transition StartReason AbilityRequests

/-- The id that an action names. The steps of a thread name none. -/
def names (E : Env) : Action → Option Int32
  | .setStartReason saId _ => some saId
  | .startAbility _ saId _ => some saId
  | .stopAbility _ saId _ => some saId
  | .idleAbility _ saId _ => some saId
  | .activeAbility _ saId _ => some saId
  | .deliver saId _ => some saId
  | .startTask _ object => some (E.saIdOf object)
  | .addAbility object _ => some (E.saIdOf object)
  | .removeAbility saId => some saId
  | .loadSaLib _ _ => none
  | .poll _ => none
  | .getAbility _ => none
  | .getReason _ => none
  | .inner _ _ _ _ => none
  | .publishElsewhere object _ => some (E.saIdOf object)

/-- Only this ability is named. -/
def Only (E : Env) (saId : Int32) (_ : State) (a : Action) : Prop :=
  ∀ named, names E a = some named → named = saId

section View

variable (E : Env) (saId : Int32)

/-- The id that a thread serves. -/
def served : Pc → Option Int32
  | .outside => none
  | .loading saId _ => some saId
  | .waiting saId _ _ => some saId
  | .looking _ saId _ => some saId
  | .inside object _ => some (E.saIdOf object)

/-- A thread that serves another ability is not seen. -/
def seen (pc : Pc) : Pc := if served E pc = some saId then pc else .outside

/-- What is kept for other ids is not seen. -/
def keep {β : Type} (absent : β) (f : Int32 → β) : Int32 → β :=
  fun id => if id = saId then f id else absent

def only (reasons : Reasons) : Reasons where
  map := keep saId none reasons.map
  stored := keep saId [] reasons.stored

/-- What the ability with this id can see of the process. -/
def restrict (n : Nat) (s : State) : State where
  localAbilityMap := keep saId none s.localAbilityMap
  startReasons := only saId s.startReasons
  stopReasons := only saId s.stopReasons
  lifecycle := fun object =>
    if E.saIdOf object = saId then s.lifecycle object else AbilityLifecycle.initial n
  threads := s.threads.map (seen E saId)
  given := s.given.filter fun g => E.saIdOf g.object = saId
  messages := s.messages.filter fun m => E.saIdOf m.1 = saId

end View

variable {E : Env} {saId : Int32} {n : Nat} {s t : State}

theorem seen_of_served {pc : Pc} (mine : served E pc = some saId) : seen E saId pc = pc :=
  if_pos mine

theorem seen_of_other {pc : Pc} (other : served E pc ≠ some saId) : seen E saId pc = .outside :=
  if_neg other

@[simp] theorem seen_outside : seen E saId .outside = .outside := by
  simp [seen]

theorem restrict_found (E : Env) (saId : Int32) (n : Nat) {i : Nat} {pc : Pc}
    (found : s.threads[i]? = some pc) :
    (restrict E saId n s).threads[i]? = some (seen E saId pc) := by
  simp [restrict, found]

theorem restrict_lifecycle {object : Object} (mine : E.saIdOf object = saId) :
    (restrict E saId n s).lifecycle object = s.lifecycle object :=
  if_pos mine

theorem restrict_map : (restrict E saId n s).localAbilityMap saId = s.localAbilityMap saId :=
  if_pos rfl

/-- A thread that stays unseen, or is seen at the same place. -/
theorem map_seen_set {i : Nat} {p q : Pc} (found : s.threads[i]? = some p)
    (same : seen E saId q = seen E saId p) :
    (s.threads.set i q).map (seen E saId) = s.threads.map (seen E saId) := by
  obtain ⟨inList, here⟩ := List.getElem?_eq_some_iff.mp found
  rw [List.map_set, same, ← here, ← List.getElem_map (seen E saId) (h := by simpa using inList),
    List.set_getElem_self]

/-- The lifecycle of another ability is not seen. -/
theorem update_lifecycle_other {object : Object} (other : E.saIdOf object ≠ saId)
    (l : AbilityLifecycle.State) :
    (fun object' => if E.saIdOf object' = saId then
        Function.update s.lifecycle object l object' else AbilityLifecycle.initial n) =
      (restrict E saId n s).lifecycle := by
  funext object'
  by_cases mine : E.saIdOf object' = saId
  · have different : object' ≠ object := by
      rintro rfl
      exact other mine
    simp [restrict, mine, Function.update_of_ne different]
  · simp [restrict, mine]

theorem update_lifecycle_mine {object : Object} (mine : E.saIdOf object = saId)
    (l : AbilityLifecycle.State) :
    (fun object' => if E.saIdOf object' = saId then
        Function.update s.lifecycle object l object' else AbilityLifecycle.initial n) =
      Function.update (restrict E saId n s).lifecycle object l := by
  funext object'
  by_cases same : object' = object
  · subst same
    simp [mine]
  · simp [restrict, Function.update_of_ne same]

/-! ## Reasons -/

section Reasons

@[simp] theorem keep_self {β : Type} (absent : β) (f : Int32 → β) : keep saId absent f saId = f saId :=
  if_pos rfl

theorem keep_update_mine {β : Type} (absent : β) (f : Int32 → β) (b : β) :
    keep saId absent (Function.update f saId b) = Function.update (keep saId absent f) saId b := by
  funext id
  by_cases same : id = saId
  · subst same
    simp
  · simp [keep, same]

theorem keep_update_other {β : Type} {id : Int32} (other : id ≠ saId) (absent : β)
    (f : Int32 → β) (b : β) : keep saId absent (Function.update f id b) = keep saId absent f := by
  funext id'
  by_cases same : id' = saId
  · subst same
    simp [Function.update_of_ne (Ne.symm other)]
  · simp [keep, same]

variable (reasons : Reasons)

theorem only_set_mine (event : Json) :
    only saId (reasons.set saId event) = (only saId reasons).set saId event := by
  simp only [only, Reasons.set, keep_update_mine, keep_self]

theorem only_set_other {id : Int32} (other : id ≠ saId) (event : Json) :
    only saId (reasons.set id event) = only saId reasons := by
  simp only [only, Reasons.set, keep_update_other other]

theorem only_get_mine :
    (only saId reasons).get saId = ((reasons.get saId).1, only saId (reasons.get saId).2) := by
  simp only [Reasons.get, only, keep_self]
  cases reasons.map saId with
  | some event => rfl
  | none => simp only [keep_update_mine]

theorem only_get_other {id : Int32} (other : id ≠ saId) :
    only saId (reasons.get id).2 = only saId reasons := by
  simp only [Reasons.get]
  cases reasons.map id with
  | some event => rfl
  | none => simp only [only, keep_update_other other]

end Reasons

/-! ## One step -/

/-- What is seen of a step: nothing, or the same step. -/
def Seen (E : Env) (saId : Int32) (n : Nat) (s : State) (a : Action) (t : State) : Prop :=
  restrict E saId n t = restrict E saId n s ∨
    Only E saId (restrict E saId n s) a ∧
      Moves E (restrict E saId n s) a (restrict E saId n t)

theorem only_of_names {a : Action} {named : Int32} (names : names E a = some named)
    (mine : named = saId) (s : State) : Only E saId s a := by
  intro other same
  rw [names] at same
  exact (Option.some.inj same).symm.trans mine

theorem only_of_thread {a : Action} (names : names E a = none) (s : State) : Only E saId s a := by
  intro named same
  rw [names] at same
  cases same

/-- A thread moves and nothing else is seen of it. -/
theorem restrict_set_threads {i : Nat} {p : Pc} (q : Pc) (found : s.threads[i]? = some p)
    (same : seen E saId q = seen E saId p) :
    restrict E saId n { s with threads := s.threads.set i q } = restrict E saId n s := by
  simp only [restrict, map_seen_set found same]

/-- A thread of another ability calls it. -/
theorem restrict_called_other {i : Nat} {p : Pc} {object : Object}
    (found : s.threads[i]? = some p) (unseen : seen E saId p = .outside)
    (other : E.saIdOf object ≠ saId) (operation : AbilityLifecycle.Operation) (job : Job) :
    restrict E saId n (s.called i object operation job) = restrict E saId n s := by
  have same : seen E saId (.inside object job) = seen E saId p := by
    rw [unseen]
    exact seen_of_other (by simpa [served] using other)
  simp only [restrict, State.called, map_seen_set found same]
  congr 1
  exact update_lifecycle_other other _

/-- A thread of this ability calls it. -/
theorem restrict_called_mine {object : Object} (mine : E.saIdOf object = saId) (i : Nat)
    (operation : AbilityLifecycle.Operation) (job : Job) :
    restrict E saId n (s.called i object operation job) =
      (restrict E saId n s).called i object operation job := by
  have stays : seen E saId (.inside object job) = .inside object job :=
    seen_of_served (by simpa [served] using mine)
  simp only [State.called, restrict_lifecycle mine]
  rw [← update_lifecycle_mine mine]
  simp only [restrict, List.map_set, stays]

/-- A step inside another ability. -/
theorem restrict_inside_other {i : Nat} {object : Object} {job : Job} {q : Pc}
    (found : s.threads[i]? = some (.inside object job)) (other : E.saIdOf object ≠ saId)
    (unseen : seen E saId q = .outside) (l : AbilityLifecycle.State) :
    restrict E saId n { s with
        lifecycle := Function.update s.lifecycle object l, threads := s.threads.set i q } =
      restrict E saId n s := by
  have same : seen E saId q = seen E saId (.inside object job) := by
    rw [unseen]
    exact (seen_of_other (by simpa [served] using other)).symm
  simp only [restrict, map_seen_set found same]
  congr 1
  exact update_lifecycle_other other l

/-- A step inside this ability. -/
theorem restrict_inside_mine {object : Object} (mine : E.saIdOf object = saId) (i : Nat) {q : Pc}
    (seenQ : seen E saId q = q) (l : AbilityLifecycle.State) :
    restrict E saId n { s with
        lifecycle := Function.update s.lifecycle object l, threads := s.threads.set i q } =
      { restrict E saId n s with
        lifecycle := Function.update (restrict E saId n s).lifecycle object l
        threads := (restrict E saId n s).threads.set i q } := by
  rw [← update_lifecycle_mine mine]
  simp only [restrict, List.map_set, seenQ]

/-- A callback of this ability is seen, one of another is not. -/
theorem restrict_given (g : Given) :
    (E.saIdOf g.object = saId → restrict E saId n { s with given := g :: s.given } =
      { restrict E saId n s with given := g :: (restrict E saId n s).given }) ∧
    (E.saIdOf g.object ≠ saId →
      restrict E saId n { s with given := g :: s.given } = restrict E saId n s) := by
  constructor
  · intro mine
    simp [restrict, mine]
  · intro other
    simp [restrict, other]

/-- The lifecycle of an ability changes and no thread moves. -/
theorem restrict_lifecycle_update (object : Object) (l : AbilityLifecycle.State) :
    (E.saIdOf object = saId →
      restrict E saId n { s with lifecycle := Function.update s.lifecycle object l } =
        { restrict E saId n s with
          lifecycle := Function.update (restrict E saId n s).lifecycle object l }) ∧
    (E.saIdOf object ≠ saId →
      restrict E saId n { s with lifecycle := Function.update s.lifecycle object l } =
        restrict E saId n s) := by
  constructor
  · intro mine
    rw [← update_lifecycle_mine mine]
    rfl
  · intro other
    simp only [restrict]
    congr 1
    exact update_lifecycle_other other l

theorem seen_leave (object : Object) (job : Job) (after : AbilityLifecycle.Pc) :
    (E.saIdOf object = saId → seen E saId (leave object job after) = leave object job after) ∧
      (E.saIdOf object ≠ saId → seen E saId (leave object job after) = .outside) := by
  constructor
  · intro mine
    cases after with
    | outside => exact seen_outside
    | _ => exact seen_of_served (by simpa [served, leave] using mine)
  · intro other
    cases after with
    | outside => exact seen_outside
    | _ => exact seen_of_other (by simpa [served, leave] using other)

theorem restrict_reasons (kind : Kind) :
    (restrict E saId n s).reasons kind = only saId (s.reasons kind) := by
  cases kind <;> rfl

theorem restrict_requests (kind : Kind) :
    (restrict E saId n s).requests kind saId = s.requests kind saId := by
  rw [State.requests, State.requests, restrict_reasons]
  simp only [only, keep_self]

/-- A thread that moves outside of all abilities goes on to serve the same id, or ends. -/
theorem seen_thread {a : Action} {i : Nat} {p q : Pc} (found : s.threads[i]? = some p)
    (unnamed : names E a = none) (follows : q = .outside ∨ served E q = served E p)
    (again : served E p = some saId → (restrict E saId n s).threads[i]? = some p →
      Moves E (restrict E saId n s) a
        { restrict E saId n s with threads := (restrict E saId n s).threads.set i q }) :
    Seen E saId n s a { s with threads := s.threads.set i q } := by
  by_cases mine : served E p = some saId
  · refine Or.inr ⟨only_of_thread unnamed _, ?_⟩
    have stays : seen E saId q = q := by
      rcases follows with rfl | same
      · exact seen_outside
      · exact seen_of_served (same.trans mine)
    have here := restrict_found E saId n found
    rw [seen_of_served mine] at here
    have moved := again mine here
    simp only [restrict, List.map_set, stays] at moved ⊢
    exact moved
  · refine Or.inl (restrict_set_threads q found ?_)
    rw [seen_of_other mine]
    rcases follows with rfl | same
    · exact seen_outside
    · exact seen_of_other (same ▸ mine)

/-- A request makes a thread and stores a reason. -/
theorem seen_request {a : Action} {i : Nat} {id : Int32} {q : Pc} (kind : Kind) (event : Json)
    (found : s.threads[i]? = some .outside) (named : names E a = some id)
    (serves : served E q = some id)
    (again : id = saId → (restrict E saId n s).threads[i]? = some .outside →
      Moves E (restrict E saId n s) a
        { (restrict E saId n s).setReasons (((restrict E saId n s).reasons kind).set id event) kind with
          threads := (restrict E saId n s).threads.set i q }) :
    Seen E saId n s a
      { s.setReasons ((s.reasons kind).set id event) kind with threads := s.threads.set i q } := by
  by_cases mine : id = saId
  · subst mine
    refine Or.inr ⟨only_of_names named rfl _, ?_⟩
    have here := restrict_found E id n found
    rw [seen_outside] at here
    have moved := again rfl here
    rw [restrict_reasons, ← only_set_mine] at moved
    have stays : seen E id q = q := seen_of_served serves
    cases kind <;> simpa only [restrict, State.setReasons, State.reasons, List.map_set, stays] using moved
  · left
    have unseen : seen E saId q = seen E saId .outside := by
      rw [seen_outside]
      exact seen_of_other (by rw [serves]; simpa using mine)
    cases kind <;>
      simp only [restrict, State.setReasons, State.reasons, only_set_other _ mine,
        map_seen_set found unseen]

/-- A thread calls the ability that is registered. -/
theorem seen_called {a : Action} {i : Nat} {p : Pc} {id : Int32} {object : Object}
    {operation : AbilityLifecycle.Operation} {job : Job} (found : s.threads[i]? = some p)
    (serves : served E p = some id ∨ p = .outside) (keyed : E.saIdOf object = id)
    (named : Only E saId (restrict E saId n s) a ∨ id ≠ saId)
    (free : (s.lifecycle object).threads[i]? = some .outside)
    (again : id = saId → (restrict E saId n s).threads[i]? = some p →
      ((restrict E saId n s).lifecycle object).threads[i]? = some .outside →
      Moves E (restrict E saId n s) a ((restrict E saId n s).called i object operation job)) :
    Seen E saId n s a (s.called i object operation job) := by
  have here := restrict_found E saId n found
  by_cases mine : id = saId
  · subst mine
    refine Or.inr ⟨named.resolve_right (fun other => other rfl), ?_⟩
    rw [restrict_called_mine keyed]
    have stays : seen E id p = p := by
      rcases serves with same | rfl
      · exact seen_of_served same
      · exact seen_outside
    rw [stays] at here
    exact again rfl here (by rw [restrict_lifecycle keyed]; exact free)
  · refine Or.inl (restrict_called_other found ?_ (keyed ▸ mine) operation job)
    rcases serves with same | rfl
    · exact seen_of_other (by rw [same]; simpa using mine)
    · exact seen_outside

theorem moves_seen {a : Action} (move : Moves E s a t) (keys : KeysMatch E s) :
    Seen E saId n s a t := by
  cases move with
  | nothing possible ignored => exact Or.inl rfl
  | setStartReason id event =>
    by_cases mine : id = saId
    · subst mine
      refine Or.inr ⟨only_of_names rfl rfl _, ?_⟩
      have moved := Moves.setStartReason (E := E) (s := restrict E id n s) id event
      simpa only [restrict, only_set_mine] using moved
    · left
      simp only [restrict, only_set_other _ mine]
  | @startAbility i id eventStr found =>
    refine seen_request .start (E.stringToJsonObj eventStr) found rfl rfl ?_
    rintro rfl here
    rw [← restrict_requests]
    exact .startAbility id eventStr here
  | @stopAbility i id eventStr found =>
    refine seen_request .stop (E.stringToJsonObj eventStr) found rfl rfl ?_
    rintro rfl here
    rw [← restrict_requests]
    exact .stopAbility id eventStr here
  | @idleAbility i id object idleReason found registered free =>
    refine seen_called found (Or.inr rfl) (keys id object registered) ?_ free ?_
    · by_cases mine : id = saId
      · exact Or.inl (only_of_names rfl mine _)
      · exact Or.inr mine
    · rintro rfl here free
      exact .idleAbility idleReason here (restrict_map.trans registered) free
  | @activeAbility i id object activeReason found registered free =>
    refine seen_called found (Or.inr rfl) (keys id object registered) ?_ free ?_
    · by_cases mine : id = saId
      · exact Or.inl (only_of_names rfl mine _)
      · exact Or.inr mine
    · rintro rfl here free
      exact .activeAbility activeReason here (restrict_map.trans registered) free
  | @deliver id object message registered =>
    have keyed := keys id object registered
    by_cases mine : id = saId
    · subst mine
      refine Or.inr ⟨only_of_names rfl rfl _, ?_⟩
      have moved := Moves.deliver (E := E) message (restrict_map (E := E) (n := n).trans registered)
      simpa [restrict, keyed] using moved
    · left
      simp [restrict, keyed, mine]
  | @startTask i object found free =>
    refine seen_called found (Or.inr rfl) rfl ?_ free ?_
    · by_cases mine : E.saIdOf object = saId
      · exact Or.inl (only_of_names rfl mine _)
      · exact Or.inr mine
    · intro _ here free
      exact .startTask here free
  | @addAbility object fresh =>
    by_cases mine : E.saIdOf object = saId
    · subst mine
      refine Or.inr ⟨only_of_names rfl rfl _, ?_⟩
      have unused : (restrict E (E.saIdOf object) n s).localAbilityMap (E.saIdOf object) = none :=
        restrict_map.trans fresh
      have moved := Moves.addAbility unused
      simpa only [restrict, keep_update_mine] using moved
    · left
      simp only [restrict, keep_update_other mine]
  | @removeAbility id valid =>
    by_cases mine : id = saId
    · subst mine
      refine Or.inr ⟨only_of_names rfl rfl _, ?_⟩
      have moved := Moves.removeAbility (E := E) (s := restrict E id n s) valid
      simpa only [restrict, keep_update_mine] using moved
    · left
      simp only [restrict, keep_update_other mine]
  | loadFails found => exact seen_thread found rfl (Or.inl rfl) (fun _ here => .loadFails here)
  | loads found => exact seen_thread found rfl (Or.inr rfl) (fun _ here => .loads here)
  | timesOut found => exact seen_thread found rfl (Or.inl rfl) (fun _ here => .timesOut here)
  | appears found registered =>
    refine seen_thread found rfl (Or.inr rfl) ?_
    rintro ⟨rfl⟩ here
    exact .appears here (restrict_map.trans registered)
  | waits found missing =>
    refine seen_thread found rfl (Or.inr rfl) ?_
    rintro ⟨rfl⟩ here
    exact .waits here (restrict_map.trans missing)
  | notFound found missing =>
    refine seen_thread found rfl (Or.inl rfl) ?_
    rintro ⟨rfl⟩ here
    exact .notFound here (restrict_map.trans missing)
  | @getAbility i kind id request object found registered free =>
    refine seen_called found (Or.inl rfl) (keys id object registered)
      (Or.inl (only_of_thread rfl _)) free ?_
    rintro rfl here free
    exact .getAbility here (restrict_map.trans registered) free
  | @getReason i object kind request found ready =>
    have here := restrict_found E saId n found
    by_cases mine : E.saIdOf object = saId
    · refine Or.inr ⟨only_of_thread rfl _, ?_⟩
      rw [seen_of_served (by simpa [served] using mine)] at here
      have moves := Moves.getReason (E := E) here (by rw [restrict_lifecycle mine]; exact ready)
      rw [mine, restrict_reasons, only_get_mine, restrict_requests] at moves
      rw [mine]
      have stays : ∀ job, seen E saId (.inside object job) = .inside object job :=
        fun job => seen_of_served (by simpa [served] using mine)
      cases kind <;>
        simpa only [restrict, State.setReasons, State.reasons, List.map_set, stays] using moves
    · left
      have unseen : ∀ job job', seen E saId (.inside object job) = seen E saId (.inside object job') := by
        intro job job'
        rw [seen_of_other (by simpa [served] using mine), seen_of_other (by simpa [served] using mine)]
      cases kind <;>
        simp only [restrict, State.setReasons, State.reasons, only_get_other _ mine,
          map_seen_set found (unseen _ _)]
  | @quiet i object job a lifecycle before after memory samgrProxy found mover next was moved goes
      silent =>
    by_cases mine : E.saIdOf object = saId
    · refine Or.inr ⟨only_of_thread rfl _, ?_⟩
      rw [restrict_inside_mine mine i ((seen_leave object job after).1 mine)]
      have here := restrict_found E saId n found
      rw [seen_of_served (by simpa [served] using mine)] at here
      exact .quiet memory samgrProxy here mover (by rw [restrict_lifecycle mine]; exact next)
        (by rw [restrict_lifecycle mine]; exact was) (by rw [restrict_lifecycle mine]; exact moved)
        goes silent
    · exact Or.inl (restrict_inside_other found mine ((seen_leave object job after).2 mine) lifecycle)
  | @callback i object held callback request seen' json a lifecycle before after memory samgrProxy
      found mover next was moved goes starts =>
    let g : Given := ⟨object, callback, request, build E memory samgrProxy json⟩
    let middle : State := { s with
      lifecycle := Function.update s.lifecycle object lifecycle
      threads := s.threads.set i (leave object .running after) }
    obtain ⟨giveMine, giveOther⟩ := restrict_given (E := E) (s := middle) (n := n) g
    by_cases mine : E.saIdOf object = saId
    · refine Or.inr ⟨only_of_thread rfl _, ?_⟩
      have here := restrict_found E saId n found
      rw [seen_of_served (by simpa [served] using mine)] at here
      have moves := Moves.callback (E := E) memory samgrProxy here mover
        (by rw [restrict_lifecycle mine]; exact next) (by rw [restrict_lifecycle mine]; exact was)
        (by rw [restrict_lifecycle mine]; exact moved) goes starts
      have inside : restrict E saId n middle = _ :=
        restrict_inside_mine mine i ((seen_leave object .running after).1 mine) lifecycle
      have result := giveMine mine
      rw [inside] at result
      exact result ▸ moves
    · left
      have inside : restrict E saId n middle = restrict E saId n s :=
        restrict_inside_other found mine ((seen_leave object .running after).2 mine) lifecycle
      exact (giveOther mine).trans inside
  | @publishElsewhere object lifecycle c next =>
    by_cases mine : E.saIdOf object = saId
    · refine Or.inr ⟨only_of_names rfl mine _, ?_⟩
      rw [(restrict_lifecycle_update object lifecycle).1 mine]
      exact .publishElsewhere c (by rw [restrict_lifecycle mine]; exact next)
    · exact Or.inl ((restrict_lifecycle_update object lifecycle).2 mine)

theorem restrict_initial : restrict E saId n (initial n) = initial n := by
  simp only [restrict, initial, State.mk.injEq, List.map_replicate, seen_outside, List.filter_nil,
    and_true]
  refine ⟨?_, ?_, ?_, ?_⟩
  · funext id
    simp [keep]
  · simp only [only, Reasons.mk.injEq]
    exact ⟨by funext id; simp [keep], by funext id; simp [keep]⟩
  · simp only [only, Reasons.mk.injEq]
    exact ⟨by funext id; simp [keep], by funext id; simp [keep]⟩
  · funext object
    simp

/-- Any number of threads and requests, any interleaving: what the ability with one id can
see of the process is reached by a run in which that id alone is named. -/
theorem requests_isolated (E : Env) (n : Nat) (s : State)
    (reach : (machine E n).Reachable Free s) (saId : Int32) :
    (machine E n).Reachable (Only E saId) (restrict E saId n s) := by
  refine reach.simulate (N := machine E n) (restrict E saId n) restrict_initial ?_
  intro r a t before _ _ next
  rcases moves_seen (moves_of_step next) (reachable_keysMatch before) with same | ⟨named, moves⟩
  · exact Or.inl same
  · exact Or.inr ⟨a, named, step_of_moves moves⟩

/-- Two abilities, with ids 401 and 402. -/
def twoAbilities : Env where
  saIdOf := fun object => if object = 0 then 401 else 402
  stringToJsonObj := Json.string
  undefined := fun _ => 0

/-- Both abilities are requested; thread 0 starts the first one while thread 1 still waits
for the second to register. -/
def sideBySide : List Action :=
  [.addAbility 0 true, .startAbility 1 402 [98], .startAbility 0 401 [97],
    .loadSaLib 1 true, .poll 1, .loadSaLib 0 true, .poll 0, .getAbility 0,
    .inner 0 (.lock 0) 0 none, .inner 0 (.advance 0) 0 none, .getReason 0,
    .inner 0 (.advance 0) 0 none, .deliver 401 (.onExtension [99])]

def sideBySideState : State :=
  ((machine twoAbilities 2).run Free (initial 2) sideBySide).get (by decide)

theorem requests_isolated_sideBySide :
    (restrict twoAbilities 401 2 sideBySideState).given =
      [⟨0, .onStart, some 0, build twoAbilities 0 none (.string [97])⟩] ∧
    (restrict twoAbilities 401 2 sideBySideState).messages = [(0, .onExtension [99])] ∧
    (machine twoAbilities 2).Reachable (Only twoAbilities 401)
      (restrict twoAbilities 401 2 sideBySideState) := by
  have reach : (machine twoAbilities 2).Reachable Free sideBySideState :=
    Machine.reachable_get sideBySide (by decide)
  exact ⟨rfl, rfl, requests_isolated twoAbilities 2 sideBySideState reach 401⟩

end RequestIsolation
