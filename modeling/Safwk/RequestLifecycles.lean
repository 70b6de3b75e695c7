import Safwk.AbilityRequests

/-!
# Requests and lifecycles

A thread that serves a request is in the lifecycle of at most one ability, at a place
that fits what it is about, and everything that happens to an ability is a run of its
own lifecycle. So whatever holds of a lifecycle in every interleaving holds of every
ability of the process.
-/

namespace AbilityRequests

open Transition StartReason

/-- Where a thread with this job can be inside its ability. -/
def Fits : Job → AbilityLifecycle.Pc → Prop
  | .called .start _, .startEnter => True
  | .called .start _, .startCheck => True
  | .called .start _, .startReady => True
  | .called .start _, .startExit => True
  | .called .stop _, .stopCheck => True
  | .called .stop _, .stopReady => True
  | .holding .onStart _ _ _, .startReady => True
  | .holding .onStop _ _ _, .stopReady => True
  | .holding .onIdle _ _ _, .idleCheck => True
  | .holding .onActive _ _ _, .activeCheck => True
  | .running, .onStart _ => True
  | .running, .startFinal => True
  | .running, .startExit => True
  | .running, .onIdle => True
  | .running, .idleFinal _ => True
  | .running, .onActive => True
  | .running, .activeFinal => True
  | .running, .onStop => True
  | .running, .stopFinal => True
  | _, _ => False

theorem goes_fits {job : Job} {before after : AbilityLifecycle.Pc} (goes : Goes before after)
    (fits : Fits job before) (silent : begins before after = none) :
    after = .outside ∨ Fits job after := by
  cases job with
  | called kind request =>
    cases kind <;> cases goes <;> first | cases fits; done | cases silent; done | skip
    all_goals first | exact Or.inl rfl | exact Or.inr trivial
  | holding callback request seen json =>
    cases callback <;> cases goes <;> first | cases fits; done | cases silent; done | exact Or.inl rfl
  | running =>
    cases goes <;> first | cases fits; done | exact Or.inl rfl | exact Or.inr trivial

/-- The callback that begins is the one the thread holds a reason for. -/
theorem goes_callback {held callback : Callback} {request : Option Nat} {seen : Nat} {json : Json}
    {before after : AbilityLifecycle.Pc} (goes : Goes before after)
    (fits : Fits (.holding held request seen json) before)
    (starts : begins before after = some callback) : held = callback ∧ Fits .running after := by
  cases held <;> cases goes <;> first | cases fits; done | cases starts; done | skip
  all_goals
    cases starts
    exact ⟨rfl, trivial⟩

/-- A thread is in the lifecycle of the ability that it is inside of, and in no other. -/
structure Coupled (s : State) : Prop where
  inside : ∀ (i : Nat) (object : Object) (job : Job),
    s.threads[i]? = some (.inside object job) →
    ∃ pc, (s.lifecycle object).threads[i]? = some pc ∧ Fits job pc
  elsewhere : ∀ (i : Nat) (pc : Pc) (object : Object), s.threads[i]? = some pc →
    (∀ job, pc ≠ .inside object job) → (s.lifecycle object).threads[i]? = some .outside

theorem initial_coupled (n : Nat) : Coupled (initial n) := by
  constructor
  · intro i object job found
    cases List.eq_of_mem_replicate (Threads.mem_of_getElem? found)
  · intro i pc object found _
    have bound : i < n := by
      have := (List.getElem?_eq_some_iff.mp found).1
      simpa [initial] using this
    simp [initial, AbilityLifecycle.initial, bound]

/-- A thread outside of all abilities stays outside. -/
theorem Coupled.move {s t : State} (coupled : Coupled s) {i : Nat} {p q : Pc}
    (found : s.threads[i]? = some p) (wasOut : ∀ object job, p ≠ .inside object job)
    (isOut : ∀ object job, q ≠ .inside object job) (threads : t.threads = s.threads.set i q)
    (lifecycle : t.lifecycle = s.lifecycle) : Coupled t := by
  constructor
  · intro j object job now
    rw [threads] at now
    rw [lifecycle]
    rcases Threads.getElem?_set_cases now with ⟨rfl, same⟩ | ⟨_, before⟩
    · exact False.elim (isOut object job same.symm)
    · exact coupled.inside j object job before
  · intro j pc object now notHere
    rw [threads] at now
    rw [lifecycle]
    rcases Threads.getElem?_set_cases now with ⟨rfl, _⟩ | ⟨_, before⟩
    · exact coupled.elsewhere j p object found (wasOut object)
    · exact coupled.elsewhere j pc object before notHere

/-- A thread gets to another place in one ability, possibly out of it. -/
theorem Coupled.place {s t : State} (coupled : Coupled s) {i : Nat} {object : Object} {p q : Pc}
    {l : AbilityLifecycle.State} {after : AbilityLifecycle.Pc}
    (found : s.threads[i]? = some p)
    (only : ∀ other job, p = .inside other job → other = object)
    (moved : l.threads = (s.lifecycle object).threads.set i after)
    (threads : t.threads = s.threads.set i q)
    (lifecycle : t.lifecycle = Function.update s.lifecycle object l)
    (agree : q = .outside ∧ after = .outside ∨ ∃ job, q = .inside object job ∧ Fits job after) :
    Coupled t := by
  have inList : ((s.lifecycle object).threads[i]?).isSome := by
    by_cases here : ∃ job, p = .inside object job
    · obtain ⟨job, rfl⟩ := here
      obtain ⟨pc, place, _⟩ := coupled.inside i object job found
      simp [place]
    · simp [coupled.elsewhere i p object found (fun job same => here ⟨job, same⟩)]
  have now : l.threads[i]? = some after := by
    rw [moved, List.getElem?_set_self]
    exact List.getElem?_eq_some_iff.mp (Option.some_get inList).symm |>.1
  have other : ∀ j, j ≠ i → l.threads[j]? = (s.lifecycle object).threads[j]? := by
    intro j different
    rw [moved, List.getElem?_set_ne (Ne.symm different)]
  constructor
  · intro j object' job here
    rw [threads] at here
    rw [lifecycle]
    rcases Threads.getElem?_set_cases here with ⟨rfl, same⟩ | ⟨different, before⟩
    · rcases agree with ⟨out, _⟩ | ⟨job', isIn, fits⟩
      · rw [out] at same
        cases same
      · rw [isIn] at same
        cases same
        exact ⟨after, by rw [Function.update_self, now], fits⟩
    · by_cases same : object' = object
      · subst same
        rw [Function.update_self, other j different]
        exact coupled.inside j object' job before
      · rw [Function.update_of_ne same]
        exact coupled.inside j object' job before
  · intro j pc object' here notHere
    rw [threads] at here
    rw [lifecycle]
    rcases Threads.getElem?_set_cases here with ⟨rfl, isQ⟩ | ⟨different, before⟩
    · by_cases same : object' = object
      · subst same
        rcases agree with ⟨_, out⟩ | ⟨job, isIn, _⟩
        · rw [Function.update_self, now, out]
        · exact False.elim (notHere job (isQ.trans isIn))
      · rw [Function.update_of_ne same]
        refine coupled.elsewhere j p object' found ?_
        intro job isIn
        exact same (only object' job isIn)
    · by_cases same : object' = object
      · subst same
        rw [Function.update_self, other j different]
        exact coupled.elsewhere j pc object' before notHere
      · rw [Function.update_of_ne same]
        exact coupled.elsewhere j pc object' before notHere

/-- Nobody moves in the lifecycle of one ability. -/
theorem Coupled.stay {s t : State} (coupled : Coupled s) {object : Object}
    {l : AbilityLifecycle.State} (stays : l.threads = (s.lifecycle object).threads)
    (threads : t.threads = s.threads)
    (lifecycle : t.lifecycle = Function.update s.lifecycle object l) : Coupled t := by
  have places : ∀ other, (t.lifecycle other).threads = (s.lifecycle other).threads := by
    intro other
    rw [lifecycle]
    by_cases same : other = object
    · subst same
      rw [Function.update_self, stays]
    · rw [Function.update_of_ne same]
  constructor
  · intro i other job found
    rw [places]
    exact coupled.inside i other job (threads ▸ found)
  · intro i pc other found notHere
    rw [places]
    exact coupled.elsewhere i pc other (threads ▸ found) notHere

theorem Coupled.called {s : State} (coupled : Coupled s) {i : Nat} {p : Pc}
    (found : s.threads[i]? = some p) (wasOut : ∀ object job, p ≠ .inside object job)
    (object : Object) (operation : AbilityLifecycle.Operation) {job : Job}
    (fits : Fits job (AbilityLifecycle.entry operation)) :
    Coupled (s.called i object operation job) := by
  refine coupled.place found ?_ rfl rfl rfl (Or.inr ⟨job, rfl, fits⟩)
  intro other job' same
  exact False.elim (wasOut other job' same)

theorem leave_agrees (object : Object) {job : Job} {after : AbilityLifecycle.Pc}
    (placed : after = .outside ∨ Fits job after) :
    leave object job after = .outside ∧ after = .outside ∨
      ∃ job', leave object job after = .inside object job' ∧ Fits job' after := by
  by_cases out : after = .outside
  · subst out
    exact Or.inl ⟨rfl, rfl⟩
  · have fits := placed.resolve_left out
    refine Or.inr ⟨job, ?_, fits⟩
    cases after <;> first | rfl | exact False.elim (out rfl)

theorem moves_coupled {E : Env} {s t : State} {a : Action} (move : Moves E s a t)
    (coupled : Coupled s) : Coupled t := by
  cases move with
  | nothing possible ignored => exact coupled
  | setStartReason saId event => exact ⟨coupled.inside, coupled.elsewhere⟩
  | startAbility saId eventStr found => exact coupled.move found (by simp) (by simp) rfl rfl
  | stopAbility saId eventStr found => exact coupled.move found (by simp) (by simp) rfl rfl
  | idleAbility idleReason found registered free =>
    exact coupled.called found (by simp) _ .idle trivial
  | activeAbility activeReason found registered free =>
    exact coupled.called found (by simp) _ .active trivial
  | deliver message registered => exact ⟨coupled.inside, coupled.elsewhere⟩
  | startTask found free => exact coupled.called found (by simp) _ .start trivial
  | addAbility fresh => exact ⟨coupled.inside, coupled.elsewhere⟩
  | removeAbility valid => exact ⟨coupled.inside, coupled.elsewhere⟩
  | loadFails found => exact coupled.move found (by simp) (by simp) rfl rfl
  | loads found => exact coupled.move found (by simp) (by simp) rfl rfl
  | timesOut found => exact coupled.move found (by simp) (by simp) rfl rfl
  | appears found registered => exact coupled.move found (by simp) (by simp) rfl rfl
  | waits found missing => exact coupled.move found (by simp) (by simp) rfl rfl
  | notFound found missing => exact coupled.move found (by simp) (by simp) rfl rfl
  | @getAbility i kind saId request object found registered free =>
    refine coupled.called found (by simp) object kind.operation ?_
    cases kind <;> exact trivial
  | @getReason i object kind request found ready =>
    obtain ⟨inList, here⟩ := List.getElem?_eq_some_iff.mp ready
    have stays : (s.lifecycle object).threads = (s.lifecycle object).threads.set i kind.ready := by
      rw [← here, List.set_getElem_self]
    refine coupled.place found (by simp) stays rfl ?_ (Or.inr ⟨_, rfl, ?_⟩)
    · rw [setReasons_lifecycle, Function.update_eq_self]
    · cases kind <;> exact trivial
  | @quiet i object job _ _ before _ _ _ found _ _ was moved goes silent =>
    obtain ⟨pc, place, fits⟩ := coupled.inside i object job found
    obtain rfl : pc = before := Option.some.inj (place.symm.trans was)
    exact coupled.place found (by simp) moved rfl rfl
      (leave_agrees object (goes_fits goes fits silent))
  | @callback i object _ _ _ _ _ _ _ before _ _ _ found _ _ was moved goes starts =>
    obtain ⟨pc, place, fits⟩ := coupled.inside i object _ found
    obtain rfl : pc = before := Option.some.inj (place.symm.trans was)
    exact coupled.place found (by simp) moved rfl rfl
      (leave_agrees object (Or.inr (goes_callback goes fits starts).2))
  | @publishElsewhere object lifecycle c next =>
    have stays : lifecycle.threads = (s.lifecycle object).threads := by
      cases AbilityLifecycle.moves_of_step next
      rfl
    exact coupled.stay stays rfl rfl

theorem reachable_coupled {E : Env} {n : Nat} {ok : State → Action → Prop} {s : State}
    (reach : (machine E n).Reachable ok s) : Coupled s := by
  refine reach.invariant Coupled (initial_coupled n) ?_
  intro r a t _ keep _ next
  exact moves_coupled (moves_of_step next) keep

/-- Every ability is registered under its own id. -/
def KeysMatch (E : Env) (s : State) : Prop :=
  ∀ saId object, s.localAbilityMap saId = some object → E.saIdOf object = saId

theorem moves_keysMatch {E : Env} {s t : State} {a : Action} (move : Moves E s a t)
    (keys : KeysMatch E s) : KeysMatch E t := by
  cases move with
  | addAbility fresh =>
    intro saId object found
    simp only [Function.update_apply] at found
    split at found
    · rename_i same
      cases found
      exact same.symm
    · exact keys saId object found
  | @removeAbility removed valid =>
    intro saId object found
    simp only [Function.update_apply] at found
    split at found
    · cases found
    · exact keys saId object found
  | getReason found ready =>
    intro saId object registered
    rw [setReasons_localAbilityMap] at registered
    exact keys saId object registered
  | _ => exact keys

theorem reachable_keysMatch {E : Env} {n : Nat} {ok : State → Action → Prop} {s : State}
    (reach : (machine E n).Reachable ok s) : KeysMatch E s := by
  refine reach.invariant (KeysMatch E) ?_ ?_
  · intro saId object found
    cases found
  · intro r a t _ keep _ next
    exact moves_keysMatch (moves_of_step next) keep

/-- What the manager does to one ability is a run of the lifecycle of that ability alone. -/
theorem moves_lifecycle {E : Env} {s t : State} {a : Action} (move : Moves E s a t)
    (object : Object) :
    t.lifecycle object = s.lifecycle object ∨
      ∃ b, AbilityLifecycle.step (s.lifecycle object) b = some (t.lifecycle object) := by
  have updated : ∀ (other : Object) (l : AbilityLifecycle.State)
      (b : AbilityLifecycle.Action), AbilityLifecycle.step (s.lifecycle other) b = some l →
      Function.update s.lifecycle other l object = s.lifecycle object ∨
        ∃ b, AbilityLifecycle.step (s.lifecycle object) b =
          some (Function.update s.lifecycle other l object) := by
    intro other l b next
    by_cases same : object = other
    · subst same
      rw [Function.update_self]
      exact Or.inr ⟨b, next⟩
    · rw [Function.update_of_ne same]
      exact Or.inl rfl
  have called : ∀ {i : Nat} {other : Object} (operation : AbilityLifecycle.Operation),
      (s.lifecycle other).threads[i]? = some .outside →
      AbilityLifecycle.step (s.lifecycle other) (.call i operation) =
        some { s.lifecycle other with
          threads := (s.lifecycle other).threads.set i (AbilityLifecycle.entry operation) } := by
    intro i other operation free
    simp only [AbilityLifecycle.step, free]
  cases move with
  | idleAbility idleReason found registered free => exact updated _ _ _ (called .idle free)
  | activeAbility activeReason found registered free => exact updated _ _ _ (called .active free)
  | startTask found free => exact updated _ _ _ (called .start free)
  | getAbility found registered free => exact updated _ _ _ (called _ free)
  | quiet memory samgrProxy found mine next => exact updated _ _ _ next
  | callback memory samgrProxy found mine next => exact updated _ _ _ next
  | publishElsewhere c next => exact updated _ _ _ next
  | getReason found ready =>
    rw [setReasons_lifecycle]
    exact Or.inl rfl
  | _ => exact Or.inl rfl

theorem reachable_lifecycle {E : Env} {n : Nat} {ok : State → Action → Prop} {s : State}
    (reach : (machine E n).Reachable ok s) (object : Object) :
    (AbilityLifecycle.machine n).Reachable Free (s.lifecycle object) := by
  refine reach.simulate (N := AbilityLifecycle.machine n) (fun s => s.lifecycle object) rfl ?_
  intro r a t _ _ _ next
  rcases moves_lifecycle (moves_of_step next) object with same | ⟨b, next'⟩
  · exact Or.inl same
  · exact Or.inr ⟨b, trivial, next'⟩

end AbilityRequests
