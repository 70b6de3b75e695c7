import Safwk.Library.Budget
import Safwk.RequestLifecycles

/-!
# Requests come to an end

The thread of a request waits for its ability at most ten times and makes at most one
call on it. So the steps that the threads of a process can take are bounded by the
number of requests, whatever the order and however often a `Start` has to wait for
`onStartLock_`. No thread waits for ever either: the thread that has the lock can
always go on, given that the callbacks of the abilities return.
-/

namespace RequestProgress

open Transition StartReason AbilityRequests

/-- The steps that a thread takes by itself. What a callback does while it runs, its calls of
`Publish`, is not among them; that it returns is. -/
def isWork : Action → Bool
  | .loadSaLib _ _ => true
  | .poll _ => true
  | .getAbility _ => true
  | .getReason _ => true
  | .inner _ (.publish _ _) _ _ => false
  | .inner _ _ _ _ => true
  | _ => false

/-- The steps that give a thread something to do. -/
def isRequest : Action → Bool
  | .startAbility _ _ _ => true
  | .stopAbility _ _ _ => true
  | .idleAbility _ _ _ => true
  | .activeAbility _ _ _ => true
  | .startTask _ _ => true
  | _ => false

/-- The steps left inside an ability. -/
def placeWork : AbilityLifecycle.Pc → Nat
  | .outside => 0
  | .startEnter => 6
  | .startCheck => 5
  | .startReady => 4
  | .onStart _ => 3
  | .startFinal => 2
  | .startExit => 1
  | .idleCheck => 3
  | .onIdle => 2
  | .idleFinal _ => 1
  | .activeCheck => 3
  | .onActive => 2
  | .activeFinal => 1
  | .stopCheck => 4
  | .stopReady => 3
  | .onStop => 2
  | .stopFinal => 1

/-- A thread that has not read its reason yet has one more step to take. -/
def jobWork : Job → Nat
  | .called _ _ => 1
  | _ => 0

def pcWork (place : Option AbilityLifecycle.Pc) : Pc → Nat
  | .outside => 0
  | .loading _ _ => 20
  | .waiting _ _ timeout => 9 + timeout
  | .looking _ _ _ => 8
  | .inside _ job => (place.map placeWork).getD 0 + jobWork job

/-- Where thread `i` is inside the ability that it is in. -/
def place (s : State) (i : Nat) : Pc → Option AbilityLifecycle.Pc
  | .inside object _ => (s.lifecycle object).threads[i]?
  | _ => none

/-- The steps that thread `i` has left. -/
def work (s : State) (i : Nat) : Nat :=
  match s.threads[i]? with
  | none => 0
  | some pc => pcWork (place s i pc) pc

def total (s : State) : Nat := ∑ i ∈ Finset.range s.threads.length, work s i

/-- From `s` to `t` only thread `i` has moved. -/
structure Touches (i : Nat) (s t : State) : Prop where
  inside : i < s.threads.length
  length : t.threads.length = s.threads.length
  threads : ∀ j, j ≠ i → t.threads[j]? = s.threads[j]?
  places : ∀ j, j ≠ i → ∀ object, (t.lifecycle object).threads[j]? = (s.lifecycle object).threads[j]?

/-- What a thread has left depends on where it is. -/
theorem work_congr {s t : State} {i : Nat} (threads : t.threads[i]? = s.threads[i]?)
    (places : ∀ object, (t.lifecycle object).threads[i]? = (s.lifecycle object).threads[i]?) :
    work t i = work s i := by
  rw [work, work, threads]
  cases s.threads[i]? with
  | none => rfl
  | some pc =>
    have same : place t i pc = place s i pc := by
      cases pc with
      | inside object job => exact places object
      | _ => rfl
    change pcWork (place t i pc) pc = pcWork (place s i pc) pc
    rw [same]

theorem Touches.total {i : Nat} {s t : State} (touches : Touches i s t) {out gain : Nat}
    (here : RequestProgress.work t i + out ≤ RequestProgress.work s i + gain) :
    total t + out ≤ total s + gain := by
  rw [RequestProgress.total, RequestProgress.total, touches.length]
  refine sum_range_change touches.inside ?_ here
  intro j other
  exact work_congr (touches.threads j other) (touches.places j other)

/-- Thread `i` moves, and no lifecycle changes. -/
theorem touches_set {s t : State} {i : Nat} {p q : Pc} (found : s.threads[i]? = some p)
    (threads : t.threads = s.threads.set i q) (lifecycle : t.lifecycle = s.lifecycle) :
    Touches i s t := by
  refine ⟨(List.getElem?_eq_some_iff.mp found).1, ?_, ?_, ?_⟩
  · rw [threads, List.length_set]
  · intro j other
    rw [threads, List.getElem?_set_ne (Ne.symm other)]
  · intro j _ object
    rw [lifecycle]

/-- Thread `i` moves, also in the lifecycle of one ability. -/
theorem touches_place {s t : State} {i : Nat} {p q : Pc} {object : Object}
    {l : AbilityLifecycle.State} {after : AbilityLifecycle.Pc}
    (found : s.threads[i]? = some p) (threads : t.threads = s.threads.set i q)
    (moved : l.threads = (s.lifecycle object).threads.set i after)
    (lifecycle : t.lifecycle = Function.update s.lifecycle object l) : Touches i s t := by
  refine ⟨(List.getElem?_eq_some_iff.mp found).1, ?_, ?_, ?_⟩
  · rw [threads, List.length_set]
  · intro j other
    rw [threads, List.getElem?_set_ne (Ne.symm other)]
  · intro j other object'
    rw [lifecycle]
    by_cases same : object' = object
    · subst same
      rw [Function.update_self, moved, List.getElem?_set_ne (Ne.symm other)]
    · rw [Function.update_of_ne same]

/-- What a thread has left where it is now. -/
theorem work_of_found {s : State} {i : Nat} {pc : Pc} (found : s.threads[i]? = some pc) :
    work s i = pcWork (place s i pc) pc := by
  rw [work, found]

theorem work_set {s t : State} {i : Nat} {p : Pc} (q : Pc) (found : s.threads[i]? = some p)
    (threads : t.threads = s.threads.set i q) : work t i = pcWork (place t i q) q := by
  refine work_of_found ?_
  rw [threads, List.getElem?_set_self (List.getElem?_eq_some_iff.mp found).1]

/-- A thread moves and no lifecycle changes. -/
theorem set_budget {s : State} {i : Nat} {p : Pc} (q : Pc) (found : s.threads[i]? = some p)
    {out gain : Nat} (enough : pcWork (place s i q) q + out ≤ pcWork (place s i p) p + gain) :
    total { s with threads := s.threads.set i q } + out ≤ total s + gain := by
  have touches : Touches i s { s with threads := s.threads.set i q } := touches_set found rfl rfl
  refine touches.total ?_
  rw [work_set q found rfl, work_of_found found]
  exact enough

/-- A call gives a thread at most seven steps to take. -/
theorem called_budget {s : State} {i : Nat} {p : Pc} (found : s.threads[i]? = some p)
    (object : Object) (operation : AbilityLifecycle.Operation) {job : Job}
    (few : placeWork (AbilityLifecycle.entry operation) + jobWork job ≤ 7)
    (inList : i < (s.lifecycle object).threads.length) {out gain : Nat}
    (enough : 7 + out ≤ pcWork (place s i p) p + gain) :
    total (s.called i object operation job) + out ≤ total s + gain := by
  refine (touches_place found rfl rfl rfl).total ?_
  have here : place (s.called i object operation job) i (.inside object job) =
      some (AbilityLifecycle.entry operation) := by
    simp [place, State.called, inList]
  rw [work_set (.inside object job) found rfl, here, work_of_found found]
  change placeWork (AbilityLifecycle.entry operation) + jobWork job + out ≤ _
  omega

theorem goes_work {before after : AbilityLifecycle.Pc} (goes : Goes before after) :
    placeWork after + 1 ≤ placeWork before ∨ ∃ b c, before = .onStart b ∧ after = .onStart c := by
  cases goes with
  | publish published published' => exact Or.inr ⟨_, _, rfl, rfl⟩
  | _ => exact Or.inl (by simp [placeWork])

/-- A step inside an ability that is not a call of `Publish` leaves at least one step less. -/
theorem step_work {l l' : AbilityLifecycle.State} {a : AbilityLifecycle.Action} {i : Nat}
    {before after : AbilityLifecycle.Pc} (mine : mover a = some i)
    (next : AbilityLifecycle.step l a = some l') (was : l.threads[i]? = some before)
    (moved : l'.threads = l.threads.set i after) (goes : Goes before after)
    (notPublish : ∀ j c, a ≠ .publish j c) : placeWork after + 1 ≤ placeWork before := by
  rcases goes_work goes with less | ⟨b, c, rfl, rfl⟩
  · exact less
  · exfalso
    have now : l'.threads[i]? = some (.onStart c) := by
      rw [moved, List.getElem?_set_self (List.getElem?_eq_some_iff.mp was).1]
    cases AbilityLifecycle.moves_of_step next with
    | call operation found => cases mine
    | lock found free =>
      cases mine
      cases found.symm.trans was
    | unlock found =>
      cases mine
      cases found.symm.trans was
    | advance found advanced =>
      cases mine
      cases found.symm.trans was
      cases advanced
      rw [List.getElem?_set_self (List.getElem?_eq_some_iff.mp was).1] at now
      cases now
    | onIdleReturns delayTime found =>
      cases mine
      cases found.symm.trans was
    | publish c' found => exact notPublish _ c' rfl
    | publishElsewhere c' => cases mine

/-- A thread moves inside its ability and keeps its job or gets one with as little to do. -/
theorem inner_budget {s t : State} {i : Nat} {object : Object} {job job' : Job}
    {l : AbilityLifecycle.State} {before after : AbilityLifecycle.Pc}
    (found : s.threads[i]? = some (.inside object job))
    (was : (s.lifecycle object).threads[i]? = some before)
    (moved : l.threads = (s.lifecycle object).threads.set i after)
    (threads : t.threads = s.threads.set i (leave object job' after))
    (lifecycle : t.lifecycle = Function.update s.lifecycle object l)
    (jobs : jobWork job' ≤ jobWork job) {out : Nat}
    (less : placeWork after + out ≤ placeWork before) : total t + out ≤ total s := by
  suffices less : total t + out ≤ total s + 0 from less
  refine (touches_place found threads moved lifecycle).total ?_
  have now : (t.lifecycle object).threads[i]? = some after := by
    rw [lifecycle, Function.update_self, moved,
      List.getElem?_set_self (List.getElem?_eq_some_iff.mp was).1]
  have mine : work t i ≤ placeWork after + jobWork job' := by
    rw [work_set _ found threads]
    by_cases out : after = .outside
    · subst out
      exact Nat.zero_le _
    · have stays : leave object job' after = .inside object job' := by
        cases after <;> first | rfl | exact False.elim (out rfl)
      rw [stays, place, now]
      exact Nat.le_refl _
  have before : work s i = placeWork before + jobWork job := by
    rw [work_of_found found, place, was]
    rfl
  omega

/-- Every step that a thread takes by itself is paid for by a request: a request is worth
twenty of them. -/
theorem moves_budget {E : Env} {s t : State} {a : Action} (move : Moves E s a t)
    (coupled : Coupled s) :
    total t + (isWork a).toNat ≤ total s + 20 * (isRequest a).toNat := by
  have listed : ∀ {i : Nat} {p : Pc} (object : Object), s.threads[i]? = some p →
      (∀ job, p ≠ .inside object job) → i < (s.lifecycle object).threads.length := by
    intro i p object found out
    exact (List.getElem?_eq_some_iff.mp (coupled.elsewhere i p object found out)).1
  cases move with
  | nothing possible ignored => cases a <;> first | cases possible; done | simp [isWork]
  | setStartReason saId event => exact Nat.le_refl _
  | startAbility saId eventStr found =>
    exact set_budget (.loading saId _) found (by simp [pcWork, isWork, isRequest])
  | stopAbility saId eventStr found =>
    exact set_budget (.looking .stop saId _) found (by simp [pcWork, isWork, isRequest])
  | @idleAbility i saId object idleReason found registered free =>
    exact called_budget found object .idle (by simp [AbilityLifecycle.entry, placeWork, jobWork])
      (listed object found (by simp)) (by simp [pcWork, isWork, isRequest])
  | @activeAbility i saId object activeReason found registered free =>
    exact called_budget found object .active (by simp [AbilityLifecycle.entry, placeWork, jobWork])
      (listed object found (by simp)) (by simp [pcWork, isWork, isRequest])
  | deliver message registered => exact Nat.le_refl _
  | @startTask i object found free =>
    exact called_budget found object .start (by decide) (listed object found (by simp))
      (by simp [pcWork, isWork, isRequest])
  | addAbility fresh => exact Nat.le_refl _
  | removeAbility valid => exact Nat.le_refl _
  | loadFails found =>
    exact set_budget .outside found (by simp [pcWork, isWork, isRequest])
  | @loads i saId request found =>
    exact set_budget (.waiting saId request _) found
      (by simp [pcWork, isWork, isRequest, TrustedAbilities.retryTimesForOndemand])
  | timesOut found =>
    exact set_budget .outside found (by simp [pcWork, isWork, isRequest])
  | @appears i saId request timeout object found registered =>
    exact set_budget (.looking .start saId request) found
      (by simp [pcWork, isWork, isRequest])
  | @waits i saId request timeout found missing =>
    exact set_budget (.waiting saId request timeout) found
      (Nat.le_refl _)
  | notFound found missing =>
    exact set_budget .outside found (by simp [pcWork, isWork, isRequest])
  | @getAbility i kind saId request object found registered free =>
    refine called_budget found object kind.operation ?_ (listed object found (by simp)) ?_
    · cases kind <;> simp [Kind.operation, AbilityLifecycle.entry, placeWork, jobWork]
    · exact Nat.le_refl _
  | @getReason i object kind request found ready =>
    let held : Pc := .inside object (.holding kind.callback request
      (s.requests kind (E.saIdOf object)) ((s.reasons kind).get (E.saIdOf object)).1)
    have less : total { s with threads := s.threads.set i held } + 1 ≤ total s + 0 :=
      set_budget held found (Nat.le_refl _)
    cases kind <;> exact less
  | @quiet i object job a lifecycle before after _ _ found mine next was moved goes silent =>
    by_cases publishes : ∃ j c, a = .publish j c
    · obtain ⟨j, c, rfl⟩ := publishes
      rcases goes_work goes with less | ⟨b, c', rfl, rfl⟩
      · exact inner_budget found was moved rfl rfl (Nat.le_refl _) (by simp [isWork]; omega)
      · exact inner_budget found was moved rfl rfl (Nat.le_refl _) (by simp [isWork, placeWork])
    · have notPublish : ∀ j c, a ≠ .publish j c := fun j c same => publishes ⟨j, c, same⟩
      have less := step_work mine next was moved goes notPublish
      exact inner_budget found was moved rfl rfl (Nat.le_refl _)
        (Nat.le_trans (Nat.add_le_add_left (Bool.toNat_le _) _) less)
  | @callback i object held callback request seen json a lifecycle before after _ _ found mine
      next was moved goes starts =>
    have less : placeWork after + 1 ≤ placeWork before := by
      rcases goes_work goes with less | ⟨b, c, rfl, rfl⟩
      · exact less
      · cases starts
    have jobs : jobWork .running ≤ jobWork (.holding held request seen json) := Nat.le_refl _
    exact inner_budget found was moved rfl rfl jobs
      (Nat.le_trans (Nat.add_le_add_left (Bool.toNat_le _) _) less)
  | @publishElsewhere object lifecycle c next =>
    have stays : lifecycle.threads = (s.lifecycle object).threads := by
      cases AbilityLifecycle.moves_of_step next
      rfl
    have same : total { s with lifecycle := Function.update s.lifecycle object lifecycle } =
        total s := by
      refine Finset.sum_congr rfl ?_
      intro i _
      refine work_congr rfl ?_
      intro other
      by_cases here : other = object
      · subst here
        simp [stays]
      · simp [Function.update_of_ne here]
    exact Nat.le_of_eq same

/-! ## Nobody waits for ever -/

/-- The lock of an ability belongs to a thread that is inside its `Start`. -/
theorem lock_owner {n : Nat} {ok : AbilityLifecycle.State → AbilityLifecycle.Action → Prop}
    {l : AbilityLifecycle.State} (reach : (AbilityLifecycle.machine n).Reachable ok l) {j : Nat}
    (owner : l.onStartLock = some j) : ∃ pc, l.threads[j]? = some pc ∧ pc.HoldsStart := by
  have listed : ∀ j, l.onStartLock = some j → j < l.threads.length := by
    refine reach.invariant (fun l => ∀ j, l.onStartLock = some j → j < l.threads.length) ?_ ?_
    · intro j impossible
      cases impossible
    · intro r a t _ keep _ next
      cases AbilityLifecycle.moves_of_step next with
      | lock found free =>
        rintro j ⟨rfl⟩
        rw [List.length_set]
        exact (List.getElem?_eq_some_iff.mp found).1
      | unlock found =>
        intro j impossible
        cases impossible
      | publishElsewhere c => exact keep
      | _ =>
        intro j owner
        rw [List.length_set]
        exact keep j owner
  have found := List.getElem?_eq_getElem (listed j owner)
  exact ⟨_, found, (AbilityLifecycle.reachable_startLocked reach j _ found).mpr owner⟩

/-- Inside an ability a thread can go on, unless it waits for the lock. -/
theorem lifecycle_enabled {l : AbilityLifecycle.State} {i : Nat} {pc : AbilityLifecycle.Pc}
    (place : l.threads[i]? = some pc) (inside : pc ≠ .outside) (notWaiting : pc ≠ .startEnter) :
    ∃ a, mover a = some i ∧ (∀ j c, a ≠ .publish j c) ∧
      (AbilityLifecycle.step l a).isSome = true := by
  cases pc with
  | outside => exact False.elim (inside rfl)
  | startEnter => exact False.elim (notWaiting rfl)
  | startExit => exact ⟨.unlock i, rfl, by simp, by simp [AbilityLifecycle.step, place]⟩
  | onIdle => exact ⟨.onIdleReturns i 0, rfl, by simp, by simp [AbilityLifecycle.step, place]⟩
  | startCheck | idleCheck | idleFinal | activeCheck | stopCheck =>
    refine ⟨.advance i, rfl, by simp, ?_⟩
    simp only [AbilityLifecycle.step, place, AbilityLifecycle.advance]
    split
    · rfl
    · rename_i none
      split at none <;> cases none
  | startReady | onStart | startFinal | onActive | activeFinal | stopReady | onStop | stopFinal =>
    exact ⟨.advance i, rfl, by simp, by simp [AbilityLifecycle.step, place, AbilityLifecycle.advance]⟩

/-- A callback begins only where its call has passed the check. -/
theorem begins_place {before after : AbilityLifecycle.Pc} {callback : Callback}
    (starts : begins before after = some callback) :
    before = .startReady ∨ before = .stopReady ∨ before = .idleCheck ∨ before = .activeCheck := by
  unfold begins at starts
  split at starts
  · exact Or.inl rfl
  · exact Or.inr (Or.inl rfl)
  · exact Or.inr (Or.inr (Or.inl rfl))
  · exact Or.inr (Or.inr (Or.inr rfl))
  · cases starts

/-- A thread is inside an ability and does not wait for its lock. -/
theorem inside_enabled (E : Env) {s : State} {i : Nat} {object : Object} {job : Job}
    {pc : AbilityLifecycle.Pc} (found : s.threads[i]? = some (.inside object job))
    (here : (s.lifecycle object).threads[i]? = some pc) (fits : Fits job pc)
    (notWaiting : pc ≠ .startEnter) : ∃ a, isWork a = true ∧ (step E s a).isSome = true := by
  have inside : pc ≠ .outside := by
    rintro rfl
    cases job with
    | called kind request => cases kind <;> cases fits
    | holding callback request seen json => cases callback <;> cases fits
    | running => cases fits
  by_cases reads : ∃ kind request, job = .called kind request ∧ pc = kind.ready
  · obtain ⟨kind, request, rfl, rfl⟩ := reads
    exact ⟨.getReason i, rfl, by simp only [step, found, here, if_true, Option.isSome_some]⟩
  · obtain ⟨a, mine, notPublish, enabled⟩ := lifecycle_enabled here inside notWaiting
    obtain ⟨l, next⟩ := Option.isSome_iff_exists.mp enabled
    obtain ⟨before, after, was, moved, goes⟩ := goes_of_step mine next
    obtain rfl : pc = before := Option.some.inj (here.symm.trans was)
    have now : l.threads[i]? = some after := by
      rw [moved, List.getElem?_set_self (List.getElem?_eq_some_iff.mp was).1]
    have work : isWork (.inner i a 0 none) = true := by
      cases a <;> first | rfl | exact False.elim (notPublish _ _ rfl)
    refine ⟨.inner i a 0 none, work, ?_⟩
    cases starts : begins pc after with
    | none => simp only [step, mine, if_true, advanceInside, found, here, next, now, starts, Option.isSome_some]
    | some callback =>
      cases job with
      | holding callback' request seen json =>
        simp only [step, mine, if_true, advanceInside, found, here, next, now, starts, Option.isSome_some]
      | running =>
        exfalso
        rcases begins_place starts with rfl | rfl | rfl | rfl <;> cases fits
      | called kind request =>
        exfalso
        refine reads ⟨kind, request, rfl, ?_⟩
        cases kind <;> rcases begins_place starts with rfl | rfl | rfl | rfl <;>
          first | rfl | cases fits

/-- A thread that has something to do is not in the way of itself: it can go on, or waits
for the lock of an ability that another thread has. -/
theorem thread_enabled (E : Env) {s : State} (coupled : Coupled s) {i : Nat} {pc : Pc}
    (found : s.threads[i]? = some pc) (busy : pc ≠ .outside) :
    (∃ a, isWork a = true ∧ (step E s a).isSome = true) ∨
      ∃ object, (s.lifecycle object).threads[i]? = some .startEnter ∧
        ∃ job, pc = .inside object job := by
  cases pc with
  | outside => exact False.elim (busy rfl)
  | loading saId request =>
    exact Or.inl ⟨.loadSaLib i true, rfl, by simp [step, found]⟩
  | waiting saId request timeout =>
    refine Or.inl ⟨.poll i, rfl, ?_⟩
    cases timeout with
    | zero => simp [step, found]
    | succ timeout =>
      simp only [step, found]
      split <;> rfl
  | looking kind saId request =>
    refine Or.inl ⟨.getAbility i, rfl, ?_⟩
    simp only [step, found]
    split
    · rfl
    · rename_i object registered
      have free := coupled.elsewhere i _ object found (by simp)
      rw [call_of_outside free]
      rfl
  | inside object job =>
    obtain ⟨place, here, fits⟩ := coupled.inside i object job found
    by_cases waits : place = .startEnter
    · subst waits
      exact Or.inr ⟨object, here, job, rfl⟩
    · exact Or.inl (inside_enabled E found here fits waits)

/-- The thread that has the lock of an ability can go on. -/
theorem owner_enabled (E : Env) {s : State} (coupled : Coupled s) {object : Object} {j : Nat}
    {place : AbilityLifecycle.Pc} (here : (s.lifecycle object).threads[j]? = some place)
    (holds : place.HoldsStart) (listed : j < s.threads.length) :
    ∃ a, isWork a = true ∧ (step E s a).isSome = true := by
  have found := List.getElem?_eq_getElem listed
  by_cases isIn : ∃ job, s.threads[j] = .inside object job
  · obtain ⟨job, same⟩ := isIn
    rw [same] at found
    obtain ⟨place', here', fits⟩ := coupled.inside j object job found
    obtain rfl : place = place' := Option.some.inj (here.symm.trans here')
    refine inside_enabled E found here fits ?_
    rintro rfl
    exact holds
  · have out := coupled.elsewhere j _ object found (fun job same => isIn ⟨job, same⟩)
    rw [here] at out
    cases out
    exact False.elim holds

theorem moves_length {E : Env} {s t : State} {a : Action} (move : Moves E s a t) :
    t.threads.length = s.threads.length := by
  cases move with
  | nothing possible ignored => rfl
  | setStartReason saId event => rfl
  | deliver message registered => rfl
  | addAbility fresh => rfl
  | removeAbility valid => rfl
  | publishElsewhere c next => rfl
  | _ => exact List.length_set

theorem lifecycle_length {n : Nat} {ok : AbilityLifecycle.State → AbilityLifecycle.Action → Prop}
    {l : AbilityLifecycle.State} (reach : (AbilityLifecycle.machine n).Reachable ok l) :
    l.threads.length = n := by
  refine reach.invariant (fun l => l.threads.length = n) List.length_replicate ?_
  intro r a t _ keep _ next
  cases AbilityLifecycle.moves_of_step next with
  | publishElsewhere c => exact keep
  | _ => exact List.length_set.trans keep

theorem reachable_length {E : Env} {n : Nat} {ok : State → Action → Prop} {s : State}
    (reach : (machine E n).Reachable ok s) : s.threads.length = n := by
  refine reach.invariant (fun s => s.threads.length = n) List.length_replicate ?_
  intro r a t _ keep _ next
  exact (moves_length (moves_of_step next)).trans keep

/-- As long as a thread has something to do, a thread can take a step. -/
theorem reachable_enabled {E : Env} {n : Nat} {ok : State → Action → Prop} {s : State}
    (reach : (machine E n).Reachable ok s) (busy : ∃ pc ∈ s.threads, pc ≠ .outside) :
    ∃ a, isWork a = true ∧ (step E s a).isSome = true := by
  have coupled := reachable_coupled reach
  obtain ⟨pc, member, notOut⟩ := busy
  obtain ⟨i, found⟩ := List.mem_iff_getElem?.mp member
  rcases thread_enabled E coupled found notOut with enabled | ⟨object, waits, job, rfl⟩
  · exact enabled
  · have inLifecycle := reachable_lifecycle reach object
    cases lock : (s.lifecycle object).onStartLock with
    | none =>
      have now : ((s.lifecycle object).threads.set i .startCheck)[i]? = some .startCheck :=
        List.getElem?_set_self (List.getElem?_eq_some_iff.mp waits).1
      refine ⟨.inner i (.lock i) 0 none, rfl, ?_⟩
      simp only [step, mover, if_true, advanceInside, found, waits, AbilityLifecycle.step, lock, now, begins,
        Option.isSome_some]
    | some j =>
      obtain ⟨place, here, holds⟩ := lock_owner inLifecycle lock
      refine owner_enabled E coupled here holds ?_
      have listed := (List.getElem?_eq_some_iff.mp here).1
      rw [lifecycle_length inLifecycle] at listed
      rw [reachable_length reach]
      exact listed

/-- Any number of threads and requests, any interleaving: the steps that threads take by
themselves, and those that are left to take, are at most twenty for each request; and as
long as a thread has something to do, one of them can take a step. -/
theorem requests_finish (E : Env) (n : Nat) (schedule : List Action) (s : State)
    (result : (machine E n).run Free (initial n) schedule = some s) :
    total s + schedule.countP isWork ≤ 20 * schedule.countP isRequest ∧
    ((∃ pc ∈ s.threads, pc ≠ .outside) →
      ∃ a t, isWork a = true ∧ step E s a = some t ∧ total t < total s) := by
  have reach : (machine E n).Reachable Free s := Machine.reachable_of_run schedule result
  constructor
  · have budget := Machine.run_budget (M := machine E n) total (fun a => 1 * (isWork a).toNat)
      (fun a => 20 * (isRequest a).toNat) (fun r a t before _ next => by
        rw [Nat.one_mul]
        exact moves_budget (moves_of_step next) (reachable_coupled before)) result
    have nothing : total (machine E n).init = 0 := by
      refine Finset.sum_eq_zero ?_
      intro i inside
      have listed : i < n := by simpa [machine, initial] using inside
      simp [work, machine, initial, listed, pcWork]
    rw [sum_map_toNat, sum_map_toNat, nothing] at budget
    omega
  · intro busy
    obtain ⟨a, isOwn, enabled⟩ := reachable_enabled reach busy
    obtain ⟨t, next⟩ := Option.isSome_iff_exists.mp enabled
    refine ⟨a, t, isOwn, next, ?_⟩
    have budget := moves_budget (moves_of_step next) (reachable_coupled reach)
    have notRequest : isRequest a = false := by
      cases a <;> first | rfl | cases isOwn
    simp only [isOwn, notRequest, Bool.toNat_true, Bool.toNat_false] at budget
    omega

/-- Two requests to start the ability: thread 0 runs `OnStart`, thread 1 waits for the lock. -/
def waiting : List Action :=
  [.addAbility 0 true, .startAbility 0 401 [97], .startAbility 1 401 [98],
    .loadSaLib 0 true, .poll 0, .getAbility 0, .inner 0 (.lock 0) 0 none,
    .inner 0 (.advance 0) 0 none, .getReason 0, .inner 0 (.advance 0) 0 none,
    .loadSaLib 1 true, .poll 1, .getAbility 1]

def waitingState : State :=
  ((machine oneAbility 2).run Free (initial 2) waiting).get (by decide)

theorem requests_finish_waiting :
    waiting.countP isWork = 10 ∧ waiting.countP isRequest = 2 ∧ total waitingState = 10 ∧
    total waitingState + 10 ≤ 20 * 2 ∧
    ∃ a t, isWork a = true ∧ step oneAbility waitingState a = some t ∧
      total t < total waitingState := by
  have result : (machine oneAbility 2).run Free (initial 2) waiting = some waitingState :=
    (Option.some_get (by decide)).symm
  obtain ⟨bounded, goesOn⟩ := requests_finish oneAbility 2 waiting waitingState result
  refine ⟨by decide, by decide, by decide, bounded, goesOn ?_⟩
  have inside : ∃ job, waitingState.threads[0]? = some (.inside 0 job) := ⟨_, rfl⟩
  obtain ⟨job, found⟩ := inside
  exact ⟨_, Threads.mem_of_getElem? found, by simp⟩

end RequestProgress
