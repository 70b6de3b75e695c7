import Safwk.RequestLifecycles

/-!
# Which reason a callback is given

Between a request and the callback it leads to, other requests for the same ability may
store their reasons, and the callback is given whatever was stored last when `Start` or
`Stop` looked. The thread of a request looks after the request has stored its reason. So
a callback is given the reason of the request that its thread serves or of a later one:
never an older one, never one of another ability, and never a stop reason for a start.
-/

namespace RequestReasons

open Transition StartReason AbilityRequests

/-- The value stored last. -/
def latest (stored : List Json) : Json := stored.getLastD .null

/-- The map has for each id what was stored last, or the null value. -/
def Tracks (reasons : Reasons) : Prop :=
  ∀ saId, (reasons.map saId).getD .null = latest (reasons.stored saId)

theorem Tracks.set {reasons : Reasons} (tracks : Tracks reasons) (saId : Int32) (event : Json) :
    Tracks (reasons.set saId event) := by
  intro other
  by_cases same : other = saId
  · subst same
    simp [Reasons.set, latest]
  · simp only [Reasons.set, Function.update_of_ne same]
    exact tracks other

@[simp] theorem get_stored (reasons : Reasons) (saId : Int32) :
    (reasons.get saId).2.stored = reasons.stored := by
  rw [Reasons.get]
  split <;> rfl

theorem Tracks.get {reasons : Reasons} (tracks : Tracks reasons) (saId : Int32) :
    (reasons.get saId).1 = latest (reasons.stored saId) ∧ Tracks (reasons.get saId).2 := by
  have here := tracks saId
  rw [Reasons.get]
  split
  · rename_i event found
    rw [found] at here
    exact ⟨here, tracks⟩
  · rename_i missing
    rw [missing] at here
    refine ⟨here, ?_⟩
    intro other
    by_cases same : other = saId
    · subst same
      simpa using here
    · simp only [Function.update_of_ne same]
      exact tracks other

/-- Everything stored so far. -/
def stored (s : State) (kind : Kind) (saId : Int32) : List Json := (s.reasons kind).stored saId

/-- What a thread that serves request number `request` holds: the last of the first `seen`
values stored, its own among them. -/
structure Held (values : List Json) (request : Option Nat) (seen : Nat) (json : Json) : Prop where
  past : seen ≤ values.length
  last : json = latest (values.take seen)
  own : ∀ k, request = some k → k < seen

theorem Held.grow {values more : List Json} {request : Option Nat} {seen : Nat} {json : Json}
    (held : Held values request seen json) (grown : values <+: more) :
    Held more request seen json := by
  obtain ⟨rest, rfl⟩ := grown
  obtain ⟨past, last, own⟩ := held
  refine ⟨?_, ?_, own⟩
  · rw [List.length_append]
    omega
  · rw [List.take_append_of_le_length past]
    exact last

/-- The value is the one of request number `request` or of a later one. Without a request it
is any value stored, or the null value. -/
def FromRequest (values : List Json) (json : Json) : Option Nat → Prop
  | some k => ∃ j, k ≤ j ∧ values[j]? = some json
  | none => json ∈ values ∨ json = .null

theorem Held.fromRequest {values : List Json} {request : Option Nat} {seen : Nat} {json : Json}
    (held : Held values request seen json) : FromRequest values json request := by
  obtain ⟨past, last, own⟩ := held
  cases seen with
  | zero =>
    cases request with
    | none => exact Or.inr last
    | some k =>
      have impossible := own k rfl
      omega
  | succ seen =>
    have place : values[seen]? = some json := by
      have bound : seen < values.length := by omega
      rw [last, latest, List.take_succ_eq_append_getElem bound, List.getLastD_concat]
      exact List.getElem?_eq_getElem bound
    cases request with
    | none => exact Or.inl (List.mem_of_getElem? place)
    | some k =>
      have mine := own k rfl
      exact ⟨seen, by omega, place⟩

theorem FromRequest.grow {values more : List Json} {json : Json} {request : Option Nat}
    (source : FromRequest values json request) (grown : values <+: more) :
    FromRequest more json request := by
  obtain ⟨rest, rfl⟩ := grown
  cases request with
  | none =>
    rcases source with member | null
    · exact Or.inl (List.mem_append_left rest member)
    · exact Or.inr null
  | some k =>
    obtain ⟨j, later, place⟩ := source
    have bound := (List.getElem?_eq_some_iff.mp place).1
    exact ⟨j, later, by rw [List.getElem?_append_left bound]; exact place⟩

/-! ## Following the requests -/

section Follow

variable (E : Env) (values : Kind → Int32 → List Json)

/-- A number that a thread carries is that of a request. -/
def Pc.Traced : Pc → Prop
  | .outside => True
  | .loading saId request => request < (values .start saId).length
  | .waiting saId request _ => request < (values .start saId).length
  | .looking kind saId request => request < (values kind saId).length
  | .inside object (.called kind request) =>
    ∀ k, request = some k → k < (values kind (E.saIdOf object)).length
  | .inside object (.holding .onStart request seen json) =>
    Held (values .start (E.saIdOf object)) request seen json
  | .inside object (.holding .onStop request seen json) =>
    Held (values .stop (E.saIdOf object)) request seen json
  | .inside _ _ => True

/-- A callback was given a reason made from the value of a request. -/
def Served (kind : Kind) (g : Given) : Prop :=
  ∃ json memory samgrProxy, g.reason = build E memory samgrProxy json ∧
    FromRequest (values kind (E.saIdOf g.object)) json g.request

structure GivenTraced (g : Given) : Prop where
  start : g.callback = .onStart → Served E values .start g
  stop : g.callback = .onStop → Served E values .stop g

end Follow

structure Traced (E : Env) (s : State) : Prop where
  tracks : ∀ kind, Tracks (s.reasons kind)
  threads : ∀ pc ∈ s.threads, Pc.Traced E (stored s) pc
  given : ∀ g ∈ s.given, GivenTraced E (stored s) g

variable {E : Env}

/-- What is stored is never taken back. -/
def Grows (values more : Kind → Int32 → List Json) : Prop :=
  ∀ kind saId, values kind saId <+: more kind saId

theorem Pc.Traced.grow {values more : Kind → Int32 → List Json} (grows : Grows values more)
    {pc : Pc} (traced : Pc.Traced E values pc) : Pc.Traced E more pc := by
  cases pc with
  | outside => trivial
  | loading saId request => exact lt_of_lt_of_le traced (grows .start saId).length_le
  | waiting saId request timeout => exact lt_of_lt_of_le traced (grows .start saId).length_le
  | looking kind saId request => exact lt_of_lt_of_le traced (grows kind saId).length_le
  | inside object job =>
    cases job with
    | called kind request =>
      intro k same
      exact lt_of_lt_of_le (traced k same) (grows kind _).length_le
    | holding callback request seen json =>
      cases callback with
      | onStart => exact Held.grow traced (grows .start _)
      | onStop => exact Held.grow traced (grows .stop _)
      | onIdle | onActive => trivial
    | running => trivial

theorem GivenTraced.grow {values more : Kind → Int32 → List Json} (grows : Grows values more)
    {g : Given} (traced : GivenTraced E values g) : GivenTraced E more g := by
  constructor
  · intro isStart
    obtain ⟨json, memory, samgrProxy, made, source⟩ := traced.start isStart
    exact ⟨json, memory, samgrProxy, made, source.grow (grows .start _)⟩
  · intro isStop
    obtain ⟨json, memory, samgrProxy, made, source⟩ := traced.stop isStop
    exact ⟨json, memory, samgrProxy, made, source.grow (grows .stop _)⟩

/-- Reading and storing a reason. -/
theorem Traced.withReasons {s : State} (traced : Traced E s) (kind : Kind) {reasons : Reasons}
    (tracks : Tracks reasons)
    (grows : ∀ saId, (s.reasons kind).stored saId <+: reasons.stored saId) :
    Traced E (s.setReasons reasons kind) := by
  have all : Grows (stored s) (stored (s.setReasons reasons kind)) := by
    intro other saId
    rw [stored, stored, setReasons_reasons]
    by_cases same : other = kind
    · subst same
      rw [Function.update_self]
      exact grows saId
    · rw [Function.update_of_ne same]
  refine ⟨?_, ?_, ?_⟩
  · intro other
    rw [setReasons_reasons]
    by_cases same : other = kind
    · subst same
      rwa [Function.update_self]
    · rw [Function.update_of_ne same]
      exact traced.tracks other
  · intro pc member
    rw [setReasons_threads] at member
    exact (traced.threads pc member).grow all
  · intro g member
    rw [setReasons_given] at member
    exact (traced.given g member).grow all

theorem set_stored (reasons : Reasons) (saId : Int32) (event : Json) :
    (reasons.set saId event).stored saId = reasons.stored saId ++ [event] :=
  Function.update_self _ _ _

theorem Traced.store {s : State} (traced : Traced E s) (kind : Kind) (saId : Int32) (event : Json) :
    Traced E (s.setReasons ((s.reasons kind).set saId event) kind) := by
  refine traced.withReasons kind ((traced.tracks kind).set saId event) ?_
  intro other
  by_cases same : other = saId
  · subst same
    rw [set_stored]
    exact List.prefix_append _ _
  · simp only [Reasons.set, Function.update_of_ne same]
    exact List.prefix_rfl

/-- A thread gets to another place. -/
theorem Traced.move {s : State} (traced : Traced E s) (i : Nat) {q : Pc}
    (mine : Pc.Traced E (stored s) q) (lifecycle : Object → AbilityLifecycle.State) :
    Traced E { s with lifecycle := lifecycle, threads := s.threads.set i q } := by
  refine ⟨traced.tracks, ?_, traced.given⟩
  intro pc member
  rcases Threads.mem_set_cases member with rfl | old
  · exact mine
  · exact traced.threads pc old

/-- The request that has just been stored has a number. -/
theorem requests_lt {s : State} (kind : Kind) (saId : Int32) (event : Json) :
    s.requests kind saId <
      (stored (s.setReasons ((s.reasons kind).set saId event) kind) kind saId).length := by
  rw [stored, setReasons_reasons, Function.update_self, set_stored, List.length_append,
    State.requests]
  simp

/-- A thread that reads now holds the last value there is. -/
theorem Traced.hold {s : State} (traced : Traced E s) (kind : Kind) (saId : Int32)
    {request : Option Nat} (own : ∀ k, request = some k → k < s.requests kind saId) :
    Held (stored (s.setReasons ((s.reasons kind).get saId).2 kind) kind saId) request
      (s.requests kind saId) ((s.reasons kind).get saId).1 := by
  have values : stored (s.setReasons ((s.reasons kind).get saId).2 kind) kind saId =
      (s.reasons kind).stored saId := by
    rw [stored, setReasons_reasons, Function.update_self, get_stored]
  rw [values]
  refine ⟨Nat.le_refl _, ?_, own⟩
  rw [State.requests, List.take_length]
  exact ((traced.tracks kind).get saId).1

/-- What a thread holds goes into the callback. -/
theorem Traced.give {s : State} (traced : Traced E s) {g : Given}
    (source : GivenTraced E (stored s) g) : Traced E { s with given := g :: s.given } := by
  refine ⟨traced.tracks, traced.threads, ?_⟩
  intro other member
  rcases List.mem_cons.mp member with rfl | old
  · exact source
  · exact traced.given other old

theorem leave_traced {values : Kind → Int32 → List Json} {object : Object} {job : Job}
    (traced : Pc.Traced E values (.inside object job)) (after : AbilityLifecycle.Pc) :
    Pc.Traced E values (leave object job after) := by
  cases after with
  | outside => trivial
  | _ => exact traced

theorem moves_traced {s t : State} {a : Action} (move : Moves E s a t) (coupled : Coupled s)
    (keys : KeysMatch E s) (traced : Traced E s) : Traced E t := by
  have mine : ∀ {i : Nat} {pc : Pc}, s.threads[i]? = some pc → Pc.Traced E (stored s) pc :=
    fun found => traced.threads _ (Threads.mem_of_getElem? found)
  cases move with
  | nothing possible ignored => exact traced
  | setStartReason saId event => exact traced.store .start saId event
  | @startAbility i saId eventStr found =>
    refine (traced.store .start saId _).move i ?_ s.lifecycle
    exact requests_lt .start saId _
  | @stopAbility i saId eventStr found =>
    refine (traced.store .stop saId _).move i ?_ s.lifecycle
    exact requests_lt .stop saId _
  | idleAbility idleReason found registered free =>
    refine traced.move _ ?_ _
    trivial
  | activeAbility activeReason found registered free =>
    refine traced.move _ ?_ _
    trivial
  | deliver message registered => exact ⟨traced.tracks, traced.threads, traced.given⟩
  | startTask found free =>
    refine traced.move _ ?_ _
    intro k impossible
    cases impossible
  | addAbility fresh => exact ⟨traced.tracks, traced.threads, traced.given⟩
  | removeAbility valid => exact ⟨traced.tracks, traced.threads, traced.given⟩
  | loadFails found => exact traced.move _ (q := .outside) trivial s.lifecycle
  | @loads i saId request found =>
    refine traced.move i ?_ s.lifecycle
    have number : request < (stored s .start saId).length := mine found
    exact number
  | timesOut found => exact traced.move _ (q := .outside) trivial s.lifecycle
  | @appears i saId request timeout object found registered =>
    refine traced.move i ?_ s.lifecycle
    have number : request < (stored s .start saId).length := mine found
    exact number
  | @waits i saId request timeout found missing =>
    refine traced.move i ?_ s.lifecycle
    have number : request < (stored s .start saId).length := mine found
    exact number
  | notFound found missing => exact traced.move _ (q := .outside) trivial s.lifecycle
  | @getAbility i kind saId request object found registered free =>
    refine traced.move i ?_ _
    rintro k ⟨rfl⟩
    rw [keys saId object registered]
    exact mine found
  | @getReason i object kind request found ready =>
    have read := traced.withReasons kind ((traced.tracks kind).get (E.saIdOf object)).2
      (fun saId => by rw [get_stored])
    have held := traced.hold kind (E.saIdOf object) (mine found)
    have moved := read.move i (q := .inside object (.holding kind.callback request
      (s.requests kind (E.saIdOf object)) ((s.reasons kind).get (E.saIdOf object)).1))
      (by cases kind <;> exact held) s.lifecycle
    cases kind <;> exact moved
  | @quiet i object job _ _ before after _ _ found =>
    refine traced.move i ?_ _
    exact leave_traced (mine found) after
  | @callback i object held callback request seen json _ lifecycle before after memory samgrProxy
      found _ _ was _ goes starts =>
    obtain ⟨pc, place, fits⟩ := coupled.inside i object _ found
    obtain rfl : pc = before := Option.some.inj (place.symm.trans was)
    obtain ⟨rfl, _⟩ := goes_callback goes fits starts
    have source : GivenTraced E (stored s)
        ⟨object, held, request, build E memory samgrProxy json⟩ := by
      constructor
      · rintro ⟨rfl⟩
        exact ⟨json, memory, samgrProxy, rfl, Held.fromRequest (mine found)⟩
      · rintro ⟨rfl⟩
        exact ⟨json, memory, samgrProxy, rfl, Held.fromRequest (mine found)⟩
    have running : Pc.Traced E (stored s) (.inside object .running) := trivial
    exact (traced.move i (leave_traced running after)
      (Function.update s.lifecycle object lifecycle)).give source
  | publishElsewhere c next => exact ⟨traced.tracks, traced.threads, traced.given⟩

theorem reachable_traced {n : Nat} {ok : State → Action → Prop} {s : State}
    (reach : (machine E n).Reachable ok s) : Traced E s := by
  refine reach.invariant (Traced E) ?_ ?_
  · refine ⟨?_, ?_, by simp [machine, initial]⟩
    · rintro (_ | _) saId <;> rfl
    · intro pc member
      rw [List.eq_of_mem_replicate member]
      trivial
  · intro r a t before keep _ next
    exact moves_traced (moves_of_step next) (reachable_coupled before) (reachable_keysMatch before)
      keep

/-- Any number of threads and requests, any interleaving: the reason given to an `OnStart`
is made from the value that the request of its thread stored for this ability, or a later
request to start it; the same for `OnStop` and the requests to stop. -/
theorem reasons_of_requests (E : Env) (n : Nat) (s : State)
    (reach : (machine E n).Reachable Free s) (g : Given) (member : g ∈ s.given) :
    (g.callback = .onStart → ∃ json memory samgrProxy,
      g.reason = build E memory samgrProxy json ∧
        FromRequest (s.startReasons.stored (E.saIdOf g.object)) json g.request) ∧
    (g.callback = .onStop → ∃ json memory samgrProxy,
      g.reason = build E memory samgrProxy json ∧
        FromRequest (s.stopReasons.stored (E.saIdOf g.object)) json g.request) := by
  obtain ⟨start, stop⟩ := (reachable_traced reach).given g member
  exact ⟨start, stop⟩

/-- Two requests to start the ability; the thread of the first one runs when both reasons
are stored. -/
def overtaken : List Action :=
  [.addAbility 0 true, .startAbility 0 401 [97], .startAbility 1 401 [98],
    .loadSaLib 0 true, .poll 0, .getAbility 0, .inner 0 (.lock 0) 0 none,
    .inner 0 (.advance 0) 0 none, .getReason 0, .inner 0 (.advance 0) 0 none]

def overtakenState : State :=
  ((machine oneAbility 2).run Free (initial 2) overtaken).get (by decide)

theorem reasons_of_requests_overtaken :
    overtakenState.given = [⟨0, .onStart, some 0, build oneAbility 0 none (.string [98])⟩] ∧
    ∃ json memory samgrProxy,
      build oneAbility 0 none (.string [98]) = build oneAbility memory samgrProxy json ∧
        FromRequest (overtakenState.startReasons.stored 401) json (some 0) := by
  have given : overtakenState.given =
      [⟨0, .onStart, some 0, build oneAbility 0 none (.string [98])⟩] := by rfl
  have reach : (machine oneAbility 2).Reachable Free overtakenState :=
    Machine.reachable_get overtaken (by decide)
  refine ⟨given, ?_⟩
  exact (reasons_of_requests oneAbility 2 overtakenState reach _
    (by rw [given]; exact List.mem_singleton_self _)).1 rfl

end RequestReasons
