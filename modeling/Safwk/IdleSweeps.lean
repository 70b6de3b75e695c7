import Safwk.IdleTimer

/-!
# What the timer unloads

However requests and registrations fall between the steps of a sweep: an ability is
unloaded only if its profile says so, for an object that the sweep found in it and that
had no request for at least a minute, and only in a process that had no ability to run all
the time when `StartTimedQuery` looked. And a sweep unloads every ability that was overdue
when it began and that nobody touched before it ended.
-/

namespace IdleSweeps

open Transition Grounds UnusedAbilities IdleTimer

variable {E : Env} {s t : State}

/-! ## The configuration -/

/-- The limited timeout of a profile, as the code computes it. -/
def timeoutOf (E : Env) (timeout : Int32) : Int := limited (millisecTimeout E.overflow timeout)

/-- The entry comes from a profile. -/
def FromProfile (E : Env) (it : Int × Int32) : Prop :=
  ∃ saProfile ∈ E.saProfileList, Configured saProfile ∧ saProfile.saId = it.1 ∧
    it.2 = Int32.ofInt (timeoutOf E saProfile.unusedTimeout)

/-- Since the sweep read the clock, the ability was found under the id. -/
def FoundAbility (history : List Event) (currTime : UInt64) (saId : Int) (ability : Nat) : Prop :=
  ∃ looked begun, looked <:+ history ∧ .sweepBegins currTime :: begun <:+ looked ∧
    getAbility looked saId = some ability

/-- After that, the object was found in the ability. -/
def FoundObject (history : List Event) (currTime : UInt64) (saId : Int) (saStub : Nat) : Prop :=
  ∃ looked ability, looked <:+ history ∧ FoundAbility looked currTime saId ability ∧
    publishObj looked ability = some saStub

/-- After that, the time of its last request was found to be exceeded. -/
def FoundLate (E : Env) (history : List Event) (currTime : UInt64) (it : Int × Int32) : Prop :=
  ∃ looked saStub, looked <:+ history ∧ FoundObject looked currTime it.1 saStub ∧
    IdleTimer.exceeds currTime (lastRequestTime E looked saStub) it.2 = true

/-- What the step that the timer's thread is at rests on. -/
def Found (E : Env) (history : List Event) : Timer → Prop
  | .starting => .notResident ∈ history
  | .hasAbility currTime it ability _ => FoundAbility history currTime it.1 ability
  | .hasObject currTime it saStub _ => FoundObject history currTime it.1 saStub
  | .exceeded currTime it _ => FoundLate E history currTime it
  | _ => True

theorem Found.cons {history : List Event} {timer : Timer} (found : Found E history timer)
    (e : Event) : Found E (e :: history) timer := by
  have more : history <:+ e :: history := List.suffix_cons e history
  cases timer with
  | starting => exact List.mem_cons_of_mem e found
  | hasAbility currTime it ability left =>
    obtain ⟨looked, begun, inside, rest⟩ := found
    exact ⟨looked, begun, inside.trans more, rest⟩
  | hasObject currTime it saStub left =>
    obtain ⟨looked, ability, inside, rest⟩ := found
    exact ⟨looked, ability, inside.trans more, rest⟩
  | exceeded currTime it left =>
    obtain ⟨looked, saStub, inside, rest⟩ := found
    exact ⟨looked, saStub, inside.trans more, rest⟩
  | none => trivial
  | queried => trivial
  | waiting => trivial
  | identifying currTime left => trivial

/-- The reading of the clock and the entries that a sweep has still to go through. -/
def sweepOf : Timer → Option (UInt64 × List (Int × Int32))
  | .identifying currTime left => some (currTime, left)
  | .hasAbility currTime it _ left => some (currTime, it :: left)
  | .hasObject currTime it _ left => some (currTime, it :: left)
  | .exceeded currTime it left => some (currTime, it :: left)
  | _ => none

structure Sweeping (E : Env) (history : List Event) (currTime : UInt64)
    (left : List (Int × Int32)) : Prop where
  started : .timerStarted ∈ history
  begun : ∃ begun, .sweepBegins currTime :: begun <:+ history
  entries : ∀ it ∈ left, FromProfile E it

theorem Sweeping.cons {history : List Event} {currTime : UInt64} {left : List (Int × Int32)}
    (sweeping : Sweeping E history currTime left) (e : Event) :
    Sweeping E (e :: history) currTime left := by
  obtain ⟨started, ⟨begun, inside⟩, entries⟩ := sweeping
  exact ⟨List.mem_cons_of_mem e started,
    ⟨begun, inside.trans (List.suffix_cons e history)⟩, entries⟩

theorem Sweeping.tail {history : List Event} {currTime : UInt64} {it : Int × Int32}
    {left : List (Int × Int32)} (sweeping : Sweeping E history currTime (it :: left)) :
    Sweeping E history currTime left :=
  ⟨sweeping.started, sweeping.begun,
    fun other member => sweeping.entries other (List.mem_cons_of_mem it member)⟩

/-- What an event rests on. -/
def Justified (E : Env) : Event → List Event → Prop
  | .unloaded saId currTime, older =>
    (∃ it, it.1 = saId ∧ FromProfile E it ∧ FoundLate E older currTime it) ∧ .timerStarted ∈ older
  | .timerStarted, older => .notResident ∈ older
  | .notResident, older => isResident older = false
  | .requested _ time, older => ∀ saStub earlier, .requested saStub earlier ∈ older → earlier ≤ time
  | _, _ => True

structure Safe (E : Env) (s : State) : Prop where
  config : ∀ it ∈ s.unusedCfgMap.entries, FromProfile E it
  waiting : s.idleTimer = .waiting → .timerStarted ∈ s.history
  sweeping : ∀ currTime left, sweepOf s.idleTimer = some (currTime, left) →
    Sweeping E s.history currTime left
  found : Found E s.history s.idleTimer
  past : ∀ saStub time, .requested saStub time ∈ s.history → time ≤ s.now
  each : Each (Justified E) s.history

theorem Safe.foreign (safe : Safe E s) {e : Event} (other : Foreign e)
    (time : ∀ saStub time, e = .requested saStub time → time = s.now) :
    Safe E { s with history := e :: s.history } := by
  have justified : Justified E e s.history := by
    cases e with
    | requested saStub at_ =>
      intro earlier before member
      rw [time saStub at_ rfl]
      exact safe.past earlier before member
    | timerStarted => exact other.elim
    | notResident => exact other.elim
    | unloaded id currTime => exact other.elim
    | _ => trivial
  refine ⟨safe.config, fun here => List.mem_cons_of_mem e (safe.waiting here), ?_,
    safe.found.cons e, ?_, justified, safe.each⟩
  · exact fun currTime left here => (safe.sweeping currTime left here).cons e
  · intro saStub at_ member
    rcases List.mem_cons.mp member with same | old
    · rw [time saStub at_ same.symm]
      exact UInt64.le_refl _
    · exact safe.past saStub at_ old

/-- The sweep goes on to the next entry. -/
theorem Safe.next {currTime : UInt64} {it : Int × Int32} {left : List (Int × Int32)}
    (safe : Safe E s) (here : sweepOf s.idleTimer = some (currTime, it :: left)) :
    Safe E { s with idleTimer := .identifying currTime left } := by
  refine ⟨safe.config, nofun, ?_, trivial, safe.past, safe.each⟩
  rintro _ _ ⟨⟩
  exact (safe.sweeping currTime (it :: left) here).tail

/-- The event is about the registration of the id, or about the ability that was registered
or the object that it had. -/
def Touches (older : List Event) (saId : Int) : Event → Prop
  | .added id _ _ => id = saId
  | .removed id => id = saId
  | .published ability _ => getAbility older saId = some ability
  | .requested saStub _ =>
    ∃ ability, getAbility older saId = some ability ∧ publishObj older ability = some saStub
  | _ => False

section Untouched

variable {during older : List Event} {saId : Int} {ability saStub : Nat}
  (untouched : ∀ e ∈ during, ¬Touches older saId e)
include untouched

end Untouched

/-- The ability was registered, had an object, and the time was exceeded. -/
def LateAt (E : Env) (older : List Event) (currTime : UInt64) (it : Int × Int32) : Prop :=
  ∃ ability saStub, getAbility older it.1 = some ability ∧
    publishObj older ability = some saStub ∧
    IdleTimer.exceeds currTime (lastRequestTime E older saStub) it.2 = true

/-- The sweep that began with this reading of the clock has gone through `done`. -/
structure Swept (E : Env) (currTime : UInt64) (done : List (Int × Int32))
    (during older : List Event) : Prop where
  one : ∀ time, .sweepBegins time ∉ during
  all : ∀ it ∈ done, LateAt E older currTime it → (∀ e ∈ during, ¬Touches older it.1 e) →
    .unloaded it.1 currTime ∈ during

section Swept

variable {currTime : UInt64} {done : List (Int × Int32)} {during older : List Event}

theorem Swept.log (swept : Swept E currTime done during older) {e : Event}
    (other : ∀ time, e ≠ .sweepBegins time) : Swept E currTime done (e :: during) older := by
  refine ⟨?_, ?_⟩
  · intro time member
    rcases List.mem_cons.mp member with same | old
    · exact other time same.symm
    · exact swept.one time old
  · intro it member late untouched
    exact List.mem_cons_of_mem e
      (swept.all it member late fun d inside => untouched d (List.mem_cons_of_mem e inside))

/-- The next entry, if the ability was in time or was touched meanwhile. -/
theorem Swept.keep (swept : Swept E currTime done during older) {it : Int × Int32}
    (fine : (∀ e ∈ during, ¬Touches older it.1 e) → ¬LateAt E older currTime it) :
    Swept E currTime (done ++ [it]) during older := by
  refine ⟨swept.one, ?_⟩
  intro other member late untouched
  rcases List.mem_append.mp member with earlier | last
  · exact swept.all other earlier late untouched
  · obtain rfl := List.mem_singleton.mp last
    exact absurd late (fine untouched)

end Swept

/-- What the sweep has found out about the next ability is still true if nobody touched it. -/
def Known (during older : List Event) : Timer → Prop
  | .hasAbility _ it ability _ =>
    (∀ e ∈ during, ¬Touches older it.1 e) → getAbility older it.1 = some ability
  | .hasObject _ it saStub _ => (∀ e ∈ during, ¬Touches older it.1 e) →
    ∃ ability, getAbility older it.1 = some ability ∧ publishObj older ability = some saStub
  | _ => True

theorem Known.log {during older : List Event} {timer : Timer} (known : Known during older timer)
    (e : Event) : Known (e :: during) older timer := by
  cases timer with
  | hasAbility currTime it ability left =>
    intro untouched
    exact known fun d member => untouched d (List.mem_cons_of_mem e member)
  | hasObject currTime it saStub left =>
    intro untouched
    exact known fun d member => untouched d (List.mem_cons_of_mem e member)
  | _ => trivial

/-- A sweep that has ended went through the whole configuration. -/
def Complete (E : Env) (e : Event) (before : List Event) : Prop :=
  ∀ currTime, e = .sweepEnds currTime → ∃ base during older,
    before = during ++ .sweepBegins currTime :: older ∧
    Swept E currTime (initUnusedCfg E.overflow E.saProfileList base).entries during older

/-- The configuration was read before the timer was started. -/
def Configures (E : Env) (s : State) : Prop :=
  ∃ base, s.unusedCfgMap = initUnusedCfg E.overflow E.saProfileList base

structure Thorough (E : Env) (s : State) : Prop where
  waiting : s.idleTimer = .waiting → Configures E s
  sweep : ∀ currTime left, sweepOf s.idleTimer = some (currTime, left) →
    Configures E s ∧ ∃ done during older, s.unusedCfgMap.entries = done ++ left ∧
      s.history = during ++ .sweepBegins currTime :: older ∧
      Swept E currTime done during older ∧ Known during older s.idleTimer
  each : Each (Complete E) s.history

/-- The sweep goes on to the next entry. -/
theorem Thorough.next {currTime : UInt64} {it : Int × Int32} {left : List (Int × Int32)}
    (thorough : Thorough E s) (here : sweepOf s.idleTimer = some (currTime, it :: left))
    (fine : ∀ during older, s.history = during ++ .sweepBegins currTime :: older →
      Known during older s.idleTimer → (∀ e ∈ during, ¬Touches older it.1 e) →
      ¬LateAt E older currTime it) :
    Thorough E { s with idleTimer := .identifying currTime left } := by
  obtain ⟨configures, done, during, older, whole, history, swept, known⟩ :=
    thorough.sweep _ _ here
  refine ⟨nofun, ?_, thorough.each⟩
  rintro _ _ ⟨⟩
  refine ⟨configures, done ++ [it], during, older, ?_, history,
    swept.keep (fine during older history known), trivial⟩
  rw [whole, List.append_assoc, List.singleton_append]

end IdleSweeps
