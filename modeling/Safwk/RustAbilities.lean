import Safwk.Library.Ownership
import Safwk.Library.Transition

/-!
# Who owns what between Rust and C++

An ability that is written in Rust lives in two worlds. `build_system_ability` puts it in
a box and hands the box to a C++ `SystemAbilityWrapper`, which keeps the raw pointer and
takes the box back in its destructor; Rust holds the wrapper in a `UniquePtr` until it is
dropped or registered. `register` gives the pointer up to the manager, which never deletes
it, also when `AddAbility` refuses it. Handlers have the same pointer. `publish` puts the
stub in a second box, which a reference-counted `RemoteServiceStub` owns in the same way;
the wrapper keeps a reference to the last one published, and so do the calls that run and
the IPC framework for other processes.

What Rust's move rules exclude is excluded here: a `UniquePtr` can be dropped or registered
once. The references of one call count as one. No lock guards `publishObj_`: `Publish`
assigns it in three steps (take the new reference, give up the old one, store the pointer),
and `AddSystemAbility` and `GetAbilityRemoteObject` read the pointer in one step and take
their reference in another. The manager may use a pointer long after `RemoveAbility`, so
`registered` only grows.
-/

namespace RustAbilities

open Transition Ownership

structure State where
  /-- `Box<AbilityWrapper>` -/
  abilityWrappers : Blocks
  systemAbilities : Blocks
  /-- `ability_` and `publishObj_` of each `SystemAbilityWrapper`. -/
  ability : List Nat
  publishObj : List (Option Nat)
  /-- `Box<AbilityStub>` -/
  abilityStubs : Blocks
  remoteStubs : Shared
  /-- `inner_` of each `RemoteServiceStub`. -/
  inner : List Nat
  /-- The `UniquePtr`s of Rust values `SystemAbility`. -/
  unique : List Nat
  /-- The pointers from `into_raw`. -/
  raw : List Nat
  registered : List Nat
  handlers : List Nat
  /-- Calls of `PublishWrapper`, each with its stub. -/
  publishing : List (Nat × Nat)
  /-- Assignments to `publishObj_` that have the reference to the new stub. -/
  assigning : List (Nat × Nat)
  /-- Assignments that gave up the old reference and have not stored the pointer. -/
  storing : List (Nat × Nat)
  /-- Reads of `publishObj_` for `AddSystemAbility` that have the pointer only. -/
  adding : List (Nat × Nat)
  /-- The same for `GetAbilityRemoteObject`. -/
  copying : List (Nat × Nat)
  /-- References of other calls that run. -/
  serving : List Nat
  /-- References for other processes. -/
  remotes : List Nat
  /-- Boxes that no stub was made for. -/
  lost : List Nat

inductive Action where
  | build
  | drop (w : Nat)
  /-- `accepted` is the result of `AddAbility`. -/
  | register (w : Nat) (accepted : Bool)
  | onStart (w : Nat)
  /-- The other callbacks. -/
  | callback (w : Nat)
  /-- `cancel_idle` and the listener functions of a handler. -/
  | handle (w : Nat)
  /-- `PublishWrapper` up to `MakeSptr`, which may return null. -/
  | publish (w : Nat) (made : Bool)
  /-- `publishObj_ = systemAbility`: the reference that the assignment takes. -/
  | assign (w k : Nat)
  /-- The reference to the old stub goes. -/
  | giveUp (w k : Nat)
  /-- The pointer is stored. -/
  | store (w k : Nat)
  /-- `AddSystemAbility` is handed `publishObj_`, whatever is in it by now. -/
  | readPublished (w k : Nat)
  /-- The other process gets its reference, which it forgets at once if the call fails. -/
  | addSystemAbility (w k : Nat)
  | publishReturns (w k : Nat)
  | onRemoteRequest (k : Nat)
  /-- `GetAbilityRemoteObject` reads the pointer. -/
  | readObject (w : Nat)
  /-- The copy that it returns takes its reference. -/
  | copyObject (w k : Nat)
  | served (k : Nat)
  | forget (k : Nat)

section Step

/-- A reference goes; with the last one `~RemoteServiceStub` takes its box back. -/
def dropRef (s : State) (k : Nat) : State :=
  { s with
    remoteStubs := s.remoteStubs.release k
    abilityStubs :=
      if s.remoteStubs.isLast k then
        match s.inner[k]? with
        | some p => s.abilityStubs.free p
        | none => s.abilityStubs
      else s.abilityStubs }

/-- A callback goes through the wrapper to the box. -/
def callAbility (s : State) (w : Nat) : State :=
  { s with
    systemAbilities := s.systemAbilities.use w
    abilityWrappers :=
      match s.ability[w]? with
      | some p => s.abilityWrappers.use p
      | none => s.abilityWrappers }

/-- The memory of a wrapper goes, and its box with it. -/
def freeWrapper (s : State) (w : Nat) : State :=
  { s with
    systemAbilities := s.systemAbilities.free w
    publishObj := s.publishObj.set w none
    abilityWrappers :=
      match s.ability[w]? with
      | some p => s.abilityWrappers.free p
      | none => s.abilityWrappers }

/-- `~SystemAbilityWrapper` takes the box back, then the members go. -/
def deleteWrapper (s : State) (w : Nat) : State :=
  match s.publishObj[w]? with
  | some (some old) => dropRef (freeWrapper s w) old
  | _ => freeWrapper s w

/-- An assignment comes to its last step. -/
def toStoring (s : State) (w k : Nat) : State :=
  { s with
    systemAbilities := s.systemAbilities.use w
    assigning := s.assigning.erase (w, k)
    storing := (w, k) :: s.storing }

def step (s : State) : Action → Option State
  | .build =>
    some { s with
      abilityWrappers := s.abilityWrappers.alloc
      systemAbilities := s.systemAbilities.alloc
      ability := s.ability ++ [s.abilityWrappers.next]
      publishObj := s.publishObj ++ [none]
      unique := s.systemAbilities.next :: s.unique }
  | .drop w =>
    if w ∈ s.unique then some (deleteWrapper { s with unique := s.unique.erase w } w) else none
  | .register w accepted =>
    if w ∈ s.unique then
      some { s with
        systemAbilities := s.systemAbilities.use w
        unique := s.unique.erase w
        raw := w :: s.raw
        registered := if accepted then w :: s.registered else s.registered }
    else none
  | .onStart w =>
    if w ∈ s.registered then some { callAbility s w with handlers := w :: s.handlers } else none
  | .callback w => if w ∈ s.registered then some (callAbility s w) else none
  | .handle w =>
    if w ∈ s.handlers then some { s with systemAbilities := s.systemAbilities.use w } else none
  | .publish w made =>
    if w ∈ s.handlers then
      let boxed := { s with
        systemAbilities := s.systemAbilities.use w
        abilityStubs := s.abilityStubs.alloc }
      if made then
        some { boxed with
          remoteStubs := s.remoteStubs.create
          inner := s.inner ++ [s.abilityStubs.next]
          publishing := (w, s.remoteStubs.blocks.next) :: s.publishing }
      else some { boxed with lost := s.abilityStubs.next :: s.lost }
    else none
  | .assign w k =>
    if (w, k) ∈ s.publishing then
      some { s with
        systemAbilities := s.systemAbilities.use w
        remoteStubs := s.remoteStubs.acquire k
        assigning := (w, k) :: s.assigning }
    else none
  | .giveUp w k =>
    if (w, k) ∈ s.assigning then
      match s.publishObj[w]? with
      | some (some old) => some (dropRef (toStoring s w k) old)
      | _ => some (toStoring s w k)
    else none
  | .store w k =>
    if (w, k) ∈ s.storing then
      some { s with
        systemAbilities := s.systemAbilities.use w
        publishObj := s.publishObj.set w (some k)
        storing := s.storing.erase (w, k) }
    else none
  | .readPublished w k =>
    if (w, k) ∈ s.publishing then
      let used := { s with systemAbilities := s.systemAbilities.use w }
      match s.publishObj[w]? with
      | some (some object) => some { used with adding := (w, object) :: s.adding }
      | _ => some used
    else none
  | .addSystemAbility w k =>
    if (w, k) ∈ s.adding then
      some { s with
        remoteStubs := s.remoteStubs.acquire k
        adding := s.adding.erase (w, k)
        remotes := k :: s.remotes }
    else none
  | .publishReturns w k =>
    if (w, k) ∈ s.publishing then
      some (dropRef { s with publishing := s.publishing.erase (w, k) } k)
    else none
  | .onRemoteRequest k =>
    if k ∈ s.remotes then
      some { s with
        remoteStubs := s.remoteStubs.acquire k
        serving := k :: s.serving
        abilityStubs :=
          match s.inner[k]? with
          | some p => s.abilityStubs.use p
          | none => s.abilityStubs }
    else none
  | .readObject w =>
    if w ∈ s.registered then
      let used := { s with systemAbilities := s.systemAbilities.use w }
      match s.publishObj[w]? with
      | some (some k) => some { used with copying := (w, k) :: s.copying }
      | _ => some used
    else none
  | .copyObject w k =>
    if (w, k) ∈ s.copying then
      some { s with
        remoteStubs := s.remoteStubs.acquire k
        copying := s.copying.erase (w, k)
        serving := k :: s.serving }
    else none
  | .served k =>
    if k ∈ s.serving then some (dropRef { s with serving := s.serving.erase k } k) else none
  | .forget k =>
    if k ∈ s.remotes then some (dropRef { s with remotes := s.remotes.erase k } k) else none

end Step

def initial : State where
  abilityWrappers := .empty
  systemAbilities := .empty
  ability := []
  publishObj := []
  abilityStubs := .empty
  remoteStubs := .empty
  inner := []
  unique := []
  raw := []
  registered := []
  handlers := []
  publishing := []
  assigning := []
  storing := []
  adding := []
  copying := []
  serving := []
  remotes := []
  lost := []

def machine : Machine State Action where
  init := initial
  step := step

end RustAbilities
