import Safwk.ManagerStub

/-!
# The file descriptors of a request

Two kinds of request bring a file descriptor along. Reading it from the parcel opens it
in this process, and the handler has to close it on every path: when a later argument is
missing, when the reply cannot be written, and when all went well.

To see what was opened, the request parcel is given a list of the descriptors that the
stub has read from it. The list does not change what the stub does. What the extension of
an ability or the base class reads from the parcel is theirs.
-/

namespace StubDescriptors

open ManagerStub Effects

variable {σ ρ μ : Type}

/-- The descriptor among the arguments. -/
def fdOf : Call → Option Int32
  | .ipcStatCmdProc fd _ => some fd
  | .ffrtStatCmdProc fd _ => some fd
  | .serviceControlCmd fd _ _ => some fd
  | _ => none

/-- A read that opens nothing. -/
def reading {α : Type} (read : StateM σ α) : StateM (σ × List Int32) α := fun data =>
  let (a, rest) := read.run data.1
  (a, rest, data.2)

/-- The same libraries, with a list of what the stub has opened. -/
def tracked (E : Env σ ρ μ) : Env (σ × List Int32) ρ μ where
  readInterfaceToken := reading E.readInterfaceToken
  readInt32 := reading E.readInt32
  readString := reading E.readString
  tryReadString := reading E.tryReadString
  readFileDescriptor := fun data =>
    let (fd, rest) := E.readFileDescriptor.run data.1
    (fd, rest, if fd < 0 then data.2 else data.2 ++ [fd])
  readString16Vector := reading E.readString16Vector
  writeBool := E.writeBool
  writeInt32 := E.writeInt32
  writeString := E.writeString
  objectStub code := fun parcels =>
    let (ret, data, reply) := (E.objectStub code).run (parcels.1.1, parcels.2)
    (ret, (data, parcels.1.2), reply)
  interfaceCode := E.interfaceCode
  interfaceToken := E.interfaceToken
  verifyAccessToken := E.verifyAccessToken
  permissionGranted := E.permissionGranted
  firstSysAbilityId := E.firstSysAbilityId
  lastSysAbilityId := E.lastSysAbilityId
  errNone := E.errNone
  errNullObject := E.errNullObject
  errPermissionDenied := E.errPermissionDenied
  invalidData := E.invalidData
  stringToJsonObj := E.stringToJsonObj
  startAbility := E.startAbility
  stopAbility := E.stopAbility
  activeAbility := E.activeAbility
  idleAbility := E.idleAbility
  sendStrategyToSA := E.sendStrategyToSA
  ipcStatCmdProc := E.ipcStatCmdProc
  ffrtStatCmdProc := E.ffrtStatCmdProc
  ffrtDumperProc := E.ffrtDumperProc
  systemAbilityExtProc extension saId isAsync := fun all =>
    let (ret, data, reply, manager) :=
      (E.systemAbilityExtProc extension saId isAsync).run (all.1.1, all.2.1, all.2.2)
    (ret, (data, all.1.2), reply, manager)
  serviceControlCmd := E.serviceControlCmd

abbrev Tracked (σ ρ μ : Type) := World (σ × List Int32) ρ μ

/-- The request as it is, without the list. -/
def erase (w : Tracked σ ρ μ) : World σ ρ μ where
  data := w.data.1
  reply := w.reply
  manager := w.manager
  invoked := w.invoked
  closed := w.closed

def opened (w : Tracked σ ρ μ) : List Int32 := w.data.2

/-- What the tracked program does, the program does. -/
def Follows {α : Type} (p : StateM (Tracked σ ρ μ) α) (q : StateM (World σ ρ μ) α)
    (w : Tracked σ ρ μ) : Prop :=
  q.run (erase w) = ((p.run w).1, erase (p.run w).2)

/-- From one state to the other, `held` and what was opened was closed, once, and the
operations that take a descriptor were given one of these. -/
def Settled (held : Option Int32) (w w' : Tracked σ ρ μ) : Prop :=
  ∃ fresh calls, opened w' = opened w ++ fresh ∧ w'.closed = w.closed ++ (held.toList ++ fresh) ∧
    (held.toList ++ fresh).length ≤ 1 ∧ w'.invoked = w.invoked ++ calls ∧
    ∀ call ∈ calls, ∀ fd, fdOf call = some fd → fd ∈ held.toList ++ fresh

/-- A program that is responsible for the descriptor `held`, and its tracked version. -/
def Settles {α : Type} (held : Option Int32) (p : StateM (Tracked σ ρ μ) α)
    (q : StateM (World σ ρ μ) α) : Prop :=
  ∀ w, Follows p q w ∧ Settled held w (p.run w).2

/-- Nothing is opened, closed or invoked. -/
structure Plain {α : Type} (p : StateM (Tracked σ ρ μ) α) (q : StateM (World σ ρ μ) α) :
    Prop where
  follows : ∀ w, Follows p q w
  opened : ∀ w, opened (p.run w).2 = opened w
  closed : ∀ w, (p.run w).2.closed = w.closed
  invoked : ∀ w, (p.run w).2.invoked = w.invoked

/-- One operation is invoked. -/
structure Invokes {α : Type} (call : Call) (p : StateM (Tracked σ ρ μ) α)
    (q : StateM (World σ ρ μ) α) : Prop where
  follows : ∀ w, Follows p q w
  opened : ∀ w, opened (p.run w).2 = opened w
  closed : ∀ w, (p.run w).2.closed = w.closed
  invoked : ∀ w, (p.run w).2.invoked = w.invoked ++ [call]

section Rules

variable {α β : Type} {held : Option Int32}

theorem plain_reading (read : StateM σ α) :
    Plain (fromData (reading read) : StateM (Tracked σ ρ μ) α) (fromData read) :=
  ⟨fun _ => rfl, fun _ => rfl, fun _ => rfl, fun _ => rfl⟩

theorem plain_toReply (write : StateM ρ α) :
    Plain (toReply write : StateM (Tracked σ ρ μ) α) (toReply write) :=
  ⟨fun _ => rfl, fun _ => rfl, fun _ => rfl, fun _ => rfl⟩

theorem invokes_invoke (call : Call) (operation : StateM μ α) :
    Invokes call (invoke call operation : StateM (Tracked σ ρ μ) α) (invoke call operation) :=
  ⟨fun _ => rfl, fun _ => rfl, fun _ => rfl, fun _ => rfl⟩

theorem follows_bind {p : StateM (Tracked σ ρ μ) α} {q : StateM (World σ ρ μ) α}
    {f : α → StateM (Tracked σ ρ μ) β} {g : α → StateM (World σ ρ μ) β} {w : Tracked σ ρ μ}
    (first : Follows p q w) (next : Follows (f (p.run w).1) (g (p.run w).1) (p.run w).2) :
    Follows (p >>= f) (q >>= g) w :=
  (run_bind first).trans next

theorem Settles.pure (a : α) : Settles none (Pure.pure a : StateM (Tracked σ ρ μ) α)
    (Pure.pure a) := by
  intro w
  refine ⟨rfl, [], [], (List.append_nil _).symm, (List.append_nil _).symm, Nat.zero_le 1,
    (List.append_nil _).symm, ?_⟩
  intro call member
  cases member

/-- What is held is closed and the program returns. -/
theorem Settles.close (fd : Int32) (a : α) :
    Settles (some fd) (do close fd; Pure.pure a : StateM (Tracked σ ρ μ) α)
      (do close fd; Pure.pure a) := by
  intro w
  refine ⟨rfl, [], [], (List.append_nil _).symm, rfl, Nat.le_refl 1, (List.append_nil _).symm, ?_⟩
  intro call member
  cases member

theorem Settles.after {p : StateM (Tracked σ ρ μ) α} {q : StateM (World σ ρ μ) α}
    {f : α → StateM (Tracked σ ρ μ) β} {g : α → StateM (World σ ρ μ) β} (plain : Plain p q)
    (next : ∀ a, Settles held (f a) (g a)) : Settles held (p >>= f) (q >>= g) := by
  intro w
  obtain ⟨follows, fresh, calls, opens, closes, few, invokes, given⟩ :=
    next (p.run w).1 (p.run w).2
  rw [plain.opened] at opens
  rw [plain.closed] at closes
  rw [plain.invoked] at invokes
  exact ⟨follows_bind (plain.follows w) follows, fresh, calls, opens, closes, few, invokes, given⟩

/-- An operation gets the descriptor that is held, or none. -/
theorem Settles.invoke {call : Call} {p : StateM (Tracked σ ρ μ) α} {q : StateM (World σ ρ μ) α}
    {f : α → StateM (Tracked σ ρ μ) β} {g : α → StateM (World σ ρ μ) β}
    (acts : Invokes call p q) (own : ∀ fd, fdOf call = some fd → held = some fd)
    (next : ∀ a, Settles held (f a) (g a)) : Settles held (p >>= f) (q >>= g) := by
  intro w
  obtain ⟨follows, fresh, calls, opens, closes, few, invokes, given⟩ :=
    next (p.run w).1 (p.run w).2
  rw [acts.opened] at opens
  rw [acts.closed] at closes
  rw [acts.invoked, List.append_assoc] at invokes
  refine ⟨follows_bind (acts.follows w) follows, fresh, [call] ++ calls, opens, closes, few,
    invokes, ?_⟩
  intro other member fd isFd
  rcases List.mem_append.mp member with first | later
  · rw [List.mem_singleton.mp first] at isFd
    rw [own fd isFd]
    exact List.mem_append_left fresh (List.mem_singleton_self fd)
  · exact given other later fd isFd

/-- From the read on, the program is responsible for the descriptor. -/
theorem Settles.readFileDescriptor (E : Env σ ρ μ) {f : Int32 → StateM (Tracked σ ρ μ) β}
    {g : Int32 → StateM (World σ ρ μ) β} (invalid : ∀ fd, fd < 0 → Settles none (f fd) (g fd))
    (valid : ∀ fd, ¬fd < 0 → Settles (some fd) (f fd) (g fd)) :
    Settles none (fromData (tracked E).readFileDescriptor >>= f)
      (fromData E.readFileDescriptor >>= g) := by
  intro w
  have reads : Follows (fromData (tracked E).readFileDescriptor)
      (fromData E.readFileDescriptor : StateM (World σ ρ μ) Int32) w := rfl
  have opens' : opened ((fromData (tracked E).readFileDescriptor).run w).2 =
      if (E.readFileDescriptor.run w.data.1).1 < 0 then opened w
      else opened w ++ [(E.readFileDescriptor.run w.data.1).1] := rfl
  by_cases negative : (E.readFileDescriptor.run w.data.1).1 < 0
  · rw [if_pos negative] at opens'
    obtain ⟨follows, fresh, calls, opens, rest⟩ := invalid _ negative
      ((fromData (tracked E).readFileDescriptor).run w).2
    rw [opens'] at opens
    exact ⟨follows_bind reads follows, fresh, calls, opens, rest⟩
  · rw [if_neg negative] at opens'
    obtain ⟨follows, fresh, calls, opens, rest⟩ := valid _ negative
      ((fromData (tracked E).readFileDescriptor).run w).2
    rw [opens', List.append_assoc] at opens
    exact ⟨follows_bind reads follows, [_] ++ fresh, calls, opens, rest⟩

theorem Settles.ite {c : Prop} [Decidable c] {p p' : StateM (Tracked σ ρ μ) α}
    {q q' : StateM (World σ ρ μ) α} (yes : c → Settles held p q) (no : ¬c → Settles held p' q') :
    Settles held (if c then p else p') (if c then q else q') := by
  split
  · exact yes ‹_›
  · exact no ‹_›

/-- A read that may fail. -/
theorem Settles.read (read : StateM σ (Option α)) {f : Option α → StateM (Tracked σ ρ μ) β}
    {g : Option α → StateM (World σ ρ μ) β} (failed : Settles held (f none) (g none))
    (goesOn : ∀ a, Settles held (f (some a)) (g (some a))) :
    Settles held (fromData (reading read) >>= f) (fromData read >>= g) := by
  refine Settles.after (plain_reading read) ?_
  intro found
  cases found with
  | none => exact failed
  | some a => exact goesOn a

/-- A reply that may fail, and nothing is left to do. -/
theorem Settles.reply {write : StateM ρ Bool} {f : Bool → StateM (Tracked σ ρ μ) β}
    {g : Bool → StateM (World σ ρ μ) β} (next : ∀ written, Settles held (f written) (g written)) :
    Settles held (toReply write >>= f) (toReply write >>= g) :=
  Settles.after (plain_toReply write) next

end Rules

/-! ## The handlers -/

section Handlers

variable (E : Env σ ρ μ)

theorem settles_startStopInner (call : Int32 → StdString → Call)
    (perform : Int32 → StdString → StateM μ Bool)
    (plain : ∀ saId eventStr, fdOf (call saId eventStr) = none) :
    Settles none
      (startStopInner (tracked E) fun saId eventStr =>
        invoke (call saId eventStr) (perform saId eventStr))
      (startStopInner E fun saId eventStr =>
        invoke (call saId eventStr) (perform saId eventStr)) := by
  refine Settles.read E.readInt32 (Settles.pure _) fun saId => ?_
  refine Settles.ite (fun _ => Settles.pure _) fun _ => ?_
  refine Settles.after (plain_reading E.readString) fun eventStr => ?_
  refine Settles.ite (fun _ => Settles.pure _) fun _ => ?_
  refine Settles.invoke (invokes_invoke _ _) ?_ fun _ => Settles.pure _
  intro fd isFd
  rw [plain] at isFd
  cases isFd

theorem settles_activeAbilityInner :
    Settles none (activeAbilityInner (tracked E)) (activeAbilityInner E) := by
  refine Settles.read E.readInt32 (Settles.pure _) fun saId => ?_
  refine Settles.ite (fun _ => Settles.pure _) fun _ => ?_
  refine Settles.after (plain_reading E.readString) fun text => ?_
  refine Settles.invoke (invokes_invoke _ _) (fun _ isFd => by cases isFd) fun result => ?_
  exact Settles.reply fun _ => Settles.ite (fun _ => Settles.pure _) fun _ => Settles.pure _

theorem settles_idleAbilityInner :
    Settles none (idleAbilityInner (tracked E)) (idleAbilityInner E) := by
  refine Settles.read E.readInt32 (Settles.pure _) fun saId => ?_
  refine Settles.ite (fun _ => Settles.pure _) fun _ => ?_
  refine Settles.after (plain_reading E.readString) fun text => ?_
  refine Settles.invoke (invokes_invoke _ _) (fun _ isFd => by cases isFd) ?_
  rintro ⟨result, delayTime⟩
  refine Settles.reply fun _ => Settles.ite (fun _ => Settles.pure _) fun _ => ?_
  exact Settles.reply fun _ => Settles.ite (fun _ => Settles.pure _) fun _ => Settles.pure _

theorem settles_sendStrategyToSAInner :
    Settles none (sendStrategyToSAInner (tracked E)) (sendStrategyToSAInner E) := by
  refine Settles.read E.readInt32 (Settles.pure _) fun type => ?_
  refine Settles.read E.readInt32 (Settles.pure _) fun saId => ?_
  refine Settles.ite (fun _ => Settles.pure _) fun _ => ?_
  refine Settles.read E.readInt32 (Settles.pure _) fun level => ?_
  refine Settles.read E.tryReadString (Settles.pure _) fun action => ?_
  refine Settles.invoke (invokes_invoke _ _) (fun _ isFd => by cases isFd) fun result => ?_
  exact Settles.ite (fun _ => Settles.pure _) fun _ => Settles.pure _

/-- The descriptor is closed whichever of the two things goes wrong, and when none does. -/
theorem settles_statCmdProcInner (call : Int32 → Int32 → Call)
    (perform : Int32 → Int32 → StateM μ Bool) (own : ∀ fd cmd, fdOf (call fd cmd) = some fd) :
    Settles none (statCmdProcInner (tracked E) fun fd cmd => invoke (call fd cmd) (perform fd cmd))
      (statCmdProcInner E fun fd cmd => invoke (call fd cmd) (perform fd cmd)) := by
  refine Settles.readFileDescriptor E ?_ ?_
  · intro fd negative
    simp only [if_pos negative]
    exact Settles.pure _
  · intro fd valid
    simp only [if_neg valid]
    refine Settles.read E.readInt32 (Settles.close fd _) fun cmd => ?_
    refine Settles.invoke (invokes_invoke _ _) (fun fd' isFd => isFd ▸ (own fd cmd).symm) ?_
    intro result
    refine Settles.reply fun written => ?_
    exact Settles.ite (fun _ => Settles.close fd _) fun _ => Settles.close fd _

theorem settles_ffrtDumperProcInner :
    Settles none (ffrtDumperProcInner (tracked E)) (ffrtDumperProcInner E) := by
  refine Settles.invoke (invokes_invoke _ _) (fun _ isFd => by cases isFd) ?_
  rintro ⟨result, ffrtDumperInfo⟩
  exact Settles.reply fun _ => Settles.ite (fun _ => Settles.pure _) fun _ => Settles.pure _

theorem settles_systemAbilityExtProcInner :
    Settles none (systemAbilityExtProcInner (tracked E)) (systemAbilityExtProcInner E) := by
  refine Settles.read E.readInt32 (Settles.pure _) fun saId => ?_
  refine Settles.ite (fun _ => Settles.pure _) fun _ => ?_
  refine Settles.after (plain_reading E.readString) fun extension => ?_
  refine Settles.ite (fun _ => Settles.pure _) fun _ => ?_
  have acts : Invokes (.systemAbilityExtProc extension saId false)
      (invokeWithParcels (.systemAbilityExtProc extension saId false)
        ((tracked E).systemAbilityExtProc extension saId false) : StateM (Tracked σ ρ μ) Int32)
      (invokeWithParcels (.systemAbilityExtProc extension saId false)
        (E.systemAbilityExtProc extension saId false)) :=
    ⟨fun _ => rfl, fun _ => rfl, fun _ => rfl, fun _ => rfl⟩
  refine Settles.invoke acts (fun _ isFd => by cases isFd) fun result => ?_
  exact Settles.ite (fun _ => Settles.pure _) fun _ => Settles.pure _

theorem settles_serviceControlCmdInner :
    Settles none (serviceControlCmdInner (tracked E)) (serviceControlCmdInner E) := by
  refine Settles.read E.readInt32 (Settles.pure _) fun saId => ?_
  refine Settles.ite (fun _ => Settles.pure _) fun _ => ?_
  refine Settles.readFileDescriptor E ?_ ?_
  · intro fd negative
    simp only [if_pos negative]
    exact Settles.pure _
  · intro fd valid
    simp only [if_neg valid]
    refine Settles.read E.readString16Vector (Settles.close fd _) fun args => ?_
    refine Settles.invoke (invokes_invoke _ _) (fun fd' isFd => isFd) ?_
    intro result
    exact Settles.close fd result

end Handlers

/-! ## Requests -/

/-- Related entries, assigned in the same order, make related maps. -/
theorem assigned_related {α β γ : Type} [DecidableEq α] {R : β → γ → Prop}
    {entries : List (α × β)} {entries' : List (α × γ)}
    (related : List.Forall₂ (fun e e' => e.1 = e'.1 ∧ R e.2 e'.2) entries entries')
    {map : α → Option β} {map' : α → Option γ} (before : ∀ key, Option.Rel R (map key) (map' key))
    (key : α) :
    Option.Rel R
      (entries.foldl (fun (m : α → Option β) e => Function.update m e.1 (some e.2)) map key)
      (entries'.foldl (fun (m : α → Option γ) e => Function.update m e.1 (some e.2)) map' key) := by
  induction related generalizing map map' with
  | nil => exact before key
  | @cons e e' rest rest' head _ ih =>
    apply ih
    intro other
    dsimp only
    by_cases same : other = e.1
    · subst same
      rw [Function.update_self, head.1, Function.update_self]
      exact .some head.2
    · rw [Function.update_of_ne same, Function.update_of_ne (head.1 ▸ same)]
      exact before other

theorem memberFuncMap_settles (E : Env σ ρ μ) (code : UInt32) :
    Option.Rel (Settles none) (memberFuncMap (tracked E) code) (memberFuncMap E code) := by
  refine assigned_related ?_ (fun _ => .none) code
  refine .cons ⟨rfl, settles_startStopInner E _ _ fun _ _ => rfl⟩ ?_
  refine .cons ⟨rfl, settles_startStopInner E _ _ fun _ _ => rfl⟩ ?_
  refine .cons ⟨rfl, settles_activeAbilityInner E⟩ ?_
  refine .cons ⟨rfl, settles_idleAbilityInner E⟩ ?_
  refine .cons ⟨rfl, settles_sendStrategyToSAInner E⟩ ?_
  refine .cons ⟨rfl, settles_statCmdProcInner E _ _ fun _ _ => rfl⟩ ?_
  refine .cons ⟨rfl, settles_ffrtDumperProcInner E⟩ ?_
  refine .cons ⟨rfl, settles_systemAbilityExtProcInner E⟩ ?_
  refine .cons ⟨rfl, settles_statCmdProcInner E _ _ fun _ _ => rfl⟩ ?_
  exact .cons ⟨rfl, settles_serviceControlCmdInner E⟩ .nil

theorem settles_onRemoteRequest (E : Env σ ρ μ) (callingTokenId code : UInt32) :
    Settles none (onRemoteRequest (tracked E) callingTokenId code)
      (onRemoteRequest E callingTokenId code) := by
  have enforced : Plain (enforceInterceToken (tracked E) : StateM (Tracked σ ρ μ) Bool)
      (enforceInterceToken E) := ⟨fun _ => rfl, fun _ => rfl, fun _ => rfl, fun _ => rfl⟩
  refine Settles.after enforced fun accepted => ?_
  refine Settles.ite (fun _ => Settles.pure _) fun _ => ?_
  refine Settles.ite (fun _ => Settles.pure _) fun _ => ?_
  have related := memberFuncMap_settles E code
  revert related
  generalize memberFuncMap (tracked E) code = mine
  generalize memberFuncMap E code = plain
  intro related
  cases related with
  | some settles => exact settles
  | none =>
    have base : Plain (withParcels ((tracked E).objectStub code) : StateM (Tracked σ ρ μ) Int32)
        (withParcels (E.objectStub code)) :=
      ⟨fun _ => rfl, fun _ => rfl, fun _ => rfl, fun _ => rfl⟩
    exact Settles.after base fun ret => Settles.pure ret

/-- A request that nothing was read from yet. -/
def fresh (w : World σ ρ μ) : Tracked σ ρ μ where
  data := (w.data, [])
  reply := w.reply
  manager := w.manager
  invoked := w.invoked
  closed := w.closed

/-- For every code, every parcel, every caller and every failure on the way: the descriptors
that the stub opens for a request are those that it closes, each once, at most one for a
request, and an operation is given a descriptor only if it is this one. -/
theorem descriptors_closed (E : Env σ ρ μ) (callingTokenId code : UInt32) (w : World σ ρ μ) :
    ∃ fds calls,
      opened ((onRemoteRequest (tracked E) callingTokenId code).run (fresh w)).2 = fds ∧
      (onRemoteRequest E callingTokenId code).run w =
        (((onRemoteRequest (tracked E) callingTokenId code).run (fresh w)).1,
          erase ((onRemoteRequest (tracked E) callingTokenId code).run (fresh w)).2) ∧
      ((onRemoteRequest E callingTokenId code).run w).2.closed = w.closed ++ fds ∧
      fds.length ≤ 1 ∧
      ((onRemoteRequest E callingTokenId code).run w).2.invoked = w.invoked ++ calls ∧
      ∀ call ∈ calls, ∀ fd, fdOf call = some fd → fd ∈ fds := by
  obtain ⟨follows, fds, calls, opens, closes, few, invokes, given⟩ :=
    settles_onRemoteRequest E callingTokenId code (fresh w)
  have same : (onRemoteRequest E callingTokenId code).run w =
      (((onRemoteRequest (tracked E) callingTokenId code).run (fresh w)).1,
        erase ((onRemoteRequest (tracked E) callingTokenId code).run (fresh w)).2) := follows
  refine ⟨fds, calls, opens, same, ?_, few, ?_, given⟩
  · rw [same]
    exact closes
  · rw [same]
    exact invokes

end StubDescriptors
