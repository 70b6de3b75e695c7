import Safwk.ApiCacheManager
import Safwk.Library.Transition

/-!
# Clearing the cache while calls are in flight

A proxy calls `PreSendRequest`, on a miss sends the request to the server, and
hands the reply to `PostSendRequest`. The three are separate steps, and nothing in
the manager says which clearing a reply belongs to. When the remote ability dies,
`ClearCache` empties the cache, but a reply computed before can still be stored
after it.

`time` counts the steps. A reply is `born` at the step in which the server computed
it, `cleared` is the step of the last `ClearCache` that covered a pair, and `origin`
remembers which reply was stored last for a pair and its bytes. These three are
only recorded; no step of the code reads them.
-/

namespace CacheInvalidation

open Transition ApiCacheManager CacheEntries

/-- A reply of the server. -/
structure Reply where
  parcel : MessageParcel
  born : Nat
  deriving DecidableEq

/-- Where a client call is. -/
inductive Pc where
  | idle
  | missed (api : Api) (data : MessageParcel)
  | replied (api : Api) (data : MessageParcel) (reply : Reply)
  deriving DecidableEq

/-- A `PreSendRequest` that returned true: what it appended, the reply this came
from, and the last clearing before it. -/
structure Hit where
  appended : Bytes
  reply : Reply
  cleared : Nat
  deriving DecidableEq

structure State where
  caches : Caches
  threads : List Pc
  origin : Api → Bytes → Reply
  cleared : Api → Nat
  time : Nat
  hits : List Hit

/-- `fails` is a call whose request or reply is an error: nothing is stored. -/
inductive Action where
  | addCacheApi (descriptor : Descriptor) (apiCode : UInt32) (expireTimeSec : Int)
  | delCacheApi (descriptor : Descriptor) (apiCode : UInt32)
  | clearCache
  | clearDescriptor (descriptor : Descriptor)
  | clearApi (descriptor : Descriptor) (apiCode : Int32)
  | sends (i : Nat) (now : Nat → Int) (api : Api) (data reply : MessageParcel)
  | computes (i : Nat) (reply : MessageParcel)
  | fails (i : Nat)
  | stores (i : Nat) (now : Nat → Int)

/-- The form of `ClearCache` covers the pair. -/
def covers (api : Api) : Call → Bool
  | .clearCache => true
  | .clearDescriptor descriptor => api.1 == descriptor
  | .clearApi descriptor apiCode => (descriptor, apiCode.toUInt32) == api
  | _ => false

/-- A call of the manager outside every client call. -/
def control (writeBuffer : WriteBuffer) (s : State) (call : Call) : State :=
  { s with
    caches := (exec writeBuffer (fun _ => 0) s.caches call).1
    cleared := fun api => if covers api call then s.time else s.cleared api
    time := s.time + 1 }

/-- The thread gets its answer from the cache or goes on to the server. -/
def send (writeBuffer : WriteBuffer) (s : State) (i : Nat) (now : Nat → Int) (api : Api)
    (data reply : MessageParcel) : State :=
  let (caches, ret, reply') :=
    preSendRequest writeBuffer now s.caches api.1 api.2 data reply
  if ret then
    { s with
      caches := caches
      time := s.time + 1
      hits := ⟨reply'.data.drop reply.data.length, s.origin api data.data, s.cleared api⟩ :: s.hits }
  else
    { s with
      caches := caches, threads := s.threads.set i (.missed api data), time := s.time + 1 }

def store (s : State) (i : Nat) (now : Nat → Int) (api : Api) (data : MessageParcel)
    (reply : Reply) : State :=
  let (caches, ret) := postSendRequest now s.caches api.1 api.2 data reply.parcel
  { s with
    caches := caches
    threads := s.threads.set i .idle
    origin := fun api' key =>
      if ret = true ∧ api' = api ∧ key = data.data then reply else s.origin api' key
    time := s.time + 1 }

def step (writeBuffer : WriteBuffer) (s : State) : Action → Option State
  | .addCacheApi descriptor apiCode expireTimeSec =>
    some (control writeBuffer s (.addCacheApi descriptor apiCode expireTimeSec))
  | .delCacheApi descriptor apiCode =>
    some (control writeBuffer s (.delCacheApi descriptor apiCode))
  | .clearCache => some (control writeBuffer s .clearCache)
  | .clearDescriptor descriptor => some (control writeBuffer s (.clearDescriptor descriptor))
  | .clearApi descriptor apiCode => some (control writeBuffer s (.clearApi descriptor apiCode))
  | .sends i now api data reply =>
    match s.threads[i]? with
    | some .idle => some (send writeBuffer s i now api data reply)
    | _ => none
  | .computes i reply =>
    match s.threads[i]? with
    | some (.missed api data) =>
      some { s with
        threads := s.threads.set i (.replied api data ⟨reply, s.time⟩), time := s.time + 1 }
    | _ => none
  | .fails i => some { s with threads := s.threads.set i .idle, time := s.time + 1 }
  | .stores i now =>
    match s.threads[i]? with
    | some (.replied api data reply) => some (store s i now api data reply)
    | _ => none

def machine (writeBuffer : WriteBuffer) (n : Nat) : Machine State Action where
  init := ⟨fun _ => none, List.replicate n .idle, fun _ _ => ⟨⟨[], 0, 0⟩, 0⟩, fun _ => 0, 0, []⟩
  step := step writeBuffer

/-- The hit appended the reply stored last, and that reply was not computed before
the last clearing. -/
def Fresh (hit : Hit) : Prop :=
  hit.appended = hit.reply.parcel.data ∧ hit.cleared ≤ hit.reply.born

def notOvertaken (s : State) : Action → Bool
  | .stores i _ =>
    match s.threads[i]? with
    | some (.replied api data reply) =>
      decide (s.cleared api ≤ reply.born) || data.offsetsSize != 0 ||
        reply.parcel.offsetsSize != 0 || (s.caches api).isNone
    | _ => true
  | _ => true

/-- No reply is stored for a pair that was cleared since the server computed it. -/
def NotOvertaken (s : State) (a : Action) : Prop := notOvertaken s a = true

instance (s : State) (a : Action) : Decidable (NotOvertaken s a) :=
  inferInstanceAs (Decidable (notOvertaken s a = true))

/-! ## Where the stored bytes come from -/

/-- The entry for a pair and its bytes. -/
def entryAt (caches : Caches) (api : Api) (key : Bytes) : Option (Stored Bytes Bytes) :=
  (caches api).bind fun cache => entryOf cache.raw key

theorem entryAt_some {caches : Caches} {api : Api} {key : Bytes} {e : Stored Bytes Bytes} :
    entryAt caches api key = some e ↔
      ∃ cache, caches api = some cache ∧ entryOf cache.raw key = some e := by
  simp [entryAt, Option.bind_eq_some_iff]

/-- A call that is neither of the two requests stores nothing. -/
def isControl : Call → Bool
  | .preSendRequest _ _ _ _ => false
  | .postSendRequest _ _ _ _ => false
  | _ => true

theorem entryAt_control (writeBuffer : WriteBuffer) (now : Nat → Int) {caches : Caches}
    {call : Call} (outside : isControl call = true) {api : Api} {key : Bytes}
    {e : Stored Bytes Bytes}
    (found : entryAt (exec writeBuffer now caches call).1 api key = some e) :
    entryAt caches api key = some e ∧ covers api call = false := by
  rw [entryAt, exec_caches] at found
  have cleared : ((caches api).map clear).bind (fun cache => entryOf cache.raw key) ≠ some e := by
    cases caches api with
    | none => simp
    | some cache => simp [clear, entryOf_clear]
  cases about : concerns api call with
  | false =>
    rw [about] at found
    refine ⟨found, ?_⟩
    cases call <;> simp_all [concerns, covers]
  | true =>
    rw [about, if_pos rfl] at found
    cases call with
    | addCacheApi descriptor apiCode expireTimeSec =>
      refine ⟨?_, rfl⟩
      cases registered : caches api with
      | none =>
        simp [registered, effect, entryOf, ExpireLruCache.Cache.new, ExpireLruCache.construct]
          at found
      | some cache =>
        rw [registered] at found
        exact entryAt_some.mpr ⟨cache, registered, found⟩
    | delCacheApi descriptor apiCode => cases found
    | clearCache | clearDescriptor | clearApi => exact False.elim (cleared found)
    | preSendRequest | postSendRequest => cases outside

theorem entryAt_preSend (writeBuffer : WriteBuffer) (now : Nat → Int) {caches : Caches} {api : Api}
    (data reply : MessageParcel) {other : Api} {key : Bytes} {e : Stored Bytes Bytes}
    (found : entryAt (preSendRequest writeBuffer now caches api.1 api.2 data reply).1 other key =
      some e) : entryAt caches other key = some e := by
  have split := exec_caches writeBuffer now caches (.preSendRequest api.1 api.2 data reply) other
  simp only [exec] at split
  rw [entryAt, split] at found
  split at found
  · cases registered : caches other with
    | none =>
      rw [registered] at found
      cases found
    | some cache =>
      rw [registered] at found
      exact entryAt_some.mpr ⟨cache, registered, entryOf_get cache now data.data found⟩
  · exact found

/-- After a `PostSendRequest` an entry is the stored reply, or an old one that the
reply has not replaced. -/
theorem entryAt_postSend (now : Nat → Int) {caches : Caches} {api : Api}
    (data reply : MessageParcel) {other : Api} {key : Bytes} {e : Stored Bytes Bytes}
    (found : entryAt (postSendRequest now caches api.1 api.2 data reply).1 other key = some e) :
    (postSendRequest now caches api.1 api.2 data reply).2 = true ∧ other = api ∧
        key = data.data ∧ e.value = reply.data ∨
    ¬ ((postSendRequest now caches api.1 api.2 data reply).2 = true ∧ other = api ∧
        key = data.data) ∧ entryAt caches other key = some e := by
  have split := exec_caches (fun _ _ => true) now caches (.postSendRequest api.1 api.2 data reply)
    other
  simp only [exec] at split
  rw [entryAt, split] at found
  rw [postSendRequest_ret]
  split at found
  · rename_i about
    have same : other = api := (beq_iff_eq.mp about).symm
    subst same
    simp only [effect] at found
    split at found
    · rename_i objects
      have some : ¬ (data.offsetsSize = 0 ∧ reply.offsetsSize = 0) := by omega
      exact Or.inr ⟨by simp [some], found⟩
    · rename_i objects
      have plain : data.offsetsSize = 0 ∧ reply.offsetsSize = 0 := by omega
      obtain ⟨cache, registered, entry⟩ := Option.bind_eq_some_iff.mp found
      obtain ⟨before, present, rfl⟩ := Option.map_eq_some_iff.mp registered
      rcases entryOf_add before now data.data reply.data entry with
        ⟨rfl, rfl⟩ | ⟨different, old⟩
      · exact Or.inl ⟨by simp [plain, present], rfl, rfl, rfl⟩
      · exact Or.inr ⟨by simp [different], entryAt_some.mpr ⟨before, present, old⟩⟩
  · rename_i about
    have different : other ≠ api := by
      rintro rfl
      exact about (by simp [concerns])
    exact Or.inr ⟨by simp [different], found⟩

/-- Every stored entry holds the bytes of its origin, computed after the last
clearing of the pair. -/
structure Current (s : State) : Prop where
  entries : ∀ api key e, entryAt s.caches api key = some e →
    e.value = (s.origin api key).parcel.data ∧ s.cleared api ≤ (s.origin api key).born
  hits : ∀ hit ∈ s.hits, Fresh hit

theorem Current.control {writeBuffer : WriteBuffer} {s : State} (current : Current s) {call : Call}
    (outside : isControl call = true) : Current (control writeBuffer s call) := by
  refine ⟨?_, current.hits⟩
  intro api key e found
  obtain ⟨before, kept⟩ := entryAt_control writeBuffer (fun _ => 0) outside found
  simp only [CacheInvalidation.control, kept]
  exact current.entries api key e before

theorem Current.send {writeBuffer : WriteBuffer} {s : State} (current : Current s) (i : Nat)
    (now : Nat → Int) (api : Api) (data reply : MessageParcel) :
    Current (send writeBuffer s i now api data reply) := by
  have entries : ∀ other key e,
      entryAt (preSendRequest writeBuffer now s.caches api.1 api.2 data reply).1 other key =
        some e →
      e.value = (s.origin other key).parcel.data ∧ s.cleared other ≤ (s.origin other key).born :=
    fun other key e found =>
      current.entries other key e (entryAt_preSend writeBuffer now data reply found)
  simp only [CacheInvalidation.send]
  split
  · rename_i hit
    refine ⟨entries, ?_⟩
    intro h member
    rcases List.mem_cons.mp member with rfl | member
    · obtain ⟨cache, valueVec, registered, value, appended⟩ := preSendRequest_hit hit
      obtain ⟨ts, entry, _⟩ := get_hit cache now data.data value
      obtain ⟨bytes, later⟩ :=
        current.entries api data.data _ (entryAt_some.mpr ⟨cache, registered, entry⟩)
      refine ⟨?_, later⟩
      dsimp only
      rw [appended, List.drop_left]
      exact bytes
    · exact current.hits h member
  · exact ⟨entries, current.hits⟩

theorem Current.store {s : State} (current : Current s) (i : Nat) (now : Nat → Int) (api : Api)
    (data : MessageParcel) (reply : Reply)
    (later : (postSendRequest now s.caches api.1 api.2 data reply.parcel).2 = true →
      s.cleared api ≤ reply.born) : Current (store s i now api data reply) := by
  refine ⟨?_, current.hits⟩
  intro other key e found
  rcases entryAt_postSend now data reply.parcel found with
    ⟨stored, rfl, rfl, bytes⟩ | ⟨kept, before⟩
  · simp only [CacheInvalidation.store, stored, and_self, if_true]
    exact ⟨bytes, later stored⟩
  · simp only [CacheInvalidation.store, if_neg kept]
    exact current.entries other key e before

theorem step_current {writeBuffer : WriteBuffer} {s t : State} {a : Action}
    (current : Current s) (guard : NotOvertaken s a) (next : step writeBuffer s a = some t) :
    Current t := by
  cases a with
  | addCacheApi | delCacheApi | clearCache | clearDescriptor | clearApi =>
    exact Option.some.inj next ▸ current.control rfl
  | sends i now api data reply =>
    simp only [step] at next
    split at next
    · exact Option.some.inj next ▸ current.send i now api data reply
    · cases next
  | computes i reply =>
    simp only [step] at next
    split at next
    · exact Option.some.inj next ▸ ⟨current.entries, current.hits⟩
    · cases next
  | fails i => exact Option.some.inj next ▸ ⟨current.entries, current.hits⟩
  | stores i now =>
    simp only [step] at next
    split at next
    · rename_i api data reply found
      rw [← Option.some.inj next]
      apply current.store
      intro stored
      rw [postSendRequest_ret, Bool.and_eq_true, decide_eq_true_eq] at stored
      have allowed : s.cleared api ≤ reply.born ∨ s.caches api = none := by
        simpa [NotOvertaken, notOvertaken, found, stored.1] using guard
      rcases allowed with later | missing
      · exact later
      · simp [missing] at stored
    · cases next

/-- Any number of client calls, interleaved in any way with registrations and all
forms of `ClearCache`: if no reply is stored for a pair cleared since the server
computed it, every hit returns a reply computed after the last clearing. -/
theorem hits_fresh (writeBuffer : WriteBuffer) (n : Nat) (s : State)
    (reach : (machine writeBuffer n).Reachable NotOvertaken s) : ∀ hit ∈ s.hits, Fresh hit := by
  have current : Current s := by
    refine reach.invariant Current ?_ ?_
    · constructor
      · intro api key e found
        cases found
      · simp [machine]
    · intro r a t _ keep guard next
      exact step_current keep guard next
  exact current.hits

/-- Two client calls; `WriteBuffer` always succeeds. -/
def clients : Machine State Action := machine (fun _ _ => true) 2

def plain (data : Bytes) : MessageParcel := ⟨data, 0, 100⟩

/-- A reply is stored and hit; after a clearing a new one is stored and hit. -/
def refilled : List Action :=
  [.addCacheApi [1] 7 0, .sends 0 (fun _ => 0) ([1], 7) (plain [5]) (plain []),
    .computes 0 (plain [8]), .stores 0 (fun _ => 0),
    .sends 1 (fun _ => 0) ([1], 7) (plain [5]) (plain []), .clearDescriptor [1],
    .sends 0 (fun _ => 0) ([1], 7) (plain [5]) (plain []), .computes 0 (plain [9]),
    .stores 0 (fun _ => 0), .sends 1 (fun _ => 0) ([1], 7) (plain [5]) (plain [])]

def refilledState : State := (clients.run NotOvertaken clients.init refilled).get (by decide)

theorem hits_fresh_refilled :
    refilledState.hits = [⟨[9], ⟨plain [9], 7⟩, 5⟩, ⟨[8], ⟨plain [8], 2⟩, 0⟩] ∧
    ∀ hit ∈ refilledState.hits, Fresh hit := by
  refine ⟨by decide, ?_⟩
  have reach : clients.Reachable NotOvertaken refilledState :=
    Machine.reachable_get refilled (by decide)
  exact hits_fresh (fun _ _ => true) 2 refilledState reach

/-- The remote ability dies and the cache is cleared after the server computed the
reply and before the client stored it. -/
def overtaken : List Action :=
  [.addCacheApi [1] 7 0, .sends 0 (fun _ => 0) ([1], 7) (plain [5]) (plain []),
    .computes 0 (plain [8]), .clearDescriptor [1], .stores 0 (fun _ => 0),
    .sends 1 (fun _ => 0) ([1], 7) (plain [5]) (plain [])]

def overtakenState : State := (clients.run Free clients.init overtaken).get (by decide)

/-- The hit at the end returns the reply computed before the clearing. -/
theorem stale_hit :
    ¬ ∀ s, clients.Reachable Free s → ∀ hit ∈ s.hits, Fresh hit := by
  intro fresh
  have reach : clients.Reachable Free overtakenState := Machine.reachable_get overtaken (by decide)
  have hits : overtakenState.hits = [⟨[8], ⟨plain [8], 2⟩, 3⟩] := by decide
  have stale := fresh overtakenState reach ⟨[8], ⟨plain [8], 2⟩, 3⟩ (by simp [hits])
  exact absurd stale.2 (by decide)

end CacheInvalidation
