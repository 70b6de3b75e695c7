import Safwk.ApiCacheManager
import Safwk.Library.Transition

/-!
# Cache hits are sound

Any run of the manager's operations, with a log of all calls and responses. Each
stored entry is traced back to the `PostSendRequest` that stored it: the latest
one for the pair and the bytes, with no deletion or clearing of the pair since.
The expire time of a cache is that of the `AddCacheApi` which created the
registration.

The clock need not be monotone for this: times are the readings that the code
itself compares.
-/

namespace CacheSoundness

open Transition ApiCacheManager CacheEntries

/-- A call with its clock readings and its response. -/
structure Event where
  now : Nat → Int
  call : Call
  response : Response

structure State where
  caches : Caches
  /-- Newest first. -/
  log : List Event

def step (writeBuffer : WriteBuffer) (s : State) (timed : (Nat → Int) × Call) : Option State :=
  let (caches, response) := exec writeBuffer timed.1 s.caches timed.2
  some ⟨caches, ⟨timed.1, timed.2, response⟩ :: s.log⟩

def machine (writeBuffer : WriteBuffer) : Machine State ((Nat → Int) × Call) where
  init := ⟨fun _ => none, []⟩
  step := step writeBuffer

/-! ## What the log says about a pair -/

/-- A `PostSendRequest` for the pair that returned true. -/
def Stores (api : Api) (key value : Bytes) (e : Event) : Prop :=
  ∃ data reply : MessageParcel, e.call = .postSendRequest api.1 api.2 data reply ∧
    e.response = .postSend true ∧ data.data = key ∧ reply.data = value ∧
    data.offsetsSize = 0 ∧ reply.offsetsSize = 0

/-- The call deletes or clears the cache of the pair. -/
def clears (api : Api) : Call → Bool
  | .delCacheApi descriptor apiCode => (descriptor, apiCode) == api
  | .clearCache => true
  | .clearDescriptor descriptor => api.1 == descriptor
  | .clearApi descriptor apiCode => (descriptor, apiCode.toUInt32) == api
  | _ => false

/-- The event neither stores a reply for these bytes nor clears the pair. -/
def Quiet (api : Api) (key : Bytes) (e : Event) : Prop :=
  (∀ value, ¬ Stores api key value e) ∧ clears api e.call = false

/-- The latest event about the pair and the bytes stored this value, at this time. -/
def StoredBy (api : Api) (key value : Bytes) (ts : Int) (log : List Event) : Prop :=
  ∃ newer e older, log = newer ++ e :: older ∧ Stores api key value e ∧ e.now 0 = ts ∧
    ∀ f ∈ newer, Quiet api key f

/-- The expire time passed to the `AddCacheApi` that created the registration;
one that finds the pair registered changes nothing. -/
def registration (api : Api) : List Event → Option Int
  | [] => none
  | e :: older =>
    match e.call with
    | .addCacheApi descriptor apiCode expireTimeSec =>
      if (descriptor, apiCode) = api then some ((registration api older).getD expireTimeSec)
      else registration api older
    | .delCacheApi descriptor apiCode =>
      if (descriptor, apiCode) = api then none else registration api older
    | _ => registration api older

/-- The expire time as the constructor of the cache stores it. -/
def expireTime (expireTimeSec : Int) : Int := if expireTimeSec < 0 then 1000 else expireTimeSec

/-- A pair is registered as the log says, and its entries are in the log. -/
def SoundAt (api : Api) (log : List Event) : Option (ExpireLruCache.Cache Bytes Bytes) → Prop
  | none => registration api log = none
  | some cache =>
    (∃ expireTimeSec, registration api log = some expireTimeSec ∧
      cache.raw.expireTimeMilliSec = expireTime expireTimeSec) ∧
    ∀ key e, entryOf cache.raw key = some e → StoredBy api key e.value e.stamp log

theorem StoredBy.quiet {api : Api} {key value : Bytes} {ts : Int} {log : List Event}
    (stored : StoredBy api key value ts log) {e : Event} (quiet : Quiet api key e) :
    StoredBy api key value ts (e :: log) := by
  obtain ⟨newer, f, older, rfl, stores, time, others⟩ := stored
  refine ⟨e :: newer, f, older, rfl, stores, time, ?_⟩
  intro g member
  rcases List.mem_cons.mp member with rfl | member
  · exact quiet
  · exact others g member

theorem quiet_of_call {api : Api} {key : Bytes} {e : Event}
    (other : ∀ data reply, e.call ≠ .postSendRequest api.1 api.2 data reply)
    (keeps : clears api e.call = false) : Quiet api key e := by
  refine ⟨?_, keeps⟩
  rintro value ⟨data, reply, call, _⟩
  exact other data reply call

/-- The event leaves the entries alone and registers what the pair already has. -/
theorem SoundAt.keep {api : Api} {log : List Event}
    {cache cache' : ExpireLruCache.Cache Bytes Bytes} {e : Event}
    (sound : SoundAt api log (some cache))
    (registered : registration api (e :: log) = registration api log)
    (expire : cache'.raw.expireTimeMilliSec = cache.raw.expireTimeMilliSec)
    (entries : ∀ key x, entryOf cache'.raw key = some x →
      StoredBy api key x.value x.stamp (e :: log)) :
    SoundAt api (e :: log) (some cache') := by
  obtain ⟨⟨expireTimeSec, created, same⟩, _⟩ := sound
  exact ⟨⟨expireTimeSec, registered.trans created, expire.trans same⟩, entries⟩

/-- A call about another pair says nothing about this one. -/
theorem SoundAt.unconcerned {api : Api} {log : List Event}
    {cache : Option (ExpireLruCache.Cache Bytes Bytes)} (sound : SoundAt api log cache) {e : Event}
    (other : concerns api e.call = false) : SoundAt api (e :: log) cache := by
  have registered : registration api (e :: log) = registration api log := by
    obtain ⟨now, call, response⟩ := e
    cases call <;> simp_all [registration, concerns]
  have quiet : ∀ key, Quiet api key e := by
    intro key
    obtain ⟨now, call, response⟩ := e
    apply quiet_of_call
    · rintro data reply rfl
      simp [concerns] at other
    · cases call <;> simp_all [clears, concerns]
  cases cache with
  | none => exact registered.trans sound
  | some cache =>
    exact sound.keep registered rfl fun key x found => (sound.2 key x found).quiet (quiet key)

/-- `ClearCache` in one of its forms. -/
theorem SoundAt.cleared {api : Api} {log : List Event}
    {cache : Option (ExpireLruCache.Cache Bytes Bytes)} (sound : SoundAt api log cache) {e : Event}
    (registered : registration api (e :: log) = registration api log) :
    SoundAt api (e :: log) (cache.map clear) := by
  cases cache with
  | none => exact registered.trans sound
  | some cache =>
    refine sound.keep registered (exec_expireTimeMilliSec cache _ _) ?_
    intro key x found
    rw [clear, entryOf_clear] at found
    cases found

theorem SoundAt.added {descriptor : Descriptor} {apiCode : UInt32} {log : List Event}
    {cache : Option (ExpireLruCache.Cache Bytes Bytes)}
    (sound : SoundAt (descriptor, apiCode) log cache) (now : Nat → Int) (expireTimeSec : Int)
    (response : Response) :
    SoundAt (descriptor, apiCode) (⟨now, .addCacheApi descriptor apiCode expireTimeSec, response⟩ :: log)
      (effect now (.addCacheApi descriptor apiCode expireTimeSec) cache) := by
  cases cache with
  | none =>
    have fresh : registration (descriptor, apiCode) log = none := sound
    refine ⟨⟨expireTimeSec, by simp [registration, fresh], rfl⟩, ?_⟩
    intro key x found
    simp [entryOf, ExpireLruCache.Cache.new, ExpireLruCache.construct] at found
  | some cache =>
    obtain ⟨⟨created, registered, _⟩, entries⟩ := id sound
    refine sound.keep (by simp [registration, registered]) rfl ?_
    intro key x found
    exact (entries key x found).quiet (quiet_of_call (by simp) rfl)

theorem SoundAt.preSent {descriptor : Descriptor} {apiCode : UInt32} {log : List Event}
    {cache : Option (ExpireLruCache.Cache Bytes Bytes)}
    (sound : SoundAt (descriptor, apiCode) log cache) (now : Nat → Int)
    (data reply : MessageParcel) (response : Response) :
    SoundAt (descriptor, apiCode) (⟨now, .preSendRequest descriptor apiCode data reply, response⟩ :: log)
      (effect now (.preSendRequest descriptor apiCode data reply) cache) := by
  cases cache with
  | none => exact sound
  | some cache =>
    refine sound.keep rfl (exec_expireTimeMilliSec cache now _) ?_
    intro key x found
    exact (sound.2 key x (entryOf_get cache now data.data found)).quiet
      (quiet_of_call (by simp) rfl)

theorem SoundAt.postSent {descriptor : Descriptor} {apiCode : UInt32} {log : List Event}
    {cache : Option (ExpireLruCache.Cache Bytes Bytes)}
    (sound : SoundAt (descriptor, apiCode) log cache) (now : Nat → Int)
    (data reply : MessageParcel) :
    SoundAt (descriptor, apiCode)
      (⟨now, .postSendRequest descriptor apiCode data reply,
        .postSend (decide (data.offsetsSize = 0 ∧ reply.offsetsSize = 0) && cache.isSome)⟩ :: log)
      (effect now (.postSendRequest descriptor apiCode data reply) cache) := by
  cases cache with
  | none =>
    have nothing : effect now (.postSendRequest descriptor apiCode data reply) none = none := by
      simp [effect]
    rw [nothing]
    exact sound
  | some cache =>
    by_cases plain : data.offsetsSize = 0 ∧ reply.offsetsSize = 0
    · simp only [effect, plain, ne_eq, not_true_eq_false, or_self, if_false, Option.map_some]
      refine sound.keep rfl (exec_expireTimeMilliSec cache now _) ?_
      intro key x found
      rcases entryOf_add cache now data.data reply.data found with ⟨rfl, rfl⟩ | ⟨different, before⟩
      · exact ⟨[], _, log, rfl, ⟨data, reply, rfl, by simp, rfl, rfl, plain⟩, rfl, by simp⟩
      · refine (sound.2 key x before).quiet ⟨?_, rfl⟩
        rintro value ⟨data', reply', call, _, same, _⟩
        cases call
        exact different same.symm
    · have objects : data.offsetsSize ≠ 0 ∨ reply.offsetsSize ≠ 0 := by omega
      rw [effect, if_pos objects]
      refine sound.keep rfl rfl ?_
      intro key x found
      refine (sound.2 key x found).quiet ⟨?_, rfl⟩
      rintro value ⟨_, _, _, response, _⟩
      simp [plain] at response

/-- One call, for one pair. -/
theorem exec_soundAt (writeBuffer : WriteBuffer) (now : Nat → Int) {caches : Caches} (call : Call)
    {api : Api} {log : List Event} (sound : SoundAt api log (caches api)) :
    SoundAt api (⟨now, call, (exec writeBuffer now caches call).2⟩ :: log)
      ((exec writeBuffer now caches call).1 api) := by
  rw [exec_caches]
  cases about : concerns api call with
  | false => exact sound.unconcerned about
  | true =>
    rw [if_pos rfl]
    cases call with
    | addCacheApi descriptor apiCode expireTimeSec =>
      simp only [concerns, beq_iff_eq] at about
      subst about
      exact sound.added now expireTimeSec _
    | delCacheApi descriptor apiCode =>
      simp only [concerns, beq_iff_eq] at about
      subst about
      simp [SoundAt, effect, registration]
    | clearCache => exact sound.cleared rfl
    | clearDescriptor descriptor => exact sound.cleared rfl
    | clearApi descriptor apiCode => exact sound.cleared rfl
    | preSendRequest descriptor apiCode data reply =>
      simp only [concerns, beq_iff_eq] at about
      subst about
      exact sound.preSent now data reply _
    | postSendRequest descriptor apiCode data reply =>
      simp only [concerns, beq_iff_eq] at about
      subst about
      simp only [exec, postSendRequest_ret]
      exact sound.postSent now data reply

/-- What a hit rests on: a reply stored before for the same pair and bytes, the
latest one, not cleared since, not older than the registration allows, and
appended as it was. -/
def Justified (older : List Event) (e : Event) : Prop :=
  ∀ (descriptor : Descriptor) (apiCode : UInt32) (data reply reply' : MessageParcel),
    e.call = .preSendRequest descriptor apiCode data reply → e.response = .preSend true reply' →
    ∃ (newer : List Event) (f : Event) (past : List Event) (data' stored : MessageParcel)
      (expireTimeSec : Int),
      older = newer ++ f :: past ∧
      f.call = .postSendRequest descriptor apiCode data' stored ∧ f.response = .postSend true ∧
      data'.data = data.data ∧ data'.offsetsSize = 0 ∧ stored.offsetsSize = 0 ∧
      (∀ g ∈ newer, Quiet (descriptor, apiCode) data.data g) ∧
      registration (descriptor, apiCode) older = some expireTimeSec ∧
      (expireTimeSec = 0 ∨ e.now 0 - f.now 0 ≤ expireTime expireTimeSec) ∧
      reply'.data = reply.data ++ stored.data

theorem exec_justified (writeBuffer : WriteBuffer) (now : Nat → Int) {caches : Caches} (call : Call)
    {log : List Event} (sound : ∀ api, SoundAt api log (caches api)) :
    Justified log ⟨now, call, (exec writeBuffer now caches call).2⟩ := by
  intro descriptor apiCode data reply reply' isCall response
  dsimp only at isCall response
  subst isCall
  simp only [exec, Response.preSend.injEq] at response
  obtain ⟨hit, rfl⟩ := response
  obtain ⟨cache, valueVec, found, value, appended⟩ := preSendRequest_hit hit
  obtain ⟨ts, entry, fresh⟩ := get_hit cache now data.data value
  have here := sound (descriptor, apiCode)
  rw [found] at here
  obtain ⟨⟨expireTimeSec, created, expire⟩, entries⟩ := here
  obtain ⟨newer, f, past, split, stores, time, quiet⟩ := entries data.data _ entry
  obtain ⟨data', stored, isStore, returned, bytes, same, noData, noReply⟩ := stores
  refine ⟨newer, f, past, data', stored, expireTimeSec, split, isStore, returned, bytes, noData,
    noReply, quiet, created, ?_, ?_⟩
  · dsimp only at time
    simp only [ExpireLruCache.Expired, ExpireLruCache.isExpired, decide_eq_true_eq, expire] at fresh
    simp only [expireTime] at fresh ⊢
    split at fresh <;> omega
  · rw [appended, same]

structure Sound (s : State) : Prop where
  caches : ∀ api, SoundAt api s.log (s.caches api)
  hits : ∀ newer e older, s.log = newer ++ e :: older → Justified older e

theorem step_sound {writeBuffer : WriteBuffer} {s t : State} {timed : (Nat → Int) × Call}
    (sound : Sound s) (next : step writeBuffer s timed = some t) : Sound t := by
  obtain ⟨now, call⟩ := timed
  rw [← Option.some.inj next]
  constructor
  · intro api
    exact exec_soundAt writeBuffer now call (sound.caches api)
  · intro newer e older split
    cases newer with
    | nil =>
      obtain ⟨rfl, rfl⟩ := List.cons.inj split
      exact exec_justified writeBuffer now call sound.caches
    | cons f newer => exact sound.hits newer e older (List.cons.inj split).2

/-- Any run of the seven operations, any clock: whenever `PreSendRequest` returns
true there is an earlier `PostSendRequest` of the same pair and bytes that returned
true, the latest such, without objects in its parcels and not cleared since; it is
no older than the expire time of the registration, and its reply is what is appended. -/
theorem hit_justified (writeBuffer : WriteBuffer) (s : State)
    (reach : (machine writeBuffer).Reachable Free s) (newer : List Event) (e : Event)
    (older : List Event) (split : s.log = newer ++ e :: older) : Justified older e := by
  have sound : Sound s := by
    refine reach.invariant Sound ?_ ?_
    · constructor
      · intro api
        rfl
      · intro newer e older split
        simp [machine] at split
    · intro r timed t _ keep _ next
      exact step_sound keep next
  exact sound.hits newer e older split

def parcel (data : Bytes) : MessageParcel := ⟨data, 0, 100⟩

/-- A reply is stored, the pair is registered once more with a shorter time, and
another pair is cleared, before the same bytes are sent again. -/
def resent : List ((Nat → Int) × Call) :=
  [(fun _ => 0, .addCacheApi [1] 7 3000),
    (fun _ => 10, .postSendRequest [1] 7 (parcel [5]) (parcel [8, 9])),
    (fun _ => 20, .addCacheApi [1] 7 5), (fun _ => 30, .clearApi [1] (-1)),
    (fun _ => 3010, .preSendRequest [1] 7 (parcel [5]) (parcel [3]))]

def resentState : State :=
  ((machine fun _ _ => true).run Free (machine fun _ _ => true).init resent).get (by decide)

theorem hit_justified_resent :
    (resentState.log.head (by decide)).response = .preSend true (parcel [3, 8, 9]) ∧
    Justified resentState.log.tail (resentState.log.head (by decide)) := by
  refine ⟨by decide, ?_⟩
  have reach : (machine fun _ _ => true).Reachable Free resentState :=
    Machine.reachable_get resent (by decide)
  exact hit_justified (fun _ _ => true) resentState reach [] _ _
    (List.cons_head_tail (by decide)).symm

end CacheSoundness
