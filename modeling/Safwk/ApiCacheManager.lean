import Mathlib.Logic.Function.Basic
import Safwk.CacheEntries

/-!
# Caches of remote calls

`ApiCacheManager` keeps one `ExpireLruCache` for each registered pair of an
interface descriptor and an API code. A proxy asks `PreSendRequest` for a cached
reply to the bytes it is about to send, and hands the reply of a real call to
`PostSendRequest`. Every operation runs under `cachesMutex_`.

`MessageParcel` belongs to the IPC library. Of a parcel its bytes, the size of its
object offsets and its capacity are read; `writeBuffer` decides whether
`WriteBuffer` succeeds, in which case it appends exactly the given bytes.
`AddCacheApi` stores no null pointer, so the tests for one are left out.
-/

namespace ApiCacheManager

open ExpireLruCache

abbrev Bytes := List UInt8

/-- A `std::u16string`. -/
abbrev Descriptor := List UInt16

abbrev Api := Descriptor × UInt32

abbrev Caches := Api → Option (Cache Bytes Bytes)

structure MessageParcel where
  data : Bytes
  offsetsSize : Nat
  maxCapacity : Nat
  deriving DecidableEq

/-- Whether `WriteBuffer` succeeds on the parcel with these bytes. -/
abbrev WriteBuffer := MessageParcel → Bytes → Bool

/-- `defaultCacheSize` -/
def defaultCacheSize : Nat := 8

/-- `ExpireLruCache::Clear`, which does not look at the clock. -/
def clear (cache : Cache Bytes Bytes) : Cache Bytes Bytes := (cache.exec (fun _ => 0) .clear).1

def addCacheApi (caches : Caches) (descriptor : Descriptor) (apiCode : UInt32)
    (expireTimeSec : Int) : Caches :=
  match caches (descriptor, apiCode) with
  | none =>
    let obj := Cache.new Bytes Bytes defaultCacheSize expireTimeSec
    Function.update caches (descriptor, apiCode) (some obj)
  | some _ => caches

def delCacheApi (caches : Caches) (descriptor : Descriptor) (apiCode : UInt32) : Caches :=
  match caches (descriptor, apiCode) with
  | none => caches
  | some _ => Function.update caches (descriptor, apiCode) none

/-- `ClearCache()` -/
def clearCache (caches : Caches) : Caches := fun api => (caches api).map clear

/-- `ClearCache(descriptor)` -/
def clearDescriptor (caches : Caches) (descriptor : Descriptor) : Caches := fun api =>
  if api.1 = descriptor then (caches api).map clear else caches api

/-- `ClearCache(descriptor, apiCode)`, whose signed code is converted to the
unsigned one of the key. -/
def clearApi (caches : Caches) (descriptor : Descriptor) (apiCode : Int32) : Caches :=
  match caches (descriptor, apiCode.toUInt32) with
  | none => caches
  | some cache => Function.update caches (descriptor, apiCode.toUInt32) (some (clear cache))

/-- `SetMaxCapacity`, called only to make room for the cached bytes. -/
def ensureCapacity (reply : MessageParcel) (size : Nat) : MessageParcel :=
  if reply.maxCapacity < size then { reply with maxCapacity := size } else reply

@[simp] theorem ensureCapacity_data (reply : MessageParcel) (size : Nat) :
    (ensureCapacity reply size).data = reply.data := by
  rw [ensureCapacity]
  split <;> rfl

/-- The answer with the reply parcel after it. -/
def preSendRequest (writeBuffer : WriteBuffer) (now : Nat → Int) (caches : Caches)
    (descriptor : Descriptor) (apiCode : UInt32) (data reply : MessageParcel) :
    Caches × Bool × MessageParcel :=
  match caches (descriptor, apiCode) with
  | none => (caches, false, reply)
  | some cache =>
    let (cache, value) := cache.exec now (.get data.data)
    let caches := Function.update caches (descriptor, apiCode) (some cache)
    match value with
    | none => (caches, false, reply)
    | some valueVec =>
      let reply := ensureCapacity reply (reply.data.length + valueVec.length)
      if writeBuffer reply valueVec then
        (caches, true, { reply with data := reply.data ++ valueVec })
      else (caches, false, reply)

def postSendRequest (now : Nat → Int) (caches : Caches) (descriptor : Descriptor)
    (apiCode : UInt32) (data reply : MessageParcel) : Caches × Bool :=
  if data.offsetsSize ≠ 0 ∨ reply.offsetsSize ≠ 0 then (caches, false)
  else
    match caches (descriptor, apiCode) with
    | none => (caches, false)
    | some cache =>
      let cache := (cache.exec now (.add data.data reply.data)).1
      (Function.update caches (descriptor, apiCode) (some cache), true)

inductive Call where
  | addCacheApi (descriptor : Descriptor) (apiCode : UInt32) (expireTimeSec : Int)
  | delCacheApi (descriptor : Descriptor) (apiCode : UInt32)
  | clearCache
  | clearDescriptor (descriptor : Descriptor)
  | clearApi (descriptor : Descriptor) (apiCode : Int32)
  | preSendRequest (descriptor : Descriptor) (apiCode : UInt32) (data reply : MessageParcel)
  | postSendRequest (descriptor : Descriptor) (apiCode : UInt32) (data reply : MessageParcel)
  deriving DecidableEq

/-- What a call returns, with the reply parcel that `PreSendRequest` wrote to. -/
inductive Response where
  | void
  | preSend (ret : Bool) (reply : MessageParcel)
  | postSend (ret : Bool)
  deriving DecidableEq

def exec (writeBuffer : WriteBuffer) (now : Nat → Int) (caches : Caches) :
    Call → Caches × Response
  | .addCacheApi descriptor apiCode expireTimeSec =>
    (addCacheApi caches descriptor apiCode expireTimeSec, .void)
  | .delCacheApi descriptor apiCode => (delCacheApi caches descriptor apiCode, .void)
  | .clearCache => (clearCache caches, .void)
  | .clearDescriptor descriptor => (clearDescriptor caches descriptor, .void)
  | .clearApi descriptor apiCode => (clearApi caches descriptor apiCode, .void)
  | .preSendRequest descriptor apiCode data reply =>
    let (caches, ret, reply) :=
      preSendRequest writeBuffer now caches descriptor apiCode data reply
    (caches, .preSend ret reply)
  | .postSendRequest descriptor apiCode data reply =>
    let (caches, ret) := postSendRequest now caches descriptor apiCode data reply
    (caches, .postSend ret)

/-! ## One pair at a time -/

/-- The call is about this pair. -/
def concerns (api : Api) : Call → Bool
  | .addCacheApi descriptor apiCode _ => (descriptor, apiCode) == api
  | .delCacheApi descriptor apiCode => (descriptor, apiCode) == api
  | .clearCache => true
  | .clearDescriptor descriptor => api.1 == descriptor
  | .clearApi descriptor apiCode => (descriptor, apiCode.toUInt32) == api
  | .preSendRequest descriptor apiCode _ _ => (descriptor, apiCode) == api
  | .postSendRequest descriptor apiCode _ _ => (descriptor, apiCode) == api

/-- What a call about a pair does to the cache of that pair. -/
def effect (now : Nat → Int) : Call → Option (Cache Bytes Bytes) → Option (Cache Bytes Bytes)
  | .addCacheApi _ _ expireTimeSec, none =>
    some (Cache.new Bytes Bytes defaultCacheSize expireTimeSec)
  | .addCacheApi _ _ _, some cache => some cache
  | .delCacheApi _ _, _ => none
  | .clearCache, cache => cache.map clear
  | .clearDescriptor _, cache => cache.map clear
  | .clearApi _ _, cache => cache.map clear
  | .preSendRequest _ _ data _, cache => cache.map fun cache => (cache.exec now (.get data.data)).1
  | .postSendRequest _ _ data reply, cache =>
    if data.offsetsSize ≠ 0 ∨ reply.offsetsSize ≠ 0 then cache
    else cache.map fun cache => (cache.exec now (.add data.data reply.data)).1

section Effect

variable (writeBuffer : WriteBuffer) (now : Nat → Int) (caches : Caches)

theorem preSendRequest_caches (descriptor : Descriptor) (apiCode : UInt32)
    (data reply : MessageParcel) :
    (preSendRequest writeBuffer now caches descriptor apiCode data reply).1 =
      match caches (descriptor, apiCode) with
      | none => caches
      | some cache =>
        Function.update caches (descriptor, apiCode) (some (cache.exec now (.get data.data)).1) := by
  rw [preSendRequest]
  split
  · rfl
  · dsimp only
    split
    · rfl
    · split <;> rfl

/-- Every operation changes the caches pair by pair: the pairs it is about by
`effect`, the others not at all. -/
theorem exec_caches (call : Call) (api : Api) :
    (exec writeBuffer now caches call).1 api =
      if concerns api call then effect now call (caches api) else caches api := by
  have updated : ∀ (key : Api) (cache : Option (Cache Bytes Bytes)),
      Function.update caches key cache api = if (key == api) = true then cache else caches api := by
    intro key cache
    by_cases same : key = api
    · subst same
      simp
    · simp [same, Function.update_of_ne (Ne.symm same)]
  cases call with
  | addCacheApi descriptor apiCode expireTimeSec =>
    simp only [exec, addCacheApi, concerns]
    by_cases same : (descriptor, apiCode) = api
    · subst same
      cases found : caches (descriptor, apiCode) <;> simp [effect, found]
    · cases found : caches (descriptor, apiCode) <;> simp [same, updated]
  | delCacheApi descriptor apiCode =>
    simp only [exec, delCacheApi, concerns]
    by_cases same : (descriptor, apiCode) = api
    · subst same
      cases found : caches (descriptor, apiCode) <;> simp [effect, found]
    · cases found : caches (descriptor, apiCode) <;> simp [same, updated]
  | clearCache => simp [exec, clearCache, concerns, effect]
  | clearDescriptor descriptor => simp [exec, clearDescriptor, concerns, effect]
  | clearApi descriptor apiCode =>
    simp only [exec, clearApi, concerns]
    by_cases same : (descriptor, apiCode.toUInt32) = api
    · subst same
      cases found : caches (descriptor, apiCode.toUInt32) <;> simp [effect, found]
    · cases found : caches (descriptor, apiCode.toUInt32) <;> simp [same, updated]
  | preSendRequest descriptor apiCode data reply =>
    simp only [exec, preSendRequest_caches, concerns]
    by_cases same : (descriptor, apiCode) = api
    · subst same
      cases found : caches (descriptor, apiCode) <;> simp [effect, found]
    · cases found : caches (descriptor, apiCode) <;> simp [same, updated]
  | postSendRequest descriptor apiCode data reply =>
    simp only [exec, postSendRequest, concerns]
    by_cases objects : data.offsetsSize ≠ 0 ∨ reply.offsetsSize ≠ 0
    · simp [objects, effect]
    · by_cases same : (descriptor, apiCode) = api
      · subst same
        cases found : caches (descriptor, apiCode) <;> simp [objects, effect, found]
      · cases found : caches (descriptor, apiCode) <;> simp [objects, same, updated]

variable {writeBuffer now caches}

/-- A hit appends a value that the cache of the pair returns for these bytes. -/
theorem preSendRequest_hit {descriptor : Descriptor} {apiCode : UInt32}
    {data reply : MessageParcel}
    (hit : (preSendRequest writeBuffer now caches descriptor apiCode data reply).2.1 = true) :
    ∃ cache valueVec, caches (descriptor, apiCode) = some cache ∧
      (cache.exec now (.get data.data)).2 = some valueVec ∧
      (preSendRequest writeBuffer now caches descriptor apiCode data reply).2.2.data =
        reply.data ++ valueVec := by
  rw [preSendRequest] at hit ⊢
  split at hit
  · cases hit
  · rename_i cache found
    dsimp only at hit ⊢
    split at hit
    · cases hit
    · rename_i valueVec value
      split at hit
      · rename_i written
        refine ⟨cache, valueVec, found, value, ?_⟩
        rw [if_pos written, ensureCapacity_data]
      · cases hit

variable (now caches)

/-- A reply is stored if neither parcel carries objects and the pair is registered. -/
theorem postSendRequest_ret (descriptor : Descriptor) (apiCode : UInt32)
    (data reply : MessageParcel) :
    (postSendRequest now caches descriptor apiCode data reply).2 =
      (decide (data.offsetsSize = 0 ∧ reply.offsetsSize = 0) &&
        (caches (descriptor, apiCode)).isSome) := by
  rw [postSendRequest]
  split
  · rename_i objects
    have some : ¬ (data.offsetsSize = 0 ∧ reply.offsetsSize = 0) := by omega
    simp [some]
  · rename_i objects
    have none : data.offsetsSize = 0 ∧ reply.offsetsSize = 0 := by omega
    split
    · rename_i missing
      simp [missing]
    · rename_i cache found
      simp [none, found]

end Effect

end ApiCacheManager
