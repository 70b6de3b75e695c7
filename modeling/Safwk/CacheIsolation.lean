import Safwk.ApiCacheManager

/-!
# Cached APIs do not interfere

A call changes the cache of a pair only if it is about that pair, and what it
answers depends on that cache alone. Leaving out all calls about other pairs
therefore changes no answer about this one.
-/

namespace CacheIsolation

open ApiCacheManager

/-- A call with the clock readings it makes. -/
abbrev Timed := (Nat → Int) × Call

/-- A run with the response of each call. -/
def run (writeBuffer : WriteBuffer) : Caches → List Timed → List (Timed × Response)
  | _, [] => []
  | caches, (now, call) :: rest =>
    ((now, call), (exec writeBuffer now caches call).2) ::
      run writeBuffer (exec writeBuffer now caches call).1 rest

/-- The response depends on the cache of the pair alone. -/
theorem exec_response (writeBuffer : WriteBuffer) (now : Nat → Int) {caches caches' : Caches}
    {api : Api} (same : caches api = caches' api) {call : Call}
    (about : concerns api call = true) :
    (exec writeBuffer now caches call).2 = (exec writeBuffer now caches' call).2 := by
  cases call with
  | addCacheApi | delCacheApi | clearCache | clearDescriptor | clearApi => rfl
  | preSendRequest descriptor apiCode data reply =>
    simp only [concerns, beq_iff_eq] at about
    subst about
    simp only [exec, preSendRequest, same]
    cases caches' (descriptor, apiCode) with
    | none => rfl
    | some cache =>
      dsimp only
      cases (cache.exec now (.get data.data)).2 with
      | none => rfl
      | some valueVec =>
        dsimp only
        split <;> rfl
  | postSendRequest descriptor apiCode data reply =>
    simp only [concerns, beq_iff_eq] at about
    subst about
    simp only [exec, postSendRequest_ret, same]

theorem run_isolated_from (writeBuffer : WriteBuffer) (api : Api) (calls : List Timed)
    {caches caches' : Caches} (same : caches api = caches' api) :
    (run writeBuffer caches calls).filter (fun answered => concerns api answered.1.2) =
      run writeBuffer caches' (calls.filter fun timed => concerns api timed.2) := by
  induction calls generalizing caches caches' with
  | nil => rfl
  | cons timed rest ih =>
    obtain ⟨now, call⟩ := timed
    have after := exec_caches writeBuffer now caches call api
    cases about : concerns api call with
    | true =>
      have after' := exec_caches writeBuffer now caches' call api
      rw [about, if_pos rfl] at after after'
      have next : (exec writeBuffer now caches call).1 api =
          (exec writeBuffer now caches' call).1 api := by
        rw [after, after', same]
      simp only [List.filter_cons, about, if_true, run, ih next,
        exec_response writeBuffer now same about]
    | false =>
      rw [about] at after
      have next : (exec writeBuffer now caches call).1 api = caches' api := by
        rw [← same, after]
        rfl
      simp only [List.filter_cons, about, Bool.false_eq_true, if_false, run, ih next]

/-- Every run and every pair: the calls about the pair, with their clock readings,
are answered in the same way when all other calls are left out. -/
theorem run_isolated (writeBuffer : WriteBuffer) (api : Api) (calls : List Timed) :
    (run writeBuffer (fun _ => none) calls).filter (fun answered => concerns api answered.1.2) =
      run writeBuffer (fun _ => none) (calls.filter fun timed => concerns api timed.2) :=
  run_isolated_from writeBuffer api calls rfl

end CacheIsolation
