import Safwk.ListenerManager

/-!
# Listener calls one after another

Here a call runs to its end before the next one starts, with any answers of
samgr. `Does` lists every way a call can go; what is said about runs of calls
is derived from it.
-/

namespace ListenerCalls

open ListenerTable ListenerManager Transition

/-- A call with all the answers that samgr gives to it. -/
structure Label where
  call : Call
  samgrProxy : Option Bool
  reply : Reply
  deriving DecidableEq

def performAll (P : Process) (s : Int) (reply : Reply) : Manager → List Effect → Manager × Bool
  | m, [] => (m, true)
  | m, effect :: rest =>
    let done := perform P m s reply effect
    if done.2 then performAll P s reply done.1 rest else (done.1, false)

/-- A whole call and what it returns. -/
def doCall (P : Process) (m : Manager) (a : Label) : Manager × Bool :=
  let entered := enter P m a.samgrProxy a.call
  let done := performAll P a.call.about a.reply entered.manager entered.effects
  (done.1, entered.result && done.2)

def machine (P : Process) : Machine Manager Label where
  init := start
  step m a := some (doCall P m a).1

/-! ## What a call does -/

/-- The log entries of the notification loop. -/
def notices (P : Process) (s : Int) (code : Code) (listenerSaIdVec : List Int) : List Event :=
  (listenerSaIdVec.map fun l =>
    .notifyAbilityListener s l code (P.localAbilityMap l && decide (code ≠ .other))).reverse

theorem notices_cons (P : Process) (s : Int) (code : Code) (l : Int) (rest : List Int)
    (log : List Event) :
    notices P s code (l :: rest) ++ log = notices P s code rest ++
      (.notifyAbilityListener s l code (P.localAbilityMap l && decide (code ≠ .other)) :: log) := by
  simp [notices]

theorem mem_notices {P : Process} {s : Int} {code : Code} {listenerSaIdVec : List Int} {e : Event}
    (member : e ∈ notices P s code listenerSaIdVec) :
    ∃ l ∈ listenerSaIdVec, ∃ called, e = .notifyAbilityListener s l code called := by
  obtain ⟨l, inside, rfl⟩ := List.mem_map.mp (List.mem_reverse.mp member)
  exact ⟨l, inside, _, rfl⟩

theorem performAll_notifies (P : Process) (s : Int) (reply : Reply) (code : Code)
    (listenerSaIdVec : List Int) (m : Manager) :
    performAll P s reply m (listenerSaIdVec.map fun l => .notifyAbilityListener l code) =
      ({ m with log := notices P s code listenerSaIdVec ++ m.log }, true) := by
  induction listenerSaIdVec generalizing m with
  | nil => rfl
  | cons l rest ih =>
    simp only [List.map_cons, performAll, perform, if_true, ih, notices_cons]
    rfl

theorem performAll_single (P : Process) (s : Int) (reply : Reply) (m : Manager)
    (effect : Effect) : performAll P s reply m [effect] = perform P m s reply effect := by
  simp only [performAll]
  cases done : perform P m s reply effect with
  | mk m' fine => cases fine <;> rfl

theorem performAll_localListenerMap (P : Process) (s : Int) (reply : Reply) (m : Manager)
    (effects : List Effect) :
    (performAll P s reply m effects).1.localListenerMap = m.localListenerMap := by
  induction effects generalizing m with
  | nil => rfl
  | cons effect rest ih =>
    simp only [performAll]
    split
    · rw [ih, perform_localListenerMap]
    · exact perform_localListenerMap P m s reply effect

/-- Every way a call can go, with the manager it leaves and what it returns. -/
inductive Does (P : Process) (m : Manager) : Label → Manager → Bool → Prop
  | refused {a : Label} (no : accepts P a.samgrProxy a.call = false) : Does P m a m false
  | addedDirectly {s l : Int} {object : Bool} {reply : Reply}
      (yes : accepts P (some object) (.addSystemAbilityListener s l) = true)
      (long : 1 < sizeAfterAdd m.localListenerMap s l) :
      Does P m ⟨.addSystemAbilityListener s l, some object, reply⟩
        { (enterAdd m s l object).manager with
          log := notices P s .onAddSystemAbility
              (if needNotify m.localListenerMap s object then [l] else []) ++
            (enterAdd m s l object).manager.log } true
  | addedSubscribed {s l : Int} {object : Bool} {reply : Reply}
      (yes : accepts P (some object) (.addSystemAbilityListener s l) = true)
      (short : ¬ 1 < sizeAfterAdd m.localListenerMap s l) :
      Does P m ⟨.addSystemAbilityListener s l, some object, reply⟩
        (samgrDone (enterAdd m s l object).manager s true) true
  | addedFailed {s l : Int} {object : Bool} {reply : Reply}
      (yes : accepts P (some object) (.addSystemAbilityListener s l) = true)
      (short : ¬ 1 < sizeAfterAdd m.localListenerMap s l) :
      Does P m ⟨.addSystemAbilityListener s l, some object, reply⟩
        (enterAdd m s l object).manager false
  | removedKept {s l : Int} {samgrProxy : Option Bool} {reply : Reply}
      (yes : accepts P samgrProxy (.removeSystemAbilityListener s l) = true)
      (kept : (removeSection m.localListenerMap s l).erased = false) :
      Does P m ⟨.removeSystemAbilityListener s l, samgrProxy, reply⟩
        (enterRemove m s l).manager true
  | removedUnsubscribed {s l : Int} {samgrProxy : Option Bool} {reply : Reply}
      (yes : accepts P samgrProxy (.removeSystemAbilityListener s l) = true)
      (erased : (removeSection m.localListenerMap s l).erased = true) :
      Does P m ⟨.removeSystemAbilityListener s l, samgrProxy, reply⟩
        (samgrDone (enterRemove m s l).manager s false) true
  | removedFailed {s l : Int} {samgrProxy : Option Bool} {reply : Reply}
      (yes : accepts P samgrProxy (.removeSystemAbilityListener s l) = true)
      (erased : (removeSection m.localListenerMap s l).erased = true) :
      Does P m ⟨.removeSystemAbilityListener s l, samgrProxy, reply⟩
        (enterRemove m s l).manager false
  | found {s : Int} {code : Code} {samgrProxy : Option Bool} {reply : Reply} :
      Does P m ⟨.findAndNotifyAbilityListeners s code, samgrProxy, reply⟩
        { (findAndNotifyAbilityListeners m s code).manager with
          log := notices P s code (findSection m.localListenerMap s code).2 ++
            (findAndNotifyAbilityListeners m s code).manager.log } true

theorem does_add (P : Process) (m : Manager) (s l : Int) (object : Bool) (reply : Reply)
    (yes : accepts P (some object) (.addSystemAbilityListener s l) = true)
    (entered : enter P m (some object) (.addSystemAbilityListener s l) = enterAdd m s l object) :
    Does P m ⟨.addSystemAbilityListener s l, some object, reply⟩
      (doCall P m ⟨.addSystemAbilityListener s l, some object, reply⟩).1
      (doCall P m ⟨.addSystemAbilityListener s l, some object, reply⟩).2 := by
  simp only [doCall, entered, enterAdd_effects, Call.about]
  by_cases long : 1 < sizeAfterAdd m.localListenerMap s l
  · rw [if_pos long, performAll_notifies]
    exact .addedDirectly yes long
  · rw [if_neg long, performAll_single]
    by_cases failed : reply.ret ≠ 0
    · simp only [perform, if_pos failed]
      exact .addedFailed yes long
    · simp only [perform, if_neg failed]
      exact .addedSubscribed yes long

theorem does_remove (P : Process) (m : Manager) (s l : Int) (samgrProxy : Option Bool)
    (reply : Reply) (yes : accepts P samgrProxy (.removeSystemAbilityListener s l) = true)
    (entered : enter P m samgrProxy (.removeSystemAbilityListener s l) = enterRemove m s l) :
    Does P m ⟨.removeSystemAbilityListener s l, samgrProxy, reply⟩
      (doCall P m ⟨.removeSystemAbilityListener s l, samgrProxy, reply⟩).1
      (doCall P m ⟨.removeSystemAbilityListener s l, samgrProxy, reply⟩).2 := by
  simp only [doCall, entered, enterRemove_effects, Call.about]
  cases erased : (removeSection m.localListenerMap s l).erased with
  | false => exact .removedKept yes erased
  | true =>
    rw [if_pos rfl, performAll_single]
    by_cases absent : (!reply.samgrProxy) = true
    · simp only [perform, if_pos absent]
      exact .removedFailed yes erased
    · by_cases failed : reply.ret ≠ 0
      · simp only [perform, if_neg absent, if_pos failed]
        exact .removedFailed yes erased
      · simp only [perform, if_neg absent, if_neg failed]
        exact .removedUnsubscribed yes erased

theorem does (P : Process) (m : Manager) (a : Label) :
    Does P m a (doCall P m a).1 (doCall P m a).2 := by
  obtain ⟨call, samgrProxy, reply⟩ := a
  rcases enter_cases P m samgrProxy call with ⟨no, entered⟩ |
    ⟨yes, ⟨s, l, object, rfl, rfl, entered⟩ | ⟨s, l, rfl, entered⟩ | ⟨s, code, rfl, entered⟩⟩
  · simp only [doCall, entered]
    exact .refused no
  · exact does_add P m s l object reply yes entered
  · exact does_remove P m s l samgrProxy reply yes entered
  · simp only [doCall, entered, findAndNotify_effects, Call.about, performAll_notifies]
    exact .found

theorem reachable_tableOk {P : Process} {ok : Manager → Label → Prop} {m : Manager}
    (reach : (machine P).Reachable ok m) : TableOk m.localListenerMap := by
  refine reach.invariant (fun m => TableOk m.localListenerMap) start_tableOk ?_
  intro m a m' _ table _ next
  obtain rfl : (doCall P m a).1 = m' := Option.some.inj next
  simp only [doCall, performAll_localListenerMap]
  exact enter_tableOk P m a.samgrProxy a.call table

end ListenerCalls
