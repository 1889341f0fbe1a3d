import Mathlib.Algebra.Order.Group.Multiset
import Mathlib.Tactic.Abel
import QtZeroConf.Android.Delivery

open reactive

namespace qtzeroconf.android

variable (id : Manager → Int64)

/-- The service that an output reports as resolved. -/
def Output.resolved? : Output → Option (Option ServiceRef)
  | .resolveService _ _ => none
  | .onServiceResolvedJNI service _ _ _ _ _ _ _ => some service

/-- The service that an event gives up: it fails with another error than that the
    system was busy. -/
def givenUp (s : NsdResolver) : Event → List (Option ServiceRef)
  | .onResolveFailed call errorCode =>
    if errorCode = FAILURE_ALREADY_ACTIVE then [] else (s.outstanding[call]?.map fun c => c.service).toList
  | _ => []

/-- What an event finds. -/
def Event.found? : Event → Option FoundService
  | .onServiceFound this info => some { finder := this, info }
  | _ => none

/-- The books of the queue: what was found waits, is being resolved, was reported
    as resolved or was given up. -/
def Accounted (s : NsdResolver) (resolved failed : List (Option ServiceRef)) : Prop :=
  (↑((List.range s.found.length).map some) : Multiset (Option ServiceRef)) =
    ↑s.resolverQueue + ↑(s.pendingResolve.toList.map some) + ↑resolved + ↑failed

/-- The queue between two callbacks. -/
structure QueueAccounted (id : Manager → Int64) (events : List Event) : Prop where
  single : (reached id events).outstanding.length ≤ 1
  pending : ∀ ref, (reached id events).pendingResolve = some ref ↔
    ∃ c ∈ (reached id events).outstanding, c.service = some ref
  resolving : ∀ c ∈ (reached id events).outstanding, c.service = (reached id events).pendingResolve ∧ c.service ≠ none
  idle : (reached id events).pendingResolve = none → (reached id events).resolverQueue = []
  found : (reached id events).found = events.filterMap Event.found?
  accounted : Accounted (reached id events) ((trace (step id) {} events).filterMap Output.resolved?)
    (noted (step id) givenUp {} events)

/-- The call that is answered is the one for the pending service. -/
theorem Consistent.pending_answered {s : NsdResolver} (hs : Consistent s) {call : Nat} {c : ResolveCall}
    (h : s.outstanding[call]? = some c) : s.pendingResolve.toList.map some = [c.service] := by
  rw [← hs.outstanding]
  obtain ⟨hrest, -⟩ := hs.answered h
  have hmem := List.mem_of_getElem? h
  cases houtstanding : s.outstanding with
  | nil => simp [houtstanding] at hmem
  | cons first rest =>
    rw [houtstanding] at h hrest
    cases call with
    | zero =>
      have hempty : rest = [] := hrest
      cases h
      rw [hempty]
      rfl
    | succ call => cases hrest

/-- Taking the first service of a queue loses none of it. -/
theorem taken_add_tail {queue : List (Option ServiceRef)} (hqueue : ∀ service ∈ queue, service ≠ none) :
    (↑queue.tail : Multiset (Option ServiceRef)) + ↑(queue.head?.join.toList.map some) = ↑queue := by
  cases queue with
  | nil => rfl
  | cons service rest =>
    obtain ⟨ref, rfl⟩ := Option.ne_none_iff_exists'.mp (hqueue service List.mem_cons_self)
    exact Multiset.coe_eq_coe.mpr (List.perm_append_singleton (some ref) rest)

theorem resolved_onlyStarts {a : Action NsdResolver Output} (ha : OnlyStarts a) (s : NsdResolver) :
    (a s).2.filterMap Output.resolved? = [] := by
  rw [List.filterMap_eq_nil_iff]
  intro o ho
  obtain ⟨listener, service, rfl⟩ := (ha s).2 o ho
  rfl

/-- The service of a call that is answered waits again, was reported as resolved,
    or was given up. -/
theorem answered_kept {s : NsdResolver} (hs : Consistent s) {e : Event} {call : Nat}
    {queue : List (Option ServiceRef)} (h : answers s e = some (call, queue)) {c : ResolveCall}
    (hc : s.outstanding[call]? = some c) :
    (↑s.resolverQueue + ↑(s.pendingResolve.toList.map some) : Multiset (Option ServiceRef)) =
      ↑queue + ↑((step id s e).2.filterMap Output.resolved?) + ↑(givenUp s e) := by
  rw [hs.pending_answered hc]
  obtain ⟨-, hpending⟩ := hs.answered hc
  cases e with
  | onServiceFound this info => cases h
  | onResolveFailed call' errorCode =>
    cases h
    have hsilent : (step id s (.onResolveFailed call errorCode)).2.filterMap Output.resolved? = [] := by
      simp only [step, answer, hc]
      exact resolved_onlyStarts (onlyStarts_failed c.listener errorCode) _
    have hservice : s.pendingResolve = c.service := by
      have hsingle := hs.pending_answered hc
      obtain ⟨ref, href⟩ := Option.isSome_iff_exists.mp hpending
      rw [href] at hsingle ⊢
      exact List.singleton_inj.mp hsingle
    rw [hsilent, requeued, givenUp, hservice, hc]
    split <;> simp [← Multiset.coe_add]
  | onServiceResolved call' serviceInfo host =>
    cases h
    have hreported : (step id s (.onServiceResolved call serviceInfo host)).2.filterMap Output.resolved? =
        [c.service] := by
      simp only [step, answer, hc, onServiceResolved, Action.andThen_snd, Action.emit_apply,
        List.filterMap_append]
      rw [resolved_onlyStarts (onlyStarts_resolveNext c.listener)]
      rfl
    have hnothing : givenUp s (.onServiceResolved call serviceInfo host) = [] := rfl
    rw [hreported, hnothing]
    simp

theorem accounted_step {s : NsdResolver} (hs : Consistent s) {resolved failed : List (Option ServiceRef)}
    (h : Accounted s resolved failed) (e : Event) :
    Accounted (step id s e).1 (resolved ++ (step id s e).2.filterMap Output.resolved?) (failed ++ givenUp s e) := by
  unfold Accounted at h ⊢
  cases hanswers : answers s e with
  | none =>
    cases e with
    | onServiceFound this info =>
      have hsilent : (step id s (.onServiceFound this info)).2.filterMap Output.resolved? = [] :=
        resolved_onlyStarts (onlyStarts_enqueue this _) _
      have hnothing : givenUp s (.onServiceFound this info) = [] := rfl
      rw [hsilent, hnothing, step, onServiceFound_spec hs]
      cases hpending : s.pendingResolve with
      | some ref =>
        simp only [hpending] at h
        simp only [Option.isSome_some, if_true, List.length_append, List.length_singleton, List.range_succ,
          List.map_append, List.map_singleton, List.append_nil, ← Multiset.coe_add, h]
        abel
      | none =>
        simp only [hpending] at h
        simp only [Option.isSome_none, Bool.false_eq_true, if_false, hs.idle hpending, List.length_append,
          List.length_singleton, List.range_succ, List.map_append, List.map_singleton, List.append_nil,
          ← Multiset.coe_add, h, Option.toList, List.map_nil]
        abel
    | onResolveFailed call errorCode => cases hanswers
    | onServiceResolved call serviceInfo host => cases hanswers
  | some next =>
    obtain ⟨call, queue⟩ := next
    cases hc : s.outstanding[call]? with
    | none =>
      have hnothing : givenUp s e = [] := by
        cases e <;> cases hanswers <;> simp [givenUp, hc]
      rw [step_unanswered hanswers hc, hnothing]
      simpa using h
    | some c =>
      have hkept := answered_kept id hs hanswers hc
      have htaken := taken_add_tail (queued_of_answers hs hanswers hc)
      rw [step_answer hs hanswers hc]
      simp only [h, hkept, ← htaken, ← Multiset.coe_add]
      abel

theorem found_snoc (s : NsdResolver) (hs : Consistent s) (e : Event) :
    (step id s e).1.found = s.found ++ e.found?.toList := by
  cases hanswers : answers s e with
  | none =>
    cases e with
    | onServiceFound this info =>
      rw [step, onServiceFound_spec hs]
      split <;> rfl
    | onResolveFailed call errorCode => cases hanswers
    | onServiceResolved call serviceInfo host => cases hanswers
  | some next =>
    obtain ⟨call, queue⟩ := next
    have hnothing : e.found? = none := by cases e <;> first | rfl | cases hanswers
    rw [hnothing, Option.toList_none, List.append_nil]
    cases hc : s.outstanding[call]? with
    | none => rw [step_unanswered hanswers hc]
    | some c => rw [step_answer hs hanswers hc]

theorem found_reached (events : List Event) :
    (reached id events).found = events.filterMap Event.found? := by
  induction events using List.reverseRecOn with
  | nil => rfl
  | append_singleton events e ih =>
    have hstep := found_snoc id _ (consistent_reached id events) e
    rw [ih] at hstep
    rw [reached, after_append, List.filterMap_append]
    cases hfound : e.found? <;> simpa [reached, List.filterMap_cons, hfound] using hstep

theorem accounted_reached (events : List Event) :
    Accounted (reached id events) ((trace (step id) {} events).filterMap Output.resolved?)
      (noted (step id) givenUp {} events) := by
  induction events using List.reverseRecOn with
  | nil => rfl
  | append_singleton events e ih =>
    have hstep := accounted_step id (consistent_reached id events) ih e
    rw [reached, after_append, trace_append, noted_append, List.filterMap_append]
    simpa [noted, reached] using hstep

/-- The queue that all managers share loses nothing and duplicates nothing, in any
    order of the callbacks. -/
theorem queue_accounted (events : List Event) : QueueAccounted id events := by
  have hs := consistent_reached id events
  refine ⟨?_, fun ref => ?_, fun c hc => ?_, hs.idle, found_reached id events, accounted_reached id events⟩
  · have hlength := congrArg List.length hs.outstanding
    rw [List.length_map, List.length_map] at hlength
    rw [hlength]
    cases (reached id events).pendingResolve <;> simp
  · have hmem : some ref ∈ (reached id events).outstanding.map (fun c => c.service) ↔
        (reached id events).pendingResolve = some ref := by
      rw [hs.outstanding]
      simp [eq_comm]
    rw [← hmem, List.mem_map]
  · have hmem : c.service ∈ (reached id events).pendingResolve.toList.map some := by
      rw [← hs.outstanding]
      exact List.mem_map_of_mem hc
    obtain ⟨ref, href, hservice⟩ := List.mem_map.mp hmem
    rw [← hservice]
    exact ⟨(Option.mem_toList.mp href).symm, Option.some_ne_none _⟩

end qtzeroconf.android
