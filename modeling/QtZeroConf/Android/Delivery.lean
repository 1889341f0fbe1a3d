import QtZeroConf.Android.ResolverQueue

open reactive

namespace qtzeroconf.android

/-- The queue and the system agree: the only call that can be outstanding is the
    one for the pending service, and services wait only behind one. -/
structure Consistent (s : NsdResolver) : Prop where
  outstanding : (s.outstanding.map fun c => c.service) = s.pendingResolve.toList.map some
  idle : s.pendingResolve = none → s.resolverQueue = []
  queued : ∀ service ∈ s.resolverQueue, service ≠ none

theorem Consistent.answered {s : NsdResolver} (hs : Consistent s) {call : Nat} {c : ResolveCall}
    (h : s.outstanding[call]? = some c) :
    s.outstanding.eraseIdx call = [] ∧ s.pendingResolve.isSome := by
  have houtstanding := hs.outstanding
  cases hpending : s.pendingResolve with
  | none =>
    rw [hpending] at houtstanding
    have hempty : s.outstanding = [] := List.map_eq_nil_iff.mp houtstanding
    rw [hempty] at h
    cases h
  | some ref =>
    rw [hpending] at houtstanding
    obtain ⟨c', hsingle, -⟩ := List.map_eq_singleton_iff.mp houtstanding
    rw [hsingle] at h ⊢
    cases call with
    | zero => exact ⟨rfl, rfl⟩
    | succ call => cases h

/-- What waits when a resolve fails: a service that the system was busy for
    queues again. -/
def requeued (errorCode : Int32) (s : NsdResolver) : List (Option ServiceRef) :=
  if errorCode = FAILURE_ALREADY_ACTIVE then s.resolverQueue ++ [s.pendingResolve] else s.resolverQueue

/-- The call that a manager makes for the first service of a queue. -/
def firstCall (this : Manager) (queue : List (Option ServiceRef)) : List ResolveCall :=
  (queue.head?.map fun service => { listener := this, service }).toList

/-- What the end of a resolve callback does: the first service that waits, if
    any, is started on the manager that was called back. -/
theorem resolveNext_spec (this : Manager) (s : NsdResolver) :
    (resolveNext this s).1 = { s with
      pendingResolve := s.resolverQueue.head?.join
      resolverQueue := s.resolverQueue.tail
      outstanding := s.outstanding ++ firstCall this s.resolverQueue } := by
  cases hqueue : s.resolverQueue with
  | nil => simp [resolveNext, processResolverQueue, hqueue, firstCall]
  | cons service rest => simp [resolveNext, processResolverQueue, hqueue, firstCall]

theorem onResolveFailed_spec {s : NsdResolver} (hpending : s.pendingResolve.isSome) (this : Manager)
    (errorCode : Int32) :
    (onResolveFailed this errorCode s).1 =
      (resolveNext this { s with resolverQueue := requeued errorCode s }).1 := by
  unfold onResolveFailed requeued
  split
  · have hidle : (enqueueResolver this s.pendingResolve s).1 =
        { s with resolverQueue := s.resolverQueue ++ [s.pendingResolve] } := by
      simp only [enqueueResolver, Action.andThen_fst, Action.update_apply, processResolverQueue]
      split
      · rfl
      · simp only [hpending, if_true]
    rw [Action.andThen_fst, hidle]
  · rfl

/-- A new service starts at once where none is pending, and waits otherwise. -/
theorem onServiceFound_spec {s : NsdResolver} (hs : Consistent s) (this : Manager) (info : NsdServiceInfo) :
    (onServiceFound this info s).1 =
      let found := s.found ++ [{ finder := this, info }]
      let service := some s.found.length
      if s.pendingResolve.isSome then { s with resolverQueue := s.resolverQueue ++ [service], found }
      else { s with pendingResolve := service, outstanding := [{ listener := this, service }], found } := by
  simp only [onServiceFound, enqueueResolver, Action.andThen_fst, Action.update_apply, processResolverQueue]
  cases hpending : s.pendingResolve with
  | none =>
    have houtstanding := hs.outstanding
    rw [hpending] at houtstanding
    have hempty : s.outstanding = [] := List.map_eq_nil_iff.mp houtstanding
    simp [hs.idle hpending, hempty]
  | some ref =>
    cases hqueue : s.resolverQueue <;> simp

/-- The call that an event answers, and the queue when its manager takes the
    next service. -/
def answers (s : NsdResolver) : Event → Option (Nat × List (Option ServiceRef))
  | .onServiceFound _ _ => none
  | .onResolveFailed call errorCode => some (call, requeued errorCode s)
  | .onServiceResolved call _ _ => some (call, s.resolverQueue)

variable {id : Manager → Int64}

/-- An answer takes its call off, and starts the first service of the queue on
    the manager that was called back. -/
theorem step_answer {s : NsdResolver} (hs : Consistent s) {e : Event} {call : Nat}
    {queue : List (Option ServiceRef)} (h : answers s e = some (call, queue)) {c : ResolveCall}
    (hc : s.outstanding[call]? = some c) :
    (step id s e).1 = { s with
      pendingResolve := queue.head?.join
      resolverQueue := queue.tail
      outstanding := firstCall c.listener queue } := by
  obtain ⟨hempty, hpending⟩ := hs.answered hc
  cases e with
  | onServiceFound this info => cases h
  | onResolveFailed call' errorCode =>
    cases h
    have hfailed := onResolveFailed_spec (s := { s with outstanding := [] }) hpending c.listener errorCode
    simp only [step, answer, hc, hempty, hfailed, resolveNext_spec, List.nil_append]
    rfl
  | onServiceResolved call' serviceInfo host =>
    cases h
    simp only [step, answer, hc, onServiceResolved, Action.andThen_fst, Action.emit_apply, resolveNext_spec,
      hempty, List.nil_append]

/-- An event that answers no outstanding call does nothing. -/
theorem step_unanswered {s : NsdResolver} {e : Event} {call : Nat} {queue : List (Option ServiceRef)}
    (h : answers s e = some (call, queue)) (hc : s.outstanding[call]? = none) : step id s e = (s, []) := by
  cases e with
  | onServiceFound this info => cases h
  | onResolveFailed call' errorCode =>
    cases h
    simp only [step, answer, hc]
  | onServiceResolved call' serviceInfo host =>
    cases h
    simp only [step, answer, hc]

theorem queued_of_answers {s : NsdResolver} (hs : Consistent s) {e : Event} {call : Nat}
    {queue : List (Option ServiceRef)} (h : answers s e = some (call, queue)) {c : ResolveCall}
    (hc : s.outstanding[call]? = some c) : ∀ service ∈ queue, service ≠ none := by
  obtain ⟨-, hpending⟩ := hs.answered hc
  cases e with
  | onServiceFound this info => cases h
  | onResolveFailed call' errorCode =>
    cases h
    intro service hservice
    unfold requeued at hservice
    split at hservice
    · rcases List.mem_append.mp hservice with hservice | hservice
      · exact hs.queued service hservice
      · rw [List.mem_singleton.mp hservice]
        exact Option.isSome_iff_ne_none.mp hpending
    · exact hs.queued service hservice
  | onServiceResolved call' serviceInfo host =>
    cases h
    exact hs.queued

theorem consistent_initial : Consistent {} := ⟨rfl, fun _ => rfl, nofun⟩

theorem consistent_step (s : NsdResolver) (e : Event) (hs : Consistent s) : Consistent (step id s e).1 := by
  cases hanswers : answers s e with
  | none =>
    cases e with
    | onServiceFound this info =>
      rw [step, onServiceFound_spec hs]
      split
      · rename_i hpending
        refine ⟨hs.outstanding, fun hnone => ?_, fun service hservice => ?_⟩
        · rw [hnone] at hpending
          cases hpending
        · rcases List.mem_append.mp hservice with hservice | hservice
          · exact hs.queued service hservice
          · rw [List.mem_singleton.mp hservice]
            exact Option.some_ne_none _
      · exact ⟨rfl, nofun, hs.queued⟩
    | onResolveFailed call errorCode => cases hanswers
    | onServiceResolved call serviceInfo host => cases hanswers
  | some next =>
    obtain ⟨call, queue⟩ := next
    cases hc : s.outstanding[call]? with
    | none => rwa [step_unanswered hanswers hc]
    | some c =>
      rw [step_answer hs hanswers hc]
      have hqueued := queued_of_answers hs hanswers hc
      cases queue with
      | nil => exact ⟨rfl, fun _ => rfl, nofun⟩
      | cons service rest =>
        obtain ⟨ref, rfl⟩ := Option.ne_none_iff_exists'.mp (hqueued service List.mem_cons_self)
        exact ⟨rfl, nofun, fun service' hservice => hqueued service' (List.mem_cons_of_mem _ hservice)⟩

/-- A service was found by a manager with the native address of this one. -/
def FoundBy (id : Manager → Int64) (s : NsdResolver) (this : Manager) (service : Option ServiceRef) : Prop :=
  ∃ ref f, service = some ref ∧ s.found[ref]? = some f ∧ id f.finder = id this

/-- When a call is answered, the service that is first in line was found by a
    manager with the native address of the one that is called back. -/
def StartsOwn (id : Manager → Int64) (s : NsdResolver) (e : Event) : Prop :=
  ∀ call queue, answers s e = some (call, queue) → ∀ c, s.outstanding[call]? = some c →
    ∀ service, queue.head? = some service → FoundBy id s c.listener service

/-- Every call that is outstanding is on the manager that found its service. -/
def OnFinder (id : Manager → Int64) (s : NsdResolver) : Prop :=
  ∀ c ∈ s.outstanding, FoundBy id s c.listener c.service

theorem foundBy_of_prefix {s s' : NsdResolver} (hfound : s.found <+: s'.found) {this : Manager}
    {service : Option ServiceRef} (h : FoundBy id s this service) : FoundBy id s' this service := by
  obtain ⟨ref, f, hservice, hf, hid⟩ := h
  obtain ⟨later, hlater⟩ := hfound
  refine ⟨ref, f, hservice, ?_, hid⟩
  rw [← hlater, List.getElem?_append_left (List.getElem?_eq_some_iff.mp hf).1, hf]

/-- Services are never forgotten. -/
theorem found_step (id : Manager → Int64) {s : NsdResolver} (hs : Consistent s) (e : Event) :
    s.found <+: (step id s e).1.found := by
  cases hanswers : answers s e with
  | none =>
    cases e with
    | onServiceFound this info =>
      rw [step, onServiceFound_spec hs]
      split <;> exact List.prefix_append ..
    | onResolveFailed call errorCode => cases hanswers
    | onServiceResolved call serviceInfo host => cases hanswers
  | some next =>
    obtain ⟨call, queue⟩ := next
    cases hc : s.outstanding[call]? with
    | none => rw [step_unanswered hanswers hc]
    | some c => rw [step_answer hs hanswers hc]

/-- One step leaves every outstanding call on its finder exactly when it starts
    no service on another manager. -/
theorem onFinder_step_iff {s : NsdResolver} (hs : Consistent s) (honFinder : OnFinder id s) (e : Event) :
    OnFinder id (step id s e).1 ↔ StartsOwn id s e := by
  have hfound := found_step id hs e
  cases hanswers : answers s e with
  | none =>
    refine iff_of_true ?_ fun call queue h => by rw [hanswers] at h; cases h
    cases e with
    | onServiceFound this info =>
      rw [step, onServiceFound_spec hs] at hfound ⊢
      split
      · exact fun c hc => foundBy_of_prefix (List.prefix_append ..) (honFinder c hc)
      · intro c hc
        rw [List.mem_singleton.mp hc]
        exact ⟨s.found.length, ⟨this, info⟩, rfl, by simp, rfl⟩
    | onResolveFailed call errorCode => cases hanswers
    | onServiceResolved call serviceInfo host => cases hanswers
  | some next =>
    obtain ⟨call, queue⟩ := next
    cases hc : s.outstanding[call]? with
    | none =>
      rw [step_unanswered hanswers hc]
      refine iff_of_true honFinder fun call' queue' h c hc' => ?_
      rw [hanswers] at h
      cases h
      rw [hc] at hc'
      cases hc'
    | some c =>
      rw [step_answer hs hanswers hc]
      constructor
      · intro hafter call' queue' h c' hc' service hservice
        rw [hanswers] at h
        cases h
        rw [hc] at hc'
        cases hc'
        exact hafter ⟨c.listener, service⟩ (by simp [firstCall, hservice])
      · intro hstarts c' hc'
        obtain ⟨service, hservice, rfl⟩ := Option.map_eq_some_iff.mp (Option.mem_toList.mp hc')
        exact hstarts call queue hanswers c hc service hservice

/-- A resolve result goes to a manager that found the service. -/
def ToFinder (id : Manager → Int64) (s : NsdResolver) : Output → Prop
  | .onServiceResolvedJNI service jniId _ _ _ _ _ _ =>
    ∃ ref f, service = some ref ∧ s.found[ref]? = some f ∧ id f.finder = jniId
  | .resolveService _ _ => True

theorem toFinder_of_prefix {s s' : NsdResolver} (hfound : s.found <+: s'.found) {o : Output}
    (h : ToFinder id s o) : ToFinder id s' o := by
  cases o with
  | resolveService listener service => trivial
  | onServiceResolvedJNI service jniId name type hostname address port txtRecords =>
    obtain ⟨ref, f, hservice, hf, hid⟩ := h
    obtain ⟨later, hlater⟩ := hfound
    refine ⟨ref, f, hservice, ?_, hid⟩
    rw [← hlater, List.getElem?_append_left (List.getElem?_eq_some_iff.mp hf).1, hf]

/-- All but a resolve result only starts services. -/
def OnlyStarts (a : Action NsdResolver Output) : Prop :=
  Action.Within (fun _ _ => True) (fun o => ∃ listener service, o = .resolveService listener service) a

theorem onlyStarts_process (this : Manager) : OnlyStarts (processResolverQueue this) := by
  intro s
  refine ⟨trivial, ?_⟩
  unfold processResolverQueue
  (repeat' split) <;> simp

theorem onlyStarts_enqueue (this : Manager) (serviceInfo : Option ServiceRef) :
    OnlyStarts (enqueueResolver this serviceInfo) :=
  Action.within_andThen (fun _ _ _ _ _ => trivial) (Action.within_update fun _ => trivial)
    (onlyStarts_process this)

theorem onlyStarts_resolveNext (this : Manager) : OnlyStarts (resolveNext this) :=
  Action.within_andThen (fun _ _ _ _ _ => trivial) (Action.within_update fun _ => trivial)
    (onlyStarts_process this)

theorem onlyStarts_failed (this : Manager) (errorCode : Int32) :
    OnlyStarts (onResolveFailed this errorCode) := by
  intro s
  refine Action.within_andThen (fun _ _ _ _ _ => trivial) ?_ (onlyStarts_resolveNext this) s
  split
  · exact onlyStarts_enqueue this s.pendingResolve
  · exact Action.within_skip fun _ => trivial

/-- A step reports results only for the call it answers. -/
theorem toFinder_step {s : NsdResolver} (honFinder : OnFinder id s) (e : Event) :
    ∀ o ∈ (step id s e).2, ToFinder id s o := by
  have hstart {a : Action NsdResolver Output} (ha : OnlyStarts a) (t : NsdResolver) :
      ∀ o ∈ (a t).2, ToFinder id s o := by
    intro o ho
    obtain ⟨listener, service, rfl⟩ := (ha t).2 o ho
    trivial
  cases e with
  | onServiceFound this info => exact hstart (onlyStarts_enqueue this _) _
  | onResolveFailed call errorCode =>
    simp only [step, answer]
    split
    · simp
    · exact hstart (onlyStarts_failed _ errorCode) _
  | onServiceResolved call serviceInfo host =>
    simp only [step, answer]
    split
    · simp
    · rename_i c hc
      intro o ho
      rcases List.mem_append.mp ho with ho | ho
      · rw [List.mem_singleton.mp ho]
        exact honFinder c (List.mem_of_getElem? hc)
      · exact hstart (onlyStarts_resolveNext c.listener) _ o ho

/-- All resolve results of a run go to managers that found the services. -/
def ResolvedToFinders (id : Manager → Int64) (events : List Event) : Prop :=
  ∀ o ∈ trace (step id) {} events, ToFinder id (reached id events) o

theorem consistent_reached (id : Manager → Int64) (events : List Event) : Consistent (reached id events) :=
  after_invariant (fun s e hs => consistent_step s e hs) consistent_initial events

theorem resolvedToFinders_snoc {events : List Event} (hevents : ResolvedToFinders id events)
    (hlast : OnFinder id (reached id events)) (e : Event) : ResolvedToFinders id (events ++ [e]) := by
  have hfound := found_step id (consistent_reached id events) e
  have hreached : reached id (events ++ [e]) = (step id (reached id events) e).1 := after_append ..
  intro o ho
  rw [hreached]
  rw [trace_append] at ho
  rcases List.mem_append.mp ho with ho | ho
  · exact toFinder_of_prefix hfound (hevents o ho)
  · rw [trace_cons, trace_nil, List.append_nil] at ho
    exact toFinder_of_prefix hfound (toFinder_step hlast e o ho)

/-- While every outstanding call is on its finder, all results go to finders. -/
theorem resolvedToFinders_of_onFinder {events : List Event}
    (h : ∀ pre, pre <+: events → OnFinder id (reached id pre)) : ResolvedToFinders id events := by
  induction events using List.reverseRecOn with
  | nil => simp [ResolvedToFinders]
  | append_singleton events e ih =>
    have hevents := ih fun pre hpre => h pre (hpre.trans (List.prefix_append ..))
    exact resolvedToFinders_snoc hevents (h events (List.prefix_append ..)) e

/-- A call that is outstanding is on its finder where its result would be. -/
theorem onFinder_of_resolved {pre : List Event} (h : ∀ e, ResolvedToFinders id (pre ++ [e])) :
    OnFinder id (reached id pre) := by
  intro c hc
  obtain ⟨call, hcall⟩ := List.getElem?_of_mem hc
  have hresolved := h (.onServiceResolved call ⟨[], [], 0, ∅⟩ ⟨[], []⟩)
  have hreached : reached id (pre ++ [.onServiceResolved call ⟨[], [], 0, ∅⟩ ⟨[], []⟩]) =
      (step id (reached id pre) (.onServiceResolved call ⟨[], [], 0, ∅⟩ ⟨[], []⟩)).1 := after_append ..
  rw [ResolvedToFinders, hreached, step_answer (consistent_reached id pre) rfl hcall] at hresolved
  refine hresolved (.onServiceResolvedJNI c.service (id c.listener) [] [] [] [] 0 ∅) ?_
  rw [trace_append]
  refine List.mem_append_right _ ?_
  simp only [trace_cons, trace_nil, List.append_nil]
  change _ ∈ (step id (reached id pre) _).2
  simp only [step, answer, hcall, onServiceResolved, Action.andThen_snd, Action.emit_apply]
  exact List.mem_append_left _ (List.mem_singleton_self _)

/-- At every point of a run, whatever comes next, the results go to the managers
    that found the services, exactly when no answer in the run starts a service
    on another manager. -/
theorem resolvedToFinders_iff (id : Manager → Int64) (events : List Event) :
    (∀ pre, pre <+: events → ∀ e, ResolvedToFinders id (pre ++ [e])) ↔
      Along (step id) (StartsOwn id) {} events := by
  have hthroughout :
      Throughout (step id) (OnFinder id) {} events ↔ Along (step id) (StartsOwn id) {} events :=
    throughout_iff_along (fun s e hs => consistent_step s e hs)
      (fun s e hs honFinder => onFinder_step_iff hs honFinder e) consistent_initial nofun events
  rw [← hthroughout, throughout_iff_prefix]
  constructor
  · exact fun h pre hpre => onFinder_of_resolved (h pre hpre)
  · intro h pre hpre e
    have hpre' := resolvedToFinders_of_onFinder fun pre' hpre' => h pre' (hpre'.trans hpre)
    exact resolvedToFinders_snoc hpre' (h pre hpre) e

/-- Managers 1 and 2 have found a service each; the system resolves both. -/
def twoManagers : List Event :=
  let info (name : QString) : NsdServiceInfo := { serviceName := name, serviceType := [] }
  let host : InetAddress := { hostName := [], hostAddress := [] }
  [.onServiceFound 1 (info [0x61]), .onServiceFound 2 (info [0x62]),
    .onServiceResolved 0 (info [0x61]) host, .onServiceResolved 0 (info [0x62]) host]

/-- The service that manager 2 has found is reported to manager 1, which was
    called back when it was first in line. -/
theorem resolved_to_other_manager : ¬ ResolvedToFinders Int64.ofNat twoManagers := by
  intro h
  obtain ⟨ref, f, hservice, hf, hid⟩ := h (.onServiceResolvedJNI (some 1) 1 [0x62] [] [] [] 0 ∅)
    (by simp [twoManagers, step, answer, onServiceFound, onServiceResolved, enqueueResolver, resolveNext,
      processResolverQueue])
  have hfinder : (reached Int64.ofNat twoManagers).found[1]?.map (fun f => f.finder) = some 2 := by decide
  cases hservice
  rw [hf, Option.map_some, Option.some.injEq] at hfinder
  rw [hfinder] at hid
  exact absurd hid (by decide)

end qtzeroconf.android
