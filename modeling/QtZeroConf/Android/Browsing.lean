import QtZeroConf.Android.Delivery
import QtZeroConf.Android.Instance

open reactive

namespace qtzeroconf.android

/-- A service is being resolved, or in the queue for it. -/
def NsdResolver.Waiting (s : NsdResolver) (ref : ServiceRef) : Prop :=
  s.pendingResolve = some ref ∨ some ref ∈ s.resolverQueue

/-- A service of the name is being resolved, or in the queue for it. -/
def NsdResolver.Waits (s : NsdResolver) (name : QString) : Prop :=
  ∃ ref f, s.Waiting ref ∧ s.found[ref]? = some f ∧ f.info.serviceName = name

section

variable {id : Manager → Int64} {s : NsdResolver}

theorem found_answer (hs : Consistent s) {e : Event} {next : Nat × List (Option ServiceRef)}
    (h : answers s e = some next) : (step id s e).1.found = s.found := by
  obtain ⟨call, queue⟩ := next
  cases hc : s.outstanding[call]? with
  | none => rw [step_unanswered h hc]
  | some c => rw [step_answer hs h hc]

/-- What is queued again waits still. -/
theorem waiting_requeued {errorCode : Int32} {ref : ServiceRef} (h : some ref ∈ requeued errorCode s) :
    s.Waiting ref := by
  unfold requeued at h
  split at h
  · rcases List.mem_append.mp h with h | h
    · exact .inr h
    · exact .inl (List.mem_singleton.mp h).symm
  · exact .inr h

/-- What an answer leaves in the queue waits still. -/
theorem waiting_of_answers {e : Event} {call : Nat} {queue : List (Option ServiceRef)}
    (h : answers s e = some (call, queue)) {ref : ServiceRef} (href : some ref ∈ queue) : s.Waiting ref := by
  cases e with
  | onServiceFound this info => cases h
  | onResolveFailed call errorCode =>
    cases h
    exact waiting_requeued href
  | onServiceResolved call serviceInfo host =>
    cases h
    exact .inr href

/-- An answer puts nothing new in the queue. -/
theorem waiting_answer (hs : Consistent s) {e : Event} {next : Nat × List (Option ServiceRef)}
    (h : answers s e = some next) {ref : ServiceRef} (href : (step id s e).1.Waiting ref) : s.Waiting ref := by
  obtain ⟨call, queue⟩ := next
  cases hc : s.outstanding[call]? with
  | none => rwa [step_unanswered h hc] at href
  | some c =>
    rw [step_answer hs h hc] at href
    refine waiting_of_answers h ?_
    rcases href with hhead | htail
    · cases queue with
      | nil => cases hhead
      | cons service rest =>
        have hservice : service = some ref := hhead
        rw [hservice]
        exact List.mem_cons_self
    · exact List.mem_of_mem_tail htail

/-- What is found goes to the end of the queue. -/
theorem waiting_found (hs : Consistent s) {this : Manager} {info : NsdServiceInfo} {ref : ServiceRef}
    (href : (onServiceFound this info s).1.Waiting ref) : s.Waiting ref ∨ ref = s.found.length := by
  rw [onServiceFound_spec hs] at href
  split at href
  · rcases href with hpending | hqueue
    · exact .inl (.inl hpending)
    · rcases List.mem_append.mp hqueue with hqueue | hnew
      · exact .inl (.inr hqueue)
      · exact .inr (Option.some.inj (List.mem_singleton.mp hnew))
  · rcases href with hnew | hqueue
    · exact .inr (Option.some.inj hnew).symm
    · exact .inl (.inr hqueue)

/-- A service that is found is known to its finder. -/
theorem found_onServiceFound (hs : Consistent s) (this : Manager) (info : NsdServiceInfo) :
    (onServiceFound this info s).1.found = s.found ++ [{ finder := this, info }] := by
  rw [onServiceFound_spec hs]
  split <;> rfl

/-- A service of a name waits after a step only if one did before, or is found. -/
theorem waits_step (hs : Consistent s) {e : Event} {name : QString} (h : (step id s e).1.Waits name) :
    s.Waits name ∨ ∃ this info, e = .onServiceFound this info ∧ info.serviceName = name := by
  obtain ⟨ref, f, href, hf, hname⟩ := h
  cases hanswers : answers s e with
  | some next =>
    rw [found_answer hs hanswers] at hf
    exact .inl ⟨ref, f, waiting_answer hs hanswers href, hf, hname⟩
  | none =>
    cases e with
    | onServiceFound this info =>
      rw [step, found_onServiceFound hs, List.getElem?_append] at hf
      split at hf
      · rename_i hlt
        rcases waiting_found hs href with href | rfl
        · exact .inl ⟨ref, f, href, hf, hname⟩
        · exact absurd hlt (Nat.lt_irrefl _)
      · refine .inr ⟨this, info, rfl, ?_⟩
        have hnew := List.mem_singleton.mp (List.mem_of_getElem? hf)
        rw [hnew] at hname
        exact hname
    | onResolveFailed call errorCode => cases hanswers
    | onServiceResolved call serviceInfo host => cases hanswers

/-- Everything that waits has been found. -/
def Known (s : NsdResolver) : Prop := ∀ ref, s.Waiting ref → ref < s.found.length

/-- Only what was found waits to be resolved. -/
theorem known_step (hs : Consistent s) (hknown : Known s) (e : Event) : Known (step id s e).1 := by
  intro ref href
  cases hanswers : answers s e with
  | some next =>
    rw [found_answer hs hanswers]
    exact hknown ref (waiting_answer hs hanswers href)
  | none =>
    cases e with
    | onServiceFound this info =>
      rw [step, found_onServiceFound hs, List.length_append, List.length_singleton]
      rcases waiting_found hs href with href | rfl
      · exact Nat.lt_succ_of_lt (hknown ref href)
      · exact Nat.lt_succ_self _
    | onResolveFailed call errorCode => cases hanswers
    | onServiceResolved call serviceInfo host => cases hanswers

end

namespace browsing

/-- One instance and its manager: the queue of the manager, the name that it was
    given for the registration, the invocations that the event loop of the Qt
    thread has still to deliver, and the instance itself. -/
structure Browsing where
  resolver : NsdResolver := {}
  registrationName : Option QString := none
  posted : List Invocation := []
  ref : QZeroConfPrivate := {}

/-- The callbacks of the manager's listeners, a registration, and deliveries by
    the event loop. -/
inductive Event where
  | onDiscoveryStarted
  | onServiceFound (service : NsdServiceInfo)
  | onServiceLost (serviceInfo : NsdServiceInfo)
  | onDiscoveryStopped
  | onStartDiscoveryFailed (errorCode : Int32)
  | onStopDiscoveryFailed (errorCode : Int32)
  | onResolveFailed (call : Nat) (errorCode : Int32)
  | onServiceResolved (call : Nat) (serviceInfo : NsdServiceInfo) (host : InetAddress)
  | registerService (name : QString) (illegalArgument : Bool)
  | onServiceRegistered (serviceInfo : NsdServiceInfo)
  | onRegistrationFailed (errorCode : Int32)
  | onServiceUnregistered
  | onUnregistrationFailed (errorCode : Int32)
  | deliver

/-- The native call among what the queue does; the others go to the system. -/
def nativeCall? : Output → Option NativeCall
  | .resolveService _ _ => none
  | .onServiceResolvedJNI _ _ name type hostname address port txtRecords =>
    some (.onServiceResolvedJNI name type hostname address port txtRecords)

/-- The name of the service that a call asks the system to resolve. -/
def asked (s : NsdResolver) (call : Nat) : Option QString := do
  let c ← s.outstanding[call]?
  let ref ← c.service
  let f ← s.found[ref]?
  return f.info.serviceName

/-- The event loop delivers the first invocation. -/
def deliver : Action Browsing (Signal QZeroConfServiceData) := fun s =>
  match s.posted with
  | [] => (s, [])
  | invocation :: posted =>
    let (ref, signals) := invocation.deliver s.ref
    ({ s with posted, ref }, signals)

section

variable (parse : QString → QHostAddress)

/-- Native calls, which queue invocations. -/
def invoke (calls : List NativeCall) : Action Browsing (Signal QZeroConfServiceData) :=
  .update fun s => { s with posted := s.posted ++ calls.map fun call => call.invocation parse }

/-- What an event does to the queue of the manager, with the native calls that
    it makes. The manager is alone, and the native address is that of the
    instance. -/
def resolving (e : android.Event) : Action Browsing (Signal QZeroConfServiceData) := fun s =>
  let (resolver, outputs) := android.step (fun _ => 0) s.resolver e
  invoke parse (outputs.filterMap nativeCall?) { s with resolver }

/-- The instance and its manager, event by event. The system answers a call for
    the service that it was asked to resolve. -/
def step : Step Browsing Event (Signal QZeroConfServiceData)
  | s, .onDiscoveryStarted => invoke parse [.onBrowserStateChangedJNI true false] s
  | s, .onServiceFound service => resolving parse (.onServiceFound 0 service) s
  | s, .onServiceLost serviceInfo => invoke parse [.onServiceRemovedJNI serviceInfo.serviceName] s
  | s, .onDiscoveryStopped => invoke parse [.onBrowserStateChangedJNI false false] s
  | s, .onStartDiscoveryFailed _ => invoke parse [.onBrowserStateChangedJNI false true] s
  | s, .onStopDiscoveryFailed _ => invoke parse [.onBrowserStateChangedJNI false true] s
  | s, .onResolveFailed call errorCode => resolving parse (.onResolveFailed call errorCode) s
  | s, .onServiceResolved call serviceInfo host =>
    if asked s.resolver call = some serviceInfo.serviceName then
      resolving parse (.onServiceResolved call serviceInfo host) s
    else (s, [])
  | s, .registerService name illegalArgument =>
    invoke parse (if illegalArgument then [.onPublisherStateChangedJNI false true] else [])
      { s with registrationName := some name }
  | s, .onServiceRegistered serviceInfo =>
    invoke parse (.onPublisherStateChangedJNI true false ::
      if some serviceInfo.serviceName = s.registrationName then []
      else [.onServiceNameChangedJNI serviceInfo.serviceName]) s
  | s, .onRegistrationFailed _ => invoke parse [.onPublisherStateChangedJNI false true] s
  | s, .onServiceUnregistered => invoke parse [.onPublisherStateChangedJNI false false] s
  | s, .onUnregistrationFailed _ => invoke parse [.onPublisherStateChangedJNI false true] s
  | s, .deliver => deliver s

/-- The states that an instance and its manager reach. -/
def reached (events : List Event) : Browsing := after (step parse) {} events

end

/-- What an event does to the queue of the manager. -/
def queueEvent? (s : NsdResolver) : Event → Option android.Event
  | .onServiceFound service => some (.onServiceFound 0 service)
  | .onResolveFailed call errorCode => some (.onResolveFailed call errorCode)
  | .onServiceResolved call serviceInfo host =>
    if asked s call = some serviceInfo.serviceName then some (.onServiceResolved call serviceInfo host) else none
  | _ => none

section

variable (parse : QString → QHostAddress)

/-- The invocations that an event queues. -/
def posts (s : Browsing) : Event → List Invocation
  | .onDiscoveryStarted => [.onBrowserStateChanged true false]
  | .onServiceLost serviceInfo => [.onServiceRemoved serviceInfo.serviceName]
  | .onDiscoveryStopped => [.onBrowserStateChanged false false]
  | .onStartDiscoveryFailed _ | .onStopDiscoveryFailed _ => [.onBrowserStateChanged false true]
  | .onServiceResolved call serviceInfo host =>
    if asked s.resolver call = some serviceInfo.serviceName then
      [.onServiceResolved serviceInfo.serviceName serviceInfo.serviceType host.hostName (parse host.hostAddress)
        serviceInfo.port (txtMap serviceInfo.attributes)]
    else []
  | .registerService _ illegalArgument => if illegalArgument then [.onPublisherStateChanged false true] else []
  | .onServiceRegistered serviceInfo =>
    .onPublisherStateChanged true false ::
      if some serviceInfo.serviceName = s.registrationName then []
      else [.onServiceNameChanged serviceInfo.serviceName]
  | .onRegistrationFailed _ | .onUnregistrationFailed _ => [.onPublisherStateChanged false true]
  | .onServiceUnregistered => [.onPublisherStateChanged false false]
  | .onServiceFound _ | .onResolveFailed _ _ | .deliver => []

end

theorem nativeCalls_onlyStarts {a : Action NsdResolver Output} (ha : OnlyStarts a) (s : NsdResolver) :
    (a s).2.filterMap nativeCall? = [] := by
  rw [List.filterMap_eq_nil_iff]
  intro o ho
  obtain ⟨listener, service, rfl⟩ := (ha s).2 o ho
  rfl

theorem nativeCalls_found (this : Manager) (service : NsdServiceInfo) (s : NsdResolver) :
    (android.step (fun _ => 0) s (.onServiceFound this service)).2.filterMap nativeCall? = [] :=
  nativeCalls_onlyStarts (onlyStarts_enqueue this _) _

theorem nativeCalls_failed (call : Nat) (errorCode : Int32) (s : NsdResolver) :
    (android.step (fun _ => 0) s (.onResolveFailed call errorCode)).2.filterMap nativeCall? = [] := by
  simp only [android.step, answer]
  split
  · rfl
  · exact nativeCalls_onlyStarts (onlyStarts_failed _ errorCode) _

theorem nativeCalls_resolved {call : Nat} {serviceInfo : NsdServiceInfo} {s : NsdResolver}
    (h : asked s call = some serviceInfo.serviceName) (host : InetAddress) :
    (android.step (fun _ => 0) s (.onServiceResolved call serviceInfo host)).2.filterMap nativeCall? =
      [.onServiceResolvedJNI serviceInfo.serviceName serviceInfo.serviceType host.hostName host.hostAddress
        serviceInfo.port serviceInfo.attributes] := by
  obtain ⟨c, hc, -⟩ := Option.bind_eq_some_iff.mp h
  simp only [android.step, answer, hc, android.onServiceResolved, Action.andThen_snd, Action.emit_apply,
    Action.emit_apply, List.filterMap_append]
  rw [nativeCalls_onlyStarts (onlyStarts_resolveNext c.listener)]
  rfl

variable {parse : QString → QHostAddress}

/-- The queue of the resolver moves by its own events only. -/
theorem resolver_step (s : Browsing) (e : Event) :
    (step parse s e).1.resolver = match queueEvent? s.resolver e with
      | none => s.resolver
      | some e' => (android.step (fun _ => 0) s.resolver e').1 := by
  cases e with
  | onServiceResolved call serviceInfo host =>
    simp only [step, queueEvent?]
    split <;> rfl
  | deliver =>
    simp only [step, queueEvent?, deliver]
    split <;> rfl
  | _ => rfl

variable (parse) in
/-- All but a delivery queues invocations, and does nothing else that the Qt
    thread can see. -/
theorem step_posts (s : Browsing) {e : Event} (he : e ≠ .deliver) :
    (step parse s e).1.posted = s.posted ++ posts parse s e ∧ (step parse s e).1.ref = s.ref ∧
      (step parse s e).2 = [] := by
  cases e with
  | onServiceFound service =>
    simp [step, resolving, invoke, posts, nativeCalls_found]
  | onResolveFailed call errorCode =>
    simp [step, resolving, invoke, posts, nativeCalls_failed]
  | onServiceResolved call serviceInfo host =>
    simp only [step, posts]
    split
    · rename_i hasked
      simp [resolving, invoke, nativeCalls_resolved hasked, NativeCall.invocation]
    · simp
  | onServiceRegistered serviceInfo =>
    refine ⟨?_, rfl, rfl⟩
    simp only [step, invoke, posts, Action.update_apply]
    split <;> rfl
  | registerService name illegalArgument =>
    refine ⟨?_, rfl, rfl⟩
    cases illegalArgument <;> simp [step, invoke, posts, NativeCall.invocation]
  | deliver => exact absurd rfl he
  | _ => exact ⟨rfl, rfl, rfl⟩

/-- Only the result of a resolve queues a service of its name. -/
theorem resolved_of_posts {s : Browsing} {e : Event} {invocation : Invocation} {name : QString}
    (h : invocation ∈ posts parse s e) (hname : invocation.lists? name = some true) :
    ∃ call serviceInfo host, e = .onServiceResolved call serviceInfo host ∧
      asked s.resolver call = some serviceInfo.serviceName ∧ serviceInfo.serviceName = name := by
  cases e with
  | onServiceResolved call serviceInfo host =>
    simp only [posts] at h
    split at h
    · rename_i hasked
      rw [List.mem_singleton.mp h] at hname
      refine ⟨call, serviceInfo, host, rfl, hasked, ?_⟩
      by_contra hne
      simp [Invocation.lists?, hne] at hname
    · cases h
  | onServiceRegistered serviceInfo =>
    simp only [posts, List.mem_cons] at h
    rcases h with rfl | h
    · cases hname
    · split at h
      · cases h
      · rw [List.mem_singleton.mp h] at hname
        cases hname
  | registerService name' illegalArgument =>
    cases illegalArgument with
    | false => cases h
    | true =>
      rw [List.mem_singleton.mp h] at hname
      cases hname
  | onServiceFound service => cases h
  | onResolveFailed call errorCode => cases h
  | deliver => cases h
  | onServiceLost serviceInfo =>
    rw [List.mem_singleton.mp h, Invocation.lists?] at hname
    split at hname <;> cases hname
  | _ =>
    rw [List.mem_singleton.mp h] at hname
    cases hname

/-- The queue of the manager is consistent, and knows what it holds. -/
structure Sound (s : Browsing) : Prop where
  consistent : Consistent s.resolver
  known : Known s.resolver

variable (parse) in
/-- One case for each event. -/
theorem sound_step {s : Browsing} (hs : Sound s) (e : Event) : Sound (step parse s e).1 := by
  cases hqueue : queueEvent? s.resolver e with
  | none =>
    exact ⟨by simpa only [resolver_step, hqueue] using hs.1, by simpa only [resolver_step, hqueue] using hs.2⟩
  | some e' =>
    refine ⟨?_, ?_⟩
    · simpa only [resolver_step, hqueue] using consistent_step _ e' hs.consistent
    · simpa only [resolver_step, hqueue] using known_step hs.consistent hs.known e'

theorem sound_initial : Sound {} := by
  refine ⟨consistent_initial, ?_⟩
  rintro ref (hpending | hqueue)
  · cases hpending
  · cases hqueue

theorem sound_reached (events : List Event) : Sound (reached parse events) :=
  after_invariant (I := Sound) (fun _ e hs => sound_step parse hs e) sound_initial events

/-- A delivery takes the first call that was posted. -/
theorem step_deliver {s : Browsing} {invocation : Invocation} {rest : List Invocation}
    (h : s.posted = invocation :: rest) :
    step parse s .deliver =
      ({ s with posted := rest, ref := (invocation.deliver s.ref).1 }, (invocation.deliver s.ref).2) := by
  simp only [step, deliver, h]

theorem step_deliver_nil {s : Browsing} (h : s.posted = []) : step parse s .deliver = (s, []) := by
  simp only [step, deliver, h]

variable (parse) in
/-- A step either delivers the first invocation, or queues some and does nothing
    else that the Qt thread can see. -/
theorem step_cases (s : Browsing) (e : Event) :
    (∃ invocation rest, e = .deliver ∧ s.posted = invocation :: rest ∧
      step parse s e =
        ({ s with posted := rest, ref := (invocation.deliver s.ref).1 }, (invocation.deliver s.ref).2)) ∨
    ((step parse s e).1.posted = s.posted ++ posts parse s e ∧ (step parse s e).1.ref = s.ref ∧
      (step parse s e).2 = []) := by
  by_cases hdeliver : e = .deliver
  · subst hdeliver
    cases hposted : s.posted with
    | nil =>
      rw [step_deliver_nil hposted]
      exact .inr ⟨hposted, rfl, rfl⟩
    | cons invocation rest => exact .inl ⟨invocation, rest, rfl, rfl, step_deliver hposted⟩
  · exact .inr (step_posts parse s hdeliver)

variable (parse) in
/-- A delivery leaves the manager alone. -/
theorem resolver_deliver (s : Browsing) : (step parse s .deliver).1.resolver = s.resolver := resolver_step s .deliver

/-- What is delivered when everything queued is, from some state of the instance. -/
def deliverAll : List Invocation → Action QZeroConfPrivate (Signal QZeroConfServiceData) :=
  Action.forEach Invocation.deliver

/-- Enough deliveries deliver everything that is queued. -/
theorem deliver_all (s : Browsing) :
    after (step parse) s (List.replicate s.posted.length .deliver) =
        { s with posted := [], ref := (deliverAll s.posted s.ref).1 } ∧
      trace (step parse) s (List.replicate s.posted.length .deliver) = (deliverAll s.posted s.ref).2 := by
  obtain ⟨resolver, registrationName, posted, ref⟩ := s
  induction posted generalizing ref with
  | nil => exact ⟨rfl, rfl⟩
  | cons invocation posted ih =>
    obtain ⟨hafter, htrace⟩ := ih (invocation.deliver ref).1
    exact ⟨hafter, congrArg ((invocation.deliver ref).2 ++ ·) htrace⟩

end browsing

end qtzeroconf.android
