import QtZeroConf.Android.Browsing

open reactive

namespace qtzeroconf.android.browsing

/-- A discovery event for a name. -/
def Discovers (name : QString) : Event → Prop
  | .onServiceFound service => service.serviceName = name
  | .onServiceLost serviceInfo => serviceInfo.serviceName = name
  | _ => False

def isDelivery : Event → Bool
  | .deliver => true
  | _ => false

/-- The deliveries of a run. -/
def deliveries (events : List Event) : Nat := events.countP isDelivery

section

variable (parse : QString → QHostAddress)

/-- Once everything is delivered that is queued in a state, a service is not
    listed, and it is not reported, however the run goes on without a discovery
    event for it. -/
def GoneOnceDelivered (name : QString) (s : Browsing) : Prop :=
  ∀ mid post, (∀ e ∈ mid ++ post, ¬ Discovers name e) → s.posted.length ≤ deliveries mid →
    name ∉ (after (step parse) s mid).ref.services ∧
      ∀ o ∈ trace (step parse) (after (step parse) s mid) post, ¬ Reports name o

end

/-- No service is lost that is being resolved, or in the queue for it. -/
def NoneWaits (s : Browsing) (e : Event) : Prop :=
  ∀ serviceInfo, e = .onServiceLost serviceInfo → ¬ s.resolver.Waits serviceInfo.serviceName

/-- After so many more deliveries a service is not listed. -/
def LostIn (name : QString) (s : Browsing) : Nat → Prop
  | 0 => s.ref.services.contains name = false
  | k + 1 => s.posted[k]? = some (.onServiceRemoved name)

/-- A loss that is `k` deliveries away, of a service that does not wait and is
    not resolved after it. -/
structure Leaving (name : QString) (k : Nat) (s : Browsing) : Prop where
  unresolved : ¬ s.resolver.Waits name
  unposted : ∀ invocation ∈ s.posted.drop k, invocation.lists? name ≠ some true
  lost : LostIn name s k

/-- The system is only asked for services that wait. -/
theorem waits_of_asked {s : NsdResolver} (hs : Consistent s) {call : Nat} {name : QString}
    (h : asked s call = some name) : s.Waits name := by
  obtain ⟨c, hc, hservice⟩ := Option.bind_eq_some_iff.mp h
  obtain ⟨ref, href, hfound⟩ := Option.bind_eq_some_iff.mp hservice
  obtain ⟨f, hf, hname⟩ := Option.bind_eq_some_iff.mp hfound
  have hpending : c.service ∈ s.outstanding.map fun c => c.service := List.mem_map_of_mem (List.mem_of_getElem? hc)
  rw [hs.outstanding, href] at hpending
  exact ⟨ref, f, .inl (by simpa using hpending), hf, Option.some.inj hname⟩

variable {parse : QString → QHostAddress}

theorem leaving_deliver {name : QString} {k : Nat} {s : Browsing} (h : Leaving name k s) :
    Leaving name (k - 1) (step parse s .deliver).1 := by
  obtain ⟨hunresolved, hunposted, hlost⟩ := h
  rw [← resolver_deliver parse] at hunresolved
  cases hposted : s.posted with
  | nil =>
    cases k with
    | zero =>
      rw [step_deliver_nil hposted] at hunresolved ⊢
      exact ⟨hunresolved, hunposted, hlost⟩
    | succ k => simp [LostIn, hposted] at hlost
  | cons invocation rest =>
    rw [hposted] at hunposted
    rw [step_deliver hposted] at hunresolved ⊢
    match k with
    | 0 =>
      have hnot := hunposted invocation List.mem_cons_self
      refine ⟨hunresolved, fun i hi => hunposted i (List.mem_cons_of_mem _ hi), ?_⟩
      rw [LostIn, contains_deliver]
      match hlists : invocation.lists? name with
      | none => exact hlost
      | some false => rfl
      | some true => exact absurd hlists hnot
    | 1 =>
      have hinvocation : invocation = .onServiceRemoved name := by simpa [LostIn, hposted] using hlost
      refine ⟨hunresolved, hunposted, ?_⟩
      rw [LostIn, contains_deliver, hinvocation, Invocation.lists?, if_pos rfl]
      rfl
    | k + 2 => exact ⟨hunresolved, hunposted, by simpa [LostIn, hposted] using hlost⟩

theorem waits_posts {name : QString} {s : Browsing} (hs : Sound s) {e : Event} {invocation : Invocation}
    (h : invocation ∈ posts parse s e) (hname : invocation.lists? name = some true) : s.resolver.Waits name := by
  obtain ⟨call, serviceInfo, host, rfl, hasked, rfl⟩ := resolved_of_posts h hname
  exact waits_of_asked hs.consistent hasked

theorem waits_of_step {name : QString} {s : Browsing} (hs : Sound s) {e : Event} (he : ¬ Discovers name e)
    (h : (step parse s e).1.resolver.Waits name) : s.resolver.Waits name := by
  rw [resolver_step] at h
  cases hqueue : queueEvent? s.resolver e with
  | none => simpa only [hqueue] using h
  | some e' =>
    simp only [hqueue] at h
    refine (waits_step hs.consistent h).resolve_right ?_
    rintro ⟨this, info, rfl, hname⟩
    cases e with
    | onServiceFound service =>
      cases hqueue
      exact he hname
    | onServiceResolved call serviceInfo host =>
      simp only [queueEvent?] at hqueue
      split at hqueue <;> cases hqueue
    | _ => cases hqueue

variable (parse) in
/-- A step that is no discovery event for the service leaves its loss where it
    is, and a delivery brings it nearer. -/
theorem leaving_step {name : QString} {k : Nat} {s : Browsing} (hs : Sound s) (h : Leaving name k s) {e : Event}
    (he : ¬ Discovers name e) : Leaving name (k - if isDelivery e then 1 else 0) (step parse s e).1 := by
  by_cases hdeliver : e = .deliver
  · subst hdeliver
    exact leaving_deliver h
  · obtain ⟨hposted, href, -⟩ := step_posts parse s hdeliver
    have hk : (k - if isDelivery e then 1 else 0) = k := by
      cases e <;> first | rfl | exact absurd rfl hdeliver
    rw [hk]
    refine ⟨fun hwaits => h.unresolved (waits_of_step hs he hwaits), ?_, ?_⟩
    · intro invocation hinvocation hname
      rw [hposted, List.drop_append] at hinvocation
      rcases List.mem_append.mp hinvocation with hold | hnew
      · exact h.unposted invocation hold hname
      · exact h.unresolved (waits_posts hs (List.mem_of_mem_drop hnew) hname)
    · have hlost := h.lost
      cases k with
      | zero => rwa [LostIn, href]
      | succ k =>
        rw [LostIn, hposted, List.getElem?_append_left (List.getElem?_eq_some_iff.mp hlost).1]
        exact hlost

/-- A service that has left is not reported. -/
theorem silent_step {name : QString} {s : Browsing} (h : Leaving name 0 s) (e : Event) :
    ∀ o ∈ (step parse s e).2, ¬ Reports name o := by
  obtain ⟨invocation, rest, -, hposted, hstep⟩ | ⟨-, -, hsilent⟩ := step_cases parse s e
  · have hnot := h.unposted invocation (by simp [hposted])
    rw [hstep]
    exact fun o ho hreports => hnot (lists_of_reports ho hreports)
  · rw [hsilent]
    exact nofun

theorem leaving_run {name : QString} {k : Nat} {s : Browsing} (hs : Sound s) (h : Leaving name k s)
    {events : List Event} (hevents : ∀ e ∈ events, ¬ Discovers name e) :
    Leaving name (k - deliveries events) (after (step parse) s events) ∧ Sound (after (step parse) s events) := by
  induction events generalizing k s with
  | nil => exact ⟨h, hs⟩
  | cons e events ih =>
    have hfirst := leaving_step parse hs h (hevents e List.mem_cons_self)
    have hrest := ih (sound_step parse hs e) hfirst fun e' he' => hevents e' (List.mem_cons_of_mem _ he')
    have hcount : k - deliveries (e :: events) = k - (if isDelivery e then 1 else 0) - deliveries events := by
      rw [deliveries, List.countP_cons, deliveries]
      omega
    rwa [hcount]

theorem silent_run {name : QString} {s : Browsing} (hs : Sound s) (h : Leaving name 0 s) {events : List Event}
    (hevents : ∀ e ∈ events, ¬ Discovers name e) : ∀ o ∈ trace (step parse) s events, ¬ Reports name o := by
  induction events generalizing s with
  | nil => exact nofun
  | cons e events ih =>
    have hnext := leaving_step parse hs h (hevents e List.mem_cons_self)
    rw [Nat.zero_sub] at hnext
    have hrest := ih (sound_step parse hs e) hnext fun e' he' => hevents e' (List.mem_cons_of_mem _ he')
    intro o ho
    rcases List.mem_append.mp ho with ho | ho
    · exact silent_step h e o ho
    · exact hrest o ho

/-- Where a service waits, the system is asked for one that was found. -/
theorem asked_of_waits {name : QString} {s : Browsing} (hs : Sound s) (h : s.resolver.Waits name) :
    ∃ pending f, s.resolver.pendingResolve = some pending ∧ s.resolver.found[pending]? = some f ∧
      asked s.resolver 0 = some f.info.serviceName := by
  obtain ⟨ref, -, href, -, -⟩ := h
  have hbusy : s.resolver.pendingResolve ≠ none := by
    intro hidle
    rcases href with hpending | hqueue
    · rw [hidle] at hpending
      cases hpending
    · rw [hs.consistent.idle hidle] at hqueue
      cases hqueue
  obtain ⟨pending, hpending⟩ := Option.ne_none_iff_exists'.mp hbusy
  have houtstanding := hs.consistent.outstanding
  rw [hpending] at houtstanding
  obtain ⟨c, hsingle, hservice⟩ := List.map_eq_singleton_iff.mp houtstanding
  have hf := List.getElem?_eq_getElem (hs.known pending (.inl hpending))
  refine ⟨pending, _, hpending, hf, ?_⟩
  simp [asked, hsingle, hservice, hf]

variable (parse) in
/-- When another service is resolved, one that waits goes on waiting, with one
    service less before it. -/
theorem waits_resolved {name : QString} {s : Browsing} (hs : Sound s) (h : s.resolver.Waits name) {pending : ServiceRef}
    {f : FoundService} (hpending : s.resolver.pendingResolve = some pending)
    (hf : s.resolver.found[pending]? = some f) (hasked : asked s.resolver 0 = some f.info.serviceName)
    (hother : f.info.serviceName ≠ name) (host : InetAddress) :
    let t := (step parse s (.onServiceResolved 0 f.info host)).1.resolver
    t.Waits name ∧ t.resolverQueue.length < s.resolver.resolverQueue.length := by
  obtain ⟨ref, f', href, hf', hname⟩ := h
  have hqueue : some ref ∈ s.resolver.resolverQueue := by
    refine href.resolve_left fun hself => hother ?_
    rw [hpending, Option.some.injEq] at hself
    rw [hself, hf', Option.some.injEq] at hf
    rw [← hf, hname]
  obtain ⟨c, hc, -⟩ := Option.bind_eq_some_iff.mp hasked
  have hnext : (step parse s (.onServiceResolved 0 f.info host)).1.resolver = _ :=
    (resolver_step s _).trans <| by
      simp only [queueEvent?, if_pos hasked]
      exact step_answer hs.consistent rfl hc
  simp only [hnext]
  cases hcases : s.resolver.resolverQueue with
  | nil => simp [hcases] at hqueue
  | cons service rest =>
    refine ⟨⟨ref, f', ?_, hf', hname⟩, Nat.lt_succ_self _⟩
    rw [hcases] at hqueue
    rcases List.mem_cons.mp hqueue with hfirst | hrest
    · exact .inl hfirst.symm
    · exact .inr hrest

variable (parse) in
/-- Every answer to the call that is outstanding brings the services that wait
    nearer; a result for one of the name is queued in the end. -/
theorem resolved_of_waits {name : QString} {s : Browsing} (hs : Sound s) (h : s.resolver.Waits name) :
    ∃ events, (∀ e ∈ events, ¬ Discovers name e) ∧
      ∃ invocation ∈ (after (step parse) s events).posted, invocation.lists? name = some true := by
  generalize hlength : s.resolver.resolverQueue.length = n
  induction n using Nat.strongRecOn generalizing s with
  | ind n ih =>
  obtain ⟨pending, f, hpending, hf, hasked⟩ := asked_of_waits hs h
  let resolved : Event := .onServiceResolved 0 f.info ⟨[], []⟩
  have hundiscovered : ¬ Discovers name resolved := id
  by_cases hsame : f.info.serviceName = name
  · refine ⟨[resolved], by simpa using hundiscovered, ?_⟩
    have hposted := (step_posts parse s (e := resolved) nofun).1
    rw [after_cons, after_nil, hposted]
    simp only [resolved, posts, if_pos hasked]
    exact ⟨_, List.mem_append_right _ (List.mem_singleton_self _), if_pos hsame⟩
  · obtain ⟨hwaits, hshorter⟩ := waits_resolved parse hs h hpending hf hasked hsame ⟨[], []⟩
    obtain ⟨events, hevents, hposted⟩ := ih _ (hlength ▸ hshorter) (sound_step parse hs resolved) hwaits rfl
    refine ⟨resolved :: events, fun e he => ?_, hposted⟩
    rcases List.mem_cons.mp he with rfl | he
    · exact hundiscovered
    · exact hevents e he

/-- A result that is queued is reported when all is delivered. -/
theorem reports_deliverAll {name : QString} {invocations : List Invocation} {invocation : Invocation}
    (h : invocation ∈ invocations) (hname : invocation.lists? name = some true) (s : QZeroConfPrivate) :
    ∃ o ∈ (deliverAll invocations s).2, Reports name o := by
  induction invocations generalizing s with
  | nil => cases h
  | cons first rest ih =>
    rcases List.mem_cons.mp h with rfl | hrest
    · obtain ⟨o, ho, hreports⟩ := reports_of_lists hname s
      exact ⟨o, List.mem_append_left _ ho, hreports⟩
    · obtain ⟨o, ho, hreports⟩ := ih hrest (first.deliver s).1
      exact ⟨o, List.mem_append_right _ ho, hreports⟩

theorem not_discovers_deliver {name : QString} {n : Nat} :
    ∀ e ∈ List.replicate n Event.deliver, ¬ Discovers name e := by
  intro e he
  rw [List.eq_of_mem_replicate he]
  exact id

theorem deliveries_replicate (n : Nat) : deliveries (List.replicate n .deliver) = n := by
  simp [deliveries, List.countP_replicate, isDelivery]

/-- The loss itself is the last thing that is queued. -/
theorem leaving_lost {s : Browsing} {serviceInfo : NsdServiceInfo} (h : ¬ s.resolver.Waits serviceInfo.serviceName) :
    Leaving serviceInfo.serviceName (step parse s (.onServiceLost serviceInfo)).1.posted.length
      (step parse s (.onServiceLost serviceInfo)).1 := by
  have hposted : (step parse s (.onServiceLost serviceInfo)).1.posted =
      s.posted ++ [.onServiceRemoved serviceInfo.serviceName] := rfl
  refine ⟨h, ?_, ?_⟩
  · rw [List.drop_length]
    exact nofun
  · rw [hposted, List.length_append, List.length_singleton, LostIn, hposted, List.getElem?_concat_length]

/-- After its loss a service stays gone, whatever comes, exactly when it was
    neither being resolved nor in the queue for it. -/
theorem goneOnceDelivered_iff {s : Browsing} (hs : Sound s) (serviceInfo : NsdServiceInfo) :
    GoneOnceDelivered parse serviceInfo.serviceName (step parse s (.onServiceLost serviceInfo)).1 ↔
      ¬ s.resolver.Waits serviceInfo.serviceName := by
  have hlost := sound_step parse hs (.onServiceLost serviceInfo)
  constructor
  · intro hgone hwaits
    let lost := (step parse s (.onServiceLost serviceInfo)).1
    let drained := after (step parse) lost (List.replicate lost.posted.length .deliver)
    have hdrained : drained.resolver = s.resolver := congrArg (fun s => s.resolver) (deliver_all lost).1
    have hsound : Sound drained := after_invariant (I := Sound) (fun _ e hs => sound_step parse hs e) hlost _
    rw [← hdrained] at hwaits
    obtain ⟨events, hevents, invocation, hinvocation, hname⟩ := resolved_of_waits parse hsound hwaits
    let resolved := after (step parse) drained events
    have hrest : ∀ e ∈ List.replicate lost.posted.length Event.deliver ++
        (events ++ List.replicate resolved.posted.length .deliver), ¬ Discovers serviceInfo.serviceName e := by
      intro e he
      simp only [List.mem_append] at he
      rcases he with he | he | he
      · exact not_discovers_deliver e he
      · exact hevents e he
      · exact not_discovers_deliver e he
    have hsilent := (hgone _ _ hrest (deliveries_replicate _).ge).2
    obtain ⟨o, ho, hreports⟩ := reports_deliverAll hinvocation hname resolved.ref
    refine hsilent o ?_ hreports
    rw [trace_append]
    refine List.mem_append_right _ ?_
    rwa [(deliver_all resolved).2]
  · intro hunresolved mid post hundiscovered hdelivered
    obtain ⟨hmid, hsound⟩ := leaving_run hlost (leaving_lost hunresolved)
      fun e he => hundiscovered e (List.mem_append_left _ he)
    rw [Nat.sub_eq_zero_of_le hdelivered] at hmid
    refine ⟨fun hlisted => ?_, silent_run hsound hmid fun e he => hundiscovered e (List.mem_append_right _ he)⟩
    rw [Std.ExtTreeMap.mem_iff_contains, hmid.lost] at hlisted
    cases hlisted

variable (parse)

/-- In a run every service that is lost stays gone, however the run goes on
    without a discovery event for it, exactly when none that is lost is being
    resolved or in the queue for it. -/
theorem lostStaysGone_iff (events : List Event) :
    (∀ pre serviceInfo post, events = pre ++ .onServiceLost serviceInfo :: post →
        GoneOnceDelivered parse serviceInfo.serviceName
          (step parse (reached parse pre) (.onServiceLost serviceInfo)).1) ↔
      Along (step parse) NoneWaits {} events := by
  rw [along_iff_split]
  constructor
  · rintro h pre e post hevents serviceInfo rfl
    exact (goneOnceDelivered_iff (sound_reached pre) serviceInfo).mp (h pre serviceInfo post hevents)
  · intro h pre serviceInfo post hevents
    exact (goneOnceDelivered_iff (sound_reached pre) serviceInfo).mpr (h pre _ post hevents serviceInfo rfl)

/-- A service is lost while it is being resolved; the result comes after. -/
def lostWhileResolved : List Event :=
  let info : NsdServiceInfo := { serviceName := [0x61], serviceType := [] }
  [.onServiceFound info, .onServiceLost info, .deliver, .onServiceResolved 0 info { hostName := [], hostAddress := [] },
    .deliver]

/-- The lost service is added, and stays. -/
theorem lost_service_stays :
    ¬ ∀ parse pre serviceInfo post, lostWhileResolved = pre ++ .onServiceLost serviceInfo :: post →
      GoneOnceDelivered parse serviceInfo.serviceName
        (step parse (reached parse pre) (.onServiceLost serviceInfo)).1 := by
  intro h
  have hgone := h (fun _ => .null) (lostWhileResolved.take 1) _ (lostWhileResolved.drop 2) rfl
    (lostWhileResolved.drop 2) [] (by simp [lostWhileResolved, Discovers]) (by decide)
  have hlisted : (reached (fun _ => .null) lostWhileResolved).ref.services.contains [0x61] = true := by decide
  exact hgone.1 (Std.ExtTreeMap.mem_iff_contains.mpr hlisted)

end qtzeroconf.android.browsing
