import QtZeroConf.Avahi.Latest

open reactive

namespace qtzeroconf.avahi

/-- A service as Avahi names it: its name and the index of its interface. -/
abbrev Service := CString × Int32

def Service.key (p : Service) : QString := discoveryKey p.1 p.2

/-- A record that was created for a service. -/
def IsFor (p : Service) (zcs : QZeroConfServiceData) : Prop :=
  zcs.m_name = QString.fromUtf8 p.1 ∧ zcs.m_interfaceIndex = p.2.toUInt32

/-- The service that a browse or resolve event is about. -/
def Event.service? : Event → Option Service
  | .browse _ interface _ .AVAHI_BROWSER_NEW name _ _ => some (name, interface)
  | .browse _ interface _ .AVAHI_BROWSER_REMOVE name _ _ => some (name, interface)
  | .resolve interface _ name _ _ => some (name, interface)
  | _ => none

/-- The record that a signal carries. -/
def Output.record? : Output → Option QZeroConfServiceData
  | .signal sent => sent.service?
  | _ => none

/-- A step that leaves a service alone: its entry and its resolver stay as they
    are, and no signal is emitted for it. -/
structure Undisturbed (backend : Backend) (p : Service) (s : Discovery) (e : Event) : Prop where
  services : (step backend s e).1.services[p.key]? = s.services[p.key]?
  resolvers : (step backend s e).1.resolvers[p.key]? = s.resolvers[p.key]?
  silent : ∀ o ∈ (step backend s e).2, ∀ zcs, o.record? = some zcs → ¬ IsFor p zcs

/-- The key of the record's own name and interface. -/
def recordKey (zcs : QZeroConfServiceData) : QString :=
  serviceKey zcs.m_name zcs.m_interfaceIndex.toInt32.toInt

/-- A record is filed under the key of its service. -/
theorem recordKey_of_isFor {p : Service} {zcs : QZeroConfServiceData} (h : IsFor p zcs) :
    recordKey zcs = p.key := by
  rw [recordKey, h.1, h.2, Int32.toInt32_toUInt32, Service.key, discoveryKey]

/-- Every record is listed under the key of its own name and interface. -/
def Filed (s : Discovery) : Prop := ∀ (k : QString) zcs, s.services[k]? = some zcs → recordKey zcs = k

theorem recordKey_newService (interface : Int32) (name type domain : CString) (report : Report) :
    recordKey (newService interface name type domain report) = discoveryKey name interface := by
  rw [recordKey, newService, Int32.toInt32_toUInt32, discoveryKey]

theorem recordKey_setIp (zcs : QZeroConfServiceData) (ip : QHostAddress) :
    recordKey (zcs.setIp ip) = recordKey zcs := rfl

/-- What a report lists has the key it is listed under. -/
theorem recordKey_found {s : Discovery} (hs : Filed s) (interface : Int32) (name type domain : CString)
    (report : Report) :
    recordKey ((s.services[discoveryKey name interface]?.getD
      (newService interface name type domain report)).setIp (hostAddress report.address)) =
        discoveryKey name interface := by
  rw [recordKey_setIp]
  cases hlisted : s.services[discoveryKey name interface]? with
  | none => exact recordKey_newService interface name type domain report
  | some zcs => exact hs _ zcs hlisted

/-- One case for each event. -/
theorem filed_step (backend : Backend) (s : Discovery) (e : Event) (hs : Filed s) :
    Filed (step backend s e).1 := by
  intro k zcs h
  rcases services_step h with ⟨hold, -⟩ | ⟨interface, report, name, type, domain, -, rfl, rfl⟩
  · exact hs k zcs hold
  · exact recordKey_found hs interface name type domain report

/-- A step that touches only what is under one key, and signals only records
    with this key. -/
structure Confined (backend : Backend) (key : QString) (s : Discovery) (e : Event) : Prop where
  services : ∀ k : QString, key ≠ k → (step backend s e).1.services[k]? = s.services[k]?
  resolvers : ∀ k : QString, key ≠ k → (step backend s e).1.resolvers[k]? = s.resolvers[k]?
  signals : ∀ o ∈ (step backend s e).2, ∀ zcs, o.record? = some zcs → recordKey zcs = key

/-- The one signal of a removal is about the service of the key. -/
theorem removeService_signals {s : Discovery} (hs : Filed s) (key : QString) :
    ∀ o ∈ (removeService key s).2, ∀ zcs, o.record? = some zcs → recordKey zcs = key := by
  unfold removeService
  split
  · simp
  · rename_i zcs hzcs
    intro o ho zcs' hrecord
    rw [List.mem_singleton.mp ho] at hrecord
    cases hrecord
    exact hs key zcs hzcs

/-- A service that is found is resolved under its own key. -/
theorem confined_new {backend : Backend} {s : Discovery} {created : Bool} {interface : Int32}
    {protocol : AvahiProtocol} {name type domain : CString} :
    Confined backend (discoveryKey name interface) s
      (.browse created interface protocol .AVAHI_BROWSER_NEW name type domain) := by
  refine ⟨fun k hk => ?_, fun k hk => ?_, ?_⟩ <;> simp only [step, browseCallback, service_resolver_new]
  · (repeat' split) <;> rfl
  · (repeat' split) <;> simp [Std.ExtTreeMap.getElem?_insert, hk]
  · (repeat' split) <;> simp [Output.record?]

/-- A service that is lost leaves its own key. -/
theorem confined_remove {backend : Backend} {s : Discovery} (hs : Filed s) {created : Bool}
    {interface : Int32} {protocol : AvahiProtocol} {name type domain : CString} :
    Confined backend (discoveryKey name interface) s
      (.browse created interface protocol .AVAHI_BROWSER_REMOVE name type domain) := by
  refine ⟨fun k hk => ?_, fun k hk => ?_, ?_⟩ <;> simp only [step, browseCallback]
  · split
    · rfl
    · simp [removeService_services, hk]
  · split
    · rfl
    · simp [Std.ExtTreeMap.getElem?_erase, hk]
  · split
    · simp
    · intro o ho zcs hrecord
      simp only [Action.andThen_snd, Action.emit_apply, Action.update_apply, List.nil_append,
        List.singleton_append, List.mem_cons] at ho
      rcases ho with rfl | ho
      · cases hrecord
      · exact removeService_signals
          (s := { s with resolvers := s.resolvers.erase (discoveryKey name interface) }) hs _ o ho zcs hrecord

/-- A service that is resolved is listed under its own key. -/
theorem confined_resolve {backend : Backend} {s : Discovery} (hs : Filed s) {interface : Int32}
    {event : AvahiResolverEvent} {name type domain : CString} :
    Confined backend (discoveryKey name interface) s (.resolve interface event name type domain) := by
  cases event with
  | AVAHI_RESOLVER_FAILURE =>
    refine ⟨fun k hk => ?_, fun k hk => ?_, removeService_signals hs _⟩
    · simp only [step, resolveCallback, removeService_services, hk, if_false]
    · simp only [step, resolveCallback, removeService_resolvers]
  | AVAHI_RESOLVER_FOUND report =>
    refine ⟨fun k hk => ?_, fun k hk => ?_, fun o ho zcs hrecord => ?_⟩
    · simp only [step, resolveCallback]
      split <;> simp [Std.ExtTreeMap.getElem?_insert, hk]
    · simp only [step, resolveCallback]
      split <;> rfl
    · have hfound := recordKey_found hs interface name type domain report
      simp only [step, resolveCallback] at ho
      split at ho <;> rename_i hlisted <;> rw [hlisted] at hfound <;>
        (rw [List.mem_singleton.mp ho] at hrecord; cases hrecord; exact hfound)

/-- Every event about a service is confined to the key of this service. -/
theorem confined_of_service {backend : Backend} {s : Discovery} (hs : Filed s) {e : Event} {q : Service}
    (h : e.service? = some q) : Confined backend q.key s e := by
  cases e with
  | startBrowser created type protocol => cases h
  | stopBrowser => cases h
  | browse created interface protocol event name type domain =>
    cases event with
    | AVAHI_BROWSER_NEW =>
      cases h
      exact confined_new
    | AVAHI_BROWSER_REMOVE =>
      cases h
      exact confined_remove hs
    | AVAHI_BROWSER_CACHE_EXHAUSTED => cases h
    | AVAHI_BROWSER_ALL_FOR_NOW => cases h
    | AVAHI_BROWSER_FAILURE => cases h
  | resolve interface event name type domain =>
    cases h
    exact confined_resolve hs

/-- Events about a service leave every service with another key alone. -/
theorem undisturbed_of_key_ne {backend : Backend} {s : Discovery} (hs : Filed s) {e : Event} {p q : Service}
    (hkey : q.key ≠ p.key) (h : e.service? = some q) : Undisturbed backend p s e := by
  have hconfined : Confined backend q.key s e := confined_of_service hs h
  refine ⟨hconfined.services p.key hkey, hconfined.resolvers p.key hkey, fun o ho zcs hrecord hfor => ?_⟩
  exact hkey ((hconfined.signals o ho zcs hrecord).symm.trans (recordKey_of_isFor hfor))

/-- In every run, no event about `q` disturbs `p`. -/
def Apart (backend : Backend) (p q : Service) : Prop :=
  ∀ events, Along (step backend) (fun s e => e.service? = some q → Undisturbed backend p s e) {} events

/-- A service is apart from another one exactly when their keys differ. -/
theorem apart_iff_key_ne (backend : Backend) (p q : Service) : Apart backend p q ↔ q.key ≠ p.key := by
  constructor
  · intro hapart hkey
    -- the first NEW for `q` takes the key of `p`
    have hrun := hapart [.startBrowser true (tcpType 0x61) .IPv4Protocol,
      .browse true q.2 .AVAHI_PROTO_INET .AVAHI_BROWSER_NEW q.1 reportedType reportedDomain]
    have hdisturbed := (hrun.2.1 rfl).resolvers
    have hempty := (startBrowser_tables backend true (tcpType 0x61) .IPv4Protocol {}).2
    generalize (step backend {} (.startBrowser true (tcpType 0x61) .IPv4Protocol)).1 = s at hdisturbed hempty
    have hkey' : discoveryKey q.1 q.2 = p.key := hkey
    rw [hempty, step, browseCallback, service_resolver_new, hkey', hempty] at hdisturbed
    simp at hdisturbed
  · intro hkey events
    exact along_of_invariant (I := Filed) (fun s e _ hs => filed_step backend s e hs)
      (fun s e _ hs h => undisturbed_of_key_ne hs hkey h) (fun k zcs h => by simp at h)

end qtzeroconf.avahi
