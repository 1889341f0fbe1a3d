import QtZeroConf.Avahi.Frame
import QtZeroConf.Avahi.Resolvers

open reactive mirror

namespace qtzeroconf.avahi

/-- What an output says about the list of services, where a service is known by
    its name and interface. -/
def Output.notice? : Output → Option (Notice QString QZeroConfServiceData)
  | .signal sent => sent.notice? recordKey id
  | _ => none

def notices (outputs : List Output) : List (Notice QString QZeroConfServiceData) :=
  outputs.filterMap Output.notice?

/-- Two records of one service. -/
def SameService (zcs zcs' : QZeroConfServiceData) : Prop :=
  zcs.m_name = zcs'.m_name ∧ zcs.m_interfaceIndex = zcs'.m_interfaceIndex

/-- Avahi calls back for objects that it has created and that are not freed; a
    resolver reports the name and the interface it was created with. -/
def CallsBack (outputs : List Output) : Event → Prop
  | .browse _ _ _ _ _ _ _ => ∃ handle protocol type,
    .service_browser_new handle protocol type ∈ outputs ∧ .service_browser_free handle ∉ outputs
  | .resolve interface _ name _ _ => ∃ r,
    .service_resolver_new r ∈ outputs ∧ .service_resolver_free (some r) ∉ outputs ∧
      r.name = name ∧ r.interface = interface
  | _ => True

/-- A run in which Avahi makes no other callbacks. -/
def Genuine (backend : Backend) (events : List Event) : Prop :=
  ∀ pre e post, events = pre ++ e :: post → CallsBack (trace (step backend) {} pre) e

/-- The state of discovery after a run, and what it has signalled: the signals
    add up to the list, those for one key come as the life of an entry does,
    what is listed has a resolver, and without a browser there is nothing. -/
structure DiscoveryConsistent (backend : Backend) (events : List Event) : Prop where
  folded : replay empty (notices (trace (step backend) {} events)) = tableView (reached backend events).services
  coherent : Coherent SameService empty (notices (trace (step backend) {} events))
  alternating : ∀ key, Alternating false
    ((notices (trace (step backend) {} events)).filter fun notice => notice.key = key)
  resolving : ∀ key, key ∈ (reached backend events).services → key ∈ (reached backend events).resolvers
  closed : (reached backend events).browser = none →
    (reached backend events).services = ∅ ∧ (reached backend events).resolvers = ∅

theorem notices_append (outputs outputs' : List Output) :
    notices (outputs ++ outputs') = notices outputs ++ notices outputs' :=
  List.filterMap_append

/-- A service is withdrawn when it is in the table, and then gone. -/
theorem mirrors_removeService {s : Discovery} (hs : Filed s) (key : QString) :
    Mirrors SameService (tableView s.services) (notices (removeService key s).2)
      (tableView (removeService key s).1.services) := by
  unfold removeService
  split
  · exact mirrors_nil
  · rename_i zcs hzcs
    rw [tableView_erase]
    have hkey : recordKey zcs = key := hs key zcs hzcs
    subst hkey
    exact mirrors_single (n := .removed (recordKey zcs) zcs) hzcs

/-- The cleanup withdraws every service, and leaves the table empty. -/
theorem mirrors_broswerCleanUp {s : Discovery} (hs : Filed s) :
    Mirrors SameService (tableView s.services) (notices (broswerCleanUp s).2)
      (tableView (broswerCleanUp s).1.services) := by
  unfold broswerCleanUp
  split
  · exact mirrors_nil
  · have hremoved : notices (s.services.toList.map fun entry => .signal (.serviceRemoved entry.2)) =
        s.services.toList.map fun entry => .removed entry.1 entry.2 := by
      rw [notices, List.filterMap_map, ← List.filterMap_eq_map]
      refine List.filterMap_congr fun entry hentry => ?_
      have hkey := hs entry.1 entry.2 (Std.ExtTreeMap.mem_toList_iff_getElem?_eq_some.mp hentry)
      simp [Output.notice?, Signal.notice?, hkey]
    have hfrees : notices (s.resolvers.toList.map fun entry => .service_resolver_free entry.2) = [] := by
      simp [notices, Output.notice?]
    have hbrowser (handle : Nat) (outputs : List Output) :
        notices (.service_browser_free handle :: outputs) = notices outputs := rfl
    rw [List.cons_append, hbrowser, notices_append, hremoved, hfrees, List.append_nil, tableView_empty]
    exact mirrors_clear s.services

/-- To open a browser announces nothing. -/
theorem mirrors_openBrowser (created : Bool) (type : QString) (protocol : NetworkLayerProtocol)
    (s : Discovery) :
    Mirrors SameService (tableView s.services) (notices (openBrowser created type protocol s).2)
      (tableView (openBrowser created type protocol s).1.services) := by
  cases created <;> exact mirrors_nil

/-- A report lists its service, or shows it again under the same name and
    interface. -/
theorem mirrors_found {s : Discovery} (hs : Filed s) (interface : Int32) (report : Report)
    (name type domain : CString) :
    let next := resolveCallback interface (.AVAHI_RESOLVER_FOUND report) name type domain s
    Mirrors SameService (tableView s.services) (notices next.2) (tableView next.1.services) := by
  simp only [resolveCallback]
  cases hlisted : s.services[discoveryKey name interface]? with
  | none =>
    dsimp only
    have hkey : recordKey ((newService interface name type domain report).setIp (hostAddress report.address)) =
        discoveryKey name interface := recordKey_newService interface name type domain report
    rw [tableView_insert, ← hkey]
    exact mirrors_single (n := .added _ _) (hkey ▸ hlisted)
  | some zcs =>
    dsimp only
    have hkey : recordKey (zcs.setIp (hostAddress report.address)) = discoveryKey name interface :=
      hs _ zcs hlisted
    rw [tableView_insert, ← hkey]
    exact mirrors_single (n := .updated _ _) ⟨zcs, hkey ▸ hlisted, rfl, rfl⟩

/-- Every step signals exactly what it does to the list. -/
theorem mirrors_step (backend : Backend) (s : Discovery) (e : Event) (hs : Filed s) :
    Mirrors SameService (tableView s.services) (notices (step backend s e).2)
      (tableView (step backend s e).1.services) := by
  cases e with
  | startBrowser created type protocol =>
    cases backend with
    | avahiclient client =>
      simp only [step, avahiclient.startBrowser]
      split
      · exact mirrors_nil
      · exact mirrors_openBrowser created type protocol s
    | avahicore =>
      simp only [step, avahicore.startBrowser, Action.andThen_fst, Action.andThen_snd, notices_append]
      split <;> exact mirrors_openBrowser created type protocol s
  | stopBrowser => exact mirrors_broswerCleanUp hs
  | browse created interface protocol event name type domain =>
    cases event with
    | AVAHI_BROWSER_NEW =>
      simp only [step, browseCallback, service_resolver_new]
      (repeat' split) <;> exact mirrors_nil
    | AVAHI_BROWSER_REMOVE =>
      simp only [step, browseCallback]
      split
      · exact mirrors_nil
      · exact mirrors_removeService
          (s := { s with resolvers := s.resolvers.erase (discoveryKey name interface) }) hs _
    | AVAHI_BROWSER_FAILURE =>
      simp only [step, browseCallback, Action.andThen_fst, Action.andThen_snd, Action.emit_apply,
        notices_append]
      exact (mirrors_broswerCleanUp hs).append mirrors_nil
    | AVAHI_BROWSER_ALL_FOR_NOW => exact mirrors_nil
    | AVAHI_BROWSER_CACHE_EXHAUSTED => exact mirrors_nil
  | resolve interface event name type domain =>
    cases event with
    | AVAHI_RESOLVER_FOUND report => exact mirrors_found hs interface report name type domain
    | AVAHI_RESOLVER_FAILURE => exact mirrors_removeService hs _

/-- In every run of either backend the signals mirror the list. -/
theorem mirrors_reached (backend : Backend) (events : List Event) :
    Mirrors SameService empty (notices (trace (step backend) {} events))
      (tableView (reached backend events).services) := by
  have hinitial : tableView ({} : Discovery).services = empty := tableView_empty
  have hfiled : Filed {} := fun k zcs h => by simp at h
  rw [← hinitial]
  exact mirrors_run (fun s e hs => filed_step backend s e hs) (mirrors_step backend) hfiled events

/-- An avahiclient instance knows its browser: what was created and is not freed
    is the current one. -/
def BrowserKnown (outputs : List Output) (s : Discovery) : Prop :=
  ∀ handle protocol type, .service_browser_new handle protocol type ∈ outputs →
    .service_browser_free handle ∉ outputs → s.browser = some handle

/-- A step that opens no browser and keeps the one there is. -/
theorem BrowserKnown.of_same {outputs outputs' : List Output} {s s' : Discovery} (h : BrowserKnown outputs s)
    (hsame : s'.browser = s.browser)
    (hnone : ∀ handle protocol type, .service_browser_new handle protocol type ∉ outputs') :
    BrowserKnown (outputs ++ outputs') s' := by
  intro handle protocol type hcreated hfreed
  rw [hsame]
  refine h handle protocol type ?_ fun hmem => hfreed (List.mem_append_left _ hmem)
  exact (List.mem_append.mp hcreated).resolve_right (hnone handle protocol type)

theorem removeService_browser (key : QString) (s : Discovery) :
    (removeService key s).1.browser = s.browser := by
  unfold removeService
  split <;> rfl

theorem browser_new_notMem_removeService {key : QString} {s : Discovery} {handle : Nat}
    {protocol : AvahiProtocol} {type : QByteArray} :
    .service_browser_new handle protocol type ∉ (removeService key s).2 := by
  unfold removeService
  split <;> simp

/-- The cleanup leaves no browser to be known. -/
theorem browserKnown_broswerCleanUp {outputs : List Output} {s : Discovery} (h : BrowserKnown outputs s) :
    BrowserKnown (outputs ++ (broswerCleanUp s).2) (broswerCleanUp s).1 := by
  intro handle protocol type hcreated hfreed
  unfold broswerCleanUp at hcreated hfreed ⊢
  cases hbrowser : s.browser with
  | none =>
    simp only [hbrowser, List.append_nil] at hcreated hfreed
    have hknown := h handle protocol type hcreated hfreed
    rw [hbrowser] at hknown
    cases hknown
  | some current =>
    simp only [hbrowser] at hcreated hfreed
    have hold : .service_browser_new handle protocol type ∈ outputs := by simpa using hcreated
    have hknown := h handle protocol type hold fun hmem => hfreed (List.mem_append_left _ hmem)
    rw [hbrowser, Option.some.injEq] at hknown
    subst hknown
    exact absurd (List.mem_append_right _ List.mem_cons_self) hfreed

/-- A browser is created only where there is none. -/
theorem browserKnown_step (client : Bool) {outputs : List Output} {s : Discovery} (h : BrowserKnown outputs s)
    (e : Event) :
    BrowserKnown (outputs ++ (step (.avahiclient client) s e).2) (step (.avahiclient client) s e).1 := by
  cases e with
  | startBrowser created type protocol =>
    simp only [step, avahiclient.startBrowser]
    split
    · exact h.of_same rfl (by simp)
    · rename_i hguard
      have hnone : s.browser = none := by
        simp only [Bool.or_eq_true, not_or, Option.not_isSome_iff_eq_none] at hguard
        exact hguard.2
      cases created with
      | false => exact h.of_same hnone.symm (by simp [openBrowser])
      | true =>
        intro handle protocol' type' hcreated hfreed
        rcases List.mem_append.mp hcreated with hold | hnew
        · have hknown := h handle protocol' type' hold fun hmem => hfreed (List.mem_append_left _ hmem)
          rw [hnone] at hknown
          cases hknown
        · cases List.mem_singleton.mp hnew
          rfl
  | stopBrowser => exact browserKnown_broswerCleanUp h
  | browse created interface protocol event name type domain =>
    cases event with
    | AVAHI_BROWSER_NEW =>
      simp only [step, browseCallback, service_resolver_new]
      (repeat' split) <;> exact h.of_same rfl (by simp)
    | AVAHI_BROWSER_REMOVE =>
      simp only [step, browseCallback]
      split
      · exact h.of_same rfl (by simp)
      · refine h.of_same (removeService_browser _ _) fun handle protocol' type' => ?_
        simpa using browser_new_notMem_removeService
    | AVAHI_BROWSER_FAILURE =>
      simp only [step, browseCallback, Action.andThen_fst, Action.andThen_snd, ← List.append_assoc]
      exact (browserKnown_broswerCleanUp h).of_same rfl (by simp)
    | AVAHI_BROWSER_ALL_FOR_NOW => exact h.of_same rfl (by simp [step, browseCallback])
    | AVAHI_BROWSER_CACHE_EXHAUSTED => exact h.of_same rfl (by simp [step, browseCallback])
  | resolve interface event name type domain =>
    cases event with
    | AVAHI_RESOLVER_FOUND report =>
      simp only [step, resolveCallback]
      split <;> exact h.of_same rfl (by simp)
    | AVAHI_RESOLVER_FAILURE =>
      exact h.of_same (removeService_browser _ s) fun handle protocol' type' => browser_new_notMem_removeService

/-- What is listed has a resolver, and without a browser there is nothing. -/
structure Orderly (s : Discovery) : Prop where
  resolving : ∀ key, key ∈ s.services → key ∈ s.resolvers
  closed : s.browser = none → s.services = ∅ ∧ s.resolvers = ∅

/-- The cleanup empties both tables. -/
theorem orderly_broswerCleanUp {s : Discovery} (hs : Orderly s) : Orderly (broswerCleanUp s).1 := by
  unfold broswerCleanUp
  split
  · exact hs
  · exact ⟨fun key hkey => by simp at hkey, fun _ => ⟨rfl, rfl⟩⟩

/-- A resolver that calls back is in the table, under the key of what it reports. -/
theorem resolving_of_callsBack {outputs : List Output} {s : Discovery}
    (h : Accounted (resolverCalls outputs) s) {interface : Int32} {event : AvahiResolverEvent}
    {name type domain : CString} (hcalls : CallsBack outputs (.resolve interface event name type domain)) :
    discoveryKey name interface ∈ s.resolvers := by
  obtain ⟨r, hcreated, hfreed, rfl, rfl⟩ := hcalls
  have hcreated' : .register (some r) ∈ resolverCalls outputs :=
    List.mem_filterMap.mpr ⟨_, hcreated, rfl⟩
  have hfreed' : .release (some r) ∉ resolverCalls outputs := by
    intro hmem
    obtain ⟨o, ho, hcall⟩ := List.mem_filterMap.mp hmem
    cases o <;> cases hcall
    exact hfreed ho
  rw [Std.ExtTreeMap.mem_iff_isSome_getElem?, h.kept r hcreated' hfreed']
  rfl

/-- A browser is started where there is none, and leaves the tables alone. -/
theorem orderly_startBrowser (client : Bool) {s : Discovery} (hs : Orderly s) (created : Bool) (type : QString)
    (protocol : NetworkLayerProtocol) :
    Orderly (step (.avahiclient client) s (.startBrowser created type protocol)).1 := by
  have htables := startBrowser_tables (.avahiclient client) created type protocol s
  refine ⟨fun key hkey => ?_, fun hnone => ?_⟩
  · rw [htables.2]
    exact hs.resolving key (htables.1 ▸ hkey)
  · rw [htables.1, htables.2]
    refine hs.closed ?_
    simp only [step, avahiclient.startBrowser] at hnone
    split at hnone
    · exact hnone
    · rename_i hguard
      simp only [Bool.or_eq_true, not_or, Option.not_isSome_iff_eq_none] at hguard
      exact hguard.2

theorem mem_removeService {key k : QString} {s : Discovery} (h : k ∈ (removeService key s).1.services) :
    key ≠ k ∧ k ∈ s.services := by
  rw [Std.ExtTreeMap.mem_iff_isSome_getElem?, removeService_services] at h
  split at h
  · cases h
  · rename_i hne
    exact ⟨hne, Std.ExtTreeMap.mem_iff_isSome_getElem?.mpr h⟩

/-- A browse event of the browser keeps the order. -/
theorem orderly_browse {s : Discovery} (hs : Orderly s) {handle : Nat} (hopen : s.browser = some handle)
    (created : Bool) (interface : Int32) (protocol : AvahiProtocol) (event : AvahiBrowserEvent)
    (name type domain : CString) :
    Orderly (browseCallback created interface protocol event name type domain s).1 := by
  cases event with
  | AVAHI_BROWSER_NEW =>
    simp only [browseCallback, service_resolver_new]
    split
    · exact hs
    · split <;> refine ⟨fun key hkey => ?_, fun hnone => by simp [hopen] at hnone⟩ <;>
        exact Std.ExtTreeMap.mem_insert.mpr (Or.inr (hs.resolving key hkey))
  | AVAHI_BROWSER_REMOVE =>
    simp only [browseCallback]
    split
    · exact hs
    · refine ⟨fun key hkey => ?_, fun hnone => ?_⟩
      · obtain ⟨hne, hlisted⟩ := mem_removeService hkey
        simp only [Action.andThen_fst, Action.emit_apply, Action.update_apply, removeService_resolvers]
        exact Std.ExtTreeMap.mem_erase.mpr ⟨mt Std.LawfulEqCmp.eq_of_compare hne, hs.resolving key hlisted⟩
      · simp [removeService_browser, hopen] at hnone
  | AVAHI_BROWSER_FAILURE => exact orderly_broswerCleanUp hs
  | AVAHI_BROWSER_ALL_FOR_NOW => exact hs
  | AVAHI_BROWSER_CACHE_EXHAUSTED => exact hs

/-- A resolve event of a resolver in the table keeps the order. -/
theorem orderly_resolve {s : Discovery} (hs : Orderly s) {interface : Int32} {name : CString}
    (hresolving : discoveryKey name interface ∈ s.resolvers) (event : AvahiResolverEvent) (type domain : CString) :
    Orderly (resolveCallback interface event name type domain s).1 := by
  have hopen : s.browser ≠ none := by
    intro hnone
    rw [(hs.closed hnone).2] at hresolving
    simp at hresolving
  cases event with
  | AVAHI_RESOLVER_FOUND report =>
    simp only [resolveCallback]
    split <;> refine ⟨fun key hkey => ?_, fun hnone => absurd hnone hopen⟩ <;>
      rcases Std.ExtTreeMap.mem_insert.mp hkey with hsame | hkey
    · exact Std.LawfulEqCmp.eq_of_compare hsame ▸ hresolving
    · exact hs.resolving key hkey
    · exact Std.LawfulEqCmp.eq_of_compare hsame ▸ hresolving
    · exact hs.resolving key hkey
  | AVAHI_RESOLVER_FAILURE =>
    refine ⟨fun key hkey => ?_, fun hnone => absurd ((removeService_browser _ s).symm.trans hnone) hopen⟩
    simp only [resolveCallback, removeService_resolvers]
    exact hs.resolving key (mem_removeService hkey).2

/-- One case for each event that the library may send. -/
theorem orderly_step (client : Bool) {outputs : List Output} {s : Discovery} {e : Event} (hs : Orderly s)
    (hbrowser : BrowserKnown outputs s) (haccounted : Accounted (resolverCalls outputs) s)
    (hcalls : CallsBack outputs e) : Orderly (step (.avahiclient client) s e).1 := by
  cases e with
  | startBrowser created type protocol => exact orderly_startBrowser client hs created type protocol
  | stopBrowser => exact orderly_broswerCleanUp hs
  | browse created interface protocol event name type domain =>
    obtain ⟨handle, protocol', type', hcreated, hfreed⟩ := hcalls
    exact orderly_browse hs (hbrowser handle protocol' type' hcreated hfreed) created interface protocol event name
      type domain
  | resolve interface event name type domain =>
    exact orderly_resolve hs (resolving_of_callsBack haccounted hcalls) event type domain

theorem browserKnown_reached (client : Bool) (events : List Event) :
    BrowserKnown (trace (step (.avahiclient client)) {} events) (reached (.avahiclient client) events) := by
  induction events using List.reverseRecOn with
  | nil => exact fun handle protocol type hcreated => by simp at hcreated
  | append_singleton events e ih =>
    have hstep := browserKnown_step client ih e
    rw [reached, after_append, trace_append]
    simpa [reached] using hstep

theorem genuine_snoc {backend : Backend} {events : List Event} {e : Event} :
    Genuine backend (events ++ [e]) ↔
      Genuine backend events ∧ CallsBack (trace (step backend) {} events) e := by
  constructor
  · intro h
    exact ⟨fun pre e' post hsplit => h pre e' (post ++ [e]) (by simp [hsplit]), h events e [] rfl⟩
  · rintro ⟨hevents, hlast⟩ pre e' post hsplit
    rcases List.eq_nil_or_concat post with rfl | ⟨post, last, rfl⟩
    · obtain ⟨rfl, he⟩ := List.append_inj' hsplit rfl
      cases he
      exact hlast
    · rw [List.concat_eq_append, ← List.cons_append, ← List.append_assoc] at hsplit
      exact hevents pre e' post (List.append_inj' hsplit rfl).1

/-- The order holds over every run with events that the library may send. -/
theorem orderly_reached (client : Bool) {events : List Event} (h : Genuine (.avahiclient client) events) :
    Orderly (reached (.avahiclient client) events) := by
  induction events using List.reverseRecOn with
  | nil => exact ⟨fun key hkey => by simp [reached] at hkey, fun _ => ⟨rfl, rfl⟩⟩
  | append_singleton events e ih =>
    obtain ⟨hevents, hlast⟩ := genuine_snoc.mp h
    rw [reached, after_append]
    exact orderly_step client (ih hevents) (browserKnown_reached client events)
      (accounted_reached (.avahiclient client) events) hlast

/-- Discovery of avahiclient is consistent in every state of every run in which
    Avahi calls back for the objects that it has created and that are not freed. -/
theorem discovery_consistent (client : Bool) (events : List Event) (h : Genuine (.avahiclient client) events) :
    ∀ pre, pre <+: events → DiscoveryConsistent (.avahiclient client) pre := by
  rintro pre ⟨rest, rfl⟩
  have hpre : Genuine (.avahiclient client) pre :=
    fun before e post hsplit => h before e (post ++ rest) (by simp [hsplit])
  obtain ⟨hcoherent, hfolded⟩ := mirrors_reached (.avahiclient client) pre
  obtain ⟨hresolving, hclosed⟩ := orderly_reached client hpre
  exact ⟨hfolded, hcoherent, hcoherent.alternating, hresolving, hclosed⟩

/-- "a" appears on interface 2 and is resolved. -/
def serviceFound : List Event :=
  [.startBrowser true (tcpType 0x61) .IPv4Protocol,
    .browse true 2 .AVAHI_PROTO_INET .AVAHI_BROWSER_NEW [0x61] reportedType reportedDomain,
    .resolve 2 (.AVAHI_RESOLVER_FOUND { host_name := [], address := .ipv4 0x0A000001, port := 80, txt := [] })
      [0x61] reportedType reportedDomain]

theorem discovery_consistent_found :
    (reached (.avahiclient true) serviceFound).services.contains (discoveryKey [0x61] 2) = true ∧
      DiscoveryConsistent (.avahiclient true) serviceFound := by
  refine ⟨by decide, discovery_consistent true serviceFound ?_ serviceFound List.prefix_rfl⟩
  intro pre e post hsplit
  rcases pre with _ | ⟨e₁, _ | ⟨e₂, _ | ⟨e₃, pre⟩⟩⟩
  · cases hsplit
    trivial
  · cases hsplit
    exact ⟨0, .AVAHI_PROTO_INET, reportedType, List.mem_cons_self, by simp [step, avahiclient.startBrowser, openBrowser]⟩
  · cases hsplit
    refine ⟨⟨1, 2, .AVAHI_PROTO_INET, [0x61], reportedType, reportedDomain, .AVAHI_PROTO_INET⟩, ?_, ?_, rfl, rfl⟩ <;>
      simp [step, avahiclient.startBrowser, openBrowser, browseCallback, service_resolver_new, browserProtocol]
  · simp [serviceFound] at hsplit

end qtzeroconf.avahi
