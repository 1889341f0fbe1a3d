import QtZeroConf.Avahi.Discovery

open reactive

namespace qtzeroconf.avahi

/-- A service record shows exactly what a resolver reported. -/
structure Shows (zcs : QZeroConfServiceData) (report : Report) : Prop where
  host : zcs.m_host = QString.fromUtf8 report.host_name
  port : zcs.m_port = report.port
  txt : zcs.m_txt = readTxt report.txt ∅
  ip : zcs.m_ip = hostAddress report.address

/-- A service record has the host name, port and TXT records of a report. -/
structure SameRecord (zcs : QZeroConfServiceData) (report : Report) : Prop where
  host : zcs.m_host = QString.fromUtf8 report.host_name
  port : zcs.m_port = report.port
  txt : zcs.m_txt = readTxt report.txt ∅

/-- After a report, the service it is about shows it. -/
def ReportShown (backend : Backend) (s : Discovery) : Event → Prop
  | .resolve interface (.AVAHI_RESOLVER_FOUND report) name type domain =>
    ∃ zcs, (step backend s
        (.resolve interface (.AVAHI_RESOLVER_FOUND report) name type domain)).1.services[discoveryKey name interface]? =
      some zcs ∧ Shows zcs report
  | _ => True

/-- A report for a service that is already listed repeats the host name, the
    port and the TXT records that are listed for it. -/
def ReportRepeats (s : Discovery) : Event → Prop
  | .resolve interface (.AVAHI_RESOLVER_FOUND report) name _ _ =>
    ∀ zcs, s.services[discoveryKey name interface]? = some zcs → SameRecord zcs report
  | _ => True

/-- The entry that a report leaves under its key: the listed record with the
    new address, or a record made from the report. -/
theorem found_entry (backend : Backend) (s : Discovery) (interface : Int32) (report : Report)
    (name type domain : CString) :
    (step backend s (.resolve interface (.AVAHI_RESOLVER_FOUND report) name type domain)).1.services[
        discoveryKey name interface]? =
      some ((s.services[discoveryKey name interface]?.getD (newService interface name type domain report)).setIp
        (hostAddress report.address)) := by
  simp only [step, resolveCallback]
  cases s.services[discoveryKey name interface]? with
  | none => simp
  | some zcs => simp

/-- One report is shown exactly when it is the first for its service or repeats
    everything but the address. -/
theorem reportShown_iff (backend : Backend) (s : Discovery) (e : Event) :
    ReportShown backend s e ↔ ReportRepeats s e := by
  cases e with
  | startBrowser created type protocol => exact Iff.rfl
  | stopBrowser => exact Iff.rfl
  | browse created interface protocol event name type domain => exact Iff.rfl
  | resolve interface event name type domain =>
    cases event with
    | AVAHI_RESOLVER_FAILURE => exact Iff.rfl
    | AVAHI_RESOLVER_FOUND report =>
      simp only [ReportShown, ReportRepeats, found_entry, Option.some.injEq, exists_eq_left']
      cases s.services[discoveryKey name interface]? with
      | none =>
        constructor
        · intro _ zcs h
          cases h
        · intro _
          exact ⟨rfl, rfl, rfl, rfl⟩
      | some zcs =>
        constructor
        · rintro ⟨hhost, hport, htxt, -⟩ _ hlisted
          cases hlisted
          exact ⟨hhost, hport, htxt⟩
        · intro h
          obtain ⟨hhost, hport, htxt⟩ := h zcs rfl
          exact ⟨hhost, hport, htxt, rfl⟩

/-- The report about a key that an event makes. -/
def reportFor (key : QString) : Event → Option Report
  | .resolve interface (.AVAHI_RESOLVER_FOUND report) name _ _ =>
    if discoveryKey name interface = key then some report else none
  | _ => none

/-- The last report about a key in a sequence of events. -/
def lastReport (key : QString) (events : List Event) : Option Report :=
  events.reverse.findSome? (reportFor key)

theorem lastReport_append (key : QString) (events : List Event) (e : Event) :
    lastReport key (events ++ [e]) = (reportFor key e).or (lastReport key events) := by
  simp only [lastReport, List.reverse_append, List.reverse_singleton, List.singleton_append,
    List.findSome?_cons]
  cases reportFor key e <;> rfl

/-- Where an entry comes from: a step keeps it, or makes it from a report about
    its key. -/
theorem services_step {backend : Backend} {s : Discovery} {e : Event} {key : QString}
    {zcs : QZeroConfServiceData} (h : (step backend s e).1.services[key]? = some zcs) :
    (s.services[key]? = some zcs ∧ reportFor key e = none) ∨
      ∃ interface report name type domain,
        e = .resolve interface (.AVAHI_RESOLVER_FOUND report) name type domain ∧
        discoveryKey name interface = key ∧
        zcs = (s.services[key]?.getD (newService interface name type domain report)).setIp
          (hostAddress report.address) := by
  have hremove {key' : QString} {t : Discovery}
      (h : (removeService key' t).1.services[key]? = some zcs) : t.services[key]? = some zcs := by
    rw [removeService_services] at h
    split at h
    · cases h
    · exact h
  cases e with
  | startBrowser created type protocol =>
    rw [(startBrowser_tables backend created type protocol s).1] at h
    exact Or.inl ⟨h, rfl⟩
  | stopBrowser => exact Or.inl ⟨services_of_broswerCleanUp h, rfl⟩
  | browse created interface protocol event name type domain =>
    left
    refine ⟨?_, rfl⟩
    cases event with
    | AVAHI_BROWSER_FAILURE => exact services_of_broswerCleanUp h
    | AVAHI_BROWSER_NEW =>
      simp only [step, browseCallback, service_resolver_new] at h
      split at h
      · exact h
      · split at h <;> exact h
    | AVAHI_BROWSER_REMOVE =>
      simp only [step, browseCallback] at h
      split at h
      · exact h
      · exact hremove (t := { s with resolvers := s.resolvers.erase (discoveryKey name interface) }) h
    | AVAHI_BROWSER_ALL_FOR_NOW => exact h
    | AVAHI_BROWSER_CACHE_EXHAUSTED => exact h
  | resolve interface event name type domain =>
    cases event with
    | AVAHI_RESOLVER_FAILURE => exact Or.inl ⟨hremove h, rfl⟩
    | AVAHI_RESOLVER_FOUND report =>
      by_cases hkey : discoveryKey name interface = key
      · right
        subst hkey
        rw [found_entry, Option.some.injEq] at h
        exact ⟨interface, report, name, type, domain, rfl, rfl, h.symm⟩
      · left
        refine ⟨?_, if_neg hkey⟩
        simp only [step, resolveCallback] at h
        split at h <;> simpa [Std.ExtTreeMap.getElem?_insert, hkey] using h

/-- What discovery promises about reports: each is shown as soon as it is made,
    and every listed service shows the last report about it in every state. -/
structure LatestShown (backend : Backend) (events : List Event) : Prop where
  reports : Along (step backend) (ReportShown backend) {} events
  listed : ∀ pre, pre <+: events → ∀ key zcs, (reached backend pre).services[key]? = some zcs →
    ∃ report, lastReport key pre = some report ∧ Shows zcs report

/-- While reports repeat their records, every listed service shows the last
    report about it. -/
theorem listed_of_repeats (backend : Backend) {events : List Event}
    (h : Along (step backend) ReportRepeats {} events) :
    ∀ key zcs, (reached backend events).services[key]? = some zcs →
      ∃ report, lastReport key events = some report ∧ Shows zcs report := by
  induction events using List.reverseRecOn with
  | nil =>
    intro key zcs hentry
    simp [reached] at hentry
  | append_singleton events e ih =>
    obtain ⟨hevents, hlast, -⟩ := along_append.mp h
    intro key zcs hentry
    rw [reached, after_append] at hentry
    rw [lastReport_append]
    rcases services_step hentry with ⟨hkept, hnone⟩ | ⟨interface, report, name, type, domain, rfl, rfl, rfl⟩
    · rw [hnone]
      exact ih hevents key zcs hkept
    · refine ⟨report, by simp [reportFor], ?_⟩
      obtain ⟨shown, hshown, hshows⟩ := (reportShown_iff backend _ _).mpr hlast
      rw [found_entry, Option.some.injEq] at hshown
      exact hshown ▸ hshows

/-- In every run of either backend the latest reports are shown exactly when
    every report for a listed service repeats its host name, port and TXT
    records, so that only its address can be new. -/
theorem latestShown_iff (backend : Backend) (events : List Event) :
    LatestShown backend events ↔ Along (step backend) ReportRepeats {} events := by
  have hshown : Along (step backend) (ReportShown backend) {} events ↔
      Along (step backend) ReportRepeats {} events :=
    along_congr (I := fun _ => True) (fun _ _ _ _ => trivial)
      (fun s e _ => reportShown_iff backend s e) trivial events
  constructor
  · exact fun h => hshown.mp h.reports
  · intro h
    refine ⟨hshown.mpr h, ?_⟩
    rintro pre ⟨rest, rfl⟩
    exact listed_of_repeats backend (along_append.mp h).1

/-- "Printer" on interface 2 moves from port 80 to port 81. -/
def portChange : List Event :=
  let report (port : UInt16) : AvahiResolverEvent :=
    .AVAHI_RESOLVER_FOUND { host_name := [0x68], address := .ipv4 0x0A000001, port, txt := [] }
  let name : CString := [0x50, 0x72, 0x69, 0x6E, 0x74, 0x65, 0x72]
  [.startBrowser true (tcpType 0x61) .IPv4Protocol,
    .browse true 2 .AVAHI_PROTO_INET .AVAHI_BROWSER_NEW name reportedType reportedDomain,
    .resolve 2 (report 80) name reportedType reportedDomain, .resolve 2 (report 81) name reportedType reportedDomain]

/-- The second report, with the changed port, is not shown: the entry keeps
    port 80. -/
theorem port_change_not_shown :
    ((reached (.avahiclient true) portChange).services[
      discoveryKey [0x50, 0x72, 0x69, 0x6E, 0x74, 0x65, 0x72] 2]?.map fun zcs => zcs.m_port) = some 80 ∧
    ¬ LatestShown (.avahiclient true) portChange := by
  have hport : ((reached (.avahiclient true) portChange).services[
      discoveryKey [0x50, 0x72, 0x69, 0x6E, 0x74, 0x65, 0x72] 2]?.map fun zcs => zcs.m_port) = some 80 := by
    decide
  refine ⟨hport, ?_⟩
  rintro ⟨⟨-, -, -, ⟨zcs, hentry, hshows⟩, -⟩, -⟩
  have hlisted := congrArg (Option.map fun zcs => zcs.m_port) hentry
  rw [Option.map_some, hshows.port] at hlisted
  exact absurd (hlisted.symm.trans hport) (by decide)

end qtzeroconf.avahi
