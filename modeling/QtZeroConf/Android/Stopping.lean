import QtZeroConf.Android.Browsing
import QtZeroConf.Library.Mailbox
import QtZeroConf.Library.Mirror

open reactive mailbox mirror

namespace qtzeroconf.android.browsing

/-- The last state of the browser that was queued, or else the one that was
    delivered. -/
def willRun (s : Browsing) : Bool := settled Invocation.runs? s.ref.browserExists s.posted

/-- A name is resolved in the last invocation about it that is queued, or else
    it is listed. -/
def willList (s : Browsing) (name : QString) : Bool :=
  settled (fun invocation => invocation.lists? name) (s.ref.services.contains name) s.posted

/-- The notices of the signals, by the names of the services. -/
def notice? : Signal QZeroConfServiceData → Option (Notice QString QZeroConfServiceData) :=
  Signal.notice? (fun zcs => zcs.m_name) fun zcs => zcs

/-- A notification of the browser's state is delivered. -/
def Notifies (running : Bool) (s : Browsing) (e : Event) : Prop :=
  e = .deliver ∧ ∃ error rest, s.posted = .onBrowserStateChanged running error :: rest

/-- By what has been queued so far, a service is resolved only while the browser
    runs, and the browser stops or fails only when nothing is listed. -/
def StopsEmpty (s : Browsing) : Event → Prop
  | .onServiceResolved call serviceInfo _ =>
    asked s.resolver call = some serviceInfo.serviceName → willRun s = true
  | .onDiscoveryStopped | .onStartDiscoveryFailed _ | .onStopDiscoveryFailed _ => ∀ name, willList s name = false
  | _ => True

section

variable (parse : QString → QHostAddress)

/-- With everything delivered and no browser, nothing is listed, and all that
    was ever added has been removed since; and nothing is added or updated from
    the notification that the browser has stopped until it starts. -/
structure StopEmptiesView (events : List Event) : Prop where
  emptied : (reached parse events).posted = [] → (reached parse events).ref.browserExists = false →
    (reached parse events).ref.services = ∅ ∧
      replay empty ((trace (step parse) {} events).filterMap notice?) = empty
  quiet : ∀ pre stop mid post, events = pre ++ stop :: (mid ++ post) → Notifies false (reached parse pre) stop →
    Along (step parse) (fun s e => ¬ Notifies true s e) (step parse (reached parse pre) stop).1 mid →
    ∀ o ∈ trace (step parse) (step parse (reached parse pre) stop).1 mid, ∀ name, ¬ Reports name o

end

/-- Every service is listed under its name. -/
def Filed (s : QZeroConfPrivate) : Prop := ∀ (name : QString) zcs, s.services[name]? = some zcs → zcs.m_name = name

theorem filed_deliver {s : QZeroConfPrivate} (hs : Filed s) (invocation : Invocation) :
    Filed (invocation.deliver s).1 := by
  cases invocation with
  | onServiceResolved name type hostname address port txtRecords =>
    intro name' zcs hzcs
    simp only [Invocation.deliver, QZeroConfPrivate.onServiceResolved, Std.ExtTreeMap.getElem?_insert] at hzcs
    split at hzcs
    · rename_i hname
      cases hzcs
      exact Std.compare_eq_iff_eq.mp hname
    · exact hs name' zcs hzcs
  | onServiceRemoved name =>
    simp only [Invocation.deliver, QZeroConfPrivate.onServiceRemoved]
    split
    · exact hs
    · intro name' zcs hzcs
      simp only [Std.ExtTreeMap.getElem?_erase] at hzcs
      split at hzcs
      · cases hzcs
      · exact hs name' zcs hzcs
  | _ => exact hs

/-- A slot signals what it does to the list. -/
theorem mirrors_deliver {s : QZeroConfPrivate} (hs : Filed s) (invocation : Invocation) :
    Mirrors (fun _ _ => True) (tableView s.services) ((invocation.deliver s).2.filterMap notice?)
      (tableView (invocation.deliver s).1.services) := by
  cases invocation with
  | onServiceResolved name type hostname address port txtRecords =>
    simp only [Invocation.deliver, QZeroConfPrivate.onServiceResolved, tableView_insert]
    split
    · rename_i hlisted
      obtain ⟨old, hold⟩ : ∃ old, tableView s.services name = some old := by
        rw [Std.ExtTreeMap.contains_eq_isSome_getElem?] at hlisted
        exact Option.isSome_iff_exists.mp hlisted
      exact mirrors_single (n := .updated name _) ⟨old, hold, trivial⟩
    · rename_i habsent
      have hnone : tableView s.services name = none :=
        Std.ExtTreeMap.getElem?_eq_none (mt Std.ExtTreeMap.mem_iff_contains.mp habsent)
      exact mirrors_single (n := .added name _) hnone
  | onServiceRemoved name =>
    simp only [Invocation.deliver, QZeroConfPrivate.onServiceRemoved]
    split
    · exact mirrors_nil
    · rename_i service hservice
      have hname := hs name service hservice
      rw [tableView_erase, ← hname]
      exact mirrors_single (n := .removed service.m_name service) (by rw [hname]; exact hservice)
  | onBrowserStateChanged running error =>
    cases error <;> exact mirrors_nil
  | onPublisherStateChanged running error =>
    cases running <;> cases error <;> exact mirrors_nil
  | onServiceNameChanged newName => exact mirrors_nil

variable {parse : QString → QHostAddress}

theorem filed_step {s : Browsing} (hs : Filed s.ref) (e : Event) : Filed (step parse s e).1.ref := by
  obtain ⟨invocation, rest, -, -, hstep⟩ | ⟨-, href, -⟩ := step_cases parse s e
  · rw [hstep]
    exact filed_deliver hs invocation
  · rwa [href]

/-- What there is to know of the list. -/
def listing (s : Browsing) : View QString QZeroConfServiceData := tableView s.ref.services

theorem mirrors_step {s : Browsing} (hs : Filed s.ref) (e : Event) :
    Mirrors (fun _ _ => True) (listing s) ((step parse s e).2.filterMap notice?) (listing (step parse s e).1) := by
  obtain ⟨invocation, rest, -, -, hstep⟩ | ⟨-, href, hsilent⟩ := step_cases parse s e
  · rw [hstep]
    exact mirrors_deliver hs invocation
  · rw [listing, listing, href, hsilent]
    exact mirrors_nil

/-- In every run the signals add up to the list. -/
theorem replay_reached (events : List Event) :
    replay empty ((trace (step parse) {} events).filterMap notice?) = listing (reached parse events) := by
  have hinitial : listing {} = empty := tableView_empty
  have hfiled : Filed ({} : Browsing).ref := fun name zcs h => by simp at h
  have hrun : Mirrors (fun _ _ => True) (listing {}) ((trace (step parse) {} events).filterMap notice?)
      (listing (after (step parse) {} events)) :=
    mirrors_run (I := fun s => Filed s.ref) (fun _ e hs => filed_step hs e) (fun _ e hs => mirrors_step hs e) hfiled
      events
  rw [← hinitial]
  exact hrun.replayed

theorem willRun_step (s : Browsing) (e : Event) :
    willRun (step parse s e).1 = settled Invocation.runs? (willRun s) (posts parse s e) := by
  obtain ⟨invocation, rest, rfl, hposted, hstep⟩ | ⟨hposted, href, -⟩ := step_cases parse s e
  · rw [willRun, hstep, browserExists_deliver, willRun, hposted]
    rfl
  · rw [willRun, hposted, href, settled_append]
    rfl

theorem willList_step (s : Browsing) (e : Event) (name : QString) :
    willList (step parse s e).1 name =
      settled (fun invocation => invocation.lists? name) (willList s name) (posts parse s e) := by
  obtain ⟨invocation, rest, rfl, hposted, hstep⟩ | ⟨hposted, href, -⟩ := step_cases parse s e
  · rw [willList, hstep, contains_deliver, willList, hposted]
    rfl
  · rw [willList, hposted, href, settled_append]
    rfl

/-- By what has been queued, nothing is listed while the browser does not run. -/
def WillBeEmpty (s : Browsing) : Prop := willRun s = false → ∀ name, willList s name = false

/-- A step keeps the list empty without a browser exactly when it resolves
    services only with one, and ends it only with an empty list. -/
theorem willBeEmpty_step_iff {s : Browsing} (hs : WillBeEmpty s) (e : Event) :
    WillBeEmpty (step parse s e).1 ↔ StopsEmpty s e := by
  simp only [WillBeEmpty, willRun_step, willList_step]
  cases e with
  | onServiceResolved call serviceInfo host =>
    simp only [posts, StopsEmpty]
    split
    · rename_i hasked
      constructor
      · intro h _
        by_contra hstopped
        have hlisted := h (Bool.eq_false_iff.mpr hstopped) serviceInfo.serviceName
        simp [Invocation.lists?] at hlisted
      · intro h hstopped
        have hrun : willRun s = false := hstopped
        rw [h hasked] at hrun
        cases hrun
    · rename_i hasked
      exact iff_of_true hs fun h => absurd h hasked
  | onServiceLost serviceInfo =>
    refine iff_of_true (fun hstopped name => ?_) trivial
    have hempty := hs hstopped name
    by_cases hname : serviceInfo.serviceName = name <;> simp [posts, Invocation.lists?, hname, hempty]
  | onDiscoveryStarted =>
    refine iff_of_true (fun hstopped => ?_) trivial
    cases hstopped
  | onDiscoveryStopped => exact ⟨fun h => h rfl, fun h _ => h⟩
  | onStartDiscoveryFailed errorCode => exact ⟨fun h => h rfl, fun h _ => h⟩
  | onStopDiscoveryFailed errorCode => exact ⟨fun h => h rfl, fun h _ => h⟩
  | registerService name illegalArgument => cases illegalArgument <;> exact iff_of_true hs trivial
  | onServiceRegistered serviceInfo =>
    simp only [posts]
    split <;> exact iff_of_true hs trivial
  | _ => exact iff_of_true hs trivial

/-- What is queued for a resolved service is behind a notification that the
    browser runs. -/
def Backed (s : Browsing) : Prop :=
  ∀ before invocation rest name, s.posted = before ++ invocation :: rest → invocation.lists? name = some true →
    settled Invocation.runs? s.ref.browserExists before = true

theorem backed_step {s : Browsing} (hs : Backed s) {e : Event} (he : StopsEmpty s e) : Backed (step parse s e).1 := by
  intro before invocation rest name hsplit hlists
  obtain ⟨first, posted, rfl, hposted, hstep⟩ | ⟨hposted, href, -⟩ := step_cases parse s e
  · rw [hstep] at hsplit ⊢
    have hbacked := hs (first :: before) invocation rest name (hposted.trans (congrArg (first :: ·) hsplit)) hlists
    rwa [settled_cons, ← browserExists_deliver] at hbacked
  · rw [hposted] at hsplit
    rw [href]
    have hnew (between : List Invocation) (hposts : posts parse s e = between ++ invocation :: rest) :
        settled Invocation.runs? s.ref.browserExists (s.posted ++ between) = true := by
      have hmem : invocation ∈ posts parse s e := by simp [hposts]
      obtain ⟨call, serviceInfo, host, rfl, hasked, -⟩ := resolved_of_posts hmem hlists
      simp only [posts, if_pos hasked] at hposts
      cases between with
      | nil =>
        rw [List.append_nil]
        exact he hasked
      | cons first between => simp at hposts
    rcases List.append_eq_append_iff.mp hsplit with ⟨between, rfl, hposts⟩ | ⟨later, hold, hlater⟩
    · exact hnew between hposts
    · cases later with
      | nil =>
        rw [List.append_nil] at hold
        have hnow := hnew [] hlater.symm
        rwa [List.append_nil, hold] at hnow
      | cons first later =>
        obtain ⟨rfl, -⟩ := List.cons_eq_cons.mp hlater
        exact hs before invocation later name hold hlists

theorem backed_initial : Backed {} := by
  intro before invocation rest name hsplit
  simp at hsplit

theorem backed_run {s : Browsing} (hs : Backed s) {events : List Event} (h : Along (step parse) StopsEmpty s events) :
    Backed (after (step parse) s events) := by
  induction events generalizing s with
  | nil => exact hs
  | cons e events ih => exact ih (backed_step hs h.1) h.2

/-- While no notification comes that the browser runs, nothing is reported. -/
theorem quiet_run {s : Browsing} (hs : Backed s) (hstopped : s.ref.browserExists = false) {events : List Event}
    (hempty : Along (step parse) StopsEmpty s events)
    (hnone : Along (step parse) (fun s e => ¬ Notifies true s e) s events) :
    ∀ o ∈ trace (step parse) s events, ∀ name, ¬ Reports name o := by
  induction events generalizing s with
  | nil => exact nofun
  | cons e events ih =>
    have hnext : (step parse s e).1.ref.browserExists = false ∧
        ∀ o ∈ (step parse s e).2, ∀ name, ¬ Reports name o := by
      obtain ⟨invocation, rest, rfl, hposted, hstep⟩ | ⟨-, href, hsilent⟩ := step_cases parse s e
      · rw [hstep]
        refine ⟨?_, fun o ho name hreports => ?_⟩
        · rw [browserExists_deliver]
          cases invocation with
          | onBrowserStateChanged running error =>
            cases running with
            | false => rfl
            | true => exact absurd ⟨rfl, error, rest, hposted⟩ hnone.1
          | _ => exact hstopped
        · have hbacked := hs [] invocation rest name hposted (lists_of_reports ho hreports)
          rw [settled_nil, hstopped] at hbacked
          cases hbacked
      · rw [href, hsilent]
        exact ⟨hstopped, nofun⟩
    intro o ho
    rcases List.mem_append.mp ho with ho | ho
    · exact hnext.2 o ho
    · exact ih (backed_step hs hempty.1) hnext.1 hempty.2 hnone.2 o ho

/-- What was queued comes true when all of it is delivered. -/
theorem deliverAll_settled (invocations : List Invocation) (s : QZeroConfPrivate) :
    (deliverAll invocations s).1.browserExists = settled Invocation.runs? s.browserExists invocations ∧
      ∀ name, (deliverAll invocations s).1.services.contains name =
        settled (fun invocation => invocation.lists? name) (s.services.contains name) invocations := by
  induction invocations generalizing s with
  | nil => exact ⟨rfl, fun _ => rfl⟩
  | cons invocation invocations ih =>
    obtain ⟨hruns, hlists⟩ := ih (invocation.deliver s).1
    refine ⟨?_, fun name => ?_⟩
    · rw [settled_cons, ← browserExists_deliver]
      exact hruns
    · rw [settled_cons, ← contains_deliver]
      exact hlists name

/-- In a run that meets the condition, nothing will be listed while the browser
    does not run, in every state. -/
theorem willBeEmpty_iff_along (events : List Event) :
    Throughout (step parse) WillBeEmpty {} events ↔ Along (step parse) StopsEmpty {} events :=
  throughout_iff_along (I := fun _ => True) (fun _ _ _ => trivial) (fun _ e _ hs => willBeEmpty_step_iff hs e)
    trivial (fun _ name => by simp [willList]) events

theorem stopEmptiesView_of_along {events : List Event} (h : Along (step parse) StopsEmpty {} events) :
    StopEmptiesView parse events := by
  constructor
  · intro hposted hstopped
    have hempty : WillBeEmpty (reached parse events) := ((willBeEmpty_iff_along events).mpr h).last
    simp only [WillBeEmpty, willRun, willList, hposted, settled_nil] at hempty
    have hlisting : listing (reached parse events) = empty := by
      funext name
      have habsent := hempty hstopped name
      exact Std.ExtTreeMap.getElem?_eq_none (by rw [Std.ExtTreeMap.mem_iff_contains, habsent]; exact Bool.false_ne_true)
    exact ⟨tableView_eq_empty hlisting, (replay_reached events).trans hlisting⟩
  · rintro pre stop mid post rfl ⟨rfl, error, rest, hposted⟩ hnone
    obtain ⟨hpre, hstop, hmid⟩ := along_append.mp h
    have hbacked : Backed (reached parse pre) := backed_run backed_initial hpre
    have hstopped : (step parse (reached parse pre) .deliver).1.ref.browserExists = false := by
      rw [step_deliver hposted]
      rfl
    exact quiet_run (backed_step hbacked hstop) hstopped (along_append.mp hmid).1 hnone

theorem along_deliver (s : Browsing) (n : Nat) : Along (step parse) StopsEmpty s (List.replicate n .deliver) := by
  induction n generalizing s with
  | zero => trivial
  | succ n ih => exact ⟨trivial, ih _⟩

variable (parse)

/-- At every point of a run, once any number of invocations is delivered,
    stopping empties the view, exactly when services are resolved only while the
    browser runs, and it ends only with nothing listed. -/
theorem stopEmptiesView_iff (events : List Event) :
    (∀ pre n, pre <+: events → StopEmptiesView parse (pre ++ List.replicate n .deliver)) ↔
      Along (step parse) StopsEmpty {} events := by
  constructor
  · intro h
    rw [← willBeEmpty_iff_along, throughout_iff_prefix]
    intro pre hpre hstopped name
    have hdelivered : reached parse (pre ++ List.replicate (reached parse pre).posted.length .deliver) = _ :=
      (after_append _ pre _).trans (deliver_all (reached parse pre)).1
    obtain ⟨hruns, hlists⟩ := deliverAll_settled (reached parse pre).posted (reached parse pre).ref
    obtain ⟨hemptied, -⟩ := h pre (reached parse pre).posted.length hpre
    rw [hdelivered] at hemptied
    have hservices := (hemptied rfl (hruns.trans hstopped)).1
    have hname := hlists name
    rw [hservices] at hname
    exact hname.symm.trans (by simp)
  · rintro h pre n ⟨rest, rfl⟩
    exact stopEmptiesView_of_along (along_append.mpr ⟨(along_append.mp h).1, along_deliver _ n⟩)

/-- A service is found and resolved, and then the browser is stopped. -/
def stoppedWithService : List Event :=
  let info : NsdServiceInfo := { serviceName := [0x61], serviceType := [] }
  [.onDiscoveryStarted, .onServiceFound info, .onServiceResolved 0 info { hostName := [], hostAddress := [] },
    .onDiscoveryStopped, .deliver, .deliver, .deliver]

/-- The service stays listed without a browser. -/
theorem stopped_keeps_service : ¬ ∀ parse, StopEmptiesView parse stoppedWithService := by
  intro h
  have hlisted : (reached (fun _ => .null) stoppedWithService).ref.services.contains [0x61] = true := by decide
  have hempty := ((h fun _ => .null).emptied rfl (by decide)).1
  rw [hempty] at hlisted
  exact absurd hlisted (by decide)

end qtzeroconf.android.browsing
