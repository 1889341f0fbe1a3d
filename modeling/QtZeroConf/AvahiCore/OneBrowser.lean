import QtZeroConf.AvahiCore.Teardown

open reactive handles

namespace qtzeroconf.avahicore

open avahi

/-- Whether an output is the error signal of a browser that fails. -/
def InstanceOutput.isBrowserFailed : InstanceOutput → Bool
  | .discover (.signal (.error .browserFailed)) => true
  | _ => false

/-- At most one browser of each instance is alive. -/
def SingleBrowser (s : Process) : Prop :=
  ∀ sv, s.server = some sv → ∀ i h h', ⟨.serviceBrowser, i, h⟩ ∈ sv.objects →
    ⟨.serviceBrowser, i, h'⟩ ∈ sv.objects → h = h'

/-- A start while a browser is running is refused with one error and changes
    nothing of discovery. -/
def RefusesSecond (s : Process) : Event → Prop
  | .startBrowser i created type protocol =>
    ∀ pri, s.instances[i]? = some pri → pri.discovery.browser ≠ none →
      let next := step s (.startBrowser i created type protocol)
      next.2.countP (fun output => output.1 = i ∧ output.2.isBrowserFailed) = 1 ∧
        ∃ pri', next.1.instances[i]? = some pri' ∧ pri'.discovery.browser = pri.discovery.browser ∧
          pri'.discovery.aProtocol = pri.discovery.aProtocol ∧
          pri'.discovery.resolvers = pri.discovery.resolvers ∧
          pri'.discovery.services = pri.discovery.services
  | _ => True

/-- No browser of an instance is alive, and its tables are empty. -/
structure NoBrowser (s : Process) (i : Nat) : Prop where
  objects : ∀ sv, s.server = some sv → ∀ h, ⟨.serviceBrowser, i, h⟩ ∉ sv.objects
  tables : ∀ pri, s.instances[i]? = some pri → pri.discovery.services = ∅ ∧ pri.discovery.resolvers = ∅

/-- Whether an event starts a browser of an instance. -/
def Event.starts (i : Nat) : Event → Prop
  | .startBrowser j _ _ _ => j = i
  | _ => False

/-- An instance runs one browser at most, refuses another one, and has none from
    a stop to the next start. -/
structure OneBrowser (events : List Event) : Prop where
  single : Throughout step SingleBrowser {} events
  refused : Along step RefusesSecond {} events
  stopped : ∀ pre i mid post, events = pre ++ .stopBrowser i :: (mid ++ post) → (∀ e ∈ mid, ¬ e.starts i) →
    NoBrowser (after step {} (pre ++ .stopBrowser i :: mid)) i

/-- A browser is started only where none is running. -/
def StartsClosed (s : Process) : Event → Prop
  | .startBrowser i _ _ _ => ∀ pri, s.instances[i]? = some pri → pri.discovery.browser = none
  | _ => True

/-- The browser that an output creates or frees. -/
def browserCall : Output → Option Nat
  | .service_browser_new handle _ _ | .service_browser_free handle => some handle
  | .signal _ | .service_resolver_new _ | .service_resolver_free _ => none

/-- The browsers that the server holds for an instance are the one that the
    instance knows. -/
def KnowsBrowser (i : Nat) (d : Discovery) (objects : List Object) : Prop :=
  ∀ h, ⟨.serviceBrowser, i, h⟩ ∈ objects → d.browser = some h

/-- Without a browser there is no service and no resolver, and handles are new
    when they are given out. -/
structure Settled (d : Discovery) : Prop where
  cleared : d.browser = none → d.services = ∅ ∧ d.resolvers = ∅
  issued : ∀ h, d.browser = some h → h < d.nextHandle

theorem settled_initial : Settled {} := ⟨fun _ => ⟨rfl, rfl⟩, fun h hbrowser => by cases hbrowser⟩

/-- Every browser is the one that its instance knows, and there is none without a
    server. -/
structure BrowsersKnown (s : Process) : Prop where
  known : ∀ sv, s.server = some sv → ∀ i h, ⟨.serviceBrowser, i, h⟩ ∈ sv.objects →
    ∃ pri, s.instances[i]? = some pri ∧ pri.discovery.browser = some h
  settled : ∀ (i : Nat) (pri : QZeroConfPrivate), s.instances[i]? = some pri → Settled pri.discovery
  unserved : s.server = none → ∀ (i : Nat) (pri : QZeroConfPrivate), s.instances[i]? = some pri →
    pri.discovery.browser = none

theorem browsersKnown_initial : BrowsersKnown {} where
  known := fun sv h => by cases h
  settled := by simp
  unserved := by simp

/-- What an action of the discovery half keeps of browsers: the server holds
    what the instance knows, what the instance has stays settled, and an instance
    without a browser gets none. -/
structure KeepsBrowser (i : Nat) (a : Action Discovery Output) (d : Discovery) : Prop where
  known : ∀ objects, KnowsBrowser i d objects →
    KnowsBrowser i (a d).1 (registered i objects ((a d).2.map .discover))
  settled : Settled d → Settled (a d).1
  opened : d.browser = none → (a d).1.browser = none

section Discovering

variable {i : Nat} {d : Discovery}

theorem keepsBrowser_broswerCleanUp : KeepsBrowser i broswerCleanUp d := by
  refine ⟨fun objects hknown h hmem => ?_, fun hsettled => ?_, fun hnone => ?_⟩
  · rw [registered_broswerCleanUp, mem_applyAll_releases, browser_mem_cleaned] at hmem
    exact absurd (hknown h hmem.1) hmem.2
  · unfold broswerCleanUp
    cases hbrowser : d.browser with
    | none => exact hsettled
    | some handle => exact ⟨fun _ => ⟨rfl, rfl⟩, fun h hbrowser' => by cases hbrowser'⟩
  · simp only [broswerCleanUp, hnone]

/-- Outputs that create and free no browser leave the browsers alone. -/
theorem KnowsBrowser.of_outputs {d' : Discovery} {objects : List Object} {outputs : List Output}
    (hknown : KnowsBrowser i d objects) (hsame : d'.browser = d.browser)
    (hnone : ∀ o ∈ outputs, browserCall o = none) :
    KnowsBrowser i d' (registered i objects (outputs.map .discover)) := by
  intro h hmem
  rw [hsame]
  refine hknown h ((mem_applyAll_of_untouched fun e he hobject => ?_).mp hmem)
  obtain ⟨output, houtput, heffect⟩ := List.mem_filterMap.mp he
  obtain ⟨o, ho, rfl⟩ := List.mem_map.mp houtput
  have hbrowser := hnone o ho
  cases o with
  | signal signal => cases heffect
  | service_browser_new handle protocol type => cases hbrowser
  | service_browser_free handle => cases hbrowser
  | service_resolver_new resolver =>
    cases heffect
    cases hobject
  | service_resolver_free resolver =>
    cases resolver <;> cases heffect
    cases hobject

/-- An action of an instance that keeps its browser. -/
theorem keepsBrowser_of_same {a : Action Discovery Output} (hbrowser : d.browser ≠ none)
    (hsame : (a d).1.browser = d.browser) (hnext : d.nextHandle ≤ (a d).1.nextHandle)
    (hnone : ∀ o ∈ (a d).2, browserCall o = none) : KeepsBrowser i a d where
  known := fun _ hknown => hknown.of_outputs hsame hnone
  settled := fun hsettled =>
    ⟨fun hclosed => absurd (hsame ▸ hclosed) hbrowser,
      fun h hh => Nat.lt_of_lt_of_le (hsettled.issued h (hsame ▸ hh)) hnext⟩
  opened := fun hclosed => absurd hclosed hbrowser

theorem removeService_frame (key : QString) (d : Discovery) :
    (removeService key d).1.browser = d.browser ∧ (removeService key d).1.nextHandle = d.nextHandle ∧
      ∀ o ∈ (removeService key d).2, browserCall o = none := by
  unfold removeService
  split <;> simp [browserCall]

theorem keepsBrowser_browseCallback (created : Bool) (interface : Int32) (protocol : AvahiProtocol)
    (event : AvahiBrowserEvent) (name type domain : CString) (hbrowser : d.browser ≠ none) :
    KeepsBrowser i (browseCallback created interface protocol event name type domain) d := by
  cases event with
  | AVAHI_BROWSER_NEW =>
    refine keepsBrowser_of_same hbrowser ?_ ?_ ?_ <;> simp only [browseCallback, service_resolver_new] <;>
      (repeat' split) <;> simp [browserCall]
  | AVAHI_BROWSER_REMOVE =>
    have hframe := removeService_frame (discoveryKey name interface)
      { d with resolvers := d.resolvers.erase (discoveryKey name interface) }
    refine keepsBrowser_of_same hbrowser ?_ ?_ ?_ <;> simp only [browseCallback] <;> split
    · rfl
    · exact hframe.1
    · exact Nat.le_refl _
    · exact Nat.le_of_eq hframe.2.1.symm
    · simp
    · exact List.forall_mem_cons.mpr ⟨rfl, hframe.2.2⟩
  | AVAHI_BROWSER_FAILURE =>
    have hcleaned := keepsBrowser_broswerCleanUp (i := i) (d := d)
    refine ⟨fun objects hknown => ?_, hcleaned.settled, hcleaned.opened⟩
    simp only [browseCallback, Action.andThen_fst, Action.andThen_snd, List.map_append, registered_append]
    exact (hcleaned.known objects hknown).of_outputs rfl (by simp [browserCall])
  | AVAHI_BROWSER_ALL_FOR_NOW | AVAHI_BROWSER_CACHE_EXHAUSTED =>
    exact keepsBrowser_of_same hbrowser rfl (Nat.le_refl _) (by simp [browseCallback])

/-- A browser that is started where there is none becomes the known one. -/
theorem keepsBrowser_startBrowser (created : Bool) (type : QString) (protocol : NetworkLayerProtocol)
    (hclosed : d.browser = none) (objects : List Object) (hknown : KnowsBrowser i d objects)
    (hsettled : Settled d) :
    KnowsBrowser i (startBrowser created type protocol d).1
        (registered i objects ((startBrowser created type protocol d).2.map .discover)) ∧
      Settled (startBrowser created type protocol d).1 := by
  have hnone (h : Nat) : (⟨.serviceBrowser, i, h⟩ : Object) ∉ objects := by
    intro hmem
    have hbrowser := hknown h hmem
    rw [hclosed] at hbrowser
    cases hbrowser
  have htables := hsettled.cleared hclosed
  have hopen : startBrowser created type protocol d = openBrowser created type protocol d := by
    simp only [startBrowser, hclosed, Option.isSome_none, Bool.false_eq_true, if_false]
    rfl
  rw [hopen]
  cases created with
  | false => exact ⟨fun h hmem => absurd hmem (hnone h), fun _ => htables, fun h hh => by cases hh⟩
  | true =>
    refine ⟨fun h hmem => ?_, fun _ => htables, fun h hh => ?_⟩
    rotate_left
    · cases hh
      exact Nat.lt_succ_self _
    have hnew : h = d.nextHandle := by
      simpa [openBrowser, registered, InstanceOutput.effect, hnone] using hmem
    exact congrArg some hnew.symm

theorem keepsBrowser_resolveCallback (interface : Int32) (event : AvahiResolverEvent)
    (name type domain : CString) (hbrowser : d.browser ≠ none) :
    KeepsBrowser i (resolveCallback interface event name type domain) d := by
  cases event with
  | AVAHI_RESOLVER_FOUND report =>
    refine keepsBrowser_of_same hbrowser ?_ ?_ ?_ <;> simp only [resolveCallback] <;> split <;> simp [browserCall]
  | AVAHI_RESOLVER_FAILURE =>
    obtain ⟨hsame, hnext, hnone⟩ := removeService_frame (discoveryKey name interface) d
    exact keepsBrowser_of_same hbrowser hsame (Nat.le_of_eq hnext.symm) hnone

end Discovering

variable {s : Process}

/-- What an action of an instance has to keep for the browsers to stay known. -/
theorem browsersKnown_on (hs : BrowsersKnown s) {i : Nat} {a : Action QZeroConfPrivate InstanceOutput}
    (hknown : ∀ (pri : QZeroConfPrivate) (sv : AvahiServer), s.instances[i]? = some pri → s.server = some sv →
      KnowsBrowser i pri.discovery sv.objects →
      KnowsBrowser i (a pri).1.discovery (registered i sv.objects (a pri).2))
    (hsettled : ∀ pri, s.instances[i]? = some pri → Settled (a pri).1.discovery)
    (hopened : ∀ pri, s.instances[i]? = some pri → s.server = none → (a pri).1.discovery.browser = none) :
    BrowsersKnown (Process.on i a s).1 := by
  cases hpri : s.instances[i]? with
  | none =>
    rw [on_absent hpri]
    exact hs
  | some pri =>
    rw [on_present hpri]
    refine ⟨fun sv' hsv' j h hmem => ?_, fun j pri' hj => ?_, fun hnone j pri' hj => ?_⟩
    · obtain ⟨sv, hsv, rfl⟩ := Option.map_eq_some_iff.mp hsv'
      simp only [Std.ExtTreeMap.getElem?_insert, Std.compare_eq_iff_eq]
      by_cases hij : i = j
      · subst hij
        refine ⟨(a pri).1, if_pos rfl, hknown pri sv hpri hsv (fun h' hmem' => ?_) h hmem⟩
        obtain ⟨before, hbefore, hbrowser⟩ := hs.known sv hsv i h' hmem'
        rw [hpri, Option.some.injEq] at hbefore
        exact hbefore ▸ hbrowser
      · rw [if_neg hij]
        exact hs.known sv hsv j h ((mem_registered_of_ne (Ne.symm hij)).mp hmem)
    · simp only [Std.ExtTreeMap.getElem?_insert, Std.compare_eq_iff_eq] at hj
      split at hj
      · cases hj
        exact hsettled pri hpri
      · exact hs.settled j pri' hj
    · have hserver := Option.map_eq_none_iff.mp hnone
      simp only [Std.ExtTreeMap.getElem?_insert, Std.compare_eq_iff_eq] at hj
      split at hj
      · cases hj
        exact hopened pri hpri hserver
      · exact hs.unserved hserver j pri' hj

/-- The publishing half of an instance acts. -/
theorem browsersKnown_publishing (hs : BrowsersKnown s) (i : Nat) (a : Action Publisher PublishOutput) :
    BrowsersKnown (Process.on i (publishing a) s).1 :=
  browsersKnown_on hs (fun _ _ _ _ hknown h hmem => hknown h ((mem_registered_publish (by simp)).mp hmem))
    (fun pri hpri => hs.settled i pri hpri) (fun pri hpri hserver => hs.unserved hserver i pri hpri)

/-- The discovery half of an instance acts. -/
theorem browsersKnown_discovering (hs : BrowsersKnown s) {i : Nat} {a : Action Discovery Output}
    (ha : ∀ pri, s.instances[i]? = some pri → KeepsBrowser i a pri.discovery) :
    BrowsersKnown (Process.on i (discovering a) s).1 :=
  browsersKnown_on hs (fun pri _ hpri _ hknown => (ha pri hpri).known _ hknown)
    (fun pri hpri => (ha pri hpri).settled (hs.settled i pri hpri))
    (fun pri hpri hserver => (ha pri hpri).opened (hs.unserved hserver i pri hpri))

theorem browsersKnown_deliver (hs : BrowsersKnown s) {o : Object} {kind : Kind} {a : Action Discovery Output}
    (ha : ∀ sv, s.server = some sv → o ∈ sv.objects → o.kind = kind → ∀ pri,
      s.instances[o.userdata]? = some pri → KeepsBrowser o.userdata a pri.discovery) :
    BrowsersKnown (Process.deliver o kind (discovering a) s).1 := by
  unfold Process.deliver
  split
  · exact hs
  · rename_i sv hsv
    split
    · rename_i ho
      exact browsersKnown_discovering hs (ha sv hsv ho.1 ho.2)
    · exact hs

/-- A new instance has no browser yet. -/
theorem browsersKnown_construct (hs : BrowsersKnown s) (hconsistent : Consistent s) (created : Bool) :
    BrowsersKnown (construct created s).1 := by
  have hserver (sv : AvahiServer) (h : (construct created s).1.server = some sv) :
      sv.objects = [] ∨ s.server = some sv := by
    simp only [construct] at h
    split at h
    · cases created <;> cases h
      exact Or.inl rfl
    · exact Or.inr h
  refine ⟨fun sv hsv i h hmem => ?_, fun i pri hpri => ?_, fun hnone i pri hpri => ?_⟩
  · rcases hserver sv hsv with hempty | hold
    · rw [hempty] at hmem
      cases hmem
    · obtain ⟨pri, hpri, hbrowser⟩ := hs.known sv hold i h hmem
      refine ⟨pri, ?_, hbrowser⟩
      have hne : s.constructed ≠ i := by
        rintro rfl
        rw [hconsistent.fresh] at hpri
        cases hpri
      simp [construct, Std.ExtTreeMap.getElem?_insert, hne, hpri]
  · rcases instance_of_construct hpri with ⟨-, rfl⟩ | hold
    · exact settled_initial
    · exact hs.settled i pri hold
  · rcases instance_of_construct hpri with ⟨-, rfl⟩ | hold
    · rfl
    · by_cases hzero : s.referenceCount = 0
      · rw [hconsistent.no_instance hzero i] at hold
        cases hold
      · have hsame : (construct created s).1.server = s.server := by simp only [construct, hzero, if_false]
        exact hs.unserved (hsame ▸ hnone) i pri hold

/-- An instance that goes leaves no browser. -/
theorem browsersKnown_destruct (hs : BrowsersKnown s) (hconsistent : Consistent s) (i : Nat) :
    BrowsersKnown (destruct i s).1 := by
  cases hpri : s.instances[i]? with
  | none =>
    have habsent : destruct i s = (s, []) := by simp [destruct, hpri]
    rw [habsent]
    exact hs
  | some pri =>
    have hserver := destruct_server hpri
    have hinstances := destruct_instances hpri
    refine ⟨fun sv' hsv' j h hmem => ?_, fun j after hj => ?_, fun hnone j after hj => ?_⟩
    · rw [hserver] at hsv'
      split at hsv'
      · cases hsv'
      · obtain ⟨sv, hsv, rfl⟩ := Option.map_eq_some_iff.mp hsv'
        obtain ⟨hold, hkept⟩ := mem_applyAll_releases.mp hmem
        obtain ⟨before, hbefore, hbrowser⟩ := hs.known sv hsv j h hold
        refine ⟨before, ?_, hbrowser⟩
        rw [hinstances, if_neg, hbefore]
        rintro rfl
        rw [hpri, Option.some.injEq] at hbefore
        exact hkept (browser_mem_cleaned.mpr (hbefore ▸ hbrowser))
    · rw [hinstances] at hj
      split at hj
      · cases hj
      · exact hs.settled j after hj
    · have hcount : (destruct i s).1.referenceCount = s.referenceCount - 1 := by simp [destruct, hpri]
      by_cases hlast : s.referenceCount - 1 = 0
      · rw [(consistent_destruct hconsistent i).no_instance (hcount.trans hlast)] at hj
        cases hj
      · rw [hserver, if_neg hlast] at hnone
        rw [hinstances] at hj
        split at hj
        · cases hj
        · exact hs.unserved (Option.map_eq_none_iff.mp hnone) j after hj

theorem browsersKnown_step (hs : BrowsersKnown s) (hconsistent : Consistent s) {e : Event}
    (hstarts : StartsClosed s e) : BrowsersKnown (step s e).1 := by
  cases e with
  | construct created => exact browsersKnown_construct hs hconsistent created
  | destruct i => exact browsersKnown_destruct hs hconsistent i
  | call i answer c => exact browsersKnown_publishing hs i _
  | startBrowser i created type protocol =>
    simp only [step, answerEvent]
    split
    · exact hs
    · rename_i sv hsv
      have hclosed := hstarts
      refine browsersKnown_on hs (fun pri sv' hpri _ hknown => ?_) (fun pri hpri => ?_) fun pri hpri hserver => ?_
      · exact (keepsBrowser_startBrowser created type protocol (hclosed pri hpri) _ hknown
          (hs.settled i pri hpri)).1
      · exact (keepsBrowser_startBrowser (i := i) created type protocol (hclosed pri hpri) [] (by simp [KnowsBrowser])
          (hs.settled i pri hpri)).2
      · rw [hsv] at hserver
        cases hserver
  | stopBrowser i => exact browsersKnown_discovering hs fun _ _ => keepsBrowser_broswerCleanUp
  | serverCallback answer state =>
    simp only [step, answerEvent]
    split
    · exact hs
    · rename_i sv hsv
      have hstate : BrowsersKnown { s with server := some { sv with state } } := by
        refine ⟨?_, hs.settled, fun h => by cases h⟩
        rintro _ ⟨⟩
        exact hs.known sv hsv
      exact browsersKnown_publishing hstate _ _
  | groupCallback group state =>
    simp only [step, answerEvent, Process.deliver]
    split
    · exact hs
    · split
      · exact browsersKnown_publishing hs _ _
      · exact hs
  | browseCallback browser created interface protocol event name type domain =>
    refine browsersKnown_deliver hs fun sv hsv ho hkind pri hpri => ?_
    refine keepsBrowser_browseCallback created interface protocol event name type domain ?_
    obtain ⟨kind, userdata, h⟩ := browser
    cases hkind
    obtain ⟨before, hbefore, hbrowser⟩ := hs.known sv hsv userdata h ho
    rw [hpri, Option.some.injEq] at hbefore
    simp [hbefore, hbrowser]
  | resolveCallback resolver interface event name type domain =>
    refine browsersKnown_deliver hs fun sv hsv ho hkind pri hpri => ?_
    refine keepsBrowser_resolveCallback interface event name type domain fun hclosed => ?_
    obtain ⟨kind, userdata, h⟩ := resolver
    cases hkind
    obtain ⟨key, r, hkey, -⟩ := ((hconsistent.tracksDiscovery userdata pri sv hpri hsv).resolver h).mp ho
    rw [((hs.settled userdata pri hpri).cleared hclosed).2] at hkey
    simp at hkey

/-- A process whose browsers are known runs one of them for an instance at most. -/
theorem BrowsersKnown.single (hs : BrowsersKnown s) : SingleBrowser s := by
  intro sv hsv i h h' hmem hmem'
  obtain ⟨pri, hpri, hbrowser⟩ := hs.known sv hsv i h hmem
  obtain ⟨pri', hpri', hbrowser'⟩ := hs.known sv hsv i h' hmem'
  rw [hpri, Option.some.injEq] at hpri'
  subst hpri'
  exact Option.some.inj (hbrowser.symm.trans hbrowser')

/-- A second start is never refused in full: it replaces the browser, or reports
    the error twice. -/
theorem refusesSecond_iff (hs : BrowsersKnown s) (e : Event) : RefusesSecond s e ↔ StartsClosed s e := by
  cases e with
  | startBrowser i created type protocol =>
    refine ⟨fun h pri hpri => ?_, fun h pri hpri hopen => absurd (h pri hpri) hopen⟩
    by_contra hopen
    obtain ⟨hcount, pri', hpri', hbrowser, -⟩ := h pri hpri hopen
    have hsome := Option.isSome_iff_ne_none.mpr hopen
    cases hsv : s.server with
    | none => exact hopen (hs.unserved hsv i pri hpri)
    | some sv =>
      simp only [step, answerEvent, hsv] at hcount hpri'
      rw [on_instances, if_pos rfl, hpri, Option.map_some, Option.some.injEq] at hpri'
      subst hpri'
      rw [on_present hpri] at hcount
      cases created with
      | false =>
        simp [discovering, startBrowser, hsome, openBrowser, InstanceOutput.isBrowserFailed] at hcount
      | true =>
        have hissued := (hs.settled i pri hpri).issued _ hbrowser.symm
        simp [hsome] at hissued
  | _ => exact Iff.rfl

/-- An instance has no browser, or is not there. -/
def Idle (i : Nat) (s : Process) : Prop :=
  ∀ pri, s.instances[i]? = some pri → pri.discovery.browser = none

theorem idle_on {i j : Nat} {a : Action QZeroConfPrivate InstanceOutput} (h : Idle i s)
    (ha : j = i → ∀ pri, s.instances[j]? = some pri → (a pri).1.discovery.browser = none) :
    Idle i (Process.on j a s).1 := by
  intro pri hpri
  rw [on_instances] at hpri
  split at hpri
  · rename_i hji
    obtain ⟨before, hbefore, rfl⟩ := Option.map_eq_some_iff.mp hpri
    exact ha hji before (hji ▸ hbefore)
  · exact h pri hpri

theorem idle_deliver {i : Nat} {o : Object} {kind : Kind} {a : Action QZeroConfPrivate InstanceOutput}
    (h : Idle i s)
    (ha : ∀ sv, s.server = some sv → o ∈ sv.objects → o.kind = kind → o.userdata = i → ∀ pri,
      s.instances[o.userdata]? = some pri → (a pri).1.discovery.browser = none) :
    Idle i (Process.deliver o kind a s).1 := by
  unfold Process.deliver
  split
  · exact h
  · rename_i sv hsv
    split
    · rename_i ho
      exact idle_on h (ha sv hsv ho.1 ho.2)
    · exact h

/-- Only a start gives an instance a browser. -/
theorem idle_step (hs : BrowsersKnown s) (hconsistent : Consistent s) {i : Nat} (h : Idle i s) {e : Event}
    (hstarts : ¬ e.starts i) : Idle i (step s e).1 := by
  cases e with
  | construct created =>
    intro pri hpri
    rcases instance_of_construct hpri with ⟨-, rfl⟩ | hold
    · rfl
    · exact h pri hold
  | destruct j =>
    cases hj : s.instances[j]? with
    | none =>
      have habsent : (step s (.destruct j)).1 = s := by simp [step, answerEvent, destruct, hj]
      rw [habsent]
      exact h
    | some pri =>
      intro after hafter
      simp only [step, answerEvent, destruct_instances hj] at hafter
      split at hafter
      · cases hafter
      · exact h after hafter
  | call j answer c => exact idle_on h fun hji pri hpri => h pri (hji ▸ hpri)
  | startBrowser j created type protocol =>
    simp only [step, answerEvent]
    split
    · exact h
    · exact idle_on h fun hji => absurd hji hstarts
  | stopBrowser j =>
    refine idle_on h fun hji pri hpri => ?_
    exact (keepsBrowser_broswerCleanUp (i := i)).opened (h pri (hji ▸ hpri))
  | serverCallback answer state =>
    simp only [step, answerEvent]
    split
    · exact h
    · exact idle_on h fun hji pri hpri => h pri (hji ▸ hpri)
  | groupCallback group state => exact idle_deliver h fun _ _ _ _ hi pri hpri => h pri (hi ▸ hpri)
  | browseCallback browser created interface protocol event name type domain =>
    refine idle_deliver h fun sv hsv ho hkind hi pri hpri => ?_
    obtain ⟨kind, userdata, handle⟩ := browser
    cases hkind
    cases hi
    -- a browser that is alive is known to its instance
    obtain ⟨before, hbefore, hbrowser⟩ := hs.known sv hsv userdata handle ho
    rw [h before hbefore] at hbrowser
    cases hbrowser
  | resolveCallback resolver interface event name type domain =>
    refine idle_deliver h fun sv hsv ho hkind hi pri hpri => ?_
    obtain ⟨kind, userdata, handle⟩ := resolver
    cases hkind
    cases hi
    obtain ⟨key, r, hkey, -⟩ := ((hconsistent.tracksDiscovery userdata pri sv hpri hsv).resolver handle).mp ho
    rw [((hs.settled userdata pri hpri).cleared (h pri hpri)).2] at hkey
    simp at hkey

/-- An instance that has just been stopped is idle. -/
theorem idle_stopBrowser (i : Nat) (s : Process) : Idle i (step s (.stopBrowser i)).1 := by
  intro pri hpri
  simp only [step, answerEvent] at hpri
  rw [on_instances, if_pos rfl] at hpri
  obtain ⟨before, -, rfl⟩ := Option.map_eq_some_iff.mp hpri
  simp only [discovering, stopBrowser, broswerCleanUp]
  split
  · assumption
  · rfl

theorem BrowsersKnown.noBrowser (hs : BrowsersKnown s) {i : Nat} (h : Idle i s) : NoBrowser s i := by
  refine ⟨fun sv hsv handle hmem => ?_, fun pri hpri => (hs.settled i pri hpri).cleared (h pri hpri)⟩
  obtain ⟨pri, hpri, hbrowser⟩ := hs.known sv hsv i handle hmem
  rw [h pri hpri] at hbrowser
  cases hbrowser

/-- What every state of a run has whose starts find no browser. -/
structure Known (s : Process) : Prop where
  consistent : Consistent s
  browsers : BrowsersKnown s

theorem known_step (s : Process) (e : Event) (hs : Known s) (hstarts : StartsClosed s e) : Known (step s e).1 :=
  ⟨consistent_step hs.consistent e, browsersKnown_step hs.browsers hs.consistent hstarts⟩

theorem known_initial : Known {} := ⟨consistent_initial, browsersKnown_initial⟩

/-- An idle instance stays idle until it is started. -/
theorem idle_run {i : Nat} {es : List Event} (hs : Known s) (hidle : Idle i s) (h : Along step StartsClosed s es)
    (hes : ∀ e ∈ es, ¬ e.starts i) : NoBrowser (after step s es) i := by
  induction es generalizing s with
  | nil => exact hs.browsers.noBrowser hidle
  | cons e es ih =>
    obtain ⟨he, hes⟩ := List.forall_mem_cons.mp hes
    exact ih (known_step s e hs h.1) (idle_step hs.browsers hs.consistent hidle he) h.2 hes

/-- From a stop to the next start an instance has no browser. -/
theorem noBrowser_after_stop {pre mid post : List Event} {i : Nat}
    (h : Along step StartsClosed {} (pre ++ .stopBrowser i :: (mid ++ post)))
    (hmid : ∀ e ∈ mid, ¬ e.starts i) : NoBrowser (after step {} (pre ++ .stopBrowser i :: mid)) i := by
  obtain ⟨hpre, hstop, hrest⟩ := along_append.mp h
  have hstopped := known_step _ _ (hpre.after known_step known_initial) hstop
  rw [after_append, after_cons]
  exact idle_run hstopped (idle_stopBrowser i _) (along_append.mp hrest).1 hmid

/-- An instance runs one browser at most, refuses another one, and has none from
    a stop to the next start, exactly when no browser is started where one is
    running. -/
theorem oneBrowser_iff (events : List Event) : OneBrowser events ↔ Along step StartsClosed {} events := by
  have hrefused : Along step RefusesSecond {} events ↔ Along step StartsClosed {} events :=
    along_congr (fun s e hs h => known_step s e hs ((refusesSecond_iff hs.browsers e).mp h))
      (fun s e hs => refusesSecond_iff hs.browsers e) known_initial events
  constructor
  · intro h
    exact hrefused.mp h.refused
  · intro h
    refine ⟨?_, ?_, ?_⟩
    · refine throughout_iff_prefix.mpr fun pre hpre => ?_
      obtain ⟨post, rfl⟩ := hpre
      exact ((along_append.mp h).1.after known_step known_initial).browsers.single
    · exact hrefused.mpr h
    · rintro pre i mid post rfl hmid
      exact noBrowser_after_stop h hmid

/-- A browser that is started over another one is a second one. -/
theorem second_browser_started :
    ¬ OneBrowser [.construct true, .startBrowser 0 true (tcpType 0x61) .IPv4Protocol,
      .startBrowser 0 true (tcpType 0x62) .IPv6Protocol] := by
  intro h
  have hsame := h.single.last _ rfl 0 0 1 (by decide) (by decide)
  cases hsame

end qtzeroconf.avahicore
