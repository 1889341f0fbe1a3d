import QtZeroConf.Bonjour.Resolvers

open reactive reactive.Action registry

namespace qtzeroconf.bonjour

open QZeroConfPrivate

/-- The order in which the hash of resolvers has its entries. -/
structure Layout (s : QZeroConfPrivate) where
  order : List QString
  perm : order.Perm s.resolvers.keys

/-- How a loop over a hash can go wrong. -/
inductive IteratorFault where
  /-- the iterator advances from an entry that has been erased -/
  | erased
  deriving DecidableEq

/-- Where the loop over the resolvers has got: the instance, what was emitted, and
    the resolvers that have cleaned up. -/
structure Visit where
  state : QZeroConfPrivate
  outputs : List Output := []
  cleaned : List ResolverId := []

/-- `for (auto resolver : resolvers) resolver->cleanUp();`, from some entry on. An
    entry that is erased before the iterator gets to it is passed over. -/
def visitEach : List QString → Visit → Except IteratorFault Visit
  | [], v => .ok v
  | k :: rest, v =>
    match v.state.resolvers[k]? with
    | none => visitEach rest v
    | some r =>
      let (state, outputs) := Resolver.cleanUp r v.state
      if state.resolvers.contains k then
        visitEach rest { state, outputs := v.outputs ++ outputs, cleaned := v.cleaned ++ [r] }
      else .error .erased

/-- What `cleanUp(browser)` does after its loop over the resolvers. -/
def endBrowser (ref : DNSServiceRef) : Action QZeroConfPrivate Output :=
  (Action.update fun s => { s with resolvers := ∅ }).andThen
    (Action.andThen (fun s =>
      ({ s with services := ∅ }, s.services.toList.map fun entry => .signal (.serviceRemoved (shared s entry.2))))
      (.emit (.DNSServiceRefDeallocate (some ref))))

/-- `cleanUp(browser)`, with the loop over the resolvers as it is written. -/
def teardown (s : QZeroConfPrivate) (layout : Layout s) : Except IteratorFault Visit :=
  match s.browser with
  | none => .ok { state := s }
  | some ref =>
    (visitEach layout.order { state := { s with browser := none } }).map fun v =>
      { v with state := (endBrowser ref v.state).1, outputs := v.outputs ++ (endBrowser ref v.state).2 }

/-- The call ends, cleans every resolver in the table up once, and leaves no living
    resolver. -/
def VisitsEvery (s : QZeroConfPrivate) (layout : Layout s) : Prop :=
  ∃ v, teardown s layout = .ok v ∧ (∀ (k : QString) r, s.resolvers[k]? = some r → v.cleaned.count r = 1) ∧
    ∀ r, v.state.live r = none

/-- A loop that gets to its end has done what the sequential model says for the
    order of the entries. -/
theorem visitEach_eq {order : List QString} {v v' : Visit} (h : visitEach order v = .ok v') :
    v'.state = (forEach cleanUpAt order v.state).1 ∧
      v'.outputs = v.outputs ++ (forEach cleanUpAt order v.state).2 := by
  induction order generalizing v with
  | nil =>
    cases h
    simp
  | cons k rest ih =>
    simp only [visitEach] at h
    cases hr : v.state.resolvers[k]? with
    | none =>
      simp only [hr] at h
      simpa [cleanUpAt, hr] using ih h
    | some r =>
      simp only [hr] at h
      split at h
      · simpa [cleanUpAt, hr] using ih h
      · cases h

theorem cleanUp_browser {s : QZeroConfPrivate} {ref : DNSServiceRef} (h : s.browser = some ref)
    (order : List QString) :
    let looped := forEach cleanUpAt order { s with browser := none }
    cleanUp order s.browser s = ((endBrowser ref looped.1).1, looped.2 ++ (endBrowser ref looped.1).2) := by
  simp only [cleanUp, h, if_true]
  refine Prod.ext rfl ?_
  simp [cleanUpBrowser, endBrowser]

theorem teardown_eq {s : QZeroConfPrivate} {layout : Layout s} {v : Visit} (h : teardown s layout = .ok v) :
    (v.state, v.outputs) = cleanUp layout.order s.browser s := by
  unfold teardown at h
  cases hbrowser : s.browser with
  | none =>
    simp only [hbrowser] at h
    cases h
    rfl
  | some ref =>
    simp only [hbrowser] at h
    cases hvisit : visitEach layout.order { state := { s with browser := none } } with
    | error fault =>
      rw [hvisit] at h
      cases h
    | ok v' =>
      rw [hvisit] at h
      cases h
      obtain ⟨hstate, houtputs⟩ := visitEach_eq hvisit
      rw [List.nil_append] at houtputs
      rw [← hbrowser, cleanUp_browser hbrowser, ← hstate, ← houtputs]

/-- A resolver that cleans up takes the entry it is visited at along. -/
theorem visitEach_erased {s : QZeroConfPrivate} (hs : s.registry.Stored) {k : QString} {r : ResolverId}
    (hr : s.resolvers[k]? = some r) (rest : List QString) (outputs : List Output) (cleaned : List ResolverId) :
    visitEach (k :: rest) { state := s, outputs, cleaned } = .error .erased := by
  obtain ⟨x, hx, hkey⟩ := Option.map_eq_some_iff.mp (hs k r hr)
  have hgone : (Resolver.cleanUp r s).1.resolvers.contains k = false := by
    simp only [Resolver.cleanUp, hx, hkey]
    simp
  simp [visitEach, hr, hgone]

theorem visitsEvery_iff {s : QZeroConfPrivate} (hs : s.registry.Stored) (layout : Layout s) :
    VisitsEvery s layout ↔ ∀ r, s.live r = none := by
  constructor
  · rintro ⟨v, hdone, -, hlive⟩
    unfold teardown at hdone
    cases hbrowser : s.browser with
    | none =>
      simp only [hbrowser] at hdone
      cases hdone
      exact hlive
    | some ref =>
      simp only [hbrowser] at hdone
      cases horder : layout.order with
      | nil =>
        rw [horder] at hdone
        cases hdone
        exact hlive
      | cons k rest =>
        have hk : k ∈ s.resolvers := by
          rw [← Std.ExtTreeMap.mem_keys, ← layout.perm.mem_iff, horder]
          exact List.mem_cons_self
        obtain ⟨r, hr⟩ := Option.isSome_iff_exists.mp (Std.ExtTreeMap.mem_iff_isSome_getElem?.mp hk)
        have herased := visitEach_erased (s := { s with browser := none }) hs hr rest [] []
        rw [horder, herased] at hdone
        cases hdone
  · intro hlive
    have hempty (k : QString) : s.resolvers[k]? = none := by
      by_contra hused
      obtain ⟨r, hr⟩ := Option.ne_none_iff_exists'.mp hused
      have halive := hs k r hr
      simp [registry, hlive r] at halive
    have horder : layout.order = [] := by
      refine List.eq_nil_iff_forall_not_mem.mpr fun k hk => ?_
      rw [layout.perm.mem_iff, Std.ExtTreeMap.mem_keys, Std.ExtTreeMap.mem_iff_isSome_getElem?, hempty k] at hk
      cases hk
    have hdone : ∃ v, teardown s layout = .ok v ∧ v.state.live = s.live := by
      unfold teardown
      cases s.browser with
      | none => exact ⟨_, rfl, rfl⟩
      | some ref =>
        rw [horder]
        exact ⟨_, rfl, rfl⟩
    obtain ⟨v, hv, hsame⟩ := hdone
    refine ⟨v, hv, fun k r hr => ?_, fun r => ?_⟩
    · rw [hempty k] at hr
      cases hr
    · rw [hsame, hlive r]

/-- In every state that an instance reaches, and for every layout of the hash, the
    end of browsing visits every resolver exactly when no resolver is alive. -/
theorem teardown_visits_iff (events : List Event) (layout : Layout (reached events)) :
    VisitsEvery (reached events) layout ↔ ∀ r, (reached events).live r = none :=
  visitsEvery_iff (after_invariant soundRegistry_step soundRegistry_initial events).stored layout

/-- A service is announced, and its resolver is in the table. -/
def announced : List Event :=
  [.startBrowser .watched [] (tcpType 0x61) .IPv4Protocol,
    .browseReply .watched [] kDNSServiceFlagsAdd 2 kDNSServiceErr_NoError [0x61] reportedType reportedDomain]

/-- The one resolver erases the entry that the iterator is at. -/
theorem single_resolver_erased : ¬ ∀ events layout, VisitsEvery (reached events) layout := by
  intro h
  have hs := (after_invariant soundRegistry_step soundRegistry_initial announced).stored
  have hnone := (visitsEvery_iff hs ⟨_, List.Perm.refl _⟩).mp (h announced ⟨_, List.Perm.refl _⟩) 2
  have hlive : ((reached announced).live 2).map (fun x => x.zcs) = some 1 := by decide
  rw [reached, hnone] at hlive
  cases hlive

end qtzeroconf.bonjour
