import QtZeroConf.Avahi.Discovery
import QtZeroConf.Library.Handles

open reactive handles

namespace qtzeroconf.avahi

/-- The calls that create and free resolvers. A handle may be null. -/
def Output.resolverCall? : Output → Option (Effect (Option ServiceResolver))
  | .service_resolver_new resolver => some (.register (some resolver))
  | .service_resolver_free resolver => some (.release resolver)
  | .signal _ | .service_browser_new _ _ _ | .service_browser_free _ => none

def resolverCalls (outputs : List Output) : List (Effect (Option ServiceResolver)) :=
  outputs.filterMap Output.resolverCall?

/-- Every handle that is freed is not null, was returned by `resolver_new`, and
    was not freed before. -/
def FreedOnce (calls : List (Effect (Option ServiceResolver))) : Prop :=
  ∀ pre resolver post, calls = pre ++ .release resolver :: post →
    ∃ r, resolver = some r ∧ .register (some r) ∈ pre ∧ .release (some r) ∉ pre

/-- The handles of a run are freed once, and those that are not freed are in the
    table. -/
structure ResolversFreedOnce (backend : Backend) (events : List Event) : Prop where
  freed : FreedOnce (resolverCalls (trace (step backend) {} events))
  kept : ∀ r, .register (some r) ∈ resolverCalls (trace (step backend) {} events) →
    (∃ key : QString, (reached backend events).resolvers[key]? = some (some r)) ∨
      .release (some r) ∈ resolverCalls (trace (step backend) {} events)

/-- Where a resolver is asked for, Avahi creates one. -/
def ResolverCreated (s : Discovery) : Event → Prop
  | .browse created interface _ .AVAHI_BROWSER_NEW name _ _ =>
    s.resolvers[discoveryKey name interface]? = none → created = true
  | _ => True

/-- No entry of the table is a null handle. -/
def NoNull (s : Discovery) : Prop := ∀ key : QString, s.resolvers[key]? ≠ some none

theorem resolverCalls_append (outputs outputs' : List Output) :
    resolverCalls (outputs ++ outputs') = resolverCalls outputs ++ resolverCalls outputs' :=
  List.filterMap_append

/-- A service that is removed keeps its resolver. -/
theorem resolverCalls_removeService (key : QString) (s : Discovery) :
    resolverCalls (removeService key s).2 = [] := by
  unfold removeService
  split <;> rfl

theorem removeService_nextHandle (key : QString) (s : Discovery) :
    (removeService key s).1.nextHandle = s.nextHandle := by
  unfold removeService
  split <;> rfl

/-- The cleanup frees each resolver of the table. -/
theorem resolverCalls_broswerCleanUp {s : Discovery} {handle : Nat} (h : s.browser = some handle) :
    resolverCalls (broswerCleanUp s).2 = s.resolvers.toList.map fun entry => .release entry.2 := by
  have hsignals : (s.services.toList.map fun entry => Output.signal (.serviceRemoved entry.2)).filterMap
      Output.resolverCall? = [] := by
    simp [Output.resolverCall?]
  have hfrees : (s.resolvers.toList.map fun entry => Output.service_resolver_free entry.2).filterMap
      Output.resolverCall? = s.resolvers.toList.map fun entry => .release entry.2 := by
    rw [List.filterMap_map, ← List.filterMap_eq_map]
    rfl
  simp only [broswerCleanUp, h, resolverCalls, List.cons_append, List.filterMap_cons,
    Output.resolverCall?, List.filterMap_append, hsignals, hfrees, List.nil_append]

/-- What an event can do to the resolvers. -/
inductive ResolverStep (s : Discovery) (e : Event) (s' : Discovery) :
    List (Effect (Option ServiceResolver)) → Prop where
  | unchanged (hresolvers : s'.resolvers = s.resolvers) (hnext : s.nextHandle ≤ s'.nextHandle) :
    ResolverStep s e s' []
  | created {r : ServiceResolver} (hhandle : r.handle = s.nextHandle)
    (hfree : s.resolvers[discoveryKey r.name r.interface]? = none)
    (hresolvers : s'.resolvers = s.resolvers.insert (discoveryKey r.name r.interface) (some r))
    (hnext : s'.nextHandle = s.nextHandle + 1) : ResolverStep s e s' [.register (some r)]
  | failed {key : QString} (hfailed : ¬ ResolverCreated s e) (hfree : s.resolvers[key]? = none)
    (hresolvers : s'.resolvers = s.resolvers.insert key none) (hnext : s'.nextHandle = s.nextHandle) :
    ResolverStep s e s' []
  | freed {key : QString} {resolver : Option ServiceResolver} (hstored : s.resolvers[key]? = some resolver)
    (hresolvers : s'.resolvers = s.resolvers.erase key) (hnext : s'.nextHandle = s.nextHandle) :
    ResolverStep s e s' [.release resolver]
  | cleared (hresolvers : s'.resolvers = ∅) (hnext : s'.nextHandle = s.nextHandle) :
    ResolverStep s e s' (s.resolvers.toList.map fun entry => .release entry.2)

/-- The cleanup frees the table, or there is no browser. -/
theorem resolverStep_broswerCleanUp (s : Discovery) (e : Event) :
    ResolverStep s e (broswerCleanUp s).1 (resolverCalls (broswerCleanUp s).2) := by
  cases hbrowser : s.browser with
  | none =>
    simp only [broswerCleanUp, hbrowser]
    exact .unchanged rfl le_rfl
  | some handle =>
    rw [resolverCalls_broswerCleanUp hbrowser]
    simp only [broswerCleanUp, hbrowser]
    exact .cleared rfl rfl

theorem resolverStep_openBrowser (created : Bool) (type : QString) (protocol : NetworkLayerProtocol)
    (s : Discovery) (e : Event) :
    ResolverStep s e (openBrowser created type protocol s).1
      (resolverCalls (openBrowser created type protocol s).2) := by
  cases created with
  | false => exact .unchanged rfl le_rfl
  | true => exact .unchanged rfl (Nat.le_succ _)

/-- A resolver is created under a key that is free, or fails there. -/
theorem resolverStep_new (created : Bool) (interface : Int32) (protocol : AvahiProtocol)
    (name type domain : CString) (s : Discovery) (hfree : s.resolvers[discoveryKey name interface]? = none) :
    let next := service_resolver_new created interface protocol name type domain (discoveryKey name interface) s
    ResolverStep s (.browse created interface protocol .AVAHI_BROWSER_NEW name type domain) next.1
      (resolverCalls next.2) := by
  cases created with
  | false => exact .failed (fun hcreated => Bool.false_ne_true (hcreated hfree)) hfree rfl rfl
  | true => exact .created rfl hfree rfl rfl

/-- One case for each event. -/
theorem resolverStep_step (backend : Backend) (s : Discovery) (e : Event) :
    ResolverStep s e (step backend s e).1 (resolverCalls (step backend s e).2) := by
  cases e with
  | startBrowser created type protocol =>
    cases backend with
    | avahiclient client =>
      simp only [step, avahiclient.startBrowser]
      split
      · exact .unchanged rfl le_rfl
      · exact resolverStep_openBrowser created type protocol s _
    | avahicore =>
      simp only [step, avahicore.startBrowser, Action.andThen_fst, Action.andThen_snd, resolverCalls_append]
      split <;> exact resolverStep_openBrowser created type protocol s _
  | stopBrowser => exact resolverStep_broswerCleanUp s _
  | browse created interface protocol event name type domain =>
    cases event with
    | AVAHI_BROWSER_NEW =>
      simp only [step, browseCallback]
      split
      · exact .unchanged rfl le_rfl
      · rename_i hfree
        refine resolverStep_new created interface protocol name type domain s ?_
        exact Std.ExtTreeMap.getElem?_eq_none_of_contains_eq_false (Bool.eq_false_iff.mpr hfree)
    | AVAHI_BROWSER_REMOVE =>
      simp only [step, browseCallback]
      split
      · exact .unchanged rfl le_rfl
      · rename_i resolver hstored
        have hcalls := resolverCalls_removeService (discoveryKey name interface)
          { s with resolvers := s.resolvers.erase (discoveryKey name interface) }
        simp only [Action.andThen_fst, Action.andThen_snd, Action.emit_apply, Action.update_apply,
          resolverCalls_append, hcalls]
        refine .freed hstored ?_ ?_
        · exact removeService_resolvers _ _
        · exact removeService_nextHandle _ _
    | AVAHI_BROWSER_FAILURE =>
      simp only [step, browseCallback, Action.andThen_fst, Action.andThen_snd, Action.emit_apply,
        resolverCalls_append]
      have hcleaned := resolverStep_broswerCleanUp s
        (.browse created interface protocol .AVAHI_BROWSER_FAILURE name type domain)
      have hsignal : resolverCalls [.signal (.error .browserFailed)] = [] := rfl
      rwa [hsignal, List.append_nil]
    | AVAHI_BROWSER_ALL_FOR_NOW => exact .unchanged rfl le_rfl
    | AVAHI_BROWSER_CACHE_EXHAUSTED => exact .unchanged rfl le_rfl
  | resolve interface event name type domain =>
    cases event with
    | AVAHI_RESOLVER_FOUND report =>
      simp only [step, resolveCallback]
      split <;> exact .unchanged rfl le_rfl
    | AVAHI_RESOLVER_FAILURE =>
      simp only [step, resolveCallback, resolverCalls_removeService]
      exact .unchanged (removeService_resolvers _ _) (removeService_nextHandle _ s).ge

/-- The books of the resolvers: what is stored was created and is not freed, under
    the key of its name and interface; what was created and is not freed is
    stored; and the next handle is a new one. -/
structure Accounted (calls : List (Effect (Option ServiceResolver))) (s : Discovery) : Prop where
  stored : ∀ (key : QString) (r : ServiceResolver), s.resolvers[key]? = some (some r) →
    .register (some r) ∈ calls ∧ .release (some r) ∉ calls ∧ discoveryKey r.name r.interface = key
  kept : ∀ r, .register (some r) ∈ calls → .release (some r) ∉ calls →
    s.resolvers[discoveryKey r.name r.interface]? = some (some r)
  issued : ∀ r, .register (some r) ∈ calls ∨ .release (some r) ∈ calls → r.handle < s.nextHandle

theorem accounted_initial : Accounted [] {} :=
  ⟨fun key r h => by simp at h, nofun, nofun⟩

section Books

variable {calls : List (Effect (Option ServiceResolver))} {s s' : Discovery} (h : Accounted calls s)
include h

/-- Handles that were issued stay below the next one. -/
theorem Accounted.issued_append {calls' : List (Effect (Option ServiceResolver))}
    (hnext : s.nextHandle ≤ s'.nextHandle)
    (hcalls : ∀ r, .register (some r) ∈ calls' ∨ .release (some r) ∈ calls' → r.handle < s'.nextHandle) :
    ∀ r, .register (some r) ∈ calls ++ calls' ∨ .release (some r) ∈ calls ++ calls' →
      r.handle < s'.nextHandle := by
  intro r hr
  simp only [List.mem_append] at hr
  have hold (hmem : .register (some r) ∈ calls ∨ .release (some r) ∈ calls) : r.handle < s'.nextHandle := by
    have hissued := h.issued r hmem
    omega
  obtain (hmem | hmem) | (hmem | hmem) := hr
  · exact hold (Or.inl hmem)
  · exact hcalls r (Or.inl hmem)
  · exact hold (Or.inr hmem)
  · exact hcalls r (Or.inr hmem)

/-- A free key is no key of a handle that is kept. -/
theorem Accounted.kept_insert {key : QString} (hfree : s.resolvers[key]? = none) (resolver : Option ServiceResolver)
    {r : ServiceResolver} (hr : .register (some r) ∈ calls) (hfreed : .release (some r) ∉ calls) :
    (s.resolvers.insert key resolver)[discoveryKey r.name r.interface]? = some (some r) := by
  have hold := h.kept r hr hfreed
  rw [Std.ExtTreeMap.getElem?_insert]
  simp only [Std.compare_eq_iff_eq]
  split
  · rename_i hkey
    rw [← hkey, hfree] at hold
    cases hold
  · exact hold

/-- A resolver that is created is in the table. -/
theorem Accounted.created {new : ServiceResolver} (hhandle : new.handle = s.nextHandle)
    (hfree : s.resolvers[discoveryKey new.name new.interface]? = none)
    (hresolvers : s'.resolvers = s.resolvers.insert (discoveryKey new.name new.interface) (some new))
    (hnext : s'.nextHandle = s.nextHandle + 1) : Accounted (calls ++ [.register (some new)]) s' := by
  have hnew : .release (some new) ∉ calls := by
    intro hmem
    have hissued := h.issued new (Or.inr hmem)
    omega
  refine ⟨fun key r hr => ?_, fun r hr hfreed => ?_, h.issued_append (by omega) fun r hr => ?_⟩
  · rw [hresolvers, Std.ExtTreeMap.getElem?_insert] at hr
    simp only [Std.compare_eq_iff_eq] at hr
    split at hr
    · rename_i hkey
      cases hr
      exact ⟨by simp, by simpa using hnew, hkey⟩
    · obtain ⟨hcreated, hfreed, hkey⟩ := h.stored key r hr
      exact ⟨List.mem_append_left _ hcreated, by simpa using hfreed, hkey⟩
  · rw [hresolvers]
    cases List.mem_append.mp hr with
    | inl hr => exact h.kept_insert hfree _ hr fun hmem => hfreed (List.mem_append_left _ hmem)
    | inr hr =>
      cases List.mem_singleton.mp hr
      simp
  · cases hr with
    | inl hr =>
      cases List.mem_singleton.mp hr
      omega
    | inr hr => cases List.mem_singleton.mp hr

theorem Accounted.failed {key : QString} (hfree : s.resolvers[key]? = none)
    (hresolvers : s'.resolvers = s.resolvers.insert key none) (hnext : s'.nextHandle = s.nextHandle) :
    Accounted calls s' := by
  refine ⟨fun key' r hr => ?_, fun r hr hfreed => ?_, fun r hr => hnext ▸ h.issued r hr⟩
  · rw [hresolvers, Std.ExtTreeMap.getElem?_insert] at hr
    split at hr
    · cases hr
    · exact h.stored key' r hr
  · rw [hresolvers]
    exact h.kept_insert hfree none hr hfreed

/-- A resolver that is freed leaves the table. -/
theorem Accounted.freed {key : QString} {resolver : Option ServiceResolver}
    (hstored : s.resolvers[key]? = some resolver) (hresolvers : s'.resolvers = s.resolvers.erase key)
    (hnext : s'.nextHandle = s.nextHandle) : Accounted (calls ++ [.release resolver]) s' := by
  refine ⟨fun key' r hr => ?_, fun r hr hfreed => ?_, h.issued_append hnext.ge fun r hr => ?_⟩
  · rw [hresolvers, Std.ExtTreeMap.getElem?_erase] at hr
    simp only [Std.compare_eq_iff_eq] at hr
    split at hr
    · cases hr
    · rename_i hne
      obtain ⟨hcreated, hfreed, hkey⟩ := h.stored key' r hr
      refine ⟨List.mem_append_left _ hcreated, fun hmem => ?_, hkey⟩
      cases List.mem_append.mp hmem with
      | inl hmem => exact hfreed hmem
      | inr hmem =>
        cases List.mem_singleton.mp hmem
        exact hne ((h.stored key r hstored).2.2.symm.trans hkey)
  · have hr' : .register (some r) ∈ calls := by simpa using hr
    have hfreed' : .release (some r) ∉ calls := fun hmem => hfreed (List.mem_append_left _ hmem)
    have hold := h.kept r hr' hfreed'
    rw [hresolvers, Std.ExtTreeMap.getElem?_erase]
    simp only [Std.compare_eq_iff_eq]
    split
    · rename_i hkey
      rw [← hkey, hstored, Option.some.injEq] at hold
      exact absurd (List.mem_append_right _ (by simp [hold])) hfreed
    · exact hold
  · cases hr with
    | inl hr => cases List.mem_singleton.mp hr
    | inr hr =>
      cases List.mem_singleton.mp hr
      rw [hnext]
      exact h.issued r (Or.inl (h.stored key r hstored).1)

/-- What was in the table is freed when it is cleared. -/
theorem Accounted.cleared (hresolvers : s'.resolvers = ∅) (hnext : s'.nextHandle = s.nextHandle) :
    Accounted (calls ++ s.resolvers.toList.map fun entry => .release entry.2) s' := by
  have hreleased (r : ServiceResolver) :
      .release (some r) ∈ (s.resolvers.toList.map fun entry => Effect.release entry.2) ↔
        ∃ key : QString, s.resolvers[key]? = some (some r) := by
    simp [Std.ExtTreeMap.mem_toList_iff_getElem?_eq_some]
  refine ⟨fun key r hr => by simp [hresolvers] at hr, fun r hr hfreed => ?_,
    h.issued_append hnext.ge fun r hr => ?_⟩
  · have hr' : .register (some r) ∈ calls := by simpa using hr
    have hold := h.kept r hr' fun hmem => hfreed (List.mem_append_left _ hmem)
    exact absurd (List.mem_append_right _ ((hreleased r).mpr ⟨_, hold⟩)) hfreed
  · cases hr with
    | inl hr => simp at hr
    | inr hr =>
      obtain ⟨key, hstored⟩ := (hreleased r).mp hr
      rw [hnext]
      exact h.issued r (Or.inl (h.stored key r hstored).1)

/-- What each kind of step keeps. -/
theorem Accounted.step {e : Event} {calls' : List (Effect (Option ServiceResolver))}
    (hstep : ResolverStep s e s' calls') : Accounted (calls ++ calls') s' := by
  cases hstep with
  | unchanged hresolvers hnext =>
    refine ⟨?_, ?_, h.issued_append hnext (by simp)⟩ <;> rw [List.append_nil, hresolvers]
    · exact h.stored
    · exact h.kept
  | created hhandle hfree hresolvers hnext => exact h.created hhandle hfree hresolvers hnext
  | failed _ hfree hresolvers hnext =>
    rw [List.append_nil]
    exact h.failed hfree hresolvers hnext
  | freed hstored hresolvers hnext => exact h.freed hstored hresolvers hnext
  | cleared hresolvers hnext => exact h.cleared hresolvers hnext

end Books

/-- The account is right over every run. -/
theorem accounted_reached (backend : Backend) (events : List Event) :
    Accounted (resolverCalls (trace (step backend) {} events)) (reached backend events) := by
  induction events using List.reverseRecOn with
  | nil => exact accounted_initial
  | append_singleton events e ih =>
    have hstep := ih.step (resolverStep_step backend (reached backend events) e)
    rw [reached, after_append, trace_append, resolverCalls_append]
    simpa [reached] using hstep

theorem FreedOnce.append {calls calls' : List (Effect (Option ServiceResolver))} (h : FreedOnce calls)
    (h' : ∀ pre resolver post, calls' = pre ++ .release resolver :: post →
      ∃ r, resolver = some r ∧ .register (some r) ∈ calls ++ pre ∧ .release (some r) ∉ calls ++ pre) :
    FreedOnce (calls ++ calls') := by
  intro pre resolver post hsplit
  rcases List.append_eq_append_iff.mp hsplit with ⟨rest, rfl, hrest⟩ | ⟨rest, hcalls, hrest⟩
  · exact h' rest resolver post hrest
  · cases rest with
    | nil =>
      rw [List.append_nil] at hcalls
      subst hcalls
      have hfirst := h' [] resolver post hrest.symm
      rwa [List.append_nil] at hfirst
    | cons call rest =>
      obtain ⟨rfl, -⟩ := List.cons.inj hrest
      exact h pre resolver rest hcalls

/-- A step from a table without null handles frees what is stored, each handle
    once. -/
theorem freedOnce_step {calls calls' : List (Effect (Option ServiceResolver))} {s s' : Discovery}
    {e : Event} (h : Accounted calls s) (hnull : NoNull s) (hfreed : FreedOnce calls)
    (hstep : ResolverStep s e s' calls') :
    FreedOnce (calls ++ calls') := by
  refine hfreed.append fun pre resolver post hsplit => ?_
  cases hstep with
  | unchanged | failed => simp at hsplit
  | created =>
    obtain ⟨rfl, hcons⟩ | ⟨_, rfl, hcons⟩ := List.append_eq_cons_iff.mp hsplit.symm
    · cases hcons
    · simp at hcons
  | @freed key stored hstored =>
    obtain ⟨rfl, hcons⟩ | ⟨_, rfl, hcons⟩ := List.append_eq_cons_iff.mp hsplit.symm
    · cases hcons
      cases hresolver : resolver with
      | none => exact absurd (hresolver ▸ hstored) (hnull key)
      | some r =>
        subst hresolver
        obtain ⟨hcreated, hnot, -⟩ := h.stored key r hstored
        exact ⟨r, rfl, by simpa using hcreated, by simpa using hnot⟩
    · simp at hcons
  | cleared =>
    obtain ⟨before, rest, hentries, rfl, hrest⟩ := List.map_eq_append_iff.mp hsplit
    obtain ⟨⟨key, stored⟩, later, rfl, hrelease, -⟩ := List.map_eq_cons_iff.mp hrest
    obtain rfl : stored = resolver := Effect.release.inj hrelease
    have hstored : s.resolvers[key]? = some stored := by
      rw [← Std.ExtTreeMap.mem_toList_iff_getElem?_eq_some, hentries]
      simp
    cases stored with
    | none => exact absurd hstored (hnull key)
    | some r =>
      obtain ⟨hcreated, hnot, hkey⟩ := h.stored key r hstored
      refine ⟨r, rfl, List.mem_append_left _ hcreated, fun hmem => ?_⟩
      rcases List.mem_append.mp hmem with hmem | hmem
      · exact hnot hmem
      · -- an earlier entry with this handle would have the same key
        obtain ⟨⟨key', stored'⟩, hbefore, hsame⟩ := List.mem_map.mp hmem
        obtain rfl : stored' = some r := Effect.release.inj hsame
        have hstored' : s.resolvers[key']? = some (some r) := by
          rw [← Std.ExtTreeMap.mem_toList_iff_getElem?_eq_some, hentries]
          exact List.mem_append_left _ hbefore
        have hdistinct := Std.ExtTreeMap.distinct_keys_toList (t := s.resolvers)
        rw [hentries, List.pairwise_append] at hdistinct
        refine hdistinct.2.2 _ hbefore _ List.mem_cons_self ?_
        rw [← (h.stored key' r hstored').2.2, ← hkey]
        exact Std.ReflCmp.compare_self

theorem noNull_of_step {s s' : Discovery} {e : Event} {calls : List (Effect (Option ServiceResolver))}
    (hs : NoNull s) (hcreated : ResolverCreated s e) (hstep : ResolverStep s e s' calls) : NoNull s' := by
  intro key hnull
  cases hstep with
  | unchanged hresolvers => exact hs key (hresolvers ▸ hnull)
  | created _ _ hresolvers =>
    rw [hresolvers, Std.ExtTreeMap.getElem?_insert] at hnull
    split at hnull
    · cases hnull
    · exact hs key hnull
  | failed hfailed => exact hfailed hcreated
  | freed _ hresolvers =>
    rw [hresolvers, Std.ExtTreeMap.getElem?_erase] at hnull
    split at hnull
    · cases hnull
    · exact hs key hnull
  | cleared hresolvers => simp [hresolvers] at hnull

/-- While every resolver can be created, no NULL is stored. -/
theorem noNull_reached {backend : Backend} {events : List Event}
    (h : Along (step backend) ResolverCreated {} events) : NoNull (reached backend events) := by
  induction events using List.reverseRecOn with
  | nil => exact fun key hnull => by simp [reached] at hnull
  | append_singleton events e ih =>
    obtain ⟨hevents, hlast, -⟩ := along_append.mp h
    rw [reached, after_append]
    exact noNull_of_step (ih hevents) hlast (resolverStep_step backend _ e)

/-- Where every resolver is created, one more event frees no handle wrongly. -/
theorem freedOnce_snoc {backend : Backend} {events : List Event}
    (h : Along (step backend) ResolverCreated {} events) (e : Event) :
    FreedOnce (resolverCalls (trace (step backend) {} (events ++ [e]))) := by
  have hfreed : FreedOnce (resolverCalls (trace (step backend) {} events)) := by
    induction events using List.reverseRecOn with
    | nil => exact fun pre resolver post hsplit => by simp [resolverCalls] at hsplit
    | append_singleton events e' ih =>
      obtain ⟨hevents, -⟩ := along_append.mp h
      rw [trace_append, resolverCalls_append]
      have hstep := freedOnce_step (accounted_reached backend events) (noNull_reached hevents) (ih hevents)
        (resolverStep_step backend (reached backend events) e')
      simpa [reached] using hstep
  have hstep := freedOnce_step (accounted_reached backend events) (noNull_reached h) hfreed
    (resolverStep_step backend (reached backend events) e)
  rw [trace_append, resolverCalls_append]
  simpa [reached] using hstep

/-- A NEW whose resolver cannot be created, and then the REMOVE for it, frees the
    null handle. -/
theorem free_null_of_failed (backend : Backend) {s : Discovery} {e : Event} (h : ¬ ResolverCreated s e) :
    ∃ e', .release none ∈ resolverCalls (step backend (step backend s e).1 e').2 := by
  unfold ResolverCreated at h
  split at h
  · rename_i created interface protocol name type domain
    obtain ⟨hfree, hfailed⟩ := Classical.not_imp.mp h
    obtain rfl : created = false := Bool.eq_false_iff.mpr hfailed
    refine ⟨.browse true interface protocol .AVAHI_BROWSER_REMOVE name type domain, ?_⟩
    have hcontains : s.resolvers.contains (discoveryKey name interface) = false := by
      rw [Std.ExtTreeMap.contains_eq_isSome_getElem?, hfree]
      rfl
    simp [step, browseCallback, hcontains, service_resolver_new, resolverCalls, Output.resolverCall?]
  · exact absurd trivial h

/-- At every point of a run, whatever comes next, the handles are freed once and
    none of them is null, exactly when Avahi creates every resolver that is
    asked for. -/
theorem resolversFreedOnce_iff (backend : Backend) (events : List Event) :
    (∀ pre, pre <+: events → ∀ e, ResolversFreedOnce backend (pre ++ [e])) ↔
      Along (step backend) ResolverCreated {} events := by
  constructor
  · intro h
    rw [along_iff_split]
    rintro pre e post rfl
    by_contra hfailed
    obtain ⟨e', hnull⟩ := free_null_of_failed backend hfailed
    have hfreed := (h (pre ++ [e]) ⟨post, by simp⟩ e').freed
    rw [trace_append, resolverCalls_append] at hfreed
    simp only [trace_cons, trace_nil, List.append_nil, after_append, after_cons, after_nil] at hfreed
    obtain ⟨before, later, hsplit⟩ := List.append_of_mem hnull
    rw [hsplit, ← List.append_assoc] at hfreed
    obtain ⟨r, hr, -⟩ := hfreed _ none later rfl
    cases hr
  · rintro h pre ⟨rest, rfl⟩ e
    refine ⟨freedOnce_snoc (along_append.mp h).1 e, fun r hr => ?_⟩
    by_cases hfreed : .release (some r) ∈ resolverCalls (trace (step backend) {} (pre ++ [e]))
    · exact Or.inr hfreed
    · exact Or.inl ⟨_, (accounted_reached backend (pre ++ [e])).kept r hr hfreed⟩

/-- "a" appears on interface 2 when Avahi cannot create a resolver, and goes
    away again. -/
def failedResolver : List Event :=
  [.startBrowser true (tcpType 0x61) .IPv4Protocol,
    .browse false 2 .AVAHI_PROTO_INET .AVAHI_BROWSER_NEW [0x61] reportedType reportedDomain,
    .browse true 2 .AVAHI_PROTO_INET .AVAHI_BROWSER_REMOVE [0x61] reportedType reportedDomain]

/-- The null handle that was stored is freed. -/
theorem null_resolver_freed : ¬ ResolversFreedOnce (.avahiclient true) failedResolver := by
  rintro ⟨hfreed, -⟩
  have hcalls : resolverCalls (trace (step (.avahiclient true)) {} failedResolver) = [.release none] := by
    rfl
  obtain ⟨r, hr, -⟩ := hfreed [] none [] hcalls
  cases hr

end qtzeroconf.avahi
