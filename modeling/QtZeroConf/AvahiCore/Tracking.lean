import QtZeroConf.AvahiCore.Server

open reactive handles

namespace qtzeroconf.avahicore

open avahi

/-- What an instance knows of its entry groups is what the server holds: there
    is at most the current one, and none until the server is running. -/
structure TracksGroup (i : Nat) (p : Publisher) (objects : List Object) : Prop where
  group : ∀ g, ⟨.entryGroup, i, g⟩ ∈ objects ↔ p.group = some g
  idle : p.ready = false → p.group = none
  waiting : p.registerWaiting = true → p.ready = false

/-- What an instance knows of its resolvers is what the server holds, and its
    browser is one of those that the server holds. -/
structure TracksDiscovery (i : Nat) (d : Discovery) (objects : List Object) : Prop where
  browser : ∀ h, d.browser = some h → ⟨.serviceBrowser, i, h⟩ ∈ objects
  resolver : ∀ h, ⟨.serviceResolver, i, h⟩ ∈ objects ↔
    ∃ (key : QString) (r : ServiceResolver), d.resolvers[key]? = some (some r) ∧ r.handle = h
  issued : ∀ (key : QString) (r : ServiceResolver), d.resolvers[key]? = some (some r) →
    r.handle < d.nextHandle
  distinct : ∀ (key key' : QString) (r r' : ServiceResolver), d.resolvers[key]? = some (some r) →
    d.resolvers[key']? = some (some r') → r.handle = r'.handle → key = key'

/-- An object belongs to the instance that made it. -/
theorem effect_userdata {i : Nat} {output : InstanceOutput} {e : Effect Object}
    (h : output.effect i = some e) : e.object.userdata = i := by
  unfold InstanceOutput.effect at h
  split at h <;> cases h <;> rfl

/-- What publishing makes and frees are entry groups. -/
theorem effect_publish_kind {i : Nat} {output : PublishOutput} {e : Effect Object}
    (h : (InstanceOutput.publish output).effect i = some e) : e.object.kind = .entryGroup := by
  unfold InstanceOutput.effect at h
  split at h <;> cases h <;> first | rfl | contradiction

/-- What browsing makes and frees are no entry groups. -/
theorem effect_discover_kind {i : Nat} {output : Output} {e : Effect Object}
    (h : (InstanceOutput.discover output).effect i = some e) : e.object.kind ≠ .entryGroup := by
  unfold InstanceOutput.effect at h
  split at h <;> cases h <;> first | contradiction | simp [Effect.object]

/-- The outputs of an instance leave the objects of the others alone. -/
theorem mem_registered_of_ne {i : Nat} {objects : List Object} {outputs : List InstanceOutput} {o : Object}
    (h : o.userdata ≠ i) : o ∈ registered i objects outputs ↔ o ∈ objects := by
  refine mem_applyAll_of_untouched fun e he heq => h ?_
  obtain ⟨output, _, houtput⟩ := List.mem_filterMap.mp he
  rw [← heq, effect_userdata houtput]

/-- Publishing leaves all but the entry groups alone. -/
theorem mem_registered_publish {i : Nat} {objects : List Object} {outputs : List PublishOutput} {o : Object}
    (h : o.kind ≠ .entryGroup) : o ∈ registered i objects (outputs.map .publish) ↔ o ∈ objects := by
  refine mem_applyAll_of_untouched fun e he heq => h ?_
  obtain ⟨output, hmem, houtput⟩ := List.mem_filterMap.mp he
  obtain ⟨p, _, rfl⟩ := List.mem_map.mp hmem
  rw [← heq, effect_publish_kind houtput]

/-- Discovery leaves the entry groups alone. -/
theorem mem_registered_discover {i : Nat} {objects : List Object} {outputs : List Output} {o : Object}
    (h : o.kind = .entryGroup) : o ∈ registered i objects (outputs.map .discover) ↔ o ∈ objects := by
  refine mem_applyAll_of_untouched fun e he heq => ?_
  obtain ⟨output, hmem, houtput⟩ := List.mem_filterMap.mp he
  obtain ⟨d, _, rfl⟩ := List.mem_map.mp hmem
  rw [← heq] at h
  exact effect_discover_kind houtput h

theorem TracksGroup.of_registered_discover {i : Nat} {p : Publisher} {objects : List Object}
    (h : TracksGroup i p objects) (outputs : List Output) :
    TracksGroup i p (registered i objects (outputs.map .discover)) :=
  ⟨fun g => (mem_registered_discover rfl).trans (h.group g), h.idle, h.waiting⟩

theorem TracksDiscovery.of_registered_publish {i : Nat} {d : Discovery} {objects : List Object}
    (h : TracksDiscovery i d objects) (outputs : List PublishOutput) :
    TracksDiscovery i d (registered i objects (outputs.map .publish)) where
  browser := fun handle hbrowser => (mem_registered_publish (by simp)).mpr (h.browser handle hbrowser)
  resolver := fun handle => (mem_registered_publish (by simp)).trans (h.resolver handle)
  issued := h.issued
  distinct := h.distinct

/-- An instance does not touch the groups of another. -/
theorem TracksGroup.of_other {i j : Nat} {p : Publisher} {objects : List Object}
    {outputs : List InstanceOutput} (h : TracksGroup j p objects) (hij : i ≠ j) :
    TracksGroup j p (registered i objects outputs) :=
  ⟨fun g => (mem_registered_of_ne (Ne.symm hij)).trans (h.group g), h.idle, h.waiting⟩

/-- An instance does not touch the browsers of another. -/
theorem TracksDiscovery.of_other {i j : Nat} {d : Discovery} {objects : List Object}
    {outputs : List InstanceOutput} (h : TracksDiscovery j d objects) (hij : i ≠ j) :
    TracksDiscovery j d (registered i objects outputs) where
  browser := fun handle hbrowser => (mem_registered_of_ne (Ne.symm hij)).mpr (h.browser handle hbrowser)
  resolver := fun handle => (mem_registered_of_ne (Ne.symm hij)).trans (h.resolver handle)
  issued := h.issued
  distinct := h.distinct

/-- After an action of the publishing half, it still knows its entry group. -/
def KeepsGroup (i : Nat) (a : Action Publisher PublishOutput) (p : Publisher) : Prop :=
  ∀ objects, TracksGroup i p objects → TracksGroup i (a p).1 (registered i objects ((a p).2.map .publish))

/-- After an action of the discovery half, it still knows its objects. -/
def KeepsTrack (i : Nat) (a : Action Discovery Output) (d : Discovery) : Prop :=
  ∀ objects, TracksDiscovery i d objects →
    TracksDiscovery i (a d).1 (registered i objects ((a d).2.map .discover))

section Publishing

variable {i : Nat} {p : Publisher}

/-- Registering from scratch leaves the group it has made, or none. -/
theorem keepsGroup_registerService (answer : Registration → Answer) (name type : CString)
    (domain : Option CString) (port : UInt16) (interface : UInt32) (hgroup : p.group = none)
    (hready : p.ready = true) : KeepsGroup i (registerService answer name type domain port interface) p := by
  intro objects h
  have hnone (g : Nat) : (⟨.entryGroup, i, g⟩ : Object) ∉ objects := by
    rw [h.group, hgroup]
    simp
  have hwaiting : p.registerWaiting = false := by
    by_contra hwaiting
    have := h.waiting (by simpa using hwaiting)
    simp [hready] at this
  unfold registerService
  dsimp only
  generalize answer _ = outcome
  cases outcome
  all_goals
    refine ⟨fun g => ?_, by simp [hready], by simp [hwaiting]⟩
    simp [registered, List.filterMap_cons, InstanceOutput.effect, registrationFailed, hnone, eq_comm]

theorem keepsGroup_call (answer : Registration → Answer) (c : Call) :
    KeepsGroup i (fun p => call answer p c) p := by
  intro objects h
  cases c with
  | startServicePublish r =>
    simp only [call, startServicePublish]
    split
    · exact h
    · rename_i hgroup
      rw [Option.not_isSome_iff_eq_none] at hgroup
      split
      · rename_i hready
        exact keepsGroup_registerService answer r.name r.type r.domain r.port r.interface hgroup hready objects h
      · rename_i hready
        exact ⟨h.group, h.idle, fun _ => by simpa using hready⟩
  | stopServicePublish =>
    simp only [call, stopServicePublish]
    split
    · exact h
    · rename_i group hgroup
      refine ⟨fun g => ?_, fun _ => rfl, h.waiting⟩
      simp [registered, InstanceOutput.effect, h.group, hgroup, eq_comm]
  | addServiceTxtRecord nameOnly => exact ⟨h.group, h.idle, h.waiting⟩
  | addServiceTxtRecordPair name value => exact ⟨h.group, h.idle, h.waiting⟩
  | clearServiceTxtRecords => exact ⟨h.group, h.idle, h.waiting⟩

theorem keepsGroup_serverCallback (answer : Registration → Answer) (state : AvahiServerState) :
    KeepsGroup i (serverCallback answer state) p := by
  intro objects h
  cases state with
  | AVAHI_SERVER_RUNNING =>
    simp only [serverCallback]
    split
    · rename_i hwaiting
      have hgroup := h.idle (h.waiting hwaiting)
      have hcleared : TracksGroup i { p with ready := true, registerWaiting := false } objects :=
        ⟨h.group, by simp, by simp⟩
      exact keepsGroup_registerService (p := { p with ready := true, registerWaiting := false }) answer _ _ _ _ _
        hgroup rfl objects hcleared
    · rename_i hwaiting
      exact ⟨h.group, by simp, fun hwaiting' => absurd hwaiting' hwaiting⟩
  | _ => exact h

/-- A group callback is for the group that the instance knows. -/
theorem keepsGroup_groupCallback (state : AvahiEntryGroupState) {g : Nat} (hg : p.group = some g) :
    KeepsGroup i (groupCallback g state) p := by
  intro objects h
  cases state with
  | AVAHI_ENTRY_GROUP_COLLISION | AVAHI_ENTRY_GROUP_FAILURE =>
    refine ⟨fun g' => ?_, fun _ => rfl, h.waiting⟩
    simp [groupCallback, registered, List.filterMap_cons, InstanceOutput.effect, registrationFailed, h.group,
      hg, eq_comm]
  | _ => exact h

end Publishing

section Discovering

variable {i : Nat} {d : Discovery}

/-- Outputs one after the other. -/
theorem registered_append (objects : List Object) (outputs outputs' : List InstanceOutput) :
    registered i objects (outputs ++ outputs') = registered i (registered i objects outputs) outputs' := by
  rw [registered, List.filterMap_append, applyAll_append]
  rfl

/-- Signals are no calls into avahi-core. -/
theorem keepsTrack_removeService (key : QString) : KeepsTrack i (removeService key) d := by
  intro objects h
  unfold removeService
  split
  · exact h
  · exact ⟨h.browser, h.resolver, h.issued, h.distinct⟩

/-- What `broswerCleanUp` frees: the browser and the resolvers in the table,
    where there is a browser. -/
def cleaned (i : Nat) (d : Discovery) : List Object :=
  match d.browser with
  | none => []
  | some handle =>
    ⟨.serviceBrowser, i, handle⟩ ::
      d.resolvers.toList.filterMap fun entry => entry.2.map fun r => ⟨.serviceResolver, i, r.handle⟩

theorem group_not_mem_cleaned {i g : Nat} {d : Discovery} : ⟨.entryGroup, i, g⟩ ∉ cleaned i d := by
  unfold cleaned
  cases d.browser <;> simp

theorem browser_mem_cleaned {i : Nat} {d : Discovery} {h : Nat} :
    ⟨.serviceBrowser, i, h⟩ ∈ cleaned i d ↔ d.browser = some h := by
  unfold cleaned
  cases d.browser with
  | none => simp
  | some handle =>
    simp only [List.mem_cons, Object.mk.injEq, true_and, List.mem_filterMap, Option.map_eq_some_iff,
      reduceCtorEq, false_and, and_false, exists_false, or_false, Option.some.injEq]
    exact eq_comm

theorem resolver_mem_cleaned {i : Nat} {d : Discovery} {h : Nat} :
    ⟨.serviceResolver, i, h⟩ ∈ cleaned i d ↔
      d.browser ≠ none ∧
        ∃ (key : QString) (r : ServiceResolver), d.resolvers[key]? = some (some r) ∧ r.handle = h := by
  unfold cleaned
  cases d.browser with
  | none => simp
  | some handle =>
    simp only [List.mem_cons, Object.mk.injEq, reduceCtorEq, false_and, false_or, List.mem_filterMap,
      Option.map_eq_some_iff, true_and, Prod.exists, Std.ExtTreeMap.mem_toList_iff_getElem?_eq_some, ne_eq,
      not_false_eq_true]
    constructor
    · rintro ⟨key, _, hentry, r, rfl, hhandle⟩
      exact ⟨key, r, hentry, hhandle⟩
    · rintro ⟨key, r, hentry, hhandle⟩
      exact ⟨key, some r, hentry, r, rfl, hhandle⟩

/-- The cleanup frees what it is said to. -/
theorem registered_broswerCleanUp (i : Nat) (objects : List Object) (d : Discovery) :
    registered i objects ((broswerCleanUp d).2.map .discover) =
      applyAll objects ((cleaned i d).map .release) := by
  unfold broswerCleanUp cleaned
  cases d.browser with
  | none => rfl
  | some handle =>
    have hsignals : (d.services.toList.map fun entry =>
        InstanceOutput.discover (.signal (.serviceRemoved entry.2))).filterMap
          (InstanceOutput.effect i) = [] := by
      simp [InstanceOutput.effect]
    have hfrees : (d.resolvers.toList.map fun entry =>
        InstanceOutput.discover (.service_resolver_free entry.2)).filterMap (InstanceOutput.effect i) =
          (d.resolvers.toList.filterMap fun entry =>
            entry.2.map fun r => Object.mk .serviceResolver i r.handle).map .release := by
      rw [List.filterMap_map, List.map_filterMap]
      refine List.filterMap_congr fun entry _ => ?_
      rcases entry with ⟨_, _ | r⟩ <;> rfl
    simp only [registered, List.map_cons, List.map_append, List.map_map, List.cons_append,
      List.filterMap_cons, List.filterMap_append, InstanceOutput.effect]
    refine congrArg _ (congrArg _ ?_)
    exact (congrArg (· ++ _) hsignals).trans hfrees

/-- Cleaning up frees the browser and the resolvers, where there is a browser. -/
theorem keepsTrack_broswerCleanUp : KeepsTrack i broswerCleanUp d := by
  intro objects h
  rw [registered_broswerCleanUp]
  unfold broswerCleanUp
  cases hbrowser : d.browser with
  | none =>
    have hcleaned : cleaned i d = [] := by simp [cleaned, hbrowser]
    rw [hcleaned]
    exact h
  | some handle =>
    refine ⟨nofun, fun handle' => ?_, by simp, by simp⟩
    rw [mem_applyAll_releases, h.resolver, resolver_mem_cleaned, hbrowser]
    simp

/-- A new resolver is filed under a key that was free. -/
theorem keepsTrack_resolver_new (created : Bool) (interface : Int32) (protocol : AvahiProtocol)
    (name type domain : CString) {key : QString} (hfree : d.resolvers[key]? = none) :
    KeepsTrack i (service_resolver_new created interface protocol name type domain key) d := by
  intro objects h
  unfold service_resolver_new
  cases created with
  | false =>
    have hkept (k : QString) (r : ServiceResolver) :
        (d.resolvers.insert key none)[k]? = some (some r) ↔ d.resolvers[k]? = some (some r) := by
      by_cases hkey : key = k
      · subst hkey
        simp [hfree]
      · simp [Std.ExtTreeMap.getElem?_insert, hkey]
    refine ⟨h.browser, fun handle => ?_, fun k r hk => h.issued k r ((hkept k r).mp hk),
      fun k k' r r' hk hk' => ?_⟩
    · simpa [registered, hkept] using h.resolver handle
    · exact h.distinct k k' r r' ((hkept k r).mp hk) ((hkept k' r').mp hk')
  | true =>
    have hstored (k : QString) (r r' : ServiceResolver) :
        (d.resolvers.insert key (some r'))[k]? = some (some r) ↔
          (key = k ∧ r' = r) ∨ d.resolvers[k]? = some (some r) := by
      by_cases hkey : key = k
      · subst hkey
        simp [hfree]
      · simp [Std.ExtTreeMap.getElem?_insert, hkey]
    refine ⟨fun handle hbrowser => ?_, fun handle => ?_, fun k r hk => ?_, fun k k' r r' hk hk' hhandle => ?_⟩
    · simpa [registered, InstanceOutput.effect] using h.browser handle hbrowser
    · simp only [if_true, registered, List.map_cons, List.map_nil, List.filterMap_cons, List.filterMap_nil,
        InstanceOutput.effect, applyAll_cons, applyAll_nil, mem_apply_register, Object.mk.injEq, true_and,
        h.resolver, hstored]
      constructor
      · rintro (rfl | ⟨k, r, hk, hhandle⟩)
        · exact ⟨key, _, Or.inl ⟨rfl, rfl⟩, rfl⟩
        · exact ⟨k, r, Or.inr hk, hhandle⟩
      · rintro ⟨k, r, ⟨rfl, rfl⟩ | hk, hhandle⟩
        · exact Or.inl hhandle.symm
        · exact Or.inr ⟨k, r, hk, hhandle⟩
    · simp only [if_true, hstored] at hk ⊢
      rcases hk with ⟨_, rfl⟩ | hk
      · exact Nat.lt_succ_self _
      · exact Nat.lt_succ_of_lt (h.issued k r hk)
    · simp only [if_true, hstored] at hk hk'
      -- the new handle is above all that were given out
      rcases hk with ⟨rfl, rfl⟩ | hk <;> rcases hk' with ⟨rfl, rfl⟩ | hk'
      · rfl
      · exact absurd hhandle (Nat.ne_of_gt (h.issued k' r' hk'))
      · exact absurd hhandle (Nat.ne_of_lt (h.issued k r hk))
      · exact h.distinct k k' r r' hk hk' hhandle

/-- Freeing the resolver of a key takes this entry and no other. -/
theorem tracksDiscovery_resolver_free {key : QString} {objects : List Object} (h : TracksDiscovery i d objects)
    {resolver : Option ServiceResolver} (hkey : d.resolvers[key]? = some resolver) :
    TracksDiscovery i { d with resolvers := d.resolvers.erase key }
      (registered i objects [.discover (.service_resolver_free resolver)]) := by
  have hkept (k : QString) (r : ServiceResolver) :
      (d.resolvers.erase key)[k]? = some (some r) ↔ key ≠ k ∧ d.resolvers[k]? = some (some r) := by
    simp [Std.ExtTreeMap.getElem?_erase]
  refine ⟨fun handle hbrowser => ?_, fun handle => ?_, fun k r hk => h.issued k r ((hkept k r).mp hk).2,
    fun k k' r r' hk hk' => h.distinct k k' r r' ((hkept k r).mp hk).2 ((hkept k' r').mp hk').2⟩
  · have hmem := h.browser handle hbrowser
    cases resolver <;> simpa [registered, List.filterMap_cons, InstanceOutput.effect] using hmem
  · simp only [hkept]
    cases resolver with
    | none =>
      simp only [registered, List.filterMap_cons, InstanceOutput.effect, List.filterMap_nil, applyAll_nil,
        h.resolver]
      constructor
      · rintro ⟨k, r, hk, hhandle⟩
        refine ⟨k, r, ⟨?_, hk⟩, hhandle⟩
        rintro rfl
        rw [hkey] at hk
        cases hk
      · rintro ⟨k, r, ⟨_, hk⟩, hhandle⟩
        exact ⟨k, r, hk, hhandle⟩
    | some resolver =>
      simp only [registered, List.filterMap_cons, InstanceOutput.effect, List.filterMap_nil, applyAll_cons,
        applyAll_nil, mem_apply_release, h.resolver, ne_eq, Object.mk.injEq, true_and]
      constructor
      · rintro ⟨⟨k, r, hk, rfl⟩, hne⟩
        refine ⟨k, r, ⟨?_, hk⟩, rfl⟩
        rintro rfl
        rw [hkey] at hk
        cases hk
        exact hne rfl
      · rintro ⟨k, r, ⟨hne, hk⟩, rfl⟩
        exact ⟨⟨k, r, hk, rfl⟩, fun hhandle => hne (h.distinct k key r resolver hk hkey hhandle).symm⟩

/-- A browse event makes, frees or keeps resolvers, and the table knows. -/
theorem keepsTrack_browseCallback (created : Bool) (interface : Int32) (protocol : AvahiProtocol)
    (event : AvahiBrowserEvent) (name type domain : CString) :
    KeepsTrack i (browseCallback created interface protocol event name type domain) d := by
  intro objects h
  unfold browseCallback
  cases event with
  | AVAHI_BROWSER_NEW =>
    simp only
    split
    · exact h
    · rename_i hfree
      refine keepsTrack_resolver_new created interface protocol name type domain ?_ objects h
      exact Std.ExtTreeMap.getElem?_eq_none_of_contains_eq_false (Bool.eq_false_iff.mpr hfree)
  | AVAHI_BROWSER_REMOVE =>
    simp only
    split
    · exact h
    · rename_i resolver hresolver
      rw [Action.andThen_fst, Action.andThen_snd, List.map_append, registered_append]
      exact keepsTrack_removeService _ _ (tracksDiscovery_resolver_free h hresolver)
  | AVAHI_BROWSER_FAILURE =>
    rw [Action.andThen_fst, Action.andThen_snd, List.map_append, registered_append]
    exact keepsTrack_broswerCleanUp objects h
  | AVAHI_BROWSER_ALL_FOR_NOW => exact h
  | AVAHI_BROWSER_CACHE_EXHAUSTED => exact h

theorem keepsTrack_resolveCallback (interface : Int32) (event : AvahiResolverEvent)
    (name type domain : CString) : KeepsTrack i (resolveCallback interface event name type domain) d := by
  intro objects h
  unfold resolveCallback
  cases event with
  | AVAHI_RESOLVER_FOUND report =>
    simp only
    split <;> exact ⟨h.browser, h.resolver, h.issued, h.distinct⟩
  | AVAHI_RESOLVER_FAILURE => exact keepsTrack_removeService _ objects h

/-- A browser that is started over another one is the one the instance knows
    then; the other one stays registered. -/
theorem keepsTrack_startBrowser (created : Bool) (type : QString) (protocol : NetworkLayerProtocol) :
    KeepsTrack i (startBrowser created type protocol) d := by
  intro objects h
  have hopen : TracksDiscovery i (openBrowser created type protocol d).1
      (registered i objects ((openBrowser created type protocol d).2.map .discover)) := by
    unfold openBrowser
    cases created with
    | false => exact ⟨nofun, h.resolver, h.issued, h.distinct⟩
    | true =>
      refine ⟨fun handle hbrowser => ?_, fun handle => ?_, fun key r hr => ?_, h.distinct⟩
      · cases hbrowser
        simp [registered, InstanceOutput.effect]
      · simpa [registered, InstanceOutput.effect] using h.resolver handle
      · exact Nat.lt_succ_of_lt (h.issued key r hr)
  unfold startBrowser
  cases hbrowser : d.browser.isSome with
  | true => exact hopen
  | false => exact hopen

end Discovering

end qtzeroconf.avahicore
