import QtZeroConf.Bonjour.Resolvers

open reactive registry

namespace qtzeroconf.bonjour

open QZeroConfPrivate

/-- Every resolver that is not deleted is the one stored under the key of its
    service, and every stored resolver is not deleted. -/
structure ResolversOwned (s : QZeroConfPrivate) : Prop where
  owned : ∀ r x, s.live r = some x → s.resolvers[key (s.objects x.zcs)]? = some r
  stored : ∀ (k : QString) r, s.resolvers[k]? = some r → ∃ x, s.live r = some x ∧ key (s.objects x.zcs) = k

/-- A step overwrites or removes no entry whose resolver stays alive. -/
def EntriesKept (s : QZeroConfPrivate) (e : Event) : Prop :=
  ∀ (k : QString) r, s.resolvers[k]? = some r → ((step s e).1.live r).isSome →
    (step s e).1.resolvers[k]? = some r

/-- An Add for a service that is not listed finds no resolver for it, and
    whatever ends browsing reaches every stored resolver. -/
def ResolversFree (s : QZeroConfPrivate) : Event → Prop
  | .startBrowser start visit _ _ =>
    ¬ s.browser.isSome → start = .noSocket → ∀ k, k ∈ s.resolvers → k ∈ visit
  | .stopBrowser visit | .browserReadFailure visit =>
    s.browser.isSome → ∀ k, k ∈ s.resolvers → k ∈ visit
  | .browseReply _ visit flags interfaceIndex err name _ _ =>
    let k := serviceKey (QString.fromUtf8 name) interfaceIndex.toNat
    s.browser.isSome →
      if err = kDNSServiceErr_NoError then
        flags &&& kDNSServiceFlagsAdd ≠ 0 → k ∉ s.services → k ∉ s.resolvers
      else ∀ k, k ∈ s.resolvers → k ∈ visit
  | _ => True

/-- Who owns which resolver, said of the registry. -/
theorem resolversOwned_iff (s : QZeroConfPrivate) :
    ResolversOwned s ↔ s.registry.Owned ∧ s.registry.Stored := by
  constructor
  · rintro ⟨howned, hstored⟩
    refine ⟨fun r k halive => ?_, fun k r hfiled => ?_⟩
    · obtain ⟨x, hx, rfl⟩ := Option.map_eq_some_iff.mp halive
      exact howned r x hx
    · obtain ⟨x, hx, hkey⟩ := hstored k r hfiled
      exact Option.map_eq_some_iff.mpr ⟨x, hx, hkey⟩
  · rintro ⟨howned, hstored⟩
    refine ⟨fun r x hx => howned r _ ?_, fun k r hfiled => Option.map_eq_some_iff.mp (hstored k r hfiled)⟩
    exact Option.map_eq_some_iff.mpr ⟨x, hx, rfl⟩

/-- An operation that happens only in some case. -/
theorem keeps_ite {p : Prop} [Decidable p] {op : Registry.Op QString ResolverId}
    {g : Registry QString ResolverId} : (if p then op else .keep).Keeps g ↔ (p → op.Keeps g) := by
  by_cases hp : p <;> simp [hp, Registry.Op.Keeps]

/-- To release never loses a resolver. -/
theorem keeps_ite_release {p : Prop} [Decidable p] {r : ResolverId} {g : Registry QString ResolverId} :
    (if p then Registry.Op.release r else .keep).Keeps g := by
  split <;> trivial

/-- To insert loses one exactly where the key is taken. -/
theorem keeps_ite_insert {p : Prop} [Decidable p] {r : ResolverId} {k : QString}
    {g : Registry QString ResolverId} :
    (if p then Registry.Op.insert r k else .insertRelease r k).Keeps g ↔ g.table[k]? = none := by
  split <;> rfl

/-- Event by event, the condition on the registry is the one on the tables. -/
theorem keeps_effect_iff (s : QZeroConfPrivate) (e : Event) :
    (effect s e).Keeps s.registry ↔ ResolversFree s e := by
  cases e with
  | startBrowser start visit type protocol =>
    simp only [effect, ResolversFree, keeps_ite, and_imp]
    rfl
  | stopBrowser visit =>
    simp only [effect, ResolversFree, keeps_ite]
    rfl
  | browserReadFailure visit =>
    simp only [effect, ResolversFree, keeps_ite]
    rfl
  | browseReply start visit flags interfaceIndex err name type domain =>
    simp only [effect, ResolversFree]
    generalize serviceKey (QString.fromUtf8 name) interfaceIndex.toNat = k
    by_cases hopen : s.browser.isSome
    · simp only [hopen, not_true, if_false, true_implies]
      by_cases herr : err = kDNSServiceErr_NoError
      · simp only [herr, ne_eq, not_true, if_false, if_true]
        split
        · rename_i hadd
          by_cases hlisted : k ∈ s.services
          · have hcontains : s.services.contains k := Std.ExtTreeMap.mem_iff_contains.mp hlisted
            simp only [hcontains, if_true]
            exact iff_of_true trivial fun _ hnew => absurd hlisted hnew
          · have hcontains : ¬ s.services.contains k := fun h =>
              hlisted (Std.ExtTreeMap.mem_iff_contains.mpr h)
            have hfree : s.registry.table[k]? = none ↔ k ∉ s.resolvers := by
              rw [Std.ExtTreeMap.mem_iff_isSome_getElem?, Option.not_isSome_iff_eq_none]
              rfl
            rw [if_neg hcontains, keeps_ite_insert, hfree]
            exact ⟨fun h _ _ => h, fun h => h hadd hlisted⟩
        · rename_i hremove
          refine iff_of_true ?_ fun hadd => absurd hadd hremove
          split <;> trivial
      · simp only [herr, ne_eq, not_false_eq_true, if_true, if_false]
        rfl
    · rw [if_pos hopen]
      exact iff_of_true trivial fun h => absurd h hopen
  | resolveReply start r interfaceIndex err hostName port txtLen txtRecord =>
    exact iff_of_true keeps_ite_release trivial
  | addressReply r flags interfaceIndex err hAddress => exact iff_of_true keeps_ite_release trivial
  | resolverReadyFailure r => exact iff_of_true keeps_ite_release trivial
  | addressReadyFailure r => exact iff_of_true keeps_ite_release trivial
  | _ => exact Iff.rfl

/-- Resolvers are owned by their table: in every state of the run, and across
    each of its steps. -/
structure OwnershipKept (events : List Event) : Prop where
  states : Throughout step ResolversOwned {} events
  steps : Along step EntriesKept {} events

/-- Ownership survives a step exactly when the step finds its key free. -/
theorem resolversOwned_step_iff {s : QZeroConfPrivate} (hs : SoundRegistry s) (howned : ResolversOwned s)
    (e : Event) : ResolversOwned (step s e).1 ↔ ResolversFree s e := by
  have hkeeps := Registry.owned_apply_iff hs.stored ((resolversOwned_iff s).mp howned).1
    (fresh_effect hs.toSound e)
  rw [resolversOwned_iff, registry_step s hs.toSound e, hkeeps, keeps_effect_iff]
  exact and_iff_left (Registry.stored_apply hs.stored (fresh_effect hs.toSound e))

theorem entriesKept_of_owned {s : QZeroConfPrivate} (hs : SoundRegistry s) {e : Event}
    (howned : ResolversOwned (step s e).1) : EntriesKept s e := by
  intro k r hfiled hlive
  have halive : (step s e).1.registry.alive r ≠ none := by
    obtain ⟨x, hx⟩ := Option.isSome_iff_exists.mp hlive
    simp [registry, hx]
  have hafter := ((resolversOwned_iff _).mp howned).1
  rw [registry_step s hs.toSound e] at halive hafter
  have hkept := Registry.kept_of_owned_apply hs.stored (fresh_effect hs.toSound e) hafter hfiled halive
  rw [← registry_step s hs.toSound e] at hkept
  exact hkept

/-- In every run the resolvers stay owned exactly when no Add repeats for a
    service that is still being resolved, and every end of browsing reaches
    all stored resolvers. -/
theorem ownershipKept_iff (events : List Event) :
    OwnershipKept events ↔ Along step ResolversFree {} events := by
  have hinitial : ResolversOwned {} := ⟨nofun, fun k r h => by simp at h⟩
  have hstates : Throughout step ResolversOwned {} events ↔ Along step ResolversFree {} events :=
    throughout_iff_along soundRegistry_step (fun s e hs howned => resolversOwned_step_iff hs howned e)
      soundRegistry_initial hinitial events
  refine ⟨fun h => hstates.mp h.states, fun h => ⟨hstates.mpr h, ?_⟩⟩
  refine along_mono (I := fun s => SoundRegistry s ∧ ResolversOwned s) ?_ ?_
    ⟨soundRegistry_initial, hinitial⟩ h
  · rintro s e ⟨hs, howned⟩ hfree
    exact ⟨soundRegistry_step s e hs, (resolversOwned_step_iff hs howned e).mpr hfree⟩
  · rintro s e ⟨hs, howned⟩ hfree
    exact entriesKept_of_owned hs ((resolversOwned_step_iff hs howned e).mpr hfree)

/-- A service that is announced twice before it is resolved. -/
def repeatedAdd : List Event :=
  let found : Event :=
    .browseReply .watched [] kDNSServiceFlagsAdd 2 kDNSServiceErr_NoError [0x61] reportedType reportedDomain
  [.startBrowser .watched [] (tcpType 0x61) .IPv4Protocol, found, found]

/-- The second Add stores its resolver over the first one, which stays alive. -/
theorem repeated_add_orphans : ¬ OwnershipKept repeatedAdd := by
  rintro ⟨hstates, -⟩
  have hfirst : (((reached repeatedAdd).live 2).map fun x => x.zcs) = some 1 := by decide
  obtain ⟨x, hx, hzcs⟩ := Option.map_eq_some_iff.mp hfirst
  have hfiled := hstates.last.owned 2 x hx
  rw [hzcs] at hfiled
  exact absurd hfiled (by decide)

end qtzeroconf.bonjour
