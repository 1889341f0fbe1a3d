import QtZeroConf.Bonjour.Resolvers

open reactive reactive.Action

namespace qtzeroconf.bonjour

open QZeroConfPrivate

/-- The key of a name and an interface. -/
def pairKey (p : QString × UInt32) : QString := serviceKey p.1 p.2.toNat

/-- Some entry of the list stands for a service. -/
def Listed (s : QZeroConfPrivate) (p : QString × UInt32) : Prop :=
  ∃ (k : QString) (id : ServiceId), s.services[k]? = some id ∧ pairOf (s.objects id) = p

/-- Some resolver that is not deleted stands for a service. -/
def Resolving (s : QZeroConfPrivate) (p : QString × UInt32) : Prop :=
  ∃ r x, s.live r = some x ∧ pairOf (s.objects x.zcs) = p

/-- The output reports a service as present. -/
def Reports (p : QString × UInt32) : Output → Prop
  | .signal (.serviceAdded zcs) | .signal (.serviceUpdated zcs) => pairOf zcs.data = p
  | _ => False

theorem not_reports_of_quiet {p : QString × UInt32} {o : Output} (h : Quiet o) : ¬ Reports p o := by
  unfold Reports
  split
  · exact absurd h id
  · exact absurd h id
  · exact id

/-- Nothing is left of a service: it has no entry and no resolver. -/
structure Absent (s : QZeroConfPrivate) (p : QString × UInt32) : Prop where
  unlisted : ¬ Listed s p
  unresolved : ¬ Resolving s p

theorem Absent.evolves {s s' : QZeroConfPrivate} (hs : Sound s) (h : Evolves s s') {p : QString × UInt32}
    (habsent : Absent s p) : Absent s' p where
  unlisted := by
    rintro ⟨k, id, hid, hpair⟩
    have hold := h.services k id hid
    exact habsent.unlisted ⟨k, id, hold, h.pairs id (hs.services k id hold) ▸ hpair⟩
  unresolved := by
    rintro ⟨r, x', hx', hpair⟩
    obtain ⟨x, hx, hzcs, -⟩ := h.live r x' hx'
    rw [hzcs, h.pairs x.zcs (hs.live r x hx).2.1] at hpair
    exact habsent.unresolved ⟨r, x, hx, hpair⟩

/-- An absent service stays absent, and is not reported, until it is announced
    again. -/
theorem absent_step {s : QZeroConfPrivate} (hs : Sound s) {p : QString × UInt32} (habsent : Absent s p)
    {e : Event} (hnoAdd : browsed s e ≠ some (true, p)) :
    Absent (step s e).1 p ∧ ∀ o ∈ (step s e).2, ¬ Reports p o := by
  rcases step_cases s e with ⟨hevolves, hquiet⟩ | ⟨start, z, hadd, -, hstep⟩ |
    ⟨r, x, -, interfaceIndex, -, hAddress, -, hx, hstep⟩
  · exact ⟨habsent.evolves hs hevolves, fun o ho => not_reports_of_quiet (hquiet o ho)⟩
  · have hne : pairOf z ≠ p := by
      rintro rfl
      exact hnoAdd hadd
    obtain ⟨-, hobjects, hservices, -, -, hquiet⟩ := resolve_spec start s.next (s.newService z)
    rw [hstep]
    refine ⟨⟨?_, ?_⟩, fun o ho => not_reports_of_quiet (hquiet o ho)⟩
    · rintro ⟨k, id, hid, hpair⟩
      rw [hservices] at hid
      rw [hobjects, objects_newService_of_lt (hs.services k id hid)] at hpair
      exact habsent.unlisted ⟨k, id, hid, hpair⟩
    · rintro ⟨r, x, hx, hpair⟩
      rw [hobjects] at hpair
      rcases live_resolve hx with hx | ⟨-, hzcs, -⟩
      · rw [objects_newService_of_lt (hs.live r x hx).2.1] at hpair
        exact habsent.unresolved ⟨r, x, hx, hpair⟩
      · rw [hzcs, objects_newService_self] at hpair
        exact hne hpair
  · have hmodified := evolves_setServiceIp x.zcs hAddress s
    have habsent' := habsent.evolves hs hmodified
    have hx' : (s.setServiceIp x.zcs hAddress).live r = some x := hx
    have hne : pairOf ((s.setServiceIp x.zcs hAddress).objects x.zcs) ≠ p :=
      fun hpair => habsent'.unresolved ⟨r, x, hx', hpair⟩
    rw [hstep]
    generalize (s.setServiceIp x.zcs hAddress) = t at habsent' hx' hne
    obtain ⟨hlisted, hrest⟩ :=
      listService_spec x.zcs (serviceKey (s.objects x.zcs).m_name interfaceIndex.toNat) t
    refine ⟨⟨?_, ?_⟩, fun o ho => ?_⟩
    · rintro ⟨k', id, hid, hpair⟩
      rw [hrest] at hpair
      rcases hlisted k' id hid with hold | ⟨-, rfl⟩
      · exact habsent'.unlisted ⟨k', id, hold, hpair⟩
      · exact hne hpair
    · rw [hrest]
      exact habsent'.unresolved
    · unfold listService at ho
      split at ho <;> (rw [List.mem_singleton.mp ho]; exact hne)

/-- While no Add for a service is processed. -/
def NoAdd (p : QString × UInt32) : QZeroConfPrivate → List Event → Prop :=
  Along step fun s e => browsed s e ≠ some (true, p)

/-- A service is gone through a run: no entry stands for it and it is not
    reported. -/
structure Gone (p : QString × UInt32) (s : QZeroConfPrivate) (events : List Event) : Prop where
  unlisted : Throughout step (fun s => ¬ Listed s p) s events
  silent : ∀ o ∈ trace step s events, ¬ Reports p o

theorem gone_of_absent {s : QZeroConfPrivate} (hs : Sound s) {p : QString × UInt32} (habsent : Absent s p)
    {events : List Event} (hnoAdd : NoAdd p s events) : Gone p s events := by
  induction events generalizing s with
  | nil => exact ⟨habsent.unlisted, by simp⟩
  | cons e events ih =>
    obtain ⟨hnext, hsilent⟩ := absent_step hs habsent hnoAdd.1
    have hrest := ih (sound_step s e hs) hnext hnoAdd.2
    refine ⟨⟨habsent.unlisted, hrest.unlisted⟩, fun o ho => ?_⟩
    rcases List.mem_append.mp ho with ho | ho
    · exact hsilent o ho
    · exact hrest.silent o ho

/-- A resolve reply opens an address lookup for the service of its resolver. -/
theorem addressRef_after_resolve {s : QZeroConfPrivate} (hs : Sound s) {r : ResolverId} {x : Resolver}
    (hx : s.live r = some x) :
    let s' := (step s (.resolveReply .watched r 0 kDNSServiceErr_NoError [] 0 0 [])).1
    (∃ x', s'.live r = some x' ∧ x'.zcs = x.zcs ∧ x'.DNSaddressRef.isSome) ∧
      pairOf (s'.objects x.zcs) = pairOf (s.objects x.zcs) := by
  have hopen : (resolverRef r s).isSome := by simpa [resolverRef, hx] using (hs.live r x hx).2.2
  simp only [step, whileOpen, if_pos hopen, resolverCallback, hx]
  cases hlookup : x.DNSaddressRef <;>
    simp [closeAddress, openAddress, cleanUpUnless, modifyService, modifyResolver, setAddressRef, newRef, hx,
      hlookup, pairOf_setResolved]

/-- An address of a resolver reports its service. -/
theorem reports_of_address {s : QZeroConfPrivate} {r : ResolverId} {x : Resolver} (hx : s.live r = some x)
    (hopen : x.DNSaddressRef.isSome) :
    ∃ o ∈ (step s (.addressReply r kDNSServiceFlagsAdd 0 kDNSServiceErr_NoError .null)).2,
      Reports (pairOf (s.objects x.zcs)) o := by
  have hopen' : (addressRef r s).isSome := by simpa [addressRef, hx] using hopen
  have hadd : kDNSServiceFlagsAdd &&& kDNSServiceFlagsAdd ≠ 0 := by decide
  simp only [step, whileOpen, if_pos hopen', addressReply, hx, if_true, if_pos hadd, listService]
  have hpair := pairOf_setServiceIp x.zcs .null s x.zcs
  split <;> exact ⟨_, List.mem_singleton_self _, hpair⟩

/-- A resolver that is left can still report its service. -/
theorem reports_of_resolving {s : QZeroConfPrivate} (hs : Sound s) {p : QString × UInt32}
    (hresolving : Resolving s p) : ∃ events, NoAdd p s events ∧ ∃ o ∈ trace step s events, Reports p o := by
  obtain ⟨r, x, hx, rfl⟩ := hresolving
  obtain ⟨⟨x', hx', hzcs, hopen⟩, hpair⟩ := addressRef_after_resolve hs hx
  obtain ⟨o, ho, hreports⟩ := reports_of_address hx' hopen
  rw [hzcs, hpair] at hreports
  refine ⟨[.resolveReply .watched r 0 kDNSServiceErr_NoError [] 0 0 [],
    .addressReply r kDNSServiceFlagsAdd 0 kDNSServiceErr_NoError .null], ⟨nofun, nofun, trivial⟩, o, ?_,
    hreports⟩
  simp only [trace_cons, trace_nil, List.append_nil]
  exact List.mem_append_right _ ho

/-- What a Remove finds when it settles a service: every resolver for it is the
    one stored under its key, the key is listed, and no other key lists it. -/
structure Settles (s : QZeroConfPrivate) (p : QString × UInt32) : Prop where
  resolvers : ∀ r x, s.live r = some x → pairOf (s.objects x.zcs) = p →
    s.resolvers[pairKey p]? = some r ∧ pairKey p ∈ s.services
  entries : ∀ (k : QString) (id : ServiceId), s.services[k]? = some id → pairOf (s.objects id) = p →
    k = pairKey p

/-- Cleaning up under a key deletes the resolver that is stored there. -/
theorem live_cleanUpAt {s : QZeroConfPrivate} (k : QString) (r : ResolverId) :
    (cleanUpAt k s).1.live r = if s.resolvers[k]? = some r then none else s.live r := by
  unfold cleanUpAt
  cases hk : s.resolvers[k]? with
  | none => simp
  | some r' =>
    by_cases hr : r' = r
    · subst hr
      cases hlive : s.live r' <;> simp [Resolver.cleanUp, hlive]
    · have hr' : r ≠ r' := fun h => hr h.symm
      cases hlive : s.live r' <;> simp [Resolver.cleanUp, hlive, hr, Function.update_of_ne hr']

theorem cleanUpAt_tables (k : QString) (s : QZeroConfPrivate) :
    (cleanUpAt k s).1.services = s.services ∧ (cleanUpAt k s).1.objects = s.objects := by
  unfold cleanUpAt Resolver.cleanUp
  (repeat' split) <;> exact ⟨rfl, rfl⟩

theorem step_remove {s : QZeroConfPrivate} {e : Event} {p : QString × UInt32}
    (h : browsed s e = some (false, p)) :
    step s e = match s.services[pairKey p]? with
      | none => (s, [])
      | some zcs => removeService (pairKey p) zcs s := by
  cases e with
  | browseReply start visit flags interfaceIndex err name type domain =>
    obtain ⟨⟨hopen, herr⟩, hpair⟩ := Option.ite_none_right_eq_some.mp h
    obtain ⟨hflags, rfl⟩ := Prod.mk.inj (Option.some.inj hpair)
    have hremove : ¬ flags &&& kDNSServiceFlagsAdd ≠ 0 := of_decide_eq_false hflags
    simp only [step, whileOpen, if_pos hopen, browseCallback, if_pos herr, if_neg hremove]
    rfl
  | _ => cases h

/-- A Remove leaves nothing of its service exactly when it settles it. -/
theorem absent_iff_settles {s : QZeroConfPrivate} {e : Event} {p : QString × UInt32}
    (h : browsed s e = some (false, p)) : Absent (step s e).1 p ↔ Settles s p := by
  rw [step_remove h]
  cases hentry : s.services[pairKey p]? with
  | none =>
    have hnot : pairKey p ∉ s.services := by simp [Std.ExtTreeMap.mem_iff_isSome_getElem?, hentry]
    constructor
    · rintro ⟨hunlisted, hunresolved⟩
      exact ⟨fun r x hx hpair => absurd ⟨r, x, hx, hpair⟩ hunresolved,
        fun k id hid hpair => absurd ⟨k, id, hid, hpair⟩ hunlisted⟩
    · rintro ⟨hresolvers, hentries⟩
      refine ⟨?_, ?_⟩
      · rintro ⟨k, id, hid, hpair⟩
        have hk := hentries k id hid hpair
        rw [hk, hentry] at hid
        cases hid
      · rintro ⟨r, x, hx, hpair⟩
        exact hnot (hresolvers r x hx hpair).2
  | some zcs =>
    have hlisted : pairKey p ∈ s.services := by simp [Std.ExtTreeMap.mem_iff_isSome_getElem?, hentry]
    obtain ⟨hservices, hobjects⟩ :=
      cleanUpAt_tables (pairKey p) { s with services := s.services.erase (pairKey p) }
    simp only [removeService, andThen_fst, update_apply]
    constructor
    · rintro ⟨hunlisted, hunresolved⟩
      refine ⟨fun r x hx hpair => ⟨?_, hlisted⟩, fun k id hid hpair => ?_⟩
      · by_contra hstored
        refine hunresolved ⟨r, x, ?_, by rw [hobjects]; exact hpair⟩
        rw [live_cleanUpAt, if_neg hstored]
        exact hx
      · by_contra hk
        refine hunlisted ⟨k, id, ?_, by rw [hobjects]; exact hpair⟩
        rw [hservices]
        simp [Std.ExtTreeMap.getElem?_erase, Ne.symm hk, hid]
    · rintro ⟨hresolvers, hentries⟩
      refine ⟨?_, ?_⟩
      · rintro ⟨k, id, hid, hpair⟩
        rw [hobjects] at hpair
        simp only [hservices, Std.ExtTreeMap.getElem?_erase, Std.compare_eq_iff_eq] at hid
        split at hid
        · cases hid
        · rename_i hk
          exact hk (hentries k id hid hpair).symm
      · rintro ⟨r, x, hx, hpair⟩
        rw [hobjects] at hpair
        rw [live_cleanUpAt] at hx
        split at hx
        · cases hx
        · rename_i hstored
          exact hstored (hresolvers r x hx hpair).1

/-- Every Remove that is processed settles its service. -/
def RemovesSettle (s : QZeroConfPrivate) (e : Event) : Prop :=
  ∀ p, browsed s e = some (false, p) → Settles s p

/-- In a run no service is listed or reported between a Remove for it and the
    next Add for it. -/
def NeverReportsGone (events : List Event) : Prop :=
  ∀ pre remove mid post p, events = pre ++ remove :: (mid ++ post) →
    browsed (reached pre) remove = some (false, p) → NoAdd p (step (reached pre) remove).1 mid →
    Gone p (step (reached pre) remove).1 mid

theorem gone_iff_settles {s : QZeroConfPrivate} (hs : Sound s) {e : Event} {p : QString × UInt32}
    (h : browsed s e = some (false, p)) :
    (∀ mid, NoAdd p (step s e).1 mid → Gone p (step s e).1 mid) ↔ Settles s p := by
  rw [← absent_iff_settles h]
  constructor
  · intro hgone
    refine ⟨(hgone [] trivial).unlisted, fun hresolving => ?_⟩
    obtain ⟨mid, hnoAdd, o, ho, hreports⟩ := reports_of_resolving (sound_step s e hs) hresolving
    exact (hgone mid hnoAdd).silent o ho hreports
  · exact fun habsent mid hnoAdd => gone_of_absent (sound_step s e hs) habsent hnoAdd

/-- A run whose Removes settle their services reports no service once it is
    gone; and after a Remove at its end all ways to go on keep the service gone
    exactly when this Remove settles it. -/
theorem neverReportsGone_settled (events : List Event) :
    (Along step RemovesSettle {} events → NeverReportsGone events) ∧
    ∀ e p, browsed (reached events) e = some (false, p) →
      ((∀ mid, NoAdd p (step (reached events) e).1 mid → Gone p (step (reached events) e).1 mid) ↔
        Settles (reached events) p) := by
  refine ⟨?_, fun e p h => gone_iff_settles (sound_reached events) h⟩
  rintro hsettle pre remove mid post p rfl h hnoAdd
  obtain ⟨-, hremove, -⟩ := along_append.mp hsettle
  exact (gone_iff_settles (sound_reached pre) h).mpr (hremove p h) mid hnoAdd

/-- A service that is removed before it is resolved; its replies come after. -/
def removedBeforeResolved : List Event :=
  let browse (flags : UInt32) : Event :=
    .browseReply .watched [] flags 2 kDNSServiceErr_NoError [0x61] reportedType reportedDomain
  [.startBrowser .watched [] (tcpType 0x61) .IPv4Protocol, browse kDNSServiceFlagsAdd, browse 0,
    .resolveReply .watched 2 2 kDNSServiceErr_NoError [0x68] 0 0 [],
    .addressReply 2 kDNSServiceFlagsAdd 2 kDNSServiceErr_NoError (.ipv4 0x0A000001)]

/-- The Remove leaves the resolver alone, which then lists the service. -/
theorem removed_service_is_reported : ¬ NeverReportsGone removedBeforeResolved := by
  intro h
  have hgone := h (removedBeforeResolved.take 2) _ (removedBeforeResolved.drop 3) [] ([0x61], 2) rfl
    (by decide) ⟨nofun, nofun, trivial⟩
  have hlisted : (reached removedBeforeResolved).services[pairKey ([0x61], 2)]? = some 1 := by decide
  exact hgone.unlisted.last ⟨_, 1, hlisted, by decide⟩

end qtzeroconf.bonjour
