import QtZeroConf.Bonjour.Actions

open reactive reactive.Action

namespace qtzeroconf.bonjour

open QZeroConfPrivate

/-- The name and the interface that a service object was created for. -/
def pairOf (zcs : QZeroConfServiceData) : QString × UInt32 := (zcs.m_name, zcs.m_interfaceIndex)

/-- The key of a service is made of its name and its interface. -/
theorem key_eq_of_pairOf {z w : QZeroConfServiceData} (h : pairOf z = pairOf w) : key z = key w := by
  obtain ⟨hname, hinterface⟩ := Prod.mk.inj h
  rw [key, key, hname, hinterface]

/-- The two references of an instance are distinct, and older than the next one
    to come. -/
structure Handles (s : QZeroConfPrivate) : Prop where
  browser : ∀ ref, s.browser = some ref → ref < s.next
  dnssRef : ∀ ref, s.dnssRef = some ref → ref < s.next
  apart : ∀ ref, s.browser = some ref → s.dnssRef ≠ some ref

/-- A reference that was obtained has the next number. -/
theorem newRef_eq_some {start : Start} {s : QZeroConfPrivate} {ref : DNSServiceRef}
    (h : s.newRef start = some ref) : ref = s.next := by
  unfold newRef at h
  split at h
  · cases h
  · exact (Option.some.inj h).symm

/-- References that are closed leave the others in order. -/
theorem Handles.of_closed {s s' : QZeroConfPrivate} (h : Handles s) (hnext : s.next ≤ s'.next)
    (hbrowser : ∀ ref, s'.browser = some ref → s.browser = some ref)
    (hdnssRef : ∀ ref, s'.dnssRef = some ref → s.dnssRef = some ref) : Handles s' where
  browser ref href := (h.browser ref (hbrowser ref href)).trans_le hnext
  dnssRef ref href := (h.dnssRef ref (hdnssRef ref href)).trans_le hnext
  apart ref href hdnss := h.apart ref (hbrowser ref href) (hdnssRef ref hdnss)

/-- What most steps are limited to: they create no resolver and list no service,
    and every object goes on to stand for the same service. -/
structure Evolves (s s' : QZeroConfPrivate) : Prop where
  next : s.next ≤ s'.next
  pairs : ∀ id, id < s.next → pairOf (s'.objects id) = pairOf (s.objects id)
  live : ∀ r x', s'.live r = some x' →
    ∃ x, s.live r = some x ∧ x'.zcs = x.zcs ∧ x'.DNSresolverRef = x.DNSresolverRef
  services : ∀ (k : QString) (id : ServiceId), s'.services[k]? = some id → s.services[k]? = some id
  handles : Handles s → Handles s'

theorem Evolves.refl (s : QZeroConfPrivate) : Evolves s s :=
  ⟨le_rfl, fun _ _ => rfl, fun _ x hx => ⟨x, hx, rfl, rfl⟩, fun _ _ h => h, id⟩

/-- Steps one after the other. -/
theorem Evolves.trans (s t u : QZeroConfPrivate) (hst : Evolves s t) (htu : Evolves t u) : Evolves s u where
  next := hst.next.trans htu.next
  pairs id hid := (htu.pairs id (hid.trans_le hst.next)).trans (hst.pairs id hid)
  live r x' hx' := by
    obtain ⟨y, hy, hzcs, href⟩ := htu.live r x' hx'
    obtain ⟨x, hx, hzcs', href'⟩ := hst.live r y hy
    exact ⟨x, hx, hzcs.trans hzcs', href.trans href'⟩
  services k id h := hst.services k id (htu.services k id h)
  handles h := htu.handles (hst.handles h)

/-- A step that leaves the heap and the list of services as they are. -/
theorem Evolves.of_heap {s s' : QZeroConfPrivate} (hnext : s.next ≤ s'.next) (hobjects : s'.objects = s.objects)
    (hlive : s'.live = s.live) (hservices : s'.services = s.services) (hhandles : Handles s → Handles s') :
    Evolves s s' where
  next := hnext
  pairs _ _ := by rw [hobjects]
  live _ x hx := ⟨x, hlive ▸ hx, rfl, rfl⟩
  services _ _ h := hservices ▸ h
  handles := hhandles

/-- An action that creates no resolver, lists no service and reports none. -/
abbrev Passive (a : Action QZeroConfPrivate Output) : Prop := Within Evolves Quiet a

/-- Passive actions, one after the other. -/
theorem Passive.andThen {a b : Action QZeroConfPrivate Output} (ha : Passive a) (hb : Passive b) :
    Passive (a.andThen b) :=
  within_andThen Evolves.trans ha hb

theorem passive_skip : Passive skip := within_skip Evolves.refl

theorem passive_emit {o : Output} (ho : Quiet o) : Passive (emit o) := within_emit Evolves.refl ho

theorem objects_newService_self (z : QZeroConfServiceData) (s : QZeroConfPrivate) :
    (s.newService z).objects s.next = z :=
  Function.update_self ..

/-- Older objects are not the new one. -/
theorem objects_newService_of_lt {z : QZeroConfServiceData} {s : QZeroConfPrivate} {id : ServiceId}
    (hid : id < s.next) : (s.newService z).objects id = s.objects id :=
  Function.update_of_ne hid.ne ..

/-- A write that keeps what a service stands for, whichever object is looked at.
    -/
theorem pairOf_modifyService (zcs : ServiceId) {f : QZeroConfServiceData → QZeroConfServiceData}
    (hf : ∀ z, pairOf (f z) = pairOf z) (s : QZeroConfPrivate) (id : ServiceId) :
    pairOf ((s.modifyService zcs f).objects id) = pairOf (s.objects id) := by
  by_cases hid : id = zcs
  · subst hid
    simp [modifyService, hf]
  · simp [modifyService, hid]

/-- A write to a service that keeps what it stands for. -/
theorem evolves_modifyService (zcs : ServiceId) {f : QZeroConfServiceData → QZeroConfServiceData}
    (hf : ∀ z, pairOf (f z) = pairOf z) (s : QZeroConfPrivate) : Evolves s (s.modifyService zcs f) where
  next := le_rfl
  pairs id _ := pairOf_modifyService zcs hf s id
  live _ x hx := ⟨x, hx, rfl, rfl⟩
  services _ _ h := h
  handles h := ⟨h.browser, h.dnssRef, h.apart⟩

theorem pairOf_setServiceIp (zcs : ServiceId) (hAddress : QHostAddress) (s : QZeroConfPrivate)
    (id : ServiceId) : pairOf ((s.setServiceIp zcs hAddress).objects id) = pairOf (s.objects id) :=
  pairOf_modifyService zcs (f := fun service => service.setIp hAddress) (fun _ => rfl) s id

/-- An address is no part of what a service stands for. -/
theorem evolves_setServiceIp (zcs : ServiceId) (hAddress : QHostAddress) (s : QZeroConfPrivate) :
    Evolves s (s.setServiceIp zcs hAddress) :=
  evolves_modifyService zcs (f := fun service => service.setIp hAddress) (fun _ => rfl) s

/-- A write to a resolver that leaves its service and its resolve reference. -/
theorem evolves_modifyResolver {r : ResolverId} {f : Resolver → Resolver}
    (hf : ∀ x, (f x).zcs = x.zcs ∧ (f x).DNSresolverRef = x.DNSresolverRef) (s : QZeroConfPrivate) :
    Evolves s (s.modifyResolver r f) where
  next := le_rfl
  pairs _ _ := rfl
  live r' x' hx' := by
    by_cases hr : r' = r
    · subst hr
      simp only [modifyResolver, Function.update_self, Option.map_eq_some_iff] at hx'
      obtain ⟨x, hx, rfl⟩ := hx'
      exact ⟨x, hx, hf x⟩
    · simp only [modifyResolver, Function.update_of_ne hr] at hx'
      exact ⟨x', hx', rfl, rfl⟩
  services _ _ h := h
  handles h := ⟨h.browser, h.dnssRef, h.apart⟩

/-- The end of a resolver takes it off the heap, and nothing else. -/
theorem passive_cleanUpResolver (r : ResolverId) : Passive (Resolver.cleanUp r) := by
  intro s
  unfold Resolver.cleanUp
  split
  · exact passive_skip s
  · refine ⟨⟨le_rfl, fun _ _ => rfl, fun r' x hx => ?_, fun _ _ h => h,
      fun h => ⟨h.browser, h.dnssRef, h.apart⟩⟩, by simp [Quiet]⟩
    by_cases hr : r' = r
    · subst hr
      simp at hx
    · simp only [Function.update_of_ne hr] at hx
      exact ⟨x, hx, rfl, rfl⟩

/-- The reference of a registration is new, and so not the browser's. -/
theorem evolves_setDnssRef (start : Start) (s : QZeroConfPrivate) : Evolves s (s.setDnssRef start) := by
  refine .of_heap (Nat.le_succ s.next) rfl rfl rfl fun h => ⟨fun ref href => ?_, fun ref href => ?_,
    fun ref hbrowser hdnss => ?_⟩
  · exact (h.browser ref href).trans (Nat.lt_succ_self s.next)
  · exact (newRef_eq_some href).trans_lt (Nat.lt_succ_self s.next)
  · exact absurd (newRef_eq_some hdnss) (h.browser ref hbrowser).ne

/-- The reference of a browser is new, and so not the registration's. -/
theorem evolves_setBrowser (start : Start) (protocol : DNSServiceProtocol) (s : QZeroConfPrivate) :
    Evolves s (s.setBrowser start protocol) := by
  refine .of_heap (Nat.le_succ s.next) rfl rfl rfl fun h => ⟨fun ref href => ?_, fun ref href => ?_,
    fun ref hbrowser hdnss => ?_⟩
  · exact (newRef_eq_some href).trans_lt (Nat.lt_succ_self s.next)
  · exact (h.dnssRef ref href).trans (Nat.lt_succ_self s.next)
  · exact absurd (newRef_eq_some hbrowser) (h.dnssRef ref hdnss).ne

/-- Everything that closes or clears is a step of this kind. -/
theorem closes_evolves : Closes Evolves Quiet where
  refl := Evolves.refl
  trans := Evolves.trans
  resolver := passive_cleanUpResolver
  closeBrowser s :=
    .of_heap le_rfl rfl rfl rfl fun h => h.of_closed le_rfl (fun _ href => by cases href) fun _ href => href
  closeDnssRef s :=
    .of_heap le_rfl rfl rfl rfl fun h => h.of_closed le_rfl (fun _ href => href) fun _ href => by cases href
  clearResolvers s := .of_heap le_rfl rfl rfl rfl fun h => ⟨h.browser, h.dnssRef, h.apart⟩
  clearServices s :=
    ⟨le_rfl, fun _ _ => rfl, fun _ x hx => ⟨x, hx, rfl, rfl⟩, fun k id h => by simp at h,
      fun h => ⟨h.browser, h.dnssRef, h.apart⟩⟩
  eraseService k s := by
    refine ⟨le_rfl, fun _ _ => rfl, fun _ x hx => ⟨x, hx, rfl, rfl⟩, fun k' id h => ?_,
      fun h => ⟨h.browser, h.dnssRef, h.apart⟩⟩
    rw [Std.ExtTreeMap.getElem?_erase] at h
    split at h
    · cases h
    · exact h
  setDnssRef := evolves_setDnssRef
  setBrowser := evolves_setBrowser
  quiet _ h := h

theorem passive_closeAddress (r : ResolverId) : Passive (closeAddress r) := by
  intro s
  unfold closeAddress
  split
  · exact passive_skip s
  · refine ⟨evolves_modifyResolver ?_ s, by simp [Quiet]⟩
    exact fun _ => ⟨rfl, rfl⟩

theorem evolves_setAddressRef (start : Start) (r : ResolverId) (s : QZeroConfPrivate) :
    Evolves s (s.setAddressRef start r) := by
  have hwrite := evolves_modifyResolver (r := r)
    (f := fun resolver => { resolver with DNSaddressRef := s.newRef start }) (fun _ => ⟨rfl, rfl⟩) s
  exact ⟨Nat.le_succ s.next, hwrite.pairs, hwrite.live, hwrite.services,
    fun h => h.of_closed (Nat.le_succ s.next) (fun _ href => href) fun _ href => href⟩

/-- A request for an address keeps the resolver's service. -/
theorem passive_openAddress (start : Start) (interfaceIndex : UInt32) (hostName : CString) (r : ResolverId) :
    Passive (openAddress start interfaceIndex hostName r) :=
  fun s => Passive.andThen (passive_emit (by trivial))
    (Passive.andThen (within_update (evolves_setAddressRef start r)) (closes_evolves.cleanUpUnless start r)) s

theorem pairOf_setResolved (hostName : CString) (port txtLen : UInt16) (txtRecord : QByteArray)
    (zcs : QZeroConfServiceData) : pairOf (setResolved hostName port txtLen txtRecord zcs) = pairOf zcs :=
  rfl

/-- A resolve reply writes to its service, and reports nothing. -/
theorem passive_resolverCallback (start : Start) (r : ResolverId) (interfaceIndex : UInt32) (err : Int32)
    (hostName : CString) (port txtLen : UInt16) (txtRecord : QByteArray) :
    Passive (resolverCallback start r interfaceIndex err hostName port txtLen txtRecord) := by
  intro s
  unfold resolverCallback
  split
  · exact passive_skip s
  · split
    · exact passive_cleanUpResolver r s
    · exact Passive.andThen
        (within_update (evolves_modifyService _ (pairOf_setResolved hostName port txtLen txtRecord)))
        (Passive.andThen (passive_closeAddress r) (passive_openAddress start interfaceIndex hostName r)) s

/-- What `resolve` leaves on the heap: its own resolver at most is new. -/
theorem live_resolve {start : Start} {zcs : ServiceId} {s : QZeroConfPrivate} {r : ResolverId} {x : Resolver}
    (h : (resolve start zcs s).1.live r = some x) :
    s.live r = some x ∨
      (r = s.next ∧ x.zcs = zcs ∧ x.DNSresolverRef = some (s.next + 1) ∧ x.DNSaddressRef = none) := by
  by_cases hr : r = s.next
  · right
    subst hr
    cases start <;>
      simp [resolve, cleanUpUnless, Resolver.cleanUp, setResolverRef, modifyResolver, newResolver, newRef] at h
    simp [← h]
  · left
    cases start <;>
      simpa [resolve, cleanUpUnless, Resolver.cleanUp, setResolverRef, modifyResolver, newResolver, newRef, hr]
        using h

/-- What `resolve` leaves alone, and the two numbers that it takes. -/
theorem resolve_spec (start : Start) (zcs : ServiceId) (s : QZeroConfPrivate) :
    (resolve start zcs s).1.next = s.next + 2 ∧ (resolve start zcs s).1.objects = s.objects ∧
      (resolve start zcs s).1.services = s.services ∧ (resolve start zcs s).1.browser = s.browser ∧
      (resolve start zcs s).1.dnssRef = s.dnssRef ∧ ∀ o ∈ (resolve start zcs s).2, Quiet o := by
  cases start <;>
    simp [resolve, cleanUpUnless, Resolver.cleanUp, setResolverRef, modifyResolver, newResolver, newRef, Quiet]

/-- The browse reply that an event delivers without an error: whether it has the
    Add flag, and its name and interface. -/
def browsed (s : QZeroConfPrivate) : Event → Option (Bool × QString × UInt32)
  | .browseReply _ _ flags interfaceIndex err name _ _ =>
    if s.browser.isSome ∧ err = kDNSServiceErr_NoError then
      some (flags &&& kDNSServiceFlagsAdd ≠ 0, QString.fromUtf8 name, interfaceIndex)
    else none
  | _ => none

/-- The steps that are not passive: the first Add for a service starts to
    resolve it, and an address of a resolver lists its service. -/
theorem step_cases (s : QZeroConfPrivate) (e : Event) :
    (Evolves s (step s e).1 ∧ ∀ o ∈ (step s e).2, Quiet o) ∨
    (∃ start z, browsed s e = some (true, pairOf z) ∧ s.services[key z]? = none ∧
      step s e = resolve start s.next (s.newService z)) ∨
    ∃ r x flags interfaceIndex err hAddress, e = .addressReply r flags interfaceIndex err hAddress ∧
      s.live r = some x ∧
      step s e = listService x.zcs (serviceKey (s.objects x.zcs).m_name interfaceIndex.toNat)
        (s.setServiceIp x.zcs hAddress) := by
  cases e with
  | addServiceTxtRecord nameOnly =>
    exact .inl ⟨.of_heap le_rfl rfl rfl rfl fun h => ⟨h.browser, h.dnssRef, h.apart⟩, by simp [step]⟩
  | addServiceTxtRecordPair name value =>
    exact .inl ⟨.of_heap le_rfl rfl rfl rfl fun h => ⟨h.browser, h.dnssRef, h.apart⟩, by simp [step]⟩
  | clearServiceTxtRecords =>
    exact .inl ⟨.of_heap le_rfl rfl rfl rfl fun h => ⟨h.browser, h.dnssRef, h.apart⟩, by simp [step]⟩
  | startServicePublish start name type domain port interface =>
    exact .inl (closes_evolves.startServicePublish start name type domain port interface s)
  | stopServicePublish => exact .inl (closes_evolves.cleanUp [] s.dnssRef s)
  | registerReply errorCode => exact .inl (closes_evolves.whileOpen (closes_evolves.registerCallback errorCode) _ s)
  | bsReadFailure => exact .inl (closes_evolves.whileOpen closes_evolves.registerError _ s)
  | startBrowser start visit type protocol => exact .inl (closes_evolves.startBrowser start visit type protocol s)
  | stopBrowser visit => exact .inl (closes_evolves.cleanUp visit s.browser s)
  | browserReadFailure visit => exact .inl (closes_evolves.whileOpen (closes_evolves.browserError visit) _ s)
  | resolveReply start r interfaceIndex err hostName port txtLen txtRecord =>
    have hpassive := passive_resolverCallback start r interfaceIndex err hostName port txtLen txtRecord
    exact .inl (closes_evolves.whileOpen hpassive _ s)
  | resolverReadyFailure r => exact .inl (closes_evolves.whileOpen (passive_cleanUpResolver r) _ s)
  | addressReadyFailure r => exact .inl (closes_evolves.whileOpen (passive_cleanUpResolver r) _ s)
  | browseReply start visit flags interfaceIndex err name type domain =>
    by_cases hopen : s.browser.isSome
    · simp only [step, whileOpen, if_pos hopen, browseCallback]
      split
      · rename_i herr
        split
        · rename_i hadd
          split
          · exact .inl (passive_skip s)
          · rename_i hnew
            refine .inr (.inl ⟨start, foundService interfaceIndex name type domain, ?_, ?_, rfl⟩)
            · simp [browsed, hopen, herr, hadd, pairOf, foundService]
            · exact Std.ExtTreeMap.getElem?_eq_none_of_contains_eq_false (eq_false_of_ne_true hnew)
        · split
          · exact .inl (passive_skip s)
          · exact .inl (closes_evolves.removeService _ _ s)
      · exact .inl (closes_evolves.browserError visit s)
    · rw [step, whileOpen, if_neg hopen]
      exact .inl (passive_skip s)
  | addressReply r flags interfaceIndex err hAddress =>
    simp only [step, whileOpen]
    split
    · simp only [addressReply]
      split
      · exact .inl (passive_skip s)
      · rename_i x hx
        split
        · split
          · refine .inr (.inr ⟨r, x, flags, interfaceIndex, err, hAddress, rfl, hx, ?_⟩)
            simp [setServiceIp, modifyService, QZeroConfServiceData.setIp]
          · exact .inl (passive_skip s)
        · exact .inl (passive_cleanUpResolver r s)
    · exact .inl (passive_skip s)

/-- A service is listed under one key, and everything else stays. -/
theorem listService_spec (zcs : ServiceId) (k : QString) (s : QZeroConfPrivate) :
    (∀ (k' : QString) id, (listService zcs k s).1.services[k']? = some id →
        s.services[k']? = some id ∨ (k' = k ∧ id = zcs)) ∧
      (listService zcs k s).1 = { s with services := (listService zcs k s).1.services } := by
  unfold listService
  split
  · exact ⟨fun k' id h => .inl h, rfl⟩
  · refine ⟨fun k' id h => ?_, rfl⟩
    simp only [Std.ExtTreeMap.getElem?_insert, Std.compare_eq_iff_eq] at h
    split at h
    · rename_i hk
      exact .inr ⟨hk.symm, (Option.some.inj h).symm⟩
    · exact .inl h

/-- What holds of every instance: its objects are older than the next one to
    come, its resolvers are resolving, and its references are in order. -/
structure Sound (s : QZeroConfPrivate) : Prop where
  live : ∀ r x, s.live r = some x → r < s.next ∧ x.zcs < s.next ∧ x.DNSresolverRef.isSome
  services : ∀ (k : QString) id, s.services[k]? = some id → id < s.next
  handles : Handles s

theorem sound_initial : Sound {} where
  live _ _ h := by cases h
  services _ _ h := by simp at h
  handles := ⟨nofun, nofun, nofun⟩

/-- The invariant is kept by what evolves. -/
theorem Sound.evolves {s s' : QZeroConfPrivate} (hs : Sound s) (h : Evolves s s') : Sound s' where
  live r x' hx' := by
    obtain ⟨x, hx, hzcs, href⟩ := h.live r x' hx'
    obtain ⟨hr, hlt, hopen⟩ := hs.live r x hx
    exact ⟨hr.trans_le h.next, hzcs ▸ hlt.trans_le h.next, href ▸ hopen⟩
  services k id hid := (hs.services k id (h.services k id hid)).trans_le h.next
  handles := h.handles hs.handles

/-- One case for each kind of step. -/
theorem sound_step (s : QZeroConfPrivate) (e : Event) (hs : Sound s) : Sound (step s e).1 := by
  rcases step_cases s e with ⟨hevolves, -⟩ | ⟨start, z, -, -, hstep⟩ |
    ⟨r, x, -, interfaceIndex, -, hAddress, -, hx, hstep⟩
  · exact hs.evolves hevolves
  · obtain ⟨hnext, -, hservices, hbrowser, hdnssRef, -⟩ := resolve_spec start s.next (s.newService z)
    have hlt : s.next < s.next + 3 := by omega
    rw [hstep]
    refine ⟨fun r x hx => ?_, fun k id hid => ?_, ?_⟩
    · rw [hnext]
      rcases live_resolve hx with hold | ⟨rfl, hzcs, href, -⟩
      · obtain ⟨hr, hzcs, hopen⟩ := hs.live r x hold
        exact ⟨hr.trans hlt, hzcs.trans hlt, hopen⟩
      · exact ⟨Nat.lt_add_of_pos_right Nat.two_pos, hzcs ▸ hlt, by rw [href]; rfl⟩
    · rw [hnext]
      rw [hservices] at hid
      exact (hs.services k id hid).trans hlt
    · refine hs.handles.of_closed (by rw [hnext]; exact hlt.le) (fun ref href => ?_) fun ref href => ?_
      · exact hbrowser ▸ href
      · exact hdnssRef ▸ href
  · obtain ⟨hlisted, hrest⟩ :=
      listService_spec x.zcs (serviceKey (s.objects x.zcs).m_name interfaceIndex.toNat)
      (s.setServiceIp x.zcs hAddress)
    rw [hstep]
    refine ⟨fun r' x' hx' => ?_, fun k' id hid => ?_, ?_⟩
    · rw [hrest] at hx' ⊢
      exact hs.live r' x' hx'
    · rcases hlisted k' id hid with hold | ⟨-, rfl⟩
      · rw [hrest]
        exact hs.services k' id hold
      · rw [hrest]
        exact (hs.live r x hx).2.1
    · rw [hrest]
      exact ⟨hs.handles.browser, hs.handles.dnssRef, hs.handles.apart⟩

/-- The invariant holds of every run. -/
theorem sound_reached (events : List Event) : Sound (reached events) :=
  after_invariant sound_step sound_initial events

/-- Every object goes on to stand for the same service. -/
theorem pairOf_step (s : QZeroConfPrivate) (e : Event) {id : ServiceId} (hid : id < s.next) :
    pairOf ((step s e).1.objects id) = pairOf (s.objects id) := by
  rcases step_cases s e with ⟨hevolves, -⟩ | ⟨start, z, -, -, hstep⟩ |
    ⟨r, x, -, interfaceIndex, -, hAddress, -, hx, hstep⟩
  · exact hevolves.pairs id hid
  · obtain ⟨-, hobjects, -⟩ := resolve_spec start s.next (s.newService z)
    rw [hstep, hobjects, objects_newService_of_lt hid]
  · rw [hstep, (listService_spec _ _ _).2]
    exact pairOf_setServiceIp x.zcs hAddress s id

end qtzeroconf.bonjour
