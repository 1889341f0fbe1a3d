import QtZeroConf.Bonjour.Lifetime
import QtZeroConf.Library.Registry

open reactive reactive.Action registry

namespace qtzeroconf.bonjour

open QZeroConfPrivate

/-- The resolvers as a registry: the hash they are stored in, and the key that
    each living resolver has by its service. -/
def QZeroConfPrivate.registry (s : QZeroConfPrivate) : Registry QString ResolverId where
  table := s.resolvers
  alive r := (s.live r).map fun x => key (s.objects x.zcs)

/-- What an event does to the resolvers. -/
def effect (s : QZeroConfPrivate) : Event → Registry.Op QString ResolverId
  | .startBrowser start visit _ _ =>
    if ¬ s.browser.isSome ∧ start = .noSocket then .teardown visit else .keep
  | .stopBrowser visit | .browserReadFailure visit =>
    if s.browser.isSome then .teardown visit else .keep
  | .browseReply start visit flags interfaceIndex err name _ _ =>
    let k := serviceKey (QString.fromUtf8 name) interfaceIndex.toNat
    if ¬ s.browser.isSome then .keep
    else if err ≠ kDNSServiceErr_NoError then .teardown visit
    else if flags &&& kDNSServiceFlagsAdd ≠ 0 then
      if s.services.contains k then .keep
      else if start = .watched then .insert (s.next + 1) k
      else .insertRelease (s.next + 1) k
    else if s.services.contains k then .releaseAt k
    else .keep
  | .resolveReply start r _ err _ _ _ _ =>
    if (resolverRef r s).isSome ∧ ¬ (err = kDNSServiceErr_NoError ∧ start = .watched) then .release r
    else .keep
  | .addressReply r _ _ err _ =>
    if (addressRef r s).isSome ∧ err ≠ kDNSServiceErr_NoError then .release r else .keep
  | .resolverReadyFailure r => if (resolverRef r s).isSome then .release r else .keep
  | .addressReadyFailure r => if (addressRef r s).isSome then .release r else .keep
  | _ => .keep

/-- States with the same hash and the same keys of living resolvers. -/
theorem registry_eq {s s' : QZeroConfPrivate} (hresolvers : s'.resolvers = s.resolvers)
    (hlive : ∀ r, (s'.live r).map (fun x => key (s'.objects x.zcs)) =
      (s.live r).map fun x => key (s.objects x.zcs)) : s'.registry = s.registry := by
  rw [registry, registry, hresolvers, funext hlive]

/-- A resolver that ends is released, wherever it is stored. -/
theorem registry_cleanUpResolver (r : ResolverId) (s : QZeroConfPrivate) :
    (Resolver.cleanUp r s).1.registry = s.registry.release r := by
  unfold Resolver.cleanUp Registry.release
  cases hx : s.live r with
  | none => simp [registry, hx]
  | some x =>
    have halive : s.registry.alive r = some (key (s.objects x.zcs)) := by simp [registry, hx]
    simp only [halive]
    have hfun : (fun r' => (Function.update s.live r none r').map fun x => key (s.objects x.zcs)) =
        Function.update s.registry.alive r none := by
      funext r'
      by_cases hr : r' = r <;> simp [registry, Function.update, hr]
    rw [registry]
    simp only [hfun]
    rfl

theorem registry_cleanUpAt (k : QString) (s : QZeroConfPrivate) :
    (cleanUpAt k s).1.registry = s.registry.releaseAt k := by
  unfold cleanUpAt Registry.releaseAt
  have htable : s.registry.table[k]? = s.resolvers[k]? := rfl
  rw [htable]
  cases s.resolvers[k]? with
  | none => rfl
  | some r => exact registry_cleanUpResolver r s

/-- The loop of the cleanup, whatever keys it visits. -/
theorem registry_forEach_cleanUpAt (visit : List QString) (s : QZeroConfPrivate) :
    (forEach cleanUpAt visit s).1.registry = s.registry.releaseEach visit := by
  induction visit generalizing s with
  | nil => rfl
  | cons k visit ih =>
    rw [forEach_cons, andThen_fst, ih, registry_cleanUpAt]
    rfl

/-- The hash is cleared behind the loop. -/
theorem registry_cleanUpBrowser (visit : List QString) (s : QZeroConfPrivate) :
    (cleanUpBrowser visit s).1.registry = (s.registry.releaseEach visit).clear := by
  have hloop := registry_forEach_cleanUpAt visit { s with browser := none }
  exact congrArg Registry.clear hloop

/-- Only the cleanup of the browser's own reference reaches the resolvers. -/
theorem registry_cleanUp (visit : List QString) (toClean : Option DNSServiceRef) (s : QZeroConfPrivate) :
    (cleanUp visit toClean s).1.registry =
      if toClean.isSome ∧ s.browser = toClean then (s.registry.releaseEach visit).clear else s.registry := by
  unfold cleanUp
  cases toClean with
  | none => simp
  | some ref =>
    by_cases hbrowser : s.browser = some ref
    · simpa [hbrowser] using registry_cleanUpBrowser visit s
    · by_cases hdnss : s.dnssRef = some ref
      · simp only [hbrowser, hdnss, if_true, if_false, and_false, andThen_fst]
        rfl
      · simp [hbrowser, hdnss]

theorem registry_cleanUp_browser (visit : List QString) (s : QZeroConfPrivate) :
    (cleanUp visit s.browser s).1.registry =
      (if s.browser.isSome then Registry.Op.teardown visit else .keep).apply s.registry := by
  rw [registry_cleanUp]
  by_cases hopen : s.browser.isSome <;> simp [hopen, Registry.Op.apply]

/-- Closing the registration leaves the resolvers alone: its reference is not
    the browser's. -/
theorem registry_cleanUp_dnssRef {s : QZeroConfPrivate} (hs : Handles s) :
    (cleanUp [] s.dnssRef s).1.registry = s.registry := by
  rw [registry_cleanUp, if_neg]
  rintro ⟨hopen, hsame⟩
  obtain ⟨ref, href⟩ := Option.isSome_iff_exists.mp hopen
  exact hs.apart ref (hsame.trans href) href

/-- What a service keeps of its name and interface keeps the keys. -/
theorem registry_modifyService (zcs : ServiceId) {f : QZeroConfServiceData → QZeroConfServiceData}
    (hf : ∀ z, pairOf (f z) = pairOf z) (s : QZeroConfPrivate) :
    (s.modifyService zcs f).registry = s.registry := by
  refine registry_eq rfl fun r => congrArg (Option.map · (s.live r)) (funext fun x => ?_)
  by_cases hzcs : x.zcs = zcs
  · simp [modifyService, hzcs, key_eq_of_pairOf (hf (s.objects zcs))]
  · simp [modifyService, hzcs]

theorem registry_setServiceIp (zcs : ServiceId) (hAddress : QHostAddress) (s : QZeroConfPrivate) :
    (s.setServiceIp zcs hAddress).registry = s.registry :=
  registry_modifyService zcs (f := fun service => service.setIp hAddress) (fun _ => rfl) s

/-- A resolver that keeps its service keeps its key. -/
theorem registry_modifyResolver {r : ResolverId} {f : Resolver → Resolver} (hf : ∀ x, (f x).zcs = x.zcs)
    (s : QZeroConfPrivate) : (s.modifyResolver r f).registry = s.registry := by
  refine registry_eq rfl fun r' => ?_
  by_cases hr : r' = r
  · subst hr
    simp [modifyResolver, Function.comp_def, hf]
  · simp [modifyResolver, hr]

theorem registry_setResolverRef (start : Start) (r : ResolverId) (s : QZeroConfPrivate) :
    (s.setResolverRef start r).registry = s.registry :=
  registry_modifyResolver (r := r)
    (f := fun resolver => { resolver with DNSresolverRef := s.newRef start }) (fun _ => rfl) s

theorem registry_setAddressRef (start : Start) (r : ResolverId) (s : QZeroConfPrivate) :
    (s.setAddressRef start r).registry = s.registry :=
  registry_modifyResolver (r := r)
    (f := fun resolver => { resolver with DNSaddressRef := s.newRef start }) (fun _ => rfl) s

theorem registry_cleanUpUnless (start : Start) (r : ResolverId) (s : QZeroConfPrivate) :
    (cleanUpUnless start r s).1.registry =
      if start = .watched then s.registry else s.registry.release r := by
  unfold cleanUpUnless
  split
  · rfl
  · exact registry_cleanUpResolver r s

/-- A resolver is stored under the key of its service. -/
theorem registry_newResolver (zcs : ServiceId) (s : QZeroConfPrivate) :
    (s.newResolver zcs).registry = s.registry.insert s.next (key (s.objects zcs)) := by
  have hfun : (s.newResolver zcs).registry.alive =
      Function.update s.registry.alive s.next (some (key (s.objects zcs))) := by
    funext r
    by_cases hr : r = s.next <;> simp [registry, newResolver, Function.update, hr]
  calc (s.newResolver zcs).registry
      = ⟨(s.newResolver zcs).resolvers, (s.newResolver zcs).registry.alive⟩ := rfl
    _ = s.registry.insert s.next (key (s.objects zcs)) := by
      rw [hfun]
      rfl

/-- A new object is nothing that a resolver refers to. -/
theorem registry_newService {s : QZeroConfPrivate} (hs : Sound s) (zcs : QZeroConfServiceData) :
    (s.newService zcs).registry = s.registry := by
  refine registry_eq rfl fun r => ?_
  cases hx : s.live r with
  | none => simp [newService, hx]
  | some x =>
    have hne := (hs.live r x hx).2.1.ne
    simp [newService, hx, Function.update_of_ne hne]

/-- A resolver is created, and released again if its socket cannot be watched. -/
theorem registry_resolve (start : Start) (zcs : ServiceId) (s : QZeroConfPrivate) :
    (resolve start zcs s).1.registry =
      (if start = .watched then Registry.Op.insert s.next (key (s.objects zcs))
        else .insertRelease s.next (key (s.objects zcs))).apply s.registry := by
  have hinsert : ((s.newResolver zcs).setResolverRef start s.next).registry =
      s.registry.insert s.next (key (s.objects zcs)) := by
    rw [registry_setResolverRef, registry_newResolver]
  simp only [resolve, andThen_fst, emit_apply, update_apply, registry_cleanUpUnless, hinsert]
  split <;> rfl

theorem registry_closeAddress (r : ResolverId) (s : QZeroConfPrivate) :
    (closeAddress r s).1.registry = s.registry := by
  unfold closeAddress
  split
  · rfl
  · exact registry_modifyResolver (r := r)
      (f := fun resolver => { resolver with DNSaddressRef := none }) (fun _ => rfl) s

/-- A reply ends its resolver if it, or the request for an address, fails. -/
theorem registry_resolverCallback {start : Start} {r : ResolverId} {interfaceIndex : UInt32} {err : Int32}
    {hostName : CString} {port txtLen : UInt16} {txtRecord : QByteArray} {s : QZeroConfPrivate}
    (hr : (s.live r).isSome) :
    (resolverCallback start r interfaceIndex err hostName port txtLen txtRecord s).1.registry =
      (if ¬ (err = kDNSServiceErr_NoError ∧ start = .watched) then Registry.Op.release r
        else .keep).apply s.registry := by
  obtain ⟨x, hx⟩ := Option.isSome_iff_exists.mp hr
  simp only [resolverCallback, hx]
  by_cases herr : err = kDNSServiceErr_NoError
  · have hwrite := registry_modifyService x.zcs
      (pairOf_setResolved hostName port txtLen txtRecord) s
    simp only [herr, ne_eq, not_true, if_false, true_and, openAddress, andThen_fst, update_apply, emit_apply,
      registry_cleanUpUnless, registry_setAddressRef, registry_closeAddress, hwrite]
    by_cases hstart : start = .watched <;> simp [hstart, Registry.Op.apply]
  · simp only [herr, ne_eq, not_false_eq_true, if_true, false_and, registry_cleanUpResolver, Registry.Op.apply]

theorem registry_listService (zcs : ServiceId) (k : QString) (s : QZeroConfPrivate) :
    (listService zcs k s).1.registry = s.registry := by
  rw [(listService_spec zcs k s).2]
  rfl

/-- An address that cannot be had ends its resolver. -/
theorem registry_addressReply {r : ResolverId} {flags interfaceIndex : UInt32} {err : Int32}
    {hAddress : QHostAddress} {s : QZeroConfPrivate} (hr : (s.live r).isSome) :
    (addressReply r flags interfaceIndex err hAddress s).1.registry =
      (if err ≠ kDNSServiceErr_NoError then Registry.Op.release r else .keep).apply s.registry := by
  obtain ⟨x, hx⟩ := Option.isSome_iff_exists.mp hr
  simp only [addressReply, hx]
  by_cases herr : err = kDNSServiceErr_NoError
  · simp only [herr, ne_eq, not_true, if_false, if_true]
    split
    · rw [registry_listService, registry_setServiceIp]
      rfl
    · rfl
  · simp only [herr, ne_eq, not_false_eq_true, if_true, if_false, registry_cleanUpResolver, Registry.Op.apply]

theorem registry_browserError (visit : List QString) (s : QZeroConfPrivate) :
    (browserError visit s).1.registry =
      (if s.browser.isSome then Registry.Op.teardown visit else .keep).apply s.registry := by
  simp only [browserError, andThen_fst, emit_apply, registry_cleanUp_browser]

/-- A failed registration has no part in the resolvers. -/
theorem registry_registerError {s : QZeroConfPrivate} (hs : Handles s) :
    (registerError s).1.registry = s.registry := by
  simp only [registerError, andThen_fst, emit_apply, registry_cleanUp_dnssRef hs]

/-- Who has a reference is alive. -/
theorem live_of_resolverRef {r : ResolverId} {s : QZeroConfPrivate} (h : (resolverRef r s).isSome) :
    (s.live r).isSome := by
  unfold resolverRef at h
  cases hx : s.live r <;> simp_all

theorem live_of_addressRef {r : ResolverId} {s : QZeroConfPrivate} (h : (addressRef r s).isSome) :
    (s.live r).isSome := by
  unfold addressRef at h
  cases hx : s.live r <;> simp_all

/-- A browse reply, case by case as the registry is said to move. -/
theorem registry_browseCallback {s : QZeroConfPrivate} (hs : Sound s) (hopen : s.browser.isSome)
    (start : Start) (visit : List QString) (flags interfaceIndex : UInt32) (err : Int32)
    (name type domain : CString) :
    (browseCallback start visit flags interfaceIndex err name type domain s).1.registry =
      (effect s (.browseReply start visit flags interfaceIndex err name type domain)).apply s.registry := by
  simp only [effect, hopen, not_true, if_false, browseCallback]
  by_cases herr : err = kDNSServiceErr_NoError
  · simp only [herr, if_true, ne_eq, not_true, if_false]
    split
    · split
      · rfl
      · have hkey : key (foundService interfaceIndex name type domain) =
            serviceKey (QString.fromUtf8 name) interfaceIndex.toNat := rfl
        rw [registry_resolve, registry_newService hs]
        simp [newService, hkey]
    · rw [Std.ExtTreeMap.contains_eq_isSome_getElem?]
      cases s.services[serviceKey (QString.fromUtf8 name) interfaceIndex.toNat]? with
      | none => rfl
      | some zcs => exact registry_cleanUpAt _ _
  · simp only [herr, ne_eq, not_false_eq_true, if_true, if_false, registry_browserError, hopen]

/-- A callback for a reference that is closed moves nothing. -/
theorem registry_whileOpen {s : QZeroConfPrivate} {a : Action QZeroConfPrivate Output}
    {ref : QZeroConfPrivate → Option DNSServiceRef} {op : Registry.Op QString ResolverId}
    (h : (ref s).isSome → (a s).1.registry = op.apply s.registry) :
    (whileOpen ref a s).1.registry = (if (ref s).isSome then op else .keep).apply s.registry := by
  unfold whileOpen
  split
  · rename_i hopen
    exact h hopen
  · rfl

theorem registry_whileOpen_keep {s : QZeroConfPrivate} {a : Action QZeroConfPrivate Output}
    (h : (a s).1.registry = s.registry) (ref : QZeroConfPrivate → Option DNSServiceRef) :
    (whileOpen ref a s).1.registry = s.registry := by
  unfold whileOpen
  split
  · exact h
  · rfl

theorem registry_startServicePublish {s : QZeroConfPrivate} (hs : Handles s) (start : Start) (name type : CString)
    (domain : Option CString) (port : UInt16) (interface : UInt32) :
    (startServicePublish start name type domain port interface s).1.registry = s.registry := by
  unfold startServicePublish
  split
  · rfl
  · simp only [andThen_fst, emit_apply, update_apply]
    split
    · rfl
    · exact registry_registerError ((evolves_setDnssRef start s).handles hs)

theorem registry_registerCallback {s : QZeroConfPrivate} (hs : Handles s) (errorCode : Int32) :
    (registerCallback errorCode s).1.registry = s.registry := by
  unfold registerCallback
  split
  · rfl
  · exact registry_registerError hs

/-- A browser that cannot be watched ends with the resolvers of the one before. -/
theorem registry_startBrowser (start : Start) (visit : List QString) (type : QString)
    (protocol : NetworkLayerProtocol) (s : QZeroConfPrivate) :
    (startBrowser start visit type protocol s).1.registry =
      (effect s (.startBrowser start visit type protocol)).apply s.registry := by
  simp only [startBrowser, effect]
  by_cases hopen : s.browser.isSome
  · simp only [hopen, if_true, not_true, false_and, if_false]
    rfl
  · simp only [hopen]
    cases start with
    | watched => rfl
    | failed => exact registry_browserError visit (s.setBrowser .failed (browserProtocol protocol))
    | noSocket => exact registry_browserError visit (s.setBrowser .noSocket (browserProtocol protocol))

/-- The backend moves its resolvers as the registry says. -/
theorem registry_step (s : QZeroConfPrivate) (hs : Sound s) (e : Event) :
    (step s e).1.registry = (effect s e).apply s.registry := by
  cases e with
  | addServiceTxtRecord nameOnly => rfl
  | addServiceTxtRecordPair name value => rfl
  | clearServiceTxtRecords => rfl
  | startServicePublish start name type domain port interface =>
    exact registry_startServicePublish hs.handles start name type domain port interface
  | stopServicePublish => exact registry_cleanUp_dnssRef hs.handles
  | registerReply errorCode => exact registry_whileOpen_keep (registry_registerCallback hs.handles errorCode) dnssRef
  | bsReadFailure => exact registry_whileOpen_keep (registry_registerError hs.handles) dnssRef
  | startBrowser start visit type protocol => exact registry_startBrowser start visit type protocol s
  | stopBrowser visit => exact registry_cleanUp_browser visit s
  | browserReadFailure visit =>
    refine registry_whileOpen fun hopen => ?_
    rw [registry_browserError, if_pos hopen]
  | browseReply start visit flags interfaceIndex err name type domain =>
    by_cases hopen : s.browser.isSome
    · rw [step, whileOpen, if_pos hopen, registry_browseCallback hs hopen]
    · rw [step, whileOpen, if_neg hopen, effect, if_pos hopen]
      rfl
  | resolveReply start r interfaceIndex err hostName port txtLen txtRecord =>
    rw [effect, ite_and]
    exact registry_whileOpen fun hopen => registry_resolverCallback (live_of_resolverRef hopen)
  | resolverReadyFailure r => exact registry_whileOpen fun _ => registry_cleanUpResolver r s
  | addressReply r flags interfaceIndex err hAddress =>
    rw [effect, ite_and]
    exact registry_whileOpen fun hopen => registry_addressReply (live_of_addressRef hopen)
  | addressReadyFailure r => exact registry_whileOpen fun _ => registry_cleanUpResolver r s

/-- The resolver that an Add creates has a number of its own. -/
theorem fresh_effect {s : QZeroConfPrivate} (hs : Sound s) (e : Event) : (effect s e).Fresh s.registry := by
  have hfresh : s.registry.alive (s.next + 1) = none := by
    cases hx : s.live (s.next + 1) with
    | none => simp [registry, hx]
    | some x => exact absurd (hs.live _ x hx).1 (Nat.not_succ_lt_self)
  cases e <;> simp only [effect] <;> (repeat' split) <;> first | exact hfresh | trivial

/-- What holds of every instance and its registry. -/
structure SoundRegistry (s : QZeroConfPrivate) : Prop extends Sound s where
  stored : s.registry.Stored

theorem soundRegistry_initial : SoundRegistry {} :=
  ⟨sound_initial, fun k r h => by simp [registry] at h⟩

/-- The invariant that each event keeps. -/
theorem soundRegistry_step (s : QZeroConfPrivate) (e : Event) (hs : SoundRegistry s) :
    SoundRegistry (step s e).1 := by
  refine ⟨sound_step s e hs.toSound, ?_⟩
  rw [registry_step s hs.toSound e]
  exact Registry.stored_apply hs.stored (fresh_effect hs.toSound e)

end qtzeroconf.bonjour
