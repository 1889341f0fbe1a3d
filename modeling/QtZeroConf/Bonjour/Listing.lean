import QtZeroConf.Bonjour.Resolvers

open reactive reactive.Action mirror

namespace qtzeroconf.bonjour

open QZeroConfPrivate

/-- What an output says about the list of services: the key of the name and the
    interface of the object it carries, and the object itself. -/
def Output.notice? : Output → Option (Notice QString ServiceId)
  | .signal sent => sent.notice? (fun zcs => key zcs.data) fun zcs => zcs.id
  | _ => none

def notices (outputs : List Output) : List (Notice QString ServiceId) :=
  outputs.filterMap Output.notice?

/-- The address that an event delivers for a service: the object, and the
    interface of the reply. -/
def addressed (s : QZeroConfPrivate) : Event → Option (ServiceId × UInt32)
  | .addressReply r flags interfaceIndex err _ =>
    if (addressRef r s).isSome ∧ err = kDNSServiceErr_NoError ∧ flags &&& kDNSServiceFlagsAdd ≠ 0 then
      (s.live r).map fun x => (x.zcs, interfaceIndex)
    else none
  | _ => none

/-- The key that an address files a service under. -/
def addressKey (s : QZeroConfPrivate) (zcs : ServiceId) (interfaceIndex : UInt32) : QString :=
  serviceKey (s.objects zcs).m_name interfaceIndex.toNat

/-- The list stays, and every object keeps its key. -/
structure Still (s s' : QZeroConfPrivate) : Prop where
  services : s'.services = s.services
  keys : ∀ id, key (s'.objects id) = key (s.objects id)

theorem Still.refl (s : QZeroConfPrivate) : Still s s := ⟨rfl, fun _ => rfl⟩

theorem Still.trans (s t u : QZeroConfPrivate) (hst : Still s t) (htu : Still t u) : Still s u :=
  ⟨htu.services.trans hst.services, fun id => (htu.keys id).trans (hst.keys id)⟩

/-- An action that says nothing about the list and leaves it alone. -/
abbrev Silent (a : Action QZeroConfPrivate Output) : Prop := Within Still (fun o => o.notice? = none) a

/-- Silent actions, one after the other. -/
theorem Silent.andThen {a b : Action QZeroConfPrivate Output} (ha : Silent a) (hb : Silent b) :
    Silent (a.andThen b) :=
  within_andThen Still.trans ha hb

theorem silent_skip : Silent skip := within_skip Still.refl

theorem silent_emit {o : Output} (ho : o.notice? = none) : Silent (emit o) := within_emit Still.refl ho

/-- What is silent gives no notice. -/
theorem Silent.notices_eq {a : Action QZeroConfPrivate Output} (ha : Silent a) (s : QZeroConfPrivate) :
    notices (a s).2 = [] :=
  List.filterMap_eq_nil_iff.mpr (ha s).2

/-- A service that keeps its name and interface keeps its key. -/
theorem still_modifyService (zcs : ServiceId) {f : QZeroConfServiceData → QZeroConfServiceData}
    (hf : ∀ z, pairOf (f z) = pairOf z) (s : QZeroConfPrivate) : Still s (s.modifyService zcs f) :=
  ⟨rfl, fun id => key_eq_of_pairOf (pairOf_modifyService zcs hf s id)⟩

/-- The end of a resolver is not seen in the list. -/
theorem silent_cleanUpResolver (r : ResolverId) : Silent (Resolver.cleanUp r) := by
  intro s
  unfold Resolver.cleanUp
  split
  · exact silent_skip s
  · exact ⟨⟨rfl, fun _ => rfl⟩, by simp [Output.notice?]⟩

theorem deletes_still : Deletes Still fun o => o.notice? = none := ⟨Still.refl, Still.trans, silent_cleanUpResolver⟩

theorem silent_closeAddress (r : ResolverId) : Silent (closeAddress r) := by
  intro s
  unfold closeAddress
  split
  · exact silent_skip s
  · exact ⟨⟨rfl, fun _ => rfl⟩, by simp [Output.notice?]⟩

theorem still_setAddressRef (start : Start) (r : ResolverId) (s : QZeroConfPrivate) :
    Still s (s.setAddressRef start r) :=
  ⟨rfl, fun _ => rfl⟩

/-- A request for an address, whether it can be watched or not. -/
theorem silent_openAddress (start : Start) (interfaceIndex : UInt32) (hostName : CString) (r : ResolverId) :
    Silent (openAddress start interfaceIndex hostName r) :=
  fun s => Silent.andThen (silent_emit (by rfl))
    (Silent.andThen (within_update (still_setAddressRef start r)) (deletes_still.cleanUpUnless start r)) s

/-- What a service resolves to is written in place, and shown with its address
    only. -/
theorem silent_resolverCallback (start : Start) (r : ResolverId) (interfaceIndex : UInt32) (err : Int32)
    (hostName : CString) (port txtLen : UInt16) (txtRecord : QByteArray) :
    Silent (resolverCallback start r interfaceIndex err hostName port txtLen txtRecord) := by
  intro s
  unfold resolverCallback
  split
  · exact silent_skip s
  · split
    · exact silent_cleanUpResolver r s
    · exact Silent.andThen
        (within_update (still_modifyService _ (pairOf_setResolved hostName port txtLen txtRecord)))
        (Silent.andThen (silent_closeAddress r) (silent_openAddress start interfaceIndex hostName r)) s

/-- What a step that lists no service does to the list. -/
inductive ListStep (s s' : QZeroConfPrivate) : List (Notice QString ServiceId) → Prop where
  | unchanged (hservices : s'.services = s.services) : ListStep s s' []
  | removed {k : QString} {id : ServiceId} (hlisted : s.services[k]? = some id)
    (hservices : s'.services = s.services.erase k) : ListStep s s' [.removed (key (s.objects id)) id]
  | cleared (hservices : s'.services = ∅) :
    ListStep s s' (s.services.toList.map fun entry => .removed (key (s.objects entry.2)) entry.2)

/-- What is silent leaves the list unchanged. -/
theorem Silent.listStep {a : Action QZeroConfPrivate Output} (ha : Silent a) (s : QZeroConfPrivate) :
    ListStep s (a s).1 (notices (a s).2) := by
  rw [ha.notices_eq s]
  exact .unchanged (ha s).1.services

theorem notices_append (outputs outputs' : List Output) :
    notices (outputs ++ outputs') = notices outputs ++ notices outputs' :=
  List.filterMap_append

/-- Cleaning up the browser ends with the loop over the list, which is as it
    was. -/
theorem cleanUpBrowser_spec (visit : List QString) (s : QZeroConfPrivate) :
    ∃ t outputs, Still s t ∧ (∀ o ∈ outputs, o.notice? = none) ∧
      cleanUpBrowser visit s = ({ t with services := ∅ },
        outputs ++ t.services.toList.map fun entry => .signal (.serviceRemoved (shared t entry.2))) := by
  have hvisited : Silent (forEach cleanUpAt visit) :=
    within_forEach Still.refl Still.trans deletes_still.cleanUpAt visit
  obtain ⟨⟨hservices, hkeys⟩, hnone⟩ := hvisited { s with browser := none }
  exact ⟨{ (forEach cleanUpAt visit { s with browser := none }).1 with resolvers := ∅ }, _,
    ⟨hservices, hkeys⟩, hnone, rfl⟩

/-- Cleaning up the browser takes every service off the list, with a signal for
    each. -/
theorem listStep_cleanUpBrowser (visit : List QString) (s : QZeroConfPrivate) :
    ListStep s (cleanUpBrowser visit s).1 (notices (cleanUpBrowser visit s).2) := by
  obtain ⟨t, outputs, ⟨hservices, hkeys⟩, hnone, hspec⟩ := cleanUpBrowser_spec visit s
  have hsignals : (t.services.toList.map fun entry =>
      Output.signal (.serviceRemoved (shared t entry.2))).filterMap Output.notice? =
        s.services.toList.map fun entry => .removed (key (s.objects entry.2)) entry.2 := by
    rw [List.filterMap_map, ← List.filterMap_eq_map, hservices]
    refine List.filterMap_congr fun entry _ => ?_
    simp [Output.notice?, Signal.notice?, shared, hkeys]
  rw [hspec, notices, List.filterMap_append, List.filterMap_eq_nil_iff.mpr hnone, List.nil_append, hsignals]
  exact .cleared rfl

/-- What comes before may not touch the list or the keys. -/
theorem ListStep.of_still {s t u : QZeroConfPrivate} {ns : List (Notice QString ServiceId)}
    (h : ListStep t u ns) (hst : Still s t) : ListStep s u ns := by
  cases h with
  | unchanged hservices => exact .unchanged (hservices.trans hst.services)
  | removed hlisted hservices =>
    rw [hst.keys]
    exact .removed (hst.services ▸ hlisted) (hst.services ▸ hservices)
  | cleared hservices =>
    simp only [hst.services, hst.keys]
    exact .cleared hservices

/-- What comes before a step of the list without touching it. -/
theorem ListStep.andThen {a b : Action QZeroConfPrivate Output} {s : QZeroConfPrivate}
    (ha : Still s (a s).1 ∧ ∀ o ∈ (a s).2, o.notice? = none)
    (hb : ListStep (a s).1 (b (a s).1).1 (notices (b (a s).1).2)) :
    ListStep s (a.andThen b s).1 (notices (a.andThen b s).2) := by
  rw [andThen_fst, andThen_snd, notices_append, notices, List.filterMap_eq_nil_iff.mpr ha.2, List.nil_append]
  exact hb.of_still ha.1

/-- A change of the other fields, which gives no notice. -/
theorem still_update {s : QZeroConfPrivate} {f : QZeroConfPrivate → QZeroConfPrivate} (h : Still s (f s)) :
    Still s (update (ω := Output) f s).1 ∧ ∀ o ∈ (update (ω := Output) f s).2, o.notice? = none :=
  ⟨h, by simp⟩

/-- The browser is cleaned up with its list, or there is none. -/
theorem listStep_cleanUp_browser (visit : List QString) (s : QZeroConfPrivate) :
    ListStep s (cleanUp visit s.browser s).1 (notices (cleanUp visit s.browser s).2) := by
  cases hbrowser : s.browser with
  | none => exact .unchanged rfl
  | some ref =>
    simp only [cleanUp, hbrowser, if_true, andThen_fst, andThen_snd, emit_apply, notices_append]
    have hcleaned := listStep_cleanUpBrowser visit s
    rwa [show notices [.DNSServiceRefDeallocate (some ref)] = [] from rfl, List.append_nil]

/-- An error of the browser clears the list, and is reported behind it. -/
theorem listStep_browserError (visit : List QString) (s : QZeroConfPrivate) :
    ListStep s (browserError visit s).1 (notices (browserError visit s).2) := by
  have hcleaned := listStep_cleanUp_browser visit s
  simp only [browserError, andThen_fst, andThen_snd, emit_apply, notices_append]
  rwa [show notices [.signal (.error .browserFailed)] = [] from rfl, List.append_nil]

/-- The end of a registration leaves the browser alone. -/
theorem still_cleanUp_dnssRef {s : QZeroConfPrivate} (hs : Handles s) :
    Still s (cleanUp [] s.dnssRef s).1 ∧ ∀ o ∈ (cleanUp [] s.dnssRef s).2, o.notice? = none := by
  cases hdnssRef : s.dnssRef with
  | none => exact ⟨Still.refl s, by simp [cleanUp]⟩
  | some ref =>
    have hbrowser : ¬ s.browser = some ref := fun h => hs.apart ref h hdnssRef
    simp only [cleanUp, if_neg hbrowser, hdnssRef, if_true, andThen_fst, andThen_snd, emit_apply, update_apply]
    exact ⟨⟨rfl, fun _ => rfl⟩, by simp [Output.notice?]⟩

/-- What touches neither the list nor the keys. -/
theorem listStep_of_still {s s' : QZeroConfPrivate} {outputs : List Output}
    (h : Still s s' ∧ ∀ o ∈ outputs, o.notice? = none) : ListStep s s' (notices outputs) := by
  rw [notices, List.filterMap_eq_nil_iff.mpr h.2]
  exact .unchanged h.1.services

/-- A failed registration says nothing about services. -/
theorem still_registerError {s : QZeroConfPrivate} (hs : Handles s) :
    Still s (registerError s).1 ∧ ∀ o ∈ (registerError s).2, o.notice? = none := by
  obtain ⟨hstill, hnone⟩ := still_cleanUp_dnssRef hs
  refine ⟨hstill, fun o ho => ?_⟩
  rcases List.mem_append.mp ho with ho | ho
  · exact hnone o ho
  · rw [List.mem_singleton.mp ho]
    rfl

/-- A service that is being resolved is not listed yet. -/
theorem listStep_resolve (start : Start) (z : QZeroConfServiceData) (s : QZeroConfPrivate) :
    ListStep s (resolve start s.next (s.newService z)).1
      (notices (resolve start s.next (s.newService z)).2) := by
  obtain ⟨-, -, hservices, -⟩ := resolve_spec start s.next (s.newService z)
  have hnone : notices (resolve start s.next (s.newService z)).2 = [] := by
    cases start <;>
      simp [resolve, cleanUpUnless, Resolver.cleanUp, setResolverRef, modifyResolver, newResolver, notices,
        Output.notice?]
  rw [hnone]
  exact .unchanged hservices

/-- A service goes off the list with one signal. -/
theorem listStep_removeService {s : QZeroConfPrivate} {k : QString} {zcs : ServiceId}
    (hlisted : s.services[k]? = some zcs) :
    ListStep s (removeService k zcs s).1 (notices (removeService k zcs s).2) := by
  obtain ⟨⟨hservices, hkeys⟩, hnone⟩ := deletes_still.cleanUpAt k { s with services := s.services.erase k }
  have hsignals : notices (removeService k zcs s).2 = [.removed (key (s.objects zcs)) zcs] := by
    simp only [removeService, andThen_snd, update_apply, notices, List.nil_append, List.filterMap_append,
      List.filterMap_eq_nil_iff.mpr hnone]
    simp [Output.notice?, Signal.notice?, shared, hkeys]
  rw [hsignals]
  exact .removed hlisted hservices

/-- Publishing has no part in the list. -/
theorem listStep_startServicePublish {s : QZeroConfPrivate} (hs : Handles s) (start : Start)
    (name type : CString) (domain : Option CString) (port : UInt16) (interface : UInt32) :
    ListStep s (startServicePublish start name type domain port interface s).1
      (notices (startServicePublish start name type domain port interface s).2) := by
  unfold startServicePublish
  split
  · exact .unchanged rfl
  · refine ListStep.andThen (silent_emit (by rfl) s) (ListStep.andThen (still_update ⟨rfl, fun _ => rfl⟩) ?_)
    split
    · exact .unchanged rfl
    · exact listStep_of_still (still_registerError ((evolves_setDnssRef start s).handles hs))

/-- A browser that cannot be started clears the list. -/
theorem listStep_startBrowser (start : Start) (visit : List QString) (type : QString)
    (protocol : NetworkLayerProtocol) (s : QZeroConfPrivate) :
    ListStep s (startBrowser start visit type protocol s).1
      (notices (startBrowser start visit type protocol s).2) := by
  unfold startBrowser
  split
  · exact .unchanged rfl
  · refine ListStep.andThen (silent_emit (by rfl) s) (ListStep.andThen (still_update ⟨rfl, fun _ => rfl⟩) ?_)
    split
    · exact .unchanged rfl
    · exact listStep_browserError visit (s.setBrowser start (browserProtocol protocol))

/-- A callback for a reference that is closed does nothing. -/
theorem ListStep.whileOpen {s : QZeroConfPrivate} {a : Action QZeroConfPrivate Output}
    (h : ListStep s (a s).1 (notices (a s).2)) (ref : QZeroConfPrivate → Option DNSServiceRef) :
    ListStep s (whileOpen ref a s).1 (notices (whileOpen ref a s).2) := by
  unfold bonjour.whileOpen
  split
  · exact h
  · exact .unchanged rfl

/-- A browse reply takes a service off the list, clears it, or leaves it. -/
theorem listStep_browseCallback (start : Start) (visit : List QString) (flags interfaceIndex : UInt32)
    (err : Int32) (name type domain : CString) (s : QZeroConfPrivate) :
    ListStep s (browseCallback start visit flags interfaceIndex err name type domain s).1
      (notices (browseCallback start visit flags interfaceIndex err name type domain s).2) := by
  simp only [browseCallback]
  split
  · split
    · split
      · exact .unchanged rfl
      · exact listStep_resolve start _ s
    · split
      · exact .unchanged rfl
      · rename_i hlisted
        exact listStep_removeService hlisted
  · exact listStep_browserError visit s

/-- A step that delivers no address lists nothing. -/
theorem listStep_step {s : QZeroConfPrivate} (hs : Sound s) {e : Event} (h : addressed s e = none) :
    ListStep s (step s e).1 (notices (step s e).2) := by
  cases e with
  | addServiceTxtRecord nameOnly => exact .unchanged rfl
  | addServiceTxtRecordPair name value => exact .unchanged rfl
  | clearServiceTxtRecords => exact .unchanged rfl
  | startServicePublish start name type domain port interface =>
    exact listStep_startServicePublish hs.handles start name type domain port interface
  | stopServicePublish => exact listStep_of_still (still_cleanUp_dnssRef hs.handles)
  | registerReply errorCode =>
    refine ListStep.whileOpen ?_ dnssRef
    unfold registerCallback
    split
    · exact .unchanged rfl
    · exact listStep_of_still (still_registerError hs.handles)
  | bsReadFailure => exact (listStep_of_still (still_registerError hs.handles)).whileOpen dnssRef
  | startBrowser start visit type protocol => exact listStep_startBrowser start visit type protocol s
  | stopBrowser visit => exact listStep_cleanUp_browser visit s
  | browseReply start visit flags interfaceIndex err name type domain =>
    exact (listStep_browseCallback start visit flags interfaceIndex err name type domain s).whileOpen browser
  | browserReadFailure visit => exact (listStep_browserError visit s).whileOpen browser
  | resolveReply start r interfaceIndex err hostName port txtLen txtRecord =>
    have hsilent := silent_resolverCallback start r interfaceIndex err hostName port txtLen txtRecord
    exact Silent.listStep (deletes_still.whileOpen hsilent _) s
  | resolverReadyFailure r => exact Silent.listStep (deletes_still.whileOpen (silent_cleanUpResolver r) _) s
  | addressReadyFailure r => exact Silent.listStep (deletes_still.whileOpen (silent_cleanUpResolver r) _) s
  | addressReply r flags interfaceIndex err hAddress =>
    by_cases hopen : (addressRef r s).isSome
    · obtain ⟨x, hx⟩ := Option.isSome_iff_exists.mp (live_of_addressRef hopen)
      simp only [step, bonjour.whileOpen, if_pos hopen, addressReply, hx]
      split
      · rename_i herr
        split
        · rename_i hadd
          rw [addressed, if_pos ⟨hopen, herr, hadd⟩, hx] at h
          cases h
        · exact .unchanged rfl
      · exact (silent_cleanUpResolver r).listStep s
    · rw [step, bonjour.whileOpen, if_neg hopen]
      exact .unchanged rfl

/-- An address lists its service, and does nothing else to the list. -/
theorem addressed_step {s : QZeroConfPrivate} {e : Event} {zcs : ServiceId} {interfaceIndex : UInt32}
    (h : addressed s e = some (zcs, interfaceIndex)) :
    ∃ hAddress, step s e = listService zcs (addressKey s zcs interfaceIndex) (s.setServiceIp zcs hAddress) := by
  cases e with
  | addressReply r flags interfaceIndex' err hAddress =>
    simp only [addressed, Option.ite_none_right_eq_some, Option.map_eq_some_iff, Prod.mk.injEq] at h
    obtain ⟨⟨hopen, herr, hadd⟩, x, hx, rfl, rfl⟩ := h
    refine ⟨hAddress, ?_⟩
    simp only [step, bonjour.whileOpen, if_pos hopen, addressReply, hx, if_pos herr, if_pos hadd]
    simp [addressKey, setServiceIp, modifyService, QZeroConfServiceData.setIp]
  | _ => cases h

/-- What is listed behind such a step was listed before. -/
theorem ListStep.listed {s s' : QZeroConfPrivate} {ns : List (Notice QString ServiceId)} (h : ListStep s s' ns)
    {k : QString} {id : ServiceId} (hid : s'.services[k]? = some id) : s.services[k]? = some id := by
  cases h with
  | unchanged hservices => exact hservices ▸ hid
  | removed hlisted hservices =>
    rw [hservices, Std.ExtTreeMap.getElem?_erase] at hid
    split at hid
    · cases hid
    · exact hid
  | cleared hservices =>
    rw [hservices] at hid
    simp at hid

end qtzeroconf.bonjour
