import QtZeroConf.Bonjour.Frame
import QtZeroConf.Bonjour.Listing
import QtZeroConf.Txt.Agreement

open reactive reactive.Action table

namespace qtzeroconf.bonjour

open QZeroConfPrivate

/-- What a successful resolve reply carries. -/
structure Resolution where
  hostName : CString
  port : UInt16
  txtLen : UInt16
  txtRecord : QByteArray

/-- The successful resolve reply that an event delivers: the object of the
    resolver that it goes to, and what it carries. -/
def resolved (s : QZeroConfPrivate) : Event → Option (ServiceId × Resolution)
  | .resolveReply _ r _ err hostName port txtLen txtRecord =>
    if (resolverRef r s).isSome ∧ err = kDNSServiceErr_NoError then
      (s.live r).map fun x => (x.zcs, { hostName, port, txtLen, txtRecord })
    else none
  | _ => none

/-- The TXT record of a resolution is well-formed. -/
structure Resolution.Carries (resolution : Resolution) (rdata : TxtRdata) : Prop where
  txtLen : resolution.txtLen = rdata.txtLen
  txtRecord : resolution.txtRecord = rdata.bytes

/-- The map that a TXT record stands for. -/
def decoded (rdata : TxtRdata) : TxtMap := insertAll txtKey txtValue rdata.strings ∅

/-- The object that a living resolver looks an address up for, which it does
    from its first successful reply on. -/
def lookup (s : QZeroConfPrivate) (r : ResolverId) : Option ServiceId :=
  (s.live r).bind fun x => if x.DNSaddressRef.isSome then some x.zcs else none

/-- What is listed for a service, if anything, is one object. -/
def ListedAs (s : QZeroConfPrivate) (zcs : ServiceId) : Prop :=
  ∀ id, s.services[key (s.objects zcs)]? = some id → id = zcs

/-- After a successful reply the object has what the reply carries, and where
    its service is listed, it is the object that is listed. -/
structure Exposes (s : QZeroConfPrivate) (zcs : ServiceId) (resolution : Resolution) : Prop where
  m_host : (s.objects zcs).m_host = QString.fromUtf8 resolution.hostName
  m_port : (s.objects zcs).m_port = qFromBigEndian resolution.port
  m_txt : ∀ rdata, resolution.Carries rdata → (s.objects zcs).m_txt = decoded rdata
  listed : ListedAs s zcs

/-- A run exposes the latest resolutions: each reply right after it has come,
    and the object of every resolver that had one is what is listed, once its
    service is. -/
structure LatestExposed (events : List Event) : Prop where
  replies : Along step (fun s e => ∀ zcs resolution, resolved s e = some (zcs, resolution) →
    Exposes (step s e).1 zcs resolution) {} events
  registered : Throughout step (fun s => ∀ r zcs, lookup s r = some zcs → ListedAs s zcs) {} events

/-- Every key that the object already has is the key of a string of the new
    record. -/
def RecordsCovered (s : QZeroConfPrivate) (e : Event) : Prop :=
  ∀ zcs resolution rdata, resolved s e = some (zcs, resolution) → resolution.Carries rdata →
    ∀ k ∈ (s.objects zcs).m_txt, ∃ text ∈ rdata.strings, txtKey text = k

/-- A reply finds no other object listed for its service, and an address that
    lists a service finds no other object for which a resolver looks an address
    up under that key. -/
structure OneObject (s : QZeroConfPrivate) (e : Event) : Prop where
  resolving : ∀ zcs resolution, resolved s e = some (zcs, resolution) → ListedAs s zcs
  listing : ∀ zcs interfaceIndex, addressed s e = some (zcs, interfaceIndex) →
    addressKey s zcs interfaceIndex ∉ s.services →
      ∀ r zcs', lookup s r = some zcs' → key (s.objects zcs') = addressKey s zcs interfaceIndex → zcs' = zcs

/-- A step after which no resolver looks up more than before. -/
def NoLookup (s s' : QZeroConfPrivate) : Prop := ∀ r zcs, lookup s' r = some zcs → lookup s r = some zcs

theorem noLookup_of_live {s s' : QZeroConfPrivate} (h : s'.live = s.live) : NoLookup s s' :=
  fun r zcs hlookup => by rwa [lookup, h] at hlookup

theorem noLookup_cleanUpResolver (r : ResolverId) : Within NoLookup (fun _ => True) (Resolver.cleanUp r) := by
  intro s
  unfold Resolver.cleanUp
  split
  · exact ⟨noLookup_of_live rfl, fun _ _ => trivial⟩
  · refine ⟨fun r' zcs h => ?_, fun _ _ => trivial⟩
    by_cases hr : r' = r
    · simp [lookup, hr] at h
    · simpa [lookup, hr] using h

theorem closes_noLookup : Closes NoLookup fun _ => True where
  refl _ := noLookup_of_live rfl
  trans _ _ _ hst htu r zcs h := hst r zcs (htu r zcs h)
  resolver := noLookup_cleanUpResolver
  closeBrowser _ := noLookup_of_live rfl
  closeDnssRef _ := noLookup_of_live rfl
  clearResolvers _ := noLookup_of_live rfl
  clearServices _ := noLookup_of_live rfl
  eraseService _ _ := noLookup_of_live rfl
  setDnssRef _ _ := noLookup_of_live rfl
  setBrowser _ _ _ := noLookup_of_live rfl
  quiet _ _ := trivial

theorem noLookup_resolve (start : Start) {zcs : ServiceId} {s t : QZeroConfPrivate} (hlive : t.live = s.live) :
    NoLookup s (resolve start zcs t).1 := by
  intro r zcs' hlookup
  obtain ⟨x, hx, hopen⟩ := Option.bind_eq_some_iff.mp hlookup
  rcases live_resolve hx with hold | ⟨-, -, -, hnone⟩
  · rw [lookup, ← hlive, hold]
    exact hopen
  · simp [hnone] at hopen

/-- Only a successful resolve reply starts to look an address up. -/
theorem noLookup_step {s : QZeroConfPrivate} {e : Event} (h : resolved s e = none) :
    NoLookup s (step s e).1 := by
  cases e with
  | addServiceTxtRecord nameOnly => exact noLookup_of_live rfl
  | addServiceTxtRecordPair name value => exact noLookup_of_live rfl
  | clearServiceTxtRecords => exact noLookup_of_live rfl
  | startServicePublish start name type domain port interface =>
    exact (closes_noLookup.startServicePublish start name type domain port interface s).1
  | stopServicePublish => exact (closes_noLookup.cleanUp [] s.dnssRef s).1
  | registerReply errorCode =>
    exact (closes_noLookup.whileOpen (closes_noLookup.registerCallback errorCode) _ s).1
  | bsReadFailure => exact (closes_noLookup.whileOpen closes_noLookup.registerError _ s).1
  | startBrowser start visit type protocol =>
    exact (closes_noLookup.startBrowser start visit type protocol s).1
  | stopBrowser visit => exact (closes_noLookup.cleanUp visit s.browser s).1
  | browserReadFailure visit =>
    exact (closes_noLookup.whileOpen (closes_noLookup.browserError visit) _ s).1
  | browseReply start visit flags interfaceIndex err name type domain =>
    simp only [step, bonjour.whileOpen]
    split
    · simp only [browseCallback]
      (repeat' split)
      · exact noLookup_of_live rfl
      · exact noLookup_resolve start rfl
      · exact noLookup_of_live rfl
      · exact (closes_noLookup.removeService _ _ s).1
      · exact (closes_noLookup.browserError visit s).1
    · exact noLookup_of_live rfl
  | resolveReply start r interfaceIndex err hostName port txtLen txtRecord =>
    by_cases hopen : (resolverRef r s).isSome
    · obtain ⟨x, hx⟩ := Option.isSome_iff_exists.mp (live_of_resolverRef hopen)
      have herr : err ≠ kDNSServiceErr_NoError := by
        rintro rfl
        simp [resolved, hopen, hx] at h
      simp only [step, bonjour.whileOpen, if_pos hopen, resolverCallback, hx, if_pos herr]
      exact (noLookup_cleanUpResolver r s).1
    · rw [step, bonjour.whileOpen, if_neg hopen]
      exact noLookup_of_live rfl
  | resolverReadyFailure r =>
    exact (closes_noLookup.whileOpen (noLookup_cleanUpResolver r) _ s).1
  | addressReply r flags interfaceIndex err hAddress =>
    simp only [step, bonjour.whileOpen]
    split
    · simp only [addressReply]
      (repeat' split)
      · exact noLookup_of_live rfl
      · refine noLookup_of_live ?_
        rw [(listService_spec _ _ _).2]
        rfl
      · exact noLookup_of_live rfl
      · exact (noLookup_cleanUpResolver r s).1
    · exact noLookup_of_live rfl
  | addressReadyFailure r =>
    exact (closes_noLookup.whileOpen (noLookup_cleanUpResolver r) _ s).1

theorem objects_cleanUpUnless (start : Start) (r : ResolverId) (s : QZeroConfPrivate) :
    (cleanUpUnless start r s).1.objects = s.objects := by
  unfold cleanUpUnless
  split
  · rfl
  · unfold Resolver.cleanUp
    split <;> rfl

theorem objects_closeAddress (r : ResolverId) (s : QZeroConfPrivate) :
    (closeAddress r s).1.objects = s.objects := by
  unfold closeAddress
  split <;> rfl

/-- A successful reply writes its host, port and records to the object of its
    resolver, which is then the only one that may look up more than before. -/
theorem resolved_step {s : QZeroConfPrivate} {e : Event} {zcs : ServiceId} {resolution : Resolution}
    (h : resolved s e = some (zcs, resolution)) :
    (step s e).1.services = s.services ∧
      (step s e).1.objects zcs = setResolved resolution.hostName resolution.port resolution.txtLen
        resolution.txtRecord (s.objects zcs) ∧
      ∀ r zcs', lookup (step s e).1 r = some zcs' → lookup s r = some zcs' ∨ zcs' = zcs := by
  cases e with
  | resolveReply start r interfaceIndex err hostName port txtLen txtRecord =>
    simp only [resolved, Option.ite_none_right_eq_some, Option.map_eq_some_iff, Prod.mk.injEq] at h
    obtain ⟨⟨hopen, herr⟩, x, hx, rfl, rfl⟩ := h
    rw [step, bonjour.whileOpen, if_pos hopen]
    have hconfined := (confinedTo_resolverCallback start interfaceIndex err hostName port txtLen txtRecord s).1
      (resolvesAt_of_live hx)
    refine ⟨hconfined.services, ?_, fun r' zcs' hlookup => ?_⟩
    · simp only [resolverCallback, hx, herr, ne_eq, not_true, if_false, andThen_fst, openAddress, emit_apply,
        update_apply, objects_cleanUpUnless]
      exact (congrFun (objects_closeAddress r _) x.zcs).trans (Function.update_self ..)
    · obtain ⟨x', hx', hopen'⟩ := Option.bind_eq_some_iff.mp hlookup
      by_cases hr : r' = r
      · subst hr
        obtain ⟨-, hzcs⟩ := Option.ite_none_right_eq_some.mp hopen'
        exact .inr ((Option.some.inj hzcs).symm.trans (hconfined.resolvesAt.object x' hx'))
      · rw [hconfined.live r' hr] at hx'
        exact .inl (Option.bind_eq_some_iff.mpr ⟨x', hx', hopen'⟩)
  | _ => cases h

theorem setResolved_m_txt {resolution : Resolution} {rdata : TxtRdata} (h : resolution.Carries rdata)
    (zcs : QZeroConfServiceData) :
    (setResolved resolution.hostName resolution.port resolution.txtLen resolution.txtRecord zcs).m_txt =
      insertAll txtKey txtValue rdata.strings zcs.m_txt := by
  have hlength : rdata.txtLen.toNat = (framing.frames rdata.strings).length := by
    rw [TxtRdata.txtLen, UInt16.toNat_ofNat']
    exact Nat.mod_eq_of_lt (Nat.lt_succ_of_le rdata.fits)
  have hread := readTxt_frames rdata.strings rdata.short zcs.m_txt hlength
  rw [setResolved, h.txtLen, h.txtRecord, TxtRdata.bytes, hread]

/-- A reply is exposed exactly when its record covers what the object had, and
    nothing else is listed for the service. -/
theorem exposes_iff {s : QZeroConfPrivate} {e : Event} {zcs : ServiceId} {resolution : Resolution}
    (h : resolved s e = some (zcs, resolution)) :
    Exposes (step s e).1 zcs resolution ↔
      (∀ rdata, resolution.Carries rdata →
        ∀ k ∈ (s.objects zcs).m_txt, ∃ text ∈ rdata.strings, txtKey text = k) ∧ ListedAs s zcs := by
  obtain ⟨hservices, hobject, -⟩ := resolved_step h
  have hkey : key ((step s e).1.objects zcs) = key (s.objects zcs) := by
    rw [hobject]
    rfl
  have hlisted : ListedAs (step s e).1 zcs ↔ ListedAs s zcs := by
    rw [ListedAs, ListedAs, hservices, hkey]
  have htxt (rdata : TxtRdata) (hcarries : resolution.Carries rdata) :
      ((step s e).1.objects zcs).m_txt = decoded rdata ↔
        ∀ k ∈ (s.objects zcs).m_txt, ∃ text ∈ rdata.strings, txtKey text = k := by
    rw [hobject, setResolved_m_txt hcarries, decoded]
    exact insertAll_eq_insertAll_empty_iff txtKey txtValue rdata.strings (s.objects zcs).m_txt
  constructor
  · rintro ⟨-, -, hm_txt, hown⟩
    exact ⟨fun rdata hcarries => (htxt rdata hcarries).mp (hm_txt rdata hcarries), hlisted.mp hown⟩
  · rintro ⟨hcovered, hown⟩
    refine ⟨?_, ?_, fun rdata hcarries => (htxt rdata hcarries).mpr (hcovered rdata hcarries), hlisted.mpr hown⟩
    · rw [hobject]
      rfl
    · rw [hobject]
      rfl

/-- Every object that a resolver looks an address up for is what is listed for
    its service. -/
def Registered (s : QZeroConfPrivate) : Prop := ∀ r zcs, lookup s r = some zcs → ListedAs s zcs

theorem lt_next_of_lookup {s : QZeroConfPrivate} (hs : Sound s) {r : ResolverId} {zcs : ServiceId}
    (h : lookup s r = some zcs) : zcs < s.next := by
  obtain ⟨x, hx, hopen⟩ := Option.bind_eq_some_iff.mp h
  obtain ⟨-, hzcs⟩ := Option.ite_none_right_eq_some.mp hopen
  exact Option.some.inj hzcs ▸ (hs.live r x hx).2.1

theorem key_step {s : QZeroConfPrivate} {e : Event} {zcs : ServiceId} (h : zcs < s.next) :
    key ((step s e).1.objects zcs) = key (s.objects zcs) :=
  key_eq_of_pairOf (pairOf_step s e h)

/-- An address that lists a service keeps the objects registered exactly when no
    resolver looks an address up for another one under the new key. -/
theorem registered_addressed_iff {s : QZeroConfPrivate} (hs : Sound s) (hregistered : Registered s) {e : Event}
    {zcs : ServiceId} {interfaceIndex : UInt32} (h : addressed s e = some (zcs, interfaceIndex)) :
    Registered (step s e).1 ↔ (addressKey s zcs interfaceIndex ∉ s.services →
      ∀ r zcs', lookup s r = some zcs' →
        key (s.objects zcs') = addressKey s zcs interfaceIndex → zcs' = zcs) := by
  obtain ⟨hAddress, hstep⟩ := addressed_step h
  have hlookup (r : ResolverId) : lookup (step s e).1 r = lookup s r := by
    rw [hstep, (listService_spec _ _ _).2]
    rfl
  have hkeys {r : ResolverId} {zcs' : ServiceId} (h : lookup s r = some zcs') :
      key ((step s e).1.objects zcs') = key (s.objects zcs') := key_step (lt_next_of_lookup hs h)
  by_cases hlisted : addressKey s zcs interfaceIndex ∈ s.services
  · refine iff_of_true (fun r zcs' hr => ?_) fun hnew => absurd hlisted hnew
    have hcontains : (s.setServiceIp zcs hAddress).services.contains (addressKey s zcs interfaceIndex) :=
      Std.ExtTreeMap.mem_iff_contains.mp hlisted
    have hservices : (step s e).1.services = s.services := by
      rw [hstep, listService, if_pos hcontains]
      rfl
    rw [hlookup] at hr
    rw [ListedAs, hservices, hkeys hr]
    exact hregistered r zcs' hr
  · have hcontains : ¬ (s.setServiceIp zcs hAddress).services.contains (addressKey s zcs interfaceIndex) :=
      fun hmem => hlisted (Std.ExtTreeMap.mem_iff_contains.mpr hmem)
    have hservices : (step s e).1.services = s.services.insert (addressKey s zcs interfaceIndex) zcs := by
      rw [hstep, listService, if_neg hcontains]
      rfl
    have hentry (k : QString) : (step s e).1.services[k]? =
        if addressKey s zcs interfaceIndex = k then some zcs else s.services[k]? := by
      rw [hservices, Std.ExtTreeMap.getElem?_insert]
      simp only [Std.compare_eq_iff_eq]
    constructor
    · intro hafter _ r zcs' hr hkey
      refine (hafter r zcs' (by rw [hlookup, hr]) zcs ?_).symm
      rw [hkeys hr, hentry, if_pos hkey.symm]
    · intro hothers r zcs' hr id hid
      rw [hlookup] at hr
      rw [hkeys hr, hentry] at hid
      split at hid
      · rename_i hkey
        exact (Option.some.inj hid).symm.trans (hothers hlisted r zcs' hr hkey.symm).symm
      · exact hregistered r zcs' hr id hid

/-- A step that neither resolves nor lists keeps the objects registered. -/
theorem registered_of_idle {s : QZeroConfPrivate} (hs : Sound s) (hregistered : Registered s) {e : Event}
    (hresolved : resolved s e = none) (haddressed : addressed s e = none) : Registered (step s e).1 := by
  intro r zcs hr id hid
  have hold := noLookup_step hresolved r zcs hr
  rw [key_step (lt_next_of_lookup hs hold)] at hid
  exact hregistered r zcs hold id ((listStep_step hs haddressed).listed hid)

theorem registered_of_resolved {s : QZeroConfPrivate} (hs : Sound s) (hregistered : Registered s) {e : Event}
    {zcs : ServiceId} {resolution : Resolution} (h : resolved s e = some (zcs, resolution))
    (hown : ListedAs s zcs) : Registered (step s e).1 := by
  obtain ⟨hservices, hobject, hlookup⟩ := resolved_step h
  intro r zcs' hr
  rw [ListedAs, hservices]
  rcases hlookup r zcs' hr with hold | rfl
  · rw [key_step (lt_next_of_lookup hs hold)]
    exact hregistered r zcs' hold
  · rw [hobject]
    exact hown

theorem addressed_of_resolved {s : QZeroConfPrivate} {e : Event} {zcs : ServiceId} {resolution : Resolution}
    (h : resolved s e = some (zcs, resolution)) : addressed s e = none := by
  cases e <;> first | rfl | cases h

/-- A step exposes its reply and keeps the objects registered exactly under its
    conditions. -/
theorem exposed_step_iff {s : QZeroConfPrivate} (hs : Sound s) (hregistered : Registered s) (e : Event) :
    ((∀ zcs resolution, resolved s e = some (zcs, resolution) → Exposes (step s e).1 zcs resolution) ∧
        Registered (step s e).1) ↔ RecordsCovered s e ∧ OneObject s e := by
  cases hresolved : resolved s e with
  | some reply =>
    obtain ⟨zcs, resolution⟩ := reply
    have haddressed := addressed_of_resolved hresolved
    have hexposes := exposes_iff hresolved
    constructor
    · rintro ⟨hreply, -⟩
      obtain ⟨hcovered, hown⟩ := hexposes.mp (hreply zcs resolution rfl)
      refine ⟨fun zcs' resolution' rdata h hcarries => ?_, fun zcs' resolution' h => ?_, fun _ _ h => ?_⟩
      · rw [hresolved] at h
        cases h
        exact hcovered rdata hcarries
      · rw [hresolved] at h
        cases h
        exact hown
      · rw [haddressed] at h
        cases h
    · rintro ⟨hcovered, hobject⟩
      have hown := hobject.resolving zcs resolution hresolved
      refine ⟨fun zcs' resolution' h => ?_, registered_of_resolved hs hregistered hresolved hown⟩
      cases h
      exact hexposes.mpr ⟨fun rdata => hcovered zcs resolution rdata hresolved, hown⟩
  | none =>
    have hreplies : ∀ zcs resolution, none = some (zcs, resolution) → Exposes (step s e).1 zcs resolution :=
      fun _ _ h => by cases h
    have hcovered : RecordsCovered s e := fun zcs resolution rdata h => by
      rw [hresolved] at h
      cases h
    have hresolving : ∀ zcs resolution, resolved s e = some (zcs, resolution) → ListedAs s zcs := fun _ _ h => by
      rw [hresolved] at h
      cases h
    rw [and_iff_right hreplies, and_iff_right hcovered]
    cases haddressed : addressed s e with
    | none =>
      refine iff_of_true (registered_of_idle hs hregistered hresolved haddressed) ⟨hresolving, fun _ _ h => ?_⟩
      rw [haddressed] at h
      cases h
    | some entry =>
      obtain ⟨zcs, interfaceIndex⟩ := entry
      rw [registered_addressed_iff hs hregistered haddressed]
      constructor
      · intro hothers
        refine ⟨hresolving, fun zcs' interfaceIndex' h => ?_⟩
        rw [haddressed] at h
        cases h
        exact hothers
      · exact fun hobject => hobject.listing zcs interfaceIndex haddressed

/-- In every run the latest resolutions are exposed exactly when every record
    covers the keys that its object already has, and no two resolvers with
    objects of their own come together under one key. -/
theorem latestExposed_iff (events : List Event) :
    LatestExposed events ↔ Along step (fun s e => RecordsCovered s e ∧ OneObject s e) {} events := by
  have hinitial : Registered {} := fun r zcs h => by cases h
  have hconditions := along_congr (I := fun s => Sound s ∧ Registered s)
    (fun s e hs h => ⟨sound_step s e hs.1, h.2⟩) (fun s e hs => exposed_step_iff hs.1 hs.2 e)
    ⟨sound_initial, hinitial⟩ events
  rw [← hconditions, ← along_and_throughout_iff hinitial events]
  exact ⟨fun h => ⟨h.replies, h.registered⟩, fun h => ⟨h.1, h.2⟩⟩

/-- "b=2". -/
def laterRecord : TxtRdata where
  strings := [[0x62, 0x3D, 0x32]]
  short := by decide
  fits := by decide

/-- A service whose TXT record is "a=1" and later "b=2". -/
def recordReplaced : List Event :=
  [.startBrowser .watched [] (tcpType 0x61) .IPv4Protocol,
    .browseReply .watched [] kDNSServiceFlagsAdd 2 kDNSServiceErr_NoError [0x70] reportedType reportedDomain,
    .resolveReply .watched 2 2 kDNSServiceErr_NoError [0x68] 80 4 [0x03, 0x61, 0x3D, 0x31],
    .resolveReply .watched 2 2 kDNSServiceErr_NoError [0x68] 80 laterRecord.txtLen laterRecord.bytes]

/-- The key "a" of the first record is still there after the second reply. -/
theorem earlier_key_left_over : ¬ LatestExposed recordReplaced := by
  rintro ⟨⟨-, -, -, hlast, -⟩, -⟩
  have hexposes := hlast 1 ⟨[0x68], 80, laterRecord.txtLen, laterRecord.bytes⟩ (by rfl)
  have hm_txt := hexposes.m_txt laterRecord ⟨rfl, rfl⟩
  have hleft : ((reached recordReplaced).objects 1).m_txt.contains [0x61] = true := by decide
  have hdecoded : (decoded laterRecord).contains [0x61] = false := by decide
  exact absurd (hleft.symm.trans ((congrArg (fun m : TxtMap => m.contains [0x61]) hm_txt).trans hdecoded)) (by decide)

end qtzeroconf.bonjour
