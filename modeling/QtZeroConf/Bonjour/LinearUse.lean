import QtZeroConf.Bonjour.References

open reactive reactive.Action linear

namespace qtzeroconf.bonjour

open QZeroConfPrivate

/-- An action that uses references linearly, whatever was done before. -/
def Keeps (spare : Option DNSServiceRef) (a : Action QZeroConfPrivate Output) : Prop :=
  ∀ history s, Tracked history spare s → Tracked (history ++ (a s).2.map .output) spare (a s).1

section Keeps

variable {spare : Option DNSServiceRef}

theorem keeps_skip : Keeps spare skip := fun history s h => by
  rw [skip_apply, List.map_nil, List.append_nil]
  exact h

/-- Linear use, one action after the other. -/
theorem Keeps.andThen {a b : Action QZeroConfPrivate Output} (ha : Keeps spare a) (hb : Keeps spare b) :
    Keeps spare (a.andThen b) := fun history s h => by
  rw [andThen_snd, List.map_append, ← List.append_assoc]
  exact hb _ _ (ha history s h)

/-- A loop whose turns use references linearly. -/
theorem keeps_forEach {ι : Type} {body : ι → Action QZeroConfPrivate Output} (hbody : ∀ i, Keeps spare (body i))
    (is : List ι) : Keeps spare (forEach body is) := by
  induction is with
  | nil => exact keeps_skip
  | cons i is ih => exact (hbody i).andThen ih

theorem keeps_emit (signal : Signal SharedService) : Keeps spare (emit (.signal signal)) :=
  fun _ _ h => h.signal signal

/-- Signals use no references. -/
theorem keeps_emits {α : Type} (signal : QZeroConfPrivate → α → Signal SharedService) (items : List α)
    (history : List Exchange) (s : QZeroConfPrivate) (h : Tracked history spare s) :
    Tracked (history ++ (items.map fun item => Output.signal (signal s item)).map .output) spare s := by
  induction items generalizing history with
  | nil => exact keeps_skip history s h
  | cons item items ih =>
    have hrest := ih _ (h.signal (signal s item))
    rwa [List.append_assoc] at hrest

/-- A change of the state that is not about references. -/
theorem keeps_update {f : QZeroConfPrivate → QZeroConfPrivate} (hdnssRef : ∀ s, (f s).dnssRef = s.dnssRef)
    (hbrowser : ∀ s, (f s).browser = s.browser) (hlive : ∀ s, (f s).live = s.live)
    (hnext : ∀ s, (f s).next = s.next) : Keeps spare (update f) := fun history s h => by
  rw [update_apply, List.map_nil, List.append_nil]
  refine h.of_same (held_congr (hdnssRef s) (hbrowser s) (hlive s)) (hnext s).ge fun r hr => ?_
  rw [hlive s]
  exact h.heap r ((hnext s).ge.trans hr)

/-- Both references of a resolver are released, and it is deleted. -/
theorem keeps_cleanUpResolver (r : ResolverId) : Keeps spare (Resolver.cleanUp r) := by
  intro history s h
  unfold Resolver.cleanUp
  cases hx : s.live r with
  | none => exact keeps_skip history s h
  | some x =>
    have hresolver : held s (.resolver r) = x.DNSresolverRef := by simp [held, resolverRef, hx]
    let s' := s.modifyResolver r fun x => { x with DNSresolverRef := none }
    have hlive : s'.live r = some { x with DNSresolverRef := none } := by simp [s', modifyResolver, hx]
    have haddress : held s' (.address r) = x.DNSaddressRef := by simp [held, addressRef, hlive]
    have hothers (r' : ResolverId) (hr : r' ≠ r) : s'.live r' = s.live r' := Function.update_of_ne hr ..
    have hfirst : Tracked (history ++ [.output (.DNSServiceRefDeallocate x.DNSresolverRef)]) spare s' := by
      rw [← hresolver]
      refine h.release (.resolver r) (held_of_resolver rfl rfl hothers ?_ ?_) le_rfl fun r' hr' => ?_
      · simp [addressRef, hlive, hx]
      · simp [resolverRef, hlive]
      · by_cases hr : r' = r
        · subst hr
          rw [h.heap r' hr'] at hx
          cases hx
        · rw [hothers r' hr]
          exact h.heap r' hr'
    have hsecond := hfirst.release (t := { s with
      resolvers := s.resolvers.erase (key (s.objects x.zcs))
      live := Function.update s.live r none }) (.address r)
      (held_of_address rfl rfl (fun r' hr => ?_) ?_ ?_) le_rfl fun r' hr' => ?_
    · rwa [haddress, List.append_assoc] at hsecond
    · rw [hothers r' hr]
      exact Function.update_of_ne hr ..
    · simp [resolverRef, hlive]
    · simp [addressRef]
    · by_cases hr : r' = r
      · subst hr
        exact Function.update_self ..
      · exact (Function.update_of_ne hr ..).trans (h.heap r' hr')

theorem keeps_cleanUpAt (k : QString) : Keeps spare (cleanUpAt k) := by
  intro history s h
  unfold cleanUpAt
  split
  · exact keeps_skip history s h
  · exact keeps_cleanUpResolver _ history s h

/-- A resolver whose socket cannot be watched gives back what it obtained. -/
theorem keeps_cleanUpUnless (start : Start) (r : ResolverId) : Keeps spare (cleanUpUnless start r) := by
  unfold cleanUpUnless
  split
  · exact keeps_skip
  · exact keeps_cleanUpResolver r

/-- A call that may return a reference, and what comes after it. -/
theorem tracked_call {history : List Exchange} {s : QZeroConfPrivate} {o : Output}
    {f : QZeroConfPrivate → QZeroConfPrivate} {rest : Action QZeroConfPrivate Output}
    (hcall : Tracked (history ++ [.output o]) spare (f s)) (hrest : Keeps spare rest) :
    Tracked (history ++ (((emit o).andThen ((update f).andThen rest)) s).2.map .output) spare
      (((emit o).andThen ((update f).andThen rest)) s).1 := by
  have hall := hrest _ _ hcall
  rwa [List.append_assoc] at hall

theorem live_newResolver_self (zcs : ServiceId) (s : QZeroConfPrivate) :
    (s.newResolver zcs).live s.next = some { zcs } := Function.update_self ..

/-- A new resolver has no references. -/
theorem Tracked.newResolver {history : List Exchange} {s : QZeroConfPrivate} (h : Tracked history spare s)
    (zcs : ServiceId) : Tracked history spare (s.newResolver zcs) := by
  have hnone : s.live s.next = none := h.heap s.next le_rfl
  have hself := live_newResolver_self zcs s
  refine h.of_same ?_ (Nat.le_succ _) fun r hr => ?_
  · have hupdate : held (s.newResolver zcs) = Function.update (held s) (.resolver s.next) none :=
      held_of_resolver rfl rfl (fun r hr => Function.update_of_ne hr ..) (by simp [addressRef, hself, hnone])
        (by simp [resolverRef, hself])
    rw [hupdate, Function.update_eq_self_iff]
    simp [held, resolverRef, hnone]
  · exact (Function.update_of_ne (Nat.ne_of_gt hr) ..).trans (h.heap r (Nat.le_of_succ_le hr))

/-- A resolver obtains its reference, and holds it or gives it back. -/
theorem keeps_resolve (start : Start) (zcs : ServiceId) : Keeps spare (resolve start zcs) := by
  intro history s h
  have hnew := h.newResolver zcs
  have hself := live_newResolver_self zcs s
  refine tracked_call (hnew.obtain (i := .resolver s.next) start ?_ rfl rfl ?_ rfl fun r hr => ?_)
    (keeps_cleanUpUnless start s.next)
  · simp [held, resolverRef, hself]
  · refine held_of_resolver rfl rfl (fun r hr => Function.update_of_ne hr ..) ?_ ?_
    · simp [addressRef, setResolverRef, modifyResolver, hself]
    · simp [resolverRef, setResolverRef, modifyResolver, hself]
  · have hr' : s.next + 1 ≤ r := Nat.le_of_succ_le hr
    exact (Function.update_of_ne (Nat.ne_of_gt hr') ..).trans (hnew.heap r hr')

/-- A lookup of a resolver's address ends. -/
theorem held_closeAddress {s : QZeroConfPrivate} {r : ResolverId} :
    held (closeAddress r s).1 = Function.update (held s) (.address r) none := by
  unfold closeAddress
  split
  · rename_i hnone
    exact (Function.update_eq_self_iff.mpr hnone.symm).symm
  · refine held_of_address rfl rfl (fun r' hr => Function.update_of_ne hr ..) ?_ ?_
    · cases hx : s.live r <;> simp [resolverRef, modifyResolver, hx]
    · cases hx : s.live r <;> simp [addressRef, modifyResolver, hx]

/-- A request for an address that is over gives back its reference. -/
theorem keeps_closeAddress (r : ResolverId) : Keeps spare (closeAddress r) := by
  intro history s h
  have hheld := held_closeAddress (s := s) (r := r)
  have hrelease := h.release (.address r) hheld
  unfold closeAddress at hheld hrelease ⊢
  split
  · exact keeps_skip history s h
  · rename_i ref href
    rw [href] at hrelease
    have href' : held s (.address r) = some ref := href
    rw [href'] at hrelease
    refine hrelease le_rfl fun r' hr' => ?_
    by_cases hr : r' = r
    · subst hr
      have hnone := h.heap r' hr'
      simp [hnone] at href
    · exact (Function.update_of_ne hr ..).trans (h.heap r' hr')

/-- The address of a resolver that looks none up is looked up. -/
theorem tracked_openAddress {history : List Exchange} {s : QZeroConfPrivate} (h : Tracked history spare s)
    (start : Start) (interfaceIndex : UInt32) (hostName : CString) {r : ResolverId} (hlive : (s.live r).isSome)
    (hempty : addressRef r s = none) :
    Tracked (history ++ (openAddress start interfaceIndex hostName r s).2.map .output) spare
      (openAddress start interfaceIndex hostName r s).1 := by
  obtain ⟨x, hx⟩ := Option.isSome_iff_exists.mp hlive
  refine tracked_call (h.obtain (i := .address r) start hempty rfl rfl ?_ rfl fun r' hr' => ?_)
    (keeps_cleanUpUnless start r)
  · refine held_of_address rfl rfl (fun r' hr => Function.update_of_ne hr ..) ?_ ?_
    · simp [resolverRef, setAddressRef, modifyResolver, hx]
    · simp [addressRef, setAddressRef, modifyResolver, hx]
  · have hnone := h.heap r' (Nat.le_of_succ_le hr')
    by_cases hr : r' = r
    · subst hr
      rw [hnone] at hx
      cases hx
    · exact (Function.update_of_ne hr ..).trans hnone

/-- A service object is written to. -/
theorem keeps_modifyService (zcs : ServiceId) (f : QZeroConfServiceData → QZeroConfServiceData) :
    Keeps spare (update (modifyService zcs f)) :=
  keeps_update (fun _ => rfl) (fun _ => rfl) (fun _ => rfl) fun _ => rfl

theorem isSome_live_closeAddress (r : ResolverId) (s : QZeroConfPrivate) :
    ((closeAddress r s).1.live r).isSome = (s.live r).isSome := by
  unfold closeAddress
  split
  · rfl
  · simp [modifyResolver]

/-- A resolve reply uses the reference of its own resolver. -/
theorem keeps_resolverCallback (start : Start) (r : ResolverId) (interfaceIndex : UInt32) (err : Int32)
    (hostName : CString) (port txtLen : UInt16) (txtRecord : QByteArray) :
    Keeps spare (resolverCallback start r interfaceIndex err hostName port txtLen txtRecord) := by
  intro history s h
  unfold resolverCallback
  split
  · exact keeps_skip history s h
  · rename_i x hx
    split
    · exact keeps_cleanUpResolver r history s h
    · have hwritten := keeps_modifyService x.zcs (setResolved hostName port txtLen txtRecord) history s h
      have hclosed := keeps_closeAddress r _ _ hwritten
      have hopened := tracked_openAddress (r := r) hclosed start interfaceIndex hostName ?_ ?_
      · rwa [List.append_assoc, List.append_assoc, ← List.map_append, ← List.map_append] at hopened
      · rw [isSome_live_closeAddress]
        exact Option.isSome_iff_exists.mpr ⟨x, hx⟩
      · exact (congrFun held_closeAddress (.address r)).trans (Function.update_self ..)

theorem keeps_listService (zcs : ServiceId) (k : QString) : Keeps spare (listService zcs k) := by
  intro history s h
  unfold listService
  split
  · exact h.signal _
  · exact (h.signal _).of_same (held_congr rfl rfl rfl) le_rfl h.heap

/-- An address keeps the reference, and an error gives it back. -/
theorem keeps_addressReply (r : ResolverId) (flags interfaceIndex : UInt32) (err : Int32)
    (hAddress : QHostAddress) : Keeps spare (addressReply r flags interfaceIndex err hAddress) := by
  intro history s h
  unfold addressReply
  split
  · exact keeps_skip history s h
  · rename_i x hx
    split
    · split
      · have hwritten := keeps_modifyService x.zcs (fun service => service.setIp hAddress) history s h
        rw [update_apply, List.map_nil, List.append_nil] at hwritten
        exact keeps_listService _ _ _ _ hwritten
      · exact keeps_skip history s h
    · exact keeps_cleanUpResolver r history s h

theorem keeps_removeService (k : QString) (zcs : ServiceId) : Keeps spare (removeService k zcs) := by
  have herase : Keeps spare (update fun s => { s with services := s.services.erase k }) :=
    keeps_update (fun _ => rfl) (fun _ => rfl) (fun _ => rfl) fun _ => rfl
  exact herase.andThen ((keeps_cleanUpAt k).andThen fun _ _ h => h.signal _)

/-- The end of browsing, once the reference is taken out of the instance. -/
theorem keeps_cleanUpRest (visit : List QString) :
    Keeps spare ((forEach cleanUpAt visit).andThen
      ((update fun s => { s with resolvers := ∅ }).andThen fun s =>
        ({ s with services := ∅ },
          s.services.toList.map fun entry => .signal (.serviceRemoved (shared s entry.2))))) := by
  have hclear : Keeps spare (update fun s => { s with resolvers := ∅ }) :=
    keeps_update (fun _ => rfl) (fun _ => rfl) (fun _ => rfl) fun _ => rfl
  refine (keeps_forEach keeps_cleanUpAt visit).andThen (hclear.andThen fun history s h => ?_)
  have hemits := keeps_emits (fun s entry => .serviceRemoved (shared s entry.2)) s.services.toList history s h
  exact hemits.of_same (held_congr rfl rfl rfl) le_rfl h.heap

end Keeps

/-- `cleanUp(browser)`. -/
theorem keeps_stopBrowser (visit : List QString) : Keeps none (stopBrowser visit) := by
  intro history s h
  unfold stopBrowser cleanUp
  cases hbrowser : s.browser with
  | none => exact keeps_skip history s h
  | some ref =>
    simp only [if_true]
    have htaken := h.take (t := { s with browser := none }) .browser (held_of_browser rfl rfl rfl) le_rfl h.heap
    have hrest := (keeps_cleanUpRest visit _ _ htaken).releaseSpare
    have hheld : held s .browser = some ref := hbrowser
    rw [hheld, List.append_assoc] at hrest
    simpa [cleanUpBrowser] using hrest

/-- `cleanUp(dnssRef)`. -/
theorem keeps_stopServicePublish : Keeps none stopServicePublish := by
  intro history s h
  unfold stopServicePublish cleanUp
  cases hdnssRef : s.dnssRef with
  | none => exact keeps_skip history s h
  | some ref =>
    simp only [if_neg (h.apart hdnssRef), if_true]
    have hrelease := h.release (t := { s with dnssRef := none }) .dnssRef (held_of_dnssRef rfl rfl rfl) le_rfl h.heap
    have hheld : held s .dnssRef = some ref := hdnssRef
    rwa [hheld] at hrelease

theorem keeps_registerError : Keeps none registerError :=
  keeps_stopServicePublish.andThen (keeps_emit (.error .serviceRegistrationFailed))

theorem keeps_browserError (visit : List QString) : Keeps none (browserError visit) :=
  (keeps_stopBrowser visit).andThen (keeps_emit (.error .browserFailed))

/-- A failed registration gives back its reference. -/
theorem keeps_registerCallback (errorCode : Int32) : Keeps none (registerCallback errorCode) := by
  unfold registerCallback
  split
  · exact keeps_emit .servicePublished
  · exact keeps_registerError

/-- A registration obtains a reference only where it holds none. -/
theorem keeps_startServicePublish (start : Start) (name type : CString) (domain : Option CString) (port : UInt16)
    (interface : UInt32) : Keeps none (startServicePublish start name type domain port interface) := by
  intro history s h
  unfold startServicePublish
  split
  · exact h.signal _
  · rename_i hnone
    have hempty : held s .dnssRef = none := Option.not_isSome_iff_eq_none.mp hnone
    refine tracked_call (h.obtain start hempty rfl rfl (held_of_dnssRef rfl rfl rfl) rfl fun r hr => ?_) ?_
    · exact h.heap r (Nat.le_of_succ_le hr)
    · split
      · exact keeps_skip
      · exact keeps_registerError

/-- A browser obtains a reference only where it holds none. -/
theorem keeps_startBrowser (start : Start) (visit : List QString) (type : QString)
    (protocol : NetworkLayerProtocol) : Keeps none (startBrowser start visit type protocol) := by
  intro history s h
  unfold startBrowser
  split
  · exact h.signal _
  · rename_i hnone
    have hempty : held s .browser = none := Option.not_isSome_iff_eq_none.mp hnone
    refine tracked_call (h.obtain start hempty rfl rfl (held_of_browser rfl rfl rfl) rfl fun r hr => ?_) ?_
    · exact h.heap r (Nat.le_of_succ_le hr)
    · split
      · exact keeps_skip
      · exact keeps_browserError visit

/-- A browse reply obtains and gives back references of resolvers, or of the
    browser. -/
theorem keeps_browseCallback (start : Start) (visit : List QString) (flags interfaceIndex : UInt32) (err : Int32)
    (name type domain : CString) :
    Keeps none (browseCallback start visit flags interfaceIndex err name type domain) := by
  intro history s h
  simp only [browseCallback]
  split
  · split
    · split
      · exact keeps_skip history s h
      · have hservice : Tracked history none (s.newService (foundService interfaceIndex name type domain)) :=
          h.of_same (held_congr rfl rfl rfl) (Nat.le_succ _) fun r hr => h.heap r (Nat.le_of_succ_le hr)
        exact keeps_resolve start s.next _ _ hservice
    · split
      · exact keeps_skip history s h
      · exact keeps_removeService _ _ history s h
  · exact keeps_browserError visit history s h

/-- `QZeroConf::~QZeroConf`. -/
def destruct (visit : List QString) : Action QZeroConfPrivate Output :=
  stopServicePublish.andThen (stopBrowser visit)

theorem keeps_destruct (visit : List QString) : Keeps none (destruct visit) :=
  keeps_stopServicePublish.andThen (keeps_stopBrowser visit)

section Frame

/-- The registration and the browser stay as they are. -/
def SameTop (s t : QZeroConfPrivate) : Prop := t.dnssRef = s.dnssRef ∧ t.browser = s.browser

/-- Resolvers come and go without the two references at the top. -/
theorem deletes_sameTop : Deletes SameTop fun _ => True where
  refl _ := ⟨rfl, rfl⟩
  trans _ _ _ hst htu := ⟨htu.1.trans hst.1, htu.2.trans hst.2⟩
  resolver r s := by
    refine ⟨?_, fun _ _ => trivial⟩
    unfold Resolver.cleanUp
    split <;> exact ⟨rfl, rfl⟩

theorem sameTop_resolve (start : Start) (zcs : ServiceId) (s : QZeroConfPrivate) :
    SameTop s (resolve start zcs s).1 :=
  (deletes_sameTop.cleanUpUnless start s.next (setResolverRef start s.next (s.newResolver zcs))).1

theorem sameTop_resolverCallback (start : Start) (r : ResolverId) (interfaceIndex : UInt32) (err : Int32)
    (hostName : CString) (port txtLen : UInt16) (txtRecord : QByteArray) (s : QZeroConfPrivate) :
    SameTop s (resolverCallback start r interfaceIndex err hostName port txtLen txtRecord s).1 := by
  unfold resolverCallback
  split
  · exact deletes_sameTop.refl s
  · split
    · exact (deletes_sameTop.resolver r s).1
    · refine deletes_sameTop.trans _ _ _ ?_ (deletes_sameTop.cleanUpUnless start r _).1
      simp only [closeAddress]
      split <;> exact ⟨rfl, rfl⟩

theorem sameTop_addressReply (r : ResolverId) (flags interfaceIndex : UInt32) (err : Int32)
    (hAddress : QHostAddress) (s : QZeroConfPrivate) :
    SameTop s (addressReply r flags interfaceIndex err hAddress s).1 := by
  unfold addressReply
  split
  · exact deletes_sameTop.refl s
  · split
    · split
      · simp only [listService]
        split <;> exact ⟨rfl, rfl⟩
      · exact deletes_sameTop.refl s
    · exact (deletes_sameTop.resolver r s).1

/-- The loop over the resolvers, after which the tables are cleared. -/
theorem cleanUpBrowser_top (visit : List QString) (s : QZeroConfPrivate) :
    (cleanUpBrowser visit s).1.dnssRef = s.dnssRef ∧ (cleanUpBrowser visit s).1.browser = none :=
  (within_forEach deletes_sameTop.refl deletes_sameTop.trans deletes_sameTop.cleanUpAt visit
    { s with browser := none }).1

/-- The end of browsing leaves the registration, and no browser. -/
theorem stopBrowser_top (visit : List QString) (s : QZeroConfPrivate) :
    (stopBrowser visit s).1.dnssRef = s.dnssRef ∧ (stopBrowser visit s).1.browser = none := by
  unfold stopBrowser cleanUp
  cases hbrowser : s.browser with
  | none => exact ⟨rfl, hbrowser⟩
  | some ref =>
    simp only [if_true]
    exact cleanUpBrowser_top visit s

/-- Browsing leaves the registration alone. -/
theorem dnssRef_startBrowser (start : Start) (visit : List QString) (type : QString)
    (protocol : NetworkLayerProtocol) (s : QZeroConfPrivate) :
    (startBrowser start visit type protocol s).1.dnssRef = s.dnssRef := by
  unfold startBrowser
  split
  · rfl
  · split
    · rfl
    · exact (stopBrowser_top visit _).1

theorem dnssRef_browseCallback (start : Start) (visit : List QString) (flags interfaceIndex : UInt32) (err : Int32)
    (name type domain : CString) (s : QZeroConfPrivate) :
    (browseCallback start visit flags interfaceIndex err name type domain s).1.dnssRef = s.dnssRef := by
  simp only [browseCallback]
  split
  · split
    · split
      · rfl
      · exact (sameTop_resolve start s.next _).1
    · split
      · rfl
      · exact (deletes_sameTop.cleanUpAt _ _).1.1
  · exact (stopBrowser_top visit s).1

/-- The end of a registration leaves the browser, which has another reference. -/
theorem stopServicePublish_top {s : QZeroConfPrivate} (hapart : ∀ ref, s.dnssRef = some ref → s.browser ≠ some ref) :
    (stopServicePublish s).1.browser = s.browser ∧ (stopServicePublish s).1.dnssRef = none := by
  unfold stopServicePublish cleanUp
  cases hdnssRef : s.dnssRef with
  | none => exact ⟨rfl, hdnssRef⟩
  | some ref =>
    simp only [if_neg (hapart ref hdnssRef), if_true]
    exact ⟨rfl, rfl⟩

/-- Publishing leaves the browser alone. -/
theorem browser_startServicePublish {history : List Exchange} {s : QZeroConfPrivate} (h : Tracked history none s)
    (start : Start) (name type : CString) (domain : Option CString) (port : UInt16) (interface : UInt32) :
    (startServicePublish start name type domain port interface s).1.browser = s.browser := by
  unfold startServicePublish
  split
  · rfl
  · split
    · rfl
    · refine (stopServicePublish_top (s := s.setDnssRef start) fun ref href hbrowser => ?_).1
      have hold : ref < s.next := h.issued .DNSServiceBrowse ref (h.source .browser ref hbrowser)
      exact hold.ne (newRef_eq_some href)

end Frame

end qtzeroconf.bonjour
