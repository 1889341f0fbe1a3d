import QtZeroConf.Bonjour.Backend

open reactive reactive.Action

namespace qtzeroconf.bonjour

open QZeroConfPrivate

/-- An output that reports no service as present. -/
def Quiet : Output → Prop
  | .signal (.serviceAdded _) | .signal (.serviceUpdated _) => False
  | _ => True

section Rules

variable {R : QZeroConfPrivate → QZeroConfPrivate → Prop} {Q : Output → Prop}

/-- A relation between states that the end of a resolver keeps to. -/
structure Deletes (R : QZeroConfPrivate → QZeroConfPrivate → Prop) (Q : Output → Prop) : Prop where
  refl : ∀ s, R s s
  trans : ∀ s t u, R s t → R t u → R s u
  resolver : ∀ r, Within R Q (Resolver.cleanUp r)

/-- A relation between states that everything which opens or closes the browser
    or the registration, and takes services off the list, keeps to. -/
structure Closes (R : QZeroConfPrivate → QZeroConfPrivate → Prop) (Q : Output → Prop) : Prop
    extends Deletes R Q where
  closeBrowser : ∀ s, R s { s with browser := none }
  closeDnssRef : ∀ s, R s { s with dnssRef := none }
  clearResolvers : ∀ s, R s { s with resolvers := ∅ }
  clearServices : ∀ s, R s { s with services := ∅ }
  eraseService : ∀ (k : QString) s, R s { s with services := s.services.erase k }
  setDnssRef : ∀ start s, R s (s.setDnssRef start)
  setBrowser : ∀ start protocol s, R s (s.setBrowser start protocol)
  quiet : ∀ o, Quiet o → Q o

/-- Two actions one after the other. -/
theorem Deletes.andThen (h : Deletes R Q) {a b : Action QZeroConfPrivate Output} (ha : Within R Q a)
    (hb : Within R Q b) : Within R Q (a.andThen b) :=
  within_andThen h.trans ha hb

theorem Deletes.skip (h : Deletes R Q) : Within R Q skip := within_skip h.refl

/-- The end of the resolver under a key, if there is one. -/
theorem Deletes.cleanUpAt (h : Deletes R Q) (k : QString) : Within R Q (cleanUpAt k) := by
  intro s
  unfold bonjour.cleanUpAt
  split
  · exact h.skip s
  · exact h.resolver _ s

/-- The end of a resolver whose socket could not be watched. -/
theorem Deletes.cleanUpUnless (h : Deletes R Q) (start : Start) (r : ResolverId) :
    Within R Q (cleanUpUnless start r) := by
  unfold bonjour.cleanUpUnless
  split
  · exact h.skip
  · exact h.resolver r

/-- A callback for a reference is an action like any other, or nothing at all. -/
theorem Deletes.whileOpen (h : Deletes R Q) {a : Action QZeroConfPrivate Output} (ha : Within R Q a)
    (ref : QZeroConfPrivate → Option DNSServiceRef) : Within R Q (whileOpen ref a) := by
  intro s
  unfold bonjour.whileOpen
  split
  · exact ha s
  · exact h.skip s

/-- A signal that reports no service as present changes nothing. -/
theorem Closes.emit (h : Closes R Q) {o : Output} (ho : Quiet o) : Within R Q (emit o) :=
  within_emit h.refl (h.quiet o ho)

/-- The loops over the resolvers and the services, whatever the first visits. -/
theorem Closes.cleanUpBrowser (h : Closes R Q) (visit : List QString) :
    Within R Q (cleanUpBrowser visit) := by
  have hloop : Within R Q (forEach bonjour.cleanUpAt visit) :=
    within_forEach h.refl h.trans h.cleanUpAt visit
  refine h.andThen (within_update h.closeBrowser) (h.andThen hloop ?_)
  refine h.andThen (within_update h.clearResolvers) fun s => ⟨h.clearServices s, fun o ho => ?_⟩
  obtain ⟨entry, -, rfl⟩ := List.mem_map.mp ho
  exact h.quiet _ trivial

/-- Whichever of the two references is cleaned up. -/
theorem Closes.cleanUp (h : Closes R Q) (visit : List QString) (toClean : Option DNSServiceRef) :
    Within R Q (cleanUp visit toClean) := by
  intro s
  unfold bonjour.cleanUp
  split
  · exact h.skip s
  · refine h.andThen ?_ (h.emit (by trivial)) s
    split
    · exact h.cleanUpBrowser visit
    · split
      · exact within_update h.closeDnssRef
      · exact h.skip

theorem Closes.browserError (h : Closes R Q) (visit : List QString) : Within R Q (browserError visit) :=
  fun s => h.andThen (h.cleanUp visit s.browser) (h.emit (by trivial)) s

theorem Closes.registerError (h : Closes R Q) : Within R Q registerError :=
  fun s => h.andThen (h.cleanUp [] s.dnssRef) (h.emit (by trivial)) s

theorem Closes.registerCallback (h : Closes R Q) (errorCode : Int32) : Within R Q (registerCallback errorCode) := by
  unfold bonjour.registerCallback
  split
  · exact h.emit (by trivial)
  · exact h.registerError

/-- A registration, whether it is started, refused or fails at once. -/
theorem Closes.startServicePublish (h : Closes R Q) (start : Start) (name type : CString)
    (domain : Option CString) (port : UInt16) (interface : UInt32) :
    Within R Q (startServicePublish start name type domain port interface) := by
  intro s
  unfold bonjour.startServicePublish
  split
  · exact h.emit (by trivial) s
  · refine h.andThen (h.emit (by trivial)) (h.andThen (within_update (h.setDnssRef start)) ?_) s
    split
    · exact h.skip
    · exact h.registerError

/-- A browser, whether it is started, refused or fails at once. -/
theorem Closes.startBrowser (h : Closes R Q) (start : Start) (visit : List QString) (type : QString)
    (protocol : NetworkLayerProtocol) : Within R Q (startBrowser start visit type protocol) := by
  intro s
  unfold bonjour.startBrowser
  split
  · exact h.emit (by trivial) s
  · refine h.andThen (h.emit (by trivial))
      (h.andThen (within_update (h.setBrowser start (browserProtocol protocol))) ?_) s
    split
    · exact h.skip
    · exact h.browserError visit

/-- A service goes, and its resolver with it. -/
theorem Closes.removeService (h : Closes R Q) (k : QString) (zcs : ServiceId) :
    Within R Q (removeService k zcs) :=
  h.andThen (within_update (h.eraseService k))
    (h.andThen (h.cleanUpAt k) fun s => ⟨h.refl s, fun o ho => by
      rw [List.mem_singleton.mp ho]
      exact h.quiet _ trivial⟩)

end Rules

end qtzeroconf.bonjour
