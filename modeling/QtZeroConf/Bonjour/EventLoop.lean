import QtZeroConf.Bonjour.LinearUse

open reactive reactive.Action linear

namespace qtzeroconf.bonjour

open QZeroConfPrivate

/-- `QZeroConf::publishExists`. -/
def publishExists (s : QZeroConfPrivate) : Bool := s.dnssRef.isSome

/-- `QZeroConf::browserExists`. -/
def browserExists (s : QZeroConfPrivate) : Bool := s.browser.isSome

/-- The calls of the API. -/
def Event.isCall : Event → Bool
  | .addServiceTxtRecord _ | .addServiceTxtRecordPair _ _ | .clearServiceTxtRecords
  | .startServicePublish _ _ _ _ _ _ | .stopServicePublish | .startBrowser _ _ _ _ | .stopBrowser _ => true
  | _ => false

/-- The callbacks of dns_sd, with the reference that each is for. -/
def Event.callback? : Event → Option (Holder × Action QZeroConfPrivate Output)
  | .registerReply errorCode => some (.dnssRef, registerCallback errorCode)
  | .browseReply start visit flags interfaceIndex err name type domain =>
    some (.browser, browseCallback start visit flags interfaceIndex err name type domain)
  | .resolveReply start r interfaceIndex err hostName port txtLen txtRecord =>
    some (.resolver r, resolverCallback start r interfaceIndex err hostName port txtLen txtRecord)
  | .addressReply r flags interfaceIndex err hAddress =>
    some (.address r, bonjour.addressReply r flags interfaceIndex err hAddress)
  | _ => none

/-- What `bsRead`, `browserRead`, `resolverReady` and `addressReady` do when
    `DNSServiceProcessResult` has failed. -/
def readFailure (visit : List QString) : Holder → Action QZeroConfPrivate Output
  | .dnssRef => registerError
  | .browser => browserError visit
  | .resolver r | .address r => Resolver.cleanUp r

/-- The signals whose slots may call the API. They are the last thing that the
    functions which emit them do. -/
def Output.callsSlots : Output → Bool
  | .signal .servicePublished | .signal (.error _) => true
  | _ => false

/-- An instance in its thread: the reference in `DNSServiceProcessResult`, with
    the place that it was taken from, and how many emissions are in their slots.
    `refs` is what dns_sd knows of the references. -/
structure Control where
  pri : QZeroConfPrivate := {}
  refs : Books DNSServiceRef := unused
  processing : Option (Holder × DNSServiceRef) := none
  slots : Nat := 0

/-- What can happen next: a call of the API, a notifier that fires, and what goes
    on inside `DNSServiceProcessResult` and inside the slots of a signal until
    they return. -/
inductive LoopEvent where
  | call (e : Event)
  | activated (i : Holder)
  | reply (e : Event)
  | processResult (err : Int32) (visit : List QString)
  | slotReturns

/-- A function of the instance runs. -/
def runs (a : Action QZeroConfPrivate Output) : Action Control Exchange := fun c =>
  let exchanges := (a c.pri).2.map .output
  ({ c with
      pri := (a c.pri).1
      refs := applyAll c.refs (usesOf exchanges)
      slots := c.slots + (a c.pri).2.countP Output.callsSlots },
    exchanges)

/-- What `DNSServiceProcessResult` returns: no error once its reference was
    deallocated inside a callback. -/
def processResult (err : Int32) (ref : DNSServiceRef) (c : Control) : Int32 :=
  if c.refs ref = .live then err else kDNSServiceErr_NoError

/-- The thread, event by event. The program calls the API while nothing else is
    at work, or from a slot; dns_sd calls back while it processes a reference
    that lives. -/
def loop : Step Control LoopEvent Exchange
  | c, .call e =>
    if e.isCall ∧ (0 < c.slots ∨ c.processing = none) then runs (step · e) c else (c, [])
  | c, .activated i =>
    if c.slots = 0 ∧ c.processing = none then
      match held c.pri i with
      | none => (c, [])
      | some ref => ({ c with processing := some (i, ref) }, [.DNSServiceProcessResult ref])
    else (c, [])
  | c, .reply e =>
    match c.processing, e.callback? with
    | some (i, ref), some (j, callback) =>
      if c.slots = 0 ∧ i = j ∧ c.refs ref = .live then runs callback c else (c, [])
    | _, _ => (c, [])
  | c, .processResult err visit =>
    match c.processing with
    | none => (c, [])
    | some (i, ref) =>
      if c.slots = 0 then
        if processResult err ref c = kDNSServiceErr_NoError then ({ c with processing := none }, [])
        else runs (readFailure visit i) { c with processing := none }
      else (c, [])
  | c, .slotReturns => ({ c with slots := c.slots - 1 }, [])

/-- A reference of the kind lives. -/
def Live (history : List Exchange) (source : Source) (ref : DNSServiceRef) : Prop :=
  Obtained history source ref ∧ booksOf history ref = .live

/-- The reference that a call of the API is about. -/
def Event.top? : Event → Option Holder
  | .startServicePublish _ _ _ _ _ _ | .stopServicePublish => some .dnssRef
  | .startBrowser _ _ _ _ | .stopBrowser _ => some .browser
  | _ => none

/-- The reference that an event is about. -/
def subject? (c : Control) : LoopEvent → Option Holder
  | .call e => e.top?
  | .reply _ | .processResult _ _ => c.processing.map Prod.fst
  | .activated _ | .slotReturns => none

/-- What is about one reference leaves the other one of the top level. -/
structure Leaves (i : Option Holder) (s t : QZeroConfPrivate) : Prop where
  dnssRef : i ≠ some .dnssRef → t.dnssRef = s.dnssRef
  browser : i ≠ some .browser → t.browser = s.browser

/-- A failure to process a reference that the instance has replaced does nothing. -/
def SparesNew (c : Control) (e : LoopEvent) : Prop :=
  ∀ err visit i ref, e = .processResult err visit → c.processing = some (i, ref) → i = .dnssRef ∨ i = .browser →
    held c.pri i ≠ some ref → (loop c e).1.pri = c.pri ∧ (loop c e).2 = []

/-- The states of the thread. -/
def reachedBy (events : List LoopEvent) : Control := after loop {} events

/-- Everything between an instance and dns_sd. -/
def exchanges (events : List LoopEvent) : List Exchange := trace loop {} events

/-- The references of a run are used linearly, and the top-level ones that live
    are those of the instance. -/
structure ReferencesLinear (events : List LoopEvent) : Prop where
  linear : Linear unused (usesOf (exchanges events))
  once : ∀ source ref, Obtained (exchanges events) source ref →
    (usesOf (exchanges events)).count (.acquire ref) = 1 ∧
      (booksOf (exchanges events) ref = .live ∧ (usesOf (exchanges events)).count (.release (some ref)) = 0 ∨
        booksOf (exchanges events) ref = .gone ∧ (usesOf (exchanges events)).count (.release (some ref)) = 1)
  registration : ∀ ref, Live (exchanges events) .DNSServiceRegister ref ↔
    (reachedBy events).pri.dnssRef = some ref
  browsing : ∀ ref, Live (exchanges events) .DNSServiceBrowse ref ↔ (reachedBy events).pri.browser = some ref
  publishExists : publishExists (reachedBy events).pri ↔ ∃ ref, Live (exchanges events) .DNSServiceRegister ref
  browserExists : browserExists (reachedBy events).pri ↔ ∃ ref, Live (exchanges events) .DNSServiceBrowse ref
  apart : Along loop (fun c e => Leaves (subject? c e) c.pri (loop c e).1.pri) {} events
  sparesNew : Along loop SparesNew {} events
  destroyed : ∀ visit source ref, source = .DNSServiceRegister ∨ source = .DNSServiceBrowse →
    Obtained (exchanges events) source ref →
      (usesOf (exchanges events ++ (destruct visit (reachedBy events).pri).2.map .output)).count
        (.release (some ref)) = 1

/-- The references have been used linearly so far, dns_sd knows which of them
    live, and the one that is processed was obtained. -/
structure Control.Sound (history : List Exchange) (c : Control) : Prop where
  tracked : Tracked history none c.pri
  refs : c.refs = booksOf history
  processing : ∀ i ref, c.processing = some (i, ref) → Obtained history i.source ref

/-- What was obtained once was obtained, whatever follows. -/
theorem obtained_append_left {history : List Exchange} {source : Source} {ref : DNSServiceRef}
    (h : Obtained history source ref) (history' : List Exchange) : Obtained (history ++ history') source ref := by
  obtain ⟨x, hx, hobtains⟩ := h
  exact ⟨x, List.mem_append_left _ hx, hobtains⟩

/-- A call uses references linearly. -/
theorem keeps_call {e : Event} (hcall : e.isCall) : Keeps none (step · e) := by
  cases e with
  | addServiceTxtRecord nameOnly =>
    exact keeps_update (fun _ => rfl) (fun _ => rfl) (fun _ => rfl) fun _ => rfl
  | addServiceTxtRecordPair name value =>
    exact keeps_update (fun _ => rfl) (fun _ => rfl) (fun _ => rfl) fun _ => rfl
  | clearServiceTxtRecords =>
    exact keeps_update (fun _ => rfl) (fun _ => rfl) (fun _ => rfl) fun _ => rfl
  | startServicePublish start name type domain port interface =>
    exact keeps_startServicePublish start name type domain port interface
  | stopServicePublish => exact keeps_stopServicePublish
  | startBrowser start visit type protocol => exact keeps_startBrowser start visit type protocol
  | stopBrowser visit => exact keeps_stopBrowser visit
  | _ => exact absurd hcall Bool.false_ne_true

/-- A callback uses references linearly, whatever the reply. -/
theorem keeps_callback {e : Event} {i : Holder} {a : Action QZeroConfPrivate Output}
    (h : e.callback? = some (i, a)) : Keeps none a := by
  cases e with
  | registerReply errorCode =>
    cases h
    exact keeps_registerCallback errorCode
  | browseReply start visit flags interfaceIndex err name type domain =>
    cases h
    exact keeps_browseCallback start visit flags interfaceIndex err name type domain
  | resolveReply start r interfaceIndex err hostName port txtLen txtRecord =>
    cases h
    exact keeps_resolverCallback start r interfaceIndex err hostName port txtLen txtRecord
  | addressReply r flags interfaceIndex err hAddress =>
    cases h
    exact keeps_addressReply r flags interfaceIndex err hAddress
  | _ => cases h

theorem keeps_readFailure (visit : List QString) (i : Holder) : Keeps none (readFailure visit i) := by
  cases i with
  | dnssRef => exact keeps_registerError
  | browser => exact keeps_browserError visit
  | resolver r => exact keeps_cleanUpResolver r
  | address r => exact keeps_cleanUpResolver r

/-- What runs goes on with the history. -/
theorem Control.Sound.runs {history : List Exchange} {c : Control} (h : c.Sound history)
    {a : Action QZeroConfPrivate Output} (ha : Keeps none a) :
    (runs a c).1.Sound (history ++ (runs a c).2) where
  tracked := ha history c.pri h.tracked
  refs := by
    rw [booksOf, usesOf_append, applyAll_append]
    exact congrArg (applyAll · _) h.refs
  processing i ref href := obtained_append_left (h.processing i ref href) _

/-- What was processed is given back. -/
theorem Control.Sound.returned {history : List Exchange} {c : Control} (h : c.Sound history) :
    Control.Sound history { c with processing := none } :=
  ⟨h.tracked, h.refs, fun _ _ hnone => by cases hnone⟩

theorem Control.Sound.skip {history : List Exchange} {c : Control} (h : c.Sound history) :
    c.Sound (history ++ []) := by
  rwa [List.append_nil]

/-- Every step of the thread uses references linearly. -/
theorem soundControl_loop {history : List Exchange} {c : Control} (h : c.Sound history) (e : LoopEvent) :
    (loop c e).1.Sound (history ++ (loop c e).2) := by
  cases e with
  | call e =>
    simp only [loop]
    split
    · rename_i hcall
      exact h.runs (keeps_call hcall.1)
    · exact h.skip
  | activated i =>
    simp only [loop]
    split
    · split
      · exact h.skip
      · rename_i ref href
        have hobtained := h.tracked.source i ref href
        refine ⟨h.tracked.process href, ?_, fun j ref' hj => ?_⟩
        · rw [booksOf_snoc]
          exact h.refs
        · cases hj
          exact obtained_append_left hobtained _
    · exact h.skip
  | reply e =>
    simp only [loop]
    split
    · rename_i hcallback
      split
      · exact h.runs (keeps_callback hcallback)
      · exact h.skip
    · exact h.skip
  | processResult err visit =>
    simp only [loop]
    split
    · exact h.skip
    · split
      · split
        · exact h.returned.skip
        · exact h.returned.runs (keeps_readFailure visit _)
      · exact h.skip
  | slotReturns => exact ⟨h.skip.tracked, h.skip.refs, h.skip.processing⟩

theorem soundControl_initial : Control.Sound [] {} :=
  ⟨tracked_initial, rfl, fun _ _ hnone => by cases hnone⟩

/-- The invariant of the loop over every run. -/
theorem soundControl_run {history : List Exchange} {c : Control} (h : c.Sound history) (events : List LoopEvent) :
    (after loop c events).Sound (history ++ trace loop c events) := by
  induction events generalizing history c with
  | nil => exact h.skip
  | cons e events ih =>
    rw [trace_cons, ← List.append_assoc]
    exact ih (soundControl_loop h e)

/-- In every state of a run the references have been used linearly. -/
theorem soundControl_reachedBy (events : List LoopEvent) : (reachedBy events).Sound (exchanges events) :=
  soundControl_run soundControl_initial events

/-- The two references at the top have sources of their own. -/
theorem Holder.eq_of_source {i j : Holder} (hi : i = dnssRef ∨ i = browser) (h : j.source = i.source) : j = i := by
  rcases hi with rfl | rfl <;> cases j <;> first | rfl | cases h

/-- The reference of the top level that lives is the one that the instance holds. -/
theorem Tracked.live_iff {history : List Exchange} {s : QZeroConfPrivate} (h : Tracked history none s) {i : Holder}
    (hi : i = .dnssRef ∨ i = .browser) (ref : DNSServiceRef) :
    Live history i.source ref ↔ held s i = some ref := by
  constructor
  · rintro ⟨hobtained, hlive⟩
    obtain ⟨place, hplace⟩ := (h.holding.live ref).mp hlive
    cases place with
    | none => cases hplace
    | some j =>
      have hsource := h.single _ _ ref (h.source j ref hplace) hobtained
      rw [← Holder.eq_of_source hi hsource]
      exact hplace
  · intro hheld
    exact ⟨h.source i ref hheld, (h.holding.live ref).mpr ⟨some i, hheld⟩⟩

theorem Leaves.refl (i : Option Holder) (s : QZeroConfPrivate) : Leaves i s s := ⟨fun _ => rfl, fun _ => rfl⟩

theorem SameTop.leaves {s t : QZeroConfPrivate} (h : SameTop s t) (i : Option Holder) : Leaves i s t :=
  ⟨fun _ => h.1, fun _ => h.2⟩

theorem leaves_dnssRef {s t : QZeroConfPrivate} (h : t.browser = s.browser) : Leaves (some .dnssRef) s t :=
  ⟨fun hne => absurd rfl hne, fun _ => h⟩

theorem leaves_browser {s t : QZeroConfPrivate} (h : t.dnssRef = s.dnssRef) : Leaves (some .browser) s t :=
  ⟨fun _ => h, fun hne => absurd rfl hne⟩

section Leaves

variable {history : List Exchange} {s : QZeroConfPrivate}

theorem leaves_registerError (h : Tracked history none s) : Leaves (some .dnssRef) s (registerError s).1 :=
  leaves_dnssRef (stopServicePublish_top fun _ => h.apart).1

/-- A call replaces the reference that it is about, and no other. -/
theorem leaves_call (h : Tracked history none s) {e : Event} (hcall : e.isCall) :
    Leaves e.top? s (step s e).1 := by
  cases e with
  | addServiceTxtRecord nameOnly => exact ⟨fun _ => rfl, fun _ => rfl⟩
  | addServiceTxtRecordPair name value => exact ⟨fun _ => rfl, fun _ => rfl⟩
  | clearServiceTxtRecords => exact ⟨fun _ => rfl, fun _ => rfl⟩
  | startServicePublish start name type domain port interface =>
    exact leaves_dnssRef (browser_startServicePublish h start name type domain port interface)
  | stopServicePublish => exact leaves_dnssRef (stopServicePublish_top fun _ => h.apart).1
  | startBrowser start visit type protocol => exact leaves_browser (dnssRef_startBrowser start visit type protocol s)
  | stopBrowser visit => exact leaves_browser (stopBrowser_top visit s).1
  | _ => exact absurd hcall Bool.false_ne_true

/-- A callback closes its own reference, and no other. -/
theorem leaves_callback (h : Tracked history none s) {e : Event} {i : Holder}
    {a : Action QZeroConfPrivate Output} (hcallback : e.callback? = some (i, a)) : Leaves (some i) s (a s).1 := by
  cases e with
  | registerReply errorCode =>
    cases hcallback
    unfold registerCallback
    split
    · exact Leaves.refl _ s
    · exact leaves_registerError h
  | browseReply start visit flags interfaceIndex err name type domain =>
    cases hcallback
    exact leaves_browser (dnssRef_browseCallback start visit flags interfaceIndex err name type domain s)
  | resolveReply start r interfaceIndex err hostName port txtLen txtRecord =>
    cases hcallback
    exact (sameTop_resolverCallback start r interfaceIndex err hostName port txtLen txtRecord s).leaves _
  | addressReply r flags interfaceIndex err hAddress =>
    cases hcallback
    exact (sameTop_addressReply r flags interfaceIndex err hAddress s).leaves _
  | _ => cases hcallback

theorem leaves_readFailure (h : Tracked history none s) (visit : List QString) (i : Holder) :
    Leaves (some i) s (readFailure visit i s).1 := by
  cases i with
  | dnssRef => exact leaves_registerError h
  | browser => exact leaves_browser (stopBrowser_top visit s).1
  | resolver r => exact (deletes_sameTop.resolver r s).1.leaves _
  | address r => exact (deletes_sameTop.resolver r s).1.leaves _

end Leaves

/-- One turn of the loop closes or replaces one reference at most. -/
theorem leaves_loop {history : List Exchange} {c : Control} (h : c.Sound history) (e : LoopEvent) :
    Leaves (subject? c e) c.pri (loop c e).1.pri := by
  cases e with
  | call e =>
    simp only [loop]
    split
    · rename_i hcall
      exact leaves_call h.tracked hcall.1
    · exact Leaves.refl _ _
  | activated i =>
    simp only [loop]
    split
    · split <;> exact Leaves.refl _ _
    · exact Leaves.refl _ _
  | reply e =>
    simp only [loop]
    split
    · rename_i i ref j callback hprocessing hcallback
      split
      · rename_i hreply
        rw [subject?, hprocessing, Option.map_some, hreply.2.1]
        exact leaves_callback h.tracked hcallback
      · exact Leaves.refl _ _
    · exact Leaves.refl _ _
  | processResult err visit =>
    simp only [loop]
    split
    · exact Leaves.refl _ _
    · rename_i i ref hprocessing
      split
      · split
        · exact Leaves.refl _ _
        · rw [subject?, hprocessing, Option.map_some]
          exact leaves_readFailure h.tracked visit i
      · exact Leaves.refl _ _
  | slotReturns => exact Leaves.refl _ _

/-- A reference that the instance no longer holds is gone, so its failure is not
    told. -/
theorem sparesNew_loop {history : List Exchange} {c : Control} (h : c.Sound history) (e : LoopEvent) :
    SparesNew c e := by
  rintro err visit i ref rfl hprocessing hi hheld
  have hgone : c.refs ref ≠ .live := by
    rw [h.refs]
    exact fun hlive => hheld ((h.tracked.live_iff hi ref).mp ⟨h.processing i ref hprocessing, hlive⟩)
  have hresult : processResult err ref c = kDNSServiceErr_NoError := if_neg hgone
  simp only [loop, hprocessing, hresult, if_true]
  split <;> exact ⟨rfl, rfl⟩

theorem acquire_mem_of_obtained {history : List Exchange} {source : Source} {ref : DNSServiceRef}
    (h : Obtained history source ref) : .acquire ref ∈ usesOf history := by
  obtain ⟨x, hx, hobtains⟩ := h
  refine List.mem_flatMap.mpr ⟨x, hx, ?_⟩
  cases x with
  | DNSServiceProcessResult ref' => cases hobtains
  | output o =>
    cases o with
    | signal signal => cases hobtains
    | DNSServiceRefDeallocate ref' => cases hobtains
    | _ =>
      obtain ⟨ref', rfl, hpair⟩ := Option.map_eq_some_iff.mp hobtains
      cases hpair
      exact List.mem_cons_self

/-- After the destructor every reference of the top level has been released once. -/
theorem released_destruct {history : List Exchange} {s : QZeroConfPrivate} (h : Tracked history none s)
    (visit : List QString) {i : Holder} (hi : i = .dnssRef ∨ i = .browser) {ref : DNSServiceRef}
    (hobtained : Obtained history i.source ref) :
    (usesOf (history ++ (destruct visit s).2.map .output)).count (.release (some ref)) = 1 := by
  have hdestructed := keeps_destruct visit history s h
  have hstopped := stopServicePublish_top fun _ => h.apart
  have hclosed := stopBrowser_top visit (stopServicePublish s).1
  have hempty : held (destruct visit s).1 i = none := by
    rcases hi with rfl | rfl
    · exact hclosed.1.trans hstopped.2
    · exact hclosed.2
  have hobtained' := obtained_append_left hobtained ((destruct visit s).2.map .output)
  have hnot : booksOf (history ++ (destruct visit s).2.map .output) ref ≠ .live := fun hlive => by
    rw [(hdestructed.live_iff hi ref).mp ⟨hobtained', hlive⟩] at hempty
    cases hempty
  rcases (hdestructed.linear.accounted (acquire_mem_of_obtained hobtained')).2 with ⟨hlive, -⟩ | ⟨-, hone⟩
  · exact absurd hlive hnot
  · exact hone

/-- The references of an instance are used linearly, whatever the order of calls,
    callbacks, failures and calls from slots. -/
theorem referencesLinear (events : List LoopEvent) : ReferencesLinear events := by
  have hsound := soundControl_reachedBy events
  have hregistration := hsound.tracked.live_iff (i := .dnssRef) (.inl rfl)
  have hbrowsing := hsound.tracked.live_iff (i := .browser) (.inr rfl)
  have halong {P : Control → LoopEvent → Prop} (h : ∀ history c e, Control.Sound history c → P c e) :
      Along loop P {} events :=
    along_of_invariant (I := fun c => ∃ history, Control.Sound history c)
      (fun c e _ ⟨_, hc⟩ => ⟨_, soundControl_loop hc e⟩) (fun c e _ ⟨history, hc⟩ => h history c e hc)
      ⟨[], soundControl_initial⟩
  refine ⟨hsound.tracked.linear, fun source ref hobtained => ?_, hregistration, hbrowsing, ?_, ?_,
    halong fun _ _ e h => leaves_loop h e, halong fun _ _ e h => sparesNew_loop h e,
    fun visit source ref hsource hobtained => ?_⟩
  · exact hsound.tracked.linear.accounted (acquire_mem_of_obtained hobtained)
  · exact Option.isSome_iff_exists.trans (exists_congr fun ref => (hregistration ref).symm)
  · exact Option.isSome_iff_exists.trans (exists_congr fun ref => (hbrowsing ref).symm)
  · rcases hsource with rfl | rfl
    · exact released_destruct hsound.tracked visit (i := .dnssRef) (.inl rfl) hobtained
    · exact released_destruct hsound.tracked visit (i := .browser) (.inr rfl) hobtained

/-- A registration that fails in its callback, and is restarted from the slot of
    `error` before `DNSServiceProcessResult` fails for the old reference. -/
def restartInSlot : List LoopEvent :=
  let start : LoopEvent := .call (.startServicePublish .watched [0x61] [] none 80 0)
  [start, .activated .dnssRef, .reply (.registerReply (-65537)), start, .slotReturns, .processResult (-65537) []]

example : (reachedBy restartInSlot).pri.dnssRef = some 1 := by decide

end qtzeroconf.bonjour
