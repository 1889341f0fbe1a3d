import QtZeroConf.Avahi.Discovery
import QtZeroConf.Bonjour.Actions
import QtZeroConf.Library.Reentrant

open reactive reentrant

namespace qtzeroconf.avahi

/-- What a slot can call on the instance whose signal it is connected to. -/
inductive SlotCall where
  | startBrowser (created : Bool) (type : QString) (protocol : NetworkLayerProtocol)
  | stopBrowser

def SlotCall.event : SlotCall → Event
  | startBrowser created type protocol => .startBrowser created type protocol
  | stopBrowser => .stopBrowser

def removed? : Output → Option QZeroConfServiceData
  | .signal (.serviceRemoved zcs) => some zcs
  | _ => none

/-- `broswerCleanUp` around its loop, which `stopBrowser` calls. -/
def cleaning (backend : Backend) : Component Discovery Output QZeroConfServiceData Unit SlotCall where
  isOpen s := s.browser.isSome
  entries s := s.services.toList.map fun entry => entry.2
  shut _ s := ({ s with browser := none }, s.browser.toList.map .service_browser_free)
  removed _ zcs := .signal (.serviceRemoved zcs)
  removed? := removed?
  clear _ s :=
    ({ s with services := ∅, resolvers := ∅ }, s.resolvers.toList.map fun entry => .service_resolver_free entry.2)
  call
    | .startBrowser created type protocol, _ =>
      [.act fun s => step backend s (.startBrowser created type protocol)]
    | .stopBrowser, _ => [.close ()]

/-- What a call makes of the browser: whether there is one, or `none` where one
    is stopped. -/
def opens (backend : Backend) : SlotCall → Bool → Option Bool
  | .startBrowser created _ _, isOpen =>
    match backend with
    | .avahiclient client => some (isOpen || client && created)
    | .avahicore => some created
  | .stopBrowser, isOpen => if isOpen then none else some false

theorem openBrowser_spec (created : Bool) (type : QString) (protocol : NetworkLayerProtocol) (s : Discovery) :
    (openBrowser created type protocol s).2.filterMap removed? = [] ∧
      (openBrowser created type protocol s).1.browser.isSome = created := by
  cases created <;> exact ⟨rfl, rfl⟩

theorem startBrowser_spec (backend : Backend) (created : Bool) (type : QString) (protocol : NetworkLayerProtocol)
    (s : Discovery) :
    (step backend s (.startBrowser created type protocol)).2.filterMap removed? = [] ∧
      some (step backend s (.startBrowser created type protocol)).1.browser.isSome =
        opens backend (.startBrowser created type protocol) s.browser.isSome := by
  obtain ⟨hsilent, hbrowser⟩ := openBrowser_spec created type protocol s
  cases backend with
  | avahiclient client =>
    simp only [step, avahiclient.startBrowser, opens]
    cases client with
    | false => simp [removed?]
    | true =>
      cases hopen : s.browser with
      | none => exact ⟨hsilent, congrArg some hbrowser⟩
      | some handle => simp [removed?, hopen]
  | avahicore =>
    simp only [step, avahicore.startBrowser, opens]
    cases hopen : s.browser <;> exact ⟨hsilent, congrArg some hbrowser⟩

theorem tracks_cleaning (backend : Backend) : Tracks (cleaning backend) (opens backend) where
  shut _ _ := rfl
  entries _ _ := rfl
  removed _ _ := rfl
  silent_shut _ s := by cases hbrowser : s.browser <;> simp [cleaning, hbrowser, removed?]
  silent_clear _ s := by simp [cleaning, List.filterMap_map, Function.comp_def, removed?]
  silent_call := by
    intro c s a ha t
    cases c with
    | startBrowser created type protocol =>
      cases List.mem_singleton.mp ha
      exact (startBrowser_spec backend created type protocol t).1
    | stopBrowser => simp [cleaning] at ha
  opened := by
    intro c r
    cases c with
    | startBrowser created type protocol => exact (startBrowser_spec backend created type protocol r.state).2
    | stopBrowser =>
      cases hbrowser : r.state.browser <;> simp [cleaning, Component.plain, opens, hbrowser]

/-- With slots that call nothing, a call does what it does in the sequential
    model. -/
theorem pieces_silent (backend : Backend) (depth : Nat) (c : SlotCall) (s : Discovery) :
    ∃ clears, Component.pieces ((cleaning backend).close (fun _ => []) (depth + 1)) ((cleaning backend).call c s)
        { state := s } =
      .returned { state := (step backend s c.event).1, outputs := (step backend s c.event).2, clears } := by
  cases c with
  | startBrowser created type protocol => exact ⟨0, rfl⟩
  | stopBrowser =>
    cases hbrowser : s.browser with
    | none =>
      refine ⟨0, ?_⟩
      simp [cleaning, Component.pieces, Component.close, hbrowser, Outcome.bind, SlotCall.event, step, stopBrowser,
        broswerCleanUp]
    | some handle =>
      refine ⟨1, ?_⟩
      have hopen : (cleaning backend).isOpen s = true := by simp [cleaning, hbrowser]
      rw [show (cleaning backend).call .stopBrowser s = [.close ()] from rfl, Component.pieces,
        close_silent (cleaning backend) depth () (r := { state := s }) hopen]
      simp [cleaning, Component.pieces, Outcome.bind, SlotCall.event, step, stopBrowser, broswerCleanUp, hbrowser]

end qtzeroconf.avahi

namespace qtzeroconf.bonjour

open QZeroConfPrivate

/-- What a slot can call on the instance whose signal it is connected to. -/
inductive SlotCall where
  | startBrowser (start : Start) (visit : List QString) (type : QString) (protocol : NetworkLayerProtocol)
  | stopBrowser (visit : List QString)

def SlotCall.event : SlotCall → Event
  | startBrowser start visit type protocol => .startBrowser start visit type protocol
  | stopBrowser visit => .stopBrowser visit

def removed? : Output → Option ServiceId
  | .signal (.serviceRemoved zcs) => some zcs.id
  | _ => none

/-- `cleanUp(browser)` around its loop over the services, and the calls that
    lead to it. -/
def cleaning : Component QZeroConfPrivate Output ServiceId (List QString) SlotCall where
  isOpen s := s.browser.isSome
  entries s := s.services.toList.map fun entry => entry.2
  shut visit :=
    (Action.update fun s => { s with browser := none }).andThen
      ((Action.forEach cleanUpAt visit).andThen (.update fun s => { s with resolvers := ∅ }))
  removed s zcs := .signal (.serviceRemoved (shared s zcs))
  removed? := removed?
  clear opened s := ({ s with services := ∅ }, [.DNSServiceRefDeallocate opened.browser])
  call
    | .startBrowser start visit type protocol, s =>
      if s.browser.isSome then [.act (.emit (.signal (.error .browserFailed)))]
      else
        .act ((Action.emit (.DNSServiceBrowse (s.newRef start) type.toUtf8)).andThen
          (.update (setBrowser start (browserProtocol protocol)))) ::
        if start = .watched then [] else [.close visit, .act (.emit (.signal (.error .browserFailed)))]
    | .stopBrowser visit, _ => [.close visit]

/-- What a call makes of the browser: whether there is one, or `none` where one
    is stopped. A reference without a socket is closed at once. -/
def opens : SlotCall → Bool → Option Bool
  | .startBrowser _ _ _ _, true => some true
  | .startBrowser .failed _ _ _, false => some false
  | .startBrowser .noSocket _ _ _, false => none
  | .startBrowser .watched _ _ _, false => some true
  | .stopBrowser _, isOpen => if isOpen then none else some false

/-- The loop over the resolvers leaves the browser and the services alone, and
    signals nothing. -/
theorem within_visit (visit : List QString) :
    Action.Within (fun s s' => s'.browser = s.browser ∧ s'.services = s.services) (fun o => removed? o = none)
      (Action.forEach cleanUpAt visit) := by
  have hdeletes : Deletes (fun s s' => s'.browser = s.browser ∧ s'.services = s.services)
      (fun o => removed? o = none) := by
    refine ⟨fun _ => ⟨rfl, rfl⟩, fun s t u hst htu => ⟨htu.1.trans hst.1, htu.2.trans hst.2⟩, fun r s => ?_⟩
    unfold Resolver.cleanUp
    split <;> simp [removed?]
  exact Action.within_forEach hdeletes.refl hdeletes.trans hdeletes.cleanUpAt visit

theorem tracks_cleaning : Tracks cleaning opens where
  shut visit s := by
    have hvisit := (within_visit visit { s with browser := none }).1.1
    simp [cleaning, hvisit]
  entries visit s := by
    have hvisit := (within_visit visit { s with browser := none }).1.2
    simp [cleaning, hvisit]
  removed _ _ := rfl
  silent_shut visit s := by
    have hvisit := (within_visit visit { s with browser := none }).2
    simpa [cleaning] using hvisit
  silent_clear _ _ := rfl
  silent_call := by
    intro c s a ha t
    cases c with
    | startBrowser start visit type protocol =>
      cases hbrowser : s.browser with
      | some ref =>
        simp only [cleaning, hbrowser, Option.isSome_some, if_true] at ha
        cases List.mem_singleton.mp ha
        rfl
      | none =>
        cases start with
        | watched =>
          simp only [cleaning, hbrowser, Option.isSome_none, Bool.false_eq_true, if_false, if_true] at ha
          cases List.mem_singleton.mp ha
          rfl
        | _ =>
          simp only [cleaning, hbrowser, Option.isSome_none, Bool.false_eq_true, if_false, reduceCtorEq,
            List.mem_cons, List.not_mem_nil, or_false, Piece.act.injEq, false_or] at ha
          rcases ha with rfl | rfl <;> rfl
    | stopBrowser visit => simp [cleaning] at ha
  opened := by
    intro c r
    cases c with
    | startBrowser start visit type protocol =>
      cases hbrowser : r.state.browser with
      | some ref => simp [cleaning, Component.plain, opens, hbrowser, Run.perform]
      | none =>
        cases start <;>
          simp [cleaning, Component.plain, opens, hbrowser, Run.perform, setBrowser, newRef]
    | stopBrowser visit => cases hbrowser : r.state.browser <;> simp [cleaning, Component.plain, opens, hbrowser]

theorem close_silent_eq_cleanUp (depth : Nat) (visit : List QString) (r : Run QZeroConfPrivate Output) :
    ∃ clears, cleaning.close (fun _ => []) (depth + 1) visit r =
      .returned { state := (cleanUp visit r.state.browser r.state).1
                  outputs := r.outputs ++ (cleanUp visit r.state.browser r.state).2, clears } := by
  cases hbrowser : r.state.browser with
  | none =>
    refine ⟨r.clears, ?_⟩
    simp [cleaning, Component.close, hbrowser, cleanUp]
  | some ref =>
    refine ⟨r.clears + 1, ?_⟩
    have hopen : cleaning.isOpen r.state = true := by simp [cleaning, hbrowser]
    rw [close_silent cleaning depth visit hopen]
    simp [cleaning, cleanUp, cleanUpBrowser, hbrowser]

/-- With slots that call nothing, a call does what it does in the sequential
    model. -/
theorem pieces_silent (depth : Nat) (c : SlotCall) (s : QZeroConfPrivate) :
    ∃ clears, Component.pieces (cleaning.close (fun _ => []) (depth + 1)) (cleaning.call c s) { state := s } =
      .returned { state := (step s c.event).1, outputs := (step s c.event).2, clears } := by
  cases c with
  | stopBrowser visit =>
    obtain ⟨clears, hclose⟩ := close_silent_eq_cleanUp depth visit { state := s }
    refine ⟨clears, ?_⟩
    rw [show cleaning.call (.stopBrowser visit) s = [.close visit] from rfl, Component.pieces, hclose]
    rfl
  | startBrowser start visit type protocol =>
    cases hbrowser : s.browser with
    | some ref =>
      refine ⟨0, ?_⟩
      simp [cleaning, hbrowser, Component.pieces, Run.perform, SlotCall.event, step, startBrowser]
    | none =>
      let browse : Action QZeroConfPrivate Output :=
        (Action.emit (.DNSServiceBrowse (s.newRef start) type.toUtf8)).andThen
          (.update (setBrowser start (browserProtocol protocol)))
      have hcall : cleaning.call (.startBrowser start visit type protocol) s = .act browse ::
          if start = .watched then [] else [.close visit, .act (.emit (.signal (.error .browserFailed)))] := by
        simp [cleaning, hbrowser, browse]
      rw [hcall, Component.pieces]
      by_cases hwatched : start = .watched
      · refine ⟨0, ?_⟩
        simp [hwatched, browse, Component.pieces, Run.perform, SlotCall.event, step, startBrowser, hbrowser]
      · obtain ⟨clears, hclose⟩ := close_silent_eq_cleanUp depth visit (Run.perform { state := s } browse)
        refine ⟨clears, ?_⟩
        rw [if_neg hwatched, Component.pieces, hclose]
        simp [hwatched, browse, Outcome.bind, Component.pieces, Run.perform, SlotCall.event, step, startBrowser,
          hbrowser, browserError]

end qtzeroconf.bonjour

namespace qtzeroconf

/-- In the order in which they come, what the slots of an Avahi instance call
    while `broswerCleanUp` tells them of all services never stops a browser. -/
def avahi.SlotsStopNone (backend : avahi.Backend) (slots : List QZeroConfServiceData → List avahi.SlotCall)
    (s : avahi.Discovery) : Prop :=
  (track (avahi.opens backend) (allCalls slots [] (s.services.toList.map fun entry => entry.2)) false).isSome

/-- In the order in which they come, what the slots of a Bonjour instance call
    while `cleanUp` tells them of all services never stops a browser. -/
def bonjour.SlotsStopNone (slots : List bonjour.ServiceId → List bonjour.SlotCall) (s : bonjour.QZeroConfPrivate) :
    Prop :=
  (track bonjour.opens (allCalls slots [] (s.services.toList.map fun entry => entry.2)) false).isSome

/-- For every behaviour of the slots, ending a browser tells of every service
    once, and returns without a look at a cleared table, exactly when the slots
    do not stop a browser that they have started on the way: for the Avahi
    backends, and for Bonjour. -/
theorem cleanUpReentrant_iff (backend : avahi.Backend)
    (slots : List QZeroConfServiceData → List avahi.SlotCall) (s : avahi.Discovery)
    (slots' : List bonjour.ServiceId → List bonjour.SlotCall) (visit : List QString)
    (s' : bonjour.QZeroConfPrivate) :
    ((avahi.cleaning backend).ClosesOnce slots () s ↔
      (s.browser.isSome → avahi.SlotsStopNone backend slots s)) ∧
    (bonjour.cleaning.ClosesOnce slots' visit s' ↔ (s'.browser.isSome → bonjour.SlotsStopNone slots' s')) :=
  ⟨closesOnce_iff (avahi.tracks_cleaning backend) slots () s,
    closesOnce_iff bonjour.tracks_cleaning slots' visit s'⟩

/-- One service is found and resolved. -/
def oneService : List avahi.Event :=
  let report : avahi.AvahiResolverEvent :=
    .AVAHI_RESOLVER_FOUND { host_name := [0x68], address := .ipv4 0x0A000001, port := 80, txt := [] }
  [.startBrowser true (tcpType 0x61) .IPv4Protocol,
    .browse true 2 .AVAHI_PROTO_INET .AVAHI_BROWSER_NEW [0x61] reportedType reportedDomain,
    .resolve 2 report [0x61] reportedType reportedDomain]

/-- A slot that restarts the browser and stops it again, the first time. -/
def restartOnce (told : List QZeroConfServiceData) : List avahi.SlotCall :=
  if told.length = 1 then [.startBrowser true (tcpType 0x61) .IPv4Protocol, .stopBrowser] else []

/-- The nested stop tells of the service again, and clears the table under the
    loop that the slot was called from. -/
theorem restart_in_slot_clears :
    ¬ ∀ backend events slots,
      (avahi.cleaning backend).ClosesOnce slots () (avahi.reached backend events) := by
  intro h
  have hreturns := (closesOnce_iff (avahi.tracks_cleaning (.avahiclient true)) restartOnce () _).mp
    (h (.avahiclient true) oneService restartOnce) (by decide)
  exact absurd hreturns (by decide)

end qtzeroconf
