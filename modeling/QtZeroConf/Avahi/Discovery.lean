import QtZeroConf.Library.Reactive
import QtZeroConf.Service
import QtZeroConf.Txt.Avahi

open reactive

namespace qtzeroconf.avahi

/-- `AvahiProtocol`. -/
inductive AvahiProtocol where
  | AVAHI_PROTO_INET
  | AVAHI_PROTO_INET6
  | AVAHI_PROTO_UNSPEC
  deriving DecidableEq

/-- An `AvahiAddress`, of one of its two protocols. -/
inductive AvahiAddress where
  | ipv4 (address : UInt32)
  | ipv6 (address : BitVec 128)
  deriving DecidableEq

/-- The `QHostAddress` that is parsed from the text `avahi_address_snprint`
    writes, which stands for the same address. -/
def hostAddress : AvahiAddress → QHostAddress
  | .ipv4 address => .ipv4 address
  | .ipv6 address => .ipv6 address

/-- `AvahiBrowserEvent`. -/
inductive AvahiBrowserEvent where
  | AVAHI_BROWSER_NEW
  | AVAHI_BROWSER_REMOVE
  | AVAHI_BROWSER_CACHE_EXHAUSTED
  | AVAHI_BROWSER_ALL_FOR_NOW
  | AVAHI_BROWSER_FAILURE
  deriving DecidableEq

/-- What a resolver reports with `AVAHI_RESOLVER_FOUND`. -/
structure Report where
  host_name : CString
  address : AvahiAddress
  port : UInt16
  txt : AvahiStringList

/-- `AvahiResolverEvent`, with the arguments that are not null in it. -/
inductive AvahiResolverEvent where
  | AVAHI_RESOLVER_FOUND (report : Report)
  | AVAHI_RESOLVER_FAILURE

/-- A service resolver that Avahi has created, with what it resolves. -/
structure ServiceResolver where
  handle : Nat
  interface : Int32
  protocol : AvahiProtocol
  name : CString
  type : CString
  domain : CString
  aprotocol : AvahiProtocol
  deriving DecidableEq

/-- The discovery half of an Avahi `QZeroConfPrivate`, with `pub->services`.
    `nextHandle` numbers the objects that Avahi creates for it. A resolver that
    could not be created is stored as the null handle. -/
structure Discovery where
  services : QMap QString QZeroConfServiceData := ∅
  resolvers : QMap QString (Option ServiceResolver) := ∅
  browser : Option Nat := none
  aProtocol : AvahiProtocol := .AVAHI_PROTO_UNSPEC
  nextHandle : Nat := 0

/-- The signals of discovery and its calls into Avahi. -/
inductive Output where
  | signal (signal : Signal QZeroConfServiceData)
  | service_browser_new (handle : Nat) (protocol : AvahiProtocol) (type : QByteArray)
  | service_browser_free (handle : Nat)
  | service_resolver_new (resolver : ServiceResolver)
  | service_resolver_free (resolver : Option ServiceResolver)

/-- What the backends file a service under. -/
def discoveryKey (name : CString) (interface : Int32) : QString :=
  serviceKey (QString.fromUtf8 name) interface.toInt

/-- `avahi_service_resolver_new`, which fails where `created` is false. -/
def service_resolver_new (created : Bool) (interface : Int32) (protocol : AvahiProtocol)
    (name type domain : CString) (key : QString) : Action Discovery Output := fun s =>
  if created then
    let resolver : ServiceResolver :=
      { handle := s.nextHandle, interface, protocol, name, type, domain, aprotocol := s.aProtocol }
    ({ s with resolvers := s.resolvers.insert key (some resolver), nextHandle := s.nextHandle + 1 },
      [.service_resolver_new resolver])
  else ({ s with resolvers := s.resolvers.insert key none }, [])

/-- A service leaves the table, with the signal for it, if it is there. -/
def removeService (key : QString) : Action Discovery Output := fun s =>
  match s.services[key]? with
  | none => (s, [])
  | some zcs => ({ s with services := s.services.erase key }, [.signal (.serviceRemoved zcs)])

/-- `QZeroConfPrivate::broswerCleanUp`. -/
def broswerCleanUp : Action Discovery Output := fun s =>
  match s.browser with
  | none => (s, [])
  | some handle =>
    ({ s with browser := none, services := ∅, resolvers := ∅ },
      .service_browser_free handle ::
        (s.services.toList.map fun entry => .signal (.serviceRemoved entry.2)) ++
        (s.resolvers.toList.map fun entry => .service_resolver_free entry.2))

/-- `QZeroConfPrivate::browseCallback`; `created` is whether Avahi can create
    another resolver. -/
def browseCallback (created : Bool) (interface : Int32) (protocol : AvahiProtocol)
    (event : AvahiBrowserEvent) (name type domain : CString) : Action Discovery Output := fun s =>
  let key := discoveryKey name interface
  match event with
  | .AVAHI_BROWSER_FAILURE => (broswerCleanUp.andThen (.emit (.signal (.error .browserFailed)))) s
  | .AVAHI_BROWSER_NEW =>
    if s.resolvers.contains key then (s, [])
    else service_resolver_new created interface protocol name type domain key s
  | .AVAHI_BROWSER_REMOVE =>
    match s.resolvers[key]? with
    | none => (s, [])
    | some resolver =>
      ((Action.emit (.service_resolver_free resolver)).andThen
        ((Action.update fun s => { s with resolvers := s.resolvers.erase key }).andThen
          (removeService key))) s
  | .AVAHI_BROWSER_ALL_FOR_NOW => (s, [])
  | .AVAHI_BROWSER_CACHE_EXHAUSTED => (s, [])

/-- The record that the first report for a service creates. -/
def newService (interface : Int32) (name type domain : CString) (report : Report) : QZeroConfServiceData where
  m_name := QString.fromUtf8 name
  m_type := QString.fromUtf8 type
  m_domain := QString.fromUtf8 domain
  m_host := QString.fromUtf8 report.host_name
  m_interfaceIndex := interface.toUInt32
  m_port := report.port
  m_txt := readTxt report.txt ∅

/-- `QZeroConfPrivate::resolveCallback`. -/
def resolveCallback (interface : Int32) (event : AvahiResolverEvent) (name type domain : CString) :
    Action Discovery Output := fun s =>
  let key := discoveryKey name interface
  match event with
  | .AVAHI_RESOLVER_FOUND report =>
    match s.services[key]? with
    | some zcs =>
      -- the stored record is shared, so it takes the address in place
      let zcs := zcs.setIp (hostAddress report.address)
      ({ s with services := s.services.insert key zcs }, [.signal (.serviceUpdated zcs)])
    | none =>
      let zcs := (newService interface name type domain report).setIp (hostAddress report.address)
      ({ s with services := s.services.insert key zcs }, [.signal (.serviceAdded zcs)])
  -- the resolver stays, it might be able to resolve the service in the future
  | .AVAHI_RESOLVER_FAILURE => removeService key s

/-- The `switch` of `startBrowser`: an unsupported protocol falls back to IPv4. -/
def browserProtocol : NetworkLayerProtocol → AvahiProtocol
  | .IPv6Protocol => .AVAHI_PROTO_INET6
  | _ => .AVAHI_PROTO_INET

/-- The end of `startBrowser`: the protocol is set and a browser created, with
    an error signal where it cannot be. -/
def openBrowser (created : Bool) (type : QString) (protocol : NetworkLayerProtocol) :
    Action Discovery Output := fun s =>
  let aProtocol := browserProtocol protocol
  if created then
    ({ s with aProtocol, browser := some s.nextHandle, nextHandle := s.nextHandle + 1 },
      [.service_browser_new s.nextHandle aProtocol type.toUtf8])
  else ({ s with aProtocol, browser := none }, [.signal (.error .browserFailed)])

/-- `QZeroConf::stopBrowser`. -/
def stopBrowser : Action Discovery Output := broswerCleanUp

end qtzeroconf.avahi

namespace qtzeroconf.avahiclient

open avahi

/-- `QZeroConf::startBrowser` of avahiclient, which checks that the daemon is
    running and that no browser is started yet. -/
def startBrowser (client created : Bool) (type : QString) (protocol : NetworkLayerProtocol) :
    Action Discovery Output := fun s =>
  if !client || s.browser.isSome then (s, [.signal (.error .browserFailed)])
  else openBrowser created type protocol s

end qtzeroconf.avahiclient

namespace qtzeroconf.avahicore

open avahi

/-- `QZeroConf::startBrowser` of avahicore, which goes on after the error
    signal for a browser that is already there. -/
def startBrowser (created : Bool) (type : QString) (protocol : NetworkLayerProtocol) :
    Action Discovery Output := fun s =>
  let report : Action Discovery Output :=
    if s.browser.isSome then .emit (.signal (.error .browserFailed)) else .skip
  (report.andThen (openBrowser created type protocol)) s

end qtzeroconf.avahicore

namespace qtzeroconf.avahi

/-- The two backends that discover through Avahi. An avahiclient instance keeps
    the client connection that its constructor did or did not get. -/
inductive Backend where
  | avahiclient (client : Bool)
  | avahicore

/-- What can happen to the discovery half of an instance; `created` is whether
    Avahi creates the object that is asked for. -/
inductive Event where
  | startBrowser (created : Bool) (type : QString) (protocol : NetworkLayerProtocol)
  | stopBrowser
  | browse (created : Bool) (interface : Int32) (protocol : AvahiProtocol) (event : AvahiBrowserEvent)
      (name type domain : CString)
  | resolve (interface : Int32) (event : AvahiResolverEvent) (name type domain : CString)

/-- Discovery of a backend, event by event. -/
def step (backend : Backend) : Step Discovery Event Output
  | s, .startBrowser created type protocol =>
    match backend with
    | .avahiclient client => avahiclient.startBrowser client created type protocol s
    | .avahicore => avahicore.startBrowser created type protocol s
  | s, .stopBrowser => stopBrowser s
  | s, .browse created interface protocol event name type domain =>
    browseCallback created interface protocol event name type domain s
  | s, .resolve interface event name type domain => resolveCallback interface event name type domain s

/-- The states that discovery reaches from a new instance. -/
def reached (backend : Backend) (events : List Event) : Discovery := after (step backend) {} events

/-- Removing a service empties its key and no other. -/
theorem removeService_services (key k : QString) (s : Discovery) :
    (removeService key s).1.services[k]? = if key = k then none else s.services[k]? := by
  unfold removeService
  split
  · rename_i hnone
    split
    · rename_i hkey
      rw [← hkey, hnone]
    · rfl
  · simp [Std.ExtTreeMap.getElem?_erase]

@[simp] theorem removeService_resolvers (key : QString) (s : Discovery) :
    (removeService key s).1.resolvers = s.resolvers := by
  unfold removeService
  split <;> rfl

@[simp] theorem openBrowser_services (created : Bool) (type : QString) (protocol : NetworkLayerProtocol)
    (s : Discovery) : (openBrowser created type protocol s).1.services = s.services := by
  unfold openBrowser
  split <;> rfl

@[simp] theorem openBrowser_resolvers (created : Bool) (type : QString) (protocol : NetworkLayerProtocol)
    (s : Discovery) : (openBrowser created type protocol s).1.resolvers = s.resolvers := by
  unfold openBrowser
  split <;> rfl

/-- Neither backend touches the tables when a browser is started. -/
theorem startBrowser_tables (backend : Backend) (created : Bool) (type : QString)
    (protocol : NetworkLayerProtocol) (s : Discovery) :
    (step backend s (.startBrowser created type protocol)).1.services = s.services ∧
      (step backend s (.startBrowser created type protocol)).1.resolvers = s.resolvers := by
  cases backend with
  | avahiclient client =>
    simp only [step, avahiclient.startBrowser]
    split <;> simp
  | avahicore =>
    simp only [step, avahicore.startBrowser]
    split <;> simp

/-- Cleaning up keeps no service that was not there. -/
theorem services_of_broswerCleanUp {s : Discovery} {k : QString} {zcs : QZeroConfServiceData}
    (h : (broswerCleanUp s).1.services[k]? = some zcs) : s.services[k]? = some zcs := by
  unfold broswerCleanUp at h
  split at h
  · exact h
  · simp at h

end qtzeroconf.avahi
