import Mathlib.Logic.Function.Basic
import QtZeroConf.Library.Reactive
import QtZeroConf.Service
import QtZeroConf.Txt.Bonjour

open reactive

namespace qtzeroconf.bonjour

/-- A `DNSServiceRef` that is not null. -/
abbrev DNSServiceRef := Nat

/-- The address of a `Resolver`. -/
abbrev ResolverId := Nat

/-- The address of the object behind a `QZeroConfService`. -/
abbrev ServiceId := Nat

def kDNSServiceErr_NoError : Int32 := 0

def kDNSServiceFlagsAdd : UInt32 := 2

/-- `DNSServiceProtocol`. -/
inductive DNSServiceProtocol where
  | kDNSServiceProtocol_IPv4
  | kDNSServiceProtocol_IPv6
  deriving DecidableEq

/-- How a call that starts an operation of dns_sd ends: with an error, which
    leaves the reference null, with a reference that has no socket, or with a
    reference that is watched. -/
inductive Start where
  | failed
  | noSocket
  | watched
  deriving DecidableEq

/-- A `Resolver`; its notifiers are left out. -/
structure Resolver where
  zcs : ServiceId
  DNSresolverRef : Option DNSServiceRef := none
  DNSaddressRef : Option DNSServiceRef := none

/-- A Bonjour `QZeroConfPrivate` with `pub->services`, and the heap it works on:
    the service objects, the resolvers that are not deleted, and the number of
    the next object or reference to be created. `protocol` is read only after
    `startBrowser` has set it. -/
structure QZeroConfPrivate where
  services : QMap QString ServiceId := ∅
  resolvers : QMap QString ResolverId := ∅
  browser : Option DNSServiceRef := none
  dnssRef : Option DNSServiceRef := none
  protocol : DNSServiceProtocol := .kDNSServiceProtocol_IPv4
  txt : QByteArray := []
  objects : ServiceId → QZeroConfServiceData := fun _ => {}
  live : ResolverId → Option Resolver := fun _ => none
  next : Nat := 0

/-- A `QZeroConfService` in a signal, with the data that the slots see. -/
structure SharedService where
  id : ServiceId
  data : QZeroConfServiceData

/-- The signals of the backend and its calls into dns_sd. -/
inductive Output where
  | signal (signal : Signal SharedService)
  | DNSServiceRegister (ref : Option DNSServiceRef) (interface : UInt32) (name type : CString)
      (domain : Option CString) (port : UInt16) (txt : UInt16 × QByteArray)
  | DNSServiceBrowse (ref : Option DNSServiceRef) (type : QByteArray)
  | DNSServiceResolve (ref : Option DNSServiceRef) (interfaceIndex : UInt32) (name type domain : QByteArray)
  | DNSServiceGetAddrInfo (ref : Option DNSServiceRef) (interfaceIndex : UInt32)
      (protocol : DNSServiceProtocol) (hostName : CString)
  | DNSServiceRefDeallocate (ref : Option DNSServiceRef)

/-- The key of a service. -/
def key (zcs : QZeroConfServiceData) : QString := serviceKey zcs.m_name zcs.m_interfaceIndex.toNat

/-- `qFromBigEndian<quint16>`, on a little-endian machine. -/
def qFromBigEndian (port : UInt16) : UInt16 := port <<< 8 ||| port >>> 8

namespace QZeroConfPrivate

/-- The reference that a call of dns_sd returns. -/
def newRef (start : Start) (s : QZeroConfPrivate) : Option DNSServiceRef :=
  if start = .failed then none else some s.next

/-- A service object is written to. -/
def modifyService (zcs : ServiceId) (f : QZeroConfServiceData → QZeroConfServiceData)
    (s : QZeroConfPrivate) : QZeroConfPrivate :=
  { s with objects := Function.update s.objects zcs (f (s.objects zcs)) }

/-- `setIp` of a service object. -/
def setServiceIp (zcs : ServiceId) (hAddress : QHostAddress) (s : QZeroConfPrivate) : QZeroConfPrivate :=
  s.modifyService zcs fun service => service.setIp hAddress

/-- A resolver is written to. -/
def modifyResolver (r : ResolverId) (f : Resolver → Resolver) (s : QZeroConfPrivate) : QZeroConfPrivate :=
  { s with live := Function.update s.live r ((s.live r).map f) }

/-- A call of dns_sd sets the reference that a resolver resolves with. -/
def setResolverRef (start : Start) (r : ResolverId) (s : QZeroConfPrivate) : QZeroConfPrivate :=
  { s.modifyResolver r fun resolver => { resolver with DNSresolverRef := s.newRef start } with
    next := s.next + 1 }

/-- A call of dns_sd sets the reference that a resolver looks its address up
    with. -/
def setAddressRef (start : Start) (r : ResolverId) (s : QZeroConfPrivate) : QZeroConfPrivate :=
  { s.modifyResolver r fun resolver => { resolver with DNSaddressRef := s.newRef start } with
    next := s.next + 1 }

/-- A call of dns_sd sets the reference of the registration. -/
def setDnssRef (start : Start) (s : QZeroConfPrivate) : QZeroConfPrivate :=
  { s with dnssRef := s.newRef start, next := s.next + 1 }

/-- A call of dns_sd sets the reference of the browser. -/
def setBrowser (start : Start) (protocol : DNSServiceProtocol) (s : QZeroConfPrivate) : QZeroConfPrivate :=
  { s with protocol, browser := s.newRef start, next := s.next + 1 }

/-- `QZeroConfService::create()`, with the fields of a browse reply. -/
def newService (zcs : QZeroConfServiceData) (s : QZeroConfPrivate) : QZeroConfPrivate :=
  { s with objects := Function.update s.objects s.next zcs, next := s.next + 1 }

/-- `new Resolver`, stored under the key of its service. -/
def newResolver (zcs : ServiceId) (s : QZeroConfPrivate) : QZeroConfPrivate :=
  { s with
    resolvers := s.resolvers.insert (key (s.objects zcs)) s.next
    live := Function.update s.live s.next (some { zcs })
    next := s.next + 1 }

end QZeroConfPrivate

open QZeroConfPrivate

/-- What a signal carries for a service. -/
def shared (s : QZeroConfPrivate) (zcs : ServiceId) : SharedService := { id := zcs, data := s.objects zcs }

/-- `Resolver::cleanUp`. -/
def Resolver.cleanUp (r : ResolverId) : Action QZeroConfPrivate Output := fun s =>
  match s.live r with
  | none => (s, [])
  | some resolver =>
    ({ s with
        resolvers := s.resolvers.erase (key (s.objects resolver.zcs))
        live := Function.update s.live r none },
      [.DNSServiceRefDeallocate resolver.DNSresolverRef, .DNSServiceRefDeallocate resolver.DNSaddressRef])

/-- The resolver that is stored under a key cleans up. -/
def cleanUpAt (key : QString) : Action QZeroConfPrivate Output := fun s =>
  match s.resolvers[key]? with
  | none => (s, [])
  | some r => Resolver.cleanUp r s

/-- The end of a call that starts an operation for a resolver. -/
def cleanUpUnless (start : Start) (r : ResolverId) : Action QZeroConfPrivate Output :=
  if start = .watched then .skip else Resolver.cleanUp r

/-- `QZeroConfPrivate::resolve`; `start` is how `DNSServiceResolve` ends. -/
def resolve (start : Start) (zcs : ServiceId) : Action QZeroConfPrivate Output := fun s =>
  let r := s.next
  let service := s.objects zcs
  let s := s.newResolver zcs
  ((Action.emit (.DNSServiceResolve (s.newRef start) service.m_interfaceIndex service.m_name.toUtf8
      service.m_type.toUtf8 service.m_domain.toUtf8)).andThen
    ((Action.update (setResolverRef start r)).andThen (cleanUpUnless start r))) s

/-- The branch of `cleanUp` for the browser. The loop over the hash of resolvers
    runs while `Resolver::cleanUp` erases from that hash, which invalidates its
    iterator; `visit` has the keys of the entries that the loop gets to. -/
def cleanUpBrowser (visit : List QString) : Action QZeroConfPrivate Output :=
  (Action.update fun s => { s with browser := none }).andThen
    ((Action.forEach cleanUpAt visit).andThen
      ((Action.update fun s => { s with resolvers := ∅ }).andThen fun s =>
        ({ s with services := ∅ },
          s.services.toList.map fun entry => .signal (.serviceRemoved (shared s entry.2)))))

/-- `QZeroConfPrivate::cleanUp`. -/
def cleanUp (visit : List QString) (toClean : Option DNSServiceRef) : Action QZeroConfPrivate Output :=
  fun s =>
    match toClean with
    | none => (s, [])
    | some ref =>
      let body : Action QZeroConfPrivate Output :=
        if s.browser = some ref then cleanUpBrowser visit
        else if s.dnssRef = some ref then .update fun s => { s with dnssRef := none }
        else .skip
      (body.andThen (.emit (.DNSServiceRefDeallocate (some ref)))) s

/-- Everything that ends browsing: `cleanUp(browser)`, then the error signal. -/
def browserError (visit : List QString) : Action QZeroConfPrivate Output := fun s =>
  ((cleanUp visit s.browser).andThen (.emit (.signal (.error .browserFailed)))) s

/-- Everything that ends a registration: `cleanUp(dnssRef)`, then the error
    signal. -/
def registerError : Action QZeroConfPrivate Output := fun s =>
  ((cleanUp [] s.dnssRef).andThen (.emit (.signal (.error .serviceRegistrationFailed)))) s

/-- `QZeroConfPrivate::registerCallback`. -/
def registerCallback (errorCode : Int32) : Action QZeroConfPrivate Output :=
  if errorCode = kDNSServiceErr_NoError then .emit (.signal .servicePublished) else registerError

/-- A listed service is taken off the list, with the resolver for it. -/
def removeService (k : QString) (zcs : ServiceId) : Action QZeroConfPrivate Output :=
  (Action.update fun s => { s with services := s.services.erase k }).andThen
    ((cleanUpAt k).andThen fun s => (s, [.signal (.serviceRemoved (shared s zcs))]))

/-- The service that a browse reply announces. -/
def foundService (interfaceIndex : UInt32) (name type domain : CString) : QZeroConfServiceData where
  m_name := QString.fromUtf8 name
  m_type := QString.fromUtf8 type
  m_domain := QString.fromUtf8 domain
  m_interfaceIndex := interfaceIndex

/-- `QZeroConfPrivate::browseCallback`. -/
def browseCallback (start : Start) (visit : List QString) (flags interfaceIndex : UInt32) (err : Int32)
    (name type domain : CString) : Action QZeroConfPrivate Output := fun s =>
  if err = kDNSServiceErr_NoError then
    let k := serviceKey (QString.fromUtf8 name) interfaceIndex.toNat
    if flags &&& kDNSServiceFlagsAdd ≠ 0 then
      if s.services.contains k then (s, [])
      else resolve start s.next (s.newService (foundService interfaceIndex name type domain))
    else match s.services[k]? with
      | none => (s, [])
      | some zcs => removeService k zcs s
  else browserError visit s

/-- The fields that a resolve reply writes. What the TXT loop does past the end
    of a record is undefined; here the map stays as it is. -/
def setResolved (hostName : CString) (port txtLen : UInt16) (txtRecord : QByteArray)
    (zcs : QZeroConfServiceData) : QZeroConfServiceData :=
  { zcs with
    m_txt := match readTxt txtLen txtRecord zcs.m_txt with
      | .ok m_txt => m_txt
      | .error _ => zcs.m_txt
    m_host := QString.fromUtf8 hostName
    m_port := qFromBigEndian port }

/-- The address lookup of a resolver is closed. -/
def closeAddress (r : ResolverId) : Action QZeroConfPrivate Output := fun s =>
  match (s.live r).bind fun resolver => resolver.DNSaddressRef with
  | none => (s, [])
  | some ref =>
    (s.modifyResolver r fun resolver => { resolver with DNSaddressRef := none },
      [.DNSServiceRefDeallocate (some ref)])

/-- `DNSServiceGetAddrInfo` for a resolver, with the end of the reply. -/
def openAddress (start : Start) (interfaceIndex : UInt32) (hostName : CString) (r : ResolverId) :
    Action QZeroConfPrivate Output := fun s =>
  ((Action.emit (.DNSServiceGetAddrInfo (s.newRef start) interfaceIndex s.protocol hostName)).andThen
    ((Action.update (setAddressRef start r)).andThen (cleanUpUnless start r))) s

/-- `QZeroConfPrivate::resolverCallback`; `start` is how
    `DNSServiceGetAddrInfo` ends. -/
def resolverCallback (start : Start) (r : ResolverId) (interfaceIndex : UInt32) (err : Int32)
    (hostName : CString) (port txtLen : UInt16) (txtRecord : QByteArray) :
    Action QZeroConfPrivate Output := fun s =>
  match s.live r with
  | none => (s, [])
  | some resolver =>
    if err ≠ kDNSServiceErr_NoError then Resolver.cleanUp r s
    else
      ((Action.update (modifyService resolver.zcs (setResolved hostName port txtLen txtRecord))).andThen
        ((closeAddress r).andThen (openAddress start interfaceIndex hostName r))) s

/-- A service is listed under a key, or reported again where the key is listed. -/
def listService (zcs : ServiceId) (k : QString) : Action QZeroConfPrivate Output := fun s =>
  if s.services.contains k then (s, [.signal (.serviceUpdated (shared s zcs))])
  else ({ s with services := s.services.insert k zcs }, [.signal (.serviceAdded (shared s zcs))])

/-- `QZeroConfPrivate::addressReply`, which files the service under the
    interface of the reply. -/
def addressReply (r : ResolverId) (flags interfaceIndex : UInt32) (err : Int32) (hAddress : QHostAddress) :
    Action QZeroConfPrivate Output := fun s =>
  match s.live r with
  | none => (s, [])
  | some resolver =>
    if err = kDNSServiceErr_NoError then
      if flags &&& kDNSServiceFlagsAdd ≠ 0 then
        let s := s.setServiceIp resolver.zcs hAddress
        listService resolver.zcs (serviceKey (s.objects resolver.zcs).m_name interfaceIndex.toNat) s
      else (s, [])
    else Resolver.cleanUp r s

/-- `QZeroConf::startServicePublish`; the domain may be null. -/
def startServicePublish (start : Start) (name type : CString) (domain : Option CString) (port : UInt16)
    (interface : UInt32) : Action QZeroConfPrivate Output := fun s =>
  if s.dnssRef.isSome then (s, [.signal (.error .serviceRegistrationFailed)])
  else
    ((Action.emit (.DNSServiceRegister (s.newRef start) interface name type domain (qFromBigEndian port)
        (txtArguments s.txt))).andThen
      ((Action.update (setDnssRef start)).andThen
      (if start = .watched then .skip else registerError))) s

/-- `QZeroConf::stopServicePublish`. -/
def stopServicePublish : Action QZeroConfPrivate Output := fun s => cleanUp [] s.dnssRef s

/-- The `switch` of `startBrowser`: an unsupported protocol falls back to IPv4. -/
def browserProtocol : NetworkLayerProtocol → DNSServiceProtocol
  | .IPv6Protocol => .kDNSServiceProtocol_IPv6
  | _ => .kDNSServiceProtocol_IPv4

/-- `QZeroConf::startBrowser`. -/
def startBrowser (start : Start) (visit : List QString) (type : QString) (protocol : NetworkLayerProtocol) :
    Action QZeroConfPrivate Output := fun s =>
  if s.browser.isSome then (s, [.signal (.error .browserFailed)])
  else
    ((Action.emit (.DNSServiceBrowse (s.newRef start) type.toUtf8)).andThen
      ((Action.update (setBrowser start (browserProtocol protocol))).andThen
      (if start = .watched then .skip else browserError visit))) s

/-- `QZeroConf::stopBrowser`. -/
def stopBrowser (visit : List QString) : Action QZeroConfPrivate Output := fun s => cleanUp visit s.browser s

/-- What can happen to an instance: calls of its API, replies of dns_sd, and
    failures to process a reference. -/
inductive Event where
  | addServiceTxtRecord (nameOnly : QString)
  | addServiceTxtRecordPair (name value : QString)
  | clearServiceTxtRecords
  | startServicePublish (start : Start) (name type : CString) (domain : Option CString) (port : UInt16)
      (interface : UInt32)
  | stopServicePublish
  | registerReply (errorCode : Int32)
  | bsReadFailure
  | startBrowser (start : Start) (visit : List QString) (type : QString) (protocol : NetworkLayerProtocol)
  | stopBrowser (visit : List QString)
  | browseReply (start : Start) (visit : List QString) (flags interfaceIndex : UInt32) (err : Int32)
      (name type domain : CString)
  | browserReadFailure (visit : List QString)
  | resolveReply (start : Start) (r : ResolverId) (interfaceIndex : UInt32) (err : Int32)
      (hostName : CString) (port txtLen : UInt16) (txtRecord : QByteArray)
  | resolverReadyFailure (r : ResolverId)
  | addressReply (r : ResolverId) (flags interfaceIndex : UInt32) (err : Int32) (hAddress : QHostAddress)
  | addressReadyFailure (r : ResolverId)

/-- A reference is processed only while it is open. -/
def whileOpen (ref : QZeroConfPrivate → Option DNSServiceRef) (callback : Action QZeroConfPrivate Output) :
    Action QZeroConfPrivate Output := fun s =>
  if (ref s).isSome then callback s else (s, [])

/-- The reference that a resolver resolves with. -/
def resolverRef (r : ResolverId) (s : QZeroConfPrivate) : Option DNSServiceRef :=
  (s.live r).bind fun resolver => resolver.DNSresolverRef

/-- The reference that a resolver looks its address up with. -/
def addressRef (r : ResolverId) (s : QZeroConfPrivate) : Option DNSServiceRef :=
  (s.live r).bind fun resolver => resolver.DNSaddressRef

/-- The backend, event by event. -/
def step : Step QZeroConfPrivate Event Output
  | s, .addServiceTxtRecord nameOnly => ({ s with txt := addServiceTxtRecord s.txt nameOnly }, [])
  | s, .addServiceTxtRecordPair name value => ({ s with txt := addServiceTxtRecordPair s.txt name value }, [])
  | s, .clearServiceTxtRecords => ({ s with txt := [] }, [])
  | s, .startServicePublish start name type domain port interface =>
    startServicePublish start name type domain port interface s
  | s, .stopServicePublish => stopServicePublish s
  | s, .registerReply errorCode => whileOpen dnssRef (registerCallback errorCode) s
  | s, .bsReadFailure => whileOpen dnssRef registerError s
  | s, .startBrowser start visit type protocol => startBrowser start visit type protocol s
  | s, .stopBrowser visit => stopBrowser visit s
  | s, .browseReply start visit flags interfaceIndex err name type domain =>
    whileOpen browser (browseCallback start visit flags interfaceIndex err name type domain) s
  | s, .browserReadFailure visit => whileOpen browser (browserError visit) s
  | s, .resolveReply start r interfaceIndex err hostName port txtLen txtRecord =>
    whileOpen (resolverRef r) (resolverCallback start r interfaceIndex err hostName port txtLen txtRecord) s
  | s, .resolverReadyFailure r => whileOpen (resolverRef r) (Resolver.cleanUp r) s
  | s, .addressReply r flags interfaceIndex err hAddress =>
    whileOpen (addressRef r) (addressReply r flags interfaceIndex err hAddress) s
  | s, .addressReadyFailure r => whileOpen (addressRef r) (Resolver.cleanUp r) s

/-- The states that an instance reaches. -/
def reached (events : List Event) : QZeroConfPrivate := after step {} events

end qtzeroconf.bonjour
