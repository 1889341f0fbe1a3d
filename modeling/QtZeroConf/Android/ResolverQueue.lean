import QtZeroConf.Library.Reactive
import QtZeroConf.Service

open reactive

namespace qtzeroconf.android

/-- The address of a `QZeroConfNsdManager`. -/
abbrev Manager := Nat

/-- The address of an `NsdServiceInfo`. -/
abbrev ServiceRef := Nat

/-- The host of a service that is resolved. -/
structure InetAddress where
  hostName : QString
  hostAddress : QString

/-- An `NsdServiceInfo`; the host, which only a resolved one has, is apart. -/
structure NsdServiceInfo where
  serviceName : QString
  serviceType : QString
  port : Int32 := 0
  attributes : QMap QString QByteArray := ∅

/-- `NsdManager.FAILURE_ALREADY_ACTIVE`. -/
def FAILURE_ALREADY_ACTIVE : Int32 := 3

/-- A call of `resolveService` that is not answered yet: the manager whose
    resolve listener it was given, and the service. -/
structure ResolveCall where
  listener : Manager
  service : Option ServiceRef

/-- A service that discovery has found, with the manager whose discovery
    listener was told. -/
structure FoundService where
  finder : Manager
  info : NsdServiceInfo

/-- The static `resolverQueue` and `pendingResolve` that all managers share,
    where a reference may be null, the calls that the system has not answered,
    and the services found so far. -/
structure NsdResolver where
  resolverQueue : List (Option ServiceRef) := []
  pendingResolve : Option ServiceRef := none
  outstanding : List ResolveCall := []
  found : List FoundService := []

/-- The calls into the system and into native code. `onServiceResolvedJNI` is
    recorded with the service that was being resolved. -/
inductive Output where
  | resolveService (listener : Manager) (service : Option ServiceRef)
  | onServiceResolvedJNI (service : Option ServiceRef) (id : Int64)
      (name type hostname address : QString) (port : Int32) (txtRecords : QMap QString QByteArray)

/-- `processResolverQueue`, called on a manager. -/
def processResolverQueue (this : Manager) : Action NsdResolver Output := fun s =>
  match s.resolverQueue with
  | [] => (s, [])
  | service :: rest =>
    if s.pendingResolve.isSome then (s, [])
    else
      ({ s with
          pendingResolve := service
          resolverQueue := rest
          outstanding := s.outstanding ++ [{ listener := this, service }] },
        [.resolveService this service])

/-- `enqueueResolver`, called on a manager. -/
def enqueueResolver (this : Manager) (serviceInfo : Option ServiceRef) : Action NsdResolver Output :=
  (Action.update fun s => { s with resolverQueue := s.resolverQueue ++ [serviceInfo] }).andThen
    (processResolverQueue this)

/-- `onServiceFound` of a discovery listener. -/
def onServiceFound (this : Manager) (info : NsdServiceInfo) : Action NsdResolver Output := fun s =>
  enqueueResolver this (some s.found.length) { s with found := s.found ++ [{ finder := this, info }] }

/-- The end of both callbacks of a resolve listener. -/
def resolveNext (this : Manager) : Action NsdResolver Output :=
  (Action.update fun s => { s with pendingResolve := none }).andThen (processResolverQueue this)

/-- `onResolveFailed` of a resolve listener. -/
def onResolveFailed (this : Manager) (errorCode : Int32) : Action NsdResolver Output := fun s =>
  ((if errorCode = FAILURE_ALREADY_ACTIVE then enqueueResolver this s.pendingResolve else .skip).andThen
    (resolveNext this)) s

/-- `onServiceResolved` of a resolve listener, for a call about `service`. -/
def onServiceResolved (id : Manager → Int64) (this : Manager) (service : Option ServiceRef)
    (serviceInfo : NsdServiceInfo) (host : InetAddress) : Action NsdResolver Output :=
  (Action.emit (.onServiceResolvedJNI service (id this) serviceInfo.serviceName serviceInfo.serviceType
    host.hostName host.hostAddress serviceInfo.port serviceInfo.attributes)).andThen (resolveNext this)

/-- The callbacks of the managers. A resolve callback answers one of the calls
    that are outstanding. -/
inductive Event where
  | onServiceFound (this : Manager) (info : NsdServiceInfo)
  | onResolveFailed (call : Nat) (errorCode : Int32)
  | onServiceResolved (call : Nat) (serviceInfo : NsdServiceInfo) (host : InetAddress)

/-- The system answers an outstanding call, with a callback on its listener. -/
def answer (call : Nat) (callback : ResolveCall → Action NsdResolver Output) : Action NsdResolver Output :=
  fun s =>
    match s.outstanding[call]? with
    | none => (s, [])
    | some c => callback c { s with outstanding := s.outstanding.eraseIdx call }

/-- All managers together, callback by callback; `id` has the native address
    that each manager was created with. -/
def step (id : Manager → Int64) : Step NsdResolver Event Output
  | s, .onServiceFound this info => onServiceFound this info s
  | s, .onResolveFailed call errorCode => answer call (fun c => onResolveFailed c.listener errorCode) s
  | s, .onServiceResolved call serviceInfo host =>
    answer call (fun c => onServiceResolved id c.listener c.service serviceInfo host) s

/-- The states that the managers reach together. -/
def reached (id : Manager → Int64) (events : List Event) : NsdResolver := after (step id) {} events

end qtzeroconf.android
