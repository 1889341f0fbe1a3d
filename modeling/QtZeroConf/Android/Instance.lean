import QtZeroConf.Library.Reactive
import QtZeroConf.Library.Table
import QtZeroConf.Service

open reactive table

namespace qtzeroconf.android

/-- A `QZeroConfPrivate` of the Android backend with `pub->services`; the Java
    object that it refers to is apart. -/
structure QZeroConfPrivate where
  services : QMap QString QZeroConfServiceData := ∅
  browserExists : Bool := false
  publisherExists : Bool := false
  txtRecords : QMap QByteArray QByteArray := ∅
  publishName : QString := []
  publishType : QString := []

/-- A queued invocation of one of the private slots. -/
inductive Invocation where
  | onServiceResolved (name type hostname : QString) (address : QHostAddress) (port : Int32)
      (txtRecords : TxtMap)
  | onServiceRemoved (name : QString)
  | onBrowserStateChanged (running error : Bool)
  | onPublisherStateChanged (running error : Bool)
  | onServiceNameChanged (newName : QString)

/-- `remove(QRegularExpression("^."))`: the first character goes, unless it ends
    a line. -/
def removeFirst : QString → QString
  | [] => []
  | u :: rest =>
    if u = unit '\n' then u :: rest
    else match rest with
      | v :: rest' => if isHighSurrogate u && isLowSurrogate v then rest' else rest
      | [] => []

namespace QZeroConfPrivate

/-- `onServiceResolved`, which writes to the listed object or to a new one. -/
def onServiceResolved (name type hostname : QString) (address : QHostAddress) (port : Int32)
    (txtRecords : TxtMap) : Action QZeroConfPrivate (Signal QZeroConfServiceData) := fun s =>
  let zcs : QZeroConfServiceData := { s.services[name]?.getD {} with
    m_name := name
    m_type := removeFirst type
    m_host := hostname
    m_port := UInt16.ofInt port.toInt
    m_ip := address
    m_txt := txtRecords }
  ({ s with services := s.services.insert name zcs },
    [if s.services.contains name then .serviceUpdated zcs else .serviceAdded zcs])

/-- `onServiceRemoved`. -/
def onServiceRemoved (name : QString) : Action QZeroConfPrivate (Signal QZeroConfServiceData) := fun s =>
  match s.services[name]? with
  | none => (s, [])
  | some service => ({ s with services := s.services.erase name }, [.serviceRemoved service])

/-- `onBrowserStateChanged`. -/
def onBrowserStateChanged (running error : Bool) : Action QZeroConfPrivate (Signal QZeroConfServiceData) :=
  fun s => ({ s with browserExists := running }, if error then [.error .browserFailed] else [])

/-- `onPublisherStateChanged`. -/
def onPublisherStateChanged (running error : Bool) : Action QZeroConfPrivate (Signal QZeroConfServiceData) :=
  fun s => ({ s with publisherExists := running },
    (if running then [.servicePublished] else []) ++
      if error then [.error .serviceRegistrationFailed] else [])

/-- `onServiceNameChanged`. -/
def onServiceNameChanged (newName : QString) : Action QZeroConfPrivate (Signal QZeroConfServiceData) :=
  .emit (.serviceNameChanged newName)

end QZeroConfPrivate

/-- The event loop of the Qt thread delivers an invocation. -/
def Invocation.deliver : Invocation → Action QZeroConfPrivate (Signal QZeroConfServiceData)
  | onServiceResolved name type hostname address port txtRecords =>
    QZeroConfPrivate.onServiceResolved name type hostname address port txtRecords
  | onServiceRemoved name => QZeroConfPrivate.onServiceRemoved name
  | onBrowserStateChanged running error => QZeroConfPrivate.onBrowserStateChanged running error
  | onPublisherStateChanged running error => QZeroConfPrivate.onPublisherStateChanged running error
  | onServiceNameChanged newName => QZeroConfPrivate.onServiceNameChanged newName

/-- Whether a slot lists the name or takes it off the list, if either. -/
def Invocation.lists? (name : QString) : Invocation → Option Bool
  | onServiceResolved name' _ _ _ _ _ => if name' = name then some true else none
  | onServiceRemoved name' => if name' = name then some false else none
  | _ => none

/-- What a slot makes of `browserExists`, if anything. -/
def Invocation.runs? : Invocation → Option Bool
  | onBrowserStateChanged running _ => some running
  | _ => none

theorem contains_deliver (name : QString) (invocation : Invocation) (s : QZeroConfPrivate) :
    (invocation.deliver s).1.services.contains name =
      (invocation.lists? name).getD (s.services.contains name) := by
  cases invocation with
  | onServiceResolved name' type hostname address port txtRecords =>
    by_cases hname : name' = name <;>
      simp [Invocation.deliver, QZeroConfPrivate.onServiceResolved, Invocation.lists?, hname]
  | onServiceRemoved name' =>
    simp only [Invocation.deliver, QZeroConfPrivate.onServiceRemoved]
    by_cases hname : name' = name
    · subst hname
      split
      · rename_i habsent
        rw [Std.ExtTreeMap.contains_eq_isSome_getElem?, habsent]
        simp [Invocation.lists?]
      · simp [Invocation.lists?]
    · split <;> simp [Invocation.lists?, hname]
  | _ => rfl

theorem browserExists_deliver (invocation : Invocation) (s : QZeroConfPrivate) :
    (invocation.deliver s).1.browserExists = invocation.runs?.getD s.browserExists := by
  cases invocation with
  | onServiceRemoved name =>
    simp only [Invocation.deliver, QZeroConfPrivate.onServiceRemoved]
    split <;> rfl
  | _ => rfl

/-- A service of the name is added or updated. -/
def Reports (name : QString) : Signal QZeroConfServiceData → Prop
  | .serviceAdded zcs | .serviceUpdated zcs => zcs.m_name = name
  | _ => False

/-- Only the slot for a resolved service reports it. -/
theorem lists_of_reports {name : QString} {invocation : Invocation} {s : QZeroConfPrivate}
    {o : Signal QZeroConfServiceData} (ho : o ∈ (invocation.deliver s).2) (h : Reports name o) :
    invocation.lists? name = some true := by
  cases invocation with
  | onServiceResolved name' type hostname address port txtRecords =>
    rw [List.mem_singleton.mp ho] at h
    have hname : name' = name := by
      split at h <;> exact h
    simp [Invocation.lists?, hname]
  | onServiceRemoved name' =>
    simp only [Invocation.deliver, QZeroConfPrivate.onServiceRemoved] at ho
    split at ho
    · cases ho
    · rw [List.mem_singleton.mp ho] at h
      cases h
  | onBrowserStateChanged running error =>
    cases error with
    | false => cases ho
    | true =>
      rw [List.mem_singleton.mp ho] at h
      cases h
  | onPublisherStateChanged running error =>
    simp only [Invocation.deliver, QZeroConfPrivate.onPublisherStateChanged, List.mem_append] at ho
    rcases ho with ho | ho
    · split at ho
      · rw [List.mem_singleton.mp ho] at h
        cases h
      · cases ho
    · split at ho
      · rw [List.mem_singleton.mp ho] at h
        cases h
      · cases ho
  | onServiceNameChanged newName =>
    rw [List.mem_singleton.mp ho] at h
    cases h

/-- The slot for a resolved service reports it. -/
theorem reports_of_lists {name : QString} {invocation : Invocation} (h : invocation.lists? name = some true)
    (s : QZeroConfPrivate) : ∃ o ∈ (invocation.deliver s).2, Reports name o := by
  cases invocation with
  | onServiceResolved name' type hostname address port txtRecords =>
    have hname : name' = name := by
      by_contra hne
      simp [Invocation.lists?, hne] at h
    refine ⟨_, List.mem_singleton_self _, ?_⟩
    split <;> exact hname
  | onServiceRemoved name' =>
    simp only [Invocation.lists?] at h
    split at h <;> cases h
  | _ => cases h

/-- A call of one of the native methods, without the id. -/
inductive NativeCall where
  | onServiceResolvedJNI (name type hostname address : QString) (port : Int32)
      (txtRecords : QMap QString QByteArray)
  | onServiceRemovedJNI (name : QString)
  | onBrowserStateChangedJNI (running error : Bool)
  | onPublisherStateChangedJNI (running error : Bool)
  | onServiceNameChangedJNI (newName : QString)

/-- The loop of `onServiceResolvedJNI` over the Java map. -/
def txtMap (txtRecords : QMap QString QByteArray) : TxtMap :=
  insertAll (fun entry : QString × QByteArray => entry.1.toUtf8) (fun entry => entry.2) txtRecords.toList ∅

/-- The invocation that a native method queues; `parse` reads an address as the
    constructor of `QHostAddress` does. -/
def NativeCall.invocation (parse : QString → QHostAddress) : NativeCall → Invocation
  | onServiceResolvedJNI name type hostname address port txtRecords =>
    .onServiceResolved name type hostname (parse address) port (txtMap txtRecords)
  | onServiceRemovedJNI name => .onServiceRemoved name
  | onBrowserStateChangedJNI running error => .onBrowserStateChanged running error
  | onPublisherStateChangedJNI running error => .onPublisherStateChanged running error
  | onServiceNameChangedJNI newName => .onServiceNameChanged newName

end qtzeroconf.android
