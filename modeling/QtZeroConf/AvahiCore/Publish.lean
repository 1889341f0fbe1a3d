import QtZeroConf.Library.Reactive
import QtZeroConf.Service
import QtZeroConf.Txt.Avahi

open reactive

namespace qtzeroconf.avahicore

open avahi

/-- `AVAHI_IF_UNSPEC`. -/
def AVAHI_IF_UNSPEC : Int32 := -1

/-- `AvahiServerState`. -/
inductive AvahiServerState where
  | AVAHI_SERVER_INVALID
  | AVAHI_SERVER_REGISTERING
  | AVAHI_SERVER_RUNNING
  | AVAHI_SERVER_COLLISION
  | AVAHI_SERVER_FAILURE
  deriving DecidableEq

/-- `AvahiEntryGroupState`. -/
inductive AvahiEntryGroupState where
  | AVAHI_ENTRY_GROUP_UNCOMMITED
  | AVAHI_ENTRY_GROUP_REGISTERING
  | AVAHI_ENTRY_GROUP_ESTABLISHED
  | AVAHI_ENTRY_GROUP_COLLISION
  | AVAHI_ENTRY_GROUP_FAILURE
  deriving DecidableEq

/-- What `avahi_server_add_service_strlst` is given of a service. The domain may
    be null. -/
structure Registration where
  interface : Int32
  name : CString
  type : CString
  domain : Option CString
  port : UInt16
  txt : AvahiStringList
  deriving DecidableEq

/-- How far a registration gets: no entry group can be created, the service
    cannot be added to it, it cannot be committed, or all of it succeeds. -/
inductive Answer where
  | noGroup
  | addFailed
  | commitFailed
  | accepted
  deriving DecidableEq

/-- A server that accepts every registration. -/
def acceptAll (_ : Registration) : Answer := .accepted

/-- A server that rejects every registration. -/
def rejectAll (_ : Registration) : Answer := .addFailed

/-- The publishing half of an avahicore `QZeroConfPrivate`. `nextGroup` numbers
    the entry groups that are created for it. -/
structure Publisher where
  group : Option Nat := none
  txt : AvahiStringList := []
  ready : Bool := false
  registerWaiting : Bool := false
  name : QString := []
  type : QString := []
  domain : QString := []
  port : Int32 := 0
  nextGroup : Nat := 0

/-- The signals of publishing and its calls into avahi-core. -/
inductive PublishOutput where
  | signal (signal : Signal QZeroConfServiceData)
  | s_entry_group_new (group : Option Nat)
  | server_add_service_strlst (group : Nat) (registration : Registration)
  | s_entry_group_commit (group : Nat)
  | s_entry_group_free (group : Nat)

/-- The error signal of a registration that fails. -/
def registrationFailed : PublishOutput := .signal (.error .serviceRegistrationFailed)

/-- `QZeroConfPrivate::registerService`; `answer` is what avahi-core makes of a
    registration. -/
def registerService (answer : Registration → Answer) (name type : CString) (domain : Option CString)
    (port : UInt16) (interface : UInt32) : Action Publisher PublishOutput := fun s =>
  let interface := if interface = 0 then AVAHI_IF_UNSPEC else interface.toInt32
  let registration : Registration := { interface, name, type, domain, port, txt := s.txt }
  let group := s.nextGroup
  let failed : Publisher := { s with group := none, nextGroup := group + 1 }
  match answer registration with
  | .noGroup => ({ s with group := none }, [.s_entry_group_new none, registrationFailed])
  | .addFailed =>
    (failed, [.s_entry_group_new (some group), .server_add_service_strlst group registration,
      .s_entry_group_free group, registrationFailed])
  | .commitFailed =>
    (failed, [.s_entry_group_new (some group), .server_add_service_strlst group registration,
      .s_entry_group_commit group, .s_entry_group_free group, registrationFailed])
  | .accepted =>
    ({ s with group := some group, nextGroup := group + 1 },
      [.s_entry_group_new (some group), .server_add_service_strlst group registration,
        .s_entry_group_commit group])

/-- `QZeroConfPrivate::serverCallback`. -/
def serverCallback (answer : Registration → Answer) (state : AvahiServerState) :
    Action Publisher PublishOutput := fun s =>
  match state with
  | .AVAHI_SERVER_RUNNING =>
    let s := { s with ready := true }
    if s.registerWaiting then
      registerService answer s.name.toUtf8.cString s.type.toUtf8.cString (some s.domain.toUtf8.cString)
        s.port.toUInt32.toUInt16 0 { s with registerWaiting := false }
    else (s, [])
  | .AVAHI_SERVER_COLLISION => (s, [])
  | .AVAHI_SERVER_REGISTERING => (s, [])
  | .AVAHI_SERVER_FAILURE => (s, [])
  | .AVAHI_SERVER_INVALID => (s, [])

/-- `QZeroConfPrivate::groupCallback`, for the group `g`. -/
def groupCallback (g : Nat) (state : AvahiEntryGroupState) : Action Publisher PublishOutput := fun s =>
  match state with
  | .AVAHI_ENTRY_GROUP_ESTABLISHED => (s, [.signal .servicePublished])
  | .AVAHI_ENTRY_GROUP_COLLISION =>
    ({ s with group := none }, [.s_entry_group_free g, .signal (.error .serviceNameCollision)])
  | .AVAHI_ENTRY_GROUP_FAILURE => ({ s with group := none }, [.s_entry_group_free g, registrationFailed])
  | .AVAHI_ENTRY_GROUP_UNCOMMITED => (s, [])
  | .AVAHI_ENTRY_GROUP_REGISTERING => (s, [])

/-- `QZeroConf::startServicePublish`, which keeps the request for later until
    the server is running. A null domain becomes an empty text then. -/
def startServicePublish (answer : Registration → Answer) (name type : CString) (domain : Option CString)
    (port : UInt16) (interface : UInt32) : Action Publisher PublishOutput := fun s =>
  if s.group.isSome then (s, [registrationFailed])
  else if s.ready then registerService answer name type domain port interface s
  else
    ({ s with
        registerWaiting := true
        name := QString.fromUtf8 name
        type := QString.fromUtf8 type
        domain := QString.fromUtf8 (domain.getD [])
        port := port.toUInt32.toInt32 }, [])

/-- `QZeroConf::stopServicePublish`. -/
def stopServicePublish : Action Publisher PublishOutput := fun s =>
  match s.group with
  | none => (s, [])
  | some group => ({ s with group := none }, [.s_entry_group_free group])

/-- `QZeroConf::addServiceTxtRecord(nameOnly)`. -/
def addServiceTxtRecord (nameOnly : QString) (txt : AvahiStringList) : AvahiStringList :=
  avahi_string_list_add txt nameOnly.toUtf8.cString

/-- `QZeroConf::addServiceTxtRecord(name, value)`. -/
def addServiceTxtRecordPair (name value : QString) (txt : AvahiStringList) : AvahiStringList :=
  addServiceTxtRecord (name ++ [unit '='] ++ value) txt

/-- The arguments of `startServicePublish`. -/
structure Request where
  name : CString
  type : CString
  domain : Option CString
  port : UInt16
  interface : UInt32
  deriving DecidableEq

/-- A call of the publishing API. -/
inductive Call where
  | startServicePublish (request : Request)
  | stopServicePublish
  | addServiceTxtRecord (nameOnly : QString)
  | addServiceTxtRecordPair (name value : QString)
  | clearServiceTxtRecords
  deriving DecidableEq

/-- What a call does to an instance. -/
def call (answer : Registration → Answer) : Step Publisher Call PublishOutput
  | s, .startServicePublish request =>
    startServicePublish answer request.name request.type request.domain request.port request.interface s
  | s, .stopServicePublish => stopServicePublish s
  | s, .addServiceTxtRecord nameOnly => ({ s with txt := addServiceTxtRecord nameOnly s.txt }, [])
  | s, .addServiceTxtRecordPair name value => ({ s with txt := addServiceTxtRecordPair name value s.txt }, [])
  | s, .clearServiceTxtRecords => ({ s with txt := [] }, [])

/-- Registering leaves the flags of an instance as they are. -/
theorem registerService_flags (answer : Registration → Answer) (name type : CString) (domain : Option CString)
    (port : UInt16) (interface : UInt32) (s : Publisher) :
    (registerService answer name type domain port interface s).1.ready = s.ready ∧
      (registerService answer name type domain port interface s).1.registerWaiting = s.registerWaiting := by
  unfold registerService
  dsimp only
  generalize answer _ = outcome
  cases outcome <;> exact ⟨rfl, rfl⟩

/-- No call makes an instance ready, or takes this back. -/
theorem call_ready (answer : Registration → Answer) (s : Publisher) (c : Call) :
    (call answer s c).1.ready = s.ready := by
  cases c with
  | startServicePublish r =>
    simp only [call, startServicePublish]
    split_ifs
    · rfl
    · exact (registerService_flags ..).1
    · rfl
  | stopServicePublish =>
    simp only [call, stopServicePublish]
    split <;> rfl
  | _ => rfl

/-- An instance that is ready keeps no request. -/
theorem call_registerWaiting (answer : Registration → Answer) {s : Publisher} (hready : s.ready = true)
    (c : Call) : (call answer s c).1.registerWaiting = s.registerWaiting := by
  cases c with
  | startServicePublish r =>
    simp only [call, startServicePublish, hready, if_true]
    split
    · rfl
    · exact (registerService_flags ..).2
  | stopServicePublish =>
    simp only [call, stopServicePublish]
    split <;> rfl
  | _ => rfl

/-- A server that gets to running makes its instance ready, with no request
    left. -/
theorem serverCallback_running (answer : Registration → Answer) (s : Publisher) :
    (serverCallback answer .AVAHI_SERVER_RUNNING s).1.ready = true ∧
      (serverCallback answer .AVAHI_SERVER_RUNNING s).1.registerWaiting = false := by
  simp only [serverCallback]
  split
  · obtain ⟨hready, hwaiting⟩ := registerService_flags answer s.name.toUtf8.cString s.type.toUtf8.cString
      (some s.domain.toUtf8.cString) s.port.toUInt32.toUInt16 0
      { s with ready := true, registerWaiting := false }
    exact ⟨hready, hwaiting⟩
  · rename_i hwaiting
    exact ⟨rfl, by simpa using hwaiting⟩

theorem groupCallback_flags (g : Nat) (state : AvahiEntryGroupState) (s : Publisher) :
    (groupCallback g state s).1.ready = s.ready ∧
      (groupCallback g state s).1.registerWaiting = s.registerWaiting := by
  cases state <;> exact ⟨rfl, rfl⟩

end qtzeroconf.avahicore
