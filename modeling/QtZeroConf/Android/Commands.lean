import QtZeroConf.Android.Instance

open reactive

namespace qtzeroconf.android.commands

/-- `Qt::ApplicationState`. -/
inductive ApplicationState where
  | ApplicationSuspended
  | ApplicationHidden
  | ApplicationInactive
  | ApplicationActive
  deriving DecidableEq

/-- What a call of `startServicePublish` asks for, and what `registerService`
    gets. The entries of the Java map are given by the bytes that `fromString`
    converts. -/
structure Registration where
  name : QString
  type : QString
  port : UInt16
  txtMap : List (QByteArray × QByteArray)

/-- A call of the API that ends in a call of the Java manager. -/
inductive Call where
  | startServicePublish (asked : Registration)
  | stopServicePublish
  | startBrowser (type : QString)
  | stopBrowser

/-- A closure that waits for the Android main thread. It has the number of the
    call that queued it, and what it captures by value; that of
    `startServicePublish` captures `this` for the rest. -/
inductive Task where
  | registerService (call : Nat) (port : UInt16)
  | unregisterService (call : Nat)
  | discoverServices (call : Nat) (type : QString)
  | stopServiceDiscovery (call : Nat)

/-- The closure of `startServicePublish` while it runs: the keys that it has
    still to put into the Java map, once it has them, the entries that it has
    put there, and the arguments that it has read. -/
structure Registering where
  call : Nat
  port : UInt16
  keys : Option (List QByteArray) := none
  txtMap : List (QByteArray × QByteArray) := []
  name : Option QString := none
  type : Option QString := none

/-- A call of `startServicePublish` that has set `publishName`; `publishType`
    comes next, and then the closure. -/
structure Starting where
  call : Nat
  type : QString
  port : UInt16
  typeSet : Bool := false

/-- One instance with the Qt thread and the Android main thread, and the calls
    made so far. What is left of a destroyed instance is its last state. -/
structure Threads where
  ref : QZeroConfPrivate := {}
  alive : Bool := true
  applicationState : ApplicationState := .ApplicationActive
  starting : Option Starting := none
  tasks : List Task := []
  running : Option Registering := none
  calls : List Call := []

/-- The calls of the Java manager, each with the number of the call of the API
    that it is for, and the accesses of a closure to a destroyed instance. -/
inductive Output where
  | registerService (call : Nat) (registration : Registration)
  | unregisterService (call : Nat)
  | discoverServices (call : Nat) (type : QString)
  | stopServiceDiscovery (call : Nat)
  | readDestroyed (call : Nat)

/-- What the two threads do: calls of the API, the rest of a call of
    `startServicePublish`, changes of the application state, and steps of the
    Android main thread. -/
inductive Event where
  | startServicePublish (name type : CString) (port : UInt16)
  | continueStart
  | stopServicePublish
  | startBrowser (type : QString)
  | stopBrowser
  | addServiceTxtRecord (nameOnly : QString)
  | addServiceTxtRecordPair (name value : QString)
  | clearServiceTxtRecords
  | destroy
  | applicationStateChanged (applicationState : ApplicationState)
  | androidThread (typeFirst : Bool)

namespace Threads

/-- `runOnAndroidMainThread`, for a new call. -/
def queue (call : Call) (task : Nat → Task) : Action Threads Output :=
  .update fun s => { s with calls := s.calls ++ [call], tasks := s.tasks ++ [task s.calls.length] }

/-- A call of the Java manager on the Qt thread, for a new call. -/
def callMethod (call : Call) (method : Nat → Output) : Action Threads Output := fun s =>
  ({ s with calls := s.calls ++ [call] }, [method s.calls.length])

/-- `QZeroConfPrivate::startServicePublish`, as far as `publishName`. -/
def startServicePublish (name type : CString) (port : UInt16) : Action Threads Output :=
  .update fun s =>
    let publishName := QString.fromUtf8 name
    let publishType := QString.fromUtf8 type
    let asked := { name := publishName, type := publishType, port, txtMap := s.ref.txtRecords.toList }
    { s with
      ref := { s.ref with publishName }
      starting := some { call := s.calls.length, type := publishType, port }
      calls := s.calls ++ [.startServicePublish asked] }

/-- `QZeroConfPrivate::startServicePublish` goes on. -/
def continueStart : Action Threads Output := fun s =>
  match s.starting with
  | none => (s, [])
  | some start =>
    if start.typeSet then
      ({ s with starting := none, tasks := s.tasks ++ [.registerService start.call start.port] }, [])
    else
      ({ s with
          ref := { s.ref with publishType := start.type }
          starting := some { start with typeSet := true } }, [])

/-- `QZeroConfPrivate::stopServicePublish`. -/
def stopServicePublish : Action Threads Output := fun s =>
  if s.applicationState = .ApplicationSuspended then callMethod .stopServicePublish .unregisterService s
  else queue .stopServicePublish .unregisterService s

/-- `QZeroConfPrivate::startBrowser`. -/
def startBrowser (type : QString) : Action Threads Output :=
  queue (.startBrowser type) fun call => .discoverServices call type

/-- `QZeroConfPrivate::stopBrowser`. -/
def stopBrowser : Action Threads Output := fun s =>
  if s.applicationState = .ApplicationSuspended then callMethod .stopBrowser .stopServiceDiscovery s
  else queue .stopBrowser .stopServiceDiscovery s

/-- The TXT records are written to. -/
def setTxtRecords (f : QMap QByteArray QByteArray → QMap QByteArray QByteArray) : Action Threads Output :=
  .update fun s => { s with ref := { s.ref with txtRecords := f s.ref.txtRecords } }

/-- The closure reads a member of the instance. -/
def read (call : Nat) (task : QZeroConfPrivate → Registering) : Action Threads Output := fun s =>
  ({ s with running := some (task s.ref) }, if s.alive then [] else [.readDestroyed call])

/-- The next thing that the closure of `startServicePublish` does. The order in
    which it evaluates the name and the type is left open. -/
def turn (typeFirst : Bool) (task : Registering) : Action Threads Output :=
  match task.keys with
  | none => read task.call fun ref => { task with keys := some ref.txtRecords.keys }
  | some (key :: keys) =>
    read task.call fun ref =>
      { task with keys := some keys, txtMap := task.txtMap ++ [(key, ref.txtRecords.getD key [])] }
  | some [] =>
    match task.name, task.type with
    | some name, some type => fun s =>
      ({ s with running := none },
        [.registerService task.call { name, type, port := task.port, txtMap := task.txtMap }])
    | some _, none => read task.call fun ref => { task with type := some ref.publishType }
    | none, some _ => read task.call fun ref => { task with name := some ref.publishName }
    | none, none =>
      read task.call fun ref =>
        if typeFirst then { task with type := some ref.publishType }
        else { task with name := some ref.publishName }

/-- A task that the Android main thread has taken off its queue begins. -/
def begin : Task → Action Threads Output
  | .registerService call port => .update fun s => { s with running := some { call, port } }
  | .unregisterService call => .emit (.unregisterService call)
  | .discoverServices call type => .emit (.discoverServices call type)
  | .stopServiceDiscovery call => .emit (.stopServiceDiscovery call)

/-- The Android main thread makes a step. -/
def androidThread (typeFirst : Bool) : Action Threads Output := fun s =>
  match s.running with
  | some task => turn typeFirst task s
  | none =>
    match s.tasks with
    | [] => (s, [])
    | task :: tasks => begin task { s with tasks }

/-- The API is called only on an instance that is alive, and by the Qt thread
    only between two calls. -/
def whileFree (call : Action Threads Output) : Action Threads Output := fun s =>
  if s.alive ∧ s.starting.isNone then call s else (s, [])

end Threads

open Threads

/-- The two threads, event by event. -/
def step : Step Threads Event Output
  | s, .startServicePublish name type port => whileFree (startServicePublish name type port) s
  | s, .continueStart => continueStart s
  | s, .stopServicePublish => whileFree stopServicePublish s
  | s, .startBrowser type => whileFree (startBrowser type) s
  | s, .stopBrowser => whileFree stopBrowser s
  | s, .addServiceTxtRecord nameOnly =>
    whileFree (setTxtRecords fun txtRecords => txtRecords.insert nameOnly.toUtf8 []) s
  | s, .addServiceTxtRecordPair name value =>
    whileFree (setTxtRecords fun txtRecords => txtRecords.insert name.toUtf8 value.toUtf8) s
  | s, .clearServiceTxtRecords => whileFree (setTxtRecords fun _ => ∅) s
  | s, .destroy => whileFree (.update fun s => { s with alive := false }) s
  | s, .applicationStateChanged applicationState => ({ s with applicationState }, [])
  | s, .androidThread typeFirst => androidThread typeFirst s

/-- The states that the threads reach. -/
def reached (events : List Event) : Threads := after step {} events

end qtzeroconf.android.commands
