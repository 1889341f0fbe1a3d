import QtZeroConf.Avahi.Discovery
import QtZeroConf.AvahiCore.Publish
import QtZeroConf.Library.Handles

open reactive handles

namespace qtzeroconf.avahicore

open avahi

/-- An avahicore `QZeroConfPrivate`. -/
structure QZeroConfPrivate where
  publisher : Publisher := {}
  discovery : Discovery := {}

/-- What an instance emits: signals and calls into avahi-core. -/
inductive InstanceOutput where
  | publish (output : PublishOutput)
  | discover (output : Output)

/-- What an action of the publishing half does to an instance. -/
def publishing (a : Action Publisher PublishOutput) : Action QZeroConfPrivate InstanceOutput := fun s =>
  ({ s with publisher := (a s.publisher).1 }, (a s.publisher).2.map .publish)

/-- What an action of the discovery half does to an instance. -/
def discovering (a : Action Discovery Output) : Action QZeroConfPrivate InstanceOutput := fun s =>
  ({ s with discovery := (a s.discovery).1 }, (a s.discovery).2.map .discover)

/-- The kinds of objects that instances register with a server. -/
inductive Kind where
  | entryGroup
  | serviceBrowser
  | serviceResolver
  deriving DecidableEq

/-- An object that is registered with a server: its kind, the instance that is
    its userdata, and the number this instance knows it by. -/
structure Object where
  kind : Kind
  userdata : Nat
  handle : Nat
  deriving DecidableEq

/-- What an output does to the objects of the server. -/
def InstanceOutput.effect (i : Nat) : InstanceOutput → Option (Effect Object)
  | .publish (.s_entry_group_new (some group)) => some (.register ⟨.entryGroup, i, group⟩)
  | .publish (.s_entry_group_free group) => some (.release ⟨.entryGroup, i, group⟩)
  | .publish (.s_entry_group_new none) | .publish (.signal _) | .publish (.server_add_service_strlst _ _)
  | .publish (.s_entry_group_commit _) => none
  | .discover (.service_browser_new handle _ _) => some (.register ⟨.serviceBrowser, i, handle⟩)
  | .discover (.service_browser_free handle) => some (.release ⟨.serviceBrowser, i, handle⟩)
  | .discover (.service_resolver_new resolver) => some (.register ⟨.serviceResolver, i, resolver.handle⟩)
  | .discover (.service_resolver_free (some resolver)) =>
    some (.release ⟨.serviceResolver, i, resolver.handle⟩)
  | .discover (.service_resolver_free none) | .discover (.signal _) => none

/-- The objects of the server after the outputs of instance `i`. -/
def registered (i : Nat) (objects : List Object) (outputs : List InstanceOutput) : List Object :=
  applyAll objects (outputs.filterMap (InstanceOutput.effect i))

/-- An `AvahiServer`, with the userdata of its state callback. -/
structure AvahiServer where
  state : AvahiServerState
  userdata : Nat
  objects : List Object

/-- A process that uses the library: the static members of `QZeroConfPrivate`
    and the instances. Instances are numbered as they are constructed. A
    `server` that is null or has been freed is `none`. -/
structure Process where
  server : Option AvahiServer := none
  referenceCount : Nat := 0
  instances : QMap Nat QZeroConfPrivate := ∅
  constructed : Nat := 0

/-- What an instance emits, with its number. -/
abbrev ProcessOutput := Nat × InstanceOutput

/-- An action of instance `i`, if it is there. -/
def Process.on (i : Nat) (a : Action QZeroConfPrivate InstanceOutput) : Action Process ProcessOutput :=
  fun s =>
    match s.instances[i]? with
    | none => (s, [])
    | some pri =>
      let (pri, outputs) := a pri
      ({ s with
          instances := s.instances.insert i pri
          server := s.server.map fun server =>
            { server with objects := registered i server.objects outputs } },
        outputs.map fun output => (i, output))

/-- The constructor of `QZeroConfPrivate`, which always gets a poll; `created` is
    whether Avahi can make a server. The states a server reports while it is
    made are the server callbacks that come next: they find no request to
    replay. -/
def construct (created : Bool) : Action Process ProcessOutput := fun s =>
  let i := s.constructed
  let server :=
    if s.referenceCount = 0 then
      if created then some { state := .AVAHI_SERVER_INVALID, userdata := i, objects := [] } else none
    else s.server
  ({ server
     referenceCount := s.referenceCount + 1
     instances := s.instances.insert i {}
     constructed := i + 1 }, [])

/-- `QZeroConf::~QZeroConf`. Freeing the server frees all of its objects. -/
def destruct (i : Nat) : Action Process ProcessOutput := fun s =>
  match s.instances[i]? with
  | none => (s, [])
  | some _ =>
    let release : Action Process ProcessOutput := .update fun s =>
      { s with
          referenceCount := s.referenceCount - 1
          server := if s.referenceCount - 1 = 0 then none else s.server
          instances := s.instances.erase i }
    ((Process.on i (discovering broswerCleanUp)).andThen release) s

/-- A callback that Avahi makes for an object, to the instance that is its
    userdata. -/
def Process.deliver (o : Object) (kind : Kind) (a : Action QZeroConfPrivate InstanceOutput) :
    Action Process ProcessOutput := fun s =>
  match s.server with
  | none => (s, [])
  | some server => if o ∈ server.objects ∧ o.kind = kind then Process.on o.userdata a s else (s, [])

/-- What can happen to a process: instances come and go, the application calls
    their API, and Avahi makes callbacks. -/
inductive Event where
  | construct (created : Bool)
  | destruct (i : Nat)
  | call (i : Nat) (answer : Registration → Answer) (c : Call)
  | startBrowser (i : Nat) (created : Bool) (type : QString) (protocol : NetworkLayerProtocol)
  | stopBrowser (i : Nat)
  | serverCallback (answer : Registration → Answer) (state : AvahiServerState)
  | groupCallback (group : Object) (state : AvahiEntryGroupState)
  | browseCallback (browser : Object) (created : Bool) (interface : Int32) (protocol : AvahiProtocol)
      (event : AvahiBrowserEvent) (name type domain : CString)
  | resolveCallback (resolver : Object) (interface : Int32) (event : AvahiResolverEvent)
      (name type domain : CString)

/-- Every event is answered with an action. A browser cannot be started without
    a server, which Avahi asserts. -/
def answerEvent : Event → Action Process ProcessOutput
  | .construct created => construct created
  | .destruct i => destruct i
  | .call i answer c => Process.on i (publishing fun p => call answer p c)
  | .startBrowser i created type protocol => fun s =>
    match s.server with
    | none => (s, [])
    | some _ => Process.on i (discovering (startBrowser created type protocol)) s
  | .stopBrowser i => Process.on i (discovering stopBrowser)
  | .serverCallback answer state => fun s =>
    match s.server with
    | none => (s, [])
    | some server =>
      Process.on server.userdata (publishing (serverCallback answer state))
        { s with server := some { server with state } }
  | .groupCallback group state =>
    Process.deliver group .entryGroup (publishing (groupCallback group.handle state))
  | .browseCallback browser created interface protocol event name type domain =>
    Process.deliver browser .serviceBrowser
      (discovering (browseCallback created interface protocol event name type domain))
  | .resolveCallback resolver interface event name type domain =>
    Process.deliver resolver .serviceResolver (discovering (resolveCallback interface event name type domain))

def step : Step Process Event ProcessOutput := fun s e => answerEvent e s

theorem mem_instances_iff {i : Nat} {s : Process} : i ∈ s.instances ↔ ∃ pri, s.instances[i]? = some pri := by
  rw [Std.ExtTreeMap.mem_iff_isSome_getElem?, Option.isSome_iff_exists]

section On

variable {i : Nat} {a : Action QZeroConfPrivate InstanceOutput} {s : Process}

/-- Nothing comes of an action of an instance that is not there. -/
theorem on_absent (h : s.instances[i]? = none) : Process.on i a s = (s, []) := by
  simp only [Process.on, h]

/-- What an instance calls reaches the objects of the server. -/
theorem on_present {pri : QZeroConfPrivate} (h : s.instances[i]? = some pri) :
    Process.on i a s =
      ({ s with
          instances := s.instances.insert i (a pri).1
          server := s.server.map fun sv => { sv with objects := registered i sv.objects (a pri).2 } },
        (a pri).2.map fun output => (i, output)) := by
  simp only [Process.on, h]

@[simp] theorem on_constructed : (Process.on i a s).1.constructed = s.constructed := by
  unfold Process.on
  split <;> rfl

@[simp] theorem on_referenceCount : (Process.on i a s).1.referenceCount = s.referenceCount := by
  unfold Process.on
  split <;> rfl

/-- An instance acts on itself alone. -/
theorem on_instances (j : Nat) :
    (Process.on i a s).1.instances[j]? =
      if i = j then s.instances[j]?.map fun pri => (a pri).1 else s.instances[j]? := by
  cases hpri : s.instances[i]? with
  | none =>
    rw [on_absent hpri]
    split
    · rename_i hij
      rw [← hij, hpri]
      rfl
    · rfl
  | some pri =>
    rw [on_present hpri]
    simp only [Std.ExtTreeMap.getElem?_insert, Std.compare_eq_iff_eq]
    split
    · rename_i hij
      rw [← hij, hpri]
      rfl
    · rfl

/-- The server keeps its state and its userdata. -/
theorem on_server : ∃ outputs, (Process.on i a s).1.server =
    s.server.map fun sv => { sv with objects := registered i sv.objects outputs } := by
  cases hpri : s.instances[i]? with
  | none =>
    refine ⟨[], ?_⟩
    rw [on_absent hpri]
    exact Option.map_id'.symm
  | some pri =>
    refine ⟨(a pri).2, ?_⟩
    rw [on_present hpri]

end On

end qtzeroconf.avahicore
