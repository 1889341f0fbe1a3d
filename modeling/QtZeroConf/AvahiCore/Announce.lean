import QtZeroConf.Avahi.Discovery
import QtZeroConf.AvahiCore.Publish
import QtZeroConf.AvahiCore.RrCompare
import QtZeroConf.Library.Keyed

open reactive keyed

namespace qtzeroconf.avahi.server

open avahicore (AVAHI_IF_UNSPEC AvahiEntryGroupState)

def AVAHI_ANNOUNCEMENT_JITTER_MSEC : Nat := 250
def AVAHI_PROBE_JITTER_MSEC : Nat := 250
def AVAHI_PROBE_INTERVAL_MSEC : Nat := 250
def RAND_MAX : Nat := 0x7FFFFFFF

/-- The `AvahiPublishFlags` that an entry is treated by. -/
structure AvahiPublishFlags where
  UNIQUE : Bool := false
  NO_PROBE : Bool := false
  NO_ANNOUNCE : Bool := false
  ALLOW_MULTIPLE : Bool := false
  deriving DecidableEq

/-- An `AvahiInterface`: a hardware interface, for one of the two protocols. -/
structure AvahiInterface where
  index : Int32
  protocol : AvahiProtocol
  deriving DecidableEq

/-- `avahi_interface_match`. -/
def avahi_interface_match (i : AvahiInterface) (idx : Int32) (protocol : AvahiProtocol) : Bool :=
  if idx ≠ AVAHI_IF_UNSPEC ∧ idx ≠ i.index then false
  else if protocol ≠ .AVAHI_PROTO_UNSPEC ∧ protocol ≠ i.protocol then false
  else true

/-- `AvahiAnnouncerState`. -/
inductive AvahiAnnouncerState where
  | PROBING
  | WAITING
  | ANNOUNCING
  | ESTABLISHED
  deriving DecidableEq

/-- The pointer to an entry. The group of an entry never changes, so that it can
    be told from the pointer. -/
structure EntryPtr where
  serial : Nat
  group : Option Nat
  deriving DecidableEq

/-- `AvahiEntry`, with the fields that a server sees. -/
structure AvahiEntry where
  ptr : EntryPtr
  dead : Bool
  flags : AvahiPublishFlags
  record : ValidRecord
  interface : Int32
  protocol : AvahiProtocol

/-- `AvahiAnnouncer`. Times are in microseconds. -/
structure AvahiAnnouncer where
  entry : EntryPtr
  interface : AvahiInterface
  time_event : Option Int
  state : AvahiAnnouncerState
  n_iteration : Nat
  sec_delay : Nat

/-- No entry has two announcers for an interface. -/
def AvahiAnnouncer.key (a : AvahiAnnouncer) : EntryPtr × AvahiInterface := (a.entry, a.interface)

/-- What the callback of a group does when it is told of a state: nothing, or it
    frees or resets its own group. The `groupCallback`s of this repository do no
    more; a callback that adds, updates or commits is outside of the model. -/
inductive Reaction where
  | nothing
  | free
  | reset

/-- `AvahiSEntryGroup`. Its number of probing announcers is unsigned in the
    source; one below zero is kept here to be seen. -/
structure AvahiSEntryGroup where
  dead : Bool
  state : AvahiEntryGroupState
  callback : AvahiEntryGroupState → Reaction
  n_probing : Int
  n_register_try : Nat
  register_time : Int
  register_time_event : Option Int
  established_at : Int

/-- `AvahiServer`: what publishing uses of it, with the clock and with the last
    random number. The lists of announcers of an entry and of an interface, and
    the list of entries of a group, are parts of the lists here. -/
structure AvahiServer where
  now : Int
  last_rand : Nat
  interfaces : List AvahiInterface
  announcing : AvahiInterface → Bool
  entries : List AvahiEntry
  announcers : List AvahiAnnouncer
  groups : Nat → AvahiSEntryGroup
  n_groups : Nat
  n_entries : Nat

/-- `AvahiError`, as far as adding an entry or committing a group fails. -/
inductive AvahiError where
  | BAD_STATE
  | INVALID_TTL
  | IS_PATTERN
  | INVALID_DNS_CLASS
  | INVALID_DNS_TYPE
  | NOT_FOUND
  | COLLISION
  | IS_EMPTY
  deriving DecidableEq

/-- What a server does: it posts probes, announcements, goodbyes and refreshed
    records, tells a group of its state, or reports an error to its caller.
    `aborted` is an assertion that fails. -/
inductive Output where
  | post_probe (entry : EntryPtr) (interface : AvahiInterface) (time : Int)
  | announce (entry : EntryPtr) (interface : AvahiInterface)
  | goodbye (entry : EntryPtr) (interface : AvahiInterface)
  | refresh (entry : EntryPtr) (interface : AvahiInterface)
  | callback (g : Nat) (state : AvahiEntryGroupState)
  | error (error : AvahiError)
  | aborted
  deriving DecidableEq

namespace AvahiServer

/-- `avahi_elapse_time`. -/
def elapse_time (s : AvahiServer) (msec jitter : Nat) : Int :=
  s.now + (msec * 1000 : Nat) + (jitter * 1000 * (s.last_rand % (RAND_MAX + 1)) / (RAND_MAX + 1) : Nat)

/-- The entry behind a pointer. -/
def entry? (s : AvahiServer) (p : EntryPtr) : Option AvahiEntry := lookup AvahiEntry.ptr p s.entries

/-- The entries of a group, in the order of its list. -/
def group_entries (s : AvahiServer) (g : Nat) : List AvahiEntry := s.entries.filter fun e => e.ptr.group = some g

/-- `avahi_hashmap_lookup(s->entries_by_key, key)`: the entries under a key, in the
    order of their list. -/
def entries_by_key (s : AvahiServer) (key : AvahiKey) : List AvahiEntry :=
  s.entries.filter fun e => avahi_key_equal e.record.val.key key = some true

/-- `get_announcer`. -/
def get_announcer (s : AvahiServer) (p : EntryPtr) (i : AvahiInterface) : Option AvahiAnnouncer :=
  lookup AvahiAnnouncer.key (p, i) s.announcers

/-- Fields of an announcer are written. -/
def put (s : AvahiServer) (a : AvahiAnnouncer) : AvahiServer :=
  { s with announcers := replace AvahiAnnouncer.key a s.announcers }

/-- Fields of a group are written. -/
def modify_group (s : AvahiServer) (g : Nat) (f : AvahiSEntryGroup → AvahiSEntryGroup) : AvahiServer :=
  { s with groups := fun h => if h = g then f (s.groups g) else s.groups h }

/-- An entry is marked as dead. -/
def mark_dead (s : AvahiServer) (p : EntryPtr) : AvahiServer :=
  { s with entries := s.entries.map fun e => if e.ptr = p then { e with dead := true } else e }

/-- The number of probing announcers of the group of an entry changes, if it has
    one. -/
def count (s : AvahiServer) (p : EntryPtr) (d : Int) : AvahiServer :=
  { s with groups := fun g =>
      if p.group = some g then { s.groups g with n_probing := (s.groups g).n_probing + d } else s.groups g }

/-- `avahi_entry_is_commited`. -/
def entry_is_commited (s : AvahiServer) (p : EntryPtr) : Bool :=
  match p.group with
  | none => true
  | some g => (s.groups g).state = .AVAHI_ENTRY_GROUP_REGISTERING ∨ (s.groups g).state = .AVAHI_ENTRY_GROUP_ESTABLISHED

/-- `avahi_entry_is_registered`. -/
def entry_is_registered (s : AvahiServer) (e : AvahiEntry) (i : AvahiInterface) : Bool :=
  match s.get_announcer e.ptr i with
  | none => false
  | some a => a.state = .ANNOUNCING ∨ a.state = .ESTABLISHED ∨ (a.state = .WAITING ∧ ¬ e.flags.UNIQUE)

/-- `avahi_entry_is_probing`. -/
def entry_is_probing (s : AvahiServer) (e : AvahiEntry) (i : AvahiInterface) : Bool :=
  match s.get_announcer e.ptr i with
  | none => false
  | some a => a.state = .PROBING ∨ (a.state = .WAITING ∧ e.flags.UNIQUE)

end AvahiServer

/-- The time at which an announcer goes on that starts in a state. -/
def startTime (s : AvahiServer) : AvahiAnnouncerState → Option Int
  | .PROBING => some (s.elapse_time 0 AVAHI_PROBE_JITTER_MSEC)
  | .ANNOUNCING => some (s.elapse_time 0 AVAHI_ANNOUNCEMENT_JITTER_MSEC)
  | .WAITING | .ESTABLISHED => none

/-- The end of `go_to_initial_state` and of `reannounce`: the announcer starts in
    a state. -/
def start (a : AvahiAnnouncer) (state : AvahiAnnouncerState) (s : AvahiServer) : AvahiServer :=
  let s := if state = .PROBING then s.count a.entry 1 else s
  s.put { a with state, n_iteration := 1, sec_delay := 1, time_event := startTime s state }

/-- The state that `go_to_initial_state` chooses. -/
def initialState (s : AvahiServer) (e : AvahiEntry) : AvahiAnnouncerState :=
  if e.flags.UNIQUE ∧ ¬ e.flags.NO_PROBE then .PROBING
  else if ¬ e.flags.NO_ANNOUNCE then
    match e.ptr.group with
    | none => .ANNOUNCING
    | some g => if (s.groups g).state = .AVAHI_ENTRY_GROUP_ESTABLISHED then .ANNOUNCING else .WAITING
  else .ESTABLISHED

/-- `go_to_initial_state`. -/
def go_to_initial_state (e : AvahiEntry) (a : AvahiAnnouncer) (s : AvahiServer) : AvahiServer :=
  start a (initialState s e) s

/-- `new_announcer`. -/
def new_announcer (e : AvahiEntry) (i : AvahiInterface) (s : AvahiServer) : AvahiServer :=
  if ¬ avahi_interface_match i e.interface e.protocol ∨ ¬ s.announcing i ∨ ¬ s.entry_is_commited e.ptr then s
  else
    match s.get_announcer e.ptr i with
    | some _ => s
    | none =>
      let a : AvahiAnnouncer :=
        { entry := e.ptr, interface := i, time_event := none, state := .PROBING, n_iteration := 0, sec_delay := 0 }
      go_to_initial_state e a { s with announcers := a :: s.announcers }

/-- `avahi_announce_interface`. -/
def avahi_announce_interface (i : AvahiInterface) (s : AvahiServer) : AvahiServer :=
  if ¬ s.announcing i then s
  else s.entries.foldl (fun s e => if ¬ e.dead then new_announcer e i s else s) s

/-- `avahi_interface_monitor_walk`, in the order of the list of interfaces. -/
def monitor_walk (s : AvahiServer) (interface : Int32) (protocol : AvahiProtocol) : List AvahiInterface :=
  s.interfaces.filter fun i => avahi_interface_match i interface protocol

/-- `avahi_announce_entry`. -/
def avahi_announce_entry (e : AvahiEntry) (s : AvahiServer) : AvahiServer :=
  (monitor_walk s e.interface e.protocol).foldl (fun s i => new_announcer e i s) s

/-- `avahi_announce_group`. -/
def avahi_announce_group (g : Nat) (s : AvahiServer) : AvahiServer :=
  (s.group_entries g).foldl (fun s e => if ¬ e.dead then avahi_announce_entry e s else s) s

/-- `avahi_entry_return_to_initial_state`. -/
def avahi_entry_return_to_initial_state (e : AvahiEntry) (i : AvahiInterface) (s : AvahiServer) : AvahiServer :=
  match s.get_announcer e.ptr i with
  | none => s
  | some a => go_to_initial_state e a (if a.state = .PROBING then s.count e.ptr (-1) else s)

/-- The state that `reannounce` chooses. -/
def reannounceState (e : AvahiEntry) (a : AvahiAnnouncer) : AvahiAnnouncerState :=
  if a.state = .PROBING ∨ (a.state = .WAITING ∧ e.flags.UNIQUE ∧ ¬ e.flags.NO_PROBE) then .PROBING
  else if a.state = .WAITING then .WAITING
  else if e.flags.NO_ANNOUNCE then .ESTABLISHED
  else .ANNOUNCING

/-- `reannounce`. -/
def reannounce (e : AvahiEntry) (a : AvahiAnnouncer) (s : AvahiServer) : AvahiServer :=
  let state := e.ptr.group.map fun g => (s.groups g).state
  if state = some .AVAHI_ENTRY_GROUP_UNCOMMITED ∨ state = some .AVAHI_ENTRY_GROUP_COLLISION then s
  else start a (reannounceState e a) (if a.state = .PROBING then s.count a.entry (-1) else s)

/-- `avahi_reannounce_entry`. -/
def avahi_reannounce_entry (e : AvahiEntry) (s : AvahiServer) : AvahiServer :=
  (monitor_walk s e.interface e.protocol).foldl (fun s i =>
    match s.get_announcer e.ptr i with
    | none => s
    | some a => reannounce e a s) s

/-- `is_duplicate_entry`. -/
def is_duplicate_entry (s : AvahiServer) (e : AvahiEntry) : Bool :=
  (s.entries_by_key e.record.val.key).any fun i =>
    ¬ (i.ptr = e.ptr ∨ i.dead) ∧ avahi_record_equal_no_ttl i.record.val e.record.val = some true

/-- `send_goodbye_callback`. -/
def send_goodbye_callback (e : AvahiEntry) (i : AvahiInterface) : Action AvahiServer Output := fun s =>
  if ¬ avahi_interface_match i e.interface e.protocol ∨ e.flags.NO_ANNOUNCE ∨ ¬ s.entry_is_registered e i ∨
    is_duplicate_entry s e then (s, [])
  else (s, [.goodbye e.ptr i])

/-- `avahi_goodbye_entry`. -/
def avahi_goodbye_entry (e : AvahiEntry) (send_goodbye remove : Bool) : Action AvahiServer Output := fun s =>
  Action.andThen
    (if send_goodbye ∧ ¬ e.dead then Action.forEach (send_goodbye_callback e) s.interfaces else Action.skip)
    (if remove then Action.update fun s => { s with announcers := s.announcers.filter fun a => a.entry ≠ e.ptr }
      else Action.skip) s

/-- `avahi_goodbye_interface`. -/
def avahi_goodbye_interface (i : AvahiInterface) (send_goodbye remove : Bool) : Action AvahiServer Output := fun s =>
  Action.andThen
    (if send_goodbye ∧ s.announcing i then
      Action.forEach (fun e : AvahiEntry => if ¬ e.dead then send_goodbye_callback e i else Action.skip) s.entries
      else Action.skip)
    (if remove then Action.update fun s => { s with announcers := s.announcers.filter fun a => a.interface ≠ i }
      else Action.skip) s

/-- The loops of `avahi_s_entry_group_free`, `avahi_s_entry_group_reset` and
    `withdraw_entry` over the entries of a group: those that are alive are
    withdrawn. -/
def withdraw_entries (g : Nat) (send_goodbye : Bool) : Action AvahiServer Output := fun s =>
  Action.forEach (fun e : AvahiEntry =>
    if ¬ e.dead then Action.andThen (avahi_goodbye_entry e send_goodbye true) (Action.update (·.mark_dead e.ptr))
    else Action.skip) (s.group_entries g) s

/-- `avahi_s_entry_group_free`. -/
def avahi_s_entry_group_free (g : Nat) : Action AvahiServer Output :=
  Action.andThen (withdraw_entries g true)
    (Action.update (·.modify_group g fun group => { group with register_time_event := none, dead := true }))

/-- What `avahi_s_entry_group_reset` and `withdraw_entry` do before they change
    the state of the group. -/
def reset_entries (g : Nat) (send_goodbye : Bool) : Action AvahiServer Output :=
  Action.andThen (withdraw_entries g send_goodbye)
    (Action.update (·.modify_group g fun group => { group with n_probing := 0 }))

/-- What `avahi_s_entry_group_change_state` writes. -/
def AvahiSEntryGroup.enter (group : AvahiSEntryGroup) (now : Int) (state : AvahiEntryGroupState) : AvahiSEntryGroup :=
  let group := match group.state with
    | .AVAHI_ENTRY_GROUP_ESTABLISHED =>
      if 5000000 < now - group.established_at then { group with n_register_try := 0 } else group
    | .AVAHI_ENTRY_GROUP_REGISTERING => { group with register_time_event := none }
    | .AVAHI_ENTRY_GROUP_UNCOMMITED | .AVAHI_ENTRY_GROUP_COLLISION | .AVAHI_ENTRY_GROUP_FAILURE => group
  let group := if state = .AVAHI_ENTRY_GROUP_ESTABLISHED then { group with established_at := now } else group
  { group with state }

/-- A group is told of its new state. -/
def enter (g : Nat) (state : AvahiEntryGroupState) : Action AvahiServer Output := fun s =>
  (s.modify_group g (·.enter s.now state), [.callback g state])

/-- A call of a group's callback. When it resets the group, it is called once
    more, for the state that the group is reset to. -/
def call (g : Nat) (state : AvahiEntryGroupState) : Action AvahiServer Output := fun s =>
  match (s.groups g).callback state with
  | .nothing => (s, [])
  | .free => avahi_s_entry_group_free g s
  | .reset => Action.andThen (reset_entries g true) (fun s =>
    if (s.groups g).state = .AVAHI_ENTRY_GROUP_UNCOMMITED then (s, [])
    else Action.andThen (enter g .AVAHI_ENTRY_GROUP_UNCOMMITED) (fun s =>
      match (s.groups g).callback .AVAHI_ENTRY_GROUP_UNCOMMITED with
      | .nothing => (s, [])
      | .free => avahi_s_entry_group_free g s
      | .reset => reset_entries g true s) s) s

/-- `avahi_s_entry_group_change_state`. -/
def avahi_s_entry_group_change_state (g : Nat) (state : AvahiEntryGroupState) : Action AvahiServer Output := fun s =>
  if (s.groups g).state = state then (s, []) else Action.andThen (enter g state) (call g state) s

/-- `next_state` of an announcer that announces. -/
def announce (a : AvahiAnnouncer) : Action AvahiServer Output := fun s =>
  let n_iteration := a.n_iteration + 1
  if 4 ≤ n_iteration then
    (s.put { a with n_iteration, state := .ESTABLISHED, time_event := none }, [.announce a.entry a.interface])
  else
    let time_event := some (s.elapse_time (a.sec_delay * 1000) AVAHI_ANNOUNCEMENT_JITTER_MSEC)
    let sec_delay := if n_iteration < 10 then a.sec_delay * 2 else a.sec_delay
    (s.put { a with n_iteration, sec_delay, time_event }, [.announce a.entry a.interface])

/-- The turn of the loop of `avahi_s_entry_group_check_probed` for an announcer
    that waits. -/
def stop_waiting (immediately : Bool) (a : AvahiAnnouncer) : Action AvahiServer Output :=
  if immediately then announce { a with state := .ANNOUNCING, n_iteration := 1 }
  else Action.update fun s => s.put { a with
    state := .ANNOUNCING
    n_iteration := 0
    time_event := some (s.elapse_time 0 AVAHI_ANNOUNCEMENT_JITTER_MSEC) }

/-- `avahi_s_entry_group_check_probed`. -/
def avahi_s_entry_group_check_probed (g : Nat) (immediately : Bool) : Action AvahiServer Output := fun s =>
  if (s.groups g).dead then (s, [.aborted])
  else if (s.groups g).state ≠ .AVAHI_ENTRY_GROUP_REGISTERING ∨ 0 < (s.groups g).n_probing then (s, [])
  else Action.andThen (avahi_s_entry_group_change_state g .AVAHI_ENTRY_GROUP_ESTABLISHED) (fun s =>
    if (s.groups g).dead then (s, [])
    else Action.forEach (stop_waiting immediately) ((s.group_entries g).flatMap fun e =>
      s.announcers.filter fun a => a.entry = e.ptr ∧ a.state = .WAITING) s) s

/-- `next_state`. -/
def next_state (a : AvahiAnnouncer) : Action AvahiServer Output := fun s =>
  match a.state with
  | .WAITING =>
    match a.entry.group with
    | none => (s, [.aborted])
    | some g => avahi_s_entry_group_check_probed g true s
  | .PROBING =>
    if 4 ≤ a.n_iteration then
      -- probing is done
      match a.entry.group with
      | none => announce { a with state := .ANNOUNCING, n_iteration := 1, time_event := none } s
      | some g =>
        if (s.groups g).n_probing = 0 then (s, [.aborted])
        else
          let s := s.count a.entry (-1)
          if (s.groups g).state = .AVAHI_ENTRY_GROUP_REGISTERING then
            avahi_s_entry_group_check_probed g true (s.put { a with state := .WAITING, time_event := none })
          else announce { a with state := .ANNOUNCING, n_iteration := 1, time_event := none } s
    else
      let a' := { a with n_iteration := a.n_iteration + 1, time_event := some (s.elapse_time AVAHI_PROBE_INTERVAL_MSEC 0) }
      (s.put a', [.post_probe a.entry a.interface s.now])
  | .ANNOUNCING => announce a s
  | .ESTABLISHED => (s, [])

end qtzeroconf.avahi.server
