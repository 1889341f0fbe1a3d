import QtZeroConf.AvahiCore.Announce

open reactive keyed

namespace qtzeroconf.avahi.server

open avahicore (AVAHI_IF_UNSPEC AvahiEntryGroupState)

def AVAHI_RR_HOLDOFF_MSEC : Int := 1000
def AVAHI_RR_HOLDOFF_MSEC_RATE_LIMIT : Int := 20000
def AVAHI_RR_RATE_LIMIT_COUNT : Nat := 15

def AVAHI_DNS_TYPE_OPT : UInt16 := 0x29
def AVAHI_DNS_TYPE_TKEY : UInt16 := 0xF9
def AVAHI_DNS_TYPE_TSIG : UInt16 := 0xFA
def AVAHI_DNS_TYPE_IXFR : UInt16 := 0xFB
def AVAHI_DNS_TYPE_AXFR : UInt16 := 0xFC

/-- What `avahi_s_entry_group_new` writes. -/
def newGroup (callback : AvahiEntryGroupState → Reaction) : AvahiSEntryGroup :=
  { dead := false, state := .AVAHI_ENTRY_GROUP_UNCOMMITED, callback, n_probing := 0, n_register_try := 0
    register_time := 0, register_time_event := none, established_at := 0 }

/-- `avahi_s_entry_group_new`. -/
def avahi_s_entry_group_new (callback : AvahiEntryGroupState → Reaction) (s : AvahiServer) : AvahiServer :=
  { s.modify_group s.n_groups fun _ => newGroup callback with n_groups := s.n_groups + 1 }

/-- `avahi_s_entry_group_is_empty`. -/
def avahi_s_entry_group_is_empty (s : AvahiServer) (g : Nat) : Bool := (s.group_entries g).all (·.dead)

/-- `entry_group_commit_real`. -/
def entry_group_commit_real (g : Nat) : Action AvahiServer Output :=
  Action.andThen (Action.update fun s => s.modify_group g fun group => { group with register_time := s.now })
    (Action.andThen (avahi_s_entry_group_change_state g .AVAHI_ENTRY_GROUP_REGISTERING) fun s =>
      if (s.groups g).dead then (s, [])
      else Action.andThen (Action.update (avahi_announce_group g)) (avahi_s_entry_group_check_probed g false) s)

/-- `entry_group_register_time_event_callback`. -/
def entry_group_register_time_event_callback (g : Nat) : Action AvahiServer Output :=
  Action.andThen (Action.update (·.modify_group g fun group => { group with register_time_event := none }))
    (entry_group_commit_real g)

/-- `avahi_s_entry_group_commit`. -/
def avahi_s_entry_group_commit (g : Nat) : Action AvahiServer Output := fun s =>
  let group := s.groups g
  if group.state ≠ .AVAHI_ENTRY_GROUP_UNCOMMITED ∧ group.state ≠ .AVAHI_ENTRY_GROUP_COLLISION then
    (s, [.error .BAD_STATE])
  else if avahi_s_entry_group_is_empty s g then (s, [.error .IS_EMPTY])
  else
    let n_register_try := group.n_register_try + 1
    let register_time := group.register_time + 1000 *
      (if AVAHI_RR_RATE_LIMIT_COUNT ≤ n_register_try then AVAHI_RR_HOLDOFF_MSEC_RATE_LIMIT else AVAHI_RR_HOLDOFF_MSEC)
    let s := s.modify_group g fun group => { group with n_register_try, register_time }
    if register_time ≤ s.now then entry_group_commit_real g s
    else if group.register_time_event.isSome then (s, [.aborted])
    else Action.andThen
      (Action.update (·.modify_group g fun group => { group with register_time_event := some register_time }))
      (avahi_s_entry_group_change_state g .AVAHI_ENTRY_GROUP_REGISTERING) s

/-- `avahi_s_entry_group_reset`. -/
def avahi_s_entry_group_reset (g : Nat) : Action AvahiServer Output :=
  Action.andThen (reset_entries g true) (avahi_s_entry_group_change_state g .AVAHI_ENTRY_GROUP_UNCOMMITED)

/-- `check_record_conflict`: whether there is one. -/
def check_record_conflict (s : AvahiServer) (interface : Int32) (protocol : AvahiProtocol) (r : ValidRecord)
    (flags : AvahiPublishFlags) : Bool :=
  (s.entries_by_key r.val.key).any fun e =>
    !e.dead && !(!flags.UNIQUE && !e.flags.UNIQUE) && !(flags.ALLOW_MULTIPLE && e.flags.ALLOW_MULTIPLE) &&
      avahi_record_equal_no_ttl r.val e.record.val ≠ some true &&
      (decide (interface ≤ 0) || decide (e.interface ≤ 0) || decide (e.interface = interface)) &&
      (decide (protocol = .AVAHI_PROTO_UNSPEC) || decide (e.protocol = .AVAHI_PROTO_UNSPEC) ||
        decide (e.protocol = protocol))

/-- The checks of `server_add_internal` on the record itself. -/
def check_record (r : ValidRecord) : Option AvahiError :=
  if r.val.ttl = 0 then some .INVALID_TTL
  else if avahi_key_is_pattern r.val.key then some .IS_PATTERN
  else if r.val.key.clazz ≠ AVAHI_DNS_CLASS_IN then some .INVALID_DNS_CLASS
  else if r.val.key.type ∈ [0, AVAHI_DNS_TYPE_ANY, AVAHI_DNS_TYPE_OPT, AVAHI_DNS_TYPE_TKEY, AVAHI_DNS_TYPE_TSIG,
    AVAHI_DNS_TYPE_IXFR, AVAHI_DNS_TYPE_AXFR] then some .INVALID_DNS_TYPE
  else none

/-- `server_add_internal` without `AVAHI_PUBLISH_UPDATE`. -/
def server_add_internal (g : Option Nat) (interface : Int32) (protocol : AvahiProtocol) (flags : AvahiPublishFlags)
    (r : ValidRecord) : Action AvahiServer Output := fun s =>
  match check_record r with
  | some error => (s, [.error error])
  | none =>
    if g.any fun g => (s.groups g).state = .AVAHI_ENTRY_GROUP_ESTABLISHED ∨
        (s.groups g).state = .AVAHI_ENTRY_GROUP_REGISTERING then (s, [.error .BAD_STATE])
    else if check_record_conflict s interface protocol r flags then (s, [.error .COLLISION])
    else
      let e : AvahiEntry :=
        { ptr := { serial := s.n_entries, group := g }, dead := false, flags, record := r, interface, protocol }
      (avahi_announce_entry e { s with entries := e :: s.entries, n_entries := s.n_entries + 1 }, [])

/-- The entry that `server_add_internal` finds to update. -/
def entry_to_update (s : AvahiServer) (g : Option Nat) (interface : Int32) (protocol : AvahiProtocol) (r : ValidRecord) :
    Option AvahiEntry :=
  (s.entries_by_key r.val.key).find? fun e =>
    !e.dead && decide (e.ptr.group = g) && decide (e.interface = interface) && decide (e.protocol = protocol)

/-- `server_add_internal` with `AVAHI_PUBLISH_UPDATE`. The goodbye for a shared
    record is made of the entry, whose record is the new one by then. -/
def server_update_internal (g : Option Nat) (interface : Int32) (protocol : AvahiProtocol) (flags : AvahiPublishFlags)
    (r : ValidRecord) : Action AvahiServer Output := fun s =>
  match check_record r with
  | some error => (s, [.error error])
  | none =>
    match entry_to_update s g interface protocol r with
    | none => (s, [.error .NOT_FOUND])
    | some old =>
      let e := { old with record := r, flags }
      let s := { s with entries := replace AvahiEntry.ptr e s.entries }
      if avahi_record_equal_no_ttl old.record.val r.val ≠ some true ∧
          g.all fun g => (s.groups g).state ≠ .AVAHI_ENTRY_GROUP_UNCOMMITED then
        Action.andThen (if ¬ flags.UNIQUE then avahi_goodbye_entry e true false else Action.skip)
          (Action.update (avahi_reannounce_entry e)) s
      else (s, [])

/-- `withdraw_entry`. -/
def withdraw_entry (e : AvahiEntry) : Action AvahiServer Output :=
  if e.dead then Action.skip
  else
    match e.ptr.group with
    | some g => Action.andThen (reset_entries g false) (avahi_s_entry_group_change_state g .AVAHI_ENTRY_GROUP_COLLISION)
    | none => Action.andThen (avahi_goodbye_entry e false true) (Action.update (·.mark_dead e.ptr))

/-- `withdraw_rrset`: each entry under a key, as it is when its turn comes. -/
def withdraw_rrset (key : AvahiKey) : Action AvahiServer Output := fun s =>
  Action.forEach (fun e : AvahiEntry => fun s =>
    match s.entry? e.ptr with
    | none => (s, [])
    | some e => withdraw_entry e s) (s.entries_by_key key) s

/-- What the loops of `incoming_probe` and `handle_conflict` find out, or that an
    assertion has failed in them. -/
structure Verdict where
  valid : Bool := true
  ours : Bool := false
  won : Bool := false
  lost : Bool := false
  conflict : Bool := false
  withdraw_immediately : Bool := false
  conflicting_entry : Option AvahiEntry := none
  refreshed : Option AvahiEntry := none
  aborted : Bool := false

/-- The loop of `incoming_probe`. -/
def probeLoop (s : AvahiServer) (record : ValidRecord) (i : AvahiInterface) : List AvahiEntry → Verdict → Verdict
  | [], v => v
  | e :: es, v =>
    if e.dead then probeLoop s record i es v
    else
      match avahi_record_lexicographical_compare e.record.val record.val with
      | none => { v with aborted := true }
      | some .eq => { v with ours := true }
      | some .gt => probeLoop s record i es (if s.entry_is_probing e i then { v with won := true } else v)
      | some .lt => probeLoop s record i es (if s.entry_is_probing e i then { v with lost := true } else v)

/-- `incoming_probe`. -/
def incoming_probe (record : ValidRecord) (i : AvahiInterface) : Action AvahiServer Output := fun s =>
  let v := probeLoop s record i (s.entries_by_key record.val.key) {}
  if v.aborted then (s, [.aborted])
  else if v.ours then (s, [])
  else if v.won then (s, [])
  else if v.lost then withdraw_rrset record.val.key s
  else (s, [])

/-- The loop of `handle_conflict`. -/
def conflictLoop (s : AvahiServer) (i : AvahiInterface) (record : ValidRecord) (unique : Bool) :
    List AvahiEntry → Verdict → Verdict
  | [], v => v
  | e :: es, v =>
    if e.dead then conflictLoop s i record unique es v
    else if record.val.ttl = 0 then
      if avahi_record_equal_no_ttl e.record.val record.val = some true then
        { v with valid := false, refreshed := some e }
      else conflictLoop s i record unique es v
    else if ¬ e.flags.UNIQUE ∧ ¬ unique then conflictLoop s i record unique es v
    else if avahi_record_equal_no_ttl e.record.val record.val = some true then
      if record.val.ttl ≤ e.record.val.ttl / 2 ∧ s.entry_is_registered e i then
        { v with ours := true, valid := false, refreshed := some e }
      else { v with ours := true }
    else if s.entry_is_registered e i then
      conflictLoop s i record unique es { v with conflict := true, conflicting_entry := some e }
    else if s.entry_is_probing e i then
      conflictLoop s i record unique es { v with conflict := true, withdraw_immediately := true }
    else conflictLoop s i record unique es v

/-- A record that is about to expire somewhere else is sent again. -/
def Verdict.refresh (v : Verdict) (i : AvahiInterface) : Action AvahiServer Output :=
  match v.refreshed with
  | none => Action.skip
  | some e => Action.emit (.refresh e.ptr i)

/-- The end of `handle_conflict`. -/
def Verdict.settle (v : Verdict) (i : AvahiInterface) (record : ValidRecord) : Action AvahiServer Output :=
  if ¬ v.ours ∧ v.conflict then
    if v.withdraw_immediately then withdraw_rrset record.val.key
    else
      match v.conflicting_entry with
      | none => Action.emit .aborted
      | some e => Action.update (avahi_entry_return_to_initial_state e i)
  else Action.skip

/-- `handle_conflict`, without what it returns: that is the field `valid` of what
    the loop has found out, unless there is a conflict. -/
def handle_conflict (i : AvahiInterface) (record : ValidRecord) (unique : Bool) : Action AvahiServer Output := fun s =>
  let v := conflictLoop s i record unique (s.entries_by_key record.val.key) {}
  Action.andThen (v.refresh i) (v.settle i record) s

/-- `avahi_cleanup_dead_entries`, of the entries. Nothing is sent for the dead. -/
def avahi_cleanup_dead_entries (s : AvahiServer) : AvahiServer := { s with entries := s.entries.filter fun e => !e.dead }

/-- What happens to a server: calls of the program, time events, probes and
    responses that are received, and interfaces that come and go. -/
inductive Call where
  | group_new (callback : AvahiEntryGroupState → Reaction)
  | add (g : Option Nat) (interface : Int32) (protocol : AvahiProtocol) (flags : AvahiPublishFlags) (r : ValidRecord)
  | update (g : Option Nat) (interface : Int32) (protocol : AvahiProtocol) (flags : AvahiPublishFlags) (r : ValidRecord)
  | commit (g : Nat)
  | reset (g : Nat)
  | free (g : Nat)
  | register_time_event (g : Nat)
  | elapse_announce (entry : EntryPtr) (interface : AvahiInterface)
  | incoming_probe (record : ValidRecord) (i : AvahiInterface)
  | handle_conflict (i : AvahiInterface) (record : ValidRecord) (unique : Bool)
  | interface_new (i : AvahiInterface)
  | interface_relevant (i : AvahiInterface)
  | interface_irrelevant (i : AvahiInterface)
  | interface_free (i : AvahiInterface) (send_goodbye : Bool)
  | cleanup

/-- A call, with the time since the one before it and the random number that its
    timers get. -/
structure Event where
  delay : Nat
  last_rand : Nat
  call : Call

/-- A group that the program may still use. -/
def AvahiServer.usable (s : AvahiServer) (g : Nat) : Bool := decide (g < s.n_groups) && !(s.groups g).dead

/-- An action on a group, which is called for usable groups only. -/
def onGroup (g : Nat) (a : Action AvahiServer Output) : Action AvahiServer Output := fun s =>
  if s.usable g then a s else (s, [])

/-- A call, at its time. Time events elapse when they are due. -/
def Call.run : Call → Action AvahiServer Output
  | .group_new callback => Action.update (avahi_s_entry_group_new callback)
  | .add g interface protocol flags r => fun s =>
    if g.all s.usable then server_add_internal g interface protocol flags r s else (s, [])
  | .update g interface protocol flags r => fun s =>
    if g.all s.usable then server_update_internal g interface protocol flags r s else (s, [])
  | .commit g => onGroup g (avahi_s_entry_group_commit g)
  | .reset g => onGroup g (avahi_s_entry_group_reset g)
  | .free g => onGroup g (avahi_s_entry_group_free g)
  | .register_time_event g => fun s =>
    if (s.groups g).register_time_event.any fun t => t ≤ s.now then entry_group_register_time_event_callback g s
    else (s, [])
  | .elapse_announce entry interface => fun s =>
    match s.get_announcer entry interface with
    | none => (s, [])
    | some a => if a.time_event.any fun t => t ≤ s.now then next_state a s else (s, [])
  | .incoming_probe record i => server.incoming_probe record i
  | .handle_conflict i record unique => server.handle_conflict i record unique
  | .interface_new i => Action.update fun s =>
    if i ∈ s.interfaces then s else { s with interfaces := i :: s.interfaces }
  | .interface_relevant i => Action.update fun s =>
    if i ∈ s.interfaces ∧ ¬ s.announcing i then
      avahi_announce_interface i { s with announcing := fun j => if j = i then true else s.announcing j }
    else s
  | .interface_irrelevant i => Action.andThen (avahi_goodbye_interface i false true)
      (Action.update fun s => { s with announcing := fun j => if j = i then false else s.announcing j })
  | .interface_free i send_goodbye => Action.andThen (avahi_goodbye_interface i send_goodbye true)
      (Action.update fun s => { s with
        interfaces := s.interfaces.filter fun j => j ≠ i
        announcing := fun j => if j = i then false else s.announcing j })
  | .cleanup => Action.update avahi_cleanup_dead_entries

/-- A server takes a call. -/
def step : Step AvahiServer Event Output := fun s e =>
  e.call.run { s with now := s.now + e.delay, last_rand := e.last_rand }

/-- A new server. -/
def initial (now : Int) : AvahiServer :=
  { now, last_rand := 0, interfaces := [], announcing := fun _ => false, entries := [], announcers := []
    groups := fun _ => newGroup fun _ => .nothing, n_groups := 0, n_entries := 0 }

end qtzeroconf.avahi.server
