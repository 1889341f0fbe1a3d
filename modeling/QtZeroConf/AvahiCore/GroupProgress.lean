import QtZeroConf.AvahiCore.PublishRun

open reactive keyed

namespace qtzeroconf.avahi.server

open avahicore (AVAHI_IF_UNSPEC AvahiEntryGroupState)

/-- What an announcer of a group has still to do before the group is established. -/
def AvahiAnnouncer.remaining (g : Nat) (a : AvahiAnnouncer) : Nat := if ProbesFor g a then 5 - a.n_iteration else 0

/-- What all announcers of a group have still to do. -/
def AvahiServer.remaining (s : AvahiServer) (g : Nat) : Nat := (s.announcers.map (AvahiAnnouncer.remaining g)).sum

section

variable {kept : Prop} {s : AvahiServer} {log : List Output} {g : Nat}

end

end qtzeroconf.avahi.server
