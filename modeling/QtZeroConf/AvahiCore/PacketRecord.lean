import QtZeroConf.AvahiCore.Packet

namespace qtzeroconf.avahi

/-- The data union of a record whose type uses one of its members. -/
abbrev RData.Of (kind : RDataKind) : Type := { data : RData // data.kind = kind }

/-- The value of two bytes in network order. -/
def uint16Of (d : List UInt8) : UInt16 := (d.getD 0 0).toUInt16 <<< 8 ||| (d.getD 1 0).toUInt16

/-- The value of four bytes in network order. -/
def uint32Of (d : List UInt8) : UInt32 :=
  (d.getD 0 0).toUInt32 <<< 24 ||| (d.getD 1 0).toUInt32 <<< 16 ||| (d.getD 2 0).toUInt32 <<< 8 |||
    (d.getD 3 0).toUInt32

/-- `avahi_dns_packet_consume_uint16`. -/
def avahi_dns_packet_consume_uint16 (p : AvahiDnsPacket) : Except ReadFailure (UInt16 × AvahiDnsPacket) := do
  let (d, p) ← p.take 2
  return (uint16Of d, p)

/-- `avahi_dns_packet_consume_uint32`. -/
def avahi_dns_packet_consume_uint32 (p : AvahiDnsPacket) : Except ReadFailure (UInt32 × AvahiDnsPacket) := do
  let (d, p) ← p.take 4
  return (uint32Of d, p)

/-- `avahi_dns_packet_consume_bytes`, for an address of `n` bytes. -/
def avahi_dns_packet_consume_bytes (p : AvahiDnsPacket) (n : Nat) :
    Except ReadFailure (Vector UInt8 n × AvahiDnsPacket) := do
  let (d, p) ← p.take n
  return (Vector.ofFn fun i : Fin n => d.getD i 0, p)

/-- `avahi_dns_packet_consume_string`, into a buffer of `l` bytes that is read as
    a C string. -/
def avahi_dns_packet_consume_string (p : AvahiDnsPacket) (l : Nat) : Except ReadFailure (CString × AvahiDnsPacket) :=
  if p.data.length ≤ p.rindex then .error .refused
  else do
    let k ← p.byte p.rindex
    if p.data.length < p.rindex + 1 + k.toNat then .error .refused
    else do
      let bytes ← p.read (p.rindex + 1) ((if k.toNat + 1 < l then k.toNat + 1 else l) - 1)
      let ret_string := ((Cursor.start l).put bytes).terminate
      if ret_string.overrun then .error .overrun
      else return (QByteArray.cString ret_string.text, { p with rindex := p.rindex + 1 + k.toNat })

/-- The switch of `parse_rdata`. -/
def parseData (p : AvahiDnsPacket) (kind : RDataKind) (rdlength : Nat) :
    Except ReadFailure (RData.Of kind × AvahiDnsPacket) :=
  match kind with
  | .ptr => do
    let (name, p) ← avahi_dns_packet_consume_name p AVAHI_DOMAIN_NAME_MAX
    return (⟨.ptr name, rfl⟩, p)
  | .srv => do
    let (priority, p) ← avahi_dns_packet_consume_uint16 p
    let (weight, p) ← avahi_dns_packet_consume_uint16 p
    let (port, p) ← avahi_dns_packet_consume_uint16 p
    let (name, p) ← avahi_dns_packet_consume_name p AVAHI_DOMAIN_NAME_MAX
    return (⟨.srv priority weight port name, rfl⟩, p)
  | .hinfo => do
    let (cpu, p) ← avahi_dns_packet_consume_string p AVAHI_DOMAIN_NAME_MAX
    let (os, p) ← avahi_dns_packet_consume_string p AVAHI_DOMAIN_NAME_MAX
    return (⟨.hinfo cpu os, rfl⟩, p)
  | .txt =>
    if 0 < rdlength then do
      match avahi_string_list_parse (← p.read p.rindex rdlength) with
      | none => .error .refused
      | some string_list => do
        let (_, p) ← p.take rdlength
        return (⟨.txt string_list, rfl⟩, p)
    else return (⟨.txt [], rfl⟩, p)
  | .a => do
    let (address, p) ← avahi_dns_packet_consume_bytes p 4
    return (⟨.a address, rfl⟩, p)
  | .aaaa => do
    let (address, p) ← avahi_dns_packet_consume_bytes p 16
    return (⟨.aaaa address, rfl⟩, p)
  | .generic =>
    if 0 < rdlength then do
      let data ← p.read p.rindex rdlength
      let (_, p) ← p.take rdlength
      return (⟨.generic data, rfl⟩, p)
    else return (⟨.generic [], rfl⟩, p)

/-- `parse_rdata`, which has to read as much as was announced. -/
def parse_rdata (p : AvahiDnsPacket) (kind : RDataKind) (rdlength : Nat) :
    Except ReadFailure (RData.Of kind × AvahiDnsPacket) := do
  let (data, q) ← parseData p kind rdlength
  if q.rindex - p.rindex ≠ rdlength then .error .refused else return (data, q)

/-- `avahi_dns_packet_consume_record`: the record, whether it flushes caches, and
    the packet behind it. -/
def avahi_dns_packet_consume_record (p : AvahiDnsPacket) : Except ReadFailure (AvahiRecord × Bool × AvahiDnsPacket) := do
  let (name, p) ← avahi_dns_packet_consume_name p AVAHI_DOMAIN_NAME_MAX
  let (type, p) ← avahi_dns_packet_consume_uint16 p
  let (clazz, p) ← avahi_dns_packet_consume_uint16 p
  let (ttl, p) ← avahi_dns_packet_consume_uint32 p
  let (rdlength, p) ← avahi_dns_packet_consume_uint16 p
  if p.data.length < p.rindex + rdlength.toNat then .error .refused
  else
    match avahi_key_new name (clazz &&& ~~~AVAHI_DNS_CACHE_FLUSH) type with
    | .error failure => .error failure.reading
    | .ok key => do
      let (data, p) ← parse_rdata p (rdataKind key.type) rdlength.toNat
      let r : AvahiRecord := { key, ttl := recordTtl ttl, data := data.val, typed := data.property }
      if !avahi_record_is_valid r then .error .refused
      else return (r, clazz &&& AVAHI_DNS_CACHE_FLUSH ≠ 0, p)

/-- `avahi_dns_packet_consume_key`: the key, whether a unicast response is asked
    for, and the packet behind it. -/
def avahi_dns_packet_consume_key (p : AvahiDnsPacket) : Except ReadFailure (AvahiKey × Bool × AvahiDnsPacket) := do
  let (name, p) ← avahi_dns_packet_consume_name p 256
  let (type, p) ← avahi_dns_packet_consume_uint16 p
  let (clazz, p) ← avahi_dns_packet_consume_uint16 p
  match avahi_key_new name (clazz &&& ~~~AVAHI_DNS_UNICAST_RESPONSE) type with
  | .error failure => .error failure.reading
  | .ok k =>
    if !avahi_key_is_valid k then .error .refused
    else return (k, clazz &&& AVAHI_DNS_UNICAST_RESPONSE ≠ 0, p)

/-- `append_rdata`. -/
def append_rdata : RData → Append
  | .ptr name => avahi_dns_packet_append_name name
  | .srv priority weight port name =>
    (avahi_dns_packet_append_uint16 priority).andThen <| (avahi_dns_packet_append_uint16 weight).andThen <|
      (avahi_dns_packet_append_uint16 port).andThen <| avahi_dns_packet_append_name name
  | .hinfo cpu os => (avahi_dns_packet_append_string cpu).andThen (avahi_dns_packet_append_string os)
  | .txt string_list =>
    avahi_dns_packet_extend (avahi_string_list_serialize string_list (serializedSize string_list))
  | .a address => avahi_dns_packet_extend address.toList
  | .aaaa address => avahi_dns_packet_extend address.toList
  | .generic data => if data.length ≠ 0 then avahi_dns_packet_extend data else fun p => (true, p)

/-- The class that is written for a record. -/
def recordClass (cache_flush : Bool) (clazz : UInt16) : UInt16 :=
  if cache_flush then clazz ||| AVAHI_DNS_CACHE_FLUSH else clazz &&& ~~~AVAHI_DNS_CACHE_FLUSH

/-- The TTL that is written for a record. Without a maximum, `max_ttl` is 0. -/
def cappedTtl (max_ttl ttl : UInt32) : UInt32 := if max_ttl ≠ 0 ∧ max_ttl < ttl then max_ttl else ttl

/-- The part of a record in front of its rdata, with a length of 0 for now. -/
def appendRecordHead (r : AvahiRecord) (cache_flush : Bool) (max_ttl : UInt32) : Append :=
  (avahi_dns_packet_append_name r.key.name).andThen <| (avahi_dns_packet_append_uint16 r.key.type).andThen <|
    (avahi_dns_packet_append_uint16 (recordClass cache_flush r.key.clazz)).andThen <|
      (avahi_dns_packet_append_uint32 (cappedTtl max_ttl r.ttl)).andThen <| avahi_dns_packet_append_uint16 0

/-- The two bytes at an offset are overwritten. -/
def AvahiDnsPacket.patch (p : AvahiDnsPacket) (l : Nat) (v : UInt16) : AvahiDnsPacket :=
  { p with data := (p.data.set l (v >>> 8).toUInt8).set (l + 1) v.toUInt8 }

/-- `avahi_dns_packet_append_record`. The length of the rdata is written in front
    of it when it is known; where it is too long, an assertion fails. -/
def avahi_dns_packet_append_record (r : AvahiRecord) (cache_flush : Bool) (max_ttl : UInt32) (p : AvahiDnsPacket) :
    Option (Bool × AvahiDnsPacket) :=
  match appendRecordHead r cache_flush max_ttl p with
  | (false, q) => some (false, q.rollback p.data.length)
  | (true, head) =>
    match append_rdata r.data head with
    | (false, q) => some (false, q.rollback p.data.length)
    | (true, q) =>
      let size := q.data.length - head.data.length
      if AVAHI_DNS_RDATA_MAX < size then none
      else some (true, q.patch (head.data.length - 2) (UInt16.ofNat size))

/-- The name, the type and the class that are written for a key. -/
def appendKeyFields (k : AvahiKey) (clazz : UInt16) : Append :=
  (avahi_dns_packet_append_name k.name).andThen <| (avahi_dns_packet_append_uint16 k.type).andThen <|
    avahi_dns_packet_append_uint16 clazz

/-- The class that is written for a key. -/
def keyClass (unicast_response : Bool) (clazz : UInt16) : UInt16 :=
  clazz ||| if unicast_response then AVAHI_DNS_UNICAST_RESPONSE else 0

/-- `avahi_dns_packet_append_key`. -/
def avahi_dns_packet_append_key (k : AvahiKey) (unicast_response : Bool) : Append := fun p =>
  match appendKeyFields k (keyClass unicast_response k.clazz) p with
  | (false, q) => (false, q.rollback p.data.length)
  | (true, q) => (true, q)

end qtzeroconf.avahi
