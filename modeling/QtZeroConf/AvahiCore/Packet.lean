import QtZeroConf.AvahiCore.Rr

namespace qtzeroconf.avahi

def AVAHI_DNS_PACKET_HEADER_SIZE : Nat := 12
def AVAHI_DNS_LABELS_MAX : Nat := 127
def AVAHI_DNS_RDATA_MAX : Nat := 0xFFFF

/-- `AvahiDnsPacket`: its `size` is the number of bytes in it. The values of the
    name table are offsets. -/
structure AvahiDnsPacket where
  data : List UInt8
  rindex : Nat := AVAHI_DNS_PACKET_HEADER_SIZE
  max_size : Nat
  name_table : List (CString × Nat) := []

/-- A function that appends to a packet: whether it succeeds, and the packet
    behind it. -/
abbrev Append := AvahiDnsPacket → Bool × AvahiDnsPacket

/-- One append after the other, up to the first that fails. -/
def Append.andThen (f g : Append) : Append := fun p =>
  match f p with
  | (false, p) => (false, p)
  | (true, p) => g p

/-- `avahi_dns_packet_extend`, together with what is written there. -/
def avahi_dns_packet_extend (d : List UInt8) : Append := fun p =>
  if p.max_size < p.data.length + d.length then (false, p) else (true, { p with data := p.data ++ d })

/-- `avahi_dns_packet_append_uint16`. -/
def avahi_dns_packet_append_uint16 (v : UInt16) : Append :=
  avahi_dns_packet_extend [(v >>> 8).toUInt8, v.toUInt8]

/-- `avahi_dns_packet_append_uint32`. -/
def avahi_dns_packet_append_uint32 (v : UInt32) : Append :=
  avahi_dns_packet_extend [(v >>> 24).toUInt8, (v >>> 16).toUInt8, (v >>> 8).toUInt8, v.toUInt8]

/-- What `avahi_dns_packet_append_string` writes. -/
def stringBytes (s : CString) : List UInt8 :=
  let k := if 255 ≤ s.length then 255 else s.length
  UInt8.ofNat k :: s.take k

/-- `avahi_dns_packet_append_string`. -/
def avahi_dns_packet_append_string (s : CString) : Append := avahi_dns_packet_extend (stringBytes s)

/-- `avahi_hashmap_lookup` in the name table. -/
def AvahiDnsPacket.lookup (p : AvahiDnsPacket) (name : CString) : Option Nat :=
  (p.name_table.find? fun e => e.1 = name).map Prod.snd

/-- `avahi_hashmap_insert` into the name table, which keeps a value that is
    there. -/
def AvahiDnsPacket.insert (p : AvahiDnsPacket) (name : CString) (d : Nat) : AvahiDnsPacket :=
  if (p.lookup name).isSome then p else { p with name_table := (name, d) :: p.name_table }

/-- Going back to a `size`, with `avahi_dns_packet_cleanup_name_table`. -/
def AvahiDnsPacket.rollback (p : AvahiDnsPacket) (size : Nat) : AvahiDnsPacket :=
  { p with data := p.data.take size, name_table := p.name_table.filter fun e => !(size ≤ e.2) }

/-- The two bytes that refer to a name at an offset. -/
def reference (idx : Nat) : List UInt8 :=
  [UInt8.ofNat ((0xC000 ||| idx) >>> 8), UInt8.ofNat idx]

/-- The loop of `avahi_dns_packet_append_name`. -/
def appendNameLoop (saved_size : Nat) : Nat → CString → Append
  | _, [], p =>
    match avahi_dns_packet_extend [0] p with
    | (false, p) => (false, p.rollback saved_size)
    | (true, p) => (true, p)
  | 0, _ :: _, p => (false, p)
  | turns + 1, c :: name, p =>
    match (p.lookup (c :: name)).filter (· < 0x4000) with
    -- where the reference does not fit, the labels in front of it stay
    | some idx => avahi_dns_packet_extend (reference idx) p
    | none =>
      match avahi_unescape_label 64 (c :: name) with
      | none => (false, p.rollback saved_size)
      | some (label, rest) =>
        match avahi_dns_packet_append_string label p with
        | (false, p) => (false, p.rollback saved_size)
        | (true, q) => appendNameLoop saved_size turns rest (q.insert (c :: name) p.data.length)

/-- `avahi_dns_packet_append_name`. -/
def avahi_dns_packet_append_name (name : CString) : Append := fun p =>
  appendNameLoop p.data.length name.length name p

/-- How reading a packet fails: it is refused, something outside of the packet
    or behind a name without a terminator would be read, something has been
    written behind a buffer, or an assertion fails. -/
inductive ReadFailure where
  | refused
  | outside
  | overrun
  | aborted
  deriving DecidableEq

/-- What becomes of a packet when a name of it cannot be normalized. -/
def NameFailure.reading : NameFailure → ReadFailure
  | .error _ => .refused
  | .aborted => .aborted
  | .overrun => .overrun
  | .unterminated => .outside

/-- `n` bytes of the memory at an offset. -/
def AvahiDnsPacket.read (p : AvahiDnsPacket) (idx n : Nat) : Except ReadFailure (List UInt8) :=
  if p.data.length < idx + n then .error .outside else .ok ((p.data.drop idx).take n)

/-- The byte at an offset. -/
def AvahiDnsPacket.byte (p : AvahiDnsPacket) (idx : Nat) : Except ReadFailure UInt8 :=
  match p.data[idx]? with
  | none => .error .outside
  | some n => .ok n

/-- The loop of `consume_labels`: `r` is where the name is written to. The
    result is the name and the number of bytes that it takes at its place. -/
def consumeLoop (p : AvahiDnsPacket) : Nat → Nat → Nat → Bool → Bool → Cursor → Except ReadFailure (CString × Nat)
  | 0, _, _, _, _, _ => .error .refused
  | i + 1, idx, ret, compressed, first_label, r =>
    if p.data.length < idx + 1 then .error .refused
    else do
      let n ← p.byte idx
      if n = 0 then
        if r.size < 1 then .error .refused
        else if r.terminate.overrun then .error .overrun
        else .ok (r.text, if compressed then ret else ret + 1)
      else if n ≤ 63 then
        let idx := idx + 1
        let ret := if compressed then ret else ret + 1
        if p.data.length < idx + n.toNat then .error .refused
        else if r.size < n.toNat + 1 then .error .refused
        else
          let r := if first_label then r else r.put [0x2E]
          if r.size = 0 then .error .aborted
          else do
            let (ok, r) := avahi_escape_label (← p.read idx n.toNat) r
            if r.overrun then .error .overrun
            else if !ok then .error .refused
            else consumeLoop p i (idx + n.toNat) (if compressed then ret else ret + n.toNat) compressed false r
      else if n &&& 0xC0 = 0xC0 then
        if p.data.length < idx + 2 then .error .refused
        else do
          let label_ptr := (n &&& 0x3F).toNat <<< 8 ||| (← p.byte (idx + 1)).toNat
          if label_ptr < AVAHI_DNS_PACKET_HEADER_SIZE ∨ idx ≤ label_ptr then .error .refused
          else consumeLoop p i label_ptr (if compressed then ret else ret + 2) true first_label r
      else .error .refused

/-- `consume_labels`, into a buffer of `l` bytes. -/
def consume_labels (p : AvahiDnsPacket) (idx l : Nat) : Except ReadFailure (CString × Nat) :=
  consumeLoop p AVAHI_DNS_LABELS_MAX idx 0 false true (Cursor.start l)

/-- `avahi_dns_packet_consume_name`. -/
def avahi_dns_packet_consume_name (p : AvahiDnsPacket) (l : Nat) : Except ReadFailure (CString × AvahiDnsPacket) := do
  let (name, r) ← consume_labels p p.rindex l
  return (name, { p with rindex := p.rindex + r })

/-- The bytes that `avahi_dns_packet_consume_uint16` and its siblings take. -/
def AvahiDnsPacket.take (p : AvahiDnsPacket) (n : Nat) : Except ReadFailure (List UInt8 × AvahiDnsPacket) :=
  if p.data.length < p.rindex + n then .error .refused
  else do return (← p.read p.rindex n, { p with rindex := p.rindex + n })

end qtzeroconf.avahi
