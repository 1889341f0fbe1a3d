import QtZeroConf.AvahiCore.PacketRoundTrip
import QtZeroConf.Library.Guarded

open guarded

namespace qtzeroconf.avahi

def AVAHI_DNS_PACKET_EXTRA_SIZE : Nat := 48
def AVAHI_DNS_PACKET_SIZE_MAX : Nat := AVAHI_DNS_PACKET_HEADER_SIZE + 256 + 2 + 2 + 4 + 2 + AVAHI_DNS_RDATA_MAX

def AVAHI_DNS_FIELD_FLAGS : Nat := 1
def AVAHI_DNS_FIELD_QDCOUNT : Nat := 2
def AVAHI_DNS_FIELD_ANCOUNT : Nat := 3
def AVAHI_DNS_FIELD_ARCOUNT : Nat := 5

def AVAHI_DNS_FLAG_TC : UInt16 := 0x0200

/-- `avahi_dns_packet_set_field`. -/
def avahi_dns_packet_set_field (p : AvahiDnsPacket) (idx : Nat) (v : UInt16) : AvahiDnsPacket := p.patch (2 * idx) v

/-- `avahi_dns_packet_get_field`. -/
def avahi_dns_packet_get_field (p : AvahiDnsPacket) (idx : Nat) : UInt16 :=
  uint16Of [p.data.getD (2 * idx) 0, p.data.getD (2 * idx + 1) 0]

/-- The `max_size` of `avahi_dns_packet_new`. -/
def packetSize (mtu : Nat) : Nat :=
  let max_size :=
    if mtu ≤ 0 then AVAHI_DNS_PACKET_SIZE_MAX
    else if AVAHI_DNS_PACKET_EXTRA_SIZE ≤ mtu then mtu - AVAHI_DNS_PACKET_EXTRA_SIZE
    else 0
  if max_size < AVAHI_DNS_PACKET_HEADER_SIZE then AVAHI_DNS_PACKET_HEADER_SIZE else max_size

/-- `avahi_dns_packet_new`. -/
def avahi_dns_packet_new (mtu : Nat) : AvahiDnsPacket :=
  { data := List.replicate AVAHI_DNS_PACKET_HEADER_SIZE 0, max_size := packetSize mtu }

/-- `avahi_dns_packet_new_query`. -/
def avahi_dns_packet_new_query (mtu : Nat) : AvahiDnsPacket :=
  avahi_dns_packet_set_field (avahi_dns_packet_new mtu) AVAHI_DNS_FIELD_FLAGS 0

/-- `avahi_dns_packet_is_empty`. -/
def avahi_dns_packet_is_empty (p : AvahiDnsPacket) : Bool := p.data.length ≤ AVAHI_DNS_PACKET_HEADER_SIZE

/-- As many items as a header announces, one after the other. -/
def consumeMany {α : Type} (consume : AvahiDnsPacket → Except ReadFailure (α × AvahiDnsPacket)) :
    Nat → AvahiDnsPacket → Except ReadFailure (List α × AvahiDnsPacket)
  | 0, p => .ok ([], p)
  | n + 1, p => do
    let (item, p) ← consume p
    let (items, p) ← consumeMany consume n p
    return (item :: items, p)

/-- The questions of a packet, each with whether a unicast response is asked for. -/
def consumeKeys : Nat → AvahiDnsPacket → Except ReadFailure (List (AvahiKey × Bool) × AvahiDnsPacket) :=
  consumeMany fun p => do
    let (key, unicast_response, p) ← avahi_dns_packet_consume_key p
    return ((key, unicast_response), p)

/-- The records of a packet, each with whether it flushes caches. -/
def consumeRecords : Nat → AvahiDnsPacket → Except ReadFailure (List (AvahiRecord × Bool) × AvahiDnsPacket) :=
  consumeMany fun p => do
    let (record, cache_flush, p) ← avahi_dns_packet_consume_record p
    return ((record, cache_flush), p)

theorem consumeMany_concat {α : Type} {consume : AvahiDnsPacket → Except ReadFailure (α × AvahiDnsPacket)} {n : Nat}
    {p q r : AvahiDnsPacket} {items : List α} {item : α} (hitems : consumeMany consume n p = .ok (items, q))
    (hitem : consume q = .ok (item, r)) : consumeMany consume (n + 1) p = .ok (items ++ [item], r) := by
  induction n generalizing p items with
  | zero =>
    cases hitems
    simp only [consumeMany, hitem, bind, Except.bind, pure, Except.pure, List.nil_append]
  | succ n ih =>
    obtain ⟨⟨first, m⟩, hfirst, hitems⟩ := bind_eq_ok hitems
    obtain ⟨⟨rest, m'⟩, hrest, hdone⟩ := bind_eq_ok hitems
    cases hdone
    rw [consumeMany]
    simp only [hfirst, ih hrest, bind, Except.bind, pure, Except.pure, List.cons_append]

/-- A packet under another header. -/
def AvahiDnsPacket.withHeader (header : List UInt8) (p : AvahiDnsPacket) : AvahiDnsPacket :=
  { p with data := header ++ p.data.drop AVAHI_DNS_PACKET_HEADER_SIZE }

/-- What a packet carries, whatever its header says: these questions and then
    these records, and nothing behind them. -/
structure Carries (p : AvahiDnsPacket) (keys : List (AvahiKey × Bool)) (records : List (AvahiRecord × Bool)) : Prop where
  room : AVAHI_DNS_PACKET_HEADER_SIZE + 4 * (keys.length + records.length) ≤ p.data.length
  fits : p.data.length ≤ p.max_size
  table {header : List UInt8} : header.length = AVAHI_DNS_PACKET_HEADER_SIZE → TableOk (p.withHeader header)
  reads {header rest : List UInt8} {reader : AvahiDnsPacket} : header.length = AVAHI_DNS_PACKET_HEADER_SIZE →
    reader.data = (p.withHeader header).data ++ rest → reader.rindex = AVAHI_DNS_PACKET_HEADER_SIZE →
    ∃ mid, consumeKeys keys.length reader = .ok (keys, mid) ∧ consumeRecords records.length mid =
      .ok (records, reader.forward (p.data.length - AVAHI_DNS_PACKET_HEADER_SIZE))

theorem Carries.header {p : AvahiDnsPacket} {keys : List (AvahiKey × Bool)} {records : List (AvahiRecord × Bool)}
    (h : Carries p keys records) : AVAHI_DNS_PACKET_HEADER_SIZE ≤ p.data.length := by
  have hroom := h.room
  omega

theorem length_withHeader {p : AvahiDnsPacket} {header : List UInt8} (hp : AVAHI_DNS_PACKET_HEADER_SIZE ≤ p.data.length)
    (hheader : header.length = AVAHI_DNS_PACKET_HEADER_SIZE) : (p.withHeader header).data.length = p.data.length := by
  simp only [AvahiDnsPacket.withHeader, List.length_append, List.length_drop]
  omega

theorem alike_withHeader {p : AvahiDnsPacket} {header : List UInt8} (hp : AVAHI_DNS_PACKET_HEADER_SIZE ≤ p.data.length)
    (hheader : header.length = AVAHI_DNS_PACKET_HEADER_SIZE) :
    Alike (p.data.take AVAHI_DNS_PACKET_HEADER_SIZE) header p (p.withHeader header) := by
  refine ⟨?_, ⟨p.data.drop AVAHI_DNS_PACKET_HEADER_SIZE, (List.take_append_drop _ _).symm, rfl⟩, rfl, rfl⟩
  rw [List.length_take, hheader]
  omega

/-- What comes from alike packets is alike under the other header. -/
theorem Alike.data_withHeader {a header : List UInt8} {p q : AvahiDnsPacket} (h : Alike a header p q)
    (ha : a.length = AVAHI_DNS_PACKET_HEADER_SIZE) : (p.withHeader header).data = q.data := by
  obtain ⟨ext, hp, hq⟩ := h.data
  rw [AvahiDnsPacket.withHeader, hp, hq, ← ha, List.drop_left]

theorem TableOk.congr {p q : AvahiDnsPacket} (hp : TableOk p) (hdata : p.data = q.data)
    (htable : p.name_table = q.name_table) : TableOk q := by
  refine ⟨hdata ▸ hp.header, fun e he => ?_⟩
  rw [← hdata]
  exact hp.entries e (htable ▸ he)

theorem Carries.inside {p : AvahiDnsPacket} {keys : List (AvahiKey × Bool)} {records : List (AvahiRecord × Bool)}
    (h : Carries p keys records) : Inside p := by
  have htable := @Carries.table _ _ _ h (List.replicate AVAHI_DNS_PACKET_HEADER_SIZE 0) (List.length_replicate ..)
  intro e he
  have hinside := (htable.entries e he).inside
  rwa [length_withHeader h.header (List.length_replicate ..)] at hinside

/-- A field of the header is no part of what a packet carries. -/
theorem Carries.set_field {p : AvahiDnsPacket} {keys : List (AvahiKey × Bool)} {records : List (AvahiRecord × Bool)}
    (h : Carries p keys records) {idx : Nat} (hidx : idx ≤ AVAHI_DNS_FIELD_ARCOUNT) (v : UInt16) :
    Carries (avahi_dns_packet_set_field p idx v) keys records := by
  have hlength : (avahi_dns_packet_set_field p idx v).data.length = p.data.length := by
    simp [avahi_dns_packet_set_field, AvahiDnsPacket.patch]
  have hsame (header : List UInt8) :
      (avahi_dns_packet_set_field p idx v).withHeader header = p.withHeader header := by
    simp only [AVAHI_DNS_FIELD_ARCOUNT] at hidx
    simp only [AvahiDnsPacket.withHeader, avahi_dns_packet_set_field, AvahiDnsPacket.patch,
      AVAHI_DNS_PACKET_HEADER_SIZE]
    rw [List.drop_set_of_lt (by omega), List.drop_set_of_lt (by omega)]
  refine ⟨hlength ▸ h.room, hlength ▸ h.fits, fun {header} hheader => ?_,
    fun {header rest reader} hheader hreader hindex => ?_⟩
  · rw [hsame]
    exact h.table hheader
  · rw [hsame] at hreader
    rw [hlength]
    exact h.reads hheader hreader hindex

theorem carries_new (mtu : Nat) : Carries (avahi_dns_packet_new mtu) [] [] := by
  refine ⟨Nat.le_refl _, ?_, fun {header} hheader => ⟨?_, by simp [AvahiDnsPacket.withHeader, avahi_dns_packet_new]⟩,
    fun _ _ _ => ⟨_, rfl, rfl⟩⟩
  · simp only [avahi_dns_packet_new, packetSize, List.length_replicate]
    split_ifs <;> omega
  simp only [AvahiDnsPacket.withHeader, List.length_append]
  omega

/-- A packet that has grown under every header by something that is read behind
    what was there. -/
theorem Carries.grow {p q : AvahiDnsPacket} {keys keys' : List (AvahiKey × Bool)}
    {records records' : List (AvahiRecord × Bool)} (h : Carries p keys records) (hfits : q.data.length ≤ q.max_size)
    (hone : keys'.length + records'.length = keys.length + records.length + 1)
    (hgrow : ∀ header : List UInt8, header.length = AVAHI_DNS_PACKET_HEADER_SIZE → ∃ q' ext,
      Alike (p.data.take AVAHI_DNS_PACKET_HEADER_SIZE) header q q' ∧ Grown (p.withHeader header) q' ext ∧
      4 ≤ ext.length ∧ ∀ {reader mid : AvahiDnsPacket} {rest : List UInt8} {place : Nat}, reader.data = q'.data ++ rest →
        reader.rindex + place = p.data.length →
        consumeKeys keys.length reader = .ok (keys, mid) →
        consumeRecords records.length mid = .ok (records, reader.forward place) →
        ∃ mid', consumeKeys keys'.length reader = .ok (keys', mid') ∧
          consumeRecords records'.length mid' = .ok (records', reader.forward (place + ext.length))) :
    Carries q keys' records' := by
  have hfront : (p.data.take AVAHI_DNS_PACKET_HEADER_SIZE).length = AVAHI_DNS_PACKET_HEADER_SIZE := by
    rw [List.length_take]
    exact Nat.min_eq_left h.header
  have hlength {header : List UInt8} (hheader : header.length = AVAHI_DNS_PACKET_HEADER_SIZE) {q' : AvahiDnsPacket}
      {ext : List UInt8} (halike : Alike (p.data.take AVAHI_DNS_PACKET_HEADER_SIZE) header q q')
      (hgrown : Grown (p.withHeader header) q' ext) : q.data.length = p.data.length + ext.length := by
    rw [halike.length_data, hgrown.data, List.length_append, length_withHeader h.header hheader]
  have hheader := h.header
  have hroom := h.room
  refine ⟨?_, hfits, fun {header} hsize => ?_, fun {header rest reader} hsize hreader hindex => ?_⟩
  · obtain ⟨q', ext, halike, hgrown, hlong, -⟩ := hgrow (List.replicate AVAHI_DNS_PACKET_HEADER_SIZE 0)
      (List.length_replicate ..)
    have hq := hlength (List.length_replicate ..) halike hgrown
    omega
  · obtain ⟨q', ext, halike, hgrown, -⟩ := hgrow header hsize
    exact hgrown.table.congr (halike.data_withHeader hfront).symm halike.name_table.symm
  · obtain ⟨q', ext, halike, hgrown, -, hreads⟩ := hgrow header hsize
    have hq := hlength hsize halike hgrown
    rw [halike.data_withHeader hfront] at hreader
    obtain ⟨mid, hkeys, hrecords⟩ := @Carries.reads _ _ _ h header (ext ++ rest) reader hsize
      (by rw [hreader, hgrown.data, List.append_assoc]) hindex
    have hplace : q.data.length - AVAHI_DNS_PACKET_HEADER_SIZE =
        p.data.length - AVAHI_DNS_PACKET_HEADER_SIZE + ext.length := by omega
    rw [hplace]
    exact hreads hreader (by omega) hkeys hrecords

/-- A question that fits is carried behind those before it. -/
theorem Carries.append_key {p q : AvahiDnsPacket} {keys : List (AvahiKey × Bool)} (h : Carries p keys [])
    {k : AvahiKey} (hk : k.Sendable) {unicast_response : Bool}
    (happend : avahi_dns_packet_append_key k unicast_response p = (true, q)) :
    Carries q (keys ++ [(k, unicast_response)]) [] := by
  refine h.grow ((append_key_fits h.inside happend).2.1 h.fits) (by simp) fun header hheader => ?_
  obtain ⟨q', hq', halike⟩ := Oblivious.eq_true (oblivious_append_key k unicast_response)
    (alike_withHeader h.header hheader) happend
  obtain ⟨ext, hgrown, hlong, hread⟩ := (h.table hheader).append_key hk hq'
  refine ⟨q', ext, halike, hgrown, hlong, fun {reader mid rest place} hreader hplace hkeys hrecords => ?_⟩
  cases hrecords
  have hkey := @hread (reader.forward place) _ hreader (by
    rw [forward_rindex, hplace, length_withHeader h.header hheader])
  rw [forward_forward] at hkey
  refine ⟨_, ?_, rfl⟩
  rw [List.length_append]
  refine consumeMany_concat hkeys ?_
  rw [hkey]
  rfl

/-- A record that fits is carried behind those before it, with the TTL that it
    was sent with. -/
theorem Carries.append_record {p q : AvahiDnsPacket} {keys : List (AvahiKey × Bool)}
    {records : List (AvahiRecord × Bool)} (h : Carries p keys records) {r : AvahiRecord} {max_ttl : UInt32}
    (hr : r.Sendable max_ttl) {cache_flush : Bool}
    (happend : avahi_dns_packet_append_record r cache_flush max_ttl p = some (true, q)) :
    Carries q keys (records ++ [({ r with ttl := cappedTtl max_ttl r.ttl }, cache_flush)]) := by
  refine h.grow ((append_record_fits h.inside happend).2.1 h.fits) (by simp; omega) fun header hheader => ?_
  obtain ⟨q', hq', halike⟩ := (alike_withHeader h.header hheader).append_record h.inside happend
  obtain ⟨ext, hgrown, hlong, hread⟩ := (h.table hheader).append_record hr hq'
  refine ⟨q', ext, halike, hgrown, hlong, fun {reader mid rest place} hreader hplace hkeys hrecords => ?_⟩
  have hrecord := @hread (reader.forward place) _ hreader (by
    rw [forward_rindex, hplace, length_withHeader h.header hheader])
  rw [forward_forward] at hrecord
  refine ⟨mid, hkeys, ?_⟩
  rw [List.length_append]
  refine consumeMany_concat hrecords ?_
  rw [hrecord]
  rfl

/-- A packet as the senders of the library fill it: after `avahi_dns_packet_new`,
    appends that succeed or fail, the questions in front of the records, and
    fields of the header that are set at any time. -/
inductive Written : AvahiDnsPacket → List (AvahiKey × Bool) → List (AvahiRecord × Bool) → Prop
  | new (mtu : Nat) : Written (avahi_dns_packet_new mtu) [] []
  | field {p : AvahiDnsPacket} {keys : List (AvahiKey × Bool)} {records : List (AvahiRecord × Bool)} {idx : Nat}
      (v : UInt16) : Written p keys records → idx ≤ AVAHI_DNS_FIELD_ARCOUNT →
      Written (avahi_dns_packet_set_field p idx v) keys records
  | key {p q : AvahiDnsPacket} {keys : List (AvahiKey × Bool)} {k : AvahiKey} {unicast_response : Bool} :
      Written p keys [] → k.Sendable → avahi_dns_packet_append_key k unicast_response p = (true, q) →
      Written q (keys ++ [(k, unicast_response)]) []
  | key_full {p q : AvahiDnsPacket} {keys : List (AvahiKey × Bool)} {records : List (AvahiRecord × Bool)} {k : AvahiKey}
      {unicast_response : Bool} : Written p keys records →
      avahi_dns_packet_append_key k unicast_response p = (false, q) → Written q keys records
  | record {p q : AvahiDnsPacket} {keys : List (AvahiKey × Bool)} {records : List (AvahiRecord × Bool)}
      {r : AvahiRecord} {cache_flush : Bool} {max_ttl : UInt32} : Written p keys records → r.Sendable max_ttl →
      avahi_dns_packet_append_record r cache_flush max_ttl p = some (true, q) →
      Written q keys (records ++ [({ r with ttl := cappedTtl max_ttl r.ttl }, cache_flush)])
  | record_full {p q : AvahiDnsPacket} {keys : List (AvahiKey × Bool)} {records : List (AvahiRecord × Bool)}
      {r : AvahiRecord} {cache_flush : Bool} {max_ttl : UInt32} : Written p keys records →
      avahi_dns_packet_append_record r cache_flush max_ttl p = some (false, q) → Written q keys records

theorem Written.carries {p : AvahiDnsPacket} {keys : List (AvahiKey × Bool)} {records : List (AvahiRecord × Bool)}
    (h : Written p keys records) : Carries p keys records := by
  induction h with
  | new mtu => exact carries_new mtu
  | field v _ hidx ih => exact ih.set_field hidx v
  | key _ hk happend ih => exact ih.append_key hk happend
  | key_full _ happend ih =>
    rw [append_key_eq_false ih.inside happend]
    exact ih
  | record _ hr happend ih => exact ih.append_record hr happend
  | record_full _ happend ih =>
    rw [append_record_eq_false ih.inside happend]
    exact ih

/-- What a packet carries is read from it, up to its end. -/
theorem Carries.consume {p : AvahiDnsPacket} {keys : List (AvahiKey × Bool)} {records : List (AvahiRecord × Bool)}
    (h : Carries p keys records) (hindex : p.rindex = AVAHI_DNS_PACKET_HEADER_SIZE) :
    ∃ mid, consumeKeys keys.length p = .ok (keys, mid) ∧
      consumeRecords records.length mid = .ok (records, { p with rindex := p.data.length }) := by
  have hheader := h.header
  have hfront : (p.data.take AVAHI_DNS_PACKET_HEADER_SIZE).length = AVAHI_DNS_PACKET_HEADER_SIZE := by
    rw [List.length_take]
    exact Nat.min_eq_left hheader
  obtain ⟨mid, hkeys, hrecords⟩ := @Carries.reads _ _ _ h _ [] p hfront
    (by simp [AvahiDnsPacket.withHeader]) hindex
  refine ⟨mid, hkeys, ?_⟩
  rw [hrecords, AvahiDnsPacket.forward, hindex, Nat.add_sub_cancel' hheader]

/-- The packet that is received for one that was sent. -/
def AvahiDnsPacket.received (p : AvahiDnsPacket) : AvahiDnsPacket := { data := p.data, max_size := p.max_size }

theorem Carries.received {p : AvahiDnsPacket} {keys : List (AvahiKey × Bool)} {records : List (AvahiRecord × Bool)}
    (h : Carries p keys records) : Carries p.received keys records :=
  ⟨h.room, h.fits, fun hheader => ⟨(h.table hheader).header, nofun⟩, h.reads⟩

/-- Whatever a sender has put into a packet is read from it, questions and
    records in their order and nothing else, with all the compression of names
    between them, and whatever did not fit in between. -/
theorem avahi_dns_packet_written_received {p : AvahiDnsPacket} {keys : List (AvahiKey × Bool)}
    {records : List (AvahiRecord × Bool)} (h : Written p keys records) :
    ∃ mid, consumeKeys keys.length p.received = .ok (keys, mid) ∧
      consumeRecords records.length mid = .ok (records, { p.received with rindex := p.data.length }) :=
  h.carries.received.consume rfl

/-- A question for `P.L`, answered in the same packet by a PTR record under
    `P.L` to `I.P.L`. -/
def ptrRecord : AvahiRecord :=
  { key := { name := [0x50, 0x2E, 0x4C], clazz := AVAHI_DNS_CLASS_IN, type := AVAHI_DNS_TYPE_PTR }, ttl := 120
    data := .ptr [0x49, 0x2E, 0x50, 0x2E, 0x4C], typed := by decide }

theorem normalName_of (labels : List CString) (hlabels : ∀ label ∈ labels, ValidLabel label ∧ label ≠ [])
    (hfew : 2 * labels.length + 1 ≤ AVAHI_DNS_LABELS_MAX) (hshort : (dotted labels).length < AVAHI_DOMAIN_NAME_MAX) :
    NormalName (dotted labels) := by
  have hvalid := fun label hlabel => (hlabels label hlabel).1
  have hne := fun label hlabel => (hlabels label hlabel).2
  exact ⟨labels, ⟨labels_dotted hvalid hne, hvalid, hne⟩, rfl, hfew, hshort⟩

instance (label : CString) : Decidable (ValidLabel label) :=
  decidable_of_iff (label.length < AVAHI_LABEL_MAX ∧ 0 ∉ label ∧ avahi_utf8_valid label = true)
    ⟨fun h => ⟨h.1, h.2.1, h.2.2⟩, fun h => ⟨h.short, h.nonzero, h.utf8⟩⟩

theorem avahi_dns_packet_written_received_ptr :
    ∃ p mid, consumeKeys 1 p = .ok ([(ptrRecord.key, true)], mid) ∧ ∃ q,
      consumeRecords 1 mid = .ok ([(ptrRecord, false)], q) := by
  have hname : NormalName ptrRecord.key.name := normalName_of [[0x50], [0x4C]] (by decide) (by decide) (by decide)
  have hdata : NormalName [0x49, 0x2E, 0x50, 0x2E, 0x4C] :=
    normalName_of [[0x49], [0x50], [0x4C]] (by decide) (by decide) (by decide)
  have hkey : avahi_dns_packet_append_key ptrRecord.key true (avahi_dns_packet_new 0) =
      (true, (avahi_dns_packet_append_key ptrRecord.key true (avahi_dns_packet_new 0)).2) := Prod.ext (by decide) rfl
  have hfits : (avahi_dns_packet_append_record ptrRecord false 0
      (avahi_dns_packet_append_key ptrRecord.key true (avahi_dns_packet_new 0)).2).map Prod.fst = some true := by decide
  obtain ⟨⟨ok, q⟩, hrecord, hok⟩ := Option.map_eq_some_iff.mp hfits
  obtain rfl : ok = true := hok
  have hwritten := ((Written.new 0).key ⟨hname, by decide, by decide⟩ hkey).record ⟨hname, hdata, by decide, by decide⟩
    hrecord
  obtain ⟨mid, hkeys, hrecords⟩ := avahi_dns_packet_written_received hwritten
  exact ⟨_, mid, hkeys, _, hrecords⟩

end qtzeroconf.avahi
