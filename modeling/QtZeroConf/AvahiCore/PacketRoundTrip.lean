import QtZeroConf.AvahiCore.PacketAppend

namespace qtzeroconf.avahi

/-- A number comes back from its bytes. -/
theorem uint16Of_bytes (v : UInt16) : uint16Of [(v >>> 8).toUInt8, v.toUInt8] = v := by
  have hv := v.toNat_lt
  have hlow : v.toNat % 256 < 2 ^ 8 := Nat.mod_lt _ (by decide)
  have hhigh : (v.toNat >>> 8 % 256) <<< 8 % 65536 = 2 ^ 8 * (v.toNat / 256) := by
    rw [Nat.shiftRight_eq_div_pow, Nat.shiftLeft_eq]
    omega
  apply UInt16.toNat_inj.mp
  simp only [uint16Of, List.getD_cons_zero, List.getD_cons_succ, UInt16.toNat_or, UInt16.toNat_shiftLeft,
    UInt8.toNat_toUInt16, UInt16.toNat_toUInt8, UInt16.toNat_shiftRight, UInt16.reduceToNat, Nat.reduceMod]
  rw [hhigh, ← Nat.two_pow_add_eq_or_of_lt hlow]
  omega

/-- A number comes back from its bytes. -/
theorem uint32Of_bytes (v : UInt32) :
    uint32Of [(v >>> 24).toUInt8, (v >>> 16).toUInt8, (v >>> 8).toUInt8, v.toUInt8] = v := by
  have hv := v.toNat_lt
  have h₀ : v.toNat % 256 < 2 ^ 8 := Nat.mod_lt _ (by decide)
  have h₁ : (v.toNat >>> 8 % 256) <<< 8 % 4294967296 = 2 ^ 8 * (v.toNat / 256 % 256) := by
    rw [Nat.shiftRight_eq_div_pow, Nat.shiftLeft_eq]
    omega
  have h₂ : (v.toNat >>> 16 % 256) <<< 16 % 4294967296 = 2 ^ 16 * (v.toNat / 65536 % 256) := by
    rw [Nat.shiftRight_eq_div_pow, Nat.shiftLeft_eq]
    omega
  have h₃ : (v.toNat >>> 24 % 256) <<< 24 % 4294967296 = 2 ^ 24 * (v.toNat / 16777216) := by
    rw [Nat.shiftRight_eq_div_pow, Nat.shiftLeft_eq]
    omega
  have hor₂ : 2 ^ 24 * (v.toNat / 16777216) ||| 2 ^ 16 * (v.toNat / 65536 % 256) = 2 ^ 16 * (v.toNat / 65536) := by
    rw [← Nat.two_pow_add_eq_or_of_lt (by omega)]
    omega
  have hor₁ : 2 ^ 16 * (v.toNat / 65536) ||| 2 ^ 8 * (v.toNat / 256 % 256) = 2 ^ 8 * (v.toNat / 256) := by
    rw [← Nat.two_pow_add_eq_or_of_lt (by omega)]
    omega
  apply UInt32.toNat_inj.mp
  simp only [uint32Of, List.getD_cons_zero, List.getD_cons_succ, UInt32.toNat_or, UInt32.toNat_shiftLeft,
    UInt8.toNat_toUInt32, UInt32.toNat_toUInt8, UInt32.toNat_shiftRight, UInt32.reduceToNat, Nat.reduceMod]
  rw [h₃, h₂, h₁, hor₂, hor₁, ← Nat.two_pow_add_eq_or_of_lt h₀]
  omega

/-- Bytes that come next where a packet is read. -/
def Next (r : AvahiDnsPacket) (bytes : List UInt8) : Prop :=
  ∃ front rest, r.data = front ++ (bytes ++ rest) ∧ front.length = r.rindex

/-- Further on in a packet. -/
def AvahiDnsPacket.forward (r : AvahiDnsPacket) (n : Nat) : AvahiDnsPacket := { r with rindex := r.rindex + n }

@[simp] theorem forward_data (r : AvahiDnsPacket) (n : Nat) : (r.forward n).data = r.data := rfl

@[simp] theorem forward_rindex (r : AvahiDnsPacket) (n : Nat) : (r.forward n).rindex = r.rindex + n := rfl

theorem forward_forward (r : AvahiDnsPacket) (m n : Nat) : (r.forward m).forward n = r.forward (m + n) := by
  simp [AvahiDnsPacket.forward, Nat.add_assoc]

theorem Next.left {r : AvahiDnsPacket} {a b : List UInt8} (h : Next r (a ++ b)) : Next r a := by
  obtain ⟨front, rest, hdata, hfront⟩ := h
  exact ⟨front, b ++ rest, by rw [hdata, List.append_assoc], hfront⟩

theorem Next.right {r : AvahiDnsPacket} {a b : List UInt8} (h : Next r (a ++ b)) : Next (r.forward a.length) b := by
  obtain ⟨front, rest, hdata, hfront⟩ := h
  refine ⟨front ++ a, rest, ?_, ?_⟩
  · rw [forward_data, hdata, List.append_assoc, List.append_assoc]
  · rw [List.length_append, hfront, forward_rindex]

theorem Next.inside {r : AvahiDnsPacket} {bytes : List UInt8} (h : Next r bytes) :
    ¬ r.data.length < r.rindex + bytes.length := by
  obtain ⟨front, rest, hdata, hfront⟩ := h
  rw [hdata, List.length_append, List.length_append, hfront]
  omega

theorem Next.read {r : AvahiDnsPacket} {bytes : List UInt8} (h : Next r bytes) :
    r.read r.rindex bytes.length = .ok bytes := by
  rw [AvahiDnsPacket.read, if_neg h.inside]
  obtain ⟨front, rest, hdata, hfront⟩ := h
  rw [hdata, ← hfront, List.drop_left, List.take_left]

/-- The bytes that come next are taken, and the reader is behind them. -/
theorem Next.take {r : AvahiDnsPacket} {bytes : List UInt8} (h : Next r bytes) :
    r.take bytes.length = .ok (bytes, r.forward bytes.length) := by
  simp only [AvahiDnsPacket.take, if_neg h.inside, h.read]
  rfl

/-- A number is read from the bytes it was written as. -/
theorem Next.consume_uint16 {r : AvahiDnsPacket} {v : UInt16} (h : Next r [(v >>> 8).toUInt8, v.toUInt8]) :
    avahi_dns_packet_consume_uint16 r = .ok (v, r.forward 2) := by
  have htake : r.take 2 = _ := h.take
  simp only [avahi_dns_packet_consume_uint16, htake, bind, Except.bind, pure, Except.pure, uint16Of_bytes]
  rfl

theorem Next.consume_uint32 {r : AvahiDnsPacket} {v : UInt32}
    (h : Next r [(v >>> 24).toUInt8, (v >>> 16).toUInt8, (v >>> 8).toUInt8, v.toUInt8]) :
    avahi_dns_packet_consume_uint32 r = .ok (v, r.forward 4) := by
  have htake : r.take 4 = _ := h.take
  simp only [avahi_dns_packet_consume_uint32, htake, bind, Except.bind, pure, Except.pure, uint32Of_bytes]
  rfl

theorem Next.consume_bytes {r : AvahiDnsPacket} {n : Nat} {address : Vector UInt8 n} (h : Next r address.toList) :
    avahi_dns_packet_consume_bytes r n = .ok (address, r.forward n) := by
  have htake := h.take
  rw [Vector.length_toList] at htake
  have haddress : Vector.ofFn (fun i : Fin n => address.toList.getD i 0) = address := by
    ext i hi
    simp
  simp only [avahi_dns_packet_consume_bytes, htake, bind, Except.bind, pure, Except.pure, haddress]

theorem length_stringBytes {s : CString} (h : s.length ≤ 255) :
    stringBytes s = UInt8.ofNat s.length :: s := by
  have hk : (if 255 ≤ s.length then 255 else s.length) = s.length := by
    split_ifs <;> omega
  simp only [stringBytes, hk, List.take_length]

/-- A string that fits under its length byte and has no terminator in it. -/
theorem Next.consume_string {r : AvahiDnsPacket} {s : CString} (hshort : s.length ≤ 255) (hzero : 0 ∉ s)
    (h : Next r (stringBytes s)) :
    avahi_dns_packet_consume_string r AVAHI_DOMAIN_NAME_MAX = .ok (s, r.forward (stringBytes s).length) := by
  rw [length_stringBytes hshort] at h ⊢
  have hn : (UInt8.ofNat s.length).toNat = s.length := toNat_ofNat_byte (by omega)
  obtain ⟨front, rest, hdata, hfront⟩ := h
  have hlength : r.data.length = r.rindex + (s.length + 1 + rest.length) := by
    rw [hdata, List.length_append, List.length_append, List.length_cons, hfront]
  have hbyte : r.byte r.rindex = .ok (UInt8.ofNat s.length) := by
    simp [AvahiDnsPacket.byte, hdata, ← hfront]
  have hread : r.read (r.rindex + 1) s.length = .ok s := by
    have hsplit : r.data = (front ++ [UInt8.ofNat s.length]) ++ (s ++ rest) := by simp [hdata]
    have hplace : r.rindex + 1 = (front ++ [UInt8.ofNat s.length]).length := by simp [hfront]
    rw [AvahiDnsPacket.read, if_neg (by omega), hsplit, hplace, List.drop_left, List.take_left]
  have hcopy : QByteArray.cString s = s := by
    refine List.takeWhile_eq_self_iff.mpr fun c hc => ?_
    have hne : c ≠ 0 := fun h => hzero (h ▸ hc)
    simpa using hne
  have hinside : ((Cursor.start AVAHI_DOMAIN_NAME_MAX).put s).terminate.overrun = false := by
    have hroom : s.length < AVAHI_DOMAIN_NAME_MAX := Nat.lt_of_le_of_lt hshort (by decide)
    have hfits : ¬ AVAHI_DOMAIN_NAME_MAX < s.length := by omega
    have hend : ¬ AVAHI_DOMAIN_NAME_MAX - s.length = 0 := by omega
    simp only [Cursor.terminate, Cursor.put, Cursor.start, hfits, hend, decide_false, Bool.or_self]
  have htext : ((Cursor.start AVAHI_DOMAIN_NAME_MAX).put s).terminate.text = s := rfl
  rw [avahi_dns_packet_consume_string, if_neg (by omega)]
  simp only [hbyte, bind, Except.bind, hn]
  rw [if_neg (by omega), if_pos (by simp only [AVAHI_DOMAIN_NAME_MAX]; omega), Nat.add_sub_cancel, hread]
  simp only [hinside, Bool.false_eq_true, if_false, htext, hcopy, AvahiDnsPacket.forward, List.length_cons, pure, Except.pure, Nat.add_assoc, Nat.add_comm 1]

/-- A name in its normal form that fits into the buffers of the reader, with few
    enough labels for it. -/
def NormalName (name : CString) : Prop :=
  ∃ labels, ProperLabels name labels ∧ name = dotted labels ∧ 2 * labels.length + 1 ≤ AVAHI_DNS_LABELS_MAX ∧
    name.length < AVAHI_DOMAIN_NAME_MAX

/-- Record data that survives the way through a packet. -/
def RData.Sendable : RData → Prop
  | .generic _ => True
  | .srv _ _ _ name => NormalName name
  | .ptr name => NormalName name
  | .hinfo cpu os => (cpu.length ≤ 255 ∧ 0 ∉ cpu) ∧ os.length ≤ 255 ∧ 0 ∉ os
  | .txt string_list => ∀ text ∈ string_list, text ≠ [] ∧ text.length ≤ 255
  | .a _ => True
  | .aaaa _ => True

/-- What an append that succeeds has done: more bytes, and the name table is
    still true. -/
structure Grown (p q : AvahiDnsPacket) (bytes : List UInt8) : Prop where
  data : q.data = p.data ++ bytes
  table : TableOk q

/-- Bytes that fit are appended, and the table is true of them. -/
theorem TableOk.extend {p q : AvahiDnsPacket} (hp : TableOk p) {d : List UInt8}
    (h : avahi_dns_packet_extend d p = (true, q)) : Grown p q d := by
  obtain rfl := extend_eq_true h
  refine ⟨rfl, ?_, fun e he => (hp.entries e he).append d⟩
  have hheader := hp.header
  dsimp only
  rw [List.length_append]
  omega

/-- One append after the other. -/
theorem Grown.trans {p q r : AvahiDnsPacket} {a b : List UInt8} (hpq : Grown p q a) (hqr : Grown q r b) :
    Grown p r (a ++ b) :=
  ⟨by rw [hqr.data, hpq.data, List.append_assoc], hqr.table⟩

/-- The second part of what was appended. -/
theorem Grown.split {p m q : AvahiDnsPacket} {a b : List UInt8} (hm : Grown p m a) (hq : Grown p q (a ++ b)) :
    q.data = m.data ++ b := by
  rw [hq.data, hm.data, List.append_assoc]

/-- A normal name is spelled by the bytes that are appended for it, wherever
    they are read into a buffer that is large enough. -/
theorem TableOk.append_name_into {p q : AvahiDnsPacket} (hp : TableOk p) {name : CString} (hname : NormalName name) {l : Nat}
    (hroom : name.length < l) (h : avahi_dns_packet_append_name name p = (true, q)) :
    ∃ ext, Grown p q ext ∧ ∀ {r : AvahiDnsPacket} {rest : List UInt8}, r.data = q.data ++ rest →
      r.rindex = p.data.length → avahi_dns_packet_consume_name r l = .ok (name, r.forward ext.length) := by
  obtain ⟨labels, hlabels, hnormal, hfew, -⟩ := hname
  have happended := appendNameLoop_spells hlabels (Nat.le_refl _) hp.header (fun e he => Or.inl (hp.entries e he)) h
  obtain ⟨ext, steps, hdata, hspells, hsteps⟩ := happended.spelled
  refine ⟨ext, ⟨hdata, ?_, fun e he => ?_⟩, fun {r rest} hr hindex => ?_⟩
  · have hheader := hp.header
    rw [hdata, List.length_append]
    omega
  · rcases happended.entries e he with hold | hentry
    · rw [hdata]
      exact (hp.entries e hold).append ext
    · exact hentry
  · rw [hnormal]
    refine consume_name_spells ?_ (Nat.le_trans hsteps hfew) (hnormal ▸ hroom)
    rw [hr, hindex]
    exact hspells.append rest

theorem NormalName.short {name : CString} (h : NormalName name) : name.length < AVAHI_DOMAIN_NAME_MAX := by
  obtain ⟨-, -, -, -, hshort⟩ := h
  exact hshort

/-- A name that was appended is read, through the references in it. -/
theorem TableOk.append_name {p q : AvahiDnsPacket} (hp : TableOk p) {name : CString} (hname : NormalName name)
    (h : avahi_dns_packet_append_name name p = (true, q)) :
    ∃ ext, Grown p q ext ∧ ∀ {r : AvahiDnsPacket} {rest : List UInt8}, r.data = q.data ++ rest →
      r.rindex = p.data.length →
      avahi_dns_packet_consume_name r AVAHI_DOMAIN_NAME_MAX = .ok (name, r.forward ext.length) :=
  hp.append_name_into hname hname.short h

theorem next_of_grown {p q r : AvahiDnsPacket} {bytes rest : List UInt8} (h : Grown p q bytes)
    (hr : r.data = q.data ++ rest) (hindex : r.rindex = p.data.length) : Next r bytes :=
  ⟨p.data, rest, by rw [hr, h.data, List.append_assoc], hindex.symm⟩

/-- Data that was appended is parsed from as many bytes as were appended. -/
theorem TableOk.append_rdata {p q : AvahiDnsPacket} (hp : TableOk p) {data : RData} (hdata : data.Sendable)
    (h : append_rdata data p = (true, q)) :
    ∃ ext, Grown p q ext ∧ ∀ {r : AvahiDnsPacket} {rest : List UInt8}, r.data = q.data ++ rest →
      r.rindex = p.data.length →
      parseData r data.kind ext.length = .ok (⟨data, rfl⟩, r.forward ext.length) := by
  cases data with
  | ptr name =>
    obtain ⟨ext, hgrown, hread⟩ := hp.append_name hdata h
    refine ⟨ext, hgrown, fun hr hindex => ?_⟩
    simp only [RData.kind, parseData, hread hr hindex]
    rfl
  | srv priority weight port name =>
    obtain ⟨m₁, h₁, h⟩ := andThen_eq_true h
    obtain ⟨m₂, h₂, h⟩ := andThen_eq_true h
    obtain ⟨m₃, h₃, h⟩ := andThen_eq_true h
    have hpriority := hp.extend h₁
    have hweight := hpriority.table.extend h₂
    have hport := hweight.table.extend h₃
    obtain ⟨ext, hgrown, hread⟩ := hport.table.append_name hdata h
    refine ⟨_, hpriority.trans (hweight.trans (hport.trans hgrown)), fun {r rest} hr hindex => ?_⟩
    have hnext := next_of_grown (hpriority.trans (hweight.trans (hport.trans hgrown))) hr hindex
    have hsecond : Next (r.forward 2) [(weight >>> 8).toUInt8, weight.toUInt8] := hnext.right.left
    have hthird : Next ((r.forward 2).forward 2) [(port >>> 8).toUInt8, port.toUInt8] := hnext.right.right.left
    have hname := hread (r := ((r.forward 2).forward 2).forward 2) hr (by
      rw [hport.data, hweight.data, hpriority.data, forward_rindex, forward_rindex, forward_rindex, hindex]
      simp)
    have hlength : ([(priority >>> 8).toUInt8, priority.toUInt8] ++ ([(weight >>> 8).toUInt8, weight.toUInt8] ++
        ([(port >>> 8).toUInt8, port.toUInt8] ++ ext))).length = 2 + (2 + (2 + ext.length)) := by
      simp only [List.length_append, List.length_cons, List.length_nil]
    simp only [RData.kind, parseData, hnext.left.consume_uint16, bind, Except.bind,
      hsecond.consume_uint16, hthird.consume_uint16, hname]
    rw [forward_forward, forward_forward, forward_forward, hlength]
    rfl
  | hinfo cpu os =>
    obtain ⟨m, hcpu, hos⟩ := andThen_eq_true h
    have hgrown := (hp.extend hcpu).trans ((hp.extend hcpu).table.extend hos)
    refine ⟨_, hgrown, fun {r rest} hr hindex => ?_⟩
    have hnext := next_of_grown hgrown hr hindex
    simp only [RData.kind, parseData, hnext.left.consume_string hdata.1.1 hdata.1.2, bind, Except.bind,
      hnext.right.consume_string hdata.2.1 hdata.2.2, forward_forward, List.length_append]
    rfl
  | txt string_list =>
    have hgrown := hp.extend h
    refine ⟨_, hgrown, fun {r rest} hr hindex => ?_⟩
    have hnext := next_of_grown hgrown hr hindex
    have hparse := parse_serialize_full (Nat.le_refl (serializedSize string_list))
    have hpositive := length_serialize_pos string_list
    rw [serialized_of_valid hdata] at hparse
    simp only [RData.kind, parseData, if_pos hpositive, hnext.read, bind, Except.bind, hparse, hnext.take]
    rfl
  | a address =>
    have hgrown := hp.extend h
    refine ⟨_, hgrown, fun hr hindex => ?_⟩
    simp only [RData.kind, parseData, (next_of_grown hgrown hr hindex).consume_bytes, Vector.length_toList]
    rfl
  | aaaa address =>
    have hgrown := hp.extend h
    refine ⟨_, hgrown, fun hr hindex => ?_⟩
    simp only [RData.kind, parseData, (next_of_grown hgrown hr hindex).consume_bytes, Vector.length_toList]
    rfl
  | generic data =>
    simp only [avahi.append_rdata] at h
    by_cases hempty : data.length = 0
    · obtain rfl := List.length_eq_zero_iff.mp hempty
      rw [if_neg (by simp)] at h
      cases h
      exact ⟨[], ⟨(List.append_nil _).symm, hp⟩, fun _ _ => rfl⟩
    · rw [if_pos hempty] at h
      have hgrown := hp.extend h
      refine ⟨data, hgrown, fun hr hindex => ?_⟩
      have hnext := next_of_grown hgrown hr hindex
      simp only [RData.kind, parseData, if_pos (Nat.pos_of_ne_zero hempty), hnext.read, bind, Except.bind, hnext.take]
      rfl

/-- A record that survives the way through a packet. -/
structure AvahiRecord.Sendable (r : AvahiRecord) (max_ttl : UInt32) : Prop where
  name : NormalName r.key.name
  data : r.data.Sendable
  clazz : r.key.clazz &&& AVAHI_DNS_CACHE_FLUSH = 0
  ttl : cappedTtl max_ttl r.ttl ≠ 0xFFFFFFFF

/-- A name that has its labels passes the check. -/
theorem domainLoop_true {turns : Nat} {is_first : Bool} {t : CString} {labels : List CString} (hlabels : Labels t labels)
    (hne : ∀ label ∈ labels, label ≠ []) (hsome : labels ≠ []) (hturns : t.length ≤ turns) :
    domainLoop turns is_first t = true := by
  induction hlabels generalizing turns is_first with
  | nil => exact absurd rfl hsome
  | @cons t rest label labels ht hcut htail ih =>
    have hless := unescape_shrinks ht hcut
    obtain ⟨turns, rfl⟩ : ∃ n, turns = n + 1 := ⟨turns - 1, by omega⟩
    obtain ⟨hlabel, hrest⟩ := List.forall_mem_cons.mp hne
    simp only [domainLoop, hcut, hlabel, false_and, and_false, if_false]
    by_cases hend : rest = []
    · rw [if_pos hend]
    · rw [if_neg hend]
      refine ih hrest ?_ (by omega)
      rintro rfl
      cases htail with
      | nil => exact hend rfl

/-- A name in normal form passes the check for domain names. -/
theorem NormalName.valid {name : CString} (h : NormalName name) : avahi_is_valid_domain_name name = true := by
  obtain ⟨labels, hlabels, hnormal, -, hshort⟩ := h
  rw [avahi_is_valid_domain_name, if_neg (Nat.not_le_of_lt hshort)]
  by_cases hroot : labels = []
  · rw [hnormal, hroot]
    rfl
  · exact domainLoop_true hlabels.reads hlabels.nonempty hroot (Nat.le_succ _)

/-- A name in normal form is kept by the key that is made of it. -/
theorem NormalName.key_new {name : CString} (h : NormalName name) (clazz type : UInt16) :
    avahi_key_new name clazz type = .ok { name, clazz, type } := by
  obtain ⟨labels, hlabels, hnormal, -, hshort⟩ := h
  have hnormalize := avahi_normalize_name_fits hlabels.reads hlabels.nonempty (hnormal ▸ hshort)
  rw [avahi_key_new, avahi_normalize_name_strdup, hnormalize]
  simp only [normalized, written, if_true, ← hnormal]
  rfl

/-- What can be sent is valid. -/
theorem AvahiRecord.Sendable.valid {r : AvahiRecord} {max_ttl : UInt32} (h : r.Sendable max_ttl) :
    avahi_record_is_valid r = true := by
  have hdata := h.data
  simp only [avahi_record_is_valid, avahi_key_is_valid, h.name.valid, Bool.not_true, Bool.false_eq_true, if_false]
  split <;> rename_i heq <;> rw [heq] at hdata
  · exact hdata.valid
  · exact NormalName.valid hdata
  · simp [hdata.1.1, hdata.2.1]
  · refine List.all_eq_true.mpr fun text htext => ?_
    obtain ⟨hne, hshort⟩ := hdata text htext
    have hpositive := List.length_pos_iff.mpr hne
    simp only [Bool.not_eq_true', Bool.or_eq_false_iff, decide_eq_false_iff_not]
    omega

theorem and_or_distrib (a b c : UInt16) : a &&& (b ||| c) = (a &&& b) ||| (a &&& c) := by
  apply UInt16.toNat_inj.mp
  simp only [UInt16.toNat_and, UInt16.toNat_or, Nat.and_or_distrib_left]

/-- A class without the bit of the cache flush keeps what it has. -/
theorem and_not_flush {c : UInt16} (h : c &&& AVAHI_DNS_CACHE_FLUSH = 0) : c &&& ~~~AVAHI_DNS_CACHE_FLUSH = c := by
  have hor : AVAHI_DNS_CACHE_FLUSH ||| ~~~AVAHI_DNS_CACHE_FLUSH = -1 := by decide
  calc c &&& ~~~AVAHI_DNS_CACHE_FLUSH
      = (c &&& AVAHI_DNS_CACHE_FLUSH) ||| (c &&& ~~~AVAHI_DNS_CACHE_FLUSH) := by rw [h, UInt16.zero_or]
    _ = c &&& (AVAHI_DNS_CACHE_FLUSH ||| ~~~AVAHI_DNS_CACHE_FLUSH) := (and_or_distrib ..).symm
    _ = c := by rw [hor, UInt16.and_neg_one]

/-- The class and the bit of the cache flush come apart again. -/
theorem recordClass_split {c : UInt16} (h : c &&& AVAHI_DNS_CACHE_FLUSH = 0) (cache_flush : Bool) :
    recordClass cache_flush c &&& ~~~AVAHI_DNS_CACHE_FLUSH = c ∧
      (recordClass cache_flush c &&& AVAHI_DNS_CACHE_FLUSH ≠ 0 ↔ cache_flush = true) := by
  cases cache_flush with
  | true =>
    have hclass : (c ||| AVAHI_DNS_CACHE_FLUSH) &&& ~~~AVAHI_DNS_CACHE_FLUSH = c := by
      rw [UInt16.and_comm, and_or_distrib, UInt16.and_comm, and_not_flush h]
      exact UInt16.or_zero
    have hflush : (c ||| AVAHI_DNS_CACHE_FLUSH) &&& AVAHI_DNS_CACHE_FLUSH = AVAHI_DNS_CACHE_FLUSH := by
      rw [UInt16.and_comm, and_or_distrib, UInt16.and_comm, h, UInt16.and_self, UInt16.zero_or]
    simp only [recordClass, if_true, hclass, hflush, true_and, iff_true]
    decide
  | false =>
    simp only [recordClass, Bool.false_eq_true, if_false, and_not_flush h, h, ne_eq, not_true_eq_false, iff_self,
      and_self]

theorem extend_eq_true_of_length {d e : List UInt8} {p q : AvahiDnsPacket} (hlength : d.length = e.length)
    (h : avahi_dns_packet_extend d p = (true, q)) :
    avahi_dns_packet_extend e p = (true, { p with data := p.data ++ e }) := by
  unfold avahi_dns_packet_extend at h ⊢
  rw [← hlength]
  split_ifs at h ⊢
  · cases h
  · rfl

/-- Where the length of the data is written, nothing else changes. -/
theorem patch_data {p : AvahiDnsPacket} {front ext : List UInt8} (hp : p.data = (front ++ [0, 0]) ++ ext) (v : UInt16) :
    (p.patch ((front ++ [0, 0]).length - 2) v).data = (front ++ [(v >>> 8).toUInt8, v.toUInt8]) ++ ext := by
  simp [AvahiDnsPacket.patch, hp]

/-- The data of a record, behind the length that is only known afterwards. -/
theorem TableOk.append_patched {m head q : AvahiDnsPacket} (hm : TableOk m)
    (hhead : avahi_dns_packet_extend [0, 0] m = (true, head)) {data : RData} (hdata : data.Sendable)
    (h : avahi.append_rdata data head = (true, q)) (v : UInt16) :
    ∃ ext, q.data.length - head.data.length = ext.length ∧
      Grown m (q.patch (head.data.length - 2) v) ([(v >>> 8).toUInt8, v.toUInt8] ++ ext) ∧
      ∀ {r : AvahiDnsPacket} {rest : List UInt8}, r.data = (q.patch (head.data.length - 2) v).data ++ rest →
        r.rindex = m.data.length + 2 →
        parseData r data.kind ext.length = .ok (⟨data, rfl⟩, r.forward ext.length) := by
  have hpatched := extend_eq_true_of_length (e := [(v >>> 8).toUInt8, v.toUInt8]) (by rfl) hhead
  have hgrown := hm.extend hpatched
  have halike : Alike (m.data ++ [0, 0]) (m.data ++ [(v >>> 8).toUInt8, v.toUInt8]) head
      { m with data := m.data ++ [(v >>> 8).toUInt8, v.toUInt8] } := by
    rw [extend_eq_true hhead]
    exact ⟨by simp, ⟨[], by simp, by simp⟩, rfl, rfl⟩
  obtain ⟨hok, hafter⟩ := oblivious_append_rdata data halike
  rw [h] at hok hafter
  obtain ⟨q', hread⟩ : ∃ q', avahi.append_rdata data { m with data := m.data ++ [(v >>> 8).toUInt8, v.toUInt8] } =
      (true, q') := by
    generalize avahi.append_rdata data { m with data := m.data ++ [(v >>> 8).toUInt8, v.toUInt8] } = result at hok ⊢
    obtain ⟨ok, q'⟩ := result
    exact ⟨q', congrArg (·, q') hok.symm⟩
  rw [hread] at hafter
  obtain ⟨ext, hdone, hparse⟩ := hgrown.table.append_rdata hdata hread
  obtain ⟨ext', hq, hq'⟩ := hafter.data
  have hext : ext' = ext := List.append_cancel_left (hq'.symm.trans hdone.data)
  subst hext
  have hlength : head.data = m.data ++ [0, 0] := by rw [extend_eq_true hhead]
  have hpatch := patch_data hq v
  rw [← hlength] at hpatch
  refine ⟨ext', ?_, ⟨by rw [hpatch, List.append_assoc], ?_⟩, fun {r rest} hr hindex => ?_⟩
  · rw [hq, hlength, List.length_append]
    omega
  · have htable := hdone.table
    refine ⟨?_, fun e he => ?_⟩
    · have hheader := htable.header
      rwa [hq', ← hpatch] at hheader
    · have hentry := htable.entries e (hafter.name_table ▸ he)
      rwa [hq', ← hpatch] at hentry
  · refine @hparse r rest (by rw [hq', ← hpatch, hr]) ?_
    rw [hindex]
    simp

theorem parseData_typed {r q : AvahiDnsPacket} {n : Nat} {data : RData} {kind : RDataKind}
    (h : parseData r data.kind n = .ok (⟨data, rfl⟩, q)) (typed : data.kind = kind) :
    parseData r kind n = .ok (⟨data, typed⟩, q) := by
  subst typed
  exact h

/-- A record whose name, fields and data come next. -/
theorem consume_record_next {reader : AvahiDnsPacket} {r : AvahiRecord} {max_ttl : UInt32} (hr : r.Sendable max_ttl)
    {cache_flush : Bool} {n : Nat} {size : UInt16} {ext : List UInt8} (hsize : size.toNat = ext.length)
    (hname : avahi_dns_packet_consume_name reader AVAHI_DOMAIN_NAME_MAX = .ok (r.key.name, reader.forward n))
    (hnext : Next (reader.forward n) ([(r.key.type >>> 8).toUInt8, r.key.type.toUInt8] ++
      ([(recordClass cache_flush r.key.clazz >>> 8).toUInt8, (recordClass cache_flush r.key.clazz).toUInt8] ++
      ([(cappedTtl max_ttl r.ttl >>> 24).toUInt8, (cappedTtl max_ttl r.ttl >>> 16).toUInt8,
        (cappedTtl max_ttl r.ttl >>> 8).toUInt8, (cappedTtl max_ttl r.ttl).toUInt8] ++
      ([(size >>> 8).toUInt8, size.toUInt8] ++ ext)))))
    (hparse : parseData (reader.forward (n + 10)) r.data.kind ext.length =
      .ok (⟨r.data, rfl⟩, reader.forward (n + 10 + ext.length))) :
    avahi_dns_packet_consume_record reader =
      .ok ({ r with ttl := cappedTtl max_ttl r.ttl }, cache_flush, reader.forward (n + 10 + ext.length)) := by
  have hnextClass : Next ((reader.forward n).forward 2) _ := hnext.right
  have hnextTtl : Next (((reader.forward n).forward 2).forward 2) _ := hnextClass.right
  have hnextLength : Next ((((reader.forward n).forward 2).forward 2).forward 4) _ := hnextTtl.right
  have hnextData : Next (((((reader.forward n).forward 2).forward 2).forward 4).forward 2) ext := hnextLength.right
  have hinside := hnextData.inside
  have hplace : ((((reader.forward n).forward 2).forward 2).forward 4).forward 2 = reader.forward (n + 10) := by
    simp only [forward_forward]
  obtain ⟨hclazz, hflush⟩ := recordClass_split hr.clazz cache_flush
  have hkey := hr.name.key_new r.key.clazz r.key.type
  have hvalid : avahi_record_is_valid { r with ttl := cappedTtl max_ttl r.ttl } = true := hr.valid
  have httl : recordTtl (cappedTtl max_ttl r.ttl) = cappedTtl max_ttl r.ttl := if_pos hr.ttl
  have hrdata := parseData_typed hparse r.typed
  have hread : ¬ (reader.forward (n + 10 + ext.length)).rindex - (reader.forward (n + 10)).rindex ≠ ext.length := by
    simp only [forward_rindex]
    omega
  simp only [avahi_dns_packet_consume_record, hname, bind, Except.bind, hnext.left.consume_uint16,
    hnextClass.left.consume_uint16, hnextTtl.left.consume_uint32, hnextLength.left.consume_uint16, hsize, hclazz, hkey]
  rw [if_neg hinside]
  rw [hplace]
  simp only [parse_rdata, hrdata, bind, Except.bind]
  rw [if_neg hread]
  simp only [pure, Except.pure, httl, hvalid, Bool.not_true, Bool.false_eq_true, if_false, hflush,
    Bool.decide_eq_true]

/-- A record that was appended is the record that is consumed there, with the
    TTL and the flag it was sent with. -/
theorem TableOk.append_record {p q : AvahiDnsPacket} (hp : TableOk p) {r : AvahiRecord} {cache_flush : Bool}
    {max_ttl : UInt32} (hr : r.Sendable max_ttl)
    (h : avahi_dns_packet_append_record r cache_flush max_ttl p = some (true, q)) :
    ∃ ext, Grown p q ext ∧ 4 ≤ ext.length ∧ ∀ {reader : AvahiDnsPacket} {rest : List UInt8},
      reader.data = q.data ++ rest → reader.rindex = p.data.length →
      avahi_dns_packet_consume_record reader =
        .ok ({ r with ttl := cappedTtl max_ttl r.ttl }, cache_flush, reader.forward ext.length) := by
  unfold avahi_dns_packet_append_record at h
  split at h
  · cases h
  rename_i head hhead
  split at h
  · cases h
  rename_i full hfull
  dsimp only at h
  split at h
  · cases h
  rename_i hsmall
  obtain rfl : full.patch (head.data.length - 2) (UInt16.ofNat (full.data.length - head.data.length)) = q := by
    simpa using h
  -- the fields in front of the data, one after the other
  obtain ⟨m₁, hname, hhead⟩ := andThen_eq_true hhead
  obtain ⟨m₂, htype, hhead⟩ := andThen_eq_true hhead
  obtain ⟨m₃, hclass, hhead⟩ := andThen_eq_true hhead
  obtain ⟨m₄, httl, hlength⟩ := andThen_eq_true hhead
  obtain ⟨spelled, gname, hreadName⟩ := hp.append_name hr.name hname
  have gtype := gname.table.extend htype
  have gclass := gtype.table.extend hclass
  have gttl := gclass.table.extend httl
  obtain ⟨ext, hext, gdata, hparse⟩ := gttl.table.append_patched hlength hr.data hfull
    (UInt16.ofNat (full.data.length - head.data.length))
  rw [hext] at gdata hparse hsmall ⊢
  have hall := gname.trans (gtype.trans (gclass.trans (gttl.trans gdata)))
  refine ⟨_, hall, by simp only [List.length_append, List.length_cons, List.length_nil]; omega,
    fun {reader rest} hreader hindex => ?_⟩
  have hnext := next_of_grown hall hreader hindex
  have hsize : (UInt16.ofNat ext.length).toNat = ext.length := by
    rw [UInt16.toNat_ofNat']
    simp only [AVAHI_DNS_RDATA_MAX] at hsmall
    omega
  have hread := hreadName (r := reader) (by rw [hreader, gname.split hall, List.append_assoc]) hindex
  have hdata := hparse (r := reader.forward (spelled.length + 10)) hreader (by
    rw [gttl.data, gclass.data, gtype.data, gname.data]
    simp only [forward_rindex, hindex, List.length_append, List.length_cons, List.length_nil]
    omega)
  rw [forward_forward] at hdata
  have hrecord := consume_record_next hr hsize hread hnext.right hdata
  rw [hrecord]
  simp only [List.length_append, List.length_cons, List.length_nil]
  congr 4
  omega

/-- A key that survives the way through a packet: names of questions are read
    into a smaller buffer. -/
structure AvahiKey.Sendable (k : AvahiKey) : Prop where
  name : NormalName k.name
  short : k.name.length < 256
  clazz : k.clazz &&& AVAHI_DNS_UNICAST_RESPONSE = 0

/-- The class and the bit of the unicast response come apart again. -/
theorem keyClass_split {c : UInt16} (h : c &&& AVAHI_DNS_UNICAST_RESPONSE = 0) (unicast_response : Bool) :
    keyClass unicast_response c &&& ~~~AVAHI_DNS_UNICAST_RESPONSE = c ∧
      (keyClass unicast_response c &&& AVAHI_DNS_UNICAST_RESPONSE ≠ 0 ↔ unicast_response = true) := by
  have hsame : keyClass unicast_response c = recordClass unicast_response c := by
    cases unicast_response with
    | true => rfl
    | false =>
      refine Eq.trans ?_ (and_not_flush h).symm
      exact UInt16.or_zero
  rw [hsame]
  exact recordClass_split h unicast_response

/-- A key that was appended is the key that is consumed there. -/
theorem TableOk.append_key {p q : AvahiDnsPacket} (hp : TableOk p) {k : AvahiKey} {unicast_response : Bool}
    (hk : k.Sendable) (h : avahi_dns_packet_append_key k unicast_response p = (true, q)) :
    ∃ ext, Grown p q ext ∧ 4 ≤ ext.length ∧ ∀ {reader : AvahiDnsPacket} {rest : List UInt8},
      reader.data = q.data ++ rest → reader.rindex = p.data.length →
      avahi_dns_packet_consume_key reader = .ok (k, unicast_response, reader.forward ext.length) := by
  have hfields : appendKeyFields k (keyClass unicast_response k.clazz) p = (true, q) := by
    unfold avahi_dns_packet_append_key at h
    split at h <;> rename_i heq
    · cases h
    · cases h
      exact heq
  obtain ⟨m₁, hname, hfields⟩ := andThen_eq_true hfields
  obtain ⟨m₂, htype, hclass⟩ := andThen_eq_true hfields
  obtain ⟨spelled, gname, hreadName⟩ := hp.append_name_into hk.name hk.short hname
  have gtype := gname.table.extend htype
  have gclass := gtype.table.extend hclass
  have hall := gname.trans (gtype.trans gclass)
  refine ⟨_, hall, by simp only [List.length_append, List.length_cons, List.length_nil]; omega,
    fun {reader rest} hreader hindex => ?_⟩
  have hread := hreadName (r := reader) (by rw [hreader, gname.split hall, List.append_assoc]) hindex
  have hnext := (next_of_grown hall hreader hindex).right
  have hnextClass : Next ((reader.forward spelled.length).forward 2) _ := hnext.right
  obtain ⟨hclazz, hunicast⟩ := keyClass_split hk.clazz unicast_response
  have hkey := hk.name.key_new k.clazz k.type
  have hvalid : avahi_key_is_valid k = true := hk.name.valid
  simp only [avahi_dns_packet_consume_key, hread, bind, Except.bind, hnext.left.consume_uint16,
    hnextClass.consume_uint16, hclazz, hkey, hvalid, pure, Except.pure, Bool.not_true, Bool.false_eq_true, if_false,
    hunicast, Bool.decide_eq_true]
  simp only [forward_forward, List.length_append, List.length_cons, List.length_nil, Nat.zero_add]

end qtzeroconf.avahi
