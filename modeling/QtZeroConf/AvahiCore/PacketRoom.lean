import QtZeroConf.AvahiCore.Message

namespace qtzeroconf.avahi

/-- The bytes that labels take without references. -/
def wireLength (labels : List CString) : Nat := (labels.map fun label => label.length + 1).sum + 1

theorem wireLength_cons (label : CString) (labels : List CString) :
    wireLength (label :: labels) = label.length + 1 + wireLength labels := by
  simp only [wireLength, List.map_cons, List.sum_cons]
  omega

/-- On the wire, a name takes at most two bytes more than it has characters. -/
theorem wireLength_le (labels : List CString) : wireLength labels ≤ (dotted labels).length + 2 := by
  have hrest (labels : List CString) : wireLength labels ≤ (labels.flatMap fun label => 0x2E :: escaped label).length + 1 := by
    induction labels with
    | nil => simp [wireLength]
    | cons label labels ih =>
      have hescaped := length_le_escaped label
      rw [wireLength_cons, List.flatMap_cons, List.length_append, List.length_cons]
      omega
  cases labels with
  | nil => simp [wireLength]
  | cons label labels =>
    have hescaped := length_le_escaped label
    have htail := hrest labels
    rw [wireLength_cons, dotted_cons, List.length_append]
    omega

theorem extend_room {p : AvahiDnsPacket} {d : List UInt8} (h : p.data.length + d.length ≤ p.max_size) :
    avahi_dns_packet_extend d p = (true, { p with data := p.data ++ d }) := by
  rw [avahi_dns_packet_extend, if_neg (by omega)]

theorem andThen_true {f g : Append} {p m q : AvahiDnsPacket} (hf : f p = (true, m)) (hg : g m = (true, q)) :
    f.andThen g p = (true, q) := by
  simp only [Append.andThen, hf, hg]

/-- A name is appended wherever there is room for all of its labels. -/
theorem appendNameLoop_room (saved : Nat) {turns : Nat} {s : CString} {labels : List CString} (hs : ProperLabels s labels)
    (hturns : s.length ≤ turns) {p : AvahiDnsPacket} (hroom : p.data.length + wireLength labels ≤ p.max_size) :
    ∃ q, appendNameLoop saved turns s p = (true, q) ∧ q.max_size = p.max_size ∧
      q.data.length ≤ p.data.length + wireLength labels := by
  have hend {labels : List CString} {p : AvahiDnsPacket} (hroom : p.data.length + wireLength labels ≤ p.max_size) :
      avahi_dns_packet_extend [0] p = (true, { p with data := p.data ++ [0] }) := by
    refine extend_room ?_
    simp only [wireLength] at hroom
    simp only [List.length_cons, List.length_nil]
    omega
  have hzero {labels : List CString} {p : AvahiDnsPacket} :
      (p.data ++ [0]).length ≤ p.data.length + wireLength labels := by
    simp only [List.length_append, List.length_cons, List.length_nil, wireLength]
    omega
  induction turns generalizing s labels p with
  | zero =>
    obtain rfl : s = [] := List.length_eq_zero_iff.mp (by omega)
    rw [appendNameLoop, hend hroom]
    exact ⟨_, rfl, rfl, hzero⟩
  | succ turns ih =>
    cases s with
    | nil =>
      rw [appendNameLoop, hend hroom]
      exact ⟨_, rfl, rfl, hzero⟩
    | cons c s =>
      obtain ⟨label, rest, tail, rfl, hcut, htail⟩ := hs.reads.uncons
      have hcut' : avahi_unescape_label 64 (c :: s) = some (label, rest) := hcut
      have hvalid := List.forall_mem_cons.mp hs.valid
      have hnonempty := List.forall_mem_cons.mp hs.nonempty
      have hpositive := List.length_pos_iff.mpr hnonempty.1
      have hless := unescape_shrinks (List.cons_ne_nil c s) hcut
      rw [wireLength_cons] at hroom ⊢
      rw [appendNameLoop]
      split
      · rename_i idx hidx
        have hwire : 1 ≤ wireLength tail := Nat.le_add_left ..
        refine ⟨_, extend_room ?_, rfl, ?_⟩
        · simp only [reference, List.length_cons, List.length_nil]
          omega
        · simp only [reference, List.length_append, List.length_cons, List.length_nil]
          omega
      · have hbytes : (stringBytes label).length = label.length + 1 := by
          have hshort := hvalid.1.short
          simp only [AVAHI_LABEL_MAX] at hshort
          have hk : (if 255 ≤ label.length then 255 else label.length) = label.length := if_neg (by omega)
          simp only [stringBytes, hk, List.take_length, List.length_cons]
        have hlabel : avahi_dns_packet_append_string label p = (true, { p with data := p.data ++ stringBytes label }) :=
          extend_room (by omega)
        simp only [hcut', hlabel]
        simp only [List.length_cons] at hturns hless
        obtain ⟨q, hq, hmax, hlength⟩ := ih ⟨htail, hvalid.2, hnonempty.2⟩ (by omega)
          (p := { p with data := p.data ++ stringBytes label }.insert (c :: s) p.data.length)
          (by simp only [insert_data, insert_max_size, List.length_append]; omega)
        refine ⟨q, hq, by rw [hmax, insert_max_size], ?_⟩
        rw [insert_data, List.length_append] at hlength
        omega

/-- A name is appended wherever there is room for it without compression. -/
theorem append_name_room {name : CString} (hname : NormalName name) {p : AvahiDnsPacket}
    (hroom : p.data.length + (name.length + 2) ≤ p.max_size) :
    ∃ q, avahi_dns_packet_append_name name p = (true, q) ∧ q.max_size = p.max_size ∧
      q.data.length ≤ p.data.length + (name.length + 2) := by
  obtain ⟨labels, hlabels, hnormal, -, -⟩ := hname
  have hwire := wireLength_le labels
  rw [← hnormal] at hwire
  obtain ⟨q, hq, hmax, hlength⟩ := appendNameLoop_room p.data.length hlabels (Nat.le_refl _) (p := p) (by omega)
  exact ⟨q, hq, hmax, by omega⟩

/-- A key is appended wherever there is room for it without compression. -/
theorem append_key_room {k : AvahiKey} (hk : NormalName k.name) {p : AvahiDnsPacket}
    (hroom : p.data.length + (k.name.length + 6) ≤ p.max_size) (unicast_response : Bool) :
    ∃ q, avahi_dns_packet_append_key k unicast_response p = (true, q) ∧ q.max_size = p.max_size ∧
      q.data.length ≤ p.data.length + (k.name.length + 6) := by
  obtain ⟨q, hq, hmax, hlength⟩ := append_name_room hk (p := p) (by omega)
  have htype := extend_room (p := q) (d := [(k.type >>> 8).toUInt8, k.type.toUInt8])
    (by simp only [List.length_cons, List.length_nil]; omega)
  have hclazz := extend_room (p := { q with data := q.data ++ [(k.type >>> 8).toUInt8, k.type.toUInt8] })
    (d := [(keyClass unicast_response k.clazz >>> 8).toUInt8, (keyClass unicast_response k.clazz).toUInt8])
    (by simp only [List.length_append, List.length_cons, List.length_nil]; omega)
  have hfields : appendKeyFields k (keyClass unicast_response k.clazz) p = _ := andThen_true hq (andThen_true htype hclazz)
  have hkey : avahi_dns_packet_append_key k unicast_response p = (true, { q with
      data := q.data ++ [(k.type >>> 8).toUInt8, k.type.toUInt8] ++
        [(keyClass unicast_response k.clazz >>> 8).toUInt8, (keyClass unicast_response k.clazz).toUInt8] }) := by
    rw [avahi_dns_packet_append_key, hfields]
  refine ⟨_, hkey, hmax, ?_⟩
  simp only [List.length_append, List.length_cons, List.length_nil]
  omega

/-- In a packet of the usual size, no record fails the assertion on the length
    of its data. -/
theorem append_record_ne_none (r : AvahiRecord) (cache_flush : Bool) (max_ttl : UInt32) {p : AvahiDnsPacket}
    (hp : Inside p) (hfits : p.data.length ≤ p.max_size) (hsize : p.max_size ≤ AVAHI_DNS_RDATA_MAX) :
    ∃ ok q, avahi_dns_packet_append_record r cache_flush max_ttl p = some (ok, q) := by
  have hhead := keeping_appendRecordHead r cache_flush max_ttl hp (Above.refl p)
  unfold avahi_dns_packet_append_record
  split <;> rename_i heq <;> rw [heq] at hhead
  · exact ⟨_, _, rfl⟩
  · have hdata := keeping_append_rdata r.data hp hhead
    split <;> rename_i hrdata <;> rw [hrdata] at hdata
    · exact ⟨_, _, rfl⟩
    · have hfull := hdata.fits hfits
      have hmax := hdata.max_size
      dsimp only at hfull hmax ⊢
      rw [if_neg (by omega)]
      exact ⟨_, _, rfl⟩

end qtzeroconf.avahi
