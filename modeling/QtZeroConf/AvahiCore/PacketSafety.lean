import QtZeroConf.AvahiCore.PacketName
import QtZeroConf.AvahiCore.PacketRecord
import QtZeroConf.Library.Guarded

open guarded

namespace qtzeroconf.avahi

/-- Reading that fails by refusing the packet, if at all. -/
abbrev Safe {α : Type} (post : α → Prop) (x : Except ReadFailure α) : Prop := Guarded (· = .refused) post x

theorem safe_byte {p : AvahiDnsPacket} {idx : Nat} (h : idx < p.data.length) :
    Safe (fun n => p.data[idx]? = some n) (p.byte idx) := by
  rw [AvahiDnsPacket.byte, List.getElem?_eq_getElem h]
  exact rfl

theorem safe_read {p : AvahiDnsPacket} {idx n : Nat} (h : idx + n ≤ p.data.length) :
    Safe (fun bytes => bytes = (p.data.drop idx).take n ∧ bytes.length = n) (p.read idx n) := by
  have hlength : ((p.data.drop idx).take n).length = n := by
    rw [List.length_take, List.length_drop]
    omega
  rw [AvahiDnsPacket.read, if_neg (by omega)]
  exact ⟨rfl, hlength⟩

/-- Labels as a packet has them: any bytes, but neither none nor too many. -/
def Raw (labels : List CString) : Prop := ∀ label ∈ labels, label ≠ [] ∧ label.length < AVAHI_LABEL_MAX

/-- What is in the buffer of a name that is being read: the labels so far. -/
structure Writing (total : Nat) (first : Bool) (r : Cursor) : Prop where
  within : r.Within total
  labels : ∃ labels, Raw labels ∧ r.text = dotted labels ∧ (first = true ↔ labels = [])

theorem dotted_snoc {labels : List CString} {first : Bool} (hfirst : first = true ↔ labels = []) (label : CString) :
    dotted (labels ++ [label]) = dotted labels ++ separator first ++ escaped label := by
  cases labels with
  | nil =>
    rw [hfirst.mpr rfl]
    simp [dotted, List.intercalate, separator]
  | cons a labels =>
    have hlater : first = false := by simpa using hfirst
    rw [hlater, List.cons_append, dotted_cons, dotted_cons, List.flatMap_append, separator]
    simp

/-- A label that is written to its end is written with its escapes. -/
theorem avahi_escape_label_text {src : CString} {ret : Cursor} (h : (avahi_escape_label src ret).1 = true) :
    (avahi_escape_label src ret).2.text = ret.text ++ escaped src := by
  induction src generalizing ret with
  | nil => exact (List.append_nil _).symm
  | cons c src ih =>
    rw [avahi_escape_label_cons] at h ⊢
    split_ifs at h ⊢
    rw [ih h, escaped_cons, ← List.append_assoc]
    rfl

/-- The dot in front of a label leaves room for it. -/
theorem Writing.dot {total : Nat} {first : Bool} {r : Cursor} (h : Writing total first r) (hroom : 1 < r.size) :
    (if first then r else r.put [0x2E]).Within total ∧ 0 < (if first then r else r.put [0x2E]).size ∧
      (if first then r else r.put [0x2E]).text = r.text ++ separator first := by
  cases first with
  | true =>
    simp only [if_true, separator, List.append_nil, and_true]
    exact ⟨h.within, by omega⟩
  | false =>
    simp only [Bool.false_eq_true, if_false]
    refine ⟨h.within.put (by rw [List.length_singleton]; omega), ?_, rfl⟩
    simp only [Cursor.put, List.length_singleton]
    omega

/-- A label is written behind the others. -/
theorem Writing.label {total : Nat} {first : Bool} {r : Cursor} (h : Writing total first r) (hroom : 1 < r.size)
    {label : CString} (hne : label ≠ []) (hshort : label.length < AVAHI_LABEL_MAX)
    (hok : (avahi_escape_label label (if first then r else r.put [0x2E])).1 = true) :
    Writing total false (avahi_escape_label label (if first then r else r.put [0x2E])).2 := by
  obtain ⟨hwithin, hsize, htext⟩ := h.dot hroom
  obtain ⟨labels, hraw, hlabels, hfirst⟩ := h.labels
  refine ⟨(avahi_escape_label_within label hwithin hsize).1, labels ++ [label], ?_, ?_, by simp⟩
  · exact List.forall_mem_append.mpr ⟨hraw, List.forall_mem_singleton.mpr ⟨hne, hshort⟩⟩
  · rw [avahi_escape_label_text hok, htext, hlabels, dotted_snoc hfirst]

/-- A name as it has been read into a buffer of `total` bytes. -/
def ReadName (total : Nat) (name : CString) : Prop := name.length < total ∧ ∃ labels, Raw labels ∧ name = dotted labels

/-- Reading a name stays inside of the packet and of the buffer, whatever the
    bytes are. -/
theorem consumeLoop_safe (p : AvahiDnsPacket) (total : Nat) {i idx ret start : Nat} {compressed first_label : Bool} {r : Cursor}
    (hret : start + ret ≤ p.data.length) (hidx : compressed = false → idx = start + ret)
    (hr : Writing total first_label r) :
    Safe (fun s : CString × Nat => start + s.2 ≤ p.data.length ∧ ReadName total s.1)
      (consumeLoop p i idx ret compressed first_label r) := by
  induction i generalizing idx ret compressed first_label r with
  | zero => exact .error rfl
  | succ i ih =>
    rw [consumeLoop]
    refine .ite (fun _ => .error rfl) fun hinside => ?_
    refine (safe_byte (by omega)).bind fun n hn => ?_
    refine .ite (fun hzero => .ite (fun _ => .error rfl) fun hroom => .ite (fun hoverrun => ?_) fun _ => ?_) fun hzero =>
      .ite (fun hlabel => ?_) fun hlabel => ?_
    · have hterminated := (hr.within.terminate (by omega)).overrun
      rw [hterminated] at hoverrun
      cases hoverrun
    · have hlength := hr.within.length
      obtain ⟨labels, hraw, htext, -⟩ := hr.labels
      refine ⟨?_, by dsimp only; omega, labels, hraw, htext⟩
      cases compressed with
      | true => exact hret
      | false =>
        have := hidx rfl
        simp only [Bool.false_eq_true, if_false]
        omega
    · dsimp only
      refine .ite (fun _ => .error rfl) fun hfits => .ite (fun _ => .error rfl) fun hroom => ?_
      have hpositive : 0 < n.toNat := Nat.pos_of_ne_zero fun h => hzero (UInt8.toNat_inj.mp h)
      have hshort : n.toNat ≤ 63 := UInt8.le_iff_toNat_le.mp hlabel
      -- the check of the size leaves room for the dot in front of the label
      obtain ⟨hwithin, hsize, -⟩ := hr.dot (by omega)
      refine .ite (fun haborted => by omega) fun _ => ?_
      refine (safe_read (by omega)).bind fun bytes hbytes => ?_
      refine .ite (fun hoverrun => ?_) fun _ => .ite (fun _ => .error rfl) fun hok => ih ?_ ?_ ?_
      · rw [(avahi_escape_label_within bytes hwithin hsize).1.overrun] at hoverrun
        cases hoverrun
      · cases compressed with
        | true => exact hret
        | false =>
          have := hidx rfl
          simp only [Bool.false_eq_true, if_false]
          omega
      · rintro rfl
        have := hidx rfl
        simp only [Bool.false_eq_true, if_false]
        omega
      · refine hr.label (by omega) (List.length_pos_iff.mp (by omega)) ?_ (by simpa using hok)
        rw [hbytes.2]
        exact Nat.lt_succ_of_le hshort
    · refine .ite (fun _ => .ite (fun _ => .error rfl) fun hfits => ?_) fun _ => .error rfl
      refine (safe_byte (by omega)).bind fun low hlow => ?_
      dsimp only
      refine .ite (fun _ => .error rfl) fun hptr => ih ?_ (fun hfalse => Bool.noConfusion hfalse) hr
      cases compressed with
      | true => exact hret
      | false =>
        have := hidx rfl
        simp only [Bool.false_eq_true, if_false]
        omega

/-- A packet that reading has gone on in. -/
structure ReadOn (p q : AvahiDnsPacket) : Prop where
  data : q.data = p.data
  forward : p.rindex ≤ q.rindex
  inside : q.rindex ≤ q.data.length

theorem ReadOn.trans {p q r : AvahiDnsPacket} (hpq : ReadOn p q) (hqr : ReadOn q r) : ReadOn p r :=
  ⟨hqr.data.trans hpq.data, Nat.le_trans hpq.forward hqr.forward, hqr.inside⟩

theorem safe_consume_name {p : AvahiDnsPacket} (hp : p.rindex ≤ p.data.length) (l : Nat) :
    Safe (fun s => ReadOn p s.2 ∧ ReadName l s.1) (avahi_dns_packet_consume_name p l) := by
  have hstart : Writing l true (Cursor.start l) :=
    ⟨⟨Nat.zero_add l, rfl⟩, [], List.forall_mem_nil _, rfl, by simp⟩
  have hloop : Safe _ (consume_labels p p.rindex l) :=
    consumeLoop_safe p l (by simpa using hp) (fun _ => rfl) hstart
  refine hloop.bind ?_
  rintro ⟨name, ret⟩ ⟨hret, hname⟩
  exact ⟨⟨rfl, Nat.le_add_right _ _, hret⟩, hname⟩

theorem safe_take (p : AvahiDnsPacket) (n : Nat) :
    Safe (fun s => ReadOn p s.2 ∧ s.2.rindex = p.rindex + n) (p.take n) := by
  rw [AvahiDnsPacket.take]
  refine .ite (fun _ => .error rfl) fun hinside => ?_
  refine (safe_read (by omega)).bind fun bytes hbytes => ?_
  exact ⟨⟨rfl, Nat.le_add_right _ _, by dsimp only; omega⟩, rfl⟩

theorem safe_consume_uint16 (p : AvahiDnsPacket) :
    Safe (fun s => ReadOn p s.2 ∧ s.2.rindex = p.rindex + 2) (avahi_dns_packet_consume_uint16 p) :=
  (safe_take p 2).bind fun _ h => h

theorem safe_consume_uint32 (p : AvahiDnsPacket) : Safe (fun s => ReadOn p s.2) (avahi_dns_packet_consume_uint32 p) :=
  (safe_take p 4).bind fun _ h => h.1

theorem safe_consume_bytes (p : AvahiDnsPacket) (n : Nat) :
    Safe (fun s => ReadOn p s.2) (avahi_dns_packet_consume_bytes p n) := (safe_take p n).bind fun _ h => h.1

/-- Reading a string stays inside of its buffer. -/
theorem safe_consume_string {p : AvahiDnsPacket} {l : Nat} (hl : 0 < l) :
    Safe (fun s => ReadOn p s.2) (avahi_dns_packet_consume_string p l) := by
  rw [avahi_dns_packet_consume_string]
  refine .ite (fun _ => .error rfl) fun hsome => ?_
  refine (safe_byte (by omega)).bind fun k hk => ?_
  refine .ite (fun _ => .error rfl) fun hinside => ?_
  dsimp only
  refine (safe_read (by split_ifs <;> omega)).bind fun bytes hbytes => ?_
  have hlength : bytes.length < l := by
    rw [hbytes.2]
    split_ifs <;> omega
  have hstart : (Cursor.start l).Within l := ⟨Nat.zero_add l, rfl⟩
  have hwritten : (((Cursor.start l).put bytes).terminate).Within l := by
    refine (hstart.put (Nat.le_of_lt hlength)).terminate ?_
    simp only [Cursor.put, Cursor.start]
    omega
  refine .ite (fun hoverrun => ?_) fun _ => ?_
  · rw [hwritten.overrun] at hoverrun
    cases hoverrun
  · exact ⟨rfl, by dsimp only; omega, by dsimp only; omega⟩

theorem safe_parseData {p : AvahiDnsPacket} (hp : p.rindex ≤ p.data.length) (kind : RDataKind) {rdlength : Nat}
    (hinside : p.rindex + rdlength ≤ p.data.length) : Safe (fun s => ReadOn p s.2) (parseData p kind rdlength) := by
  cases kind with
  | ptr => exact (safe_consume_name hp _).bind fun _ h => h.1
  | srv =>
    refine (safe_consume_uint16 p).bind fun _ h₁ => ?_
    refine (safe_consume_uint16 _).bind fun _ h₂ => ?_
    refine (safe_consume_uint16 _).bind fun _ h₃ => ?_
    refine (safe_consume_name h₃.1.inside _).bind fun _ h₄ => ?_
    exact ((h₁.1.trans h₂.1).trans h₃.1).trans h₄.1
  | hinfo =>
    refine (safe_consume_string (by decide)).bind fun _ h₁ => ?_
    refine (safe_consume_string (by decide)).bind fun _ h₂ => ?_
    exact h₁.trans h₂
  | txt =>
    refine .ite (fun _ => ?_) fun _ => ⟨rfl, Nat.le_refl _, hp⟩
    refine (safe_read hinside).bind fun bytes _ => ?_
    split
    · exact .error rfl
    · exact (safe_take p rdlength).bind fun _ h => h.1
  | a => exact (safe_consume_bytes p 4).bind fun _ h => h
  | aaaa => exact (safe_consume_bytes p 16).bind fun _ h => h
  | generic =>
    refine .ite (fun _ => ?_) fun _ => ⟨rfl, Nat.le_refl _, hp⟩
    refine (safe_read hinside).bind fun bytes _ => ?_
    exact (safe_take p rdlength).bind fun _ h => h.1

theorem safe_parse_rdata {p : AvahiDnsPacket} (hp : p.rindex ≤ p.data.length) (kind : RDataKind) {rdlength : Nat}
    (hinside : p.rindex + rdlength ≤ p.data.length) : Safe (fun s => ReadOn p s.2) (parse_rdata p kind rdlength) := by
  refine (safe_parseData hp kind hinside).bind fun ⟨data, q⟩ hq => ?_
  exact .ite (fun _ => .error rfl) fun _ => hq

/-- A name of labels with their escapes is not read again, or is normal already. -/
theorem normalizeLoop_dotted {labels : List CString} (hraw : Raw labels) {size turns : Nat}
    (hturns : (dotted labels).length ≤ turns) {text : CString} {empty : Bool}
    (hfits : (text ++ continued empty labels).length < size) :
    normalizeLoop turns (dotted labels) empty (written size text) = .null ∨
      normalizeLoop turns (dotted labels) empty (written size text) =
        .buffer (written size (text ++ continued empty labels)) := by
  induction labels generalizing turns text empty with
  | nil =>
    right
    rw [continued, List.append_nil]
    cases turns <;> rfl
  | cons a labels ih =>
    obtain ⟨⟨hne, hshort⟩, hlater⟩ := List.forall_mem_cons.mp hraw
    obtain ⟨name, hname, hbehind⟩ := dotted_behind a labels
    obtain ⟨c, s, hs⟩ : ∃ c s, dotted (a :: labels) = c :: s :=
      List.exists_cons_of_ne_nil (by rw [hname]; exact List.append_ne_nil_of_left_ne_nil (escaped_ne_nil hne) _)
    rw [hs] at hname hturns ⊢
    obtain ⟨turns, rfl⟩ : ∃ n, turns = n + 1 := ⟨turns - 1, by rw [List.length_cons] at hturns; omega⟩
    cases hcut : avahi_unescape_label AVAHI_LABEL_MAX (c :: s) with
    | none =>
      left
      simp only [normalizeLoop, hcut]
    | some cut =>
      obtain ⟨label, rest⟩ := cut
      have hread := hcut
      rw [hname] at hread
      obtain ⟨rfl, rfl⟩ := avahi_unescape_label_written hshort hbehind hread
      have hless := unescape_shrinks (List.cons_ne_nil c s) hcut
      simp only [continued, List.length_append] at hfits
      have hroom : ¬ (¬ empty = true ∧ (written size text).size < 1) := by
        rintro ⟨-, hfull⟩
        simp only [written] at hfull
        have hescaped := List.length_pos_iff.mpr (escaped_ne_nil hne)
        omega
      have hdot := @separated_written size text empty (by rw [List.length_append]; omega)
      have hsize : ({ written size (text ++ separator empty) with terminated := empty } : Cursor).size ≠ 0 := by
        simp only [written, List.length_append]
        omega
      have hescape := @escape_written size (text ++ separator empty) label (by simp only [List.length_append]; omega) empty
      have hinside : (written size (text ++ separator empty ++ escaped label)).overrun = false := rfl
      have htail := @ih hlater turns (by simp only [List.length_cons] at hturns hless; omega)
        (text ++ separator empty ++ escaped label) false (by simp only [continued_false, List.length_append]; omega)
      have htext : text ++ continued empty (label :: labels) = text ++ separator empty ++ escaped label ++ appended labels := by
        rw [continued, ← List.append_assoc, ← List.append_assoc]
      rw [continued_false] at htail
      rw [htext]
      simpa only [normalizeLoop, hcut, if_neg hne, if_neg hroom, hdot, if_neg hsize, hescape, hinside, Bool.false_eq_true,
        if_false] using htail

/-- A name that has been read is the name of a key, or of none: the buffers of
    `avahi_key_new` are large enough for it. -/
theorem avahi_key_new_read {name : CString} (hname : ReadName AVAHI_DOMAIN_NAME_MAX name) (clazz type : UInt16)
    {failure : NameFailure} (h : avahi_key_new name clazz type = .error failure) : failure.reading = .refused := by
  obtain ⟨hshort, labels, hraw, rfl⟩ := hname
  have hsize : AVAHI_DOMAIN_NAME_MAX ≠ 0 := by decide
  have hloop := @normalizeLoop_dotted labels hraw AVAHI_DOMAIN_NAME_MAX _ (Nat.le_refl _) [] true
    (by rw [continued_true, List.nil_append]; exact hshort)
  rw [avahi_key_new, avahi_normalize_name_strdup, avahi_normalize_name, if_neg hsize, terminate_start hsize] at h
  rcases hloop with hloop | hloop
  · rw [hloop] at h
    cases h
    rfl
  · rw [hloop] at h
    cases h

/-- Reading a record from any bytes whatever ends in a valid record and further
    on in the packet, or in the packet being refused: nothing outside of the
    packet or of a buffer is read or written, and no assertion fails. -/
theorem avahi_dns_packet_consume_record_safe (p : AvahiDnsPacket) (hp : p.rindex ≤ p.data.length) :
    Safe (fun s => avahi_record_is_valid s.1 = true ∧ s.2.2.data = p.data ∧ p.rindex < s.2.2.rindex ∧
      s.2.2.rindex ≤ p.data.length) (avahi_dns_packet_consume_record p) := by
  refine (safe_consume_name hp _).bind fun ⟨name, p₁⟩ h₁ => ?_
  refine (safe_consume_uint16 p₁).bind fun ⟨type, p₂⟩ h₂ => ?_
  refine (safe_consume_uint16 p₂).bind fun ⟨clazz, p₃⟩ h₃ => ?_
  refine (safe_consume_uint32 p₃).bind fun ⟨ttl, p₄⟩ h₄ => ?_
  refine (safe_consume_uint16 p₄).bind fun ⟨rdlength, p₅⟩ h₅ => ?_
  have hread := (((h₁.1.trans h₂.1).trans h₃.1).trans h₄).trans h₅.1
  have hforward := ((h₁.1.trans h₂.1).trans h₃.1).trans h₄
  refine .ite (fun _ => .error rfl) fun hinside => ?_
  dsimp only at hinside ⊢
  split
  · rename_i failure hfailure
    exact .error (avahi_key_new_read h₁.2 _ _ hfailure)
  · rename_i key hkey
    refine (safe_parse_rdata hread.inside (rdataKind key.type) (Nat.le_of_not_lt hinside)).bind fun ⟨data, q⟩ hq => ?_
    refine .ite (fun _ => .error rfl) fun hvalid => ?_
    have hdata := (hread.trans hq).data
    have hstart := hforward.forward
    have hnext := h₅.2
    have hend := hq.forward
    have hlast := hq.inside
    dsimp only at hdata hstart hnext hend hlast
    refine ⟨by simpa using hvalid, hdata, ?_, hdata ▸ hlast⟩
    dsimp only
    omega

/-- A packet of two bytes that refers to itself. -/
theorem avahi_dns_packet_consume_record_safe_loop :
    Safe (fun s => avahi_record_is_valid s.1 = true ∧ s.2.2.data = [0xC0, 0x00] ∧ 0 < s.2.2.rindex ∧ s.2.2.rindex ≤ 2)
      (avahi_dns_packet_consume_record { data := [0xC0, 0x00], rindex := 0, max_size := 2 }) :=
  avahi_dns_packet_consume_record_safe { data := [0xC0, 0x00], rindex := 0, max_size := 2 } (by decide)

end qtzeroconf.avahi
