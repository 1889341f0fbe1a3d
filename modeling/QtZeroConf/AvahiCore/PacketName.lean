import QtZeroConf.AvahiCore.Packet

open cutting

namespace qtzeroconf.avahi

/-- The bytes at an offset spell labels: one after the other up to a zero byte,
    or a reference to an offset in front of them that spells the rest. `len` is
    how many bytes there are up to the first reference, and `steps` how many
    labels, references and zero bytes are read. -/
inductive Spells (data : List UInt8) : Nat → List CString → Nat → Nat → Prop
  | done {idx : Nat} : data[idx]? = some 0 → Spells data idx [] 1 1
  | label {idx len steps : Nat} {label : CString} {labels : List CString} :
      label ≠ [] → label.length ≤ 63 → data[idx]? = some (UInt8.ofNat label.length) →
      (data.drop (idx + 1)).take label.length = label →
      Spells data (idx + 1 + label.length) labels len steps →
      Spells data idx (label :: labels) (1 + label.length + len) (steps + 1)
  | reference {idx target len steps : Nat} {labels : List CString} :
      (data.drop idx).take 2 = reference target → target < 0x4000 → AVAHI_DNS_PACKET_HEADER_SIZE ≤ target →
      target < idx → Spells data target labels len steps → Spells data idx labels 2 (steps + 1)

/-- Bytes that a list starts with stay where they are when it grows. -/
theorem take_drop_append {α : Type} {data more taken : List α} {idx n : Nat} (h : (data.drop idx).take n = taken)
    (hn : taken.length = n) : ((data ++ more).drop idx).take n = taken := by
  have hroom : n ≤ (data.drop idx).length := by
    rw [← hn, ← h, List.length_take]
    exact Nat.min_le_right _ _
  by_cases hidx : idx ≤ data.length
  · rw [List.drop_append_of_le_length hidx, List.take_append_of_le_length hroom, h]
  · rw [List.length_drop] at hroom
    have hzero : n = 0 := by omega
    subst hzero
    rw [List.take_zero, List.length_eq_zero_iff.mp hn]

theorem getElem?_append_some {α : Type} {data : List α} {idx : Nat} {a : α} (h : data[idx]? = some a)
    (more : List α) : (data ++ more)[idx]? = some a := by
  obtain ⟨hlt, -⟩ := List.getElem?_eq_some_iff.mp h
  rw [List.getElem?_append_left hlt, h]

/-- What bytes spell does not change when more are appended. -/
theorem Spells.append {data : List UInt8} {idx len steps : Nat} {labels : List CString}
    (h : Spells data idx labels len steps) (more : List UInt8) : Spells (data ++ more) idx labels len steps := by
  induction h with
  | done hzero => exact .done (getElem?_append_some hzero more)
  | label hne hshort hlen hlabel _ ih =>
    exact .label hne hshort (getElem?_append_some hlen more) (take_drop_append hlabel rfl) ih
  | reference href hsmall hheader hbefore _ ih =>
    exact .reference (take_drop_append href rfl) hsmall hheader hbefore ih

theorem Spells.inside {data : List UInt8} {idx len steps : Nat} {labels : List CString}
    (h : Spells data idx labels len steps) : idx + len ≤ data.length ∧ 0 < len := by
  induction h with
  | done hzero =>
    obtain ⟨hlt, -⟩ := List.getElem?_eq_some_iff.mp hzero
    omega
  | label _ _ _ _ _ ih => omega
  | reference href _ _ _ _ _ =>
    have hlength := congrArg List.length href
    rw [List.length_take, List.length_drop] at hlength
    simp only [avahi.reference, List.length_cons, List.length_nil] at hlength
    omega

/-- The reference that is written is the one that is read. -/
theorem label_ptr_reference {idx : Nat} (h : idx < 0x4000) :
    ∃ high low, reference idx = [high, low] ∧ high ≠ 0 ∧ ¬ high ≤ 63 ∧ high &&& 0xC0 = 0xC0 ∧
      ((high &&& 0x3F).toNat <<< 8 ||| low.toNat) = idx := by
  have hor : 0xC000 ||| idx = 0xC000 + idx := by
    have h' := Nat.two_pow_add_eq_or_of_lt (i := 14) h 3
    exact h'.symm
  have hhigh : (UInt8.ofNat ((0xC000 ||| idx) >>> 8)).toNat = 192 + idx / 256 := by
    rw [hor, Nat.shiftRight_eq_div_pow, UInt8.toNat_ofNat']
    omega
  have hlow : (UInt8.ofNat idx).toNat = idx % 256 := UInt8.toNat_ofNat'
  refine ⟨_, _, rfl, ?_, ?_, ?_, ?_⟩
  · intro hzero
    rw [hzero, UInt8.toNat_zero] at hhigh
    omega
  · rw [UInt8.le_iff_toNat_le, hhigh, show (63 : UInt8).toNat = 63 from rfl]
    omega
  · have hall : ∀ b : BitVec 8, 192 ≤ b.toNat → b &&& 0xC0#8 = 0xC0#8 := by decide +kernel
    rw [← UInt8.toBitVec_inj]
    refine hall _ ?_
    change 192 ≤ (UInt8.ofNat ((0xC000 ||| idx) >>> 8)).toNat
    omega
  · have hsix : (UInt8.ofNat ((0xC000 ||| idx) >>> 8) &&& 0x3F).toNat = idx / 256 := by
      rw [UInt8.toNat_and, hhigh]
      refine (Nat.and_two_pow_sub_one_eq_mod _ 6).trans ?_
      omega
    have hbyte : (UInt8.ofNat idx).toNat < 2 ^ 8 := (UInt8.ofNat idx).toNat_lt
    rw [hsix, ← Nat.shiftLeft_add_eq_or_of_lt hbyte, hlow, Nat.shiftLeft_eq]
    omega

/-- How labels are written, behind others or as the first. -/
def continued (first : Bool) : List CString → CString
  | [] => []
  | label :: labels => separator first ++ escaped label ++ appended labels

theorem continued_true (labels : List CString) : continued true labels = dotted labels := by
  cases labels with
  | nil => rfl
  | cons label labels => rw [dotted_eq, continued, separator, if_pos rfl, List.nil_append]

theorem continued_false (labels : List CString) : continued false labels = appended labels := by
  cases labels with
  | nil => rfl
  | cons label labels => simp [continued, separator, appended]

theorem length_escapedByte_pos (c : UInt8) : 0 < (escapedByte c).length := by
  unfold escapedByte
  split_ifs <;> simp [decimal]

theorem length_le_escaped (label : CString) : label.length ≤ (escaped label).length := by
  induction label with
  | nil => simp
  | cons c label ih =>
    have hbyte := length_escapedByte_pos c
    rw [escaped_cons, List.length_append, List.length_cons]
    omega

/-- A dot is written where there is room for it, unless the label is the first. -/
theorem dot_spec {r : Cursor} {first : Bool} (hroom : (separator first).length ≤ r.size) (hinside : r.overrun = false) :
    ∃ r', (if first = true then r else r.put [0x2E]) = r' ∧ r'.text = r.text ++ separator first ∧
      r'.size = r.size - (separator first).length ∧ r'.overrun = false := by
  refine ⟨_, rfl, ?_, ?_, ?_⟩
  · cases first <;> simp [separator, Cursor.put]
  · cases first <;> simp [separator, Cursor.put]
  · cases first with
    | true => rw [if_pos rfl, hinside]
    | false =>
      have hone : 1 ≤ r.size := hroom
      simp only [Bool.false_eq_true, if_false, Cursor.put, hinside, Bool.false_or, decide_eq_false_iff_not,
        List.length_singleton]
      omega

/-- The length byte in front of a label is neither the end nor a reference. -/
theorem length_byte {label : CString} (hne : label ≠ []) (hshort : label.length ≤ 63) :
    (UInt8.ofNat label.length).toNat = label.length ∧ UInt8.ofNat label.length ≠ 0 ∧ UInt8.ofNat label.length ≤ 63 := by
  have hpositive := List.length_pos_iff.mpr hne
  have hn : (UInt8.ofNat label.length).toNat = label.length := toNat_ofNat_byte (by omega)
  refine ⟨hn, fun hzero => ?_, ?_⟩
  · rw [hzero, UInt8.toNat_zero] at hn
    omega
  · rw [UInt8.le_iff_toNat_le, hn]
    exact hshort

/-- What is spelled is read, with its labels escaped and dots between them. -/
theorem consumeLoop_spells {p : AvahiDnsPacket} {idx len steps : Nat} {labels : List CString}
    (h : Spells p.data idx labels len steps) {i : Nat} (hsteps : steps ≤ i) (ret : Nat) (compressed first : Bool)
    {r : Cursor} (hroom : (continued first labels).length < r.size) (hinside : r.overrun = false) :
    consumeLoop p i idx ret compressed first r =
      .ok (r.text ++ continued first labels, if compressed then ret else ret + len) := by
  induction h generalizing i ret compressed first r with
  | @done idx hzero =>
    obtain ⟨i, rfl⟩ : ∃ n, i = n + 1 := ⟨i - 1, by omega⟩
    obtain ⟨hlt, -⟩ := List.getElem?_eq_some_iff.mp hzero
    simp only [continued, List.length_nil] at hroom
    rw [consumeLoop, if_neg (by omega)]
    simp only [AvahiDnsPacket.byte, hzero, bind, Except.bind, if_true, continued, List.append_nil]
    have hterminated : ¬ r.terminate.overrun = true := by
      simp only [Cursor.terminate, hinside, Bool.false_or, decide_eq_true_eq]
      omega
    rw [if_neg (by omega), if_neg hterminated]
  | @label idx len steps label labels hne hshort hlen hlabel hrest ih =>
    obtain ⟨i, rfl⟩ : ∃ n, i = n + 1 := ⟨i - 1, by omega⟩
    obtain ⟨hlt, -⟩ := List.getElem?_eq_some_iff.mp hlen
    have hlast := hrest.inside
    obtain ⟨hn, hnonzero, hle⟩ := length_byte hne hshort
    have hescaped := length_le_escaped label
    simp only [continued, List.length_append] at hroom
    -- the cursor behind the dot, and behind the label
    obtain ⟨r', hdot, htext, hsize, hdotted⟩ := @dot_spec r first (by omega) hinside
    have hescape := @avahi_escape_label_fits label r' (by omega)
    rw [hdotted] at hescape
    have htail := ih (i := i) (by omega) (if compressed then ret else ret + 1 + label.length) compressed false
      (r := { text := r'.text ++ escaped label, size := r'.size - (escaped label).length, terminated := true })
      (by rw [continued_false]; dsimp only; omega) rfl
    have hread : p.read (idx + 1) label.length = .ok label := by
      rw [AvahiDnsPacket.read, if_neg (by omega), hlabel]
    have hcount : (if compressed = true then if compressed = true then ret else ret + 1
        else (if compressed = true then ret else ret + 1) + label.length) =
        if compressed = true then ret else ret + 1 + label.length := by
      cases compressed <;> rfl
    rw [consumeLoop, if_neg (by omega)]
    simp only [AvahiDnsPacket.byte, hlen, bind, Except.bind, if_neg hnonzero, if_pos hle, hn, hdot]
    rw [if_neg (by omega), if_neg (by omega), if_neg (by omega), hread]
    simp only [hescape, hcount, Bool.false_eq_true, if_false, Bool.not_true]
    rw [htail, htext, continued, continued_false, List.append_assoc, List.append_assoc, List.append_assoc]
    cases compressed with
    | true => rfl
    | false =>
      have hret : ret + 1 + label.length + len = ret + (1 + label.length + len) := by omega
      simp only [Bool.false_eq_true, if_false, hret]
  | @reference idx target len steps labels href hsmall hheader hbefore hrest ih =>
    obtain ⟨i, rfl⟩ : ∃ n, i = n + 1 := ⟨i - 1, by omega⟩
    have hlast := (Spells.reference href hsmall hheader hbefore hrest).inside
    obtain ⟨high, low, hbytes, hnonzero, hlong, hmask, hptr⟩ := label_ptr_reference hsmall
    rw [hbytes] at href
    have hhigh : p.data[idx]? = some high := by
      have hget := congrArg (·[0]?) href
      simpa using hget
    have hlow : p.data[idx + 1]? = some low := by
      have hget := congrArg (·[1]?) href
      simpa using hget
    have htail := ih (i := i) (by omega) (if compressed then ret else ret + 2) true first hroom hinside
    rw [consumeLoop, if_neg (by omega)]
    simp only [AvahiDnsPacket.byte, hhigh, hlow, bind, Except.bind, if_neg hnonzero, if_neg hlong, if_pos hmask, hptr]
    rw [if_neg (by omega), if_neg (by omega), htail]
    rfl

/-- A name that is spelled at the place where the packet is read. -/
theorem consume_name_spells {p : AvahiDnsPacket} {len steps : Nat} {labels : List CString}
    (h : Spells p.data p.rindex labels len steps) (hsteps : steps ≤ AVAHI_DNS_LABELS_MAX) {l : Nat}
    (hroom : (dotted labels).length < l) :
    avahi_dns_packet_consume_name p l = .ok (dotted labels, { p with rindex := p.rindex + len }) := by
  have hloop := consumeLoop_spells h hsteps 0 false true
    (r := Cursor.start l) (by rwa [continued_true]) rfl
  have hnothing : (Cursor.start l).text = [] := rfl
  rw [continued_true, hnothing, List.nil_append] at hloop
  simp only [avahi_dns_packet_consume_name, consume_labels, hloop, bind, Except.bind, pure, Except.pure,
    Bool.false_eq_true, if_false, Nat.zero_add]

/-- An entry of the name table: its name is spelled at its offset. -/
structure Entry (data : List UInt8) (s : CString) (i : Nat) : Prop where
  header : AVAHI_DNS_PACKET_HEADER_SIZE ≤ i
  spelled : ∃ labels len steps, Labels s labels ∧ Spells data i labels len steps ∧ steps ≤ 2 * labels.length

theorem Entry.append {data : List UInt8} {s : CString} {i : Nat} (h : Entry data s i) (more : List UInt8) :
    Entry (data ++ more) s i := by
  obtain ⟨labels, len, steps, hlabels, hspells, hsteps⟩ := h.spelled
  exact ⟨h.header, labels, len, steps, hlabels, hspells.append more, hsteps⟩

theorem Entry.inside {data : List UInt8} {s : CString} {i : Nat} (h : Entry data s i) : i < data.length := by
  obtain ⟨labels, len, steps, -, hspells, -⟩ := h.spelled
  have := hspells.inside
  omega

/-- A packet with a header whose name table is true. -/
structure TableOk (p : AvahiDnsPacket) : Prop where
  header : AVAHI_DNS_PACKET_HEADER_SIZE ≤ p.data.length
  entries : ∀ e ∈ p.name_table, Entry p.data e.1 e.2

theorem mem_of_lookup {p : AvahiDnsPacket} {s : CString} {i : Nat} (h : p.lookup s = some i) : (s, i) ∈ p.name_table := by
  obtain ⟨e, hfind, rfl⟩ := Option.map_eq_some_iff.mp h
  have hname : e.1 = s := by simpa using List.find?_some hfind
  rw [← hname]
  exact List.mem_of_find?_eq_some hfind

theorem mem_insert {p : AvahiDnsPacket} {s : CString} {d : Nat} {e : CString × Nat}
    (h : e ∈ (p.insert s d).name_table) : e ∈ p.name_table ∨ e = (s, d) := by
  unfold AvahiDnsPacket.insert at h
  split_ifs at h
  · exact Or.inl h
  · exact (List.mem_cons.mp h).symm

@[simp] theorem insert_data (p : AvahiDnsPacket) (s : CString) (d : Nat) : (p.insert s d).data = p.data := by
  unfold AvahiDnsPacket.insert
  split_ifs <;> rfl

@[simp] theorem insert_rindex (p : AvahiDnsPacket) (s : CString) (d : Nat) : (p.insert s d).rindex = p.rindex := by
  unfold AvahiDnsPacket.insert
  split_ifs <;> rfl

@[simp] theorem insert_max_size (p : AvahiDnsPacket) (s : CString) (d : Nat) : (p.insert s d).max_size = p.max_size := by
  unfold AvahiDnsPacket.insert
  split_ifs <;> rfl

theorem extend_eq_true {d : List UInt8} {p q : AvahiDnsPacket} (h : avahi_dns_packet_extend d p = (true, q)) :
    q = { p with data := p.data ++ d } := by
  unfold avahi_dns_packet_extend at h
  split_ifs at h
  · exact absurd (congrArg Prod.fst h) (by simp)
  · exact (congrArg Prod.snd h).symm

/-- A label behind its length, in front of what spells the labels after it. -/
theorem spells_label {data rest : List UInt8} {label : CString} (hne : label ≠ []) (hshort : label.length ≤ 63)
    {labels : List CString} {len steps : Nat}
    (h : Spells (data ++ stringBytes label ++ rest) (data ++ stringBytes label).length labels len steps) :
    Spells (data ++ stringBytes label ++ rest) data.length (label :: labels) (1 + label.length + len) (steps + 1) := by
  have hbytes : stringBytes label = UInt8.ofNat label.length :: label := by
    have hk : (if 255 ≤ label.length then 255 else label.length) = label.length := if_neg (by omega)
    simp only [stringBytes, hk, List.take_length]
  rw [hbytes] at h ⊢
  have hplaced : ((data ++ UInt8.ofNat label.length :: label ++ rest).drop (data.length + 1)).take label.length =
      label := by
    have hsplit : data ++ UInt8.ofNat label.length :: label ++ rest =
        (data ++ [UInt8.ofNat label.length]) ++ (label ++ rest) := by simp
    have hlength : data.length + 1 = (data ++ [UInt8.ofNat label.length]).length := by simp
    rw [hsplit, hlength, List.drop_left, List.take_left]
  refine .label hne hshort (by simp) hplaced ?_
  have hplace : data.length + 1 + label.length = (data ++ UInt8.ofNat label.length :: label).length := by
    simp only [List.length_append, List.length_cons]
    omega
  rw [hplace]
  exact h

/-- How a name that was appended stands in the packet. -/
structure Appended (p q : AvahiDnsPacket) (labels : List CString) : Prop where
  spelled : ∃ ext steps, q.data = p.data ++ ext ∧ Spells q.data p.data.length labels ext.length steps ∧
    steps ≤ 2 * labels.length + 1
  rindex : q.rindex = p.rindex
  max_size : q.max_size = p.max_size
  entries : ∀ e ∈ q.name_table, e ∈ p.name_table ∨ Entry q.data e.1 e.2

/-- The zero byte at the end of a name. -/
theorem appended_nil {saved turns : Nat} {p q : AvahiDnsPacket} (h : appendNameLoop saved turns [] p = (true, q)) :
    Appended p q [] := by
  have hextend : avahi_dns_packet_extend [0] p = (true, q) := by
    cases turns <;>
    · rw [appendNameLoop] at h
      split at h
      · cases h
      · rename_i q' hq'
        cases h
        exact hq'
  obtain rfl := extend_eq_true hextend
  exact ⟨⟨[0], 1, rfl, .done (by simp), by simp⟩, rfl, rfl, fun e he => Or.inl he⟩

/-- A reference to an entry of the table. -/
theorem appended_reference {p q : AvahiDnsPacket} {s : CString} {labels : List CString} (hs : Labels s labels) {idx : Nat}
    (hentry : Entry p.data s idx) (hsmall : idx < 0x4000) (h : avahi_dns_packet_extend (reference idx) p = (true, q)) :
    Appended p q labels := by
  obtain rfl := extend_eq_true h
  obtain ⟨labels', len, steps, hlabels, hspells, hsteps⟩ := hentry.spelled
  obtain rfl := hs.unique hlabels
  have hbytes : ((p.data ++ reference idx).drop p.data.length).take 2 = reference idx := by
    rw [List.drop_left]
    rfl
  refine ⟨⟨reference idx, steps + 1, rfl, ?_, by omega⟩, rfl, rfl, fun e he => Or.inl he⟩
  exact .reference hbytes hsmall hentry.header hentry.inside (hspells.append _)

/-- A label and the entry for it, in front of a name that was appended. -/
theorem Appended.label {p q : AvahiDnsPacket} {s label : CString} {labels : List CString}
    (h : Appended ({ p with data := p.data ++ stringBytes label }.insert s p.data.length) q labels)
    (hheader : AVAHI_DNS_PACKET_HEADER_SIZE ≤ p.data.length) (hs : Labels s (label :: labels))
    (hvalid : ValidLabel label) (hne : label ≠ []) : Appended p q (label :: labels) := by
  obtain ⟨ext, steps, hdata, hspells, hsteps⟩ := h.spelled
  rw [insert_data] at hdata hspells
  have hshort : label.length ≤ 63 := Nat.le_of_lt_succ hvalid.short
  have hspelled : Spells q.data p.data.length (label :: labels) (1 + label.length + ext.length) (steps + 1) := by
    rw [hdata] at hspells ⊢
    exact spells_label hne hshort hspells
  have hlength : (stringBytes label ++ ext).length = 1 + label.length + ext.length := by
    have hk : (if 255 ≤ label.length then 255 else label.length) = label.length := if_neg (by omega)
    simp only [stringBytes, hk, List.take_length, List.length_append, List.length_cons]
    omega
  refine ⟨⟨stringBytes label ++ ext, steps + 1, by rw [hdata, List.append_assoc], hlength ▸ hspelled, ?_⟩, ?_, ?_, ?_⟩
  · rw [List.length_cons]
    omega
  · rw [h.rindex, insert_rindex]
  · rw [h.max_size, insert_max_size]
  · intro e he
    rcases h.entries e he with he | hentry
    · rcases mem_insert he with he | rfl
      · exact Or.inl he
      · exact Or.inr ⟨hheader, _, _, _, hs, hspelled, by rw [List.length_cons]; omega⟩
    · exact Or.inr hentry

/-- The loop spells the labels of the name that is left. Entries that it made
    for longer names are not true before its end, and are not looked up. -/
theorem appendNameLoop_spells {saved turns : Nat} {s : CString} {labels : List CString} (hs : ProperLabels s labels)
    (hturns : s.length ≤ turns) {p q : AvahiDnsPacket} (hheader : AVAHI_DNS_PACKET_HEADER_SIZE ≤ p.data.length)
    (htable : ∀ e ∈ p.name_table, Entry p.data e.1 e.2 ∨ s.length < e.1.length)
    (h : appendNameLoop saved turns s p = (true, q)) : Appended p q labels := by
  induction turns generalizing s labels p with
  | zero =>
    obtain rfl : s = [] := List.length_eq_zero_iff.mp (by omega)
    rw [hs.reads.eq_nil]
    exact appended_nil h
  | succ turns ih =>
    cases s with
    | nil =>
      rw [hs.reads.eq_nil]
      exact appended_nil h
    | cons c s =>
      rw [appendNameLoop] at h
      split at h
      · rename_i idx hidx
        obtain ⟨hlookup, hsmall⟩ := Option.filter_eq_some_iff.mp hidx
        have hentry := (htable _ (mem_of_lookup hlookup)).resolve_right (Nat.lt_irrefl _)
        exact appended_reference hs.reads hentry (by simpa using hsmall) h
      · obtain ⟨label, rest, tail, hlabels, hcut, htail⟩ := hs.reads.uncons
        have hcut' : avahi_unescape_label 64 (c :: s) = some (label, rest) := hcut
        rw [hcut'] at h
        dsimp only at h
        split at h
        · cases h
        · rename_i labelled hlabelled
          obtain rfl := extend_eq_true hlabelled
          subst hlabels
          have hvalid := List.forall_mem_cons.mp hs.valid
          have hnonempty := List.forall_mem_cons.mp hs.nonempty
          have hless := unescape_shrinks (List.cons_ne_nil c s) hcut
          have hrest := ih ⟨htail, hvalid.2, hnonempty.2⟩ (by simp only [List.length_cons] at hturns hless; omega)
            (p := { p with data := p.data ++ stringBytes label }.insert (c :: s) p.data.length)
            (by rw [insert_data]; simp only [List.length_append]; omega) (fun e he => ?_) h
          · exact hrest.label hheader hs.reads hvalid.1 hnonempty.1
          · rcases mem_insert he with he | rfl
            · rcases htable e he with hentry | hlonger
              · rw [insert_data]
                exact Or.inl (hentry.append _)
              · exact Or.inr (Nat.lt_trans hless hlonger)
            · exact Or.inr hless

end qtzeroconf.avahi
