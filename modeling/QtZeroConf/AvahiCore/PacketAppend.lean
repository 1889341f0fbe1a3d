import QtZeroConf.AvahiCore.PacketName
import QtZeroConf.AvahiCore.PacketRecord

namespace qtzeroconf.avahi

/-- Both parts of an append that succeeds do. -/
theorem andThen_eq_true {f g : Append} {p q : AvahiDnsPacket} (h : f.andThen g p = (true, q)) :
    ∃ m, f p = (true, m) ∧ g m = (true, q) := by
  unfold Append.andThen at h
  split at h
  · cases h
  · rename_i m hm
    exact ⟨m, hm, h⟩

/-- Two packets that differ only in what they start with. -/
structure Alike (a b : List UInt8) (p q : AvahiDnsPacket) : Prop where
  length : a.length = b.length
  data : ∃ ext, p.data = a ++ ext ∧ q.data = b ++ ext
  max_size : p.max_size = q.max_size
  name_table : p.name_table = q.name_table

/-- An append that does not look at what is in the packet. -/
def Oblivious (f : Append) : Prop :=
  ∀ {a b : List UInt8} {p q : AvahiDnsPacket}, Alike a b p q → (f p).1 = (f q).1 ∧ Alike a b (f p).2 (f q).2

variable {a b : List UInt8} {p q : AvahiDnsPacket}

theorem Alike.length_data (h : Alike a b p q) : p.data.length = q.data.length := by
  obtain ⟨ext, hp, hq⟩ := h.data
  rw [hp, hq, List.length_append, List.length_append, h.length]

/-- There is room in both packets or in neither. -/
theorem Alike.extend (h : Alike a b p q) (d : List UInt8) :
    (avahi_dns_packet_extend d p).1 = (avahi_dns_packet_extend d q).1 ∧
      Alike a b (avahi_dns_packet_extend d p).2 (avahi_dns_packet_extend d q).2 := by
  obtain ⟨ext, hp, hq⟩ := h.data
  have hroom : p.max_size < p.data.length + d.length ↔ q.max_size < q.data.length + d.length := by
    rw [h.length_data, h.max_size]
  unfold avahi_dns_packet_extend
  by_cases hfull : p.max_size < p.data.length + d.length
  · rw [if_pos hfull, if_pos (hroom.mp hfull)]
    exact ⟨rfl, h⟩
  · rw [if_neg hfull, if_neg fun hq => hfull (hroom.mpr hq)]
    exact ⟨rfl, h.length, ⟨ext ++ d, by rw [hp, List.append_assoc], by rw [hq, List.append_assoc]⟩, h.max_size,
      h.name_table⟩

/-- What is taken back was written behind the prefix. -/
theorem Alike.rollback (h : Alike a b p q) {size : Nat} (hsize : a.length ≤ size) :
    Alike a b (p.rollback size) (q.rollback size) := by
  obtain ⟨ext, hp, hq⟩ := h.data
  refine ⟨h.length, ⟨ext.take (size - a.length), ?_, ?_⟩, h.max_size, ?_⟩
  · simp only [AvahiDnsPacket.rollback, hp, List.take_append, List.take_of_length_le hsize]
  · have hsize' : b.length ≤ size := h.length ▸ hsize
    simp only [AvahiDnsPacket.rollback, hq, List.take_append, List.take_of_length_le hsize', h.length]
  · simp only [AvahiDnsPacket.rollback, h.name_table]

theorem Alike.lookup (h : Alike a b p q) (s : CString) : p.lookup s = q.lookup s := by
  simp only [AvahiDnsPacket.lookup, h.name_table]

theorem Alike.insert (h : Alike a b p q) (s : CString) (d : Nat) : Alike a b (p.insert s d) (q.insert s d) := by
  refine ⟨h.length, by simpa using h.data, by simpa using h.max_size, ?_⟩
  unfold AvahiDnsPacket.insert
  rw [h.lookup]
  by_cases hfound : (q.lookup s).isSome
  · rw [if_pos hfound, if_pos hfound]
    exact h.name_table
  · rw [if_neg hfound, if_neg hfound]
    exact congrArg ((s, d) :: ·) h.name_table

/-- What follows an append takes the same branches. -/
theorem Alike.bind {x y : Bool × AvahiDnsPacket} (hok : x.1 = y.1) (h : Alike a b x.2 y.2)
    {f g : AvahiDnsPacket → Bool × AvahiDnsPacket}
    (hf : ∀ {p q}, Alike a b p q → (f p).1 = (f q).1 ∧ Alike a b (f p).2 (f q).2)
    (hg : ∀ {p q}, Alike a b p q → (g p).1 = (g q).1 ∧ Alike a b (g p).2 (g q).2) :
    (match x with | (false, p) => g p | (true, p) => f p).1 = (match y with | (false, p) => g p | (true, p) => f p).1 ∧
      Alike a b (match x with | (false, p) => g p | (true, p) => f p).2
        (match y with | (false, p) => g p | (true, p) => f p).2 := by
  obtain ⟨okx, p⟩ := x
  obtain ⟨oky, q⟩ := y
  cases hok
  cases okx with
  | true => exact hf h
  | false => exact hg h

/-- The two runs of the loop take the same branches. -/
theorem Alike.appendNameLoop (h : Alike a b p q) {saved : Nat} (hsaved : a.length ≤ saved) (turns : Nat) (s : CString) :
    (appendNameLoop saved turns s p).1 = (appendNameLoop saved turns s q).1 ∧
      Alike a b (appendNameLoop saved turns s p).2 (appendNameLoop saved turns s q).2 := by
  have hrollback : ∀ {p q : AvahiDnsPacket}, Alike a b p q →
      (false, p.rollback saved).1 = (false, q.rollback saved).1 ∧
        Alike a b (false, p.rollback saved).2 (false, q.rollback saved).2 := fun h => ⟨rfl, h.rollback hsaved⟩
  induction turns generalizing s p q with
  | zero =>
    cases s with
    | nil =>
      obtain ⟨hok, halike⟩ := h.extend [0]
      exact Alike.bind (f := fun p => (true, p)) hok halike (fun h => ⟨rfl, h⟩) hrollback
    | cons c s => exact ⟨rfl, h⟩
  | succ turns ih =>
    cases s with
    | nil =>
      obtain ⟨hok, halike⟩ := h.extend [0]
      exact Alike.bind (f := fun p => (true, p)) hok halike (fun h => ⟨rfl, h⟩) hrollback
    | cons c s =>
      rw [avahi.appendNameLoop, avahi.appendNameLoop, h.lookup]
      split
      · exact h.extend _
      · split
        · exact hrollback h
        · rename_i label rest hcut
          obtain ⟨hok, halike⟩ := h.extend (stringBytes label)
          rw [h.length_data]
          exact Alike.bind (f := fun r => avahi.appendNameLoop saved turns rest (r.insert (c :: s) q.data.length))
            hok halike (fun h => ih (h.insert _ _) rest) hrollback

theorem oblivious_extend (d : List UInt8) : Oblivious (avahi_dns_packet_extend d) := fun h => h.extend d

/-- One append after the other. -/
theorem oblivious_andThen {f g : Append} (hf : Oblivious f) (hg : Oblivious g) : Oblivious (f.andThen g) := by
  intro a b p q h
  obtain ⟨hok, halike⟩ := hf h
  exact Alike.bind (g := fun p => (false, p)) hok halike hg fun h => ⟨rfl, h⟩

/-- A name is compressed alike in both, and written alike. -/
theorem oblivious_append_name (name : CString) : Oblivious (avahi_dns_packet_append_name name) := by
  intro a b p q h
  unfold avahi_dns_packet_append_name
  rw [← h.length_data]
  refine h.appendNameLoop ?_ _ _
  obtain ⟨ext, hp, -⟩ := h.data
  rw [hp, List.length_append]
  exact Nat.le_add_right _ _

/-- Data of each type is written alike. -/
theorem oblivious_append_rdata (data : RData) : Oblivious (append_rdata data) := by
  cases data with
  | generic data =>
    simp only [append_rdata]
    split_ifs
    · exact oblivious_extend data
    · exact fun h => ⟨rfl, h⟩
  | srv priority weight port name =>
    exact oblivious_andThen (oblivious_extend _) (oblivious_andThen (oblivious_extend _)
      (oblivious_andThen (oblivious_extend _) (oblivious_append_name name)))
  | ptr name => exact oblivious_append_name name
  | hinfo cpu os => exact oblivious_andThen (oblivious_extend _) (oblivious_extend _)
  | txt string_list => exact oblivious_extend _
  | a address => exact oblivious_extend _
  | aaaa address => exact oblivious_extend _

/-- The length of the data is written behind the prefix. -/
theorem Alike.patch (h : Alike a b p q) {l : Nat} (hl : a.length ≤ l) (v : UInt16) :
    Alike a b (p.patch l v) (q.patch l v) := by
  obtain ⟨ext, hp, hq⟩ := h.data
  have hset {front : List UInt8} (hfront : front.length = a.length) :
      ((front ++ ext).set l (v >>> 8).toUInt8).set (l + 1) v.toUInt8 =
        front ++ (ext.set (l - a.length) (v >>> 8).toUInt8).set (l + 1 - a.length) v.toUInt8 := by
    rw [List.set_append_right _ _ (by omega), List.set_append_right _ _ (by omega), hfront]
  refine ⟨h.length, ⟨(ext.set (l - a.length) (v >>> 8).toUInt8).set (l + 1 - a.length) v.toUInt8, ?_, ?_⟩, h.max_size,
    h.name_table⟩
  · rw [AvahiDnsPacket.patch, hp]
    exact hset rfl
  · rw [AvahiDnsPacket.patch, hq]
    exact hset h.length.symm

theorem oblivious_appendRecordHead (r : AvahiRecord) (cache_flush : Bool) (max_ttl : UInt32) :
    Oblivious (appendRecordHead r cache_flush max_ttl) :=
  oblivious_andThen (oblivious_append_name _) (oblivious_andThen (oblivious_extend _)
    (oblivious_andThen (oblivious_extend _) (oblivious_andThen (oblivious_extend _) (oblivious_extend _))))

theorem oblivious_appendKeyFields (k : AvahiKey) (clazz : UInt16) : Oblivious (appendKeyFields k clazz) :=
  oblivious_andThen (oblivious_append_name _) (oblivious_andThen (oblivious_extend _) (oblivious_extend _))

/-- A question is written alike, or in neither. -/
theorem oblivious_append_key (k : AvahiKey) (unicast_response : Bool) :
    Oblivious (avahi_dns_packet_append_key k unicast_response) := by
  intro a b p q h
  have hfields := oblivious_appendKeyFields k (keyClass unicast_response k.clazz) h
  obtain ⟨ext, hp, -⟩ := h.data
  have hsize : a.length ≤ p.data.length := by
    rw [hp, List.length_append]
    exact Nat.le_add_right _ _
  unfold avahi_dns_packet_append_key
  rw [← h.length_data]
  exact Alike.bind (f := fun q => (true, q)) (g := fun q => (false, q.rollback p.data.length)) hfields.1 hfields.2
    (fun h => ⟨rfl, h⟩) fun h => ⟨rfl, h.rollback hsize⟩

/-- What is in a packet stays when more is appended, and entries of the name
    table that come to it are about what was appended. -/
structure Above (p q : AvahiDnsPacket) : Prop where
  data : ∃ ext, q.data = p.data ++ ext
  rindex : q.rindex = p.rindex
  max_size : q.max_size = p.max_size
  fits : p.data.length ≤ p.max_size → q.data.length ≤ q.max_size
  name_table : ∃ new, q.name_table = new ++ p.name_table ∧ ∀ e ∈ new, p.data.length ≤ e.2

/-- A name table that refers to what is in the packet. -/
def Inside (p : AvahiDnsPacket) : Prop := ∀ e ∈ p.name_table, e.2 < p.data.length

theorem Above.refl (p : AvahiDnsPacket) : Above p p :=
  ⟨⟨[], (List.append_nil _).symm⟩, rfl, rfl, id, [], rfl, by simp⟩

theorem Above.length {p q : AvahiDnsPacket} (h : Above p q) : p.data.length ≤ q.data.length := by
  obtain ⟨ext, hq⟩ := h.data
  rw [hq, List.length_append]
  exact Nat.le_add_right _ _

theorem Above.extend {p q : AvahiDnsPacket} (h : Above p q) (d : List UInt8) :
    Above p (avahi_dns_packet_extend d q).2 := by
  unfold avahi_dns_packet_extend
  split_ifs
  · exact h
  · rename_i hroom
    obtain ⟨ext, hq⟩ := h.data
    refine ⟨⟨ext ++ d, by rw [hq, List.append_assoc]⟩, h.rindex, h.max_size, fun _ => ?_, h.name_table⟩
    rw [List.length_append]
    exact Nat.le_of_not_lt hroom

/-- A name that is entered into the table lies above. -/
theorem Above.insert {p q : AvahiDnsPacket} (h : Above p q) (s : CString) {d : Nat} (hd : p.data.length ≤ d) :
    Above p (q.insert s d) := by
  unfold AvahiDnsPacket.insert
  split_ifs
  · exact h
  · obtain ⟨new, hq, hnew⟩ := h.name_table
    refine ⟨h.data, h.rindex, h.max_size, h.fits, (s, d) :: new, ?_, List.forall_mem_cons.mpr ⟨hd, hnew⟩⟩
    rw [hq, List.cons_append]

/-- Nothing below is taken back. -/
theorem Above.rollback {p q : AvahiDnsPacket} (h : Above p q) (hp : Inside p) {size : Nat} (hsize : p.data.length ≤ size) :
    Above p (q.rollback size) := by
  obtain ⟨ext, hq⟩ := h.data
  obtain ⟨new, htable, hnew⟩ := h.name_table
  have hkept : p.name_table.filter (fun e => !(size ≤ e.2)) = p.name_table := by
    refine List.filter_eq_self.mpr fun e he => ?_
    have hold := hp e he
    simp only [Bool.not_eq_true', decide_eq_false_iff_not]
    omega
  refine ⟨⟨ext.take (size - p.data.length), ?_⟩, h.rindex, h.max_size, fun hfits => ?_,
    new.filter fun e => !(size ≤ e.2), ?_, fun e he => hnew e (List.mem_of_mem_filter he)⟩
  · rw [AvahiDnsPacket.rollback, hq, List.take_append, List.take_of_length_le hsize]
  · exact Nat.le_trans (List.length_take_le' ..) (h.fits hfits)
  · rw [AvahiDnsPacket.rollback, htable, List.filter_append, hkept]

/-- Going back to where the appends started leaves nothing of them. -/
theorem Above.rollback_eq {p q : AvahiDnsPacket} (h : Above p q) (hp : Inside p) : q.rollback p.data.length = p := by
  obtain ⟨ext, hq⟩ := h.data
  obtain ⟨new, htable, hnew⟩ := h.name_table
  have hgone : new.filter (fun e => !(p.data.length ≤ e.2)) = [] := by
    refine List.filter_eq_nil_iff.mpr fun e he => ?_
    simpa using hnew e he
  have hkept : p.name_table.filter (fun e => !(p.data.length ≤ e.2)) = p.name_table := by
    refine List.filter_eq_self.mpr fun e he => ?_
    simpa using hp e he
  obtain ⟨data, rindex, max_size, name_table⟩ := q
  dsimp only at hq htable
  simp only [AvahiDnsPacket.rollback, hq, htable, List.take_left, List.filter_append, hgone, hkept, List.nil_append]
  rw [show rindex = p.rindex from h.rindex, show max_size = p.max_size from h.max_size]

/-- An append that keeps what is there, whether it succeeds or not. -/
def Keeping (f : Append) : Prop := ∀ {p q : AvahiDnsPacket}, Inside p → Above p q → Above p (f q).2

theorem keeping_extend (d : List UInt8) : Keeping (avahi_dns_packet_extend d) := fun _ h => h.extend d

/-- One append after the other. -/
theorem keeping_andThen {f g : Append} (hf : Keeping f) (hg : Keeping g) : Keeping (f.andThen g) := by
  intro p q hp h
  have hfirst := hf hp h
  unfold Append.andThen
  split <;> rename_i heq <;> rw [heq] at hfirst
  · exact hfirst
  · exact hg hp hfirst

/-- The loop that writes a name only goes up, and comes back as far as it began.
    -/
theorem Above.appendNameLoop {p q : AvahiDnsPacket} (h : Above p q) (hp : Inside p) {saved : Nat}
    (hsaved : p.data.length ≤ saved) (turns : Nat) (s : CString) : Above p (appendNameLoop saved turns s q).2 := by
  have hzero {q : AvahiDnsPacket} (h : Above p q) : Above p (match avahi_dns_packet_extend [0] q with
      | (false, p) => (false, p.rollback saved)
      | (true, p) => (true, p)).2 := by
    have hextend := h.extend [0]
    split <;> rename_i heq <;> rw [heq] at hextend
    · exact hextend.rollback hp hsaved
    · exact hextend
  induction turns generalizing s q with
  | zero =>
    cases s with
    | nil => exact hzero h
    | cons c s => exact h
  | succ turns ih =>
    cases s with
    | nil => exact hzero h
    | cons c s =>
      rw [avahi.appendNameLoop]
      split
      · exact h.extend _
      · split
        · exact h.rollback hp hsaved
        · rename_i label rest hcut
          have hlabel := h.extend (stringBytes label)
          unfold avahi_dns_packet_append_string
          split <;> rename_i heq <;> rw [heq] at hlabel
          · exact hlabel.rollback hp hsaved
          · exact ih (hlabel.insert _ h.length) rest

/-- A name keeps what is below. -/
theorem keeping_append_name (name : CString) : Keeping (avahi_dns_packet_append_name name) :=
  fun hp h => h.appendNameLoop hp h.length _ _

/-- Data of each type keeps what is below. -/
theorem keeping_append_rdata (data : RData) : Keeping (append_rdata data) := by
  cases data with
  | generic data =>
    simp only [append_rdata]
    split_ifs
    · exact keeping_extend data
    · exact fun _ h => h
  | srv priority weight port name =>
    exact keeping_andThen (keeping_extend _) (keeping_andThen (keeping_extend _)
      (keeping_andThen (keeping_extend _) (keeping_append_name name)))
  | ptr name => exact keeping_append_name name
  | hinfo cpu os => exact keeping_andThen (keeping_extend _) (keeping_extend _)
  | txt string_list => exact keeping_extend _
  | a address => exact keeping_extend _
  | aaaa address => exact keeping_extend _

theorem keeping_appendRecordHead (r : AvahiRecord) (cache_flush : Bool) (max_ttl : UInt32) :
    Keeping (appendRecordHead r cache_flush max_ttl) :=
  keeping_andThen (keeping_append_name _) (keeping_andThen (keeping_extend _)
    (keeping_andThen (keeping_extend _) (keeping_andThen (keeping_extend _) (keeping_extend _))))

theorem keeping_appendKeyFields (k : AvahiKey) (clazz : UInt16) : Keeping (appendKeyFields k clazz) :=
  keeping_andThen (keeping_append_name _) (keeping_andThen (keeping_extend _) (keeping_extend _))

/-- A key that does not fit leaves the packet as it was. -/
theorem append_key_eq_false {k : AvahiKey} {unicast_response : Bool} {p q : AvahiDnsPacket} (hp : Inside p)
    (h : avahi_dns_packet_append_key k unicast_response p = (false, q)) : q = p := by
  have hkeeping := keeping_appendKeyFields k (keyClass unicast_response k.clazz) hp (Above.refl p)
  unfold avahi_dns_packet_append_key at h
  split at h <;> rename_i heq
  · rw [heq] at hkeeping
    rw [hkeeping.rollback_eq hp] at h
    exact (congrArg Prod.snd h).symm
  · cases h

/-- A record that does not fit leaves the packet as it was. -/
theorem append_record_eq_false {r : AvahiRecord} {cache_flush : Bool} {max_ttl : UInt32} {p q : AvahiDnsPacket}
    (hp : Inside p) (h : avahi_dns_packet_append_record r cache_flush max_ttl p = some (false, q)) : q = p := by
  have hhead := keeping_appendRecordHead r cache_flush max_ttl hp (Above.refl p)
  unfold avahi_dns_packet_append_record at h
  split at h <;> rename_i heq <;> rw [heq] at hhead
  · rw [hhead.rollback_eq hp] at h
    simpa using h.symm
  · have hdata := keeping_append_rdata r.data hp hhead
    split at h <;> rename_i hrdata <;> rw [hrdata] at hdata
    · rw [hdata.rollback_eq hp] at h
      simpa using h.symm
    · dsimp only at h
      split_ifs at h
      simp at h

/-- An append that succeeds keeps what is below. -/
theorem Keeping.eq_true {f : Append} (hf : Keeping f) {p q m : AvahiDnsPacket} (hp : Inside p) (h : Above p q)
    (hm : f q = (true, m)) : Above p m := by
  have hkept := hf hp h
  rwa [hm] at hkept

/-- The length of the data is behind everything that was there before. -/
theorem length_head {r : AvahiRecord} {cache_flush : Bool} {max_ttl : UInt32} {p head : AvahiDnsPacket} (hp : Inside p)
    (h : appendRecordHead r cache_flush max_ttl p = (true, head)) : p.data.length ≤ head.data.length - 2 := by
  obtain ⟨m₁, h₁, h⟩ := andThen_eq_true h
  obtain ⟨m₂, h₂, h⟩ := andThen_eq_true h
  obtain ⟨m₃, h₃, h⟩ := andThen_eq_true h
  obtain ⟨m₄, h₄, h⟩ := andThen_eq_true h
  have hname := Keeping.eq_true (keeping_append_name r.key.name) hp (Above.refl p) h₁
  have htype := Keeping.eq_true (keeping_extend _) hp hname h₂
  have hclass := Keeping.eq_true (keeping_extend _) hp htype h₃
  have httl := (Keeping.eq_true (keeping_extend _) hp hclass h₄).length
  obtain rfl := extend_eq_true h
  simp only [List.length_append, List.length_cons, List.length_nil]
  omega

/-- A packet does not grow beyond its size, and keeps it. -/
theorem append_key_fits {k : AvahiKey} {unicast_response ok : Bool} {p q : AvahiDnsPacket} (hp : Inside p)
    (h : avahi_dns_packet_append_key k unicast_response p = (ok, q)) :
    q.max_size = p.max_size ∧ (p.data.length ≤ p.max_size → q.data.length ≤ q.max_size) ∧ q.rindex = p.rindex := by
  have hfields := keeping_appendKeyFields k (keyClass unicast_response k.clazz) hp (Above.refl p)
  unfold avahi_dns_packet_append_key at h
  split at h <;> rename_i heq <;> rw [heq] at hfields <;> cases h
  · have hback := hfields.rollback hp (Nat.le_refl _)
    exact ⟨hback.max_size, hback.fits, hback.rindex⟩
  · exact ⟨hfields.max_size, hfields.fits, hfields.rindex⟩

/-- A packet does not grow beyond its size, and keeps it. -/
theorem append_record_fits {r : AvahiRecord} {cache_flush ok : Bool} {max_ttl : UInt32} {p q : AvahiDnsPacket}
    (hp : Inside p) (h : avahi_dns_packet_append_record r cache_flush max_ttl p = some (ok, q)) :
    q.max_size = p.max_size ∧ (p.data.length ≤ p.max_size → q.data.length ≤ q.max_size) ∧ q.rindex = p.rindex := by
  have hhead := keeping_appendRecordHead r cache_flush max_ttl hp (Above.refl p)
  unfold avahi_dns_packet_append_record at h
  split at h <;> rename_i heq <;> rw [heq] at hhead
  · cases h
    have hback := hhead.rollback hp (Nat.le_refl _)
    exact ⟨hback.max_size, hback.fits, hback.rindex⟩
  · have hdata := keeping_append_rdata r.data hp hhead
    split at h <;> rename_i hrdata <;> rw [hrdata] at hdata
    · cases h
      have hback := hdata.rollback hp (Nat.le_refl _)
      exact ⟨hback.max_size, hback.fits, hback.rindex⟩
    · dsimp only at h
      split_ifs at h
      cases h
      refine ⟨hdata.max_size, fun hfits => ?_, hdata.rindex⟩
      simp only [AvahiDnsPacket.patch, List.length_set]
      exact hdata.fits hfits

/-- An append that succeeds in one packet does in the other. -/
theorem Oblivious.eq_true {f : Append} (hf : Oblivious f) (h : Alike a b p q) {p' : AvahiDnsPacket}
    (hp' : f p = (true, p')) : ∃ q', f q = (true, q') ∧ Alike a b p' q' := by
  obtain ⟨hok, halike⟩ := hf h
  rw [hp'] at hok halike
  exact ⟨(f q).2, Prod.ext hok.symm rfl, halike⟩

/-- Two runs that append a record take the same branches. -/
theorem Alike.append_record (h : Alike a b p q) (hp : Inside p) {r : AvahiRecord} {cache_flush : Bool} {max_ttl : UInt32}
    {p' : AvahiDnsPacket} (happend : avahi_dns_packet_append_record r cache_flush max_ttl p = some (true, p')) :
    ∃ q', avahi_dns_packet_append_record r cache_flush max_ttl q = some (true, q') ∧ Alike a b p' q' := by
  unfold avahi_dns_packet_append_record at happend
  split at happend
  · cases happend
  rename_i head hhead
  split at happend
  · cases happend
  rename_i full hfull
  dsimp only at happend
  split at happend
  · cases happend
  rename_i hsmall
  cases happend
  obtain ⟨head', hhead', halike⟩ := Oblivious.eq_true (oblivious_appendRecordHead r cache_flush max_ttl) h hhead
  obtain ⟨full', hfull', hdone⟩ := Oblivious.eq_true (oblivious_append_rdata r.data) halike hfull
  rw [hdone.length_data, halike.length_data] at hsmall ⊢
  refine ⟨full'.patch (head'.data.length - 2) (UInt16.ofNat (full'.data.length - head'.data.length)), ?_, ?_⟩
  · simp only [avahi_dns_packet_append_record, hhead', hfull', if_neg hsmall]
  · refine hdone.patch ?_ _
    obtain ⟨ext, hdata, -⟩ := h.data
    have hlength := length_head hp hhead
    rw [hdata, List.length_append, halike.length_data] at hlength
    omega

end qtzeroconf.avahi
