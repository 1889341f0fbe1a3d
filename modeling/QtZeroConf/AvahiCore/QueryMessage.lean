import QtZeroConf.AvahiCore.QuerySched

open scheduling guarded

namespace qtzeroconf.avahi

/-- The questions and the answers that a receiver finds in a packet, by the
    numbers in its header. -/
def readMessage (p : AvahiDnsPacket) : Except ReadFailure (List (AvahiKey × Bool) × List (AvahiRecord × Bool)) := do
  let (keys, r) ← consumeKeys (avahi_dns_packet_get_field p AVAHI_DNS_FIELD_QDCOUNT).toNat p.received
  let (answers, _) ← consumeRecords (avahi_dns_packet_get_field p AVAHI_DNS_FIELD_ANCOUNT).toNat r
  return (keys, answers)

/-- More packets follow. -/
def Truncated (p : AvahiDnsPacket) : Prop :=
  avahi_dns_packet_get_field p AVAHI_DNS_FIELD_FLAGS &&& AVAHI_DNS_FLAG_TC ≠ 0

/-- What a receiver makes of a query in several packets: the questions are in
    the first, and only the last says that no more answers follow. -/
inductive Stream : List AvahiDnsPacket → List (AvahiKey × Bool) → List (AvahiRecord × Bool) → Prop
  | last {p : AvahiDnsPacket} {keys : List (AvahiKey × Bool)} {answers : List (AvahiRecord × Bool)} :
      readMessage p = .ok (keys, answers) → ¬ Truncated p → Stream [p] keys answers
  | more {p : AvahiDnsPacket} {packets : List AvahiDnsPacket} {keys : List (AvahiKey × Bool)}
      {answers rest : List (AvahiRecord × Bool)} : readMessage p = .ok (keys, answers) → Truncated p →
      Stream packets [] rest → Stream (p :: packets) keys (answers ++ rest)

/-- The header of a packet. -/
def AvahiDnsPacket.header (p : AvahiDnsPacket) : List UInt8 := p.data.take AVAHI_DNS_PACKET_HEADER_SIZE

theorem get_field_congr {p q : AvahiDnsPacket} (h : p.header = q.header) {idx : Nat} (hidx : idx ≤ AVAHI_DNS_FIELD_ARCOUNT) :
    avahi_dns_packet_get_field p idx = avahi_dns_packet_get_field q idx := by
  have hget {i : Nat} (hi : i < AVAHI_DNS_PACKET_HEADER_SIZE) : p.data.getD i 0 = q.data.getD i 0 := by
    have hsame := congrArg (fun l : List UInt8 => l.getD i 0) h
    simpa only [AvahiDnsPacket.header, List.getD_eq_getElem?_getD, List.getElem?_take_of_lt hi] using hsame
  simp only [AVAHI_DNS_FIELD_ARCOUNT] at hidx
  unfold avahi_dns_packet_get_field
  rw [hget (by simp only [AVAHI_DNS_PACKET_HEADER_SIZE]; omega), hget (by simp only [AVAHI_DNS_PACKET_HEADER_SIZE]; omega)]

theorem get_set_field_same {p : AvahiDnsPacket} (hp : AVAHI_DNS_PACKET_HEADER_SIZE ≤ p.data.length) {idx : Nat}
    (hidx : idx ≤ AVAHI_DNS_FIELD_ARCOUNT) (v : UInt16) :
    avahi_dns_packet_get_field (avahi_dns_packet_set_field p idx v) idx = v := by
  simp only [AVAHI_DNS_FIELD_ARCOUNT] at hidx
  simp only [AVAHI_DNS_PACKET_HEADER_SIZE] at hp
  have hhigh : ((p.data.set (2 * idx) (v >>> 8).toUInt8).set (2 * idx + 1) v.toUInt8).getD (2 * idx) 0 = (v >>> 8).toUInt8 := by
    rw [List.getD_eq_getElem?_getD, List.getElem?_set_ne (by omega), List.getElem?_set_self (by omega)]
    rfl
  have hlow : ((p.data.set (2 * idx) (v >>> 8).toUInt8).set (2 * idx + 1) v.toUInt8).getD (2 * idx + 1) 0 = v.toUInt8 := by
    rw [List.getD_eq_getElem?_getD, List.getElem?_set_self (by rw [List.length_set]; omega)]
    rfl
  simp only [avahi_dns_packet_get_field, avahi_dns_packet_set_field, AvahiDnsPacket.patch, hhigh, hlow, uint16Of_bytes]

theorem get_set_field_other {p : AvahiDnsPacket} {idx other : Nat} (hne : idx ≠ other) (v : UInt16) :
    avahi_dns_packet_get_field (avahi_dns_packet_set_field p idx v) other = avahi_dns_packet_get_field p other := by
  have hget {i : Nat} (h₁ : i ≠ 2 * idx) (h₂ : i ≠ 2 * idx + 1) :
      ((p.data.set (2 * idx) (v >>> 8).toUInt8).set (2 * idx + 1) v.toUInt8).getD i 0 = p.data.getD i 0 := by
    rw [List.getD_eq_getElem?_getD, List.getElem?_set_ne (Ne.symm h₂), List.getElem?_set_ne (Ne.symm h₁),
      List.getD_eq_getElem?_getD]
  simp only [avahi_dns_packet_get_field, avahi_dns_packet_set_field, AvahiDnsPacket.patch]
  rw [hget (by omega) (by omega), hget (by omega) (by omega)]

/-- What an append leaves of the header: everything. -/
theorem header_append_key {p q : AvahiDnsPacket} {k : AvahiKey} {unicast_response : Bool}
    (h : avahi_dns_packet_append_key k unicast_response p = (true, q)) (hp : AVAHI_DNS_PACKET_HEADER_SIZE ≤ p.data.length) :
    q.header = p.header := by
  have hfront : p.header.length = AVAHI_DNS_PACKET_HEADER_SIZE := by
    rw [AvahiDnsPacket.header, List.length_take]
    exact Nat.min_eq_left hp
  have halike : Alike p.header p.header p p :=
    ⟨rfl, ⟨p.data.drop AVAHI_DNS_PACKET_HEADER_SIZE, (List.take_append_drop _ _).symm, (List.take_append_drop _ _).symm⟩,
      rfl, rfl⟩
  obtain ⟨q', -, hafter⟩ := Oblivious.eq_true (oblivious_append_key k unicast_response) halike h
  obtain ⟨ext, hq, -⟩ := hafter.data
  rw [AvahiDnsPacket.header, hq, ← hfront, List.take_left]

theorem header_append_record {p q : AvahiDnsPacket} {r : AvahiRecord} {cache_flush : Bool} {max_ttl : UInt32}
    (hinside : Inside p) (h : avahi_dns_packet_append_record r cache_flush max_ttl p = some (true, q))
    (hp : AVAHI_DNS_PACKET_HEADER_SIZE ≤ p.data.length) : q.header = p.header := by
  have hfront : p.header.length = AVAHI_DNS_PACKET_HEADER_SIZE := by
    rw [AvahiDnsPacket.header, List.length_take]
    exact Nat.min_eq_left hp
  have halike : Alike p.header p.header p p :=
    ⟨rfl, ⟨p.data.drop AVAHI_DNS_PACKET_HEADER_SIZE, (List.take_append_drop _ _).symm, (List.take_append_drop _ _).symm⟩,
      rfl, rfl⟩
  obtain ⟨q', -, hafter⟩ := halike.append_record hinside h
  obtain ⟨ext, hq, -⟩ := hafter.data
  rw [AvahiDnsPacket.header, hq, ← hfront, List.take_left]

/-- What a packet carries is found in it when the numbers in its header are
    right. -/
theorem readMessage_carries {p : AvahiDnsPacket} {keys : List (AvahiKey × Bool)} {records : List (AvahiRecord × Bool)}
    (h : Carries p keys records) (hsize : p.max_size ≤ 4 * 0x10000)
    (hkeys : avahi_dns_packet_get_field p AVAHI_DNS_FIELD_QDCOUNT = UInt16.ofNat keys.length)
    (hrecords : avahi_dns_packet_get_field p AVAHI_DNS_FIELD_ANCOUNT = UInt16.ofNat records.length) :
    readMessage p = .ok (keys, records) := by
  have hroom := h.room
  have hfits := h.fits
  have hcount {n : Nat} (hn : n < 0x10000) : (UInt16.ofNat n).toNat = n := by
    rw [UInt16.toNat_ofNat']
    exact Nat.mod_eq_of_lt hn
  obtain ⟨mid, hread, hrest⟩ := h.received.consume rfl
  simp only [AVAHI_DNS_PACKET_HEADER_SIZE] at hroom
  simp only [readMessage, hkeys, hrecords, hcount (show keys.length < 0x10000 by omega),
    hcount (show records.length < 0x10000 by omega), hread, hrest, bind, Except.bind, pure, Except.pure]

/-- A query that is being filled, and is not truncated yet. -/
structure Filling (mtu : Nat) (p : AvahiDnsPacket) (keys : List (AvahiKey × Bool)) (records : List (AvahiRecord × Bool)) :
    Prop where
  carries : Carries p keys records
  max_size : p.max_size = packetSize mtu
  last : ¬ Truncated p
  empty : avahi_dns_packet_is_empty p = true → p = avahi_dns_packet_new_query mtu

theorem length_set_field (p : AvahiDnsPacket) (idx : Nat) (v : UInt16) :
    (avahi_dns_packet_set_field p idx v).data.length = p.data.length := by
  simp [avahi_dns_packet_set_field, AvahiDnsPacket.patch]

theorem filling_new_query (mtu : Nat) : Filling mtu (avahi_dns_packet_new_query mtu) [] [] := by
  refine ⟨(carries_new mtu).set_field (by decide) 0, rfl, ?_, fun _ => rfl⟩
  have hflags : avahi_dns_packet_get_field (avahi_dns_packet_new_query mtu) AVAHI_DNS_FIELD_FLAGS = 0 :=
    get_set_field_same (Nat.le_refl _) (by decide) 0
  rw [Truncated, hflags]
  decide

theorem get_field_new_query (mtu : Nat) :
    avahi_dns_packet_get_field (avahi_dns_packet_new_query mtu) AVAHI_DNS_FIELD_QDCOUNT = 0 := by
  have hdata : (avahi_dns_packet_new mtu).data = List.replicate AVAHI_DNS_PACKET_HEADER_SIZE 0 := rfl
  rw [avahi_dns_packet_new_query, get_set_field_other (by decide), avahi_dns_packet_get_field, hdata]
  decide

section

variable {mtu : Nat} {p q : AvahiDnsPacket} {keys : List (AvahiKey × Bool)} {records : List (AvahiRecord × Bool)}

/-- Something is in the packet that is filled. -/
theorem Filling.not_empty (h : Filling mtu p keys records) (hsome : 0 < keys.length + records.length) :
    ¬ avahi_dns_packet_is_empty p = true := by
  have hroom := h.carries.room
  simp only [avahi_dns_packet_is_empty, decide_eq_true_eq]
  omega

theorem Filling.append_key (h : Filling mtu p keys []) {k : AvahiKey} (hk : k.Sendable) {unicast_response : Bool}
    (happend : avahi_dns_packet_append_key k unicast_response p = (true, q)) :
    Filling mtu q (keys ++ [(k, unicast_response)]) [] := by
  have hcarries := h.carries.append_key hk happend
  have hroom := hcarries.room
  refine ⟨hcarries, ?_, ?_, fun hempty => ?_⟩
  · rw [(append_key_fits h.carries.inside happend).1, h.max_size]
  · rw [Truncated, get_field_congr (header_append_key happend h.carries.header) (by decide)]
    exact h.last
  · simp only [avahi_dns_packet_is_empty, decide_eq_true_eq] at hempty
    simp only [List.length_append, List.length_cons, List.length_nil] at hroom
    omega

/-- The number of questions is written. -/
theorem Filling.counted (h : Filling mtu p keys records) (hsome : 0 < keys.length + records.length) (v : UInt16) :
    Filling mtu (avahi_dns_packet_set_field p AVAHI_DNS_FIELD_QDCOUNT v) keys records := by
  refine ⟨h.carries.set_field (by decide) v, h.max_size, ?_, fun hempty => ?_⟩
  · rw [Truncated, get_set_field_other (by decide)]
    exact h.last
  · rw [avahi_dns_packet_is_empty, length_set_field] at hempty
    exact absurd hempty (h.not_empty hsome)

theorem Filling.append_record (h : Filling mtu p keys records) {r : AvahiRecord} (hr : r.Sendable 0) {cache_flush : Bool}
    (happend : avahi_dns_packet_append_record r cache_flush 0 p = some (true, q)) :
    Filling mtu q keys (records ++ [(r, cache_flush)]) ∧ q.header = p.header := by
  have hcarries := h.carries.append_record hr happend
  have hroom := hcarries.room
  have hheader := header_append_record h.carries.inside happend h.carries.header
  refine ⟨⟨hcarries, ?_, ?_, fun hempty => ?_⟩, hheader⟩
  · rw [(append_record_fits h.carries.inside happend).1, h.max_size]
  · rw [Truncated, get_field_congr hheader (by decide)]
    exact h.last
  · simp only [avahi_dns_packet_is_empty, decide_eq_true_eq] at hempty
    simp only [List.length_append, List.length_cons, List.length_nil] at hroom
    omega

theorem or_and_self (a b : UInt16) : (a ||| b) &&& b = b := by
  apply UInt16.toNat_inj.mp
  rw [UInt16.toNat_and, UInt16.toNat_or]
  refine Nat.eq_of_testBit_eq fun i => ?_
  rw [Nat.testBit_and, Nat.testBit_or]
  cases a.toNat.testBit i <;> cases b.toNat.testBit i <;> rfl

/-- The last packet, as it is received. -/
theorem Filling.answered (h : Filling mtu p keys records) (hmtu : packetSize mtu ≤ AVAHI_DNS_RDATA_MAX)
    (hkeys : avahi_dns_packet_get_field p AVAHI_DNS_FIELD_QDCOUNT = UInt16.ofNat keys.length) :
    readMessage (query.answered records.length p) = .ok (keys, records) ∧
      ¬ Truncated (query.answered records.length p) := by
  have hmax := h.max_size
  constructor
  · refine readMessage_carries (h.carries.set_field (by decide) _) ?_ ?_ ?_
    · change p.max_size ≤ _
      simp only [AVAHI_DNS_RDATA_MAX] at hmtu
      omega
    · rw [query.answered, get_set_field_other (by decide), hkeys]
    · rw [query.answered, get_set_field_same h.carries.header (by decide)]
  · rw [Truncated, query.answered, get_set_field_other (by decide)]
    exact h.last

/-- A packet that others follow, as it is received. -/
theorem Filling.truncated (h : Filling mtu p keys records) (hmtu : packetSize mtu ≤ AVAHI_DNS_RDATA_MAX)
    (hkeys : avahi_dns_packet_get_field p AVAHI_DNS_FIELD_QDCOUNT = UInt16.ofNat keys.length) :
    readMessage (query.answered records.length (query.truncated p)) = .ok (keys, records) ∧
      Truncated (query.answered records.length (query.truncated p)) := by
  have hmax := h.max_size
  constructor
  · refine readMessage_carries ((h.carries.set_field (by decide) _).set_field (by decide) _) ?_ ?_ ?_
    · change p.max_size ≤ _
      simp only [AVAHI_DNS_RDATA_MAX] at hmtu
      omega
    · rw [query.answered, query.truncated, get_set_field_other (by decide), get_set_field_other (by decide), hkeys]
    · rw [query.answered, query.truncated, get_set_field_same (by rw [length_set_field]; exact h.carries.header) (by decide)]
  · rw [Truncated, query.answered, query.truncated, get_set_field_other (by decide),
      get_set_field_same h.carries.header (by decide), or_and_self]
    decide

end

/-- A record that fits into a packet on its own. -/
def FitsAlone (mtu : Nat) (r : AvahiRecord) : Prop :=
  ∃ q, avahi_dns_packet_append_record r false 0 (avahi_dns_packet_new_query mtu) = some (true, q)

/-- What does not even fit into a new packet is not missed. -/
theorem not_fitsAlone {mtu : Nat} {ka : AvahiRecord} {q : AvahiDnsPacket}
    (h : avahi_dns_packet_append_record ka false 0 (avahi_dns_packet_new_query mtu) = some (false, q)) :
    ¬ FitsAlone mtu ka := by
  rintro ⟨q', hq'⟩
  rw [h] at hq'
  cases hq'

theorem forall_fits_keep {mtu : Nat} {ka : AvahiRecord} {known answers : List AvahiRecord}
    (h : ∀ r ∈ known, FitsAlone mtu r → r ∈ answers) : ∀ r ∈ ka :: known, FitsAlone mtu r → r ∈ ka :: answers := by
  intro r hr halone
  rcases List.mem_cons.mp hr with rfl | hr
  · exact List.mem_cons_self ..
  · exact List.mem_cons_of_mem _ (h r hr halone)

theorem forall_fits_drop {mtu : Nat} {ka : AvahiRecord} {known answers : List AvahiRecord} (hka : ¬ FitsAlone mtu ka)
    (h : ∀ r ∈ known, FitsAlone mtu r → r ∈ answers) : ∀ r ∈ ka :: known, FitsAlone mtu r → r ∈ answers := by
  intro r hr halone
  rcases List.mem_cons.mp hr with rfl | hr
  · exact absurd halone hka
  · exact h r hr halone

/-- The known answers are sent in as many packets as they take; only those are
    dropped that fit into none. -/
theorem append_known_answers_stream {mtu : Nat} (hmtu : packetSize mtu ≤ AVAHI_DNS_RDATA_MAX) {known : List AvahiRecord}
    (hknown : ∀ ka ∈ known, ka.Sendable 0) {p : AvahiDnsPacket} {keys : List (AvahiKey × Bool)}
    {records : List (AvahiRecord × Bool)} (h : Filling mtu p keys records)
    (hkeys : avahi_dns_packet_get_field p AVAHI_DNS_FIELD_QDCOUNT = UInt16.ofNat keys.length) :
    ∃ (packets : List AvahiDnsPacket) (answers : List AvahiRecord),
      query.append_known_answers_and_send mtu known records.length p = some packets ∧
      answers.Sublist known ∧ (∀ ka ∈ known, FitsAlone mtu ka → ka ∈ answers) ∧
      Stream packets keys (records ++ answers.map (·, false)) := by
  induction known generalizing p keys records with
  | nil =>
    obtain ⟨hread, hlast⟩ := h.answered hmtu hkeys
    refine ⟨_, [], rfl, .slnil, nofun, ?_⟩
    rw [List.map_nil, List.append_nil]
    exact .last hread hlast
  | cons ka known ih =>
    obtain ⟨hka, hrest⟩ := List.forall_mem_cons.mp hknown
    obtain ⟨ok, q, happend⟩ := append_record_ne_none ka false 0 h.carries.inside
      h.carries.fits (h.max_size ▸ hmtu)
    cases ok with
    | true =>
      obtain ⟨hfilling, hheader⟩ := h.append_record hka happend
      have hq := (get_field_congr hheader (by decide)).trans hkeys
      obtain ⟨packets, answers, hsend, hsub, hfits, hstream⟩ := ih hrest hfilling hq
      refine ⟨packets, ka :: answers, ?_, hsub.cons_cons ka, forall_fits_keep hfits, ?_⟩
      · rw [List.length_append] at hsend
        simp only [query.append_known_answers_and_send, happend, Option.bind_eq_bind, Option.bind_some]
        exact hsend
      · rwa [List.append_assoc] at hstream
    | false =>
      obtain rfl := append_record_eq_false h.carries.inside happend
      by_cases hempty : avahi_dns_packet_is_empty q = true
      · obtain ⟨packets, answers, hsend, hsub, hfits, hstream⟩ := ih hrest h hkeys
        have hnever : ¬ FitsAlone mtu ka := not_fitsAlone (h.empty hempty ▸ happend)
        refine ⟨packets, answers, ?_, hsub.cons ka, forall_fits_drop hnever hfits, hstream⟩
        simp only [query.append_known_answers_and_send, happend, Option.bind_eq_bind, Option.bind_some, if_pos hempty]
        exact hsend
      · -- the packet is sent, and the record goes into a new one
        have hnew := filling_new_query mtu
        have hnewkeys : avahi_dns_packet_get_field (avahi_dns_packet_new_query mtu) AVAHI_DNS_FIELD_QDCOUNT =
            UInt16.ofNat ([] : List (AvahiKey × Bool)).length := get_field_new_query mtu
        obtain ⟨hread, hmore⟩ := h.truncated hmtu hkeys
        obtain ⟨ok, q', hagain⟩ := append_record_ne_none ka false 0
          hnew.carries.inside hnew.carries.fits (hnew.max_size ▸ hmtu)
        cases ok with
        | true =>
          obtain ⟨hfilling, hheader⟩ := hnew.append_record hka hagain
          obtain ⟨packets, answers, hsend, hsub, hfits, hstream⟩ :=
            ih hrest hfilling ((get_field_congr hheader (by decide)).trans hnewkeys)
          refine ⟨_, ka :: answers, ?_, hsub.cons_cons ka, forall_fits_keep hfits, .more hread hmore hstream⟩
          have hone : query.append_known_answers_and_send mtu known 1 q' = some packets := hsend
          simp only [query.append_known_answers_and_send, happend, Option.bind_eq_bind, Option.bind_some, if_neg hempty,
            hagain]
          rw [hone]
          rfl
        | false =>
          obtain rfl := append_record_eq_false hnew.carries.inside hagain
          obtain ⟨packets, answers, hsend, hsub, hfits, hstream⟩ := ih hrest hnew hnewkeys
          have hnever : ¬ FitsAlone mtu ka := not_fitsAlone hagain
          refine ⟨_, answers, ?_, hsub.cons ka, forall_fits_drop hnever hfits, .more hread hmore hstream⟩
          have hnone : query.append_known_answers_and_send mtu known 0 (avahi_dns_packet_new_query mtu) =
            some packets := hsend
          simp only [query.append_known_answers_and_send, happend, Option.bind_eq_bind, Option.bind_some, if_neg hempty,
            hagain]
          rw [hnone]
          rfl

namespace query

/-- How the job is remembered that was the `n`-th to be sent. -/
def sentAt (clock : Nat → Int) (n : Nat) (qj : AvahiQueryJob) : AvahiQueryJob := doneAt (turn clock n) qj

/-- A job is either left as it is, or put into the packet and marked as done. -/
theorem packet_add_query_job_cases (walk : Key → List AvahiRecord) (clock : Nat → Int) {i : Nat} {a : Assembly}
    {qj : AvahiQueryJob} (hqj : a.scheduler.jobs[i]? = some qj) :
    (∃ p, avahi_dns_packet_append_key qj.key.val false a.packet = (false, p) ∧
      packet_add_query_job walk clock i a = (false, { a with packet := p })) ∨
    ∃ p, avahi_dns_packet_append_key qj.key.val false a.packet = (true, p) ∧
      packet_add_query_job walk clock i a = (true, {
        scheduler := { jobs := a.scheduler.jobs.eraseIdx i, history := doneAt clock qj :: a.scheduler.history
                       next_id := a.scheduler.next_id }
        packet := p, known_answers := (walk qj.key).reverse ++ a.known_answers }) := by
  simp only [packet_add_query_job, hqj]
  split
  · rename_i p happend
    exact Or.inl ⟨p, happend, rfl⟩
  · rename_i p happend
    refine Or.inr ⟨p, happend, ?_⟩
    simp only [job_mark_done, Schedule.finish, hqj]

/-- The packet is filled from the front of the list. Whatever can be sent is
    written there. -/
theorem fillLoop_spec (walk : Key → List AvahiRecord) (clock : Nat → Int) (turns n : Nat) (a : Assembly) :
    ∃ (asked : List AvahiQueryJob) (a' : Assembly), fillLoop walk clock turns n a = (n + asked.length, a') ∧
      a.scheduler.jobs = asked ++ a'.scheduler.jobs ∧
      a'.scheduler.history = (asked.mapIdx fun k qj => sentAt clock (n + k) qj).reverse ++ a.scheduler.history ∧
      a'.scheduler.next_id = a.scheduler.next_id ∧
      a'.known_answers = (asked.flatMap fun qj => walk qj.key).reverse ++ a.known_answers ∧
      ∀ {mtu : Nat} {keys : List (AvahiKey × Bool)}, Filling mtu a.packet keys [] →
        (∀ qj ∈ a.scheduler.jobs, qj.key.val.Sendable) →
        Filling mtu a'.packet (keys ++ asked.map fun qj => (qj.key.val, false)) [] := by
  have hstop {n : Nat} {a a' : Assembly} (hscheduler : a'.scheduler = a.scheduler)
      (hknown : a'.known_answers = a.known_answers)
      (hpacket : ∀ {mtu : Nat} {keys : List (AvahiKey × Bool)}, Filling mtu a.packet keys [] → a'.packet = a.packet) :
      ∃ (asked : List AvahiQueryJob) (a'' : Assembly), (n, a') = (n + asked.length, a'') ∧
        a.scheduler.jobs = asked ++ a''.scheduler.jobs ∧
        a''.scheduler.history = (asked.mapIdx fun k qj => sentAt clock (n + k) qj).reverse ++ a.scheduler.history ∧
        a''.scheduler.next_id = a.scheduler.next_id ∧
        a''.known_answers = (asked.flatMap fun qj => walk qj.key).reverse ++ a.known_answers ∧
        ∀ {mtu : Nat} {keys : List (AvahiKey × Bool)}, Filling mtu a.packet keys [] →
          (∀ qj ∈ a.scheduler.jobs, qj.key.val.Sendable) →
          Filling mtu a''.packet (keys ++ asked.map fun qj => (qj.key.val, false)) [] := by
    refine ⟨[], a', rfl, by rw [hscheduler]; rfl, by rw [hscheduler]; rfl, by rw [hscheduler], hknown,
      fun h _ => ?_⟩
    rw [hpacket h, List.map_nil, List.append_nil]
    exact h
  induction turns generalizing a n with
  | zero => exact hstop rfl rfl fun _ => rfl
  | succ turns ih =>
    rw [fillLoop]
    split_ifs with hempty
    · exact hstop rfl rfl fun _ => rfl
    · obtain ⟨qj, jobs, hjobs⟩ := List.exists_cons_of_ne_nil hempty
      have hqj : a.scheduler.jobs[0]? = some qj := by rw [hjobs]; rfl
      rcases packet_add_query_job_cases walk (turn clock n) hqj with ⟨p, happend, hfull⟩ | ⟨p, happend, hadd⟩
      · rw [hfull]
        exact hstop rfl rfl fun h => append_key_eq_false h.carries.inside happend
      · have herase : a.scheduler.jobs.eraseIdx 0 = jobs := by rw [hjobs]; rfl
        rw [herase] at hadd
        rw [hadd]
        obtain ⟨asked, a', hloop, hasked, hhistory, hid, hknown, hdone⟩ := ih (n + 1) {
          scheduler := { jobs, history := sentAt clock n qj :: a.scheduler.history, next_id := a.scheduler.next_id }
          packet := p, known_answers := (walk qj.key).reverse ++ a.known_answers }
        have hturn (k : Nat) : n + 1 + k = n + (k + 1) := by omega
        refine ⟨qj :: asked, a', ?_, ?_, ?_, hid, ?_, fun {mtu keys} h hkeys => ?_⟩
        · refine hloop.trans ?_
          rw [hturn, List.length_cons]
        · rw [hjobs, List.cons_append, ← hasked]
        · simp only [hhistory, hturn, List.mapIdx_cons, List.reverse_cons, List.append_assoc, List.singleton_append,
            Nat.add_zero]
        · rw [hknown, List.flatMap_cons, List.reverse_append, List.append_assoc]
        · rw [hjobs] at hkeys
          obtain ⟨hkey, hrest⟩ := List.forall_mem_cons.mp hkeys
          have hall := hdone (h.append_key hkey happend) hrest
          rwa [List.append_assoc] at hall

/-- When the timer of a job is due, the job and some from the front of the list
    are done, and their keys are in the packets, as far as keys can be sent. -/
theorem elapse_callback_spec (walk : Key → List AvahiRecord) (mtu : Nat) (clock : Nat → Int) {s : AvahiQueryScheduler}
    {i : Nat} {qj : AvahiQueryJob} (hqj : s.jobs[i]? = some qj) :
    elapse_callback walk mtu clock i s = none ∧
      (avahi_dns_packet_append_key qj.key.val false (avahi_dns_packet_new_query mtu)).1 = false ∨
    ∃ (asked : List AvahiQueryJob) (s' : AvahiQueryScheduler) (p : AvahiDnsPacket),
      elapse_callback walk mtu clock i s =
        (append_known_answers_and_send mtu ((qj :: asked).flatMap fun qj => walk qj.key).reverse 0
          (avahi_dns_packet_set_field p AVAHI_DNS_FIELD_QDCOUNT (UInt16.ofNat (qj :: asked).length))).map (·, s') ∧
      s.jobs.eraseIdx i = asked ++ s'.jobs ∧
      s'.history = ((qj :: asked).mapIdx (sentAt clock)).reverse ++ s.history ∧
      s'.next_id = s.next_id ∧
      ((∀ qj ∈ s.jobs, qj.key.val.Sendable) → Filling mtu p ((qj :: asked).map fun qj => (qj.key.val, false)) []) := by
  rcases packet_add_query_job_cases walk (turn clock 0) (a := {
      scheduler := s, packet := avahi_dns_packet_new_query mtu, known_answers := [] }) hqj
    with ⟨p, happend, hfull⟩ | ⟨p, happend, hadd⟩
  · left
    rw [elapse_callback, hfull]
    exact ⟨rfl, congrArg Prod.fst happend⟩
  · right
    obtain ⟨asked, a', hloop, hasked, hhistory, hid, hknown, hdone⟩ :=
      fillLoop_spec walk clock (s.jobs.eraseIdx i).length 1 {
        scheduler := { jobs := s.jobs.eraseIdx i, history := sentAt clock 0 qj :: s.history, next_id := s.next_id }
        packet := p, known_answers := (walk qj.key).reverse ++ [] }
    have hall : a'.known_answers = ((qj :: asked).flatMap fun qj => walk qj.key).reverse :=
      hknown.trans (by rw [List.flatMap_cons, List.reverse_append, List.append_nil])
    have hloop' : fillLoop walk clock (s.jobs.eraseIdx i).length 1 {
        scheduler := { jobs := s.jobs.eraseIdx i, history := doneAt (turn clock 0) qj :: s.history, next_id := s.next_id }
        packet := p, known_answers := (walk qj.key).reverse ++ [] } = (1 + asked.length, a') := hloop
    refine ⟨asked, a'.scheduler, a'.packet, ?_, hasked, ?_, hid, fun hkeys => ?_⟩
    · simp only [elapse_callback, hadd, hloop', hall, List.length_cons, Nat.add_comm 1]
    · simp only [hhistory, List.mapIdx_cons, List.reverse_cons, List.append_assoc, List.singleton_append,
        Nat.add_comm 1]
    · have hfirst := (filling_new_query mtu).append_key (hkeys qj (List.mem_of_getElem? hqj)) happend
      exact hdone hfirst fun qj hmem => hkeys qj (List.mem_of_mem_eraseIdx hmem)

/-- The packet with the questions is sent with the known answers behind them. -/
theorem questions_stream {mtu : Nat} (hmin : 0 < mtu) (hmax : mtu ≤ AVAHI_DNS_RDATA_MAX) {p : AvahiDnsPacket} {qj : AvahiQueryJob}
    {asked : List AvahiQueryJob} (h : Filling mtu p ((qj :: asked).map fun qj => (qj.key.val, false)) [])
    {known : List AvahiRecord} (hknown : ∀ ka ∈ known, ka.Sendable 0) :
    ∃ (packets : List AvahiDnsPacket) (answers : List AvahiRecord),
      append_known_answers_and_send mtu known 0
        (avahi_dns_packet_set_field p AVAHI_DNS_FIELD_QDCOUNT (UInt16.ofNat (qj :: asked).length)) = some packets ∧
      answers.Sublist known ∧ (∀ ka ∈ known, FitsAlone mtu ka → ka ∈ answers) ∧
      Stream packets ((qj :: asked).map fun qj => (qj.key.val, false)) (answers.map (·, false)) := by
  have hmtu : packetSize mtu ≤ AVAHI_DNS_RDATA_MAX := by
    have hrdata : AVAHI_DNS_RDATA_MAX = 65535 := rfl
    have hheader : AVAHI_DNS_PACKET_HEADER_SIZE = 12 := rfl
    simp only [packetSize]
    split_ifs <;> omega
  have hcount : ((qj :: asked).map fun qj => (qj.key.val, false)).length = (qj :: asked).length := List.length_map ..
  exact append_known_answers_stream hmtu hknown (h.counted (by simp) (UInt16.ofNat (qj :: asked).length))
    (hcount ▸ get_set_field_same h.carries.header (by decide) _)

/-- When a query is due, it is sent with the others that wait, as far as they
    fit, and the receiver gets exactly these questions, and with them every
    known answer that fits into a packet at all. No assertion fails on the way. -/
theorem elapse_callback_stream (walk : Key → List AvahiRecord) {mtu : Nat} (hmin : 321 ≤ mtu)
    (hmax : mtu ≤ AVAHI_DNS_RDATA_MAX) (clock : Nat → Int) {s : AvahiQueryScheduler} {i : Nat} {qj : AvahiQueryJob}
    (hqj : s.jobs[i]? = some qj) (hkeys : ∀ qj ∈ s.jobs, qj.key.val.Sendable)
    (hwalk : ∀ qj ∈ s.jobs, ∀ ka ∈ walk qj.key, ka.Sendable 0) :
    ∃ (packets : List AvahiDnsPacket) (s' : AvahiQueryScheduler) (asked : List AvahiQueryJob) (answers : List AvahiRecord),
      elapse_callback walk mtu clock i s = some (packets, s') ∧
      s.jobs.eraseIdx i = asked ++ s'.jobs ∧
      s'.history = ((qj :: asked).mapIdx (sentAt clock)).reverse ++ s.history ∧
      answers.Sublist ((qj :: asked).flatMap fun qj => walk qj.key).reverse ∧
      (∀ ka ∈ (qj :: asked).flatMap fun qj => walk qj.key, FitsAlone mtu ka → ka ∈ answers) ∧
      Stream packets ((qj :: asked).map fun qj => (qj.key.val, false)) (answers.map (·, false)) := by
  have hkey := hkeys qj (List.mem_of_getElem? hqj)
  have hsize : packetSize mtu = mtu - 48 := by
    have hextra : AVAHI_DNS_PACKET_EXTRA_SIZE = 48 := rfl
    have hheader : AVAHI_DNS_PACKET_HEADER_SIZE = 12 := rfl
    simp only [packetSize]
    split_ifs <;> omega
  have hlength : (avahi_dns_packet_new_query mtu).data.length = 12 := rfl
  have hshort := hkey.short
  -- the first query fits into the packet
  obtain ⟨q, happend, -, -⟩ := append_key_room hkey.name (p := avahi_dns_packet_new_query mtu)
    (by rw [hlength, show (avahi_dns_packet_new_query mtu).max_size = mtu - 48 from hsize]; omega) false
  rcases elapse_callback_spec walk mtu clock hqj with ⟨-, hfull⟩ | ⟨asked, s', p, hcallback, hjobs, hhistory, -, hfilling⟩
  · rw [happend] at hfull
    cases hfull
  have hknown : ∀ ka ∈ ((qj :: asked).flatMap fun qj => walk qj.key).reverse, ka.Sendable 0 := by
    intro ka hka
    obtain ⟨job, hjob, hfound⟩ := List.mem_flatMap.mp (List.mem_reverse.mp hka)
    rcases List.mem_cons.mp hjob with rfl | hjob
    · exact hwalk _ (List.mem_of_getElem? hqj) ka hfound
    · have hmem : job ∈ s.jobs.eraseIdx i := hjobs ▸ List.mem_append_left _ hjob
      exact hwalk job (List.mem_of_mem_eraseIdx hmem) ka hfound
  obtain ⟨packets, answers, hsend, hsub, hfits, hstream⟩ := questions_stream (by omega) hmax (hfilling hkeys) hknown
  refine ⟨packets, s', asked, answers, ?_, hjobs, hhistory, hsub, fun ka hka => hfits ka (List.mem_reverse.mpr hka),
    hstream⟩
  exact hcallback.trans (congrArg (Option.map (·, s')) hsend)

theorem normal_ptrRecord : NormalName ptrRecord.key.name :=
  normalName_of [[0x50], [0x4C]] (by decide) (by decide) (by decide)

/-- A job that asks the question of `ptrRecord`. -/
def ptrJob : AvahiQueryJob :=
  { id := 0, n_posted := 1, time_event := 7, delivery := 7
    key := ⟨ptrRecord.key, readable_of_valid normal_ptrRecord.valid⟩ }

theorem ptrRecord_sendable : ptrRecord.Sendable 0 :=
  ⟨normal_ptrRecord, normalName_of [[0x49], [0x50], [0x4C]] (by decide) (by decide) (by decide), by decide,
    by decide⟩

theorem elapse_callback_stream_ptr :
    ∃ packets s', elapse_callback (fun _ => [ptrRecord]) 500 (fun n => if n = 0 then 7 else 8) 0
        { jobs := [ptrJob], history := [], next_id := 1 } = some (packets, s') ∧
      s'.history = [{ ptrJob with time_event := 100007, delivery := 8 }] ∧
      ∃ answers, Stream packets [(ptrRecord.key, false)] answers := by
  obtain ⟨packets, s', asked, answers, hsend, hjobs, hhistory, -, -, hstream⟩ :=
    elapse_callback_stream (fun _ => [ptrRecord]) (show 321 ≤ 500 by decide) (by decide)
      (fun n => if n = 0 then 7 else 8)
      (s := { jobs := [ptrJob], history := [], next_id := 1 }) (i := 0) rfl
      (List.forall_mem_singleton.mpr ⟨normal_ptrRecord, by decide, by decide⟩)
      fun _ _ => List.forall_mem_singleton.mpr ptrRecord_sendable
  obtain ⟨rfl, -⟩ := List.append_eq_nil_iff.mp hjobs.symm
  exact ⟨packets, s', hsend, hhistory, _, hstream⟩

end query

end qtzeroconf.avahi
