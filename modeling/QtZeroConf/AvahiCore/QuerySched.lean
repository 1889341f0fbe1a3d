import QtZeroConf.AvahiCore.PacketRoom
import QtZeroConf.AvahiCore.RrEqual
import QtZeroConf.Library.Jobs

open scheduling

namespace qtzeroconf.avahi

def AVAHI_QUERY_HISTORY_MSEC : Int := 100
def AVAHI_QUERY_DEFER_MSEC : Int := 100

/-- `AvahiQueryJob`. Times are in microseconds, `time_event` is when that of the
    job is due; whether a job is done is said by the list that it is in. -/
structure AvahiQueryJob where
  id : UInt32
  n_posted : Int
  time_event : Int
  delivery : Int
  key : Key

/-- `AvahiQueryScheduler`. -/
structure AvahiQueryScheduler extends Schedule AvahiQueryJob where
  next_id : UInt32

/-- `avahi_query_scheduler_new`. -/
def avahi_query_scheduler_new : AvahiQueryScheduler := { jobs := [], history := [], next_id := 0 }

/-- `avahi_key_equal`, of keys that can be read. -/
def Key.equalTo (a b : Key) : Bool := avahi_key_equal a.val b.val = some true

/-- `avahi_query_scheduler_clear`. -/
def avahi_query_scheduler_clear (s : AvahiQueryScheduler) : AvahiQueryScheduler := { s with toSchedule := s.clear }

namespace query

-- `clock n` is what the clock shows at the n-th place where a call reads it

/-- `find_scheduled_job`: the place of the job. -/
def find_scheduled_job (s : AvahiQueryScheduler) (key : Key) : Option Nat :=
  s.jobs.findIdx? fun qj => qj.key.equalTo key

/-- `find_history_job`, which frees a job that is outdated. -/
def find_history_job (s : AvahiQueryScheduler) (now : Int) (key : Key) : Option Nat × AvahiQueryScheduler :=
  match s.history.findIdx? fun qj => qj.key.equalTo key with
  | none => (none, s)
  | some i =>
    if (s.history[i]?).any fun qj => AVAHI_QUERY_HISTORY_MSEC * 1000 < now - qj.delivery then
      (none, { s with toSchedule := s.forget i })
    else (some i, s)

/-- `job_set_elapse_time`, which is never called with a jitter. -/
def job_set_elapse_time (qj : AvahiQueryJob) (now msec : Int) : AvahiQueryJob := { qj with time_event := now + msec * 1000 }

/-- What becomes of a job that is done: its time event is set first. -/
def doneAt (clock : Nat → Int) (qj : AvahiQueryJob) : AvahiQueryJob :=
  { job_set_elapse_time qj (clock 0) AVAHI_QUERY_HISTORY_MSEC with delivery := clock 1 }

/-- `job_mark_done`. -/
def job_mark_done (s : AvahiQueryScheduler) (clock : Nat → Int) (i : Nat) : AvahiQueryScheduler :=
  { s with toSchedule := s.finish i (doneAt clock) }

/-- What becomes of a job that is posted again. -/
def postedAt (tv : Int) (qj : AvahiQueryJob) : AvahiQueryJob :=
  let qj := if tv < qj.delivery then { qj with delivery := tv, time_event := tv } else qj
  { qj with n_posted := qj.n_posted + 1 }

/-- `avahi_query_scheduler_post`: the id, unless the query was suppressed. -/
def avahi_query_scheduler_post (s : AvahiQueryScheduler) (clock : Nat → Int) (key : Key) (immediately : Bool) :
    Option UInt32 × AvahiQueryScheduler :=
  match find_history_job s (clock 0) key with
  | (some _, s) => (none, s)
  | (none, s) =>
    let tv := clock 1 + if immediately then 0 else AVAHI_QUERY_DEFER_MSEC * 1000
    match find_scheduled_job s key with
    | some i =>
      let s := { s with toSchedule := s.change i (postedAt tv) }
      ((s.jobs[i]?).map AvahiQueryJob.id, s)
    | none =>
      (some s.next_id, { s with
        toSchedule := s.add { id := s.next_id, n_posted := 1, time_event := tv, delivery := tv, key }
        next_id := s.next_id + 1 })

/-- What becomes of a job that others ask too: its time event is set last. -/
def heardAt (clock : Nat → Int) (qj : AvahiQueryJob) : AvahiQueryJob :=
  job_set_elapse_time { qj with delivery := clock 1 } (clock 2) AVAHI_QUERY_HISTORY_MSEC

/-- `avahi_query_scheduler_incoming`. -/
def avahi_query_scheduler_incoming (s : AvahiQueryScheduler) (clock : Nat → Int) (key : Key) : AvahiQueryScheduler :=
  match find_scheduled_job s key with
  | some i => job_mark_done s clock i
  | none =>
    match find_history_job s (clock 0) key with
    | (some i, s) => { s with toSchedule := s.renew i (heardAt clock) }
    | (none, s) => { s with
        toSchedule := s.remember
          (heardAt clock { id := s.next_id, n_posted := 1, time_event := 0, delivery := 0, key })
        next_id := s.next_id + 1 }

/-- The loop of `avahi_query_scheduler_withdraw_by_id`, from a place in the list
    on. It goes on behind a job that others have posted too. -/
def withdrawLoop (id : UInt32) : Nat → Nat → AvahiQueryScheduler → Option (Bool × AvahiQueryScheduler)
  | 0, _, s => some (false, s)
  | turns + 1, i, s =>
    match s.jobs[i]? with
    | none => some (false, s)
    | some qj =>
      if qj.id = id then
        -- the assertion that somebody has posted the job
        if qj.n_posted < 1 then none
        else
          let s := { s with toSchedule := s.change i fun qj => { qj with n_posted := qj.n_posted - 1 } }
          if qj.n_posted - 1 ≤ 0 then some (true, { s with toSchedule := s.cancel i })
          else withdrawLoop id turns (i + 1) s
      else withdrawLoop id turns (i + 1) s

/-- `avahi_query_scheduler_withdraw_by_id`. -/
def avahi_query_scheduler_withdraw_by_id (s : AvahiQueryScheduler) (id : UInt32) : Option (Bool × AvahiQueryScheduler) :=
  withdrawLoop id s.jobs.length 0 s

/-- The scheduler, the packet and the known answers while a packet is put
    together. -/
structure Assembly where
  scheduler : AvahiQueryScheduler
  packet : AvahiDnsPacket
  known_answers : List AvahiRecord

/-- `packet_add_query_job`. `walk` is what the walk through the cache finds for a
    key, in its order. -/
def packet_add_query_job (walk : Key → List AvahiRecord) (clock : Nat → Int) (i : Nat) (a : Assembly) : Bool × Assembly :=
  match a.scheduler.jobs[i]? with
  | none => (false, a)
  | some qj =>
    match avahi_dns_packet_append_key qj.key.val false a.packet with
    | (false, p) => (false, { a with packet := p })
    | (true, p) => (true, {
        scheduler := job_mark_done a.scheduler clock i
        packet := p
        known_answers := (walk qj.key).reverse ++ a.known_answers })

/-- What the clock shows while the `n`-th query is marked as done, which takes two
    readings. -/
def turn (clock : Nat → Int) (n : Nat) : Nat → Int := fun k => clock (2 * n + k)

/-- The loop of `elapse_callback` that fills the packet: the number of queries,
    and what has become of them. -/
def fillLoop (walk : Key → List AvahiRecord) (clock : Nat → Int) : Nat → Nat → Assembly → Nat × Assembly
  | 0, n, a => (n, a)
  | turns + 1, n, a =>
    if a.scheduler.jobs = [] then (n, a)
    else
      match packet_add_query_job walk (turn clock n) 0 a with
      | (false, a) => (n, a)
      | (true, a) => fillLoop walk clock turns (n + 1) a

/-- A packet with its number of answers, as it is sent. -/
def answered (n : Nat) (p : AvahiDnsPacket) : AvahiDnsPacket :=
  avahi_dns_packet_set_field p AVAHI_DNS_FIELD_ANCOUNT (UInt16.ofNat n)

/-- A packet that more packets follow. -/
def truncated (p : AvahiDnsPacket) : AvahiDnsPacket :=
  avahi_dns_packet_set_field p AVAHI_DNS_FIELD_FLAGS
    (avahi_dns_packet_get_field p AVAHI_DNS_FIELD_FLAGS ||| AVAHI_DNS_FLAG_TC)

/-- `append_known_answers_and_send`: the packets that are sent. -/
def append_known_answers_and_send (mtu : Nat) : List AvahiRecord → Nat → AvahiDnsPacket → Option (List AvahiDnsPacket)
  | [], n, p => some [answered n p]
  | ka :: known_answers, n, p => do
    match ← avahi_dns_packet_append_record ka false 0 p with
    | (true, p) => append_known_answers_and_send mtu known_answers (n + 1) p
    | (false, p) =>
      -- the record is too large for any packet
      if avahi_dns_packet_is_empty p then append_known_answers_and_send mtu known_answers n p
      else
        -- the new packet is empty, so that the inner loop ends with its next turn
        match ← avahi_dns_packet_append_record ka false 0 (avahi_dns_packet_new_query mtu) with
        | (true, q) => return answered n (truncated p) :: (← append_known_answers_and_send mtu known_answers 1 q)
        | (false, q) => return answered n (truncated p) :: (← append_known_answers_and_send mtu known_answers 0 q)

/-- `elapse_callback` of a job that waits: the packets that are sent. A query
    that does not fit fails an assertion. -/
def elapse_callback (walk : Key → List AvahiRecord) (mtu : Nat) (clock : Nat → Int) (i : Nat) (s : AvahiQueryScheduler) :
    Option (List AvahiDnsPacket × AvahiQueryScheduler) :=
  match packet_add_query_job walk (turn clock 0) i
      { scheduler := s, packet := avahi_dns_packet_new_query mtu, known_answers := [] } with
  | (false, _) => none
  | (true, a) =>
    let (n, a) := fillLoop walk clock a.scheduler.jobs.length 1 a
    let p := avahi_dns_packet_set_field a.packet AVAHI_DNS_FIELD_QDCOUNT (UInt16.ofNat n)
    (append_known_answers_and_send mtu a.known_answers 0 p).map fun packets => (packets, a.scheduler)

/-- `elapse_callback` of a job that is done. -/
def elapse_callback_done (s : AvahiQueryScheduler) (i : Nat) : AvahiQueryScheduler :=
  { s with toSchedule := s.forget i }

end query

end qtzeroconf.avahi
