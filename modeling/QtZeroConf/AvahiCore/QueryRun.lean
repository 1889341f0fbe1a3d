import QtZeroConf.AvahiCore.QueryMessage

open scheduling

namespace qtzeroconf.avahi

instance Key.setoid : Setoid Key := ⟨Key.Same, Key.same_equivalence⟩

/-- A question, whatever the case of the letters in its name. -/
abbrev Question : Type := Quotient Key.setoid

/-- The comparison of keys decides whether the question is the same. -/
theorem Key.equalTo_iff (a b : Key) : a.equalTo b = true ↔ (⟦a⟧ : Question) = ⟦b⟧ := by
  obtain ⟨r, hr, hiff⟩ := Key.equal a b
  simp only [Key.equalTo, decide_eq_true_eq]
  rw [hr, Option.some.injEq, hiff]
  exact (Quotient.eq (r := Key.setoid)).symm

namespace query

/-- What a job asks. -/
def question (qj : AvahiQueryJob) : Question := ⟦qj.key⟧

def AVAHI_QUERY_HISTORY_USEC : Int := AVAHI_QUERY_HISTORY_MSEC * 1000

/-- Since when a job counts as asked: for a period from then on, neither its
    time event nor a look at its age lets go of it. -/
def since (qj : AvahiQueryJob) : Int := min qj.delivery (qj.time_event - AVAHI_QUERY_HISTORY_USEC)

/-- The scheduler is quiet: `log` is what was asked, and when. -/
abbrev Calm (s : AvahiQueryScheduler) (now : Int) (log : List (Question × Int)) : Prop :=
  Quiet question since AVAHI_QUERY_HISTORY_USEC s.toSchedule now log

/-- Somebody has posted each job that waits. -/
def Posted (s : AvahiQueryScheduler) : Prop := ∀ qj ∈ s.jobs, 1 ≤ qj.n_posted

/-- What the clock shows during a call that lasts from `now` to `later`, if it does
    not go back. -/
structure Forward (now : Int) (clock : Nat → Int) (later : Int) : Prop where
  start : now ≤ clock 0
  forward : ∀ m n, m ≤ n → clock m ≤ clock n
  stop : ∀ n, clock n ≤ later

variable {s : AvahiQueryScheduler} {now : Int} {log : List (Question × Int)}

/-- A job that is done counts from when its time event was set. -/
theorem since_doneAt {clock : Nat → Int} (hclock : clock 0 ≤ clock 1) (qj : AvahiQueryJob) :
    since (doneAt clock qj) = clock 0 := by
  simp only [since, doneAt, job_set_elapse_time, AVAHI_QUERY_HISTORY_USEC]
  omega

/-- What was sent on the way from one state to another, the last one first: the
    jobs that have come into the history, and what the clock showed when their
    time events were set. -/
def sent (s s' : AvahiQueryScheduler) : List (Key × Int) :=
  (s'.history.take (s'.history.length - s.history.length)).map fun qj =>
    (qj.key, qj.time_event - AVAHI_QUERY_HISTORY_USEC)

/-- The runs of a scheduler, whatever its users, the network and the clock do, as
    long as the clock does not go back: `log` is which questions were sent since
    the scheduler was cleared, and when, the last one first. -/
inductive Run (mtu : Nat) : AvahiQueryScheduler → Int → List (Key × Int) → Prop
  | new (now : Int) : Run mtu avahi_query_scheduler_new now []
  | wait {s : AvahiQueryScheduler} {now later : Int} {log : List (Key × Int)} : Run mtu s now log → now ≤ later →
      Run mtu s later log
  | post {s : AvahiQueryScheduler} {now later : Int} {log : List (Key × Int)} {clock : Nat → Int} (key : Key)
      (immediately : Bool) : Run mtu s now log → Forward now clock later →
      Run mtu (avahi_query_scheduler_post s clock key immediately).2 later log
  | incoming {s : AvahiQueryScheduler} {now later : Int} {log : List (Key × Int)} {clock : Nat → Int} (key : Key) :
      Run mtu s now log → Forward now clock later → Run mtu (avahi_query_scheduler_incoming s clock key) later log
  | withdraw {s s' : AvahiQueryScheduler} {now : Int} {log : List (Key × Int)} {found : Bool} (id : UInt32) :
      Run mtu s now log → avahi_query_scheduler_withdraw_by_id s id = some (found, s') → Run mtu s' now log
  | clear {s : AvahiQueryScheduler} {now : Int} {log : List (Key × Int)} : Run mtu s now log →
      Run mtu (avahi_query_scheduler_clear s) now []
  | elapse_done {s : AvahiQueryScheduler} {now : Int} {log : List (Key × Int)} {i : Nat} : Run mtu s now log →
      (∀ qj, s.history[i]? = some qj → qj.time_event ≤ now) → Run mtu (elapse_callback_done s i) now log
  | elapse {s s' : AvahiQueryScheduler} {now later : Int} {log : List (Key × Int)} {clock : Nat → Int} {i : Nat}
      {walk : Key → List AvahiRecord} {packets : List AvahiDnsPacket} :
      Run mtu s now log → Forward now clock later → elapse_callback walk mtu clock i s = some (packets, s') →
      Run mtu s' later (sent s s' ++ log)

/-- A transmission takes the job that is due and some from the front of the list. -/
theorem elapse_callback_some {walk : Key → List AvahiRecord} {mtu : Nat} {clock : Nat → Int} {i : Nat}
    {packets : List AvahiDnsPacket} {s' : AvahiQueryScheduler} (h : elapse_callback walk mtu clock i s = some (packets, s')) :
    ∃ qj asked, s.jobs[i]? = some qj ∧ s.jobs.eraseIdx i = asked ++ s'.jobs ∧
      s'.history = ((qj :: asked).mapIdx (sentAt clock)).reverse ++ s.history ∧
      ∃ p, append_known_answers_and_send mtu ((qj :: asked).flatMap fun qj => walk qj.key).reverse 0
          (avahi_dns_packet_set_field p AVAHI_DNS_FIELD_QDCOUNT (UInt16.ofNat (qj :: asked).length)) = some packets ∧
        ((∀ qj ∈ s.jobs, qj.key.val.Sendable) → Filling mtu p ((qj :: asked).map fun qj => (qj.key.val, false)) []) := by
  cases hqj : s.jobs[i]? with
  | none =>
    simp only [elapse_callback, packet_add_query_job, hqj] at h
    cases h
  | some qj =>
    rcases elapse_callback_spec walk mtu clock hqj with
      ⟨hnone, -⟩ | ⟨asked, s'', p, hcallback, hjobs, hhistory, -, hfilling⟩
    · rw [hnone] at h
      cases h
    · rw [hcallback] at h
      obtain ⟨packets', hsend, heq⟩ := Option.map_eq_some_iff.mp h
      obtain ⟨rfl, rfl⟩ := Prod.mk.inj heq
      exact ⟨qj, asked, rfl, hjobs, hhistory, p, hsend, hfilling⟩

/-- What was sent, as the jobs have it that were marked. -/
theorem sent_eq {clock : Nat → Int} {asked : List AvahiQueryJob} {s' : AvahiQueryScheduler}
    (h : s'.history = (asked.mapIdx (sentAt clock)).reverse ++ s.history) :
    sent s s' = (asked.mapIdx fun n qj => (qj.key, clock (2 * n))).reverse := by
  have htime (n : Nat) (qj : AvahiQueryJob) : ((sentAt clock n qj).key,
      (sentAt clock n qj).time_event - AVAHI_QUERY_HISTORY_USEC) = (qj.key, clock (2 * n)) := by
    simp only [sentAt, doneAt, turn, job_set_elapse_time, AVAHI_QUERY_HISTORY_USEC, Nat.add_zero,
      Prod.mk.injEq, true_and]
    omega
  rw [sent, h, List.length_append, Nat.add_sub_cancel, List.take_left, List.map_reverse, map_mapIdx]
  simp only [htime]

/-- What holds of a scheduler in every run. -/
structure Tidy (s : AvahiQueryScheduler) (now : Int) (log : List (Key × Int)) : Prop where
  posted : Posted s
  calm : Calm s now (log.map fun e => (⟦e.1⟧, e.2))

/-- What is sent together was not asked for a period. -/
theorem Tidy.elapse {log : List (Key × Int)} (h : Tidy s now log) {clock : Nat → Int} {later : Int}
    (hclock : Forward now clock later) {walk : Key → List AvahiRecord} {mtu i : Nat} {packets : List AvahiDnsPacket}
    {s' : AvahiQueryScheduler} (helapse : elapse_callback walk mtu clock i s = some (packets, s')) :
    Tidy s' later (sent s s' ++ log) := by
  obtain ⟨qj, asked, hqj, hjobs, hhistory, -⟩ := elapse_callback_some helapse
  refine ⟨fun job hjob => h.posted job (List.mem_of_mem_eraseIdx (hjobs ▸ List.mem_append_right asked hjob)), ?_⟩
  have hforward (n : Nat) : turn clock n 0 ≤ turn clock n 1 := hclock.forward _ _ (Nat.le_succ _)
  have hfirst := (h.calm.wait hclock.start).finish (f := sentAt clock 0) hqj rfl (since_doneAt (hforward 0) qj)
  simp only [Schedule.finish, hqj, hjobs] at hfirst
  have hall := hfirst.finish_all (f := fun n => sentAt clock (n + 1)) (t := fun n => clock (2 * (n + 1)))
    (hclock.forward _ _ (Nat.zero_le _)) (fun _ _ hle => hclock.forward _ _ (by omega)) (fun n => hclock.stop _)
    (fun _ _ => rfl) fun n => since_doneAt (hforward (n + 1))
  rw [sent_eq hhistory]
  obtain ⟨⟨jobs, history⟩, next_id⟩ := s'
  dsimp only at hhistory
  subst hhistory
  rw [List.mapIdx_cons, List.reverse_cons, List.append_assoc, List.map_append, List.map_reverse, List.mapIdx_cons,
    List.map_cons, List.reverse_cons, List.append_assoc, map_mapIdx]
  exact hall

end query

end qtzeroconf.avahi
