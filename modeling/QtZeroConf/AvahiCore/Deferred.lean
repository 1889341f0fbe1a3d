import QtZeroConf.AvahiCore.Desk

open reactive

namespace qtzeroconf.avahicore

open avahi

/-- The calls are made first and the server reaches `AVAHI_SERVER_RUNNING`
    after them. -/
def deferred (answer : Registration → Answer) (calls : List Call) : Ledger :=
  ({} : Ledger).records (trace (call answer) {} calls ++
    (serverCallback answer .AVAHI_SERVER_RUNNING (after (call answer) {} calls)).2)

/-- Deferred publishing leaves the same registrations and the same errors as
    immediate publishing. -/
def Agree (answer : Registration → Answer) (calls : List Call) : Prop :=
  (deferred answer calls).held.map (fun entry => entry.2) =
      (immediate answer calls).held.map (fun entry => entry.2) ∧
    (deferred answer calls).errors = (immediate answer calls).errors

/-- A text that is the same after it was kept in a `QString`. -/
def Survives (text : CString) : Prop := (QString.fromUtf8 text).toUtf8.cString = text

/-- The registration that a kept request is replayed with. -/
def Request.replayed (r : Request) (txt : AvahiStringList) : Registration where
  interface := AVAHI_IF_UNSPEC
  name := (QString.fromUtf8 r.name).toUtf8.cString
  type := (QString.fromUtf8 r.type).toUtf8.cString
  domain := some (QString.fromUtf8 (r.domain.getD [])).toUtf8.cString
  port := r.port
  txt := txt

/-- Until the server is running an instance keeps the last request, and no
    other trace of what was called. -/
structure Waiting (s : Publisher) (calls : List Call) : Prop where
  ready : s.ready = false
  group : s.group = none
  txt : s.txt = txtOf calls
  nextGroup : s.nextGroup = 0
  kept : (requests calls = [] ∧ s.registerWaiting = false) ∨
    ∃ r, (requests calls).getLast? = some r ∧ s.registerWaiting = true ∧
      s.name = QString.fromUtf8 r.name ∧ s.type = QString.fromUtf8 r.type ∧
      s.domain = QString.fromUtf8 (r.domain.getD []) ∧ s.port = r.port.toUInt32.toInt32

/-- A call that is no start leaves what is kept alone. -/
theorem Waiting.kept_concat {s : Publisher} {calls : List Call} (h : Waiting s calls) {c : Call}
    (hc : c.request? = none) :
    (requests (calls ++ [c]) = [] ∧ s.registerWaiting = false) ∨
      ∃ r, (requests (calls ++ [c])).getLast? = some r ∧ s.registerWaiting = true ∧
        s.name = QString.fromUtf8 r.name ∧ s.type = QString.fromUtf8 r.type ∧
        s.domain = QString.fromUtf8 (r.domain.getD []) ∧ s.port = r.port.toUInt32.toInt32 := by
  have hrequests : requests (calls ++ [c]) = requests calls := by
    rw [requests_append]
    simp [requests, hc]
  rw [hrequests]
  exact h.kept

theorem waiting_call (answer : Registration → Answer) {s : Publisher} {calls : List Call}
    (h : Waiting s calls) (c : Call) :
    (call answer s c).2 = [] ∧ Waiting (call answer s c).1 (calls ++ [c]) := by
  cases c with
  | startServicePublish r =>
    simp only [call, startServicePublish, h.group, h.ready, Option.isSome_none, Bool.false_eq_true, if_false,
      true_and]
    refine ⟨rfl, rfl, ?_, h.nextGroup, Or.inr ⟨r, ?_, rfl, rfl, rfl, rfl, rfl⟩⟩
    · rw [txtOf_concat]
      exact h.txt
    · rw [requests_append]
      exact List.getLast?_concat
  | stopServicePublish =>
    simp only [call, stopServicePublish, h.group, true_and]
    refine ⟨h.ready, h.group, ?_, h.nextGroup, h.kept_concat rfl⟩
    rw [txtOf_concat]
    exact h.txt
  | addServiceTxtRecord nameOnly =>
    refine ⟨rfl, h.ready, h.group, ?_, h.nextGroup, h.kept_concat rfl⟩
    rw [txtOf_concat, ← h.txt]
    rfl
  | addServiceTxtRecordPair name value =>
    refine ⟨rfl, h.ready, h.group, ?_, h.nextGroup, h.kept_concat rfl⟩
    rw [txtOf_concat, ← h.txt]
    rfl
  | clearServiceTxtRecords =>
    refine ⟨rfl, h.ready, h.group, ?_, h.nextGroup, h.kept_concat rfl⟩
    rw [txtOf_concat]
    rfl

theorem waiting_calls (answer : Registration → Answer) (calls : List Call) :
    trace (call answer) {} calls = [] ∧ Waiting (after (call answer) {} calls) calls := by
  induction calls using List.reverseRecOn with
  | nil => exact ⟨rfl, rfl, rfl, rfl, rfl, Or.inl ⟨rfl, rfl⟩⟩
  | append_singleton calls c ih =>
    obtain ⟨hquiet, hwaiting⟩ := ih
    obtain ⟨hquiet', hwaiting'⟩ := waiting_call answer hwaiting c
    rw [trace_append, after_append, hquiet]
    exact ⟨by simpa using hquiet', hwaiting'⟩

/-- Without a request nothing is submitted when the server gets there. -/
theorem deferred_of_no_request (answer : Registration → Answer) {calls : List Call}
    (h : requests calls = []) : deferred answer calls = {} := by
  obtain ⟨hquiet, hwaiting⟩ := waiting_calls answer calls
  rcases hwaiting.kept with ⟨_, hnone⟩ | ⟨r, hlast, _⟩
  · rw [deferred, hquiet]
    simp [serverCallback, hnone, Ledger.records]
  · rw [h] at hlast
    cases hlast

/-- The last request is the one that is submitted, with the TXT list of that
    time. -/
theorem deferred_of_last_request (answer : Registration → Answer) {calls : List Call} {r : Request}
    (h : (requests calls).getLast? = some r) :
    deferred answer calls =
      if answer (r.replayed (txtOf calls)) = .accepted then { held := [(0, r.replayed (txtOf calls))] }
      else { errors := [.serviceRegistrationFailed] } := by
  obtain ⟨hquiet, hwaiting⟩ := waiting_calls answer calls
  rcases hwaiting.kept with ⟨hnone, _⟩ | ⟨r', hlast, hkept, hname, htype, hdomain, hport⟩
  · rw [hnone] at h
    cases h
  · rw [h, Option.some.injEq] at hlast
    subst hlast
    -- the replay is a request of its own
    let kept : Request :=
      { name := (QString.fromUtf8 r.name).toUtf8.cString
        type := (QString.fromUtf8 r.type).toUtf8.cString
        domain := some (QString.fromUtf8 (r.domain.getD [])).toUtf8.cString
        port := r.port
        interface := 0 }
    let s := after (call answer) {} calls
    have hreplay : (serverCallback answer .AVAHI_SERVER_RUNNING s).2 =
        (registerService answer kept.name kept.type kept.domain kept.port kept.interface
          { s with ready := true, registerWaiting := false }).2 := by
      simp [serverCallback, s, hkept, hname, htype, hdomain, hport, kept]
    have hregistration : kept.registration s.txt = r.replayed (txtOf calls) := by
      rw [show s.txt = txtOf calls from hwaiting.txt]
      rfl
    rw [deferred, hquiet, List.nil_append, hreplay, registerService_records answer kept _ rfl, hregistration,
      show s.nextGroup = 0 from hwaiting.nextGroup]
    rfl

/-- Where there is a last request, the calls split at its start. -/
theorem split_at_last {calls : List Call} {r : Request} (h : (requests calls).getLast? = some r) :
    ∃ pre post, calls = pre ++ .startServicePublish r :: post ∧ requests post = [] := by
  induction calls using List.reverseRecOn with
  | nil => simp [requests] at h
  | append_singleton calls c ih =>
    rw [requests_append] at h
    cases hc : c.request? with
    | none =>
      have hsingle : requests [c] = [] := by simp [requests, hc]
      rw [hsingle, List.append_nil] at h
      obtain ⟨pre, post, hsplit, hpost⟩ := ih h
      refine ⟨pre, post ++ [c], by simp [hsplit], ?_⟩
      rw [requests_append, hpost, hsingle, List.append_nil]
    | some r' =>
      have hsingle : requests [c] = [r'] := by simp [requests, hc]
      rw [hsingle, List.getLast?_concat, Option.some.injEq] at h
      subst h
      refine ⟨calls, [], ?_, rfl⟩
      cases c <;> simp_all [Call.request?]

/-- The split at the last start is the only one. -/
theorem split_unique {pre pre' post post' : List Call} {r r' : Request}
    (h : pre ++ .startServicePublish r :: post = pre' ++ .startServicePublish r' :: post')
    (hpost : requests post = []) (hpost' : requests post' = []) : pre = pre' ∧ r = r' ∧ post = post' := by
  rcases List.append_eq_append_iff.mp h with ⟨mid, hpre, hrest⟩ | ⟨mid, hpre, hrest⟩
  · cases mid with
    | nil => simp_all
    | cons c mid =>
      obtain ⟨_, hpostmid⟩ := List.cons.inj hrest
      simp [hpostmid, requests, Call.request?] at hpost
  · cases mid with
    | nil => simp_all
    | cons c mid =>
      obtain ⟨_, hpostmid⟩ := List.cons.inj hrest
      simp [hpostmid, requests, Call.request?] at hpost'

/-- The calls leave a request unstopped. -/
def Published (calls : List Call) : Prop :=
  ∃ pre r post, calls = pre ++ .startServicePublish r :: post ∧ .stopServicePublish ∉ post

/-- No start comes while an earlier one is not stopped. -/
def Separated (calls : List Call) : Prop :=
  ∀ pre r post, calls = pre ++ .startServicePublish r :: post → ¬ Published pre

/-- A request that is the same after it was kept: on no particular interface
    (`0`, or the value that is cast to `AVAHI_IF_UNSPEC`), in a domain, and with
    texts that survive. -/
def Request.Kept (r : Request) : Prop :=
  (r.interface = 0 ∨ r.interface = 0xFFFFFFFF) ∧ Survives r.name ∧ Survives r.type ∧
    ∃ domain, r.domain = some domain ∧ Survives domain

/-- The last start is not stopped, its request is the same after it was kept,
    and the TXT list at the end is the one it was made with. -/
def LastKept (calls : List Call) : Prop :=
  ∀ pre r post, calls = pre ++ .startServicePublish r :: post → requests post = [] →
    .stopServicePublish ∉ post ∧ r.Kept ∧ txtOf pre = txtOf calls

theorem interface_unspec_iff (interface : UInt32) :
    (if interface = 0 then AVAHI_IF_UNSPEC else interface.toInt32) = AVAHI_IF_UNSPEC ↔
      interface = 0 ∨ interface = 0xFFFFFFFF := by
  unfold AVAHI_IF_UNSPEC
  constructor
  · intro h
    split at h
    · rename_i hzero
      exact Or.inl hzero
    · have hvalue := congrArg Int32.toUInt32 h
      rw [UInt32.toUInt32_toInt32] at hvalue
      exact Or.inr (hvalue.trans (by decide))
  · rintro (rfl | rfl) <;> decide

/-- The replay asks for what was requested exactly when the request is the same
    after it was kept and so is the TXT list. -/
theorem replayed_eq_iff (r : Request) (txt txt' : AvahiStringList) :
    r.replayed txt' = r.registration txt ↔ r.Kept ∧ txt = txt' := by
  have hdomain : some (QString.fromUtf8 (r.domain.getD [])).toUtf8.cString = r.domain ↔
      ∃ domain, r.domain = some domain ∧ Survives domain := by
    cases r.domain <;> simp [Survives]
  have hinterface : AVAHI_IF_UNSPEC = (if r.interface = 0 then AVAHI_IF_UNSPEC else r.interface.toInt32) ↔
      r.interface = 0 ∨ r.interface = 0xFFFFFFFF := by
    rw [← interface_unspec_iff]
    exact eq_comm
  simp only [Request.replayed, Request.registration, Registration.mk.injEq, hinterface, hdomain, true_and,
    Request.Kept, Survives, eq_comm (a := txt')]
  constructor
  · rintro ⟨hinterface, hname, htype, hdomain, htxt⟩
    exact ⟨⟨hinterface, hname, htype, hdomain⟩, htxt⟩
  · rintro ⟨⟨hinterface, hname, htype, hdomain⟩, htxt⟩
    exact ⟨hinterface, hname, htype, hdomain, htxt⟩

/-- A split of calls with one more at the end is at the new call or before it. -/
theorem concat_split {calls pre post : List Call} {c c' : Call} (h : calls ++ [c] = pre ++ c' :: post) :
    (calls = pre ∧ c = c' ∧ post = []) ∨ ∃ post', post = post' ++ [c] ∧ calls = pre ++ c' :: post' := by
  rcases List.eq_nil_or_concat post with rfl | ⟨post', last, rfl⟩
  · obtain ⟨hcalls, hc⟩ := List.append_inj' h rfl
    exact Or.inl ⟨hcalls, List.singleton_inj.mp hc, rfl⟩
  · rw [List.concat_eq_append, ← List.cons_append, ← List.append_assoc] at h
    obtain ⟨hcalls, hc⟩ := List.append_inj' h rfl
    rw [List.concat_eq_append, List.singleton_inj.mp hc]
    exact Or.inr ⟨post', rfl, hcalls⟩

theorem request_isSome {c : Call} (h : c.request?.isSome) : ∃ r, c = .startServicePublish r := by
  cases c with
  | startServicePublish r => exact ⟨r, rfl⟩
  | _ => cases h

theorem published_concat (calls : List Call) (c : Call) :
    Published (calls ++ [c]) ↔ c.request?.isSome ∨ (c ≠ .stopServicePublish ∧ Published calls) := by
  constructor
  · rintro ⟨pre, r, post, hsplit, hstop⟩
    rcases concat_split hsplit with ⟨_, rfl, _⟩ | ⟨post', rfl, hcalls⟩
    · exact Or.inl rfl
    · rw [List.mem_append, List.mem_singleton, not_or] at hstop
      exact Or.inr ⟨Ne.symm hstop.2, pre, r, post', hcalls, hstop.1⟩
  · rintro (hstart | ⟨hc, pre, r, post, hcalls, hstop⟩)
    · obtain ⟨r, rfl⟩ := request_isSome hstart
      exact ⟨calls, r, [], rfl, List.not_mem_nil⟩
    · refine ⟨pre, r, post ++ [c], by simp [hcalls], ?_⟩
      rw [List.mem_append, List.mem_singleton, not_or]
      exact ⟨hstop, Ne.symm hc⟩

theorem separated_concat (calls : List Call) (c : Call) :
    Separated (calls ++ [c]) ↔ Separated calls ∧ (c.request?.isSome → ¬ Published calls) := by
  constructor
  · intro h
    refine ⟨fun pre r post hcalls => h pre r (post ++ [c]) (by simp [hcalls]), fun hstart => ?_⟩
    obtain ⟨r, rfl⟩ := request_isSome hstart
    exact h calls r [] rfl
  · rintro ⟨hseparated, hlast⟩ pre r post hsplit
    rcases concat_split hsplit with ⟨rfl, rfl, _⟩ | ⟨post', _, hcalls⟩
    · exact hlast rfl
    · exact hseparated pre r post' hcalls

/-- When everything is accepted, a registration stands while the calls leave a
    request unstopped. -/
theorem desk_published (calls : List Call) :
    (({} : Desk).calls acceptAll calls).registration.isSome ↔ Published calls := by
  induction calls using List.reverseRecOn with
  | nil => simp [Desk.calls, Published]
  | append_singleton calls c ih =>
    rw [calls_append, published_concat, ← ih]
    generalize ({} : Desk).calls acceptAll calls = d
    cases c with
    | startServicePublish r =>
      cases hd : d.registration <;> simp [Desk.calls, Desk.call, acceptAll, Call.request?, hd]
    | _ => simp [Desk.calls, Desk.call, Call.request?]

/-- When everything is accepted, the only errors are those of starts that are
    not separated. -/
theorem desk_separated (calls : List Call) :
    (({} : Desk).calls acceptAll calls).errors = [] ↔ Separated calls := by
  induction calls using List.reverseRecOn with
  | nil => simp [Desk.calls, Separated]
  | append_singleton calls c ih =>
    rw [calls_append, separated_concat, ← ih, ← desk_published]
    generalize ({} : Desk).calls acceptAll calls = d
    cases c with
    | startServicePublish r =>
      cases hd : d.registration <;> simp [Desk.calls, Desk.call, acceptAll, Call.request?, hd]
    | _ => simp [Desk.calls, Desk.call, Call.request?]

/-- When everything is rejected, every start is an error. -/
theorem desk_rejected (calls : List Call) :
    (({} : Desk).calls rejectAll calls).errors.length = (requests calls).length := by
  induction calls using List.reverseRecOn with
  | nil => rfl
  | append_singleton calls c ih =>
    rw [calls_append, requests_append, List.length_append, ← ih]
    generalize ({} : Desk).calls rejectAll calls = d
    cases c with
    | startServicePublish r => simp [Desk.calls, Desk.call, rejectAll, requests, Call.request?]
    | _ => rfl

/-- What the condition on the last request says at the split there. -/
theorem lastKept_iff {pre post : List Call} {r : Request} (hpost : requests post = []) :
    LastKept (pre ++ .startServicePublish r :: post) ↔
      .stopServicePublish ∉ post ∧ r.Kept ∧ txtOf pre = txtOf (pre ++ .startServicePublish r :: post) := by
  constructor
  · intro h
    exact h pre r post rfl hpost
  · rintro h pre' r' post' hsplit hpost'
    obtain ⟨rfl, rfl, rfl⟩ := split_unique hsplit hpost hpost'
    exact h

theorem no_request {calls : List Call} (h : requests calls = []) {pre post : List Call} {r : Request} :
    calls ≠ pre ++ .startServicePublish r :: post := by
  rintro rfl
  simp [requests, Call.request?] at h

/-- With a server that accepts everything, deferred publishing agrees exactly
    when the starts are separated and the last request is kept. -/
theorem agree_accepted_iff (calls : List Call) :
    Agree acceptAll calls ↔ Separated calls ∧ LastKept calls := by
  obtain ⟨hheld, herrors⟩ := immediate_refines acceptAll calls
  rw [Agree, hheld, herrors]
  cases hlast : (requests calls).getLast? with
  | none =>
    have hnone : requests calls = [] := List.getLast?_eq_none_iff.mp hlast
    obtain ⟨hdesk, hdesk'⟩ := desk_of_no_request acceptAll ({} : Desk) hnone
    rw [deferred_of_no_request acceptAll hnone, hdesk, hdesk', ite_self]
    constructor
    · intro _
      exact ⟨fun pre r post hsplit => absurd hsplit (no_request hnone),
        fun pre r post hsplit => absurd hsplit (no_request hnone)⟩
    · intro _
      exact ⟨rfl, rfl⟩
  | some r =>
    obtain ⟨pre, post, hcalls, hpost⟩ := split_at_last hlast
    rw [deferred_of_last_request acceptAll hlast, acceptAll, if_pos rfl, ← desk_separated, and_comm,
      eq_comm (a := [])]
    refine and_congr_right fun hseparated => ?_
    rw [hcalls, lastKept_iff hpost]
    have hstart : ¬ Published pre := (desk_separated calls).mp hseparated pre r post hcalls
    rw [← desk_published, Option.not_isSome_iff_eq_none] at hstart
    obtain ⟨_, hregistration⟩ := desk_last acceptAll (r := r) hpost hstart
    by_cases hstop : Call.stopServicePublish ∈ post
    · simp [hregistration, hstop]
    · simp [hregistration, hstop, acceptAll, replayed_eq_iff]

/-- At most one start is made. -/
def OneStart (calls : List Call) : Prop := (requests calls).length ≤ 1

/-- A single request that is kept is answered like the immediate one, whatever
    the answer is. -/
theorem agree_of_one_kept (answer : Registration → Answer) {calls : List Call} (hone : OneStart calls)
    (hkept : LastKept calls) : Agree answer calls := by
  obtain ⟨hheld, herrors⟩ := immediate_refines answer calls
  rw [Agree, hheld, herrors]
  cases hlast : (requests calls).getLast? with
  | none =>
    have hnone : requests calls = [] := List.getLast?_eq_none_iff.mp hlast
    obtain ⟨hdesk, hdesk'⟩ := desk_of_no_request answer ({} : Desk) hnone
    rw [deferred_of_no_request answer hnone, hdesk, hdesk', ite_self]
    exact ⟨rfl, rfl⟩
  | some r =>
    obtain ⟨pre, post, hcalls, hpost⟩ := split_at_last hlast
    obtain ⟨hstop, hrequest, htxt⟩ := hkept pre r post hcalls hpost
    have hpre : requests pre = [] := by
      rw [OneStart, hcalls, requests_append, List.length_append] at hone
      have hstart : requests (.startServicePublish r :: post) = r :: requests post := rfl
      rw [hstart, List.length_cons] at hone
      exact List.length_eq_zero_iff.mp (by omega)
    obtain ⟨hdesk, hdesk'⟩ := desk_of_no_request answer ({} : Desk) hpre
    obtain ⟨herrors, hregistration⟩ := desk_last answer (r := r) hpost (hdesk'.trans (ite_self _))
    rw [deferred_of_last_request answer hlast, (replayed_eq_iff r (txtOf pre) _).mpr ⟨hrequest, htxt⟩, hcalls,
      herrors, hregistration, hdesk]
    by_cases haccepted : answer (r.registration (txtOf pre)) = .accepted <;> simp [haccepted, hstop]

/-- Deferred publishing agrees with immediate publishing, for a server that
    accepts every registration, exactly when every start but the first comes
    after a stop of the one before and the last request is kept; and for every
    server exactly when there is one start at most and its request is kept. -/
theorem deferred_agrees_iff (calls : List Call) :
    (Agree acceptAll calls ↔ Separated calls ∧ LastKept calls) ∧
      ((∀ answer, Agree answer calls) ↔ OneStart calls ∧ LastKept calls) := by
  refine ⟨agree_accepted_iff calls, ?_⟩
  constructor
  · intro h
    refine ⟨?_, ((agree_accepted_iff calls).mp (h acceptAll)).2⟩
    obtain ⟨_, herrors⟩ := h rejectAll
    obtain ⟨_, herrors'⟩ := immediate_refines rejectAll calls
    have hlength := desk_rejected calls
    rw [← herrors', ← herrors] at hlength
    rw [OneStart, ← hlength]
    cases hlast : (requests calls).getLast? with
    | none =>
      rw [deferred_of_no_request rejectAll (List.getLast?_eq_none_iff.mp hlast)]
      exact Nat.zero_le 1
    | some r =>
      rw [deferred_of_last_request rejectAll hlast]
      exact Nat.le_refl 1
  · rintro ⟨hone, hkept⟩ answer
    exact agree_of_one_kept answer hone hkept

/-- A request for port 80 on every interface. -/
def webRequest : Request :=
  { name := [0x61], type := [0x5F, 0x68], domain := some [0x6C], port := 80, interface := 0 }

/-- A request that is stopped before the server is running is submitted all the
    same. -/
theorem stopped_request_submitted :
    ¬ Agree acceptAll [.startServicePublish webRequest, .stopServicePublish] := by
  intro h
  exact absurd h.1 (by decide)

end qtzeroconf.avahicore
