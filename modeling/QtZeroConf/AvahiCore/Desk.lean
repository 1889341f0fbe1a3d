import QtZeroConf.AvahiCore.Publish

open reactive

namespace qtzeroconf.avahicore

open avahi

/-- What the outputs of an instance amount to: the registrations that stand
    with the server, under their entry groups, and the error signals. -/
structure Ledger where
  held : List (Nat × Registration) := []
  errors : List error_t := []

def Ledger.record (l : Ledger) : PublishOutput → Ledger
  | .server_add_service_strlst group registration => { l with held := (group, registration) :: l.held }
  | .s_entry_group_free group => { l with held := l.held.filter fun entry => entry.1 ≠ group }
  | .signal (.error e) => { l with errors := l.errors ++ [e] }
  | _ => l

def Ledger.records (l : Ledger) (outputs : List PublishOutput) : Ledger := outputs.foldl Ledger.record l

/-- The server is running when the calls are made. -/
def immediate (answer : Registration → Answer) (calls : List Call) : Ledger :=
  let started := serverCallback answer .AVAHI_SERVER_RUNNING {}
  ({} : Ledger).records (started.2 ++ trace (call answer) started.1 calls)

/-- The request of a start call. -/
def Call.request? : Call → Option Request
  | startServicePublish request => some request
  | _ => none

def requests (calls : List Call) : List Request := calls.filterMap Call.request?

/-- What a call does to the TXT list. -/
def Call.editTxt (txt : AvahiStringList) : Call → AvahiStringList
  | addServiceTxtRecord nameOnly => avahicore.addServiceTxtRecord nameOnly txt
  | addServiceTxtRecordPair name value => avahicore.addServiceTxtRecordPair name value txt
  | clearServiceTxtRecords => []
  | startServicePublish _ | stopServicePublish => txt

/-- The TXT list that calls build up. -/
def txtOf (calls : List Call) : AvahiStringList := calls.foldl Call.editTxt []

/-- The registration a request asks for. -/
def Request.registration (r : Request) (txt : AvahiStringList) : Registration where
  interface := if r.interface = 0 then AVAHI_IF_UNSPEC else r.interface.toInt32
  name := r.name
  type := r.type
  domain := r.domain
  port := r.port
  txt := txt

/-- What publishing is for, without a server that is late: the TXT list, the
    registration that stands and the errors so far. -/
structure Desk where
  txt : AvahiStringList := []
  registration : Option Registration := none
  errors : List error_t := []

/-- A start is refused while a registration stands, and when Avahi rejects it. -/
def Desk.call (answer : Registration → Answer) (d : Desk) : Call → Desk
  | .startServicePublish request =>
    let registration := request.registration d.txt
    if d.registration = none ∧ answer registration = .accepted then
      { d with registration := some registration }
    else { d with errors := d.errors ++ [.serviceRegistrationFailed] }
  | .stopServicePublish => { d with registration := none }
  | c => { d with txt := c.editTxt d.txt }

def Desk.calls (answer : Registration → Answer) (d : Desk) (calls : List Call) : Desk :=
  calls.foldl (Desk.call answer) d

theorem records_append (l : Ledger) (outputs outputs' : List PublishOutput) :
    l.records (outputs ++ outputs') = (l.records outputs).records outputs' :=
  List.foldl_append

/-- Registering without a registration at hand: it stands, or there is an
    error, as Avahi answers. -/
theorem registerService_records (answer : Registration → Answer) (r : Request) (s : Publisher) {l : Ledger}
    (hheld : l.held = []) :
    l.records (registerService answer r.name r.type r.domain r.port r.interface s).2 =
      if answer (r.registration s.txt) = .accepted then
        { l with held := [(s.nextGroup, r.registration s.txt)] }
      else { l with errors := l.errors ++ [.serviceRegistrationFailed] } := by
  obtain ⟨held, errors⟩ := l
  subst hheld
  cases hanswer : answer (r.registration s.txt) <;>
    simp only [Request.registration] at hanswer <;>
    simp [registerService, hanswer, Ledger.records, Ledger.record, registrationFailed, Request.registration]

/-- Registering touches the entry group only. -/
theorem registerService_fst (answer : Registration → Answer) (r : Request) (s : Publisher) :
    ∃ nextGroup, (registerService answer r.name r.type r.domain r.port r.interface s).1 =
      { s with
          group := if answer (r.registration s.txt) = .accepted then some s.nextGroup else none
          nextGroup } := by
  cases hanswer : answer (r.registration s.txt) <;>
    simp only [Request.registration] at hanswer <;>
    simp [registerService, hanswer]

/-- An instance whose server is running, with what it has emitted so far, is at
    the same point as the desk. -/
structure Matches (s : Publisher) (l : Ledger) (d : Desk) : Prop where
  ready : s.ready = true
  txt : s.txt = d.txt
  errors : l.errors = d.errors
  registration : (s.group = none ∧ d.registration = none ∧ l.held = []) ∨
    ∃ group registration, s.group = some group ∧ d.registration = some registration ∧
      l.held = [(group, registration)]

/-- Every call of a running instance does what it does at the desk. -/
theorem matches_call (answer : Registration → Answer) {s : Publisher} {l : Ledger} {d : Desk}
    (h : Matches s l d) (c : Call) :
    Matches (call answer s c).1 (l.records (call answer s c).2) (d.call answer c) := by
  obtain ⟨hready, htxt, herrors, hregistration⟩ := h
  cases c with
  | startServicePublish r =>
    rcases hregistration with ⟨hgroup, hnone, hheld⟩ | ⟨group, registration, hgroup, hsome, hheld⟩
    · have hstart : call answer s (.startServicePublish r) =
          registerService answer r.name r.type r.domain r.port r.interface s := by
        simp [call, startServicePublish, hgroup, hready]
      obtain ⟨nextGroup, hfst⟩ := registerService_fst answer r s
      rw [hstart, registerService_records answer r s hheld, hfst]
      by_cases haccepted : answer (r.registration d.txt) = .accepted
      · simp only [Desk.call, htxt, haccepted, hnone, and_self, if_true]
        exact ⟨hready, rfl, herrors, Or.inr ⟨s.nextGroup, r.registration d.txt, rfl, rfl, rfl⟩⟩
      · simp only [Desk.call, htxt, haccepted, and_false, if_false]
        exact ⟨hready, rfl, by rw [herrors], Or.inl ⟨rfl, hnone, hheld⟩⟩
    · have hstart : call answer s (.startServicePublish r) = (s, [registrationFailed]) := by
        simp [call, startServicePublish, hgroup]
      rw [hstart]
      simp only [Desk.call, hsome, reduceCtorEq, false_and, if_false]
      refine ⟨hready, htxt, ?_, Or.inr ⟨group, registration, hgroup, rfl, hheld⟩⟩
      simp [Ledger.records, Ledger.record, registrationFailed, herrors]
  | stopServicePublish =>
    rcases hregistration with ⟨hgroup, hnone, hheld⟩ | ⟨group, registration, hgroup, hsome, hheld⟩
    · simp only [call, stopServicePublish, hgroup]
      exact ⟨hready, htxt, herrors, Or.inl ⟨hgroup, rfl, hheld⟩⟩
    · simp only [call, stopServicePublish, hgroup]
      refine ⟨hready, htxt, herrors, Or.inl ⟨rfl, rfl, ?_⟩⟩
      simp [Ledger.records, Ledger.record, hheld]
  | addServiceTxtRecord nameOnly =>
    refine ⟨hready, ?_, herrors, hregistration⟩
    simp only [call, Desk.call, Call.editTxt, htxt]
  | addServiceTxtRecordPair name value =>
    refine ⟨hready, ?_, herrors, hregistration⟩
    simp only [call, Desk.call, Call.editTxt, htxt]
  | clearServiceTxtRecords => exact ⟨hready, rfl, herrors, hregistration⟩

theorem matches_calls (answer : Registration → Answer) {s : Publisher} {l : Ledger} {d : Desk}
    (h : Matches s l d) (calls : List Call) :
    Matches (after (call answer) s calls) (l.records (trace (call answer) s calls))
      (d.calls answer calls) := by
  induction calls generalizing s l d with
  | nil => exact h
  | cons c calls ih =>
    rw [after_cons, trace_cons, records_append]
    exact ih (matches_call answer h c)

/-- Immediate publishing refines the desk. -/
theorem immediate_refines (answer : Registration → Answer) (calls : List Call) :
    (immediate answer calls).held.map (fun entry => entry.2) =
        (({} : Desk).calls answer calls).registration.toList ∧
      (immediate answer calls).errors = (({} : Desk).calls answer calls).errors := by
  have hstart : Matches ({ ready := true } : Publisher) ({} : Ledger) ({} : Desk) :=
    ⟨rfl, rfl, rfl, Or.inl ⟨rfl, rfl, rfl⟩⟩
  obtain ⟨_, _, herrors, hregistration⟩ := matches_calls answer hstart calls
  refine ⟨?_, herrors⟩
  change (({} : Ledger).records (trace (call answer) { ready := true } calls)).held.map
    (fun entry => entry.2) = _
  rcases hregistration with ⟨_, hnone, hheld⟩ | ⟨group, registration, _, hsome, hheld⟩
  · rw [hnone, hheld]
    rfl
  · rw [hsome, hheld]
    rfl

theorem requests_append (calls calls' : List Call) :
    requests (calls ++ calls') = requests calls ++ requests calls' :=
  List.filterMap_append

theorem txtOf_concat (calls : List Call) (c : Call) : txtOf (calls ++ [c]) = c.editTxt (txtOf calls) := by
  rw [txtOf, List.foldl_append]
  rfl

theorem calls_append (answer : Registration → Answer) (d : Desk) (calls calls' : List Call) :
    d.calls answer (calls ++ calls') = (d.calls answer calls).calls answer calls' :=
  List.foldl_append

theorem desk_txt (answer : Registration → Answer) (d : Desk) (calls : List Call) :
    (d.calls answer calls).txt = calls.foldl Call.editTxt d.txt := by
  induction calls generalizing d with
  | nil => rfl
  | cons c calls ih =>
    have hcall : (d.call answer c).txt = c.editTxt d.txt := by
      cases c with
      | startServicePublish r =>
        simp only [Desk.call]
        split <;> rfl
      | _ => rfl
    rw [Desk.calls, List.foldl_cons, List.foldl_cons, ← hcall]
    exact ih (d.call answer c)

/-- Calls without a start cause no error, and end the registration exactly when
    there is a stop among them. -/
theorem desk_of_no_request (answer : Registration → Answer) (d : Desk) {calls : List Call}
    (h : requests calls = []) :
    (d.calls answer calls).errors = d.errors ∧
      (d.calls answer calls).registration =
        if .stopServicePublish ∈ calls then none else d.registration := by
  induction calls generalizing d with
  | nil => simp [Desk.calls]
  | cons c calls ih =>
    have hcalls : requests calls = [] := by
      cases c <;> simp_all [requests, Call.request?]
    obtain ⟨herrors, hregistration⟩ := ih (d.call answer c) hcalls
    rw [Desk.calls, List.foldl_cons]
    cases c with
    | startServicePublish r => simp [requests, Call.request?] at h
    | stopServicePublish =>
      refine ⟨herrors, hregistration.trans ?_⟩
      simp [Desk.call]
    | _ =>
      refine ⟨herrors, hregistration.trans ?_⟩
      simp [Desk.call]

/-- Where no registration stands before the last start, its answer and the
    stops after it decide. -/
theorem desk_last (answer : Registration → Answer) {pre post : List Call} {r : Request}
    (hpost : requests post = []) (hnone : (({} : Desk).calls answer pre).registration = none) :
    (({} : Desk).calls answer (pre ++ .startServicePublish r :: post)).errors =
        (if answer (r.registration (txtOf pre)) = .accepted then (({} : Desk).calls answer pre).errors
        else (({} : Desk).calls answer pre).errors ++ [.serviceRegistrationFailed]) ∧
      (({} : Desk).calls answer (pre ++ .startServicePublish r :: post)).registration =
        if answer (r.registration (txtOf pre)) = .accepted ∧ .stopServicePublish ∉ post then
          some (r.registration (txtOf pre))
        else none := by
  have htxt : (({} : Desk).calls answer pre).txt = txtOf pre := desk_txt answer {} pre
  obtain ⟨herrors, hregistration⟩ := desk_of_no_request answer
    ((({} : Desk).calls answer pre).call answer (.startServicePublish r)) hpost
  have hsplit : ({} : Desk).calls answer (pre ++ .startServicePublish r :: post) =
      ((({} : Desk).calls answer pre).call answer (.startServicePublish r)).calls answer post :=
    calls_append answer {} pre (.startServicePublish r :: post)
  rw [hsplit, herrors, hregistration]
  by_cases haccepted : answer (r.registration (txtOf pre)) = .accepted
  · by_cases hstop : Call.stopServicePublish ∈ post <;> simp [Desk.call, hnone, htxt, haccepted, hstop]
  · simp [Desk.call, hnone, htxt, haccepted]

end qtzeroconf.avahicore
