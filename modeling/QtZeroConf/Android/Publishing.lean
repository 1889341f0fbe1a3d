import QtZeroConf.Android.Browsing
import QtZeroConf.Android.Commands
import QtZeroConf.Library.Mailbox

open reactive mailbox

namespace qtzeroconf.android.publishing

open browsing (Browsing deliverAll posts)

/-- The registration listener of a manager, as `NsdManager` has it. -/
inductive Listener where
  | free
  | registering
  | active
  deriving DecidableEq

/-- One instance with its two threads, its manager and what `NsdManager` has of
    the manager's registration listener; `unregistering` counts the requests to
    unregister it that are not answered. -/
structure Publishing where
  threads : commands.Threads := {}
  resolver : NsdResolver := {}
  registrationName : Option QString := none
  posted : List Invocation := []
  listener : Listener := .free
  unregistering : Nat := 0

/-- What can happen: the two threads make a step, and the manager is called back
    or the event loop delivers an invocation. With `refused`, `NsdManager` throws
    an `IllegalArgumentException` for what it is asked to register. -/
inductive Event where
  | command (e : commands.Event) (refused : Bool)
  | callback (e : browsing.Event)

/-- The instance and its manager. -/
def Publishing.browsing (s : Publishing) : Browsing where
  resolver := s.resolver
  registrationName := s.registrationName
  posted := s.posted
  ref := s.threads.ref

/-- The callbacks that `NsdManager` makes: a registration is confirmed or fails
    while it is asked for, and a request to unregister is answered once. -/
def Genuine (s : Publishing) : browsing.Event → Prop
  | .registerService _ _ => False
  | .onServiceRegistered _ | .onRegistrationFailed _ => s.listener = .registering
  | .onServiceUnregistered | .onUnregistrationFailed _ => 0 < s.unregistering
  | _ => True

instance (s : Publishing) (e : browsing.Event) : Decidable (Genuine s e) := by
  unfold Genuine
  split <;> infer_instance

/-- What `NsdManager` has of the listener when it makes a callback. -/
def Publishing.answered (s : Publishing) : browsing.Event → Publishing
  | .onServiceRegistered _ => { s with listener := .active }
  | .onRegistrationFailed _ | .onServiceUnregistered => { s with listener := .free, unregistering := 0 }
  | .onUnregistrationFailed _ => { s with unregistering := s.unregistering - 1 }
  | _ => s

section

variable (parse : QString → QHostAddress)

/-- A step of the instance and its manager. -/
def browse (e : browsing.Event) : Action Publishing (Signal QZeroConfServiceData) := fun s =>
  let (next, signals) := browsing.step parse s.browsing e
  ({ s with
      threads := { s.threads with ref := next.ref }
      resolver := next.resolver
      registrationName := next.registrationName
      posted := next.posted }, signals)

/-- A call of the Java manager. `NsdManager` throws when the listener is
    registered already. -/
def managerCall (refused : Bool) : commands.Output → Action Publishing (Signal QZeroConfServiceData)
  | .registerService _ registration => fun s =>
    let illegalArgument := s.listener ≠ .free || refused
    browse parse (.registerService registration.name illegalArgument)
      (if illegalArgument then s else { s with listener := .registering })
  | .unregisterService _ => .update fun s =>
    if s.listener = .free then s else { s with unregistering := s.unregistering + 1 }
  | .discoverServices _ _ | .stopServiceDiscovery _ | .readDestroyed _ => .skip

/-- The instance, its threads and its manager, event by event. -/
def step : Step Publishing Event (Signal QZeroConfServiceData)
  | s, .command e refused =>
    let (threads, outputs) := commands.step s.threads e
    Action.forEach (managerCall parse refused) outputs { s with threads }
  | s, .callback e => if Genuine s e then browse parse e (s.answered e) else (s, [])

/-- The states that an instance reaches. -/
def reached (events : List Event) : Publishing := after (step parse) {} events

end

/-- The instance after everything that is queued is delivered. -/
def Publishing.delivered (s : Publishing) : QZeroConfPrivate × List (Signal QZeroConfServiceData) :=
  deliverAll s.posted s.threads.ref

/-- `publishExists` tells, once everything is delivered, whether the listener has
    an active registration. -/
def Truthful (s : Publishing) : Prop :=
  s.threads.alive → (s.delivered.1.publisherExists ↔ s.listener = .active)

/-- The closure of a start gets to call the manager. -/
def Registers (s : Publishing) (e : commands.Event) : Prop :=
  ∃ call registration, .registerService call registration ∈ (commands.step s.threads e).2

section

variable (parse : QString → QHostAddress)

/-- A start that finds the listener registered is reported as an error. -/
def ReportsRefusal (s : Publishing) : Event → Prop
  | .command e refused => Registers s e → s.listener ≠ .free →
    .error .serviceRegistrationFailed ∈ (step parse s (.command e refused)).1.delivered.2
  | .callback _ => True

/-- In every state `publishExists` tells the truth, and a start that is refused
    is reported. -/
structure PublishTruthful (events : List Event) : Prop where
  truthful : Throughout (step parse) Truthful {} events
  reported : Along (step parse) (ReportsRefusal parse) {} events

end

/-- While a registration is active, no start gets to the manager and no request
    to unregister fails. -/
def KeepsActive (s : Publishing) (e : Event) : Prop :=
  s.threads.alive → s.listener = .active →
    match e with
    | .command e _ => ¬ Registers s e
    | .callback (.onUnregistrationFailed _) => s.unregistering = 0
    | .callback _ => True

/-- What a slot makes of `publisherExists`, if anything. -/
def publishes? : Invocation → Option Bool
  | .onPublisherStateChanged running _ => some running
  | _ => none

theorem publisherExists_deliver (invocation : Invocation) (s : QZeroConfPrivate) :
    (invocation.deliver s).1.publisherExists = (publishes? invocation).getD s.publisherExists := by
  cases invocation with
  | onServiceRemoved name =>
    simp only [Invocation.deliver, QZeroConfPrivate.onServiceRemoved]
    split <;> rfl
  | _ => rfl

/-- The last state of the publisher that was queued comes true, or else the one
    that was delivered stays. -/
theorem publisherExists_deliverAll (invocations : List Invocation) (s : QZeroConfPrivate) :
    (deliverAll invocations s).1.publisherExists = settled publishes? s.publisherExists invocations := by
  induction invocations generalizing s with
  | nil => rfl
  | cons invocation invocations ih =>
    rw [settled_cons, ← publisherExists_deliver]
    exact ih (invocation.deliver s).1

/-- Whether a service will be published once everything is delivered. -/
def willPublish (s : Publishing) : Bool := settled publishes? s.threads.ref.publisherExists s.posted

theorem truthful_iff (s : Publishing) :
    Truthful s ↔ (s.threads.alive → (willPublish s = true ↔ s.listener = .active)) := by
  rw [Truthful, Publishing.delivered, publisherExists_deliverAll, willPublish]

variable {parse : QString → QHostAddress}

/-- A step of the manager changes what will be published by what it queues. -/
theorem willPublish_browse (s : Publishing) (e : browsing.Event) :
    willPublish (browse parse e s).1 = settled publishes? (willPublish s) (posts parse s.browsing e) := by
  have hview (b : Browsing) (h : (browsing.step parse s.browsing e).1 = b) :
      willPublish (browse parse e s).1 = settled publishes? b.ref.publisherExists b.posted := by
    rw [← h]
    rfl
  obtain ⟨invocation, rest, rfl, hposted, hstep⟩ | ⟨hposted, href, -⟩ := browsing.step_cases parse s.browsing e
  · rw [hview _ (congrArg Prod.fst hstep), publisherExists_deliver]
    have hqueue : s.posted = invocation :: rest := hposted
    rw [willPublish, hqueue]
    rfl
  · rw [hview _ rfl, hposted, href, settled_append]
    rfl

/-- What a callback says about the publisher, if anything. -/
def said? : browsing.Event → Option Bool
  | .registerService _ illegalArgument => if illegalArgument then some false else none
  | .onServiceRegistered _ => some true
  | .onRegistrationFailed _ | .onServiceUnregistered | .onUnregistrationFailed _ => some false
  | _ => none

/-- What will be published is what the last callback has said. -/
theorem settled_posts (s : Browsing) (e : browsing.Event) (value : Bool) :
    settled publishes? value (posts parse s e) = (said? e).getD value := by
  cases e with
  | onServiceRegistered serviceInfo =>
    by_cases hname : some serviceInfo.serviceName = s.registrationName
    · rw [posts, if_pos hname]
      rfl
    · rw [posts, if_neg hname]
      rfl
  | onServiceResolved call serviceInfo host =>
    by_cases hasked : browsing.asked s.resolver call = some serviceInfo.serviceName
    · rw [posts, if_pos hasked]
      rfl
    · rw [posts, if_neg hasked]
      rfl
  | registerService name illegalArgument => cases illegalArgument <;> rfl
  | _ => rfl

/-- What a step of the threads leaves alone: it makes one call at most, of an
    instance that stays, and publishes nothing by itself. -/
structure CallsOnce (s : commands.Threads) (next : commands.Threads × List commands.Output) : Prop where
  ref : next.1.ref.publisherExists = s.ref.publisherExists
  alive : next.1.alive → s.alive
  calls : next.2 = [] ∨ next.1.alive = s.alive ∧ ∃ output, next.2 = [output]

section Threads

open commands commands.Threads

theorem callsOnce_silent {s : Threads} {next : Threads × List commands.Output} (hsilent : next.2 = [])
    (href : next.1.ref.publisherExists = s.ref.publisherExists) (halive : next.1.alive → s.alive) :
    CallsOnce s next := ⟨href, halive, .inl hsilent⟩

theorem callsOnce_call {s : Threads} {next : Threads × List commands.Output} {output : commands.Output}
    (hcall : next.2 = [output]) (href : next.1.ref.publisherExists = s.ref.publisherExists)
    (halive : next.1.alive = s.alive) : CallsOnce s next :=
  ⟨href, fun h => halive ▸ h, .inr ⟨halive, output, hcall⟩⟩

theorem callsOnce_whileFree {s : Threads} {call : Action Threads commands.Output} (h : CallsOnce s (call s)) :
    CallsOnce s (whileFree call s) := by
  unfold whileFree
  split
  · exact h
  · exact callsOnce_silent rfl rfl id

theorem callsOnce_read (s : Threads) (call : Nat) (task : QZeroConfPrivate → Registering) :
    CallsOnce s (Threads.read call task s) := by
  unfold Threads.read
  split
  · exact callsOnce_silent rfl rfl id
  · exact callsOnce_call rfl rfl rfl

theorem callsOnce_turn (s : Threads) (typeFirst : Bool) (task : Registering) :
    CallsOnce s (turn typeFirst task s) := by
  obtain ⟨call, port, keys, txtMap, name, type⟩ := task
  unfold turn
  match keys, name, type with
  | none, _, _ => exact callsOnce_read ..
  | some (_ :: _), _, _ => exact callsOnce_read ..
  | some [], some _, some _ => exact callsOnce_call rfl rfl rfl
  | some [], some _, none => exact callsOnce_read ..
  | some [], none, some _ => exact callsOnce_read ..
  | some [], none, none => exact callsOnce_read ..

theorem callsOnce_step (s : Threads) (e : commands.Event) : CallsOnce s (commands.step s e) := by
  cases e with
  | startServicePublish name type port => exact callsOnce_whileFree (callsOnce_silent rfl rfl id)
  | continueStart =>
    simp only [commands.step, continueStart]
    split
    · exact callsOnce_silent rfl rfl id
    · split <;> exact callsOnce_silent rfl rfl id
  | stopServicePublish =>
    refine callsOnce_whileFree ?_
    unfold stopServicePublish
    split
    · exact callsOnce_call rfl rfl rfl
    · exact callsOnce_silent rfl rfl id
  | startBrowser type => exact callsOnce_whileFree (callsOnce_silent rfl rfl id)
  | stopBrowser =>
    refine callsOnce_whileFree ?_
    unfold stopBrowser
    split
    · exact callsOnce_call rfl rfl rfl
    · exact callsOnce_silent rfl rfl id
  | addServiceTxtRecord nameOnly => exact callsOnce_whileFree (callsOnce_silent rfl rfl id)
  | addServiceTxtRecordPair name value => exact callsOnce_whileFree (callsOnce_silent rfl rfl id)
  | clearServiceTxtRecords => exact callsOnce_whileFree (callsOnce_silent rfl rfl id)
  | destroy => exact callsOnce_whileFree (callsOnce_silent rfl rfl fun h => by cases h)
  | applicationStateChanged applicationState => exact callsOnce_silent rfl rfl id
  | androidThread typeFirst =>
    simp only [commands.step, androidThread]
    split
    · exact callsOnce_turn ..
    · split
      · exact callsOnce_silent rfl rfl id
      · rename_i task tasks _
        cases task with
        | registerService call port => exact callsOnce_silent rfl rfl id
        | _ => exact callsOnce_call rfl rfl rfl

end Threads

/-- What will be published is what is active. -/
def Agrees (s : Publishing) : Prop := willPublish s = true ↔ s.listener = .active

theorem agrees_initial : Agrees {} := by simp [Agrees, willPublish]

/-- A call of the manager disagrees with the listener only where it is refused
    for an active registration. -/
theorem agrees_managerCall_iff {s : Publishing} (hs : Agrees s) (refused : Bool) (output : commands.Output) :
    Agrees (managerCall parse refused output s).1 ↔
      (s.listener = .active → ∀ call registration, output ≠ .registerService call registration) := by
  cases output with
  | registerService call registration =>
    simp only [managerCall, Agrees, willPublish_browse, settled_posts]
    cases hlistener : s.listener with
    | free =>
      have hclosed : willPublish s = false := by simpa [Agrees, hlistener] using hs
      cases refused with
      | true => simp [browse, hlistener, said?]
      | false =>
        have hsame : willPublish { s with listener := .registering } = willPublish s := rfl
        simp [browse, hsame, hclosed, said?]
    | registering => simp [browse, hlistener, said?]
    | active => simp [browse, hlistener, said?]
  | unregisterService call =>
    simp only [managerCall, Agrees, Action.update_apply]
    split
    · exact iff_of_true hs (by simp)
    · exact iff_of_true hs (by simp)
  | _ => exact iff_of_true hs (by simp)

theorem alive_managerCall (refused : Bool) (output : commands.Output) (s : Publishing) :
    (managerCall parse refused output s).1.threads.alive = s.threads.alive := by
  cases output with
  | registerService call registration =>
    simp only [managerCall]
    split <;> rfl
  | unregisterService call =>
    simp only [managerCall, Action.update_apply]
    split <;> rfl
  | _ => rfl

theorem truthful_iff_agrees (s : Publishing) : Truthful s ↔ (s.threads.alive → Agrees s) := truthful_iff s

/-- An event of the threads, by the one call of the manager that it makes. -/
theorem truthful_command_iff {s : Publishing} (hs : Truthful s) (e : commands.Event) (refused : Bool) :
    Truthful (step parse s (.command e refused)).1 ↔ KeepsActive s (.command e refused) := by
  obtain ⟨href, halive, hcalls⟩ := callsOnce_step s.threads e
  have hview : willPublish { s with threads := (commands.step s.threads e).1 } = willPublish s := by
    simp only [willPublish, href]
  have hagrees (h : Agrees s) : Agrees { s with threads := (commands.step s.threads e).1 } := by
    rwa [Agrees, hview]
  rw [truthful_iff_agrees] at hs ⊢
  rcases hcalls with hsilent | ⟨hsame, output, hcall⟩
  · have hquiet : ¬ Registers s e := by simp [Registers, hsilent]
    simp only [step, hsilent, Action.forEach_nil]
    exact iff_of_true (fun h => hagrees (hs (halive h))) fun _ _ => hquiet
  · have hregisters : Registers s e ↔ ∃ call registration, output = .registerService call registration := by
      simp [Registers, hcall, eq_comm]
    simp only [step, hcall, Action.forEach_cons, Action.andThen_fst, Action.forEach_nil, KeepsActive, hregisters,
      alive_managerCall, hsame]
    refine imp_congr_right fun h => (agrees_managerCall_iff (hagrees (hs h)) refused output).trans ?_
    simp only [not_exists]

/-- What a callback says about the publisher is what it means for the listener,
    but for a request to unregister that fails. -/
theorem agrees_callback_iff {s : Publishing} (hs : Agrees s) {e : browsing.Event} (hgenuine : Genuine s e) :
    Agrees (browse parse e (s.answered e)).1 ↔
      (s.listener = .active → ∀ errorCode, e ≠ .onUnregistrationFailed errorCode) := by
  have hview : willPublish (s.answered e) = willPublish s := by cases e <;> rfl
  have hlistener : (browse parse e (s.answered e)).1.listener = (s.answered e).listener := rfl
  rw [Agrees, willPublish_browse, settled_posts, hview, hlistener]
  cases e with
  | registerService name illegalArgument => exact absurd hgenuine id
  | onServiceRegistered _ | onRegistrationFailed _ | onServiceUnregistered | onUnregistrationFailed _ =>
    simp [said?, Publishing.answered]
  | _ => exact iff_of_true hs (by simp)

theorem truthful_callback_iff {s : Publishing} (hs : Truthful s) (e : browsing.Event) :
    Truthful (step parse s (.callback e)).1 ↔ KeepsActive s (.callback e) := by
  by_cases hgenuine : Genuine s e
  · rw [truthful_iff_agrees] at hs ⊢
    have halive : (browse parse e (s.answered e)).1.threads.alive = s.threads.alive := by cases e <;> rfl
    simp only [step, hgenuine, if_true, halive, KeepsActive]
    refine imp_congr_right fun h => (agrees_callback_iff (hs h) hgenuine).trans (imp_congr_right fun _ => ?_)
    cases e with
    | onUnregistrationFailed errorCode =>
      have hasked : 0 < s.unregistering := hgenuine
      exact iff_of_false (fun h => h errorCode rfl) (by omega)
    | _ => simp
  · simp only [step, hgenuine, if_false]
    refine iff_of_true hs fun _ _ => ?_
    cases e with
    | onUnregistrationFailed errorCode => exact Nat.eq_zero_of_not_pos hgenuine
    | _ => trivial

theorem truthful_step_iff (s : Publishing) (e : Event) (hs : Truthful s) :
    Truthful (step parse s e).1 ↔ KeepsActive s e := by
  cases e with
  | command e refused => exact truthful_command_iff hs e refused
  | callback e => exact truthful_callback_iff hs e

/-- An exception for a registration ends up as an error. -/
theorem reportsRefusal (s : Publishing) (e : Event) : ReportsRefusal parse s e := by
  cases e with
  | callback e => trivial
  | command e refused =>
    rintro ⟨call, registration, hmem⟩ hlistener
    obtain ⟨-, -, hcalls⟩ := callsOnce_step s.threads e
    rcases hcalls with hsilent | ⟨-, output, hcall⟩
    · rw [hsilent] at hmem
      cases hmem
    · rw [hcall, List.mem_singleton] at hmem
      subst hmem
      have hnext :
          (step parse s (.command e refused)).1.posted = s.posted ++ [.onPublisherStateChanged false true] := by
        simp [step, hcall, managerCall, hlistener, browse, browsing.step, browsing.invoke, Publishing.browsing,
          NativeCall.invocation]
      rw [Publishing.delivered, hnext, deliverAll, Action.forEach_append]
      exact List.mem_append_right _ (List.mem_singleton_self _)

/-- In every state `publishExists` tells the truth, and starts that are refused
    are reported, exactly when no start gets to the manager, and no request to
    unregister fails, while a registration is active. -/
theorem publishTruthful_iff (parse : QString → QHostAddress) (events : List Event) :
    PublishTruthful parse events ↔ Along (step parse) KeepsActive {} events := by
  have hinitial : Truthful {} := (truthful_iff_agrees {}).mpr fun _ => agrees_initial
  have htruthful : Throughout (step parse) Truthful {} events ↔ Along (step parse) KeepsActive {} events :=
    throughout_iff_along (I := fun _ => True) (fun _ _ _ => trivial) (fun s e _ hs => truthful_step_iff s e hs)
      trivial hinitial events
  refine ⟨fun h => htruthful.mp h.truthful, fun h => ⟨htruthful.mpr h, ?_⟩⟩
  exact along_of_invariant (I := fun _ => True) (fun _ _ _ _ => trivial) (fun s e _ _ => reportsRefusal s e) trivial

/-- A start with the steps of the Android main thread that it takes. -/
def startEvents : List Event :=
  let thread : Event := .command (.androidThread false) false
  [.command (.startServicePublish [0x61] [0x74] 80) false, .command .continueStart false,
    .command .continueStart false, thread, thread, thread, thread, thread]

/-- A service is published, confirmed and then published once more. -/
def publishedAgain : List Event :=
  startEvents ++ .callback (.onServiceRegistered { serviceName := [0x61], serviceType := [0x74] }) :: startEvents

/-- A start that is refused for an active registration takes it off. -/
theorem refused_start_unpublishes : ¬ PublishTruthful (fun _ => .null) publishedAgain := by
  intro h
  have hlistener : (reached (fun _ => .null) publishedAgain).listener = .active := by decide
  have hexists : (reached (fun _ => .null) publishedAgain).delivered.1.publisherExists = false := by decide
  have htruthful := (h.truthful.last (by decide)).mpr hlistener
  rw [reached] at hexists
  rw [hexists] at htruthful
  cases htruthful

end qtzeroconf.android.publishing
