import QtZeroConf.Android.Closure

open reactive reactive.Action

namespace qtzeroconf.android.commands

open Threads

/-- Registrations are never mixed: every call of `registerService` has what the
    call of the API asked for that queued it, and no closure reads an instance
    that is destroyed. -/
structure NeverMixed (calls : List Call) (outputs : List Output) : Prop where
  own : ∀ call registration, .registerService call registration ∈ outputs →
    calls[call]? = some (.startServicePublish registration)
  alive : ∀ call, .readDestroyed call ∉ outputs

/-- A call of the API leaves everything as it is that closures have still to
    read. -/
def LeavesUnread (s : Threads) : Event → Prop
  | .startServicePublish name _ _ => s.alive ∧ s.starting.isNone →
    (∃ task ∈ s.registrations, task.name = none) → QString.fromUtf8 name = s.ref.publishName
  | .continueStart => ∀ start, s.starting = some start → start.typeSet = false →
    (∃ task ∈ s.registrations, task.type = none) → start.type = s.ref.publishType
  | .addServiceTxtRecord nameOnly => s.alive ∧ s.starting.isNone → ∀ task ∈ s.registrations,
    task.rest (s.ref.txtRecords.insert nameOnly.toUtf8 []) = task.rest s.ref.txtRecords
  | .addServiceTxtRecordPair name value => s.alive ∧ s.starting.isNone → ∀ task ∈ s.registrations,
    task.rest (s.ref.txtRecords.insert name.toUtf8 value.toUtf8) = task.rest s.ref.txtRecords
  | .clearServiceTxtRecords => s.alive ∧ s.starting.isNone → ∀ task ∈ s.registrations,
    task.rest ∅ = task.rest s.ref.txtRecords
  | .destroy => s.alive ∧ s.starting.isNone → ∀ task ∈ s.registrations, task.Finished
  | _ => True

/-- Every closure that has not called the Java manager yet is about to register
    what its own call asked for, and can read what it has not read. -/
def Ready (s : Threads) : Prop :=
  ∀ task ∈ s.registrations, s.calls[task.call]? = some (.startServicePublish (task.outcome s.ref)) ∧
    (s.alive ∨ task.Finished)

/-- What a call of `startServicePublish` that is under way asks for, as the
    members have it. -/
def Starting.asked (start : Starting) (ref : QZeroConfPrivate) : Registration where
  name := ref.publishName
  type := start.type
  port := start.port
  txtMap := ref.txtRecords.toList

/-- While a call of `startServicePublish` is under way, the members that it has
    set are those it was called with, and the records are those it found. -/
structure Begun (s : Threads) (start : Starting) : Prop where
  alive : s.alive
  asked : s.calls[start.call]? = some (.startServicePublish (start.asked s.ref))
  typeSet : start.typeSet → s.ref.publishType = start.type

/-- What holds of the Qt thread in every state. -/
def Sound (s : Threads) : Prop := ∀ start, s.starting = some start → Begun s start

/-- A step of the Qt thread that leaves the closures where they are keeps them
    ready exactly when they still register the same, on an instance that they
    can read. -/
theorem ready_iff_of_registrations {s s' : Threads} (hready : Ready s)
    (hregistrations : s'.registrations = s.registrations) (hcalls : s.calls <+: s'.calls) :
    Ready s' ↔ ∀ task ∈ s.registrations,
      task.outcome s'.ref = task.outcome s.ref ∧ (s'.alive ∨ task.Finished) := by
  have hasked (task : Registering) (htask : task ∈ s.registrations) :
      s'.calls[task.call]? = some (.startServicePublish (task.outcome s.ref)) := by
    obtain ⟨later, hlater⟩ := hcalls
    have hold := (hready task htask).1
    rw [← hlater, List.getElem?_append_left (List.getElem?_eq_some_iff.mp hold).1, hold]
  rw [Ready, hregistrations]
  refine forall₂_congr fun task htask => and_congr ?_ Iff.rfl
  rw [hasked task htask, Option.some.injEq, Call.startServicePublish.injEq, eq_comm]

/-- A name that is written is seen by a task that has not read it yet. -/
theorem outcome_setName (task : Registering) (ref : QZeroConfPrivate) (publishName : QString) :
    task.outcome { ref with publishName } = task.outcome ref ↔
      (task.name = none → publishName = ref.publishName) := by
  cases hname : task.name <;> simp [Registering.outcome, hname]

/-- A type that is written is seen by a task that has not read it yet. -/
theorem outcome_setType (task : Registering) (ref : QZeroConfPrivate) (publishType : QString) :
    task.outcome { ref with publishType } = task.outcome ref ↔
      (task.type = none → publishType = ref.publishType) := by
  cases htype : task.type <;> simp [Registering.outcome, htype]

/-- Records that are written are seen as far as a task has not copied them. -/
theorem outcome_setTxtRecords (task : Registering) (ref : QZeroConfPrivate)
    (txtRecords : QMap QByteArray QByteArray) :
    task.outcome { ref with txtRecords } = task.outcome ref ↔ task.rest txtRecords = task.rest ref.txtRecords := by
  simp [Registering.outcome]

theorem neverMixed_nil (calls : List Call) : NeverMixed calls [] := ⟨by simp, by simp⟩

/-- Commands that are handed over one after the other. -/
theorem NeverMixed.append {calls calls' : List Call} {outputs outputs' : List Output}
    (h : NeverMixed calls outputs) (h' : NeverMixed calls' outputs') (hcalls : calls <+: calls') :
    NeverMixed calls' (outputs ++ outputs') where
  own call registration hmem := by
    rcases List.mem_append.mp hmem with hmem | hmem
    · obtain ⟨later, rfl⟩ := hcalls
      have hold := h.own call registration hmem
      rw [List.getElem?_append_left (List.getElem?_eq_some_iff.mp hold).1, hold]
    · exact h'.own call registration hmem
  alive call hmem := (List.mem_append.mp hmem).elim (h.alive call) (h'.alive call)

/-- The Android main thread keeps what is ready, and registers what was asked
    for. -/
theorem ready_androidThread {s : Threads} (hready : Ready s) (typeFirst : Bool) :
    Ready (androidThread typeFirst s).1 ∧ NeverMixed s.calls (androidThread typeFirst s).2 := by
  cases hrunning : s.running with
  | some task =>
    obtain ⟨hasked, hreadable⟩ := hready task (mem_registrations.mpr (.inl hrunning))
    by_cases hfinished : task.Finished
    · rw [turn_finished hrunning hfinished]
      refine ⟨fun later hlater => ?_, ?_, by simp⟩
      · refine hready later (mem_registrations.mpr (.inr ?_))
        simpa [mem_registrations] using hlater
      · intro call registration hmem
        cases List.mem_singleton.mp hmem
        exact hasked
    · obtain ⟨task', hturn, hcall, houtcome, -⟩ := turn_unfinished hrunning hfinished typeFirst
      have halive : s.alive = true := hreadable.resolve_right hfinished
      rw [hturn, if_pos halive]
      refine ⟨fun later hlater => ?_, neverMixed_nil _⟩
      rcases mem_registrations.mp hlater with hsame | hqueued
      · cases hsame
        rw [hcall, houtcome]
        exact ⟨hasked, .inl halive⟩
      · exact hready later (mem_registrations.mpr (.inr hqueued))
  | none =>
    unfold androidThread
    rw [hrunning]
    dsimp only
    cases htasks : s.tasks with
    | nil => exact ⟨hready, neverMixed_nil _⟩
    | cons first tasks =>
      have hlater {later : Registering} (h : ∃ t ∈ tasks, t.registering? = some later) :
          s.calls[later.call]? = some (.startServicePublish (later.outcome s.ref)) ∧
            (s.alive ∨ later.Finished) := by
        obtain ⟨t, ht, hsome⟩ := h
        exact hready later (mem_registrations.mpr (.inr ⟨t, htasks ▸ List.mem_cons_of_mem _ ht, hsome⟩))
      cases first with
      | registerService call port =>
        refine ⟨fun later hmem => ?_, neverMixed_nil _⟩
        rcases mem_registrations.mp hmem with hfirst | hrest
        · refine hready later (mem_registrations.mpr (.inr ⟨_, htasks ▸ List.mem_cons_self, ?_⟩))
          exact hfirst
        · exact hlater hrest
      | _ =>
        refine ⟨fun later hmem => ?_, by simp [begin], by simp [begin]⟩
        rcases mem_registrations.mp hmem with hfirst | hrest
        · simp [begin] at hfirst
        · exact hlater hrest

/-- Steps that touch neither the tasks nor what they read. -/
theorem ready_of_same {s s' : Threads} (hready : Ready s) (hregistrations : s'.registrations = s.registrations)
    (hcalls : s.calls <+: s'.calls) (href : s'.ref = s.ref) (halive : s'.alive = s.alive) : Ready s' := by
  rw [ready_iff_of_registrations hready hregistrations hcalls, href, halive]
  exact fun task htask => ⟨rfl, (hready task htask).2⟩

/-- What a call of the API other than `startServicePublish` is limited to: it
    queues no registration, and registers nothing itself. -/
structure Commands (s : Threads) (next : Threads × List Output) : Prop where
  registrations : next.1.registrations = s.registrations
  calls : s.calls <+: next.1.calls
  ref : next.1.ref = s.ref
  alive : next.1.alive = s.alive
  starting : next.1.starting = s.starting
  outputs : ∀ calls, NeverMixed calls next.2

/-- A task that registers nothing may be queued. -/
theorem commands_queue (s : Threads) (call : Call) {task : Nat → Task}
    (htask : (task s.calls.length).registering? = none) : Commands s (queue call task s) where
  registrations := by simp [registrations, queue, htask]
  calls := List.prefix_append ..
  ref := rfl
  alive := rfl
  starting := rfl
  outputs _ := neverMixed_nil _

theorem commands_callMethod (s : Threads) (call : Call) {method : Nat → Output}
    (hmethod : ∀ calls, NeverMixed calls [method s.calls.length]) : Commands s (callMethod call method s) where
  registrations := rfl
  calls := List.prefix_append ..
  ref := rfl
  alive := rfl
  starting := rfl
  outputs := hmethod

theorem commands_skip (s : Threads) : Commands s (s, []) :=
  ⟨rfl, List.prefix_rfl, rfl, rfl, rfl, fun _ => neverMixed_nil _⟩

theorem commands_whileFree {s : Threads} {a : Action Threads Output} (h : Commands s (a s)) :
    Commands s (whileFree a s) := by
  unfold whileFree
  split
  · exact h
  · exact commands_skip s

/-- A stop is called or queued, and registers nothing. -/
theorem commands_stop (s : Threads) {call : Call} {task : Nat → Task} {method : Nat → Output}
    (htask : (task s.calls.length).registering? = none)
    (hmethod : ∀ calls, NeverMixed calls [method s.calls.length]) :
    Commands s (if s.applicationState = .ApplicationSuspended then callMethod call method s
      else queue call task s) := by
  split
  · exact commands_callMethod s call hmethod
  · exact commands_queue s call htask

theorem Commands.ready {s : Threads} {next : Threads × List Output} (h : Commands s next) (hready : Ready s) :
    Ready next.1 :=
  ready_of_same hready h.registrations h.calls h.ref h.alive

/-- An instance that is gone or busy makes no call. -/
theorem ready_whileFree_iff {s : Threads} {a : Action Threads Output} {p : Prop} (hready : Ready s)
    (h : s.alive ∧ s.starting.isNone → (Ready (a s).1 ↔ p)) :
    Ready (whileFree a s).1 ↔ (s.alive ∧ s.starting.isNone → p) := by
  unfold whileFree
  split
  · rename_i hfree
    exact (h hfree).trans ⟨fun hp _ => hp, fun hp => hp hfree⟩
  · rename_i hbusy
    exact iff_of_true hready fun hfree => absurd hfree hbusy

/-- A change of the records does no harm exactly if what the tasks have still to
    copy stays. -/
theorem ready_setTxtRecords_iff {s : Threads} (hready : Ready s)
    (f : QMap QByteArray QByteArray → QMap QByteArray QByteArray) :
    Ready (whileFree (setTxtRecords f) s).1 ↔ (s.alive ∧ s.starting.isNone → ∀ task ∈ s.registrations,
      task.rest (f s.ref.txtRecords) = task.rest s.ref.txtRecords) := by
  refine ready_whileFree_iff hready fun hfree => ?_
  refine Iff.trans (ready_iff_of_registrations hready (by rfl) List.prefix_rfl) (forall₂_congr fun task _ => ?_)
  rw [and_iff_left (.inl hfree.1)]
  exact outcome_setTxtRecords task s.ref (f s.ref.txtRecords)

/-- A call that starts to publish does no harm exactly if the tasks that still
    read the name find the same. -/
theorem ready_startServicePublish_iff {s : Threads} (hready : Ready s) (name type : CString) (port : UInt16) :
    Ready (whileFree (startServicePublish name type port) s).1 ↔
      LeavesUnread s (.startServicePublish name type port) := by
  refine ready_whileFree_iff hready fun hfree => ?_
  refine Iff.trans (ready_iff_of_registrations hready (by rfl) (List.prefix_append ..)) ?_
  have houtcome (task : Registering) :
      task.outcome (startServicePublish name type port s).1.ref = task.outcome s.ref ↔
        (task.name = none → QString.fromUtf8 name = s.ref.publishName) :=
    outcome_setName task s.ref (QString.fromUtf8 name)
  have hreads (task : Registering) : ((startServicePublish name type port s).1.alive ∨ task.Finished) :=
    .inl hfree.1
  simp only [houtcome, and_iff_left (hreads _)]
  exact ⟨fun h ⟨task, htask, hname⟩ => h task htask hname, fun h task htask hname => h ⟨task, htask, hname⟩⟩

/-- Once both members are written, the task is posted. -/
theorem continueStart_posts {s : Threads} {start : Starting} (hstarting : s.starting = some start)
    (htype : start.typeSet = true) :
    continueStart s =
      ({ s with starting := none, tasks := s.tasks ++ [.registerService start.call start.port] }, []) := by
  simp [continueStart, hstarting, htype]

theorem continueStart_setsType {s : Threads} {start : Starting} (hstarting : s.starting = some start)
    (htype : start.typeSet = false) :
    continueStart s = ({ s with
      ref := { s.ref with publishType := start.type }
      starting := some { start with typeSet := true } }, []) := by
  simp [continueStart, hstarting, htype]

/-- A call of `startServicePublish` goes on: it sets the type, and then it queues
    a closure that is about to register what it asked for. -/
theorem ready_continueStart_iff {s : Threads} (hs : Sound s) (hready : Ready s) :
    Ready (continueStart s).1 ↔ LeavesUnread s .continueStart := by
  cases hstarting : s.starting with
  | none =>
    have hskip : continueStart s = (s, []) := by simp [continueStart, hstarting]
    rw [hskip]
    refine iff_of_true hready fun start h => ?_
    rw [hstarting] at h
    cases h
  | some start =>
    obtain ⟨halive, hasked, htypeSet⟩ := hs start hstarting
    have honly : LeavesUnread s .continueStart ↔
        (start.typeSet = false → (∃ task ∈ s.registrations, task.type = none) →
          start.type = s.ref.publishType) := by
      simp only [LeavesUnread, hstarting, Option.some.injEq, forall_eq']
    rw [honly]
    cases htype : start.typeSet with
    | true =>
      rw [continueStart_posts hstarting htype]
      refine iff_of_true (fun task htask => ?_) (by simp)
      rcases mem_registrations.mp htask with hrunning | ⟨t, ht, hsome⟩
      · exact hready task (mem_registrations.mpr (.inl hrunning))
      · rcases List.mem_append.mp ht with hold | hnew
        · exact hready task (mem_registrations.mpr (.inr ⟨t, hold, hsome⟩))
        · cases List.mem_singleton.mp hnew
          cases hsome
          rw [outcome_fresh, htypeSet htype]
          exact ⟨hasked, .inl halive⟩
    | false =>
      rw [continueStart_setsType hstarting htype]
      refine Iff.trans (ready_iff_of_registrations hready (by rfl) List.prefix_rfl) ?_
      have houtcome (task : Registering) := outcome_setType task s.ref start.type
      simp only [houtcome, halive, true_or, and_true, forall_const]
      exact ⟨fun h ⟨task, htask, hnone⟩ => h task htask hnone,
        fun h task htask hnone => h ⟨task, htask, hnone⟩⟩

/-- To destroy an instance does no harm exactly if no task still reads it. -/
theorem ready_destroy_iff {s : Threads} (hready : Ready s) :
    Ready (whileFree (update fun s => { s with alive := false }) s).1 ↔ LeavesUnread s .destroy := by
  refine ready_whileFree_iff hready fun _ => ?_
  refine Iff.trans (ready_iff_of_registrations hready (by rfl) List.prefix_rfl) ?_
  simp

/-- Closures stay ready exactly when the step leaves what they have still to
    read. -/
theorem ready_step_iff {s : Threads} (hs : Sound s) (hready : Ready s) (e : Event) :
    Ready (step s e).1 ↔ LeavesUnread s e := by
  cases e with
  | startServicePublish name type port => exact ready_startServicePublish_iff hready name type port
  | continueStart => exact ready_continueStart_iff hs hready
  | stopServicePublish =>
    exact iff_of_true ((commands_whileFree (commands_stop s rfl fun _ => ⟨by simp, by simp⟩)).ready hready) trivial
  | startBrowser type => exact iff_of_true ((commands_whileFree (commands_queue s _ rfl)).ready hready) trivial
  | stopBrowser =>
    exact iff_of_true ((commands_whileFree (commands_stop s rfl fun _ => ⟨by simp, by simp⟩)).ready hready) trivial
  | addServiceTxtRecord nameOnly => exact ready_setTxtRecords_iff hready _
  | addServiceTxtRecordPair name value => exact ready_setTxtRecords_iff hready _
  | clearServiceTxtRecords => exact ready_setTxtRecords_iff hready _
  | destroy => exact ready_destroy_iff hready
  | applicationStateChanged applicationState =>
    exact iff_of_true (ready_of_same hready rfl List.prefix_rfl rfl rfl) trivial
  | androidThread typeFirst => exact iff_of_true (ready_androidThread hready typeFirst).1 trivial

/-- A call is the only thing that begins to publish. -/
theorem sound_whileFree {s : Threads} {a : Action Threads Output} (hs : Sound s)
    (h : s.starting = none → ∀ start, (a s).1.starting = some start → Begun (a s).1 start) :
    Sound (whileFree a s).1 := by
  unfold whileFree
  split
  · rename_i hfree
    exact h (Option.isNone_iff_eq_none.mp hfree.2)
  · exact hs

theorem Commands.sound {s : Threads} {a : Action Threads Output} (h : Commands s (a s)) (hs : Sound s) :
    Sound (whileFree a s).1 := by
  refine sound_whileFree hs fun hnone start hstart => ?_
  rw [h.starting, hnone] at hstart
  cases hstart

theorem sound_setTxtRecords {s : Threads} (hs : Sound s)
    (f : QMap QByteArray QByteArray → QMap QByteArray QByteArray) : Sound (whileFree (setTxtRecords f) s).1 := by
  refine sound_whileFree hs fun hnone start hstart => ?_
  cases hnone.symm.trans hstart

/-- A call that begins to publish has written its name. -/
theorem sound_startServicePublish {s : Threads} (hs : Sound s) (name type : CString) (port : UInt16) :
    Sound (step s (.startServicePublish name type port)).1 := by
  unfold step whileFree
  dsimp only
  split
  · rename_i hfree
    intro start hstart
    cases hstart
    exact ⟨hfree.1, by simp [startServicePublish, Starting.asked], nofun⟩
  · exact hs

theorem sound_continueStart {s : Threads} (hs : Sound s) : Sound (continueStart s).1 := by
  intro start' hstart'
  cases hstarting : s.starting with
  | none =>
    have hskip : continueStart s = (s, []) := by simp [continueStart, hstarting]
    rw [hskip] at hstart' ⊢
    exact hs start' hstart'
  | some start =>
    obtain ⟨halive, hasked, -⟩ := hs start hstarting
    cases htype : start.typeSet with
    | true =>
      rw [continueStart_posts hstarting htype] at hstart'
      cases hstart'
    | false =>
      rw [continueStart_setsType hstarting htype] at hstart' ⊢
      cases hstart'
      exact ⟨halive, hasked, fun _ => rfl⟩

theorem sound_androidThread {s : Threads} (hs : Sound s) (typeFirst : Bool) :
    Sound (androidThread typeFirst s).1 := by
  obtain ⟨hstarting, halive, hcalls, href⟩ := androidThread_frame typeFirst s
  intro start hstart
  rw [hstarting] at hstart
  obtain ⟨hlive, hasked, htypeSet⟩ := hs start hstart
  exact ⟨halive ▸ hlive, by rw [hcalls, href]; exact hasked, by rw [href]; exact htypeSet⟩

/-- One case for each event of the two threads. -/
theorem sound_step (s : Threads) (e : Event) (hs : Sound s) : Sound (step s e).1 := by
  cases e with
  | startServicePublish name type port => exact sound_startServicePublish hs name type port
  | continueStart => exact sound_continueStart hs
  | stopServicePublish => exact (commands_stop s rfl fun _ => ⟨by simp, by simp⟩).sound hs
  | startBrowser type => exact (commands_queue s (.startBrowser type) rfl).sound hs
  | stopBrowser => exact (commands_stop s rfl fun _ => ⟨by simp, by simp⟩).sound hs
  | addServiceTxtRecord nameOnly => exact sound_setTxtRecords hs _
  | addServiceTxtRecordPair name value => exact sound_setTxtRecords hs _
  | clearServiceTxtRecords => exact sound_setTxtRecords hs _
  | destroy => exact sound_whileFree hs fun hnone start hstart => by cases hnone.symm.trans hstart
  | applicationStateChanged applicationState =>
    intro start hstart
    obtain ⟨halive, hasked, htypeSet⟩ := hs start hstart
    exact ⟨halive, hasked, htypeSet⟩
  | androidThread typeFirst => exact sound_androidThread hs typeFirst

theorem neverMixed_whileFree {s : Threads} {a : Action Threads Output}
    (h : s.calls <+: (a s).1.calls ∧ ∀ calls, NeverMixed calls (a s).2) :
    s.calls <+: (whileFree a s).1.calls ∧ NeverMixed (whileFree a s).1.calls (whileFree a s).2 := by
  unfold whileFree
  split
  · exact ⟨h.1, h.2 _⟩
  · exact ⟨List.prefix_rfl, neverMixed_nil _⟩

/-- A step from a state in which all closures are ready registers what was asked
    for, and forgets no call. -/
theorem neverMixed_step {s : Threads} (hready : Ready s) (e : Event) :
    s.calls <+: (step s e).1.calls ∧ NeverMixed (step s e).1.calls (step s e).2 := by
  have hcommands {a : Action Threads Output} (h : Commands s (a s)) := neverMixed_whileFree ⟨h.calls, h.outputs⟩
  have hsilent {f : Threads → Threads} (h : s.calls <+: (f s).calls) :
      s.calls <+: (whileFree (update f) s).1.calls ∧
        NeverMixed (whileFree (update f) s).1.calls (whileFree (update f) s).2 :=
    neverMixed_whileFree ⟨h, fun calls => neverMixed_nil calls⟩
  cases e with
  | startServicePublish name type port => exact hsilent (List.prefix_append ..)
  | continueStart =>
    simp only [step, continueStart]
    (repeat' split) <;> exact ⟨List.prefix_rfl, neverMixed_nil _⟩
  | stopServicePublish => exact hcommands (commands_stop s rfl fun _ => ⟨by simp, by simp⟩)
  | startBrowser type => exact hcommands (commands_queue s (.startBrowser type) rfl)
  | stopBrowser => exact hcommands (commands_stop s rfl fun _ => ⟨by simp, by simp⟩)
  | addServiceTxtRecord nameOnly => exact hsilent List.prefix_rfl
  | addServiceTxtRecordPair name value => exact hsilent List.prefix_rfl
  | clearServiceTxtRecords => exact hsilent List.prefix_rfl
  | destroy => exact hsilent List.prefix_rfl
  | applicationStateChanged applicationState => exact ⟨List.prefix_rfl, neverMixed_nil _⟩
  | androidThread typeFirst =>
    obtain ⟨-, -, hcalls, -⟩ := androidThread_frame typeFirst s
    have hmixed := (ready_androidThread hready typeFirst).2
    rw [← hcalls] at hmixed
    exact ⟨hcalls ▸ List.prefix_rfl, hmixed⟩

/-- A run that leaves everything that closures have still to read never mixes
    registrations. -/
theorem neverMixed_run {s : Threads} (hs : Sound s) (hready : Ready s) {events : List Event}
    (h : Along step LeavesUnread s events) :
    s.calls <+: (after step s events).calls ∧ NeverMixed (after step s events).calls (trace step s events) := by
  induction events generalizing s with
  | nil => exact ⟨List.prefix_rfl, neverMixed_nil _⟩
  | cons e events ih =>
    obtain ⟨hcalls, hfirst⟩ := neverMixed_step hready e
    obtain ⟨hcalls', hrest⟩ := ih (sound_step s e hs) ((ready_step_iff hs hready e).mpr h.1) h.2
    exact ⟨hcalls.trans hcalls', hfirst.append hrest hcalls'⟩

theorem along_androidOnly {s : Threads} {events : List Event} (h : AndroidOnly events) :
    Along step LeavesUnread s events := by
  induction events generalizing s with
  | nil => trivial
  | cons e events ih =>
    obtain ⟨typeFirst, rfl⟩ := h e List.mem_cons_self
    exact ⟨trivial, ih fun e he => h e (List.mem_cons_of_mem _ he)⟩

/-- Where nothing is mixed however far the Android main thread goes on, every
    closure is ready. -/
theorem ready_of_neverMixed {pre : List Event}
    (h : ∀ rest, AndroidOnly rest → NeverMixed (reached (pre ++ rest)).calls (trace step {} (pre ++ rest))) :
    Ready (reached pre) := by
  intro task htask
  obtain ⟨rest, honly, hregistered, hdestroyed⟩ := exists_completes htask
  obtain ⟨hown, halive⟩ := h rest honly
  have htrace {o : Output} (ho : o ∈ trace step (reached pre) rest) : o ∈ trace step {} (pre ++ rest) := by
    rw [trace_append]
    exact List.mem_append_right _ ho
  constructor
  · have hasked := hown _ _ (htrace hregistered)
    rwa [reached, after_append, calls_androidOnly honly] at hasked
  · by_contra hunreadable
    rw [not_or, Bool.not_eq_true] at hunreadable
    exact halive _ (htrace (hdestroyed hunreadable.1 hunreadable.2))

/-- At every point of a run, however far the Android main thread goes on by
    itself, no registration is mixed and no destroyed instance is read, exactly
    when every call of the API leaves what closures have still to read. -/
theorem neverMixed_iff (events : List Event) :
    (∀ pre, pre <+: events → ∀ rest, AndroidOnly rest →
        NeverMixed (reached (pre ++ rest)).calls (trace step {} (pre ++ rest))) ↔
      Along step LeavesUnread {} events := by
  have hsound : Sound {} := nofun
  have hinitial : Ready {} := by simp [Ready, registrations]
  have hstates : Throughout step Ready {} events ↔ Along step LeavesUnread {} events :=
    throughout_iff_along sound_step (fun s e hs hready => ready_step_iff hs hready e) hsound hinitial events
  constructor
  · intro h
    rw [← hstates, throughout_iff_prefix]
    exact fun pre hpre => ready_of_neverMixed (h pre hpre)
  · rintro h pre ⟨later, rfl⟩ rest honly
    exact (neverMixed_run hsound hinitial (along_append.mpr
      ⟨(along_append.mp h).1, along_androidOnly honly⟩)).2

/-- Two services are published, one right after the other. -/
def publishedTwice : List Event :=
  [.startServicePublish [0x61] [0x74] 80, .continueStart, .continueStart,
    .startServicePublish [0x62] [0x74] 81, .continueStart, .continueStart, .androidThread false,
    .androidThread false, .androidThread false, .androidThread false, .androidThread false]

/-- The first registration has the port of the first call with the name of the
    second one. -/
theorem published_twice_mixed :
    ¬ ∀ pre, pre <+: publishedTwice → ∀ rest, AndroidOnly rest →
      NeverMixed (reached (pre ++ rest)).calls (trace step {} (pre ++ rest)) := by
  intro h
  obtain ⟨hown, -⟩ := h publishedTwice List.prefix_rfl [] androidOnly_nil
  have htrace : trace step {} publishedTwice = [.registerService 0 ⟨[0x62], [0x74], 80, []⟩] := by rfl
  have hasked := hown 0 ⟨[0x62], [0x74], 80, []⟩ (by rw [List.append_nil, htrace]; exact List.mem_singleton_self _)
  have hfirst : (reached publishedTwice).calls[0]? =
      some (.startServicePublish ⟨[0x61], [0x74], 80, []⟩) := by rfl
  rw [List.append_nil, hfirst] at hasked
  cases hasked

end qtzeroconf.android.commands
