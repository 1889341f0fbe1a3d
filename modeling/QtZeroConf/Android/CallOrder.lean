import QtZeroConf.Android.Commands
import QtZeroConf.Library.Mailbox

open reactive reactive.Action mailbox

namespace qtzeroconf.android.commands

open Threads

/-- A method of the Java manager, as far as it tells the calls apart. -/
inductive Command where
  | registerService
  | unregisterService
  | discoverServices (type : QString)
  | stopServiceDiscovery
  deriving DecidableEq

/-- The method that a call of the API stands for. -/
def Call.command : Call → Command
  | startServicePublish _ => .registerService
  | stopServicePublish => .unregisterService
  | startBrowser type => .discoverServices type
  | stopBrowser => .stopServiceDiscovery

/-- The method that a task will call, with the number of its call. -/
def Task.command : Task → Command × Nat
  | registerService call _ => (.registerService, call)
  | unregisterService call => (.unregisterService, call)
  | discoverServices call type => (.discoverServices type, call)
  | stopServiceDiscovery call => (.stopServiceDiscovery, call)

/-- The method that the Java manager is called for. -/
def Output.command? : Output → Option (Command × Nat)
  | registerService call _ => some (.registerService, call)
  | unregisterService call => some (.unregisterService, call)
  | discoverServices call type => some (.discoverServices type, call)
  | stopServiceDiscovery call => some (.stopServiceDiscovery, call)
  | readDestroyed _ => none

/-- What has reached the Java manager, in order. -/
def executed (outputs : List Output) : List (Command × Nat) := outputs.filterMap Output.command?

namespace Threads

/-- What was asked for, in the order of the calls. -/
def asked (s : Threads) : List (Command × Nat) := (s.calls.map Call.command).zipIdx

/-- What is under way to the Java manager, first to last. -/
def pending (s : Threads) : List (Command × Nat) :=
  (s.running.map fun task => (Command.registerService, task.call)).toList ++ s.tasks.map Task.command ++
    (s.starting.map fun start => (Command.registerService, start.call)).toList

/-- The way to the Java manager as a mailbox. -/
def box (s : Threads) : Mailbox (Command × Nat) where
  sent := s.asked
  waiting := s.pending

end Threads

/-- Commands take effect in the order of the calls: what has reached the Java
    manager is the beginning of what was asked for, and once nothing is under
    way, the last call has had the last effect. -/
structure InCallOrder (events : List Event) : Prop where
  ordered : executed (trace step {} events) <+: (reached events).asked
  settled : (reached events).pending = [] → ∀ call, (reached events).calls.getLast? = some call →
    (executed (trace step {} events)).getLast? = some (call.command, (reached events).calls.length - 1)

/-- A call that stops something while the application is suspended finds nothing
    under way. -/
def StopsClear (s : Threads) : Event → Prop
  | .stopServicePublish | .stopBrowser =>
    s.alive ∧ s.starting.isNone → s.applicationState = .ApplicationSuspended → s.tasks = [] ∧ s.running = none
  | _ => True

/-- What a call of the API does to the mailbox while the Qt thread is free. -/
def sends (s : Threads) (command : Command) (suspendable : Bool) : Op (Command × Nat) :=
  if s.alive ∧ s.starting.isNone then
    if suspendable ∧ s.applicationState = .ApplicationSuspended then .direct (command, s.calls.length)
    else .post (command, s.calls.length)
  else .keep

/-- What an event does to the mailbox. -/
def effect (s : Threads) : Event → Op (Command × Nat)
  | .startServicePublish _ _ _ => sends s .registerService false
  | .stopServicePublish => sends s .unregisterService true
  | .startBrowser type => sends s (.discoverServices type) false
  | .stopBrowser => sends s .stopServiceDiscovery true
  | .androidThread _ =>
    match s.running with
    | some task => if task.keys = some [] ∧ task.name.isSome ∧ task.type.isSome then .deliver else .keep
    | none =>
      match s.tasks with
      | [] | .registerService _ _ :: _ => .keep
      | _ :: _ => .deliver
  | _ => .keep

/-- A call asks for one command. -/
theorem asked_snoc (s : Threads) (call : Call) {t : Threads} (h : t.calls = s.calls ++ [call]) :
    t.asked = s.asked ++ [(call.command, s.calls.length)] := by
  simp [asked, h, List.zipIdx_append]

/-- A step that moves the mailbox as an operation says. -/
structure MovesAs (s : Threads) (next : Threads × List Output) (op : Op (Command × Nat)) : Prop where
  moved : next.1.box = (op.apply s.box).1
  received : executed next.2 = (op.apply s.box).2

theorem movesAs_keep {s s' : Threads} {outputs : List Output} (hcalls : s'.calls = s.calls)
    (hpending : s'.pending = s.pending) (houtputs : executed outputs = []) : MovesAs s (s', outputs) .keep :=
  ⟨by simp [Op.apply, box, asked, hcalls, hpending], houtputs⟩

/-- A call that is queued is sent last, and waits last. -/
theorem movesAs_queue {s : Threads} (hfree : s.starting.isNone) {call : Call} {task : Nat → Task}
    (htask : (task s.calls.length).command = (call.command, s.calls.length)) :
    MovesAs s (queue call task s) (.post (call.command, s.calls.length)) := by
  have hnone : s.starting = none := Option.isNone_iff_eq_none.mp hfree
  have hasked := asked_snoc s call (t := (queue call task s).1) rfl
  refine ⟨?_, rfl⟩
  simp only [box, Op.apply, hasked, pending]
  simp [queue, hnone, htask]

/-- A call that is made at once puts its command through directly. -/
theorem movesAs_callMethod (s : Threads) {call : Call} {method : Nat → Output}
    (hmethod : (method s.calls.length).command? = some (call.command, s.calls.length)) :
    MovesAs s (callMethod call method s) (.direct (call.command, s.calls.length)) := by
  have hasked := asked_snoc s call (t := (callMethod call method s).1) rfl
  refine ⟨?_, by simp [callMethod, executed, hmethod, Op.apply]⟩
  simp only [box, Op.apply, hasked]
  rfl

/-- An instance that is gone or busy moves nothing. -/
theorem movesAs_whileFree {s : Threads} {a : Action Threads Output} {op : Op (Command × Nat)}
    (h : s.alive ∧ s.starting.isNone → MovesAs s (a s) op) :
    MovesAs s (whileFree a s) (if s.alive ∧ s.starting.isNone then op else .keep) := by
  unfold whileFree
  split
  · rename_i hfree
    exact h hfree
  · exact movesAs_keep rfl rfl rfl

/-- A registration is posted, and waits for its turn. -/
theorem movesAs_startServicePublish {s : Threads} (hfree : s.starting.isNone) (name type : CString)
    (port : UInt16) :
    MovesAs s (startServicePublish name type port s) (.post (.registerService, s.calls.length)) := by
  have hnone : s.starting = none := Option.isNone_iff_eq_none.mp hfree
  have hasked := asked_snoc s (.startServicePublish ⟨QString.fromUtf8 name, QString.fromUtf8 type, port,
    s.ref.txtRecords.toList⟩) (t := (startServicePublish name type port s).1) rfl
  refine ⟨?_, rfl⟩
  simp only [box, Op.apply, hasked, pending]
  simp [startServicePublish, hnone, Call.command]

/-- What a call still writes moves no command. -/
theorem movesAs_continueStart (s : Threads) : MovesAs s (continueStart s) .keep := by
  unfold continueStart
  split
  · exact movesAs_keep rfl rfl rfl
  · rename_i start hstarting
    split
    · exact movesAs_keep rfl (by simp [pending, hstarting, Task.command]) rfl
    · exact movesAs_keep rfl (by simp [pending, hstarting]) rfl

/-- What a task reads moves no command. -/
theorem movesAs_read {s : Threads} {task : Registering} (hrunning : s.running = some task)
    {next : QZeroConfPrivate → Registering} (hcall : ∀ ref, (next ref).call = task.call) :
    MovesAs s (read task.call next s) .keep := by
  refine movesAs_keep rfl ?_ ?_
  · simp [pending, hrunning, hcall]
  · cases halive : s.alive <;> simp [executed, Output.command?]

/-- The closure calls the Java manager once it has read everything. -/
theorem movesAs_turn {s : Threads} {task : Registering} (hrunning : s.running = some task) (typeFirst : Bool) :
    MovesAs s (turn typeFirst task s)
      (if task.keys = some [] ∧ task.name.isSome ∧ task.type.isSome then .deliver else .keep) := by
  unfold turn
  cases hkeys : task.keys with
  | none =>
    rw [if_neg (by simp)]
    exact movesAs_read hrunning fun _ => rfl
  | some keys =>
    cases keys with
    | cons key keys =>
      rw [if_neg (by simp)]
      exact movesAs_read hrunning fun _ => rfl
    | nil =>
      cases hname : task.name with
      | none =>
        rw [if_neg (by simp)]
        cases htype : task.type with
        | none => exact movesAs_read hrunning fun ref => by split <;> rfl
        | some type => exact movesAs_read hrunning fun _ => rfl
      | some name =>
        cases htype : task.type with
        | none =>
          rw [if_neg (by simp)]
          exact movesAs_read hrunning fun _ => rfl
        | some type =>
          simp only [Option.isSome_some, and_self, if_true]
          exact ⟨by simp [Op.apply, box, asked, pending, hrunning],
            by simp [Op.apply, box, pending, hrunning, executed, Output.command?]⟩

/-- The Android thread puts through the command at the front. -/
theorem movesAs_androidThread (s : Threads) (typeFirst : Bool) :
    MovesAs s (androidThread typeFirst s) (effect s (.androidThread typeFirst)) := by
  unfold androidThread effect
  cases hrunning : s.running with
  | some task => exact movesAs_turn hrunning typeFirst
  | none =>
    cases htasks : s.tasks with
    | nil => exact movesAs_keep rfl rfl rfl
    | cons task tasks =>
      cases task with
      | registerService call port =>
        exact movesAs_keep rfl (by simp [pending, hrunning, htasks, Task.command]) rfl
      | _ =>
        exact ⟨by simp [begin, Op.apply, box, asked, pending, hrunning, htasks],
          by simp [begin, Op.apply, box, pending, hrunning, htasks, executed, Output.command?, Task.command]⟩

/-- Every event moves the mailbox as its effect says. -/
theorem movesAs_step (s : Threads) (e : Event) : MovesAs s (step s e) (effect s e) := by
  cases e with
  | startServicePublish name type port =>
    refine movesAs_whileFree fun hfree => ?_
    simp only [Bool.false_eq_true, false_and, if_false]
    exact movesAs_startServicePublish hfree.2 name type port
  | continueStart => exact movesAs_continueStart s
  | stopServicePublish =>
    refine movesAs_whileFree fun hfree => ?_
    simp only [stopServicePublish, true_and]
    split
    · exact movesAs_callMethod s rfl
    · exact movesAs_queue hfree.2 rfl
  | startBrowser type =>
    refine movesAs_whileFree fun hfree => ?_
    simp only [startBrowser, Bool.false_eq_true, false_and, if_false]
    exact movesAs_queue hfree.2 rfl
  | stopBrowser =>
    refine movesAs_whileFree fun hfree => ?_
    simp only [stopBrowser, true_and]
    split
    · exact movesAs_callMethod s rfl
    · exact movesAs_queue hfree.2 rfl
  | applicationStateChanged applicationState => exact movesAs_keep rfl rfl rfl
  | androidThread typeFirst => exact movesAs_androidThread s typeFirst
  | _ =>
    unfold step whileFree
    dsimp only
    split <;> exact movesAs_keep rfl rfl rfl

/-- What is handed over directly has the number of the call that does it. -/
theorem direct_of_effect {s : Threads} {e : Event} {command : Command × Nat}
    (h : effect s e = .direct command) : command.2 = s.calls.length := by
  have hsends {asked : Command} {suspendable : Bool} (h : sends s asked suspendable = .direct command) :
      command.2 = s.calls.length := by
    unfold sends at h
    (repeat' split at h) <;> cases h
    rfl
  cases e with
  | startServicePublish name type port => exact hsends h
  | stopServicePublish => exact hsends h
  | startBrowser type => exact hsends h
  | stopBrowser => exact hsends h
  | androidThread typeFirst =>
    simp only [effect] at h
    (repeat' split at h) <;> cases h
  | _ => cases h

theorem moves_box : Moves step (fun s => s.box.Posted) box Output.command? effect where
  invariant s e hs := (movesAs_step s e).moved ▸ hs.apply (effect s e)
  moved s e _ := (movesAs_step s e).moved
  received s e _ := (movesAs_step s e).received
  fresh s e hs := by
    cases heffect : effect s e with
    | direct command =>
      intro hwaiting
      have hnumber := List.snd_lt_of_mem_zipIdx (hs command hwaiting)
      rw [direct_of_effect heffect] at hnumber
      simp at hnumber
    | _ => trivial

/-- Nothing waits when no task is queued or running. -/
theorem pending_eq_nil_iff {s : Threads} (hfree : s.starting.isNone) :
    s.pending = [] ↔ s.tasks = [] ∧ s.running = none := by
  have hnone : s.starting = none := Option.isNone_iff_eq_none.mp hfree
  cases hrunning : s.running <;> simp [pending, hnone, hrunning]

/-- A direct command keeps the order exactly if nothing waits. -/
theorem orderly_effect_iff (s : Threads) (e : Event) : (effect s e).Orderly s.box ↔ StopsClear s e := by
  have hsends (command : Command) : (sends s command true).Orderly s.box ↔
      (s.alive ∧ s.starting.isNone → s.applicationState = .ApplicationSuspended →
        s.tasks = [] ∧ s.running = none) := by
    unfold sends
    by_cases hfree : s.alive ∧ s.starting.isNone
    · rw [if_pos hfree, ← pending_eq_nil_iff hfree.2]
      split
      · rename_i hsuspended
        exact ⟨fun h _ _ => h, fun h => h hfree hsuspended.2⟩
      · rename_i hawake
        exact iff_of_true trivial fun _ hsuspended => absurd ⟨rfl, hsuspended⟩ hawake
    · rw [if_neg hfree]
      exact iff_of_true trivial fun h => absurd h hfree
  have hposts (command : Command) : (sends s command false).Orderly s.box := by
    unfold sends
    split <;> trivial
  cases e with
  | stopServicePublish => exact hsends _
  | stopBrowser => exact hsends _
  | startServicePublish name type port => exact iff_of_true (hposts _) trivial
  | startBrowser type => exact iff_of_true (hposts _) trivial
  | androidThread typeFirst =>
    refine iff_of_true ?_ trivial
    unfold effect
    (repeat' split) <;> trivial
  | _ => exact iff_of_true trivial trivial

theorem getLast?_asked {s : Threads} {call : Call} (h : s.calls.getLast? = some call) :
    s.asked.getLast? = some (call.command, s.calls.length - 1) := by
  obtain ⟨earlier, hcalls⟩ := List.getLast?_eq_some_iff.mp h
  rw [asked_snoc { s with calls := earlier } call hcalls, List.getLast?_concat, hcalls, List.length_append]
  rfl

/-- At every point of a run, commands have taken effect in the order of the
    calls, exactly when no call stops something while the application is
    suspended and an earlier command is still under way. -/
theorem inCallOrder_iff (events : List Event) :
    (∀ pre, pre <+: events → InCallOrder pre) ↔ Along step StopsClear {} events := by
  have hinitial : Accounted ([] : List (Command × Nat)) ({} : Threads).box := rfl
  have hposted : ({} : Threads).box.Posted := by simp [Mailbox.Posted, box, pending]
  have hconditions : Along step (fun s e => (effect s e).Orderly s.box) {} events ↔
      Along step StopsClear {} events :=
    along_congr (I := fun _ => True) (fun _ _ _ _ => trivial) (fun s e _ => orderly_effect_iff s e) trivial events
  have hordered : (∀ pre, pre <+: events → [] ++ executed (trace step {} pre) <+: (after step {} pre).box.sent) ↔
      Along step (fun s e => (effect s e).Orderly s.box) {} events := moves_box.ordered_iff_along hposted hinitial
  rw [← hconditions, ← hordered]
  refine ⟨fun h pre hpre => (h pre hpre).ordered, fun h pre hpre => ⟨h pre hpre, fun hsettled call hlast => ?_⟩⟩
  obtain ⟨rest, rfl⟩ := hpre
  have haccounted : [] ++ executed (trace step {} pre) ++ (reached pre).pending = (reached pre).asked :=
    moves_box.accounted hposted hinitial (along_append.mp (hordered.mp h)).1
  rw [hsettled, List.append_nil, List.nil_append] at haccounted
  rw [haccounted]
  exact getLast?_asked hlast

/-- A service is published and, while its closure waits, the application is
    suspended and the service is stopped; then the Android thread goes on. -/
def stoppedWhenSuspended : List Event :=
  [.startServicePublish [0x61] [0x62] 80, .continueStart, .continueStart,
    .applicationStateChanged .ApplicationSuspended, .stopServicePublish, .androidThread false,
    .androidThread false, .androidThread false, .androidThread false, .androidThread false]

/-- The stop is executed before the start that it should end, and the start is
    what is executed last. -/
theorem suspended_stop_overtakes :
    executed (trace step {} stoppedWhenSuspended) = [(.unregisterService, 1), (.registerService, 0)] ∧
      ¬ ∀ pre, pre <+: stoppedWhenSuspended → InCallOrder pre := by
  have hexecuted : executed (trace step {} stoppedWhenSuspended) =
      [(.unregisterService, 1), (.registerService, 0)] := by decide
  refine ⟨hexecuted, fun h => ?_⟩
  have hordered := (h stoppedWhenSuspended List.prefix_rfl).ordered
  rw [hexecuted] at hordered
  exact absurd hordered (by decide)

end qtzeroconf.android.commands
