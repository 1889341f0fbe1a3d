import QtZeroConf.Android.Commands

open reactive reactive.Action

namespace qtzeroconf.android.commands

open Threads

/-- The entries that a closure has still to put into the Java map, if it goes on
    with these records. -/
def Registering.rest (task : Registering) (txtRecords : QMap QByteArray QByteArray) :
    List (QByteArray × QByteArray) :=
  (task.keys.getD txtRecords.keys).map fun key => (key, txtRecords.getD key [])

/-- What a closure registers if it goes on with the instance as it is. -/
def Registering.outcome (task : Registering) (ref : QZeroConfPrivate) : Registration where
  name := task.name.getD ref.publishName
  type := task.type.getD ref.publishType
  port := task.port
  txtMap := task.txtMap ++ task.rest ref.txtRecords

/-- A closure that has nothing left to read. -/
def Registering.Finished (task : Registering) : Prop :=
  task.keys = some [] ∧ task.name.isSome ∧ task.type.isSome

/-- The closure of `startServicePublish`, before it runs. -/
def Task.registering? : Task → Option Registering
  | registerService call port => some { call, port }
  | _ => none

/-- The closures of `startServicePublish` that have not called the Java manager
    yet. -/
def Threads.registrations (s : Threads) : List Registering :=
  s.running.toList ++ s.tasks.filterMap Task.registering?

/-- Steps of the Android main thread. -/
def AndroidOnly (events : List Event) : Prop := ∀ e ∈ events, ∃ typeFirst, e = .androidThread typeFirst

theorem mem_registrations {s : Threads} {task : Registering} :
    task ∈ s.registrations ↔ s.running = some task ∨ ∃ t ∈ s.tasks, t.registering? = some task := by
  simp [registrations]

/-- The entries of a map are its keys with what is looked up for them. -/
theorem map_keys_getD (m : QMap QByteArray QByteArray) :
    (m.keys.map fun key => (key, m.getD key [])) = m.toList := by
  rw [← Std.ExtTreeMap.map_fst_toList_eq_keys, List.map_map]
  refine (List.map_congr_left fun entry hentry => ?_).trans (List.map_id m.toList)
  have hvalue := Std.ExtTreeMap.mem_toList_iff_getElem?_eq_some.mp hentry
  simp [Std.ExtTreeMap.getD_eq_getD_getElem?, hvalue]

/-- A closure that has begun on records it has not read registers them all. -/
theorem outcome_fresh (call : Nat) (port : UInt16) (ref : QZeroConfPrivate) :
    Registering.outcome { call, port } ref =
      { name := ref.publishName, type := ref.publishType, port, txtMap := ref.txtRecords.toList } := by
  simp [Registering.outcome, Registering.rest, map_keys_getD]

/-- How much a closure has still to read. -/
def Registering.left (task : Registering) (ref : QZeroConfPrivate) : Nat :=
  (match task.keys with
    | none => ref.txtRecords.keys.length + 1
    | some keys => keys.length) + (if task.name.isSome then 0 else 1) + (if task.type.isSome then 0 else 1)

/-- A closure that is not finished reads something, which leaves what it will
    register as it is. -/
theorem turn_unfinished {s : Threads} {task : Registering} (hrunning : s.running = some task)
    (h : ¬ task.Finished) (typeFirst : Bool) :
    ∃ task', androidThread typeFirst s = ({ s with running := some task' },
        if s.alive then [] else [.readDestroyed task.call]) ∧
      task'.call = task.call ∧ task'.outcome s.ref = task.outcome s.ref ∧ task'.left s.ref < task.left s.ref := by
  unfold androidThread
  rw [hrunning]
  dsimp only
  obtain ⟨call, port, keys, txtMap, name, type⟩ := task
  cases keys with
  | none =>
    refine ⟨_, rfl, rfl, ?_, ?_⟩
    · simp [Registering.outcome, Registering.rest]
    · simp [Registering.left]
  | some keys =>
    cases keys with
    | cons key keys =>
      refine ⟨_, rfl, rfl, ?_, ?_⟩
      · simp [Registering.outcome, Registering.rest]
      · simp [Registering.left]
    | nil =>
      cases name with
      | none =>
        cases type with
        | none =>
          refine ⟨_, rfl, ?_, ?_, ?_⟩ <;> cases typeFirst <;>
            simp [Registering.outcome, Registering.rest, Registering.left]
        | some type =>
          exact ⟨_, rfl, rfl, by simp [Registering.outcome, Registering.rest], by simp [Registering.left]⟩
      | some name =>
        cases type with
        | none =>
          exact ⟨_, rfl, rfl, by simp [Registering.outcome, Registering.rest], by simp [Registering.left]⟩
        | some type => exact absurd ⟨rfl, rfl, rfl⟩ h

/-- A closure that is finished calls the Java manager. -/
theorem turn_finished {s : Threads} {task : Registering} (hrunning : s.running = some task)
    (h : task.Finished) (typeFirst : Bool) :
    androidThread typeFirst s =
      ({ s with running := none }, [.registerService task.call (task.outcome s.ref)]) := by
  obtain ⟨call, port, keys, txtMap, name, type⟩ := task
  obtain ⟨rfl, hname, htype⟩ := h
  obtain ⟨name, rfl⟩ := Option.isSome_iff_exists.mp hname
  obtain ⟨type, rfl⟩ := Option.isSome_iff_exists.mp htype
  simp [androidThread, hrunning, turn, Registering.outcome, Registering.rest]

/-- What the Android main thread does to a registration on its own: it calls the
    Java manager with what the closure was about to register, and reads a
    destroyed instance on the way, if it has to. -/
structure Completes (s : Threads) (task : Registering) (events : List Event) : Prop where
  only : AndroidOnly events
  registered : .registerService task.call (task.outcome s.ref) ∈ trace step s events
  destroyed : s.alive = false → ¬ task.Finished → .readDestroyed task.call ∈ trace step s events

theorem androidOnly_nil : AndroidOnly [] := by simp [AndroidOnly]

theorem androidOnly_cons {typeFirst : Bool} {events : List Event} (h : AndroidOnly events) :
    AndroidOnly (.androidThread typeFirst :: events) := by
  intro e he
  rcases List.mem_cons.mp he with rfl | he
  · exact ⟨typeFirst, rfl⟩
  · exact h e he

/-- The closure that runs is completed, and leaves the Android main thread to
    the next task. -/
theorem completes_running {s : Threads} {task : Registering} (hrunning : s.running = some task) :
    ∃ events, Completes s task events ∧ after step s events = { s with running := none } := by
  induction hleft : task.left s.ref using Nat.strong_induction_on generalizing s task with
  | _ left ih =>
    by_cases hfinished : task.Finished
    · have hturn : step s (.androidThread false) = _ := turn_finished hrunning hfinished false
      refine ⟨[.androidThread false], ⟨androidOnly_cons androidOnly_nil, ?_, fun _ h => absurd hfinished h⟩, ?_⟩
      · rw [trace_cons, hturn]
        exact List.mem_append_left _ (List.mem_singleton_self _)
      · rw [after_cons, hturn, after_nil]
    · obtain ⟨task', hturn, hcall, houtcome, hless⟩ := turn_unfinished hrunning hfinished false
      have hstep : step s (.androidThread false) = _ := hturn
      obtain ⟨events, ⟨honly, hregistered, -⟩, hafter⟩ :=
        ih (task'.left s.ref) (hleft ▸ hless) (s := { s with running := some task' }) rfl rfl
      refine ⟨.androidThread false :: events, ⟨androidOnly_cons honly, ?_, fun hdead _ => ?_⟩, ?_⟩
      · rw [trace_cons, hstep]
        refine List.mem_append_right _ ?_
        rwa [hcall, houtcome] at hregistered
      · rw [trace_cons, hstep, hdead]
        exact List.mem_append_left _ (List.mem_singleton_self _)
      · rw [after_cons, hstep, hafter]

theorem Completes.of_later {s t : Threads} {task : Registering} {events later : List Event}
    (hevents : AndroidOnly events) (hafter : after step s events = t) (href : t.ref = s.ref)
    (halive : t.alive = s.alive) (h : Completes t task later) : Completes s task (events ++ later) where
  only e he := (List.mem_append.mp he).elim (hevents e) (h.only e)
  registered := by
    rw [trace_append, hafter]
    exact List.mem_append_right _ (href ▸ h.registered)
  destroyed hdead hunfinished := by
    rw [trace_append, hafter]
    exact List.mem_append_right _ (h.destroyed (halive ▸ hdead) hunfinished)

/-- Every registration is completed in the end if the Android main thread goes
    on alone. -/
theorem exists_completes {s : Threads} {task : Registering} (htask : task ∈ s.registrations) :
    ∃ events, Completes s task events := by
  induction htasks : s.tasks generalizing s with
  | nil =>
    simp only [registrations, htasks, List.filterMap_nil, List.append_nil, Option.mem_toList] at htask
    obtain ⟨events, hcompletes, -⟩ := completes_running htask
    exact ⟨events, hcompletes⟩
  | cons first tasks ih =>
    -- what runs now is completed first, and then the first task begins
    have hqueued {t : Threads} (hidle : t.running = none) (htasks' : t.tasks = first :: tasks)
        (hmem : task ∈ (first :: tasks).filterMap Task.registering?) : ∃ events, Completes t task events := by
      have hbegin : step t (.androidThread false) = begin first { t with tasks } := by
        simp [step, androidThread, hidle, htasks']
      have hnext : task ∈ (begin first { t with tasks }).1.registrations := by
        cases first with
        | registerService call port => simpa [begin, registrations, Task.registering?] using hmem
        | _ => simpa [begin, registrations, hidle, Task.registering?] using hmem
      have hsame : (begin first { t with tasks }).1.ref = t.ref ∧
          (begin first { t with tasks }).1.alive = t.alive ∧
          (begin first { t with tasks }).1.tasks = tasks := by
        cases first <;> exact ⟨rfl, rfl, rfl⟩
      obtain ⟨later, hlater⟩ := ih hnext hsame.2.2
      refine ⟨[.androidThread false] ++ later,
        hlater.of_later (androidOnly_cons androidOnly_nil) ?_ hsame.1 hsame.2.1⟩
      rw [after_cons, hbegin, after_nil]
    cases hrunning : s.running with
    | none =>
      refine hqueued hrunning htasks ?_
      simpa [registrations, hrunning, htasks] using htask
    | some current =>
      obtain ⟨events, hcurrent, hafter⟩ := completes_running hrunning
      rw [registrations, hrunning, htasks] at htask
      rcases List.mem_append.mp htask with hsame | hmem
      · cases List.mem_singleton.mp hsame
        exact ⟨events, hcurrent⟩
      · obtain ⟨later, hlater⟩ := hqueued (t := { s with running := none }) rfl htasks hmem
        exact ⟨events ++ later, hlater.of_later hcurrent.only hafter rfl rfl⟩

/-- What the Android main thread leaves alone. -/
theorem androidThread_frame (typeFirst : Bool) (s : Threads) :
    (androidThread typeFirst s).1.starting = s.starting ∧ (androidThread typeFirst s).1.alive = s.alive ∧
      (androidThread typeFirst s).1.calls = s.calls ∧ (androidThread typeFirst s).1.ref = s.ref := by
  cases hrunning : s.running with
  | some task =>
    by_cases hfinished : task.Finished
    · rw [turn_finished hrunning hfinished]
      exact ⟨rfl, rfl, rfl, rfl⟩
    · obtain ⟨task', hturn, -⟩ := turn_unfinished hrunning hfinished typeFirst
      rw [hturn]
      exact ⟨rfl, rfl, rfl, rfl⟩
  | none =>
    unfold androidThread
    rw [hrunning]
    dsimp only
    split
    · exact ⟨rfl, rfl, rfl, rfl⟩
    · rename_i task tasks _
      cases task <;> exact ⟨rfl, rfl, rfl, rfl⟩

theorem calls_androidOnly {s : Threads} {events : List Event} (h : AndroidOnly events) :
    (after step s events).calls = s.calls := by
  induction events generalizing s with
  | nil => rfl
  | cons e events ih =>
    obtain ⟨typeFirst, rfl⟩ := h e List.mem_cons_self
    rw [after_cons, ih fun e he => h e (List.mem_cons_of_mem _ he)]
    exact (androidThread_frame typeFirst s).2.2.1

end qtzeroconf.android.commands
