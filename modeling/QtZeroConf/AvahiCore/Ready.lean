import QtZeroConf.AvahiCore.Consistent

open reactive handles

namespace qtzeroconf.avahicore

open avahi

/-- While the server is running, every instance is ready and keeps no request
    for later. -/
def EveryoneReady (s : Process) : Prop :=
  ∀ sv, s.server = some sv → sv.state = .AVAHI_SERVER_RUNNING →
    ∀ (i : Nat) (pri : QZeroConfPrivate), s.instances[i]? = some pri →
      pri.publisher.ready = true ∧ pri.publisher.registerWaiting = false

/-- A start on an instance without a group asks a running server for a group at
    once. -/
def SubmitsAtOnce (s : Process) : Event → Prop
  | .call i answer (.startServicePublish r) =>
    ∀ (sv : AvahiServer) (pri : QZeroConfPrivate), s.server = some sv → sv.state = .AVAHI_SERVER_RUNNING →
      s.instances[i]? = some pri → pri.publisher.group = none →
      ∃ group, (i, .publish (.s_entry_group_new group)) ∈
        (step s (.call i answer (.startServicePublish r))).2
  | _ => True

/-- No instance is constructed while the server is running, and when the server
    gets to running there is no other instance than its userdata. -/
def ServesAll (s : Process) : Event → Prop
  | .construct _ => ∀ sv, s.server = some sv → sv.state ≠ .AVAHI_SERVER_RUNNING
  | .serverCallback _ .AVAHI_SERVER_RUNNING =>
    ∀ sv, s.server = some sv → ∀ i, i ∈ s.instances → i = sv.userdata
  | _ => True

variable {s : Process}

/-- An action that keeps an instance ready keeps everyone ready. -/
theorem everyoneReady_on (h : EveryoneReady s) {i : Nat} {a : Action QZeroConfPrivate InstanceOutput}
    (ha : ∀ pri, pri.publisher.ready = true → pri.publisher.registerWaiting = false →
      (a pri).1.publisher.ready = true ∧ (a pri).1.publisher.registerWaiting = false) :
    EveryoneReady (Process.on i a s).1 := by
  cases hpri : s.instances[i]? with
  | none =>
    simp only [Process.on, hpri]
    exact h
  | some pri =>
    simp only [Process.on, hpri]
    intro sv' hsv' hrunning j pri' hj
    obtain ⟨sv, hsv, rfl⟩ := Option.map_eq_some_iff.mp hsv'
    simp only [Std.ExtTreeMap.getElem?_insert, Std.compare_eq_iff_eq] at hj
    split at hj
    · rename_i hij
      subst hij
      cases hj
      obtain ⟨hready, hwaiting⟩ := h sv hsv hrunning i pri hpri
      exact ha pri hready hwaiting
    · exact h sv hsv hrunning j pri' hj

theorem everyoneReady_discovering (h : EveryoneReady s) (i : Nat) (a : Action Discovery Output) :
    EveryoneReady (Process.on i (discovering a) s).1 :=
  everyoneReady_on h fun _ hready hwaiting => ⟨hready, hwaiting⟩

theorem everyoneReady_deliver (h : EveryoneReady s) {o : Object} {kind : Kind}
    {a : Action QZeroConfPrivate InstanceOutput} (ha : EveryoneReady (Process.on o.userdata a s).1) :
    EveryoneReady (Process.deliver o kind a s).1 := by
  unfold Process.deliver
  split
  · exact h
  · split
    · exact ha
    · exact h

/-- A new instance is not ready, which is fine while the server is not running. -/
theorem everyoneReady_construct_iff (hs : Consistent s) (created : Bool) :
    EveryoneReady (construct created s).1 ↔ ServesAll s (.construct created) := by
  by_cases hzero : s.referenceCount = 0
  · refine iff_of_true ?_ fun sv hsv => absurd hzero (hs.counted sv hsv)
    intro sv hsv hrunning
    simp only [construct, hzero, if_true] at hsv
    cases created with
    | false => cases hsv
    | true =>
      cases hsv
      cases hrunning
  · constructor
    · intro h' sv hsv hrunning
      have hserver : (construct created s).1.server = some sv := by simp [construct, hzero, hsv]
      have hnew : (construct created s).1.instances[s.constructed]? = some {} := by simp [construct]
      cases (h' sv hserver hrunning s.constructed {} hnew).1
    · intro hserves sv hsv hrunning
      simp only [construct, hzero, if_false] at hsv
      exact absurd hrunning (hserves sv hsv)

/-- Only the userdata of the server learns that the server is running. -/
theorem everyoneReady_running_iff (hs : Consistent s) (answer : Registration → Answer) :
    EveryoneReady (step s (.serverCallback answer .AVAHI_SERVER_RUNNING)).1 ↔
      ServesAll s (.serverCallback answer .AVAHI_SERVER_RUNNING) := by
  simp only [step, answerEvent, ServesAll]
  cases hsv : s.server with
  | none => exact iff_of_true (fun sv' hsv' => by simp [hsv] at hsv') (by simp)
  | some sv =>
    let t : Process := { s with server := some { sv with state := .AVAHI_SERVER_RUNNING } }
    let a := publishing (serverCallback answer .AVAHI_SERVER_RUNNING)
    change EveryoneReady (Process.on sv.userdata a t).1 ↔ _
    constructor
    · rintro h _ ⟨⟩ i hi
      by_contra hne
      obtain ⟨pri, hpri⟩ := mem_instances_iff.mp hi
      obtain ⟨outputs, hserver⟩ := on_server (i := sv.userdata) (a := a) (s := t)
      have hsame : (Process.on sv.userdata a t).1.instances[i]? = some pri := by
        rw [on_instances, if_neg (Ne.symm hne)]
        exact hpri
      obtain ⟨sv', hsv', huserdata⟩ := hs.ready i pri hpri (h _ hserver rfl i pri hsame).1
      rw [hsv, Option.some.injEq] at hsv'
      exact hne (hsv' ▸ huserdata.symm)
    · intro hserves sv' hsv' _ i pri' hi
      rw [on_instances] at hi
      split at hi
      · obtain ⟨pri, _, rfl⟩ := Option.map_eq_some_iff.mp hi
        exact serverCallback_running answer pri.publisher
      · rename_i hne
        have hmem : i ∈ s.instances := mem_instances_iff.mpr ⟨pri', hi⟩
        exact absurd (hserves sv rfl i hmem).symm hne

theorem everyoneReady_destruct (h : EveryoneReady s) (i : Nat) : EveryoneReady (destruct i s).1 := by
  unfold destruct
  split
  · exact h
  · simp only [Action.andThen_fst, Action.update_apply]
    have hon := everyoneReady_discovering h i broswerCleanUp
    generalize (Process.on i (discovering broswerCleanUp) s).1 = t at hon
    intro sv hsv hrunning j pri hj
    simp only [Std.ExtTreeMap.getElem?_erase] at hj
    split at hsv
    · cases hsv
    · split at hj
      · cases hj
      · exact hon sv hsv hrunning j pri hj

theorem everyoneReady_step_iff (hs : Consistent s) (h : EveryoneReady s) (e : Event) :
    EveryoneReady (step s e).1 ↔ ServesAll s e := by
  cases e with
  | construct created => exact everyoneReady_construct_iff hs created
  | serverCallback answer state =>
    by_cases hrunning : state = .AVAHI_SERVER_RUNNING
    · subst hrunning
      exact everyoneReady_running_iff hs answer
    · refine iff_of_true ?_ ?_
      · -- the server is not running then
        simp only [step, answerEvent]
        cases hsv : s.server with
        | none => exact fun sv' hsv' => by simp [hsv] at hsv'
        | some sv =>
          intro sv' hsv' hrunning'
          obtain ⟨outputs, hserver⟩ := on_server (i := sv.userdata)
            (a := publishing (serverCallback answer state)) (s := { s with server := some { sv with state } })
          rw [hserver] at hsv'
          cases hsv'
          exact absurd hrunning' hrunning
      · cases state <;> trivial
  | destruct i => exact iff_of_true (everyoneReady_destruct h i) trivial
  | call i answer c =>
    refine iff_of_true (everyoneReady_on h fun pri hready hwaiting => ?_) trivial
    refine ⟨(call_ready answer pri.publisher c).trans hready, ?_⟩
    exact (call_registerWaiting answer hready c).trans hwaiting
  | startBrowser i created type protocol =>
    refine iff_of_true ?_ trivial
    simp only [step, answerEvent]
    split
    · exact h
    · exact everyoneReady_discovering h i _
  | stopBrowser i => exact iff_of_true (everyoneReady_discovering h i _) trivial
  | groupCallback group state =>
    refine iff_of_true (everyoneReady_deliver h (everyoneReady_on h fun pri hready hwaiting => ?_)) trivial
    obtain ⟨hready', hwaiting'⟩ := groupCallback_flags group.handle state pri.publisher
    exact ⟨hready'.trans hready, hwaiting'.trans hwaiting⟩
  | browseCallback browser created interface protocol event name type domain =>
    exact iff_of_true (everyoneReady_deliver h (everyoneReady_discovering h _ _)) trivial
  | resolveCallback resolver interface event name type domain =>
    exact iff_of_true (everyoneReady_deliver h (everyoneReady_discovering h _ _)) trivial

/-- An instance that is ready asks for an entry group first of all. -/
theorem registerService_asks (answer : Registration → Answer) (name type : CString) (domain : Option CString)
    (port : UInt16) (interface : UInt32) (p : Publisher) :
    ∃ group, .s_entry_group_new group ∈ (registerService answer name type domain port interface p).2 := by
  unfold registerService
  dsimp only
  generalize answer _ = outcome
  cases outcome <;> exact ⟨_, List.mem_cons_self⟩

theorem submitsAtOnce (h : EveryoneReady s) (e : Event) : SubmitsAtOnce s e := by
  cases e with
  | call i answer c =>
    cases c with
    | startServicePublish r =>
      intro sv pri hsv hrunning hpri hgroup
      have hready := (h sv hsv hrunning i pri hpri).1
      obtain ⟨group, hmem⟩ :=
        registerService_asks answer r.name r.type r.domain r.port r.interface pri.publisher
      refine ⟨group, ?_⟩
      simp only [step, answerEvent]
      rw [on_present hpri]
      simpa [publishing, call, startServicePublish, hgroup, hready] using hmem
    | _ => trivial
  | _ => trivial

/-- In the states of a run everyone is ready while the server is running, and a
    start submits at once then, exactly when no instance is constructed under a
    running server and the server gets to running with its userdata as the only
    instance. -/
theorem everyoneReady_iff (events : List Event) :
    (Throughout step EveryoneReady {} events ↔ Along step ServesAll {} events) ∧
      (Throughout step EveryoneReady {} events → Along step SubmitsAtOnce {} events) := by
  refine ⟨?_, fun h => h.along fun s e hs => submitsAtOnce hs e⟩
  have hstep (s : Process) (e : Event) (hs : Consistent s) (h : EveryoneReady s) :
      EveryoneReady (step s e).1 ↔ ServesAll s e := everyoneReady_step_iff hs h e
  exact throughout_iff_along (fun s e hs => consistent_step hs e) hstep consistent_initial nofun events

/-- An instance that is constructed under a running server is never told. -/
theorem second_instance_not_ready :
    ¬ Throughout step EveryoneReady {}
      [.construct true, .serverCallback acceptAll .AVAHI_SERVER_RUNNING, .construct true] := by
  intro h
  have hready := (h.last _ rfl rfl 1 {} rfl).1
  cases hready

end qtzeroconf.avahicore
