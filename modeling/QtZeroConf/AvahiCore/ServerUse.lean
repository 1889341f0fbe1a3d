import QtZeroConf.AvahiCore.Teardown
import QtZeroConf.Library.Linear

open reactive linear

namespace qtzeroconf.avahicore

open avahi

/-- A process with the value of its static pointer and what became of its
    servers. A server is known by the number of the instance that made it. -/
structure SharedServer where
  process : Process := {}
  pointer : Option Nat := none
  servers : Books Nat := unused

/-- The calls that receive the server. -/
def PublishOutput.takesServer : PublishOutput → Bool
  | s_entry_group_new _ | server_add_service_strlst _ _ => true
  | signal _ | s_entry_group_commit _ | s_entry_group_free _ => false

/-- The calls an event makes to publish. -/
def publishCalls (s : Process) (e : Event) : List PublishOutput :=
  (step s e).2.filterMap fun output =>
    match output.2 with
    | .publish output => some output
    | .discover _ => none

/-- A service that a browser reports is new to its instance, which asks for a
    resolver then. -/
def AsksForResolver (s : Process) (browser : Object) (key : QString) : Prop :=
  ∃ sv ∈ s.server, browser ∈ sv.objects ∧ browser.kind = .serviceBrowser ∧
    ∃ pri ∈ s.instances[browser.userdata]?, ¬ pri.discovery.resolvers.contains key

instance (s : Process) (browser : Object) (key : QString) : Decidable (AsksForResolver s browser key) := by
  unfold AsksForResolver
  infer_instance

/-- What an event does with the static pointer. Browsers and resolvers are asked
    for with it whether or not they can be created. -/
def serverCalls (s : SharedServer) (e : Event) : List (Use Nat) :=
  match e with
  | .construct created =>
    if s.process.referenceCount = 0 ∧ created then [.acquire s.process.constructed] else []
  | .destruct i =>
    if i ∈ s.process.instances ∧ s.process.referenceCount - 1 = 0 then [.release s.pointer] else []
  | .startBrowser i _ _ _ => if i ∈ s.process.instances then [.pass s.pointer] else []
  | .browseCallback browser _ interface _ .AVAHI_BROWSER_NEW name _ _ =>
    if AsksForResolver s.process browser (discoveryKey name interface) then [.pass s.pointer] else []
  | .call _ _ _ | .serverCallback _ _ =>
    ((publishCalls s.process e).filter PublishOutput.takesServer).map fun _ => .pass s.pointer
  | _ => []

/-- The static pointer after an event. It is not reset when its server is freed. -/
def nextPointer (s : SharedServer) : Event → Option Nat
  | .construct created =>
    if s.process.referenceCount = 0 then if created then some s.process.constructed else none
    else s.pointer
  | _ => s.pointer

/-- A process, step by step, with its static pointer. -/
def useStep : Step SharedServer Event ProcessOutput := fun s e =>
  ({ process := (step s.process e).1
     pointer := nextPointer s e
     servers := applyAll s.servers (serverCalls s e) }, (step s.process e).2)

/-- Without a server, the two starts of an instance report an error and change
    nothing. -/
def ReportsAbsence (s : SharedServer) : Event → Prop
  | .startBrowser i created type protocol =>
    i ∈ s.process.instances → s.process.server = none →
      step s.process (.startBrowser i created type protocol) =
        (s.process, [(i, .discover (.signal (.error .browserFailed)))])
  | .call i answer (.startServicePublish r) =>
    i ∈ s.process.instances → s.process.server = none →
      step s.process (.call i answer (.startServicePublish r)) = (s.process, [(i, .publish registrationFailed)])
  | _ => True

/-- In every run the reference count counts the instances, the server is used
    while it lives, and its absence is reported. -/
structure ServerUsed (events : List Event) : Prop where
  counted : Throughout useStep (fun s => s.process.referenceCount = s.process.instances.size) {} events
  linear : Linear unused (noted useStep serverCalls {} events)
  reported : Along useStep ReportsAbsence {} events

/-- An instance starts browsing or publishing, and the last instance goes, only
    while there is a server. -/
def ServerPresent (s : SharedServer) : Event → Prop
  | .startBrowser i _ _ _ | .call i _ (.startServicePublish _) =>
    i ∈ s.process.instances → s.process.server ≠ none
  | .destruct i => i ∈ s.process.instances → s.process.referenceCount = 1 → s.process.server ≠ none
  | _ => True

/-- The pointer is the server that lives, or null where none could be made, and
    the instances without a server have published nothing. -/
structure PointerSound (s : SharedServer) : Prop where
  consistent : Consistent s.process
  present : ∀ sv, s.process.server = some sv → s.pointer = some sv.userdata ∧ s.servers sv.userdata = .live
  absent : s.process.server = none → s.process.referenceCount ≠ 0 → s.pointer = none
  idle : s.process.server = none → ∀ (i : Nat) (pri : QZeroConfPrivate), s.process.instances[i]? = some pri →
    pri.publisher.group = none
  fresh : ∀ i, s.process.constructed ≤ i → s.servers i = .fresh

theorem pointerSound_initial : PointerSound {} where
  consistent := consistent_initial
  present := fun sv h => by cases h
  absent := fun _ h => absurd rfl h
  idle := by simp
  fresh := fun _ _ => rfl

/-- What leaves the counts and the server of a process alone. -/
structure KeepsServer (s t : Process) : Prop where
  constructed : t.constructed = s.constructed
  count : t.referenceCount = s.referenceCount
  userdata : t.server.map AvahiServer.userdata = s.server.map AvahiServer.userdata

theorem keepsServer_refl (s : Process) : KeepsServer s s := ⟨rfl, rfl, rfl⟩

theorem keepsServer_on (i : Nat) (a : Action QZeroConfPrivate InstanceOutput) (s : Process) :
    KeepsServer s (Process.on i a s).1 := by
  refine ⟨on_constructed, on_referenceCount, ?_⟩
  obtain ⟨outputs, hserver⟩ := on_server (i := i) (a := a) (s := s)
  rw [hserver, Option.map_map]
  rfl

theorem keepsServer_deliver (o : Object) (kind : Kind) (a : Action QZeroConfPrivate InstanceOutput)
    (s : Process) : KeepsServer s (Process.deliver o kind a s).1 := by
  unfold Process.deliver
  split
  · exact keepsServer_refl s
  · split
    · exact keepsServer_on _ _ s
    · exact keepsServer_refl s

/-- Only constructors and destructors do more to the server than use it. -/
theorem keepsServer_step (s : Process) {e : Event} (hconstruct : ∀ created, e ≠ .construct created)
    (hdestruct : ∀ i, e ≠ .destruct i) : KeepsServer s (step s e).1 := by
  cases e with
  | construct created => exact absurd rfl (hconstruct created)
  | destruct i => exact absurd rfl (hdestruct i)
  | call i answer c => exact keepsServer_on _ _ s
  | startBrowser i created type protocol =>
    simp only [step, answerEvent]
    split
    · exact keepsServer_refl s
    · exact keepsServer_on _ _ s
  | stopBrowser i => exact keepsServer_on _ _ s
  | serverCallback answer state =>
    simp only [step, answerEvent]
    split
    · exact keepsServer_refl s
    · rename_i sv hsv
      have hon := keepsServer_on sv.userdata (publishing (serverCallback answer state))
        { s with server := some { sv with state } }
      refine ⟨hon.constructed, hon.count, hon.userdata.trans ?_⟩
      rw [hsv]
      rfl
  | groupCallback group state => exact keepsServer_deliver _ _ _ s
  | browseCallback browser created interface protocol event name type domain => exact keepsServer_deliver _ _ _ s
  | resolveCallback resolver interface event name type domain => exact keepsServer_deliver _ _ _ s

/-- An instance that has no group and is not ready emits nothing when its publishing
    API is called, and gets no group. -/
theorem call_unready (answer : Registration → Answer) {p : Publisher} (hgroup : p.group = none)
    (hready : p.ready = false) (c : Call) : (call answer p c).2 = [] ∧ (call answer p c).1.group = none := by
  cases c <;> simp [call, startServicePublish, stopServicePublish, hgroup, hready]

variable {s : SharedServer}

theorem PointerSound.unready (hs : PointerSound s) (hnone : s.process.server = none) {i : Nat}
    {pri : QZeroConfPrivate} (hpri : s.process.instances[i]? = some pri) :
    pri.publisher.group = none ∧ pri.publisher.ready = false := by
  refine ⟨hs.idle hnone i pri hpri, ?_⟩
  by_contra hready
  obtain ⟨sv, hsv, -⟩ := hs.consistent.ready i pri hpri (by simpa using hready)
  rw [hnone] at hsv
  cases hsv

/-- Without a server nothing comes of publishing. -/
theorem PointerSound.call_absent (hs : PointerSound s) (hnone : s.process.server = none) (i : Nat)
    (answer : Registration → Answer) (c : Call) : (step s.process (.call i answer c)).2 = [] := by
  cases hpri : s.process.instances[i]? with
  | none => exact congrArg Prod.snd (on_absent hpri)
  | some pri =>
    obtain ⟨hgroup, hready⟩ := hs.unready hnone hpri
    have hquiet := (call_unready answer hgroup hready c).1
    simp only [step, answerEvent]
    rw [on_present hpri]
    simp [publishing, hquiet]

/-- Without a server no event but a constructor gives an instance a group. -/
theorem PointerSound.idle_step (hs : PointerSound s) (hnone : s.process.server = none) {e : Event}
    (hconstruct : ∀ created, e ≠ .construct created) (hdestruct : ∀ i, e ≠ .destruct i) (i : Nat)
    (pri : QZeroConfPrivate) (hpri : (step s.process e).1.instances[i]? = some pri) :
    pri.publisher.group = none := by
  have hdeliver (o : Object) (kind : Kind) (a : Action QZeroConfPrivate InstanceOutput) :
      Process.deliver o kind a s.process = (s.process, []) := by
    simp only [Process.deliver, hnone]
  have hkept (j : Nat) (a : Action QZeroConfPrivate InstanceOutput)
      (ha : ∀ pri, s.process.instances[j]? = some pri → (a pri).1.publisher.group = none)
      (hpri : (Process.on j a s.process).1.instances[i]? = some pri) : pri.publisher.group = none := by
    rw [on_instances] at hpri
    split at hpri
    · rename_i hji
      subst hji
      obtain ⟨before, hbefore, rfl⟩ := Option.map_eq_some_iff.mp hpri
      exact ha before hbefore
    · exact hs.idle hnone i pri hpri
  cases e with
  | construct created => exact absurd rfl (hconstruct created)
  | destruct i => exact absurd rfl (hdestruct i)
  | call j answer c =>
    refine hkept j _ (fun before hbefore => ?_) hpri
    obtain ⟨hgroup, hready⟩ := hs.unready hnone hbefore
    exact (call_unready answer hgroup hready c).2
  | startBrowser j created type protocol =>
    simp only [step, answerEvent, hnone] at hpri
    exact hs.idle hnone i pri hpri
  | stopBrowser j => exact hkept j _ (fun before hbefore => (hs.unready hnone hbefore).1) hpri
  | serverCallback answer state =>
    simp only [step, answerEvent, hnone] at hpri
    exact hs.idle hnone i pri hpri
  | groupCallback group state =>
    simp only [step, answerEvent, hdeliver] at hpri
    exact hs.idle hnone i pri hpri
  | browseCallback browser created interface protocol event name type domain =>
    simp only [step, answerEvent, hdeliver] at hpri
    exact hs.idle hnone i pri hpri
  | resolveCallback resolver interface event name type domain =>
    simp only [step, answerEvent, hdeliver] at hpri
    exact hs.idle hnone i pri hpri

/-- Events that leave the server alone only pass the pointer on. -/
theorem passes_of_serverCalls {e : Event} (hconstruct : ∀ created, e ≠ .construct created)
    (hdestruct : ∀ i, e ≠ .destruct i) : ∀ u ∈ serverCalls s e, u = .pass s.pointer := by
  intro u hu
  unfold serverCalls at hu
  split at hu <;> grind

theorem pointerSound_construct (hs : PointerSound s) (created : Bool) :
    PointerSound (useStep s (.construct created)).1 := by
  have hconsistent : Consistent (construct created s.process).1 := consistent_construct hs.consistent created
  have hfresh := hs.fresh s.process.constructed (Nat.le_refl _)
  have hidle (hnone : s.process.server = none) (i : Nat) (pri : QZeroConfPrivate)
      (hpri : (construct created s.process).1.instances[i]? = some pri) : pri.publisher.group = none := by
    rcases instance_of_construct hpri with ⟨-, rfl⟩ | hold
    · rfl
    · exact hs.idle hnone i pri hold
  by_cases hzero : s.process.referenceCount = 0
  · have hnone : s.process.server = none := by
      by_contra hsome
      obtain ⟨sv, hsv⟩ := Option.ne_none_iff_exists'.mp hsome
      exact hs.consistent.counted sv hsv hzero
    cases created with
    | false =>
      refine ⟨hconsistent, fun sv hsv => ?_, fun _ _ => ?_, fun _ => hidle hnone, fun i hi => ?_⟩
      · simp [useStep, step, answerEvent, construct, hzero] at hsv
      · simp [useStep, nextPointer, hzero]
      · simpa [useStep, serverCalls] using hs.fresh i (Nat.le_of_succ_le hi)
    | true =>
      refine ⟨hconsistent, fun sv hsv => ?_, fun hnone' => ?_, fun _ => hidle hnone, fun i hi => ?_⟩
      · simp only [useStep, step, answerEvent, construct, hzero, if_true, Option.some.injEq] at hsv
        subst hsv
        simp [useStep, nextPointer, serverCalls, hzero, linear.apply]
      · simp [useStep, step, answerEvent, construct, hzero] at hnone'
      · have hi : s.process.constructed + 1 ≤ i := hi
        have hne : i ≠ s.process.constructed := by omega
        simpa [useStep, serverCalls, hzero, linear.apply, Function.update_of_ne hne] using hs.fresh i (by omega)
  · have hserver : (construct created s.process).1.server = s.process.server := by
      simp only [construct, hzero, if_false]
    have hpointer : (useStep s (.construct created)).1.pointer = s.pointer := by
      simp [useStep, nextPointer, hzero]
    have hservers : (useStep s (.construct created)).1.servers = s.servers := by
      simp [useStep, serverCalls, hzero]
    refine ⟨hconsistent, fun sv hsv => ?_, fun hnone _ => ?_, fun hnone => hidle (hserver ▸ hnone),
      fun i hi => ?_⟩
    · rw [hpointer, hservers]
      exact hs.present sv (hserver ▸ hsv)
    · rw [hpointer]
      exact hs.absent (hserver ▸ hnone) hzero
    · rw [hservers]
      exact hs.fresh i (Nat.le_of_succ_le hi)

theorem pointerSound_destruct (hs : PointerSound s) (i : Nat) : PointerSound (useStep s (.destruct i)).1 := by
  have hconsistent : Consistent (destruct i s.process).1 := consistent_destruct hs.consistent i
  by_cases hmem : i ∈ s.process.instances
  · obtain ⟨pri, hpri⟩ := mem_instances_iff.mp hmem
    have hserver := destruct_server hpri
    have hcount : (destruct i s.process).1.referenceCount = s.process.referenceCount - 1 := by
      simp [destruct, hpri]
    have hconstructed : (destruct i s.process).1.constructed = s.process.constructed := by
      simp [destruct, hpri]
    by_cases hlast : s.process.referenceCount - 1 = 0
    · rw [if_pos hlast] at hserver
      refine ⟨hconsistent, fun sv hsv => ?_, fun _ hcount' => ?_, fun _ j after hj => ?_, fun j hj => ?_⟩
      · rw [show (useStep s (.destruct i)).1.process.server = none from hserver] at hsv
        cases hsv
      · exact absurd (hcount.trans hlast) hcount'
      · have hgone := hconsistent.no_instance (hcount.trans hlast) j
        cases hgone.symm.trans hj
      · have hj' : s.process.constructed ≤ j := hconstructed ▸ hj
        have hservers : (useStep s (.destruct i)).1.servers = linear.apply s.servers (.release s.pointer) := by
          simp [useStep, serverCalls, hmem, hlast]
        rw [hservers]
        cases hsv : s.process.server with
        | none =>
          rw [hs.absent hsv (hs.consistent.referenceCount_ne_zero hmem)]
          exact hs.fresh j hj'
        | some sv =>
          have hne : j ≠ sv.userdata := Nat.ne_of_gt (Nat.lt_of_lt_of_le (hs.consistent.userdata sv hsv) hj')
          rw [(hs.present sv hsv).1, linear.apply, Function.update_of_ne hne]
          exact hs.fresh j hj'
    · rw [if_neg hlast] at hserver
      have hservers : (useStep s (.destruct i)).1.servers = s.servers := by
        simp [useStep, serverCalls, hlast]
      refine ⟨hconsistent, fun sv' hsv' => ?_, fun hnone _ => ?_, fun hnone j after hj => ?_, fun j hj => ?_⟩
      · obtain ⟨sv, hsv, rfl⟩ := Option.map_eq_some_iff.mp (hserver.symm.trans hsv')
        rw [hservers]
        exact hs.present sv hsv
      · have hnone' := Option.map_eq_none_iff.mp (hserver.symm.trans hnone)
        exact hs.absent hnone' (by omega)
      · have hnone' := Option.map_eq_none_iff.mp (hserver.symm.trans hnone)
        have hbefore := (destruct_instances hpri j).symm.trans hj
        split at hbefore
        · cases hbefore
        · exact hs.idle hnone' j after hbefore
      · rw [hservers]
        exact hs.fresh j (hconstructed ▸ hj)
  · have hsame : (useStep s (.destruct i)).1 = s := by
      simp [useStep, step, answerEvent, destruct, nextPointer, serverCalls, hmem]
    rw [hsame]
    exact hs

theorem pointerSound_step (s : SharedServer) (e : Event) (hs : PointerSound s) : PointerSound (useStep s e).1 := by
  by_cases hconstruct : ∃ created, e = .construct created
  · obtain ⟨created, rfl⟩ := hconstruct
    exact pointerSound_construct hs created
  by_cases hdestruct : ∃ i, e = .destruct i
  · obtain ⟨i, rfl⟩ := hdestruct
    exact pointerSound_destruct hs i
  rw [not_exists] at hconstruct hdestruct
  have hkept : KeepsServer s.process (useStep s e).1.process := keepsServer_step s.process hconstruct hdestruct
  have hservers : (useStep s e).1.servers = s.servers :=
    applyAll_of_passes (passes_of_serverCalls hconstruct hdestruct)
  have hpointer : (useStep s e).1.pointer = s.pointer := by
    cases e with
    | construct created => exact absurd rfl (hconstruct created)
    | _ => rfl
  have hnone (h : (useStep s e).1.process.server = none) : s.process.server = none := by
    have huserdata := hkept.userdata
    rw [h] at huserdata
    exact Option.map_eq_none_iff.mp huserdata.symm
  refine ⟨consistent_step hs.consistent e, fun sv' hsv' => ?_, fun h hcount => ?_, fun h => ?_, fun i hi => ?_⟩
  · have huserdata := hkept.userdata
    rw [hsv'] at huserdata
    obtain ⟨sv, hsv, hsame⟩ := Option.map_eq_some_iff.mp huserdata.symm
    rw [hpointer, hservers, ← hsame]
    exact hs.present sv hsv
  · rw [hpointer]
    exact hs.absent (hnone h) (hkept.count ▸ hcount)
  · exact hs.idle_step (hnone h) hconstruct hdestruct
  · rw [hservers]
    exact hs.fresh i (hkept.constructed ▸ hi)

theorem pointerSound_reached (events : List Event) : PointerSound (after useStep {} events) :=
  after_invariant pointerSound_step pointerSound_initial events

/-- While there are instances, the pointer can be used exactly when there is a
    server. -/
theorem PointerSound.live_iff (hs : PointerSound s) (hcount : s.process.referenceCount ≠ 0) :
    (∃ server, s.pointer = some server ∧ s.servers server = .live) ↔ s.process.server ≠ none := by
  constructor
  · rintro ⟨server, hserver, -⟩ hnone
    rw [hs.absent hnone hcount] at hserver
    cases hserver
  · intro hsome
    obtain ⟨sv, hsv⟩ := Option.ne_none_iff_exists'.mp hsome
    exact ⟨sv.userdata, hs.present sv hsv⟩

/-- While there is a server, it may be passed on. -/
theorem PointerSound.linear_passes (hs : PointerSound s) (hsome : s.process.server ≠ none) {e : Event}
    (hconstruct : ∀ created, e ≠ .construct created) (hdestruct : ∀ i, e ≠ .destruct i) :
    Linear s.servers (serverCalls s e) := by
  obtain ⟨sv, hsv⟩ := Option.ne_none_iff_exists'.mp hsome
  obtain ⟨hpointer, hlive⟩ := hs.present sv hsv
  exact linear_of_passes hlive (hpointer ▸ passes_of_serverCalls hconstruct hdestruct)

/-- A call without a server passes nothing on, and reports nothing. -/
theorem used_call_iff (hs : PointerSound s) (i : Nat) (answer : Registration → Answer) (c : Call) :
    Linear s.servers (serverCalls s (.call i answer c)) ∧ ReportsAbsence s (.call i answer c) ↔
      ServerPresent s (.call i answer c) := by
  by_cases hnone : s.process.server = none
  · have hquiet := hs.call_absent hnone i answer c
    have hlinear : Linear s.servers (serverCalls s (.call i answer c)) := by
      simp [serverCalls, publishCalls, hquiet]
    rw [and_iff_right hlinear]
    cases c with
    | startServicePublish r =>
      simp only [ReportsAbsence, ServerPresent, hnone, true_implies, ne_eq, not_true]
      refine imp_congr_right fun _ => iff_false_intro fun hreport => ?_
      have houtputs := congrArg Prod.snd hreport
      rw [hquiet] at houtputs
      cases houtputs
    | _ => exact Iff.rfl
  · have hlinear := hs.linear_passes hnone (e := .call i answer c) (by simp) (by simp)
    refine iff_of_true ⟨hlinear, ?_⟩ ?_
    · cases c with
      | startServicePublish r => exact fun _ h => absurd h hnone
      | _ => trivial
    · cases c with
      | startServicePublish r => exact fun _ => hnone
      | _ => trivial

/-- Events that ask for nothing where there is no server only pass on one that
    lives. -/
theorem PointerSound.linear_of_quiet (hs : PointerSound s) {e : Event} (hconstruct : ∀ created, e ≠ .construct created)
    (hdestruct : ∀ i, e ≠ .destruct i) (hquiet : s.process.server = none → serverCalls s e = []) :
    Linear s.servers (serverCalls s e) := by
  by_cases hnone : s.process.server = none
  · rw [hquiet hnone]
    trivial
  · exact hs.linear_passes hnone hconstruct hdestruct

theorem used_step_iff (hs : PointerSound s) (e : Event) :
    Linear s.servers (serverCalls s e) ∧ ReportsAbsence s e ↔ ServerPresent s e := by
  cases e with
  | construct created =>
    refine iff_of_true ⟨?_, trivial⟩ trivial
    simp only [serverCalls]
    split
    · exact ⟨hs.fresh _ (Nat.le_refl _), trivial⟩
    · trivial
  | destruct i =>
    simp only [serverCalls, ServerPresent, ReportsAbsence, and_true]
    split
    · rename_i hlast
      have hpos := hs.consistent.referenceCount_ne_zero hlast.1
      have hone : s.process.referenceCount = 1 := by omega
      simp only [linear_cons, linear_nil, and_true, hlast.1, hone, true_implies]
      exact hs.live_iff hpos
    · rename_i hother
      refine iff_of_true trivial fun hmem hone => absurd ⟨hmem, ?_⟩ hother
      rw [hone]
  | startBrowser i created type protocol =>
    by_cases hmem : i ∈ s.process.instances
    · have hlive := hs.live_iff (hs.consistent.referenceCount_ne_zero hmem)
      simp only [serverCalls, ServerPresent, ReportsAbsence, hmem, if_true, true_implies, linear_cons, linear_nil,
        and_true]
      exact (and_iff_left_of_imp fun hvalid hnone => absurd hnone (hlive.mp hvalid)).trans hlive
    · simp [serverCalls, ServerPresent, ReportsAbsence, hmem]
  | call i answer c => exact used_call_iff hs i answer c
  | serverCallback answer state =>
    refine iff_of_true ⟨hs.linear_of_quiet (by simp) (by simp) fun hnone => ?_, trivial⟩ trivial
    simp [serverCalls, publishCalls, step, answerEvent, hnone]
  | browseCallback browser created interface protocol event name type domain =>
    refine iff_of_true ⟨hs.linear_of_quiet (by simp) (by simp) fun hnone => ?_, trivial⟩ trivial
    cases event with
    | AVAHI_BROWSER_NEW => simp [serverCalls, AsksForResolver, hnone]
    | _ => rfl
  | _ => exact iff_of_true ⟨trivial, trivial⟩ trivial

theorem servers_step (s : SharedServer) (e : Event) :
    (useStep s e).1.servers = applyAll s.servers (serverCalls s e) := rfl

/-- In every run the server is used while it lives, and its absence is reported,
    exactly when instances start browsing or publishing, and the last of them
    goes, only while there is a server. -/
theorem serverUsed_iff (events : List Event) : ServerUsed events ↔ Along useStep ServerPresent {} events := by
  have hlinear : Linear unused (noted useStep serverCalls {} events) ↔
      Along useStep (fun s e => Linear s.servers (serverCalls s e)) {} events :=
    linear_noted_iff servers_step ({} : SharedServer) events
  have hused : Along useStep (fun s e => Linear s.servers (serverCalls s e) ∧ ReportsAbsence s e) {} events ↔
      Along useStep ServerPresent {} events :=
    along_congr (fun s e hs _ => pointerSound_step s e hs) (fun s e hs => used_step_iff hs e) pointerSound_initial
      events
  rw [along_and, ← hlinear] at hused
  constructor
  · intro h
    exact hused.mp ⟨h.linear, h.reported⟩
  · intro h
    obtain ⟨hlinear, hreported⟩ := hused.mpr h
    refine ⟨?_, hlinear, hreported⟩
    exact throughout_iff_prefix.mpr fun pre _ => (pointerSound_reached pre).consistent.count

/-- A browser is started with the null server of a creation that failed. -/
theorem absent_server_passed : ¬ ServerUsed [.construct false, .startBrowser 0 true (tcpType 0x61) .IPv4Protocol] := by
  intro h
  exact h.linear.some_of_mem.1 (by decide)

end qtzeroconf.avahicore
