import QtZeroConf.AvahiCore.Publish
import QtZeroConf.Library.Linear

open reactive linear

namespace qtzeroconf.avahiclient

open avahi
open avahicore (AVAHI_IF_UNSPEC AvahiEntryGroupState Registration Request addServiceTxtRecord
  addServiceTxtRecordPair)

/-- The publishing half of an avahiclient `QZeroConfPrivate`. `nextGroup` numbers
    the entry groups that are created for it. -/
structure Publisher where
  group : Option Nat := none
  txt : AvahiStringList := []
  nextGroup : Nat := 0

/-- The signals of publishing and its calls into avahi-client. A null group is
    `none`. -/
inductive PublishOutput where
  | signal (signal : Signal QZeroConfServiceData)
  | entry_group_new (group : Option Nat)
  | entry_group_add_service_strlst (group : Option Nat) (registration : Registration)
  | entry_group_commit (group : Option Nat)
  | entry_group_free (group : Option Nat)

/-- The error signal of a registration that fails. -/
def registrationFailed : PublishOutput := .signal (.error .serviceRegistrationFailed)

/-- What avahi-client makes of the three calls of a start: whether it returns a
    group, and whether adding and committing return no error. -/
structure Answers where
  created : Bool
  added : Bool
  committed : Bool
  deriving DecidableEq

/-- `startServicePublish` from `avahi_entry_group_commit` on. -/
def commitService (committed : Bool) : Action Publisher PublishOutput := fun s =>
  -- a commit that fails sets `group` to NULL first and frees it then
  let next := if committed then s else { s with group := none }
  (next, .entry_group_commit s.group ::
    (if committed then [] else [.entry_group_free next.group, registrationFailed]) ++
    if next.group.isSome then [] else [registrationFailed])

/-- `QZeroConf::startServicePublish`; `client` is whether there is a client. -/
def startServicePublish (client : Bool) (answers : Answers) (request : Request) :
    Action Publisher PublishOutput := fun s =>
  if !client || s.group.isSome then (s, [registrationFailed])
  else
    let interface := if request.interface = 0 then AVAHI_IF_UNSPEC else request.interface.toInt32
    let registration : Registration :=
      { interface, name := request.name, type := request.type, domain := request.domain,
        port := request.port, txt := s.txt }
    let group := if answers.created then some s.nextGroup else none
    let s := { s with group, nextGroup := if answers.created then s.nextGroup + 1 else s.nextGroup }
    let (s, outputs) :=
      if answers.added then commitService answers.committed s
      else ({ s with group := none }, [.entry_group_free s.group, registrationFailed])
    (s, [.entry_group_new group, .entry_group_add_service_strlst group registration] ++ outputs)

/-- `QZeroConf::stopServicePublish`. -/
def stopServicePublish : Action Publisher PublishOutput := fun s =>
  match s.group with
  | none => (s, [])
  | some group => ({ s with group := none }, [.entry_group_free (some group)])

/-- `QZeroConf::publishExists`. -/
def publishExists (s : Publisher) : Bool := s.group.isSome

/-- `QZeroConfPrivate::groupCallback`, for the group `g`. -/
def groupCallback (g : Nat) (state : AvahiEntryGroupState) : Action Publisher PublishOutput := fun s =>
  match state with
  | .AVAHI_ENTRY_GROUP_ESTABLISHED => (s, [.signal .servicePublished])
  | .AVAHI_ENTRY_GROUP_COLLISION =>
    ({ s with group := none }, [.entry_group_free (some g), .signal (.error .serviceNameCollision)])
  | .AVAHI_ENTRY_GROUP_FAILURE => ({ s with group := none }, [.entry_group_free (some g), registrationFailed])
  | .AVAHI_ENTRY_GROUP_UNCOMMITED => (s, [])
  | .AVAHI_ENTRY_GROUP_REGISTERING => (s, [])

/-- What can happen to a publisher: calls of its API and group callbacks. -/
inductive PublishEvent where
  | startServicePublish (answers : Answers) (request : Request)
  | stopServicePublish
  | addServiceTxtRecord (nameOnly : QString)
  | addServiceTxtRecordPair (name value : QString)
  | clearServiceTxtRecords
  | groupCallback (group : Nat) (state : AvahiEntryGroupState)

/-- Every event is answered with an action. -/
def answerEvent (client : Bool) : PublishEvent → Action Publisher PublishOutput
  | .startServicePublish answers request => startServicePublish client answers request
  | .stopServicePublish => stopServicePublish
  | .addServiceTxtRecord nameOnly => .update fun s => { s with txt := addServiceTxtRecord nameOnly s.txt }
  | .addServiceTxtRecordPair name value =>
    .update fun s => { s with txt := addServiceTxtRecordPair name value s.txt }
  | .clearServiceTxtRecords => .update fun s => { s with txt := [] }
  | .groupCallback group state => groupCallback group state

/-- What a call into avahi-client does to the entry groups. -/
def PublishOutput.use? : PublishOutput → Option (Use Nat)
  | signal _ | entry_group_new none => none
  | entry_group_new (some group) => some (.acquire group)
  | entry_group_add_service_strlst group _ | entry_group_commit group => some (.pass group)
  | entry_group_free group => some (.release group)

/-- A publisher and the entry groups that Avahi holds for it. -/
structure Publishing where
  publisher : Publisher := {}
  groups : Books Nat := unused

/-- Avahi makes a callback for a group it holds, and for no other. -/
def Possible (s : Publishing) : PublishEvent → Prop
  | .groupCallback group _ => s.groups group = .live
  | _ => True

instance (s : Publishing) (e : PublishEvent) : Decidable (Possible s e) := by
  unfold Possible
  split <;> infer_instance

def step (client : Bool) : Step Publishing PublishEvent PublishOutput := fun s e =>
  if Possible s e then
    let (publisher, outputs) := answerEvent client e s.publisher
    ({ publisher, groups := applyAll s.groups (outputs.filterMap PublishOutput.use?) }, outputs)
  else (s, [])

/-- What an output says of an error. -/
def PublishOutput.error? : PublishOutput → Option error_t
  | signal (.error e) => some e
  | _ => none

/-- The state that a run of events leads to. -/
def reached (client : Bool) (events : List PublishEvent) : Publishing := after (step client) {} events

/-- What a step does to the entry groups. -/
def stepUses (client : Bool) (s : Publishing) (e : PublishEvent) : List (Use Nat) :=
  (step client s e).2.filterMap PublishOutput.use?

/-- Everything that a run of events does to the entry groups, in order. -/
def uses (client : Bool) (events : List PublishEvent) : List (Use Nat) :=
  noted (step client) (stepUses client) {} events

/-- A start that leaves no live group emits one error and leaves no group behind. -/
def FailsOnce (client : Bool) (s : Publishing) : PublishEvent → Prop
  | .startServicePublish answers request =>
    let next := step client s (.startServicePublish answers request)
    (∀ group, next.1.groups group ≠ .live) →
      next.2.filterMap PublishOutput.error? = [.serviceRegistrationFailed] ∧ next.1.publisher.group = none
  | _ => True

/-- Publishing fails as a whole or not at all: groups are used while they live,
    a group that was created is freed once or is the one in `group`, this tells
    whether one is live, and starts that fail say so once. -/
structure PublishAtomic (client : Bool) (events : List PublishEvent) : Prop where
  linear : Linear unused (uses client events)
  freed : ∀ group, .acquire group ∈ uses client events →
    ((uses client events).count (.release (some group)) = 1 ∧
        (reached client events).publisher.group ≠ some group) ∨
      ((uses client events).count (.release (some group)) = 0 ∧
        (reached client events).publisher.group = some group)
  truthful : publishExists (reached client events).publisher ↔
    ∃ group, (reached client events).groups group = .live
  failures : Along (step client) (FailsOnce client) {} events

/-- A start that gets to avahi-client gets a group from it, and a service that is
    added is committed. -/
def Unwinds (client : Bool) (s : Publishing) : PublishEvent → Prop
  | .startServicePublish answers _ =>
    client → s.publisher.group = none → answers.created ∧ (answers.added → answers.committed)
  | _ => True

/-- The groups as a publisher without leaks knows them: the one in `group` is
    live, all before it are gone. -/
def Publisher.books (s : Publisher) : Books Nat := fun group =>
  if s.group = some group then .live else if group < s.nextGroup then .gone else .fresh

/-- Avahi holds the group in `group` and no other. -/
structure Sound (s : Publishing) : Prop where
  groups : s.groups = s.publisher.books
  numbered : ∀ group, s.publisher.group = some group → group < s.publisher.nextGroup

theorem sound_initial : Sound {} := ⟨rfl, fun group h => by cases h⟩

/-- The next group to be created is unused so far. -/
theorem Sound.fresh {s : Publishing} (hs : Sound s) : s.groups s.publisher.nextGroup = .fresh := by
  rw [hs.groups, Publisher.books, if_neg, if_neg (Nat.lt_irrefl _)]
  intro hgroup
  exact Nat.lt_irrefl _ (hs.numbered _ hgroup)

theorem Sound.live_iff {s : Publishing} (hs : Sound s) {group : Nat} :
    s.groups group = .live ↔ s.publisher.group = some group := by
  rw [hs.groups, Publisher.books]
  split_ifs <;> simp_all

/-- A group that is created and kept. -/
theorem books_acquire {s : Publisher} (hgroup : s.group = none) :
    apply s.books (.acquire s.nextGroup) =
      { s with group := some s.nextGroup, nextGroup := s.nextGroup + 1 : Publisher }.books := by
  funext group
  by_cases heq : group = s.nextGroup
  · subst heq
    simp [apply, Publisher.books]
  · simp only [apply, Function.update_of_ne heq, Publisher.books, hgroup, Option.some.injEq, Ne.symm heq,
      reduceCtorEq, if_false]
    have hlt : group < s.nextGroup + 1 ↔ group < s.nextGroup := by omega
    simp only [hlt]

theorem Sound.acquire {s : Publishing} (hs : Sound s) (hgroup : s.publisher.group = none) :
    Sound
      { publisher :=
          { s.publisher with group := some s.publisher.nextGroup, nextGroup := s.publisher.nextGroup + 1 }
        groups := apply s.groups (.acquire s.publisher.nextGroup) } := by
  refine ⟨?_, fun group h => ?_⟩
  · rw [hs.groups]
    exact books_acquire hgroup
  · cases h
    exact Nat.lt_succ_self _

/-- A group that is freed and forgotten. -/
theorem books_release {s : Publisher} {group : Nat} (hgroup : s.group = some group)
    (hlt : group < s.nextGroup) :
    apply s.books (.release (some group)) = { s with group := none : Publisher }.books := by
  funext group'
  by_cases heq : group' = group
  · subst heq
    simp [apply, Publisher.books, hlt]
  · simp [apply, Function.update_of_ne heq, Publisher.books, hgroup, Ne.symm heq]

theorem Sound.release {s : Publishing} (hs : Sound s) {group : Nat} (hgroup : s.publisher.group = some group) :
    Sound
      { publisher := { s.publisher with group := none }
        groups := apply s.groups (.release (some group)) } := by
  refine ⟨?_, fun group h => by cases h⟩
  rw [hs.groups]
  exact books_release hgroup (hs.numbered group hgroup)

/-- A start past its guard, as one step. -/
theorem startServicePublish_opened {s : Publisher} (hgroup : s.group = none) (answers : Answers)
    (request : Request) :
    let group := if answers.created then some s.nextGroup else none
    let next := startServicePublish true answers request s
    next.1 =
        { s with
            group := if answers.added && answers.committed then group else none
            nextGroup := if answers.created then s.nextGroup + 1 else s.nextGroup } ∧
      next.2.filterMap PublishOutput.use? =
        (if answers.created then [.acquire s.nextGroup] else []) ++ .pass group ::
          (if answers.added then .pass group :: (if answers.committed then [] else [.release none])
          else [.release group]) := by
  obtain ⟨created, added, committed⟩ := answers
  cases created <;> cases added <;> cases committed <;>
    simp [startServicePublish, hgroup, commitService, List.filterMap_cons, PublishOutput.use?, registrationFailed]

theorem groups_step (client : Bool) (s : Publishing) (e : PublishEvent) :
    (step client s e).1.groups = applyAll s.groups (stepUses client s e) := by
  unfold stepUses step
  split <;> rfl

theorem step_refused {client : Bool} {s : Publishing} (h : ¬ (client ∧ s.publisher.group = none))
    (answers : Answers) (request : Request) :
    step client s (.startServicePublish answers request) = (s, [registrationFailed]) := by
  have hguard : (!client || s.publisher.group.isSome) = true := by
    rw [not_and_or] at h
    simpa [Option.isSome_iff_ne_none] using h
  have hrefused : startServicePublish client answers request s.publisher = (s.publisher, [registrationFailed]) := by
    rw [startServicePublish, if_pos hguard]
  simp only [step, Possible, if_true, answerEvent, hrefused]
  rfl

/-- The uses of a step are linear exactly when the step unwinds. -/
theorem linear_step_iff {client : Bool} {s : Publishing} (hs : Sound s) (e : PublishEvent) :
    Linear s.groups (stepUses client s e) ↔ Unwinds client s e := by
  cases e with
  | startServicePublish answers request =>
    by_cases hopened : client ∧ s.publisher.group = none
    · obtain ⟨rfl, hgroup⟩ := hopened
      have hfresh := hs.fresh
      have huses : stepUses true s (.startServicePublish answers request) = _ :=
        (startServicePublish_opened hgroup answers request).2
      rw [huses]
      obtain ⟨created, added, committed⟩ := answers
      cases created <;> cases added <;> cases committed <;>
        simp [Unwinds, Use.Valid, apply, hgroup, hfresh]
    · rw [stepUses, step_refused hopened]
      exact iff_of_true trivial fun hclient hgroup => absurd ⟨hclient, hgroup⟩ hopened
  | stopServicePublish =>
    refine iff_of_true ?_ trivial
    cases hgroup : s.publisher.group with
    | none => simp [stepUses, step, Possible, answerEvent, stopServicePublish, hgroup]
    | some group =>
      have hlive := hs.live_iff.mpr hgroup
      simp [stepUses, step, Possible, answerEvent, stopServicePublish, hgroup, PublishOutput.use?, Use.Valid, hlive]
  | groupCallback group state =>
    refine iff_of_true ?_ trivial
    by_cases hlive : s.groups group = .live
    · cases state <;>
        simp [stepUses, step, Possible, answerEvent, groupCallback, hlive, List.filterMap_cons, PublishOutput.use?,
          Use.Valid, registrationFailed]
    · simp [stepUses, step, Possible, hlive]
  | _ => exact iff_of_true trivial trivial

theorem sound_step {client : Bool} {s : Publishing} {e : PublishEvent} (hs : Sound s)
    (hunwinds : Unwinds client s e) : Sound (step client s e).1 := by
  cases e with
  | startServicePublish answers request =>
    by_cases hopened : client ∧ s.publisher.group = none
    · obtain ⟨rfl, hgroup⟩ := hopened
      obtain ⟨hcreated, hcommitted⟩ := hunwinds rfl hgroup
      obtain ⟨hnext, huses⟩ := startServicePublish_opened hgroup answers request
      have hacquired := hs.acquire hgroup
      simp only [step, Possible, if_true, answerEvent, hnext, huses]
      cases hadded : answers.added with
      | true => simpa [hcreated, hcommitted hadded, apply] using hacquired
      | false => simpa [hcreated, apply] using hacquired.release rfl
    · rw [step_refused hopened]
      exact hs
  | stopServicePublish =>
    cases hgroup : s.publisher.group with
    | none => simpa [step, Possible, answerEvent, stopServicePublish, hgroup] using hs
    | some group =>
      simpa [step, Possible, answerEvent, stopServicePublish, hgroup, PublishOutput.use?] using hs.release hgroup
  | groupCallback group state =>
    by_cases hlive : s.groups group = .live
    · have hrelease := hs.release (hs.live_iff.mp hlive)
      cases state <;>
        simpa [step, Possible, answerEvent, groupCallback, hlive, List.filterMap_cons, PublishOutput.use?,
          registrationFailed]
    · simpa [step, Possible, hlive] using hs
  | _ => exact ⟨hs.groups, hs.numbered⟩

theorem failsOnce_step {client : Bool} {s : Publishing} {e : PublishEvent} (hs : Sound s)
    (hunwinds : Unwinds client s e) : FailsOnce client s e := by
  cases e with
  | startServicePublish answers request =>
    intro hdead
    by_cases hopened : client ∧ s.publisher.group = none
    · obtain ⟨rfl, hgroup⟩ := hopened
      obtain ⟨hcreated, hcommitted⟩ := hunwinds rfl hgroup
      have hnone : (step true s (.startServicePublish answers request)).1.publisher.group = none := by
        rw [Option.eq_none_iff_forall_ne_some]
        exact fun group h => hdead group ((sound_step hs hunwinds).live_iff.mpr h)
      refine ⟨?_, hnone⟩
      have hnext := (startServicePublish_opened hgroup answers request).1
      cases hadded : answers.added with
      | true =>
        have hsome : (startServicePublish true answers request s.publisher).1.group = none := hnone
        simp [hnext, hadded, hcommitted hadded, hcreated] at hsome
      | false =>
        simp [step, Possible, answerEvent, startServicePublish, hgroup, hadded, List.filterMap_cons,
          PublishOutput.error?, registrationFailed]
    · rw [step_refused hopened] at hdead ⊢
      refine ⟨rfl, ?_⟩
      rw [Option.eq_none_iff_forall_ne_some]
      exact fun group h => hdead group (hs.live_iff.mpr h)
  | _ => trivial

/-- The uses of a run are linear exactly when its steps unwind. -/
theorem linear_uses_iff (client : Bool) (events : List PublishEvent) :
    Linear unused (uses client events) ↔ Along (step client) (Unwinds client) {} events := by
  have hnoted := linear_noted_iff (groups_step client) ({} : Publishing) events
  refine Iff.trans hnoted ?_
  refine along_congr (I := Sound) ?_ (fun s e hs => linear_step_iff hs e) sound_initial events
  exact fun s e hs hlinear => sound_step hs ((linear_step_iff hs e).mp hlinear)

/-- Publishing fails as a whole or not at all exactly when every start that gets
    to avahi-client gets a group from it and can commit what it has added. -/
theorem publishAtomic_iff (client : Bool) (events : List PublishEvent) :
    PublishAtomic client events ↔ Along (step client) (Unwinds client) {} events := by
  refine ⟨fun h => (linear_uses_iff client events).mp h.linear, fun h => ?_⟩
  have hlinear := (linear_uses_iff client events).mpr h
  have hsound : Sound (reached client events) := h.after (fun s e => sound_step) sound_initial
  have hgroups := applyAll_noted (groups_step client) ({} : Publishing) events
  have hfailures := along_mono (I := Sound) (fun s e => sound_step) (fun s e => failsOnce_step) sound_initial h
  refine ⟨hlinear, fun group hacquired => ?_, ?_, hfailures⟩
  · obtain ⟨-, hphase⟩ := hlinear.accounted hacquired
    have hlive : _ ↔ (reached client events).publisher.group = some group := hsound.live_iff
    rw [reached, ← hgroups] at hlive
    rcases hphase with ⟨hphase, hcount⟩ | ⟨hphase, hcount⟩
    · exact Or.inr ⟨hcount, hlive.mp hphase⟩
    · refine Or.inl ⟨hcount, fun hgroup => ?_⟩
      have hcontra := hphase.symm.trans (hlive.mpr hgroup)
      cases hcontra
  · simp only [publishExists, Option.isSome_iff_exists, hsound.live_iff]

/-- A request for a web server. -/
def webRequest : Request :=
  { name := [0x61], type := [0x5F, 0x68], domain := none, port := 80, interface := 0 }

/-- A commit that fails frees a null group. -/
theorem failed_commit_leaks :
    ¬ PublishAtomic true [.startServicePublish { created := true, added := true, committed := false } webRequest] := by
  intro h
  exact h.linear.some_of_mem.2 (by decide)

end qtzeroconf.avahiclient
