import QtZeroConf.AvahiCore.Consistent

open reactive handles

namespace qtzeroconf.avahicore

open avahi

/-- An instance that has been constructed and is no longer there. -/
def Destroyed (s : Process) (i : Nat) : Prop := i < s.constructed ∧ i ∉ s.instances

instance (s : Process) (i : Nat) : Decidable (Destroyed s i) :=
  inferInstanceAs (Decidable (i < s.constructed ∧ i ∉ s.instances))

/-- Nothing that is registered with a live server, its own state callback
    included, carries a destroyed instance as its userdata. -/
def TornDown (s : Process) : Prop :=
  ∀ sv, s.server = some sv → ¬ Destroyed s sv.userdata ∧ ∀ o ∈ sv.objects, ¬ Destroyed s o.userdata

/-- The instance that a callback is made to. -/
def Receives (s : Process) (i : Nat) : Event → Prop
  | .serverCallback _ _ => ∃ sv, s.server = some sv ∧ sv.userdata = i
  | .groupCallback o _ => ∃ sv, s.server = some sv ∧ o ∈ sv.objects ∧ o.userdata = i
  | .browseCallback o _ _ _ _ _ _ _ => ∃ sv, s.server = some sv ∧ o ∈ sv.objects ∧ o.userdata = i
  | .resolveCallback o _ _ _ _ _ => ∃ sv, s.server = some sv ∧ o ∈ sv.objects ∧ o.userdata = i
  | _ => False

/-- No callback is made to a destroyed instance. -/
def DeliversToLive (s : Process) (e : Event) : Prop := ∀ i, Receives s i e → ¬ Destroyed s i

/-- An instance is destructed only as the last one, or when it is not the
    userdata of the server, has no service published, has started no browser
    over another one, and has no resolver left without a browser. -/
def LeavesNothing (s : Process) : Event → Prop
  | .destruct i =>
    ∀ (pri : QZeroConfPrivate) (sv : AvahiServer), s.instances[i]? = some pri → s.server = some sv →
    s.referenceCount = 1 ∨
      (sv.userdata ≠ i ∧ pri.publisher.group = none ∧
        (∀ h, ⟨.serviceBrowser, i, h⟩ ∈ sv.objects → pri.discovery.browser = some h) ∧
        (pri.discovery.browser = none → ∀ (key : QString) (r : ServiceResolver),
          pri.discovery.resolvers[key]? ≠ some (some r)))
  | _ => True

variable {s : Process}

/-- What an instance registers carries an instance that is there. -/
theorem tornDown_on (h : TornDown s) (i : Nat) (a : Action QZeroConfPrivate InstanceOutput) :
    TornDown (Process.on i a s).1 := by
  cases hpri : s.instances[i]? with
  | none =>
    rw [on_absent hpri]
    exact h
  | some pri =>
    have hmem : i ∈ s.instances := mem_instances_iff.mpr ⟨pri, hpri⟩
    rw [on_present hpri]
    have hdestroyed {j : Nat} (hj : j < s.constructed ∧ j ∉ s.instances.insert i (a pri).1) : Destroyed s j :=
      ⟨hj.1, fun hmem' => hj.2 (Std.ExtTreeMap.mem_insert.mpr (Or.inr hmem'))⟩
    intro sv' hsv'
    obtain ⟨sv, hsv, rfl⟩ := Option.map_eq_some_iff.mp hsv'
    obtain ⟨huserdata, hobjects⟩ := h sv hsv
    refine ⟨fun hd => huserdata (hdestroyed hd), fun o ho hd => ?_⟩
    by_cases hi : o.userdata = i
    · exact hd.2 (hi ▸ Std.ExtTreeMap.mem_insert_self)
    · exact hobjects o ((mem_registered_of_ne hi).mp ho) (hdestroyed hd)

theorem tornDown_deliver (h : TornDown s) (o : Object) (kind : Kind)
    (a : Action QZeroConfPrivate InstanceOutput) : TornDown (Process.deliver o kind a s).1 := by
  unfold Process.deliver
  split
  · exact h
  · split
    · exact tornDown_on h _ _
    · exact h

theorem tornDown_construct (h : TornDown s) (created : Bool) : TornDown (construct created s).1 := by
  have hdestroyed {j : Nat}
      (hj : j < s.constructed + 1 ∧ j ∉ s.instances.insert s.constructed ({} : QZeroConfPrivate)) :
      Destroyed s j := by
    rw [Std.ExtTreeMap.mem_insert, Std.compare_eq_iff_eq, not_or] at hj
    exact ⟨by omega, hj.2.2⟩
  intro sv hsv
  simp only [construct] at hsv
  split at hsv
  · cases created with
    | false => cases hsv
    | true =>
      cases hsv
      exact ⟨fun hd => hd.2 Std.ExtTreeMap.mem_insert_self, fun o ho => absurd ho List.not_mem_nil⟩
  · obtain ⟨huserdata, hobjects⟩ := h sv hsv
    exact ⟨fun hd => huserdata (hdestroyed hd), fun o ho hd => hobjects o ho (hdestroyed hd)⟩

/-- What `broswerCleanUp` leaves of the objects of an instance is nothing
    exactly when no group, no other browser and no resolver without a browser
    is there. -/
theorem all_cleaned_iff {i : Nat} {pri : QZeroConfPrivate} {objects : List Object}
    (hgroup : TracksGroup i pri.publisher objects) (hdiscovery : TracksDiscovery i pri.discovery objects) :
    (∀ o ∈ objects, o ∉ cleaned i pri.discovery → o.userdata ≠ i) ↔
      pri.publisher.group = none ∧
        (∀ h, ⟨.serviceBrowser, i, h⟩ ∈ objects → pri.discovery.browser = some h) ∧
        (pri.discovery.browser = none → ∀ (key : QString) (r : ServiceResolver),
          pri.discovery.resolvers[key]? ≠ some (some r)) := by
  constructor
  · intro h
    refine ⟨?_, fun handle hhandle => ?_, fun hbrowser key r hkey => ?_⟩
    · by_contra hsome
      obtain ⟨g, hg⟩ := Option.ne_none_iff_exists'.mp hsome
      exact h _ ((hgroup.group g).mpr hg) group_not_mem_cleaned rfl
    · by_contra hother
      exact h _ hhandle (fun hmem => hother (browser_mem_cleaned.mp hmem)) rfl
    · refine h _ ((hdiscovery.resolver r.handle).mpr ⟨key, r, hkey, rfl⟩) (fun hmem => ?_) rfl
      exact (resolver_mem_cleaned.mp hmem).1 hbrowser
  · rintro ⟨hnone, hbrowsers, hresolvers⟩ ⟨kind, userdata, handle⟩ ho hcleaned rfl
    cases kind with
    | entryGroup =>
      rw [hgroup.group, hnone] at ho
      cases ho
    | serviceBrowser => exact hcleaned (browser_mem_cleaned.mpr (hbrowsers handle ho))
    | serviceResolver =>
      obtain ⟨key, r, hkey, hhandle⟩ := (hdiscovery.resolver handle).mp ho
      refine hcleaned (resolver_mem_cleaned.mpr ⟨fun hbrowser => ?_, key, r, hkey, hhandle⟩)
      exact hresolvers hbrowser key r hkey

/-- The server after a destructor, if it is not freed. -/
theorem destruct_server {i : Nat} {pri : QZeroConfPrivate} (hpri : s.instances[i]? = some pri) :
    (destruct i s).1.server =
      if s.referenceCount - 1 = 0 then none
      else s.server.map fun sv =>
        { sv with objects := applyAll sv.objects ((cleaned i pri.discovery).map .release) } := by
  simp only [destruct, hpri, Action.andThen_fst, Action.update_apply, on_referenceCount]
  rw [on_present hpri]
  simp only [discovering, registered_broswerCleanUp]

/-- The instances after a destructor. -/
theorem destruct_instances {i : Nat} {pri : QZeroConfPrivate} (hpri : s.instances[i]? = some pri) (j : Nat) :
    (destruct i s).1.instances[j]? = if i = j then none else s.instances[j]? := by
  simp only [destruct, hpri, Action.andThen_fst, Action.update_apply, Std.ExtTreeMap.getElem?_erase,
    Std.compare_eq_iff_eq]
  split
  · rfl
  · rename_i hij
    rw [on_instances, if_neg hij]

theorem destroyed_destruct {i : Nat} (hs : Consistent s) (hi : i ∈ s.instances) (j : Nat) :
    Destroyed (destruct i s).1 j ↔ Destroyed s j ∨ j = i := by
  obtain ⟨pri, hpri⟩ := mem_instances_iff.mp hi
  have hconstructed : (destruct i s).1.constructed = s.constructed := by
    simp [destruct, hpri]
  have hinstances : j ∈ (destruct i s).1.instances ↔ j ≠ i ∧ j ∈ s.instances := by
    simp only [destruct, hpri, Action.andThen_fst, Action.update_apply]
    rw [on_present hpri]
    simp only [Std.ExtTreeMap.mem_erase, Std.ExtTreeMap.mem_insert, ne_eq, Std.compare_eq_iff_eq]
    grind
  rw [Destroyed, Destroyed, hconstructed, hinstances]
  by_cases hji : j = i
  · subst hji
    simp [hs.issued j hi]
  · simp [hji]

/-- A destructor leaves nothing behind exactly under its condition. -/
theorem tornDown_destruct_iff (hs : Consistent s) (h : TornDown s) (i : Nat) :
    TornDown (destruct i s).1 ↔ LeavesNothing s (.destruct i) := by
  cases hpri : s.instances[i]? with
  | none =>
    have habsent : destruct i s = (s, []) := by simp [destruct, hpri]
    rw [habsent]
    exact iff_of_true h fun pri sv hpri' => by simp [hpri] at hpri'
  | some pri =>
    have hmem : i ∈ s.instances := mem_instances_iff.mpr ⟨pri, hpri⟩
    have hserver := destruct_server hpri
    constructor
    · rintro h' _ sv hpri' hsv
      rw [hpri, Option.some.injEq] at hpri'
      subst hpri'
      by_cases hlast : s.referenceCount = 1
      · exact Or.inl hlast
      · have hcount := hs.counted sv hsv
        rw [if_neg (by omega), hsv] at hserver
        obtain ⟨huserdata, hobjects⟩ := h' _ hserver
        refine Or.inr ⟨fun hi => huserdata ((destroyed_destruct hs hmem _).mpr (Or.inr hi)), ?_⟩
        refine (all_cleaned_iff (hs.tracksGroup i pri sv hpri hsv)
          (hs.tracksDiscovery i pri sv hpri hsv)).mp ?_
        intro o ho hcleaned hi
        exact hobjects o (mem_applyAll_releases.mpr ⟨ho, hcleaned⟩)
          ((destroyed_destruct hs hmem _).mpr (Or.inr hi))
    · intro hleaves sv' hsv'
      rw [hserver] at hsv'
      split at hsv'
      · cases hsv'
      · rename_i hcount
        obtain ⟨sv, hsv, rfl⟩ := Option.map_eq_some_iff.mp hsv'
        obtain ⟨huserdata, hobjects⟩ := h sv hsv
        rcases hleaves pri sv hpri hsv with hlast | ⟨hother, hkept⟩
        · omega
        · have hcleaned := (all_cleaned_iff (hs.tracksGroup i pri sv hpri hsv)
            (hs.tracksDiscovery i pri sv hpri hsv)).mpr hkept
          refine ⟨fun hd => ?_, fun o ho hd => ?_⟩
          · rcases (destroyed_destruct hs hmem _).mp hd with hd | hd
            · exact huserdata hd
            · exact hother hd
          · obtain ⟨ho, hnot⟩ := mem_applyAll_releases.mp ho
            rcases (destroyed_destruct hs hmem _).mp hd with hd | hd
            · exact hobjects o ho hd
            · exact hcleaned o ho hnot hd

theorem tornDown_step_iff (hs : Consistent s) (h : TornDown s) (e : Event) :
    TornDown (step s e).1 ↔ LeavesNothing s e := by
  cases e with
  | construct created => exact iff_of_true (tornDown_construct h created) trivial
  | destruct i => exact tornDown_destruct_iff hs h i
  | call i answer c => exact iff_of_true (tornDown_on h i _) trivial
  | startBrowser i created type protocol =>
    refine iff_of_true ?_ trivial
    simp only [step, answerEvent]
    split
    · exact h
    · exact tornDown_on h i _
  | stopBrowser i => exact iff_of_true (tornDown_on h i _) trivial
  | serverCallback answer state =>
    refine iff_of_true ?_ trivial
    simp only [step, answerEvent]
    split
    · exact h
    · rename_i sv hsv
      refine tornDown_on ?_ _ _
      rintro _ ⟨⟩
      exact h sv hsv
  | groupCallback group state => exact iff_of_true (tornDown_deliver h _ _ _) trivial
  | browseCallback browser created interface protocol event name type domain =>
    exact iff_of_true (tornDown_deliver h _ _ _) trivial
  | resolveCallback resolver interface event name type domain =>
    exact iff_of_true (tornDown_deliver h _ _ _) trivial

theorem deliversToLive (h : TornDown s) (e : Event) : DeliversToLive s e := by
  intro i hi
  cases e with
  | serverCallback answer state =>
    obtain ⟨sv, hsv, rfl⟩ := hi
    exact (h sv hsv).1
  | groupCallback o state | browseCallback o | resolveCallback o =>
    obtain ⟨sv, hsv, ho, rfl⟩ := hi
    exact (h sv hsv).2 o ho
  | _ => cases hi

/-- In the states of a run nothing that is registered carries a destroyed
    instance, and no callback is made to one, exactly when every destructor of
    the run meets its condition. -/
theorem tornDown_iff (events : List Event) :
    (Throughout step TornDown {} events ↔ Along step LeavesNothing {} events) ∧
      (Throughout step TornDown {} events → Along step DeliversToLive {} events) := by
  refine ⟨?_, fun h => h.along fun s e hs => deliversToLive hs e⟩
  have hstep (s : Process) (e : Event) (hs : Consistent s) (h : TornDown s) :
      TornDown (step s e).1 ↔ LeavesNothing s e := tornDown_step_iff hs h e
  exact throughout_iff_along (fun s e hs => consistent_step hs e) hstep consistent_initial nofun events

/-- The instance that made the server goes first, and its state callback stays. -/
theorem state_callback_left_behind :
    ¬ Throughout step TornDown {} [.construct true, .construct true, .destruct 0] := by
  intro h
  obtain ⟨huserdata, _⟩ := h.last _ rfl
  exact huserdata (by decide)

end qtzeroconf.avahicore
