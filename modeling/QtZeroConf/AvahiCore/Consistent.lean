import QtZeroConf.AvahiCore.Tracking

open reactive handles

namespace qtzeroconf.avahicore

open avahi

/-- What holds of every reachable process: the reference count counts the
    instances, nothing refers to an instance that is still to come, only the
    userdata of the server can be ready, and the instances know what the server
    holds for them. -/
structure Consistent (s : Process) : Prop where
  count : s.referenceCount = s.instances.size
  counted : ∀ sv, s.server = some sv → s.referenceCount ≠ 0
  issued : ∀ i, i ∈ s.instances → i < s.constructed
  userdata : ∀ sv, s.server = some sv → sv.userdata < s.constructed
  objects : ∀ sv, s.server = some sv → ∀ o ∈ sv.objects, o.userdata < s.constructed
  ready : ∀ (i : Nat) (pri : QZeroConfPrivate), s.instances[i]? = some pri → pri.publisher.ready = true →
    ∃ sv, s.server = some sv ∧ sv.userdata = i
  tracksGroup : ∀ (i : Nat) (pri : QZeroConfPrivate) (sv : AvahiServer), s.instances[i]? = some pri →
    s.server = some sv → TracksGroup i pri.publisher sv.objects
  tracksDiscovery : ∀ (i : Nat) (pri : QZeroConfPrivate) (sv : AvahiServer), s.instances[i]? = some pri →
    s.server = some sv → TracksDiscovery i pri.discovery sv.objects

theorem consistent_initial : Consistent {} where
  count := rfl
  counted := nofun
  issued := by simp
  userdata := nofun
  objects := nofun
  ready := by simp
  tracksGroup := by simp
  tracksDiscovery := by simp

variable {s : Process}

/-- A process without references has no instances. -/
theorem Consistent.no_instance (hs : Consistent s) (h : s.referenceCount = 0) (i : Nat) :
    s.instances[i]? = none := by
  have hempty : s.instances = ∅ := by
    rw [Std.ExtTreeMap.eq_empty_iff_size_eq_zero, ← hs.count, h]
  simp [hempty]

/-- A process with an instance counts a reference. -/
theorem Consistent.referenceCount_ne_zero (hs : Consistent s) {i : Nat} (hmem : i ∈ s.instances) :
    s.referenceCount ≠ 0 := by
  intro hzero
  obtain ⟨pri, hpri⟩ := mem_instances_iff.mp hmem
  rw [hs.no_instance hzero i] at hpri
  cases hpri

/-- The number of the next instance is new. -/
theorem Consistent.fresh (hs : Consistent s) : s.instances[s.constructed]? = none := by
  by_contra hused
  have hmem : s.constructed ∈ s.instances := mem_instances_iff.mpr (Option.ne_none_iff_exists'.mp hused)
  exact Nat.lt_irrefl _ (hs.issued _ hmem)

/-- What an action of an instance has to keep for the process to stay
    consistent. -/
theorem consistent_on (hs : Consistent s) {i : Nat} {a : Action QZeroConfPrivate InstanceOutput}
    (hready : ∀ pri, s.instances[i]? = some pri → (a pri).1.publisher.ready = true →
      pri.publisher.ready = true ∨ ∃ sv, s.server = some sv ∧ sv.userdata = i)
    (hgroup : ∀ (pri : QZeroConfPrivate) (sv : AvahiServer), s.instances[i]? = some pri → s.server = some sv →
      TracksGroup i (a pri).1.publisher (registered i sv.objects (a pri).2))
    (hdiscovery : ∀ (pri : QZeroConfPrivate) (sv : AvahiServer), s.instances[i]? = some pri →
      s.server = some sv → TracksDiscovery i (a pri).1.discovery (registered i sv.objects (a pri).2)) :
    Consistent (Process.on i a s).1 := by
  cases hpri : s.instances[i]? with
  | none =>
    simp only [Process.on, hpri]
    exact hs
  | some pri =>
    have hmem : i ∈ s.instances := mem_instances_iff.mpr ⟨pri, hpri⟩
    simp only [Process.on, hpri]
    refine ⟨?_, fun sv' hsv' => ?_, fun j hj => ?_, fun sv' hsv' => ?_, fun sv' hsv' o ho => ?_,
      fun j pri' hj hready' => ?_, fun j pri' sv' hj hsv' => ?_, fun j pri' sv' hj hsv' => ?_⟩
    · simp [Std.ExtTreeMap.size_insert, hmem, hs.count]
    · obtain ⟨sv, hsv, _⟩ := Option.map_eq_some_iff.mp hsv'
      exact hs.counted sv hsv
    · rw [Std.ExtTreeMap.mem_insert, Std.compare_eq_iff_eq] at hj
      rcases hj with rfl | hj
      · exact hs.issued i hmem
      · exact hs.issued j hj
    · obtain ⟨sv, hsv, rfl⟩ := Option.map_eq_some_iff.mp hsv'
      exact hs.userdata sv hsv
    · obtain ⟨sv, hsv, rfl⟩ := Option.map_eq_some_iff.mp hsv'
      by_cases ho' : o.userdata = i
      · exact ho' ▸ hs.issued i hmem
      · exact hs.objects sv hsv o ((mem_registered_of_ne ho').mp ho)
    · simp only [Std.ExtTreeMap.getElem?_insert, Std.compare_eq_iff_eq] at hj
      have hbefore : ∃ sv, s.server = some sv ∧ sv.userdata = j := by
        split at hj
        · rename_i hij
          subst hij
          cases hj
          rcases hready pri hpri hready' with hready | hserver
          · exact hs.ready i pri hpri hready
          · exact hserver
        · exact hs.ready j pri' hj hready'
      obtain ⟨sv, hsv, huserdata⟩ := hbefore
      refine ⟨{ sv with objects := registered i sv.objects (a pri).2 }, ?_, huserdata⟩
      rw [hsv, Option.map_some]
    · obtain ⟨sv, hsv, rfl⟩ := Option.map_eq_some_iff.mp hsv'
      simp only [Std.ExtTreeMap.getElem?_insert, Std.compare_eq_iff_eq] at hj
      split at hj
      · rename_i hij
        subst hij
        cases hj
        exact hgroup pri sv hpri hsv
      · rename_i hij
        exact (hs.tracksGroup j pri' sv hj hsv).of_other hij
    · obtain ⟨sv, hsv, rfl⟩ := Option.map_eq_some_iff.mp hsv'
      simp only [Std.ExtTreeMap.getElem?_insert, Std.compare_eq_iff_eq] at hj
      split at hj
      · rename_i hij
        subst hij
        cases hj
        exact hdiscovery pri sv hpri hsv
      · rename_i hij
        exact (hs.tracksDiscovery j pri' sv hj hsv).of_other hij

/-- The publishing half of an instance acts. -/
theorem consistent_publishing (hs : Consistent s) {i : Nat} {a : Action Publisher PublishOutput}
    (hready : ∀ pri, s.instances[i]? = some pri → (a pri.publisher).1.ready = true →
      pri.publisher.ready = true ∨ ∃ sv, s.server = some sv ∧ sv.userdata = i)
    (hgroup : ∀ (pri : QZeroConfPrivate) (sv : AvahiServer), s.instances[i]? = some pri → s.server = some sv →
      KeepsGroup i a pri.publisher) :
    Consistent (Process.on i (publishing a) s).1 :=
  consistent_on hs hready
    (fun pri sv hpri hsv => hgroup pri sv hpri hsv _ (hs.tracksGroup i pri sv hpri hsv))
    (fun pri sv hpri hsv => (hs.tracksDiscovery i pri sv hpri hsv).of_registered_publish _)

/-- The discovery half of an instance acts. -/
theorem consistent_discovering (hs : Consistent s) {i : Nat} {a : Action Discovery Output}
    (ha : ∀ d, KeepsTrack i a d) : Consistent (Process.on i (discovering a) s).1 :=
  consistent_on hs (fun _ _ hready => Or.inl hready)
    (fun pri sv hpri hsv => (hs.tracksGroup i pri sv hpri hsv).of_registered_discover _)
    (fun pri sv hpri hsv => ha pri.discovery _ (hs.tracksDiscovery i pri sv hpri hsv))

/-- The instances after the constructor are the new one and those that were there. -/
theorem instance_of_construct {created : Bool} {i : Nat} {pri : QZeroConfPrivate}
    (h : (construct created s).1.instances[i]? = some pri) :
    (i = s.constructed ∧ pri = {}) ∨ s.instances[i]? = some pri := by
  change (s.instances.insert s.constructed ({} : QZeroConfPrivate))[i]? = some pri at h
  rw [Std.ExtTreeMap.getElem?_insert] at h
  split at h
  · rename_i hi
    cases h
    exact Or.inl ⟨(Std.LawfulEqCmp.eq_of_compare hi).symm, rfl⟩
  · exact Or.inr h

theorem count_construct (hs : Consistent s) (created : Bool) :
    (construct created s).1.referenceCount = (construct created s).1.instances.size := by
  have hfresh : s.constructed ∉ s.instances := by
    rw [mem_instances_iff, hs.fresh]
    simp
  change s.referenceCount + 1 = (s.instances.insert s.constructed ({} : QZeroConfPrivate)).size
  simp [Std.ExtTreeMap.size_insert, hfresh, hs.count]

theorem issued_construct (hs : Consistent s) (created : Bool) (i : Nat)
    (h : i ∈ (construct created s).1.instances) : i < s.constructed + 1 := by
  obtain ⟨pri, hpri⟩ := mem_instances_iff.mp h
  rcases instance_of_construct hpri with ⟨rfl, _⟩ | hold
  · exact Nat.lt_succ_self _
  · exact Nat.lt_succ_of_lt (hs.issued i (mem_instances_iff.mpr ⟨pri, hold⟩))

/-- The first instance asks for a server, which may not come. -/
theorem consistent_first (hs : Consistent s) (hzero : s.referenceCount = 0) (created : Bool) :
    Consistent (construct created s).1 := by
  have honly {i : Nat} {pri : QZeroConfPrivate}
      (h : (construct created s).1.instances[i]? = some pri) : pri = {} := by
    rcases instance_of_construct h with ⟨_, hpri⟩ | hpri
    · exact hpri
    · rw [hs.no_instance hzero i] at hpri
      cases hpri
  have hready (i : Nat) (pri : QZeroConfPrivate) (hi : (construct created s).1.instances[i]? = some pri)
      (h : pri.publisher.ready = true) :
      ∃ sv, (construct created s).1.server = some sv ∧ sv.userdata = i := by
    rw [honly hi] at h
    cases h
  have hserver (sv : AvahiServer) (h : (construct created s).1.server = some sv) :
      sv = { state := .AVAHI_SERVER_INVALID, userdata := s.constructed, objects := [] } := by
    cases created <;> simp [construct, hzero] at h
    exact h.symm
  refine ⟨count_construct hs created, fun sv _ => Nat.succ_ne_zero _, issued_construct hs created,
    fun sv hsv => ?_, fun sv hsv o ho => ?_, hready, fun i pri sv hi hsv => ?_, fun i pri sv hi hsv => ?_⟩
  · rw [hserver sv hsv]
    exact Nat.lt_succ_self _
  · rw [hserver sv hsv] at ho
    cases ho
  · rw [honly hi, hserver sv hsv]
    exact ⟨by simp, fun _ => rfl, nofun⟩
  · rw [honly hi, hserver sv hsv]
    exact ⟨nofun, by simp, by simp, by simp⟩

/-- A further instance leaves the server and its objects alone. -/
theorem consistent_another (hs : Consistent s) (hzero : s.referenceCount ≠ 0) (created : Bool) :
    Consistent (construct created s).1 := by
  have hserver : (construct created s).1.server = s.server := by
    simp only [construct, hzero, if_false]
  have hfresh (sv : AvahiServer) (hsv : s.server = some sv) : ∀ o ∈ sv.objects, o.userdata ≠ s.constructed :=
    fun o ho => Nat.ne_of_lt (hs.objects sv hsv o ho)
  refine ⟨count_construct hs created, fun sv _ => Nat.succ_ne_zero _, issued_construct hs created,
    fun sv hsv => ?_, fun sv hsv o ho => ?_, fun i pri hi hready => ?_,
    fun i pri sv hi hsv => ?_, fun i pri sv hi hsv => ?_⟩ <;> rw [hserver] at *
  · exact Nat.lt_succ_of_lt (hs.userdata sv hsv)
  · exact Nat.lt_succ_of_lt (hs.objects sv hsv o ho)
  · rcases instance_of_construct hi with ⟨rfl, rfl⟩ | hi
    · cases hready
    · exact hs.ready i pri hi hready
  · rcases instance_of_construct hi with ⟨rfl, rfl⟩ | hi
    · refine ⟨fun g => ⟨fun hmem => ?_, nofun⟩, fun _ => rfl, nofun⟩
      exact absurd rfl (hfresh sv hsv _ hmem)
    · exact hs.tracksGroup i pri sv hi hsv
  · rcases instance_of_construct hi with ⟨rfl, rfl⟩ | hi
    · refine ⟨nofun, fun h => ⟨fun hmem => ?_, by simp⟩, by simp, by simp⟩
      exact absurd rfl (hfresh sv hsv _ hmem)
    · exact hs.tracksDiscovery i pri sv hi hsv

/-- A new instance knows of nothing, and nothing is registered for it. -/
theorem consistent_construct (hs : Consistent s) (created : Bool) : Consistent (construct created s).1 := by
  by_cases hzero : s.referenceCount = 0
  · exact consistent_first hs hzero created
  · exact consistent_another hs hzero created

/-- An instance that goes gives up its reference, and the last one the server. -/
theorem consistent_destruct (hs : Consistent s) (i : Nat) : Consistent (destruct i s).1 := by
  unfold destruct
  split
  · exact hs
  · rename_i pri hpri
    have hon : Consistent (Process.on i (discovering broswerCleanUp) s).1 :=
      consistent_discovering hs fun _ => keepsTrack_broswerCleanUp
    have hmem : i ∈ (Process.on i (discovering broswerCleanUp) s).1.instances := by
      simp [Process.on, hpri]
    simp only [Action.andThen_fst, Action.update_apply]
    generalize (Process.on i (discovering broswerCleanUp) s).1 = t at hon hmem
    have hkept {j : Nat} {pri : QZeroConfPrivate} (h : (t.instances.erase i)[j]? = some pri) :
        t.instances[j]? = some pri := by
      rw [Std.ExtTreeMap.getElem?_erase] at h
      split at h
      · cases h
      · exact h
    have hserver {sv : AvahiServer} (h : (if t.referenceCount - 1 = 0 then none else t.server) = some sv) :
        t.referenceCount - 1 ≠ 0 ∧ t.server = some sv := by
      split at h
      · cases h
      · rename_i hcount
        exact ⟨hcount, h⟩
    have hcount : t.referenceCount - 1 = (t.instances.erase i).size := by
      simp [Std.ExtTreeMap.size_erase, hmem, hon.count]
    refine ⟨?_, fun sv hsv => (hserver hsv).1, fun j hj => ?_, fun sv hsv => hon.userdata sv (hserver hsv).2,
      fun sv hsv => hon.objects sv (hserver hsv).2, fun j pri hj hready => ?_,
      fun j pri sv hj hsv => hon.tracksGroup j pri sv (hkept hj) (hserver hsv).2,
      fun j pri sv hj hsv => hon.tracksDiscovery j pri sv (hkept hj) (hserver hsv).2⟩
    · exact hcount
    · exact hon.issued j (Std.ExtTreeMap.mem_of_mem_erase hj)
    · obtain ⟨sv, hsv, huserdata⟩ := hon.ready j pri (hkept hj) hready
      refine ⟨sv, ?_, huserdata⟩
      have hleft : t.referenceCount - 1 ≠ 0 := by
        intro hzero
        rw [hcount, ← Std.ExtTreeMap.eq_empty_iff_size_eq_zero] at hzero
        rw [hzero] at hj
        simp at hj
      rw [if_neg hleft, hsv]

/-- The state of the server is no part of what has to be kept. -/
theorem Consistent.with_state (hs : Consistent s) {sv : AvahiServer} (hsv : s.server = some sv)
    (state : AvahiServerState) : Consistent { s with server := some { sv with state } } where
  count := hs.count
  counted := fun _ _ => hs.counted sv hsv
  issued := hs.issued
  userdata := by
    rintro _ ⟨⟩
    exact hs.userdata sv hsv
  objects := by
    rintro _ ⟨⟩
    exact hs.objects sv hsv
  ready := by
    intro i pri hi hready
    obtain ⟨sv', hsv', huserdata⟩ := hs.ready i pri hi hready
    rw [hsv, Option.some.injEq] at hsv'
    exact ⟨_, rfl, hsv' ▸ huserdata⟩
  tracksGroup := by
    rintro i pri _ hi ⟨⟩
    exact hs.tracksGroup i pri sv hi hsv
  tracksDiscovery := by
    rintro i pri _ hi ⟨⟩
    exact hs.tracksDiscovery i pri sv hi hsv

theorem consistent_deliver (hs : Consistent s) {o : Object} {kind : Kind}
    {a : Action QZeroConfPrivate InstanceOutput}
    (ha : ∀ sv, s.server = some sv → o ∈ sv.objects → o.kind = kind →
      Consistent (Process.on o.userdata a s).1) :
    Consistent (Process.deliver o kind a s).1 := by
  unfold Process.deliver
  split
  · exact hs
  · rename_i sv hsv
    split
    · rename_i ho
      exact ha sv hsv ho.1 ho.2
    · exact hs

theorem consistent_step (hs : Consistent s) (e : Event) : Consistent (step s e).1 := by
  cases e with
  | construct created => exact consistent_construct hs created
  | destruct i => exact consistent_destruct hs i
  | call i answer c =>
    refine consistent_publishing hs (fun pri hpri hready => ?_) fun pri sv hpri hsv => ?_
    · exact Or.inl (by rwa [call_ready] at hready)
    · exact keepsGroup_call answer c
  | startBrowser i created type protocol =>
    simp only [step, answerEvent]
    split
    · exact hs
    · exact consistent_discovering hs fun _ => keepsTrack_startBrowser created type protocol
  | stopBrowser i => exact consistent_discovering hs fun _ => keepsTrack_broswerCleanUp
  | serverCallback answer state =>
    simp only [step, answerEvent]
    split
    · exact hs
    · rename_i sv hsv
      refine consistent_publishing (hs.with_state hsv state) (fun pri hpri hready => ?_)
        fun pri sv' hpri hsv' => ?_
      · exact Or.inr ⟨_, rfl, rfl⟩
      · cases hsv'
        exact keepsGroup_serverCallback answer state
  | groupCallback group state =>
    refine consistent_deliver hs fun sv hsv ho hkind => ?_
    refine consistent_publishing hs (fun pri hpri hready => ?_) fun pri sv' hpri hsv' => ?_
    · exact Or.inl (by rwa [(groupCallback_flags group.handle state pri.publisher).1] at hready)
    · have htracks := hs.tracksGroup _ pri sv' hpri hsv'
      refine keepsGroup_groupCallback state ((htracks.group group.handle).mp ?_)
      rw [← hkind]
      rw [hsv, Option.some.injEq] at hsv'
      exact hsv' ▸ ho
  | browseCallback browser created interface protocol event name type domain =>
    refine consistent_deliver hs fun sv hsv ho hkind => ?_
    exact consistent_discovering hs fun _ =>
      keepsTrack_browseCallback created interface protocol event name type domain
  | resolveCallback resolver interface event name type domain =>
    refine consistent_deliver hs fun sv hsv ho hkind => ?_
    exact consistent_discovering hs fun _ => keepsTrack_resolveCallback interface event name type domain

end qtzeroconf.avahicore
