import QtZeroConf.AvahiCore.Registering

open reactive keyed

namespace qtzeroconf.avahi.server

open avahicore (AVAHI_IF_UNSPEC AvahiEntryGroupState)

/-- The invariant holds after an action, and no assertion has failed in it. -/
def Safe (q : Ghost) (t : AvahiServer × List Output) : Prop := Sound q t.1 ∧ ∀ o ∈ t.2, Regular o

section

variable {q : Ghost} {s : AvahiServer} {g : Nat}

theorem Safe.silent (h : Sound q s) : Safe q (s, []) := ⟨h, nofun⟩

theorem Safe.error (h : Sound q s) (error : AvahiError) : Safe q (s, [.error error]) :=
  ⟨h, List.forall_mem_singleton.mpr (by simp [Regular])⟩

theorem Safe.andThen {q' : Ghost} {a b : Action AvahiServer Output} (ha : Safe q (a s))
    (hb : Sound q (a s).1 → Safe q' (b (a s).1)) : Safe q' (Action.andThen a b s) :=
  ⟨(hb ha.1).1, List.forall_mem_append.mpr ⟨ha.2, (hb ha.1).2⟩⟩

theorem Safe.update {f : AvahiServer → AvahiServer} {b : Action AvahiServer Output} (h : Safe q (b (f s))) :
    Safe q (Action.andThen (Action.update f) b s) := ⟨h.1, h.2⟩

/-- No group is being dealt with any more. -/
theorem Safe.settled (hq : q.except = none) {t : AvahiServer × List Output} (h : Safe { q with except := none } t) :
    Safe q t := by
  rw [← hq] at h
  exact h

/-- A group is written that stays what it is for its announcers. -/
theorem Sound.modify (h : Sound q s) {f : AvahiSEntryGroup → AvahiSEntryGroup}
    (hdead : (f (s.groups g)).dead = (s.groups g).dead) (hstate : (f (s.groups g)).state = (s.groups g).state)
    (hcount : (f (s.groups g)).n_probing = (s.groups g).n_probing) (hgoing : q.except ≠ some g → (f (s.groups g)).Going)
    (hholdoff : (f (s.groups g)).register_time_event.isSome → (s.groups g).state = .AVAHI_ENTRY_GROUP_REGISTERING) :
    Sound q (s.modify_group g f) := by
  have hgroups (k : Nat) : (s.modify_group g f).groups k = if k = g then f (s.groups g) else s.groups k := rfl
  have hdead' (k : Nat) : ((s.modify_group g f).groups k).dead = (s.groups k).dead := by
    rw [hgroups]
    split_ifs with hk
    · rw [hdead, hk]
    · rfl
  have hstate' := state_modify_group s g hstate
  refine ⟨h.distinct, h.entries, h.numbered, fun e he halive k hk => (hdead' k).trans (h.living e he halive k hk),
    fun a ha => (h.placed a ha).congr rfl (fun k => ⟨hdead' k, hstate' k⟩) rfl, fun k hk => ?_, fun k hk => ?_,
    fun k hk => ?_, fun k hk => h.fresh k ((hstate' k).symm.trans hk)⟩
  · have hcounted := h.counted k ((hdead' k).symm.trans hk)
    change (s.probing k : Int) ≤ _ ∧ (_ → _ = (s.probing k : Int))
    rw [hgroups]
    split_ifs with heq
    · rw [hcount, ← heq]
      exact hcounted
    · exact hcounted
  · rw [hgroups]
    split_ifs with heq
    · exact hgoing (heq ▸ hk)
    · exact h.going k hk
  · rw [hstate']
    rw [hgroups] at hk
    split_ifs at hk with heq
    · exact heq ▸ hholdoff hk
    · exact h.holdoff k hk

theorem modify_modify_group (s : AvahiServer) (g : Nat) (f f' : AvahiSEntryGroup → AvahiSEntryGroup) :
    (s.modify_group g f).modify_group g f' = s.modify_group g fun group => f' (f group) := by
  have hgroups : ((s.modify_group g f).modify_group g f').groups = (s.modify_group g fun group => f' (f group)).groups := by
    funext k
    by_cases hk : k = g <;> simp [AvahiServer.modify_group, hk]
  exact congrArg (fun groups => { s with groups := groups }) hgroups

/-- No group is established when one registers. -/
theorem Steady.change_state (hsteady : Steady q s) {t : AvahiServer} {state : AvahiEntryGroupState}
    (hne : state ≠ .AVAHI_ENTRY_GROUP_ESTABLISHED)
    (hstates : ∀ k, (t.groups k).state = (s.groups k).state ∨ (t.groups k).state = .AVAHI_ENTRY_GROUP_UNCOMMITED ∨
      k = g ∧ (t.groups k).state = state) : Steady q t := by
  intro k hk
  rcases hstates k with hsame | huncommited | ⟨-, hnew⟩
  · exact hsteady k (hsame.symm.trans hk)
  · rw [huncommited] at hk
    cases hk
  · exact absurd (hnew.symm.trans hk) hne

/-- The end of `entry_group_commit_real`. -/
theorem sound_announced (h : Sound q s) (hq : q.except = some g) (hsteady : Steady q s)
    (hready : (s.groups g).state = .AVAHI_ENTRY_GROUP_REGISTERING ∨ ¬ (s.groups g).Committed) :
    Safe { q with except := none } (if (s.groups g).dead then (s, []) else
      Action.andThen (Action.update (avahi_announce_group g)) (avahi_s_entry_group_check_probed g false) s) ∧
    ((s.groups g).register_time_event = none →
      ((if (s.groups g).dead then (s, []) else
        Action.andThen (Action.update (avahi_announce_group g)) (avahi_s_entry_group_check_probed g false) s).1.groups
          g).Registers →
      ((if (s.groups g).dead then (s, []) else
        Action.andThen (Action.update (avahi_announce_group g)) (avahi_s_entry_group_check_probed g false) s).1.groups
          g).register_time_event = none) := by
  split
  · rename_i hdead
    refine ⟨Safe.silent (h.ended hq fun hcommitted => ?_), fun htime _ => htime⟩
    rw [hcommitted.1] at hdead
    cases hdead
  rename_i halive
  obtain ⟨hannounced, hframe⟩ := sound_announce_group h hsteady g
  have halive' : ((avahi_announce_group g s).groups g).dead = false :=
    (hframe.groups g).1.trans (by simpa using halive)
  have hchecked := sound_check_probed hannounced hq false halive' fun a ha hgroup _ => ?_
  · refine ⟨Safe.update ⟨hchecked.1, hchecked.2.1⟩, fun htime hregisters => ?_⟩
    rcases hchecked.2.2 with ⟨-, hsame⟩ | hleft
    · rw [Action.andThen_fst, Action.update_apply, hsame]
      exact (hframe.groups g).2.2.trans htime
    · exact absurd hregisters hleft
  · rw [(hframe.groups g).2.1]
    rcases hready with hregistering | hnot
    · exact hregistering
    · refine absurd hgroup (hannounced.silent ?_ a ha)
      rwa [AvahiSEntryGroup.Committed, (hframe.groups g).1, (hframe.groups g).2.1]

/-- A group that has no announcers, or that registers already, is committed. -/
theorem sound_commit_real (h : Sound q s) (hq : q.except = some g) (hsteady : Steady q s)
    (hready : (s.groups g).state = .AVAHI_ENTRY_GROUP_REGISTERING ∨ ∀ a ∈ s.announcers, a.entry.group ≠ some g) :
    Safe { q with except := none } (entry_group_commit_real g s) := by
  have hwritten : Sound q (s.modify_group g fun group => { group with register_time := s.now }) :=
    h.modify rfl rfl rfl (fun hne => absurd hq hne) (h.holdoff g)
  have hstates₁ := state_modify_group s g (f := fun group => { group with register_time := s.now }) rfl
  have hsteady₁ : Steady q (s.modify_group g fun group => { group with register_time := s.now }) :=
    fun k hk => hsteady k ((hstates₁ k).symm.trans hk)
  have hready₁ : ((s.modify_group g fun group => { group with register_time := s.now }).groups g).state ≠
      .AVAHI_ENTRY_GROUP_REGISTERING → ∀ a ∈ s.announcers, a.entry.group ≠ some g := by
    intro hne
    rw [hstates₁] at hne
    exact hready.resolve_left hne
  refine Safe.update ?_
  have hannouncers : (s.modify_group g fun group => { group with register_time := s.now }).announcers = s.announcers := rfl
  generalize s.modify_group g (fun group => { group with register_time := s.now }) = s₁ at *
  obtain ⟨hsound, houtputs, hend, hstates⟩ := sound_change_state hwritten hq .AVAHI_ENTRY_GROUP_REGISTERING
    fun hne => Or.inl (hannouncers ▸ hready₁ hne)
  have hsteady₂ := hsteady₁.change_state (by nofun) hstates
  refine Safe.andThen ⟨hsound, houtputs⟩ fun _ => ?_
  refine (sound_announced hsound hq hsteady₂ (hend.imp_left fun hsame => ?_)).1
  rw [hsame]
  split_ifs with hregistering
  · exact hregistering
  · exact (congrArg AvahiSEntryGroup.state (if_pos rfl)).trans (enter_fields ..).1

theorem enter_holdoff (group : AvahiSEntryGroup) (h : group.state ≠ .AVAHI_ENTRY_GROUP_REGISTERING) (now : Int)
    (state : AvahiEntryGroupState) : (group.enter now state).register_time_event = group.register_time_event := by
  unfold AvahiSEntryGroup.enter
  cases hstate : group.state with
  | AVAHI_ENTRY_GROUP_REGISTERING => exact absurd hstate h
  | _ =>
    dsimp only
    split_ifs <;> rfl

/-- A group without announcers starts to wait for its holdoff. -/
theorem sound_holdoff (h : Sound q s) (hq : q.except = some g) (time : Int)
    (hstate : (s.groups g).state ≠ .AVAHI_ENTRY_GROUP_REGISTERING) (hnone : ∀ a ∈ s.announcers, a.entry.group ≠ some g)
    (hcounted : (s.groups g).dead = false) :
    Safe { q with except := none } (Action.andThen
      (Action.update (·.modify_group g fun group => { group with register_time_event := some time }))
      (avahi_s_entry_group_change_state g .AVAHI_ENTRY_GROUP_REGISTERING) s) := by
  have hzero : s.probing g = 0 := probing_eq_zero hnone
  obtain ⟨hle, hexact⟩ := h.counted g hcounted
  rw [hzero] at hle hexact
  obtain ⟨hregistering, hdead, hcount⟩ :=
    enter_fields { s.groups g with register_time_event := some time } s.now .AVAHI_ENTRY_GROUP_REGISTERING
  have htime := enter_holdoff { s.groups g with register_time_event := some time } hstate s.now
    .AVAHI_ENTRY_GROUP_REGISTERING
  have hentered : Sound q (s.modify_group g fun group =>
      ({ group with register_time_event := some time } : AvahiSEntryGroup).enter s.now .AVAHI_ENTRY_GROUP_REGISTERING) :=
    h.write hnone (fun _ _ _ _ => hdead.trans hcounted) (fun _ => hcount.symm ▸ ⟨hle, hexact⟩) (fun hne => absurd hq hne)
      fun _ => hregistering
  refine Safe.update ?_
  have hstate₁ : ((s.modify_group g fun group => { group with register_time_event := some time }).groups g).state ≠
      .AVAHI_ENTRY_GROUP_REGISTERING := by
    rwa [state_modify_group s g rfl]
  unfold avahi_s_entry_group_change_state
  rw [if_neg hstate₁]
  have henter : (enter g .AVAHI_ENTRY_GROUP_REGISTERING
      (s.modify_group g fun group => { group with register_time_event := some time })).1 = s.modify_group g fun group =>
      ({ group with register_time_event := some time } : AvahiSEntryGroup).enter s.now .AVAHI_ENTRY_GROUP_REGISTERING :=
    modify_modify_group s g (fun group => { group with register_time_event := some time })
      fun group => group.enter s.now .AVAHI_ENTRY_GROUP_REGISTERING
  refine Safe.andThen ⟨henter.symm ▸ hentered, regular_enter _ _ _⟩ fun hsound => ?_
  obtain ⟨hcalled, houtputs, hend, -⟩ := sound_call hsound hq .AVAHI_ENTRY_GROUP_REGISTERING
  refine ⟨?_, houtputs⟩
  rcases hend with hsame | hend
  · rw [hsame, henter]
    refine hentered.lower hq (fun _ _ hclear => ?_) fun a ha hgroup => absurd hgroup (hnone a ha)
    have hclear' := (congrArg AvahiSEntryGroup.register_time_event (if_pos rfl)).symm.trans hclear
    rw [htime] at hclear'
    cases hclear'
  · exact hcalled.ended hq hend

/-- The commit of a group. -/
theorem sound_commit (h : Sound q s) (hq : q.except = none) (hsteady : Steady q s) (halive : (s.groups g).dead = false) :
    Safe q (avahi_s_entry_group_commit g s) := by
  unfold avahi_s_entry_group_commit
  dsimp only
  split
  · exact Safe.error h _
  rename_i hstate
  split
  · exact Safe.error h _
  have hregistering : (s.groups g).state ≠ .AVAHI_ENTRY_GROUP_REGISTERING := by
    intro hregistering
    rw [hregistering] at hstate
    exact hstate ⟨nofun, nofun⟩
  have hnone : ∀ a ∈ s.announcers, a.entry.group ≠ some g := by
    refine h.silent fun hcommitted => ?_
    rcases hcommitted.2 with hcommitted | hcommitted <;> rw [hcommitted] at hstate <;> exact hstate ⟨nofun, nofun⟩
  generalize hf : (fun group : AvahiSEntryGroup => { group with
    n_register_try := (s.groups g).n_register_try + 1
    register_time := (s.groups g).register_time + 1000 * (if AVAHI_RR_RATE_LIMIT_COUNT ≤ (s.groups g).n_register_try + 1
      then AVAHI_RR_HOLDOFF_MSEC_RATE_LIMIT else AVAHI_RR_HOLDOFF_MSEC) }) = f
  have hfields (group : AvahiSEntryGroup) : (f group).dead = group.dead ∧ (f group).state = group.state ∧
      (f group).n_probing = group.n_probing ∧ (f group).register_time_event = group.register_time_event := by
    rw [← hf]
    exact ⟨rfl, rfl, rfl, rfl⟩
  obtain ⟨hdead, hsame, hcount, htime⟩ := hfields (s.groups g)
  have hraised : Sound { q with except := some g } (s.modify_group g f) :=
    (h.raise hq g).modify hdead hsame hcount (fun hne => absurd rfl hne) (htime ▸ h.holdoff g)
  have hstates := state_modify_group s g hsame
  by_cases hnow : (s.groups g).register_time + 1000 * (if AVAHI_RR_RATE_LIMIT_COUNT ≤ (s.groups g).n_register_try + 1
      then AVAHI_RR_HOLDOFF_MSEC_RATE_LIMIT else AVAHI_RR_HOLDOFF_MSEC) ≤ (s.modify_group g f).now
  · rw [if_pos hnow]
    have hreal := sound_commit_real hraised rfl (fun k hk => hsteady k ((hstates k).symm.trans hk)) (Or.inr hnone)
    exact Safe.settled hq hreal
  · rw [if_neg hnow]
    split
    · rename_i hwaits
      exact absurd (h.holdoff g hwaits) hregistering
    · have hheld := sound_holdoff hraised rfl ((s.groups g).register_time + 1000 *
        (if AVAHI_RR_RATE_LIMIT_COUNT ≤ (s.groups g).n_register_try + 1 then AVAHI_RR_HOLDOFF_MSEC_RATE_LIMIT
          else AVAHI_RR_HOLDOFF_MSEC)) (fun hstate => hregistering ((hstates g).symm.trans hstate)) hnone
        ((modify_group_field (·.dead) s g hdead g).trans halive)
      exact Safe.settled hq hheld

/-- The holdoff of a group is over. -/
theorem sound_register_time_event (h : Sound q s) (hq : q.except = none) (hsteady : Steady q s)
    (htime : (s.groups g).register_time_event.isSome) : Safe q (entry_group_register_time_event_callback g s) := by
  have hregistering := h.holdoff g htime
  have hwritten := (h.raise hq g).modify (f := fun group => { group with register_time_event := none }) (g := g)
    rfl rfl rfl (fun hne => absurd rfl hne) nofun
  have hstates := state_modify_group s g (f := fun group => { group with register_time_event := none }) rfl
  have hreal := sound_commit_real hwritten rfl (fun k hk => hsteady k ((hstates k).symm.trans hk))
    (Or.inl ((hstates g).trans hregistering))
  exact Safe.update (Safe.settled hq hreal)

/-- The entries of a group are withdrawn, and the group is not committed any more. -/
theorem sound_withdraw_group (h : Sound q s) (hq : q.except = none) (send_goodbye : Bool) {state : AvahiEntryGroupState}
    (hstate : state = .AVAHI_ENTRY_GROUP_UNCOMMITED ∨ state = .AVAHI_ENTRY_GROUP_COLLISION) :
    Safe q (Action.andThen (reset_entries g send_goodbye) (avahi_s_entry_group_change_state g state) s) := by
  obtain ⟨hreset, houtputs, -, hnone⟩ := sound_reset_entries (h.raise hq g) rfl send_goodbye
  obtain ⟨hsound, hchanged, hend, -⟩ := sound_change_state hreset rfl state fun _ => Or.inl hnone
  have hended := Safe.andThen (b := avahi_s_entry_group_change_state g state) ⟨hreset, houtputs⟩
    fun _ => ⟨hsound.ended rfl ?_, hchanged⟩
  · exact Safe.settled hq hended
  rcases hend with hsame | hend
  · have hstate' : ((avahi_s_entry_group_change_state g state (reset_entries g send_goodbye s).1).1.groups g).state = state := by
      rw [hsame]
      split_ifs with hstate'
      · exact hstate'
      · exact (congrArg AvahiSEntryGroup.state (if_pos rfl)).trans (enter_fields ..).1
    rintro ⟨-, hcommitted | hcommitted⟩ <;> rw [hstate'] at hcommitted <;> rcases hstate with hstate | hstate <;>
      rw [hstate] at hcommitted <;> cases hcommitted
  · exact hend

/-- A group is new. -/
theorem sound_group_new (h : Sound q s) (callback : AvahiEntryGroupState → Reaction) :
    Sound q (avahi_s_entry_group_new callback s) := by
  have hnone : ∀ e ∈ s.entries, e.ptr.group ≠ some s.n_groups :=
    fun e he hgroup => absurd ((h.numbered e he).2 _ hgroup) (Nat.lt_irrefl _)
  have hwritten : Sound q (s.modify_group s.n_groups fun _ => newGroup callback) := by
    refine h.write (fun a ha hgroup => ?_) (fun _ _ _ _ => rfl) (fun _ => ⟨Int.le_refl 0, fun _ => rfl⟩)
      (fun _ _ => nofun) nofun
    obtain ⟨e, he, hptr, -⟩ := (h.placed a ha).known
    exact hnone e he (hptr.symm ▸ hgroup)
  refine hwritten.change (fun _ => false) none
    { announcers := (List.filter_eq_self.mpr fun _ _ => rfl).symm, unique := hwritten.entries
      entries := fun e he => Or.inl ⟨e, he, rfl, fun halive => halive, fun _ => ⟨rfl, rfl⟩⟩
      known := fun e he halive _ => ⟨e, he, rfl, halive⟩
      same := fun _ _ => ⟨rfl, fun _ _ _ haway => absurd haway Bool.false_ne_true⟩
      now := Int.le_refl _, n_entries := Nat.le_refl _, n_groups := Nat.le_succ _ }

end

end qtzeroconf.avahi.server
