import QtZeroConf.AvahiCore.Withdrawal

open reactive keyed

namespace qtzeroconf.avahi.server

open avahicore (AVAHI_IF_UNSPEC AvahiEntryGroupState)

section

variable {q : Ghost} {s : AvahiServer}

/-- An announcer that waited announces, or has announced. -/
theorem stop_waiting_spec (immediately : Bool) (a : AvahiAnnouncer) (s : AvahiServer) :
    ∃ a', (stop_waiting immediately a s).1 = s.put a' ∧ a'.key = a.key ∧
      (a'.state = .ANNOUNCING ∧ a'.time_event.isSome ∨ a'.state = .ESTABLISHED) ∧
      ∀ o ∈ (stop_waiting immediately a s).2, Regular o := by
  unfold stop_waiting
  split
  · obtain ⟨a', heq, hkey, hstate⟩ := announce_spec { a with state := .ANNOUNCING, n_iteration := 1 } rfl s
    rw [heq]
    exact ⟨a', rfl, hkey, hstate, List.forall_mem_singleton.mpr (by simp [Regular])⟩
  · exact ⟨_, rfl, rfl, Or.inl ⟨rfl, rfl⟩, List.forall_mem_nil _⟩

/-- The loop of `avahi_s_entry_group_check_probed`, over announcers that do not
    probe: none of the group waits behind it. -/
theorem sound_stop_waiting (h : Sound q s) {g : Nat} (immediately : Bool) {l : List AvahiAnnouncer}
    (hl : ∀ a ∈ l, ∃ b ∈ s.announcers, b.key = a.key ∧ b.state ≠ .PROBING)
    (hall : ∀ b ∈ s.announcers, b.entry.group = some g → b.state = .WAITING → ∃ a ∈ l, a.key = b.key) :
    Sound q (Action.forEach (stop_waiting immediately) l s).1 ∧
      (∀ o ∈ (Action.forEach (stop_waiting immediately) l s).2, Regular o) ∧
      (Action.forEach (stop_waiting immediately) l s).1.groups = s.groups ∧
      ∀ b ∈ (Action.forEach (stop_waiting immediately) l s).1.announcers, b.entry.group = some g → b.state ≠ .WAITING := by
  induction l generalizing s with
  | nil =>
    refine ⟨h, List.forall_mem_nil _, rfl, fun b hb hgroup hwait => ?_⟩
    obtain ⟨a, ha, -⟩ := hall b hb hgroup hwait
    cases ha
  | cons a l ih =>
    obtain ⟨b, hb, hkey, hstate⟩ := hl a List.mem_cons_self
    obtain ⟨a', heq, hkey', hpast, houtputs⟩ := stop_waiting_spec immediately a s
    have hne : a'.state ≠ .PROBING := by rcases hpast with ⟨ha', -⟩ | ha' <;> rw [ha'] <;> decide
    have hplaced := (h.placed b hb).past (hkey'.trans hkey.symm) hpast fun _ hprobing => absurd hprobing hstate
    have hput := h.put_same hb (hkey'.trans hkey.symm) hplaced hne hstate
    have hlater : ∀ x ∈ l, ∃ y ∈ (s.put a').announcers, y.key = x.key ∧ y.state ≠ .PROBING := by
      intro x hx
      obtain ⟨y, hy, hykey, hystate⟩ := hl x (List.mem_cons_of_mem _ hx)
      by_cases hsame : y.key = a'.key
      · exact ⟨a', mem_replace.mpr (Or.inl ⟨rfl, hsame ▸ List.mem_map_of_mem hy⟩), hsame.symm.trans hykey, hne⟩
      · exact ⟨y, mem_replace.mpr (Or.inr ⟨hy, hsame⟩), hykey, hystate⟩
    have hlisted : ∀ x ∈ (s.put a').announcers, x.entry.group = some g → x.state = .WAITING → ∃ y ∈ l, y.key = x.key := by
      intro x hx hgroup hwait
      rcases mem_replace.mp hx with ⟨rfl, -⟩ | ⟨hx, hdifferent⟩
      · rcases hpast with ⟨ha', -⟩ | ha' <;> rw [ha'] at hwait <;> cases hwait
      · obtain ⟨y, hy, hykey⟩ := hall x hx hgroup hwait
        rcases List.mem_cons.mp hy with rfl | hy
        · exact absurd (hykey.symm.trans hkey'.symm) hdifferent
        · exact ⟨y, hy, hykey⟩
    obtain ⟨hsound, hrest, hgroups, hnone⟩ := ih hput hlater hlisted
    rw [← heq] at hsound hrest hgroups hnone
    refine ⟨hsound, List.forall_mem_append.mpr ⟨houtputs, hrest⟩, ?_, hnone⟩
    rw [Action.forEach_cons, Action.andThen_fst, hgroups, heq]
    rfl

/-- A group whose announcers have all probed is established, so that it does not
    register any more. -/
theorem sound_check_probed (h : Sound q s) {g : Nat} (hq : q.except = some g) (immediately : Bool)
    (halive : (s.groups g).dead = false)
    (hreleased : ∀ a ∈ s.announcers, a.entry.group = some g → a.state = .WAITING →
      (s.groups g).state = .AVAHI_ENTRY_GROUP_REGISTERING) :
    Sound { q with except := none } (avahi_s_entry_group_check_probed g immediately s).1 ∧
      (∀ o ∈ (avahi_s_entry_group_check_probed g immediately s).2, Regular o) ∧
      (0 < (s.groups g).n_probing ∧ avahi_s_entry_group_check_probed g immediately s = (s, []) ∨
        ¬ ((avahi_s_entry_group_check_probed g immediately s).1.groups g).Registers) := by
  unfold avahi_s_entry_group_check_probed
  rw [if_neg (by rw [halive]; exact Bool.false_ne_true)]
  split
  · rename_i hnot
    refine ⟨h.lower hq (fun _ hstate _ => ?_) hreleased, List.forall_mem_nil _, ?_⟩
    · rcases hnot with hnot | hpositive
      · exact absurd hstate hnot
      · exact hpositive
    · rcases hnot with hnot | hpositive
      · exact Or.inr fun hregisters => hnot hregisters.2
      · exact Or.inl ⟨hpositive, rfl⟩
  rename_i hready
  rw [not_or, not_not] at hready
  obtain ⟨hregistering, hzero⟩ := hready
  have hprobed : s.probing g = 0 := by
    have hle := (h.counted g halive).1
    omega
  obtain ⟨hsound, houtputs, hend, -⟩ := sound_change_state h hq .AVAHI_ENTRY_GROUP_ESTABLISHED
    fun _ => Or.inr ⟨rfl, hprobed⟩
  rw [hregistering, if_neg (by decide)] at hend
  generalize hchange : avahi_s_entry_group_change_state g .AVAHI_ENTRY_GROUP_ESTABLISHED s = t at hsound houtputs hend
  simp only [Action.andThen_fst, Action.andThen_snd, hchange]
  split
  · rename_i hdead
    refine ⟨hsound.ended hq fun hcommitted => ?_, by simpa using houtputs, Or.inr fun hregisters => ?_⟩
    · rw [hcommitted.1] at hdead
      cases hdead
    · rw [hregisters.1] at hdead
      cases hdead
  -- the announcers in the list of the loop
  have hlist {a : AvahiAnnouncer} : a ∈ ((t.1.group_entries g).flatMap fun e =>
      t.1.announcers.filter fun a => a.entry = e.ptr ∧ a.state = .WAITING) ↔
      a ∈ t.1.announcers ∧ a.entry.group = some g ∧ a.state = .WAITING := by
    simp only [List.mem_flatMap, AvahiServer.group_entries, List.mem_filter, decide_eq_true_eq]
    constructor
    · rintro ⟨e, ⟨-, hgroup⟩, ha, hentry, hwait⟩
      exact ⟨ha, hentry ▸ hgroup, hwait⟩
    · rintro ⟨ha, hgroup, hwait⟩
      obtain ⟨e, he, hptr, -⟩ := (hsound.placed a ha).known
      exact ⟨e, ⟨he, hptr.symm ▸ hgroup⟩, ha, hptr.symm, hwait⟩
  obtain ⟨hloop, hlooped, hgroups, hnone⟩ := sound_stop_waiting hsound immediately (g := g)
    (l := (t.1.group_entries g).flatMap fun e => t.1.announcers.filter fun a => a.entry = e.ptr ∧ a.state = .WAITING)
    (fun a ha => ⟨a, (hlist.mp ha).1, rfl, by rw [(hlist.mp ha).2.2]; decide⟩)
    fun b hb hgroup hwait => ⟨b, hlist.mpr ⟨hb, hgroup, hwait⟩, rfl⟩
  have hleft : ¬ (t.1.groups g).Registers := by
    rcases hend with hsame | hend
    · have hstate : (t.1.groups g).state = .AVAHI_ENTRY_GROUP_ESTABLISHED := by
        rw [hsame]
        exact (congrArg AvahiSEntryGroup.state (if_pos rfl)).trans (enter_fields ..).1
      rintro ⟨-, hregistering'⟩
      rw [hstate] at hregistering'
      cases hregistering'
    · exact fun hregisters => hend ⟨hregisters.1, Or.inl hregisters.2⟩
  refine ⟨?_, List.forall_mem_append.mpr ⟨houtputs, hlooped⟩, Or.inr (hgroups.symm ▸ hleft)⟩
  refine hloop.lower hq (fun halive hregistering' _ => ?_) fun a ha hgroup hwait => absurd hwait (hnone a ha hgroup)
  rw [hgroups] at halive hregistering'
  exact absurd ⟨halive, hregistering'⟩ hleft

theorem count_none (p : EntryPtr) (hp : p.group = none) (d : Int) : s.count p d = s := by
  have hgroups : (s.count p d).groups = s.groups := by
    funext g
    rw [groups_count, hp]
    rfl
  exact congrArg (fun groups => { s with groups := groups }) hgroups

/-- The last probe of an announcer is over, and it waits for its group. -/
theorem Sound.probed (h : Sound q s) (hq : q.except = none) {a : AvahiAnnouncer} (ha : a ∈ s.announcers)
    (hprobing : a.state = .PROBING) {g : Nat} (hgroup : a.entry.group = some g)
    (hdone : Probes q.log a.entry a.interface 3 s.now) :
    Sound { q with except := some g } ((s.count a.entry (-1)).put { a with state := .WAITING, time_event := none }) := by
  have hplaced := h.placed a ha
  have hweight : a.state.weight = 1 := by rw [AvahiAnnouncerState.weight, hprobing]; rfl
  have hwaiting : Placed { q with except := some g } s { a with state := .WAITING, time_event := none } :=
    ⟨hplaced.known, hplaced.committed, fun _ => ⟨g, hgroup, Or.inl rfl⟩, fun hann => AvahiAnnouncerState.noConfusion hann,
      fun hprobing' => AvahiAnnouncerState.noConfusion hprobing', fun _ _ _ _ _ _ _ => hdone⟩
  exact (h.raise hq g).put (a := { a with state := .WAITING, time_event := none }) ha rfl hwaiting (d := -1)
    (by rw [hweight]; rfl) (fun k hk _ => congrArg some (Option.some.inj (hgroup.symm.trans hk)))
    fun _ _ hpositive => absurd hpositive (by decide)

/-- The invariant holds after an action, with what has been done in the log, and
    no assertion has failed in it. -/
def Logged (q : Ghost) (t : AvahiServer × List Output) : Prop :=
  Sound { q with log := q.log ++ t.2 } t.1 ∧ ∀ o ∈ t.2, Regular o

theorem Logged.of_sound {t : AvahiServer × List Output} (h : Sound q t.1) (houtputs : ∀ o ∈ t.2, Regular o) : Logged q t :=
  ⟨h.log fun _ ho => List.mem_append_left _ ho, houtputs⟩

theorem Logged.announce {t : AvahiServer} (h : Sound q t) (p : EntryPtr) (i : AvahiInterface) :
    Logged q (t, [.announce p i]) :=
  .of_sound h (List.forall_mem_singleton.mpr (by simp [Regular]))

/-- An announcer that waits does so for a group that registers, unless that is
    being dealt with. -/
theorem Sound.waits (h : Sound q s) (hq : q.except = none) {g : Nat} :
    ∀ b ∈ s.announcers, b.entry.group = some g → b.state = .WAITING →
      (s.groups g).state = .AVAHI_ENTRY_GROUP_REGISTERING := by
  intro b hb hgroup hwait
  obtain ⟨k, hk, hexcept | hstate⟩ := (h.placed b hb).released hwait
  · rw [hq] at hexcept
    cases hexcept
  · rwa [Option.some.inj (hgroup.symm.trans hk)]

/-- Once a group has been checked, no group is being dealt with any more. -/
theorem logged_check_probed {g : Nat} (hq : q.except = none) (h : Sound { q with except := some g } s)
    (halive : (s.groups g).dead = false)
    (hreleased : ∀ a ∈ s.announcers, a.entry.group = some g → a.state = .WAITING →
      (s.groups g).state = .AVAHI_ENTRY_GROUP_REGISTERING) :
    Logged q (avahi_s_entry_group_check_probed g true s) := by
  have hnone : ({ q with except := none } : Ghost) = q := by rw [← hq]
  have hchecked := sound_check_probed h rfl true halive hreleased
  exact .of_sound (hnone ▸ hchecked.1) hchecked.2.1

/-- The time of an announcer is up that waits. -/
theorem logged_waiting (h : Sound q s) (hq : q.except = none) {a : AvahiAnnouncer} (ha : a ∈ s.announcers)
    (hwait : a.state = .WAITING) : Logged q (next_state a s) := by
  obtain ⟨g, hgroup, -⟩ := (h.placed a ha).released hwait
  have hcommitted := (h.placed a ha).committed g hgroup
  simp only [next_state, hwait, hgroup]
  exact logged_check_probed hq (h.raise hq g) hcommitted.1 (h.waits hq)

/-- An announcer whose probes are done announces at once. -/
theorem announce_probed {a : AvahiAnnouncer} (h : Placed q s a) (hdone : Probes q.log a.entry a.interface 3 s.now)
    (t : AvahiServer) :
    ∃ a', announce { a with state := .ANNOUNCING, n_iteration := 1, time_event := none } t =
        (t.put a', [.announce a.entry a.interface]) ∧ a'.key = a.key ∧ a'.state.weight = 0 ∧
      a'.state ≠ .WAITING ∧ Placed q s a' := by
  obtain ⟨a', heq, hkey, hpast⟩ := announce_spec { a with state := .ANNOUNCING, n_iteration := 1, time_event := none } rfl t
  have hnew : a'.state = .ANNOUNCING ∨ a'.state = .ESTABLISHED := hpast.imp_left And.left
  refine ⟨a', heq, hkey, ?_, ?_, h.past hkey hpast fun _ _ => hdone⟩
  · rcases hnew with hnew | hnew <;> rw [hnew] <;> rfl
  · rcases hnew with hnew | hnew <;> rw [hnew] <;> decide

/-- The probes for an entry without a group are done. -/
theorem logged_probed_alone (h : Sound q s) {a : AvahiAnnouncer} (ha : a ∈ s.announcers) (hprobing : a.state = .PROBING)
    (hgroup : a.entry.group = none) (hdone : Probes q.log a.entry a.interface 3 s.now) :
    Logged q (announce { a with state := .ANNOUNCING, n_iteration := 1, time_event := none } s) := by
  have hweight : a.state.weight = 1 := by rw [AvahiAnnouncerState.weight, hprobing]; rfl
  obtain ⟨a', heq, hkey, hweight', -, hplaced⟩ := announce_probed (h.placed a ha) hdone s
  have hentry : a'.entry = a.entry := congrArg Prod.fst hkey
  have hput := h.put ha hkey hplaced (d := -1) (by omega)
    (fun g hg => by rw [hentry, hgroup] at hg; cases hg) fun g hg => by rw [hentry, hgroup] at hg; cases hg
  rw [count_none _ (hentry.symm ▸ hgroup)] at hput
  rw [heq]
  exact .announce hput _ _

/-- The probes for an entry are done whose group does not register. -/
theorem logged_probed_late (h : Sound q s) (hq : q.except = none) {a : AvahiAnnouncer} (ha : a ∈ s.announcers)
    (hprobing : a.state = .PROBING) {g : Nat} (hgroup : a.entry.group = some g)
    (hlate : (s.groups g).state ≠ .AVAHI_ENTRY_GROUP_REGISTERING)
    (hdone : Probes q.log a.entry a.interface 3 s.now) :
    Logged q (announce { a with state := .ANNOUNCING, n_iteration := 1, time_event := none } (s.count a.entry (-1))) := by
  have hweight : a.state.weight = 1 := by rw [AvahiAnnouncerState.weight, hprobing]; rfl
  have hnone : ({ q with except := none } : Ghost) = q := by rw [← hq]
  obtain ⟨a', heq, hkey, hweight', hstate, hplaced⟩ := announce_probed (h.placed a ha) hdone (s.count a.entry (-1))
  have hentry : a'.entry = a.entry := congrArg Prod.fst hkey
  have hplaced' : Placed { q with except := some g } s a' :=
    ⟨hplaced.known, hplaced.committed, fun hwait => absurd hwait hstate, hplaced.timed, hplaced.probes, hplaced.probed⟩
  have hput := (h.raise hq g).put ha hkey hplaced' (d := -1) (by omega)
    (fun k hk _ => congrArg some (Option.some.inj (hgroup.symm.trans (hentry ▸ hk))))
    fun _ _ hpositive => absurd hpositive (by decide)
  rw [hentry] at hput
  have hlowered := hput.lower rfl (fun _ hstate _ => absurd ((state_count ..).symm.trans hstate) hlate) ?_
  · rw [heq]
    exact .announce (hnone ▸ hlowered) _ _
  · intro b hb hgroup' hwait
    rcases mem_replace.mp hb with ⟨rfl, -⟩ | ⟨hb, -⟩
    · exact absurd hwait hstate
    · exact absurd (h.waits hq b hb hgroup' hwait) hlate

/-- The probes of an announcer are done. -/
theorem logged_probed (h : Sound q s) (hq : q.except = none) {a : AvahiAnnouncer} (ha : a ∈ s.announcers)
    (hprobing : a.state = .PROBING) (hmany : 4 ≤ a.n_iteration) (hdue : a.time_event.any fun t => t ≤ s.now) :
    Logged q (next_state a s) := by
  have hdone := (h.placed a ha).done hprobing hmany hdue
  simp only [next_state, hprobing, if_pos hmany]
  cases hgroup : a.entry.group with
  | none => exact logged_probed_alone h ha hprobing hgroup hdone
  | some g =>
    have hcommitted := (h.placed a ha).committed g hgroup
    have hcounted : 0 < (s.groups g).n_probing := by
      have hle := (h.counted g hcommitted.1).1
      have hone : 0 < s.probing g := List.countP_pos_iff.mpr ⟨a, ha, by simp [ProbesFor, hprobing, hgroup]⟩
      omega
    dsimp only
    rw [if_neg (by omega), state_count]
    split_ifs with hregistering
    · exact logged_check_probed hq (h.probed hq ha hprobing hgroup hdone) ((dead_count ..).trans hcommitted.1)
        fun _ _ _ _ => (state_count ..).trans hregistering
    · exact logged_probed_late h hq ha hprobing hgroup hregistering hdone

/-- The next probe is posted. -/
theorem logged_next_probe (h : Sound q s) {a : AvahiAnnouncer} (ha : a ∈ s.announcers) (hprobing : a.state = .PROBING)
    (hfew : ¬ 4 ≤ a.n_iteration) (hdue : a.time_event.any fun t => t ≤ s.now) : Logged q (next_state a s) := by
  have hplaced := h.placed a ha
  obtain ⟨hone, -, t, htime, hprobes⟩ := hplaced.probes hprobing
  have hdue' : t ≤ s.now := by simpa [htime] using hdue
  have hposted : Probes (q.log ++ [.post_probe a.entry a.interface s.now]) a.entry a.interface a.n_iteration
      (s.elapse_time AVAHI_PROBE_INTERVAL_MSEC 0) := by
    obtain ⟨n, hn⟩ : ∃ n, a.n_iteration = n + 1 := ⟨a.n_iteration - 1, by omega⟩
    rw [hn, Nat.add_sub_cancel] at hprobes
    rw [hn]
    refine ⟨s.now, List.mem_append_right _ List.mem_cons_self, ?_, ?_⟩
    · simp [AvahiServer.elapse_time]
    · exact (hprobes.later hdue').mono fun _ ho => List.mem_append_left _ ho
  have hlogged : Sound { q with log := q.log ++ [.post_probe a.entry a.interface s.now] } s :=
    h.log fun _ ho => List.mem_append_left _ ho
  have hput := hlogged.put (d := 0)
    (a := { a with n_iteration := a.n_iteration + 1, time_event := some (s.elapse_time AVAHI_PROBE_INTERVAL_MSEC 0) })
    ha rfl ⟨hplaced.known, hplaced.committed, hplaced.released, fun _ => rfl,
      fun _ => ⟨Nat.le_add_left 1 _, show a.n_iteration + 1 ≤ 4 by omega, _, rfl, hposted⟩,
      fun _ hne => absurd hprobing hne⟩ (Int.sub_self _).symm
    (fun _ _ hnegative => absurd hnegative (by decide)) fun _ _ hpositive => absurd hpositive (by decide)
  rw [count_zero] at hput
  simp only [next_state, hprobing, if_neg hfew]
  exact ⟨hprobing ▸ hput, List.forall_mem_singleton.mpr (by simp [Regular])⟩

/-- An announcer announces. -/
theorem logged_announcing (h : Sound q s) {a : AvahiAnnouncer} (ha : a ∈ s.announcers) (hstate : a.state = .ANNOUNCING) :
    Logged q (next_state a s) := by
  obtain ⟨a', heq, hkey, hpast⟩ := announce_spec a hstate s
  have hne : a.state ≠ .PROBING := by rw [hstate]; decide
  have hne' : a'.state ≠ .PROBING := by rcases hpast with ⟨ha', -⟩ | ha' <;> rw [ha'] <;> decide
  have hplaced := (h.placed a ha).past hkey hpast fun _ hprobing => absurd hprobing hne
  simp only [next_state, hstate, heq]
  exact .announce (h.put_same ha hkey hplaced hne' hne) _ _

/-- An announcer goes on when its time is up. -/
theorem sound_next_state (h : Sound q s) (hq : q.except = none) {a : AvahiAnnouncer} (ha : a ∈ s.announcers)
    (hdue : a.time_event.any fun t => t ≤ s.now) : Logged q (next_state a s) := by
  cases hstate : a.state with
  | WAITING => exact logged_waiting h hq ha hstate
  | PROBING =>
    by_cases hmany : 4 ≤ a.n_iteration
    · exact logged_probed h hq ha hstate hmany hdue
    · exact logged_next_probe h ha hstate hmany hdue
  | ANNOUNCING => exact logged_announcing h ha hstate
  | ESTABLISHED =>
    simp only [next_state, hstate]
    exact .of_sound h (List.forall_mem_nil _)

end

end qtzeroconf.avahi.server
