import QtZeroConf.AvahiCore.Announcing

open reactive keyed

namespace qtzeroconf.avahi.server

open avahicore (AVAHI_IF_UNSPEC AvahiEntryGroupState)

/-- An output that is no failed assertion. -/
def Regular (o : Output) : Prop := o ≠ .aborted

/-- Entries are dead, and have no announcers any more. -/
def AvahiServer.bury (ptrs : List EntryPtr) (s : AvahiServer) : AvahiServer :=
  { s with
    entries := s.entries.map fun e => if e.ptr ∈ ptrs then { e with dead := true } else e
    announcers := s.announcers.filter fun a => a.entry ∉ ptrs }

theorem forEach_same {ι : Type} {body : ι → Action AvahiServer Output} (hbody : ∀ i s, (body i s).1 = s) (l : List ι)
    (s : AvahiServer) : (Action.forEach body l s).1 = s := by
  induction l generalizing s with
  | nil => rfl
  | cons i l ih => rw [Action.forEach_cons, Action.andThen_fst, hbody, ih]

theorem forEach_regular {ι : Type} {body : ι → Action AvahiServer Output} (hbody : ∀ i s, ∀ o ∈ (body i s).2, Regular o)
    (l : List ι) (s : AvahiServer) : ∀ o ∈ (Action.forEach body l s).2, Regular o := by
  induction l generalizing s with
  | nil => exact nofun
  | cons i l ih =>
    intro o ho
    rcases List.mem_append.mp ho with ho | ho
    · exact hbody i s o ho
    · exact ih _ o ho

theorem send_goodbye_same (e : AvahiEntry) (i : AvahiInterface) (s : AvahiServer) :
    (send_goodbye_callback e i s).1 = s ∧ ∀ o ∈ (send_goodbye_callback e i s).2, Regular o := by
  unfold send_goodbye_callback
  split
  · exact ⟨rfl, nofun⟩
  · exact ⟨rfl, List.forall_mem_singleton.mpr (by simp [Regular])⟩

/-- A goodbye sends records, and takes the announcers of the entry away if it
    removes. -/
theorem goodbye_entry_spec (e : AvahiEntry) (send_goodbye remove : Bool) (s : AvahiServer) :
    (avahi_goodbye_entry e send_goodbye remove s).1 =
        (if remove then { s with announcers := s.announcers.filter fun a => a.entry ≠ e.ptr } else s) ∧
      ∀ o ∈ (avahi_goodbye_entry e send_goodbye remove s).2, Regular o := by
  have hsend : ((if send_goodbye ∧ ¬ e.dead then Action.forEach (send_goodbye_callback e) s.interfaces else Action.skip :
      Action AvahiServer Output) s).1 = s := by
    split
    · exact forEach_same (fun i s => (send_goodbye_same e i s).1) _ s
    · rfl
  constructor
  · rw [avahi_goodbye_entry, Action.andThen_fst, hsend]
    split <;> rfl
  · intro o ho
    rcases List.mem_append.mp ho with ho | ho
    · split at ho
      · exact forEach_regular (fun i s => (send_goodbye_same e i s).2) _ s o ho
      · cases ho
    · split at ho <;> cases ho

theorem bury_nil (s : AvahiServer) : s.bury [] = s := by
  simp [AvahiServer.bury]

theorem bury_cons (p : EntryPtr) (ptrs : List EntryPtr) (s : AvahiServer) : (s.bury [p]).bury ptrs = s.bury (p :: ptrs) := by
  simp only [AvahiServer.bury, List.map_map, List.filter_filter]
  congr 1
  · refine List.map_congr_left fun e _ => ?_
    by_cases hp : e.ptr = p <;> by_cases hptrs : e.ptr ∈ ptrs <;> simp [hp, hptrs]
  · refine List.filter_congr fun a _ => ?_
    simp [Bool.and_comm]

/-- An entry is withdrawn with its announcers. -/
theorem withdraw_one (e : AvahiEntry) (send_goodbye : Bool) (s : AvahiServer) :
    (Action.andThen (avahi_goodbye_entry e send_goodbye true) (Action.update (·.mark_dead e.ptr)) s).1 = s.bury [e.ptr] := by
  rw [Action.andThen_fst, (goodbye_entry_spec e send_goodbye true s).1, if_pos rfl]
  simp [AvahiServer.mark_dead, AvahiServer.bury]

/-- The loop over entries buries those that are alive. -/
theorem withdrawLoop_eq (send_goodbye : Bool) (l : List AvahiEntry) (s : AvahiServer) :
    (Action.forEach (fun e : AvahiEntry =>
      if ¬ e.dead then Action.andThen (avahi_goodbye_entry e send_goodbye true) (Action.update (·.mark_dead e.ptr))
      else Action.skip) l s).1 = s.bury ((l.filter fun e => !e.dead).map AvahiEntry.ptr) := by
  induction l generalizing s with
  | nil => exact (bury_nil s).symm
  | cons e l ih =>
    rw [Action.forEach_cons, Action.andThen_fst, ih]
    cases hdead : e.dead with
    | true => simp [hdead]
    | false =>
      rw [if_pos (by simp), withdraw_one, bury_cons]
      simp [hdead]

/-- The entries of a group are dead, and it has no announcers. -/
def AvahiServer.withdrawn (g : Nat) (s : AvahiServer) : AvahiServer :=
  { s with
    entries := s.entries.map fun e => if e.ptr.group = some g then { e with dead := true } else e
    announcers := s.announcers.filter fun a => a.entry.group ≠ some g }

section

variable {q : Ghost} {s : AvahiServer}

/-- All entries of a group are withdrawn, and their announcers with them. -/
theorem withdraw_entries_spec (h : Sound q s) (g : Nat) (send_goodbye : Bool) :
    (withdraw_entries g send_goodbye s).1 = s.withdrawn g ∧
      ∀ o ∈ (withdraw_entries g send_goodbye s).2, Regular o := by
  constructor
  · rw [withdraw_entries, withdrawLoop_eq, AvahiServer.bury, AvahiServer.withdrawn]
    have hmem (e : AvahiEntry) : e.ptr ∈ ((s.group_entries g).filter fun e => !e.dead).map AvahiEntry.ptr ↔
        ∃ e' ∈ s.entries, e'.ptr = e.ptr ∧ e'.ptr.group = some g ∧ e'.dead = false := by
      simp only [AvahiServer.group_entries, List.mem_map, List.mem_filter, decide_eq_true_eq, Bool.not_eq_true']
      exact ⟨fun ⟨e', ⟨⟨he', hgroup⟩, halive⟩, hptr⟩ => ⟨e', he', hptr, hgroup, halive⟩,
        fun ⟨e', he', hptr, hgroup, halive⟩ => ⟨e', ⟨⟨he', hgroup⟩, halive⟩, hptr⟩⟩
    congr 1
    · refine List.map_congr_left fun e he => ?_
      by_cases hin : e.ptr ∈ ((s.group_entries g).filter fun e => !e.dead).map AvahiEntry.ptr
      · obtain ⟨e', he', hptr, hgroup, -⟩ := (hmem e).mp hin
        rw [if_pos hin, if_pos (hptr ▸ hgroup)]
      · rw [if_neg hin]
        split
        · rename_i hgroup
          have hdead : e.dead = true := by
            by_contra halive
            exact hin ((hmem e).mpr ⟨e, he, rfl, hgroup, by simpa using halive⟩)
          rw [← hdead]
        · rfl
    · refine List.filter_congr fun a ha => ?_
      obtain ⟨e, he, hptr, halive⟩ := (h.placed a ha).known
      have hiff := hmem e
      rw [hptr] at hiff
      rw [decide_eq_decide, hiff]
      refine not_congr ⟨fun ⟨e', _, hptr', hgroup, _⟩ => hptr' ▸ hgroup, fun hgroup => ⟨e, he, hptr, hptr.symm ▸ hgroup, halive⟩⟩
  · refine forEach_regular (fun e s o ho => ?_) _ s
    split at ho
    · rcases List.mem_append.mp ho with ho | ho
      · exact (goodbye_entry_spec e send_goodbye true s).2 o ho
      · cases ho
    · cases ho

/-- What may change besides announcers that start and go on: announcers are taken
    away, a group that has none left is written, entries come, die and go, and
    time passes. -/
structure Change (q : Ghost) (away : AvahiAnnouncer → Bool) (written : Option Nat) (s s' : AvahiServer) : Prop where
  announcers : s'.announcers = s.announcers.filter fun a => !away a
  unique : (s'.entries.map AvahiEntry.ptr).Nodup
  entries : ∀ e ∈ s'.entries,
    (∃ e' ∈ s.entries, e'.ptr = e.ptr ∧ (e.dead = false → e'.dead = false) ∧
      (q.kept → e'.flags.UNIQUE = e.flags.UNIQUE ∧ e'.flags.NO_PROBE = e.flags.NO_PROBE)) ∨
    (e.ptr ∉ s.entries.map AvahiEntry.ptr ∧ e.ptr.serial < s'.n_entries ∧
      ∀ g, e.ptr.group = some g → g < s'.n_groups ∧ (s'.groups g).dead = false)
  known : ∀ e ∈ s.entries, e.dead = false → (∃ a ∈ s.announcers, away a = false ∧ a.entry = e.ptr) →
    ∃ e' ∈ s'.entries, e'.ptr = e.ptr ∧ e'.dead = false
  same : ∀ g, written ≠ some g →
    s'.groups g = s.groups g ∧ (q.exact → ∀ a ∈ s.announcers, away a = true → ProbesFor g a = false)
  silent : ∀ g, written = some g → ∀ a ∈ s.announcers, a.entry.group = some g → away a = true := by
    intro g hg; cases hg
  living : ∀ g, written = some g → ∀ e ∈ s'.entries, e.dead = false → e.ptr.group = some g →
    (s'.groups g).dead = false := by intro g hg; cases hg
  counted : ∀ g, written = some g → (s'.groups g).dead = false →
    0 ≤ (s'.groups g).n_probing ∧ (q.exact → (s'.groups g).n_probing = 0) := by intro g hg; cases hg
  going : ∀ g, written = some g → q.except ≠ some g → (s'.groups g).Going := by intro g hg; cases hg
  holdoff : ∀ g, written = some g → (s'.groups g).register_time_event.isSome →
    (s'.groups g).state = .AVAHI_ENTRY_GROUP_REGISTERING := by intro g hg; cases hg
  now : s.now ≤ s'.now
  n_entries : s.n_entries ≤ s'.n_entries
  n_groups : s.n_groups ≤ s'.n_groups

/-- Announcers that go away leave fewer that probe. -/
theorem Change.probing_le {away : AvahiAnnouncer → Bool} {written : Option Nat} {s' : AvahiServer}
    (hc : Change q away written s s') (g : Nat) : s'.probing g ≤ s.probing g := by
  rw [AvahiServer.probing, hc.announcers]
  exact List.filter_sublist.countP_le

theorem Change.probing_eq {away : AvahiAnnouncer → Bool} {written : Option Nat} {s' : AvahiServer}
    (hc : Change q away written s s') {g : Nat} (hg : written ≠ some g) (hq : q.exact) : s'.probing g = s.probing g := by
  rw [AvahiServer.probing, hc.announcers, List.countP_filter]
  refine List.countP_congr fun a ha => ?_
  rw [Bool.and_eq_true, Bool.not_eq_true']
  refine ⟨And.left, fun hprobes => ⟨hprobes, ?_⟩⟩
  by_contra haway
  rw [(hc.same g hg).2 hq a ha (by simpa using haway)] at hprobes
  cases hprobes

/-- A group whose count is set to zero has nothing that probes. -/
theorem Change.probing_written {away : AvahiAnnouncer → Bool} {written : Option Nat} {s' : AvahiServer}
    (hc : Change q away written s s') {g : Nat} (hg : written = some g) : s'.probing g = 0 := by
  rw [AvahiServer.probing, hc.announcers, List.countP_filter, List.countP_eq_zero]
  rintro a ha hprobes
  rw [Bool.and_eq_true, Bool.not_eq_true'] at hprobes
  have hgroup : a.entry.group = some g := by simpa [ProbesFor] using (of_decide_eq_true hprobes.1).2
  rw [hc.silent g hg a ha hgroup] at hprobes
  exact Bool.false_ne_true hprobes.2.symm

/-- What goes away, dies or is reset keeps the invariant. -/
theorem Sound.change (h : Sound q s) (away : AvahiAnnouncer → Bool) (written : Option Nat) {s' : AvahiServer}
    (hc : Change q away written s s') : Sound q s' := by
  refine ⟨?_, hc.unique, fun e he => ?_, fun e he halive g hgroup => ?_, fun a ha => ?_, fun g hg => ?_, fun g hg => ?_,
    fun g hg => ?_, fun g hg => ?_⟩
  · rw [hc.announcers]
    exact h.distinct.sublist (List.filter_sublist.map _)
  · rcases hc.entries e he with ⟨e', he', hptr, -⟩ | ⟨-, hserial, hgroup⟩
    · obtain ⟨hserial, hgroup⟩ := h.numbered e' he'
      rw [hptr] at hserial hgroup
      exact ⟨Nat.lt_of_lt_of_le hserial hc.n_entries, fun g hg => Nat.lt_of_lt_of_le (hgroup g hg) hc.n_groups⟩
    · exact ⟨hserial, fun g hg => (hgroup g hg).1⟩
  · by_cases hwritten : written = some g
    · exact hc.living g hwritten e he halive hgroup
    · rcases hc.entries e he with ⟨e', he', hptr, hdead, -⟩ | ⟨-, -, hnew⟩
      · rw [(hc.same g hwritten).1]
        exact h.living e' he' (hdead halive) g (hptr ▸ hgroup)
      · exact (hnew g hgroup).2
  · rw [hc.announcers, List.mem_filter, Bool.not_eq_true'] at ha
    obtain ⟨ha, hstays⟩ := ha
    have hplaced := h.placed a ha
    have hsame {g : Nat} (hgroup : a.entry.group = some g) : s'.groups g = s.groups g := by
      refine (hc.same g fun hwritten => ?_).1
      rw [hc.silent g hwritten a ha hgroup] at hstays
      cases hstays
    refine ⟨?_, fun g hgroup => hsame hgroup ▸ hplaced.committed g hgroup, fun hwait => ?_, hplaced.timed, hplaced.probes,
      fun hkept hstate e he hptr hunique hprobe => ?_⟩
    · obtain ⟨e, he, hptr, halive⟩ := hplaced.known
      obtain ⟨e', he', hptr', halive'⟩ := hc.known e he halive ⟨a, ha, hstays, hptr.symm⟩
      exact ⟨e', he', hptr'.trans hptr, halive'⟩
    · obtain ⟨g, hgroup, hreleased⟩ := hplaced.released hwait
      exact ⟨g, hgroup, hsame hgroup ▸ hreleased⟩
    · refine Probes.later ?_ hc.now
      rcases hc.entries e he with ⟨e', he', hptr', -, hflags⟩ | ⟨hnew, -⟩
      · exact hplaced.probed hkept hstate e' he' (hptr'.trans hptr) ((hflags hkept).1 ▸ hunique) ((hflags hkept).2 ▸ hprobe)
      · obtain ⟨e', he', hptr', -⟩ := hplaced.known
        exact absurd (List.mem_map.mpr ⟨e', he', hptr'.trans hptr.symm⟩) hnew
  · by_cases hwritten : written = some g
    · rw [hc.probing_written hwritten]
      exact hc.counted g hwritten hg
    · have hle := hc.probing_le g
      rw [(hc.same g hwritten).1] at hg ⊢
      obtain ⟨hcounted, hexact⟩ := h.counted g hg
      refine ⟨by omega, fun hq => ?_⟩
      rw [hc.probing_eq hwritten hq]
      exact hexact hq
  · by_cases hwritten : written = some g
    · exact hc.going g hwritten hg
    · rw [(hc.same g hwritten).1]
      exact h.going g hg
  · by_cases hwritten : written = some g
    · exact hc.holdoff g hwritten hg
    · rw [(hc.same g hwritten).1] at hg ⊢
      exact h.holdoff g hg
  · by_cases hwritten : written = some g
    · exact Or.inr (hc.probing_written hwritten)
    · rw [(hc.same g hwritten).1] at hg
      have hle := hc.probing_le g
      exact (h.fresh g hg).imp_right fun hzero => by omega

/-- The entries of a group that is withdrawn stay, dead. -/
theorem Sound.close (h : Sound q s) (g : Nat) {f : AvahiSEntryGroup → AvahiSEntryGroup}
    (hcounted : (f (s.groups g)).dead = false → 0 ≤ (f (s.groups g)).n_probing ∧ (q.exact → (f (s.groups g)).n_probing = 0))
    (hgoing : q.except ≠ some g → (f (s.groups g)).Going)
    (hholdoff : (f (s.groups g)).register_time_event.isSome →
      (f (s.groups g)).state = .AVAHI_ENTRY_GROUP_REGISTERING) : Sound q ((s.withdrawn g).modify_group g f) := by
  have hgroups : ((s.withdrawn g).modify_group g f).groups g = f (s.groups g) := if_pos rfl
  have hptrs : ((s.withdrawn g).modify_group g f).entries.map AvahiEntry.ptr = s.entries.map AvahiEntry.ptr := by
    change ((s.entries.map _).map _) = _
    rw [List.map_map]
    refine List.map_congr_left fun e _ => ?_
    simp only [Function.comp]
    split <;> rfl
  refine h.change (fun a => a.entry.group = some g) (some g)
    { announcers := ?_, unique := hptrs ▸ h.entries, entries := fun e he => Or.inl ?_, known := fun e he halive ha => ?_
      same := fun k hk => ⟨if_neg fun heq : k = g => hk (heq ▸ rfl), fun _ a _ hgroup => ?_⟩, silent := ?_, living := ?_, counted := ?_
      going := ?_, holdoff := ?_, now := Int.le_refl _, n_entries := Nat.le_refl _, n_groups := Nat.le_refl _ }
  · exact List.filter_congr fun a _ => by simp
  · obtain ⟨e', he', rfl⟩ := List.mem_map.mp he
    split
    · exact ⟨e', he', rfl, nofun, fun _ => ⟨rfl, rfl⟩⟩
    · exact ⟨e', he', rfl, fun halive => halive, fun _ => ⟨rfl, rfl⟩⟩
  · obtain ⟨a, -, hstays, hentry⟩ := ha
    refine ⟨e, List.mem_map.mpr ⟨e, he, if_neg ?_⟩, rfl, halive⟩
    rw [← hentry]
    simpa using hstays
  · have hgroup : a.entry.group = some g := by simpa using hgroup
    have hne : a.entry.group ≠ some k := fun heq => hk (hgroup.symm.trans heq)
    simp [ProbesFor, hne]
  · rintro k hk a - hgroup
    rw [hk]
    simpa using hgroup
  · rintro k hk e he halive hgroup
    obtain ⟨e', -, rfl⟩ := List.mem_map.mp he
    obtain rfl := Option.some.inj hk
    split at halive
    · cases halive
    · rename_i hne
      rw [if_neg hne] at hgroup
      exact absurd hgroup hne
  · rintro k hk
    rw [← Option.some.inj hk, hgroups]
    exact hcounted
  · rintro k hk hne
    obtain rfl := Option.some.inj hk
    exact hgroups.symm ▸ hgoing hne
  · rintro k hk
    rw [← Option.some.inj hk, hgroups]
    exact hholdoff

/-- A group that has no announcers is written. -/
theorem Sound.write (h : Sound q s) {g : Nat} (hnone : ∀ a ∈ s.announcers, a.entry.group ≠ some g)
    {f : AvahiSEntryGroup → AvahiSEntryGroup}
    (hliving : ∀ e ∈ s.entries, e.dead = false → e.ptr.group = some g → (f (s.groups g)).dead = false)
    (hcounted : (f (s.groups g)).dead = false → 0 ≤ (f (s.groups g)).n_probing ∧ (q.exact → (f (s.groups g)).n_probing = 0))
    (hgoing : q.except ≠ some g → (f (s.groups g)).Going)
    (hholdoff : (f (s.groups g)).register_time_event.isSome →
      (f (s.groups g)).state = .AVAHI_ENTRY_GROUP_REGISTERING) : Sound q (s.modify_group g f) := by
  have hgroups : (s.modify_group g f).groups g = f (s.groups g) := if_pos rfl
  refine h.change (fun _ => false) (some g)
    { announcers := (List.filter_eq_self.mpr fun _ _ => rfl).symm, unique := h.entries
      entries := fun e he => Or.inl ⟨e, he, rfl, fun halive => halive, fun _ => ⟨rfl, rfl⟩⟩
      known := fun e he halive _ => ⟨e, he, rfl, halive⟩
      same := fun k hk => ⟨if_neg fun heq : k = g => hk (heq ▸ rfl), fun _ _ _ haway => absurd haway Bool.false_ne_true⟩
      silent := fun k hk a ha hgroup => absurd (hk ▸ hgroup) (hnone a ha)
      living := ?_, counted := ?_, going := ?_, holdoff := ?_
      now := Int.le_refl _, n_entries := Nat.le_refl _, n_groups := Nat.le_refl _ }
  all_goals
    intro k hk
    obtain rfl := Option.some.inj hk
    rw [hgroups]
  · exact hliving
  · exact hcounted
  · exact hgoing
  · exact hholdoff

/-- A group is dealt with. -/
theorem Sound.raise (h : Sound q s) (hq : q.except = none) (g : Nat) : Sound { q with except := some g } s := by
  refine ⟨h.distinct, h.entries, h.numbered, h.living, fun a ha => ?_, h.counted, fun k _ => ?_, h.holdoff, h.fresh⟩
  · have hplaced := h.placed a ha
    refine ⟨hplaced.known, hplaced.committed, fun hwait => ?_, hplaced.timed, hplaced.probes, hplaced.probed⟩
    obtain ⟨k, hk, hexcept | hstate⟩ := hplaced.released hwait
    · rw [hq] at hexcept
      cases hexcept
    · exact ⟨k, hk, Or.inr hstate⟩
  · refine h.going k ?_
    rw [hq]
    nofun

/-- A group has been dealt with. -/
theorem Sound.lower (h : Sound q s) {g : Nat} (hq : q.except = some g) (hgoing : (s.groups g).Going)
    (hreleased : ∀ a ∈ s.announcers, a.entry.group = some g → a.state = .WAITING →
      (s.groups g).state = .AVAHI_ENTRY_GROUP_REGISTERING) : Sound { q with except := none } s := by
  refine ⟨h.distinct, h.entries, h.numbered, h.living, fun a ha => ?_, h.counted, fun k _ => ?_, h.holdoff, h.fresh⟩
  · have hplaced := h.placed a ha
    refine ⟨hplaced.known, hplaced.committed, fun hwait => ?_, hplaced.timed, hplaced.probes, hplaced.probed⟩
    obtain ⟨k, hk, hexcept | hstate⟩ := hplaced.released hwait
    · obtain rfl : g = k := Option.some.inj (hq.symm.trans hexcept)
      exact ⟨g, hk, Or.inr (hreleased a ha hk hwait)⟩
    · exact ⟨k, hk, Or.inr hstate⟩
  · by_cases hk : g = k
    · exact hk ▸ hgoing
    · refine h.going k ?_
      rw [hq]
      exact fun heq => hk (Option.some.inj heq)

/-- A group that is not committed has no announcers. -/
theorem Sound.silent (h : Sound q s) {g : Nat} (hg : ¬ (s.groups g).Committed) :
    ∀ a ∈ s.announcers, a.entry.group ≠ some g := fun a ha hgroup => hg ((h.placed a ha).committed g hgroup)

/-- A group that has left its registration needs no exception. -/
theorem Sound.ended (h : Sound q s) {g : Nat} (hq : q.except = some g) (hg : ¬ (s.groups g).Committed) :
    Sound { q with except := none } s := by
  refine h.lower hq (fun halive hstate _ => absurd ⟨halive, Or.inl hstate⟩ hg) fun a ha hgroup => ?_
  exact absurd hgroup (h.silent hg a ha)

theorem enter_fields (group : AvahiSEntryGroup) (now : Int) (state : AvahiEntryGroupState) :
    (group.enter now state).state = state ∧ (group.enter now state).dead = group.dead ∧
      (group.enter now state).n_probing = group.n_probing := by
  unfold AvahiSEntryGroup.enter
  cases group.state <;> dsimp only <;> split_ifs <;> exact ⟨rfl, rfl, rfl⟩

/-- A group that does not register any more does not wait for its holdoff. -/
theorem enter_register_time_event {group : AvahiSEntryGroup}
    (h : group.register_time_event.isSome → group.state = .AVAHI_ENTRY_GROUP_REGISTERING) (now : Int)
    (state : AvahiEntryGroupState) : (group.enter now state).register_time_event = none := by
  have hnone (hstate : group.state ≠ .AVAHI_ENTRY_GROUP_REGISTERING) : group.register_time_event = none := by
    cases htime : group.register_time_event with
    | none => rfl
    | some t => exact absurd (h (by rw [htime]; rfl)) hstate
  unfold AvahiSEntryGroup.enter
  cases hstate : group.state with
  | AVAHI_ENTRY_GROUP_REGISTERING => dsimp only; split_ifs <;> rfl
  | _ =>
    have hclear := hnone (by rw [hstate]; nofun)
    dsimp only
    split_ifs <;> exact hclear

theorem probing_eq_zero {g : Nat} (h : ∀ a ∈ s.announcers, a.entry.group ≠ some g) : s.probing g = 0 := by
  refine List.countP_eq_zero.mpr fun a ha => ?_
  simp [ProbesFor, h a ha]

/-- A group that is dealt with gets a new state: one without announcers, or that
    of a group whose announcers have probed. -/
theorem sound_enter (h : Sound q s) {g : Nat} (hq : q.except = some g) (state : AvahiEntryGroupState)
    (hok : (∀ a ∈ s.announcers, a.entry.group ≠ some g) ∨
      (state = .AVAHI_ENTRY_GROUP_ESTABLISHED ∧ s.probing g = 0)) : Sound q (enter g state s).1 := by
  obtain ⟨hstate, hdead, hcount⟩ := enter_fields (s.groups g) s.now state
  have hgroups (k : Nat) : (enter g state s).1.groups k =
      if k = g then (s.groups g).enter s.now state else s.groups k := rfl
  have hdead' (k : Nat) : ((enter g state s).1.groups k).dead = (s.groups k).dead := by
    rw [hgroups]
    split_ifs with hk
    · rw [hdead, hk]
    · rfl
  have hzero : s.probing g = 0 := by
    rcases hok with hnone | ⟨-, hzero⟩
    · exact probing_eq_zero hnone
    · exact hzero
  refine ⟨h.distinct, h.entries, h.numbered, fun e he halive k hk => ?_, fun a ha => ?_, fun k hk => ?_, fun k hk => ?_,
    fun k hk => ?_, fun k hk => ?_⟩
  · exact (hdead' k).trans (h.living e he halive k hk)
  · have hplaced := h.placed a ha
    refine ⟨hplaced.known, fun k hk => ?_, fun hwait => ?_, hplaced.timed, hplaced.probes, hplaced.probed⟩
    · have hcommitted := hplaced.committed k hk
      rw [hgroups]
      split_ifs with heq
      · rcases hok with hnone | ⟨hestablished, -⟩
        · exact absurd (heq ▸ hk) (hnone a ha)
        · exact ⟨hdead.trans (heq ▸ hcommitted.1), Or.inr (hstate.trans hestablished)⟩
      · exact hcommitted
    · obtain ⟨k, hk, hreleased⟩ := hplaced.released hwait
      by_cases heq : k = g
      · exact ⟨k, hk, Or.inl (heq ▸ hq)⟩
      · refine ⟨k, hk, ?_⟩
        rwa [hgroups, if_neg heq]
  · have hcounted := h.counted k ((hdead' k).symm.trans hk)
    change (s.probing k : Int) ≤ _ ∧ (_ → _ = (s.probing k : Int))
    rw [hgroups]
    split_ifs with heq
    · rw [hcount, ← heq]
      exact hcounted
    · exact hcounted
  · have hne : k ≠ g := fun heq => hk (heq ▸ hq)
    rw [hgroups, if_neg hne]
    exact h.going k hk
  · by_cases heq : k = g
    · rw [hgroups, if_pos heq, enter_register_time_event (h.holdoff g)] at hk
      cases hk
    · rw [hgroups, if_neg heq] at hk ⊢
      exact h.holdoff k hk
  · by_cases heq : k = g
    · exact Or.inr (heq ▸ hzero)
    · rw [hgroups, if_neg heq] at hk
      exact h.fresh k hk

/-- What is written to a group that keeps a field. -/
theorem modify_group_field {β : Type} (field : AvahiSEntryGroup → β) (s : AvahiServer) (g : Nat)
    {f : AvahiSEntryGroup → AvahiSEntryGroup} (hf : field (f (s.groups g)) = field (s.groups g)) (k : Nat) :
    field ((s.modify_group g f).groups k) = field (s.groups k) := by
  by_cases hk : k = g
  · rw [hk, ← hf]
    exact congrArg field (if_pos rfl)
  · exact congrArg field (if_neg hk)

theorem state_modify_group (s : AvahiServer) (g : Nat) {f : AvahiSEntryGroup → AvahiSEntryGroup}
    (hf : (f (s.groups g)).state = (s.groups g).state) (k : Nat) :
    ((s.modify_group g f).groups k).state = (s.groups k).state := modify_group_field (·.state) s g hf k

/-- A group that is freed is dead, with its entries and announcers. -/
theorem sound_free (h : Sound q s) (g : Nat) :
    Sound q (avahi_s_entry_group_free g s).1 ∧ (∀ o ∈ (avahi_s_entry_group_free g s).2, Regular o) ∧
      ((avahi_s_entry_group_free g s).1.groups g).dead = true ∧
      ∀ k, ((avahi_s_entry_group_free g s).1.groups k).state = (s.groups k).state := by
  obtain ⟨hstate, houtputs⟩ := withdraw_entries_spec h g true
  have hfree : (avahi_s_entry_group_free g s).1 =
      (s.withdrawn g).modify_group g fun group => { group with register_time_event := none, dead := true } := by
    rw [← hstate]
    rfl
  refine ⟨?_, fun o ho => ?_, ?_, fun k => ?_⟩
  · rw [hfree]
    exact h.close g nofun (fun _ => nofun) nofun
  · rcases List.mem_append.mp ho with ho | ho
    · exact houtputs o ho
    · cases ho
  · rw [hfree]
    exact congrArg AvahiSEntryGroup.dead (if_pos rfl)
  · rw [hfree]
    exact state_modify_group (s.withdrawn g) g rfl k

/-- A group that is reset has no announcers, and counts none. -/
theorem sound_reset_entries (h : Sound q s) {g : Nat} (hq : q.except = some g) (send_goodbye : Bool) :
    Sound q (reset_entries g send_goodbye s).1 ∧ (∀ o ∈ (reset_entries g send_goodbye s).2, Regular o) ∧
      (∀ k, ((reset_entries g send_goodbye s).1.groups k).state = (s.groups k).state) ∧
      ∀ a ∈ (reset_entries g send_goodbye s).1.announcers, a.entry.group ≠ some g := by
  obtain ⟨hstate, houtputs⟩ := withdraw_entries_spec h g send_goodbye
  have hreset : (reset_entries g send_goodbye s).1 = (s.withdrawn g).modify_group g fun group => { group with n_probing := 0 } := by
    rw [← hstate]
    rfl
  refine ⟨?_, fun o ho => ?_, fun k => ?_, fun a ha => ?_⟩
  · rw [hreset]
    exact h.close g (fun _ => ⟨Int.le_refl 0, fun _ => rfl⟩) (fun hne => absurd hq hne) (h.holdoff g)
  · rcases List.mem_append.mp ho with ho | ho
    · exact houtputs o ho
    · cases ho
  · rw [hreset]
    exact state_modify_group (s.withdrawn g) g rfl k
  · rw [hreset] at ha
    simpa using (List.mem_filter.mp ha).2

theorem regular_enter (g : Nat) (state : AvahiEntryGroupState) (s : AvahiServer) : ∀ o ∈ (enter g state s).2, Regular o :=
  List.forall_mem_singleton.mpr (by simp [Regular])

/-- What the callback of a group does: nothing, or the group is not committed
    any more. -/
theorem sound_call (h : Sound q s) {g : Nat} (hq : q.except = some g) (state : AvahiEntryGroupState) :
    Sound q (call g state s).1 ∧ (∀ o ∈ (call g state s).2, Regular o) ∧
      (call g state s = (s, []) ∨ ¬ ((call g state s).1.groups g).Committed) ∧
      ∀ k, ((call g state s).1.groups k).state = (s.groups k).state ∨
        ((call g state s).1.groups k).state = .AVAHI_ENTRY_GROUP_UNCOMMITED := by
  have hfreed {t : AvahiServer} (ht : ((avahi_s_entry_group_free g t).1.groups g).dead = true) :
      ¬ ((avahi_s_entry_group_free g t).1.groups g).Committed := by
    rintro ⟨halive, -⟩
    rw [ht] at halive
    cases halive
  have hunset {t : AvahiServer} (ht : (t.groups g).state = .AVAHI_ENTRY_GROUP_UNCOMMITED) : ¬ (t.groups g).Committed := by
    rintro ⟨-, hstate | hstate⟩ <;> rw [ht] at hstate <;> cases hstate
  unfold call
  split
  · exact ⟨h, nofun, Or.inl rfl, fun _ => Or.inl rfl⟩
  · obtain ⟨hsound, houtputs, hdead, hstates⟩ := sound_free h g
    exact ⟨hsound, houtputs, Or.inr (hfreed hdead), fun k => Or.inl (hstates k)⟩
  · obtain ⟨hreset, houtputs, hstate, hnone⟩ := sound_reset_entries h hq true
    simp only [Action.andThen_fst, Action.andThen_snd]
    generalize reset_entries g true s = t at hreset houtputs hstate hnone
    split_ifs with huncommited
    · exact ⟨hreset, by simpa using houtputs, Or.inr (hunset huncommited), fun k => Or.inl (hstate k)⟩
    · have hentered := sound_enter hreset hq .AVAHI_ENTRY_GROUP_UNCOMMITED (Or.inl hnone)
      have hstate' : ((enter g .AVAHI_ENTRY_GROUP_UNCOMMITED t.1).1.groups g).state = .AVAHI_ENTRY_GROUP_UNCOMMITED :=
        (congrArg AvahiSEntryGroup.state (if_pos rfl)).trans (enter_fields ..).1
      have hstates (k : Nat) : ((enter g .AVAHI_ENTRY_GROUP_UNCOMMITED t.1).1.groups k).state = (s.groups k).state ∨
          ((enter g .AVAHI_ENTRY_GROUP_UNCOMMITED t.1).1.groups k).state = .AVAHI_ENTRY_GROUP_UNCOMMITED := by
        by_cases hk : k = g
        · exact Or.inr (hk ▸ hstate')
        · exact Or.inl ((congrArg AvahiSEntryGroup.state (if_neg hk)).trans (hstate k))
      have hregular := regular_enter g .AVAHI_ENTRY_GROUP_UNCOMMITED t.1
      simp only [Action.andThen_fst, Action.andThen_snd]
      generalize enter g .AVAHI_ENTRY_GROUP_UNCOMMITED t.1 = u at hentered hstate' hregular hstates
      have hall {l : List Output} (hl : ∀ o ∈ l, Regular o) : ∀ o ∈ t.2 ++ (u.2 ++ l), Regular o :=
        List.forall_mem_append.mpr ⟨houtputs, List.forall_mem_append.mpr ⟨hregular, hl⟩⟩
      split
      · exact ⟨hentered, hall nofun, Or.inr (hunset hstate'), hstates⟩
      · obtain ⟨hsound, hfree, hdead, hsame⟩ := sound_free hentered g
        exact ⟨hsound, hall hfree, Or.inr (hfreed hdead), fun k => (hsame k).symm ▸ hstates k⟩
      · obtain ⟨hsound, hagain, hsame, -⟩ := sound_reset_entries hentered hq true
        exact ⟨hsound, hall hagain, Or.inr (hunset ((hsame g).trans hstate')), fun k => (hsame k).symm ▸ hstates k⟩

/-- A group's state changes: it has its new state, or its callback has ended it. -/
theorem sound_change_state (h : Sound q s) {g : Nat} (hq : q.except = some g) (state : AvahiEntryGroupState)
    (hok : (s.groups g).state ≠ state → (∀ a ∈ s.announcers, a.entry.group ≠ some g) ∨
      (state = .AVAHI_ENTRY_GROUP_ESTABLISHED ∧ s.probing g = 0)) :
    Sound q (avahi_s_entry_group_change_state g state s).1 ∧
      (∀ o ∈ (avahi_s_entry_group_change_state g state s).2, Regular o) ∧
      ((avahi_s_entry_group_change_state g state s).1 = (if (s.groups g).state = state then s else (enter g state s).1) ∨
        ¬ ((avahi_s_entry_group_change_state g state s).1.groups g).Committed) ∧
      ∀ k, ((avahi_s_entry_group_change_state g state s).1.groups k).state = (s.groups k).state ∨
        ((avahi_s_entry_group_change_state g state s).1.groups k).state = .AVAHI_ENTRY_GROUP_UNCOMMITED ∨
        k = g ∧ ((avahi_s_entry_group_change_state g state s).1.groups k).state = state := by
  unfold avahi_s_entry_group_change_state
  split
  · exact ⟨h, nofun, Or.inl rfl, fun _ => Or.inl rfl⟩
  · rename_i hne
    have hentered := sound_enter h hq state (hok hne)
    obtain ⟨hsound, houtputs, hend, hstates⟩ := sound_call hentered hq state
    refine ⟨hsound, List.forall_mem_append.mpr ⟨regular_enter g state s, houtputs⟩, ?_, fun k => ?_⟩
    · rcases hend with hsame | hend
      · left
        rw [Action.andThen_fst, hsame]
      · exact Or.inr hend
    · rcases hstates k with hsame | huncommited
      · by_cases hk : k = g
        · have hentered : ((enter g state s).1.groups k).state = state :=
            (congrArg AvahiSEntryGroup.state (if_pos hk)).trans (enter_fields ..).1
          exact Or.inr (Or.inr ⟨hk, hsame.trans hentered⟩)
        · exact Or.inl (hsame.trans (congrArg AvahiSEntryGroup.state (if_neg hk)))
      · exact Or.inr (Or.inl huncommited)

end

end qtzeroconf.avahi.server
