import QtZeroConf.AvahiCore.Probing

open reactive keyed

namespace qtzeroconf.avahi.server

open avahicore (AVAHI_IF_UNSPEC AvahiEntryGroupState)

/-- Nothing but announcers, and the numbers of those that probe, has changed. -/
structure Frame (s s' : AvahiServer) : Prop where
  entries : s'.entries = s.entries
  interfaces : s'.interfaces = s.interfaces
  now : s'.now = s.now
  n_groups : s'.n_groups = s.n_groups
  groups : ∀ g, (s'.groups g).dead = (s.groups g).dead ∧ (s'.groups g).state = (s.groups g).state ∧
    (s'.groups g).register_time_event = (s.groups g).register_time_event

theorem Frame.refl (s : AvahiServer) : Frame s s := ⟨rfl, rfl, rfl, rfl, fun _ => ⟨rfl, rfl, rfl⟩⟩

theorem Frame.trans {s t u : AvahiServer} (h : Frame s t) (h' : Frame t u) : Frame s u :=
  ⟨h'.entries.trans h.entries, h'.interfaces.trans h.interfaces, h'.now.trans h.now, h'.n_groups.trans h.n_groups,
    fun g => ⟨(h'.groups g).1.trans (h.groups g).1, (h'.groups g).2.1.trans (h.groups g).2.1,
      (h'.groups g).2.2.trans (h.groups g).2.2⟩⟩

/-- To start an announcer changes the announcers and the counts only. -/
theorem frame_start (a : AvahiAnnouncer) (state : AvahiAnnouncerState) (s : AvahiServer) : Frame s (start a state s) := by
  rw [start_eq]
  exact ⟨rfl, rfl, rfl, rfl, fun g => ⟨dead_count .., state_count .., register_time_event_count ..⟩⟩

/-- To count an announcer no longer changes the counts only. -/
theorem frame_uncount (p : EntryPtr) (state : AvahiAnnouncerState) (s : AvahiServer) :
    Frame s (if state = .PROBING then s.count p (-1) else s) := by
  rw [uncount_eq]
  exact ⟨rfl, rfl, rfl, rfl, fun g => ⟨dead_count .., state_count .., register_time_event_count ..⟩⟩

/-- A loop that keeps the invariant and changes announcers only. -/
theorem foldl_frame {ι : Type} {q : Ghost} {f : AvahiServer → ι → AvahiServer} {l : List ι} {s : AvahiServer}
    (h : Sound q s) (hstep : ∀ s', Frame s s' → ∀ i ∈ l, Sound q s' → Sound q (f s' i) ∧ Frame s' (f s' i)) :
    Sound q (l.foldl f s) ∧ Frame s (l.foldl f s) := by
  suffices hall : ∀ s', Frame s s' → Sound q s' → Sound q (l.foldl f s') ∧ Frame s (l.foldl f s') from
    hall s (Frame.refl s) h
  induction l with
  | nil => exact fun s' hframe hs => ⟨hs, hframe⟩
  | cons i l ih =>
    intro s' hframe hs
    obtain ⟨hsound, hnext⟩ := hstep s' hframe i List.mem_cons_self hs
    exact ih (fun s' hframe i hi => hstep s' hframe i (List.mem_cons_of_mem _ hi)) _ (hframe.trans hnext) hsound

section

variable {q : Ghost} {s : AvahiServer}

/-- No group has been established lately. -/
def Steady (q : Ghost) (s : AvahiServer) : Prop :=
  ∀ g, (s.groups g).state = .AVAHI_ENTRY_GROUP_ESTABLISHED → q.was g

theorem Steady.frame {s' : AvahiServer} (h : Steady q s) (hframe : Frame s s') : Steady q s' :=
  fun g hg => h g ((hframe.groups g).2.1 ▸ hg)

/-- An entry is known by its pointer. -/
theorem Sound.entry_eq (h : Sound q s) {e e' : AvahiEntry} (he : e ∈ s.entries) (he' : e' ∈ s.entries)
    (hptr : e.ptr = e'.ptr) : e = e' := List.inj_on_of_nodup_map h.entries he he' hptr

/-- An announcer waits for the group only while that is registering. -/
theorem initialState_waiting {e : AvahiEntry} (hcommitted : ∀ g, e.ptr.group = some g → (s.groups g).Committed)
    (hwait : initialState s e = .WAITING) :
    ∃ g, e.ptr.group = some g ∧ (s.groups g).state = .AVAHI_ENTRY_GROUP_REGISTERING := by
  unfold initialState at hwait
  split_ifs at hwait
  split at hwait
  · cases hwait
  · rename_i g hgroup
    split_ifs at hwait with hestablished
    exact ⟨g, hgroup, (hcommitted g hgroup).2.resolve_right hestablished⟩

/-- What is unique begins with probes, unless it is not to be probed. -/
theorem initialState_probing {e : AvahiEntry} (hunique : e.flags.UNIQUE = true) (hprobe : e.flags.NO_PROBE = false) :
    initialState s e = .PROBING := if_pos ⟨hunique, by rw [hprobe]; decide⟩

/-- A new announcer of an entry begins where its group has got to. -/
theorem sound_new_announcer (h : Sound q s) (hsteady : Steady q s) {e : AvahiEntry} (he : e ∈ s.entries)
    (halive : e.dead = false) (i : AvahiInterface) :
    Sound q (new_announcer e i s) ∧ Frame s (new_announcer e i s) := by
  unfold new_announcer
  split_ifs with hno
  · exact ⟨h, Frame.refl s⟩
  split
  · exact ⟨h, Frame.refl s⟩
  rename_i hnone
  have hnew : ((e.ptr, i) : EntryPtr × AvahiInterface) ∉ s.announcers.map AvahiAnnouncer.key := lookup_eq_none hnone
  have hcommitted (g : Nat) (hgroup : e.ptr.group = some g) : (s.groups g).Committed := by
    refine ⟨h.living e he halive g hgroup, ?_⟩
    have hyes : s.entry_is_commited e.ptr = true := by
      by_contra hnot
      exact hno (Or.inr (Or.inr hnot))
    simpa [AvahiServer.entry_is_commited, hgroup] using hyes
  dsimp only
  generalize hfirst : ({ entry := e.ptr, interface := i, time_event := none, state := .PROBING, n_iteration := 0
                         sec_delay := 0 } : AvahiAnnouncer) = a
  have hkey : a.key = (e.ptr, i) := by rw [← hfirst]; rfl
  -- what is written is the announcer that has just been put in front
  have hwrite : go_to_initial_state e a { s with announcers := a :: s.announcers } =
      { s.count a.entry (initialState s e).weight with announcers :=
          { a with state := initialState s e, n_iteration := 1, sec_delay := 1
                   time_event := startTime s (initialState s e) } :: s.announcers } := by
    have hstate : initialState { s with announcers := a :: s.announcers } e = initialState s e := rfl
    have htime : startTime { s with announcers := a :: s.announcers } (initialState s e) =
        startTime s (initialState s e) := by cases initialState s e <;> rfl
    have hrest (x : AvahiAnnouncer) (hx : x.key = a.key) : replace AvahiAnnouncer.key x (a :: s.announcers) =
        x :: s.announcers := by
      have htail : replace AvahiAnnouncer.key x s.announcers = s.announcers := by
        refine (List.map_congr_left fun b hb => ?_).trans (List.map_id _)
        have hne : b.key ≠ x.key := fun heq => hnew (by rw [← hkey, ← hx, ← heq]; exact List.mem_map_of_mem hb)
        exact if_neg hne
      have hhead : replace AvahiAnnouncer.key x (a :: s.announcers) = x :: replace AvahiAnnouncer.key x s.announcers :=
        congrArg (· :: _) (if_pos hx.symm)
      rw [hhead, htail]
    rw [go_to_initial_state, start_eq, hstate, htime]
    exact congrArg (fun l => { s.count a.entry (initialState s e).weight with announcers := l })
      (hrest { a with state := initialState s e, n_iteration := 1, sec_delay := 1
                      time_event := startTime s (initialState s e) } rfl)
  rw [hwrite]
  have hentry : a.entry = e.ptr := congrArg Prod.fst hkey
  constructor
  · refine h.insert (a := { a with state := initialState s e, n_iteration := 1, sec_delay := 1
                                   time_event := startTime s (initialState s e) })
      (by change a.key ∉ _; rw [hkey]; exact hnew) ?_ hsteady
    refine ⟨⟨e, he, hentry.symm, halive⟩, ?_, fun hwait => ?_, fun hstate => ?_, fun hstate => ?_,
      fun _ hstate e' he' hptr hunique hprobe => ?_⟩
    · rw [hentry]
      exact hcommitted
    · rw [hentry]
      obtain ⟨g, hgroup, hreg⟩ := initialState_waiting hcommitted hwait
      exact ⟨g, hgroup, Or.inr hreg⟩
    · dsimp only at hstate
      rw [hstate]
      rfl
    · dsimp only at hstate
      rw [hstate]
      exact ⟨Nat.le_refl 1, show 1 ≤ 4 by decide, _, rfl, trivial⟩
    · obtain rfl := h.entry_eq he' he (hptr.trans hentry)
      exact absurd (initialState_probing hunique hprobe) hstate
  · exact ⟨rfl, rfl, rfl, rfl, fun g => ⟨dead_count .., state_count .., register_time_event_count ..⟩⟩

/-- An interface that comes up gets an announcer for each entry. -/
theorem sound_announce_interface (h : Sound q s) (hsteady : Steady q s) (i : AvahiInterface) :
    Sound q (avahi_announce_interface i s) ∧ Frame s (avahi_announce_interface i s) := by
  unfold avahi_announce_interface
  split
  · exact ⟨h, Frame.refl s⟩
  · refine foldl_frame h fun s' hframe e he hs => ?_
    split
    · rename_i halive
      exact sound_new_announcer hs (hsteady.frame hframe) (hframe.entries ▸ he) (by simpa using halive) i
    · exact ⟨hs, Frame.refl s'⟩

theorem sound_announce_entry (h : Sound q s) (hsteady : Steady q s) {e : AvahiEntry} (he : e ∈ s.entries)
    (halive : e.dead = false) : Sound q (avahi_announce_entry e s) ∧ Frame s (avahi_announce_entry e s) :=
  foldl_frame h fun _ hframe i _ hs => sound_new_announcer hs (hsteady.frame hframe) (hframe.entries ▸ he) halive i

/-- The entries of a group that is committed get their announcers. -/
theorem sound_announce_group (h : Sound q s) (hsteady : Steady q s) (g : Nat) :
    Sound q (avahi_announce_group g s) ∧ Frame s (avahi_announce_group g s) := by
  refine foldl_frame h fun s' hframe e he hs => ?_
  split
  · rename_i halive
    exact sound_announce_entry hs (hsteady.frame hframe) (hframe.entries ▸ (List.mem_filter.mp he).1)
        (by simpa using halive)
  · exact ⟨hs, Frame.refl s'⟩

/-- A registered entry starts over. -/
theorem sound_return_to_initial_state (h : Sound q s) (hsteady : Steady q s) {e : AvahiEntry} (he : e ∈ s.entries)
    {i : AvahiInterface} (hregistered : s.entry_is_registered e i = true) :
    Sound q (avahi_entry_return_to_initial_state e i s) := by
  unfold avahi_entry_return_to_initial_state
  cases hfind : s.get_announcer e.ptr i with
  | none => exact h
  | some a =>
    obtain ⟨ha, hkey⟩ := lookup_eq_some hfind
    have hentry : a.entry = e.ptr := congrArg Prod.fst hkey
    have hstate : a.state ≠ .PROBING := by
      intro hprobing
      simp [AvahiServer.entry_is_registered, hfind, hprobing] at hregistered
    dsimp only
    rw [if_neg hstate, go_to_initial_state]
    have hstart := h.start ha (initialState s e) ?_ (fun _ hne e' he' hptr hunique hprobe => ?_)
      (fun hprobing => absurd hprobing hstate) hsteady
    · rwa [if_neg hstate] at hstart
    · intro hwait
      obtain ⟨g, hgroup, hreg⟩ := initialState_waiting (fun g hg => (h.placed a ha).committed g (hentry ▸ hg)) hwait
      exact ⟨g, hentry ▸ hgroup, Or.inr hreg⟩
    · obtain rfl := h.entry_eq he' he (hptr.trans hentry)
      exact absurd (initialState_probing hunique hprobe) hne

/-- An announcer starts again from what it was doing. -/
theorem sound_reannounce (h : Sound q s) (hsteady : Steady q s) {e : AvahiEntry} (he : e ∈ s.entries)
    {a : AvahiAnnouncer} (ha : a ∈ s.announcers) (hentry : a.entry = e.ptr) :
    Sound q (reannounce e a s) ∧ Frame s (reannounce e a s) := by
  unfold reannounce
  dsimp only
  split
  · exact ⟨h, Frame.refl s⟩
  · refine ⟨h.start ha _ (fun hwait => ?_) (fun hk hne e' he' hptr hunique hprobe => ?_) (fun hprobing => ?_) hsteady,
      (frame_uncount a.entry a.state s).trans (frame_start ..)⟩
    · refine (h.placed a ha).released ?_
      unfold reannounceState at hwait
      split_ifs at hwait with hprobe hwaiting
      exact hwaiting
    · obtain rfl := h.entry_eq he' he (hptr.trans hentry)
      refine (h.placed a ha).probed hk (fun hprobing => hne ?_) e' he' hptr hunique hprobe
      exact if_pos (Or.inl hprobing)
    · exact if_pos (Or.inl hprobing)

theorem sound_reannounce_entry (h : Sound q s) (hsteady : Steady q s) {e : AvahiEntry} (he : e ∈ s.entries) :
    Sound q (avahi_reannounce_entry e s) ∧ Frame s (avahi_reannounce_entry e s) := by
  refine foldl_frame h fun s' hframe i _ hs => ?_
  split
  · exact ⟨hs, Frame.refl s'⟩
  · rename_i a hfind
    obtain ⟨ha, hkey⟩ := lookup_eq_some hfind
    exact sound_reannounce hs (hsteady.frame hframe) (hframe.entries ▸ he) ha (congrArg Prod.fst hkey)

end

end qtzeroconf.avahi.server
