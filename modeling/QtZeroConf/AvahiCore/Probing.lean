import QtZeroConf.AvahiCore.EntryGroup

open reactive keyed

namespace qtzeroconf.avahi.server

open avahicore (AVAHI_IF_UNSPEC AvahiEntryGroupState)

/-- An announcer of a group that probes. -/
def ProbesFor (g : Nat) (a : AvahiAnnouncer) : Bool := a.state = .PROBING ∧ a.entry.group = some g

/-- The number of announcers of a group that probe. -/
def AvahiServer.probing (s : AvahiServer) (g : Nat) : Nat := s.announcers.countP (ProbesFor g)

/-- What an announcer in a state adds to the number of those that probe. -/
def AvahiAnnouncerState.weight (state : AvahiAnnouncerState) : Int := if state = .PROBING then 1 else 0

/-- A group whose entries have announcers. -/
def AvahiSEntryGroup.Committed (group : AvahiSEntryGroup) : Prop :=
  group.dead = false ∧ (group.state = .AVAHI_ENTRY_GROUP_REGISTERING ∨ group.state = .AVAHI_ENTRY_GROUP_ESTABLISHED)

/-- A group that registers. -/
def AvahiSEntryGroup.Registers (group : AvahiSEntryGroup) : Prop :=
  group.dead = false ∧ group.state = .AVAHI_ENTRY_GROUP_REGISTERING

/-- A group that registers has not been forgotten: it waits for its holdoff, or
    for an announcer that probes. -/
def AvahiSEntryGroup.Going (group : AvahiSEntryGroup) : Prop :=
  group.dead = false → group.state = .AVAHI_ENTRY_GROUP_REGISTERING → group.register_time_event = none →
    0 < group.n_probing

/-- `n` probes of an entry have been posted on an interface until `t`, each of
    them an interval before the next, and the last one an interval before `t`. -/
def Probes (log : List Output) (p : EntryPtr) (i : AvahiInterface) : Nat → Int → Prop
  | 0, _ => True
  | n + 1, t => ∃ t', Output.post_probe p i t' ∈ log ∧ t' + (AVAHI_PROBE_INTERVAL_MSEC * 1000 : Nat) ≤ t ∧ Probes log p i n t'

/-- Probes recede as time goes by. -/
theorem Probes.later {log : List Output} {p : EntryPtr} {i : AvahiInterface} {n : Nat} {t t' : Int}
    (h : Probes log p i n t) (ht : t ≤ t') : Probes log p i n t' := by
  cases n with
  | zero => trivial
  | succ n =>
    obtain ⟨u, hu, hle, hrest⟩ := h
    exact ⟨u, hu, Int.le_trans hle ht, hrest⟩

/-- Probes stay in the log. -/
theorem Probes.mono {log log' : List Output} {p : EntryPtr} {i : AvahiInterface} {n : Nat} {t : Int}
    (h : Probes log p i n t) (hlog : ∀ o ∈ log, o ∈ log') : Probes log' p i n t := by
  induction n generalizing t with
  | zero => trivial
  | succ n ih =>
    obtain ⟨u, hu, hle, hrest⟩ := h
    exact ⟨u, hlog _ hu, hle, ih hrest⟩

/-- What an invariant refers to besides the state: whether every probing
    announcer that a group counts is still there (`exact`), whether flags have
    been kept (`kept`), a group that is being dealt with (`except`), the groups
    that were established before (`was`), and what has been done so far (`log`). -/
structure Ghost where
  exact : Prop
  kept : Prop
  except : Option Nat
  was : Nat → Prop
  log : List Output

/-- What holds of an announcer: its entry is alive and its group, if it has one,
    has been committed; it waits for a group that registers; it goes on at some
    time; and if it has to probe, it is past that only with its probes posted. -/
structure Placed (q : Ghost) (s : AvahiServer) (a : AvahiAnnouncer) : Prop where
  known : ∃ e ∈ s.entries, e.ptr = a.entry ∧ e.dead = false
  committed : ∀ g, a.entry.group = some g → (s.groups g).Committed
  released : a.state = .WAITING → ∃ g, a.entry.group = some g ∧
    (q.except = some g ∨ (s.groups g).state = .AVAHI_ENTRY_GROUP_REGISTERING)
  timed : a.state = .ANNOUNCING → a.time_event.isSome
  probes : a.state = .PROBING → 1 ≤ a.n_iteration ∧ a.n_iteration ≤ 4 ∧
    ∃ t, a.time_event = some t ∧ Probes q.log a.entry a.interface (a.n_iteration - 1) t
  probed : q.kept → a.state ≠ .PROBING → ∀ e ∈ s.entries, e.ptr = a.entry → e.flags.UNIQUE = true →
    e.flags.NO_PROBE = false → Probes q.log a.entry a.interface 3 s.now

/-- What holds of a server whenever it calls the callback of a group: a group
    counts at least its announcers that probe, and is not forgotten. -/
structure Sound (q : Ghost) (s : AvahiServer) : Prop where
  distinct : (s.announcers.map AvahiAnnouncer.key).Nodup
  entries : (s.entries.map AvahiEntry.ptr).Nodup
  numbered : ∀ e ∈ s.entries, e.ptr.serial < s.n_entries ∧ ∀ g, e.ptr.group = some g → g < s.n_groups
  living : ∀ e ∈ s.entries, e.dead = false → ∀ g, e.ptr.group = some g → (s.groups g).dead = false
  placed : ∀ a ∈ s.announcers, Placed q s a
  counted : ∀ g, (s.groups g).dead = false →
    (s.probing g : Int) ≤ (s.groups g).n_probing ∧ (q.exact → (s.groups g).n_probing = s.probing g)
  going : ∀ g, q.except ≠ some g → (s.groups g).Going
  holdoff : ∀ g, (s.groups g).register_time_event.isSome → (s.groups g).state = .AVAHI_ENTRY_GROUP_REGISTERING
  fresh : ∀ g, (s.groups g).state = .AVAHI_ENTRY_GROUP_ESTABLISHED → q.was g ∨ s.probing g = 0

section

variable (s : AvahiServer) (p : EntryPtr) (d : Int)

theorem groups_count (g : Nat) :
    (s.count p d).groups g = if p.group = some g then { s.groups g with n_probing := (s.groups g).n_probing + d }
      else s.groups g := rfl

@[simp] theorem dead_count (g : Nat) : ((s.count p d).groups g).dead = (s.groups g).dead := by
  rw [groups_count]; split <;> rfl

@[simp] theorem state_count (g : Nat) : ((s.count p d).groups g).state = (s.groups g).state := by
  rw [groups_count]; split <;> rfl

@[simp] theorem register_time_event_count (g : Nat) :
    ((s.count p d).groups g).register_time_event = (s.groups g).register_time_event := by
  rw [groups_count]; split <;> rfl

theorem count_zero : s.count p 0 = s := by
  have hgroups : (s.count p 0).groups = s.groups := by
    funext g
    rw [groups_count]
    split
    · rw [Int.add_zero]
    · rfl
  exact congrArg (fun groups => { s with groups := groups }) hgroups

theorem count_count (c : Int) : (s.count p c).count p d = s.count p (c + d) := by
  have hgroups : ((s.count p c).count p d).groups = (s.count p (c + d)).groups := by
    funext g
    simp only [groups_count]
    split
    · rw [Int.add_assoc]
    · rfl
  exact congrArg (fun groups => { s with groups := groups }) hgroups

/-- To start an announcer counts it and writes it. -/
theorem start_eq (a : AvahiAnnouncer) (state : AvahiAnnouncerState) :
    start a state s = (s.count a.entry state.weight).put
      { a with state, n_iteration := 1, sec_delay := 1, time_event := startTime s state } := by
  have htime : startTime (s.count a.entry 1) state = startTime s state := by cases state <;> rfl
  unfold start AvahiAnnouncerState.weight
  split
  · dsimp only
    rw [htime]
  · rw [count_zero]

theorem uncount_eq (state : AvahiAnnouncerState) :
    (if state = .PROBING then s.count p (-1) else s) = s.count p (-state.weight) := by
  unfold AvahiAnnouncerState.weight
  split
  · rfl
  · rw [Int.neg_zero, count_zero]

end

section

variable {q : Ghost} {s : AvahiServer}

/-- Where an announcer belongs does not depend on the other announcers, or on how
    many of them probe. -/
theorem Placed.congr {s' : AvahiServer} {a : AvahiAnnouncer} (h : Placed q s a) (hentries : s'.entries = s.entries)
    (hgroups : ∀ g, (s'.groups g).dead = (s.groups g).dead ∧ (s'.groups g).state = (s.groups g).state)
    (hnow : s'.now = s.now) : Placed q s' a := by
  refine ⟨hentries ▸ h.known, fun g hg => ?_, fun hwait => ?_, h.timed, h.probes, hentries ▸ hnow ▸ h.probed⟩
  · have hcommitted := h.committed g hg
    rwa [AvahiSEntryGroup.Committed, (hgroups g).1, (hgroups g).2]
  · obtain ⟨g, hg, hstate⟩ := h.released hwait
    exact ⟨g, hg, (hgroups g).2 ▸ hstate⟩

/-- An announcer is written, and counted as it is now. -/
theorem Sound.put (h : Sound q s) {a b : AvahiAnnouncer} (hb : b ∈ s.announcers) (hkey : a.key = b.key)
    (hplaced : Placed q s a) {d : Int} (hd : d = a.state.weight - b.state.weight)
    (hless : ∀ g, a.entry.group = some g → d < 0 → q.except = some g)
    (hmore : ∀ g, a.entry.group = some g → 0 < d → (s.groups g).state = .AVAHI_ENTRY_GROUP_ESTABLISHED → q.was g) :
    Sound q ((s.count a.entry d).put a) := by
  have hentry : a.entry = b.entry := congrArg Prod.fst hkey
  have hcounted (g : Nat) : (((s.count a.entry d).put a).probing g : Int) =
      s.probing g + if a.entry.group = some g then d else 0 := by
    have hcount := countP_replace (ProbesFor g) h.distinct hb hkey
    change (((replace AvahiAnnouncer.key a s.announcers).countP (ProbesFor g) : Nat) : Int) =
      ((s.announcers.countP (ProbesFor g) : Nat) : Int) + _
    split
    · rename_i hgroup
      have ha : ProbesFor g a = decide (a.state = .PROBING) := by simp [ProbesFor, hgroup]
      have hb' : ProbesFor g b = decide (b.state = .PROBING) := by simp [ProbesFor, hentry ▸ hgroup]
      simp only [ha, hb', decide_eq_true_eq] at hcount
      unfold AvahiAnnouncerState.weight at hd
      split_ifs at hcount hd <;> omega
    · rename_i hgroup
      have ha : ProbesFor g a = false := by simp [ProbesFor, hgroup]
      have hb' : ProbesFor g b = false := by simp [ProbesFor, hentry ▸ hgroup]
      simp only [ha, hb', Bool.false_eq_true, if_false] at hcount
      omega
  have hgroups (g : Nat) : ((s.count a.entry d).put a).groups g = (s.count a.entry d).groups g := rfl
  refine ⟨?_, h.entries, h.numbered, fun e he halive g hg => ?_, fun x hx => ?_, fun g hg => ?_, fun g hg => ?_,
    fun g htime => ?_, fun g hg => ?_⟩
  · change ((replace AvahiAnnouncer.key a s.announcers).map AvahiAnnouncer.key).Nodup
    rw [map_key_replace]
    exact h.distinct
  · exact (dead_count ..).trans (h.living e he halive g hg)
  · have hx' : Placed q s x := by
      rcases mem_replace.mp hx with ⟨rfl, -⟩ | ⟨hx, -⟩
      · exact hplaced
      · exact h.placed x hx
    exact hx'.congr rfl (fun g => ⟨dead_count .., state_count ..⟩) rfl
  · obtain ⟨hle, hexact⟩ := h.counted g ((dead_count ..).symm.trans hg)
    rw [hcounted, hgroups, groups_count]
    split
    · exact ⟨by dsimp only; omega, fun he => by have := hexact he; dsimp only; omega⟩
    · exact ⟨by omega, fun he => by have := hexact he; omega⟩
  · intro hdead hstate htime
    rw [hgroups] at hdead hstate htime ⊢
    rw [dead_count] at hdead
    rw [state_count] at hstate
    rw [register_time_event_count] at htime
    have hpositive := h.going g hg hdead hstate htime
    rw [groups_count]
    split
    · rename_i hgroup
      have hd' : ¬ d < 0 := fun hneg => hg (hless g hgroup hneg)
      dsimp only
      omega
    · exact hpositive
  · rw [hgroups, register_time_event_count] at htime
    rw [hgroups, state_count]
    exact h.holdoff g htime
  · rw [hgroups, state_count] at hg
    have hcount := hcounted g
    rcases h.fresh g hg with hwas | hzero
    · exact Or.inl hwas
    · split at hcount
      · rename_i hgroup
        by_cases hd' : 0 < d
        · exact Or.inl (hmore g hgroup hd' hg)
        · exact Or.inr (by omega)
      · exact Or.inr (by omega)

/-- An announcer goes on that did not probe and does not probe now. -/
theorem Sound.put_same (h : Sound q s) {a b : AvahiAnnouncer} (hb : b ∈ s.announcers) (hkey : a.key = b.key)
    (hplaced : Placed q s a) (ha : a.state ≠ .PROBING) (hb' : b.state ≠ .PROBING) : Sound q (s.put a) := by
  have hput := h.put hb hkey hplaced (d := 0) (by simp [AvahiAnnouncerState.weight, ha, hb'])
    (fun _ _ => nofun) fun _ _ => nofun
  rwa [count_zero] at hput

/-- What has been done since then is forgotten by nothing. -/
theorem Placed.log {a : AvahiAnnouncer} (h : Placed q s a) {log : List Output} (hlog : ∀ o ∈ q.log, o ∈ log) :
    Placed { q with log := log } s a := by
  refine ⟨h.known, h.committed, h.released, h.timed, fun hstate => ?_, fun hk hstate e he hptr hunique hprobe => ?_⟩
  · obtain ⟨hone, hfour, t, ht, hprobes⟩ := h.probes hstate
    exact ⟨hone, hfour, t, ht, hprobes.mono hlog⟩
  · exact (h.probed hk hstate e he hptr hunique hprobe).mono hlog

/-- The log may say more. -/
theorem Sound.log (h : Sound q s) {log : List Output} (hlog : ∀ o ∈ q.log, o ∈ log) : Sound { q with log := log } s :=
  ⟨h.distinct, h.entries, h.numbered, h.living, fun a ha => (h.placed a ha).log hlog, h.counted, h.going, h.holdoff, h.fresh⟩

/-- An announcer does not probe any more. -/
theorem Placed.past {a b : AvahiAnnouncer} (h : Placed q s b) (hkey : a.key = b.key)
    (ha : a.state = .ANNOUNCING ∧ a.time_event.isSome ∨ a.state = .ESTABLISHED)
    (hprobed : q.kept → b.state = .PROBING → Probes q.log b.entry b.interface 3 s.now) : Placed q s a := by
  have hentry : a.entry = b.entry := congrArg Prod.fst hkey
  have hinterface : a.interface = b.interface := congrArg Prod.snd hkey
  refine ⟨hentry ▸ h.known, hentry ▸ h.committed, fun hwait => ?_, fun hann => ?_, fun hstate => ?_, fun hk _ e he hptr hu hn => ?_⟩
  · rcases ha with ⟨ha, -⟩ | ha <;> rw [ha] at hwait <;> cases hwait
  · rcases ha with ⟨-, htime⟩ | ha
    · exact htime
    · rw [ha] at hann
      cases hann
  · rcases ha with ⟨ha, -⟩ | ha <;> rw [ha] at hstate <;> cases hstate
  · rw [hentry, hinterface]
    by_cases hstate : b.state = .PROBING
    · exact hprobed hk hstate
    · exact h.probed hk hstate e he (hptr.trans hentry) hu hn

/-- An announcement. -/
theorem announce_spec (a : AvahiAnnouncer) (ha : a.state = .ANNOUNCING) (s : AvahiServer) :
    ∃ a', announce a s = (s.put a', [.announce a.entry a.interface]) ∧ a'.key = a.key ∧
      (a'.state = .ANNOUNCING ∧ a'.time_event.isSome ∨ a'.state = .ESTABLISHED) := by
  unfold announce
  dsimp only
  split_ifs
  · exact ⟨_, rfl, rfl, Or.inr rfl⟩
  · exact ⟨_, rfl, rfl, Or.inl ⟨ha, rfl⟩⟩
  · exact ⟨_, rfl, rfl, Or.inl ⟨ha, rfl⟩⟩

/-- The probes of an announcer are done when its last time is up. -/
theorem Placed.done {a : AvahiAnnouncer} (h : Placed q s a) (hstate : a.state = .PROBING) (hmany : 4 ≤ a.n_iteration)
    (hdue : a.time_event.any fun t => t ≤ s.now) : Probes q.log a.entry a.interface 3 s.now := by
  obtain ⟨-, hfour, t, ht, hprobes⟩ := h.probes hstate
  have hcount : a.n_iteration - 1 = 3 := by omega
  rw [ht, Option.any_some, decide_eq_true_eq] at hdue
  rw [hcount] at hprobes
  exact hprobes.later hdue

/-- An announcer starts in a state that its entry allows. -/
theorem Sound.start (h : Sound q s) {a : AvahiAnnouncer} (ha : a ∈ s.announcers) (state : AvahiAnnouncerState)
    (hreleased : state = .WAITING → ∃ g, a.entry.group = some g ∧
      (q.except = some g ∨ (s.groups g).state = .AVAHI_ENTRY_GROUP_REGISTERING))
    (hprobed : q.kept → state ≠ .PROBING → ∀ e ∈ s.entries, e.ptr = a.entry → e.flags.UNIQUE = true →
      e.flags.NO_PROBE = false → Probes q.log a.entry a.interface 3 s.now)
    (hless : a.state = .PROBING → state = .PROBING)
    (hwas : ∀ g, (s.groups g).state = .AVAHI_ENTRY_GROUP_ESTABLISHED → q.was g) :
    Sound q (server.start a state (if a.state = .PROBING then s.count a.entry (-1) else s)) := by
  have hplaced := h.placed a ha
  rw [uncount_eq, start_eq, count_count]
  have htime : startTime (s.count a.entry (-a.state.weight)) state = startTime s state := by cases state <;> rfl
  rw [htime]
  have hnew : Placed q s { a with state, n_iteration := 1, sec_delay := 1, time_event := startTime s state } := by
    refine ⟨hplaced.known, hplaced.committed, hreleased, fun hstate => ?_, fun hstate => ?_, hprobed⟩
    · dsimp only at hstate
      rw [hstate]
      rfl
    · dsimp only at hstate
      rw [hstate]
      exact ⟨Nat.le_refl 1, show 1 ≤ 4 by decide, _, rfl, trivial⟩
  refine h.put (a := { a with state, n_iteration := 1, sec_delay := 1, time_event := startTime s state }) ha rfl hnew
    (by dsimp only; omega) (fun _ _ hneg => ?_) fun g _ _ hestablished => hwas g hestablished
  by_cases hold : a.state = .PROBING
  · simp [AvahiAnnouncerState.weight, hold, hless hold] at hneg
  · by_cases hstate : state = .PROBING <;> simp [AvahiAnnouncerState.weight, hold, hstate] at hneg

/-- A new announcer is counted as it starts. -/
theorem Sound.insert (h : Sound q s) {a : AvahiAnnouncer} (hnew : a.key ∉ s.announcers.map AvahiAnnouncer.key)
    (hplaced : Placed q s a) (hwas : ∀ g, (s.groups g).state = .AVAHI_ENTRY_GROUP_ESTABLISHED → q.was g) :
    Sound q { s.count a.entry a.state.weight with announcers := a :: s.announcers } := by
  have hcounted (g : Nat) : (({ s.count a.entry a.state.weight with announcers := a :: s.announcers }.probing g : Nat) : Int) =
      s.probing g + if a.entry.group = some g then a.state.weight else 0 := by
    change (((a :: s.announcers).countP (ProbesFor g) : Nat) : Int) = ((s.announcers.countP (ProbesFor g) : Nat) : Int) + _
    rw [List.countP_cons]
    unfold AvahiAnnouncerState.weight
    by_cases hgroup : a.entry.group = some g <;> by_cases hstate : a.state = .PROBING <;>
      simp [ProbesFor, hgroup, hstate]
  have hweight : 0 ≤ a.state.weight := by unfold AvahiAnnouncerState.weight; split <;> omega
  refine ⟨List.nodup_cons.mpr ⟨hnew, h.distinct⟩, h.entries, h.numbered, fun e he halive g hg => ?_, fun x hx => ?_,
    fun g hg => ?_, fun g hg hdead hstate htime => ?_, fun g htime => ?_, fun g hg => ?_⟩
  · exact (dead_count ..).trans (h.living e he halive g hg)
  · have hx' : Placed q s x := by
      rcases List.mem_cons.mp hx with rfl | hx
      · exact hplaced
      · exact h.placed x hx
    exact hx'.congr rfl (fun g => ⟨dead_count .., state_count ..⟩) rfl
  · obtain ⟨hle, hexact⟩ := h.counted g ((dead_count ..).symm.trans hg)
    rw [hcounted, groups_count]
    split
    · exact ⟨by dsimp only; omega, fun he => by have := hexact he; dsimp only; omega⟩
    · exact ⟨by omega, fun he => by have := hexact he; omega⟩
  · have hpositive := h.going g hg ((dead_count ..).symm.trans hdead) ((state_count ..).symm.trans hstate)
      ((register_time_event_count ..).symm.trans htime)
    rw [groups_count]
    split
    · dsimp only
      omega
    · exact hpositive
  · exact (state_count ..).trans (h.holdoff g ((register_time_event_count ..).symm ▸ htime))
  · exact Or.inl (hwas g ((state_count ..).symm.trans hg))

end

end qtzeroconf.avahi.server
