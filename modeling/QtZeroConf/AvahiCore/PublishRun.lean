import QtZeroConf.AvahiCore.Conflicts

open reactive keyed

namespace qtzeroconf.avahi.server

open avahicore (AVAHI_IF_UNSPEC AvahiEntryGroupState)

/-- An interface goes away only when no announcer of a group probes on it. -/
def Call.Spares (s : AvahiServer) : Call → Prop
  | .interface_irrelevant i | .interface_free i _ =>
    ∀ a ∈ s.announcers, a.interface = i → a.state = .PROBING → a.entry.group = none
  | _ => True

/-- An update keeps how an entry is probed for. -/
def Call.Keeps (s : AvahiServer) : Call → Prop
  | .update g interface protocol flags r => ∀ old, entry_to_update s g interface protocol r = some old →
    old.flags.UNIQUE = flags.UNIQUE ∧ old.flags.NO_PROBE = flags.NO_PROBE
  | _ => True

/-- A record that is probed for is compared with what is alive under its key,
    where neither of the two is of an unknown type and without data. -/
def Call.Compares (s : AvahiServer) : Call → Prop
  | .incoming_probe record _ => ∀ e ∈ s.entries_by_key record.val.key, e.dead = false →
    e.record.val.data.null = false ∧ record.val.data.null = false
  | _ => True

section

variable {q : Ghost} {s : AvahiServer}

theorem usable_iff {g : Nat} : s.usable g = true ↔ g < s.n_groups ∧ (s.groups g).dead = false := by
  simp [AvahiServer.usable]

/-- An entry is added. -/
theorem sound_add (h : Sound q s) (hsteady : Steady q s) {g : Option Nat} (hg : g.all s.usable = true) (interface : Int32)
    (protocol : AvahiProtocol) (flags : AvahiPublishFlags) (r : ValidRecord) :
    Safe q (server_add_internal g interface protocol flags r s) := by
  unfold server_add_internal
  split
  · exact Safe.error h _
  split_ifs
  · exact Safe.error h _
  · exact Safe.error h _
  dsimp only
  generalize he : ({ ptr := { serial := s.n_entries, group := g }, dead := false, flags, record := r, interface, protocol } :
    AvahiEntry) = e
  have hptr : e.ptr = { serial := s.n_entries, group := g } := by rw [← he]
  have halive : e.dead = false := by rw [← he]
  have hnew : e.ptr ∉ s.entries.map AvahiEntry.ptr := by
    intro hmem
    obtain ⟨e', he', hsame⟩ := List.mem_map.mp hmem
    have hserial := (h.numbered e' he').1
    rw [hsame, hptr] at hserial
    exact absurd hserial (Nat.lt_irrefl _)
  have hadded : Sound q { s with entries := e :: s.entries, n_entries := s.n_entries + 1 } := by
    refine h.change (fun _ => false) none
      { announcers := (List.filter_eq_self.mpr fun _ _ => rfl).symm, unique := List.nodup_cons.mpr ⟨hnew, h.entries⟩
        entries := fun x hx => ?_, known := fun x hx halive _ => ⟨x, List.mem_cons_of_mem _ hx, rfl, halive⟩
        same := fun _ _ => ⟨rfl, fun _ _ _ haway => absurd haway Bool.false_ne_true⟩
        now := Int.le_refl _, n_entries := Nat.le_succ _, n_groups := Nat.le_refl _ }
    rcases List.mem_cons.mp hx with rfl | hx
    · refine Or.inr ⟨hnew, ?_, fun k hk => ?_⟩
      · rw [hptr]
        exact Nat.lt_succ_self _
      · rw [hptr] at hk
        obtain rfl : g = some k := hk
        exact usable_iff.mp hg
    · exact Or.inl ⟨x, hx, rfl, fun halive => halive, fun _ => ⟨rfl, rfl⟩⟩
  exact Safe.silent (sound_announce_entry hadded hsteady List.mem_cons_self halive).1

/-- An entry is updated. -/
theorem sound_update (h : Sound q s) (hsteady : Steady q s) {g : Option Nat} {interface : Int32} {protocol : AvahiProtocol}
    {flags : AvahiPublishFlags} {r : ValidRecord} (hkeeps : q.kept → (Call.update g interface protocol flags r).Keeps s) :
    Safe q (server_update_internal g interface protocol flags r s) := by
  unfold server_update_internal
  split
  · exact Safe.error h _
  split
  · exact Safe.error h _
  rename_i old hfind
  have hold : old ∈ s.entries := (List.mem_filter.mp (List.mem_of_find?_eq_some hfind)).1
  dsimp only
  generalize he : ({ old with record := r, flags } : AvahiEntry) = e
  have hptr : e.ptr = old.ptr := by rw [← he]
  have hdead : e.dead = old.dead := by rw [← he]
  have hflags : e.flags = flags := by rw [← he]
  have hmem : e ∈ replace AvahiEntry.ptr e s.entries :=
    mem_replace.mpr (Or.inl ⟨rfl, hptr ▸ List.mem_map_of_mem hold⟩)
  have hptrs : (replace AvahiEntry.ptr e s.entries).map AvahiEntry.ptr = s.entries.map AvahiEntry.ptr :=
    map_key_replace e s.entries
  have hwritten : Sound q { s with entries := replace AvahiEntry.ptr e s.entries } := by
    refine h.change (fun _ => false) none
      { announcers := (List.filter_eq_self.mpr fun _ _ => rfl).symm, unique := hptrs ▸ h.entries
        entries := fun x hx => Or.inl ?_, known := fun x hx halive _ => ?_
        same := fun _ _ => ⟨rfl, fun _ _ _ haway => absurd haway Bool.false_ne_true⟩
        now := Int.le_refl _, n_entries := Nat.le_refl _, n_groups := Nat.le_refl _ }
    · rcases mem_replace.mp hx with ⟨rfl, -⟩ | ⟨hx, -⟩
      · refine ⟨old, hold, hptr.symm, fun halive => hdead ▸ halive, fun hk => ?_⟩
        rw [hflags]
        exact hkeeps hk old hfind
      · exact ⟨x, hx, rfl, fun halive => halive, fun _ => ⟨rfl, rfl⟩⟩
    · by_cases hsame : x.ptr = e.ptr
      · obtain rfl := h.entry_eq hx hold (hsame.trans hptr)
        exact ⟨e, hmem, hptr, hdead.trans halive⟩
      · exact ⟨x, mem_replace.mpr (Or.inr ⟨hx, hsame⟩), rfl, halive⟩
  split
  · have hgoodbye (t : AvahiServer) : ((if ¬ flags.UNIQUE then avahi_goodbye_entry e true false else Action.skip :
        Action AvahiServer Output) t).1 = t ∧ ∀ o ∈ ((if ¬ flags.UNIQUE then avahi_goodbye_entry e true false
          else Action.skip : Action AvahiServer Output) t).2, Regular o := by
      split
      · exact goodbye_entry_spec e true false t
      · exact ⟨rfl, List.forall_mem_nil _⟩
    obtain ⟨hsame, houtputs⟩ := hgoodbye { s with entries := replace AvahiEntry.ptr e s.entries }
    refine Safe.andThen ⟨hsame.symm ▸ hwritten, houtputs⟩ fun _ => ?_
    rw [hsame]
    exact Safe.silent (sound_reannounce_entry hwritten hsteady hmem).1
  · exact Safe.silent hwritten

theorem goodbye_interface_spec (i : AvahiInterface) (send_goodbye : Bool) (s : AvahiServer) :
    (avahi_goodbye_interface i send_goodbye true s).1 = { s with announcers := s.announcers.filter fun a => a.interface ≠ i } ∧
      ∀ o ∈ (avahi_goodbye_interface i send_goodbye true s).2, Regular o := by
  have hturn (e : AvahiEntry) (s : AvahiServer) : ((if ¬ e.dead then send_goodbye_callback e i else Action.skip :
      Action AvahiServer Output) s).1 = s ∧ ∀ o ∈ ((if ¬ e.dead then send_goodbye_callback e i else Action.skip :
      Action AvahiServer Output) s).2, Regular o := by
    split
    · exact send_goodbye_same e i s
    · exact ⟨rfl, List.forall_mem_nil _⟩
  unfold avahi_goodbye_interface
  rw [if_pos rfl]
  split
  · refine ⟨?_, fun o ho => ?_⟩
    · rw [Action.andThen_fst, forEach_same fun e s => (hturn e s).1]
      rfl
    · rcases List.mem_append.mp ho with ho | ho
      · exact forEach_regular (fun e s => (hturn e s).2) _ s o ho
      · cases ho
  · exact ⟨rfl, List.forall_mem_nil _⟩

/-- An interface goes away. -/
theorem sound_goodbye_interface (h : Sound q s) {i : AvahiInterface} {s' : AvahiServer}
    (hspares : q.exact → ∀ a ∈ s.announcers, a.interface = i → a.state = .PROBING → a.entry.group = none)
    (hannouncers : s'.announcers = s.announcers.filter fun a => a.interface ≠ i) (hentries : s'.entries = s.entries)
    (hgroups : s'.groups = s.groups) (hnow : s'.now = s.now) (hn : s'.n_entries = s.n_entries)
    (hn' : s'.n_groups = s.n_groups) : Sound q s' := by
  refine h.change (fun a => a.interface = i) none
    { announcers := hannouncers.trans (List.filter_congr fun a _ => by simp), unique := hentries ▸ h.entries
      entries := fun e he => Or.inl ⟨e, hentries ▸ he, rfl, fun halive => halive, fun _ => ⟨rfl, rfl⟩⟩
      known := fun e he halive _ => ⟨e, hentries.symm ▸ he, rfl, halive⟩
      same := fun g _ => ⟨congrFun hgroups g, fun hexact a ha hinterface => ?_⟩
      now := Int.le_of_eq hnow.symm
      n_entries := Nat.le_of_eq hn.symm, n_groups := Nat.le_of_eq hn'.symm }
  have hnone := hspares hexact a ha (by simpa using hinterface)
  by_cases hprobing : a.state = .PROBING
  · simp [ProbesFor, hnone hprobing]
  · simp [ProbesFor, hprobing]

theorem sound_cleanup (h : Sound q s) : Sound q (avahi_cleanup_dead_entries s) :=
  h.change (fun _ => false) none
    { announcers := (List.filter_eq_self.mpr fun _ _ => rfl).symm
      unique := h.entries.sublist (List.filter_sublist.map _)
      entries := fun e he => Or.inl ⟨e, (List.mem_filter.mp he).1, rfl, fun halive => halive, fun _ => ⟨rfl, rfl⟩⟩
      known := fun e he halive _ => ⟨e, List.mem_filter.mpr ⟨he, by rw [halive]; rfl⟩, rfl, halive⟩
      same := fun _ _ => ⟨rfl, fun _ _ _ haway => absurd haway Bool.false_ne_true⟩
      now := Int.le_refl _, n_entries := Nat.le_refl _, n_groups := Nat.le_refl _ }

theorem Safe.logged {t : AvahiServer × List Output} (h : Safe q t) : Logged q t := .of_sound h.1 h.2

/-- An action on a group finds it alive. -/
theorem safe_onGroup (h : Sound q s) {g : Nat} {a : Action AvahiServer Output}
    (ha : (s.groups g).dead = false → Safe q (a s)) : Safe q (onGroup g a s) := by
  unfold onGroup
  split
  · rename_i husable
    exact ha (usable_iff.mp husable).2
  · exact Safe.silent h

theorem safe_add_run (h : Sound q s) (hsteady : Steady q s) (g : Option Nat) (interface : Int32)
    (protocol : AvahiProtocol) (flags : AvahiPublishFlags) (r : ValidRecord) :
    Safe q ((Call.add g interface protocol flags r).run s) := by
  dsimp only [Call.run]
  split
  · rename_i husable
    exact sound_add h hsteady husable interface protocol flags r
  · exact Safe.silent h

theorem safe_update_run (h : Sound q s) (hsteady : Steady q s) {g : Option Nat} {interface : Int32}
    {protocol : AvahiProtocol} {flags : AvahiPublishFlags} {r : ValidRecord}
    (hkeeps : q.kept → (Call.update g interface protocol flags r).Keeps s) :
    Safe q ((Call.update g interface protocol flags r).run s) := by
  dsimp only [Call.run]
  split
  · exact sound_update h hsteady hkeeps
  · exact Safe.silent h

/-- The holdoff of a group elapses when it is due. -/
theorem safe_register_time_event_run (h : Sound q s) (hq : q.except = none) (hsteady : Steady q s) (g : Nat) :
    Safe q ((Call.register_time_event g).run s) := by
  dsimp only [Call.run]
  split
  · rename_i hdue
    refine sound_register_time_event h hq hsteady ?_
    cases htime : (s.groups g).register_time_event with
    | none =>
      rw [htime] at hdue
      cases hdue
    | some t => rfl
  · exact Safe.silent h

/-- An announcer goes on when it is due. -/
theorem logged_elapse_announce_run (h : Sound q s) (hq : q.except = none) (entry : EntryPtr) (interface : AvahiInterface) :
    Logged q ((Call.elapse_announce entry interface).run s) := by
  dsimp only [Call.run]
  split
  · exact (Safe.silent h).logged
  · rename_i a hfind
    split
    · rename_i hdue
      exact sound_next_state h hq (lookup_eq_some hfind).1 hdue
    · exact (Safe.silent h).logged

theorem safe_interface_new_run (h : Sound q s) (i : AvahiInterface) : Safe q ((Call.interface_new i).run s) := by
  refine Safe.silent ?_
  dsimp only
  split
  · exact h
  · exact h.idle rfl rfl rfl (Int.le_refl _) rfl rfl

theorem safe_interface_relevant_run (h : Sound q s) (hsteady : Steady q s) (i : AvahiInterface) :
    Safe q ((Call.interface_relevant i).run s) := by
  refine Safe.silent ?_
  dsimp only
  split
  · have hidle : Sound q { s with announcing := fun j => if j = i then true else s.announcing j } :=
      h.idle rfl rfl rfl (Int.le_refl _) rfl rfl
    exact (sound_announce_interface hidle hsteady i).1
  · exact h

/-- An interface goes away, whatever is written of it then. -/
theorem safe_interface_gone (h : Sound q s) {i : AvahiInterface} (send_goodbye : Bool) {f : AvahiServer → AvahiServer}
    (hspares : q.exact → ∀ a ∈ s.announcers, a.interface = i → a.state = .PROBING → a.entry.group = none)
    (hf : ∀ s, (f s).announcers = s.announcers ∧ (f s).entries = s.entries ∧ (f s).groups = s.groups ∧
      (f s).now = s.now ∧ (f s).n_entries = s.n_entries ∧ (f s).n_groups = s.n_groups) :
    Safe q (Action.andThen (avahi_goodbye_interface i send_goodbye true) (Action.update f) s) := by
  obtain ⟨hstate, houtputs⟩ := goodbye_interface_spec i send_goodbye s
  refine ⟨?_, List.forall_mem_append.mpr ⟨houtputs, List.forall_mem_nil _⟩⟩
  obtain ⟨hannouncers, hentries, hgroups, hnow, hn, hn'⟩ := hf { s with announcers := s.announcers.filter fun a => a.interface ≠ i }
  rw [Action.andThen_fst, hstate]
  exact sound_goodbye_interface h hspares hannouncers hentries hgroups hnow hn hn'

/-- A record whose comparisons are all of data that is there fails no assertion. -/
theorem Call.Compares.decided {record : ValidRecord} {i : AvahiInterface} (h : (Call.incoming_probe record i).Compares s) :
    ∀ e ∈ s.entries_by_key record.val.key, e.dead = false →
      avahi_record_lexicographical_compare e.record.val record.val ≠ none := by
  intro e he halive hnone
  obtain ⟨hentry, hrecord⟩ := h e he halive
  rcases ((avahi_record_lexicographical_compare_decided e.record record).mp hnone).2.2 with hnull | hnull
  · rw [hentry] at hnull
    cases hnull
  · rw [hrecord] at hnull
    cases hnull

/-- A call of the program keeps the invariant, and so does what happens otherwise. -/
theorem sound_call_run (h : Sound q s) (hq : q.except = none) (hsteady : Steady q s) (c : Call) (hspares : q.exact → c.Spares s)
    (hkeeps : q.kept → c.Keeps s) : Sound { q with log := q.log ++ (c.run s).2 } (c.run s).1 ∧
      (c.Compares s → ∀ o ∈ (c.run s).2, Regular o) := by
  have hlogged (hc : Logged q (c.run s)) : Sound { q with log := q.log ++ (c.run s).2 } (c.run s).1 ∧
      (c.Compares s → ∀ o ∈ (c.run s).2, Regular o) := ⟨hc.1, fun _ => hc.2⟩
  cases c with
  | group_new callback => exact hlogged (Safe.silent (sound_group_new h callback)).logged
  | add g interface protocol flags r => exact hlogged (safe_add_run h hsteady g interface protocol flags r).logged
  | update g interface protocol flags r => exact hlogged (safe_update_run h hsteady hkeeps).logged
  | commit g => exact hlogged (safe_onGroup h fun halive => sound_commit h hq hsteady halive).logged
  | reset g => exact hlogged (safe_onGroup h fun _ => sound_withdraw_group h hq true (Or.inl rfl)).logged
  | free g => exact hlogged (safe_onGroup h fun _ => ⟨(sound_free h g).1, (sound_free h g).2.1⟩).logged
  | register_time_event g => exact hlogged (safe_register_time_event_run h hq hsteady g).logged
  | elapse_announce entry interface => exact hlogged (logged_elapse_announce_run h hq entry interface)
  | incoming_probe record i =>
    have hprobe := sound_incoming_probe h hq record i
    exact ⟨hprobe.1.log fun _ ho => List.mem_append_left _ ho, fun hcompares => hprobe.2 hcompares.decided⟩
  | handle_conflict i record unique => exact hlogged (sound_handle_conflict h hq hsteady i record unique).logged
  | interface_new i => exact hlogged (safe_interface_new_run h i).logged
  | interface_relevant i => exact hlogged (safe_interface_relevant_run h hsteady i).logged
  | interface_irrelevant i =>
    have hgone : Safe q ((Call.interface_irrelevant i).run s) :=
      safe_interface_gone h false hspares fun _ => ⟨rfl, rfl, rfl, rfl, rfl, rfl⟩
    exact hlogged hgone.logged
  | interface_free i send_goodbye =>
    have hgone : Safe q ((Call.interface_free i send_goodbye).run s) :=
      safe_interface_gone h send_goodbye hspares fun _ => ⟨rfl, rfl, rfl, rfl, rfl, rfl⟩
    exact hlogged hgone.logged
  | cleanup => exact hlogged (Safe.silent (sound_cleanup h)).logged

end

/-- What the invariant refers to between two calls. -/
def ghost (exact kept : Prop) (s : AvahiServer) (log : List Output) : Ghost :=
  { exact, kept, except := none, was := fun g => (s.groups g).state = .AVAHI_ENTRY_GROUP_ESTABLISHED, log }

theorem sound_step {exact kept : Prop} {s : AvahiServer} {log : List Output} (h : Sound (ghost exact kept s log) s) (e : Event)
    (hspares : exact → e.call.Spares s) (hkeeps : kept → e.call.Keeps s) :
    Sound { ghost exact kept s log with log := log ++ (step s e).2 } (step s e).1 ∧
      (e.call.Compares s → ∀ o ∈ (step s e).2, Regular o) := by
  have htime : Sound (ghost exact kept s log) { s with now := s.now + e.delay, last_rand := e.last_rand } :=
    h.idle rfl rfl rfl (Int.le_add_of_nonneg_right (Int.natCast_nonneg _)) rfl rfl
  have hcall := sound_call_run htime rfl (fun g hg => hg) e.call (fun hexact => ?_) fun hkept => ?_
  · refine ⟨hcall.1, fun hcompares => hcall.2 ?_⟩
    cases hc : e.call <;> rw [hc] at hcompares <;> exact hcompares
  · have hcall := hspares hexact
    cases hc : e.call <;> rw [hc] at hcall <;> exact hcall
  · have hcall := hkeeps hkept
    cases hc : e.call <;> rw [hc] at hcall <;> exact hcall

/-- Between two calls, all that is established has been established. -/
theorem Sound.settle {q : Ghost} {s : AvahiServer} (h : Sound q s) (hq : q.except = none) :
    Sound (ghost q.exact q.kept s q.log) s := by
  have hexcept : (ghost q.exact q.kept s q.log).except = q.except := hq.symm
  have hplaced {a : AvahiAnnouncer} (ha : Placed q s a) : Placed (ghost q.exact q.kept s q.log) s a :=
    ⟨ha.known, ha.committed, hexcept ▸ ha.released, ha.timed, ha.probes, ha.probed⟩
  exact ⟨h.distinct, h.entries, h.numbered, h.living, fun a ha => hplaced (h.placed a ha), h.counted, fun g _ =>
    h.going g (by rw [hq]; simp), h.holdoff, fun g hg => Or.inl hg⟩

theorem sound_initial (exact kept : Prop) (now : Int) : Sound (ghost exact kept (initial now) []) (initial now) := by
  refine ⟨List.nodup_nil, List.nodup_nil, List.forall_mem_nil _, List.forall_mem_nil _, List.forall_mem_nil _,
    fun _ _ => ⟨Int.le_refl 0, fun _ => rfl⟩, fun g _ _ hstate => ?_, fun g htime => ?_, fun g hstate => Or.inr rfl⟩
  · cases hstate
  · cases htime

/-- The calls of a run are such that the invariant can speak of all probing
    announcers, and of all probes. -/
def Kind (exact kept : Prop) (s : AvahiServer) (e : Event) : Prop := (exact → e.call.Spares s) ∧ (kept → e.call.Keeps s)

theorem sound_after {exact kept : Prop} {s : AvahiServer} {log : List Output} (h : Sound (ghost exact kept s log) s)
    {es : List Event} (hes : Along step (Kind exact kept) s es) :
    Sound (ghost exact kept (after step s es) (log ++ trace step s es)) (after step s es) ∧
      (Along step (fun s e => e.call.Compares s) s es → ∀ o ∈ trace step s es, Regular o) := by
  induction es generalizing s log with
  | nil =>
    rw [trace_nil, List.append_nil]
    exact ⟨h, fun _ => List.forall_mem_nil _⟩
  | cons e es ih =>
    obtain ⟨⟨hspares, hkeeps⟩, hrest⟩ := hes
    obtain ⟨hsound, houtputs⟩ := sound_step h e hspares hkeeps
    obtain ⟨hafter, htrace⟩ := ih (hsound.settle rfl) hrest
    rw [after_cons, trace_cons, ← List.append_assoc]
    exact ⟨hafter, fun ⟨hcompares, hcompare⟩ => List.forall_mem_append.mpr ⟨houtputs hcompares, htrace hcompare⟩⟩

/-- The invariant holds in every run, whatever kind of run it is. -/
theorem sound_run (now : Int) (es : List Event) :
    Sound (ghost False False (after step (initial now) es) (trace step (initial now) es)) (after step (initial now) es) := by
  have hes : Along step (Kind False False) (initial now) es :=
    along_iff_split.mpr fun _ _ _ _ => ⟨False.elim, False.elim⟩
  exact (sound_after (sound_initial False False now) hes).1

/-- An address of the host `a`. -/
def hostRecord : ValidRecord :=
  ⟨{ key := { name := [0x61], clazz := AVAHI_DNS_CLASS_IN, type := AVAHI_DNS_TYPE_A }, ttl := 120
     data := .a #v[10, 0, 0, 1], typed := rfl }, by decide +kernel⟩

def lan : AvahiInterface := { index := 2, protocol := .AVAHI_PROTO_INET }

/-- A unique record is committed in a group, and three probes are posted for it. -/
def probedRun (r : ValidRecord) : List Event :=
  [{ delay := 0, last_rand := 0, call := .interface_new lan }, { delay := 0, last_rand := 0, call := .interface_relevant lan },
   { delay := 0, last_rand := 0, call := .group_new fun _ => .nothing },
   { delay := 0, last_rand := 0, call := .add (some 0) AVAHI_IF_UNSPEC .AVAHI_PROTO_UNSPEC { UNIQUE := true } r },
   { delay := 1000000, last_rand := 0, call := .commit 0 },
   { delay := 0, last_rand := 0, call := .elapse_announce ⟨0, some 0⟩ lan },
   { delay := 250000, last_rand := 0, call := .elapse_announce ⟨0, some 0⟩ lan },
   { delay := 250000, last_rand := 0, call := .elapse_announce ⟨0, some 0⟩ lan }]

/-- Another address of the host `a`. -/
def otherRecord : ValidRecord :=
  ⟨{ key := { name := [0x61], clazz := AVAHI_DNS_CLASS_IN, type := AVAHI_DNS_TYPE_A }, ttl := 120
     data := .a #v[10, 0, 0, 2], typed := rfl }, by decide +kernel⟩

end qtzeroconf.avahi.server
