import QtZeroConf.AvahiCore.Committing

open reactive keyed

namespace qtzeroconf.avahi.server

open avahicore (AVAHI_IF_UNSPEC AvahiEntryGroupState)

section

variable {q : Ghost} {s : AvahiServer}

/-- A loop whose turns are safe. -/
theorem Safe.forEach {ι : Type} {body : ι → Action AvahiServer Output} (h : Sound q s)
    (hbody : ∀ i s, Sound q s → Safe q (body i s)) (l : List ι) : Safe q (Action.forEach body l s) := by
  induction l generalizing s with
  | nil => exact Safe.silent h
  | cons i l ih => exact Safe.andThen (hbody i s h) fun hsound => ih hsound

/-- Nothing that the invariant is about has changed, but for the time. -/
theorem Sound.idle (h : Sound q s) {s' : AvahiServer} (hannouncers : s'.announcers = s.announcers)
    (hentries : s'.entries = s.entries) (hgroups : s'.groups = s.groups) (hnow : s.now ≤ s'.now)
    (hn : s'.n_entries = s.n_entries) (hn' : s'.n_groups = s.n_groups) : Sound q s' :=
  h.change (fun _ => false) none
    { announcers := hannouncers.trans (List.filter_eq_self.mpr fun _ _ => rfl).symm, unique := hentries ▸ h.entries
      entries := fun e he => Or.inl ⟨e, hentries ▸ he, rfl, fun halive => halive, fun _ => ⟨rfl, rfl⟩⟩
      known := fun e he halive _ => ⟨e, hentries.symm ▸ he, rfl, halive⟩
      same := fun g _ => ⟨congrFun hgroups g, fun _ _ _ haway => absurd haway Bool.false_ne_true⟩
      now := hnow, n_entries := Nat.le_of_eq hn.symm, n_groups := Nat.le_of_eq hn'.symm }

/-- An entry without a group dies. -/
theorem sound_bury (h : Sound q s) {p : EntryPtr} (hp : p.group = none) : Sound q (s.bury [p]) := by
  have hptrs : (s.bury [p]).entries.map AvahiEntry.ptr = s.entries.map AvahiEntry.ptr := by
    change ((s.entries.map _).map _) = _
    rw [List.map_map]
    refine List.map_congr_left fun e _ => ?_
    simp only [Function.comp]
    split <;> rfl
  refine h.change (fun a => a.entry = p) none
    { announcers := ?_, unique := hptrs ▸ h.entries, entries := fun e he => Or.inl ?_, known := fun e he halive ha => ?_
      same := fun g _ => ⟨rfl, fun _ a _ hentry => ?_⟩
      now := Int.le_refl _, n_entries := Nat.le_refl _, n_groups := Nat.le_refl _ }
  · exact List.filter_congr fun a _ => by simp
  · obtain ⟨e', he', rfl⟩ := List.mem_map.mp he
    split
    · exact ⟨e', he', rfl, nofun, fun _ => ⟨rfl, rfl⟩⟩
    · exact ⟨e', he', rfl, fun halive => halive, fun _ => ⟨rfl, rfl⟩⟩
  · obtain ⟨a, -, hstays, hentry⟩ := ha
    have hne : e.ptr ∉ [p] := by
      rw [List.mem_singleton, ← hentry]
      simpa using hstays
    exact ⟨e, List.mem_map.mpr ⟨e, he, if_neg hne⟩, rfl, halive⟩
  · have hentry : a.entry = p := by simpa using hentry
    simp [ProbesFor, hentry, hp]

/-- An entry that is withdrawn takes its group into a collision. -/
theorem sound_withdraw_entry (h : Sound q s) (hq : q.except = none) (e : AvahiEntry) : Safe q (withdraw_entry e s) := by
  unfold withdraw_entry
  split
  · exact Safe.silent h
  cases hgroup : e.ptr.group with
  | some g => exact sound_withdraw_group h hq false (Or.inr rfl)
  | none =>
    have hburied := sound_bury h hgroup
    rw [← withdraw_one e false s] at hburied
    refine ⟨hburied, fun o ho => ?_⟩
    rcases List.mem_append.mp ho with ho | ho
    · exact (goodbye_entry_spec e false true s).2 o ho
    · cases ho

/-- A record that is lost takes every entry under its name, class and type along.
    -/
theorem sound_withdraw_rrset (h : Sound q s) (hq : q.except = none) (key : AvahiKey) : Safe q (withdraw_rrset key s) := by
  refine Safe.forEach h (fun e s hs => ?_) _
  split
  · exact Safe.silent hs
  · exact sound_withdraw_entry hs hq _

/-- The loop of `incoming_probe` fails an assertion only where the comparison
    with an entry that is alive does. -/
theorem probeLoop_aborted {record : ValidRecord} {i : AvahiInterface} {l : List AvahiEntry}
    (hl : ∀ e ∈ l, e.dead = false → avahi_record_lexicographical_compare e.record.val record.val ≠ none) {v : Verdict}
    (hv : v.aborted = false) : (probeLoop s record i l v).aborted = false := by
  induction l generalizing v with
  | nil => exact hv
  | cons e l ih =>
    have hrest {w : Verdict} (hw : w.aborted = false) : (probeLoop s record i l w).aborted = false :=
      ih (fun e he => hl e (List.mem_cons_of_mem _ he)) hw
    unfold probeLoop
    split
    · exact hrest hv
    · rename_i halive
      have hdecided := hl e List.mem_cons_self (by simpa using halive)
      split
      · rename_i hnone
        exact absurd hnone hdecided
      · exact hv
      all_goals exact hrest (by split <;> exact hv)

theorem sound_incoming_probe (h : Sound q s) (hq : q.except = none) (record : ValidRecord) (i : AvahiInterface) :
    Sound q (incoming_probe record i s).1 ∧
      ((∀ e ∈ s.entries_by_key record.val.key, e.dead = false →
        avahi_record_lexicographical_compare e.record.val record.val ≠ none) →
        ∀ o ∈ (incoming_probe record i s).2, Regular o) := by
  unfold incoming_probe
  dsimp only
  split_ifs with haborted
  · refine ⟨h, fun hdecided => ?_⟩
    rw [probeLoop_aborted hdecided rfl] at haborted
    cases haborted
  · exact ⟨h, fun _ => List.forall_mem_nil _⟩
  · exact ⟨h, fun _ => List.forall_mem_nil _⟩
  · have hwithdrawn := sound_withdraw_rrset h hq record.val.key
    exact ⟨hwithdrawn.1, fun _ => hwithdrawn.2⟩
  · exact ⟨h, fun _ => List.forall_mem_nil _⟩

/-- What the loop of `handle_conflict` says of a conflict: entries are withdrawn,
    or there is one that has been registered. -/
structure Verdict.Found (s : AvahiServer) (i : AvahiInterface) (v : Verdict) : Prop where
  registered : ∀ e, v.conflicting_entry = some e → e ∈ s.entries ∧ s.entry_is_registered e i = true
  decided : v.conflict = true → v.withdraw_immediately = true ∨ v.conflicting_entry.isSome

theorem conflictLoop_found {i : AvahiInterface} {record : ValidRecord} {unique : Bool} {l : List AvahiEntry}
    (hl : ∀ e ∈ l, e ∈ s.entries) {v : Verdict} (hv : v.Found s i) :
    (conflictLoop s i record unique l v).Found s i := by
  induction l generalizing v with
  | nil => exact hv
  | cons e l ih =>
    have hrest {w : Verdict} (hw : w.Found s i) : (conflictLoop s i record unique l w).Found s i :=
      ih (fun e he => hl e (List.mem_cons_of_mem _ he)) hw
    unfold conflictLoop
    split_ifs with _ _ _ _ _ _ hregistered hprobing
    all_goals first
      | exact hrest hv
      | exact ⟨hv.registered, hv.decided⟩
      | skip
    · refine hrest ⟨fun e' he' => ?_, fun _ => Or.inr rfl⟩
      obtain rfl := Option.some.inj he'
      exact ⟨hl e List.mem_cons_self, hregistered⟩
    · exact hrest ⟨hv.registered, fun _ => Or.inl rfl⟩

/-- What a conflict was found to be decides what is withdrawn or started over. -/
theorem sound_settle (h : Sound q s) (hq : q.except = none) (hsteady : Steady q s) {i : AvahiInterface} {v : Verdict}
    (hfound : v.Found s i) (record : ValidRecord) : Safe q (v.settle i record s) := by
  unfold Verdict.settle
  split_ifs with hconflict himmediately
  · exact sound_withdraw_rrset h hq _
  · cases hsome : v.conflicting_entry with
    | none =>
      rcases hfound.decided hconflict.2 with hyes | hnone
      · exact absurd hyes himmediately
      · rw [hsome] at hnone
        cases hnone
    | some e =>
      obtain ⟨he, hregistered⟩ := hfound.registered e hsome
      exact Safe.silent (sound_return_to_initial_state h hsteady he hregistered)
  · exact Safe.silent h

theorem refresh_spec (v : Verdict) (i : AvahiInterface) (s : AvahiServer) :
    (v.refresh i s).1 = s ∧ ∀ o ∈ (v.refresh i s).2, Regular o := by
  unfold Verdict.refresh
  cases v.refreshed with
  | none => exact ⟨rfl, nofun⟩
  | some e => exact ⟨rfl, List.forall_mem_singleton.mpr (by simp [Regular])⟩

theorem sound_handle_conflict (h : Sound q s) (hq : q.except = none) (hsteady : Steady q s) (i : AvahiInterface)
    (record : ValidRecord) (unique : Bool) : Safe q (handle_conflict i record unique s) := by
  have hempty : ({} : Verdict).Found s i := by
    constructor
    · intro e hsome
      cases hsome
    · intro hconflict
      cases hconflict
  have hfound : (conflictLoop s i record unique (s.entries_by_key record.val.key) {}).Found s i :=
    conflictLoop_found (fun e he => (List.mem_filter.mp he).1) hempty
  unfold handle_conflict
  dsimp only
  generalize conflictLoop s i record unique (s.entries_by_key record.val.key) {} = v at hfound ⊢
  obtain ⟨hsame, houtputs⟩ := refresh_spec v i s
  have hsettled := sound_settle h hq hsteady hfound record
  rw [← hsame] at hsettled
  exact ⟨hsettled.1, List.forall_mem_append.mpr ⟨houtputs, hsettled.2⟩⟩

end

end qtzeroconf.avahi.server
