import QtZeroConf.AvahiCore.PublishRun

open reactive keyed Std

namespace qtzeroconf.avahi.server

open avahicore (AVAHI_IF_UNSPEC AvahiEntryGroupState)

/-- Two records that are compared without a failed assertion and are not the
    same. -/
def Differ (a b : ValidRecord) : Prop :=
  avahi_record_lexicographical_compare a.val b.val = some .lt ∨
    avahi_record_lexicographical_compare a.val b.val = some .gt

instance (a b : ValidRecord) : Decidable (Differ a b) := inferInstanceAs (Decidable (_ ∨ _))

/-- The order that the comparison follows wherever it is decided. -/
noncomputable def order : ValidRecord → ValidRecord → Ordering := compareOn fun r => r.orderKey.choose

instance : TransCmp order := inferInstanceAs (TransCmp (compareOn _))

/-- The order is what the comparison says. -/
theorem compare_order {a b : ValidRecord} {o : Ordering}
    (h : avahi_record_lexicographical_compare a.val b.val = some o) : order a b = o :=
  compare_of_some a.orderKey.choose_spec b.orderKey.choose_spec h

/-- Records that differ and can be compared are. -/
theorem Differ.compare {a b : ValidRecord} (h : Differ a b) :
    avahi_record_lexicographical_compare a.val b.val = some (order a b) := by
  rcases h with h | h <;> rw [compare_order h, h]

theorem Differ.order_ne {a b : ValidRecord} (h : Differ a b) : order a b ≠ .eq := by
  rcases h with h | h <;> rw [compare_order h] <;> decide

/-- One of some elements is at the top. -/
theorem exists_top {α : Type*} (cmp : α → α → Ordering) [TransCmp cmp] {l : List α} (hl : l ≠ []) :
    ∃ m ∈ l, ∀ a ∈ l, (cmp a m).isLE := by
  have hself (a : α) : (cmp a a).isLE := by
    have heq : cmp a a = .eq := ReflCmp.compare_self
    rw [heq]
    rfl
  induction l with
  | nil => exact absurd rfl hl
  | cons b l ih =>
    by_cases hend : l = []
    · refine ⟨b, List.mem_cons_self, fun a ha => ?_⟩
      rw [hend, List.mem_singleton] at ha
      rw [ha]
      exact hself b
    · obtain ⟨m, hm, htop⟩ := ih hend
      cases hbm : (cmp b m).isLE with
      | true => exact ⟨m, List.mem_cons_of_mem _ hm, List.forall_mem_cons.mpr ⟨hbm, htop⟩⟩
      | false =>
        have hswap : cmp m b = (cmp b m).swap := OrientedCmp.eq_swap
        have hmb : (cmp m b).isLE := by
          rw [hswap]
          cases hcmp : cmp b m <;> rw [hcmp] at hbm <;> first | rfl | cases hbm
        exact ⟨b, List.mem_cons_self,
          List.forall_mem_cons.mpr ⟨hself b, fun a ha => TransCmp.isLE_trans (htop a ha) hmb⟩⟩

/-- The records that a host probes for under a key, as it sends them. -/
def probes (s : AvahiServer) (i : AvahiInterface) (key : AvahiKey) : List ValidRecord :=
  ((s.entries_by_key key).filter fun e => !e.dead && s.entry_is_probing e i).map AvahiEntry.record

/-- All that a host has under a key is withdrawn. -/
def Withdrawn (key : AvahiKey) (s : AvahiServer) : Prop := ∀ e ∈ s.entries_by_key key, e.dead = true

section

variable {s : AvahiServer} {i : AvahiInterface} {record : ValidRecord}

/-- What the loop of `incoming_probe` finds out about a record that the host does
    not have itself. -/
theorem probeLoop_spec {l : List AvahiEntry}
    (hother : ∀ e ∈ l, e.dead = false → Differ e.record record) (v : Verdict) :
    (probeLoop s record i l v).aborted = v.aborted ∧ (probeLoop s record i l v).ours = v.ours ∧
    ((probeLoop s record i l v).won = true ↔ v.won = true ∨
      ∃ e ∈ l, e.dead = false ∧ s.entry_is_probing e i = true ∧ order e.record record = .gt) ∧
    ((probeLoop s record i l v).lost = true ↔ v.lost = true ∨
      ∃ e ∈ l, e.dead = false ∧ s.entry_is_probing e i = true ∧ order e.record record = .lt) := by
  induction l generalizing v with
  | nil => simp [probeLoop]
  | cons e l ih =>
    have hrest := ih fun e he => hother e (List.mem_cons_of_mem _ he)
    unfold probeLoop
    cases hdead : e.dead with
    | true => simpa [hdead] using hrest v
    | false =>
      have hdiffer := hother e List.mem_cons_self hdead
      rw [if_neg (by simp), hdiffer.compare]
      cases hcmp : order e.record record with
      | eq => exact absurd hcmp hdiffer.order_ne
      | gt | lt =>
        dsimp only
        cases hprobing : s.entry_is_probing e i with
        | true =>
          obtain ⟨haborted, hours, hwon, hlost⟩ := hrest _
          rw [if_pos rfl, haborted, hours, hwon, hlost]
          simp [hdead, hprobing, hcmp]
        | false =>
          obtain ⟨haborted, hours, hwon, hlost⟩ := hrest v
          rw [if_neg (by simp), haborted, hours, hwon, hlost]
          simp [hdead, hprobing, hcmp]

/-- What a host probes for are its living entries that probe. -/
theorem mem_probes {key : AvahiKey} {r : ValidRecord} : r ∈ probes s i key ↔
    ∃ e ∈ s.entries_by_key key, e.dead = false ∧ s.entry_is_probing e i = true ∧ e.record = r := by
  simp [probes, and_assoc]

/-- A host is withdrawn by a record that comes after all that it probes for. -/
theorem incoming_probe_lost (hsome : probes s i record.val.key ≠ [])
    (hother : ∀ e ∈ s.entries_by_key record.val.key, e.dead = false → Differ e.record record)
    (hless : ∀ r ∈ probes s i record.val.key, order r record = .lt) :
    incoming_probe record i s = withdraw_rrset record.val.key s := by
  obtain ⟨haborted, hours, hwon, hlost⟩ := probeLoop_spec (i := i) hother {}
  have hnotWon : ¬ (probeLoop s record i (s.entries_by_key record.val.key) {}).won = true := by
    rw [hwon]
    rintro (hfalse | ⟨e, he, halive, hprobing, hgt⟩)
    · cases hfalse
    · rw [hless e.record (mem_probes.mpr ⟨e, he, halive, hprobing, rfl⟩)] at hgt
      cases hgt
  have hisLost : (probeLoop s record i (s.entries_by_key record.val.key) {}).lost = true := by
    obtain ⟨r, hr⟩ := List.exists_mem_of_ne_nil _ hsome
    obtain ⟨e, he, halive, hprobing, rfl⟩ := mem_probes.mp hr
    exact hlost.mpr (Or.inr ⟨e, he, halive, hprobing, hless _ hr⟩)
  unfold incoming_probe
  dsimp only
  rw [haborted, if_neg Bool.false_ne_true, hours, if_neg Bool.false_ne_true, if_neg hnotWon, if_pos hisLost]

/-- It keeps what it has when one of its records comes after the one received. -/
theorem incoming_probe_won
    (hother : ∀ e ∈ s.entries_by_key record.val.key, e.dead = false → Differ e.record record)
    (hgreater : ∃ r ∈ probes s i record.val.key, order r record = .gt) :
    incoming_probe record i s = (s, []) := by
  obtain ⟨haborted, hours, hwon, -⟩ := probeLoop_spec (i := i) hother {}
  obtain ⟨r, hr, hgt⟩ := hgreater
  obtain ⟨e, he, halive, hprobing, rfl⟩ := mem_probes.mp hr
  have hisWon := hwon.mpr (Or.inr ⟨e, he, halive, hprobing, hgt⟩)
  unfold incoming_probe
  dsimp only
  rw [haborted, if_neg Bool.false_ne_true, hours, if_neg Bool.false_ne_true, if_pos hisWon]

/-- What is withdrawn is not probed for. -/
theorem incoming_probe_withdrawn (hdead : Withdrawn record.val.key s) : incoming_probe record i s = (s, []) := by
  have hother : ∀ e ∈ s.entries_by_key record.val.key, e.dead = false → Differ e.record record := by
    intro e he halive
    rw [hdead e he] at halive
    cases halive
  obtain ⟨haborted, hours, hwon, hlost⟩ := probeLoop_spec (i := i) hother {}
  have hnone (o : Ordering) : ¬ (false = true ∨ ∃ e ∈ s.entries_by_key record.val.key, e.dead = false ∧
      s.entry_is_probing e i = true ∧ order e.record record = o) := by
    rintro (hfalse | ⟨e, he, halive, -⟩)
    · cases hfalse
    · rw [hdead e he] at halive
      cases halive
  unfold incoming_probe
  dsimp only
  rw [haborted, if_neg Bool.false_ne_true, hours, if_neg Bool.false_ne_true, if_neg (fun hyes => hnone _ (hwon.mp hyes)),
    if_neg (fun hyes => hnone _ (hlost.mp hyes))]

/-- Nothing comes to life, and records stay what they are. -/
def Fades (s s' : AvahiServer) : Prop :=
  ∀ e' ∈ s'.entries, ∃ e ∈ s.entries, e.ptr = e'.ptr ∧ e.record = e'.record ∧ (e'.dead = false → e.dead = false)

theorem Fades.refl (s : AvahiServer) : Fades s s := fun e he => ⟨e, he, rfl, rfl, fun halive => halive⟩

/-- Steps one after the other. -/
theorem Fades.trans {s t u : AvahiServer} (h : Fades s t) (h' : Fades t u) : Fades s u := by
  intro e he
  obtain ⟨e', he', hptr, hrecord, hdead⟩ := h' e he
  obtain ⟨e'', he'', hptr', hrecord', hdead'⟩ := h e' he'
  exact ⟨e'', he'', hptr'.trans hptr, hrecord'.trans hrecord, fun halive => hdead' (hdead halive)⟩

/-- An action in which nothing comes to life. -/
def Fading (a : Action AvahiServer Output) : Prop := ∀ s, Fades s (a s).1

/-- What leaves the entries alone. -/
theorem fading_same {a : Action AvahiServer Output} (h : ∀ s, (a s).1.entries = s.entries) : Fading a :=
  fun s e he => ⟨e, h s ▸ he, rfl, rfl, fun halive => halive⟩

theorem Fading.andThen {a b : Action AvahiServer Output} (ha : Fading a) (hb : Fading b) : Fading (Action.andThen a b) :=
  fun s => (ha s).trans (hb _)

/-- A loop over what only fades. -/
theorem fading_forEach {ι : Type} {body : ι → Action AvahiServer Output} (hbody : ∀ x, Fading (body x)) (l : List ι) :
    Fading (Action.forEach body l) := by
  induction l with
  | nil => exact fading_same fun _ => rfl
  | cons x l ih => exact (hbody x).andThen ih

/-- An entry that is marked stays dead. -/
theorem fading_mark_dead (p : EntryPtr) : Fading (Action.update (·.mark_dead p)) := by
  intro s e he
  obtain ⟨e', he', rfl⟩ := List.mem_map.mp he
  split
  · exact ⟨e', he', rfl, rfl, fun halive => Bool.noConfusion halive⟩
  · exact ⟨e', he', rfl, rfl, fun halive => halive⟩

/-- A goodbye kills entries at most. -/
theorem fading_goodbye_entry (e : AvahiEntry) (send_goodbye remove : Bool) :
    Fading (avahi_goodbye_entry e send_goodbye remove) := by
  refine fading_same fun s => ?_
  rw [(goodbye_entry_spec e send_goodbye remove s).1]
  split <;> rfl

theorem fading_withdraw_entries (g : Nat) (send_goodbye : Bool) : Fading (withdraw_entries g send_goodbye) := by
  intro s
  refine fading_forEach (fun e => ?_) _ s
  split
  · exact (fading_goodbye_entry e send_goodbye true).andThen (fading_mark_dead e.ptr)
  · exact fading_same fun _ => rfl

theorem fading_reset_entries (g : Nat) (send_goodbye : Bool) : Fading (reset_entries g send_goodbye) :=
  (fading_withdraw_entries g send_goodbye).andThen (fading_same fun _ => rfl)

theorem fading_free (g : Nat) : Fading (avahi_s_entry_group_free g) :=
  (fading_withdraw_entries g true).andThen (fading_same fun _ => rfl)

/-- A callback frees or resets, and adds nothing. -/
theorem fading_call (g : Nat) (state : AvahiEntryGroupState) : Fading (call g state) := by
  intro s
  unfold call
  split
  · exact Fades.refl s
  · exact fading_free g s
  · refine (fading_reset_entries g true).andThen (fun s => ?_) s
    split
    · exact Fades.refl s
    · refine Fading.andThen (fading_same fun _ => rfl) (fun s => ?_) s
      split
      · exact Fades.refl s
      · exact fading_free g s
      · exact fading_reset_entries g true s

/-- A group tells its state, and its callback kills at most. -/
theorem fading_change_state (g : Nat) (state : AvahiEntryGroupState) : Fading (avahi_s_entry_group_change_state g state) := by
  intro s
  unfold avahi_s_entry_group_change_state
  split
  · exact Fades.refl s
  · exact Fading.andThen (fading_same fun _ => rfl) (fading_call g state) s

theorem fading_withdraw_entry (e : AvahiEntry) : Fading (withdraw_entry e) := by
  intro s
  unfold withdraw_entry
  split
  · exact Fades.refl s
  cases e.ptr.group with
  | some g => exact (fading_reset_entries g false).andThen (fading_change_state g _) s
  | none => exact (fading_goodbye_entry e false true).andThen (fading_mark_dead e.ptr) s

/-- What is dead stays dead. -/
theorem Fades.dead {s s' : AvahiServer} (h : Fades s s') {p : EntryPtr} (hdead : ∀ e ∈ s.entries, e.ptr = p → e.dead = true) :
    ∀ e ∈ s'.entries, e.ptr = p → e.dead = true := by
  intro e he hptr
  obtain ⟨e', he', hptr', -, halive⟩ := h e he
  by_contra hnot
  have hdead' := hdead e' he' (hptr'.trans hptr)
  rw [halive (by simpa using hnot)] at hdead'
  cases hdead'

section

variable {q : Ghost}

/-- The turn of the loop of `withdraw_rrset` for an entry. -/
theorem withdraw_turn_dead (h : Sound q s) (p : EntryPtr) :
    ∀ e' ∈ ((match s.entry? p with
      | none => (s, [])
      | some e => withdraw_entry e s : AvahiServer × List Output)).1.entries, e'.ptr = p → e'.dead = true := by
  cases hfind : s.entry? p with
  | none => exact fun e' he' hptr => absurd (List.mem_map.mpr ⟨e', he', hptr⟩) (lookup_eq_none hfind)
  | some e =>
    obtain ⟨he, hptr⟩ := lookup_eq_some hfind
    dsimp only
    unfold withdraw_entry
    split
    · rename_i hdead
      intro e' he' hptr'
      rwa [h.entry_eq he' he (hptr'.trans hptr.symm)]
    cases hgroup : e.ptr.group with
    | some g =>
      have hreset : ∀ e' ∈ (reset_entries g false s).1.entries, e'.ptr = p → e'.dead = true := by
        intro e' he' hptr'
        change e' ∈ (withdraw_entries g false s).1.entries at he'
        rw [(withdraw_entries_spec h g false).1] at he'
        obtain ⟨e'', -, rfl⟩ := List.mem_map.mp he'
        split
        · rfl
        · rename_i hne
          rw [if_neg hne] at hptr'
          rw [hptr', ← hptr, hgroup] at hne
          exact absurd rfl hne
      exact (fading_change_state g .AVAHI_ENTRY_GROUP_COLLISION _).dead hreset
    | none =>
      intro e' he' hptr'
      change e' ∈ (Action.andThen (avahi_goodbye_entry e false true) (Action.update (·.mark_dead e.ptr)) s).1.entries at he'
      rw [withdraw_one] at he'
      obtain ⟨e'', -, rfl⟩ := List.mem_map.mp he'
      split
      · rfl
      · rename_i hne
        rw [if_neg hne] at hptr'
        rw [hptr', ← hptr] at hne
        exact absurd List.mem_cons_self hne

/-- A loop whose turns each leave an entry dead leaves all of them dead. -/
theorem forEach_dead {body : AvahiEntry → Action AvahiServer Output} (hbody : ∀ e s, Sound q s → Sound q (body e s).1)
    (hfading : ∀ e, Fading (body e))
    (hturn : ∀ e s, Sound q s → ∀ e' ∈ (body e s).1.entries, e'.ptr = e.ptr → e'.dead = true) {l : List AvahiEntry}
    (h : Sound q s) : ∀ e ∈ l, ∀ e' ∈ (Action.forEach body l s).1.entries, e'.ptr = e.ptr → e'.dead = true := by
  induction l generalizing s with
  | nil => exact List.forall_mem_nil _
  | cons x l ih =>
    refine List.forall_mem_cons.mpr ⟨?_, ih (hbody x s h)⟩
    exact (fading_forEach hfading l _).dead (hturn x s h)

/-- No entry is alive under what was withdrawn. -/
theorem withdraw_rrset_withdrawn (h : Sound q s) (hq : q.except = none) (key : AvahiKey) :
    Withdrawn key (withdraw_rrset key s).1 := by
  have hfading (e : AvahiEntry) : Fading fun s => match s.entry? e.ptr with
      | none => (s, [])
      | some e => withdraw_entry e s := by
    intro s
    dsimp only
    split
    · exact Fades.refl s
    · exact fading_withdraw_entry _ s
  intro e' he'
  obtain ⟨he', hkey⟩ := List.mem_filter.mp he'
  obtain ⟨e, he, hptr, hrecord, -⟩ := fading_forEach hfading (s.entries_by_key key) s e' he'
  refine forEach_dead (fun e s hs => ?_) hfading (fun e s hs => withdraw_turn_dead hs e.ptr) h e ?_ e' he' hptr.symm
  · split
    · exact hs
    · exact (sound_withdraw_entry hs hq _).1
  · exact List.mem_filter.mpr ⟨he, by rw [hrecord]; exact hkey⟩

end

theorem Key.equal_iff (a b : Key) : avahi_key_equal a.val b.val = some true ↔ a.Same b := by
  obtain ⟨r, hr, hiff⟩ := a.equal b
  rw [hr, Option.some.injEq]
  exact hiff

/-- Keys that are equal find the same entries. -/
theorem entries_by_key_congr {key : Key} (hkey : avahi_key_equal record.val.key key.val = some true) (s : AvahiServer) :
    s.entries_by_key record.val.key = s.entries_by_key key.val := by
  have hsame := (Key.equal_iff ⟨record.val.key, (AvahiRecord.readable record.property).1⟩ key).mp hkey
  refine List.filter_congr fun e _ => ?_
  have hentry := (AvahiRecord.readable e.record.property).1
  rw [decide_eq_decide, Key.equal_iff ⟨e.record.val.key, hentry⟩ ⟨record.val.key, (AvahiRecord.readable record.property).1⟩,
    Key.equal_iff ⟨e.record.val.key, hentry⟩ key]
  exact ⟨fun h => Key.same_equivalence.trans h hsame, fun h => Key.same_equivalence.trans h (Key.same_equivalence.symm hsame)⟩

/-- The records that another host probes for arrive, one after the other. -/
def receive_probes (i : AvahiInterface) (l : List ValidRecord) : Action AvahiServer Output :=
  Action.forEach (fun r => incoming_probe r i) l

section

variable {key : Key} {l : List ValidRecord}

/-- Who has withdrawn is not moved by further probes. -/
theorem receive_withdrawn (hl : ∀ r ∈ l, avahi_key_equal r.val.key key.val = some true) (hdead : Withdrawn key.val s) :
    receive_probes i l s = (s, []) := by
  induction l with
  | nil => rfl
  | cons r l ih =>
    have hdead' : Withdrawn r.val.key s := by
      rw [Withdrawn, entries_by_key_congr (hl r List.mem_cons_self)]
      exact hdead
    have hrest := ih fun r hr => hl r (List.mem_cons_of_mem _ hr)
    unfold receive_probes at hrest ⊢
    rw [Action.forEach_cons, Action.andThen, incoming_probe_withdrawn hdead', hrest]
    rfl

/-- Who has the greater record keeps it through every probe. -/
theorem receive_kept (hl : ∀ r ∈ l, avahi_key_equal r.val.key key.val = some true)
    (hother : ∀ r ∈ l, ∀ e ∈ s.entries_by_key key.val, e.dead = false → Differ e.record r)
    (hgreater : ∀ r ∈ l, ∃ r' ∈ probes s i key.val, order r' r = .gt) : receive_probes i l s = (s, []) := by
  induction l with
  | nil => rfl
  | cons r l ih =>
    have hsame := entries_by_key_congr (hl r List.mem_cons_self) s
    have hwon : incoming_probe r i s = (s, []) := by
      refine incoming_probe_won (hsame ▸ hother r List.mem_cons_self) ?_
      rw [probes, hsame]
      exact hgreater r List.mem_cons_self
    have hrest := ih (fun r hr => hl r (List.mem_cons_of_mem _ hr)) (fun r hr => hother r (List.mem_cons_of_mem _ hr))
      fun r hr => hgreater r (List.mem_cons_of_mem _ hr)
    unfold receive_probes at hrest ⊢
    rw [Action.forEach_cons, Action.andThen, hwon, hrest]
    rfl

/-- Who has the lesser record withdraws at the first probe. -/
theorem receive_lost {q : Ghost} (h : Sound q s) (hq : q.except = none)
    (hl : ∀ r ∈ l, avahi_key_equal r.val.key key.val = some true) (hsome : probes s i key.val ≠ [])
    (hother : ∀ r ∈ l, ∀ e ∈ s.entries_by_key key.val, e.dead = false → Differ e.record r)
    (htop : ∃ r ∈ l, ∀ r' ∈ probes s i key.val, order r' r = .lt) :
    Withdrawn key.val (receive_probes i l s).1 := by
  induction l with
  | nil =>
    obtain ⟨r, hr, -⟩ := htop
    cases hr
  | cons r l ih =>
    have hsame := entries_by_key_congr (hl r List.mem_cons_self) s
    have hl' : ∀ r ∈ l, avahi_key_equal r.val.key key.val = some true := fun r hr => hl r (List.mem_cons_of_mem _ hr)
    have hprobes : probes s i r.val.key = probes s i key.val := by rw [probes, hsame]; rfl
    have hhead : ∀ e ∈ s.entries_by_key r.val.key, e.dead = false → Differ e.record r :=
      hsame ▸ hother r List.mem_cons_self
    by_cases hless : ∀ r' ∈ probes s i key.val, order r' r = .lt
    · have hlost := incoming_probe_lost (hprobes ▸ hsome) hhead (hprobes ▸ hless)
      have hdead := withdraw_rrset_withdrawn h hq r.val.key
      rw [Withdrawn, entries_by_key_congr (hl r List.mem_cons_self)] at hdead
      have hrest := receive_withdrawn (i := i) hl' hdead
      unfold receive_probes at hrest ⊢
      rw [Action.forEach_cons, Action.andThen_fst, hlost, hrest]
      exact hdead
    · obtain ⟨r', hr', hnot⟩ : ∃ r' ∈ probes s i key.val, order r' r ≠ .lt := by simpa using hless
      have hgreater : order r' r = .gt := by
        obtain ⟨e, he, halive, -, rfl⟩ := mem_probes.mp hr'
        have hdiffer := hother r List.mem_cons_self e he halive
        cases hcmp : order e.record r with
        | lt => exact absurd hcmp hnot
        | eq => exact absurd hcmp hdiffer.order_ne
        | gt => rfl
      have hwon : incoming_probe r i s = (s, []) := incoming_probe_won hhead ⟨r', hprobes.symm ▸ hr', hgreater⟩
      have htail : ∃ r ∈ l, ∀ r' ∈ probes s i key.val, order r' r = .lt := by
        obtain ⟨x, hx, hall⟩ := htop
        rcases List.mem_cons.mp hx with rfl | hx
        · exact absurd hall hless
        · exact ⟨x, hx, hall⟩
      have hrest := ih hl' (fun r hr => hother r (List.mem_cons_of_mem _ hr)) htail
      unfold receive_probes at hrest ⊢
      rw [Action.forEach_cons, Action.andThen_fst, hwon]
      exact hrest

end

end

section

variable {s t : AvahiServer} {i j : AvahiInterface} {key : Key}

theorem key_of_probes {r : ValidRecord} (hr : r ∈ probes s i key.val) : avahi_key_equal r.val.key key.val = some true := by
  obtain ⟨e, he, -, -, rfl⟩ := mem_probes.mp hr
  simpa using (List.mem_filter.mp he).2

/-- When the top of what one host probes for is below that of another, it gives
    way to it. -/
theorem one_withdraws {q : Ghost} (h : Sound q s) (hq : q.except = none) (hsome : probes s i key.val ≠ [])
    (hother : ∀ r ∈ probes t j key.val, ∀ e ∈ s.entries_by_key key.val, e.dead = false →
      Differ e.record r)
    (hother' : ∀ r ∈ probes s i key.val, ∀ e ∈ t.entries_by_key key.val, e.dead = false →
      Differ e.record r)
    {m : ValidRecord} (hm : m ∈ probes t j key.val) {m' : ValidRecord}
    (htop : ∀ r ∈ probes s i key.val, (order r m').isLE) (hless : order m' m = .lt) :
    Withdrawn key.val (receive_probes i (probes t j key.val) s).1 ∧ receive_probes j (probes s i key.val) t = (t, []) := by
  have hbelow : ∀ r ∈ probes s i key.val, order r m = .lt :=
    fun r hr => TransCmp.lt_of_isLE_of_lt (htop r hr) hless
  refine ⟨receive_lost h hq (fun r hr => key_of_probes hr) hsome hother ⟨m, hm, hbelow⟩,
    receive_kept (fun r hr => key_of_probes hr) hother' fun r hr => ⟨m, hm, ?_⟩⟩
  have hswap : order m r = (order r m).swap := OrientedCmp.eq_swap
  rw [hswap, hbelow r hr]
  rfl

end

/-- Of two hosts that probe for different records under one key (a name, a class
    and a type) at the same time exactly one gives way, when each has received
    the probes of the other: it withdraws all that it has under the key, and the
    other one keeps what it has. -/
theorem incoming_probe_one_withdraws {now now' : Int} {es es' : List Event} {i j : AvahiInterface} (key : Key)
    (hsome : probes (after step (initial now) es) i key.val ≠ []) (hsome' : probes (after step (initial now') es') j key.val ≠ [])
    (hother : ∀ r ∈ probes (after step (initial now') es') j key.val,
      ∀ e ∈ (after step (initial now) es).entries_by_key key.val, e.dead = false → Differ e.record r)
    (hother' : ∀ r ∈ probes (after step (initial now) es) i key.val,
      ∀ e ∈ (after step (initial now') es').entries_by_key key.val, e.dead = false → Differ e.record r) :
    (Withdrawn key.val (receive_probes i (probes (after step (initial now') es') j key.val) (after step (initial now) es)).1 ∧
      receive_probes j (probes (after step (initial now) es) i key.val) (after step (initial now') es') =
        (after step (initial now') es', [])) ∨
    (Withdrawn key.val (receive_probes j (probes (after step (initial now) es) i key.val) (after step (initial now') es')).1 ∧
      receive_probes i (probes (after step (initial now') es') j key.val) (after step (initial now) es) =
        (after step (initial now) es, [])) := by
  have hs := sound_run now es
  have ht := sound_run now' es'
  generalize after step (initial now) es = s at hsome hother hother' hs ⊢
  generalize after step (initial now') es' = t at hsome' hother hother' ht ⊢
  obtain ⟨m, hm, htop⟩ := exists_top order hsome
  obtain ⟨m', hm', htop'⟩ := exists_top order hsome'
  cases hcmp : order m m' with
  | eq =>
    obtain ⟨e, he, halive, -, rfl⟩ := mem_probes.mp hm
    exact absurd hcmp (hother m' hm' e he halive).order_ne
  | lt => exact Or.inl (one_withdraws hs rfl hsome hother hother' hm' htop hcmp)
  | gt => exact Or.inr (one_withdraws ht rfl hsome' hother' hother hm htop' (OrientedCmp.lt_of_gt hcmp))

/-- Each of two hosts has an address of its own for the name `a`. -/
theorem incoming_probe_one_withdraws_host :
    (Withdrawn hostRecord.val.key (receive_probes lan (probes (after step (initial 7) (probedRun otherRecord)) lan
        hostRecord.val.key) (after step (initial 0) (probedRun hostRecord))).1 ∧
      receive_probes lan (probes (after step (initial 0) (probedRun hostRecord)) lan hostRecord.val.key)
        (after step (initial 7) (probedRun otherRecord)) = (after step (initial 7) (probedRun otherRecord), [])) ∨
    (Withdrawn hostRecord.val.key (receive_probes lan (probes (after step (initial 0) (probedRun hostRecord)) lan
        hostRecord.val.key) (after step (initial 7) (probedRun otherRecord))).1 ∧
      receive_probes lan (probes (after step (initial 7) (probedRun otherRecord)) lan hostRecord.val.key)
        (after step (initial 0) (probedRun hostRecord)) = (after step (initial 0) (probedRun hostRecord), [])) := by
  have hsome : probes (after step (initial 0) (probedRun hostRecord)) lan hostRecord.val.key ≠ [] :=
    List.length_pos_iff.mp (by decide +kernel)
  have hsome' : probes (after step (initial 7) (probedRun otherRecord)) lan hostRecord.val.key ≠ [] :=
    List.length_pos_iff.mp (by decide +kernel)
  exact incoming_probe_one_withdraws ⟨hostRecord.val.key, (AvahiRecord.readable hostRecord.property).1⟩
    hsome hsome' (by decide +kernel) (by decide +kernel)

end qtzeroconf.avahi.server
