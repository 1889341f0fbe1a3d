import QtZeroConf.AvahiCore.Cache
import QtZeroConf.Library.Mirror

open reactive keyed mirror

namespace qtzeroconf.avahi.cache

/-- A cache has every record once, counts its entries and keeps within its bound. -/
structure Sound (c : AvahiCache) : Prop where
  distinct : (c.entries.map AvahiCacheEntry.resource).Nodup
  counted : c.n_entries = c.entries.length
  bounded : c.n_entries ≤ c.n_cache_entries_max

/-- The records of a cache. -/
def contents (c : AvahiCache) : View Resource Unit := fun k =>
  if k ∈ c.entries.map AvahiCacheEntry.resource then some () else none

/-- What the lookups of the server are told about its records. -/
def notice : Output → Option (Notice Resource Unit)
  | .notify record .AVAHI_BROWSER_NEW => some (.added ⟦record.val⟧ ())
  | .notify record .AVAHI_BROWSER_REMOVE => some (.removed ⟦record.val⟧ ())
  | .notify .. | .post_query _ => none

/-- The same records, at the same time. -/
structure Alike (c c' : AvahiCache) : Prop where
  resources : c'.entries.map AvahiCacheEntry.resource = c.entries.map AvahiCacheEntry.resource
  n_entries : c'.n_entries = c.n_entries
  n_cache_entries_max : c'.n_cache_entries_max = c.n_cache_entries_max
  now : c'.now = c.now

/-- A cache does what it tells. -/
structure Told (c : AvahiCache) (o : AvahiCache × List Output) : Prop where
  sound : Sound o.1
  bound : o.1.n_cache_entries_max = c.n_cache_entries_max
  mirrors : Mirrors (fun _ _ => True) (contents c) (o.2.filterMap notice) (contents o.1)

section

variable {c c' c'' : AvahiCache} {e : AvahiCacheEntry} {out : List Output}

theorem Alike.refl (c : AvahiCache) : Alike c c := ⟨rfl, rfl, rfl, rfl⟩

theorem Alike.trans (h : Alike c c') (h' : Alike c' c'') : Alike c c'' :=
  ⟨h'.resources.trans h.resources, h'.n_entries.trans h.n_entries,
    h'.n_cache_entries_max.trans h.n_cache_entries_max, h'.now.trans h.now⟩

theorem Alike.contents (h : Alike c c') : contents c' = contents c := by
  unfold cache.contents
  rw [h.resources]

/-- The invariant speaks of what caches that are alike have in common. -/
theorem Alike.sound (h : Alike c c') (hsound : Sound c) : Sound c' := by
  refine ⟨?_, ?_, ?_⟩
  · rw [h.resources]
    exact hsound.distinct
  · have hlength := congrArg List.length h.resources
    rw [List.length_map, List.length_map] at hlength
    rw [h.n_entries, hsound.counted, hlength]
  · rw [h.n_entries, h.n_cache_entries_max]
    exact hsound.bounded

/-- What changes no record needs to tell nothing. -/
theorem Alike.told (h : Alike c c') (hsound : Sound c) (hsilent : out.filterMap notice = []) :
    Told c (c', out) := by
  refine ⟨h.sound hsound, h.n_cache_entries_max, ?_⟩
  rw [hsilent, h.contents]
  exact mirrors_nil

/-- What is told by two actions, one after the other. -/
theorem Told.andThen {f g : Action AvahiCache Output} (hf : Told c (f c)) (hg : Told (f c).1 (g (f c).1)) :
    Told c (Action.andThen f g c) := by
  refine ⟨hg.sound, hg.bound.trans hf.bound, ?_⟩
  rw [Action.andThen_snd, List.filterMap_append]
  exact hf.mirrors.append hg.mirrors

/-- A change of times after what was told. -/
theorem Told.next (h : Told c (c', out)) (ha : Alike c' c'') : Told c (c'', out) :=
  ⟨ha.sound h.sound, ha.n_cache_entries_max.trans h.bound, ha.contents ▸ h.mirrors⟩

theorem alike_put (e : AvahiCacheEntry) (c : AvahiCache) : Alike c (c.put e) :=
  ⟨map_key_replace e c.entries, rfl, rfl, rfl⟩

/-- A time event that is set again leaves the records alone. -/
theorem alike_next_expiry (rand : Jitter) (e : AvahiCacheEntry) (percent : Nat) (c : AvahiCache) :
    Alike c (next_expiry rand e percent c) := by
  unfold next_expiry
  dsimp only
  split
  · exact ⟨map_key_replace _ c.entries, rfl, rfl, rfl⟩
  · exact alike_put _ c

/-- A loop over entries whose turns keep the records. -/
theorem alike_foldl {f : AvahiCache → AvahiCacheEntry → AvahiCache} (hf : ∀ c e, Alike c (f c e))
    (l : List AvahiCacheEntry) (c : AvahiCache) : Alike c (l.foldl f c) := by
  induction l generalizing c with
  | nil => exact Alike.refl c
  | cons e l ih => exact (hf c e).trans (ih (f c e))

/-- The flush bit only changes when other records expire. -/
theorem alike_flushLoop (l : List AvahiCacheEntry) (c : AvahiCache) : Alike c (flushLoop l c) := by
  refine alike_foldl (fun c e => ?_) l c
  split
  · exact alike_put _ c
  · exact Alike.refl c

/-- A query that nobody answers only marks the entries. -/
theorem alike_start_poof (key : Key) (a : AvahiAddress) (c : AvahiCache) : Alike c (avahi_cache_start_poof key a c) :=
  alike_foldl (fun c _ => alike_put _ c) _ c

theorem alike_stop_poof (rand : Jitter) (record : CacheRecord) (a : AvahiAddress) (c : AvahiCache) :
    Alike c (avahi_cache_stop_poof rand record a c) := by
  unfold avahi_cache_stop_poof
  split
  · exact Alike.refl c
  · split
    · exact alike_next_expiry rand _ 80 c
    · exact Alike.refl c

/-- What is found is there, and is the record that was looked for. -/
theorem mem_of_lookup_record {r : CacheRecord} (h : lookup_record c r = some e) :
    e ∈ c.entries ∧ e.resource = ⟦r.val⟧ := by
  unfold lookup_record at h
  refine ⟨?_, (Record.equalTo_iff _ _).mp (by simpa using List.find?_some h)⟩
  have hmem := List.mem_of_find?_eq_some h
  unfold avahi_cache_walk lookup_key at hmem
  split at hmem <;> exact (List.mem_filter.mp hmem).1

/-- What is not found under its key is not there. -/
theorem resource_not_mem {r : CacheRecord}
    (h : (lookup_key c r.val.key).find? (fun e => e.record.val.equalTo r.val) = none) :
    (⟦r.val⟧ : Resource) ∉ c.entries.map AvahiCacheEntry.resource := by
  intro hmem
  obtain ⟨e, he, hsame⟩ := List.mem_map.mp hmem
  have hrecord : e.record.val.Same r.val := (Quotient.eq (r := Record.setoid)).mp hsame
  have hkey : e.record.val.key.equalTo r.val.key = true := (Key.equalTo_iff _ _).mpr (Quotient.sound hrecord.key)
  have hnone := List.find?_eq_none.mp h e (List.mem_filter.mpr ⟨he, hkey⟩)
  exact hnone ((Record.equalTo_iff _ _).mpr hsame)

/-- A record is withdrawn when it is there, and is there no longer. -/
theorem told_remove_entry (h : Sound c) (he : e ∈ c.entries) : Told c (remove_entry e c) := by
  have hmem (k : Resource) : k ∈ (remove_entry e c).1.entries.map AvahiCacheEntry.resource ↔
      k ∈ c.entries.map AvahiCacheEntry.resource ∧ k ≠ e.resource := by
    simp only [remove_entry, List.mem_map, List.mem_filter, decide_eq_true_eq]
    constructor
    · rintro ⟨x, ⟨hx, hne⟩, rfl⟩
      exact ⟨⟨x, hx, rfl⟩, hne⟩
    · rintro ⟨⟨x, hx, rfl⟩, hne⟩
      exact ⟨x, ⟨hx, hne⟩, rfl⟩
  have hlength := length_filter_ne h.distinct he
  have hcounted := h.counted
  have hbounded := h.bounded
  refine ⟨⟨?_, ?_, ?_⟩, rfl, ?_⟩
  · exact h.distinct.sublist (List.filter_sublist.map _)
  · change c.n_entries - 1 = (c.entries.filter fun x => x.resource ≠ e.resource).length
    omega
  · change c.n_entries - 1 ≤ c.n_cache_entries_max
    omega
  · have hpresent : contents c e.resource = some () := if_pos (List.mem_map_of_mem he)
    have hsingle : Mirrors (fun _ _ => True) _ _ _ := mirrors_single (n := Notice.removed e.resource ()) hpresent
    have hview : (Notice.removed e.resource ()).apply (contents c) = contents (remove_entry e c).1 := by
      funext k
      rw [Notice.apply]
      by_cases hk : k = e.resource
      · subst hk
        rw [Function.update_self]
        exact (if_neg fun hin => ((hmem _).mp hin).2 rfl).symm
      · rw [Function.update_of_ne hk]
        unfold contents
        simp only [hmem, hk, ne_eq, not_false_eq_true, and_true]
    rw [hview] at hsingle
    exact hsingle

/-- A record is announced when it is not there and there is room, and is there
    then. -/
theorem told_insert (h : Sound c) (hroom : c.n_entries < c.n_cache_entries_max)
    (hnew : e.resource ∉ c.entries.map AvahiCacheEntry.resource) :
    Told c ({ c with entries := e :: c.entries, n_entries := c.n_entries + 1 },
      [.notify e.record .AVAHI_BROWSER_NEW]) := by
  refine ⟨⟨?_, ?_, hroom⟩, rfl, ?_⟩
  · rw [List.map_cons, List.nodup_cons]
    exact ⟨hnew, h.distinct⟩
  · exact congrArg (· + 1) h.counted
  · have habsent : contents c e.resource = none := if_neg hnew
    have hsingle : Mirrors (fun _ _ => True) _ _ _ := mirrors_single (n := Notice.added e.resource ()) habsent
    have hview : (Notice.added e.resource ()).apply (contents c) =
        contents { c with entries := e :: c.entries, n_entries := c.n_entries + 1 } := by
      funext k
      rw [Notice.apply]
      by_cases hk : k = e.resource
      · subst hk
        rw [Function.update_self]
        exact (if_pos List.mem_cons_self).symm
      · rw [Function.update_of_ne hk]
        refine (if_congr ?_ rfl rfl).symm
        rw [List.map_cons, List.mem_cons, or_iff_right hk]
    rw [hview] at hsingle
    exact hsingle

/-- A time event asks for the record again, or removes it. -/
theorem told_elapse_func (h : Sound c) (he : e ∈ c.entries) (refresh : Bool) (rand : Jitter) :
    Told c (elapse_func refresh rand e c) := by
  have hagain (state : AvahiCacheEntryState) (percent : Nat) : Told c (Action.andThen
      (if refresh then Action.emit (.post_query e.record.val.key) else Action.skip)
      (Action.update (next_expiry rand { e with state := state } percent)) c) := by
    refine Told.andThen ?_ ((alike_next_expiry rand _ percent _).told ?_ rfl)
    · cases refresh <;> exact (Alike.refl c).told h rfl
    · cases refresh <;> exact h
  unfold elapse_func
  cases hstate : e.state with
  | VALID | POOF | EXPIRY1 | EXPIRY2 | EXPIRY3 => exact hagain _ _
  | EXPIRY_FINAL | POOF_FINAL | GOODBYE_FINAL | REPLACE_FINAL => exact told_remove_entry h he

/-- What is received is announced only if it was not there, and there is room. -/
theorem told_update (h : Sound c) (rand : Jitter) (r : CacheRecord) (cache_flush : Bool) (a : AvahiAddress) :
    Told c (avahi_cache_update rand r cache_flush a c) := by
  unfold avahi_cache_update
  split
  · split
    · exact (alike_put _ c).told h rfl
    · exact (Alike.refl c).told h rfl
  · dsimp only
    generalize hflushed : (if cache_flush then flushLoop (lookup_key c r.val.key) c else c) = c₁
    have halike : Alike c c₁ := by
      rw [← hflushed]
      split
      · exact alike_flushLoop _ c
      · exact Alike.refl c
    have hsound := halike.sound h
    suffices hrest : Told c₁ _ from
      ⟨hrest.sound, hrest.bound.trans halike.n_cache_entries_max, halike.contents ▸ hrest.mirrors⟩
    split
    · exact (alike_next_expiry rand _ 80 c₁).told hsound rfl
    · rename_i hnone
      split
      · exact (Alike.refl c₁).told hsound rfl
      · rename_i hroom
        refine Told.next ?_ (alike_next_expiry rand _ 80 _)
        exact told_insert hsound (Nat.lt_of_not_le hroom) (resource_not_mem hnone)

/-- A loop that removes entries, each of them once. -/
theorem told_remove_each (h : Sound c) {l : List AvahiCacheEntry} (hl : (l.map AvahiCacheEntry.resource).Nodup)
    (hmem : ∀ e ∈ l, e ∈ c.entries) : Told c (Action.forEach remove_entry l c) := by
  induction l generalizing c with
  | nil => exact (Alike.refl c).told h rfl
  | cons e l ih =>
    obtain ⟨hnot, hrest⟩ := List.nodup_cons.mp hl
    have hfirst := told_remove_entry h (hmem e List.mem_cons_self)
    refine hfirst.andThen (ih hfirst.sound hrest fun x hx => ?_)
    have hne : x.resource ≠ e.resource := fun heq => hnot (heq ▸ List.mem_map_of_mem hx)
    exact List.mem_filter.mpr ⟨hmem x (List.mem_cons_of_mem _ hx), by simpa using hne⟩

/-- One case for each call and for the time events. -/
theorem told_step (h : Sound c) (event : Event) : Told c (step c event) := by
  cases event with
  | wait usec => exact ⟨⟨h.distinct, h.counted, h.bounded⟩, rfl, mirrors_nil⟩
  | elapse record refresh rand =>
    unfold step
    dsimp only
    split
    · rename_i e hlookup
      split
      · exact told_elapse_func h (mem_of_lookup_record hlookup).1 refresh rand
      · exact (Alike.refl c).told h rfl
    · exact (Alike.refl c).told h rfl
  | update rand record cache_flush a => exact told_update h rand record cache_flush a
  | start_poof key a => exact (alike_start_poof key a c).told h rfl
  | stop_poof rand record a => exact (alike_stop_poof rand record a c).told h rfl
  | flush => exact told_remove_each h h.distinct fun _ he => he

end

/-- The invariant and the bound over a whole run. -/
theorem told_after {c : AvahiCache} (h : Sound c) (es : List Event) :
    Sound (after step c es) ∧ (after step c es).n_cache_entries_max = c.n_cache_entries_max := by
  induction es generalizing c with
  | nil => exact ⟨h, rfl⟩
  | cons e es ih =>
    have hstep := told_step h e
    obtain ⟨hsound, hbound⟩ := ih hstep.sound
    exact ⟨hsound, hbound.trans hstep.bound⟩

theorem sound_new (now n_cache_entries_max : Nat) (last_rand : Jitter) :
    Sound (avahi_cache_new now n_cache_entries_max last_rand) :=
  ⟨List.nodup_nil, rfl, Nat.zero_le _⟩

/-- Whatever is received and whenever the time events run, the lookups of a
    server know the records of its cache from what they are told: a record is
    announced when it is not there, withdrawn when it is there, and there is what
    was announced and not withdrawn. Every record is there once, and there are
    never more than the configuration allows. -/
theorem avahi_cache_mirrored (now n_cache_entries_max : Nat) (last_rand : Jitter) (es : List Event) :
    let new := avahi_cache_new now n_cache_entries_max last_rand
    let c := after step new es
    Mirrors (fun _ _ => True) empty ((trace step new es).filterMap notice) (contents c) ∧
      (c.entries.Pairwise fun a b => avahi_record_equal_no_ttl a.record.val.val b.record.val.val ≠ some true) ∧
      c.n_entries = c.entries.length ∧ c.n_entries ≤ n_cache_entries_max := by
  intro new c
  have hnew : Sound new := sound_new now n_cache_entries_max last_rand
  obtain ⟨hsound, hbound⟩ : Sound c ∧ c.n_cache_entries_max = n_cache_entries_max := told_after hnew es
  refine ⟨?_, ?_, hsound.counted, hbound ▸ hsound.bounded⟩
  · have hempty : contents new = empty := funext fun k => if_neg List.not_mem_nil
    rw [← hempty]
    have htold (s : AvahiCache) (e : Event) (h : Sound s) : Mirrors (fun _ _ => True) (contents s)
        ((step s e).2.filterMap notice) (contents (step s e).1) := (told_step h e).mirrors
    have hrun := mirrors_run (fun s e h => (told_step h e).sound) htold hnew es
    exact hrun
  · refine (List.pairwise_map.mp hsound.distinct).imp fun hne heq => hne ?_
    exact (Record.equalTo_iff _ _).mp (decide_eq_true heq)

end qtzeroconf.avahi.cache
