import Mathlib.Logic.Function.Basic
import Std.Data.ExtTreeMap.Lemmas

namespace registry

variable {κ ρ : Type*} [Ord κ] [Std.TransOrd κ] [Std.LawfulEqOrd κ]

/-- A table of owners: which object is filed under a key, and, for every object
    that is alive, the key it goes by. -/
structure Registry (κ ρ : Type*) [Ord κ] where
  table : Std.ExtTreeMap κ ρ compare
  alive : ρ → Option κ

namespace Registry

/-- Only living objects are filed, each under its own key. -/
def Stored (g : Registry κ ρ) : Prop := ∀ k r, g.table[k]? = some r → g.alive r = some k

/-- Every living object is filed under its key. -/
def Owned (g : Registry κ ρ) : Prop := ∀ r k, g.alive r = some k → g.table[k]? = some r

variable [DecidableEq ρ]

/-- A new object comes to life and is filed, over whatever had its key. -/
def insert (g : Registry κ ρ) (r : ρ) (k : κ) : Registry κ ρ where
  table := g.table.insert k r
  alive := Function.update g.alive r (some k)

/-- An object dies and takes the entry of its key along. -/
def release (g : Registry κ ρ) (r : ρ) : Registry κ ρ :=
  match g.alive r with
  | none => g
  | some k => { table := g.table.erase k, alive := Function.update g.alive r none }

/-- The object that is filed under a key dies. -/
def releaseAt (g : Registry κ ρ) (k : κ) : Registry κ ρ :=
  match g.table[k]? with
  | none => g
  | some r => g.release r

/-- The table is emptied; no object dies of it. -/
def clear (g : Registry κ ρ) : Registry κ ρ := { g with table := ∅ }

omit [Std.LawfulEqOrd κ] [DecidableEq ρ] in
theorem stored_clear (g : Registry κ ρ) : g.clear.Stored := by
  intro k r h
  simp [clear] at h

theorem stored_insert {g : Registry κ ρ} (hg : g.Stored) {r : ρ} (hfresh : g.alive r = none) (k : κ) :
    (g.insert r k).Stored := by
  intro k' r' h
  simp only [insert, Std.ExtTreeMap.getElem?_insert, Std.compare_eq_iff_eq] at h ⊢
  split at h
  · rename_i hkey
    cases h
    rw [Function.update_self, Std.LawfulEqCmp.eq_of_compare hkey]
  · have halive := hg k' r' h
    have hne : r' ≠ r := by
      rintro rfl
      rw [hfresh] at halive
      cases halive
    rw [Function.update_of_ne hne, halive]

/-- A new object leaves all others filed exactly when its key was free. -/
theorem owned_insert_iff {g : Registry κ ρ} (hg : g.Stored) (howned : g.Owned) {r : ρ}
    (hfresh : g.alive r = none) (k : κ) : (g.insert r k).Owned ↔ g.table[k]? = none := by
  constructor
  · intro h
    by_contra hused
    obtain ⟨r', hr'⟩ := Option.ne_none_iff_exists'.mp hused
    have halive := hg k r' hr'
    have hne : r' ≠ r := by
      rintro rfl
      rw [hfresh] at halive
      cases halive
    have hfiled := h r' k (by simp only [insert, Function.update_of_ne hne, halive])
    simp only [insert, Std.ExtTreeMap.getElem?_insert_self, Option.some.injEq] at hfiled
    exact hne hfiled.symm
  · intro hfree r' k' halive
    by_cases hr : r' = r
    · subst hr
      simp only [insert, Function.update_self, Option.some.injEq] at halive ⊢
      rw [← halive, Std.ExtTreeMap.getElem?_insert_self]
    · simp only [insert, Function.update_of_ne hr] at halive ⊢
      have hfiled := howned r' k' halive
      have hne : ¬ k = k' := by
        rintro rfl
        rw [hfree] at hfiled
        cases hfiled
      simpa [Std.ExtTreeMap.getElem?_insert, hne] using hfiled

theorem stored_release {g : Registry κ ρ} (hg : g.Stored) (r : ρ) : (g.release r).Stored := by
  unfold release
  split
  · exact hg
  · rename_i k halive
    intro k' r' h
    simp only [Std.ExtTreeMap.getElem?_erase, Std.compare_eq_iff_eq] at h ⊢
    split at h
    · cases h
    · rename_i hkey
      have halive' := hg k' r' h
      have hne : r' ≠ r := by
        rintro rfl
        rw [halive] at halive'
        exact hkey (Option.some.inj halive' ▸ Std.ReflCmp.compare_self)
      rw [Function.update_of_ne hne, halive']

/-- The death of one object leaves all others filed. -/
theorem owned_release {g : Registry κ ρ} (hg : g.Owned) (r : ρ) : (g.release r).Owned := by
  unfold release
  split
  · exact hg
  · rename_i k halive
    intro r' k' h
    have hne : r' ≠ r := by
      rintro rfl
      simp at h
    simp only [Function.update_of_ne hne] at h
    have hfiled := hg r' k' h
    have hkey : ¬ k = k' := by
      rintro rfl
      rw [hg r k halive] at hfiled
      exact hne (Option.some.inj hfiled).symm
    simpa [Std.ExtTreeMap.getElem?_erase, hkey] using hfiled

/-- An object that dies as soon as it is filed leaves all others filed exactly
    when its key was free: it takes the entry of its key along. -/
theorem owned_insert_release_iff {g : Registry κ ρ} (hg : g.Stored) (howned : g.Owned) {r : ρ}
    (hfresh : g.alive r = none) (k : κ) : ((g.insert r k).release r).Owned ↔ g.table[k]? = none := by
  constructor
  · intro h
    by_contra hused
    obtain ⟨r', hr'⟩ := Option.ne_none_iff_exists'.mp hused
    have halive := hg k r' hr'
    have hne : r' ≠ r := by
      rintro rfl
      rw [hfresh] at halive
      cases halive
    have hfiled := h r' k (by simp [release, insert, Function.update_of_ne hne, halive])
    simp [release, insert] at hfiled
  · intro hfree
    exact owned_release ((owned_insert_iff hg howned hfresh k).mpr hfree) r

/-- Releasing what is filed under a key empties this key and no other. -/
theorem table_releaseAt [DecidableEq κ] {g : Registry κ ρ} (hg : g.Stored) (k k' : κ) :
    (g.releaseAt k).table[k']? = if k = k' then none else g.table[k']? := by
  unfold releaseAt
  split
  · rename_i hnone
    split
    · rename_i hkey
      rw [← hkey, hnone]
    · rfl
  · rename_i r hr
    simp [release, hg k r hr, Std.ExtTreeMap.getElem?_erase]

theorem stored_releaseAt {g : Registry κ ρ} (hg : g.Stored) (k : κ) : (g.releaseAt k).Stored := by
  unfold releaseAt
  split
  · exact hg
  · exact stored_release hg _

theorem owned_releaseAt {g : Registry κ ρ} (hg : g.Owned) (k : κ) : (g.releaseAt k).Owned := by
  unfold releaseAt
  split
  · exact hg
  · exact owned_release hg _

/-- A loop that releases what is filed under each key of a list. -/
def releaseEach (g : Registry κ ρ) (keys : List κ) : Registry κ ρ := keys.foldl releaseAt g

theorem stored_releaseEach {g : Registry κ ρ} (hg : g.Stored) (keys : List κ) :
    (g.releaseEach keys).Stored := by
  induction keys generalizing g with
  | nil => exact hg
  | cons k keys ih => exact ih (stored_releaseAt hg k)

theorem owned_releaseEach {g : Registry κ ρ} (hg : g.Owned) (keys : List κ) :
    (g.releaseEach keys).Owned := by
  induction keys generalizing g with
  | nil => exact hg
  | cons k keys ih => exact ih (owned_releaseAt hg k)

/-- The loop empties the keys of its list and no others. -/
theorem table_releaseEach [DecidableEq κ] {g : Registry κ ρ} (hg : g.Stored) (keys : List κ) (k : κ) :
    (g.releaseEach keys).table[k]? = none ↔ k ∈ keys ∨ g.table[k]? = none := by
  induction keys generalizing g with
  | nil => simp [releaseEach]
  | cons k' keys ih =>
    rw [releaseEach, List.foldl_cons, ← releaseEach, ih (stored_releaseAt hg k'), table_releaseAt hg,
      List.mem_cons]
    by_cases hkey : k' = k
    · simp [hkey]
    · have hkey' : ¬ k = k' := fun h => hkey h.symm
      simp [hkey, hkey']

omit [Std.LawfulEqOrd κ] [DecidableEq ρ] in
/-- Emptying the table orphans no object exactly when it was empty. -/
theorem owned_clear_iff {g : Registry κ ρ} (hg : g.Stored) (howned : g.Owned) :
    g.clear.Owned ↔ ∀ k : κ, g.table[k]? = none := by
  constructor
  · intro h k
    by_contra hused
    obtain ⟨r, hr⟩ := Option.ne_none_iff_exists'.mp hused
    have hfiled := h r k (hg k r hr)
    simp [clear] at hfiled
  · intro hempty r k halive
    have hfiled := howned r k halive
    rw [hempty k] at hfiled
    cases hfiled

/-- Releasing a list of keys and emptying the table orphans no object exactly
    when the list has every key that was in use. -/
theorem owned_teardown_iff {g : Registry κ ρ} (hg : g.Stored) (howned : g.Owned) (keys : List κ) :
    (g.releaseEach keys).clear.Owned ↔ ∀ k, k ∈ g.table → k ∈ keys := by
  classical
  rw [owned_clear_iff (stored_releaseEach hg keys) (owned_releaseEach howned keys)]
  simp only [table_releaseEach hg]
  refine forall_congr' fun k => ?_
  rw [Std.ExtTreeMap.mem_iff_isSome_getElem?, ← Option.not_isSome_iff_eq_none]
  by_cases h : k ∈ keys <;> simp [h]

/-- What one step of a program can do to a registry. -/
inductive Op (κ ρ : Type*) where
  | keep
  | insert (r : ρ) (k : κ)
  /-- the object that is inserted dies at once -/
  | insertRelease (r : ρ) (k : κ)
  | release (r : ρ)
  | releaseAt (k : κ)
  /-- what is filed under the keys dies, and the table is emptied -/
  | teardown (keys : List κ)

/-- The registry after a step. -/
def Op.apply (g : Registry κ ρ) : Op κ ρ → Registry κ ρ
  | keep => g
  | insert r k => g.insert r k
  | insertRelease r k => (g.insert r k).release r
  | release r => g.release r
  | releaseAt k => g.releaseAt k
  | teardown keys => (g.releaseEach keys).clear

/-- A step inserts only objects that are not alive. -/
def Op.Fresh (g : Registry κ ρ) : Op κ ρ → Prop
  | insert r _ | insertRelease r _ => g.alive r = none
  | _ => True

/-- A step that orphans no object: it inserts under free keys only, and empties
    the table only of what it has released. -/
def Op.Keeps (g : Registry κ ρ) : Op κ ρ → Prop
  | insert _ k | insertRelease _ k => g.table[k]? = none
  | teardown keys => ∀ k, k ∈ g.table → k ∈ keys
  | _ => True

theorem stored_apply {g : Registry κ ρ} (hg : g.Stored) {op : Op κ ρ} (hfresh : op.Fresh g) :
    (op.apply g).Stored := by
  cases op with
  | keep => exact hg
  | insert r k => exact stored_insert hg hfresh k
  | insertRelease r k => exact stored_release (stored_insert hg hfresh k) r
  | release r => exact stored_release hg r
  | releaseAt k => exact stored_releaseAt hg k
  | teardown keys => exact stored_clear _

/-- Every step keeps ownership exactly where it orphans nothing. -/
theorem owned_apply_iff {g : Registry κ ρ} (hg : g.Stored) (howned : g.Owned) {op : Op κ ρ}
    (hfresh : op.Fresh g) : (op.apply g).Owned ↔ op.Keeps g := by
  cases op with
  | keep => exact iff_of_true howned trivial
  | insert r k => exact owned_insert_iff hg howned hfresh k
  | insertRelease r k => exact owned_insert_release_iff hg howned hfresh k
  | release r => exact iff_of_true (owned_release howned r) trivial
  | releaseAt k => exact iff_of_true (owned_releaseAt howned k) trivial
  | teardown keys => exact owned_teardown_iff hg howned keys

omit [Std.LawfulEqOrd κ] in
theorem alive_release {g : Registry κ ρ} {r r' : ρ} {k : κ} (h : (g.release r).alive r' = some k) :
    g.alive r' = some k := by
  unfold release at h
  split at h
  · exact h
  · by_cases hr : r' = r
    · subst hr
      simp at h
    · simpa [Function.update_of_ne hr] using h

omit [Std.LawfulEqOrd κ] in
theorem alive_releaseAt {g : Registry κ ρ} {k k' : κ} {r : ρ} (h : (g.releaseAt k).alive r = some k') :
    g.alive r = some k' := by
  unfold releaseAt at h
  split at h
  · exact h
  · exact alive_release h

omit [Std.LawfulEqOrd κ] in
theorem alive_releaseEach {g : Registry κ ρ} {keys : List κ} {r : ρ} {k : κ}
    (h : (g.releaseEach keys).alive r = some k) : g.alive r = some k := by
  induction keys generalizing g with
  | nil => exact h
  | cons k' keys ih => exact alive_releaseAt (ih h)

omit [Std.LawfulEqOrd κ] in
theorem alive_insert {g : Registry κ ρ} {r r' : ρ} {k k' : κ} (hne : r' ≠ r)
    (h : (g.insert r k).alive r' = some k') : g.alive r' = some k' := by
  simpa [insert, Function.update_of_ne hne] using h

omit [Std.LawfulEqOrd κ] in
/-- Objects that were alive before a step keep their key. -/
theorem alive_apply {g : Registry κ ρ} {op : Op κ ρ} (hfresh : op.Fresh g) {r : ρ} {k k' : κ}
    (hbefore : g.alive r = some k) (h : (op.apply g).alive r = some k') : k = k' := by
  have hne {r' : ρ} (hr' : g.alive r' = none) : r ≠ r' := by
    rintro rfl
    rw [hbefore] at hr'
    cases hr'
  have hsame : g.alive r = some k' := by
    cases op with
    | keep => exact h
    | insert r' k'' => exact alive_insert (hne hfresh) h
    | insertRelease r' k'' => exact alive_insert (hne hfresh) (alive_release h)
    | release r' => exact alive_release h
    | releaseAt k'' => exact alive_releaseAt h
    | teardown keys => exact alive_releaseEach h
  exact Option.some.inj (hbefore.symm.trans hsame)

omit [Std.LawfulEqOrd κ] in
/-- Where a step leaves every living object filed, what was filed before it and
    is still alive has kept its entry. -/
theorem kept_of_owned_apply {g : Registry κ ρ} (hg : g.Stored) {op : Op κ ρ} (hfresh : op.Fresh g)
    (howned : (op.apply g).Owned) {k : κ} {r : ρ} (hfiled : g.table[k]? = some r)
    (halive : (op.apply g).alive r ≠ none) : (op.apply g).table[k]? = some r := by
  obtain ⟨k', hk'⟩ := Option.ne_none_iff_exists'.mp halive
  have hkey := alive_apply hfresh (hg k r hfiled) hk'
  exact hkey ▸ howned r k' hk'

end Registry

end registry
