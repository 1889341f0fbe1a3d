import Mathlib.Algebra.GroupWithZero.Nat
import Mathlib.Data.List.Nodup

namespace keyed

variable {α κ : Type*} [DecidableEq κ] {key : α → κ}

/-- The entry with the key of `a` is overwritten by `a`. -/
def replace (key : α → κ) (a : α) (l : List α) : List α := l.map fun b => if key b = key a then a else b

/-- The first entry with a key. -/
def lookup (key : α → κ) (k : κ) (l : List α) : Option α := l.find? fun a => key a = k

theorem lookup_eq_some {l : List α} {k : κ} {a : α} (h : lookup key k l = some a) : a ∈ l ∧ key a = k := by
  refine ⟨List.mem_of_find?_eq_some h, ?_⟩
  simpa using List.find?_some h

theorem lookup_eq_none {l : List α} {k : κ} (h : lookup key k l = none) : k ∉ l.map key := by
  intro hmem
  obtain ⟨a, ha, rfl⟩ := List.mem_map.mp hmem
  simpa using List.find?_eq_none.mp h a ha

@[simp] theorem map_key_replace (a : α) (l : List α) : (replace key a l).map key = l.map key := by
  simp only [replace, List.map_map]
  refine List.map_congr_left fun b _ => ?_
  by_cases h : key b = key a <;> simp [h]

theorem mem_replace {a b : α} {l : List α} :
    b ∈ replace key a l ↔ (b = a ∧ key a ∈ l.map key) ∨ (b ∈ l ∧ key b ≠ key a) := by
  simp only [replace, List.mem_map]
  constructor
  · rintro ⟨c, hc, rfl⟩
    by_cases h : key c = key a
    · exact Or.inl ⟨if_pos h, c, hc, h⟩
    · rw [if_neg h]
      exact Or.inr ⟨hc, h⟩
  · rintro (⟨rfl, c, hc, h⟩ | ⟨hb, h⟩)
    · exact ⟨c, hc, if_pos h⟩
    · exact ⟨b, hb, if_neg h⟩

/-- A key that no other entry has is taken out with one entry. -/
theorem length_filter_ne {l : List α} (hl : (l.map key).Nodup) {a : α} (ha : a ∈ l) :
    (l.filter fun b => key b ≠ key a).length + 1 = l.length := by
  induction l with
  | nil => cases ha
  | cons b l ih =>
    obtain ⟨hb, hrest⟩ := List.nodup_cons.mp hl
    rcases List.mem_cons.mp ha with rfl | hmem
    · have hothers : ∀ c ∈ l, decide (key c ≠ key a) = true := by
        intro c hc
        exact decide_eq_true fun h => hb (h ▸ List.mem_map_of_mem hc)
      rw [List.filter_cons_of_neg (by simp), List.filter_eq_self.mpr hothers, List.length_cons]
    · have hne : key b ≠ key a := fun h => hb (h ▸ List.mem_map_of_mem hmem)
      rw [List.filter_cons_of_pos (by simpa using hne), List.length_cons, List.length_cons, ih hrest hmem]

/-- The only entry with a key is overwritten where it stands. -/
theorem replace_split {l : List α} (hl : (l.map key).Nodup) {a b : α} (hb : b ∈ l) (hkey : key a = key b) :
    ∃ l₁ l₂, l = l₁ ++ b :: l₂ ∧ replace key a l = l₁ ++ a :: l₂ := by
  induction l with
  | nil => cases hb
  | cons c l ih =>
    obtain ⟨hc, hrest⟩ := List.nodup_cons.mp hl
    rcases List.mem_cons.mp hb with rfl | hmem
    · have htail : replace key a l = l := by
        refine (List.map_congr_left fun d hd => ?_).trans (List.map_id l)
        have hne : key d ≠ key a := fun h => hc ((h.trans hkey) ▸ List.mem_map_of_mem hd)
        exact if_neg hne
      have hcons : replace key a (b :: l) = a :: replace key a l := by simp [replace, hkey]
      exact ⟨[], l, rfl, by rw [hcons, htail]; rfl⟩
    · have hne : key c ≠ key a := fun h => hc ((h.trans hkey) ▸ List.mem_map_of_mem hmem)
      have hcons : replace key a (c :: l) = c :: replace key a l := by simp [replace, hne]
      obtain ⟨l₁, l₂, heq, hreplace⟩ := ih hrest hmem
      exact ⟨c :: l₁, l₂, by rw [heq]; rfl, by rw [hcons, hreplace]; rfl⟩

/-- What there is a number of changes by the entry that is overwritten. -/
theorem countP_replace (p : α → Bool) {l : List α} (hl : (l.map key).Nodup) {a b : α} (hb : b ∈ l)
    (hkey : key a = key b) : (replace key a l).countP p + (if p b then 1 else 0) = l.countP p + if p a then 1 else 0 := by
  obtain ⟨l₁, l₂, heq, hreplace⟩ := replace_split hl hb hkey
  rw [heq] at hreplace ⊢
  rw [hreplace]
  simp only [List.countP_append, List.countP_cons]
  omega

end keyed
