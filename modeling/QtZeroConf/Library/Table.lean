import Mathlib.Data.List.Basic
import Std.Data.ExtTreeMap.Lemmas

namespace table

variable {κ β ι : Type*} [Ord κ] [Std.TransOrd κ] [Std.LawfulEqOrd κ] [DecidableEq κ]

/-- The map built by inserting an entry for every item, in order; a later item
    overwrites an earlier one with its key. -/
def insertAll (key : ι → κ) (value : ι → β) (items : List ι) (m : Std.ExtTreeMap κ β compare) :
    Std.ExtTreeMap κ β compare :=
  items.foldl (fun m i => m.insert (key i) (value i)) m

variable (key : ι → κ) (value : ι → β)

omit [Std.LawfulEqOrd κ] [DecidableEq κ] in
@[simp] theorem insertAll_nil (m : Std.ExtTreeMap κ β compare) : insertAll key value [] m = m := rfl

omit [Std.LawfulEqOrd κ] [DecidableEq κ] in
@[simp] theorem insertAll_cons (i : ι) (items : List ι) (m : Std.ExtTreeMap κ β compare) :
    insertAll key value (i :: items) m = insertAll key value items (m.insert (key i) (value i)) := rfl

/-- The last item with a key decides its value; a key of no item keeps the
    value it had. -/
theorem getElem?_insertAll (items : List ι) (m : Std.ExtTreeMap κ β compare) (k : κ) :
    (insertAll key value items m)[k]? =
      ((items.reverse.find? fun i => key i = k).map value).or m[k]? := by
  induction items generalizing m with
  | nil => simp
  | cons i items ih =>
    rw [insertAll_cons, ih, List.reverse_cons, List.find?_append, Std.ExtTreeMap.getElem?_insert]
    cases hlast : items.reverse.find? fun i => key i = k with
    | some j => simp
    | none =>
      by_cases hkey : key i = k
      · simp [hkey]
      · simp [hkey]

/-- Inserting the items last to first leaves the first item of each key. -/
theorem getElem?_insertAll_reverse (items : List ι) (k : κ) :
    (insertAll key value items.reverse (∅ : Std.ExtTreeMap κ β compare))[k]? =
      (items.find? fun i => key i = k).map value := by
  rw [getElem?_insertAll, List.reverse_reverse]
  simp

/-- Nothing of an earlier map is left exactly when every key of it is the key of
    some item. -/
theorem insertAll_eq_insertAll_empty_iff (items : List ι) (m : Std.ExtTreeMap κ β compare) :
    insertAll key value items m = insertAll key value items ∅ ↔ ∀ k ∈ m, ∃ i ∈ items, key i = k := by
  constructor
  · intro h k hk
    obtain ⟨b, hb⟩ := Option.isSome_iff_exists.mp (Std.ExtTreeMap.mem_iff_isSome_getElem?.mp hk)
    have hentry := congrArg (fun m : Std.ExtTreeMap κ β compare => m[k]?) h
    simp only [getElem?_insertAll, hb, Std.ExtTreeMap.getElem?_empty, Option.or_none] at hentry
    cases hlast : items.reverse.find? fun i => key i = k with
    | none => simp [hlast] at hentry
    | some i =>
      exact ⟨i, List.mem_reverse.mp (List.mem_of_find?_eq_some hlast), by simpa using List.find?_some hlast⟩
  · intro h
    apply Std.ExtTreeMap.ext_getElem?
    intro k
    simp only [getElem?_insertAll, Std.ExtTreeMap.getElem?_empty, Option.or_none]
    cases hlast : items.reverse.find? fun i => key i = k with
    | some i => rfl
    | none =>
      have hk : k ∉ m := by
        intro hk
        obtain ⟨i, hi, hkey⟩ := h k hk
        exact absurd hkey (by simpa using List.find?_eq_none.mp hlast i (List.mem_reverse.mpr hi))
      simp [Std.ExtTreeMap.getElem?_eq_none hk]

/-- Two maps built from empty agree exactly when, for every key, the item that
    decides it carries the same value in both. -/
theorem insertAll_eq_insertAll_reverse_iff (front back : List ι) :
    insertAll key value front (∅ : Std.ExtTreeMap κ β compare) =
        insertAll key value back.reverse ∅ ↔
      ∀ k, (front.reverse.find? fun i => key i = k).map value =
        (back.find? fun i => key i = k).map value := by
  constructor
  · intro h k
    have hk := congrArg (fun m : Std.ExtTreeMap κ β compare => m[k]?) h
    simpa [getElem?_insertAll, getElem?_insertAll_reverse] using hk
  · intro h
    apply Std.ExtTreeMap.ext_getElem?
    intro k
    simpa [getElem?_insertAll, getElem?_insertAll_reverse] using h k

end table
