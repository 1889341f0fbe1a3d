import Mathlib.Logic.Function.Basic
import QtZeroConf.Library.Reactive

open reactive

namespace linear

variable {α : Type*}

/-- Where a handle is in its life. -/
inductive Phase where
  | fresh
  | live
  | gone
  deriving DecidableEq

/-- How often a handle has been acquired. -/
def Phase.acquired : Phase → Nat
  | fresh => 0
  | live | gone => 1

/-- How often a handle has been released. -/
def Phase.released : Phase → Nat
  | fresh | live => 0
  | gone => 1

/-- The phase of every handle. -/
abbrev Books (α : Type*) := α → Phase

/-- A use of a library's handles. A null handle that is handed to the library is
    `none`. -/
inductive Use (α : Type*) where
  | acquire (a : α)
  | pass (handle : Option α)
  | release (handle : Option α)
  deriving DecidableEq

/-- Only a live handle is passed on or released, and what is acquired is new. -/
def Use.Valid (books : Books α) : Use α → Prop
  | acquire a => books a = .fresh
  | pass handle | release handle => ∃ a, handle = some a ∧ books a = .live

/-- The books in which no handle has been acquired. -/
def unused : Books α := fun _ => .fresh

/-- Every live handle is held in one place. -/
structure Holding {η : Type*} (books : Books α) (held : η → Option α) : Prop where
  live : ∀ a, books a = .live ↔ ∃ i, held i = some a
  apart : ∀ i j a, held i = some a → held j = some a → i = j

theorem holding_unused {η : Type*} : Holding (unused : Books α) fun _ : η => none :=
  ⟨fun a => by simp [unused], fun i j a h => by cases h⟩

variable [DecidableEq α]

/-- The books after a use. -/
def apply (books : Books α) : Use α → Books α
  | .acquire a => Function.update books a .live
  | .pass _ | .release none => books
  | .release (some a) => Function.update books a .gone

/-- The books after a sequence of uses. -/
def applyAll (books : Books α) (uses : List (Use α)) : Books α := uses.foldl apply books

/-- Every use of the sequence is valid in its turn. -/
def Linear : Books α → List (Use α) → Prop
  | _, [] => True
  | books, u :: uses => u.Valid books ∧ Linear (apply books u) uses

@[simp] theorem applyAll_nil (books : Books α) : applyAll books [] = books := rfl

@[simp] theorem applyAll_cons (books : Books α) (u : Use α) (uses : List (Use α)) :
    applyAll books (u :: uses) = applyAll (apply books u) uses := rfl

theorem applyAll_append (books : Books α) (uses uses' : List (Use α)) :
    applyAll books (uses ++ uses') = applyAll (applyAll books uses) uses' := List.foldl_append

@[simp] theorem linear_nil {books : Books α} : Linear books [] := trivial

@[simp] theorem linear_cons {books : Books α} {u : Use α} {uses : List (Use α)} :
    Linear books (u :: uses) ↔ u.Valid books ∧ Linear (apply books u) uses := Iff.rfl

theorem linear_append {books : Books α} {uses uses' : List (Use α)} :
    Linear books (uses ++ uses') ↔ Linear books uses ∧ Linear (applyAll books uses) uses' := by
  induction uses generalizing books with
  | nil => exact ⟨fun h => ⟨trivial, h⟩, fun h => h.2⟩
  | cons u uses ih =>
    rw [List.cons_append, linear_cons, ih, linear_cons, applyAll_cons, and_assoc]

/-- Handles that are only passed on keep their phases. -/
theorem applyAll_of_passes {books : Books α} {uses : List (Use α)} {handle : Option α}
    (h : ∀ u ∈ uses, u = .pass handle) : applyAll books uses = books := by
  induction uses with
  | nil => rfl
  | cons u uses ih =>
    rw [applyAll_cons, h u List.mem_cons_self]
    exact ih fun u hu => h u (List.mem_cons_of_mem _ hu)

/-- A live handle can be passed on any number of times. -/
theorem linear_of_passes {books : Books α} {uses : List (Use α)} {a : α} (ha : books a = .live)
    (h : ∀ u ∈ uses, u = .pass (some a)) : Linear books uses := by
  induction uses with
  | nil => trivial
  | cons u uses ih =>
    rw [linear_cons, h u List.mem_cons_self]
    exact ⟨⟨a, rfl, ha⟩, ih fun u hu => h u (List.mem_cons_of_mem _ hu)⟩

/-- A null handle is never used linearly. -/
theorem Linear.some_of_mem {books : Books α} {uses : List (Use α)} (h : Linear books uses) :
    .pass none ∉ uses ∧ .release none ∉ uses := by
  induction uses generalizing books with
  | nil => exact ⟨List.not_mem_nil, List.not_mem_nil⟩
  | cons u uses ih =>
    obtain ⟨hpass, hrelease⟩ := ih h.2
    have hvalid := h.1
    constructor
    · rintro (_ | _)
      · obtain ⟨a, ha, -⟩ := hvalid
        cases ha
      · contradiction
    · rintro (_ | _)
      · obtain ⟨a, ha, -⟩ := hvalid
        cases ha
      · contradiction

/-- How often a handle was acquired and released can be read off its phase. -/
theorem Linear.counts {books : Books α} {uses : List (Use α)} (h : Linear books uses) (a : α) :
    uses.count (.acquire a) + (books a).acquired = (applyAll books uses a).acquired ∧
      uses.count (.release (some a)) + (books a).released = (applyAll books uses a).released := by
  induction uses generalizing books with
  | nil => exact ⟨Nat.zero_add _, Nat.zero_add _⟩
  | cons u uses ih =>
    obtain ⟨hvalid, hrest⟩ := h
    obtain ⟨hacquired, hreleased⟩ := ih hrest
    rw [applyAll_cons, ← hacquired, ← hreleased]
    cases u with
    | acquire b =>
      have hfresh : books b = .fresh := hvalid
      by_cases hab : a = b
      · subst hab
        simp [apply, hfresh, Phase.acquired, Phase.released]
      · simp [apply, Function.update_of_ne hab, Ne.symm hab]
    | pass handle => simp [apply]
    | release handle =>
      obtain ⟨b, rfl, hlive⟩ := hvalid
      by_cases hab : a = b
      · subst hab
        simp [apply, hlive, Phase.acquired, Phase.released]
      · simp [apply, Function.update_of_ne hab, Ne.symm hab]

/-- From unused books, what was ever acquired was acquired once, and is live or was
    released once. -/
theorem Linear.accounted {uses : List (Use α)} (h : Linear unused uses) {a : α} (ha : .acquire a ∈ uses) :
    uses.count (.acquire a) = 1 ∧
      (applyAll unused uses a = .live ∧ uses.count (.release (some a)) = 0 ∨
        applyAll unused uses a = .gone ∧ uses.count (.release (some a)) = 1) := by
  obtain ⟨hacquired, hreleased⟩ := h.counts a
  have hpos := List.count_pos_iff.mpr ha
  cases hphase : applyAll unused uses a <;>
    simp_all [unused, Phase.acquired, Phase.released]

/-- The uses of a call that may return a handle, which is passed on at once. -/
def obtained (handle : Option α) : List (Use α) :=
  handle.toList.flatMap fun a => [.acquire a, .pass (some a)]

/-- The uses of a release that does nothing with a null handle. -/
def released (handle : Option α) : List (Use α) := handle.toList.map fun a => .release (some a)

/-- A call that may return a handle leaves the others alone. -/
theorem applyAll_obtained_of_ne {books : Books α} {handle : Option α} {a : α} (ha : handle ≠ some a) :
    applyAll books (obtained handle) a = books a := by
  cases handle with
  | none => rfl
  | some b => exact Function.update_of_ne (fun hab => ha (congrArg some hab.symm)) ..

/-- A release leaves the others alone. -/
theorem applyAll_released_of_ne {books : Books α} {handle : Option α} {a : α} (ha : handle ≠ some a) :
    applyAll books (released handle) a = books a := by
  cases handle with
  | none => rfl
  | some b => exact Function.update_of_ne (fun hab => ha (congrArg some hab.symm)) ..

section Holders

variable {η : Type*} [DecidableEq η] {books : Books α} {held : η → Option α}

omit [DecidableEq α] in
theorem update_eq_some_iff {i j : η} {handle : Option α} {a : α} :
    Function.update held i handle j = some a ↔ (j = i ∧ handle = some a) ∨ (j ≠ i ∧ held j = some a) := by
  by_cases hji : j = i
  · subst hji
    simp
  · simp [hji]

/-- A new handle goes to a place that is empty. -/
theorem Holding.obtain (h : Holding books held) {i : η} (hempty : held i = none) {handle : Option α}
    (hfresh : ∀ a, handle = some a → books a = .fresh) :
    Linear books (obtained handle) ∧
      Holding (applyAll books (obtained handle)) (Function.update held i handle) := by
  cases handle with
  | none =>
    rw [← hempty, Function.update_eq_self]
    rw [hempty]
    exact ⟨trivial, h⟩
  | some a =>
    have hnew := hfresh a rfl
    have hnowhere (j : η) : held j ≠ some a := by
      intro hj
      have hlive := (h.live a).mpr ⟨j, hj⟩
      rw [hnew] at hlive
      cases hlive
    refine ⟨⟨hnew, ⟨a, rfl, Function.update_self ..⟩, trivial⟩, fun b => ?_, fun j k b hj hk => ?_⟩
    · by_cases hb : b = a
      · subst hb
        refine iff_of_true (Function.update_self ..) ⟨i, Function.update_self ..⟩
      · rw [applyAll_obtained_of_ne fun hab => hb (Option.some.inj hab).symm, h.live]
        constructor
        · rintro ⟨j, hj⟩
          refine ⟨j, update_eq_some_iff.mpr (.inr ⟨?_, hj⟩)⟩
          rintro rfl
          rw [hempty] at hj
          cases hj
        · rintro ⟨j, hj⟩
          rcases update_eq_some_iff.mp hj with ⟨-, hab⟩ | ⟨-, hj⟩
          · exact absurd (Option.some.inj hab).symm hb
          · exact ⟨j, hj⟩
    · rcases update_eq_some_iff.mp hj with ⟨hji, hab⟩ | ⟨-, hj⟩ <;>
        rcases update_eq_some_iff.mp hk with ⟨hki, hab'⟩ | ⟨-, hk⟩
      · exact hji.trans hki.symm
      · exact absurd (hk.trans hab.symm) (hnowhere k)
      · exact absurd (hj.trans hab'.symm) (hnowhere j)
      · exact h.apart j k b hj hk

/-- What is released leaves its place empty. -/
theorem Holding.release (h : Holding books held) (i : η) :
    Linear books (released (held i)) ∧
      Holding (applyAll books (released (held i))) (Function.update held i none) := by
  cases hi : held i with
  | none =>
    rw [← hi, Function.update_eq_self]
    rw [hi]
    exact ⟨trivial, h⟩
  | some a =>
    have hleft {j : η} {b : α} : Function.update held i none j = some b ↔ j ≠ i ∧ held j = some b :=
      update_eq_some_iff.trans (or_iff_right fun hnone => by cases hnone.2)
    refine ⟨⟨⟨a, rfl, (h.live a).mpr ⟨i, hi⟩⟩, trivial⟩, fun b => ?_, fun j k b hj hk => ?_⟩
    · by_cases hb : b = a
      · subst hb
        refine iff_of_false (by simp [released, apply]) ?_
        rintro ⟨j, hj⟩
        obtain ⟨hji, hj⟩ := hleft.mp hj
        exact hji (h.apart j i b hj hi)
      · rw [applyAll_released_of_ne fun hab => hb (Option.some.inj hab).symm, h.live]
        constructor
        · rintro ⟨j, hj⟩
          refine ⟨j, hleft.mpr ⟨?_, hj⟩⟩
          rintro rfl
          exact hb (Option.some.inj (hj.symm.trans hi))
        · rintro ⟨j, hj⟩
          exact ⟨j, (hleft.mp hj).2⟩
    · exact h.apart j k b (hleft.mp hj).2 (hleft.mp hk).2

omit [DecidableEq α] in
/-- A handle changes its place. -/
theorem Holding.move (h : Holding books held) {i j : η} (hempty : held j = none) (hij : i ≠ j) :
    Holding books (Function.update (Function.update held j (held i)) i none) := by
  have hheld (k : η) (a : α) :
      Function.update (Function.update held j (held i)) i none k = some a ↔
        (k = j ∧ held i = some a) ∨ (k ≠ i ∧ held k = some a) := by
    rw [update_eq_some_iff, update_eq_some_iff]
    constructor
    · rintro (⟨-, hnone⟩ | ⟨hki, ⟨hkj, hi⟩ | ⟨-, hk⟩⟩)
      · cases hnone
      · exact .inl ⟨hkj, hi⟩
      · exact .inr ⟨hki, hk⟩
    · rintro (⟨rfl, hi⟩ | ⟨hki, hk⟩)
      · exact .inr ⟨hij.symm, .inl ⟨rfl, hi⟩⟩
      · refine .inr ⟨hki, .inr ⟨?_, hk⟩⟩
        rintro rfl
        rw [hempty] at hk
        cases hk
  refine ⟨fun a => (h.live a).trans ⟨?_, ?_⟩, fun k l a hk hl => ?_⟩
  · rintro ⟨k, hk⟩
    by_cases hki : k = i
    · exact ⟨j, (hheld j a).mpr (.inl ⟨rfl, hki ▸ hk⟩)⟩
    · exact ⟨k, (hheld k a).mpr (.inr ⟨hki, hk⟩)⟩
  · rintro ⟨k, hk⟩
    rcases (hheld k a).mp hk with ⟨-, hi⟩ | ⟨-, hk⟩
    · exact ⟨i, hi⟩
    · exact ⟨k, hk⟩
  · rcases (hheld k a).mp hk with ⟨hkj, hi⟩ | ⟨hki, hk'⟩ <;>
      rcases (hheld l a).mp hl with ⟨hlj, hi'⟩ | ⟨hli, hl'⟩
    · exact hkj.trans hlj.symm
    · exact absurd (h.apart l i a hl' hi) hli
    · exact absurd (h.apart k i a hk' hi') hki
    · exact h.apart k l a hk' hl'

end Holders

section Runs

variable {σ ε ω : Type*} {step : Step σ ε ω} {books : σ → Books α} {note : σ → ε → List (Use α)}

/-- Books that every step brings up to date are up to date after a run. -/
theorem applyAll_noted (hbooks : ∀ s e, books (step s e).1 = applyAll (books s) (note s e)) (s : σ)
    (es : List ε) : applyAll (books s) (noted step note s es) = books (after step s es) := by
  induction es generalizing s with
  | nil => rfl
  | cons e es ih => rw [noted, applyAll_append, ← hbooks, ih, after_cons]

/-- The uses of a run are linear exactly when those of each of its steps are. -/
theorem linear_noted_iff (hbooks : ∀ s e, books (step s e).1 = applyAll (books s) (note s e)) (s : σ)
    (es : List ε) : Linear (books s) (noted step note s es) ↔
      Along step (fun s e => Linear (books s) (note s e)) s es := by
  induction es generalizing s with
  | nil => exact Iff.rfl
  | cons e es ih => rw [noted, linear_append, ← hbooks, ih, Along]

end Runs

end linear
