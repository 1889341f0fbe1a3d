import Mathlib.Data.List.Basic

namespace handles

variable {ο : Type*} [DecidableEq ο]

/-- What a call does to the objects that a library holds for its callers. -/
inductive Effect (ο : Type*) where
  | register (o : ο)
  | release (o : ο)

/-- The object an effect is about. -/
def Effect.object : Effect ο → ο
  | register o | release o => o

/-- The objects that are held after an effect. -/
def apply (held : List ο) : Effect ο → List ο
  | .register o => o :: held
  | .release o => held.filter (· ≠ o)

/-- The objects that are held after a sequence of effects. -/
def applyAll (held : List ο) (effects : List (Effect ο)) : List ο := effects.foldl apply held

@[simp] theorem applyAll_nil (held : List ο) : applyAll held [] = held := rfl

@[simp] theorem applyAll_cons (held : List ο) (e : Effect ο) (effects : List (Effect ο)) :
    applyAll held (e :: effects) = applyAll (apply held e) effects := rfl

theorem applyAll_append (held : List ο) (effects effects' : List (Effect ο)) :
    applyAll held (effects ++ effects') = applyAll (applyAll held effects) effects' :=
  List.foldl_append

@[simp] theorem mem_apply_register {held : List ο} {o o' : ο} :
    o' ∈ apply held (.register o) ↔ o' = o ∨ o' ∈ held := List.mem_cons

@[simp] theorem mem_apply_release {held : List ο} {o o' : ο} :
    o' ∈ apply held (.release o) ↔ o' ∈ held ∧ o' ≠ o := by
  simp [apply]

/-- Effects on other objects leave an object alone. -/
theorem mem_applyAll_of_untouched {held : List ο} {effects : List (Effect ο)} {o : ο}
    (h : ∀ e ∈ effects, e.object ≠ o) : o ∈ applyAll held effects ↔ o ∈ held := by
  induction effects generalizing held with
  | nil => exact Iff.rfl
  | cons e effects ih =>
    have hne := Ne.symm (h e List.mem_cons_self)
    rw [applyAll_cons, ih fun e' he' => h e' (List.mem_cons_of_mem _ he')]
    cases e with
    | register o' => exact mem_apply_register.trans (or_iff_right hne)
    | release o' => exact mem_apply_release.trans (and_iff_left hne)

/-- A sequence of releases leaves what it does not name. -/
theorem mem_applyAll_releases {held os : List ο} {o : ο} :
    o ∈ applyAll held (os.map .release) ↔ o ∈ held ∧ o ∉ os := by
  induction os generalizing held with
  | nil => simp
  | cons o' os ih =>
    rw [List.map_cons, applyAll_cons, ih, mem_apply_release, List.mem_cons, not_or, and_assoc]

end handles
