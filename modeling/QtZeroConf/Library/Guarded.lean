import Mathlib.Logic.Basic

namespace guarded

variable {ε α β : Type}

/-- A computation that fails only with what is `fine`, and whose result has a
    property otherwise. -/
def Guarded (fine : ε → Prop) (post : α → Prop) : Except ε α → Prop
  | .ok a => post a
  | .error e => fine e

variable {fine : ε → Prop} {post : α → Prop}

theorem Guarded.pure {a : α} (h : post a) : Guarded fine post (Pure.pure a) := h

theorem Guarded.error {e : ε} (h : fine e) : Guarded fine post (.error e : Except ε α) := h

/-- What the first computation establishes is there for the second. -/
theorem Guarded.bind {x : Except ε α} {f : α → Except ε β} {post' : β → Prop} (hx : Guarded fine post x)
    (hf : ∀ a, post a → Guarded fine post' (f a)) : Guarded fine post' (x >>= f) := by
  cases x with
  | ok a => exact hf a hx
  | error e => exact hx

theorem Guarded.ite {c : Prop} [Decidable c] {x y : Except ε α} (hx : c → Guarded fine post x)
    (hy : ¬ c → Guarded fine post y) : Guarded fine post (if c then x else y) := by
  by_cases h : c
  · rw [if_pos h]
    exact hx h
  · rw [if_neg h]
    exact hy h

/-- Of two steps that succeed, each has succeeded. -/
theorem bind_eq_ok {ε α β : Type} {x : Except ε α} {f : α → Except ε β} {b : β} (h : x >>= f = .ok b) :
    ∃ a, x = .ok a ∧ f a = .ok b := by
  cases x with
  | error e => cases h
  | ok a => exact ⟨a, rfl, h⟩

end guarded
