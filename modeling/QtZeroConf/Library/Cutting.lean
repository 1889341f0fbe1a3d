import Mathlib.Data.List.Basic

namespace cutting

variable {α β : Type}

/-- A text taken apart from its front until nothing is left of it. -/
inductive Parts (cut : List β → Option (α × List β)) : List β → List α → Prop
  | nil : Parts cut [] []
  | cons {text rest : List β} {part : α} {parts : List α} :
      text ≠ [] → cut text = some (part, rest) → Parts cut rest parts → Parts cut text (part :: parts)

/-- A cut that leaves less than it was given. -/
def Shrinks (cut : List β → Option (α × List β)) : Prop :=
  ∀ {text rest : List β} {part : α}, text ≠ [] → cut text = some (part, rest) → rest.length < text.length

/-- The parts of a text, for a number of turns. -/
def parts (cut : List β → Option (α × List β)) : Nat → List β → Option (List α)
  | _, [] => some []
  | 0, _ :: _ => none
  | turns + 1, b :: text => do
    let (part, rest) ← cut (b :: text)
    let tail ← parts cut turns rest
    return part :: tail

variable {cut : List β → Option (α × List β)}

theorem Parts.eq_nil {ps : List α} (h : Parts cut [] ps) : ps = [] := by
  cases h with
  | nil => rfl
  | cons hne => exact absurd rfl hne

/-- What is behind the first part of a text. -/
theorem Parts.uncons {b : β} {text : List β} {ps : List α} (h : Parts cut (b :: text) ps) :
    ∃ part rest tail, ps = part :: tail ∧ cut (b :: text) = some (part, rest) ∧ Parts cut rest tail := by
  cases h with
  | cons _ hcut htail => exact ⟨_, _, _, rfl, hcut, htail⟩

/-- A text has no parts but its own. -/
theorem Parts.unique {text : List β} {ps qs : List α} (hp : Parts cut text ps) (hq : Parts cut text qs) :
    ps = qs := by
  induction hp generalizing qs with
  | nil => exact hq.eq_nil.symm
  | cons hne hcut _ ih =>
    cases hq with
    | nil => exact absurd rfl hne
    | cons _ hcut' htail =>
      rw [hcut, Option.some.injEq, Prod.mk.injEq] at hcut'
      obtain ⟨rfl, rfl⟩ := hcut'
      rw [ih htail]

/-- What the turns find are the parts of the text. -/
theorem parts_sound (turns : Nat) {text : List β} {ps : List α} (h : parts cut turns text = some ps) :
    Parts cut text ps := by
  induction turns generalizing text ps with
  | zero =>
    cases text with
    | nil => cases h; exact .nil
    | cons b text => cases h
  | succ turns ih =>
    cases text with
    | nil => cases h; exact .nil
    | cons b text =>
      simp only [parts, Option.bind_eq_bind, Option.bind_eq_some_iff, Option.pure_def, Option.some.injEq] at h
      obtain ⟨⟨part, rest⟩, hcut, tail, htail, rfl⟩ := h
      exact .cons (List.cons_ne_nil b text) hcut (ih htail)

/-- A property of every part, from one for what a cut yields. -/
theorem Parts.all {text : List β} {ps : List α} (Inside : List β → Prop) {P : α → Prop}
    (hstep : ∀ text part rest, Inside text → cut text = some (part, rest) → P part ∧ Inside rest)
    (h : Parts cut text ps) (hinside : Inside text) : ∀ p ∈ ps, P p := by
  induction h with
  | nil => nofun
  | cons _ hcut _ ih =>
    obtain ⟨hpart, hrest⟩ := hstep _ _ _ hinside hcut
    exact List.forall_mem_cons.mpr ⟨hpart, ih hrest⟩

end cutting
