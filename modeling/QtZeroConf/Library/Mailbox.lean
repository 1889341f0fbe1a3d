import QtZeroConf.Library.Reactive

open reactive

namespace mailbox

/-- A mailbox: everything that was ever sent to a receiver, and what of it still
    waits. -/
structure Mailbox (α : Type*) where
  sent : List α
  waiting : List α

/-- What can happen to a mailbox: besides posting and delivering in order, a
    message can be handed over directly, past what waits. -/
inductive Op (α : Type*) where
  | keep
  | post (message : α)
  | deliver
  | direct (message : α)

variable {α : Type*}

/-- The mailbox after an operation, and what the receiver gets. -/
def Op.apply (m : Mailbox α) : Op α → Mailbox α × List α
  | keep => (m, [])
  | post message => ({ sent := m.sent ++ [message], waiting := m.waiting ++ [message] }, [])
  | deliver =>
    match m.waiting with
    | [] => (m, [])
    | message :: rest => ({ m with waiting := rest }, [message])
  | direct message => ({ m with sent := m.sent ++ [message] }, [message])

/-- A message that is handed over directly overtakes nothing. -/
def Op.Orderly (m : Mailbox α) : Op α → Prop
  | direct _ => m.waiting = []
  | _ => True

/-- A message that is handed over directly is none of those that wait. -/
def Op.Fresh (m : Mailbox α) : Op α → Prop
  | direct message => message ∉ m.waiting
  | _ => True

/-- Only what was sent waits. -/
def Mailbox.Posted (m : Mailbox α) : Prop := ∀ message ∈ m.waiting, message ∈ m.sent

theorem Mailbox.Posted.apply {m : Mailbox α} (h : m.Posted) (op : Op α) : (op.apply m).1.Posted := by
  cases op with
  | keep => exact h
  | post message =>
    intro waiting hwaiting
    rcases List.mem_append.mp hwaiting with hold | hnew
    · exact List.mem_append_left _ (h waiting hold)
    · exact List.mem_append_right _ hnew
  | deliver =>
    cases hwaiting : m.waiting with
    | nil => simpa [Op.apply, hwaiting] using h
    | cons first rest =>
      intro message hmessage
      simp only [Op.apply, hwaiting] at hmessage ⊢
      exact h message (hwaiting ▸ List.mem_cons_of_mem first hmessage)
  | direct message => exact fun waiting hwaiting => List.mem_append_left _ (h waiting hwaiting)

/-- What was received, and then what waits, is what was sent. -/
def Accounted (received : List α) (m : Mailbox α) : Prop := received ++ m.waiting = m.sent

/-- What was received and what waits are what was sent, through every operation.
    -/
theorem Accounted.apply {received : List α} {m : Mailbox α} (h : Accounted received m) {op : Op α}
    (horderly : op.Orderly m) : Accounted (received ++ (op.apply m).2) (op.apply m).1 := by
  unfold Accounted at h ⊢
  cases op with
  | keep => simpa [Op.apply] using h
  | post message => simp [Op.apply, ← h]
  | deliver =>
    cases hwaiting : m.waiting with
    | nil => simpa [Op.apply, hwaiting] using h
    | cons message rest => simpa [Op.apply, hwaiting] using h
  | direct message =>
    have hwaiting : m.waiting = [] := horderly
    simp [Op.apply, hwaiting, ← h]

/-- A fresh message that is received in order has overtaken nothing. -/
theorem Accounted.orderly {received : List α} {m : Mailbox α} (h : Accounted received m) {op : Op α}
    (hfresh : op.Fresh m) (hordered : received ++ (op.apply m).2 <+: (op.apply m).1.sent) : op.Orderly m := by
  cases op with
  | direct message =>
    change received ++ [message] <+: m.sent ++ [message] at hordered
    rw [← h, List.append_assoc, List.prefix_append_right_inj] at hordered
    cases hwaiting : m.waiting with
    | nil => exact hwaiting
    | cons first rest =>
      rw [hwaiting, List.cons_append, List.cons_prefix_cons] at hordered
      exact absurd (by simp [hwaiting, hordered.1]) hfresh
  | _ => trivial

/-- What was received was sent first. -/
theorem Accounted.ordered {received : List α} {m : Mailbox α} (h : Accounted received m) :
    received <+: m.sent := ⟨m.waiting, h⟩

section Registers

variable {β : Type*} (write : α → Option β)

/-- The value of a register once the messages that wait are read, some of which
    write to it. -/
def settled (value : β) (waiting : List α) : β :=
  waiting.foldl (fun value message => (write message).getD value) value

@[simp] theorem settled_nil (value : β) : settled write value [] = value := rfl

@[simp] theorem settled_cons (value : β) (message : α) (waiting : List α) :
    settled write value (message :: waiting) = settled write ((write message).getD value) waiting := rfl

/-- Messages settle one after the other. -/
theorem settled_append (value : β) (waiting waiting' : List α) :
    settled write value (waiting ++ waiting') = settled write (settled write value waiting) waiting' :=
  List.foldl_append

end Registers

section Runs

variable {σ ε ω : Type*} {step : Step σ ε ω} {I : σ → Prop} {box : σ → Mailbox α}
  {message? : ω → Option α} {effect : σ → ε → Op α}

/-- A program moves a mailbox: in the states with an invariant every step does
    to it what its effect says. -/
structure Moves (step : Step σ ε ω) (I : σ → Prop) (box : σ → Mailbox α) (message? : ω → Option α)
    (effect : σ → ε → Op α) : Prop where
  invariant : ∀ s e, I s → I (step s e).1
  moved : ∀ s e, I s → box (step s e).1 = ((effect s e).apply (box s)).1
  received : ∀ s e, I s → (step s e).2.filterMap message? = ((effect s e).apply (box s)).2
  fresh : ∀ s e, I s → (effect s e).Fresh (box s)

variable (h : Moves step I box message? effect)
include h

/-- A run whose direct messages overtake nothing delivers everything in the
    order in which it was sent. -/
theorem Moves.accounted {received : List α} {s : σ} (hs : I s) (haccounted : Accounted received (box s))
    {es : List ε} (horderly : Along step (fun s e => (effect s e).Orderly (box s)) s es) :
    Accounted (received ++ (trace step s es).filterMap message?) (box (after step s es)) := by
  induction es generalizing s received with
  | nil => simpa using haccounted
  | cons e es ih =>
    have hnext := haccounted.apply horderly.1
    rw [← h.moved s e hs, ← h.received s e hs] at hnext
    have hrest := ih (h.invariant s e hs) hnext horderly.2
    rwa [List.append_assoc, ← List.filterMap_append, ← trace_cons] at hrest

/-- At every point of a run, what was received is the beginning of what was
    sent, exactly when no direct message overtakes one that waits. -/
theorem Moves.ordered_iff_along {received : List α} {s : σ} (hs : I s) (haccounted : Accounted received (box s))
    {es : List ε} :
    (∀ pre, pre <+: es → received ++ (trace step s pre).filterMap message? <+: (box (after step s pre)).sent) ↔
      Along step (fun s e => (effect s e).Orderly (box s)) s es := by
  constructor
  · intro hordered
    induction es generalizing s received with
    | nil => trivial
    | cons e es ih =>
      have hfirst := hordered [e] (List.cons_prefix_cons.mpr ⟨rfl, List.nil_prefix⟩)
      rw [trace_cons, trace_nil, List.append_nil, after_cons, after_nil, h.received s e hs, h.moved s e hs] at hfirst
      have horderly := haccounted.orderly (h.fresh s e hs) hfirst
      have hnext := haccounted.apply horderly
      rw [← h.moved s e hs, ← h.received s e hs] at hnext
      refine ⟨horderly, ih (h.invariant s e hs) hnext fun pre hpre => ?_⟩
      have hlong := hordered (e :: pre) (List.cons_prefix_cons.mpr ⟨rfl, hpre⟩)
      rwa [trace_cons, List.filterMap_append, ← List.append_assoc] at hlong
  · rintro horderly pre ⟨rest, rfl⟩
    exact (h.accounted hs haccounted (along_append.mp horderly).1).ordered

end Runs

end mailbox
