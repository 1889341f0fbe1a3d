import QtZeroConf.Library.Reactive

open reactive

namespace reentrant

variable {σ ω ζ κ ι α β : Type*}

/-- A part of a call: an action, or the attempt to close the table. -/
inductive Piece (σ ω κ : Type*) where
  | act (a : Action σ ω)
  | close (how : κ)

/-- How a call ends: it returns; or a loop goes on over a table that was cleared
    under it; or calls nest deeper than allowed. -/
inductive Outcome (α : Type*) where
  | returned (a : α)
  | cleared
  | unfinished

def Outcome.bind : Outcome α → (α → Outcome β) → Outcome β
  | returned a, f => f a
  | cleared, _ => cleared
  | unfinished, _ => unfinished

/-- The state, the outputs so far, and how often the table was cleared. -/
structure Run (σ ω : Type*) where
  state : σ
  outputs : List ω := []
  clears : Nat := 0

def Run.perform (r : Run σ ω) (a : Action σ ω) : Run σ ω :=
  { r with state := (a r.state).1, outputs := r.outputs ++ (a r.state).2 }

/-- A component that owns a table and closes it in three parts: it shuts what
    fills the table, tells its listeners of every entry that it goes, and
    clears. The listeners are called from the loop, and can call the
    component. -/
structure Component (σ ω ζ κ ι : Type*) where
  isOpen : σ → Bool
  entries : σ → List ζ
  shut : κ → Action σ ω
  removed : σ → ζ → ω
  removed? : ω → Option ζ
  clear : σ → Action σ ω
  call : ι → σ → List (Piece σ ω κ)

namespace Component

variable (C : Component σ ω ζ κ ι)

/-- The entries that the listeners have been told of, in order. -/
def told (r : Run σ ω) : List ζ := r.outputs.filterMap C.removed?

section

variable (close : κ → Run σ ω → Outcome (Run σ ω))

def pieces : List (Piece σ ω κ) → Run σ ω → Outcome (Run σ ω)
  | [], r => .returned r
  | .act a :: ps, r => pieces ps (r.perform a)
  | .close how :: ps, r => (close how r).bind (pieces ps)

def calls : List ι → Run σ ω → Outcome (Run σ ω)
  | [], r => .returned r
  | c :: cs, r => (pieces close (C.call c r.state) r).bind (calls cs)

/-- The loop over the entries. What the listeners call depends on all they have
    been told. The iterator does not survive that the table is cleared. -/
def loop (slots : List ζ → List ι) (clears : Nat) : List ζ → Run σ ω → Outcome (Run σ ω)
  | [], r => .returned r
  | z :: zs, r =>
    let r := r.perform fun s => (s, [C.removed s z])
    (C.calls close (slots (C.told r)) r).bind fun r => if r.clears = clears then loop slots clears zs r else .cleared

end

/-- Closing, with nested calls to a depth. -/
def close (slots : List ζ → List ι) : Nat → κ → Run σ ω → Outcome (Run σ ω)
  | 0, _, r => if C.isOpen r.state then .unfinished else .returned r
  | depth + 1, how, r =>
    if C.isOpen r.state then
      let shut := r.perform (C.shut how)
      (C.loop (close slots depth) slots r.clears (C.entries shut.state) shut).bind fun looped =>
        .returned { looped.perform (C.clear r.state) with clears := looped.clears + 1 }
    else .returned r

/-- Closing returns, never iterates a table that was cleared, and tells of every
    entry once. -/
def ClosesOnce (slots : List ζ → List ι) (how : κ) (s : σ) : Prop :=
  ∃ depth r, C.close slots depth how { state := s } = .returned r ∧
    C.told r = if C.isOpen s then C.entries s else []

section Plain

/-- What a call does, if it closes nothing that is open. -/
def plain : List (Piece σ ω κ) → Run σ ω → Option (Run σ ω)
  | [], r => some r
  | .act a :: ps, r => plain ps (r.perform a)
  | .close _ :: ps, r => (if C.isOpen r.state then none else some r).bind (plain ps)

def plainCalls : List ι → Run σ ω → Option (Run σ ω)
  | [], r => some r
  | c :: cs, r => (C.plain (C.call c r.state) r).bind (plainCalls cs)

def plainLoop (slots : List ζ → List ι) : List ζ → Run σ ω → Option (Run σ ω)
  | [], r => some r
  | z :: zs, r =>
    let r := r.perform fun s => (s, [C.removed s z])
    (C.plainCalls (slots (C.told r)) r).bind (plainLoop slots zs)

end Plain

end Component

/-- All that listeners call while they are told of the entries. -/
def allCalls (slots : List ζ → List ι) : List ζ → List ζ → List ι
  | _, [] => []
  | told, z :: zs => slots (told ++ [z]) ++ allCalls slots (told ++ [z]) zs

/-- Whether the table is open after calls, from what each call does to that;
    `none` where one closes it while it is open. -/
def track (opens : ι → Bool → Option Bool) (cs : List ι) (isOpen : Bool) : Option Bool :=
  cs.foldlM (fun isOpen c => opens c isOpen) isOpen

/-- A component whose calls open the table as `opens` says, and tell of no entry
    outside of the loop. -/
structure Tracks (C : Component σ ω ζ κ ι) (opens : ι → Bool → Option Bool) : Prop where
  shut : ∀ how s, C.isOpen (C.shut how s).1 = false
  entries : ∀ how s, C.entries (C.shut how s).1 = C.entries s
  removed : ∀ s z, C.removed? (C.removed s z) = some z
  silent_shut : ∀ how s, (C.shut how s).2.filterMap C.removed? = []
  silent_clear : ∀ opened s, (C.clear opened s).2.filterMap C.removed? = []
  silent_call : ∀ c s a, .act a ∈ C.call c s → ∀ t, (a t).2.filterMap C.removed? = []
  opened : ∀ c r, (C.plain (C.call c r.state) r).map (fun r => C.isOpen r.state) = opens c (C.isOpen r.state)

section Nesting

variable {C : Component σ ω ζ κ ι} {close : κ → Run σ ω → Outcome (Run σ ω)}

/-- A way to close that does nothing where nothing is open, and otherwise clears
    the table before it returns. -/
structure Guards (C : Component σ ω ζ κ ι) (close : κ → Run σ ω → Outcome (Run σ ω)) : Prop where
  closed : ∀ how r, C.isOpen r.state = false → close how r = .returned r
  opened : ∀ how r r', C.isOpen r.state = true → close how r = .returned r' → r.clears < r'.clears

/-- A call that closes nothing returns as it says; one that does returns with
    the table cleared, if at all. -/
def Agrees (clears : Nat) (p : Option (Run σ ω)) (o : Outcome (Run σ ω)) : Prop :=
  match p with
  | some r => o = .returned r ∧ r.clears = clears
  | none => ∀ r, o = .returned r → clears < r.clears

/-- A call that only ever adds to the number of clears. -/
def Adds (g : Run σ ω → Outcome (Run σ ω)) : Prop := ∀ r r', g r = .returned r' → r.clears ≤ r'.clears

/-- What agrees goes on to agree, as long as nothing was cleared on the way. -/
theorem Agrees.bind {clears : Nat} {p : Option (Run σ ω)} {o : Outcome (Run σ ω)} (h : Agrees clears p o)
    {f : Run σ ω → Option (Run σ ω)} {g : Run σ ω → Outcome (Run σ ω)}
    (hfg : ∀ r, r.clears = clears → Agrees clears (f r) (g r)) (hg : Adds g) :
    Agrees clears (p.bind f) (o.bind g) := by
  cases p with
  | some r =>
    obtain ⟨rfl, hclears⟩ := h
    exact hfg r hclears
  | none =>
    intro r' hr'
    cases o with
    | returned r =>
      have hbefore := h r rfl
      have hafter := hg r r' hr'
      omega
    | cleared => cases hr'
    | unfinished => cases hr'

/-- Clears are counted over both parts. -/
theorem Adds.bind {o : Outcome (Run σ ω)} {r r' : Run σ ω} {g : Run σ ω → Outcome (Run σ ω)}
    (ho : ∀ t, o = .returned t → r.clears ≤ t.clears) (hg : Adds g) (h : o.bind g = .returned r') :
    r.clears ≤ r'.clears := by
  cases o with
  | returned t =>
    have hbefore := ho t rfl
    have hafter := hg t r' h
    omega
  | cleared => cases h
  | unfinished => cases h

theorem Guards.adds (h : Guards C close) (how : κ) : Adds (close how) := by
  intro r r' hr'
  cases hopen : C.isOpen r.state with
  | true =>
    have hmore := h.opened how r r' hopen hr'
    omega
  | false =>
    rw [h.closed how r hopen] at hr'
    cases hr'
    exact Nat.le_refl _

/-- To close agrees with doing nothing where nothing is open, and clears
    otherwise. -/
theorem Guards.agrees (h : Guards C close) (how : κ) (r : Run σ ω) :
    Agrees r.clears (if C.isOpen r.state then none else some r) (close how r) := by
  cases hopen : C.isOpen r.state with
  | true => exact fun r' hr' => h.opened how r r' hopen hr'
  | false => exact ⟨h.closed how r hopen, rfl⟩

/-- The pieces of a body only add to the clears. -/
theorem adds_pieces (h : Guards C close) (ps : List (Piece σ ω κ)) : Adds (Component.pieces close ps) := by
  induction ps with
  | nil =>
    intro r r' hr'
    cases hr'
    exact Nat.le_refl _
  | cons p ps ih =>
    intro r r' hr'
    cases p with
    | act a =>
      have hrest := ih (r.perform a) r' hr'
      exact hrest
    | close how => exact Adds.bind (fun t ht => h.adds how r t ht) ih hr'

theorem adds_calls (h : Guards C close) (cs : List ι) : Adds (C.calls close cs) := by
  induction cs with
  | nil =>
    intro r r' hr'
    cases hr'
    exact Nat.le_refl _
  | cons c cs ih => exact fun r r' hr' => Adds.bind (fun t ht => adds_pieces h _ r t ht) ih hr'

/-- Without a clear, the pieces do what they say plainly. -/
theorem agrees_pieces (h : Guards C close) (ps : List (Piece σ ω κ)) (r : Run σ ω) :
    Agrees r.clears (C.plain ps r) (Component.pieces close ps r) := by
  induction ps generalizing r with
  | nil => exact ⟨rfl, rfl⟩
  | cons p ps ih =>
    cases p with
    | act a => exact ih (r.perform a)
    | close how => exact (h.agrees how r).bind (fun r' hr' => hr' ▸ ih r') (adds_pieces h ps)

/-- Without a clear, the calls of a slot do what they say plainly. -/
theorem agrees_calls (h : Guards C close) (cs : List ι) (r : Run σ ω) :
    Agrees r.clears (C.plainCalls cs r) (C.calls close cs r) := by
  induction cs generalizing r with
  | nil => exact ⟨rfl, rfl⟩
  | cons c cs ih => exact (agrees_pieces h _ r).bind (fun r' hr' => hr' ▸ ih r') (adds_calls h cs)

/-- The loop returns exactly where no listener closes the table. -/
theorem loop_eq (h : Guards C close) (slots : List ζ → List ι) (zs : List ζ) (r r' : Run σ ω) :
    C.loop close slots r.clears zs r = .returned r' ↔ C.plainLoop slots zs r = some r' := by
  induction zs generalizing r with
  | nil => simp [Component.loop, Component.plainLoop]
  | cons z zs ih =>
    have hcalls := agrees_calls h (slots (C.told (r.perform fun s => (s, [C.removed s z]))))
      (r.perform fun s => (s, [C.removed s z]))
    simp only [Component.loop, Component.plainLoop]
    cases hplain : C.plainCalls (slots (C.told (r.perform fun s => (s, [C.removed s z]))))
        (r.perform fun s => (s, [C.removed s z])) with
    | some t =>
      rw [hplain] at hcalls
      obtain ⟨hreturned, hclears⟩ := hcalls
      have hsame : t.clears = r.clears := hclears
      rw [hreturned, Outcome.bind, if_pos hsame, Option.bind_some, ← hsame]
      exact ih t
    | none =>
      rw [hplain] at hcalls
      refine iff_of_false ?_ (by simp)
      cases hreturned : C.calls close (slots (C.told (r.perform fun s => (s, [C.removed s z]))))
          (r.perform fun s => (s, [C.removed s z])) with
      | returned t =>
        have hmore : r.clears < t.clears := hcalls t hreturned
        rw [Outcome.bind, if_neg (by omega)]
        nofun
      | cleared => nofun
      | unfinished => nofun

/-- A loop that returns has seen no clear. -/
theorem loop_clears {slots : List ζ → List ι} {clears : Nat} {zs : List ζ} {r r' : Run σ ω}
    (hr : r.clears = clears) (h : C.loop close slots clears zs r = .returned r') : r'.clears = clears := by
  induction zs generalizing r with
  | nil =>
    cases h
    exact hr
  | cons z zs ih =>
    simp only [Component.loop] at h
    cases hcalls : C.calls close (slots (C.told (r.perform fun s => (s, [C.removed s z]))))
        (r.perform fun s => (s, [C.removed s z])) with
    | returned t =>
      rw [hcalls, Outcome.bind] at h
      split at h
      · rename_i ht
        exact ih ht h
      · cases h
    | cleared =>
      rw [hcalls] at h
      cases h
    | unfinished =>
      rw [hcalls] at h
      cases h

theorem close_of_open {slots : List ζ → List ι} {r : Run σ ω} (h : C.isOpen r.state = true) (depth : Nat)
    (how : κ) : C.close slots (depth + 1) how r =
      (C.loop (C.close slots depth) slots r.clears (C.entries (C.shut how r.state).1)
        (r.perform (C.shut how))).bind fun looped =>
          .returned { looped.perform (C.clear r.state) with clears := looped.clears + 1 } := by
  rw [Component.close, if_pos h]
  rfl

/-- The component guards itself to every depth of nesting. -/
theorem guards_close (C : Component σ ω ζ κ ι) (slots : List ζ → List ι) (depth : Nat) :
    Guards C (C.close slots depth) := by
  induction depth with
  | zero =>
    constructor
    · intro how r hclosed
      simp [Component.close, hclosed]
    · intro how r r' hopen h
      simp [Component.close, hopen] at h
  | succ depth _ =>
    constructor
    · intro how r hclosed
      simp [Component.close, hclosed]
    · intro how r r' hopen h
      rw [close_of_open hopen] at h
      cases hloop : C.loop (C.close slots depth) slots r.clears (C.entries (C.shut how r.state).1)
          (r.perform (C.shut how)) with
      | returned looped =>
        have hclears : looped.clears = r.clears := loop_clears (r := r.perform (C.shut how)) rfl hloop
        rw [hloop] at h
        cases h
        change r.clears < looped.clears + 1
        omega
      | cleared =>
        rw [hloop] at h
        cases h
      | unfinished =>
        rw [hloop] at h
        cases h

end Nesting

section Tracking

variable {C : Component σ ω ζ κ ι} {opens : ι → Bool → Option Bool} (h : Tracks C opens)
include h

/-- Plain calls open and close as they are counted. -/
theorem isOpen_plainCalls (cs : List ι) (r : Run σ ω) :
    (C.plainCalls cs r).map (fun r => C.isOpen r.state) = track opens cs (C.isOpen r.state) := by
  induction cs generalizing r with
  | nil => rfl
  | cons c cs ih =>
    have hopened := h.opened c r
    rw [track, List.foldlM_cons, ← hopened, Component.plainCalls]
    cases hplain : C.plain (C.call c r.state) r with
    | none => rfl
    | some t => exact ih t

omit h in
theorem told_perform {r : Run σ ω} {a : Action σ ω} (ha : (a r.state).2.filterMap C.removed? = []) :
    C.told (r.perform a) = C.told r := by
  simp [Component.told, Run.perform, ha]

omit h in
/-- Pieces that remove nothing tell nothing. -/
theorem told_plain {ps : List (Piece σ ω κ)}
    (hps : ∀ a, .act a ∈ ps → ∀ t, (a t).2.filterMap C.removed? = [])
    {r r' : Run σ ω} (hr' : C.plain ps r = some r') : C.told r' = C.told r := by
  induction ps generalizing r with
  | nil =>
    cases hr'
    rfl
  | cons p ps ih =>
    have hrest : ∀ a, .act a ∈ ps → ∀ t, (a t).2.filterMap C.removed? = [] :=
      fun a ha => hps a (List.mem_cons_of_mem _ ha)
    cases p with
    | act a => exact (ih hrest hr').trans (told_perform (hps a List.mem_cons_self r.state))
    | close how =>
      obtain ⟨t, ht, hr'⟩ := Option.bind_eq_some_iff.mp hr'
      split at ht
      · cases ht
      · cases ht
        exact ih hrest hr'

theorem told_plainCalls {cs : List ι} {r r' : Run σ ω} (hr' : C.plainCalls cs r = some r') :
    C.told r' = C.told r := by
  induction cs generalizing r with
  | nil =>
    cases hr'
    rfl
  | cons c cs ih =>
    obtain ⟨t, ht, hr'⟩ := Option.bind_eq_some_iff.mp hr'
    exact (ih hr').trans (told_plain (h.silent_call c r.state) ht)

/-- A removal is told behind all that was told before. -/
theorem told_removed (r : Run σ ω) (z : ζ) :
    C.told (r.perform fun s => (s, [C.removed s z])) = C.told r ++ [z] := by
  simp [Component.told, Run.perform, h.removed]

/-- A loop in which no listener closes the table tells of every entry. -/
theorem told_plainLoop {slots : List ζ → List ι} {zs : List ζ} {r r' : Run σ ω}
    (hr' : C.plainLoop slots zs r = some r') : C.told r' = C.told r ++ zs := by
  induction zs generalizing r with
  | nil =>
    cases hr'
    exact (List.append_nil _).symm
  | cons z zs ih =>
    obtain ⟨t, ht, hr'⟩ := Option.bind_eq_some_iff.mp hr'
    rw [ih hr', told_plainCalls h ht, told_removed h, List.append_assoc]
    rfl

/-- Whether a listener closes the table during the loop can be told from what
    they call. -/
theorem isOpen_plainLoop (slots : List ζ → List ι) (zs : List ζ) (r : Run σ ω) :
    (C.plainLoop slots zs r).map (fun r => C.isOpen r.state) =
      track opens (allCalls slots (C.told r) zs) (C.isOpen r.state) := by
  induction zs generalizing r with
  | nil => rfl
  | cons z zs ih =>
    have hcalls := isOpen_plainCalls h (slots (C.told r ++ [z])) (r.perform fun s => (s, [C.removed s z]))
    rw [allCalls, track, List.foldlM_append]
    simp only [Component.plainLoop, told_removed h]
    cases hplain : C.plainCalls (slots (C.told r ++ [z])) (r.perform fun s => (s, [C.removed s z])) with
    | none =>
      rw [hplain] at hcalls
      have hnone : track opens (slots (C.told r ++ [z])) (C.isOpen r.state) = none := hcalls.symm
      rw [track] at hnone
      rw [hnone]
      rfl
    | some t =>
      rw [hplain] at hcalls
      have hsome : track opens (slots (C.told r ++ [z])) (C.isOpen r.state) = some (C.isOpen t.state) := hcalls.symm
      rw [track] at hsome
      rw [hsome, ← told_removed h, ← told_plainCalls h hplain]
      exact ih t

/-- Closing returns exactly where no listener closes the table. -/
theorem close_eq {slots : List ζ → List ι} {depth : Nat} {how : κ} {s : σ} {r : Run σ ω}
    (hopen : C.isOpen s = true) :
    C.close slots (depth + 1) how { state := s } = .returned r ↔
      ∃ looped, C.plainLoop slots (C.entries s) (Run.perform { state := s } (C.shut how)) = some looped ∧
        r = { looped.perform (C.clear s) with clears := looped.clears + 1 } := by
  have hloop (looped : Run σ ω) :
      C.loop (C.close slots depth) slots 0 (C.entries s) (Run.perform { state := s } (C.shut how)) =
          .returned looped ↔
        C.plainLoop slots (C.entries s) (Run.perform { state := s } (C.shut how)) = some looped :=
    loop_eq (guards_close C slots depth) slots (C.entries s) (Run.perform { state := s } (C.shut how)) looped
  rw [close_of_open hopen, h.entries]
  constructor
  · intro hreturned
    cases hlooped : C.loop (C.close slots depth) slots 0 (C.entries s)
        (Run.perform { state := s } (C.shut how)) with
    | returned looped =>
      rw [hlooped] at hreturned
      cases hreturned
      exact ⟨looped, (hloop looped).mp hlooped, rfl⟩
    | cleared =>
      rw [hlooped] at hreturned
      cases hreturned
    | unfinished =>
      rw [hlooped] at hreturned
      cases hreturned
  · rintro ⟨looped, hlooped, rfl⟩
    rw [(hloop looped).mpr hlooped]
    rfl

/-- Closing is safe exactly when the listeners never close what they have opened
    while the loop runs. -/
theorem closesOnce_iff (slots : List ζ → List ι) (how : κ) (s : σ) :
    C.ClosesOnce slots how s ↔
      (C.isOpen s = true → (track opens (allCalls slots [] (C.entries s)) false).isSome) := by
  have htold : C.told (Run.perform { state := s } (C.shut how)) = [] := h.silent_shut how s
  have hshut : C.isOpen (Run.perform { state := s } (C.shut how)).state = false := h.shut how s
  have htrack := isOpen_plainLoop h slots (C.entries s) (Run.perform { state := s } (C.shut how))
  rw [htold, hshut] at htrack
  cases hopen : C.isOpen s with
  | false =>
    refine iff_of_true ⟨0, { state := s }, ?_, ?_⟩ nofun
    · simp [Component.close, hopen]
    · rw [if_neg (by simp [hopen])]
      rfl
  | true =>
    rw [← htrack, Option.isSome_map]
    constructor
    · rintro ⟨depth, r, hreturned, -⟩ -
      cases depth with
      | zero => simp [Component.close, hopen] at hreturned
      | succ depth =>
        obtain ⟨looped, hlooped, -⟩ := (close_eq h hopen).mp hreturned
        rw [hlooped]
        rfl
    · intro hsome
      obtain ⟨looped, hlooped⟩ := Option.isSome_iff_exists.mp (hsome rfl)
      refine ⟨1, _, (close_eq h hopen).mpr ⟨looped, hlooped, rfl⟩, ?_⟩
      rw [if_pos hopen, ← List.nil_append (C.entries s), ← htold, ← told_plainLoop h hlooped]
      exact told_perform (h.silent_clear s looped.state)

end Tracking

/-- Where the slots do nothing, the loop tells of each entry in turn. -/
theorem loop_silent (C : Component σ ω ζ κ ι) (close : κ → Run σ ω → Outcome (Run σ ω)) (zs : List ζ)
    (r : Run σ ω) :
    C.loop close (fun _ => []) r.clears zs r =
      .returned { r with outputs := r.outputs ++ zs.map (C.removed r.state) } := by
  induction zs generalizing r with
  | nil => simp [Component.loop]
  | cons z zs ih =>
    have hrest := ih (r.perform fun s => (s, [C.removed s z]))
    simp only [Component.loop, Component.calls, Outcome.bind]
    rw [if_pos (by rfl)]
    refine hrest.trans ?_
    simp [Run.perform]

/-- With listeners that call nothing, closing is one action. -/
theorem close_silent (C : Component σ ω ζ κ ι) (depth : Nat) (how : κ) {r : Run σ ω}
    (h : C.isOpen r.state = true) :
    C.close (fun _ => []) (depth + 1) how r = .returned
      { state := (C.clear r.state (C.shut how r.state).1).1
        outputs := r.outputs ++ ((C.shut how r.state).2 ++
          (C.entries (C.shut how r.state).1).map (C.removed (C.shut how r.state).1) ++
          (C.clear r.state (C.shut how r.state).1).2)
        clears := r.clears + 1 } := by
  have hloop : C.loop (C.close (fun _ => []) depth) (fun _ => []) r.clears (C.entries (C.shut how r.state).1)
      (r.perform (C.shut how)) = _ :=
    loop_silent C (C.close (fun _ => []) depth) (C.entries (C.shut how r.state).1) (r.perform (C.shut how))
  rw [close_of_open h, hloop]
  simp [Outcome.bind, Run.perform]

end reentrant
