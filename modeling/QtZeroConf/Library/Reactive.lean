import Mathlib.Data.List.Basic

namespace reactive

variable {σ ε ω : Type*}

/-- One turn of an event-driven program: the next state, and what was emitted
    on the way. -/
abbrev Action (σ ω : Type*) := σ → σ × List ω

/-- A program that answers every event with an action. -/
abbrev Step (σ ε ω : Type*) := σ → ε → σ × List ω

namespace Action

/-- The action that changes nothing and emits nothing. -/
def skip : Action σ ω := fun s => (s, [])

/-- A silent change of the state. -/
def update (f : σ → σ) : Action σ ω := fun s => (f s, [])

/-- Emission of one output. -/
def emit (o : ω) : Action σ ω := fun s => (s, [o])

/-- Two actions in sequence, the second from the state the first one left. -/
def andThen (f g : Action σ ω) : Action σ ω := fun s =>
  ((g (f s).1).1, (f s).2 ++ (g (f s).1).2)

@[simp] theorem skip_apply (s : σ) : skip (ω := ω) s = (s, []) := rfl

@[simp] theorem update_apply (f : σ → σ) (s : σ) : update (ω := ω) f s = (f s, []) := rfl

@[simp] theorem emit_apply (o : ω) (s : σ) : emit o s = (s, [o]) := rfl

@[simp] theorem andThen_fst (f g : Action σ ω) (s : σ) :
    (andThen f g s).1 = (g (f s).1).1 := rfl

@[simp] theorem andThen_snd (f g : Action σ ω) (s : σ) :
    (andThen f g s).2 = (f s).2 ++ (g (f s).1).2 := rfl

/-- A loop over a fixed list of items, one action for each. -/
def forEach {ι : Type*} (body : ι → Action σ ω) : List ι → Action σ ω
  | [] => skip
  | i :: is => andThen (body i) (forEach body is)

@[simp] theorem forEach_nil {ι : Type*} (body : ι → Action σ ω) (s : σ) :
    forEach body [] s = (s, []) := rfl

@[simp] theorem forEach_cons {ι : Type*} (body : ι → Action σ ω) (i : ι) (is : List ι) :
    forEach body (i :: is) = andThen (body i) (forEach body is) := rfl

theorem forEach_append {ι : Type*} (body : ι → Action σ ω) (is js : List ι) :
    forEach body (is ++ js) = andThen (forEach body is) (forEach body js) := by
  induction is with
  | nil => rfl
  | cons i is ih =>
    rw [List.cons_append, forEach_cons, ih]
    funext s
    simp [andThen, List.append_assoc]

/-- An action whose states are related by `R` and that emits `Q` only. -/
def Within (R : σ → σ → Prop) (Q : ω → Prop) (a : Action σ ω) : Prop :=
  ∀ s, R s (a s).1 ∧ ∀ o ∈ (a s).2, Q o

section Within

variable {R : σ → σ → Prop} {Q : ω → Prop}

theorem within_skip (hrefl : ∀ s, R s s) : Within R Q skip :=
  fun s => ⟨hrefl s, by simp⟩

theorem within_update {f : σ → σ} (hf : ∀ s, R s (f s)) : Within R Q (update f) :=
  fun s => ⟨hf s, by simp⟩

theorem within_emit (hrefl : ∀ s, R s s) {o : ω} (ho : Q o) : Within R Q (emit o) :=
  fun s => ⟨hrefl s, by simpa using ho⟩

/-- A relation that is transitive is kept by two actions in turn. -/
theorem within_andThen (htrans : ∀ s t u, R s t → R t u → R s u) {a b : Action σ ω}
    (ha : Within R Q a) (hb : Within R Q b) : Within R Q (andThen a b) := by
  intro s
  refine ⟨htrans _ _ _ (ha s).1 (hb (a s).1).1, fun o ho => ?_⟩
  rcases List.mem_append.mp ho with ho | ho
  · exact (ha s).2 o ho
  · exact (hb (a s).1).2 o ho

/-- A loop stays within what each of its turns stays within. -/
theorem within_forEach (hrefl : ∀ s, R s s) (htrans : ∀ s t u, R s t → R t u → R s u)
    {ι : Type*} {body : ι → Action σ ω} (hbody : ∀ i, Within R Q (body i)) (is : List ι) :
    Within R Q (forEach body is) := by
  induction is with
  | nil => exact within_skip hrefl
  | cons i is ih => exact within_andThen htrans (hbody i) ih

end Within

end Action

/-- The state a run of events leads to. -/
def after (step : Step σ ε ω) : σ → List ε → σ
  | s, [] => s
  | s, e :: es => after step (step s e).1 es

/-- Everything a run of events emits, in order. -/
def trace (step : Step σ ε ω) : σ → List ε → List ω
  | _, [] => []
  | s, e :: es => (step s e).2 ++ trace step (step s e).1 es

/-- Everything an observer notes of the steps of a run, in order. -/
def noted {α : Type*} (step : Step σ ε ω) (note : σ → ε → List α) : σ → List ε → List α
  | _, [] => []
  | s, e :: es => note s e ++ noted step note (step s e).1 es

/-- `P` holds of every step of the run, as a relation between the state the
    step starts from and its event. -/
def Along (step : Step σ ε ω) (P : σ → ε → Prop) : σ → List ε → Prop
  | _, [] => True
  | s, e :: es => P s e ∧ Along step P (step s e).1 es

/-- `Q` holds in every state the run visits, the first and the last included. -/
def Throughout (step : Step σ ε ω) (Q : σ → Prop) : σ → List ε → Prop
  | s, [] => Q s
  | s, e :: es => Q s ∧ Throughout step Q (step s e).1 es

variable {step : Step σ ε ω}

@[simp] theorem after_nil (s : σ) : after step s [] = s := rfl

@[simp] theorem after_cons (s : σ) (e : ε) (es : List ε) :
    after step s (e :: es) = after step (step s e).1 es := rfl

@[simp] theorem trace_nil (s : σ) : trace step s [] = [] := rfl

@[simp] theorem trace_cons (s : σ) (e : ε) (es : List ε) :
    trace step s (e :: es) = (step s e).2 ++ trace step (step s e).1 es := rfl

/-- A run may be cut anywhere. -/
theorem after_append (s : σ) (es fs : List ε) :
    after step s (es ++ fs) = after step (after step s es) fs := by
  induction es generalizing s with
  | nil => rfl
  | cons e es ih => exact ih (step s e).1

/-- So may what it puts out. -/
theorem trace_append (s : σ) (es fs : List ε) :
    trace step s (es ++ fs) = trace step s es ++ trace step (after step s es) fs := by
  induction es generalizing s with
  | nil => rfl
  | cons e es ih => simp only [List.cons_append, trace_cons, after_cons, ih, List.append_assoc]

theorem noted_append {α : Type*} {note : σ → ε → List α} (s : σ) (es fs : List ε) :
    noted step note s (es ++ fs) = noted step note s es ++ noted step note (after step s es) fs := by
  induction es generalizing s with
  | nil => rfl
  | cons e es ih => simp only [List.cons_append, noted, after_cons, ih, List.append_assoc]

/-- A condition on steps holds of both parts of a run. -/
theorem along_append {P : σ → ε → Prop} {s : σ} {es fs : List ε} :
    Along step P s (es ++ fs) ↔ Along step P s es ∧ Along step P (after step s es) fs := by
  induction es generalizing s with
  | nil => exact ⟨fun h => ⟨trivial, h⟩, fun h => h.2⟩
  | cons e es ih =>
    constructor
    · rintro ⟨he, hrest⟩
      obtain ⟨hes, hfs⟩ := ih.mp hrest
      exact ⟨⟨he, hes⟩, hfs⟩
    · rintro ⟨⟨he, hes⟩, hfs⟩
      exact ⟨he, ih.mpr ⟨hes, hfs⟩⟩

/-- Two conditions on the steps of a run. -/
theorem along_and {P P' : σ → ε → Prop} {s : σ} {es : List ε} :
    Along step (fun s e => P s e ∧ P' s e) s es ↔ Along step P s es ∧ Along step P' s es := by
  induction es generalizing s with
  | nil => exact ⟨fun h => ⟨h, h⟩, fun h => h.1⟩
  | cons e es ih => simp only [Along, ih, and_and_and_comm]

/-- A step property holds along a run exactly when it holds wherever the run is
    cut before a step. -/
theorem along_iff_split {P : σ → ε → Prop} {s : σ} {es : List ε} :
    Along step P s es ↔ ∀ pre e post, es = pre ++ e :: post → P (after step s pre) e := by
  constructor
  · rintro h pre e post rfl
    exact (along_append.mp h).2.1
  · intro h
    induction es generalizing s with
    | nil => trivial
    | cons e es ih =>
      refine ⟨h [] e es rfl, ih fun pre e' post hsplit => ?_⟩
      exact h (e :: pre) e' post (congrArg (e :: ·) hsplit)

/-- An invariant of every step holds after every run. -/
theorem after_invariant {I : σ → Prop} (hstep : ∀ s e, I s → I (step s e).1)
    {s : σ} (hs : I s) (es : List ε) : I (after step s es) := by
  induction es generalizing s with
  | nil => exact hs
  | cons e es ih => exact ih (hstep s e hs)

theorem Throughout.last {Q : σ → Prop} {s : σ} {es : List ε} (h : Throughout step Q s es) :
    Q (after step s es) := by
  induction es generalizing s with
  | nil => exact h
  | cons e es ih => exact ih h.2

/-- What follows for every event in the states with a property holds along the
    runs that keep the property. -/
theorem Throughout.along {Q : σ → Prop} {P : σ → ε → Prop} (hP : ∀ s e, Q s → P s e)
    {s : σ} {es : List ε} (h : Throughout step Q s es) : Along step P s es := by
  induction es generalizing s with
  | nil => trivial
  | cons e es ih => exact ⟨hP s e h.1, ih h.2⟩

/-- A property holds in every state a run visits exactly when it holds after
    every prefix of the run. -/
theorem throughout_iff_prefix {Q : σ → Prop} {s : σ} {es : List ε} :
    Throughout step Q s es ↔ ∀ pre, pre <+: es → Q (after step s pre) := by
  induction es generalizing s with
  | nil =>
    constructor
    · intro h pre hpre
      rw [List.prefix_nil.mp hpre]
      exact h
    · intro h
      exact h [] List.prefix_rfl
  | cons e es ih =>
    constructor
    · rintro ⟨hfirst, hrest⟩ pre hpre
      rcases List.prefix_cons_iff.mp hpre with rfl | ⟨rest, rfl, hrest'⟩
      · exact hfirst
      · exact ih.mp hrest rest hrest'
    · intro h
      refine ⟨h [] List.nil_prefix, ih.mpr fun pre hpre => ?_⟩
      exact h (e :: pre) (List.cons_prefix_cons.mpr ⟨rfl, hpre⟩)

/-- The step rule for conditional properties: when, from states that satisfy
    the invariant and the property, a step keeps the property exactly under
    its condition, a run keeps the property in every state exactly when all of
    its steps meet the condition. -/
theorem throughout_iff_along {I Q : σ → Prop} {P : σ → ε → Prop}
    (hinv : ∀ s e, I s → I (step s e).1)
    (hstep : ∀ s e, I s → Q s → (Q (step s e).1 ↔ P s e))
    {s : σ} (hs : I s) (hq : Q s) (es : List ε) :
    Throughout step Q s es ↔ Along step P s es := by
  induction es generalizing s with
  | nil => exact ⟨fun _ => trivial, fun _ => hq⟩
  | cons e es ih =>
    constructor
    · rintro ⟨_, hrest⟩
      have hnext : Q (step s e).1 := by
        cases es with
        | nil => exact hrest
        | cons => exact hrest.1
      exact ⟨(hstep s e hs hq).mp hnext, (ih (hinv s e hs) hnext).mp hrest⟩
    · rintro ⟨hp, hrest⟩
      have hnext := (hstep s e hs hq).mpr hp
      exact ⟨hq, (ih (hinv s e hs) hnext).mpr hrest⟩

/-- Two step properties that agree on every step an invariant allows agree
    along every run; the steps that have the property need to keep the
    invariant. -/
theorem along_congr {I : σ → Prop} {P P' : σ → ε → Prop}
    (hinv : ∀ s e, I s → P s e → I (step s e).1) (h : ∀ s e, I s → (P s e ↔ P' s e))
    {s : σ} (hs : I s) (es : List ε) : Along step P s es ↔ Along step P' s es := by
  induction es generalizing s with
  | nil => exact Iff.rfl
  | cons e es ih =>
    constructor
    · rintro ⟨he, hes⟩
      exact ⟨(h s e hs).mp he, (ih (hinv s e hs he)).mp hes⟩
    · rintro ⟨he, hes⟩
      have hp := (h s e hs).mpr he
      exact ⟨hp, (ih (hinv s e hs hp)).mpr hes⟩

/-- What holds of every step and in every state, step by step. -/
theorem along_and_throughout_iff {A : σ → ε → Prop} {Q : σ → Prop} {s : σ} (hq : Q s) (es : List ε) :
    Along step A s es ∧ Throughout step Q s es ↔ Along step (fun s e => A s e ∧ Q (step s e).1) s es := by
  induction es generalizing s with
  | nil => exact ⟨fun _ => trivial, fun _ => ⟨trivial, hq⟩⟩
  | cons e es ih =>
    constructor
    · rintro ⟨⟨ha, hes⟩, -, hstates⟩
      have hnext : Q (step s e).1 := by
        cases es with
        | nil => exact hstates
        | cons => exact hstates.1
      exact ⟨⟨ha, hnext⟩, (ih hnext).mp ⟨hes, hstates⟩⟩
    · rintro ⟨⟨ha, hnext⟩, hes⟩
      obtain ⟨hsteps, hstates⟩ := (ih hnext).mpr hes
      exact ⟨⟨ha, hsteps⟩, hq, hstates⟩

/-- A step property that follows from another one, under an invariant of the
    steps that meet it, holds along every run that meets it. -/
theorem along_mono {I : σ → Prop} {P P' : σ → ε → Prop}
    (hinv : ∀ s e, I s → P s e → I (step s e).1) (h : ∀ s e, I s → P s e → P' s e)
    {s : σ} (hs : I s) {es : List ε} (hes : Along step P s es) : Along step P' s es := by
  induction es generalizing s with
  | nil => trivial
  | cons e es ih => exact ⟨h s e hs hes.1, ih (hinv s e hs hes.1) hes.2⟩

/-- An invariant of the steps that meet a condition holds after every run that
    meets it. -/
theorem Along.after {I : σ → Prop} {P : σ → ε → Prop} (hinv : ∀ s e, I s → P s e → I (step s e).1)
    {s : σ} {es : List ε} (hes : Along step P s es) (hs : I s) : I (after step s es) := by
  induction es generalizing s with
  | nil => exact hs
  | cons e es ih => exact ih hes.2 (hinv s e hs hes.1)

/-- A step property that follows, under an invariant, for every event of the
    run holds along the run. -/
theorem along_of_invariant {I : σ → Prop} {P : σ → ε → Prop} {es : List ε}
    (hinv : ∀ s, ∀ e ∈ es, I s → I (step s e).1) (h : ∀ s, ∀ e ∈ es, I s → P s e)
    {s : σ} (hs : I s) : Along step P s es := by
  induction es generalizing s with
  | nil => trivial
  | cons e es ih =>
    refine ⟨h s e List.mem_cons_self hs, ?_⟩
    exact ih (fun s f hf => hinv s f (List.mem_cons_of_mem _ hf))
      (fun s f hf => h s f (List.mem_cons_of_mem _ hf)) (hinv s e List.mem_cons_self hs)

end reactive
