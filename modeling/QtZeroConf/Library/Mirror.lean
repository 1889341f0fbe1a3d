import Mathlib.Logic.Function.Basic
import QtZeroConf.Library.Reactive
import Std.Data.ExtTreeMap.Lemmas

open reactive

namespace mirror

variable {κ β : Type*}

/-- What a table tells its observers about one entry. -/
inductive Notice (κ β : Type*) where
  | added (k : κ) (b : β)
  | updated (k : κ) (b : β)
  | removed (k : κ) (b : β)

/-- The entries of a table as an observer knows them. -/
abbrev View (κ β : Type*) := κ → Option β

def empty : View κ β := fun _ => none

namespace Notice

def key : Notice κ β → κ
  | added k _ | updated k _ | removed k _ => k

/-- A notice makes sense to an observer: what is added was absent, what is
    removed is the very entry that was there, and what is updated was there as
    an entry that the new one may replace. -/
def Expected (may : β → β → Prop) (view : View κ β) : Notice κ β → Prop
  | added k _ => view k = none
  | updated k b => ∃ old, view k = some old ∧ may old b
  | removed k b => view k = some b

variable [DecidableEq κ]

/-- What an observer knows after a notice. -/
def apply (view : View κ β) : Notice κ β → View κ β
  | added k b | updated k b => Function.update view k (some b)
  | removed k _ => Function.update view k none

end Notice

/-- The notices about one key form a prefix of `(added updated* removed)*`,
    from a state where the entry is there or not. -/
def Alternating : Bool → List (Notice κ β) → Prop
  | _, [] => True
  | false, .added _ _ :: ns => Alternating true ns
  | true, .updated _ _ :: ns => Alternating true ns
  | true, .removed _ _ :: ns => Alternating false ns
  | _, _ => False

variable [DecidableEq κ]

/-- What an observer knows after a sequence of notices. -/
def replay (view : View κ β) (notices : List (Notice κ β)) : View κ β := notices.foldl Notice.apply view

/-- Every notice makes sense to an observer who has seen all before it. -/
def Coherent (may : β → β → Prop) : View κ β → List (Notice κ β) → Prop
  | _, [] => True
  | view, n :: ns => n.Expected may view ∧ Coherent may (n.apply view) ns

/-- A coherent sequence of notices that leads from one view to another. -/
structure Mirrors (may : β → β → Prop) (view : View κ β) (notices : List (Notice κ β)) (view' : View κ β) :
    Prop where
  coherent : Coherent may view notices
  replayed : replay view notices = view'

variable {may : β → β → Prop} {view view' view'' : View κ β}

@[simp] theorem replay_nil : replay view [] = view := rfl

@[simp] theorem replay_cons (n : Notice κ β) (ns : List (Notice κ β)) :
    replay view (n :: ns) = replay (n.apply view) ns := rfl

theorem replay_append (ns ns' : List (Notice κ β)) :
    replay view (ns ++ ns') = replay (replay view ns) ns' := List.foldl_append

theorem coherent_append {ns ns' : List (Notice κ β)} :
    Coherent may view (ns ++ ns') ↔ Coherent may view ns ∧ Coherent may (replay view ns) ns' := by
  induction ns generalizing view with
  | nil => exact ⟨fun h => ⟨trivial, h⟩, fun h => h.2⟩
  | cons n ns ih =>
    constructor
    · rintro ⟨hn, hrest⟩
      obtain ⟨hns, hns'⟩ := ih.mp hrest
      exact ⟨⟨hn, hns⟩, hns'⟩
    · rintro ⟨⟨hn, hns⟩, hns'⟩
      exact ⟨hn, ih.mpr ⟨hns, hns'⟩⟩

theorem mirrors_nil : Mirrors may view [] view := ⟨trivial, rfl⟩

theorem mirrors_single {n : Notice κ β} (h : n.Expected may view) : Mirrors may view [n] (n.apply view) :=
  ⟨⟨h, trivial⟩, rfl⟩

/-- After a sequence that mirrors, a longer one mirrors exactly when the rest
    does. -/
theorem Mirrors.append_iff {ns ns' : List (Notice κ β)} (h : Mirrors may view ns view') :
    Mirrors may view (ns ++ ns') view'' ↔ Mirrors may view' ns' view'' := by
  obtain ⟨hcoherent, rfl⟩ := h
  constructor
  · rintro ⟨hcoherent', hreplayed⟩
    exact ⟨(coherent_append.mp hcoherent').2, (replay_append ns ns').symm.trans hreplayed⟩
  · rintro ⟨hcoherent', hreplayed⟩
    exact ⟨coherent_append.mpr ⟨hcoherent, hcoherent'⟩, (replay_append ns ns').trans hreplayed⟩

theorem Mirrors.append {ns ns' : List (Notice κ β)} (h : Mirrors may view ns view')
    (h' : Mirrors may view' ns' view'') : Mirrors may view (ns ++ ns') view'' :=
  h.append_iff.mpr h'

/-- A notice leaves the other keys alone. -/
theorem apply_of_ne {n : Notice κ β} {k : κ} (h : n.key ≠ k) : n.apply view k = view k := by
  cases n <;> exact Function.update_of_ne (Ne.symm h) _ _

/-- The notices about one key alternate as the life of an entry does. -/
theorem Coherent.alternating {ns : List (Notice κ β)} (h : Coherent may view ns) (k : κ) :
    Alternating (view k).isSome (ns.filter fun n => n.key = k) := by
  induction ns generalizing view with
  | nil => trivial
  | cons n ns ih =>
    obtain ⟨hexpected, hrest⟩ := h
    have hns := ih hrest
    by_cases hk : n.key = k
    · rw [List.filter_cons_of_pos (by simpa using hk)]
      subst hk
      cases n with
      | added k b =>
        have habsent : view k = none := hexpected
        rw [Notice.apply, Notice.key, Function.update_self] at hns
        rw [Notice.key, habsent]
        exact hns
      | updated k b =>
        obtain ⟨old, hold, _⟩ := hexpected
        rw [Notice.apply, Notice.key, Function.update_self] at hns
        rw [Notice.key, hold]
        exact hns
      | removed k b =>
        have hpresent : view k = some b := hexpected
        rw [Notice.apply, Notice.key, Function.update_self] at hns
        rw [Notice.key, hpresent]
        exact hns
    · rw [List.filter_cons_of_neg (by simpa using hk)]
      rwa [apply_of_ne hk] at hns

/-- Notices that remove a list of entries, each of which is there once. -/
theorem mirrors_removed {entries : List (κ × β)} (hdistinct : entries.Pairwise fun e e' => e.1 ≠ e'.1)
    (hpresent : ∀ e ∈ entries, view e.1 = some e.2) :
    Mirrors may view (entries.map fun e => .removed e.1 e.2)
      (fun k => if k ∈ entries.map Prod.fst then none else view k) := by
  induction entries generalizing view with
  | nil => simpa using mirrors_nil
  | cons e entries ih =>
    obtain ⟨hne, hdistinct⟩ := List.pairwise_cons.mp hdistinct
    have hrest : ∀ e' ∈ entries, Function.update view e.1 none e'.1 = some e'.2 := by
      intro e' he'
      rw [Function.update_of_ne (Ne.symm (hne e' he'))]
      exact hpresent e' (List.mem_cons_of_mem _ he')
    obtain ⟨hcoherent, hreplayed⟩ := ih hdistinct hrest
    refine ⟨⟨hpresent e List.mem_cons_self, hcoherent⟩, ?_⟩
    rw [List.map_cons, replay_cons, Notice.apply, hreplayed]
    funext k
    by_cases hk : k = e.1
    · subst hk
      simp
    · have hmem : k ∈ (e :: entries).map Prod.fst ↔ k ∈ entries.map Prod.fst := by
        rw [List.map_cons, List.mem_cons, or_iff_right hk]
      simp only [Function.update_of_ne hk, hmem]

section Tables

variable [Ord κ] [Std.TransOrd κ] [Std.LawfulEqOrd κ]

/-- What there is to know of a table. -/
def tableView (table : Std.ExtTreeMap κ β compare) : View κ β := fun k => table[k]?

omit [DecidableEq κ] [Std.LawfulEqOrd κ] in
@[simp] theorem tableView_empty : tableView (∅ : Std.ExtTreeMap κ β compare) = empty := by
  funext k
  simp [tableView, empty]

@[simp] theorem tableView_insert (table : Std.ExtTreeMap κ β compare) (k : κ) (b : β) :
    tableView (table.insert k b) = Function.update (tableView table) k (some b) := by
  funext k'
  by_cases hk : k = k'
  · subst hk
    simp [tableView]
  · simp [tableView, Std.ExtTreeMap.getElem?_insert, hk, Function.update_of_ne (Ne.symm hk)]

@[simp] theorem tableView_erase (table : Std.ExtTreeMap κ β compare) (k : κ) :
    tableView (table.erase k) = Function.update (tableView table) k none := by
  funext k'
  by_cases hk : k = k'
  · subst hk
    simp [tableView]
  · simp [tableView, Std.ExtTreeMap.getElem?_erase, hk, Function.update_of_ne (Ne.symm hk)]

omit [DecidableEq κ] in
theorem tableView_eq_empty {table : Std.ExtTreeMap κ β compare} (h : tableView table = empty) : table = ∅ := by
  apply Std.ExtTreeMap.ext_getElem?
  intro k
  simpa [tableView, empty] using congrFun h k

/-- Notices that remove everything a table has. -/
theorem mirrors_clear (table : Std.ExtTreeMap κ β compare) :
    Mirrors may (tableView table) (table.toList.map fun e => .removed e.1 e.2) empty := by
  have hdistinct : table.toList.Pairwise fun e e' => e.1 ≠ e'.1 := by
    refine Std.ExtTreeMap.distinct_keys_toList.imp fun h heq => h ?_
    rw [heq]
    exact Std.ReflCmp.compare_self
  have hpresent (e : κ × β) (he : e ∈ table.toList) : tableView table e.1 = some e.2 :=
    Std.ExtTreeMap.mem_toList_iff_getElem?_eq_some.mp he
  have hremoved : Mirrors may (tableView table) (table.toList.map fun e => .removed e.1 e.2) _ :=
    mirrors_removed hdistinct hpresent
  obtain ⟨hcoherent, hreplayed⟩ := hremoved
  refine ⟨hcoherent, hreplayed.trans ?_⟩
  funext k
  split
  · rfl
  · rename_i hk
    cases hentry : table[k]? with
    | none => exact hentry
    | some b =>
      have hmem := Std.ExtTreeMap.mem_toList_iff_getElem?_eq_some.mpr hentry
      exact absurd (List.mem_map_of_mem hmem) hk

end Tables

section Runs

variable {σ ε ω : Type*} {step : Step σ ε ω}

/-- The step rule for mirrors: when every step from a state with the invariant
    sends the notices for what it does to the table, so does every run. -/
theorem mirrors_run {I : σ → Prop} {table : σ → View κ β} {notice : ω → Option (Notice κ β)}
    (hinv : ∀ s e, I s → I (step s e).1)
    (hstep : ∀ s e, I s → Mirrors may (table s) ((step s e).2.filterMap notice) (table (step s e).1))
    {s : σ} (hs : I s) (es : List ε) :
    Mirrors may (table s) ((trace step s es).filterMap notice) (table (after step s es)) := by
  induction es generalizing s with
  | nil => exact mirrors_nil
  | cons e es ih =>
    rw [trace_cons, List.filterMap_append]
    exact (hstep s e hs).append (ih (hinv s e hs))

/-- The notices of a run mirror the table at every point exactly when those of
    each step do. -/
theorem mirrors_iff_along (table : σ → View κ β) (notice : ω → Option (Notice κ β)) {s : σ} {es : List ε} :
    (∀ pre, pre <+: es →
        Mirrors may (table s) ((trace step s pre).filterMap notice) (table (after step s pre))) ↔
      Along step (fun s e => Mirrors may (table s) ((step s e).2.filterMap notice) (table (step s e).1)) s es := by
  induction es generalizing s with
  | nil =>
    refine ⟨fun _ => trivial, fun _ pre hpre => ?_⟩
    rw [List.prefix_nil.mp hpre]
    exact mirrors_nil
  | cons e es ih =>
    have hcons (pre : List ε) : trace step s (e :: pre) = (step s e).2 ++ trace step (step s e).1 pre := rfl
    constructor
    · intro h
      have hfirst := h [e] (List.cons_prefix_cons.mpr ⟨rfl, List.nil_prefix⟩)
      rw [hcons, trace_nil, List.append_nil] at hfirst
      refine ⟨hfirst, ih.mp fun pre hpre => ?_⟩
      have hlong := h (e :: pre) (List.cons_prefix_cons.mpr ⟨rfl, hpre⟩)
      rw [hcons, List.filterMap_append] at hlong
      exact hfirst.append_iff.mp hlong
    · rintro ⟨hfirst, hrest⟩ pre hpre
      rcases List.prefix_cons_iff.mp hpre with rfl | ⟨rest, rfl, hrest'⟩
      · exact mirrors_nil
      · rw [hcons, List.filterMap_append]
        exact hfirst.append (ih.mpr hrest rest hrest')

end Runs

end mirror
