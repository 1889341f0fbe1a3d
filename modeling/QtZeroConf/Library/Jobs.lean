import Mathlib.Data.List.Nodup
import Mathlib.Data.List.Perm.Basic

namespace scheduling

/-- Jobs that wait, and jobs that are done and remembered for a while. -/
structure Schedule (J : Type) where
  jobs : List J
  history : List J

variable {J K : Type}

/-- A new job waits. -/
def Schedule.add (s : Schedule J) (j : J) : Schedule J := { s with jobs := j :: s.jobs }

/-- A job that never waited counts as done. -/
def Schedule.remember (s : Schedule J) (j : J) : Schedule J := { s with history := j :: s.history }

/-- A job that waits is done. -/
def Schedule.finish (s : Schedule J) (i : Nat) (f : J → J) : Schedule J :=
  match s.jobs[i]? with
  | none => s
  | some j => { jobs := s.jobs.eraseIdx i, history := f j :: s.history }

/-- A job that waits is given up. -/
def Schedule.cancel (s : Schedule J) (i : Nat) : Schedule J := { s with jobs := s.jobs.eraseIdx i }

/-- A job that is done is remembered no longer. -/
def Schedule.forget (s : Schedule J) (i : Nat) : Schedule J := { s with history := s.history.eraseIdx i }

/-- A job that waits is changed. -/
def Schedule.change (s : Schedule J) (i : Nat) (f : J → J) : Schedule J := { s with jobs := s.jobs.modify i f }

/-- A job that is done is changed. -/
def Schedule.renew (s : Schedule J) (i : Nat) (f : J → J) : Schedule J := { s with history := s.history.modify i f }

/-- What the jobs are about. -/
def Schedule.keys (key : J → K) (s : Schedule J) : List K := (s.jobs ++ s.history).map key

/-- Nothing waits and nothing is remembered. -/
def Schedule.clear (s : Schedule J) : Schedule J := { s with jobs := [], history := [] }

/-- Jobs that are done are remembered for `period`: whatever was sent less than
    that ago, as the `log` says, has a job in the history since then. Nothing has
    two jobs, and nothing was sent twice within a period. -/
structure Quiet (key : J → K) (delivery : J → Int) (period : Int) (s : Schedule J) (now : Int) (log : List (K × Int)) :
    Prop where
  distinct : (s.keys key).Nodup
  remembered : ∀ e ∈ log, now < e.2 + period → ∃ j ∈ s.history, key j = e.1 ∧ e.2 ≤ delivery j
  past : ∀ e ∈ log, e.2 ≤ now
  spaced : log.Pairwise fun later earlier => later.1 = earlier.1 → earlier.2 + period ≤ later.2

variable {key : J → K} {delivery : J → Int} {period : Int} {s : Schedule J} {now : Int} {log : List (K × Int)}

theorem map_modify {f : J → J} (hf : ∀ j, key (f j) = key j) (l : List J) (i : Nat) :
    (l.modify i f).map key = l.map key := by
  induction l generalizing i with
  | nil => cases i <;> rfl
  | cons j l ih =>
    cases i with
    | zero => simp [hf]
    | succ i => simp [ih]

theorem map_mapIdx {α β γ : Type} (g : β → γ) (f : Nat → α → β) (l : List α) :
    (l.mapIdx f).map g = l.mapIdx fun n a => g (f n a) := by
  refine List.ext_getElem? fun n => ?_
  simp only [List.getElem?_map, List.getElem?_mapIdx, Option.map_map, Function.comp_def]

/-- What becomes of a job when the one at some place is changed. -/
theorem mem_modify {f : J → J} {l : List J} {i : Nat} {j : J} (h : j ∈ l) : j ∈ l.modify i f ∨ f j ∈ l.modify i f := by
  induction l generalizing i with
  | nil => cases h
  | cons x l ih =>
    cases i with
    | zero =>
      rcases List.mem_cons.mp h with rfl | hl
      · exact Or.inr (by simp)
      · exact Or.inl (by simp [hl])
    | succ i =>
      rcases List.mem_cons.mp h with rfl | hl
      · exact Or.inl (by simp)
      · rcases ih (i := i) hl with hold | hnew
        · exact Or.inl (by simp [hold])
        · exact Or.inr (by simp [hnew])

theorem Quiet.wait (h : Quiet key delivery period s now log) {later : Int} (hlater : now ≤ later) :
    Quiet key delivery period s later log :=
  ⟨h.distinct, fun e he hrecent => h.remembered e he (by omega), fun e he => Int.le_trans (h.past e he) hlater, h.spaced⟩

theorem Quiet.add (h : Quiet key delivery period s now log) {j : J} (hj : key j ∉ s.keys key) :
    Quiet key delivery period (s.add j) now log :=
  ⟨List.nodup_cons.mpr ⟨hj, h.distinct⟩, h.remembered, h.past, h.spaced⟩

theorem Quiet.remember (h : Quiet key delivery period s now log) {j : J} (hj : key j ∉ s.keys key) :
    Quiet key delivery period (s.remember j) now log := by
  refine ⟨?_, fun e he hrecent => ?_, h.past, h.spaced⟩
  · have hperm : ((s.remember j).keys key).Perm (key j :: s.keys key) := (List.perm_middle).map key
    exact hperm.nodup_iff.mpr (List.nodup_cons.mpr ⟨hj, h.distinct⟩)
  · obtain ⟨x, hx, hkey⟩ := h.remembered e he hrecent
    exact ⟨x, List.mem_cons_of_mem _ hx, hkey⟩

/-- A scheduler that has nothing to remember has sent nothing. -/
theorem Quiet.clear (s : Schedule J) (now : Int) : Quiet key delivery period s.clear now [] :=
  ⟨List.nodup_nil, nofun, nofun, .nil⟩

/-- A job that is sent was not sent for a period. -/
theorem Quiet.finish (h : Quiet key delivery period s now log) {i : Nat} {j : J} (hj : s.jobs[i]? = some j) {f : J → J}
    (hkey : key (f j) = key j) (hdelivery : delivery (f j) = now) :
    Quiet key delivery period (s.finish i f) now ((key j, now) :: log) := by
  obtain ⟨hlt, rfl⟩ := List.getElem?_eq_some_iff.mp hj
  have hfinish : s.finish i f = { jobs := s.jobs.eraseIdx i, history := f s.jobs[i] :: s.history } := by
    rw [Schedule.finish, hj]
  rw [hfinish]
  refine ⟨?_, fun e he hrecent => ?_, List.forall_mem_cons.mpr ⟨Int.le_refl _, h.past⟩,
    List.pairwise_cons.mpr ⟨fun e he hsame => ?_, h.spaced⟩⟩
  · have hperm : ((s.jobs.eraseIdx i ++ f s.jobs[i] :: s.history).map key).Perm (s.keys key) := by
      refine (List.perm_middle.map key).trans ?_
      rw [List.map_cons, hkey, ← List.map_cons, ← List.cons_append]
      exact ((List.getElem_cons_eraseIdx_perm hlt).append_right _).map key
    exact hperm.nodup_iff.mpr h.distinct
  · rcases List.mem_cons.mp he with rfl | he
    · exact ⟨f s.jobs[i], List.mem_cons_self .., hkey, Int.le_of_eq hdelivery.symm⟩
    · obtain ⟨x, hx, hx'⟩ := h.remembered e he hrecent
      exact ⟨x, List.mem_cons_of_mem _ hx, hx'⟩
  · -- a recent entry would have a job in the history beside the one that waits
    by_contra hrecent
    obtain ⟨x, hx, hxkey, -⟩ := h.remembered e he (by dsimp only at hrecent; omega)
    have hdisjoint := h.distinct
    rw [Schedule.keys, List.map_append, List.nodup_append] at hdisjoint
    exact hdisjoint.2.2 _ (List.mem_map_of_mem (List.getElem_mem hlt)) _ (List.mem_map_of_mem hx) (hsame.trans hxkey.symm)

/-- Jobs that are sent one after the other, from the front of the list, while
    the clock goes on. -/
theorem Quiet.finish_all {sent rest history : List J}
    (h : Quiet key delivery period { jobs := sent ++ rest, history } now log) {f : Nat → J → J} {t : Nat → Int}
    {later : Int} (hnow : now ≤ t 0) (hforward : ∀ m n, m ≤ n → t m ≤ t n) (hlater : ∀ n, t n ≤ later)
    (hkey : ∀ n j, key (f n j) = key j) (hdelivery : ∀ n j, delivery (f n j) = t n) :
    Quiet key delivery period { jobs := rest, history := (sent.mapIdx f).reverse ++ history } later
      ((sent.mapIdx fun n j => (key j, t n)).reverse ++ log) := by
  induction sent generalizing f t history log now with
  | nil => exact h.wait (Int.le_trans hnow (hlater 0))
  | cons j sent ih =>
    have hone := (h.wait hnow).finish (i := 0) (j := j) rfl (hkey 0 j) (hdelivery 0 j)
    have hall := @ih (t 0) ((key j, t 0) :: log) (f 0 j :: history) hone (fun n => f (n + 1)) (fun n => t (n + 1))
      (hforward 0 1 (Nat.zero_le 1)) (fun m n hle => hforward (m + 1) (n + 1) (Nat.succ_le_succ hle)) (fun n => hlater (n + 1))
      (fun n => hkey (n + 1)) fun n => hdelivery (n + 1)
    rw [List.mapIdx_cons, List.mapIdx_cons, List.reverse_cons, List.reverse_cons, List.append_assoc, List.append_assoc]
    exact hall

theorem Quiet.cancel (h : Quiet key delivery period s now log) (i : Nat) :
    Quiet key delivery period (s.cancel i) now log := by
  refine ⟨h.distinct.sublist ?_, h.remembered, h.past, h.spaced⟩
  exact ((List.eraseIdx_sublist ..).append_right _).map key

/-- Only what is older than a period is forgotten. -/
theorem Quiet.forget (h : Quiet key delivery period s now log) {i : Nat}
    (hold : ∀ j, s.history[i]? = some j → delivery j + period ≤ now) :
    Quiet key delivery period (s.forget i) now log := by
  refine ⟨h.distinct.sublist ?_, fun e he hrecent => ?_, h.past, h.spaced⟩
  · exact ((List.eraseIdx_sublist ..).append_left _).map key
  · obtain ⟨x, hx, hkey, hdelivery⟩ := h.remembered e he hrecent
    obtain ⟨k, hk⟩ := List.mem_iff_getElem?.mp hx
    by_cases hi : k = i
    · have hx := hold x (hi ▸ hk)
      omega
    · exact ⟨x, List.mem_eraseIdx_iff_getElem?.mpr ⟨k, hi, hk⟩, hkey, hdelivery⟩

theorem Quiet.change (h : Quiet key delivery period s now log) (i : Nat) {f : J → J} (hkey : ∀ j, key (f j) = key j) :
    Quiet key delivery period (s.change i f) now log := by
  refine ⟨?_, h.remembered, h.past, h.spaced⟩
  have hkeys : (s.change i f).keys key = s.keys key := by
    simp only [Schedule.keys, Schedule.change, List.map_append, map_modify hkey]
  exact hkeys ▸ h.distinct

/-- A job that is done may be done again, which is remembered for longer. -/
theorem Quiet.renew (h : Quiet key delivery period s now log) (i : Nat) {f : J → J} (hkey : ∀ j, key (f j) = key j)
    (hdelivery : ∀ j, delivery (f j) = now) : Quiet key delivery period (s.renew i f) now log := by
  refine ⟨?_, fun e he hrecent => ?_, h.past, h.spaced⟩
  · have hkeys : (s.renew i f).keys key = s.keys key := by
      simp only [Schedule.keys, Schedule.renew, List.map_append, map_modify hkey]
    exact hkeys ▸ h.distinct
  · obtain ⟨x, hx, hxkey, hxdelivery⟩ := h.remembered e he hrecent
    rcases mem_modify (f := f) (i := i) hx with hold | hnew
    · exact ⟨x, hold, hxkey, hxdelivery⟩
    · exact ⟨f x, hnew, (hkey x).trans hxkey, (hdelivery x).symm ▸ h.past e he⟩

end scheduling
