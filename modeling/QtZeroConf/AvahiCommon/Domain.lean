import QtZeroConf.AvahiCommon.Label

open cutting

namespace qtzeroconf.avahi

/-- How `avahi_normalize_name` ends: with null, in a failed assertion, after a
    write behind the buffer, or with what is in the buffer then. -/
inductive Normalized where
  | null
  | aborted
  | overrun
  | buffer (r : Cursor)
  deriving DecidableEq

/-- The loop of `avahi_normalize_name`. It does not look at what
    `avahi_escape_label` returns. -/
def normalizeLoop : Nat → CString → Bool → Cursor → Normalized
  | _, [], _, r => .buffer r
  | 0, _ :: _, _, _ => .null
  | turns + 1, c :: s, empty, r =>
    match avahi_unescape_label AVAHI_LABEL_MAX (c :: s) with
    | none => .null
    | some (label, s) =>
      if label = [] then if s = [] ∧ empty then .buffer r else .null
      else if ¬ empty ∧ r.size < 1 then .null
      else
        let r := if empty then r else r.put [0x2E]
        if r.size = 0 then .aborted
        else
          let r := (avahi_escape_label label r).2
          if r.overrun then .overrun else normalizeLoop turns s false r

/-- `avahi_normalize_name`, into a buffer of `size` bytes. -/
def avahi_normalize_name (size : Nat) (s : CString) : Normalized :=
  if size = 0 then .aborted else normalizeLoop s.length s true (Cursor.start size).terminate

/-- `tolower` of a byte. -/
def tolower (c : UInt8) : UInt8 := if 0x41 ≤ c && c ≤ 0x5A then c + 0x20 else c

/-- `strcasecmp`, up to the size of what it returns. -/
def strcasecmp : CString → CString → Int
  | [], [] => 0
  | [], _ :: _ => -1
  | _ :: _, [] => 1
  | a :: as, b :: bs => if tolower a = tolower b then strcasecmp as bs else (tolower a).toNat - (tolower b).toNat

/-- The loop of `avahi_domain_equal`. A label that cannot be read fails an
    assertion. -/
def equalLoop : Nat → CString → CString → Option Bool
  | 0, _, _ => none
  | turns + 1, a, b => do
    let (ca, a) ← avahi_unescape_label AVAHI_LABEL_MAX a
    let (cb, b) ← avahi_unescape_label AVAHI_LABEL_MAX b
    if strcasecmp ca cb ≠ 0 then return false
    if a = [] ∧ b = [] then return true
    equalLoop turns a b

/-- `avahi_domain_equal`, on two different strings. -/
def avahi_domain_equal (a b : CString) : Option Bool := equalLoop (a.length + b.length + 1) a b

/-- The loop of `avahi_domain_hash`. -/
def hashLoop : Nat → CString → UInt32 → Option UInt32
  | _, [], hash => some hash
  | 0, _ :: _, _ => none
  | turns + 1, b :: s, hash => do
    let (c, s) ← avahi_unescape_label AVAHI_LABEL_MAX (b :: s)
    hashLoop turns s (c.foldl (fun hash p => 31 * hash + (tolower p).toUInt32) hash)

/-- `avahi_domain_hash`. -/
def avahi_domain_hash (s : CString) : Option UInt32 := hashLoop s.length s 0

/-- A cursor has not got past the end of its buffer, and nothing has been written
    behind it. -/
structure Cursor.Within (r : Cursor) (total : Nat) : Prop where
  length : r.text.length + r.size = total
  overrun : r.overrun = false

theorem Cursor.Within.put {r : Cursor} {total : Nat} (h : r.Within total) {bytes : CString}
    (hroom : bytes.length ≤ r.size) : (r.put bytes).Within total := by
  have hlength := h.length
  constructor
  · simp only [Cursor.put, List.length_append]
    omega
  · simp only [Cursor.put, h.overrun, Bool.false_or, decide_eq_false_iff_not]
    omega

theorem Cursor.Within.terminate {r : Cursor} {total : Nat} (h : r.Within total) (hroom : 0 < r.size) :
    r.terminate.Within total := by
  refine ⟨h.length, ?_⟩
  simp only [Cursor.terminate, h.overrun, Bool.false_or, decide_eq_false_iff_not]
  omega

/-- The three branches of `avahi_escape_label` leave room for a terminator. -/
theorem avahi_escape_label_cons (c : UInt8) (src : CString) (ret : Cursor) :
    avahi_escape_label (c :: src) ret =
      if ret.size ≤ (escapedByte c).length then (false, ret) else avahi_escape_label src (ret.put (escapedByte c)) := by
  rw [avahi_escape_label, escapedByte]
  by_cases hspecial : c = 0x2E ∨ c = 0x5C
  · simp only [if_pos hspecial, List.length_cons, List.length_nil, Nat.lt_succ_iff]
  · by_cases hproper : isProper c = true
    · simp only [if_neg hspecial, if_pos hproper, List.length_cons, List.length_nil, Nat.lt_succ_iff]
    · simp only [if_neg hspecial, if_neg hproper, decimal, List.length_cons, List.length_nil, Nat.lt_succ_iff]

/-- A written label and its terminator fit. -/
theorem avahi_escape_label_fits {src : CString} {ret : Cursor} (h : (escaped src).length < ret.size) :
    avahi_escape_label src ret =
      (true, { text := ret.text ++ escaped src, size := ret.size - (escaped src).length, terminated := true
               overrun := ret.overrun }) := by
  induction src generalizing ret with
  | nil =>
    have hsize : ret.size ≠ 0 := Nat.ne_of_gt h
    simp [avahi_escape_label, Cursor.terminate, hsize]
  | cons c src ih =>
    rw [escaped_cons, List.length_append] at h
    have hrest : (escaped src).length < (ret.put (escapedByte c)).size := by
      simp only [Cursor.put]
      omega
    rw [avahi_escape_label_cons, if_neg (by omega), ih hrest]
    have hshort : ¬ ret.size < (escapedByte c).length := by omega
    simp only [Cursor.put, escaped_cons, List.append_assoc, List.length_append, Nat.sub_sub, hshort, decide_false,
      Bool.or_false]

/-- Whatever becomes of the label, nothing is written behind the buffer, and a
    byte is left for the terminator. -/
theorem avahi_escape_label_within (src : CString) {ret : Cursor} {total : Nat} (hwithin : ret.Within total)
    (hsize : 0 < ret.size) :
    (avahi_escape_label src ret).2.Within total ∧ 0 < (avahi_escape_label src ret).2.size := by
  induction src generalizing ret with
  | nil => exact ⟨hwithin.terminate hsize, hsize⟩
  | cons c src ih =>
    rw [avahi_escape_label_cons]
    split_ifs with hfull
    · exact ⟨hwithin, hsize⟩
    · refine ih (hwithin.put (by omega)) ?_
      simp only [Cursor.put]
      omega

/-- The cursor behind a name that was written in full. -/
def written (size : Nat) (text : CString) : Cursor :=
  { text, size := size - text.length, terminated := true }

theorem terminate_start {size : Nat} (h : size ≠ 0) : (Cursor.start size).terminate = written size [] := by
  simp [Cursor.start, Cursor.terminate, written, h]

theorem put_written {size : Nat} {text bytes : CString} (h : (text ++ bytes).length ≤ size) :
    (written size text).put bytes = { written size (text ++ bytes) with terminated := false } := by
  rw [List.length_append] at h
  have hroom : ¬ size - text.length < bytes.length := by omega
  simp [written, Cursor.put, hroom, Nat.sub_sub]

/-- A label behind what has been written. -/
theorem escape_written {size : Nat} {text label : CString} (h : (text ++ escaped label).length < size) (terminated : Bool) :
    avahi_escape_label label { written size text with terminated := terminated } =
      (true, written size (text ++ escaped label)) := by
  rw [List.length_append] at h
  rw [avahi_escape_label_fits (by simp only [written]; omega)]
  simp only [written, List.length_append, Nat.sub_sub]

/-- Behind the first label, a dot and the label are appended for every other. -/
theorem normalizeLoop_rest {labels : List CString} {s : CString} (hlabels : Labels s labels)
    (hne : ∀ label ∈ labels, label ≠ []) {size turns : Nat} (hturns : s.length ≤ turns) {text : CString}
    (hfits : (text ++ labels.flatMap fun label => 0x2E :: escaped label).length < size) :
    normalizeLoop turns s false (written size text) =
      .buffer (written size (text ++ labels.flatMap fun label => 0x2E :: escaped label)) := by
  induction hlabels generalizing turns text with
  | nil => cases turns <;> simp [normalizeLoop]
  | @cons s rest label labels hs hcut _ ih =>
    obtain ⟨c, s, rfl⟩ := List.exists_cons_of_ne_nil hs
    obtain ⟨turns, rfl⟩ : ∃ n, turns = n + 1 := ⟨turns - 1, by simp at hturns; omega⟩
    obtain ⟨hlabel, hrest⟩ := List.forall_mem_cons.mp hne
    have hless := unescape_shrinks hs hcut
    simp only [List.length_cons] at hturns hless
    simp only [List.flatMap_cons, List.length_append, List.length_cons] at hfits
    have hescape : avahi_escape_label label ((written size text).put [0x2E]) =
        (true, written size (text ++ 0x2E :: escaped label)) := by
      rw [put_written (by simp only [List.length_append, List.length_singleton]; omega),
        escape_written (by simp only [List.length_append, List.length_singleton]; omega), List.append_assoc,
        List.singleton_append]
    have hroom : ¬ (written size text).size < 1 := by simp only [written]; omega
    have hsize : ((written size text).put [0x2E]).size ≠ 0 := by
      simp only [written, Cursor.put, List.length_cons, List.length_nil]
      omega
    have hinside : (written size (text ++ 0x2E :: escaped label)).overrun = false := rfl
    have htail := @ih hrest turns (by omega) (text ++ 0x2E :: escaped label)
      (by simp only [List.length_append, List.length_cons]; omega)
    simp only [normalizeLoop, hcut, if_neg hlabel, hroom, and_false, if_false, Bool.false_eq_true, hsize, hescape,
      hinside, htail, List.flatMap_cons, List.append_assoc, List.cons_append]

theorem dotted_cons (a : CString) (labels : List CString) :
    dotted (a :: labels) = escaped a ++ labels.flatMap fun label => 0x2E :: escaped label := by
  induction labels generalizing a with
  | nil => simp [dotted, List.intercalate]
  | cons b labels ih => rw [dotted_cons_cons, ih, List.flatMap_cons, List.cons_append]

/-- A name whose normal form fits is normalized. -/
theorem avahi_normalize_name_fits {labels : List CString} {s : CString} (hlabels : Labels s labels)
    (hne : ∀ label ∈ labels, label ≠ []) {size : Nat} (hfits : (dotted labels).length < size) :
    avahi_normalize_name size s = .buffer (written size (dotted labels)) := by
  have hsize : size ≠ 0 := by omega
  rw [avahi_normalize_name, if_neg hsize, terminate_start hsize]
  cases hlabels with
  | nil => rfl
  | @cons _ rest label labels hs hcut hrest =>
    obtain ⟨c, s, rfl⟩ := List.exists_cons_of_ne_nil hs
    obtain ⟨hlabel, htail⟩ := List.forall_mem_cons.mp hne
    rw [dotted_cons] at hfits ⊢
    have hfirst := hfits
    rw [List.length_append] at hfirst
    have hless := unescape_shrinks hs hcut
    have hescape : avahi_escape_label label (written size []) = (true, written size (escaped label)) :=
      escape_written (by rw [List.nil_append]; omega) true
    have hinside : (written size (escaped label)).overrun = false := rfl
    have hroom : (written size []).size ≠ 0 := hsize
    have hloop := normalizeLoop_rest hrest htail (show rest.length ≤ s.length by simp at hless; omega) hfits
    simp only [List.length_cons, normalizeLoop, hcut, if_neg hlabel, not_true_eq_false, false_and, if_false, if_true,
      hroom, hescape, hinside, Bool.false_eq_true, hloop]

/-- The loop stays inside of its buffer. -/
theorem normalizeLoop_within {turns : Nat} {s : CString} {empty : Bool} {r r' : Cursor} {total : Nat}
    (hwithin : r.Within total) (hsize : 0 < r.size) (h : normalizeLoop turns s empty r = .buffer r') :
    r'.Within total ∧ 0 < r'.size := by
  fun_induction normalizeLoop turns s empty r with
  | case1 => cases h; exact ⟨hwithin, hsize⟩
  | case2 | case3 | case5 | case6 | case7 | case8 => cases h
  | case4 => cases h; exact ⟨hwithin, hsize⟩
  | case9 turns c s empty r label rest hcut hlabel hroom r' hr r'' hoverrun ih =>
    have hput : r'.Within total := by
      cases empty with
      | true => exact hwithin
      | false => exact hwithin.put hsize
    obtain ⟨hescaped, hleft⟩ := avahi_escape_label_within label hput (Nat.pos_of_ne_zero hr)
    exact ih hescaped hleft h

/-- A name whose normal form does not fit leaves anything but its normal form. -/
theorem avahi_normalize_name_overflow {size : Nat} (hsize : 0 < size) {s : CString} {r : Cursor}
    (h : avahi_normalize_name size s = .buffer r) {text : CString} (hlong : size ≤ text.length) : r.text ≠ text := by
  rintro rfl
  have hne : size ≠ 0 := Nat.ne_of_gt hsize
  rw [avahi_normalize_name, if_neg hne, terminate_start hne] at h
  obtain ⟨hwithin, hleft⟩ := normalizeLoop_within (show (written size []).Within size from ⟨Nat.zero_add size, rfl⟩) hsize h
  have hlength := hwithin.length
  omega

theorem strcasecmp_eq_zero_iff (a b : CString) : strcasecmp a b = 0 ↔ a.map tolower = b.map tolower := by
  induction a generalizing b with
  | nil => cases b <;> simp [strcasecmp]
  | cons x a ih =>
    cases b with
    | nil => simp [strcasecmp]
    | cons y b =>
      rw [strcasecmp, List.map_cons, List.map_cons, List.cons.injEq]
      by_cases h : tolower x = tolower y
      · rw [if_pos h, ih]
        exact ⟨fun htail => ⟨h, htail⟩, And.right⟩
      · have hne : (tolower x).toNat ≠ (tolower y).toNat := fun heq => h (UInt8.toNat_inj.mp heq)
        rw [if_neg h]
        exact ⟨fun hzero => absurd hzero (by omega), fun heq => absurd heq.1 h⟩

/-- The labels of two names agree up to case, where a missing label counts as an
    empty one. -/
def SameLabels (as bs : List CString) : Prop :=
  ∀ i, (as.getD i []).map tolower = (bs.getD i []).map tolower

theorem SameLabels.refl (as : List CString) : SameLabels as as := fun _ => rfl

theorem SameLabels.symm {as bs : List CString} (h : SameLabels as bs) : SameLabels bs as := fun i => (h i).symm

theorem SameLabels.trans {as bs cs : List CString} (h : SameLabels as bs) (h' : SameLabels bs cs) :
    SameLabels as cs := fun i => (h i).trans (h' i)

theorem sameLabels_cons {a b : CString} {as bs : List CString} :
    SameLabels (a :: as) (b :: bs) ↔ a.map tolower = b.map tolower ∧ SameLabels as bs := by
  constructor
  · exact fun h => ⟨h 0, fun i => h (i + 1)⟩
  · rintro ⟨hhead, htail⟩ i
    cases i with
    | zero => exact hhead
    | succ i => exact htail i

/-- A name that has ended goes on with empty labels. -/
theorem sameLabels_nil (bs : List CString) : SameLabels [] bs ↔ SameLabels [[]] bs := by
  have hget (i : Nat) : ([] : List CString).getD i [] = [[]].getD i [] := by
    cases i <;> rfl
  simp only [SameLabels, hget]

/-- The label that is read of a name, also behind its end. -/
theorem Labels.read {s : CString} {labels : List CString} (h : Labels s labels) :
    ∃ label rest tail, avahi_unescape_label AVAHI_LABEL_MAX s = some (label, rest) ∧ Labels rest tail ∧
      rest.length ≤ s.length ∧ (rest ≠ [] → rest.length < s.length) ∧
      ∀ bs, SameLabels labels bs ↔ SameLabels (label :: tail) bs := by
  cases h with
  | nil => exact ⟨[], [], [], rfl, .nil, Nat.le_refl _, fun h => absurd rfl h, sameLabels_nil⟩
  | cons hne hcut htail =>
    have hless := unescape_shrinks hne hcut
    exact ⟨_, _, _, hcut, htail, Nat.le_of_lt hless, fun _ => hless, fun _ => Iff.rfl⟩

theorem equalLoop_spec {turns : Nat} {a b : CString} {as bs : List CString} (ha : Labels a as) (hb : Labels b bs)
    (hturns : a.length + b.length < turns) :
    ∃ r, equalLoop turns a b = some r ∧ (r = true ↔ SameLabels as bs) := by
  induction turns generalizing a b as bs with
  | zero => omega
  | succ turns ih =>
    obtain ⟨ca, a', as', hcuta, ha', hlea, hlta, hasame⟩ := ha.read
    obtain ⟨cb, b', bs', hcutb, hb', hleb, hltb, hbsame⟩ := hb.read
    have hsame : SameLabels as bs ↔ ca.map tolower = cb.map tolower ∧ SameLabels as' bs' := by
      rw [← sameLabels_cons, hasame]
      exact ⟨fun h => ((hbsame _).mp h.symm).symm, fun h => ((hbsame _).mpr h.symm).symm⟩
    simp only [equalLoop, hcuta, hcutb, Option.bind_eq_bind, Option.bind_some, Option.pure_def]
    by_cases hcase : strcasecmp ca cb = 0
    · have heq := (strcasecmp_eq_zero_iff ca cb).mp hcase
      simp only [hcase, ne_eq, not_true_eq_false, if_false, hsame, heq, true_and]
      by_cases hend : a' = [] ∧ b' = []
      · obtain ⟨rfl, rfl⟩ := hend
        rw [ha'.eq_nil, hb'.eq_nil]
        exact ⟨true, rfl, fun _ => SameLabels.refl [], fun _ => rfl⟩
      · rw [if_neg hend]
        refine ih ha' hb' ?_
        by_cases hempty : a' = []
        · have hleft := hltb fun h => hend ⟨hempty, h⟩
          omega
        · have hleft := hlta hempty
          omega
    · have hne : ca.map tolower ≠ cb.map tolower := fun h => hcase ((strcasecmp_eq_zero_iff ca cb).mpr h)
      refine ⟨false, by simp [hcase], by simp [hsame, hne]⟩

/-- Two names that can be read are equal exactly if their labels agree. -/
theorem avahi_domain_equal_spec {a b : CString} {as bs : List CString} (ha : Labels a as) (hb : Labels b bs) :
    avahi_domain_equal a b = some true ↔ SameLabels as bs := by
  obtain ⟨r, hr, hiff⟩ := equalLoop_spec ha hb (Nat.lt_succ_self _)
  rw [avahi_domain_equal, hr, Option.some.injEq, hiff]

/-- Without empty labels, that is the same labels up to case. -/
theorem sameLabels_iff_map {as bs : List CString} (has : ∀ a ∈ as, a ≠ []) (hbs : ∀ b ∈ bs, b ≠ []) :
    SameLabels as bs ↔ as.map (List.map tolower) = bs.map (List.map tolower) := by
  induction as generalizing bs with
  | nil =>
    cases bs with
    | nil => exact ⟨fun _ => rfl, fun _ => SameLabels.refl []⟩
    | cons b bs =>
      refine ⟨fun h => ?_, fun h => by cases h⟩
      have hhead : [] = b.map tolower := h 0
      exact absurd (List.map_eq_nil_iff.mp hhead.symm) (hbs b List.mem_cons_self)
  | cons a as ih =>
    obtain ⟨hane, hasne⟩ := List.forall_mem_cons.mp has
    cases bs with
    | nil =>
      refine ⟨fun h => ?_, fun h => by cases h⟩
      have hhead : a.map tolower = [] := h 0
      exact absurd (List.map_eq_nil_iff.mp hhead) hane
    | cons b bs =>
      obtain ⟨-, hbsne⟩ := List.forall_mem_cons.mp hbs
      rw [sameLabels_cons, ih hasne hbsne, List.map_cons, List.map_cons, List.cons.injEq]

/-- Behind the last label of one name, the labels of an equal one are empty. -/
theorem sameLabels_flatten {as bs : List CString} (h : SameLabels as bs) :
    as.flatten.map tolower = bs.flatten.map tolower := by
  induction as generalizing bs with
  | nil =>
    have hempty : ∀ b ∈ bs, b = [] := by
      intro b hb
      obtain ⟨i, hi, rfl⟩ := List.mem_iff_getElem.mp hb
      have hlabel := h i
      rw [List.getD_eq_getElem _ _ hi] at hlabel
      exact List.map_eq_nil_iff.mp hlabel.symm
    rw [List.flatten_eq_nil_iff.mpr hempty]
    rfl
  | cons a as ih =>
    cases bs with
    | nil =>
      have htail : SameLabels as [] := fun i => h (i + 1)
      have hhead : a = [] := List.map_eq_nil_iff.mp (h 0)
      rw [List.flatten_cons, hhead, List.nil_append, ih htail]
    | cons b bs =>
      obtain ⟨hhead, htail⟩ := sameLabels_cons.mp h
      rw [List.flatten_cons, List.flatten_cons, List.map_append, List.map_append, hhead, ih htail]

/-- The hash runs over the lower-case bytes of the labels. -/
theorem hashLoop_spec {s : CString} {labels : List CString} (h : Labels s labels) {turns : Nat}
    (hturns : s.length ≤ turns) (hash : UInt32) :
    hashLoop turns s hash =
      some ((labels.flatten.map tolower).foldl (fun hash p => 31 * hash + p.toUInt32) hash) := by
  induction h generalizing turns hash with
  | nil => cases turns <;> rfl
  | @cons s rest label labels hs hcut _ ih =>
    obtain ⟨c, s, rfl⟩ := List.exists_cons_of_ne_nil hs
    obtain ⟨turns, rfl⟩ : ∃ n, turns = n + 1 := ⟨turns - 1, by simp at hturns; omega⟩
    have hless := unescape_shrinks hs hcut
    simp only [List.length_cons] at hturns hless
    simp only [hashLoop, hcut, Option.bind_eq_bind, Option.bind_some, @ih turns (by omega),
      List.flatten_cons, List.map_append, List.foldl_append, List.foldl_map]

/-- Escapes do not depend on case. -/
theorem escapedByte_tolower (c : UInt8) : escapedByte (tolower c) = (escapedByte c).map tolower := by
  have hall : ∀ b : BitVec 8, escapedByte (tolower ⟨b⟩) = (escapedByte ⟨b⟩).map tolower := by decide +kernel
  exact hall c.toBitVec

theorem escaped_tolower (label : CString) : escaped (label.map tolower) = (escaped label).map tolower := by
  induction label with
  | nil => rfl
  | cons c label ih => rw [List.map_cons, escaped_cons, escaped_cons, List.map_append, escapedByte_tolower, ih]

theorem dotted_tolower (labels : List CString) :
    dotted (labels.map (List.map tolower)) = (dotted labels).map tolower := by
  cases labels with
  | nil => rfl
  | cons a labels =>
    have htail : (labels.map (List.map tolower)).flatMap (fun label => 0x2E :: escaped label) =
        (labels.flatMap fun label => 0x2E :: escaped label).map tolower := by
      induction labels with
      | nil => rfl
      | cons b labels ih =>
        rw [List.map_cons, List.flatMap_cons, List.flatMap_cons, List.map_append, ih, List.map_cons, escaped_tolower]
        rfl
    rw [List.map_cons, dotted_cons, dotted_cons, List.map_append, escaped_tolower, htail]

theorem tolower_eq_zero {c : UInt8} (h : tolower c = 0) : c = 0 := by
  have hall : ∀ b : BitVec 8, tolower ⟨b⟩ = 0 → (⟨b⟩ : UInt8) = 0 := by decide +kernel
  exact hall c.toBitVec h

/-- A name without empty labels, read from a string without a terminator. -/
structure ProperLabels (s : CString) (labels : List CString) : Prop where
  reads : Labels s labels
  valid : ∀ label ∈ labels, ValidLabel label
  nonempty : ∀ label ∈ labels, label ≠ []

theorem properLabels {s : CString} {labels : List CString} (hs : 0 ∉ s) (hlabels : Labels s labels)
    (hne : ∀ label ∈ labels, label ≠ []) : ProperLabels s labels := ⟨hlabels, hlabels.valid hs, hne⟩

theorem ProperLabels.dotted {s : CString} {labels : List CString} (h : ProperLabels s labels) :
    ProperLabels (avahi.dotted labels) labels :=
  ⟨labels_dotted h.valid h.nonempty, h.valid, h.nonempty⟩

/-- In lower case, labels still have no terminator in them. -/
theorem ProperLabels.lower {s : CString} {labels : List CString} (h : ProperLabels s labels) :
    ∀ label ∈ labels.map (List.map tolower), 0 ∉ label ∧ label ≠ [] := by
  intro label hmem
  obtain ⟨original, horiginal, rfl⟩ := List.mem_map.mp hmem
  refine ⟨fun hzero => ?_, fun hempty => h.nonempty original horiginal (List.map_eq_nil_iff.mp hempty)⟩
  obtain ⟨c, hc, hlow⟩ := List.mem_map.mp hzero
  exact (h.valid original horiginal).nonzero (tolower_eq_zero hlow ▸ hc)

/-- Two names are equal exactly if their normal forms are, up to case. -/
theorem ProperLabels.equal_iff {a b : CString} {as bs : List CString} (ha : ProperLabels a as)
    (hb : ProperLabels b bs) :
    avahi_domain_equal a b = some true ↔ (avahi.dotted as).map tolower = (avahi.dotted bs).map tolower := by
  rw [avahi_domain_equal_spec ha.reads hb.reads, sameLabels_iff_map ha.nonempty hb.nonempty, ← dotted_tolower,
    ← dotted_tolower]
  exact ⟨congrArg avahi.dotted, dotted_injective ha.lower hb.lower⟩

/-- Normalizing a name keeps the domain it names and is done after one time,
    wherever the normal form fits into the buffer. Where it does not fit, the
    buffer never ends up with it. -/
theorem avahi_normalize_name_normal {s : CString} (hs : 0 ∉ s) {labels : List CString} (hlabels : Labels s labels)
    (hne : ∀ label ∈ labels, label ≠ []) {size : Nat} (hsize : 0 < size) :
    ((dotted labels).length < size →
      avahi_normalize_name size s = .buffer (written size (dotted labels)) ∧
      avahi_normalize_name size (dotted labels) = .buffer (written size (dotted labels)) ∧
      avahi_domain_equal s (dotted labels) = some true) ∧
    (size ≤ (dotted labels).length → ∀ r, avahi_normalize_name size s = .buffer r → r.text ≠ dotted labels) := by
  have hproper := properLabels hs hlabels hne
  constructor
  · intro hfits
    exact ⟨avahi_normalize_name_fits hlabels hne hfits, avahi_normalize_name_fits hproper.dotted.reads hne hfits,
      (hproper.equal_iff hproper.dotted).mpr rfl⟩
  · intro hlong r hr
    exact avahi_normalize_name_overflow hsize hr hlong

/-- A dot that belongs to a label, and one that ends it. -/
theorem avahi_normalize_name_normal_dot :
    avahi_normalize_name 7 [0x50, 0x5C, 0x2E, 0x31, 0x2E, 0x4C] =
      .buffer (written 7 [0x50, 0x5C, 0x2E, 0x31, 0x2E, 0x4C]) :=
  ((@avahi_normalize_name_normal [0x50, 0x5C, 0x2E, 0x31, 0x2E, 0x4C] (by decide) [[0x50, 0x2E, 0x31], [0x4C]]
    (parts_sound 6 (by decide)) (by decide) 7 (by decide)).1 (by decide)).1

/-- A name all of whose labels can be read. -/
def Name : Type := { s : CString // ∃ labels, Labels s labels }

/-- Equality of domain names is decided without a failed assertion and is an
    equivalence relation, and the hash does not tell equal names apart. -/
theorem avahi_domain_equal_equivalence :
    (∀ a b : Name, ∃ r, avahi_domain_equal a.val b.val = some r) ∧
      Equivalence (fun a b : Name => avahi_domain_equal a.val b.val = some true) ∧
      ∀ a b : Name, avahi_domain_equal a.val b.val = some true →
        ∃ hash, avahi_domain_hash a.val = some hash ∧ avahi_domain_hash b.val = some hash := by
  refine ⟨?_, ⟨?_, ?_, ?_⟩, ?_⟩
  · rintro ⟨a, as, ha⟩ ⟨b, bs, hb⟩
    obtain ⟨r, hr, -⟩ := equalLoop_spec ha hb (Nat.lt_succ_self _)
    exact ⟨r, hr⟩
  · rintro ⟨a, as, ha⟩
    exact (avahi_domain_equal_spec ha ha).mpr (.refl as)
  · rintro ⟨a, as, ha⟩ ⟨b, bs, hb⟩ hab
    exact (avahi_domain_equal_spec hb ha).mpr ((avahi_domain_equal_spec ha hb).mp hab).symm
  · rintro ⟨a, as, ha⟩ ⟨b, bs, hb⟩ ⟨c, cs, hc⟩ hab hbc
    exact (avahi_domain_equal_spec ha hc).mpr
      (((avahi_domain_equal_spec ha hb).mp hab).trans ((avahi_domain_equal_spec hb hc).mp hbc))
  · rintro ⟨a, as, ha⟩ ⟨b, bs, hb⟩ hab
    have hsame := sameLabels_flatten ((avahi_domain_equal_spec ha hb).mp hab)
    refine ⟨_, hashLoop_spec ha (Nat.le_refl _) 0, ?_⟩
    rw [avahi_domain_hash, hashLoop_spec hb (Nat.le_refl _) 0, hsame]

end qtzeroconf.avahi
