import QtZeroConf.AvahiCommon.Utf8
import QtZeroConf.Library.Cutting

open cutting

namespace qtzeroconf.avahi

def AVAHI_LABEL_MAX : Nat := 64

def AVAHI_DOMAIN_NAME_MAX : Nat := 1014

def isdigit (c : UInt8) : Bool := 0x30 ≤ c && c ≤ 0x39

/-- The loop of `avahi_unescape_label`: `d` is what is in `dest` so far. The
    result is the label, and where `*name` stands behind it. -/
def unescapeLoop (size : Nat) : CString → CString → Option (CString × CString)
  | [], d => if size ≤ d.length then none else some (d, [])
  | c :: name, d =>
    if size ≤ d.length then none
    else if c = 0x2E then some (d, name)
    else if c = 0x5C then
      match name with
      | [] => none
      | c :: name =>
        if c = 0x5C ∨ c = 0x2E then unescapeLoop size name (d ++ [c])
        else if isdigit c then
          match name with
          | c₁ :: c₂ :: name =>
            if !isdigit c₁ || !isdigit c₂ then none
            else
              let n := (c - 0x30).toNat * 100 + (c₁ - 0x30).toNat * 10 + (c₂ - 0x30).toNat
              if 255 < n ∨ n = 0 then none else unescapeLoop size name (d ++ [UInt8.ofNat n])
          | _ => none
        else none
    else unescapeLoop size name (d ++ [c])

/-- `avahi_unescape_label`, into a `dest` of `size` bytes. -/
def avahi_unescape_label (size : Nat) (name : CString) : Option (CString × CString) :=
  match unescapeLoop size name [] with
  | none => none
  | some (dest, name) => if avahi_utf8_valid dest then some (dest, name) else none

/-- A `char *` into a buffer: what is written in front of it, the bytes from it
    to the end, whether a terminator stands at it, and whether anything has been
    written behind the buffer. -/
structure Cursor where
  text : CString
  size : Nat
  terminated : Bool
  overrun : Bool := false
  deriving DecidableEq

/-- A write that moves the pointer. -/
def Cursor.put (r : Cursor) (bytes : CString) : Cursor :=
  { text := r.text ++ bytes, size := r.size - bytes.length, terminated := false
    overrun := r.overrun || decide (r.size < bytes.length) }

/-- A terminator is written where the pointer is. -/
def Cursor.terminate (r : Cursor) : Cursor :=
  { r with terminated := true, overrun := r.overrun || decide (r.size = 0) }

/-- The start of a buffer of `size` bytes. -/
def Cursor.start (size : Nat) : Cursor := { text := [], size, terminated := false }

/-- The characters that need no escape. -/
def isProper (c : UInt8) : Bool :=
  c = 0x5F || c = 0x2D || (0x30 ≤ c && c ≤ 0x39) || (0x61 ≤ c && c ≤ 0x7A) || (0x41 ≤ c && c ≤ 0x5A)

/-- A backslash and the three decimal digits of a byte. -/
def decimal (c : UInt8) : CString := [0x5C, 0x30 + c / 100, 0x30 + c / 10 % 10, 0x30 + c % 10]

/-- `avahi_escape_label`, and whether it gets to the end of `src`. Where it does
    not, it leaves what it has written. -/
def avahi_escape_label : CString → Cursor → Bool × Cursor
  | [], ret => (true, ret.terminate)
  | c :: src, ret =>
    if c = 0x2E ∨ c = 0x5C then
      if ret.size < 3 then (false, ret) else avahi_escape_label src (ret.put [0x5C, c])
    else if isProper c then
      if ret.size < 2 then (false, ret) else avahi_escape_label src (ret.put [c])
    else if ret.size < 5 then (false, ret)
    else avahi_escape_label src (ret.put (decimal c))

/-- What `avahi_escape_label` writes for one byte. -/
def escapedByte (c : UInt8) : CString :=
  if c = 0x2E ∨ c = 0x5C then [0x5C, c] else if isProper c then [c] else decimal c

/-- A label with its escapes. -/
def escaped (label : CString) : CString := label.flatMap escapedByte

@[simp] theorem escaped_nil : escaped [] = [] := rfl

@[simp] theorem escaped_cons (c : UInt8) (label : CString) : escaped (c :: label) = escapedByte c ++ escaped label :=
  rfl

@[simp] theorem escaped_append (a b : CString) : escaped (a ++ b) = escaped a ++ escaped b := List.flatMap_append

/-- The digits of a byte spell it. -/
theorem decimal_spells (c : UInt8) :
    isdigit (0x30 + c / 100) = true ∧ isdigit (0x30 + c / 10 % 10) = true ∧ isdigit (0x30 + c % 10) = true ∧
      ((0x30 + c / 100) - 0x30).toNat * 100 + ((0x30 + c / 10 % 10) - 0x30).toNat * 10 +
        ((0x30 + c % 10) - 0x30).toNat = c.toNat := by
  have hall : ∀ b : BitVec 8, isdigit (0x30 + ⟨b⟩ / 100) = true ∧ isdigit (0x30 + ⟨b⟩ / 10 % 10) = true ∧
      isdigit (0x30 + ⟨b⟩ % 10) = true ∧
      ((0x30 + ⟨b⟩ / 100) - 0x30 : UInt8).toNat * 100 + ((0x30 + ⟨b⟩ / 10 % 10) - 0x30 : UInt8).toNat * 10 +
        ((0x30 + ⟨b⟩ % 10) - 0x30 : UInt8).toNat = b.toNat := by
    decide +kernel
  exact hall c.toBitVec

theorem isdigit_ne {c : UInt8} (h : isdigit c = true) : c ≠ 0x5C ∧ c ≠ 0x2E := by
  constructor
  · rintro rfl
    exact absurd h (by decide)
  · rintro rfl
    exact absurd h (by decide)

theorem unescapeLoop_nil {size : Nat} {d : CString} (h : d.length < size) :
    unescapeLoop size [] d = some (d, []) := by
  rw [unescapeLoop.eq_def]
  exact if_neg (Nat.not_le_of_lt h)

theorem unescapeLoop_dot {size : Nat} {d : CString} (h : d.length < size) (name : CString) :
    unescapeLoop size (0x2E :: name) d = some (d, name) := by
  rw [unescapeLoop.eq_def]
  simp only [if_neg (Nat.not_le_of_lt h), if_true]

theorem unescapeLoop_plain {size : Nat} {c : UInt8} {d : CString} (h : d.length < size) (hdot : c ≠ 0x2E)
    (hslash : c ≠ 0x5C) (name : CString) :
    unescapeLoop size (c :: name) d = unescapeLoop size name (d ++ [c]) := by
  rw [unescapeLoop.eq_def]
  simp only [if_neg (Nat.not_le_of_lt h), if_neg hdot, if_neg hslash]

theorem unescapeLoop_quoted {size : Nat} {c : UInt8} {d : CString} (h : d.length < size)
    (hc : c = 0x5C ∨ c = 0x2E) (name : CString) :
    unescapeLoop size (0x5C :: c :: name) d = unescapeLoop size name (d ++ [c]) := by
  rw [unescapeLoop.eq_def]
  simp only [if_neg (Nat.not_le_of_lt h), if_pos hc, if_true]
  rw [if_neg (by decide)]

theorem unescapeLoop_digits {size : Nat} {c c₁ c₂ : UInt8} {d : CString} (h : d.length < size)
    (h₀ : isdigit c = true) (h₁ : isdigit c₁ = true) (h₂ : isdigit c₂ = true) (name : CString) :
    unescapeLoop size (0x5C :: c :: c₁ :: c₂ :: name) d =
      let n := (c - 0x30).toNat * 100 + (c₁ - 0x30).toNat * 10 + (c₂ - 0x30).toNat
      if 255 < n ∨ n = 0 then none else unescapeLoop size name (d ++ [UInt8.ofNat n]) := by
  have hspecial : ¬ (c = 0x5C ∨ c = 0x2E) := not_or.mpr (isdigit_ne h₀)
  rw [unescapeLoop.eq_def]
  simp only [if_neg (Nat.not_le_of_lt h), if_neg hspecial, h₀, h₁, h₂, if_true, Bool.not_true, Bool.or_false,
    Bool.false_eq_true, if_false]
  rw [if_neg (by decide)]

/-- Reading a written byte puts it into the label. -/
theorem unescapeLoop_escapedByte {size : Nat} {c : UInt8} (hc : c ≠ 0) (name : CString) {d : CString}
    (h : d.length < size) :
    unescapeLoop size (escapedByte c ++ name) d = unescapeLoop size name (d ++ [c]) := by
  unfold escapedByte
  split_ifs with hspecial hproper
  · exact unescapeLoop_quoted h hspecial.symm name
  · rw [not_or] at hspecial
    exact unescapeLoop_plain h hspecial.1 hspecial.2 name
  · obtain ⟨h₀, h₁, h₂, hvalue⟩ := decimal_spells c
    have hpositive : c.toNat ≠ 0 := fun h => hc (UInt8.toNat_inj.mp h)
    have hrange : ¬ (255 < c.toNat ∨ c.toNat = 0) := by
      have := c.toNat_lt
      omega
    refine (unescapeLoop_digits h h₀ h₁ h₂ name).trans ?_
    simp only [hvalue, if_neg hrange, UInt8.ofNat_toNat]

/-- Reading a written label puts it into `dest` as far as there is room. -/
theorem unescapeLoop_escaped {size : Nat} {label : CString} (hlabel : 0 ∉ label) (name : CString) {d : CString}
    (hroom : d.length + label.length < size) :
    unescapeLoop size (escaped label ++ name) d = unescapeLoop size name (d ++ label) := by
  induction label generalizing d with
  | nil => simp
  | cons c label ih =>
    rw [List.mem_cons, not_or] at hlabel
    simp only [List.length_cons] at hroom
    rw [escaped_cons, List.append_assoc, unescapeLoop_escapedByte (Ne.symm hlabel.1) _ (by omega),
      ih hlabel.2 (by simp; omega), List.append_assoc, List.singleton_append]

/-- What a name stands in front of: its end, or a dot and the next labels. -/
inductive Behind : CString → CString → Prop
  | done : Behind [] []
  | dot (name : CString) : Behind (0x2E :: name) name

/-- A label that survives the way through a name. -/
structure ValidLabel (label : CString) : Prop where
  short : label.length < AVAHI_LABEL_MAX
  nonzero : 0 ∉ label
  utf8 : avahi_utf8_valid label = true

/-- Reading a written label gives it back. -/
theorem avahi_unescape_label_escaped {label : CString} (hlabel : ValidLabel label) {name rest : CString}
    (hbehind : Behind name rest) :
    avahi_unescape_label AVAHI_LABEL_MAX (escaped label ++ name) = some (label, rest) := by
  have hloop : unescapeLoop AVAHI_LABEL_MAX (escaped label ++ name) [] = some (label, rest) := by
    rw [unescapeLoop_escaped hlabel.nonzero name (by simpa using hlabel.short), List.nil_append]
    cases hbehind with
    | done => exact unescapeLoop_nil hlabel.short
    | dot => exact unescapeLoop_dot hlabel.short rest
  rw [avahi_unescape_label, hloop]
  exact if_pos hlabel.utf8

/-- An escaped terminator is not read. -/
theorem unescapeLoop_terminator {size : Nat} {d : CString} (h : d.length < size) (name : CString) :
    unescapeLoop size (escapedByte 0 ++ name) d = none := by
  have hdigit : isdigit 0x30 = true := by decide
  have hbytes : escapedByte 0 ++ name = 0x5C :: 0x30 :: 0x30 :: 0x30 :: name := rfl
  rw [hbytes, unescapeLoop_digits h hdigit hdigit hdigit]
  rfl

/-- Whatever bytes a label has, reading what was written gives it back, if it is
    read at all. -/
theorem avahi_unescape_label_written {label : CString} (hshort : label.length < AVAHI_LABEL_MAX) {name rest : CString}
    (hbehind : Behind name rest) {label' rest' : CString}
    (h : avahi_unescape_label AVAHI_LABEL_MAX (escaped label ++ name) = some (label', rest')) :
    label' = label ∧ rest' = rest := by
  by_cases hzero : 0 ∈ label
  · obtain ⟨a, b, rfl, ha⟩ := List.eq_append_cons_of_mem hzero
    rw [List.length_append, List.length_cons] at hshort
    have hloop : unescapeLoop AVAHI_LABEL_MAX (escaped (a ++ 0 :: b) ++ name) [] = none := by
      rw [escaped_append, escaped_cons, List.append_assoc, List.append_assoc,
        unescapeLoop_escaped ha _ (by rw [List.length_nil]; omega), List.nil_append,
        unescapeLoop_terminator (by omega)]
    rw [avahi_unescape_label, hloop] at h
    cases h
  · have hloop : unescapeLoop AVAHI_LABEL_MAX (escaped label ++ name) [] = some (label, rest) := by
      rw [unescapeLoop_escaped hzero name (by simpa using hshort), List.nil_append]
      cases hbehind with
      | done => exact unescapeLoop_nil hshort
      | dot => exact unescapeLoop_dot hshort rest
    rw [avahi_unescape_label, hloop] at h
    dsimp only at h
    split_ifs at h
    cases h
    exact ⟨rfl, rfl⟩

/-- What the loop leaves: a label that fits, and less of the name than there
    was. No terminator gets into either. -/
structure Unescaped (size : Nat) (name d label rest : CString) : Prop where
  short : label.length < size
  nonzero : 0 ∉ name → 0 ∉ d → 0 ∉ label ∧ 0 ∉ rest
  le : rest.length ≤ name.length
  lt : name ≠ [] → rest.length < name.length

/-- A turn of the loop that reads `taken` and appends `c`. -/
theorem Unescaped.turn {size : Nat} {name d label rest : CString} {c : UInt8}
    (h : Unescaped size name (d ++ [c]) label rest) (taken : CString) (hne : taken ≠ []) (hc : 0 ∉ taken → c ≠ 0) :
    Unescaped size (taken ++ name) d label rest := by
  have htaken := List.length_pos_iff.mpr hne
  have hle := h.le
  refine ⟨h.short, fun hname hd => ?_, by rw [List.length_append]; omega, fun _ => by rw [List.length_append]; omega⟩
  rw [List.mem_append, not_or] at hname
  refine h.nonzero hname.2 fun hmem => ?_
  rcases List.mem_append.mp hmem with hmem | hmem
  · exact hd hmem
  · exact hc hname.1 (List.mem_singleton.mp hmem).symm

theorem unescapeLoop_spec {size : Nat} {name d label rest : CString}
    (h : unescapeLoop size name d = some (label, rest)) : Unescaped size name d label rest := by
  fun_induction unescapeLoop size name d with
  | case1 | case3 | case5 | case7 | case8 | case10 | case11 => cases h
  | case2 d hroom =>
    cases h
    exact ⟨Nat.lt_of_not_le hroom, fun h hd => ⟨hd, h⟩, Nat.le_refl _, fun h => absurd rfl h⟩
  | case4 name d hroom =>
    cases h
    exact ⟨Nat.lt_of_not_le hroom, fun h hd => ⟨hd, fun hrest => h (List.mem_cons_of_mem _ hrest)⟩,
      Nat.le_succ _, fun _ => Nat.lt_succ_self _⟩
  | case6 d hroom c name hc hdot ih =>
    refine (ih h).turn [0x5C, c] (List.cons_ne_nil _ _) fun hzero heq => ?_
    exact hzero (by simp [heq])
  | case9 d hroom c hc hdigit c₁ c₂ name hdigits n hn hdot ih =>
    refine (ih h).turn [0x5C, c, c₁, c₂] (List.cons_ne_nil _ _) fun _ heq => ?_
    have hvalue := congrArg UInt8.toNat heq
    rw [UInt8.toNat_ofNat', UInt8.toNat_zero] at hvalue
    omega
  | case12 c name d hroom hdot hslash ih =>
    refine (ih h).turn [c] (List.cons_ne_nil _ _) fun hzero heq => ?_
    exact hzero (by simp [heq])

theorem avahi_unescape_label_spec {size : Nat} {name label rest : CString}
    (h : avahi_unescape_label size name = some (label, rest)) :
    Unescaped size name [] label rest ∧ avahi_utf8_valid label = true := by
  unfold avahi_unescape_label at h
  split at h
  · cases h
  · rename_i dest behind hloop
    split_ifs at h with hvalid
    cases h
    exact ⟨unescapeLoop_spec hloop, hvalid⟩

theorem validLabel_of_unescape {name label rest : CString} (hname : 0 ∉ name)
    (h : avahi_unescape_label AVAHI_LABEL_MAX name = some (label, rest)) : ValidLabel label ∧ 0 ∉ rest := by
  obtain ⟨hread, hvalid⟩ := avahi_unescape_label_spec h
  obtain ⟨hlabel, hrest⟩ := hread.nonzero hname List.not_mem_nil
  exact ⟨⟨hread.short, hlabel, hvalid⟩, hrest⟩

/-- A name is a sequence of labels. -/
theorem unescape_shrinks {size : Nat} : Shrinks (avahi_unescape_label size) := by
  intro name rest label hne h
  exact (avahi_unescape_label_spec h).1.lt hne

/-- The labels of a name, as the loops over names read them. -/
abbrev Labels : CString → List CString → Prop := Parts (avahi_unescape_label AVAHI_LABEL_MAX)

/-- Every label of a name is one that can be written again. -/
theorem Labels.valid {name : CString} {labels : List CString} (h : Labels name labels) (hname : 0 ∉ name) :
    ∀ label ∈ labels, ValidLabel label :=
  Parts.all (fun name => 0 ∉ name) (fun _ _ _ => validLabel_of_unescape) h hname

/-- The labels of a name written with their escapes and a dot between them. -/
def dotted (labels : List CString) : CString := [0x2E].intercalate (labels.map escaped)

theorem dotted_cons_cons (a b : CString) (labels : List CString) :
    dotted (a :: b :: labels) = escaped a ++ 0x2E :: dotted (b :: labels) := by
  simp [dotted, List.intercalate]

/-- Behind the first of some labels, the others follow. -/
theorem dotted_behind (a : CString) (labels : List CString) :
    ∃ name, dotted (a :: labels) = escaped a ++ name ∧ Behind name (dotted labels) := by
  cases labels with
  | nil => exact ⟨[], by simp [dotted, List.intercalate], .done⟩
  | cons b labels => exact ⟨0x2E :: dotted (b :: labels), dotted_cons_cons a b labels, .dot _⟩

theorem escaped_ne_nil {label : CString} (h : label ≠ []) : escaped label ≠ [] := by
  obtain ⟨c, label, rfl⟩ := List.exists_cons_of_ne_nil h
  rw [escaped_cons]
  unfold escapedByte
  split_ifs <;> simp [decimal]

/-- Whatever reads each written label back reads all of them back. -/
theorem parts_dotted {cut : CString → Option (CString × CString)} {labels : List CString}
    (hcut : ∀ label ∈ labels, ∀ {name rest}, Behind name rest → cut (escaped label ++ name) = some (label, rest))
    (hne : ∀ label ∈ labels, label ≠ []) : Parts cut (dotted labels) labels := by
  induction labels with
  | nil => exact .nil
  | cons a labels ih =>
    obtain ⟨ha, hlabels⟩ := List.forall_mem_cons.mp hcut
    obtain ⟨hane, hlabelsne⟩ := List.forall_mem_cons.mp hne
    cases labels with
    | nil =>
      have hsingle : dotted [a] = escaped a ++ [] := by simp [dotted, List.intercalate]
      rw [hsingle]
      exact .cons (by simpa using escaped_ne_nil hane) (ha .done) .nil
    | cons b labels =>
      rw [dotted_cons_cons]
      exact .cons (by simp) (ha (.dot _)) (ih hlabels hlabelsne)

/-- Behind one more dot, another name can follow. -/
theorem parts_dotted_append {cut : CString → Option (CString × CString)} {labels : List CString}
    (hcut : ∀ label ∈ labels, ∀ {name rest}, Behind name rest → cut (escaped label ++ name) = some (label, rest))
    (hlabels : labels ≠ []) {rest : CString} {ps : List CString} (hrest : Parts cut rest ps) :
    Parts cut (dotted labels ++ 0x2E :: rest) (labels ++ ps) := by
  induction labels with
  | nil => exact absurd rfl hlabels
  | cons a labels ih =>
    obtain ⟨ha, htail⟩ := List.forall_mem_cons.mp hcut
    cases labels with
    | nil =>
      have hsingle : dotted [a] = escaped a := by simp [dotted, List.intercalate]
      rw [hsingle]
      exact .cons (by simp) (ha (.dot _)) hrest
    | cons b labels =>
      rw [dotted_cons_cons, List.append_assoc]
      exact .cons (by simp) (ha (.dot _)) (ih htail (List.cons_ne_nil _ _))

/-- Reading what was written gives the labels back. -/
theorem labels_dotted {labels : List CString} (hvalid : ∀ label ∈ labels, ValidLabel label)
    (hne : ∀ label ∈ labels, label ≠ []) : Labels (dotted labels) labels :=
  parts_dotted (fun label hlabel _ _ hbehind => avahi_unescape_label_escaped (hvalid label hlabel) hbehind) hne

/-- Different labels are written differently. -/
theorem dotted_injective {as bs : List CString} (has : ∀ a ∈ as, 0 ∉ a ∧ a ≠ []) (hbs : ∀ b ∈ bs, 0 ∉ b ∧ b ≠ [])
    (h : dotted as = dotted bs) : as = bs := by
  -- a buffer that is long enough for every label of both
  let size := (as ++ bs).flatten.length + 1
  have hread (label : CString) (hmem : label ∈ as ++ bs) (hzero : 0 ∉ label) {name rest : CString}
      (hbehind : Behind name rest) : unescapeLoop size (escaped label ++ name) [] = some (label, rest) := by
    have hshort : label.length < size := Nat.lt_succ_of_le (List.Sublist.length_le (List.sublist_flatten_of_mem hmem))
    rw [unescapeLoop_escaped hzero name (by simpa using hshort), List.nil_append]
    cases hbehind with
    | done => exact unescapeLoop_nil hshort
    | dot => exact unescapeLoop_dot hshort rest
  have hparts : Parts (fun name => unescapeLoop size name []) (dotted as) as :=
    parts_dotted (fun a ha _ _ => hread a (List.mem_append_left bs ha) (has a ha).1) fun a ha => (has a ha).2
  rw [h] at hparts
  exact hparts.unique
    (parts_dotted (fun b hb _ _ => hread b (List.mem_append_right as hb) (hbs b hb).1) fun b hb => (hbs b hb).2)

end qtzeroconf.avahi
