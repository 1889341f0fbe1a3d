import QtZeroConf.AvahiCommon.Domain

open cutting

namespace qtzeroconf.avahi

def AVAHI_ERR_INVALID_DOMAIN_NAME : Int := -4

def AVAHI_ERR_INVALID_SERVICE_NAME : Int := -10

def AVAHI_ERR_INVALID_SERVICE_TYPE : Int := -11

def AVAHI_ERR_NO_MEMORY : Int := -24

/-- How a function on names fails: with an error code, in an assertion, by
    writing behind a buffer, or by reading behind one without a terminator. -/
inductive NameFailure where
  | error (code : Int)
  | aborted
  | overrun
  | unterminated
  deriving DecidableEq

/-- `avahi_is_valid_service_name`. -/
def avahi_is_valid_service_name (t : CString) : Bool := !(AVAHI_LABEL_MAX ≤ t.length || t = [])

/-- The loop of `avahi_is_valid_service_type_generic`. -/
def typeLoop : Nat → CString → Bool
  | 0, _ => false
  | turns + 1, t =>
    match avahi_unescape_label AVAHI_LABEL_MAX t with
    | none => false
    | some (label, t) =>
      if label.length ≤ 2 ∨ label.head? ≠ some 0x5F then false else if t = [] then true else typeLoop turns t

/-- `avahi_is_valid_service_type_generic`. -/
def avahi_is_valid_service_type_generic (t : CString) : Bool :=
  if AVAHI_DOMAIN_NAME_MAX ≤ t.length ∨ t = [] then false else typeLoop t.length t

/-- The loop of `avahi_is_valid_domain_name`. -/
def domainLoop : Nat → Bool → CString → Bool
  | 0, _, _ => false
  | turns + 1, is_first, t =>
    match avahi_unescape_label AVAHI_LABEL_MAX t with
    | none => false
    | some (label, t) =>
      -- the root domain name is allowed
      if is_first ∧ label = [] ∧ t = [] then true
      else if label = [] then false
      else if t = [] then true
      else domainLoop turns false t

/-- `avahi_is_valid_domain_name`. -/
def avahi_is_valid_domain_name (t : CString) : Bool :=
  if AVAHI_DOMAIN_NAME_MAX ≤ t.length then false else domainLoop (t.length + 1) true t

/-- What is read of a buffer that a name was normalized into, as a C string. -/
def normalized (code : Int) : Normalized → Except NameFailure CString
  | .null => .error (.error code)
  | .aborted => .error .aborted
  | .overrun => .error .overrun
  | .buffer r => if r.terminated then .ok r.text else .error .unterminated

/-- `avahi_service_name_join`, into a buffer of `size` bytes. The name may be
    null. -/
def avahi_service_name_join (size : Nat) (name : Option CString) (type domain : CString) :
    Except NameFailure CString := do
  if name.any (!avahi_is_valid_service_name ·) then throw (.error AVAHI_ERR_INVALID_SERVICE_NAME)
  if !avahi_is_valid_service_type_generic type then throw (.error AVAHI_ERR_INVALID_SERVICE_TYPE)
  if !avahi_is_valid_domain_name domain then throw (.error AVAHI_ERR_INVALID_DOMAIN_NAME)
  let escaped_name ← match name with
    | none => pure []
    | some name =>
      match avahi_escape_label name (Cursor.start (AVAHI_LABEL_MAX * 4)) with
      | (true, e) => if e.overrun then throw .overrun else pure (e.text ++ [0x2E])
      | (false, _) => throw .aborted
  let normalized_type ← normalized AVAHI_ERR_INVALID_SERVICE_TYPE (avahi_normalize_name AVAHI_DOMAIN_NAME_MAX type)
  let normalized_domain ← normalized AVAHI_ERR_INVALID_DOMAIN_NAME (avahi_normalize_name AVAHI_DOMAIN_NAME_MAX domain)
  return (escaped_name ++ normalized_type ++ 0x2E :: normalized_domain).take (size - 1)

/-- The states of `avahi_service_name_split`. -/
inductive SplitState where
  | NAME
  | TYPE
  | DOMAIN
  deriving DecidableEq

/-- The variables of `avahi_service_name_split`. -/
structure Split where
  state : SplitState
  name : CString
  type : Cursor
  type_empty : Bool
  domain : Cursor
  domain_empty : Bool

/-- How a label gets behind those that `r` has already, after a dot if there are
    any. -/
def appendLabel (buf : CString) (empty : Bool) (r : Cursor) : Except NameFailure Cursor :=
  if ¬ empty ∧ r.size = 0 then .error (.error AVAHI_ERR_NO_MEMORY)
  else
    let r := if empty then r else r.put [0x2E]
    if r.size = 0 then .error .aborted
    else
      match avahi_escape_label buf r with
      | (true, r) => if r.overrun then .error .overrun else .ok r
      | (false, _) => .error (.error AVAHI_ERR_NO_MEMORY)

/-- The branch of the domain. -/
def Split.toDomain (s : Split) (buf : CString) : Except NameFailure Split := do
  let domain ← appendLabel buf s.domain_empty s.domain
  return { s with state := .DOMAIN, domain, domain_empty := false }

/-- What `avahi_service_name_split` does with a label. -/
def Split.label (s : Split) (name_size : Nat) (buf : CString) : Except NameFailure Split :=
  match s.state with
  | .NAME => return { s with name := buf.take (name_size - 1), state := .TYPE }
  | .TYPE =>
    if buf.head? = some 0x5F then do
      let type ← appendLabel buf s.type_empty s.type
      return { s with type, type_empty := false }
    else s.toDomain buf
  | .DOMAIN => s.toDomain buf

/-- The loop of `avahi_service_name_split`. -/
def splitLoop (name_size : Nat) : Nat → CString → Split → Except NameFailure Split
  | _, [], s => .ok s
  | 0, _ :: _, _ => .error (.error (-1))
  | turns + 1, c :: p, s =>
    match avahi_unescape_label 64 (c :: p) with
    | none => .error (.error (-1))
    | some (buf, p) => do splitLoop name_size turns p (← s.label name_size buf)

/-- `avahi_service_name_split`. Without a buffer for it there is no name to
    split off. -/
def avahi_service_name_split (p : CString) (name_size : Option Nat) (type_size domain_size : Nat) :
    Except NameFailure Split :=
  if type_size = 0 ∨ domain_size = 0 ∨ name_size = some 0 then .error .aborted
  else
    splitLoop (name_size.getD 0) p.length p
      { state := if name_size.isSome then .NAME else .TYPE
        name := []
        type := (Cursor.start type_size).terminate
        type_empty := true
        domain := (Cursor.start domain_size).terminate
        domain_empty := true }

/-- The dot in front of a label, unless it is the first. -/
def separator (empty : Bool) : CString := if empty then [] else [0x2E]

/-- A dot behind what has been written, unless nothing has. -/
theorem separated_written {size : Nat} {text : CString} {empty : Bool} (h : (text ++ separator empty).length ≤ size) :
    (if empty then written size text else (written size text).put [0x2E]) =
      { written size (text ++ separator empty) with terminated := empty } := by
  cases empty with
  | true => simp [written, separator]
  | false => exact put_written h

/-- A label that fits is appended in full. -/
theorem appendLabel_fits {buf text : CString} {empty : Bool} {size : Nat}
    (h : (text ++ separator empty ++ escaped buf).length < size) :
    appendLabel buf empty (written size text) = .ok (written size (text ++ separator empty ++ escaped buf)) := by
  simp only [List.length_append] at h
  have hput := @separated_written size text empty (by rw [List.length_append]; omega)
  have hdot : ¬ (¬ empty = true ∧ (written size text).size = 0) := by
    rintro ⟨-, hfull⟩
    simp only [written] at hfull
    omega
  have hleft : (written size (text ++ separator empty)).size ≠ 0 := by
    simp only [written, List.length_append]
    omega
  have hescape := @escape_written size (text ++ separator empty) buf
    (by simp only [List.length_append]; omega) empty
  have hinside : (written size (text ++ separator empty ++ escaped buf)).overrun = false := rfl
  rw [appendLabel, if_neg hdot, hput]
  simp only [hleft, if_false, hescape, hinside, Bool.false_eq_true]

/-- The labels are dealt with one after the other. -/
theorem splitLoop_labels {p : CString} {labels : List CString} (h : Labels p labels) {turns : Nat}
    (hturns : p.length ≤ turns) (name_size : Nat) (s : Split) :
    splitLoop name_size turns p s = labels.foldlM (fun s buf => s.label name_size buf) s := by
  induction h generalizing turns s with
  | nil => cases turns <;> rfl
  | @cons p rest label labels hp hcut _ ih =>
    obtain ⟨c, p, rfl⟩ := List.exists_cons_of_ne_nil hp
    obtain ⟨turns, rfl⟩ : ∃ n, turns = n + 1 := ⟨turns - 1, by simp at hturns; omega⟩
    have hless := unescape_shrinks hp hcut
    simp only [List.length_cons] at hturns hless
    have hcut' : avahi_unescape_label 64 (c :: p) = some (label, rest) := hcut
    simp only [splitLoop, hcut', List.foldlM_cons]
    cases s.label name_size label with
    | error e => rfl
    | ok s => exact ih (by omega) s

/-- Labels behind others, each after a dot. -/
def appended (labels : List CString) : CString := labels.flatMap fun label => 0x2E :: escaped label

theorem dotted_eq (a : CString) (labels : List CString) : dotted (a :: labels) = escaped a ++ appended labels :=
  dotted_cons a labels

/-- Labels that all go to the same cursor end up there, one behind the other. -/
theorem foldl_labels (put : Cursor → Split) {name_size : Nat} {labels : List CString}
    (hput : ∀ buf ∈ labels, ∀ r, (put r).label name_size buf = (appendLabel buf false r).map put) {size : Nat}
    {text : CString} (hfits : (text ++ appended labels).length < size) :
    labels.foldlM (fun s buf => s.label name_size buf) (put (written size text)) =
      .ok (put (written size (text ++ appended labels))) := by
  induction labels generalizing text with
  | nil => simp [appended, pure, Except.pure]
  | cons a labels ih =>
    obtain ⟨ha, hrest⟩ := List.forall_mem_cons.mp hput
    have happended : text ++ appended (a :: labels) = (text ++ separator false ++ escaped a) ++ appended labels := by
      simp [appended, separator]
    rw [happended] at hfits ⊢
    have hfirst : (text ++ separator false ++ escaped a).length < size := by
      rw [List.length_append] at hfits
      omega
    rw [List.foldlM_cons, ha, appendLabel_fits hfirst]
    exact ih hrest hfits

/-- The labels of a type are the ones that start with an underscore. -/
theorem foldl_types {types : List CString} (hne : types ≠ []) (htypes : ∀ t ∈ types, t.head? = some 0x5F) {size : Nat}
    (hfits : (dotted types).length < size) (name_size : Nat) (s : Split) :
    types.foldlM (fun s buf => s.label name_size buf)
        { s with state := .TYPE, type := written size [], type_empty := true } =
      .ok { s with state := .TYPE, type := written size (dotted types), type_empty := false } := by
  obtain ⟨t, types, rfl⟩ := List.exists_cons_of_ne_nil hne
  obtain ⟨ht, hrest⟩ := List.forall_mem_cons.mp htypes
  rw [dotted_eq] at hfits ⊢
  have hfirst : ([] ++ separator true ++ escaped t).length < size := by
    rw [List.length_append] at hfits
    simp only [separator, if_true, List.nil_append]
    omega
  rw [List.foldlM_cons]
  simp only [Split.label, ht, if_true, appendLabel_fits hfirst]
  refine foldl_labels (fun r => { s with state := .TYPE, type := r, type_empty := false }) ?_ hfits
  intro buf hbuf r
  simp only [Split.label, hrest buf hbuf, if_true]
  cases appendLabel buf false r <;> rfl

/-- From the first label on that does not, everything is the domain. -/
theorem foldl_domains {domains : List CString} (hfirst : ∀ d ∈ domains.head?, d.head? ≠ some 0x5F) {size : Nat}
    (hfits : (dotted domains).length < size) (name_size : Nat) (s : Split) :
    ∃ state domain_empty, domains.foldlM (fun s buf => s.label name_size buf)
        { s with state := .TYPE, domain := written size [], domain_empty := true } =
      .ok { s with state, domain := written size (dotted domains), domain_empty } := by
  cases domains with
  | nil => exact ⟨.TYPE, true, rfl⟩
  | cons d domains =>
    have hd : d.head? ≠ some 0x5F := hfirst d rfl
    rw [dotted_eq] at hfits ⊢
    have hroom : ([] ++ separator true ++ escaped d).length < size := by
      rw [List.length_append] at hfits
      simp only [separator, if_true, List.nil_append]
      omega
    refine ⟨.DOMAIN, false, ?_⟩
    rw [List.foldlM_cons]
    simp only [Split.label, hd, if_false, Split.toDomain, appendLabel_fits hroom]
    refine foldl_labels (fun r => { s with state := .DOMAIN, domain := r, domain_empty := false }) ?_ hfits
    intro buf _ r
    simp only [Split.label, Split.toDomain]
    cases appendLabel buf false r <;> rfl

/-- The labels of a valid service type are longer than an underscore and one
    more byte. -/
theorem typeLoop_labels {turns : Nat} {t : CString} {labels : List CString} (hlabels : Labels t labels)
    (h : typeLoop turns t = true) : labels ≠ [] ∧ ∀ label ∈ labels, 2 < label.length ∧ label.head? = some 0x5F := by
  induction turns generalizing t labels with
  | zero => cases h
  | succ turns ih =>
    rw [typeLoop] at h
    cases hlabels with
    | nil => cases h
    | @cons _ rest label labels hne hcut htail =>
      simp only [hcut] at h
      by_cases hbad : label.length ≤ 2 ∨ label.head? ≠ some 0x5F
      · rw [if_pos hbad] at h
        cases h
      · rw [if_neg hbad] at h
        rw [not_or, not_not] at hbad
        have hlabel : 2 < label.length ∧ label.head? = some 0x5F := ⟨Nat.lt_of_not_le hbad.1, hbad.2⟩
        refine ⟨List.cons_ne_nil _ _, List.forall_mem_cons.mpr ⟨hlabel, ?_⟩⟩
        by_cases hend : rest = []
        · rw [hend] at htail
          rw [htail.eq_nil]
          nofun
        · rw [if_neg hend] at h
          exact (ih htail h).2

/-- A valid domain name is the root, or has no empty label. -/
theorem domainLoop_labels {turns : Nat} {is_first : Bool} {t : CString} {labels : List CString}
    (hlabels : Labels t labels) (h : domainLoop turns is_first t = true) :
    (is_first = true ∧ labels = [[]]) ∨ ∀ label ∈ labels, label ≠ [] := by
  induction turns generalizing is_first t labels with
  | zero => cases h
  | succ turns ih =>
    rw [domainLoop] at h
    cases hlabels with
    | nil => exact Or.inr nofun
    | @cons _ rest label labels hne hcut htail =>
      simp only [hcut] at h
      by_cases hroot : is_first = true ∧ label = [] ∧ rest = []
      · obtain ⟨hfirst, rfl, rfl⟩ := hroot
        rw [htail.eq_nil]
        exact Or.inl ⟨hfirst, rfl⟩
      · rw [if_neg hroot] at h
        by_cases hempty : label = []
        · rw [if_pos hempty] at h
          cases h
        · rw [if_neg hempty] at h
          refine Or.inr (List.forall_mem_cons.mpr ⟨hempty, ?_⟩)
          by_cases hend : rest = []
          · rw [hend] at htail
            rw [htail.eq_nil]
            nofun
          · rw [if_neg hend] at h
            rcases ih htail h with ⟨hfirst, -⟩ | hall
            · cases hfirst
            · exact hall

/-- The parts of a service name that fit into the buffers they go through. The
    first label of the domain must not look like one of a type. -/
structure Joinable (size : Nat) (name type domain : CString) (types domains : List CString) : Prop where
  valid_name : avahi_is_valid_service_name name = true
  name_utf8 : avahi_utf8_valid name = true
  name_nonzero : 0 ∉ name
  valid_type : avahi_is_valid_service_type_generic type = true
  type_nonzero : 0 ∉ type
  read_types : Labels type types
  valid_domain : avahi_is_valid_domain_name domain = true
  domain_nonzero : 0 ∉ domain
  read_domains : Labels domain domains
  first : ∀ d ∈ domains.head?, d.head? ≠ some 0x5F
  types_fit : (dotted types).length < AVAHI_DOMAIN_NAME_MAX
  domains_fit : (dotted domains).length < AVAHI_DOMAIN_NAME_MAX
  fits : (escaped name ++ 0x2E :: (dotted types ++ 0x2E :: dotted domains)).length < size

/-- The root domain is normalized to nothing. -/
theorem avahi_normalize_name_root {size : Nat} (hsize : size ≠ 0) {s : CString} (h : Labels s [[]]) :
    avahi_normalize_name size s = .buffer (written size []) := by
  rw [avahi_normalize_name, if_neg hsize, terminate_start hsize]
  cases h with
  | @cons _ rest _ _ hs hcut hrest =>
    obtain ⟨c, s, rfl⟩ := List.exists_cons_of_ne_nil hs
    have hend : rest = [] := by
      cases hrest with
      | nil => rfl
    simp [normalizeLoop, hcut, hend]

theorem length_escapedByte_le (c : UInt8) : (escapedByte c).length ≤ 4 := by
  unfold escapedByte
  split_ifs <;> simp [decimal]

theorem length_escaped_le (label : CString) : (escaped label).length ≤ 4 * label.length := by
  induction label with
  | nil => simp
  | cons c label ih =>
    have hbyte := length_escapedByte_le c
    rw [escaped_cons, List.length_append, List.length_cons]
    omega

namespace Joinable

variable {size : Nat} {name type domain : CString} {types domains : List CString}

theorem validLabel (h : Joinable size name type domain types domains) : ValidLabel name := by
  have hname := h.valid_name
  simp only [avahi_is_valid_service_name, Bool.not_eq_true', Bool.or_eq_false_iff, decide_eq_false_iff_not] at hname
  exact ⟨Nat.lt_of_not_le hname.1, h.name_nonzero, h.name_utf8⟩

theorem types_typed (h : Joinable size name type domain types domains) :
    types ≠ [] ∧ ∀ label ∈ types, 2 < label.length ∧ label.head? = some 0x5F := by
  have htype := h.valid_type
  unfold avahi_is_valid_service_type_generic at htype
  split_ifs at htype
  exact typeLoop_labels h.read_types htype

theorem types_nonempty (h : Joinable size name type domain types domains) : ∀ label ∈ types, label ≠ [] := by
  rintro label hlabel rfl
  exact absurd (h.types_typed.2 [] hlabel).1 (by decide)

theorem domains_root_or_nonempty (h : Joinable size name type domain types domains) :
    domains = [[]] ∨ ∀ label ∈ domains, label ≠ [] := by
  have hdomain := h.valid_domain
  unfold avahi_is_valid_domain_name at hdomain
  split_ifs at hdomain
  exact (domainLoop_labels h.read_domains hdomain).imp_left And.right

theorem normalize_domain (h : Joinable size name type domain types domains) :
    avahi_normalize_name AVAHI_DOMAIN_NAME_MAX domain = .buffer (written AVAHI_DOMAIN_NAME_MAX (dotted domains)) := by
  rcases h.domains_root_or_nonempty with hroot | hne
  · have hread := h.read_domains
    rw [hroot] at hread ⊢
    exact avahi_normalize_name_root (by decide) hread
  · exact avahi_normalize_name_fits h.read_domains hne h.domains_fit

/-- The parts are joined by dots, each in its normal form. -/
theorem join (h : Joinable size name type domain types domains) :
    avahi_service_name_join size (some name) type domain =
      .ok (escaped name ++ 0x2E :: (dotted types ++ 0x2E :: dotted domains)) := by
  have hshort := h.validLabel.short
  have hlength := length_escaped_le name
  have hescape : avahi_escape_label name (Cursor.start (AVAHI_LABEL_MAX * 4)) =
      (true, written (AVAHI_LABEL_MAX * 4) (escaped name)) :=
    @escape_written (AVAHI_LABEL_MAX * 4) [] name (by simp only [List.nil_append, AVAHI_LABEL_MAX] at hshort ⊢; omega) false
  have hfits := h.fits
  have htake (p : CString) (hp : p.length < size) : p.take (size - 1) = p := List.take_of_length_le (by omega)
  simp only [avahi_service_name_join, Option.any_some, h.valid_name, h.valid_type, h.valid_domain, Bool.not_true,
    hescape, avahi_normalize_name_fits h.read_types h.types_nonempty h.types_fit, h.normalize_domain, normalized,
    written, if_true, Bool.false_eq_true, if_false, List.nil_append, pure, Except.pure, bind, Except.bind]
  rw [List.append_assoc, List.append_assoc, List.singleton_append, htake _ hfits]

/-- The labels of a joined name; the root domain adds none. -/
theorem labels_join (h : Joinable size name type domain types domains) :
    ∃ ds, dotted ds = dotted domains ∧ (∀ d ∈ ds.head?, d.head? ≠ some 0x5F) ∧
      Labels (escaped name ++ 0x2E :: (dotted types ++ 0x2E :: dotted domains)) (name :: types ++ ds) := by
  have htypes := h.read_types.valid h.type_nonzero
  have hread : ∀ label ∈ name :: types, ∀ {s rest}, Behind s rest →
      avahi_unescape_label AVAHI_LABEL_MAX (escaped label ++ s) = some (label, rest) := by
    intro label hlabel s rest hbehind
    refine avahi_unescape_label_escaped ?_ hbehind
    rcases List.mem_cons.mp hlabel with rfl | hlabel
    · exact h.validLabel
    · exact htypes label hlabel
  have hjoined (ds : List CString) (hds : Labels (dotted ds) ds) :
      Labels (escaped name ++ 0x2E :: (dotted types ++ 0x2E :: dotted ds)) (name :: types ++ ds) := by
    obtain ⟨t, ts, hts⟩ := List.exists_cons_of_ne_nil h.types_typed.1
    have hdotted : escaped name ++ 0x2E :: (dotted types ++ 0x2E :: dotted ds) =
        dotted (name :: types) ++ 0x2E :: dotted ds := by
      rw [hts, dotted_cons_cons, List.append_assoc, List.cons_append]
    rw [hdotted]
    exact parts_dotted_append hread (List.cons_ne_nil _ _) hds
  rcases h.domains_root_or_nonempty with hroot | hne
  · refine ⟨[], by rw [hroot]; rfl, nofun, ?_⟩
    have hempty : dotted domains = dotted [] := by rw [hroot]; rfl
    rw [hempty]
    exact hjoined [] .nil
  · exact ⟨domains, rfl, h.first, hjoined domains (labels_dotted (h.read_domains.valid h.domain_nonzero) hne)⟩

end Joinable

/-- A name, the labels of a type and those of a domain are split apart again. -/
theorem avahi_service_name_split_labels {p name : CString} {types ds : List CString}
    (hlabels : Labels p (name :: types ++ ds)) (hname : name.length < AVAHI_LABEL_MAX) (hne : types ≠ [])
    (htypes : ∀ t ∈ types, t.head? = some 0x5F) (hfirst : ∀ d ∈ ds.head?, d.head? ≠ some 0x5F) {size : Nat}
    (htypesfit : (dotted types).length < size) (hdsfit : (dotted ds).length < size) :
    ∃ state domain_empty, avahi_service_name_split p (some AVAHI_LABEL_MAX) size size =
      .ok { state, name, type := written size (dotted types), type_empty := false
            domain := written size (dotted ds), domain_empty } := by
  have hcopy : name.take (AVAHI_LABEL_MAX - 1) = name := List.take_of_length_le (Nat.le_sub_one_of_lt hname)
  obtain ⟨state, domain_empty, hdomains⟩ := foldl_domains hfirst hdsfit AVAHI_LABEL_MAX
    { state := .TYPE, name, type := written size (dotted types), type_empty := false
      domain := written size [], domain_empty := true }
  have htypes := foldl_types hne htypes htypesfit AVAHI_LABEL_MAX
    { state := .TYPE, name, type := written size [], type_empty := true
      domain := written size [], domain_empty := true }
  refine ⟨state, domain_empty, ?_⟩
  have hsize : size ≠ 0 := by omega
  have hsizes : ¬ (size = 0 ∨ size = 0 ∨ some AVAHI_LABEL_MAX = some 0) := by
    rintro (h | h | h)
    · exact hsize h
    · exact hsize h
    · cases h
  rw [avahi_service_name_split, if_neg hsizes, terminate_start hsize, splitLoop_labels hlabels (Nat.le_refl _),
    List.cons_append, List.foldlM_cons, Option.getD_some]
  simp only [Split.label, Option.isSome_some, if_true, hcopy, pure_bind, List.foldlM_append]
  refine (congrArg (· >>= _) htypes).trans ?_
  exact hdomains

/-- Splitting a joined service name gives back the name, byte for byte, and the
    normal forms of the type and the domain. -/
theorem avahi_service_name_split_join {size : Nat} {name type domain : CString} {types domains : List CString}
    (h : Joinable size name type domain types domains) :
    ∃ p s, avahi_service_name_join size (some name) type domain = .ok p ∧
      avahi_service_name_split p (some AVAHI_LABEL_MAX) AVAHI_DOMAIN_NAME_MAX AVAHI_DOMAIN_NAME_MAX = .ok s ∧
      s.name = name ∧ .buffer s.type = avahi_normalize_name AVAHI_DOMAIN_NAME_MAX type ∧
      .buffer s.domain = avahi_normalize_name AVAHI_DOMAIN_NAME_MAX domain := by
  obtain ⟨ds, hds, hfirst, hlabels⟩ := h.labels_join
  obtain ⟨state, domain_empty, hsplit⟩ := avahi_service_name_split_labels hlabels h.validLabel.short h.types_typed.1
    (fun t ht => (h.types_typed.2 t ht).2) hfirst h.types_fit (hds ▸ h.domains_fit)
  refine ⟨_, _, h.join, hsplit, rfl, ?_, ?_⟩
  · exact (avahi_normalize_name_fits h.read_types h.types_nonempty h.types_fit).symm
  · rw [h.normalize_domain, hds]

/-- A name with a dot and a byte beyond ASCII in it. -/
theorem avahi_service_name_split_join_printer :
    ∃ p s, avahi_service_name_join 64 (some [0xC3, 0xA4, 0x2E, 0x31]) [0x5F, 0x69, 0x70, 0x70] [0x4C] = .ok p ∧
      avahi_service_name_split p (some AVAHI_LABEL_MAX) AVAHI_DOMAIN_NAME_MAX AVAHI_DOMAIN_NAME_MAX = .ok s ∧
      s.name = [0xC3, 0xA4, 0x2E, 0x31] ∧
      .buffer s.type = avahi_normalize_name AVAHI_DOMAIN_NAME_MAX [0x5F, 0x69, 0x70, 0x70] ∧
      .buffer s.domain = avahi_normalize_name AVAHI_DOMAIN_NAME_MAX [0x4C] :=
  @avahi_service_name_split_join _ _ _ _ [[0x5F, 0x69, 0x70, 0x70]] [[0x4C]]
    ⟨by decide, by decide, by decide, by decide, by decide, parts_sound 4 (by decide), by decide, by decide,
      parts_sound 1 (by decide), by decide, by decide, by decide, by decide⟩

end qtzeroconf.avahi
