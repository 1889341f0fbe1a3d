import QtZeroConf.AvahiCore.Rr

open cutting

namespace qtzeroconf.avahi

/-- `avahi_key_equal`. Names that cannot be read fail an assertion. -/
def avahi_key_equal (a b : AvahiKey) : Option Bool := do
  return (← avahi_domain_equal a.name b.name) && a.type = b.type && a.clazz = b.clazz

/-- `avahi_key_is_pattern`. -/
def avahi_key_is_pattern (k : AvahiKey) : Bool := k.type = AVAHI_DNS_TYPE_ANY || k.clazz = AVAHI_DNS_CLASS_ANY

/-- `avahi_key_pattern_match`. -/
def avahi_key_pattern_match (pattern k : AvahiKey) : Option Bool :=
  if avahi_key_is_pattern k then none
  else do
    return (← avahi_domain_equal pattern.name k.name) &&
      (pattern.type = k.type || pattern.type = AVAHI_DNS_TYPE_ANY) &&
      (pattern.clazz = k.clazz || pattern.clazz = AVAHI_DNS_CLASS_ANY)

/-- `avahi_key_hash`. -/
def avahi_key_hash (k : AvahiKey) : Option UInt32 := do
  return (← avahi_domain_hash k.name) + k.type.toUInt32 + k.clazz.toUInt32

/-- `rdata_equal`. Data of different types fails an assertion. -/
def rdata_equal : RData → RData → Option Bool
  | .srv priority weight port name, .srv priority' weight' port' name' => do
    return priority = priority' && weight = weight' && port = port' && (← avahi_domain_equal name name')
  | .ptr name, .ptr name' => avahi_domain_equal name name'
  | .hinfo cpu os, .hinfo cpu' os' => some (cpu = cpu' && os = os')
  | .txt string_list, .txt string_list' => some (avahi_string_list_equal string_list string_list')
  | .a address, .a address' => some (address = address')
  | .aaaa address, .aaaa address' => some (address = address')
  | .generic data, .generic data' => some (data.length = data'.length && (data.length = 0 || data = data'))
  | _, _ => none

/-- `avahi_record_equal_no_ttl`. -/
def avahi_record_equal_no_ttl (a b : AvahiRecord) : Option Bool := do
  if !(← avahi_key_equal a.key b.key) then return false
  rdata_equal a.data b.data

/-- A name all of whose labels can be read. -/
def Readable (name : CString) : Prop := ∃ labels, Labels name labels

/-- The labels of two names agree up to case. -/
def SameName (a b : CString) : Prop := ∃ as bs, Labels a as ∧ Labels b bs ∧ SameLabels as bs

theorem Readable.refl {a : CString} (h : Readable a) : SameName a a := by
  obtain ⟨as, ha⟩ := h
  exact ⟨as, as, ha, ha, .refl as⟩

theorem SameName.symm {a b : CString} (h : SameName a b) : SameName b a := by
  obtain ⟨as, bs, ha, hb, hsame⟩ := h
  exact ⟨bs, as, hb, ha, hsame.symm⟩

/-- A name is read in one way only. -/
theorem SameName.trans {a b c : CString} (h : SameName a b) (h' : SameName b c) : SameName a c := by
  obtain ⟨as, bs, ha, hb, hsame⟩ := h
  obtain ⟨bs', cs, hb', hc, hsame'⟩ := h'
  obtain rfl := hb.unique hb'
  exact ⟨as, cs, ha, hc, hsame.trans hsame'⟩

/-- Names that can be read are compared label by label. -/
theorem Readable.equal {a b : CString} (ha : Readable a) (hb : Readable b) :
    ∃ r, avahi_domain_equal a b = some r ∧ (r = true ↔ SameName a b) := by
  obtain ⟨as, ha⟩ := ha
  obtain ⟨bs, hb⟩ := hb
  obtain ⟨r, hr, hiff⟩ := equalLoop_spec ha hb (Nat.lt_succ_self _)
  refine ⟨r, hr, hiff.trans ⟨fun h => ⟨as, bs, ha, hb, h⟩, ?_⟩⟩
  rintro ⟨as', bs', ha', hb', hsame⟩
  rwa [ha.unique ha', hb.unique hb']

/-- Data whose names can be read. -/
def RData.Readable : RData → Prop
  | .ptr name => avahi.Readable name
  | .srv _ _ _ name => avahi.Readable name
  | .hinfo _ _ | .txt _ | .a _ | .aaaa _ | .generic _ => True

/-- A key whose name can be read, as `avahi_key_new` makes it. -/
def Key : Type := { k : AvahiKey // Readable k.name }

/-- A record whose names can be read. -/
def Record : Type := { r : AvahiRecord // Readable r.key.name ∧ r.data.Readable }

/-- The same question. -/
structure Key.Same (a b : Key) : Prop where
  name : SameName a.val.name b.val.name
  type : a.val.type = b.val.type
  clazz : a.val.clazz = b.val.clazz

/-- The same data, with names up to case. -/
inductive RData.Same : RData → RData → Prop
  | ptr {name name' : CString} : SameName name name' → Same (.ptr name) (.ptr name')
  | srv {priority weight port : UInt16} {name name' : CString} : SameName name name' →
      Same (.srv priority weight port name) (.srv priority weight port name')
  | eq {data : RData} : data.kind ≠ .ptr → data.kind ≠ .srv → Same data data

/-- To ask the same is an equivalence. -/
theorem Key.same_equivalence : Equivalence Key.Same := by
  refine ⟨fun a => ⟨a.property.refl, rfl, rfl⟩, fun h => ⟨h.name.symm, h.type.symm, h.clazz.symm⟩, fun h h' => ?_⟩
  exact ⟨h.name.trans h'.name, h.type.trans h'.type, h.clazz.trans h'.clazz⟩

/-- The comparison of keys decides whether they ask the same. -/
theorem Key.equal (a b : Key) : ∃ r, avahi_key_equal a.val b.val = some r ∧ (r = true ↔ a.Same b) := by
  obtain ⟨r, hr, hiff⟩ := a.property.equal b.property
  refine ⟨r && a.val.type = b.val.type && a.val.clazz = b.val.clazz, ?_, ?_⟩
  · simp only [avahi_key_equal, hr, bind, Option.bind, pure]
  · simp only [Bool.and_eq_true, decide_eq_true_eq, hiff]
    exact ⟨fun h => ⟨h.1.1, h.1.2, h.2⟩, fun h => ⟨⟨h.name, h.type⟩, h.clazz⟩⟩

/-- The comparison of data of one type decides whether they are the same, up to
    case in names. -/
theorem rdata_equal_spec {a b : RData} (ha : a.Readable) (hb : b.Readable) (hkind : a.kind = b.kind) :
    ∃ r, rdata_equal a b = some r ∧ (r = true ↔ a.Same b) := by
  have hsame {x y : RData} (hx : x.kind ≠ .ptr) (hx' : x.kind ≠ .srv) : x.Same y ↔ x = y := by
    constructor
    · intro h
      cases h with
      | ptr => exact absurd rfl hx
      | srv => exact absurd rfl hx'
      | eq => rfl
    · rintro rfl
      exact .eq hx hx'
  cases a <;> cases b <;> cases hkind
  case generic.generic data data' =>
    refine ⟨_, rfl, ?_⟩
    rw [hsame (by simp [RData.kind]) (by simp [RData.kind])]
    simp only [Bool.and_eq_true, decide_eq_true_eq, Bool.or_eq_true, RData.generic.injEq]
    constructor
    · rintro ⟨hlength, hempty | heq⟩
      · rw [List.length_eq_zero_iff.mp hempty, List.length_eq_zero_iff.mp (hlength.symm.trans hempty)]
      · exact heq
    · rintro rfl
      exact ⟨rfl, Or.inr rfl⟩
  case srv.srv priority weight port name priority' weight' port' name' =>
    obtain ⟨r, hr, hiff⟩ := Readable.equal ha hb
    refine ⟨priority = priority' && weight = weight' && port = port' && r, ?_, ?_⟩
    · simp only [rdata_equal, hr, bind, Option.bind, pure]
    · simp only [Bool.and_eq_true, decide_eq_true_eq, hiff]
      constructor
      · rintro ⟨⟨⟨rfl, rfl⟩, rfl⟩, h⟩
        exact .srv h
      · rintro (_ | h | ⟨-, h⟩)
        · exact ⟨⟨⟨rfl, rfl⟩, rfl⟩, h⟩
        · exact absurd rfl h
  case ptr.ptr name name' =>
    obtain ⟨r, hr, hiff⟩ := Readable.equal ha hb
    refine ⟨r, hr, hiff.trans ⟨.ptr, ?_⟩⟩
    rintro (h | _ | ⟨h, -⟩)
    · exact h
    · exact absurd rfl h
  case hinfo.hinfo cpu os cpu' os' =>
    refine ⟨_, rfl, ?_⟩
    rw [hsame (by simp [RData.kind]) (by simp [RData.kind])]
    simp
  case txt.txt l l' =>
    refine ⟨_, rfl, ?_⟩
    rw [hsame (by simp [RData.kind]) (by simp [RData.kind]), avahi_string_list_equal_iff]
    simp
  case a.a address address' =>
    refine ⟨_, rfl, ?_⟩
    rw [hsame (by simp [RData.kind]) (by simp [RData.kind])]
    simp
  case aaaa.aaaa address address' =>
    refine ⟨_, rfl, ?_⟩
    rw [hsame (by simp [RData.kind]) (by simp [RData.kind])]
    simp

/-- The same resource record, whatever its TTL. -/
structure Record.Same (a b : Record) : Prop where
  key : Key.Same ⟨a.val.key, a.property.1⟩ ⟨b.val.key, b.property.1⟩
  data : a.val.data.Same b.val.data

theorem RData.Same.symm {a b : RData} (h : a.Same b) : b.Same a := by
  cases h with
  | ptr h => exact .ptr h.symm
  | srv h => exact .srv h.symm
  | eq h h' => exact .eq h h'

theorem RData.Same.trans {a b c : RData} (h : a.Same b) (h' : b.Same c) : a.Same c := by
  cases h with
  | ptr h =>
    cases h' with
    | ptr h' => exact .ptr (h.trans h')
    | eq h₁ _ => exact absurd rfl h₁
  | srv h =>
    cases h' with
    | srv h' => exact .srv (h.trans h')
    | eq _ h₂ => exact absurd rfl h₂
  | eq h₁ h₂ => exact h'

theorem RData.Readable.refl {a : RData} (h : a.Readable) : a.Same a := by
  cases a with
  | ptr name => exact .ptr (avahi.Readable.refl h)
  | srv priority weight port name => exact .srv (avahi.Readable.refl h)
  | generic | hinfo | txt | a | aaaa => exact .eq (by simp [RData.kind]) (by simp [RData.kind])

/-- The comparison of records decides whether they are the same. -/
theorem Record.equal (a b : Record) : ∃ r, avahi_record_equal_no_ttl a.val b.val = some r ∧ (r = true ↔ a.Same b) := by
  obtain ⟨r, hr, hiff⟩ := Key.equal ⟨a.val.key, a.property.1⟩ ⟨b.val.key, b.property.1⟩
  cases r with
  | false =>
    refine ⟨false, ?_, nofun, fun h => hiff.mpr h.key⟩
    simp only [avahi_record_equal_no_ttl, hr, bind, Option.bind, pure, Bool.not_false, if_true]
  | true =>
    have hkey := hiff.mp rfl
    have hkind : a.val.data.kind = b.val.data.kind := by
      rw [a.val.typed, b.val.typed]
      exact congrArg rdataKind hkey.type
    obtain ⟨r, hdata, hiff⟩ := rdata_equal_spec a.property.2 b.property.2 hkind
    refine ⟨r, ?_, hiff.trans ⟨fun h => ⟨hkey, h⟩, Record.Same.data⟩⟩
    simp only [avahi_record_equal_no_ttl, hr, bind, Option.bind, Bool.not_true, Bool.false_eq_true, if_false, hdata]

/-- To be the same record is an equivalence. -/
theorem Record.same_equivalence : Equivalence Record.Same :=
  ⟨fun a => ⟨Key.same_equivalence.refl _, a.property.2.refl⟩,
    fun h => ⟨Key.same_equivalence.symm h.key, h.data.symm⟩,
    fun h h' => ⟨Key.same_equivalence.trans h.key h'.key, h.data.trans h'.data⟩⟩

/-- Keys that ask the same hash alike, whatever the case of their names. -/
theorem Key.Same.hash {a b : Key} (h : a.Same b) :
    ∃ hash, avahi_key_hash a.val = some hash ∧ avahi_key_hash b.val = some hash := by
  obtain ⟨as, bs, ha, hb, hsame⟩ := h.name
  obtain ⟨hash, hhash⟩ : ∃ hash, avahi_domain_hash a.val.name = some hash := ⟨_, hashLoop_spec ha (Nat.le_refl _) 0⟩
  have hsecond : avahi_domain_hash b.val.name = some hash := by
    rw [← hhash, avahi_domain_hash, avahi_domain_hash, hashLoop_spec ha (Nat.le_refl _) 0,
      hashLoop_spec hb (Nat.le_refl _) 0, sameLabels_flatten hsame]
  refine ⟨hash + a.val.type.toUInt32 + a.val.clazz.toUInt32, ?_, ?_⟩
  · simp only [avahi_key_hash, hhash, bind, Option.bind, pure]
  · simp only [avahi_key_hash, hsecond, bind, Option.bind, pure, h.type, h.clazz]

/-- A valid domain name can be read. -/
theorem domainLoop_readable {turns : Nat} {is_first : Bool} {t : CString} (h : domainLoop turns is_first t = true) :
    Readable t := by
  induction turns generalizing is_first t with
  | zero => cases h
  | succ turns ih =>
    by_cases hend : t = []
    · subst hend
      exact ⟨[], .nil⟩
    · rw [domainLoop] at h
      split at h
      · cases h
      · rename_i label rest hcut
        suffices hrest : Readable rest by
          obtain ⟨labels, hlabels⟩ := hrest
          exact ⟨label :: labels, .cons hend hcut hlabels⟩
        split_ifs at h with hroot hlabel hlast
        · obtain ⟨-, -, rfl⟩ := hroot
          exact ⟨[], .nil⟩
        · subst hlast
          exact ⟨[], .nil⟩
        · exact ih h

/-- A name that passes its check can be read. -/
theorem readable_of_valid {name : CString} (h : avahi_is_valid_domain_name name = true) : Readable name := by
  unfold avahi_is_valid_domain_name at h
  split_ifs at h
  exact domainLoop_readable h

/-- What is valid can be compared. -/
theorem AvahiRecord.readable {r : AvahiRecord} (h : avahi_record_is_valid r = true) :
    Readable r.key.name ∧ r.data.Readable := by
  unfold avahi_record_is_valid avahi_key_is_valid at h
  split_ifs at h with hkey
  refine ⟨readable_of_valid (by simpa using hkey), ?_⟩
  split at h <;> rename_i heq <;> rw [heq]
  · exact readable_of_valid h
  · exact readable_of_valid h
  all_goals trivial

/-- Records whose names can be read are never mixed up by their comparison: it is
    an equivalence relation that tells the same questions and data, up to case,
    from all others, and equal records hash alike. -/
theorem avahi_record_equal_no_ttl_equivalence :
    Equivalence (fun a b : Record => avahi_record_equal_no_ttl a.val b.val = some true) ∧
      ∀ a b : Record, (∃ r, avahi_record_equal_no_ttl a.val b.val = some r) ∧
        (avahi_record_equal_no_ttl a.val b.val = some true ↔ a.Same b) ∧
        (avahi_record_equal_no_ttl a.val b.val = some true → ∃ hash, avahi_key_hash a.val.key = some hash ∧
          avahi_key_hash b.val.key = some hash) := by
  have hsame (a b : Record) : avahi_record_equal_no_ttl a.val b.val = some true ↔ a.Same b := by
    obtain ⟨r, hr, hiff⟩ := a.equal b
    rw [hr, Option.some.injEq, hiff]
  refine ⟨⟨fun a => ?_, fun {a b} h => ?_, fun {a b c} h h' => ?_⟩, fun a b => ⟨?_, hsame a b, fun h => ?_⟩⟩
  · exact (hsame a a).mpr (Record.same_equivalence.refl a)
  · exact (hsame b a).mpr (Record.same_equivalence.symm ((hsame a b).mp h))
  · exact (hsame a c).mpr (Record.same_equivalence.trans ((hsame a b).mp h) ((hsame b c).mp h'))
  · obtain ⟨r, hr, -⟩ := a.equal b
    exact ⟨r, hr⟩
  · exact ((hsame a b).mp h).key.hash

end qtzeroconf.avahi
