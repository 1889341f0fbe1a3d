import QtZeroConf.AvahiCore.RrEqual

open cutting Std

namespace qtzeroconf.avahi

/-- `strcmp`, up to the size of what it returns. -/
def strcmp (a b : CString) : Ordering := compare a b

/-- `memcmp` of as many bytes, up to the size of what it returns. -/
def memcmp (a b : QByteArray) : Ordering := compare a b

/-- What `lexicographical_memcmp` returns when both of its pointers are there. -/
def lexicographicalOrder (a b : QByteArray) : Ordering :=
  let c := if a.length < b.length then a.length else b.length
  match memcmp (a.take c) (b.take c) with
  | .eq =>
    if a.length = b.length then .eq
    -- of two that are equal so far, the shorter one comes last
    else if a.length = c then .gt else .lt
  | r => r

/-- `lexicographical_memcmp`. Data without bytes is at a NULL pointer, for which
    an assertion fails. -/
def lexicographical_memcmp (a b : QByteArray) : Option Ordering :=
  if a = [] ∨ b = [] then none else some (lexicographicalOrder a b)

/-- `uint16_cmp`. -/
def uint16_cmp (a b : UInt16) : Ordering := if a = b then .eq else if a < b then .lt else .gt

/-- The loop of `avahi_binary_domain_cmp`. A label that cannot be read fails an
    assertion. -/
def binaryCmpLoop : Nat → CString → CString → Option Ordering
  | 0, _, _ => none
  | turns + 1, a, b => do
    let (ca, a) ← avahi_unescape_label AVAHI_LABEL_MAX a
    let (cb, b) ← avahi_unescape_label AVAHI_LABEL_MAX b
    match strcmp ca cb with
    | .eq => if a = [] ∧ b = [] then return .eq else binaryCmpLoop turns a b
    | r => return r

/-- `avahi_binary_domain_cmp`, on two different strings. -/
def avahi_binary_domain_cmp (a b : CString) : Option Ordering := binaryCmpLoop (a.length + b.length + 1) a b

/-- The comparison of two serialized lists, one of which may have no bytes. -/
def serializedCmp (ma mb : QByteArray) : Option Ordering :=
  if 0 < ma.length ∧ 0 < mb.length then lexicographical_memcmp ma mb
  else if 0 < ma.length ∧ ¬ 0 < mb.length then some .gt
  else if ¬ 0 < ma.length ∧ 0 < mb.length then some .lt
  else some .eq

/-- The switch of `avahi_record_lexicographical_compare`, on data of one type. -/
def rdataCmp : RData → RData → Option Ordering
  | .ptr name, .ptr name' => avahi_binary_domain_cmp name name'
  | .srv priority weight port name, .srv priority' weight' port' name' =>
    match ((uint16_cmp priority priority').then (uint16_cmp weight weight')).then (uint16_cmp port port') with
    | .eq => avahi_binary_domain_cmp name name'
    | r => some r
  | .hinfo cpu os, .hinfo cpu' os' => some ((strcmp cpu cpu').then (strcmp os os'))
  | .txt string_list, .txt string_list' =>
    serializedCmp (avahi_string_list_serialize string_list (serializedSize string_list))
      (avahi_string_list_serialize string_list' (serializedSize string_list'))
  | .a address, .a address' => some (memcmp address.toList address'.toList)
  | .aaaa address, .aaaa address' => some (memcmp address.toList address'.toList)
  | .generic data, .generic data' => lexicographical_memcmp data data'
  | _, _ => none

/-- `avahi_record_lexicographical_compare`, of two different records. -/
def avahi_record_lexicographical_compare (a b : AvahiRecord) : Option Ordering :=
  match (uint16_cmp a.key.clazz b.key.clazz).then (uint16_cmp a.key.type b.key.type) with
  | .eq => rdataCmp a.data b.data
  | r => some r

/-- Data of a type that is not known, without any bytes: `parse_rdata` leaves
    its pointer at NULL when the length of the data is zero. -/
def RData.null : RData → Bool
  | .generic data => decide (data = [])
  | .ptr _ | .srv .. | .hinfo .. | .txt _ | .a _ | .aaaa _ => false

/-- The comparison of two records comes to data that is not there. -/
def AvahiRecord.Unordered (a b : AvahiRecord) : Prop :=
  a.key.clazz = b.key.clazz ∧ a.key.type = b.key.type ∧ (a.data.null = true ∨ b.data.null = true)

instance (a b : AvahiRecord) : Decidable (a.Unordered b) := inferInstanceAs (Decidable (_ ∧ _ ∧ (_ ∨ _)))

/-- Bytes as they are ordered by `memcmp`. -/
def bytesKey (bytes : List UInt8) : List Nat := bytes.map UInt8.toNat

/-- Bytes as they are ordered by `lexicographical_memcmp`: their end counts more
    than any byte. -/
def endedKey (bytes : List UInt8) : List Nat := bytesKey bytes ++ [256]

theorem compare_bytesKey (a b : List UInt8) : compare a b = compare (bytesKey a) (bytesKey b) := by
  induction a generalizing b with
  | nil => cases b <;> rfl
  | cons x a ih =>
    cases b with
    | nil => rfl
    | cons y b =>
      simp only [bytesKey, List.map_cons, List.compare_cons_cons, UInt8.compare_eq_toNat_compare_toNat] at ih ⊢
      rw [ih]

theorem lexicographicalOrder_cons (x y : UInt8) (a b : QByteArray) :
    lexicographicalOrder (x :: a) (y :: b) = (compare x y).then (lexicographicalOrder a b) := by
  have hshort : (if (x :: a).length < (y :: b).length then (x :: a).length else (y :: b).length) =
      (if a.length < b.length then a.length else b.length) + 1 := by
    simp only [List.length_cons, Nat.add_lt_add_iff_right]
    split_ifs <;> rfl
  unfold lexicographicalOrder
  dsimp only
  rw [hshort]
  simp only [List.take_succ_cons, memcmp, List.compare_cons_cons, List.length_cons, Nat.add_right_cancel_iff]
  cases compare x y <;> rfl

/-- Bytes are ordered with the end before every other byte. -/
theorem lexicographicalOrder_endedKey (a b : QByteArray) :
    lexicographicalOrder a b = compare (endedKey a) (endedKey b) := by
  induction a generalizing b with
  | nil =>
    cases b with
    | nil => rfl
    | cons y b =>
      have hy : compare 256 y.toNat = .gt := Nat.compare_eq_gt.mpr y.toNat_lt
      simp [lexicographicalOrder, memcmp, endedKey, bytesKey, List.compare_cons_cons, hy]
  | cons x a ih =>
    cases b with
    | nil =>
      have hx : compare x.toNat 256 = .lt := Nat.compare_eq_lt.mpr x.toNat_lt
      simp [lexicographicalOrder, memcmp, endedKey, bytesKey, List.compare_cons_cons, hx]
    | cons y b =>
      rw [lexicographicalOrder_cons, ih]
      simp only [endedKey, bytesKey, List.map_cons, List.cons_append, List.compare_cons_cons,
        UInt8.compare_eq_toNat_compare_toNat]

theorem uint16_cmp_eq (a b : UInt16) : uint16_cmp a b = compare a.toNat b.toNat := by
  unfold uint16_cmp
  split_ifs with heq hlt
  · rw [heq]
    exact (Nat.compare_eq_eq.mpr rfl).symm
  · exact (Nat.compare_eq_lt.mpr (UInt16.lt_iff_toNat_lt.mp hlt)).symm
  · refine (Nat.compare_eq_gt.mpr ?_).symm
    have hne : a.toNat ≠ b.toNat := fun h => heq (UInt16.toNat_inj.mp h)
    have hle : ¬ a.toNat < b.toNat := fun h => hlt (UInt16.lt_iff_toNat_lt.mpr h)
    omega

/-- The labels that two names are compared by: a root that is written with a dot
    has none. -/
inductive ComparedBy (name : CString) : List CString → Prop
  | labels {labels : List CString} : Labels name labels → (∀ label ∈ labels, label ≠ []) → ComparedBy name labels
  | root : Labels name [[]] → ComparedBy name []

/-- What is read of a name in each turn. -/
theorem ComparedBy.read {name : CString} {labels : List CString} (h : ComparedBy name labels) :
    ∃ rest, avahi_unescape_label AVAHI_LABEL_MAX name = some (labels.headD [], rest) ∧ ComparedBy rest labels.tail ∧
      (rest = [] → labels.tail = []) ∧ (labels = [] → rest = []) ∧ (labels ≠ [] → rest.length < name.length) := by
  cases h with
  | labels hlabels hne =>
    cases hlabels with
    | nil => exact ⟨[], rfl, .labels .nil nofun, fun _ => rfl, fun _ => rfl, fun h => absurd rfl h⟩
    | cons hname hcut htail =>
      refine ⟨_, hcut, .labels htail (List.forall_mem_cons.mp hne).2, ?_, nofun, fun _ => unescape_shrinks hname hcut⟩
      rintro rfl
      exact htail.eq_nil
  | root hroot =>
    cases hroot with
    | cons _ hcut htail =>
      cases htail with
      | nil => exact ⟨[], hcut, .labels .nil nofun, fun _ => rfl, fun _ => rfl, fun h => absurd rfl h⟩

theorem ComparedBy.nonempty {name : CString} {labels : List CString} (h : ComparedBy name labels) :
    ∀ label ∈ labels, label ≠ [] := by
  cases h with
  | labels _ hne => exact hne
  | root => exact nofun

/-- A name is compared by one list of labels. -/
theorem ComparedBy.unique {name : CString} {as bs : List CString} (ha : ComparedBy name as) (hb : ComparedBy name bs) :
    as = bs := by
  cases ha with
  | labels ha hne =>
    cases hb with
    | labels hb _ => exact ha.unique hb
    | root hb =>
      rw [ha.unique hb] at hne
      exact absurd rfl (hne [] (List.mem_singleton.mpr rfl))
  | root ha =>
    cases hb with
    | labels hb hne =>
      rw [hb.unique ha] at hne
      exact absurd rfl (hne [] (List.mem_singleton.mpr rfl))
    | root => rfl

/-- Labels as they are ordered by `avahi_binary_domain_cmp`. -/
def labelsKey (labels : List CString) : List (List Nat) := labels.map bytesKey

theorem strcmp_eq (a b : CString) : strcmp a b = compare (bytesKey a) (bytesKey b) := compare_bytesKey a b

/-- The loop compares label by label, the shorter name first. -/
theorem binaryCmpLoop_spec {turns : Nat} {a b : CString} {as bs : List CString} (ha : ComparedBy a as)
    (hb : ComparedBy b bs) (hturns : a.length + b.length < turns) :
    binaryCmpLoop turns a b = some (compare (labelsKey as) (labelsKey bs)) := by
  induction turns generalizing a b as bs with
  | zero => omega
  | succ turns ih =>
    obtain ⟨a', hcuta, ha', henda, hroota, hlessa⟩ := ha.read
    obtain ⟨b', hcutb, hb', hendb, hrootb, hlessb⟩ := hb.read
    simp only [binaryCmpLoop, hcuta, hcutb, Option.bind_eq_bind, Option.bind_some, Option.pure_def, strcmp_eq]
    cases as with
    | nil =>
      cases bs with
      | nil =>
        rw [hroota rfl, hrootb rfl]
        rfl
      | cons y bs =>
        obtain ⟨c, y, rfl⟩ := List.exists_cons_of_ne_nil (hb.nonempty y (List.mem_cons_self ..))
        rfl
    | cons x as =>
      cases bs with
      | nil =>
        obtain ⟨c, x, rfl⟩ := List.exists_cons_of_ne_nil (ha.nonempty x (List.mem_cons_self ..))
        rfl
      | cons y bs =>
        have hlessa := hlessa (List.cons_ne_nil x as)
        have hlessb := hlessb (List.cons_ne_nil y bs)
        simp only [List.headD_cons, List.tail_cons, labelsKey, List.map_cons, List.compare_cons_cons] at *
        cases compare (bytesKey x) (bytesKey y) with
        | lt => rfl
        | gt => rfl
        | eq =>
          dsimp only [Ordering.then]
          by_cases hend : a' = [] ∧ b' = []
          · rw [if_pos hend, henda hend.1, hendb hend.2]
            rfl
          · rw [if_neg hend]
            exact ih ha' hb' (by omega)

/-- Names are compared by their labels, and without failing. -/
theorem avahi_binary_domain_cmp_spec {a b : CString} {as bs : List CString} (ha : ComparedBy a as)
    (hb : ComparedBy b bs) : avahi_binary_domain_cmp a b = some (compare (labelsKey as) (labelsKey bs)) :=
  binaryCmpLoop_spec ha hb (Nat.lt_succ_self _)

/-- A valid name can be compared. -/
theorem comparedBy_of_valid {name : CString} (h : avahi_is_valid_domain_name name = true) :
    ∃ labels, ComparedBy name labels := by
  obtain ⟨labels, hlabels⟩ := readable_of_valid h
  unfold avahi_is_valid_domain_name at h
  split_ifs at h
  rcases domainLoop_labels hlabels h with ⟨-, rfl⟩ | hne
  · exact ⟨[], .root hlabels⟩
  · exact ⟨labels, .labels hlabels hne⟩

/-- The order of data of one type, as an order of lists. -/
inductive DataKey : RData → List (List Nat) → Prop
  | ptr {name : CString} {labels : List CString} : ComparedBy name labels → DataKey (.ptr name) (labelsKey labels)
  | srv {priority weight port : UInt16} {name : CString} {labels : List CString} : ComparedBy name labels →
      DataKey (.srv priority weight port name) ([priority.toNat] :: [weight.toNat] :: [port.toNat] :: labelsKey labels)
  | hinfo {cpu os : CString} : DataKey (.hinfo cpu os) [bytesKey cpu, bytesKey os]
  | txt {string_list : AvahiStringList} : DataKey (.txt string_list)
      [endedKey (avahi_string_list_serialize string_list (serializedSize string_list))]
  | a {address : Vector UInt8 4} : DataKey (.a address) [bytesKey address.toList]
  | aaaa {address : Vector UInt8 16} : DataKey (.aaaa address) [bytesKey address.toList]
  | generic {data : QByteArray} : DataKey (.generic data) [endedKey data]

/-- Bytes that are there are compared, with their end. -/
theorem lexicographical_memcmp_some {a b : QByteArray} (ha : a ≠ []) (hb : b ≠ []) :
    lexicographical_memcmp a b = some (compare (endedKey a) (endedKey b)) := by
  rw [lexicographical_memcmp, if_neg (not_or.mpr ⟨ha, hb⟩), lexicographicalOrder_endedKey]

/-- Serialized lists are never empty, so that their pointers are there. -/
theorem serializedCmp_eq (l l' : AvahiStringList) :
    serializedCmp (avahi_string_list_serialize l (serializedSize l))
      (avahi_string_list_serialize l' (serializedSize l')) =
      some (compare (endedKey (avahi_string_list_serialize l (serializedSize l)))
        (endedKey (avahi_string_list_serialize l' (serializedSize l')))) := by
  have hl := length_serialize_pos l
  have hl' := length_serialize_pos l'
  rw [serializedCmp, if_pos ⟨hl, hl'⟩]
  exact lexicographical_memcmp_some (List.length_pos_iff.mp hl) (List.length_pos_iff.mp hl')

theorem compare_singleton (a b : List Nat) : compare [a] [b] = compare a b := by
  rw [List.compare_cons_cons]
  cases compare a b <;> rfl

/-- Data of one type that is there is compared as its key says. -/
theorem rdataCmp_spec {a b : RData} {x y : List (List Nat)} (ha : DataKey a x) (hb : DataKey b y) (hkind : a.kind = b.kind)
    (hnull : ¬ (a.null = true ∨ b.null = true)) : rdataCmp a b = some (compare x y) := by
  cases ha <;> cases hb <;> try cases hkind
  case ptr.ptr ha _ _ hb => exact avahi_binary_domain_cmp_spec ha hb
  case srv.srv priority weight port name labels ha priority' weight' port' name' labels' hb =>
    simp only [rdataCmp, uint16_cmp_eq, avahi_binary_domain_cmp_spec ha hb, List.compare_cons_cons, List.compare_nil_nil]
    cases compare priority.toNat priority'.toNat <;> cases compare weight.toNat weight'.toNat <;>
      cases compare port.toNat port'.toNat <;> rfl
  case hinfo.hinfo cpu os cpu' os' =>
    simp only [rdataCmp, strcmp_eq, List.compare_cons_cons, List.compare_nil_nil]
    cases compare (bytesKey cpu) (bytesKey cpu') <;> cases compare (bytesKey os) (bytesKey os') <;> rfl
  case txt.txt =>
    rw [rdataCmp, serializedCmp_eq, compare_singleton]
  case a.a =>
    rw [rdataCmp, memcmp, compare_bytesKey, compare_singleton]
  case aaaa.aaaa =>
    rw [rdataCmp, memcmp, compare_bytesKey, compare_singleton]
  case generic.generic =>
    simp only [RData.null, decide_eq_true_eq, not_or] at hnull
    rw [rdataCmp, lexicographical_memcmp_some hnull.1 hnull.2, compare_singleton]

/-- An assertion fails for data that is not there. -/
theorem rdataCmp_null {a b : RData} (hkind : a.kind = b.kind) (hnull : a.null = true ∨ b.null = true) :
    rdataCmp a b = none := by
  cases a <;> cases b <;> try cases hkind
  case generic.generic data data' =>
    simp only [RData.null, decide_eq_true_eq] at hnull
    rw [rdataCmp, lexicographical_memcmp, if_pos hnull]
  all_goals simp only [RData.null, Bool.false_eq_true, or_self] at hnull

/-- The order of resource records, as an order of lists. -/
inductive OrderKey (r : AvahiRecord) : List (List Nat) → Prop
  | mk {key : List (List Nat)} : DataKey r.data key → OrderKey r ([r.key.clazz.toNat] :: [r.key.type.toNat] :: key)

/-- The comparison is that of the keys, unless it comes to data that is not
    there. -/
theorem compare_spec {a b : AvahiRecord} {x y : List (List Nat)} (ha : OrderKey a x) (hb : OrderKey b y)
    (hordered : ¬ a.Unordered b) : avahi_record_lexicographical_compare a b = some (compare x y) := by
  obtain ⟨hadata⟩ := ha
  obtain ⟨hbdata⟩ := hb
  simp only [avahi_record_lexicographical_compare, uint16_cmp_eq, List.compare_cons_cons, List.compare_nil_nil]
  cases hclazz : compare a.key.clazz.toNat b.key.clazz.toNat with
  | lt | gt => rfl
  | eq =>
    cases htype : compare a.key.type.toNat b.key.type.toNat with
    | lt | gt => rfl
    | eq =>
      have hclazz' := UInt16.toNat_inj.mp (Nat.compare_eq_eq.mp hclazz)
      have htype' := UInt16.toNat_inj.mp (Nat.compare_eq_eq.mp htype)
      have hkind : a.data.kind = b.data.kind := by rw [a.typed, b.typed, htype']
      exact rdataCmp_spec hadata hbdata hkind fun hnull => hordered ⟨hclazz', htype', hnull⟩

/-- An assertion fails exactly when the comparison comes to data that is not
    there. -/
theorem compare_eq_none_iff {a b : AvahiRecord} {x y : List (List Nat)} (ha : OrderKey a x) (hb : OrderKey b y) :
    avahi_record_lexicographical_compare a b = none ↔ a.Unordered b := by
  constructor
  · intro hnone
    by_contra hordered
    rw [compare_spec ha hb hordered] at hnone
    cases hnone
  · rintro ⟨hclazz, htype, hnull⟩
    have hkind : a.data.kind = b.data.kind := by rw [a.typed, b.typed, htype]
    rw [avahi_record_lexicographical_compare, uint16_cmp, uint16_cmp, if_pos hclazz, if_pos htype]
    exact rdataCmp_null hkind hnull

theorem AvahiRecord.Unordered.symm {a b : AvahiRecord} (h : a.Unordered b) : b.Unordered a :=
  ⟨h.1.symm, h.2.1.symm, h.2.2.symm⟩

/-- A record that is valid, as every record that is read from a packet or put
    into an entry. -/
def ValidRecord : Type := { r : AvahiRecord // avahi_record_is_valid r = true }

/-- Every valid record has a key that it is ordered by. -/
theorem ValidRecord.orderKey (r : ValidRecord) : ∃ key, OrderKey r.val key := by
  have hvalid := r.property
  unfold avahi_record_is_valid at hvalid
  split_ifs at hvalid
  suffices hdata : ∃ key, DataKey r.val.data key by
    obtain ⟨key, hkey⟩ := hdata
    exact ⟨_, .mk hkey⟩
  split at hvalid <;> rename_i heq <;> rw [heq]
  · obtain ⟨labels, hlabels⟩ := comparedBy_of_valid hvalid
    exact ⟨_, .ptr hlabels⟩
  · obtain ⟨labels, hlabels⟩ := comparedBy_of_valid hvalid
    exact ⟨_, .srv hlabels⟩
  all_goals exact ⟨_, by constructor⟩

/-- The same data, with names label by label. -/
inductive RData.Identical : RData → RData → Prop
  | ptr {name name' : CString} {labels : List CString} : ComparedBy name labels → ComparedBy name' labels →
      Identical (.ptr name) (.ptr name')
  | srv {priority weight port : UInt16} {name name' : CString} {labels : List CString} : ComparedBy name labels →
      ComparedBy name' labels → Identical (.srv priority weight port name) (.srv priority weight port name')
  | eq {data : RData} : data.kind ≠ .ptr → data.kind ≠ .srv → Identical data data

/-- Identical data is ordered by one key. -/
theorem RData.Identical.key {a b : RData} (h : a.Identical b) {x y : List (List Nat)} (ha : DataKey a x)
    (hb : DataKey b y) : x = y := by
  cases h with
  | ptr h h' =>
    cases ha with
    | ptr ha =>
      cases hb with
      | ptr hb => rw [ha.unique h, hb.unique h']
  | srv h h' =>
    cases ha with
    | srv ha =>
      cases hb with
      | srv hb => rw [ha.unique h, hb.unique h']
  | eq hptr hsrv =>
    cases ha <;> cases hb
    case ptr.ptr => exact absurd rfl hptr
    case srv.srv => exact absurd rfl hsrv
    all_goals rfl

/-- An assertion fails for valid records exactly when the comparison comes to
    data that is not there. -/
theorem avahi_record_lexicographical_compare_decided (a b : ValidRecord) :
    avahi_record_lexicographical_compare a.val b.val = none ↔ a.val.Unordered b.val := by
  obtain ⟨x, hx⟩ := a.orderKey
  obtain ⟨y, hy⟩ := b.orderKey
  exact compare_eq_none_iff hx hy

/-- What is decided is decided by the keys. -/
theorem compare_of_some {a b : AvahiRecord} {x y : List (List Nat)} (ha : OrderKey a x) (hb : OrderKey b y) {o : Ordering}
    (h : avahi_record_lexicographical_compare a b = some o) : compare x y = o := by
  have hordered : ¬ a.Unordered b := by
    intro hunordered
    rw [(compare_eq_none_iff ha hb).mpr hunordered] at h
    cases h
  rw [compare_spec ha hb hordered] at h
  exact Option.some.inj h

end qtzeroconf.avahi
