import Mathlib.Data.List.Basic
import Mathlib.Data.List.Infix
import Std.Data.ExtTreeMap.Lemmas

namespace qtzeroconf

/-- A `QString`, as its UTF-16 code units. -/
abbrev QString := List UInt16

/-- A `QByteArray`, as its bytes. -/
abbrev QByteArray := List UInt8

/-- A NUL-terminated `const char *`, as the bytes before the terminator. -/
abbrev CString := List UInt8

/-- A `QMap`, iterated in the order of its keys. -/
abbrev QMap (κ β : Type) [Ord κ] := Std.ExtTreeMap κ β compare

/-- What a function that takes a `const char *` reads of a byte array. -/
def QByteArray.cString (b : QByteArray) : CString := b.takeWhile (· ≠ 0)

/-- The code unit of a character of the Basic Multilingual Plane. -/
def unit (c : Char) : UInt16 := UInt16.ofNat c.toNat

/-- `QString::number`, in decimal and with a leading minus sign. -/
def QString.number : Int → QString
  | .ofNat n => (Nat.toDigits 10 n).map unit
  | .negSucc n => unit '-' :: (Nat.toDigits 10 (n + 1)).map unit

def isHighSurrogate (u : UInt16) : Bool := 0xD800 ≤ u ∧ u < 0xDC00

def isLowSurrogate (u : UInt16) : Bool := 0xDC00 ≤ u ∧ u < 0xE000

/-- The UTF-8 bytes of a code unit that no surrogate pair contains. An unpaired
    surrogate is written as a question mark. -/
def utf8Unit (u : UInt16) : QByteArray :=
  if u < 0x80 then [u.toUInt8]
  else if u < 0x800 then
    [UInt8.ofNat (0xC0 + u.toNat / 64), UInt8.ofNat (0x80 + u.toNat % 64)]
  else if isHighSurrogate u || isLowSurrogate u then [0x3F]
  else
    [UInt8.ofNat (0xE0 + u.toNat / 4096), UInt8.ofNat (0x80 + u.toNat / 64 % 64),
      UInt8.ofNat (0x80 + u.toNat % 64)]

/-- The code point of a surrogate pair. -/
def surrogateToUcs4 (high low : UInt16) : Nat :=
  (high.toNat - 0xD800) * 1024 + (low.toNat - 0xDC00) + 0x10000

/-- The four UTF-8 bytes of a surrogate pair. -/
def utf8Pair (high low : UInt16) : QByteArray :=
  let u := surrogateToUcs4 high low
  [UInt8.ofNat (0xF0 + u / 262144), UInt8.ofNat (0x80 + u / 4096 % 64),
    UInt8.ofNat (0x80 + u / 64 % 64), UInt8.ofNat (0x80 + u % 64)]

/-- `QString::toUtf8`. -/
def QString.toUtf8 : QString → QByteArray
  | [] => []
  | [u] => utf8Unit u
  | u :: v :: rest =>
    if isHighSurrogate u && isLowSurrogate v then utf8Pair u v ++ toUtf8 rest
    else utf8Unit u ++ toUtf8 (v :: rest)

def isContinuationByte (b : UInt8) : Bool := 0x80 ≤ b ∧ b < 0xC0

/-- The multi-byte sequence that a lead byte and the bytes after it encode: its
    code point and the number of bytes after the lead byte. Truncated,
    overlong and surrogate sequences encode nothing. -/
def decodeSequence (b : UInt8) (rest : QByteArray) : Option (Nat × Nat) :=
  let (extra, min, lead) :=
    if b < 0xE0 then (1, 0x80, b.toNat % 32)
    else if b < 0xF0 then (2, 0x800, b.toNat % 16)
    else (3, 0x10000, b.toNat % 8)
  let tail := rest.take extra
  let ucs4 := tail.foldl (fun uc c => uc * 64 + c.toNat % 64) lead
  if b ≤ 0xC1 ∨ 0xF5 ≤ b then none
  else if tail.length < extra ∨ ¬ tail.all isContinuationByte then none
  else if ucs4 < min ∨ (0xD800 ≤ ucs4 ∧ ucs4 < 0xE000) ∨ 0x10FFFF < ucs4 then none
  else some (ucs4, extra)

/-- The code units of a code point. -/
def utf16 (ucs4 : Nat) : QString :=
  if ucs4 < 0x10000 then [UInt16.ofNat ucs4]
  else [UInt16.ofNat (0xD800 + (ucs4 - 0x10000) / 1024), UInt16.ofNat (0xDC00 + ucs4 % 1024)]

/-- Decoding with a count of bytes that an earlier sequence has consumed. -/
def decodeUtf8 : Nat → QByteArray → QString
  | _, [] => []
  | skip + 1, _ :: rest => decodeUtf8 skip rest
  | 0, b :: rest =>
    if b < 0x80 then b.toUInt16 :: decodeUtf8 0 rest
    else match decodeSequence b rest with
      | some (ucs4, extra) => utf16 ucs4 ++ decodeUtf8 extra rest
      | none => 0xFFFD :: decodeUtf8 0 rest

/-- `QString::fromUtf8`: a leading byte order mark is dropped, and every byte
    that starts no valid sequence becomes a replacement character. -/
def QString.fromUtf8 (bytes : CString) : QString :=
  if [0xEF, 0xBB, 0xBF] <+: bytes then decodeUtf8 0 (bytes.drop 3) else decodeUtf8 0 bytes

/-- `QByteArray::indexOf`, -1 where the byte does not occur. -/
def QByteArray.indexOf (bytes : QByteArray) (c : UInt8) : Int :=
  match bytes.idxOf? c with
  | some i => i
  | none => -1

/-- `QByteArray::left`. -/
def QByteArray.left (bytes : QByteArray) (n : Int) : QByteArray := bytes.take n.toNat

/-- `QByteArray::mid` to the end. -/
def QByteArray.mid (bytes : QByteArray) (pos : Int) : QByteArray := bytes.drop pos.toNat

theorem toNat_unit {c : Char} (h : c.isDigit) : (unit c).toNat = c.toNat := by
  have hdigit : c.toNat ≤ 57 := by
    simp only [Char.isDigit, Bool.and_eq_true, decide_eq_true_eq] at h
    exact h.2
  simp only [unit, UInt16.toNat_ofNat']
  omega

/-- Decimal digits can be read back from their code units. -/
theorem toDigits_of_units (n : Nat) :
    ((Nat.toDigits 10 n).map unit).map (fun u => Char.ofNat u.toNat) = Nat.toDigits 10 n := by
  rw [List.map_map]
  nth_rewrite 2 [← List.map_id (Nat.toDigits 10 n)]
  apply List.map_congr_left
  intro c hc
  have hdigit := Nat.isDigit_of_mem_toDigits (by decide) (by decide) hc
  simp only [Function.comp_apply, toNat_unit hdigit, Char.ofNat_toNat, id_eq]

theorem toDigits_units_inj {m n : Nat}
    (h : (Nat.toDigits 10 m).map unit = (Nat.toDigits 10 n).map unit) : m = n := by
  have hdigits : Nat.toDigits 10 m = Nat.toDigits 10 n := by
    rw [← toDigits_of_units m, h, toDigits_of_units n]
  rw [← Nat.ofDigitChars_ten_toDigits (n := m), hdigits, Nat.ofDigitChars_ten_toDigits]

/-- A nonnegative number is not written with a minus sign. -/
theorem toDigits_units_ne_minus (n : Nat) (rest : QString) :
    (Nat.toDigits 10 n).map unit ≠ unit '-' :: rest := by
  intro h
  obtain ⟨c, digits, hdigits⟩ := List.exists_cons_of_ne_nil (Nat.toDigits_ne_nil (n := n) (b := 10))
  have hc : c.isDigit :=
    Nat.isDigit_of_mem_toDigits (b := 10) (n := n) (by decide) (by decide) (by simp [hdigits])
  rw [hdigits, List.map_cons, List.cons.injEq] at h
  have hval := congrArg UInt16.toNat h.1
  rw [toNat_unit hc] at hval
  simp only [Char.isDigit, Bool.and_eq_true, decide_eq_true_eq] at hc
  have hlow : 48 ≤ c.toNat := hc.1
  have hminus : (unit '-').toNat = 45 := by decide
  omega

/-- `QString::number` writes distinct integers differently. -/
theorem number_injective : Function.Injective QString.number := by
  intro i j h
  cases i with
  | ofNat m =>
    cases j with
    | ofNat n => exact congrArg Int.ofNat (toDigits_units_inj h)
    | negSucc n => exact absurd h (toDigits_units_ne_minus m _)
  | negSucc m =>
    cases j with
    | ofNat n => exact absurd h.symm (toDigits_units_ne_minus n _)
    | negSucc n =>
      have hsucc := toDigits_units_inj (List.cons.inj h).2
      exact congrArg Int.negSucc (Nat.succ.inj hsucc)

/-- Every UTF-16 code unit takes at least one byte. -/
theorem length_le_length_toUtf8 (s : QString) : s.length ≤ s.toUtf8.length := by
  have hunit (u : UInt16) : 1 ≤ (utf8Unit u).length := by
    unfold utf8Unit
    split_ifs <;> simp
  fun_induction QString.toUtf8 s with
  | case1 => simp
  | case2 u => simpa using hunit u
  | case3 u v rest _ ih =>
    simp only [List.length_append, List.length_cons, utf8Pair, List.length_nil]
    omega
  | case4 u v rest _ ih =>
    simp only [List.length_append, List.length_cons] at ih ⊢
    have := hunit u
    omega

theorem isSurrogate_of_ascii {c : UInt16} (h : c < 0x80) :
    isHighSurrogate c = false ∧ isLowSurrogate c = false := by
  simp only [isHighSurrogate, isLowSurrogate, decide_eq_false_iff_not, not_and_or, UInt16.lt_iff_toNat_lt,
    UInt16.le_iff_toNat_le] at h ⊢
  constructor <;> left <;> simp at h ⊢ <;> omega

/-- An ASCII character is one byte of its own, whatever stands around it. -/
theorem toUtf8_append_ascii (s t : QString) {c : UInt16} (h : c < 0x80) :
    QString.toUtf8 (s ++ c :: t) = s.toUtf8 ++ c.toUInt8 :: QString.toUtf8 t := by
  have hsingle : utf8Unit c = [c.toUInt8] := by simp [utf8Unit, h]
  obtain ⟨hhigh, hlow⟩ := isSurrogate_of_ascii h
  fun_induction QString.toUtf8 s with
  | case1 =>
    cases t with
    | nil => simp [QString.toUtf8, hsingle]
    | cons v t => simp [QString.toUtf8, hhigh, hsingle]
  | case2 u =>
    cases t with
    | nil => simp [QString.toUtf8, hlow, hsingle]
    | cons v t => simp [QString.toUtf8, hlow, hhigh, hsingle]
  | case3 u v rest hpair ih =>
    simp only [List.cons_append, QString.toUtf8, hpair, if_true, ih, List.append_assoc]
  | case4 u v rest hpair ih =>
    simp only [List.cons_append] at ih ⊢
    simp only [QString.toUtf8, if_neg hpair, ih, List.append_assoc]

/-- A byte of a multi-byte sequence is no ASCII character. -/
theorem ofNat_ne_equals {n : Nat} (hlow : 0x80 ≤ n) (hhigh : n < 0x100) : (0x3D : UInt8) ≠ UInt8.ofNat n := by
  intro h
  have hval := congrArg UInt8.toNat h
  rw [UInt8.toNat_ofNat'] at hval
  have hequals : (0x3D : UInt8).toNat = 61 := rfl
  omega

theorem equals_mem_utf8Unit {u : UInt16} (h : (0x3D : UInt8) ∈ utf8Unit u) : u = unit '=' := by
  have hmax := u.toNat_lt
  unfold utf8Unit at h
  split_ifs at h with hascii htwo hsurrogate
  · have hbyte := congrArg UInt8.toNat (List.mem_singleton.mp h)
    have hsmall : u.toNat < 128 := hascii
    apply UInt16.toNat_inj.mp
    simp only [UInt16.toNat_toUInt8] at hbyte
    have hunit : (unit '=').toNat = 61 := by decide
    have hequals : (0x3D : UInt8).toNat = 61 := rfl
    omega
  · have hsmall : u.toNat < 2048 := htwo
    rcases List.mem_pair.mp h with h | h
    · exact absurd h (ofNat_ne_equals (by omega) (by omega))
    · exact absurd h (ofNat_ne_equals (by omega) (by omega))
  · exact absurd (List.mem_singleton.mp h) (by decide)
  · simp only [List.mem_cons, List.not_mem_nil, or_false] at h
    rcases h with h | h | h
    · exact absurd h (ofNat_ne_equals (by omega) (by omega))
    · exact absurd h (ofNat_ne_equals (by omega) (by omega))
    · exact absurd h (ofNat_ne_equals (by omega) (by omega))

theorem equals_not_mem_utf8Pair {u v : UInt16} (hu : isHighSurrogate u) (hv : isLowSurrogate v) :
    (0x3D : UInt8) ∉ utf8Pair u v := by
  have hucs4 : surrogateToUcs4 u v < 0x110000 := by
    simp only [isHighSurrogate, isLowSurrogate, decide_eq_true_eq, UInt16.lt_iff_toNat_lt,
      UInt16.le_iff_toNat_le] at hu hv
    simp only [surrogateToUcs4]
    simp at hu hv
    omega
  simp only [utf8Pair, List.mem_cons, List.not_mem_nil, or_false, not_or]
  refine ⟨?_, ?_, ?_, ?_⟩ <;> exact ofNat_ne_equals (by omega) (by omega)

/-- An equals sign in the bytes is an equals sign of the text. -/
theorem equals_not_mem_toUtf8 {s : QString} (h : unit '=' ∉ s) : (0x3D : UInt8) ∉ s.toUtf8 := by
  fun_induction QString.toUtf8 s with
  | case1 => simp
  | case2 u =>
    intro hmem
    exact h (List.mem_singleton.mpr (equals_mem_utf8Unit hmem).symm)
  | case3 u v rest hpair ih =>
    rw [Bool.and_eq_true] at hpair
    have hrest : unit '=' ∉ rest := fun hmem => h (by simp [hmem])
    simp only [List.mem_append, not_or]
    exact ⟨equals_not_mem_utf8Pair hpair.1 hpair.2, ih hrest⟩
  | case4 u v rest hpair ih =>
    have hrest : unit '=' ∉ v :: rest := fun hmem => h (List.mem_cons_of_mem _ hmem)
    simp only [List.mem_append, not_or]
    refine ⟨fun hmem => h ?_, ih hrest⟩
    rw [equals_mem_utf8Unit hmem]
    exact List.mem_cons_self

end qtzeroconf
