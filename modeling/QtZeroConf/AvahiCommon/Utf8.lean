import Mathlib.Data.Nat.Bitwise
import QtZeroConf.Qt.Text

namespace qtzeroconf.avahi

/-- `UNICODE_VALID`: neither a surrogate nor a noncharacter. -/
def UNICODE_VALID (c : Nat) : Bool :=
  c < 0x110000 && c &&& 0xFFFFF800 != 0xD800 && (c < 0xFDD0 || 0xFDEF < c) && c &&& 0xFFFE != 0xFFFE

/-- A noncharacter: one of a block of 32, or one of the last two of a plane. -/
def Noncharacter (c : Nat) : Prop := (0xFDD0 ≤ c ∧ c ≤ 0xFDEF) ∨ 0xFFFE ≤ c % 0x10000

/-- `CONTINUATION_CHAR`: the next six bits of `val`, or the jump to `error`. -/
def CONTINUATION_CHAR (val : Nat) (p : UInt8) : Option Nat :=
  if p &&& 0xc0 ≠ 0x80 then none else some (val <<< 6 ||| (p &&& 0x3f).toNat)

/-- The checks behind the last continuation byte. -/
def checked (min : Nat) (val : Nat) : Bool := !(val < min) && UNICODE_VALID val

/-- `avahi_utf8_valid`. Where the string ends inside of a sequence, its
    terminator is no continuation byte. -/
def avahi_utf8_valid : CString → Bool
  | [] => true
  | p :: str =>
    if p < 128 then avahi_utf8_valid str
    else if p &&& 0xe0 = 0xc0 then
      match str with
      | q :: str => !(p &&& 0x1e = 0) && q &&& 0xc0 = 0x80 && avahi_utf8_valid str
      | [] => false
    else if p &&& 0xf0 = 0xe0 then
      match str with
      | q :: r :: str =>
        let val := (CONTINUATION_CHAR (p &&& 0x0f).toNat q).bind (CONTINUATION_CHAR · r)
        val.any (checked (1 <<< 11)) && avahi_utf8_valid str
      | _ => false
    else if p &&& 0xf8 = 0xf0 then
      match str with
      | q :: r :: t :: str =>
        let val := ((CONTINUATION_CHAR (p &&& 0x07).toNat q).bind (CONTINUATION_CHAR · r)).bind (CONTINUATION_CHAR · t)
        val.any (checked (1 <<< 16)) && avahi_utf8_valid str
      | _ => false
    else false

theorem lead_two (p : UInt8) : p &&& 0xe0 = 0xc0 ↔ p.toNat / 32 = 6 := by
  have hall : ∀ b : BitVec 8, b &&& 0xe0#8 = 0xc0#8 ↔ b.toNat / 32 = 6 := by decide +kernel
  rw [← UInt8.toBitVec_inj]
  exact hall p.toBitVec

theorem lead_three (p : UInt8) : p &&& 0xf0 = 0xe0 ↔ p.toNat / 16 = 14 := by
  have hall : ∀ b : BitVec 8, b &&& 0xf0#8 = 0xe0#8 ↔ b.toNat / 16 = 14 := by decide +kernel
  rw [← UInt8.toBitVec_inj]
  exact hall p.toBitVec

theorem lead_four (p : UInt8) : p &&& 0xf8 = 0xf0 ↔ p.toNat / 8 = 30 := by
  have hall : ∀ b : BitVec 8, b &&& 0xf8#8 = 0xf0#8 ↔ b.toNat / 8 = 30 := by decide +kernel
  rw [← UInt8.toBitVec_inj]
  exact hall p.toBitVec

theorem lead_overlong (p : UInt8) : p &&& 0x1e = 0 ↔ p.toNat % 32 / 2 = 0 := by
  have hall : ∀ b : BitVec 8, b &&& 0x1e#8 = 0#8 ↔ b.toNat % 32 / 2 = 0 := by decide +kernel
  rw [← UInt8.toBitVec_inj]
  exact hall p.toBitVec

theorem continuation (p : UInt8) : p &&& 0xc0 = 0x80 ↔ p.toNat / 64 = 2 := by
  have hall : ∀ b : BitVec 8, b &&& 0xc0#8 = 0x80#8 ↔ b.toNat / 64 = 2 := by decide +kernel
  rw [← UInt8.toBitVec_inj]
  exact hall p.toBitVec

theorem toNat_and_0f (p : UInt8) : (p &&& 0x0f).toNat = p.toNat % 16 := by
  rw [UInt8.toNat_and]
  exact Nat.and_two_pow_sub_one_eq_mod p.toNat 4

theorem toNat_and_07 (p : UInt8) : (p &&& 0x07).toNat = p.toNat % 8 := by
  rw [UInt8.toNat_and]
  exact Nat.and_two_pow_sub_one_eq_mod p.toNat 3

theorem CONTINUATION_CHAR_eq (val : Nat) (p : UInt8) :
    CONTINUATION_CHAR val p = if p.toNat / 64 = 2 then some (val * 64 + p.toNat % 64) else none := by
  have hbits : (p &&& 0x3f).toNat = p.toNat % 64 := by
    rw [UInt8.toNat_and]
    exact Nat.and_two_pow_sub_one_eq_mod p.toNat 6
  have hlow : p.toNat % 64 < 2 ^ 6 := Nat.mod_lt _ (by decide)
  rw [CONTINUATION_CHAR, hbits, ← Nat.shiftLeft_add_eq_or_of_lt hlow, Nat.shiftLeft_eq]
  simp only [ne_eq, continuation, ite_not]

theorem and_surrogateMask {c : Nat} (h : c < 2 ^ 32) : c &&& 0xFFFFF800 = c / 2 ^ 11 * 2 ^ 11 := by
  have hmask : 0xFFFFF800 = (2 ^ 21 - 1) * 2 ^ 11 := by decide
  rw [hmask]
  apply Nat.eq_of_testBit_eq
  intro i
  rw [Nat.testBit_and, Nat.testBit_mul_two_pow, Nat.testBit_mul_two_pow, Nat.testBit_two_pow_sub_one,
    Nat.testBit_div_two_pow]
  by_cases hlow : i < 11
  · have hnot : ¬ 11 ≤ i := by omega
    simp [hnot]
  · have hi : i - 11 + 11 = i := by omega
    by_cases hhigh : i < 32
    · have hwidth : i - 11 < 21 := by omega
      simp [hi, hwidth, Bool.and_comm]
    · have hbit := Nat.testBit_lt_two_pow (lt_of_lt_of_le h (Nat.pow_le_pow_right (by decide) (by omega : 32 ≤ i)))
      simp [hi, hbit]

/-- Every code point below the surrogates is fine. -/
theorem UNICODE_VALID_of_small {c : Nat} (h : c < 0x800) : UNICODE_VALID c = true := by
  have hand : c &&& 0xFFFE ≤ c := Nat.and_le_left
  have hmask : c &&& 0xFFFFF800 ≤ c := Nat.and_le_left
  simp only [UNICODE_VALID, Bool.and_eq_true, Bool.or_eq_true, decide_eq_true_eq, bne_iff_ne, ne_eq]
  omega

/-- What is valid here is a Unicode scalar value. -/
theorem isValidChar_of_UNICODE_VALID {c : Nat} (h : UNICODE_VALID c = true) : c.isValidChar := by
  simp only [UNICODE_VALID, Bool.and_eq_true, decide_eq_true_eq, bne_iff_ne, ne_eq] at h
  obtain ⟨⟨⟨hmax, hsurrogate⟩, -⟩, -⟩ := h
  rw [and_surrogateMask (by omega)] at hsurrogate
  simp only [Nat.isValidChar]
  omega

theorem and_planeMask (c : Nat) : c &&& 0xFFFE = c % 2 ^ 16 / 2 ^ 1 * 2 ^ 1 := by
  have hmask : 0xFFFE = (2 ^ 15 - 1) * 2 ^ 1 := by decide
  rw [hmask]
  apply Nat.eq_of_testBit_eq
  intro i
  rw [Nat.testBit_and, Nat.testBit_mul_two_pow, Nat.testBit_mul_two_pow, Nat.testBit_two_pow_sub_one,
    Nat.testBit_div_two_pow, Nat.testBit_mod_two_pow]
  by_cases hlow : 1 ≤ i
  · have hi : i - 1 + 1 = i := by omega
    have hwidth : i - 1 < 15 ↔ i < 16 := by omega
    simp [hlow, hi, hwidth, Bool.and_comm]
  · simp [hlow]

/-- Of the Unicode scalar values, the noncharacters are refused. -/
theorem UNICODE_VALID_iff (c : Char) : UNICODE_VALID c.toNat = true ↔ ¬ Noncharacter c.toNat := by
  have hvalid := c.valid
  simp only [UInt32.isValidChar, Nat.isValidChar] at hvalid
  have hcode : c.val.toNat = c.toNat := rfl
  rw [hcode] at hvalid
  simp only [UNICODE_VALID, Noncharacter, Bool.and_eq_true, Bool.or_eq_true, decide_eq_true_eq, bne_iff_ne, ne_eq,
    and_planeMask, and_surrogateMask (show c.toNat < 2 ^ 32 by omega)]
  omega

theorem avahi_utf8_valid_one {p : UInt8} {str : CString} (h : p.toNat < 128) :
    avahi_utf8_valid (p :: str) = avahi_utf8_valid str := by
  have hlow : p < 128 := h
  rw [avahi_utf8_valid.eq_def]
  exact if_pos hlow

theorem avahi_utf8_valid_two {p : UInt8} {str : CString} (h : p.toNat / 32 = 6) :
    avahi_utf8_valid (p :: str) = true ↔ ∃ q rest, str = q :: rest ∧ 2 ≤ p.toNat % 32 ∧ q.toNat / 64 = 2 ∧
      avahi_utf8_valid rest = true := by
  have hlow : ¬ p < 128 := by
    rw [UInt8.lt_iff_toNat_lt, show (128 : UInt8).toNat = 128 from rfl]
    omega
  rw [avahi_utf8_valid.eq_def]
  simp only [if_neg hlow, lead_two, if_pos h]
  cases str with
  | nil => simp
  | cons q rest =>
    simp only [lead_overlong, continuation, Bool.and_eq_true, Bool.not_eq_true', decide_eq_false_iff_not,
      decide_eq_true_eq, List.cons.injEq]
    constructor
    · rintro ⟨⟨hlong, hq⟩, hrest⟩
      exact ⟨q, rest, ⟨rfl, rfl⟩, by omega, hq, hrest⟩
    · rintro ⟨q, rest, ⟨rfl, rfl⟩, hlong, hq, hrest⟩
      exact ⟨⟨by omega, hq⟩, hrest⟩

theorem avahi_utf8_valid_three {p : UInt8} {str : CString} (h : p.toNat / 16 = 14) :
    avahi_utf8_valid (p :: str) = true ↔ ∃ q r rest, str = q :: r :: rest ∧ q.toNat / 64 = 2 ∧ r.toNat / 64 = 2 ∧
      checked 2048 ((p.toNat % 16 * 64 + q.toNat % 64) * 64 + r.toNat % 64) = true ∧
      avahi_utf8_valid rest = true := by
  have hlow : ¬ p < 128 := by
    rw [UInt8.lt_iff_toNat_lt, show (128 : UInt8).toNat = 128 from rfl]
    omega
  have htwo : ¬ p.toNat / 32 = 6 := by omega
  rw [avahi_utf8_valid.eq_def]
  simp only [if_neg hlow, lead_two, if_neg htwo, lead_three, if_pos h]
  split
  · rename_i q r rest
    simp only [CONTINUATION_CHAR_eq, toNat_and_0f, List.cons.injEq]
    by_cases hq : q.toNat / 64 = 2
    · by_cases hr : r.toNat / 64 = 2
      · simp [hq, hr]
      · simp [hq, hr]
    · simp [hq]
  · rename_i hshort
    have hnone : ¬ ∃ q r rest, str = q :: r :: rest := fun ⟨q, r, rest, hstr⟩ => hshort q r rest hstr
    simp only [Bool.false_eq_true, false_iff]
    rintro ⟨q, r, rest, hstr, -⟩
    exact hnone ⟨q, r, rest, hstr⟩

theorem avahi_utf8_valid_four {p : UInt8} {str : CString} (h : p.toNat / 8 = 30) :
    avahi_utf8_valid (p :: str) = true ↔ ∃ q r t rest, str = q :: r :: t :: rest ∧
      q.toNat / 64 = 2 ∧ r.toNat / 64 = 2 ∧ t.toNat / 64 = 2 ∧
      checked 65536 (((p.toNat % 8 * 64 + q.toNat % 64) * 64 + r.toNat % 64) * 64 + t.toNat % 64) = true ∧
      avahi_utf8_valid rest = true := by
  have hlow : ¬ p < 128 := by
    rw [UInt8.lt_iff_toNat_lt, show (128 : UInt8).toNat = 128 from rfl]
    omega
  have htwo : ¬ p.toNat / 32 = 6 := by omega
  have hthree : ¬ p.toNat / 16 = 14 := by omega
  rw [avahi_utf8_valid.eq_def]
  simp only [if_neg hlow, lead_two, if_neg htwo, lead_three, if_neg hthree, lead_four, if_pos h]
  split
  · rename_i q r t rest
    simp only [CONTINUATION_CHAR_eq, toNat_and_07, List.cons.injEq]
    by_cases hq : q.toNat / 64 = 2
    · by_cases hr : r.toNat / 64 = 2
      · by_cases ht : t.toNat / 64 = 2
        · simp [hq, hr, ht]
        · simp [hq, hr, ht]
      · simp [hq, hr]
    · simp [hq]
  · rename_i hshort
    simp only [Bool.false_eq_true, false_iff]
    rintro ⟨q, r, t, rest, hstr, -⟩
    exact hshort q r t rest hstr

/-- A byte that starts nothing is refused. -/
theorem avahi_utf8_valid_stray {p : UInt8} {str : CString} (hone : ¬ p.toNat < 128) (htwo : ¬ p.toNat / 32 = 6)
    (hthree : ¬ p.toNat / 16 = 14) (hfour : ¬ p.toNat / 8 = 30) : avahi_utf8_valid (p :: str) = false := by
  have hlow : ¬ p < 128 := hone
  rw [avahi_utf8_valid.eq_def]
  simp only [if_neg hlow, lead_two, if_neg htwo, lead_three, if_neg hthree, lead_four, if_neg hfour]

theorem toNat_ofNat_byte {n : Nat} (h : n < 256) : (UInt8.ofNat n).toNat = n := by
  rw [UInt8.toNat_ofNat']
  omega

/-- One encoded character is passed over if it is valid. -/
theorem avahi_utf8_valid_encode (c : Char) (str : CString) :
    avahi_utf8_valid (String.utf8EncodeChar c ++ str) = true ↔
      UNICODE_VALID c.toNat = true ∧ avahi_utf8_valid str = true := by
  have hmax : c.toNat < 0x110000 := by
    have hvalid := c.valid
    simp only [UInt32.isValidChar, Nat.isValidChar] at hvalid
    change c.val.toNat < 0x110000
    omega
  have hcode : c.val.toNat = c.toNat := rfl
  simp only [String.utf8EncodeChar, hcode]
  generalize c.toNat = v at hmax
  split_ifs with hone htwo hthree
  · have hp := toNat_ofNat_byte (n := v) (by omega)
    rw [UNICODE_VALID_of_small (by omega), List.cons_append, avahi_utf8_valid_one (by omega)]
    simp
  · have hp := toNat_ofNat_byte (n := v / 64 % 32 + 192) (by omega)
    have hq := toNat_ofNat_byte (n := v % 64 + 128) (by omega)
    rw [UNICODE_VALID_of_small (by omega), List.cons_append, avahi_utf8_valid_two (by omega)]
    simp only [List.cons_append, List.nil_append, List.cons.injEq, true_and]
    constructor
    · rintro ⟨q, rest, ⟨-, rfl⟩, -, -, hrest⟩
      exact hrest
    · intro hrest
      exact ⟨_, str, ⟨rfl, rfl⟩, by omega, by omega, hrest⟩
  · have hp := toNat_ofNat_byte (n := v / 4096 % 16 + 224) (by omega)
    have hq := toNat_ofNat_byte (n := v / 64 % 64 + 128) (by omega)
    have hr := toNat_ofNat_byte (n := v % 64 + 128) (by omega)
    have hval : (((v / 4096 % 16 + 224) % 16 * 64 + (v / 64 % 64 + 128) % 64) * 64 + (v % 64 + 128) % 64) = v := by
      omega
    have hlong : ¬ v < 2048 := by omega
    rw [List.cons_append, avahi_utf8_valid_three (by omega)]
    simp only [List.cons_append, List.nil_append, List.cons.injEq]
    constructor
    · rintro ⟨q, r, rest, ⟨rfl, rfl, rfl⟩, -, -, hval', hrest⟩
      rw [hp, hq, hr, hval, checked, Bool.and_eq_true] at hval'
      exact ⟨hval'.2, hrest⟩
    · rintro ⟨hvalid, hrest⟩
      refine ⟨_, _, str, ⟨rfl, rfl, rfl⟩, by omega, by omega, ?_, hrest⟩
      rw [hp, hq, hr, hval, checked, hvalid]
      simpa using hlong
  · have hp := toNat_ofNat_byte (n := v / 262144 % 8 + 240) (by omega)
    have hq := toNat_ofNat_byte (n := v / 4096 % 64 + 128) (by omega)
    have hr := toNat_ofNat_byte (n := v / 64 % 64 + 128) (by omega)
    have ht := toNat_ofNat_byte (n := v % 64 + 128) (by omega)
    have hval : ((((v / 262144 % 8 + 240) % 8 * 64 + (v / 4096 % 64 + 128) % 64) * 64 +
        (v / 64 % 64 + 128) % 64) * 64 + (v % 64 + 128) % 64) = v := by
      omega
    have hlong : ¬ v < 65536 := by omega
    rw [List.cons_append, avahi_utf8_valid_four (by omega)]
    simp only [List.cons_append, List.nil_append, List.cons.injEq]
    constructor
    · rintro ⟨q, r, t, rest, ⟨rfl, rfl, rfl, rfl⟩, -, -, -, hval', hrest⟩
      rw [hp, hq, hr, ht, hval, checked, Bool.and_eq_true] at hval'
      exact ⟨hval'.2, hrest⟩
    · rintro ⟨hvalid, hrest⟩
      refine ⟨_, _, _, str, ⟨rfl, rfl, rfl, rfl⟩, by omega, by omega, by omega, ?_, hrest⟩
      rw [hp, hq, hr, ht, hval, checked, hvalid]
      simpa using hlong

/-- The character of a code point that passes the checks. -/
theorem exists_char_of_UNICODE_VALID {v : Nat} (h : UNICODE_VALID v = true) :
    ∃ c : Char, c.val.toNat = v ∧ UNICODE_VALID c.toNat = true :=
  ⟨Char.ofNatAux v (isValidChar_of_UNICODE_VALID h), rfl, h⟩

/-- A byte is known by its value. -/
theorem ofNat_eq_byte {n : Nat} {p : UInt8} (h : n = p.toNat) : UInt8.ofNat n = p := by
  rw [h, UInt8.ofNat_toNat]

/-- What is accepted starts with the encoding of a valid character. -/
theorem encode_of_avahi_utf8_valid {p : UInt8} {str : CString} (h : avahi_utf8_valid (p :: str) = true) :
    ∃ (c : Char) (rest : CString), p :: str = String.utf8EncodeChar c ++ rest ∧ UNICODE_VALID c.toNat = true ∧
      avahi_utf8_valid rest = true := by
  have hp := p.toNat_lt
  by_cases hone : p.toNat < 128
  · rw [avahi_utf8_valid_one hone] at h
    obtain ⟨c, hc, hvalid⟩ := exists_char_of_UNICODE_VALID (UNICODE_VALID_of_small (c := p.toNat) (by omega))
    refine ⟨c, str, ?_, hvalid, h⟩
    simp only [String.utf8EncodeChar, hc]
    rw [if_pos (by omega), UInt8.ofNat_toNat]
    rfl
  by_cases htwo : p.toNat / 32 = 6
  · obtain ⟨q, rest, rfl, hlong, hq, hrest⟩ := (avahi_utf8_valid_two htwo).mp h
    obtain ⟨c, hc, hvalid⟩ := exists_char_of_UNICODE_VALID
      (UNICODE_VALID_of_small (c := p.toNat % 32 * 64 + q.toNat % 64) (by omega))
    refine ⟨c, rest, ?_, hvalid, hrest⟩
    simp only [String.utf8EncodeChar, hc]
    rw [if_neg (by omega), if_pos (by omega), ofNat_eq_byte (p := p) (by omega), ofNat_eq_byte (p := q) (by omega)]
    rfl
  by_cases hthree : p.toNat / 16 = 14
  · obtain ⟨q, r, rest, rfl, hq, hr, hchecked, hrest⟩ := (avahi_utf8_valid_three hthree).mp h
    simp only [checked, Bool.and_eq_true, Bool.not_eq_true', decide_eq_false_iff_not] at hchecked
    obtain ⟨c, hc, hvalid⟩ := exists_char_of_UNICODE_VALID hchecked.2
    refine ⟨c, rest, ?_, hvalid, hrest⟩
    have hr' := r.toNat_lt
    simp only [String.utf8EncodeChar, hc]
    rw [if_neg (by omega), if_neg (by omega), if_pos (by omega), ofNat_eq_byte (p := p) (by omega),
      ofNat_eq_byte (p := q) (by omega), ofNat_eq_byte (p := r) (by omega)]
    rfl
  by_cases hfour : p.toNat / 8 = 30
  · obtain ⟨q, r, t, rest, rfl, hq, hr, ht, hchecked, hrest⟩ := (avahi_utf8_valid_four hfour).mp h
    simp only [checked, Bool.and_eq_true, Bool.not_eq_true', decide_eq_false_iff_not] at hchecked
    obtain ⟨c, hc, hvalid⟩ := exists_char_of_UNICODE_VALID hchecked.2
    refine ⟨c, rest, ?_, hvalid, hrest⟩
    simp only [String.utf8EncodeChar, hc]
    rw [if_neg (by omega), if_neg (by omega), if_neg (by omega), ofNat_eq_byte (p := p) (by omega),
      ofNat_eq_byte (p := q) (by omega), ofNat_eq_byte (p := r) (by omega), ofNat_eq_byte (p := t) (by omega)]
    rfl
  · rw [avahi_utf8_valid_stray hone htwo hthree hfour] at h
    cases h

/-- A string is accepted exactly if it is the UTF-8 encoding of Unicode scalar
    values that are no noncharacters. -/
theorem avahi_utf8_valid_iff (str : CString) :
    avahi_utf8_valid str = true ↔
      ∃ cs : List Char, (∀ c ∈ cs, ¬ Noncharacter c.toNat) ∧ str = cs.flatMap String.utf8EncodeChar := by
  simp only [← UNICODE_VALID_iff]
  constructor
  · -- one accepted character is shorter than the string it is taken from
    intro h
    induction hlength : str.length using Nat.strong_induction_on generalizing str with
    | _ n ih =>
      cases str with
      | nil => exact ⟨[], nofun, rfl⟩
      | cons p str =>
        obtain ⟨c, rest, hsplit, hc, hrest⟩ := encode_of_avahi_utf8_valid h
        have hsize := c.utf8Size_pos
        have hshorter : rest.length < n := by
          rw [← hlength, hsplit, List.length_append, String.length_utf8EncodeChar]
          omega
        obtain ⟨cs, hcs, rfl⟩ := ih _ hshorter rest hrest rfl
        exact ⟨c :: cs, List.forall_mem_cons.mpr ⟨hc, hcs⟩, by rw [hsplit, List.flatMap_cons]⟩
  · rintro ⟨cs, hcs, rfl⟩
    induction cs with
    | nil => rfl
    | cons c cs ih =>
      rw [List.flatMap_cons, avahi_utf8_valid_encode]
      exact ⟨hcs c List.mem_cons_self, ih fun d hd => hcs d (List.mem_cons_of_mem _ hd)⟩

end qtzeroconf.avahi
