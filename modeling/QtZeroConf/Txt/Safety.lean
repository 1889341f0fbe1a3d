import QtZeroConf.Txt.Avahi
import QtZeroConf.Txt.Bonjour

open framing

namespace qtzeroconf.bonjour

/-- The two counters of the TXT loop of `resolverCallback`: the length that is
    left, and the offset of the cursor in the record. -/
structure TxtCursor where
  txtLen : UInt16
  offset : Nat := 0

namespace TxtCursor

variable (memory : Nat → UInt8)

/-- The length byte of a turn. The memory starts at the record, and goes on
    behind it. -/
def recLen (c : TxtCursor) : UInt8 := memory c.offset

/-- The offsets that a turn reads: the length byte, and the string behind it. -/
def reads (c : TxtCursor) : List Nat := c.offset :: List.range' (c.offset + 1) (c.recLen memory).toNat

/-- One turn of the loop. -/
def next (c : TxtCursor) : TxtCursor where
  txtLen := c.txtLen - ((c.recLen memory).toUInt16 + 1)
  offset := c.offset + 1 + (c.recLen memory).toNat

/-- `while (txtLen > 0)`: where the turn with a number starts, if the loop gets
    there. -/
def turn (c : TxtCursor) : Nat → Option TxtCursor
  | 0 => if c.txtLen = 0 then none else some c
  | k + 1 => if c.txtLen = 0 then none else (c.next memory).turn k

/-- The bytes of the record from the cursor on. -/
def remaining (c : TxtCursor) : QByteArray := (List.range c.txtLen.toNat).map fun i => memory (c.offset + i)

/-- What a turn takes off the length is left of it. -/
def Fits (c : TxtCursor) : Prop := (c.recLen memory).toNat + 1 ≤ c.txtLen.toNat

end TxtCursor

open TxtCursor

/-- The bytes of a TXT record. -/
def txtRecord (memory : Nat → UInt8) (txtLen : UInt16) : QByteArray := remaining memory { txtLen }

/-- The loop reads the record only, takes no more off the length than is left,
    and makes no more turns than the record has bytes. -/
structure TxtSafe (memory : Nat → UInt8) (txtLen : UInt16) : Prop where
  reads : ∀ k c, turn memory { txtLen } k = some c → ∀ offset ∈ c.reads memory, offset < txtLen.toNat
  unwrapped : ∀ k c, turn memory { txtLen } k = some c → c.Fits memory
  ends : turn memory { txtLen } txtLen.toNat = none

namespace TxtCursor

variable {memory : Nat → UInt8} {c : TxtCursor}

theorem toNat_next_txtLen (h : c.Fits memory) :
    (c.next memory).txtLen.toNat = c.txtLen.toNat - ((c.recLen memory).toNat + 1) := by
  have hbound := c.txtLen.toNat_lt
  have hbyte := (c.recLen memory).toNat_lt
  unfold Fits at h
  simp only [next, UInt16.toNat_sub, UInt16.toNat_add, UInt8.toNat_toUInt16, UInt16.toNat_one]
  omega

theorem offset_next (h : c.Fits memory) :
    (c.next memory).offset + (c.next memory).txtLen.toNat = c.offset + c.txtLen.toNat := by
  rw [toNat_next_txtLen h]
  unfold Fits at h
  simp only [next]
  omega

theorem toNat_ne_zero (h : c.txtLen ≠ 0) : c.txtLen.toNat ≠ 0 := fun hzero => h (UInt16.toNat_inj.mp hzero)

/-- What follows the length byte of a turn. -/
def behind (memory : Nat → UInt8) (c : TxtCursor) : QByteArray :=
  (List.range (c.txtLen.toNat - 1)).map fun i => memory (c.offset + 1 + i)

theorem remaining_cons (h : c.txtLen ≠ 0) : c.remaining memory = c.recLen memory :: c.behind memory := by
  obtain ⟨n, hn⟩ := Nat.exists_eq_succ_of_ne_zero (toNat_ne_zero h)
  rw [remaining, behind, hn, Nat.succ_sub_one, List.range_succ_eq_map, List.map_cons, List.map_map]
  refine congrArg (c.recLen memory :: ·) (List.map_congr_left fun i _ => ?_)
  rw [Function.comp_apply, Nat.add_assoc, Nat.add_comm 1 i]

theorem fits_iff (h : c.txtLen ≠ 0) : c.Fits memory ↔ (c.recLen memory).toNat ≤ (c.behind memory).length := by
  have hpositive := toNat_ne_zero h
  rw [Fits, behind, List.length_map, List.length_range]
  omega

/-- The string of a turn that fits ends where the next turn starts. -/
theorem drop_behind (h : c.Fits memory) :
    (c.behind memory).drop (c.recLen memory).toNat = (c.next memory).remaining memory := by
  refine List.ext_getElem ?_ fun i hi hi' => ?_
  · rw [List.length_drop, behind, remaining, List.length_map, List.length_map, List.length_range, List.length_range,
      toNat_next_txtLen h]
    omega
  · simp only [behind, remaining, List.getElem_drop, List.getElem_map, List.getElem_range, next]
    exact congrArg memory (by omega)

theorem framed_remaining_iff (h : c.txtLen ≠ 0) :
    Framed (c.remaining memory) ↔ c.Fits memory ∧ Framed ((c.next memory).remaining memory) := by
  rw [remaining_cons h, framed_cons_iff, ← fits_iff h]
  exact and_congr_right fun hfits => by rw [drop_behind hfits]

theorem turn_zero (h : c.txtLen ≠ 0) : c.turn memory 0 = some c := if_neg h

theorem turn_succ (h : c.txtLen ≠ 0) (k : Nat) : c.turn memory (k + 1) = (c.next memory).turn memory k := if_neg h

theorem turn_done (h : c.txtLen = 0) (k : Nat) : c.turn memory k = none := by
  cases k <;> exact if_pos h

/-- All turns fit exactly when the rest of the record is framed. -/
theorem framed_iff_turns_fit :
    Framed (c.remaining memory) ↔ ∀ k c', c.turn memory k = some c' → c'.Fits memory := by
  generalize hn : c.txtLen.toNat = n
  induction n using Nat.strong_induction_on generalizing c with
  | h n ih =>
    by_cases hdone : c.txtLen = 0
    · refine iff_of_true ?_ fun k c' hturn => ?_
      · simp [remaining, hdone, framed_nil]
      · rw [turn_done hdone] at hturn
        cases hturn
    · have hnext (hfits : c.Fits memory) := ih _ (by
        rw [toNat_next_txtLen hfits]
        have hpositive := toNat_ne_zero hdone
        omega) (c := c.next memory) rfl
      rw [framed_remaining_iff hdone]
      constructor
      · rintro ⟨hfits, hframed⟩ k c' hturn
        cases k with
        | zero =>
          rw [turn_zero hdone] at hturn
          cases hturn
          exact hfits
        | succ k => exact (hnext hfits).mp hframed k c' (turn_succ hdone k ▸ hturn)
      · intro h
        have hfits := h 0 c (turn_zero hdone)
        exact ⟨hfits, (hnext hfits).mpr fun k c' hturn => h (k + 1) c' (turn_succ hdone k ▸ hturn)⟩

/-- While all turns fit, the cursor stays within the record, and the loop has no
    more turns than there are bytes. -/
theorem turns_of_fit (h : ∀ k c', c.turn memory k = some c' → c'.Fits memory) (k : Nat) :
    (∀ c', c.turn memory k = some c' → c'.offset + c'.txtLen.toNat = c.offset + c.txtLen.toNat) ∧
      (c.txtLen.toNat ≤ k → c.turn memory k = none) := by
  induction k generalizing c with
  | zero =>
    refine ⟨fun c' hturn => ?_, fun hlength => turn_done (UInt16.toNat_inj.mp (Nat.le_zero.mp hlength)) 0⟩
    by_cases hdone : c.txtLen = 0
    · rw [turn_done hdone] at hturn
      cases hturn
    · rw [turn_zero hdone] at hturn
      cases hturn
      rfl
  | succ k ih =>
    by_cases hdone : c.txtLen = 0
    · rw [turn_done hdone]
      exact ⟨nofun, fun _ => rfl⟩
    · have hfits := h 0 c (turn_zero hdone)
      obtain ⟨hkept, hends⟩ := ih fun k c' hturn => h (k + 1) c' (by rw [turn_succ hdone, hturn])
      rw [turn_succ hdone]
      refine ⟨fun c' hturn => (hkept c' hturn).trans (offset_next hfits), fun hlength => hends ?_⟩
      rw [toNat_next_txtLen hfits]
      omega

end TxtCursor

/-- A turn of the loop over the bytes of the record is a turn of its counters. -/
theorem turn_remaining {memory : Nat → UInt8} {c : TxtCursor} (h : c.txtLen ≠ 0) (m_txt : TxtMap) :
    TxtLoop.turn { txtLen := c.txtLen, txtRecord := c.remaining memory, m_txt } =
      if (c.behind memory).length < (c.recLen memory).toNat then .error .overread
      else .ok {
        txtLen := (c.next memory).txtLen
        txtRecord := (c.behind memory).drop (c.recLen memory).toNat
        m_txt := insertText m_txt ((c.behind memory).take (c.recLen memory).toNat) } := by
  simp only [TxtLoop.turn, remaining_cons h, next]

/-- The loop over the bytes of the record gets to the end of it exactly where all
    turns fit. -/
theorem run_remaining_iff {memory : Nat → UInt8} (turns : Nat) {c : TxtCursor} (hturns : c.txtLen.toNat ≤ turns)
    (m_txt : TxtMap) :
    (∃ m_txt', TxtLoop.run turns { txtLen := c.txtLen, txtRecord := c.remaining memory, m_txt } = .ok m_txt') ↔
      Framed (c.remaining memory) := by
  induction turns generalizing c m_txt with
  | zero =>
    have hdone : c.txtLen = 0 := UInt16.toNat_inj.mp (Nat.le_zero.mp hturns)
    refine iff_of_true ⟨m_txt, ?_⟩ ?_
    · simp [TxtLoop.run, hdone]
    · simp [remaining, hdone, framed_nil]
  | succ turns ih =>
    by_cases hdone : c.txtLen = 0
    · refine iff_of_true ⟨m_txt, ?_⟩ ?_
      · simp [TxtLoop.run, hdone]
      · simp [remaining, hdone, framed_nil]
    · rw [framed_remaining_iff hdone]
      simp only [TxtLoop.run, hdone, if_false, turn_remaining hdone]
      by_cases hfits : c.Fits memory
      · have hroom : ¬ (c.behind memory).length < (c.recLen memory).toNat :=
          Nat.not_lt.mpr ((fits_iff hdone).mp hfits)
        have hturns' : (c.next memory).txtLen.toNat ≤ turns := by
          rw [toNat_next_txtLen hfits]
          omega
        simp only [hroom, if_false, drop_behind hfits, ih hturns', hfits, true_and]
      · have hover : (c.behind memory).length < (c.recLen memory).toNat :=
          Nat.lt_of_not_ge fun hroom => hfits ((fits_iff hdone).mpr hroom)
        simp only [hover, if_true, hfits, false_and, iff_false]
        rintro ⟨m_txt', hrun⟩
        cases hrun

/-- The parser of Avahi makes the check that the loop lacks: it rejects what is not
    framed. -/
theorem parseLoop_isSome_iff (turns : Nat) {data : QByteArray} (hturns : data.length ≤ turns)
    (r : avahi.AvahiStringList) : (avahi.parseLoop turns data r).isSome ↔ Framed data := by
  induction turns generalizing data r with
  | zero =>
    cases List.eq_nil_of_length_eq_zero (Nat.le_zero.mp hturns)
    exact iff_of_true rfl framed_nil
  | succ turns ih =>
    cases data with
    | nil => exact iff_of_true rfl framed_nil
    | cons k c =>
      rw [framed_cons_iff, avahi.parseLoop]
      split
      · rename_i hover
        exact iff_of_false Bool.false_ne_true fun h => Nat.not_le.mpr hover h.1
      · rename_i hroom
        have hturns' : (c.drop k.toNat).length ≤ turns := by
          rw [List.length_drop]
          rw [List.length_cons] at hturns
          omega
        rw [ih hturns']
        exact (and_iff_right (Nat.not_lt.mp hroom)).symm

/-- A loop that reads nothing behind the record has found whole strings in it. -/
theorem framed_of_safe {memory : Nat → UInt8} {txtLen : UInt16} (h : TxtSafe memory txtLen) :
    Framed (txtRecord memory txtLen) := by
  rw [txtRecord, framed_iff_turns_fit]
  exact h.unwrapped

/-- On whole strings every turn stays inside of the record. -/
theorem safe_of_framed {memory : Nat → UInt8} {txtLen : UInt16} (h : Framed (txtRecord memory txtLen)) :
    TxtSafe memory txtLen := by
  rw [txtRecord, framed_iff_turns_fit] at h
  refine ⟨fun k c hturn offset hoffset => ?_, h, (turns_of_fit h _).2 le_rfl⟩
  have hkept := (turns_of_fit h k).1 c hturn
  have hfits := h k c hturn
  unfold Fits at hfits
  simp only [Nat.zero_add] at hkept
  rcases List.mem_cons.mp hoffset with rfl | hoffset
  · omega
  · obtain ⟨-, hlast⟩ := List.mem_range'_1.mp hoffset
    omega

/-- The loop is safe exactly on the records that are length-prefixed strings up
    to their last byte, whatever is behind the record. -/
theorem txtSafe_iff (memory : Nat → UInt8) (txtLen : UInt16) :
    TxtSafe memory txtLen ↔ Framed (txtRecord memory txtLen) :=
  ⟨framed_of_safe, safe_of_framed⟩

/-- The records on which the loop is safe are those that it decodes, and those that
    Avahi accepts. -/
theorem txtSafe_iff_decodes (memory : Nat → UInt8) (txtLen : UInt16) (m_txt : TxtMap) :
    (TxtSafe memory txtLen ↔ ∃ m_txt', readTxt txtLen (txtRecord memory txtLen) m_txt = .ok m_txt') ∧
      (TxtSafe memory txtLen ↔ (avahi.avahi_string_list_parse (txtRecord memory txtLen)).isSome) := by
  have hframed : TxtSafe memory txtLen ↔ Framed (txtRecord memory txtLen) := ⟨framed_of_safe, safe_of_framed⟩
  rw [hframed]
  exact ⟨(run_remaining_iff _ le_rfl m_txt).symm, (parseLoop_isSome_iff _ le_rfl []).symm⟩

/-- A record of one byte that announces 255 more. -/
theorem overlong_string_reads_past : ¬ ∀ memory txtLen, TxtSafe memory txtLen := by
  intro h
  have hread := (h (fun _ => 255) 1).reads 0 { txtLen := 1 } rfl 1 (by decide)
  exact absurd hread (by decide)

end qtzeroconf.bonjour
