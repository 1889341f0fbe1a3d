import Mathlib.Algebra.BigOperators.Group.List.Basic
import Mathlib.Algebra.GroupWithZero.Nat

namespace framing

/-- A byte string behind one byte that holds its length, modulo 256. -/
def frame (s : List UInt8) : List UInt8 := UInt8.ofNat s.length :: s

/-- Length-prefixed byte strings, one after the other. -/
def frames (ss : List (List UInt8)) : List UInt8 := ss.flatMap frame

@[simp] theorem frames_nil : frames [] = [] := rfl

@[simp] theorem frames_cons (s : List UInt8) (ss : List (List UInt8)) :
    frames (s :: ss) = UInt8.ofNat s.length :: (s ++ frames ss) := by
  simp [frames, frame]

theorem length_frames (ss : List (List UInt8)) :
    (frames ss).length = (ss.map fun s => s.length + 1).sum := by
  induction ss with
  | nil => rfl
  | cons s ss ih =>
    simp only [frames_cons, List.length_cons, List.length_append, ih, List.map_cons, List.sum_cons]
    omega

/-- A string that fits under its length byte is announced by its own length. -/
theorem toNat_frame_length {s : List UInt8} (h : s.length ≤ 255) :
    (UInt8.ofNat s.length).toNat = s.length := by
  rw [UInt8.toNat_ofNat']
  omega

/-- Bytes that are length-prefixed strings, up to the last byte. -/
def Framed (bytes : List UInt8) : Prop := ∃ ss : List (List UInt8), (∀ s ∈ ss, s.length ≤ 255) ∧ bytes = frames ss

theorem framed_nil : Framed [] := ⟨[], nofun, rfl⟩

/-- The first length byte is followed by as many bytes, and then by framed
    strings again. -/
theorem framed_cons_iff {n : UInt8} {rest : List UInt8} :
    Framed (n :: rest) ↔ n.toNat ≤ rest.length ∧ Framed (rest.drop n.toNat) := by
  constructor
  · rintro ⟨ss, hshort, hbytes⟩
    cases ss with
    | nil => cases hbytes
    | cons s ss =>
      rw [frames_cons, List.cons.injEq] at hbytes
      obtain ⟨rfl, rfl⟩ := hbytes
      rw [toNat_frame_length (hshort s List.mem_cons_self), List.drop_left, List.length_append]
      exact ⟨Nat.le_add_right .., ss, fun t ht => hshort t (List.mem_cons_of_mem _ ht), rfl⟩
  · rintro ⟨hroom, ss, hshort, hrest⟩
    have hlength : (rest.take n.toNat).length = n.toNat := List.length_take_of_le hroom
    refine ⟨rest.take n.toNat :: ss, fun s hs => ?_, ?_⟩
    · rcases List.mem_cons.mp hs with rfl | hs
      · have hbyte := n.toNat_lt
        omega
      · exact hshort s hs
    · rw [frames_cons, hlength, ← hrest, List.take_append_drop, UInt8.ofNat_toNat]

end framing
