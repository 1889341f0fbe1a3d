import Mathlib.Data.List.TakeWhile
import QtZeroConf.Qt.Text

namespace qtzeroconf

/-- The TXT records of a service, as `QZeroConfServiceData::m_txt` holds them. -/
abbrev TxtMap := QMap QByteArray QByteArray

/-- The body of every decoding loop: one TXT string goes into the map, split at
    its first equals sign. -/
def insertText (m_txt : TxtMap) (avahiText : QByteArray) : TxtMap :=
  let pos := QByteArray.indexOf avahiText 0x3D
  if pos < 0 then m_txt.insert avahiText []
  else m_txt.insert (QByteArray.left avahiText pos) (QByteArray.mid avahiText (pos + 1))

/-- What a TXT string names: everything before its first equals sign. -/
def txtKey (s : QByteArray) : QByteArray := s.takeWhile (· != 0x3D)

/-- What a TXT string says about its key: everything after its first equals
    sign, and nothing where there is none. -/
def txtValue (s : QByteArray) : QByteArray := (s.dropWhile (· != 0x3D)).drop 1

theorem bne_equals {name : QByteArray} (h : (0x3D : UInt8) ∉ name) :
    ∀ b ∈ name, (b != 0x3D) = true := by
  intro b hb
  simp only [bne_iff_ne, ne_eq]
  rintro rfl
  exact h hb

/-- The key of an entry ends at the first equals sign. -/
theorem txtKey_of_equals {name value : QByteArray} (h : (0x3D : UInt8) ∉ name) :
    txtKey (name ++ 0x3D :: value) = name := by
  rw [txtKey, List.takeWhile_append_of_pos (bne_equals h)]
  simp

/-- The value of an entry begins behind the first equals sign. -/
theorem txtValue_of_equals {name value : QByteArray} (h : (0x3D : UInt8) ∉ name) :
    txtValue (name ++ 0x3D :: value) = value := by
  rw [txtValue, List.dropWhile_append_of_pos (bne_equals h)]
  simp

/-- An entry without an equals sign is all key. -/
theorem txtKey_of_bare {name : QByteArray} (h : (0x3D : UInt8) ∉ name) : txtKey name = name :=
  List.takeWhile_eq_self_iff.mpr (bne_equals h)

/-- An entry without an equals sign has no value. -/
theorem txtValue_of_bare {name : QByteArray} (h : (0x3D : UInt8) ∉ name) : txtValue name = [] := by
  rw [txtValue, List.dropWhile_eq_nil_iff.mpr (bne_equals h)]
  rfl

theorem indexOf_of_equals {name : QByteArray} (value : QByteArray) (h : (0x3D : UInt8) ∉ name) :
    QByteArray.indexOf (name ++ 0x3D :: value) 0x3D = name.length := by
  have hidx : (name ++ 0x3D :: value).idxOf? 0x3D = some name.length := by
    rw [List.idxOf?_eq_some_iff]
    refine ⟨by simp, by simp, ?_⟩
    intro j hj heq
    rw [List.getElem_append_left hj] at heq
    exact h (heq ▸ List.getElem_mem hj)
  simp only [QByteArray.indexOf, hidx]

/-- A byte string either has no equals sign or splits at the first one. -/
theorem equals_split (s : QByteArray) :
    (0x3D : UInt8) ∉ s ∨ ∃ name value, s = name ++ 0x3D :: value ∧ (0x3D : UInt8) ∉ name := by
  by_cases h : (0x3D : UInt8) ∈ s
  · obtain ⟨name, value, hsplit, hname⟩ := List.eq_append_cons_of_mem h
    exact Or.inr ⟨name, value, hsplit, hname⟩
  · exact Or.inl h

/-- The loop body inserts the value of the string under its key. -/
theorem insertText_eq (m_txt : TxtMap) (s : QByteArray) :
    insertText m_txt s = m_txt.insert (txtKey s) (txtValue s) := by
  rcases equals_split s with h | ⟨name, value, rfl, h⟩
  · have hpos : QByteArray.indexOf s 0x3D = -1 := by
      simp only [QByteArray.indexOf, List.idxOf?_eq_none_iff.mpr h]
    simp [insertText, hpos, txtKey_of_bare h, txtValue_of_bare h]
  · have hpos := indexOf_of_equals value h
    have hnonneg : ¬ ((name.length : Int) < 0) := by omega
    simp only [insertText, hpos, if_neg hnonneg, txtKey_of_equals h, txtValue_of_equals h,
      QByteArray.left, QByteArray.mid]
    congr 1
    · simp
    · have hnext : ((name.length : Int) + 1).toNat = name.length + 1 := by omega
      rw [hnext, List.drop_append]
      simp

end qtzeroconf
