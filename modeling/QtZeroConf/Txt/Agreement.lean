import QtZeroConf.Txt.Avahi
import QtZeroConf.Txt.Bonjour

open framing table

namespace qtzeroconf

/-- Well-formed TXT rdata of a length that a DNS record can have. -/
structure TxtRdata where
  strings : List QByteArray
  short : ∀ s ∈ strings, s.length ≤ 255
  fits : (frames strings).length ≤ 65535

namespace TxtRdata

def bytes (rdata : TxtRdata) : QByteArray := frames rdata.strings

def txtLen (rdata : TxtRdata) : UInt16 := UInt16.ofNat rdata.bytes.length

/-- The non-empty strings, which are all that the Avahi parser keeps. -/
def nonEmpty (rdata : TxtRdata) : List QByteArray := rdata.strings.filter (· ≠ [])

/-- The Bonjour loop decodes the bytes to the same map as the Avahi loop
    decodes the parsed list to. -/
def Agree (rdata : TxtRdata) : Prop :=
  ∃ txt, avahi.avahi_string_list_parse rdata.bytes = some txt ∧
    bonjour.readTxt rdata.txtLen rdata.bytes ∅ = .ok (avahi.readTxt txt ∅)

/-- The last string with a key and the first non-empty one with it carry the
    same value. -/
def FirstIsLast (rdata : TxtRdata) : Prop :=
  ∀ k first last, rdata.nonEmpty.find? (fun s => txtKey s = k) = some first →
    rdata.strings.reverse.find? (fun s => txtKey s = k) = some last → txtValue first = txtValue last

/-- An empty string occurs only next to a non-empty one with the empty key. -/
def EmptyIsNamed (rdata : TxtRdata) : Prop :=
  [] ∈ rdata.strings → ∃ s ∈ rdata.nonEmpty, txtKey s = []

/-- Front to back, the last string with a key decides its value. -/
theorem bonjour_readTxt (rdata : TxtRdata) :
    bonjour.readTxt rdata.txtLen rdata.bytes ∅ = .ok (insertAll txtKey txtValue rdata.strings ∅) := by
  apply bonjour.readTxt_frames _ rdata.short
  rw [txtLen, UInt16.toNat_ofNat']
  exact Nat.mod_eq_of_lt (Nat.lt_succ_of_le rdata.fits)

/-- Agreement is a matter of which string decides each key. -/
theorem agree_iff_find? (rdata : TxtRdata) :
    rdata.Agree ↔ ∀ k, (rdata.strings.reverse.find? fun s => txtKey s = k).map txtValue =
      (rdata.nonEmpty.find? fun s => txtKey s = k).map txtValue := by
  rw [Agree, bonjour_readTxt]
  simp only [bytes, avahi.avahi_string_list_parse_frames _ rdata.short, Option.some.injEq,
    exists_eq_left', Except.ok.injEq, avahi.readTxt_eq]
  exact insertAll_eq_insertAll_reverse_iff txtKey txtValue rdata.strings rdata.nonEmpty

/-- A key that a string has is found among the strings. -/
theorem find?_key_isSome {strings : List QByteArray} {s k : QByteArray} (hs : s ∈ strings)
    (hkey : txtKey s = k) : ∃ t, strings.find? (fun u => txtKey u = k) = some t := by
  apply Option.isSome_iff_exists.mp
  rw [List.find?_isSome]
  exact ⟨s, hs, by simpa using hkey⟩

/-- The two decoders agree exactly when the first and the last string of every
    key say the same, and no empty string adds a key that the Avahi parser
    drops. -/
theorem agree_iff (rdata : TxtRdata) : rdata.Agree ↔ rdata.FirstIsLast ∧ rdata.EmptyIsNamed := by
  rw [agree_iff_find?]
  constructor
  · intro h
    refine ⟨fun k first last hfirst hlast => ?_, fun hempty => ?_⟩
    · have hk := h k
      rw [hfirst, hlast] at hk
      exact (Option.some.inj hk).symm
    · have hk := h []
      obtain ⟨last, hlast⟩ := find?_key_isSome (List.mem_reverse.mpr hempty) (k := []) rfl
      rw [hlast, Option.map_some] at hk
      obtain ⟨first, hfirst, -⟩ := Option.map_eq_some_iff.mp hk.symm
      exact ⟨first, List.mem_of_find?_eq_some hfirst, by simpa using List.find?_some hfirst⟩
  · rintro ⟨hfirst, hempty⟩ k
    cases hlastk : rdata.strings.reverse.find? fun s => txtKey s = k with
    | none =>
      have hnone : rdata.nonEmpty.find? (fun s => txtKey s = k) = none := by
        rw [List.find?_eq_none] at hlastk ⊢
        intro s hs
        exact hlastk s (List.mem_reverse.mpr (List.mem_of_mem_filter hs))
      rw [hnone]
    | some last =>
      cases hfirstk : rdata.nonEmpty.find? fun s => txtKey s = k with
      | some first => simp [hfirst k first last hfirstk hlastk]
      | none =>
        -- only the empty string can have a key that no non-empty string has
        have hkey : txtKey last = k := by simpa using List.find?_some hlastk
        have hmem := List.mem_reverse.mp (List.mem_of_find?_eq_some hlastk)
        rw [List.find?_eq_none] at hfirstk
        have hnil : last = [] := by
          by_contra hne
          exact hfirstk last (List.mem_filter.mpr ⟨hmem, by simpa using hne⟩) (by simpa using hkey)
        subst hnil
        obtain ⟨s, hs, hskey⟩ := hempty hmem
        exact absurd (by simpa using hskey.trans hkey) (hfirstk s hs)

/-- "a=1" followed by "a=2": Bonjour reads 2, Avahi reads 1. -/
def repeatedKey : TxtRdata where
  strings := [[0x61, 0x3D, 0x31], [0x61, 0x3D, 0x32]]
  short := by decide
  fits := by decide

/-- A repeated key with two values, and likewise a single empty string, is
    decoded differently by the two backends. -/
theorem repeated_key_disagrees : ¬ repeatedKey.Agree ∧
    ¬ (⟨[[]], by decide, by decide⟩ : TxtRdata).Agree := by
  simp only [agree_iff_find?]
  constructor
  · intro h
    exact absurd (h [0x61]) (by decide)
  · intro h
    exact absurd (h []) (by decide)

end TxtRdata

end qtzeroconf
