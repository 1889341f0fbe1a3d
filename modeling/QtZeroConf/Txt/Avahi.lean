import QtZeroConf.Library.Framing
import QtZeroConf.Library.Table
import QtZeroConf.Txt.Record

open framing table

namespace qtzeroconf.avahi

/-- A linked `AvahiStringList`, as the texts of its nodes from the head on. -/
abbrev AvahiStringList := List QByteArray

/-- `avahi_string_list_add_arbitrary` puts a node in front of the list. -/
def avahi_string_list_add_arbitrary (l : AvahiStringList) (text : QByteArray) : AvahiStringList :=
  text :: l

/-- `avahi_string_list_add`. -/
def avahi_string_list_add (l : AvahiStringList) (text : CString) : AvahiStringList :=
  avahi_string_list_add_arbitrary l text

/-- The loop of `avahi_string_list_parse` over the bytes that are left, for a
    number of turns. Every turn takes its length byte off, so as many turns as
    bytes are enough. -/
def parseLoop : Nat → QByteArray → AvahiStringList → Option AvahiStringList
  | _, [], r => some r
  | 0, _ :: _, _ => none
  | turns + 1, k :: c, r =>
    if c.length < k.toNat then none
    else
      -- empty strings are ignored
      let r := if 0 < k then avahi_string_list_add_arbitrary r (c.take k.toNat) else r
      parseLoop turns (c.drop k.toNat) r

/-- `avahi_string_list_parse`, on `size` bytes of data. -/
def avahi_string_list_parse (data : QByteArray) : Option AvahiStringList :=
  parseLoop data.length data []

/-- The TXT loop of `resolveCallback`, which walks the list from its head. -/
def readTxt (txt : AvahiStringList) (m_txt : TxtMap) : TxtMap :=
  match txt with
  | [] => m_txt
  | text :: next => readTxt next (insertText m_txt text)

/-- The parser prepends the non-empty strings one by one, so they end up last
    to first. -/
theorem parseLoop_frames (ss : List QByteArray) (hshort : ∀ s ∈ ss, s.length ≤ 255)
    (r : AvahiStringList) {turns : Nat} (hturns : ss.length ≤ turns) :
    parseLoop turns (frames ss) r = some ((ss.filter (· ≠ [])).reverse ++ r) := by
  induction ss generalizing r turns with
  | nil => cases turns <;> simp [parseLoop]
  | cons s ss ih =>
    cases turns with
    | zero => simp at hturns
    | succ turns =>
      have hlength := toNat_frame_length (hshort s List.mem_cons_self)
      have hroom : ¬ (s ++ frames ss).length < s.length := by simp
      have hturns' : ss.length ≤ turns := by simpa using hturns
      have hrest (r : AvahiStringList) := ih (fun t ht => hshort t (List.mem_cons_of_mem _ ht)) r hturns'
      have hpositive : (0 < UInt8.ofNat s.length) ↔ s ≠ [] := by
        rw [UInt8.lt_iff_toNat_lt, hlength, UInt8.toNat_zero, List.length_pos_iff]
      simp only [frames_cons, parseLoop, hlength, if_neg hroom, List.drop_left, List.take_left, hrest,
        hpositive]
      by_cases hempty : s = []
      · simp [hempty]
      · simp [hempty, avahi_string_list_add_arbitrary]

/-- On well-formed rdata the parser succeeds with the non-empty strings, last
    to first. -/
theorem avahi_string_list_parse_frames (ss : List QByteArray) (hshort : ∀ s ∈ ss, s.length ≤ 255) :
    avahi_string_list_parse (frames ss) = some (ss.filter (· ≠ [])).reverse := by
  have hturns : ss.length ≤ (frames ss).length := by
    rw [length_frames]
    simp
  rw [avahi_string_list_parse, parseLoop_frames ss hshort [] hturns, List.append_nil]

theorem readTxt_eq (txt : AvahiStringList) (m_txt : TxtMap) :
    readTxt txt m_txt = insertAll txtKey txtValue txt m_txt := by
  induction txt generalizing m_txt with
  | nil => rfl
  | cons text next ih => rw [readTxt, ih, insertText_eq, insertAll_cons]

end qtzeroconf.avahi
