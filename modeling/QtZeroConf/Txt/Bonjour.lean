import QtZeroConf.Library.Framing
import QtZeroConf.Library.Table
import QtZeroConf.Txt.Record

open framing table

namespace qtzeroconf.bonjour

/-- `QZeroConf::addServiceTxtRecord(nameOnly)`: the length byte is the number
    of UTF-16 code units, cast to a char. -/
def addServiceTxtRecord (txt : QByteArray) (nameOnly : QString) : QByteArray :=
  txt ++ [UInt8.ofNat nameOnly.length] ++ nameOnly.toUtf8

/-- `QZeroConf::addServiceTxtRecord(name, value)`. -/
def addServiceTxtRecordPair (txt : QByteArray) (name value : QString) : QByteArray :=
  addServiceTxtRecord txt (name ++ [unit '='] ++ value)

/-- The length and the bytes of the TXT record that `startServicePublish` hands
    to `DNSServiceRegister`. -/
def txtArguments (txt : QByteArray) : UInt16 × QByteArray := (UInt16.ofNat txt.length, txt)

/-- How the TXT loop of `resolverCallback` can go wrong. -/
inductive TxtFault where
  /-- it reads a byte past the end of the record -/
  | overread
  /-- it has run more turns than it was given -/
  | unfinished
  deriving DecidableEq

/-- The variables of the TXT loop; `txtRecord` is what is left of the record
    from the cursor on. -/
structure TxtLoop where
  txtLen : UInt16
  txtRecord : QByteArray
  m_txt : TxtMap

/-- One turn of the TXT loop. -/
def TxtLoop.turn (l : TxtLoop) : Except TxtFault TxtLoop :=
  match l.txtRecord with
  | [] => .error .overread
  | recLen :: rest =>
    if rest.length < recLen.toNat then .error .overread
    else .ok {
      txtLen := l.txtLen - (recLen.toUInt16 + 1)
      txtRecord := rest.drop recLen.toNat
      m_txt := insertText l.m_txt (rest.take recLen.toNat) }

/-- `while (txtLen > 0)`, for a number of turns. -/
def TxtLoop.run : Nat → TxtLoop → Except TxtFault TxtMap
  | 0, l => if l.txtLen = 0 then .ok l.m_txt else .error .unfinished
  | turns + 1, l =>
    if l.txtLen = 0 then .ok l.m_txt
    else match l.turn with
      | .ok next => next.run turns
      | .error fault => .error fault

/-- The TXT loop of `resolverCallback`, on the map that the service already
    has. A turn takes at least one byte off the length, so `txtLen` turns are
    enough for every record that is read to its end. -/
def readTxt (txtLen : UInt16) (txtRecord : QByteArray) (m_txt : TxtMap) : Except TxtFault TxtMap :=
  TxtLoop.run txtLen.toNat { txtLen, txtRecord, m_txt }

/-- One turn takes the first framed string off the record and into the map. -/
theorem TxtLoop.turn_frames {s : QByteArray} {ss : List QByteArray} {txtLen : UInt16} (m_txt : TxtMap)
    (hshort : s.length ≤ 255) (htotal : txtLen.toNat = (frames (s :: ss)).length) :
    ∃ next : TxtLoop, TxtLoop.turn { txtLen, txtRecord := frames (s :: ss), m_txt } = .ok next ∧
      next.txtLen.toNat = (frames ss).length ∧ next.txtRecord = frames ss ∧
      next.m_txt = insertText m_txt s := by
  have hlength := toNat_frame_length hshort
  refine ⟨{ txtLen := txtLen - ((UInt8.ofNat s.length).toUInt16 + 1), txtRecord := frames ss,
            m_txt := insertText m_txt s }, ?_, ?_, rfl, rfl⟩
  · have hroom : ¬ (s ++ frames ss).length < s.length := by simp
    simp only [TxtLoop.turn, frames_cons, hlength, if_neg hroom, List.drop_left, List.take_left]
  · have hbound := txtLen.toNat_lt
    rw [frames_cons, List.length_cons, List.length_append] at htotal
    simp only [UInt16.toNat_sub, UInt16.toNat_add, UInt8.toNat_toUInt16, hlength, UInt16.toNat_one]
    omega

/-- Over a record of framed strings the loop reads exactly these strings, front
    to back, and stops at the end of the record. -/
theorem TxtLoop.run_frames (ss : List QByteArray) (hshort : ∀ s ∈ ss, s.length ≤ 255)
    {txtLen : UInt16} (m_txt : TxtMap) {turns : Nat}
    (htotal : txtLen.toNat = (frames ss).length) (hturns : ss.length ≤ turns) :
    TxtLoop.run turns { txtLen, txtRecord := frames ss, m_txt } =
      .ok (insertAll txtKey txtValue ss m_txt) := by
  induction ss generalizing txtLen m_txt turns with
  | nil =>
    have hdone : txtLen = 0 := UInt16.toNat_inj.mp htotal
    cases turns <;> simp [TxtLoop.run, hdone]
  | cons s ss ih =>
    cases turns with
    | zero => simp at hturns
    | succ turns =>
      have hmore : txtLen ≠ 0 := by
        rintro rfl
        simp at htotal
      obtain ⟨next, hturn, hlen, hrecord, hmap⟩ :=
        TxtLoop.turn_frames m_txt (hshort s List.mem_cons_self) htotal
      have hturns' : ss.length ≤ turns := by simpa using hturns
      have hrest := ih (fun t ht => hshort t (List.mem_cons_of_mem _ ht)) next.m_txt hlen hturns'
      rw [← hrecord] at hrest
      simp only [TxtLoop.run, hmore, if_false, hturn, hrest, hmap, insertText_eq, insertAll_cons]

/-- The TXT loop decodes every well-formed record of a representable length. -/
theorem readTxt_frames (ss : List QByteArray) (hshort : ∀ s ∈ ss, s.length ≤ 255)
    {txtLen : UInt16} (m_txt : TxtMap) (htotal : txtLen.toNat = (frames ss).length) :
    readTxt txtLen (frames ss) m_txt = .ok (insertAll txtKey txtValue ss m_txt) := by
  apply TxtLoop.run_frames ss hshort m_txt htotal
  rw [htotal, length_frames]
  simp

end qtzeroconf.bonjour
