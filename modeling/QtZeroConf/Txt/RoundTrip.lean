import QtZeroConf.Txt.Bonjour

open framing table

namespace qtzeroconf.bonjour

/-- A call of one of the two `addServiceTxtRecord` overloads. -/
inductive TxtCall where
  | nameOnly (name : QString)
  | pair (name value : QString)

namespace TxtCall

/-- The text that the call puts into the record. -/
def text : TxtCall → QString
  | nameOnly name => name
  | pair name value => name ++ [unit '='] ++ value

def name : TxtCall → QString
  | nameOnly name => name
  | pair name _ => name

/-- The value that a reader should find under the name. -/
def value : TxtCall → QString
  | nameOnly _ => []
  | pair _ value => value

def apply (txt : QByteArray) : TxtCall → QByteArray
  | nameOnly name => addServiceTxtRecord txt name
  | pair name value => addServiceTxtRecordPair txt name value

end TxtCall

/-- `pri->txt` after a sequence of calls on a new instance. -/
def txtAfter (calls : List TxtCall) : QByteArray := calls.foldl TxtCall.apply []

/-- The map of the names and values that were added, in call order. -/
def addedTxt (calls : List TxtCall) : TxtMap :=
  insertAll (fun c => c.name.toUtf8) (fun c => c.value.toUtf8) calls ∅

/-- TXT rdata that consists of the given strings: each stands behind one byte
    that holds its exact length, and the length argument is that of the whole
    buffer. -/
structure WellFormedTxt (strings : List QByteArray) (argument : UInt16 × QByteArray) : Prop where
  short : ∀ s ∈ strings, s.length ≤ 255
  framed : argument.2 = frames strings
  whole : argument.1.toNat = argument.2.length

/-- What publishing promises about TXT records: the buffer is well-formed and
    holds the added texts, and within the size limits of a TXT record its
    reader recovers the names and values. -/
structure TxtRoundTrip (calls : List TxtCall) : Prop where
  wellFormed : WellFormedTxt (calls.map fun c => c.text.toUtf8) (txtArguments (txtAfter calls))
  readBack : (∀ c ∈ calls, c.text.toUtf8.length ≤ 255) → (txtAfter calls).length ≤ 65535 →
    (∀ c ∈ calls, unit '=' ∉ c.name) →
      readTxt (txtArguments (txtAfter calls)).1 (txtArguments (txtAfter calls)).2 ∅ = .ok (addedTxt calls)

theorem TxtCall.apply_eq (txt : QByteArray) (c : TxtCall) :
    c.apply txt = txt ++ UInt8.ofNat c.text.length :: c.text.toUtf8 := by
  cases c <;>
    simp [TxtCall.apply, TxtCall.text, addServiceTxtRecordPair, addServiceTxtRecord]

/-- Every call appends the UTF-16 length of its text and the UTF-8 bytes. -/
theorem txtAfter_eq (calls : List TxtCall) :
    txtAfter calls = calls.flatMap fun c => UInt8.ofNat c.text.length :: c.text.toUtf8 := by
  have hfold (txt : QByteArray) : calls.foldl TxtCall.apply txt =
      txt ++ calls.flatMap fun c => UInt8.ofNat c.text.length :: c.text.toUtf8 := by
    induction calls generalizing txt with
    | nil => simp
    | cons c calls ih =>
      rw [List.foldl_cons, ih, TxtCall.apply_eq, List.flatMap_cons, List.append_assoc]
  simpa [txtAfter] using hfold []

theorem length_txtAfter (calls : List TxtCall) :
    (txtAfter calls).length = (calls.map fun c => c.text.toUtf8.length + 1).sum := by
  rw [txtAfter_eq, List.length_flatMap]
  rfl

/-- The buffer frames the added texts exactly when every length byte agrees
    with the number of bytes behind it. -/
theorem txtAfter_eq_frames_iff (calls : List TxtCall) :
    txtAfter calls = frames (calls.map fun c => c.text.toUtf8) ↔
      ∀ c ∈ calls, UInt8.ofNat c.text.length = UInt8.ofNat c.text.toUtf8.length := by
  rw [txtAfter_eq]
  induction calls with
  | nil => simp
  | cons c calls ih =>
    rw [List.map_cons, frames_cons, List.flatMap_cons, List.cons_append, List.cons.injEq,
      List.append_cancel_left_eq, ih, List.forall_mem_cons]

/-- The UTF-16 length of a text fits the length byte of its UTF-8 bytes exactly
    when no character takes more than one byte and the text is short. -/
theorem length_byte_exact_iff (s : QString) :
    (s.toUtf8.length ≤ 255 ∧ UInt8.ofNat s.length = UInt8.ofNat s.toUtf8.length) ↔
      s.toUtf8.length = s.length ∧ s.length ≤ 255 := by
  have hle := length_le_length_toUtf8 s
  constructor
  · rintro ⟨hshort, hbyte⟩
    have hval := congrArg UInt8.toNat hbyte
    simp only [UInt8.toNat_ofNat'] at hval
    omega
  · rintro ⟨hlen, hshort⟩
    rw [hlen]
    exact ⟨hshort, rfl⟩

/-- A text whose name has no equals sign is read back as its name and value. -/
theorem TxtCall.read_text {c : TxtCall} (h : unit '=' ∉ c.name) :
    txtKey c.text.toUtf8 = c.name.toUtf8 ∧ txtValue c.text.toUtf8 = c.value.toUtf8 := by
  have hbytes := equals_not_mem_toUtf8 h
  cases c with
  | nameOnly name => exact ⟨txtKey_of_bare hbytes, txtValue_of_bare hbytes⟩
  | pair name value =>
    have hsplit : (TxtCall.pair name value).text.toUtf8 = name.toUtf8 ++ 0x3D :: value.toUtf8 := by
      rw [TxtCall.text, List.append_assoc, List.singleton_append]
      exact toUtf8_append_ascii name value (by decide)
    rw [hsplit]
    exact ⟨txtKey_of_equals hbytes, txtValue_of_equals hbytes⟩

/-- Texts whose names have no equals sign decode to the added map. -/
theorem insertAll_texts {calls : List TxtCall} (h : ∀ c ∈ calls, unit '=' ∉ c.name) (m_txt : TxtMap) :
    insertAll txtKey txtValue (calls.map fun c => c.text.toUtf8) m_txt =
      insertAll (fun c : TxtCall => c.name.toUtf8) (fun c => c.value.toUtf8) calls m_txt := by
  induction calls generalizing m_txt with
  | nil => rfl
  | cons c calls ih =>
    obtain ⟨hkey, hvalue⟩ := TxtCall.read_text (h c List.mem_cons_self)
    rw [List.map_cons, insertAll_cons, insertAll_cons, hkey, hvalue,
      ih fun d hd => h d (List.mem_cons_of_mem _ hd)]

/-- The reader recovers the added map from every buffer that frames the added
    texts, for all Unicode content. -/
theorem readTxt_of_wellFormed {calls : List TxtCall}
    (hformed : WellFormedTxt (calls.map fun c => c.text.toUtf8) (txtArguments (txtAfter calls)))
    (hnames : ∀ c ∈ calls, unit '=' ∉ c.name) :
    readTxt (txtArguments (txtAfter calls)).1 (txtArguments (txtAfter calls)).2 ∅ = .ok (addedTxt calls) := by
  obtain ⟨hshort, hframed, hwhole⟩ := hformed
  rw [hframed] at hwhole ⊢
  rw [readTxt_frames _ hshort ∅ hwhole, insertAll_texts hnames]
  rfl

/-- TXT records make the round trip exactly when every text is at most 255
    characters of one byte each and the whole buffer has a 16-bit length. -/
theorem txtRoundTrip_iff (calls : List TxtCall) :
    TxtRoundTrip calls ↔
      (∀ c ∈ calls, c.text.toUtf8.length = c.text.length ∧ c.text.length ≤ 255) ∧
        (calls.map fun c => c.text.toUtf8.length + 1).sum ≤ 65535 := by
  have hformed : WellFormedTxt (calls.map fun c => c.text.toUtf8) (txtArguments (txtAfter calls)) ↔
      (∀ c ∈ calls, c.text.toUtf8.length = c.text.length ∧ c.text.length ≤ 255) ∧
        (calls.map fun c => c.text.toUtf8.length + 1).sum ≤ 65535 := by
    have hwhole : (txtArguments (txtAfter calls)).1.toNat = (txtAfter calls).length ↔
        (calls.map fun c => c.text.toUtf8.length + 1).sum ≤ 65535 := by
      rw [← length_txtAfter, txtArguments, UInt16.toNat_ofNat']
      omega
    constructor
    · rintro ⟨hshort, hframed, htotal⟩
      refine ⟨fun c hc => (length_byte_exact_iff c.text).mp ⟨?_, ?_⟩, hwhole.mp htotal⟩
      · exact hshort _ (List.mem_map_of_mem hc)
      · exact (txtAfter_eq_frames_iff calls).mp hframed c hc
    · rintro ⟨hexact, htotal⟩
      refine ⟨?_, ?_, hwhole.mpr htotal⟩
      · rintro s hs
        obtain ⟨c, hc, rfl⟩ := List.mem_map.mp hs
        exact ((length_byte_exact_iff c.text).mpr (hexact c hc)).1
      · exact (txtAfter_eq_frames_iff calls).mpr fun c hc =>
          ((length_byte_exact_iff c.text).mpr (hexact c hc)).2
  rw [← hformed]
  constructor
  · exact fun h => h.wellFormed
  · exact fun h => ⟨h, fun _ _ hnames => readTxt_of_wellFormed h hnames⟩

/-- One accented letter is enough: "é" stands behind the length 1 and takes two
    bytes, so the buffer is no TXT rdata at all and its reader runs off the end. -/
theorem txt_accent_breaks_round_trip :
    (∀ strings, ¬ WellFormedTxt strings (txtArguments (txtAfter [.nameOnly [0xE9]]))) ∧
      readTxt (txtArguments (txtAfter [.nameOnly [0xE9]])).1
        (txtArguments (txtAfter [.nameOnly [0xE9]])).2 ∅ = .error .overread ∧
      ¬ TxtRoundTrip [.nameOnly [0xE9]] := by
  have hargument : txtArguments (txtAfter [.nameOnly [0xE9]]) = (3, [1, 0xC3, 0xA9]) := by decide
  have hread : readTxt 3 [1, 0xC3, 0xA9] ∅ = .error .overread := rfl
  have hill (strings : List QByteArray) : ¬ WellFormedTxt strings (3, [1, 0xC3, 0xA9]) := by
    rintro ⟨hshort, hframed, hwhole⟩
    simp only at hframed hwhole
    rw [hframed] at hwhole hread
    rw [readTxt_frames strings hshort ∅ hwhole] at hread
    cases hread
  rw [hargument]
  exact ⟨hill, hread, fun h => hill _ (hargument ▸ h.wellFormed)⟩

end qtzeroconf.bonjour
