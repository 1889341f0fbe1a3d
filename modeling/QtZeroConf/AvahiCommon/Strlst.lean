import QtZeroConf.Txt.Avahi

open framing

namespace qtzeroconf.avahi

/-- The loop of `avahi_string_list_reverse`, which moves the nodes over to `r`. -/
def reverseLoop : AvahiStringList → AvahiStringList → AvahiStringList
  | [], r => r
  | text :: next, r => reverseLoop next (text :: r)

/-- `avahi_string_list_reverse`. -/
def avahi_string_list_reverse (l : AvahiStringList) : AvahiStringList := reverseLoop l []

/-- `avahi_string_list_equal`. -/
def avahi_string_list_equal : AvahiStringList → AvahiStringList → Bool
  | [], [] => true
  | [], _ :: _ => false
  | _ :: _, [] => false
  | a :: as, b :: bs => if a.length ≠ b.length ∨ a ≠ b then false else avahi_string_list_equal as bs

/-- The loop of `avahi_string_list_serialize` over a list that was reversed:
    `size` bytes are left behind the ones that are in `c`. -/
def serializeLoop : AvahiStringList → Nat → QByteArray → QByteArray
  | [], _, c => c
  | n :: l, size, c =>
    if ¬ 1 < size then c
    -- empty strings are skipped
    else if n.length = 0 then serializeLoop l size c
    else
      -- strings are truncated at 255 bytes, and to what is left
      let k := if 255 < n.length then 255 else n.length
      let k := if size - 1 < k then size - 1 else k
      serializeLoop l (size - (1 + k)) (c ++ UInt8.ofNat k :: n.take k)

/-- `avahi_string_list_serialize`, into `size` bytes of data. An empty list is
    written as a single empty string. -/
def avahi_string_list_serialize (l : AvahiStringList) (size : Nat) : QByteArray :=
  let data := serializeLoop (avahi_string_list_reverse l) size []
  if data.length = 0 ∧ 0 < size then [0] else data

/-- The size that `avahi_string_list_serialize` returns without data to write to. -/
def serializedSize (l : AvahiStringList) : Nat :=
  let used := l.foldl (fun used n =>
    if n.length = 0 then used else used + (1 + if 255 < n.length then 255 else n.length)) 0
  if used = 0 then 1 else used

/-- The strings of a list that are written, from its tail on. -/
def serialized (l : AvahiStringList) : List QByteArray := (l.filter (· ≠ [])).map (·.take 255)

theorem reverseLoop_eq (l r : AvahiStringList) : reverseLoop l r = l.reverse ++ r := by
  induction l generalizing r with
  | nil => rfl
  | cons text next ih => rw [reverseLoop, ih, List.reverse_cons, List.append_assoc, List.singleton_append]

@[simp] theorem avahi_string_list_reverse_eq (l : AvahiStringList) : avahi_string_list_reverse l = l.reverse := by
  rw [avahi_string_list_reverse, reverseLoop_eq, List.append_nil]

theorem avahi_string_list_equal_iff (a b : AvahiStringList) : avahi_string_list_equal a b = true ↔ a = b := by
  induction a generalizing b with
  | nil => cases b <;> simp [avahi_string_list_equal]
  | cons x a ih =>
    cases b with
    | nil => simp [avahi_string_list_equal]
    | cons y b =>
      rw [avahi_string_list_equal]
      by_cases h : x = y
      · simp [h, ih]
      · simp [h]

/-- What is written behind `c` stays within the size, and is length-prefixed
    strings, whatever had to be cut off. -/
theorem serializeLoop_framed (l : AvahiStringList) (size : Nat) (c : QByteArray) :
    ∃ ss : List QByteArray, (∀ s ∈ ss, s.length ≤ 255) ∧ serializeLoop l size c = c ++ frames ss ∧
      (frames ss).length ≤ size := by
  induction l generalizing size c with
  | nil => exact ⟨[], nofun, by simp [serializeLoop], by simp⟩
  | cons n l ih =>
    rw [serializeLoop]
    by_cases hfull : ¬ 1 < size
    · exact ⟨[], nofun, by simp [hfull], by simp⟩
    by_cases hempty : n.length = 0
    · obtain ⟨ss, hshort, hloop, hsize⟩ := @ih size c
      exact ⟨ss, hshort, by rw [if_neg hfull, if_pos hempty, hloop], hsize⟩
    · rw [if_neg hfull, if_neg hempty]
      generalize hk₀ : (if 255 < n.length then 255 else n.length) = k₀
      simp only
      generalize hk : (if size - 1 < k₀ then size - 1 else k₀) = k
      have hbounds : k ≤ 255 ∧ k ≤ n.length ∧ k ≤ size - 1 := by
        split_ifs at hk₀ hk <;> omega
      have htake : (n.take k).length = k := List.length_take_of_le hbounds.2.1
      obtain ⟨ss, hshort, hloop, hsize⟩ := @ih (size - (1 + k)) (c ++ UInt8.ofNat k :: n.take k)
      refine ⟨n.take k :: ss, List.forall_mem_cons.mpr ⟨by omega, hshort⟩, ?_, ?_⟩
      · rw [hloop, frames_cons, htake, List.append_assoc, List.cons_append]
      · rw [frames_cons, List.length_cons, List.length_append, htake]
        omega

theorem serialized_cons_nil (l : AvahiStringList) : serialized ([] :: l) = serialized l := by simp [serialized]

theorem serialized_cons {n : QByteArray} (hn : n ≠ []) (l : AvahiStringList) :
    serialized (n :: l) = n.take 255 :: serialized l := by simp [serialized, hn]

/-- Strings that are written take two bytes at least. -/
theorem serialized_eq_nil {l : AvahiStringList} (h : (frames (serialized l)).length ≤ 1) : serialized l = [] := by
  induction l with
  | nil => rfl
  | cons n l ih =>
    by_cases hn : n = []
    · rw [hn, serialized_cons_nil] at h ⊢
      exact ih h
    · have hpositive := List.length_pos_iff.mpr hn
      rw [serialized_cons hn, frames_cons, List.length_cons, List.length_append, List.length_take] at h
      omega

/-- With enough room, nothing is cut off but what is behind 255 bytes. -/
theorem serializeLoop_full (l : AvahiStringList) {size : Nat} (hsize : (frames (serialized l)).length ≤ size)
    (c : QByteArray) : serializeLoop l size c = c ++ frames (serialized l) := by
  induction l generalizing size c with
  | nil => simp [serializeLoop, serialized]
  | cons n l ih =>
    rw [serializeLoop]
    by_cases hn : n = []
    · rw [hn, serialized_cons_nil] at hsize ⊢
      by_cases hfull : ¬ 1 < size
      · rw [if_pos hfull, serialized_eq_nil (by omega), frames_nil, List.append_nil]
      · rw [if_neg hfull, if_pos List.length_nil, ih hsize]
    · have hpositive := List.length_pos_iff.mpr hn
      rw [serialized_cons hn, frames_cons, List.length_cons, List.length_append, List.length_take] at hsize
      have hk : (if 255 < n.length then 255 else n.length) = min 255 n.length := by
        split_ifs <;> omega
      have htake : n.take (min 255 n.length) = n.take 255 := by rw [List.take_eq_take_iff]; omega
      have hroom : ¬ size - 1 < min 255 n.length := by omega
      rw [if_neg (by omega), if_neg (by omega)]
      simp only [hk, if_neg hroom, htake]
      rw [ih (by omega), serialized_cons hn, frames_cons, List.length_take, List.append_assoc, List.cons_append]

/-- What the size is made of. -/
theorem foldl_serialized (l : AvahiStringList) (used : Nat) :
    l.foldl (fun used n => if n.length = 0 then used else used + (1 + if 255 < n.length then 255 else n.length)) used =
      used + (frames (serialized l)).length := by
  induction l generalizing used with
  | nil => simp [serialized]
  | cons n l ih =>
    rw [List.foldl_cons, ih]
    by_cases hn : n = []
    · simp [hn, serialized_cons_nil]
    · have hpositive := List.length_pos_iff.mpr hn
      rw [if_neg (by omega), serialized_cons hn, frames_cons, List.length_cons, List.length_append, List.length_take]
      split_ifs <;> omega

theorem length_frames_reverse (ss : List QByteArray) : (frames ss.reverse).length = (frames ss).length := by
  rw [length_frames, length_frames, List.map_reverse, List.sum_reverse]

theorem serialized_reverse (l : AvahiStringList) : serialized l.reverse = (serialized l).reverse := by
  rw [serialized, serialized, List.filter_reverse, List.map_reverse]

theorem serializedSize_eq (l : AvahiStringList) :
    serializedSize l = if serialized l = [] then 1 else (frames (serialized l)).length := by
  have hempty : (frames (serialized l)).length = 0 ↔ serialized l = [] := by
    constructor
    · exact fun h => serialized_eq_nil (by omega)
    · intro h
      rw [h]
      rfl
  simp only [serializedSize, foldl_serialized, Nat.zero_add, hempty]

/-- Into a buffer of the size that is asked for, the strings are written from
    the tail of the list on. -/
theorem avahi_string_list_serialize_eq {l : AvahiStringList} {size : Nat} (hsize : serializedSize l ≤ size) :
    avahi_string_list_serialize l size = if serialized l = [] then [0] else frames (serialized l).reverse := by
  rw [serializedSize_eq] at hsize
  have hfits : (frames (serialized l.reverse)).length ≤ size := by
    rw [serialized_reverse, length_frames_reverse]
    split_ifs at hsize with hempty
    · rw [hempty]
      exact Nat.zero_le _
    · exact hsize
  have hloop := serializeLoop_full l.reverse hfits []
  rw [List.nil_append, serialized_reverse] at hloop
  rw [avahi_string_list_serialize, avahi_string_list_reverse_eq, hloop]
  by_cases hempty : serialized l = []
  · rw [if_pos hempty] at hsize
    rw [if_pos hempty, hempty]
    exact if_pos ⟨rfl, hsize⟩
  · rw [if_neg hempty]
    refine if_neg fun h => hempty (serialized_eq_nil ?_)
    have hlength := h.1
    rw [length_frames_reverse] at hlength
    omega

theorem mem_serialized {l : AvahiStringList} {s : QByteArray} (h : s ∈ serialized l) : s.length ≤ 255 ∧ s ≠ [] := by
  obtain ⟨n, hn, rfl⟩ := List.mem_map.mp h
  have hne : n ≠ [] := by simpa using (List.mem_filter.mp hn).2
  have hpositive := List.length_pos_iff.mpr hne
  refine ⟨by rw [List.length_take]; omega, fun hempty => ?_⟩
  have hlength := congrArg List.length hempty
  rw [List.length_take, List.length_nil] at hlength
  omega

/-- The strings of a list come back from rdata of the size that is asked for:
    without the empty ones, cut off behind 255 bytes, and in their order. -/
theorem parse_serialize_full {l : AvahiStringList} {size : Nat} (hsize : serializedSize l ≤ size) :
    avahi_string_list_parse (avahi_string_list_serialize l size) = some (serialized l) := by
  rw [avahi_string_list_serialize_eq hsize]
  by_cases hempty : serialized l = []
  · rw [if_pos hempty, hempty]
    rfl
  · rw [if_neg hempty, avahi_string_list_parse_frames _ fun s hs => (mem_serialized (List.mem_reverse.mp hs)).1,
      List.filter_eq_self.mpr fun s hs => by simpa using (mem_serialized (List.mem_reverse.mp hs)).2,
      List.reverse_reverse]

/-- Strings that are neither empty nor too long stay as they are. -/
theorem serialized_of_valid {l : AvahiStringList} (h : ∀ text ∈ l, text ≠ [] ∧ text.length ≤ 255) : serialized l = l := by
  have hfilter : l.filter (· ≠ []) = l := List.filter_eq_self.mpr fun text htext => by simpa using (h text htext).1
  have hmap : l.map (·.take 255) = l.map id :=
    List.map_congr_left fun text htext => List.take_of_length_le (h text htext).2
  rw [serialized, hfilter, hmap, List.map_id]

/-- Even an empty list takes a byte. -/
theorem length_serialize_pos (l : AvahiStringList) :
    0 < (avahi_string_list_serialize l (serializedSize l)).length := by
  rw [avahi_string_list_serialize_eq (Nat.le_refl _)]
  split_ifs with hempty
  · exact Nat.one_pos
  · refine Nat.pos_of_ne_zero fun hzero => hempty (serialized_eq_nil ?_)
    rw [length_frames_reverse] at hzero
    omega

/-- Whatever the size, what is written fits and can be parsed, and no list is
    written as nothing; with the size that is asked for, the strings come back
    from it. -/
theorem avahi_string_list_parse_serialize (l : AvahiStringList) (size : Nat) :
    (avahi_string_list_serialize l size).length ≤ size ∧
      0 < serializedSize l ∧ (0 < size → avahi_string_list_serialize l size ≠ []) ∧
      (∃ r, avahi_string_list_parse (avahi_string_list_serialize l size) = some r) ∧
      (serializedSize l ≤ size →
        (avahi_string_list_serialize l size).length = serializedSize l ∧
        avahi_string_list_parse (avahi_string_list_serialize l size) = some (serialized l)) := by
  obtain ⟨ss, hshort, hloop, hfits⟩ := serializeLoop_framed (avahi_string_list_reverse l) size []
  rw [List.nil_append] at hloop
  refine ⟨?_, ?_, fun hsize => ?_, ?_, fun hsize => ⟨?_, parse_serialize_full hsize⟩⟩
  · rw [avahi_string_list_serialize, hloop]
    split_ifs with hempty
    · exact hempty.2
    · exact hfits
  · rw [serializedSize]
    split_ifs <;> omega
  · rw [avahi_string_list_serialize]
    split_ifs with hempty
    · exact List.cons_ne_nil _ _
    · exact fun hnil => hempty ⟨List.length_eq_zero_iff.mpr hnil, hsize⟩
  · rw [avahi_string_list_serialize, hloop]
    split_ifs with hempty
    · exact ⟨[], rfl⟩
    · exact ⟨_, avahi_string_list_parse_frames ss hshort⟩
  · rw [avahi_string_list_serialize_eq hsize, serializedSize_eq]
    split_ifs
    · rfl
    · exact length_frames_reverse _

end qtzeroconf.avahi
