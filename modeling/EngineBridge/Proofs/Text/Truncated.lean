import EngineBridge.Proofs.Text.Streaming

/-! Text of which only the first bytes have arrived. However these were cut into chunks, each
character that is there in full has been settled, and only the bytes of the next one are held. -/
namespace EngineBridge.Utf8

namespace Decoder

theorem feed_after (bytes : ByteArray) (chunks : List ByteArray) :
    feed (after bytes) (settled bytes) chunks =
      (after (chunks.foldl (· ++ ·) bytes), settled (chunks.foldl (· ++ ·) bytes)) := by
  induction chunks generalizing bytes with
  | nil => rfl
  | cons chunk chunks ih =>
    rw [feed, decode_after, ← settled_append, ih (bytes ++ chunk)]
    rfl

theorem feed_eq_readInto (chunks : List ByteArray) :
    feed {} "" chunks = readInto "" (chunks.flatMap (·.data.toList)) := by
  have hafter := feed_after .empty chunks
  have hbytes := toList_foldl_append .empty chunks
  have hsettled : settled .empty = "" := congrArg Prod.snd (readInto_nil "")
  rw [after_empty, hsettled] at hafter
  rw [hafter]
  change decode {} (chunks.foldl (· ++ ·) .empty) = _
  rw [decode, List.nil_append, hbytes]
  rfl

end Decoder

/-- Bytes that stop before the first of some characters is complete. Where no character is left, no
byte is left either. -/
inductive StopsIn : List UInt8 → List Char → Prop where
  | atEnd : StopsIn [] []
  | before {begun more : List UInt8} {c : Char} (cs : List Char)
      (encoded : String.utf8EncodeChar c = begun ++ more) (incomplete : more ≠ []) :
      StopsIn begun (c :: cs)

theorem StopsIn.nil (cs : List Char) : StopsIn [] cs := by
  cases cs with
  | nil => exact .atEnd
  | cons c cs =>
    obtain ⟨lead, tail, hc⟩ := exists_utf8EncodeChar_eq_cons c
    exact .before cs (List.nil_append _).symm (hc ▸ List.cons_ne_nil lead tail)

theorem exists_of_prefix_encodeAll {bytes : List UInt8} {cs : List Char}
    (h : bytes <+: encodeAll cs) :
    ∃ whole later begun, cs = whole ++ later ∧ bytes = encodeAll whole ++ begun ∧
      StopsIn begun later := by
  induction cs generalizing bytes with
  | nil =>
    obtain rfl : bytes = [] := List.prefix_nil.mp h
    exact ⟨[], [], [], rfl, rfl, .atEnd⟩
  | cons c cs ih =>
    rw [encodeAll_cons] at h
    -- The bytes stop within the first character, or they hold all of it and go on in the others.
    rcases List.prefix_or_prefix_of_prefix h (List.prefix_append _ _) with ⟨more, hmore⟩ | hwhole
    · by_cases hcomplete : more = []
      · refine ⟨[c], cs, [], rfl, ?_, .nil cs⟩
        simp [encodeAll, ← hmore, hcomplete]
      · exact ⟨[], c :: cs, bytes, rfl, rfl, .before cs hmore.symm hcomplete⟩
    · obtain ⟨rest, rfl⟩ := hwhole
      obtain ⟨whole, later, begun, hcs, hrest, hstops⟩ :=
        ih ((List.prefix_append_right_inj _).mp h)
      refine ⟨c :: whole, later, begun, ?_, ?_, hstops⟩
      · rw [hcs, List.cons_append]
      · rw [hrest, encodeAll_cons, List.append_assoc]

theorem Decoder.readInto_of_stopsIn {begun : List UInt8} {later : List Char}
    (h : StopsIn begun later) (text : String) : readInto text begun = (⟨begun⟩, text) := by
  cases h with
  | atEnd => exact readInto_nil text
  | before cs encoded incomplete =>
    cases begun with
    | nil => exact readInto_nil text
    | cons lead rest =>
      exact readInto_of_head_unfinished (head_eq_unfinished_of_begins encoded incomplete) text

theorem StopsIn.length_le {begun : List UInt8} {later : List Char} (h : StopsIn begun later) :
    begun.length ≤ 3 := by
  cases h with
  | atEnd => exact Nat.zero_le 3
  | before cs encoded incomplete =>
    rename_i more c
    have hsize := congrArg List.length encoded
    have hmost := c.utf8Size_le_four
    have hmore := List.length_pos_iff.mpr incomplete
    rw [String.length_utf8EncodeChar, List.length_append] at hsize
    omega

theorem StopsIn.eq_nil_of_prefix {begun : List UInt8} {later cs : List Char}
    (h : StopsIn begun later) (hcs : cs <+: later) (hfits : encodeAll cs <+: begun) : cs = [] := by
  cases cs with
  | nil => rfl
  | cons c cs =>
    cases h with
    | atEnd => exact absurd (List.prefix_nil.mp hcs) (List.cons_ne_nil c cs)
    | before rest encoded incomplete =>
      obtain rfl : c = _ := (List.cons_prefix_cons.mp hcs).1
      have hsize := hfits.length_le
      have hmore := List.length_pos_iff.mpr incomplete
      rw [encodeAll_cons, encoded, List.length_append, List.length_append] at hsize
      omega

/-- All that some bytes hold of a text in whole characters. -/
structure IsWholePart (text : String) (bytes : List UInt8) (part : String) : Prop where
  inFront : part.toList <+: text.toList
  isThere : part.toUTF8.data.toList <+: bytes
  longest : ∀ other : String, other.toList <+: text.toList → other.toUTF8.data.toList <+: bytes →
    other.toList <+: part.toList

theorem isWholePart_of_stopsIn {whole later : List Char} {begun : List UInt8}
    (h : StopsIn begun later) :
    IsWholePart (.ofList (whole ++ later)) (encodeAll whole ++ begun) (.ofList whole) := by
  constructor
  · simp
  · rw [toList_data_toUTF8, String.toList_ofList]
    exact List.prefix_append _ _
  · intro other hother hthere
    rw [String.toList_ofList] at hother ⊢
    rw [toList_data_toUTF8] at hthere
    -- A longer text would need a character that the bytes do not complete.
    rcases List.prefix_or_prefix_of_prefix hother (List.prefix_append whole later) with
      hwithin | ⟨beyond, hbeyond⟩
    · exact hwithin
    · rw [← hbeyond] at hother hthere ⊢
      have hnone : beyond = [] := by
        apply h.eq_nil_of_prefix ((List.prefix_append_right_inj _).mp hother)
        rwa [encodeAll_append, List.prefix_append_right_inj] at hthere
      simp [hnone]

/-- Whatever first bytes of a text have arrived, and however they were cut, the text settled so far
is all that they hold in whole characters. What remains of them is held, at most three bytes. Once
all bytes have arrived the text is settled as it is, and the end of the stream adds nothing. -/
theorem feed_toUTF8_prefix {text : String} {chunks : List ByteArray}
    (h : chunks.flatMap (·.data.toList) <+: text.toUTF8.data.toList) :
    let bytes := chunks.flatMap (·.data.toList)
    let d := (Decoder.feed {} "" chunks).1
    let told := (Decoder.feed {} "" chunks).2
    IsWholePart text bytes told ∧
    bytes = told.toUTF8.data.toList ++ d.held ∧
    d.pending = bytes.length - told.toUTF8.size ∧ d.pending ≤ 3 ∧
    (bytes = text.toUTF8.data.toList → told = text ∧ d.pending = 0 ∧ d.finish.2 = "") := by
  dsimp only
  rw [toList_data_toUTF8] at h
  obtain ⟨whole, later, begun, htext, hbytes, hstops⟩ := exists_of_prefix_encodeAll h
  have hfeed : Decoder.feed {} "" chunks = (⟨begun⟩, .ofList whole) := by
    rw [Decoder.feed_eq_readInto, hbytes, Decoder.readInto_encodeAll_append, String.empty_append,
      Decoder.readInto_of_stopsIn hstops]
  obtain rfl : text = .ofList (whole ++ later) := by rw [← htext, String.ofList_toList]
  have hsize : (String.ofList whole).toUTF8.size = (encodeAll whole).length := by
    rw [toUTF8_ofList, List.size_toByteArray]
  rw [hfeed, hbytes, hsize]
  refine ⟨isWholePart_of_stopsIn hstops, ?_, ?_, hstops.length_le, ?_⟩
  · rw [toList_data_toUTF8, String.toList_ofList]
  · simp [Decoder.pending]
  · intro hall
    rw [toList_data_toUTF8, String.toList_ofList, encodeAll_append,
      List.append_cancel_left_eq] at hall
    have hlater : later = [] := by
      apply hstops.eq_nil_of_prefix (List.prefix_refl later)
      simp [hall]
    rw [hlater] at hall
    rw [hall, hlater, List.append_nil]
    exact ⟨rfl, rfl, rfl⟩

theorem feed_toUTF8_prefix_cut :
    let chunks : List ByteArray := [⟨#[0x61, 0xF0]⟩, .empty, ⟨#[0x9F, 0x98]⟩]
    chunks.flatMap (·.data.toList) <+: "a😀b".toUTF8.data.toList ∧
      IsWholePart "a😀b" (chunks.flatMap (·.data.toList)) (Decoder.feed {} "" chunks).2 ∧
      (Decoder.feed {} "" chunks).1.pending ≤ 3 := by
  intro chunks
  have hfront : chunks.flatMap (·.data.toList) <+: "a😀b".toUTF8.data.toList := by
    rw [toList_data_toUTF8]
    exact ⟨[0x80, 0x62], by decide +kernel⟩
  obtain ⟨hpart, -, -, hpending, -⟩ := feed_toUTF8_prefix hfront
  exact ⟨hfront, hpart, hpending⟩

end EngineBridge.Utf8
