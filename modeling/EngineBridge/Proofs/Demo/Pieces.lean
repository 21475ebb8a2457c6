import EngineBridge.Proofs.Demo.Calls
import EngineBridge.Proofs.Text.Streaming
import Mathlib.Data.List.TakeWhile

/-! How the built-in engine cuts what it prints, and what it sends of it. No byte is lost, and a
text with a character of several bytes is cut strictly inside the last of them. -/
namespace EngineBridge

namespace Utf8

theorem length_encodeAll_toList (text : String) :
    (encodeAll text.toList).length = text.utf8ByteSize := by
  rw [← toList_data_toUTF8, Array.length_toList, ByteArray.size_data, String.toUTF8_eq_toByteArray,
    String.size_toByteArray]

theorem length_encodeAll_of_single {cs : List Char} (h : ∀ c ∈ cs, c.utf8Size ≤ 1) :
    (encodeAll cs).length = cs.length := by
  induction cs with
  | nil => rfl
  | cons c cs ih =>
    rw [List.forall_mem_cons] at h
    have hpos := c.utf8Size_pos
    rw [encodeAll_cons, List.length_append, String.length_utf8EncodeChar, ih h.2, List.length_cons]
    omega

theorem EndsInsideCharacter.not_isValidUTF8 {bytes : ByteArray}
    (h : EndsInsideCharacter bytes.data.toList) : ¬bytes.IsValidUTF8 :=
  fun hvalid => not_endsInsideCharacter_toUTF8 (.ofByteArray bytes hvalid) h

end Utf8

namespace Demo

open Utf8

theorem join_pieces (text : String) : (pieces text).foldl (· ++ ·) .empty = text.toUTF8 := by
  unfold pieces
  dsimp only
  split
  · rename_i hcut
    rw [List.foldl_cons, List.foldl_cons, List.foldl_nil, ByteArray.empty_append,
      ← ByteArray.extract_eq_extract_append_extract _ (Nat.zero_le _) (Nat.le_of_lt hcut),
      ByteArray.extract_zero_size]
  · rename_i hcut
    rw [List.foldl_cons, List.foldl_nil, ByteArray.empty_append,
      ← Nat.max_eq_left (Nat.not_lt.mp hcut), ByteArray.extract_zero_max_size]

/-- Where the last character of several bytes stands in a text. -/
structure LastWide (text : String) (front : List Char) (c : Char) (back : List Char) : Prop where
  toList_eq : text.toList = front ++ c :: back
  several : 1 < c.utf8Size
  single : ∀ b ∈ back, b.utf8Size ≤ 1

theorem exists_lastWide {text : String} (h : ∃ c ∈ text.toList, 1 < c.utf8Size) :
    ∃ front c back, LastWide text front c back := by
  have hfound : (text.toList.reverse.find? fun c => 1 < c.utf8Size).isSome := by
    simpa using h
  obtain ⟨c, hc⟩ := Option.isSome_iff_exists.mp hfound
  -- what is found first from the back has none of its kind behind it
  obtain ⟨hsize, back, front, hreverse, hback⟩ := List.find?_eq_some_iff_append.mp hc
  refine ⟨front.reverse, c, back.reverse, ?_, of_decide_eq_true hsize, by simpa using hback⟩
  rw [← List.reverse_reverse text.toList, hreverse]
  simp

/-- Whether bytes are those of a text up to strictly inside its last character of several. -/
def StopsInLastWide (text : String) (bytes : List UInt8) : Prop :=
  ∃ front c back begun rest, LastWide text front c back ∧ bytes = encodeAll front ++ begun ∧
    String.utf8EncodeChar c = begun ++ rest ∧ begun ≠ [] ∧ rest ≠ []

theorem StopsInLastWide.endsInsideCharacter {text : String} {bytes : List UInt8}
    (h : StopsInLastWide text bytes) : EndsInsideCharacter bytes := by
  obtain ⟨front, c, back, begun, rest, -, hbytes, hc, hbegun, hrest⟩ := h
  exact ⟨encodeAll front, begun, rest, c, hbytes, hc, hbegun, hrest⟩

theorem StopsInLastWide.ne_nil {text : String} {bytes : List UInt8}
    (h : StopsInLastWide text bytes) : bytes ≠ [] := by
  obtain ⟨front, c, back, begun, rest, -, rfl, -, hbegun, -⟩ := h
  exact List.append_ne_nil_of_right_ne_nil _ hbegun

section Cut

variable {text : String}

section Wide

variable {front back : List Char} {c : Char} (h : LastWide text front c back)

include h

theorem LastWide.utf8ByteSize_eq :
    text.utf8ByteSize = (encodeAll front).length + (c.utf8Size + back.length) := by
  rw [← length_encodeAll_toList, h.toList_eq, encodeAll_append, List.length_append, encodeAll_cons,
    List.length_append, String.length_utf8EncodeChar, length_encodeAll_of_single h.single]

theorem LastWide.cut_eq : cut text = (encodeAll front).length + 1 := by
  have hreverse : text.toList.reverse = back.reverse ++ c :: front.reverse := by
    rw [h.toList_eq]
    simp
  have htake : (back.reverse ++ c :: front.reverse).takeWhile (fun c => c.utf8Size ≤ 1) =
      back.reverse := by
    rw [List.takeWhile_append_of_pos (by simpa using h.single),
      List.takeWhile_cons_of_neg (by simpa using h.several), List.append_nil]
  unfold cut
  rw [hreverse, htake, h.utf8ByteSize_eq]
  simp only [List.drop_left]
  rw [List.length_reverse]
  omega

theorem LastWide.cut_lt : cut text < text.utf8ByteSize := by
  have hseveral := h.several
  rw [h.cut_eq, h.utf8ByteSize_eq]
  omega

end Wide

/-- A text with a character of several bytes is cut in two inside the last of them. -/
theorem pieces_of_wide (h : ∃ c ∈ text.toList, 1 < c.utf8Size) :
    ∃ first second, pieces text = [first, second] ∧ StopsInLastWide text first.data.toList ∧
      0 < second.size := by
  obtain ⟨front, c, back, hlast⟩ := exists_lastWide h
  obtain ⟨lead, tail, hlead⟩ := exists_utf8EncodeChar_eq_cons c
  have hbytes : encodeAll text.toList = (encodeAll front ++ [lead]) ++ (tail ++ encodeAll back) := by
    rw [hlast.toList_eq, encodeAll_append, encodeAll_cons, hlead]
    simp
  have hsize : text.toUTF8.size = text.utf8ByteSize := String.size_toByteArray
  have hcut : cut text < text.toUTF8.size := hsize ▸ hlast.cut_lt
  refine ⟨_, _, if_pos hcut, ⟨front, c, back, [lead], tail, hlast, ?_, hlead, List.cons_ne_nil _ _,
    ?_⟩, ?_⟩
  · rw [hlast.cut_eq, ByteArray.data_extract, Array.toList_extract, toList_data_toUTF8, hbytes,
      List.append_assoc, List.extract_eq_take_drop, List.drop_zero, Nat.sub_zero,
      List.take_length_add_append]
    rfl
  · -- without a tail the character would be a single byte
    rintro rfl
    have hone := congrArg List.length hlead
    rw [String.length_utf8EncodeChar] at hone
    exact absurd hlast.several (by simp [hone])
  · rw [ByteArray.size_extract]
    omega

theorem cut_of_single (h : ∀ c ∈ text.toList, c.utf8Size ≤ 1) : cut text = text.utf8ByteSize := by
  have htake : text.toList.reverse.takeWhile (fun c => c.utf8Size ≤ 1) = text.toList.reverse :=
    List.takeWhile_eq_self_iff.mpr (by simpa using h)
  unfold cut
  rw [htake]
  simp only [List.drop_length]

theorem pieces_of_single (h : ∀ c ∈ text.toList, c.utf8Size ≤ 1) : pieces text = [text.toUTF8] := by
  have hcut : cut text = text.toUTF8.size := (cut_of_single h).trans String.size_toByteArray.symm
  unfold pieces
  rw [hcut]
  dsimp only
  rw [if_neg (Nat.lt_irrefl _), ByteArray.extract_zero_size]

end Cut

theorem cut_le (text : String) : cut text ≤ text.utf8ByteSize := by
  by_cases h : ∃ c ∈ text.toList, 1 < c.utf8Size
  · obtain ⟨front, c, back, hlast⟩ := exists_lastWide h
    exact Nat.le_of_lt hlast.cut_lt
  · exact Nat.le_of_eq (cut_of_single (by simpa using h))

def writes (text : String) : List Action :=
  (pieces text).map fun bytes => .send (.write bytes)

theorem writes_eq (text : String) :
    writes text = ((pieces text).map EngineCall.write).map Action.send := by
  rw [List.map_map]
  rfl

theorem frameActions_eq (e : EngineSettings) (i : Nat) :
    frameActions e i = .paint (.ofNat i) :: writes (line e.program (i + 1)) ++
      [.send (.log .debug s!"presented frame {i + 1}"), .rest] := rfl

/-- As long as there is a host, it is sent all of a text: in two calls that meet strictly inside its
last character of several bytes, or in one call if there is none. -/
theorem writes_cut_inside_last (e : EngineSettings) (text : String) {link : Link}
    (hopen : link.toHost.hasReceiver) :
    (∀ todo, turn e link (writes text ++ todo) =
      turn e (link.queued ((pieces text).map EngineCall.write)) todo) ∧
    (pieces text).foldl (· ++ ·) .empty = text.toUTF8 ∧
    ((∃ c ∈ text.toList, 1 < c.utf8Size) → ∃ first second, pieces text = [first, second] ∧
      0 < first.size ∧ 0 < second.size ∧ StopsInLastWide text first.data.toList ∧
        ¬first.IsValidUTF8) ∧
    ((¬∃ c ∈ text.toList, 1 < c.utf8Size) → pieces text = [text.toUTF8]) ∧
    cut text ≤ text.utf8ByteSize := by
  refine ⟨fun todo => ?_, join_pieces text, fun hwide => ?_, fun hsingle => ?_, cut_le text⟩
  · rw [writes_eq, turn_send_append hopen]
  · obtain ⟨first, second, hpieces, hstops, hsecond⟩ := pieces_of_wide hwide
    have hfirst : 0 < first.size := List.length_pos_iff.mpr hstops.ne_nil
    exact ⟨first, second, hpieces, hfirst, hsecond, hstops,
      hstops.endsInsideCharacter.not_isValidUTF8⟩
  · exact pieces_of_single (by simpa using hsingle)

/-- The last of two characters of several bytes is cut, not the first, and what follows it goes
with its end. -/
theorem writes_cut_inside_last_of_two :
    let text := "é😀\n"
    let first : ByteArray := ⟨#[0xC3, 0xA9, 0xF0]⟩
    let second : ByteArray := ⟨#[0x9F, 0x98, 0x80, 0x0A]⟩
    ({} : Link).toHost.hasReceiver ∧ pieces text = [first, second] ∧
      turn {} {} (writes text ++ [.rest]) =
        (.running [], ({} : Link).queued [.write first, .write second]) ∧
      StopsInLastWide text first.data.toList ∧ ¬first.IsValidUTF8 := by
  intro text first second
  have hopen : ({} : Link).toHost.hasReceiver := rfl
  have hpieces : pieces text = [first, second] := by decide +kernel
  have hwide : ∃ c ∈ text.toList, 1 < c.utf8Size := ⟨'😀', by decide, by decide⟩
  obtain ⟨hsent, -, hcut, -, -⟩ := writes_cut_inside_last {} text hopen
  obtain ⟨begun, rest, hparts, -, -, hstops, hinvalid⟩ := hcut hwide
  obtain ⟨rfl, rfl⟩ : first = begun ∧ second = rest := by simpa [hpieces] using hparts
  refine ⟨hopen, hpieces, ?_, hstops, hinvalid⟩
  rw [hsent, hpieces]
  rfl

theorem mark_mem_line (program : DemoProgram) (frame : Nat) :
    '✓' ∈ (line program frame).toList := by
  have htext (text : String) : toString text = text := rfl
  simp [line, htext]

theorem pieces_line (program : DemoProgram) (frame : Nat) :
    ∃ first second, pieces (line program frame) = [first, second] ∧
      EndsInsideCharacter first.data.toList ∧ 0 < second.size := by
  obtain ⟨first, second, hpieces, hstops, hsecond⟩ :=
    pieces_of_wide ⟨'✓', mark_mem_line program frame, by decide⟩
  exact ⟨first, second, hpieces, hstops.endsInsideCharacter, hsecond⟩

end Demo

end EngineBridge
