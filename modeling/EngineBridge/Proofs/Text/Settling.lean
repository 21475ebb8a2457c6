import EngineBridge.Proofs.Text.Decoding

/-! What the decoder settles at once. A character whose last byte has arrived is never held back,
and what is held back is the end of the bytes that arrived. -/
namespace EngineBridge.Utf8

theorem faultFrom_add (done k : Nat) (bytes : List UInt8) :
    faultFrom (done + k) bytes =
      (faultFrom done bytes).map fun f => { f with validUpTo := f.validUpTo + k } := by
  fun_induction faultFrom done bytes with
  | case1 => rw [faultFrom, Option.map_none]
  | case2 done lead rest size hs ih =>
    rw [faultFrom, hs]
    simp only
    rw [Nat.add_right_comm, ih]
  | case3 done lead rest n hn =>
    rw [faultFrom, hn, Option.map_some]
  | case4 done lead rest hu =>
    rw [faultFrom, hu, Option.map_some]

theorem fault?_utf8EncodeChar_append (c : Char) (rest : List UInt8) :
    fault? (String.utf8EncodeChar c ++ rest) =
      (fault? rest).map fun f => { f with validUpTo := f.validUpTo + c.utf8Size } := by
  unfold fault?
  rw [← faultFrom_add, Nat.zero_add]
  obtain ⟨lead, tail, hc⟩ := exists_utf8EncodeChar_eq_cons c
  have hdrop : c.utf8Size - 1 = tail.length := by
    rw [← String.length_utf8EncodeChar, hc, List.length_cons, Nat.add_sub_cancel]
  rw [hc, List.cons_append, faultFrom, head_of_utf8EncodeChar hc rest]
  simp only
  rw [hdrop, List.drop_left, Nat.zero_add]

theorem textOf_utf8EncodeChar_append (c : Char) (cs : List Char) :
    textOf (String.utf8EncodeChar c ++ encodeAll cs) = c.toString ++ textOf (encodeAll cs) := by
  rw [← encodeAll_cons, textOf_encodeAll, textOf_encodeAll, String.ofList_cons]
  rfl

namespace Decoder

variable {bytes : List UInt8}

theorem exists_take_of_fault? {f : Fault} (h : fault? bytes = some f) :
    ∃ cs, bytes.take f.validUpTo = encodeAll cs := by
  obtain ⟨cs, lead, rest, rfl, hvalid, -⟩ := exists_of_faultFrom_eq_some h
  rw [Nat.zero_add] at hvalid
  exact ⟨cs, by rw [hvalid, List.take_left]⟩

theorem readInto_utf8EncodeChar_append (text : String) (c : Char) (rest : List UInt8) :
    readInto text (String.utf8EncodeChar c ++ rest) = readInto (text ++ c.toString) rest := by
  have hfault := fault?_utf8EncodeChar_append c rest
  have htake (n : Nat) : (String.utf8EncodeChar c ++ rest).take (n + c.utf8Size) =
      String.utf8EncodeChar c ++ rest.take n := by
    rw [Nat.add_comm, ← String.length_utf8EncodeChar, List.take_length_add_append]
  have hdrop (n : Nat) : (String.utf8EncodeChar c ++ rest).drop (n + c.utf8Size) = rest.drop n := by
    rw [Nat.add_comm, ← String.length_utf8EncodeChar, List.drop_length_add_append]
  cases hrest : fault? rest with
  | none =>
    rw [hrest] at hfault
    obtain ⟨cs, rfl⟩ := exists_of_faultFrom_eq_none hrest
    rw [readInto_of_none text hfault, readInto_of_none _ hrest, textOf_utf8EncodeChar_append,
      String.append_assoc]
  | some f =>
    rw [hrest] at hfault
    obtain ⟨cs, hcs⟩ := exists_take_of_fault? hrest
    obtain ⟨validUpTo, _ | length⟩ := f
    · rw [readInto_of_unfinished text hfault, readInto_of_unfinished _ hrest, htake, hdrop, hcs,
        textOf_utf8EncodeChar_append, String.append_assoc]
    · rw [readInto_of_broken text hfault, readInto_of_broken _ hrest, htake, hdrop, hcs,
        textOf_utf8EncodeChar_append, String.append_assoc]

/-- A character that a chunk completes is delivered with that chunk, and first. -/
theorem exists_decode_of_completes {d : Decoder} {chunk : ByteArray} {c : Char}
    {later : List UInt8} (h : d.held ++ chunk.data.toList = String.utf8EncodeChar c ++ later) :
    ∃ text, (d.decode chunk).2 = c.toString ++ text := by
  have happend := readInto_append_text c.toString "" later
  rw [String.append_empty] at happend
  unfold decode
  rw [h, readInto_utf8EncodeChar_append, String.empty_append, happend]
  exact ⟨_, rfl⟩

theorem held_readInto_suffix (text : String) (bytes : List UInt8) :
    (readInto text bytes).1.held <:+ bytes := by
  fun_induction readInto text bytes with
  | case1 => exact List.nil_suffix
  | case2 text bytes validUpTo hf => exact List.drop_suffix validUpTo bytes
  | case3 text bytes validUpTo length hf ih =>
    exact ih.trans ((List.drop_suffix _ _).trans (List.drop_suffix _ _))

theorem held_decode_suffix (d : Decoder) (chunk : ByteArray) :
    (d.decode chunk).1.held <:+ d.held ++ chunk.data.toList :=
  held_readInto_suffix _ _

end Decoder

end EngineBridge.Utf8
