import EngineBridge.Proofs.Text.Settling

/-! What the decoder has settled and what it holds, as functions of the bytes alone. However they
arrived, all text is settled but the beginning of a character at their end. -/
namespace EngineBridge.Utf8

/-- Whether the bytes end with the first bytes of a character and not with its last one. -/
def EndsInsideCharacter (bytes : List UInt8) : Prop :=
  ∃ front begun rest c, bytes = front ++ begun ∧ String.utf8EncodeChar c = begun ++ rest ∧
    begun ≠ [] ∧ rest ≠ []

theorem exists_secondFits (lead : UInt8) : ∃ b, secondFits lead b := by
  by_cases hlow : lead.toNat = 0xE0 ∨ lead.toNat = 0xF0
  · refine ⟨0xA0, secondFits_iff.mpr ?_⟩
    simp only [UInt8.reduceToNat]
    omega
  · refine ⟨0x80, secondFits_iff.mpr ?_⟩
    simp only [UInt8.reduceToNat]
    omega

theorem exists_of_mem_followers? {lead : UInt8} {followers : List (UInt8 → Bool)}
    (h : followers? lead = some followers) {fits : UInt8 → Bool} (hfits : fits ∈ followers) :
    (∃ b, fits b) ∧ ∀ b, fits b → 0x80 ≤ b.toNat ∧ b.toNat ≤ 0xBF := by
  have hcontinuation : (∃ b, isContinuation b) ∧
      ∀ b, isContinuation b → 0x80 ≤ b.toNat ∧ b.toNat ≤ 0xBF :=
    ⟨⟨0x80, by decide⟩, fun b hb => isContinuation_iff.mp hb⟩
  have hsecond : (∃ b, secondFits lead b) ∧
      ∀ b, secondFits lead b → 0x80 ≤ b.toNat ∧ b.toNat ≤ 0xBF :=
    ⟨exists_secondFits lead, fun b hb => (secondFits_iff.mp hb).1⟩
  rcases followers?_cases lead with ⟨_, hf⟩ | ⟨_, hf⟩ | ⟨_, hf⟩ | ⟨_, hf⟩ | ⟨_, hf⟩ <;>
    rw [hf] at h <;> cases h <;>
    simp only [List.mem_cons, List.not_mem_nil, or_false] at hfits
  · exact hfits ▸ hcontinuation
  · rcases hfits with rfl | rfl
    · exact hsecond
    · exact hcontinuation
  · rcases hfits with rfl | rfl | rfl
    · exact hsecond
    · exact hcontinuation
    · exact hcontinuation

theorem exists_follow_append_eq_whole {size : Nat} {followers : List (UInt8 → Bool)}
    {bytes : List UInt8} (hfits : ∀ fits ∈ followers, ∃ b, fits b)
    (h : ∀ n, follow size followers bytes ≠ .broken n) :
    ∃ more n, follow size followers (bytes ++ more) = .whole n := by
  induction followers generalizing size bytes with
  | nil => exact ⟨[], size, rfl⟩
  | cons fits followers ih =>
    have hrest (f : UInt8 → Bool) (hf : f ∈ followers) : ∃ b, f b :=
      hfits f (List.mem_cons_of_mem _ hf)
    cases bytes with
    | nil =>
      obtain ⟨b, hb⟩ := hfits fits List.mem_cons_self
      have hnone (n : Nat) : follow (size + 1) followers [] ≠ .broken n := by
        cases followers <;> exact nofun
      obtain ⟨more, n, hmore⟩ := ih hrest hnone
      refine ⟨b :: more, n, ?_⟩
      simpa only [List.nil_append, follow, if_pos hb] using hmore
    | cons b bytes =>
      simp only [follow] at h
      split at h
      · rename_i hb
        obtain ⟨more, n, hmore⟩ := ih hrest h
        refine ⟨more, n, ?_⟩
        simpa only [List.cons_append, follow, if_pos hb] using hmore
      · exact absurd rfl (h size)

theorem exists_utf8EncodeChar_of_unfinished {lead : UInt8} {rest : List UInt8}
    (h : head lead rest = .unfinished) :
    ∃ c more, String.utf8EncodeChar c = (lead :: rest) ++ more ∧ more ≠ [] := by
  cases hf : followers? lead with
  | none =>
    rw [head, hf] at h
    cases h
  | some followers =>
    have hgoesOn (n : Nat) : follow 1 followers rest ≠ .broken n := by
      rw [← head_of_followers? hf, h]
      exact nofun
    obtain ⟨more, n, hmore⟩ := exists_follow_append_eq_whole
      (fun fits hfits => (exists_of_mem_followers? hf hfits).1) hgoesOn
    rw [← head_of_followers? hf] at hmore
    obtain ⟨c, tail, later, hc, hsplit⟩ := exists_char_of_head hmore
    -- `rest` alone does not complete the character, so it ends before `tail` does
    obtain ⟨begun, hrest, -⟩ | ⟨begun, htail, -⟩ := List.append_eq_append_iff.mp hsplit.symm
    · rw [hrest, head_of_utf8EncodeChar hc] at h
      cases h
    · refine ⟨c, begun, by rw [hc, htail, List.cons_append], ?_⟩
      rintro rfl
      rw [List.append_nil] at htail
      rw [← htail, ← List.append_nil tail, head_of_utf8EncodeChar hc] at h
      cases h

theorem head_eq_unfinished_of_begins {c : Char} {lead : UInt8} {rest more : List UInt8}
    (h : String.utf8EncodeChar c = (lead :: rest) ++ more) (hmore : more ≠ []) :
    head lead rest = .unfinished := by
  rw [List.cons_append] at h
  have hwhole := head_of_utf8EncodeChar h []
  rw [List.append_nil] at hwhole
  cases hhead : head lead rest with
  | unfinished => rfl
  | broken n =>
    rw [head_append_of_broken hhead] at hwhole
    cases hwhole
  | whole n =>
    -- a character that is whole already cannot be the beginning of a longer one
    obtain ⟨other, tail, later, hother, rfl⟩ := exists_char_of_head hhead
    rw [List.append_assoc, head_of_utf8EncodeChar hother, Head.whole.injEq,
      ← String.length_utf8EncodeChar, ← String.length_utf8EncodeChar, hother, h] at hwhole
    have hlength := List.length_pos_iff.mpr hmore
    simp only [List.length_append, List.length_cons] at hwhole
    omega

theorem follow_append_of_not_continuation {size : Nat} {followers : List (UInt8 → Bool)}
    {bytes : List UInt8} (h : follow size followers bytes = .unfinished) {b : UInt8}
    (hb : ∀ fits ∈ followers, ¬fits b) (later : List UInt8) :
    follow size followers (bytes ++ b :: later) = .broken (size + bytes.length) := by
  induction followers generalizing size bytes with
  | nil => cases h
  | cons fits followers ih =>
    cases bytes with
    | nil => simp [follow, hb fits List.mem_cons_self]
    | cons a bytes =>
      simp only [follow] at h
      split at h
      · rename_i ha
        rw [List.cons_append, follow, if_pos ha,
          ih h fun f hf => hb f (List.mem_cons_of_mem _ hf), List.length_cons, Nat.add_assoc,
          Nat.add_comm 1]
      · cases h

theorem head_append_of_unfinished {lead b : UInt8} {rest more : List UInt8}
    (h : head lead rest = .unfinished) (hb : head b more = .unfinished) (later : List UInt8) :
    head lead (rest ++ b :: later) = .broken (lead :: rest).length := by
  cases hf : followers? lead with
  | none =>
    rw [head, hf] at h
    cases h
  | some followers =>
    have hlead : ¬(0x80 ≤ b.toNat ∧ b.toNat ≤ 0xBF) := by
      unfold head at hb
      rcases followers?_cases b with ⟨_, hg⟩ | ⟨_, hg⟩ | ⟨_, hg⟩ | ⟨_, hg⟩ | ⟨_, hg⟩
      case inr.inr.inr.inr =>
        rw [hg] at hb
        cases hb
      all_goals omega
    rw [head_of_followers? hf] at h ⊢
    rw [follow_append_of_not_continuation h
      (fun fits hfits hfit => hlead ((exists_of_mem_followers? hf hfits).2 b hfit)),
      List.length_cons, Nat.add_comm]

@[simp] theorem textOf_nil : textOf [] = "" := textOf_encodeAll []

namespace Decoder

theorem readInto_encodeAll_append (text : String) (cs : List Char) (rest : List UInt8) :
    readInto text (encodeAll cs ++ rest) = readInto (text ++ .ofList cs) rest := by
  induction cs generalizing text with
  | nil => simp [encodeAll]
  | cons c cs ih =>
    rw [encodeAll_cons, List.append_assoc, readInto_utf8EncodeChar_append, ih, String.append_assoc,
      String.ofList_cons]
    rfl

theorem readInto_nil (text : String) : readInto text [] = ({}, text) := by
  have hfault : fault? [] = none := by rw [fault?, faultFrom]
  rw [readInto_of_none _ hfault, textOf_nil, String.append_empty]

theorem readInto_of_head_broken {lead : UInt8} {rest : List UInt8} {n : Nat}
    (h : head lead rest = .broken n) (text : String) :
    readInto text (lead :: rest) = readInto (text.push replacement) ((lead :: rest).drop n) := by
  have hfault : fault? (lead :: rest) = some ⟨0, some n⟩ := by
    rw [fault?, faultFrom, h]
  rw [readInto_of_broken text hfault]
  simp

theorem readInto_of_head_unfinished {lead : UInt8} {rest : List UInt8}
    (h : head lead rest = .unfinished) (text : String) :
    readInto text (lead :: rest) = (⟨lead :: rest⟩, text) := by
  have hfault : fault? (lead :: rest) = some ⟨0, none⟩ := by
    rw [fault?, faultFrom, h]
  rw [readInto_of_unfinished text hfault]
  simp

theorem readInto_append (text : String) (bytes later : List UInt8) :
    readInto text (bytes ++ later) =
      readInto (readInto text bytes).2 ((readInto text bytes).1.held ++ later) := by
  fun_induction readInto text bytes with
  | case1 text bytes hf =>
    obtain ⟨cs, rfl⟩ := exists_of_faultFrom_eq_none hf
    rw [textOf_encodeAll, readInto_encodeAll_append]
    rfl
  | case2 text bytes validUpTo hf =>
    obtain ⟨cs, lead, rest, rfl, hvalid, -⟩ := exists_of_faultFrom_eq_some hf
    simp only [Nat.zero_add] at hvalid
    rw [hvalid, List.take_left, List.drop_left, textOf_encodeAll, List.append_assoc,
      readInto_encodeAll_append]
  | case3 text bytes validUpTo n hf ih =>
    obtain ⟨cs, lead, rest, rfl, hvalid, hhead⟩ := exists_of_faultFrom_eq_some hf
    simp only [Nat.zero_add] at hvalid
    have hbroken : head lead rest = .broken n := hhead
    have hle : n ≤ (lead :: rest).length := (head_eq_broken_le hbroken).2.2
    rw [hvalid, List.take_left, List.drop_left, textOf_encodeAll] at ih ⊢
    calc
      _ = readInto (text ++ .ofList cs) (lead :: (rest ++ later)) := by
        rw [List.append_assoc, readInto_encodeAll_append, List.cons_append]
      _ = readInto ((text ++ .ofList cs).push replacement) ((lead :: (rest ++ later)).drop n) :=
        readInto_of_head_broken (head_append_of_broken hbroken later) _
      _ = _ := by
        rw [← List.cons_append, List.drop_append_of_le_length hle, ih]

theorem held_readInto_of_begun (text : String) {d : Decoder} (hd : d.IsPartial) {lead : UInt8}
    {rest : List UInt8} (h : head lead rest = .unfinished) :
    (readInto text (d.held ++ lead :: rest)).1.held = lead :: rest := by
  cases hheld : d.held with
  | nil => rw [List.nil_append, readInto_of_head_unfinished h]
  | cons first others =>
    have hbroken := head_append_of_unfinished (hd first others hheld) h rest
    rw [List.cons_append, readInto_of_head_broken hbroken, ← List.cons_append, List.drop_left,
      readInto_of_head_unfinished h]

/-- Bytes are held exactly when the last character is incomplete, whatever was before it. -/
theorem held_readInto_ne_nil (text : String) (bytes : List UInt8) :
    (readInto text bytes).1.held ≠ [] ↔ EndsInsideCharacter bytes := by
  constructor
  · intro h
    obtain ⟨front, hfront⟩ := held_readInto_suffix text bytes
    obtain ⟨lead, rest, hheld⟩ := List.exists_cons_of_ne_nil h
    obtain ⟨c, more, hc, hmore⟩ := exists_utf8EncodeChar_of_unfinished
      (isPartial_of_readInto text bytes lead rest hheld)
    exact ⟨front, lead :: rest, more, c, by rw [← hfront, hheld], hc, nofun, hmore⟩
  · rintro ⟨front, begun, more, c, rfl, hc, hbegun, hmore⟩
    obtain ⟨lead, rest, rfl⟩ := List.exists_cons_of_ne_nil hbegun
    rw [readInto_append, held_readInto_of_begun _ (isPartial_of_readInto text front)
      (head_eq_unfinished_of_begins hc hmore)]
    exact nofun

def after (bytes : ByteArray) : Decoder := (decode {} bytes).1

end Decoder

def settled (bytes : ByteArray) : String := (Decoder.decode {} bytes).2

namespace Decoder

@[simp] theorem after_empty : after .empty = {} := congrArg Prod.fst (readInto_nil "")

theorem decode_append (bytes chunk : ByteArray) :
    decode {} (bytes ++ chunk) =
      (((after bytes).decode chunk).1, settled bytes ++ ((after bytes).decode chunk).2) := by
  have htext := readInto_append_text (settled bytes) "" ((after bytes).held ++ chunk.data.toList)
  rw [String.append_empty] at htext
  rw [decode, ByteArray.toList_data_append, List.nil_append, readInto_append]
  exact htext

theorem decode_after (bytes chunk : ByteArray) :
    ((after bytes).decode chunk).1 = after (bytes ++ chunk) :=
  (congrArg Prod.fst (decode_append bytes chunk)).symm

theorem settled_append (bytes chunk : ByteArray) :
    settled (bytes ++ chunk) = settled bytes ++ ((after bytes).decode chunk).2 :=
  congrArg Prod.snd (decode_append bytes chunk)

theorem held_after_ne_nil (bytes : ByteArray) :
    (after bytes).held ≠ [] ↔ EndsInsideCharacter bytes.data.toList :=
  held_readInto_ne_nil "" _

theorem finish_after (bytes : ByteArray) :
    (EndsInsideCharacter bytes.data.toList → (after bytes).finish.2 = replacement.toString) ∧
      (¬EndsInsideCharacter bytes.data.toList → (after bytes).finish.2 = "") := by
  rw [← held_after_ne_nil]
  unfold finish
  constructor
  · intro h
    simp [h]
  · intro h
    simp [not_not.mp h]

end Decoder

theorem toUTF8_ofList (cs : List Char) : (String.ofList cs).toUTF8 = (encodeAll cs).toByteArray := by
  rw [String.toUTF8_eq_toByteArray, String.toByteArray_ofList]
  rfl

theorem toList_data_toUTF8 (text : String) : text.toUTF8.data.toList = encodeAll text.toList := by
  rw [← congrArg String.toUTF8 (String.ofList_toList (s := text)), toUTF8_ofList,
    List.toList_data_toByteArray]

theorem decode_toUTF8 (text : String) : Decoder.decode {} text.toUTF8 = ({}, text) := by
  have h := Decoder.readInto_encodeAll_append "" text.toList []
  rw [List.append_nil, String.empty_append, String.ofList_toList, Decoder.readInto_nil] at h
  rw [Decoder.decode, List.nil_append, toList_data_toUTF8, h]

theorem settled_toUTF8 (text : String) : settled text.toUTF8 = text :=
  congrArg Prod.snd (decode_toUTF8 text)

theorem not_endsInsideCharacter_toUTF8 (text : String) :
    ¬EndsInsideCharacter text.toUTF8.data.toList := by
  rw [← Decoder.held_after_ne_nil, Decoder.after, decode_toUTF8]
  exact fun h => h rfl

end EngineBridge.Utf8
