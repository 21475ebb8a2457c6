import EngineBridge.Text.Utf8
import Mathlib.Data.List.Forall2

/-! The bytes of characters. What the table of lead bytes admits as a whole character is exactly the
encoding of one. -/
namespace EngineBridge.Utf8

theorem isContinuation_iff {b : UInt8} : isContinuation b ↔ 0x80 ≤ b.toNat ∧ b.toNat ≤ 0xBF := by
  simp [isContinuation, UInt8.le_iff_toNat_le]

theorem secondFits_iff {a b : UInt8} :
    secondFits a b ↔ (0x80 ≤ b.toNat ∧ b.toNat ≤ 0xBF) ∧ (a.toNat = 0xE0 → 0xA0 ≤ b.toNat) ∧
      (a.toNat = 0xED → b.toNat ≤ 0x9F) ∧ (a.toNat = 0xF0 → 0x90 ≤ b.toNat) ∧
      (a.toNat = 0xF4 → b.toNat ≤ 0x8F) := by
  unfold secondFits
  simp only [← UInt8.toNat_inj, UInt8.reduceToNat]
  repeat' split
  all_goals
    simp only [isContinuation, Bool.and_eq_true, decide_eq_true_eq, UInt8.le_iff_toNat_le,
      UInt8.reduceToNat]
    omega

section Followers

variable {lead : UInt8}

theorem followers?_one (h : lead.toNat < 0x80) : followers? lead = some [] := by
  simp [followers?, UInt8.lt_iff_toNat_lt, h]

theorem followers?_two (h : 0xC2 ≤ lead.toNat ∧ lead.toNat ≤ 0xDF) :
    followers? lead = some [isContinuation] := by
  simp only [followers?, UInt8.lt_iff_toNat_lt, UInt8.le_iff_toNat_le, UInt8.reduceToNat]
  rw [if_neg (by omega), if_pos (by simpa using h)]

theorem followers?_three (h : 0xE0 ≤ lead.toNat ∧ lead.toNat ≤ 0xEF) :
    followers? lead = some [secondFits lead, isContinuation] := by
  simp only [followers?, UInt8.lt_iff_toNat_lt, UInt8.le_iff_toNat_le, UInt8.reduceToNat]
  rw [if_neg (by omega), if_neg (by simp; omega), if_pos (by simpa using h)]

theorem followers?_four (h : 0xF0 ≤ lead.toNat ∧ lead.toNat ≤ 0xF4) :
    followers? lead = some [secondFits lead, isContinuation, isContinuation] := by
  simp only [followers?, UInt8.lt_iff_toNat_lt, UInt8.le_iff_toNat_le, UInt8.reduceToNat]
  rw [if_neg (by omega), if_neg (by simp; omega), if_neg (by simp; omega),
    if_pos (by simpa using h)]

theorem followers?_cases (lead : UInt8) :
    (lead.toNat < 0x80 ∧ followers? lead = some []) ∨
    ((0xC2 ≤ lead.toNat ∧ lead.toNat ≤ 0xDF) ∧ followers? lead = some [isContinuation]) ∨
    ((0xE0 ≤ lead.toNat ∧ lead.toNat ≤ 0xEF) ∧
      followers? lead = some [secondFits lead, isContinuation]) ∨
    ((0xF0 ≤ lead.toNat ∧ lead.toNat ≤ 0xF4) ∧
      followers? lead = some [secondFits lead, isContinuation, isContinuation]) ∨
    (¬ (0xC2 ≤ lead.toNat ∧ lead.toNat ≤ 0xF4) ∧ followers? lead = none) := by
  by_cases h1 : lead.toNat < 0x80
  · exact .inl ⟨h1, followers?_one h1⟩
  by_cases h2 : 0xC2 ≤ lead.toNat ∧ lead.toNat ≤ 0xDF
  · exact .inr (.inl ⟨h2, followers?_two h2⟩)
  by_cases h3 : 0xE0 ≤ lead.toNat ∧ lead.toNat ≤ 0xEF
  · exact .inr (.inr (.inl ⟨h3, followers?_three h3⟩))
  by_cases h4 : 0xF0 ≤ lead.toNat ∧ lead.toNat ≤ 0xF4
  · exact .inr (.inr (.inr (.inl ⟨h4, followers?_four h4⟩)))
  refine .inr (.inr (.inr (.inr ⟨by omega, ?_⟩)))
  simp only [followers?, UInt8.lt_iff_toNat_lt, UInt8.le_iff_toNat_le, UInt8.reduceToNat]
  rw [if_neg (by omega), if_neg (by simp; omega), if_neg (by simp; omega),
    if_neg (by simp; omega)]

end Followers

theorem toNat_val_ofNat {n : Nat} (h : n.isValidChar) : (Char.ofNat n).val.toNat = n := by
  unfold Char.ofNat
  rw [dif_pos h]
  rfl

theorem exists_char_of_one {a : UInt8} (ha : a.toNat < 0x80) :
    ∃ c, String.utf8EncodeChar c = [a] := by
  have hvalid : a.toNat.isValidChar := by
    unfold Nat.isValidChar
    omega
  refine ⟨.ofNat a.toNat, ?_⟩
  unfold String.utf8EncodeChar
  rw [toNat_val_ofNat hvalid]
  simp only
  rw [if_pos (by omega), UInt8.ofNat_toNat]

theorem exists_char_of_two {a b : UInt8} (ha : 0xC2 ≤ a.toNat ∧ a.toNat ≤ 0xDF)
    (hb : isContinuation b) : ∃ c, String.utf8EncodeChar c = [a, b] := by
  rw [isContinuation_iff] at hb
  have hvalid : ((a.toNat - 0xC0) * 64 + (b.toNat - 0x80)).isValidChar := by
    unfold Nat.isValidChar
    omega
  refine ⟨.ofNat ((a.toNat - 0xC0) * 64 + (b.toNat - 0x80)), ?_⟩
  unfold String.utf8EncodeChar
  rw [toNat_val_ofNat hvalid]
  simp only
  rw [if_neg (by omega), if_pos (by omega)]
  simp only [List.cons.injEq, ← UInt8.toNat_inj, UInt8.toNat_ofNat', and_true]
  omega

theorem exists_char_of_three {a b c : UInt8} (ha : 0xE0 ≤ a.toNat ∧ a.toNat ≤ 0xEF)
    (hb : secondFits a b) (hc : isContinuation c) :
    ∃ d, String.utf8EncodeChar d = [a, b, c] := by
  rw [secondFits_iff] at hb
  rw [isContinuation_iff] at hc
  have hvalid :
      ((a.toNat - 0xE0) * 4096 + (b.toNat - 0x80) * 64 + (c.toNat - 0x80)).isValidChar := by
    unfold Nat.isValidChar
    omega
  refine ⟨.ofNat ((a.toNat - 0xE0) * 4096 + (b.toNat - 0x80) * 64 + (c.toNat - 0x80)), ?_⟩
  unfold String.utf8EncodeChar
  rw [toNat_val_ofNat hvalid]
  simp only
  rw [if_neg (by omega), if_neg (by omega), if_pos (by omega)]
  simp only [List.cons.injEq, ← UInt8.toNat_inj, UInt8.toNat_ofNat', and_true]
  omega

theorem exists_char_of_four {a b c d : UInt8} (ha : 0xF0 ≤ a.toNat ∧ a.toNat ≤ 0xF4)
    (hb : secondFits a b) (hc : isContinuation c) (hd : isContinuation d) :
    ∃ e, String.utf8EncodeChar e = [a, b, c, d] := by
  rw [secondFits_iff] at hb
  rw [isContinuation_iff] at hc hd
  have hvalid : ((a.toNat - 0xF0) * 262144 + (b.toNat - 0x80) * 4096 + (c.toNat - 0x80) * 64 +
      (d.toNat - 0x80)).isValidChar := by
    unfold Nat.isValidChar
    omega
  refine ⟨.ofNat ((a.toNat - 0xF0) * 262144 + (b.toNat - 0x80) * 4096 + (c.toNat - 0x80) * 64 +
    (d.toNat - 0x80)), ?_⟩
  unfold String.utf8EncodeChar
  rw [toNat_val_ofNat hvalid]
  simp only
  rw [if_neg (by omega), if_neg (by omega), if_neg (by omega)]
  simp only [List.cons.injEq, ← UInt8.toNat_inj, UInt8.toNat_ofNat', and_true]
  omega

theorem exists_utf8EncodeChar_eq_cons (c : Char) :
    ∃ lead tail, String.utf8EncodeChar c = lead :: tail := by
  refine List.exists_cons_of_length_pos ?_
  rw [String.length_utf8EncodeChar]
  exact c.utf8Size_pos

theorem head_of_followers? {lead : UInt8} {followers : List (UInt8 → Bool)}
    (h : followers? lead = some followers) (rest : List UInt8) :
    head lead rest = follow 1 followers rest := by
  unfold head
  rw [h]

theorem head_of_utf8EncodeChar {c : Char} {lead : UInt8} {tail : List UInt8}
    (h : String.utf8EncodeChar c = lead :: tail) (rest : List UInt8) :
    head lead (tail ++ rest) = .whole c.utf8Size := by
  have hsize : c.utf8Size = tail.length + 1 := by
    rw [← String.length_utf8EncodeChar, h, List.length_cons]
  have hvalid : c.val.toNat.isValidChar := c.valid
  unfold Nat.isValidChar at hvalid
  rw [hsize]
  unfold String.utf8EncodeChar at h
  simp only at h
  -- one case for each length that an encoding can have
  split at h
  · obtain ⟨rfl, rfl⟩ := List.cons.inj h
    rw [head_of_followers? (followers?_one (by simp only [UInt8.toNat_ofNat']; omega))]
    rfl
  split at h
  · obtain ⟨rfl, rfl⟩ := List.cons.inj h
    rw [head_of_followers? (followers?_two (by simp only [UInt8.toNat_ofNat']; omega))]
    have h1 : isContinuation (.ofNat (c.val.toNat % 0x40 + 0x80)) := by
      rw [isContinuation_iff, UInt8.toNat_ofNat']
      omega
    simp only [List.cons_append, List.nil_append, follow, h1, if_true, List.length_cons,
      List.length_nil]
  split at h
  · obtain ⟨rfl, rfl⟩ := List.cons.inj h
    rw [head_of_followers? (followers?_three (by simp only [UInt8.toNat_ofNat']; omega))]
    have h1 : secondFits (.ofNat (c.val.toNat / 4096 % 0x10 + 0xe0))
        (.ofNat (c.val.toNat / 64 % 0x40 + 0x80)) := by
      rw [secondFits_iff, UInt8.toNat_ofNat', UInt8.toNat_ofNat']
      omega
    have h2 : isContinuation (.ofNat (c.val.toNat % 0x40 + 0x80)) := by
      rw [isContinuation_iff, UInt8.toNat_ofNat']
      omega
    simp only [List.cons_append, List.nil_append, follow, h1, h2, if_true, List.length_cons,
      List.length_nil]
  · obtain ⟨rfl, rfl⟩ := List.cons.inj h
    rw [head_of_followers? (followers?_four (by simp only [UInt8.toNat_ofNat']; omega))]
    have h1 : secondFits (.ofNat (c.val.toNat / 262144 % 0x08 + 0xf0))
        (.ofNat (c.val.toNat / 4096 % 0x40 + 0x80)) := by
      rw [secondFits_iff, UInt8.toNat_ofNat', UInt8.toNat_ofNat']
      omega
    have h2 : isContinuation (.ofNat (c.val.toNat / 64 % 0x40 + 0x80)) := by
      rw [isContinuation_iff, UInt8.toNat_ofNat']
      omega
    have h3 : isContinuation (.ofNat (c.val.toNat % 0x40 + 0x80)) := by
      rw [isContinuation_iff, UInt8.toNat_ofNat']
      omega
    simp only [List.cons_append, List.nil_append, follow, h1, h2, h3, if_true, List.length_cons,
      List.length_nil]

theorem exists_of_follow_eq_whole {size n : Nat} {followers : List (UInt8 → Bool)}
    {bytes : List UInt8} (h : follow size followers bytes = .whole n) :
    ∃ front rest, bytes = front ++ rest ∧ List.Forall₂ (fun fits b => fits b) followers front := by
  induction followers generalizing size bytes with
  | nil => exact ⟨[], bytes, rfl, .nil⟩
  | cons fits more ih =>
    cases bytes with
    | nil => simp [follow] at h
    | cons b bytes =>
      simp only [follow] at h
      split at h
      · rename_i hb
        obtain ⟨front, rest, rfl, hfront⟩ := ih h
        exact ⟨b :: front, rest, rfl, .cons hb hfront⟩
      · cases h

/-- What is whole is the encoding of a character. -/
theorem exists_char_of_head {lead : UInt8} {rest : List UInt8} {n : Nat}
    (h : head lead rest = .whole n) :
    ∃ c tail later, String.utf8EncodeChar c = lead :: tail ∧ rest = tail ++ later := by
  rcases followers?_cases lead with ⟨hlead, hf⟩ | ⟨hlead, hf⟩ | ⟨hlead, hf⟩ | ⟨hlead, hf⟩ | ⟨_, hf⟩
  · obtain ⟨c, hc⟩ := exists_char_of_one hlead
    exact ⟨c, [], rest, hc, rfl⟩
  · rw [head_of_followers? hf] at h
    obtain ⟨front, later, rfl, hfront⟩ := exists_of_follow_eq_whole h
    obtain _ | ⟨h1, _ | _⟩ := hfront
    obtain ⟨c, hc⟩ := exists_char_of_two hlead h1
    exact ⟨c, _, later, hc, rfl⟩
  · rw [head_of_followers? hf] at h
    obtain ⟨front, later, rfl, hfront⟩ := exists_of_follow_eq_whole h
    obtain _ | ⟨h1, _ | ⟨h2, _ | _⟩⟩ := hfront
    obtain ⟨c, hc⟩ := exists_char_of_three hlead h1 h2
    exact ⟨c, _, later, hc, rfl⟩
  · rw [head_of_followers? hf] at h
    obtain ⟨front, later, rfl, hfront⟩ := exists_of_follow_eq_whole h
    obtain _ | ⟨h1, _ | ⟨h2, _ | ⟨h3, _ | _⟩⟩⟩ := hfront
    obtain ⟨c, hc⟩ := exists_char_of_four hlead h1 h2 h3
    exact ⟨c, _, later, hc, rfl⟩
  · unfold head at h
    rw [hf] at h
    cases h

end EngineBridge.Utf8
