import EngineBridge.Proofs.Text.Encoding

/-! Decoding of bytes that arrive in chunks. However a run of bytes is cut, the decoder settles the
same text as if the bytes had arrived at once. -/
namespace EngineBridge.Utf8

theorem follow_append_of_broken {size n : Nat} {followers : List (UInt8 → Bool)}
    {bytes : List UInt8} (h : follow size followers bytes = .broken n) (later : List UInt8) :
    follow size followers (bytes ++ later) = .broken n := by
  induction followers generalizing size bytes with
  | nil => simp [follow] at h
  | cons fits more ih =>
    cases bytes with
    | nil => simp [follow] at h
    | cons b bytes =>
      rw [List.cons_append]
      simp only [follow] at h ⊢
      split at h
      · rename_i hb
        rw [if_pos hb]
        exact ih h
      · rename_i hb
        rw [if_neg hb]
        exact h

theorem head_append_of_broken {lead : UInt8} {rest : List UInt8} {n : Nat}
    (h : head lead rest = .broken n) (later : List UInt8) :
    head lead (rest ++ later) = .broken n := by
  unfold head at h ⊢
  cases hf : followers? lead with
  | none =>
    rw [hf] at h
    exact h
  | some followers =>
    rw [hf] at h
    exact follow_append_of_broken h later

theorem le_of_follow_eq_broken {size n : Nat} {followers : List (UInt8 → Bool)}
    {bytes : List UInt8} (h : follow size followers bytes = .broken n) :
    size ≤ n ∧ n < size + followers.length ∧ n < size + bytes.length := by
  induction followers generalizing size bytes with
  | nil => simp [follow] at h
  | cons fits more ih =>
    cases bytes with
    | nil => simp [follow] at h
    | cons b bytes =>
      rw [List.length_cons, List.length_cons]
      simp only [follow] at h
      split at h
      · have := ih h
        omega
      · cases h
        omega

theorem follow_take {size n : Nat} {followers : List (UInt8 → Bool)} {bytes : List UInt8}
    (h : follow size followers bytes = .broken n) (k : Nat) :
    follow size followers (bytes.take k) = if size + k ≤ n then .unfinished else .broken n := by
  induction followers generalizing size bytes k with
  | nil => simp [follow] at h
  | cons fits more ih =>
    have hle := (le_of_follow_eq_broken h).1
    cases bytes with
    | nil => simp [follow] at h
    | cons b bytes =>
      simp only [follow] at h
      cases k with
      | zero =>
        rw [if_pos (by omega), List.take_zero]
        rfl
      | succ k =>
        rw [List.take_succ_cons]
        simp only [follow]
        split at h
        · rename_i hb
          rw [if_pos hb, ih h k, Nat.add_assoc, Nat.add_comm 1 k]
        · rename_i hb
          cases h
          rw [if_neg hb, if_neg (by omega)]

theorem follow_eq_unfinished {size : Nat} {followers : List (UInt8 → Bool)} {bytes : List UInt8} :
    follow size followers bytes = .unfinished ↔ bytes.length < followers.length ∧
      List.Forall₂ (fun fits b => fits b) (followers.take bytes.length) bytes := by
  induction followers generalizing size bytes with
  | nil => simp [follow]
  | cons fits more ih =>
    cases bytes with
    | nil => simp [follow]
    | cons b bytes =>
      simp only [follow, List.length_cons, List.take_succ_cons, List.forall₂_cons,
        Nat.add_lt_add_iff_right]
      split
      · rename_i hb
        rw [ih]
        simp [hb]
      · rename_i hb
        simp [hb]

theorem complete?_append (c : Char) (rest : List UInt8) :
    complete? (String.utf8EncodeChar c ++ rest) = some c := by
  have hlength : (String.utf8EncodeChar c).length ≤ 4 := by
    rw [String.length_utf8EncodeChar]
    exact c.utf8Size_le_four
  unfold complete?
  rw [List.take_append, List.take_of_length_le hlength, List.toByteArray_append]
  exact ByteArray.utf8DecodeChar?_utf8EncodeChar_append

theorem exists_of_complete? {bytes : List UInt8} {c : Char} (h : complete? bytes = some c) :
    ∃ rest, bytes = String.utf8EncodeChar c ++ rest := by
  obtain ⟨l, hl⟩ := ByteArray.exists_of_utf8DecodeChar?_eq_some h
  have htake : bytes.take 4 = String.utf8EncodeChar c ++ l.data.toList := by
    have hdata := congrArg (fun b : ByteArray => b.data.toList) hl
    simpa [ByteArray.toList_data_append] using hdata
  refine ⟨l.data.toList ++ bytes.drop 4, ?_⟩
  rw [← List.append_assoc, ← htake, List.take_append_drop]

theorem complete?_eq_none {lead : UInt8} {rest : List UInt8}
    (h : ∀ n, head lead rest ≠ .whole n) : complete? (lead :: rest) = none := by
  cases hc : complete? (lead :: rest) with
  | none => rfl
  | some c =>
    obtain ⟨later, hlater⟩ := exists_of_complete? hc
    obtain ⟨b, tail, htail⟩ := exists_utf8EncodeChar_eq_cons c
    rw [htail, List.cons_append, List.cons.injEq] at hlater
    obtain ⟨rfl, rfl⟩ := hlater
    exact absurd (head_of_utf8EncodeChar htail later) (h _)

theorem isPartial_iff {lead : UInt8} {rest : List UInt8} :
    isPartial (lead :: rest) ↔ head lead rest = .unfinished := by
  unfold head
  rcases followers?_cases lead with ⟨h, hf⟩ | ⟨h, hf⟩ | ⟨h, hf⟩ | ⟨h, hf⟩ | ⟨h, hf⟩ <;>
    match rest with
    | [] | [_] | [_, _] | _ :: _ :: _ :: _ =>
      simp [hf, follow_eq_unfinished, isPartial, UInt8.le_iff_toNat_le] <;> omega

theorem head_eq_broken_le {lead : UInt8} {rest : List UInt8} {n : Nat}
    (h : head lead rest = .broken n) : 1 ≤ n ∧ n ≤ 3 ∧ n ≤ rest.length + 1 := by
  unfold head at h
  rcases followers?_cases lead with ⟨_, hf⟩ | ⟨_, hf⟩ | ⟨_, hf⟩ | ⟨_, hf⟩ | ⟨_, hf⟩ <;> rw [hf] at h
  case inr.inr.inr.inr =>
    cases h
    omega
  all_goals
    have hle := le_of_follow_eq_broken h
    simp only [List.length_cons, List.length_nil] at hle
    omega

theorem isPartial_take_iff {lead : UInt8} {rest : List UInt8} {n : Nat}
    (h : head lead rest = .broken n) (k : Nat) :
    isPartial (lead :: rest.take (k + 1)) ↔ k + 2 ≤ n := by
  rw [isPartial_iff]
  unfold head at h ⊢
  split at h
  · rw [follow_take h]
    split
    · simp
      omega
    · simp
      omega
  · cases h
    simp

/-- The two readers replace the same bytes. -/
theorem replaced_of_broken {lead : UInt8} {rest : List UInt8} {n : Nat}
    (h : head lead rest = .broken n) : replaced (lead :: rest) = n := by
  have hle := head_eq_broken_le h
  unfold replaced
  simp only [List.take_succ_cons, isPartial_take_iff h]
  split
  · omega
  · split <;> omega

theorem drop_replaced_of_unfinished {lead : UInt8} {rest : List UInt8}
    (h : head lead rest = .unfinished) : (lead :: rest).drop (replaced (lead :: rest)) = [] := by
  have hpartial := isPartial_iff.mpr h
  have hlength : rest.length ≤ 2 := by
    match rest with
    | [] | [_] | [_, _] => simp
    | _ :: _ :: _ :: _ => cases hpartial
  unfold replaced
  rw [List.take_of_length_le (by rw [List.length_cons]; omega), if_pos hpartial]
  exact List.drop_eq_nil_of_le (by rw [List.length_cons]; omega)

theorem readAll_append (text : String) (c : Char) (rest : List UInt8) :
    readAll text (String.utf8EncodeChar c ++ rest) = readAll (text.push c) rest := by
  have hcomplete := complete?_append c rest
  obtain ⟨b, tail, henc⟩ := exists_utf8EncodeChar_eq_cons c
  rw [henc, List.cons_append] at hcomplete
  rw [henc, List.cons_append, readAll, hcomplete]
  simp only
  rw [← List.cons_append, ← henc, ← String.length_utf8EncodeChar, List.drop_left]

theorem readAll_broken {lead : UInt8} {rest : List UInt8} {n : Nat}
    (h : head lead rest = .broken n) (text : String) :
    readAll text (lead :: rest) = readAll (text.push replacement) ((lead :: rest).drop n) := by
  rw [readAll, complete?_eq_none (by simp [h])]
  simp only
  rw [replaced_of_broken h]

theorem readAll_unfinished {lead : UInt8} {rest : List UInt8} (h : head lead rest = .unfinished)
    (text : String) : readAll text (lead :: rest) = text.push replacement := by
  rw [readAll, complete?_eq_none (by simp [h])]
  simp only
  rw [drop_replaced_of_unfinished h, readAll]

def encodeAll (cs : List Char) : List UInt8 := cs.flatMap String.utf8EncodeChar

theorem encodeAll_cons (c : Char) (cs : List Char) :
    encodeAll (c :: cs) = String.utf8EncodeChar c ++ encodeAll cs := rfl

theorem encodeAll_append (cs others : List Char) :
    encodeAll (cs ++ others) = encodeAll cs ++ encodeAll others :=
  List.flatMap_append

theorem textOf_encodeAll (cs : List Char) : textOf (encodeAll cs) = .ofList cs := by
  have hvalid : (encodeAll cs).toByteArray.IsValidUTF8 := .intro cs rfl
  unfold textOf String.fromUTF8?
  rw [dif_pos hvalid]
  rfl

theorem readAll_encodeAll_append (text : String) (cs : List Char) (rest : List UInt8) :
    readAll text (encodeAll cs ++ rest) = readAll (text ++ .ofList cs) rest := by
  induction cs generalizing text with
  | nil => simp [encodeAll]
  | cons c cs ih =>
    rw [encodeAll_cons, List.append_assoc, readAll_append, ih, String.ofList_cons,
      String.push_eq_append, String.append_assoc]

theorem exists_utf8EncodeChar_append {lead : UInt8} {rest : List UInt8} {size : Nat}
    (h : head lead rest = .whole size) :
    ∃ c, lead :: rest = String.utf8EncodeChar c ++ rest.drop (size - 1) ∧ size = c.utf8Size := by
  obtain ⟨c, tail, later, hc, rfl⟩ := exists_char_of_head h
  have hsize : size = c.utf8Size := by
    rw [head_of_utf8EncodeChar hc] at h
    exact (Head.whole.inj h).symm
  have htail : size - 1 = tail.length := by
    rw [hsize, ← String.length_utf8EncodeChar, hc, List.length_cons, Nat.add_sub_cancel]
  refine ⟨c, ?_, hsize⟩
  rw [htail, List.drop_left, hc]
  rfl

theorem exists_of_faultFrom_eq_none {done : Nat} {bytes : List UInt8}
    (h : faultFrom done bytes = none) : ∃ cs, bytes = encodeAll cs := by
  fun_induction faultFrom done bytes with
  | case1 => exact ⟨[], rfl⟩
  | case2 done lead rest size hs ih =>
    obtain ⟨c, hc, -⟩ := exists_utf8EncodeChar_append hs
    obtain ⟨cs, hcs⟩ := ih h
    exact ⟨c :: cs, by rw [hc, hcs, encodeAll_cons]⟩
  | case3 => cases h
  | case4 => cases h

def Fault.head (f : Fault) : Head :=
  match f.length with
  | some n => .broken n
  | none => .unfinished

theorem exists_of_faultFrom_eq_some {done : Nat} {bytes : List UInt8} {f : Fault}
    (h : faultFrom done bytes = some f) :
    ∃ cs lead rest, bytes = encodeAll cs ++ lead :: rest ∧
      f.validUpTo = done + (encodeAll cs).length ∧ Utf8.head lead rest = f.head := by
  fun_induction faultFrom done bytes with
  | case1 => cases h
  | case2 done lead rest size hs ih =>
    obtain ⟨c, hc, hsize⟩ := exists_utf8EncodeChar_append hs
    obtain ⟨cs, lead', rest', hrest, hvalid, hhead⟩ := ih h
    refine ⟨c :: cs, lead', rest', by rw [hc, hrest, encodeAll_cons, List.append_assoc], ?_, hhead⟩
    rw [hvalid, hsize, ← String.length_utf8EncodeChar, encodeAll_cons, List.length_append,
      Nat.add_assoc]
  | case3 done lead rest n hn =>
    cases h
    exact ⟨[], lead, rest, rfl, rfl, hn⟩
  | case4 done lead rest hu =>
    cases h
    exact ⟨[], lead, rest, rfl, rfl, hu⟩

/-- Whether the bytes that are held begin a character without completing it. -/
def Decoder.IsPartial (d : Decoder) : Prop :=
  ∀ lead rest, d.held = lead :: rest → head lead rest = .unfinished

/-- What the decoder has settled is what the one-piece reader makes of the same bytes, whatever
bytes come later. -/
theorem readAll_of_readInto (text : String) (bytes later : List UInt8) :
    readAll text (bytes ++ later) =
      readAll (Decoder.readInto text bytes).2 ((Decoder.readInto text bytes).1.held ++ later) := by
  fun_induction Decoder.readInto text bytes with
  | case1 text bytes hf =>
    obtain ⟨cs, rfl⟩ := exists_of_faultFrom_eq_none hf
    rw [textOf_encodeAll, readAll_encodeAll_append]
    rfl
  | case2 text bytes validUpTo hf =>
    obtain ⟨cs, lead, rest, rfl, hvalid, -⟩ := exists_of_faultFrom_eq_some hf
    simp only [Nat.zero_add] at hvalid
    rw [hvalid, List.take_left, List.drop_left, textOf_encodeAll, List.append_assoc,
      readAll_encodeAll_append]
  | case3 text bytes validUpTo n hf ih =>
    obtain ⟨cs, lead, rest, rfl, hvalid, hhead⟩ := exists_of_faultFrom_eq_some hf
    simp only [Nat.zero_add] at hvalid
    have hbroken : head lead rest = .broken n := hhead
    have hle : n ≤ (lead :: rest).length := (head_eq_broken_le hbroken).2.2
    rw [hvalid, List.take_left, List.drop_left, textOf_encodeAll] at ih ⊢
    calc
      _ = readAll (text ++ .ofList cs) (lead :: (rest ++ later)) := by
        rw [List.append_assoc, readAll_encodeAll_append, List.cons_append]
      _ = readAll ((text ++ .ofList cs).push replacement) ((lead :: (rest ++ later)).drop n) :=
        readAll_broken (head_append_of_broken hbroken later) _
      _ = _ := by
        rw [← List.cons_append, List.drop_append_of_le_length hle, ih]

theorem isPartial_of_readInto (text : String) (bytes : List UInt8) :
    (Decoder.readInto text bytes).1.IsPartial := by
  fun_induction Decoder.readInto text bytes with
  | case1 => simp [Decoder.IsPartial]
  | case2 text bytes validUpTo hf =>
    obtain ⟨cs, lead, rest, rfl, hvalid, hhead⟩ := exists_of_faultFrom_eq_some hf
    simp only [Nat.zero_add] at hvalid
    rw [hvalid, List.drop_left]
    rintro lead' rest' ⟨⟩
    exact hhead
  | case3 text bytes validUpTo n hf ih => exact ih

theorem append_push (a b : String) (c : Char) : (a ++ b).push c = a ++ b.push c := by
  rw [String.push_eq_append, String.push_eq_append, String.append_assoc]

namespace Decoder

section Cases

variable {bytes : List UInt8} {validUpTo length : Nat}

theorem readInto_of_none (text : String) (h : fault? bytes = none) :
    readInto text bytes = ({}, text ++ textOf bytes) := by
  rw [readInto]
  split <;> simp_all

theorem readInto_of_unfinished (text : String) (h : fault? bytes = some ⟨validUpTo, none⟩) :
    readInto text bytes = (⟨bytes.drop validUpTo⟩, text ++ textOf (bytes.take validUpTo)) := by
  rw [readInto]
  split <;> simp_all

theorem readInto_of_broken (text : String) (h : fault? bytes = some ⟨validUpTo, some length⟩) :
    readInto text bytes =
      readInto ((text ++ textOf (bytes.take validUpTo)).push replacement)
        ((bytes.drop validUpTo).drop length) := by
  rw [readInto]
  split <;> simp_all

end Cases

theorem readInto_append_text (front text : String) (bytes : List UInt8) :
    readInto (front ++ text) bytes =
      ((readInto text bytes).1, front ++ (readInto text bytes).2) := by
  fun_induction readInto text bytes with
  | case1 text bytes hf => rw [readInto_of_none _ hf, String.append_assoc]
  | case2 text bytes validUpTo hf => rw [readInto_of_unfinished _ hf, String.append_assoc]
  | case3 text bytes validUpTo n hf ih =>
    rw [readInto_of_broken _ hf, String.append_assoc, append_push, ih]

def feed (d : Decoder) (text : String) : List ByteArray → Decoder × String
  | [] => (d, text)
  | chunk :: chunks => feed (d.decode chunk).1 (text ++ (d.decode chunk).2) chunks

/-- What a decoder owes to the bytes it has seen: it has settled their text, except for the
beginning of a character that it holds. -/
structure HasRead (seen : List UInt8) (d : Decoder) (text : String) : Prop where
  isPartial : d.IsPartial
  readAll_eq : ∀ later, readAll "" (seen ++ later) = readAll text (d.held ++ later)

theorem hasRead_nil : HasRead [] {} "" :=
  ⟨nofun, fun _ => rfl⟩

theorem HasRead.decode {seen : List UInt8} {d : Decoder} {text : String} (h : HasRead seen d text)
    (chunk : ByteArray) :
    HasRead (seen ++ chunk.data.toList) (d.decode chunk).1 (text ++ (d.decode chunk).2) := by
  refine ⟨isPartial_of_readInto "" _, fun later => ?_⟩
  have happend := readInto_append_text text "" (d.held ++ chunk.data.toList)
  rw [String.append_empty] at happend
  rw [List.append_assoc, h.readAll_eq, ← List.append_assoc, readAll_of_readInto text, happend]
  rfl

theorem HasRead.feed {seen : List UInt8} {d : Decoder} {text : String} (h : HasRead seen d text)
    (chunks : List ByteArray) :
    HasRead (seen ++ chunks.flatMap (·.data.toList)) (d.feed text chunks).1
      (d.feed text chunks).2 := by
  induction chunks generalizing seen d text with
  | nil => simpa [Decoder.feed] using h
  | cons chunk chunks ih =>
    rw [List.flatMap_cons, ← List.append_assoc]
    exact ih (h.decode chunk)

theorem HasRead.finish {seen : List UInt8} {d : Decoder} {text : String} (h : HasRead seen d text) :
    text ++ d.finish.2 = readAll "" seen := by
  have hseen := h.readAll_eq []
  rw [List.append_nil, List.append_nil] at hseen
  rw [hseen]
  unfold Decoder.finish
  cases hheld : d.held with
  | nil => simp [readAll]
  | cons lead rest =>
    rw [readAll_unfinished (h.isPartial lead rest hheld), String.push_eq_append]
    rfl

end Decoder

theorem toList_foldl_append (bytes : ByteArray) (chunks : List ByteArray) :
    (chunks.foldl (· ++ ·) bytes).data.toList =
      bytes.data.toList ++ chunks.flatMap (·.data.toList) := by
  induction chunks generalizing bytes with
  | nil => simp
  | cons chunk chunks ih =>
    rw [List.foldl_cons, ih, ByteArray.toList_data_append, List.flatMap_cons, List.append_assoc]

/-- However bytes are cut into chunks, a fresh decoder settles the text that they have in one
piece. -/
theorem feed_finish (chunks : List ByteArray) :
    ((Decoder.feed {} "" chunks).2 ++ (Decoder.feed {} "" chunks).1.finish.2) =
      decodeAll (chunks.foldl (· ++ ·) .empty) := by
  unfold decodeAll
  rw [(Decoder.hasRead_nil.feed chunks).finish, toList_foldl_append]
  rfl

end EngineBridge.Utf8
