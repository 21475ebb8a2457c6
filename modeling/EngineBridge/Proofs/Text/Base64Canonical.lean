import EngineBridge.Proofs.Except
import EngineBridge.Proofs.Text.Base64

/-! Base64 is canonical: the text of some bytes is the only one that is read as them. Padding and
unused bits leave no choice. -/
namespace EngineBridge.Base64

def joinFirst (p q : UInt8) : UInt8 := p <<< 2 ||| q >>> 4

def joinSecond (q r : UInt8) : UInt8 := (q &&& 15) <<< 4 ||| r >>> 2

def joinThird (r s : UInt8) : UInt8 := (r &&& 3) <<< 6 ||| s

section Sextets

variable {p q r s : UInt8}

theorem toNat_joinFirst (hp : p.toNat < 64) (hq : q.toNat < 64) :
    (joinFirst p q).toNat = p.toNat * 4 + q.toNat / 16 := by
  have hlow : (q >>> 4).toNat = q.toNat / 16 := toNat_shiftRight rfl
  unfold joinFirst
  rw [toNat_shiftLeft_or (m := 4) rfl (by omega) (by rw [hlow]; omega), hlow]

theorem toNat_joinSecond (hr : r.toNat < 64) :
    (joinSecond q r).toNat = q.toNat % 16 * 16 + r.toNat / 4 := by
  have hlow : (r >>> 2).toNat = r.toNat / 4 := toNat_shiftRight rfl
  unfold joinSecond
  rw [toNat_shiftLeft_or (m := 16) rfl (by rw [toNat_and_fifteen]; omega) (by rw [hlow]; omega),
    toNat_and_fifteen, hlow]

theorem toNat_joinThird (hs : s.toNat < 64) :
    (joinThird r s).toNat = r.toNat % 4 * 64 + s.toNat := by
  unfold joinThird
  rw [toNat_shiftLeft_or (m := 64) rfl (by rw [toNat_and_three]; omega) hs, toNat_and_three]

theorem first_join (hp : p.toNat < 64) (hq : q.toNat < 64) : joinFirst p q >>> 2 = p := by
  apply UInt8.toNat_inj.mp
  rw [toNat_first, toNat_joinFirst hp hq]
  omega

theorem second_join (hp : p.toNat < 64) (hq : q.toNat < 64) (hr : r.toNat < 64) :
    second (joinFirst p q) (joinSecond q r) = q := by
  apply UInt8.toNat_inj.mp
  rw [toNat_second, toNat_joinFirst hp hq, toNat_joinSecond hr]
  omega

theorem third_join (hr : r.toNat < 64) (hs : s.toNat < 64) :
    third (joinSecond q r) (joinThird r s) = r := by
  apply UInt8.toNat_inj.mp
  rw [toNat_third, toNat_joinSecond hr, toNat_joinThird hs]
  omega

theorem fourth_join (hs : s.toNat < 64) : joinThird r s &&& 63 = s := by
  apply UInt8.toNat_inj.mp
  rw [toNat_and_sixtyThree, toNat_joinThird hs]
  omega

theorem second_join_zero (hp : p.toNat < 64) (hq : q.toNat < 64) (hzero : q &&& 15 = 0) :
    second (joinFirst p q) 0 = q := by
  have hunused : q.toNat % 16 = 0 := by
    rw [← toNat_and_fifteen, hzero]
    rfl
  apply UInt8.toNat_inj.mp
  rw [toNat_second, toNat_joinFirst hp hq, UInt8.toNat_zero]
  omega

theorem third_join_zero (hr : r.toNat < 64) (hzero : r &&& 3 = 0) :
    third (joinSecond q r) 0 = r := by
  have hunused : r.toNat % 4 = 0 := by
    rw [← toNat_and_three, hzero]
    rfl
  apply UInt8.toNat_inj.mp
  rw [toNat_third, toNat_joinSecond hr, UInt8.toNat_zero]
  omega

end Sextets

theorem code_value?_all : ∀ n < 256, (value? (.ofNat n)).all fun i =>
    decide (i.toNat < 64 ∧ code i = .ofNat n) := by decide +kernel

theorem value?_eq_some {b i : UInt8} (h : value? b = some i) : i.toNat < 64 ∧ code i = b := by
  have hall := code_value?_all b.toNat b.toNat_lt
  rw [UInt8.ofNat_toNat, h] at hall
  exact of_decide_eq_true hall

theorem read_eq_ok {b i : UInt8} {offset : Nat} (h : read b offset = .ok i) :
    i.toNat < 64 ∧ code i = b := by
  unfold read at h
  cases hvalue : value? b with
  | none =>
    rw [hvalue] at h
    cases h
  | some j =>
    rw [hvalue] at h
    cases h
    exact value?_eq_some hvalue

def Tail.text (t : Tail) : List UInt8 :=
  t.symbols.map Prod.fst ++ List.replicate t.paddings padding

/-- Whether a tail can have been read: its values are those of its symbols, and padding has not
come too early. -/
structure Tail.IsRead (t : Tail) : Prop where
  symbols : ∀ x ∈ t.symbols, x.2.toNat < 64 ∧ code x.2 = x.1
  paddings : t.paddings = 0 ∨ 2 ≤ t.symbols.length

theorem isRead_nil : Tail.IsRead {} := ⟨nofun, .inl rfl⟩

variable {t tail : Tail}

theorem Tail.IsRead.symbol (h : t.IsRead) (hp : t.paddings = 0) {b i : UInt8}
    (hi : i.toNat < 64 ∧ code i = b) :
    Tail.IsRead { t with symbols := t.symbols ++ [(b, i)] } where
  symbols x hx := by
    rcases List.mem_append.mp hx with hx | hx
    · exact h.symbols x hx
    · rw [List.mem_singleton.mp hx]
      exact hi
  paddings := .inl hp

theorem Tail.IsRead.padding (h : t.IsRead) (hplace : 2 ≤ t.symbols.length + t.paddings) :
    Tail.IsRead { t with paddings := t.paddings + 1 } where
  symbols := h.symbols
  paddings := by
    have hpaddings := h.paddings
    dsimp only
    omega

theorem isRead_of_scanTail {start : Nat} {text : List UInt8} (h : scanTail start tail text = .ok t)
    (htail : tail.IsRead) : t.IsRead ∧ t.text = tail.text ++ text := by
  induction text generalizing tail with
  | nil =>
    cases h
    exact ⟨htail, (List.append_nil _).symm⟩
  | cons byte rest ih =>
    rw [scanTail] at h
    split at h
    · rename_i hpadding
      split at h
      · cases h
      · rename_i hplace
        obtain ⟨hread, htext⟩ := ih h (htail.padding (by omega))
        refine ⟨hread, ?_⟩
        rw [htext, hpadding]
        simp [Tail.text, List.replicate_succ']
    · split at h
      · cases h
      · rename_i hnone
        have hp : tail.paddings = 0 := by omega
        cases hvalue : read byte (start + (tail.symbols.length + tail.paddings)) with
        | error e =>
          rw [hvalue] at h
          cases h
        | ok i =>
          rw [hvalue] at h
          obtain ⟨hread, htext⟩ := ih h (htail.symbol hp (read_eq_ok hvalue))
          refine ⟨hread, ?_⟩
          rw [htext]
          simp [Tail.text, hp]

section Groups

variable {p q r s : UInt8} (hp : p.toNat < 64) (hq : q.toNat < 64)

include hp hq

theorem codes_join_three (hr : r.toNat < 64) (hs : s.toNat < 64) (rest : List UInt8) :
    codes (joinFirst p q :: joinSecond q r :: joinThird r s :: rest) =
      code p :: code q :: code r :: code s :: codes rest := by
  rw [codes, first_join hp hq, second_join hp hq hr, third_join hr hs, fourth_join hs]

theorem codes_join_two (hr : r.toNat < 64) (hzero : r &&& 3 = 0) :
    codes [joinFirst p q, joinSecond q r] = [code p, code q, code r, padding] := by
  rw [codes, first_join hp hq, second_join hp hq hr, third_join_zero hr hzero]

theorem codes_join_one (hzero : q &&& 15 = 0) :
    codes [joinFirst p q] = [code p, code q, padding, padding] := by
  rw [codes, first_join hp hq, second_join_zero hp hq hzero]

end Groups

theorem exists_codes_of_closeTail {bytes out : ByteArray} {start : Nat}
    (h : closeTail bytes start t = .ok out) (ht : t.IsRead) (hlength : t.text.length ≤ 4) :
    ∃ rest : List UInt8, out = bytes ++ rest.toByteArray ∧ t.text = codes rest := by
  obtain ⟨symbols, paddings⟩ := t
  obtain ⟨hsymbols, hpaddings⟩ := ht
  unfold Tail.text at hlength ⊢
  rw [List.length_append, List.length_map, List.length_replicate] at hlength
  unfold closeTail at h
  split at h
  · split at h <;> cases h
  rename_i hmod
  dsimp only at h hmod hlength hsymbols hpaddings ⊢
  -- a group has at most four symbols, and one alone makes no byte
  rcases symbols with _ | ⟨⟨_, p⟩, _ | ⟨⟨_, q⟩, _ | ⟨⟨_, r⟩, _ | ⟨⟨_, s⟩, _ | ⟨_, _⟩⟩⟩⟩⟩
  all_goals simp only [List.forall_mem_cons, List.length_cons, List.length_nil] at *
  case nil =>
    cases h
    obtain rfl : paddings = 0 := by omega
    exact ⟨[], ByteArray.append_empty.symm, rfl⟩
  case cons.nil => cases h
  case cons.cons.nil =>
    obtain ⟨⟨hp, rfl⟩, ⟨hq, rfl⟩, -⟩ := hsymbols
    split at h
    · cases h
    rename_i hzero
    cases h
    obtain rfl : paddings = 2 := by omega
    refine ⟨[joinFirst p q], ?_, ?_⟩
    · simp only [← push_append, List.toByteArray_nil, ByteArray.append_empty]
      rfl
    · rw [codes_join_one hp hq (Decidable.not_not.mp hzero)]
      rfl
  case cons.cons.cons.nil =>
    obtain ⟨⟨hp, rfl⟩, ⟨hq, rfl⟩, ⟨hr, rfl⟩, -⟩ := hsymbols
    split at h
    · cases h
    rename_i hzero
    cases h
    obtain rfl : paddings = 1 := by omega
    refine ⟨[joinFirst p q, joinSecond q r], ?_, ?_⟩
    · simp only [← push_append, List.toByteArray_nil, ByteArray.append_empty]
      rfl
    · rw [codes_join_two hp hq hr (Decidable.not_not.mp hzero)]
      rfl
  case cons.cons.cons.cons.nil =>
    obtain ⟨⟨hp, rfl⟩, ⟨hq, rfl⟩, ⟨hr, rfl⟩, ⟨hs, rfl⟩, -⟩ := hsymbols
    cases h
    obtain rfl : paddings = 0 := by omega
    refine ⟨[joinFirst p q, joinSecond q r, joinThird r s], ?_, ?_⟩
    · simp only [← push_append, List.toByteArray_nil, ByteArray.append_empty]
      rfl
    · rw [codes_join_three hp hq hr hs]
      rfl
  case cons.cons.cons.cons.cons => omega

theorem exists_codes_of_decodeFrom {bytes out : ByteArray} {start : Nat} {text : List UInt8}
    (h : decodeFrom bytes start text = .ok out) :
    ∃ rest : List UInt8, out = bytes ++ rest.toByteArray ∧ text = codes rest := by
  fun_induction decodeFrom bytes start text with
  | case1 bytes start a b c d e rest ih =>
    obtain ⟨p, hreadp, h⟩ := bind_eq_ok.mp h
    obtain ⟨q, hreadq, h⟩ := bind_eq_ok.mp h
    obtain ⟨r, hreadr, h⟩ := bind_eq_ok.mp h
    obtain ⟨s, hreads, h⟩ := bind_eq_ok.mp h
    obtain ⟨last, rfl, hlast⟩ := ih p q r s h
    obtain ⟨hp, rfl⟩ := read_eq_ok hreadp
    obtain ⟨hq, rfl⟩ := read_eq_ok hreadq
    obtain ⟨hr, rfl⟩ := read_eq_ok hreadr
    obtain ⟨hs, rfl⟩ := read_eq_ok hreads
    refine ⟨joinFirst p q :: joinSecond q r :: joinThird r s :: last, ?_, ?_⟩
    · simp only [← push_append]
      rfl
    · rw [codes_join_three hp hq hr hs, hlast]
  | case2 bytes start last hlast =>
    obtain ⟨t, ht, hclose⟩ := bind_eq_ok.mp h
    obtain ⟨hread, htext⟩ := isRead_of_scanTail ht isRead_nil
    have hlength : last.length ≤ 4 := by
      match last with
      | [] | [_] | [_, _] | [_, _, _] | [_, _, _, _] => simp
      | a :: b :: c :: d :: e :: rest => exact absurd rfl (hlast a b c d e rest)
    obtain rfl : t.text = last := htext
    exact exists_codes_of_closeTail hclose hread hlength

theorem textBytes_inj {text other : String} (h : textBytes text = textBytes other) :
    text = other :=
  String.toByteArray_inj.mp (ByteArray.ext (Array.toList_inj.mp h))

/-- Bytes have exactly one text. -/
theorem decode_eq_ok {text : String} {bytes : ByteArray} :
    decode text = .ok bytes ↔ text = encode bytes := by
  constructor
  · intro h
    have hfrom : decodeFrom .empty 0 (textBytes text) = .ok bytes := by
      unfold decode at h
      dsimp only at h
      split at h
      · cases h
      · exact h
    obtain ⟨rest, rfl, htext⟩ := exists_codes_of_decodeFrom hfrom
    apply textBytes_inj
    rw [textBytes_encode, htext, ByteArray.empty_append, List.toList_data_toByteArray]
  · rintro rfl
    exact decode_encode bytes

end EngineBridge.Base64
