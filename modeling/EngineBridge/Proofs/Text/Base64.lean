import EngineBridge.Text.Base64
import Mathlib.Algebra.Group.Nat.Defs

/-! Base64 loses nothing: the text of every run of bytes is read back as those bytes. -/
namespace EngineBridge.Base64

def second (a b : UInt8) : UInt8 := (a &&& 3) <<< 4 ||| b >>> 4

def third (b c : UInt8) : UInt8 := (b &&& 15) <<< 2 ||| c >>> 6

section Bits

variable {x y k : UInt8} {m : Nat}

theorem toNat_shiftRight (hm : 2 ^ (k.toNat % 8) = m) : (x >>> k).toNat = x.toNat / m := by
  rw [UInt8.toNat_shiftRight, Nat.shiftRight_eq_div_pow, hm]

theorem toNat_shiftLeft_or (hm : 2 ^ (k.toNat % 8) = m) (hx : x.toNat * m < 256)
    (hy : y.toNat < m) : (x <<< k ||| y).toNat = x.toNat * m + y.toNat := by
  have hshift : (x <<< k).toNat = x.toNat * m := by
    rw [UInt8.toNat_shiftLeft, Nat.shiftLeft_eq, hm]
    exact Nat.mod_eq_of_lt hx
  subst hm
  rw [UInt8.toNat_or, hshift, Nat.mul_comm, Nat.two_pow_add_eq_or_of_lt hy]

theorem toNat_and_three : (x &&& 3).toNat = x.toNat % 4 :=
  Nat.and_two_pow_sub_one_eq_mod x.toNat 2

theorem toNat_and_fifteen : (x &&& 15).toNat = x.toNat % 16 :=
  Nat.and_two_pow_sub_one_eq_mod x.toNat 4

theorem toNat_and_sixtyThree : (x &&& 63).toNat = x.toNat % 64 :=
  Nat.and_two_pow_sub_one_eq_mod x.toNat 6

end Bits

variable (a b c : UInt8)

theorem toNat_first : (a >>> 2).toNat = a.toNat / 4 := toNat_shiftRight rfl

theorem toNat_second : (second a b).toNat = a.toNat % 4 * 16 + b.toNat / 16 := by
  have hb := b.toNat_lt
  have hlow : (b >>> 4).toNat = b.toNat / 16 := toNat_shiftRight rfl
  unfold second
  rw [toNat_shiftLeft_or (m := 16) rfl (by rw [toNat_and_three]; omega) (by rw [hlow]; omega),
    toNat_and_three, hlow]

theorem toNat_third : (third b c).toNat = b.toNat % 16 * 4 + c.toNat / 64 := by
  have hc := c.toNat_lt
  have hlow : (c >>> 6).toNat = c.toNat / 64 := toNat_shiftRight rfl
  unfold third
  rw [toNat_shiftLeft_or (m := 4) rfl (by rw [toNat_and_fifteen]; omega) (by rw [hlow]; omega),
    toNat_and_fifteen, hlow]

theorem first_lt : (a >>> 2).toNat < 64 := by
  have ha := a.toNat_lt
  rw [toNat_first]
  omega

theorem second_lt : (second a b).toNat < 64 := by
  have hb := b.toNat_lt
  rw [toNat_second]
  omega

theorem third_lt : (third b c).toNat < 64 := by
  have hc := c.toNat_lt
  rw [toNat_third]
  omega

theorem fourth_lt : (c &&& 63).toNat < 64 := by
  rw [toNat_and_sixtyThree]
  omega

theorem join_first : (a >>> 2) <<< 2 ||| second a b >>> 4 = a := by
  have ha := a.toNat_lt
  have hb := b.toNat_lt
  have hlow : (second a b >>> 4).toNat = a.toNat % 4 := by
    rw [toNat_shiftRight (m := 16) rfl, toNat_second]
    omega
  apply UInt8.toNat_inj.mp
  rw [toNat_shiftLeft_or (m := 4) rfl (by rw [toNat_first]; omega) (by rw [hlow]; omega),
    toNat_first, hlow]
  omega

theorem join_second : (second a b &&& 15) <<< 4 ||| third b c >>> 2 = b := by
  have hb := b.toNat_lt
  have hc := c.toNat_lt
  have hhigh : (second a b &&& 15).toNat = b.toNat / 16 := by
    rw [toNat_and_fifteen, toNat_second]
    omega
  have hlow : (third b c >>> 2).toNat = b.toNat % 16 := by
    rw [toNat_shiftRight (m := 4) rfl, toNat_third]
    omega
  apply UInt8.toNat_inj.mp
  rw [toNat_shiftLeft_or (m := 16) rfl (by rw [hhigh]; omega) (by rw [hlow]; omega), hhigh, hlow]
  omega

theorem join_third : (third b c &&& 3) <<< 6 ||| (c &&& 63) = c := by
  have hc := c.toNat_lt
  have hhigh : (third b c &&& 3).toNat = c.toNat / 64 := by
    rw [toNat_and_three, toNat_third]
    omega
  apply UInt8.toNat_inj.mp
  rw [toNat_shiftLeft_or (m := 64) rfl (by rw [hhigh]; omega) (by
    rw [toNat_and_sixtyThree]
    omega), hhigh, toNat_and_sixtyThree]
  omega

theorem second_zero : second a 0 = (a &&& 3) <<< 4 := by
  unfold second
  rw [show (0 : UInt8) >>> 4 = 0 from rfl, UInt8.or_zero]

theorem third_zero : third b 0 = (b &&& 15) <<< 2 := by
  unfold third
  rw [show (0 : UInt8) >>> 6 = 0 from rfl, UInt8.or_zero]

theorem second_zero_and : second a 0 &&& 15 = 0 := by
  apply UInt8.toNat_inj.mp
  rw [toNat_and_fifteen, toNat_second]
  change (a.toNat % 4 * 16 + 0 / 16) % 16 = 0
  omega

theorem third_zero_and : third b 0 &&& 3 = 0 := by
  apply UInt8.toNat_inj.mp
  rw [toNat_and_three, toNat_third]
  change (b.toNat % 16 * 4 + 0 / 64) % 4 = 0
  omega

def code (i : UInt8) : UInt8 := .ofNat (symbol i).toNat

theorem code_all : ∀ n < 64, String.utf8EncodeChar (symbol (.ofNat n)) = [code (.ofNat n)] ∧
    value? (code (.ofNat n)) = some (.ofNat n) ∧ code (.ofNat n) ≠ padding := by decide

section Symbols

variable {i : UInt8} (h : i.toNat < 64)

include h

theorem utf8EncodeChar_symbol : String.utf8EncodeChar (symbol i) = [code i] := by
  have hall := (code_all i.toNat h).1
  rwa [UInt8.ofNat_toNat] at hall

theorem value?_code : value? (code i) = some i := by
  have hall := (code_all i.toNat h).2.1
  rwa [UInt8.ofNat_toNat] at hall

theorem code_ne_padding : code i ≠ padding := by
  have hall := (code_all i.toNat h).2.2
  rwa [UInt8.ofNat_toNat] at hall

theorem read_code (offset : Nat) : read (code i) offset = .ok i := by
  unfold read
  rw [value?_code h]

end Symbols

def codes : List UInt8 → List UInt8
  | a :: b :: c :: rest =>
    code (a >>> 2) :: code (second a b) :: code (third b c) :: code (c &&& 63) :: codes rest
  | [a, b] => [code (a >>> 2), code (second a b), code (third b 0), padding]
  | [a] => [code (a >>> 2), code (second a 0), padding, padding]
  | [] => []

def textBytes (text : String) : List UInt8 := text.toUTF8.data.toList

theorem textBytes_push (text : String) (c : Char) :
    textBytes (text.push c) = textBytes text ++ String.utf8EncodeChar c := by
  unfold textBytes
  rw [String.toUTF8_eq_toByteArray, String.toByteArray_push, List.utf8Encode_singleton,
    ByteArray.toList_data_append, List.toList_data_toByteArray]
  rfl

theorem textBytes_push_symbol (text : String) {i : UInt8} (h : i.toNat < 64) :
    textBytes (text.push (symbol i)) = textBytes text ++ [code i] := by
  rw [textBytes_push, utf8EncodeChar_symbol h]

theorem textBytes_push_padding (text : String) :
    textBytes (text.push '=') = textBytes text ++ [padding] :=
  textBytes_push text '='

theorem encodeInto_cons (text : String) (a b c : UInt8) (rest : List UInt8) :
    encodeInto text (a :: b :: c :: rest) =
      encodeInto
        ((((text.push (symbol (a >>> 2))).push (symbol (second a b))).push
          (symbol (third b c))).push (symbol (c &&& 63)))
        rest := by
  rw [encodeInto]
  rfl

theorem encodeInto_pair (text : String) (a b : UInt8) :
    encodeInto text [a, b] =
      (((text.push (symbol (a >>> 2))).push (symbol (second a b))).push
        (symbol (third b 0))).push '=' := by
  rw [encodeInto, third_zero]
  rfl

theorem encodeInto_singleton (text : String) (a : UInt8) :
    encodeInto text [a] =
      (((text.push (symbol (a >>> 2))).push (symbol (second a 0))).push '=').push '=' := by
  rw [encodeInto, second_zero]

theorem textBytes_encodeInto (text : String) (bytes : List UInt8) :
    textBytes (encodeInto text bytes) = textBytes text ++ codes bytes := by
  induction bytes using codes.induct generalizing text with
  | case1 a b c rest ih =>
    rw [encodeInto_cons, ih, textBytes_push_symbol _ (fourth_lt c),
      textBytes_push_symbol _ (third_lt b c), textBytes_push_symbol _ (second_lt a b),
      textBytes_push_symbol _ (first_lt a), codes]
    simp
  | case2 a b =>
    rw [encodeInto_pair, textBytes_push_padding, textBytes_push_symbol _ (third_lt b 0),
      textBytes_push_symbol _ (second_lt a b), textBytes_push_symbol _ (first_lt a), codes]
    simp
  | case3 a =>
    rw [encodeInto_singleton, textBytes_push_padding, textBytes_push_padding,
      textBytes_push_symbol _ (second_lt a 0), textBytes_push_symbol _ (first_lt a), codes]
    simp
  | case4 => simp [encodeInto, codes]

theorem textBytes_encode (bytes : ByteArray) :
    textBytes (encode bytes) = codes bytes.data.toList := by
  unfold encode
  rw [textBytes_encodeInto]
  rfl

theorem length_codes_mod_four (bytes : List UInt8) : (codes bytes).length % 4 = 0 := by
  induction bytes using codes.induct with
  | case1 a b c rest ih =>
    simp only [codes, List.length_cons]
    omega
  | case2 => simp [codes]
  | case3 => simp [codes]
  | case4 => rfl

theorem codes_cons_ne_nil (a : UInt8) (rest : List UInt8) : codes (a :: rest) ≠ [] := by
  match rest with
  | [] | [_] | _ :: _ :: _ => simp [codes]

theorem scanTail_code (start : Nat) (tail : Tail) {i : UInt8} (h : i.toNat < 64)
    (htail : tail.paddings = 0) (rest : List UInt8) :
    scanTail start tail (code i :: rest) =
      scanTail start { tail with symbols := tail.symbols ++ [(code i, i)] } rest := by
  rw [scanTail, if_neg (code_ne_padding h), if_neg (by omega), read_code h]
  rfl

theorem scanTail_padding (start : Nat) (tail : Tail) (h : 2 ≤ tail.symbols.length + tail.paddings)
    (rest : List UInt8) :
    scanTail start tail (padding :: rest) =
      scanTail start { tail with paddings := tail.paddings + 1 } rest := by
  rw [scanTail, if_pos rfl, if_neg (by omega)]

theorem push_append (bytes : ByteArray) (a : UInt8) (rest : List UInt8) :
    bytes.push a ++ rest.toByteArray = bytes ++ (a :: rest).toByteArray := by
  rw [← ByteArray.append_toByteArray_singleton, ByteArray.append_assoc, ← List.toByteArray_append]
  rfl

section Groups

variable (bytes : ByteArray) (start : Nat)

theorem decodeFrom_group (rest : List UInt8) (hrest : rest ≠ []) :
    decodeFrom bytes start
        (code (a >>> 2) :: code (second a b) :: code (third b c) :: code (c &&& 63) :: rest) =
      decodeFrom (((bytes.push a).push b).push c) (start + 4) rest := by
  obtain ⟨e, rest, rfl⟩ := List.exists_cons_of_ne_nil hrest
  rw [decodeFrom, read_code (first_lt a), read_code (second_lt a b), read_code (third_lt b c),
    read_code (fourth_lt c)]
  change decodeFrom (((bytes.push _).push _).push _) _ _ = _
  rw [join_first, join_second, join_third]

theorem decodeFrom_three :
    decodeFrom bytes start
        [code (a >>> 2), code (second a b), code (third b c), code (c &&& 63)] =
      .ok (((bytes.push a).push b).push c) := by
  rw [decodeFrom, scanTail_code _ _ (first_lt a) rfl, scanTail_code _ _ (second_lt a b) rfl,
    scanTail_code _ _ (third_lt b c) rfl, scanTail_code _ _ (fourth_lt c) rfl, scanTail]
  · change closeTail bytes start
      ⟨[(_, a >>> 2), (_, second a b), (_, third b c), (_, c &&& 63)], 0⟩ = _
    simp [closeTail, join_first, join_second, join_third]
  · simp

theorem decodeFrom_two :
    decodeFrom bytes start [code (a >>> 2), code (second a b), code (third b 0), padding] =
      .ok ((bytes.push a).push b) := by
  rw [decodeFrom, scanTail_code _ _ (first_lt a) rfl, scanTail_code _ _ (second_lt a b) rfl,
    scanTail_code _ _ (third_lt b 0) rfl, scanTail_padding _ _ (by simp), scanTail]
  · change closeTail bytes start ⟨[(_, a >>> 2), (_, second a b), (_, third b 0)], 1⟩ = _
    simp [closeTail, third_zero_and, join_first, join_second]
  · simp

theorem decodeFrom_one :
    decodeFrom bytes start [code (a >>> 2), code (second a 0), padding, padding] =
      .ok (bytes.push a) := by
  rw [decodeFrom, scanTail_code _ _ (first_lt a) rfl, scanTail_code _ _ (second_lt a 0) rfl,
    scanTail_padding _ _ (by simp), scanTail_padding _ _ (by simp), scanTail]
  · change closeTail bytes start ⟨[(_, a >>> 2), (_, second a 0)], 2⟩ = _
    simp [closeTail, second_zero_and, join_first]
  · simp

end Groups

theorem decodeFrom_codes (bytes : ByteArray) (start : Nat) (rest : List UInt8) :
    decodeFrom bytes start (codes rest) = .ok (bytes ++ rest.toByteArray) := by
  induction rest using codes.induct generalizing bytes start with
  | case1 a b c rest ih =>
    rw [← push_append, ← push_append, ← push_append, codes]
    cases rest with
    | nil => simpa [codes] using decodeFrom_three a b c bytes start
    | cons d rest => rw [decodeFrom_group _ _ _ _ _ _ (codes_cons_ne_nil d rest), ih]
  | case2 a b =>
    rw [← push_append, ← push_append, codes]
    simpa using decodeFrom_two a b bytes start
  | case3 a =>
    rw [← push_append, codes]
    simpa using decodeFrom_one a bytes start
  | case4 =>
    rw [codes, decodeFrom, scanTail, List.toByteArray_nil, ByteArray.append_empty]
    · rfl
    · simp

theorem decode_of_strayLast?_eq_none {text : String} (h : strayLast? (textBytes text) = none) :
    decode text = decodeFrom .empty 0 (textBytes text) := by
  unfold textBytes at h
  unfold decode
  simp only [h]
  rfl

theorem decode_encode (bytes : ByteArray) : decode (encode bytes) = .ok bytes := by
  have hstray : strayLast? (codes bytes.data.toList) = none := by
    unfold strayLast?
    split
    · rw [length_codes_mod_four]
      rfl
    · rfl
  rw [decode_of_strayLast?_eq_none (by rw [textBytes_encode, hstray]), textBytes_encode,
    decodeFrom_codes, ByteArray.empty_append]
  exact congrArg Except.ok (ByteArray.ext (by simp))

end EngineBridge.Base64
