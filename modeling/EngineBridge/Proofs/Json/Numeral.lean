import EngineBridge.Json.Numeral

/-! Integers are written as numerals that read back: the digits of a number never begin with a
needless zero, and their value is the number. -/
namespace EngineBridge.Json.Numeral

def ofNat (n : Nat) : List Nat := (Nat.toDigits 10 n).filterMap digit?

def ofInt (n : Int) : Numeral := ⟨n < 0, ofNat n.natAbs, [], none⟩

theorem digit?_of_isDigit {c : Char} (h : c.isDigit) : digit? c = some (c.toNat - '0'.toNat) := by
  unfold digit?
  rw [if_pos h]

theorem isDigit_of_mem_toDigits {n : Nat} {c : Char} (h : c ∈ Nat.toDigits 10 n) : c.isDigit :=
  Nat.isDigit_of_mem_toDigits (by decide) (by decide) h

theorem digits_append {cs rest : List Char} (hcs : ∀ c ∈ cs, c.isDigit)
    (hrest : ∀ c ∈ rest.head?, ¬ c.isDigit) :
    digits (cs ++ rest) = (cs.filterMap digit?, rest) := by
  have htake : rest.takeWhile Char.isDigit = [] := by
    cases rest with
    | nil => rfl
    | cons c rest => exact List.takeWhile_cons_of_neg (hrest c rfl)
  have hdrop : rest.dropWhile Char.isDigit = rest := by
    cases rest with
    | nil => rfl
    | cons c rest => exact List.dropWhile_cons_of_neg (hrest c rfl)
  unfold digits
  rw [List.takeWhile_append_of_pos hcs, List.dropWhile_append_of_pos hcs, htake, hdrop,
    List.append_nil]

theorem foldl_filterMap_digit? {cs : List Char} (hcs : ∀ c ∈ cs, c.isDigit) (m : Nat) :
    (cs.filterMap digit?).foldl (fun m d => 10 * m + d) m = Nat.ofDigitChars 10 cs m := by
  induction cs generalizing m with
  | nil => rfl
  | cons c cs ih =>
    have hc := digit?_of_isDigit (hcs c List.mem_cons_self)
    rw [List.filterMap_cons_some hc, List.foldl_cons, Nat.ofDigitChars_cons]
    exact ih (fun c h => hcs c (List.mem_cons_of_mem _ h)) _

theorem foldl_ofNat (n : Nat) : (ofNat n).foldl (fun m d => 10 * m + d) 0 = n := by
  unfold ofNat
  rw [foldl_filterMap_digit? (fun c h => isDigit_of_mem_toDigits h), Nat.ofDigitChars_ten_toDigits]

theorem length_filterMap_digit? {cs : List Char} (hcs : ∀ c ∈ cs, c.isDigit) :
    (cs.filterMap digit?).length = cs.length := by
  induction cs with
  | nil => rfl
  | cons c cs ih =>
    rw [List.filterMap_cons_some (digit?_of_isDigit (hcs c List.mem_cons_self)), List.length_cons,
      List.length_cons, ih fun c h => hcs c (List.mem_cons_of_mem _ h)]

theorem length_ofNat (n : Nat) : (ofNat n).length = (Nat.toDigits 10 n).length :=
  length_filterMap_digit? fun _ h => isDigit_of_mem_toDigits h

theorem ofNat_ne_nil (n : Nat) : ofNat n ≠ [] := by
  intro h
  have hlength := length_ofNat n
  rw [h] at hlength
  exact Nat.toDigits_ne_nil (List.length_eq_zero_iff.mp hlength.symm)

theorem ofNat_of_lt {n : Nat} (h : n < 10) : ofNat n = [n] := by
  unfold ofNat
  rw [Nat.toDigits_of_lt_base h]
  have hdigit : (Nat.digitChar n).isDigit := isDigit_of_mem_toDigits (n := n) (by
    rw [Nat.toDigits_of_lt_base h]
    exact List.mem_singleton_self _)
  simp [digit?_of_isDigit hdigit, Nat.toNat_digitChar_sub_48_of_lt_ten h]

theorem ofNat_of_le {n : Nat} (h : 10 ≤ n) : ofNat n = ofNat (n / 10) ++ ofNat (n % 10) := by
  unfold ofNat
  rw [Nat.toDigits_of_base_le (by decide) h, List.filterMap_append,
    Nat.toDigits_of_lt_base (Nat.mod_lt n (by decide))]

theorem head?_ofNat {n : Nat} (h : 0 < n) : (ofNat n).head? ≠ some 0 := by
  induction n using Nat.strongRecOn with
  | ind n ih =>
    by_cases hn : n < 10
    · rw [ofNat_of_lt hn]
      simp
      omega
    · have hlead := ih (n / 10) (by omega) (by omega)
      obtain ⟨d, ds, hds⟩ := List.exists_cons_of_ne_nil (ofNat_ne_nil (n / 10))
      rw [hds] at hlead
      rw [ofNat_of_le (by omega), hds]
      exact hlead

theorem ofNat_eq_zero_cons {n d : Nat} {ds : List Nat} (h : ofNat n = 0 :: d :: ds) : False := by
  rcases Nat.eq_zero_or_pos n with rfl | hn
  · rw [ofNat_of_lt (by decide)] at h
    cases h
  · exact head?_ofNat hn (by rw [h]; rfl)

theorem digits_toDigits (n : Nat) : digits (Nat.toDigits 10 n) = (ofNat n, []) := by
  have h : digits (Nat.toDigits 10 n ++ []) = _ :=
    digits_append (fun c h => isDigit_of_mem_toDigits h) (fun c hc => by cases hc)
  rw [List.append_nil] at h
  exact h

theorem toList_toString (n : Int) :
    (toString n).toList =
      if n < 0 then '-' :: Nat.toDigits 10 n.natAbs else Nat.toDigits 10 n.natAbs := by
  rw [Int.toString_eq_repr, Int.repr_eq_if]
  split
  · rw [if_neg (by omega), Nat.toList_repr, show n.toNat = n.natAbs by omega]
  · rw [if_pos (by omega), String.toList_append, Nat.toList_repr,
      show (-n).toNat = n.natAbs by omega]
    rfl

theorem unsigned?_toDigits (negative : Bool) (n : Nat) :
    unsigned? negative (Nat.toDigits 10 n) = some ⟨negative, ofNat n, [], none⟩ := by
  unfold unsigned?
  rw [digits_toDigits]
  split
  · rename_i h
    exact absurd (congrArg Prod.fst h) (ofNat_ne_nil n)
  · rename_i h
    exact (ofNat_eq_zero_cons (congrArg Prod.fst h)).elim
  · rename_i h
    cases h
  · rename_i h
    cases h
    rfl

theorem toDigits_ne_minus_cons (n : Nat) (rest : List Char) : Nat.toDigits 10 n ≠ '-' :: rest := by
  intro h
  have hdigit := isDigit_of_mem_toDigits (n := n) (c := '-') (by rw [h]; simp)
  contradiction

/-- Every integer is written as its numeral. -/
theorem parse?_toString (n : Int) : parse? (toString n).toList = some (ofInt n) := by
  rw [toList_toString, ofInt]
  split
  · rename_i hn
    rw [decide_eq_true hn]
    exact unsigned?_toDigits true n.natAbs
  · rename_i hn
    rw [decide_eq_false hn, parse?.eq_2 _ (toDigits_ne_minus_cons n.natAbs)]
    exact unsigned?_toDigits false n.natAbs

theorem value?_ofInt {n : Int} (low : -0x8000000000000000 ≤ n) (high : n < 0x10000000000000000) :
    (ofInt n).value? = some (.int n) := by
  unfold value? ofInt
  simp only [foldl_ofNat, List.isEmpty_nil, Option.isNone_none, Bool.and_self, if_true]
  by_cases hn : n < 0
  · have hint : -(n.natAbs : Int) = n := by omega
    have hfits : (decide (0 < n.natAbs) && decide (n.natAbs ≤ 0x8000000000000000)) = true :=
      Bool.and_eq_true_iff.mpr ⟨decide_eq_true (by omega), decide_eq_true (by omega)⟩
    rw [if_pos (decide_eq_true hn), if_pos hfits, hint]
  · have hint : (n.natAbs : Int) = n := by omega
    have hsign : ¬ decide (n < 0) = true := by rwa [decide_eq_true_iff]
    rw [if_neg hsign, if_pos (by omega), hint]

end EngineBridge.Json.Numeral
