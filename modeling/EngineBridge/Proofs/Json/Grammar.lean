import EngineBridge.Proofs.Json.Lexing

/-! The numbers of JSON text: digits without a needless zero in front, with a sign before them and a
fraction and an exponent behind them if wanted. Every number that is so written is read as its
numeral. -/
namespace EngineBridge.Json

structure WritesDigits (ds : List Nat) (cs : List Char) : Prop where
  nonempty : cs ≠ []
  areDigits : ∀ c ∈ cs, c.isDigit
  values : cs.filterMap digit? = ds

inductive WritesFraction : List Nat → List Char → Prop where
  | absent : WritesFraction [] []
  | digits {ds : List Nat} {cs : List Char} (written : WritesDigits ds cs) :
      WritesFraction ds ('.' :: cs)

def IsExponentMark (c : Char) : Prop := c = 'e' ∨ c = 'E'

def digitsValue (ds : List Nat) : Nat := ds.foldl (fun n d => 10 * n + d) 0

inductive WritesExponent : Option Int → List Char → Prop where
  | absent : WritesExponent none []
  | bare {mark : Char} {ds : List Nat} {cs : List Char} (isMark : IsExponentMark mark)
      (written : WritesDigits ds cs) : WritesExponent (some (digitsValue ds)) (mark :: cs)
  | plus {mark : Char} {ds : List Nat} {cs : List Char} (isMark : IsExponentMark mark)
      (written : WritesDigits ds cs) : WritesExponent (some (digitsValue ds)) (mark :: '+' :: cs)
  | minus {mark : Char} {ds : List Nat} {cs : List Char} (isMark : IsExponentMark mark)
      (written : WritesDigits ds cs) :
      WritesExponent (some (-(digitsValue ds : Int))) (mark :: '-' :: cs)

inductive WritesNumeral : Numeral → List Char → Prop where
  | mk (negative : Bool) {whole fraction : List Nat} {exponent : Option Int}
      {cs fs es : List Char} (writesWhole : WritesDigits whole cs)
      (noNeedlessZero : ∀ d ds, whole ≠ 0 :: d :: ds) (writesFraction : WritesFraction fraction fs)
      (writesExponent : WritesExponent exponent es) :
      WritesNumeral ⟨negative, whole, fraction, exponent⟩
        ((if negative then ['-'] else []) ++ (cs ++ (fs ++ es)))

variable {ds : List Nat} {cs fs es : List Char}

theorem WritesDigits.exists_cons (h : WritesDigits ds cs) :
    ∃ c rest, cs = c :: rest ∧ c.isDigit := by
  obtain ⟨c, rest, rfl⟩ := List.exists_cons_of_ne_nil h.nonempty
  exact ⟨c, rest, rfl, h.areDigits c List.mem_cons_self⟩

theorem WritesDigits.ne_nil (h : WritesDigits ds cs) : ds ≠ [] := by
  intro hnil
  have hlength := Numeral.length_filterMap_digit? h.areDigits
  rw [h.values, hnil] at hlength
  exact h.nonempty (List.length_eq_zero_iff.mp hlength.symm)

theorem WritesDigits.digits_append (h : WritesDigits ds cs) {rest : List Char}
    (hrest : ∀ c ∈ rest.head?, ¬c.isDigit) : Numeral.digits (cs ++ rest) = (ds, rest) := by
  rw [Numeral.digits_append h.areDigits hrest, h.values]

theorem WritesExponent.head_not_isDigit {exponent : Option Int}
    (h : WritesExponent exponent es) : ∀ c ∈ es.head?, ¬c.isDigit := by
  cases h with
  | absent => nofun
  | bare isMark | plus isMark | minus isMark =>
    rintro c ⟨⟩
    rcases isMark with rfl | rfl <;> decide

theorem WritesFraction.head_not_isDigit {exponent : Option Int} (h : WritesFraction ds fs)
    (hes : WritesExponent exponent es) : ∀ c ∈ (fs ++ es).head?, ¬c.isDigit := by
  cases h with
  | absent => exact hes.head_not_isDigit
  | digits =>
    rintro c ⟨⟩
    decide

theorem WritesDigits.isNumeric (h : WritesDigits ds cs) : ∀ c ∈ cs, isNumeric c :=
  fun c hc => isNumeric_of_isDigit (h.areDigits c hc)

theorem WritesFraction.isNumeric (h : WritesFraction ds fs) : ∀ c ∈ fs, isNumeric c := by
  cases h with
  | absent => nofun
  | digits written => exact List.forall_mem_cons.mpr ⟨rfl, written.isNumeric⟩

theorem WritesExponent.isNumeric {exponent : Option Int} (h : WritesExponent exponent es) :
    ∀ c ∈ es, isNumeric c := by
  cases h with
  | absent => nofun
  | bare isMark written =>
    exact List.forall_mem_cons.mpr ⟨by rcases isMark with rfl | rfl <;> rfl, written.isNumeric⟩
  | plus isMark written | minus isMark written =>
    exact List.forall_mem_cons.mpr ⟨by rcases isMark with rfl | rfl <;> rfl,
      List.forall_mem_cons.mpr ⟨rfl, written.isNumeric⟩⟩

theorem WritesDigits.digits_eq (h : WritesDigits ds cs) : Numeral.digits cs = (ds, []) := by
  have hdigits : Numeral.digits (cs ++ []) = (ds, []) := h.digits_append nofun
  rwa [List.append_nil] at hdigits

theorem exponent?_unsigned (h : WritesDigits ds cs) :
    Numeral.exponent? cs = some (digitsValue ds) := by
  obtain ⟨c, rest, rfl, hc⟩ := h.exists_cons
  obtain ⟨d, more, hds⟩ := List.exists_cons_of_ne_nil h.ne_nil
  have hminus : c ≠ '-' := by rintro rfl; contradiction
  have hplus : c ≠ '+' := by rintro rfl; contradiction
  simp [Numeral.exponent?, hminus, hplus, h.digits_eq, hds, digitsValue]

theorem exponent?_plus (h : WritesDigits ds cs) :
    Numeral.exponent? ('+' :: cs) = some (digitsValue ds) := by
  obtain ⟨d, more, hds⟩ := List.exists_cons_of_ne_nil h.ne_nil
  simp [Numeral.exponent?, h.digits_eq, hds, digitsValue]

theorem exponent?_minus (h : WritesDigits ds cs) :
    Numeral.exponent? ('-' :: cs) = some (-(digitsValue ds : Int)) := by
  obtain ⟨d, more, hds⟩ := List.exists_cons_of_ne_nil h.ne_nil
  simp [Numeral.exponent?, h.digits_eq, hds, digitsValue]

theorem ending?_of_writesExponent {exponent : Option Int} (h : WritesExponent exponent es)
    (negative : Bool) (whole fraction : List Nat) :
    Numeral.ending? negative whole fraction es = some ⟨negative, whole, fraction, exponent⟩ := by
  cases h with
  | absent => rfl
  | bare isMark written =>
    rcases isMark with rfl | rfl <;> simp [Numeral.ending?, exponent?_unsigned written]
  | plus isMark written =>
    rcases isMark with rfl | rfl <;> simp [Numeral.ending?, exponent?_plus written]
  | minus isMark written =>
    rcases isMark with rfl | rfl <;> simp [Numeral.ending?, exponent?_minus written]

theorem unsigned?_of_writes {whole fraction : List Nat} {exponent : Option Int}
    (hwhole : WritesDigits whole cs) (hzero : ∀ d ds, whole ≠ 0 :: d :: ds)
    (hfraction : WritesFraction fraction fs) (hexponent : WritesExponent exponent es)
    (negative : Bool) :
    Numeral.unsigned? negative (cs ++ (fs ++ es)) =
      some ⟨negative, whole, fraction, exponent⟩ := by
  have hdigits := hwhole.digits_append (hfraction.head_not_isDigit hexponent)
  have hending := ending?_of_writesExponent hexponent negative whole fraction
  unfold Numeral.unsigned?
  rw [hdigits]
  split
  · rename_i heq
    exact absurd (congrArg Prod.fst heq) hwhole.ne_nil
  · rename_i heq
    exact absurd (congrArg Prod.fst heq) (hzero _ _)
  · rename_i rest _ heq
    obtain ⟨rfl, hrest⟩ := Prod.mk.inj heq
    cases hfraction with
    | absent =>
      cases hexponent with
      | absent => cases hrest
      | bare isMark | plus isMark | minus isMark => rcases isMark with rfl | rfl <;> cases hrest
    | digits written =>
      rw [List.cons_append] at hrest
      obtain ⟨-, rfl⟩ := List.cons.inj hrest
      obtain ⟨d, more, rfl⟩ := List.exists_cons_of_ne_nil written.ne_nil
      rw [written.digits_append hexponent.head_not_isDigit]
      exact hending
  · rename_i hpoint heq
    obtain ⟨rfl, rfl⟩ := Prod.mk.inj heq
    cases hfraction with
    | absent => exact hending
    | digits => exact absurd rfl (hpoint _)

/-- Every number that is written as JSON has it is read as its numeral. -/
theorem WritesNumeral.parse? {n : Numeral} (h : WritesNumeral n cs) :
    Numeral.parse? cs = some n := by
  cases h with
  | mk negative hwhole hzero hfraction hexponent =>
    have hunsigned := unsigned?_of_writes hwhole hzero hfraction hexponent
    cases negative with
    | true => exact hunsigned true
    | false =>
      obtain ⟨c, rest, rfl, hc⟩ := hwhole.exists_cons
      refine (Numeral.parse?.eq_2 _ fun more heq => ?_).trans (hunsigned false)
      obtain rfl : c = '-' := (List.cons.inj heq).1
      contradiction

theorem WritesNumeral.spells {n : Numeral} (h : WritesNumeral n cs) :
    Spells cs [.number n] := by
  have hparse := h.parse?
  cases h with
  | mk negative hwhole hzero hfraction hexponent =>
    have hnumeric := List.forall_mem_append.mpr ⟨hwhole.isNumeric,
      List.forall_mem_append.mpr ⟨hfraction.isNumeric, hexponent.isNumeric⟩⟩
    cases negative with
    | true => exact spells_numeral (.inr rfl) hnumeric hparse
    | false =>
      obtain ⟨c, rest, rfl, hc⟩ := hwhole.exists_cons
      exact spells_numeral (.inl hc) (List.forall_mem_cons.mp hnumeric).2 hparse

end EngineBridge.Json
