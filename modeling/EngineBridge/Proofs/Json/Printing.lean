import EngineBridge.Proofs.Json.RoundTrip

/-! What the writer makes of floats, and of values over several lines. A finite float is always
written as a JSON number, whatever its shortest digits are. -/
namespace EngineBridge

namespace Binary

variable {x : Binary} {k : Int}

theorem scales_pos (x : Binary) (k : Int) : 0 < (x.scales k).1 :=
  Nat.mul_pos (Nat.pow_pos (by decide)) (Nat.pow_pos (by decide))

theorem readsBack_zero (h : x.significand ≠ 0) : x.readsBack k 0 = false := by
  have hlow : 0 < (4 * x.significand - if x.narrowBelow then 1 else 2) * (x.scales k).1 := by
    refine Nat.mul_pos ?_ (x.scales_pos k)
    split <;> omega
  unfold readsBack
  simp only [Nat.zero_mul]
  split
  · rw [decide_eq_false (by omega), Bool.false_and]
  · rw [decide_eq_false (by omega), Bool.false_and]

theorem digits_pos_of_onGrid? {tie : Tie} {d : Decimal} (hx : x.significand ≠ 0)
    (h : x.onGrid? tie k = some d) : 0 < d.digits := by
  unfold onGrid? at h
  simp only at h
  have hpos {n : Nat} (hn : x.readsBack k n = true) : 0 < n := by
    rcases Nat.eq_zero_or_pos n with rfl | hn'
    · rw [readsBack_zero hx] at hn
      cases hn
    · exact hn'
  have hif {n : Nat} (hn : 0 < n) (upper : Bool) : 0 < if upper then n + 1 else n := by
    cases upper
    · exact hn
    · exact Nat.succ_pos n
  split at h
  · rename_i hbelow habove
    obtain rfl := Option.some.inj h
    exact hif (hpos hbelow) _
  · rename_i hbelow habove
    obtain rfl := Option.some.inj h
    exact hpos hbelow
  · obtain rfl := Option.some.inj h
    exact Nat.succ_pos _
  · cases h

/-- The shortest digits do not begin with a zero, unless there are none to be found. -/
theorem digits_shortest (tie : Tie) (hx : x.significand ≠ 0) :
    0 < (x.shortest tie).digits ∨ x.shortest tie = ⟨0, 0⟩ := by
  unfold shortest
  cases h : (List.range 634).findSome? fun i => x.onGrid? tie (309 - (i : Nat)) with
  | none => exact .inr rfl
  | some d =>
    obtain ⟨i, -, hi⟩ := List.exists_of_findSome?_eq_some h
    exact .inl (digits_pos_of_onGrid? hx hi)

end Binary

namespace Json

def IsUnsigned (cs : List Char) : Prop := ∃ whole fraction exponent ws fs es,
  WritesDigits whole ws ∧ (∀ d ds, whole ≠ 0 :: d :: ds) ∧ WritesFraction fraction fs ∧
    WritesExponent exponent es ∧ cs = ws ++ (fs ++ es)

theorem exists_writesNumeral (negative : Bool) {cs : List Char} (h : IsUnsigned cs) :
    ∃ n, WritesNumeral n ((if negative then ['-'] else []) ++ cs) := by
  obtain ⟨_, _, _, _, _, _, hwhole, hzero, hfraction, hexponent, rfl⟩ := h
  exact ⟨_, .mk negative hwhole hzero hfraction hexponent⟩

theorem writesDigits_of_forall {cs : List Char} (hne : cs ≠ []) (h : ∀ c ∈ cs, c.isDigit) :
    WritesDigits (cs.filterMap digit?) cs :=
  ⟨hne, h, rfl⟩

theorem isDigit_toDigits (n : Nat) : ∀ c ∈ Nat.toDigits 10 n, c.isDigit :=
  fun _ h => Numeral.isDigit_of_mem_toDigits h

theorem head?_toDigits {n : Nat} (h : 0 < n) : (Nat.toDigits 10 n).head? ≠ some '0' := by
  intro hhead
  obtain ⟨rest, hrest⟩ := List.head?_eq_some_iff.mp hhead
  apply Numeral.head?_ofNat h
  unfold Numeral.ofNat
  rw [hrest]
  rfl

theorem no_needless_zero {cs : List Char} (h : ∀ c ∈ cs, c.isDigit) (hhead : cs.head? ≠ some '0')
    (d : Nat) (ds : List Nat) : cs.filterMap digit? ≠ 0 :: d :: ds := by
  cases cs with
  | nil => nofun
  | cons c rest =>
    have hdigit := h c List.mem_cons_self
    rw [List.filterMap_cons_some (Numeral.digit?_of_isDigit hdigit)]
    intro heq
    have hvalue : c.toNat - '0'.toNat = 0 := (List.cons.inj heq).1
    have hzero : c = '0' := by
      have hleast : '0'.toNat ≤ c.toNat := by
        simp only [Char.isDigit, Bool.and_eq_true, decide_eq_true_eq] at hdigit
        exact hdigit.1
      exact Char.toNat_inj.mp (by omega)
    exact hhead (by rw [hzero]; rfl)

structure IsWhole (ws : List Char) : Prop where
  nonempty : ws ≠ []
  areDigits : ∀ c ∈ ws, c.isDigit
  noNeedlessZero : ws.head? ≠ some '0' ∨ ws = ['0']

theorem IsWhole.isUnsigned {ws fs es : List Char} {fraction : List Nat} {exponent : Option Int}
    (h : IsWhole ws) (hfraction : WritesFraction fraction fs)
    (hexponent : WritesExponent exponent es) : IsUnsigned (ws ++ (fs ++ es)) := by
  refine ⟨_, _, _, _, _, _, writesDigits_of_forall h.nonempty h.areDigits, fun d ds => ?_,
    hfraction, hexponent, rfl⟩
  rcases h.noNeedlessZero with hhead | rfl
  · exact no_needless_zero h.areDigits hhead d ds
  · nofun

theorem isDigit_replicate_zero (count : Nat) : ∀ c ∈ List.replicate count '0', c.isDigit := by
  intro c hc
  rw [List.eq_of_mem_replicate hc]
  rfl

theorem isWhole_zero : IsWhole ['0'] := ⟨by simp, isDigit_replicate_zero 1, .inr rfl⟩

theorem isWhole_toDigits_append {n : Nat} (h : 0 < n) (count : Nat) :
    IsWhole (Nat.toDigits 10 n ++ List.replicate count '0') where
  nonempty := by simp
  areDigits := List.forall_mem_append.mpr ⟨isDigit_toDigits n, isDigit_replicate_zero count⟩
  noNeedlessZero := by
    rw [List.head?_append_of_ne_nil _ Nat.toDigits_ne_nil]
    exact .inl (head?_toDigits h)

theorem isWhole_take_toDigits {n count : Nat} (h : 0 < n) (hcount : 0 < count) :
    IsWhole ((Nat.toDigits 10 n).take count) where
  nonempty := by simp [Nat.ne_of_gt hcount]
  areDigits := fun c hc => isDigit_toDigits n c (List.mem_of_mem_take hc)
  noNeedlessZero := by
    rw [List.head?_take, if_neg (Nat.ne_of_gt hcount)]
    exact .inl (head?_toDigits h)

theorem writesFraction_of_forall {cs : List Char} (hne : cs ≠ []) (h : ∀ c ∈ cs, c.isDigit) :
    WritesFraction (cs.filterMap digit?) ('.' :: cs) :=
  .digits (writesDigits_of_forall hne h)

theorem isUnsigned_positional {n : Nat} {whole : Int} (h : 0 < n ∨ n = 0 ∧ whole = 1) :
    IsUnsigned (Layout.positional ".0" (Nat.toDigits 10 n) whole).toList := by
  unfold Layout.positional
  simp only
  split
  · have hwhole : IsWhole (Nat.toDigits 10 n ++
        List.replicate (whole - (Nat.toDigits 10 n).length).toNat '0') := by
      rcases h with hn | ⟨rfl, rfl⟩
      · exact isWhole_toDigits_append hn _
      · exact isWhole_zero
    have hzero : WritesFraction _ ['.', '0'] :=
      writesFraction_of_forall (by simp) (isDigit_replicate_zero 1)
    rw [String.toList_append, String.toList_ofList]
    exact hwhole.isUnsigned hzero .absent
  · rename_i hlength
    have hn : 0 < n := by
      rcases h with hn | ⟨rfl, rfl⟩
      · exact hn
      · exact absurd (Int.le_refl 1) hlength
    split
    · have hwhole : IsWhole ((Nat.toDigits 10 n).take whole.toNat) :=
        isWhole_take_toDigits hn (by omega)
      have hbehind : ∀ c ∈ (Nat.toDigits 10 n).drop whole.toNat, c.isDigit :=
        fun c hc => isDigit_toDigits n c (List.mem_of_mem_drop hc)
      have hunsigned :=
        hwhole.isUnsigned (writesFraction_of_forall (by simp; omega) hbehind) .absent
      rw [String.toList_ofList]
      rwa [List.append_nil] at hunsigned
    · have hbehind := List.forall_mem_append.mpr
        ⟨isDigit_replicate_zero (-whole).toNat, isDigit_toDigits n⟩
      have hunsigned :=
        isWhole_zero.isUnsigned (writesFraction_of_forall (by simp) hbehind) .absent
      rw [String.toList_ofList]
      rwa [List.append_nil] at hunsigned

theorem exists_writesExponent (exponent : Int) : ∃ e, WritesExponent e
    ((if exponent < 0 then "e-" else "e+") ++ toString exponent.natAbs).toList := by
  have hdigits : WritesDigits _ (Nat.toDigits 10 exponent.natAbs) :=
    writesDigits_of_forall Nat.toDigits_ne_nil (isDigit_toDigits _)
  have htext : (toString exponent.natAbs).toList = Nat.toDigits 10 exponent.natAbs :=
    Nat.toList_repr
  rw [String.toList_append, htext]
  split
  · exact ⟨_, .minus (.inl rfl) hdigits⟩
  · exact ⟨_, .plus (.inl rfl) hdigits⟩

theorem isUnsigned_scientific (n : Nat) (exponent : Int) :
    IsUnsigned (Layout.scientific (Nat.toDigits 10 n) exponent).toList := by
  obtain ⟨first, rest, hcons⟩ := List.exists_cons_of_ne_nil (Nat.toDigits_ne_nil (n := n) (b := 10))
  have hdigits := isDigit_toDigits n
  rw [hcons] at hdigits ⊢
  obtain ⟨hfirst, hrest⟩ := List.forall_mem_cons.mp hdigits
  have hwhole : IsWhole [first] := by
    refine ⟨by simp, by simpa using hfirst, ?_⟩
    by_cases hzero : first = '0'
    · exact .inr (by rw [hzero])
    · exact .inl (by simpa using hzero)
  obtain ⟨e, hexponent⟩ := exists_writesExponent exponent
  unfold Layout.scientific
  rw [String.append_assoc, String.toList_append, String.toList_ofList]
  cases rest with
  | nil => exact hwhole.isUnsigned .absent hexponent
  | cons next rest =>
    exact hwhole.isUnsigned (writesFraction_of_forall (by simp) hrest) hexponent

theorem isUnsigned_magnitude (bits : UInt64) : IsUnsigned (floatLayout.magnitude bits).toList := by
  unfold Layout.magnitude
  simp only
  split
  · have hzero : (0 : Nat) = 0 ∧ (1 : Int) = 1 := ⟨rfl, rfl⟩
    exact isUnsigned_positional (.inr hzero)
  · rename_i hsignificand
    split
    · refine isUnsigned_positional ?_
      rcases Binary.digits_shortest floatLayout.tie hsignificand with hpos | hzero
      · exact .inl hpos
      · rw [hzero]
        exact .inr ⟨rfl, rfl⟩
    · exact isUnsigned_scientific _ _

/-- A finite float is written as a number. -/
theorem exists_writesNumeral_renderFloat {x : Float} (h : x.isFinite) :
    ∃ n, WritesNumeral n (renderFloat x).toList := by
  have hordinary : x.isNaN = false ∧ x.isInf = false := by
    change x.toModel.unpack.isFinite = true at h
    change x.toModel.unpack.isNaN = false ∧ x.toModel.unpack.isInf = false
    cases hu : x.toModel.unpack with
    | notANumber | infinity => rw [hu] at h; cases h
    | zero | finite => exact ⟨rfl, rfl⟩
  have hunsigned := isUnsigned_magnitude x.toBits
  unfold renderFloat Layout.render
  simp only [hordinary.1, hordinary.2, Bool.false_eq_true, if_false, String.toList_append]
  split
  · exact exists_writesNumeral true hunsigned
  · exact exists_writesNumeral false hunsigned

mutual

def IsFinite : Json → Prop
  | .null | .bool _ | .int _ | .text _ => True
  | .float x => x.isFinite
  | .list items => AreFinite items
  | .object fields => FieldsFinite fields

def AreFinite : List Json → Prop
  | [] => True
  | item :: rest => item.IsFinite ∧ AreFinite rest

def FieldsFinite : List (String × Json) → Prop
  | [] => True
  | (_, v) :: rest => v.IsFinite ∧ FieldsFinite rest

end

theorem tree_float {x : Float} (h : x.isFinite) :
    ∃ n, (Json.float x).tree = .number n ∧ WritesNumeral n (renderFloat x).toList := by
  obtain ⟨n, hn⟩ := exists_writesNumeral_renderFloat h
  exact ⟨n, by rw [tree, hn.parse?]; rfl, hn⟩

theorem isBlank_indent (level : Nat) : ∀ c ∈ indent level, isBlank c := by
  intro c hc
  rcases List.mem_cons.mp hc with rfl | hc
  · rfl
  · rw [List.eq_of_mem_replicate hc]
    rfl

theorem isBlank_space : ∀ c ∈ [' '], isBlank c := by simp [isBlank]

theorem written_single {token : Token} {cs : List Char} (h : WritesToken token cs) :
    Written [token] cs :=
  .single (.plain h)

theorem prettyItems_cons_cons (level : Nat) (item other : Json) (rest : List Json) :
    prettyItems level (item :: other :: rest) =
      indent level ++ (item.prettyChars level ++ ',' :: prettyItems level (other :: rest)) := by
  rw [prettyItems]
  · simp
  · simp

theorem prettyFields_cons_cons (level : Nat) (name : String) (v : Json) (other : String × Json)
    (rest : List (String × Json)) :
    prettyFields level ((name, v) :: other :: rest) =
      indent level ++ (quote name ++ ':' :: ' ' ::
        (v.prettyChars level ++ ',' :: prettyFields level (other :: rest))) := by
  rw [prettyFields]
  · simp
  · simp

mutual

theorem written_prettyChars : ∀ (v : Json) (level : Nat), v.IsFinite →
    Written v.tree.tokens (v.prettyChars level)
  | .null, _, _ => written_single .null
  | .bool true, _, _ => written_single .yes
  | .bool false, _, _ => written_single .no
  | .int n, _, _ => written_single (.int n)
  | .float x, _, h => by
    obtain ⟨n, htree, hn⟩ := tree_float h
    rw [htree]
    exact .single (.numeral hn)
  | .text s, _, _ => written_single (.text (writesString_quote s))
  | .list [], _, _ => (written_single .openList).append (written_single .closeList)
  | .list (item :: rest), level, h => by
    have hitems := written_prettyItems (item :: rest) (level + 1) h
    have hclose := (written_single .closeList).blanks_append (isBlank_indent level)
    have hall := (written_single .openList).append (hitems.append hclose)
    rw [prettyChars, tree, Tree.tokens]
    · simpa using hall
    · simp
  | .object [], _, _ => (written_single .openObject).append (written_single .closeObject)
  | .object (field :: rest), level, h => by
    have hfields := written_prettyFields (field :: rest) (level + 1) h
    have hclose := (written_single .closeObject).blanks_append (isBlank_indent level)
    have hall := (written_single .openObject).append (hfields.append hclose)
    rw [prettyChars, tree, Tree.tokens]
    · simpa using hall
    · simp

theorem written_prettyItems : ∀ (items : List Json) (level : Nat), AreFinite items →
    Written (Tree.itemTokens (trees items)) (prettyItems level items)
  | [], _, _ => .nil nofun
  | [item], level, h => by
    rw [prettyItems, trees, trees, Tree.itemTokens]
    exact (written_prettyChars item level h.1).blanks_append (isBlank_indent level)
  | item :: other :: rest, level, h => by
    have hitem := written_prettyChars item level h.1
    have hrest := written_prettyItems (other :: rest) level h.2
    rw [prettyItems_cons_cons, trees, trees, Tree.itemTokens_cons_cons, ← trees]
    exact (hitem.append ((written_single .comma).append hrest)).blanks_append (isBlank_indent level)

theorem written_prettyFields : ∀ (fields : List (String × Json)) (level : Nat),
    FieldsFinite fields → Written (Tree.fieldTokens (fieldTrees fields)) (prettyFields level fields)
  | [], _, _ => .nil nofun
  | [(name, v)], level, h => by
    have hname := written_single (.text (writesString_quote name))
    have hv := (written_prettyChars v level h.1).blanks_append isBlank_space
    rw [prettyFields, fieldTrees, fieldTrees, Tree.fieldTokens]
    have hall := hname.append ((written_single .colon).append hv)
    simpa using hall.blanks_append (isBlank_indent level)
  | (name, v) :: other :: rest, level, h => by
    have hname := written_single (.text (writesString_quote name))
    have hv := (written_prettyChars v level h.1).blanks_append isBlank_space
    have hrest := written_prettyFields (other :: rest) level h.2
    have hall := hname.append ((written_single .colon).append (hv.append
      ((written_single .comma).append hrest)))
    rw [prettyFields_cons_cons, fieldTrees, fieldTrees, Tree.fieldTokens_cons_cons, ← fieldTrees]
    exact hall.blanks_append (isBlank_indent level)

end

/-- The text over several lines has the structure of the value. -/
theorem written_renderPretty {v : Json} (h : v.IsFinite) :
    Written v.tree.tokens v.renderPretty.toList := by
  rw [renderPretty, String.toList_ofList]
  exact written_prettyChars v 0 h

end Json

end EngineBridge
