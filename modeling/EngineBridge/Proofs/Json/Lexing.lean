import EngineBridge.Json.Token
import EngineBridge.Json.Writer
import EngineBridge.Proofs.Json.Numeral

/-! Texts that are read as known tokens. They are so read wherever they stand, as long as what
follows a numeral is no part of one. -/
namespace EngineBridge.Json

def lex (l : Lexer) (cs : List Char) : Option (List Token) :=
  (cs.foldlM Lexer.step l).bind Lexer.close

theorem lex_nil (l : Lexer) : lex l [] = l.close := rfl

theorem lex_cons (l : Lexer) (c : Char) (cs : List Char) :
    lex l (c :: cs) = (l.step c).bind (lex · cs) := by
  unfold lex
  rw [List.foldlM_cons]
  cases l.step c <;> rfl

theorem lex_cons_of_step {l m : Lexer} {c : Char} (h : l.step c = some m) (cs : List Char) :
    lex l (c :: cs) = lex m cs := by
  rw [lex_cons, h]
  rfl

theorem lex_cons_of_begin {done : Array Token} {l : Lexer} {c : Char}
    (h : Lexer.begin done c = some l) (cs : List Char) :
    lex ⟨.between, done⟩ (c :: cs) = lex l cs :=
  lex_cons_of_step (l := ⟨.between, done⟩) h cs

def EndsNumeral (cs : List Char) : Prop := ∀ c ∈ cs.head?, ¬ isNumeric c

theorem endsNumeral_nil : EndsNumeral [] := by
  intro c h
  cases h

theorem endsNumeral_cons {c : Char} (h : isNumeric c = false) (cs : List Char) :
    EndsNumeral (c :: cs) := by
  intro d hd
  cases hd
  simp [h]

theorem EndsNumeral.append {cs rest : List Char} (h : EndsNumeral cs) (hrest : EndsNumeral rest) :
    EndsNumeral (cs ++ rest) := by
  cases cs with
  | nil => exact hrest
  | cons c cs => exact h

/-- A text is read as some tokens, wherever it stands. -/
def Spells (cs : List Char) (tokens : List Token) : Prop :=
  ∀ (done : Array Token) (rest : List Char), EndsNumeral rest →
    lex ⟨.between, done⟩ (cs ++ rest) = lex ⟨.between, done ++ tokens.toArray⟩ rest

theorem Spells.ofText? {cs : List Char} {tokens : List Token} (h : Spells cs tokens) :
    Token.ofText? cs = some tokens := by
  have hall := h #[] [] endsNumeral_nil
  rw [List.append_nil, lex_nil] at hall
  change lex {} cs = _
  rw [hall]
  simp [Lexer.close]

theorem spells_mark {c : Char} {token : Token}
    (h : ∀ done, Lexer.begin done c = some ⟨.between, done.push token⟩) : Spells [c] [token] := by
  intro done rest _
  rw [List.cons_append, lex_cons_of_begin (h done)]
  simp

theorem lex_word {cs : List Char} (hcs : cs ≠ []) (token : Token) (done : Array Token)
    (rest : List Char) :
    lex ⟨.word cs token, done⟩ (cs ++ rest) = lex ⟨.between, done.push token⟩ rest := by
  induction cs with
  | nil => contradiction
  | cons c cs ih =>
    cases cs with
    | nil => exact lex_cons_of_step (by simp [Lexer.step]) rest
    | cons c' cs =>
      rw [List.cons_append, lex_cons_of_step (m := ⟨.word (c' :: cs) token, done⟩)
        (by simp [Lexer.step])]
      exact ih (by simp)

theorem spells_word {c : Char} {cs : List Char} {token : Token} (hcs : cs ≠ [])
    (h : ∀ done, Lexer.begin done c = some ⟨.word cs token, done⟩) : Spells (c :: cs) [token] := by
  intro done rest _
  rw [List.cons_append, lex_cons_of_begin (h done), lex_word hcs]
  simp

theorem isNumeric_of_isDigit {c : Char} (h : c.isDigit) : isNumeric c := by
  simp [isNumeric, h]

theorem lex_number {cs : List Char} (hcs : ∀ c ∈ cs, isNumeric c) (seen : List Char)
    (done : Array Token) (rest : List Char) :
    lex ⟨.number seen, done⟩ (cs ++ rest) = lex ⟨.number (cs.reverse ++ seen), done⟩ rest := by
  induction cs generalizing seen with
  | nil => rfl
  | cons c cs ih =>
    have hc : isNumeric c := hcs c List.mem_cons_self
    rw [List.cons_append, lex_cons_of_step (m := ⟨.number (c :: seen), done⟩)
      (by simp [Lexer.step, hc]), ih fun c h => hcs c (List.mem_cons_of_mem _ h)]
    simp

theorem lex_number_of_endsNumeral {seen : List Char} {n : Numeral}
    (hn : Numeral.parse? seen.reverse = some n) (done : Array Token) {rest : List Char}
    (hrest : EndsNumeral rest) :
    lex ⟨.number seen, done⟩ rest = lex ⟨.between, done.push (.number n)⟩ rest := by
  have hclose : Lexer.closeNumber done seen = some (done.push (.number n)) := by
    simp [Lexer.closeNumber, hn]
  cases rest with
  | nil => simp [lex_nil, Lexer.close, hclose]
  | cons c rest =>
    have hc : ¬ isNumeric c := hrest c rfl
    rw [lex_cons, lex_cons]
    simp [Lexer.step, hc, hclose]

theorem begin_number {c : Char} (h : c.isDigit ∨ c = '-') (done : Array Token) :
    Lexer.begin done c = some ⟨.number [c], done⟩ := by
  unfold Lexer.begin
  split
  all_goals first
    | (rcases h with h | h <;> simp at h)
    | skip
  have hblank : isBlank c = false := by
    rcases h with h | rfl
    · cases hb : isBlank c with
      | false => rfl
      | true =>
        simp only [isBlank, Bool.or_eq_true, decide_eq_true_eq] at hb
        rcases hb with ((rfl | rfl) | rfl) | rfl <;> simp at h
    · rfl
  rw [hblank]
  rcases h with h | rfl
  · simp [h]
  · simp

theorem spells_numeral {c : Char} {cs : List Char} {n : Numeral} (hc : c.isDigit ∨ c = '-')
    (hcs : ∀ c ∈ cs, isNumeric c) (hn : Numeral.parse? (c :: cs) = some n) :
    Spells (c :: cs) [.number n] := by
  intro done rest hrest
  rw [List.cons_append, lex_cons_of_begin (begin_number hc done), lex_number hcs,
    lex_number_of_endsNumeral (n := n) (by simpa using hn) done hrest]
  simp

theorem spells_int (n : Int) : Spells (toString n).toList [.number (Numeral.ofInt n)] := by
  have hparse := Numeral.parse?_toString n
  rw [Numeral.toList_toString] at hparse ⊢
  split
  · rename_i hn
    rw [if_pos hn] at hparse
    exact spells_numeral (.inr rfl)
      (fun c h => isNumeric_of_isDigit (Numeral.isDigit_of_mem_toDigits h)) hparse
  · rename_i hn
    rw [if_neg hn] at hparse
    obtain ⟨c, cs, hcs⟩ :=
      List.exists_cons_of_ne_nil (Nat.toDigits_ne_nil (n := n.natAbs) (b := 10))
    have hdigit : ∀ d ∈ c :: cs, d.isDigit := fun d h =>
      Numeral.isDigit_of_mem_toDigits (by rw [hcs]; exact h)
    rw [hcs] at hparse ⊢
    exact spells_numeral (.inl (hdigit c List.mem_cons_self))
      (fun d h => isNumeric_of_isDigit (hdigit d (List.mem_cons_of_mem _ h))) hparse

end EngineBridge.Json
