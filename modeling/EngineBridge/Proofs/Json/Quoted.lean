import EngineBridge.Proofs.Json.Lexing
import Mathlib.Data.List.Forall2

/-! Strings in JSON text. A character stands for itself, or it is escaped by a letter or by its
code, which takes two codes beyond the first plane. However its characters are written, a string is
read as the same. -/
namespace EngineBridge.Json

inductive IsCode : List Char → Nat → Prop where
  | digits {a b c d : Char} {p q r s : Nat} (first : hexDigit? a = some p)
      (second : hexDigit? b = some q) (third : hexDigit? c = some r)
      (fourth : hexDigit? d = some s) : IsCode [a, b, c, d] (16 * (16 * (16 * p + q) + r) + s)

def shortEscapes : List (Char × Char) :=
  [('"', '"'), ('\\', '\\'), ('/', '/'), ('b', '\x08'), ('f', '\x0c'), ('n', '\n'), ('r', '\r'),
    ('t', '\t')]

inductive WritesChar (c : Char) : List Char → Prop where
  | plain (notQuote : c ≠ '"') (notBackslash : c ≠ '\\') (notControl : ¬c < ' ') : WritesChar c [c]
  | short {e : Char} (listed : (e, c) ∈ shortEscapes) : WritesChar c ['\\', e]
  | code {ds : List Char} (isCode : IsCode ds c.toNat) : WritesChar c ('\\' :: 'u' :: ds)
  | pair {ds es : List Char} {lead trail : Nat} (isLead : IsCode ds (0xD800 + lead))
      (isTrail : IsCode es (0xDC00 + trail)) (leadFits : lead < 0x400) (trailFits : trail < 0x400)
      (value : c.toNat = 0x10000 + lead * 0x400 + trail) :
      WritesChar c ('\\' :: 'u' :: ds ++ '\\' :: 'u' :: es)

def WritesString (s : String) (cs : List Char) : Prop :=
  ∃ parts, List.Forall₂ WritesChar s.toList parts ∧ cs = '"' :: (parts.flatten ++ ['"'])

theorem pushUnit_toNat (s : String) (c : Char) :
    Literal.pushUnit ⟨s, none, true⟩ c.toNat = ⟨s.push c, none, true⟩ := by
  have hvalid : c.toNat.isValidChar := c.valid
  unfold Nat.isValidChar at hvalid
  have hlead : Literal.isLead c.toNat = false := by
    simp [Literal.isLead]
    omega
  have htrail : Literal.isTrail c.toNat = false := by
    simp [Literal.isTrail]
    omega
  simp [Literal.pushUnit, hlead, htrail, Char.ofNat_toNat]

theorem pushUnit_pair (s : String) {c : Char} {lead trail : Nat} (hlead : lead < 0x400)
    (htrail : trail < 0x400) (hc : c.toNat = 0x10000 + lead * 0x400 + trail) :
    Literal.pushUnit (Literal.pushUnit ⟨s, none, true⟩ (0xD800 + lead)) (0xDC00 + trail) =
      ⟨s.push c, none, true⟩ := by
  have hisLead : Literal.isLead (0xD800 + lead) = true := by
    simp [Literal.isLead]
    omega
  have hisTrail : Literal.isTrail (0xDC00 + trail) = true := by
    simp [Literal.isTrail]
    omega
  have hvalue :
      0x10000 + (0xD800 + lead - 0xD800) * 0x400 + (0xDC00 + trail - 0xDC00) = c.toNat := by
    omega
  rw [Literal.pushUnit, if_pos hisLead, Literal.pushUnit, if_pos hisTrail, hvalue, Char.ofNat_toNat]

theorem lex_code {ds : List Char} {unit : Nat} (h : IsCode ds unit) (s : Literal)
    (done : Array Token) (rest : List Char) :
    lex ⟨.text s, done⟩ ('\\' :: 'u' :: (ds ++ rest)) =
      lex ⟨.text (s.pushUnit unit), done⟩ rest := by
  cases h with
  | digits first second third fourth =>
    simp only [List.cons_append, List.nil_append, lex_cons, Lexer.step]
    simp [first, second, third, fourth]

theorem lex_short {e c : Char} (h : (e, c) ∈ shortEscapes) (s : String) (done : Array Token)
    (rest : List Char) :
    lex ⟨.text ⟨s, none, true⟩, done⟩ ('\\' :: e :: rest) =
      lex ⟨.text ⟨s.push c, none, true⟩, done⟩ rest := by
  simp only [shortEscapes, List.mem_cons, Prod.mk.injEq, List.not_mem_nil, or_false] at h
  simp only [lex_cons, Lexer.step]
  rcases h with ⟨rfl, rfl⟩ | ⟨rfl, rfl⟩ | ⟨rfl, rfl⟩ | ⟨rfl, rfl⟩ | ⟨rfl, rfl⟩ | ⟨rfl, rfl⟩ |
    ⟨rfl, rfl⟩ | ⟨rfl, rfl⟩
  all_goals simp [Lexer.escaped?, Literal.push]

theorem lex_writesChar {c : Char} {cs : List Char} (h : WritesChar c cs) (s : String)
    (done : Array Token) (rest : List Char) :
    lex ⟨.text ⟨s, none, true⟩, done⟩ (cs ++ rest) =
      lex ⟨.text ⟨s.push c, none, true⟩, done⟩ rest := by
  cases h with
  | plain notQuote notBackslash notControl =>
    apply lex_cons_of_step
    simp [Lexer.step, Literal.push, notQuote, notBackslash, notControl]
  | short listed => exact lex_short listed s done rest
  | code isCode =>
    rw [List.cons_append, List.cons_append, lex_code isCode, pushUnit_toNat]
  | pair isLead isTrail leadFits trailFits value =>
    rw [List.append_assoc, List.cons_append, List.cons_append, List.cons_append, List.cons_append,
      lex_code isLead, lex_code isTrail, pushUnit_pair s leadFits trailFits value]

theorem lex_flatten {chars : List Char} {parts : List (List Char)}
    (h : List.Forall₂ WritesChar chars parts) (s : String) (done : Array Token)
    (rest : List Char) :
    lex ⟨.text ⟨s, none, true⟩, done⟩ (parts.flatten ++ rest) =
      lex ⟨.text ⟨s ++ .ofList chars, none, true⟩, done⟩ rest := by
  induction h generalizing s with
  | nil => simp
  | cons hc hcs ih =>
    rw [List.flatten_cons, List.append_assoc, lex_writesChar hc, ih, String.ofList_cons,
      String.push_eq_append, String.append_assoc]

theorem lex_writesString {s : String} {cs : List Char} (h : WritesString s cs)
    (done : Array Token) (rest : List Char) :
    lex ⟨.between, done⟩ (cs ++ rest) = lex ⟨.between, done.push (.text (some s))⟩ rest := by
  obtain ⟨parts, hparts, rfl⟩ := h
  have hclose : Lexer.step ⟨.text ⟨s, none, true⟩, done⟩ '"' =
      some ⟨.between, done.push (.text (some s))⟩ := by
    simp [Lexer.step, Literal.close]
  rw [List.cons_append, List.append_assoc,
    lex_cons_of_begin (l := ⟨.text ⟨"", none, true⟩, done⟩) rfl, lex_flatten hparts,
    String.empty_append, String.ofList_toList, List.cons_append, lex_cons_of_step hclose]
  rfl

theorem spells_writesString {s : String} {cs : List Char} (h : WritesString s cs) :
    Spells cs [.text (some s)] := by
  intro done rest _
  rw [lex_writesString h]
  simp

theorem hexDigit?_hexDigit : ∀ d < 16, hexDigit? (hexDigit d) = some d := by decide

theorem isCode_of_lt {c : Char} (h : c < ' ') :
    IsCode ['0', '0', hexDigit (c.toNat / 16), hexDigit (c.toNat % 16)] c.toNat := by
  have hc : c.toNat < 32 := h
  have hzero : hexDigit? '0' = some 0 := by decide
  have hcode := IsCode.digits hzero hzero (hexDigit?_hexDigit (c.toNat / 16) (by omega))
    (hexDigit?_hexDigit (c.toNat % 16) (by omega))
  have hvalue : 16 * (16 * (16 * 0 + 0) + c.toNat / 16) + c.toNat % 16 = c.toNat := by omega
  rwa [hvalue] at hcode

theorem writesChar_escape (c : Char) : WritesChar c (escape c) := by
  unfold escape
  split
  case h_8 hquote hslash _ _ _ _ _ =>
    split
    · rename_i hc
      exact .code (isCode_of_lt hc)
    · rename_i hc
      exact .plain hquote hslash hc
  all_goals exact .short (by decide)

theorem writesString_quote (s : String) : WritesString s (quote s) := by
  refine ⟨s.toList.map escape, ?_, ?_⟩
  · rw [List.forall₂_map_right_iff, List.forall₂_same]
    intro c _
    exact writesChar_escape c
  · rw [quote, List.flatMap_def, List.cons_append]

end EngineBridge.Json
