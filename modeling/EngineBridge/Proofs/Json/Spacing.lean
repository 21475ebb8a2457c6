import EngineBridge.Proofs.Json.Building
import EngineBridge.Proofs.Json.Grammar
import EngineBridge.Proofs.Json.Quoted
import Mathlib.Data.List.Chain

/-! JSON text with blanks between its tokens. Any blanks may stand before, between and after them,
and two tokens may touch wherever JSON lets them follow each other. -/
namespace EngineBridge.Json

/-- The ways to write a token. A number is an integer. -/
inductive WritesToken : Token → List Char → Prop where
  | openList : WritesToken .openList ['[']
  | closeList : WritesToken .closeList [']']
  | openObject : WritesToken .openObject ['\x7b']
  | closeObject : WritesToken .closeObject ['\x7d']
  | comma : WritesToken .comma [',']
  | colon : WritesToken .colon [':']
  | null : WritesToken .null ['n', 'u', 'l', 'l']
  | yes : WritesToken (.bool true) ['t', 'r', 'u', 'e']
  | no : WritesToken (.bool false) ['f', 'a', 'l', 's', 'e']
  | int (n : Int) : WritesToken (.number (.ofInt n)) (toString n).toList
  | text {s : String} {cs : List Char} (written : WritesString s cs) :
    WritesToken (.text (some s)) cs

/-- Tokens one after the other, written in one of the ways that `W` allows, with blanks around
each. -/
inductive SpacedBy (W : Token → List Char → Prop) : List Token → List Char → Prop where
  | nil {blanks : List Char} (areBlank : ∀ c ∈ blanks, isBlank c) : SpacedBy W [] blanks
  | cons {token : Token} {tokens : List Token} {blanks cs rest : List Char}
      (areBlank : ∀ c ∈ blanks, isBlank c) (written : W token cs)
      (spaced : SpacedBy W tokens rest) : SpacedBy W (token :: tokens) (blanks ++ (cs ++ rest))

namespace SpacedBy

variable {W : Token → List Char → Prop} {tokens others : List Token} {cs rest : List Char}

theorem single {token : Token} (h : W token cs) : SpacedBy W [token] cs := by
  have hnone : ∀ c ∈ ([] : List Char), isBlank c := nofun
  have hspaced := SpacedBy.cons hnone h (.nil hnone)
  rwa [List.nil_append, List.append_nil] at hspaced

theorem blanks_append {blanks : List Char} (hblanks : ∀ c ∈ blanks, isBlank c)
    (h : SpacedBy W tokens rest) : SpacedBy W tokens (blanks ++ rest) := by
  cases h with
  | nil areBlank => exact .nil (List.forall_mem_append.mpr ⟨hblanks, areBlank⟩)
  | cons areBlank written spaced =>
    rw [← List.append_assoc]
    exact .cons (List.forall_mem_append.mpr ⟨hblanks, areBlank⟩) written spaced

theorem append (h : SpacedBy W tokens cs) (ho : SpacedBy W others rest) :
    SpacedBy W (tokens ++ others) (cs ++ rest) := by
  induction h with
  | nil areBlank => exact ho.blanks_append areBlank
  | cons areBlank written spaced ih =>
    rw [List.append_assoc, List.append_assoc]
    exact .cons areBlank written ih

theorem mono {V : Token → List Char → Prop} (h : SpacedBy W tokens cs)
    (hmono : ∀ token cs, W token cs → V token cs) : SpacedBy V tokens cs := by
  induction h with
  | nil areBlank => exact .nil areBlank
  | cons areBlank written spaced ih => exact .cons areBlank (hmono _ _ written) ih

end SpacedBy

abbrev Spaced : List Token → List Char → Prop := SpacedBy WritesToken

inductive Writes : Token → List Char → Prop where
  | plain {token : Token} {cs : List Char} (written : WritesToken token cs) : Writes token cs
  | numeral {n : Numeral} {cs : List Char} (written : WritesNumeral n cs) : Writes (.number n) cs

abbrev Written : List Token → List Char → Prop := SpacedBy Writes

theorem Spaced.written {tokens : List Token} {cs : List Char} (h : Spaced tokens cs) :
    Written tokens cs :=
  h.mono fun _ _ => .plain

theorem begin_of_isBlank {c : Char} (h : isBlank c) (done : Array Token) :
    Lexer.begin done c = some ⟨.between, done⟩ := by
  simp only [isBlank, Bool.or_eq_true, decide_eq_true_eq] at h
  rcases h with ((rfl | rfl) | rfl) | rfl
  all_goals rfl

theorem lex_blanks {blanks : List Char} (h : ∀ c ∈ blanks, isBlank c) (done : Array Token)
    (rest : List Char) :
    lex ⟨.between, done⟩ (blanks ++ rest) = lex ⟨.between, done⟩ rest := by
  induction blanks with
  | nil => rfl
  | cons c blanks ih =>
    rw [List.cons_append, lex_cons_of_begin (begin_of_isBlank (h c List.mem_cons_self) done)]
    exact ih fun d hd => h d (List.mem_cons_of_mem _ hd)

theorem endsNumeral_blanks {blanks : List Char} (h : ∀ c ∈ blanks, isBlank c) :
    EndsNumeral blanks := by
  intro c hc
  have hblank := h c (List.mem_of_mem_head? hc)
  simp only [isBlank, Bool.or_eq_true, decide_eq_true_eq] at hblank
  rcases hblank with ((rfl | rfl) | rfl) | rfl
  all_goals decide

/-- Brackets, commas and colons. A number can stand right after these only. -/
def Token.isMark : Token → Bool
  | .openList | .closeList | .openObject | .closeObject | .comma | .colon => true
  | .null | .bool _ | .number _ | .text _ => false

def Token.isNumber : Token → Bool
  | .number _ => true
  | _ => false

theorem WritesToken.endsNumeral {token : Token} {cs : List Char} (h : WritesToken token cs)
    (hnumber : token.isNumber = false) (rest : List Char) : EndsNumeral (cs ++ rest) := by
  cases h with
  | int n => cases hnumber
  | text written =>
    obtain ⟨parts, -, rfl⟩ := written
    exact endsNumeral_cons rfl _
  | openList | closeList | openObject | closeObject | comma | colon | null | yes | no =>
    exact endsNumeral_cons rfl _

theorem WritesToken.spells {token : Token} {cs : List Char} (h : WritesToken token cs) :
    Spells cs [token] := by
  cases h with
  | openList | closeList | openObject | closeObject | comma | colon =>
    exact spells_mark fun _ => rfl
  | null | yes | no => exact spells_word (by simp) fun _ => rfl
  | int n => exact spells_int n
  | text written => exact spells_writesString written

theorem WritesToken.lex_mark {token : Token} {cs : List Char} (h : WritesToken token cs)
    (hmark : token.isMark) (done : Array Token) (rest : List Char) :
    lex ⟨.between, done⟩ (cs ++ rest) = lex ⟨.between, done.push token⟩ rest := by
  cases h with
  | openList | closeList | openObject | closeObject | comma | colon => exact lex_cons_of_begin rfl _
  | null | yes | no | int | text => cases hmark

theorem Writes.endsNumeral {token : Token} {cs : List Char} (h : Writes token cs)
    (hnumber : token.isNumber = false) (rest : List Char) : EndsNumeral (cs ++ rest) := by
  cases h with
  | plain written => exact written.endsNumeral hnumber rest
  | numeral => cases hnumber

theorem Writes.spells {token : Token} {cs : List Char} (h : Writes token cs) :
    Spells cs [token] := by
  cases h with
  | plain written => exact written.spells
  | numeral written => exact written.spells

theorem Writes.lex_mark {token : Token} {cs : List Char} (h : Writes token cs)
    (hmark : token.isMark) (done : Array Token) (rest : List Char) :
    lex ⟨.between, done⟩ (cs ++ rest) = lex ⟨.between, done.push token⟩ rest := by
  cases h with
  | plain written => exact written.lex_mark hmark done rest
  | numeral => cases hmark

def Token.MayFollow (token next : Token) : Prop := token.isMark ∨ next.isNumber = false

theorem endsNumeral_of_written {tokens : List Token} {cs : List Char} (h : Written tokens cs)
    (hfirst : ∀ token ∈ tokens.head?, token.isNumber = false) : EndsNumeral cs := by
  cases h with
  | nil areBlank => exact endsNumeral_blanks areBlank
  | cons areBlank written spaced =>
    exact (endsNumeral_blanks areBlank).append (written.endsNumeral (hfirst _ rfl) _)

theorem spells_of_written {tokens : List Token} {cs : List Char} (h : Written tokens cs)
    (hchain : tokens.IsChain Token.MayFollow) : Spells cs tokens := by
  induction h with
  | nil areBlank =>
    intro done rest _
    rw [lex_blanks areBlank]
    simp
  | cons areBlank written spaced ih =>
    rename_i token tokens blanks cs more
    intro done rest hrest
    obtain ⟨hnext, htokens⟩ := List.isChain_cons.mp hchain
    have hlex : lex ⟨.between, done⟩ (cs ++ (more ++ rest)) =
        lex ⟨.between, done.push token⟩ (more ++ rest) := by
      -- After a mark anything may come, even a number. Else what comes must end a number.
      by_cases hmark : token.isMark
      · exact written.lex_mark hmark done _
      · have hends : EndsNumeral more := endsNumeral_of_written spaced fun next hhead =>
          (hnext next hhead).resolve_left hmark
        rw [written.spells done _ (hends.append hrest)]
        simp
    rw [List.append_assoc, lex_blanks areBlank, List.append_assoc, hlex, ih htokens _ rest hrest]
    simp

theorem isChain_mark_cons {mark : Token} (hmark : mark.isMark) {tokens : List Token}
    (h : tokens.IsChain Token.MayFollow) : (mark :: tokens).IsChain Token.MayFollow :=
  List.isChain_cons.mpr ⟨fun _ _ => .inl hmark, h⟩

theorem isChain_append_mark {mark : Token} (hmark : mark.isMark) {tokens others : List Token}
    (h : tokens.IsChain Token.MayFollow) (ho : others.IsChain Token.MayFollow) :
    (tokens ++ mark :: others).IsChain Token.MayFollow := by
  refine List.isChain_append.mpr ⟨h, isChain_mark_cons hmark ho, ?_⟩
  intro token _ next hnext
  obtain rfl : mark = next := Option.some.inj hnext
  cases mark with
  | openList | closeList | openObject | closeObject | comma | colon => exact .inr rfl
  | null | bool | number | text => cases hmark

theorem isChain_name_cons (name : Option String) {tokens : List Token}
    (h : tokens.IsChain Token.MayFollow) :
    (.text name :: .colon :: tokens).IsChain Token.MayFollow := by
  have hname : [Token.text name].IsChain Token.MayFollow := List.isChain_singleton _
  have hcolon : Token.isMark .colon := rfl
  exact isChain_append_mark hcolon hname h

namespace Tree

mutual

theorem isChain_tokens : ∀ t : Tree, t.tokens.IsChain Token.MayFollow
  | .null | .bool _ | .number _ | .text _ => by
    rw [tokens]
    exact List.isChain_singleton _
  | .list items => by
    rw [tokens]
    exact isChain_mark_cons rfl (isChain_append_mark rfl (isChain_itemTokens items) .nil)
  | .object fields => by
    rw [tokens]
    exact isChain_mark_cons rfl (isChain_append_mark rfl (isChain_fieldTokens fields) .nil)

theorem isChain_itemTokens : ∀ items : List Tree, (itemTokens items).IsChain Token.MayFollow
  | [] => by
    rw [itemTokens]
    exact .nil
  | [tree] => by
    rw [itemTokens]
    exact isChain_tokens tree
  | tree :: other :: rest => by
    rw [itemTokens_cons_cons]
    exact isChain_append_mark rfl (isChain_tokens tree) (isChain_itemTokens (other :: rest))

theorem isChain_fieldTokens : ∀ fields : List (Option String × Tree),
    (fieldTokens fields).IsChain Token.MayFollow
  | [] => by
    rw [fieldTokens]
    exact .nil
  | [(name, tree)] => by
    rw [fieldTokens]
    exact isChain_name_cons name (isChain_tokens tree)
  | (name, tree) :: other :: rest => by
    rw [fieldTokens_cons_cons]
    exact isChain_name_cons name
      (isChain_append_mark rfl (isChain_tokens tree) (isChain_fieldTokens (other :: rest)))

end

/-- A text of the tokens of a tree has the structure of the tree, however it is written. -/
theorem ofText?_of_written {t : Tree} {text : String} (h : Written t.tokens text.toList) :
    ofText? text = some t := by
  unfold ofText?
  rw [(spells_of_written h t.isChain_tokens).ofText?]
  exact ofTokens?_tokens t

theorem ofText?_of_spaced {t : Tree} {text : String} (h : Spaced t.tokens text.toList) :
    ofText? text = some t :=
  ofText?_of_written h.written

end Tree

end EngineBridge.Json
