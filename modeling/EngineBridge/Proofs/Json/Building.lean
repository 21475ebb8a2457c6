import EngineBridge.Json.Tree

/-! Trees and their tokens. A tree is built from its own tokens exactly, however deep it nests. -/
namespace EngineBridge.Json

namespace Tree

mutual

def tokens : Tree → List Token
  | .null => [.null]
  | .bool b => [.bool b]
  | .number n => [.number n]
  | .text s => [.text s]
  | .list items => .openList :: (itemTokens items ++ [.closeList])
  | .object fields => .openObject :: (fieldTokens fields ++ [.closeObject])

def itemTokens : List Tree → List Token
  | [] => []
  | [tree] => tree.tokens
  | tree :: rest => tree.tokens ++ .comma :: itemTokens rest

def fieldTokens : List (Option String × Tree) → List Token
  | [] => []
  | [(name, tree)] => .text name :: .colon :: tree.tokens
  | (name, tree) :: rest => .text name :: .colon :: (tree.tokens ++ .comma :: fieldTokens rest)

end

theorem itemTokens_cons_cons (tree other : Tree) (rest : List Tree) :
    itemTokens (tree :: other :: rest) = tree.tokens ++ .comma :: itemTokens (other :: rest) := by
  rw [itemTokens]
  simp

theorem fieldTokens_cons_cons (name : Option String) (tree : Tree) (other : Option String × Tree)
    (rest : List (Option String × Tree)) :
    fieldTokens ((name, tree) :: other :: rest) =
      .text name :: .colon :: (tree.tokens ++ .comma :: fieldTokens (other :: rest)) := by
  rw [fieldTokens]
  simp

end Tree

def build (b : Builder) (tokens : List Token) : Option Tree :=
  (tokens.foldlM Builder.step b).bind Builder.close

theorem build_cons (b : Builder) (token : Token) (tokens : List Token) :
    build b (token :: tokens) = (b.step token).bind (build · tokens) := by
  unfold build
  rw [List.foldlM_cons]
  cases b.step token <;> rfl

theorem build_cons_of_step {b c : Builder} {token : Token} (h : b.step token = some c)
    (tokens : List Token) : build b (token :: tokens) = build c tokens := by
  rw [build_cons, h]
  rfl

theorem build_valueOrClose (tree : Tree) (stack : List Open) (rest : List Token) :
    build (.partly .valueOrClose stack) (tree.tokens ++ rest) =
      build (.partly .value stack) (tree.tokens ++ rest) := by
  cases tree <;> rw [Tree.tokens, List.cons_append, build_cons, build_cons] <;> rfl

theorem build_nameOrClose (field : Option String × Tree) (fields : List (Option String × Tree))
    (stack : List Open) (rest : List Token) :
    build (.partly .nameOrClose stack) (Tree.fieldTokens (field :: fields) ++ rest) =
      build (.partly .name stack) (Tree.fieldTokens (field :: fields) ++ rest) := by
  cases fields with
  | nil =>
    rw [Tree.fieldTokens, List.cons_append, build_cons, build_cons]
    rfl
  | cons other fields =>
    rw [Tree.fieldTokens_cons_cons, List.cons_append, build_cons, build_cons]
    rfl

theorem build_closeList (items : List Tree) (outer : List Open) (rest : List Token) :
    build (.partly .commaOrClose (.list items :: outer)) (.closeList :: rest) =
      (Builder.deliver (.list items.reverse) outer).bind (build · rest) :=
  build_cons _ _ _

theorem build_closeObject (fields : List (Option String × Tree)) (outer : List Open)
    (rest : List Token) :
    build (.partly .commaOrClose (.object fields :: outer)) (.closeObject :: rest) =
      (Builder.deliver (.object fields.reverse) outer).bind (build · rest) :=
  build_cons _ _ _

mutual

/-- A value is read as a whole and goes into what encloses it. -/
theorem build_tokens : ∀ (tree : Tree) (stack : List Open) (rest : List Token),
    build (.partly .value stack) (tree.tokens ++ rest) =
      (Builder.deliver tree stack).bind (build · rest)
  | .null, _, _ | .bool _, _, _ | .number _, _, _ | .text _, _, _ => by
    rw [Tree.tokens, List.cons_append, build_cons]
    rfl
  | .list [], stack, rest => by
    rw [Tree.tokens, List.cons_append,
      build_cons_of_step (c := .partly .valueOrClose (.list [] :: stack)) rfl]
    exact build_cons _ _ _
  | .list (tree :: items), stack, rest => by
    have hitems := build_itemTokens (tree :: items) [] stack (.closeList :: rest) (by simp)
    rw [Tree.tokens, List.cons_append,
      build_cons_of_step (c := .partly .valueOrClose (.list [] :: stack)) rfl,
      List.append_assoc, List.cons_append, List.nil_append]
    calc
      _ = build (.partly .value (.list [] :: stack))
            (Tree.itemTokens (tree :: items) ++ .closeList :: rest) := by
        cases items with
        | nil => exact build_valueOrClose tree _ _
        | cons other items =>
          rw [Tree.itemTokens_cons_cons, List.append_assoc]
          exact build_valueOrClose tree _ _
      _ = _ := by
        rw [hitems, build_closeList]
        simp
  | .object [], stack, rest => by
    rw [Tree.tokens, List.cons_append,
      build_cons_of_step (c := .partly .nameOrClose (.object [] :: stack)) rfl]
    exact build_cons _ _ _
  | .object (field :: fields), stack, rest => by
    have hfields := build_fieldTokens (field :: fields) [] stack (.closeObject :: rest) (by simp)
    rw [Tree.tokens, List.cons_append,
      build_cons_of_step (c := .partly .nameOrClose (.object [] :: stack)) rfl,
      List.append_assoc, List.cons_append, List.nil_append, build_nameOrClose, hfields,
      build_closeObject]
    simp

theorem build_itemTokens : ∀ (items done : List Tree) (outer : List Open) (rest : List Token),
    items ≠ [] → build (.partly .value (.list done :: outer)) (Tree.itemTokens items ++ rest) =
      build (.partly .commaOrClose (.list (items.reverse ++ done) :: outer)) rest
  | [], _, _, _, h => absurd rfl h
  | [tree], done, outer, rest, _ => by
    rw [Tree.itemTokens, build_tokens tree]
    rfl
  | tree :: other :: items, done, outer, rest, _ => by
    have hitems := build_itemTokens (other :: items) (tree :: done) outer rest (by simp)
    rw [Tree.itemTokens_cons_cons, List.append_assoc, build_tokens tree]
    calc
      _ = build (.partly .commaOrClose (.list (tree :: done) :: outer))
            (.comma :: (Tree.itemTokens (other :: items) ++ rest)) := rfl
      _ = build (.partly .value (.list (tree :: done) :: outer))
            (Tree.itemTokens (other :: items) ++ rest) := build_cons_of_step rfl _
      _ = _ := by
        rw [hitems]
        simp

theorem build_fieldTokens : ∀ (fields done : List (Option String × Tree)) (outer : List Open)
    (rest : List Token),
    fields ≠ [] → build (.partly .name (.object done :: outer)) (Tree.fieldTokens fields ++ rest) =
      build (.partly .commaOrClose (.object (fields.reverse ++ done) :: outer)) rest
  | [], _, _, _, h => absurd rfl h
  | [(name, tree)], done, outer, rest, _ => by
    rw [Tree.fieldTokens, List.cons_append,
      build_cons_of_step (c := .partly .colon (.field done name :: outer)) rfl, List.cons_append,
      build_cons_of_step (c := .partly .value (.field done name :: outer)) rfl, build_tokens tree]
    rfl
  | (name, tree) :: other :: fields, done, outer, rest, _ => by
    have hfields := build_fieldTokens (other :: fields) ((name, tree) :: done) outer rest (by simp)
    rw [Tree.fieldTokens_cons_cons, List.cons_append,
      build_cons_of_step (c := .partly .colon (.field done name :: outer)) rfl, List.cons_append,
      build_cons_of_step (c := .partly .value (.field done name :: outer)) rfl, List.append_assoc,
      build_tokens tree]
    calc
      _ = build (.partly .commaOrClose (.object ((name, tree) :: done) :: outer))
            (.comma :: (Tree.fieldTokens (other :: fields) ++ rest)) := rfl
      _ = build (.partly .name (.object ((name, tree) :: done) :: outer))
            (Tree.fieldTokens (other :: fields) ++ rest) := build_cons_of_step rfl _
      _ = _ := by
        rw [hfields]
        simp

end

theorem Tree.ofTokens?_tokens (tree : Tree) : Tree.ofTokens? tree.tokens = some tree := by
  have h := build_tokens tree [] []
  rw [List.append_nil] at h
  exact h

end EngineBridge.Json
