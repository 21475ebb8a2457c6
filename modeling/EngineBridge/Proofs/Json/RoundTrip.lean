import EngineBridge.Proofs.Json.Spacing

/-! Printed values are read back. This holds of every value whose numbers are integers of 64 bits
and that does not nest deeper than the reader goes. -/
namespace EngineBridge.Json

mutual

/-- Whether all numbers in a value are integers that fit 64 bits, with or without a sign. -/
def IsExact : Json → Prop
  | .null | .bool _ | .text _ => True
  | .int n => -0x8000000000000000 ≤ n ∧ n < 0x10000000000000000
  | .float _ => False
  | .list items => AreExact items
  | .object fields => FieldsExact fields

def AreExact : List Json → Prop
  | [] => True
  | item :: rest => item.IsExact ∧ AreExact rest

def FieldsExact : List (String × Json) → Prop
  | [] => True
  | (_, v) :: rest => v.IsExact ∧ FieldsExact rest

end

mutual

def IsOrdered : Json → Prop
  | .null | .bool _ | .int _ | .float _ | .text _ => True
  | .list items => AreOrdered items
  | .object fields => (fields.map Prod.fst).Pairwise (· < ·) ∧ FieldsOrdered fields

def AreOrdered : List Json → Prop
  | [] => True
  | item :: rest => item.IsOrdered ∧ AreOrdered rest

def FieldsOrdered : List (String × Json) → Prop
  | [] => True
  | (_, v) :: rest => v.IsOrdered ∧ FieldsOrdered rest

end

mutual

def depth : Json → Nat
  | .null | .bool _ | .int _ | .float _ | .text _ => 0
  | .list items => itemsDepth items + 1
  | .object fields => fieldsDepth fields + 1

def itemsDepth : List Json → Nat
  | [] => 0
  | item :: rest => max item.depth (itemsDepth rest)

def fieldsDepth : List (String × Json) → Nat
  | [] => 0
  | (_, v) :: rest => max v.depth (fieldsDepth rest)

end

theorem itemsDepth_le_iff {items : List Json} {n : Nat} :
    itemsDepth items ≤ n ↔ ∀ v ∈ items, v.depth ≤ n := by
  induction items with
  | nil => simp [itemsDepth]
  | cons item rest ih => rw [itemsDepth, Nat.max_le, ih, List.forall_mem_cons]

mutual

/-- The structure of a value's text. A float has the one that its own text has. -/
def tree : Json → Tree
  | .null => .null
  | .bool b => .bool b
  | .int n => .number (.ofInt n)
  | .float x => ((Numeral.parse? (renderFloat x).toList).map Tree.number).getD .null
  | .text s => .text (some s)
  | .list items => .list (trees items)
  | .object fields => .object (fieldTrees fields)

def trees : List Json → List Tree
  | [] => []
  | item :: rest => item.tree :: trees rest

def fieldTrees : List (String × Json) → List (Option String × Tree)
  | [] => []
  | (name, v) :: rest => (some name, v.tree) :: fieldTrees rest

end

theorem itemChars_cons_cons (item other : Json) (rest : List Json) :
    itemChars (item :: other :: rest) = item.chars ++ ',' :: itemChars (other :: rest) := by
  rw [itemChars]
  simp

theorem fieldChars_cons_cons (name : String) (v : Json) (other : String × Json)
    (rest : List (String × Json)) :
    fieldChars ((name, v) :: other :: rest) =
      quote name ++ ':' :: (v.chars ++ ',' :: fieldChars (other :: rest)) := by
  rw [fieldChars]
  · simp
  · simp

mutual

theorem spaced_chars : ∀ v : Json, v.IsExact → Spaced v.tree.tokens v.chars
  | .null, _ => .single .null
  | .bool true, _ => .single .yes
  | .bool false, _ => .single .no
  | .int n, _ => .single (.int n)
  | .float _, h => h.elim
  | .text s, _ => .single (.text (writesString_quote s))
  | .list items, h => by
    have hitems := spaced_itemChars items h
    rw [chars, tree, Tree.tokens, List.cons_append]
    exact (SpacedBy.single WritesToken.openList).append (hitems.append (.single .closeList))
  | .object fields, h => by
    have hfields := spaced_fieldChars fields h
    rw [chars, tree, Tree.tokens, List.cons_append]
    exact (SpacedBy.single WritesToken.openObject).append (hfields.append (.single .closeObject))

theorem spaced_itemChars : ∀ items : List Json, AreExact items →
    Spaced (Tree.itemTokens (trees items)) (itemChars items)
  | [], _ => .nil nofun
  | [item], h => by
    rw [itemChars, trees, trees, Tree.itemTokens]
    exact spaced_chars item h.1
  | item :: other :: rest, h => by
    have hitem := spaced_chars item h.1
    have hrest := spaced_itemChars (other :: rest) h.2
    rw [itemChars_cons_cons, trees, trees, Tree.itemTokens_cons_cons, ← trees]
    exact hitem.append ((SpacedBy.single WritesToken.comma).append hrest)

theorem spaced_fieldChars : ∀ fields : List (String × Json), FieldsExact fields →
    Spaced (Tree.fieldTokens (fieldTrees fields)) (fieldChars fields)
  | [], _ => .nil nofun
  | [(name, v)], h => by
    have hname := SpacedBy.single (WritesToken.text (writesString_quote name))
    have hv := spaced_chars v h.1
    rw [fieldChars, fieldTrees, fieldTrees, Tree.fieldTokens]
    exact hname.append ((SpacedBy.single WritesToken.colon).append hv)
  | (name, v) :: other :: rest, h => by
    have hname := SpacedBy.single (WritesToken.text (writesString_quote name))
    have hv := spaced_chars v h.1
    have hrest := spaced_fieldChars (other :: rest) h.2
    rw [fieldChars_cons_cons, fieldTrees, fieldTrees, Tree.fieldTokens_cons_cons, ← fieldTrees]
    exact hname.append ((SpacedBy.single WritesToken.colon).append (hv.append
      ((SpacedBy.single WritesToken.comma).append hrest)))

end

theorem ofText?_render {v : Json} (h : v.IsExact) : Tree.ofText? v.render = some v.tree := by
  apply Tree.ofText?_of_spaced
  rw [render, String.toList_ofList]
  exact spaced_chars v h

theorem setField_of_forall_lt {name : String} (v : Json) {fields : List (String × Json)}
    (h : ∀ other ∈ fields.map Prod.fst, other < name) :
    setField name v fields = fields ++ [(name, v)] := by
  induction fields with
  | nil => rfl
  | cons field rest ih =>
    obtain ⟨other, w⟩ := field
    have hother : other < name := h other List.mem_cons_self
    have hne : name ≠ other := by
      rintro rfl
      exact String.lt_irrefl name hother
    rw [setField, if_neg (String.lt_asymm hother), if_neg hne,
      ih fun other h' => h other (List.mem_cons_of_mem _ h')]
    rfl

theorem foldl_setField {fields done : List (String × Json)}
    (h : ((done ++ fields).map Prod.fst).Pairwise (· < ·)) :
    fields.foldl (fun done (name, value) => setField name value done) done = done ++ fields := by
  induction fields generalizing done with
  | nil => simp
  | cons field rest ih =>
    obtain ⟨name, v⟩ := field
    have hlast : ∀ other ∈ done.map Prod.fst, other < name := by
      rw [List.map_append, List.pairwise_append] at h
      exact fun other hother => h.2.2 other hother name List.mem_cons_self
    simp only [List.foldl_cons]
    rw [setField_of_forall_lt v hlast, ih (by simpa using h)]
    simp

theorem ofFields_of_pairwise {fields : List (String × Json)}
    (h : (fields.map Prod.fst).Pairwise (· < ·)) : ofFields fields = .object fields := by
  unfold ofFields
  rw [foldl_setField (by simpa using h)]
  rfl

mutual

/-- The value that is read from the text of a value. The fields of its objects may have been in any
order, and of several fields of one name the last is kept. -/
def ordered : Json → Json
  | .null => .null
  | .bool b => .bool b
  | .int n => .int n
  | .float x => .float x
  | .text s => .text s
  | .list items => .list (orderedItems items)
  | .object fields => .ofFields (orderedFields fields)

def orderedItems : List Json → List Json
  | [] => []
  | item :: rest => item.ordered :: orderedItems rest

def orderedFields : List (String × Json) → List (String × Json)
  | [] => []
  | (name, v) :: rest => (name, v.ordered) :: orderedFields rest

end

theorem orderedItems_eq_map (items : List Json) : orderedItems items = items.map ordered := by
  induction items with
  | nil => rfl
  | cons item rest ih => rw [orderedItems, ih, List.map_cons]

mutual

theorem ordered_of_isOrdered : ∀ v : Json, v.IsOrdered → v.ordered = v
  | .null, _ | .bool _, _ | .int _, _ | .float _, _ | .text _, _ => by rw [ordered]
  | .list items, h => by rw [ordered, orderedItems_of_areOrdered items h]
  | .object fields, h => by
    rw [ordered, orderedFields_of_fieldsOrdered fields h.2, ofFields_of_pairwise h.1]

theorem orderedItems_of_areOrdered : ∀ items : List Json, AreOrdered items →
    orderedItems items = items
  | [], _ => by rw [orderedItems]
  | item :: rest, h => by
    rw [orderedItems, ordered_of_isOrdered item h.1, orderedItems_of_areOrdered rest h.2]

theorem orderedFields_of_fieldsOrdered : ∀ fields : List (String × Json), FieldsOrdered fields →
    orderedFields fields = fields
  | [], _ => by rw [orderedFields]
  | (name, v) :: rest, h => by
    rw [orderedFields, ordered_of_isOrdered v h.1, orderedFields_of_fieldsOrdered rest h.2]

end

mutual

theorem value?_tree : ∀ (v : Json) (n : Nat), v.IsExact →
    v.tree.value? n = if v.depth ≤ n then some v.ordered else none
  | .null, n, _ | .bool _, n, _ | .text _, n, _ => by simp [tree, Tree.value?, depth, ordered]
  | .int i, n, h => by simp [tree, Tree.value?, depth, ordered, Numeral.value?_ofInt h.1 h.2]
  | .float _, _, h => h.elim
  | .list items, n, h => by
    rw [tree, Tree.value?, depth, ordered]
    cases n with
    | zero => simp
    | succ n =>
      rw [if_neg (by omega), Nat.add_sub_cancel, values?_trees items n h]
      simp only [Nat.add_le_add_iff_right]
      split <;> rfl
  | .object fields, n, h => by
    rw [tree, Tree.value?, depth, ordered]
    cases n with
    | zero => simp
    | succ n =>
      rw [if_neg (by omega), Nat.add_sub_cancel, fields?_fieldTrees fields n h]
      simp only [Nat.add_le_add_iff_right]
      split <;> rfl

theorem values?_trees : ∀ (items : List Json) (n : Nat), AreExact items →
    Tree.values? n (trees items) = if itemsDepth items ≤ n then some (orderedItems items) else none
  | [], n, _ => by simp [trees, Tree.values?, itemsDepth, orderedItems]
  | item :: rest, n, h => by
    rw [trees, Tree.values?, value?_tree item n h.1, values?_trees rest n h.2, itemsDepth,
      orderedItems]
    simp only [Nat.max_le]
    by_cases hitem : item.depth ≤ n <;> by_cases hrest : itemsDepth rest ≤ n <;>
      simp [hitem, hrest]

theorem fields?_fieldTrees : ∀ (fields : List (String × Json)) (n : Nat), FieldsExact fields →
    Tree.fields? n (fieldTrees fields) =
      if fieldsDepth fields ≤ n then some (orderedFields fields) else none
  | [], n, _ => by simp [fieldTrees, Tree.fields?, fieldsDepth, orderedFields]
  | (name, v) :: rest, n, h => by
    rw [fieldTrees, Tree.fields?, value?_tree v n h.1, fields?_fieldTrees rest n h.2, fieldsDepth,
      orderedFields]
    simp only [Nat.max_le]
    by_cases hv : v.depth ≤ n <;> by_cases hrest : fieldsDepth rest ≤ n <;>
      simp [hv, hrest]

end

end EngineBridge.Json
