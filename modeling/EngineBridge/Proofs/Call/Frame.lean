import EngineBridge.Proofs.Call.Message

/-! Which JSON texts are frames. The fields of a frame may stand in any order, with any others among
them and any blanks between, and the others may hold anything at any depth. -/
namespace EngineBridge

namespace Json

variable {v : Json}

theorem tree_eq_text {s : String} : v.tree = .text (some s) ↔ v = .text s := by
  cases v with
  | float x =>
    rw [tree]
    cases Numeral.parse? (renderFloat x).toList <;> simp
  | null | bool | int | text | list | object => simp [tree]

theorem tree_eq_list {items : List Tree} :
    v.tree = .list items ↔ ∃ vs, v = .list vs ∧ trees vs = items := by
  cases v with
  | float x =>
    rw [tree]
    cases Numeral.parse? (renderFloat x).toList <;> simp
  | null | bool | int | text | list | object => simp [tree]

theorem isExact_of_mem {fields : List (String × Json)} (h : FieldsExact fields)
    {field : String × Json} (hmem : field ∈ fields) : field.2.IsExact := by
  induction fields with
  | nil => cases hmem
  | cons other rest ih =>
    obtain ⟨hother, hrest⟩ := h
    rcases List.mem_cons.mp hmem with rfl | hmem
    · exact hother
    · exact ih hrest hmem

theorem trees_eq_map (items : List Json) : trees items = items.map tree := by
  induction items with
  | nil => rfl
  | cons item rest ih => rw [trees, ih, List.map_cons]

theorem all_isSome_fieldTrees (fields : List (String × Json)) :
    (fieldTrees fields).all (·.1.isSome) = true := by
  induction fields with
  | nil => rfl
  | cons field rest ih =>
    rw [fieldTrees, List.all_cons, ih]
    rfl

end Json

namespace Message

/-- Which message a JSON value is the frame of. Exactly one field names the method and at most one
lists the arguments, which may nest 125 levels each. In a list the two stand in this order. -/
inductive IsFrame : Json → Message → Prop where
  | fields {fields : List (String × Json)} {method : String}
      (hasMethod : fields.filter (·.1 = "method") = [("method", .text method)])
      (hasNoArgs : fields.filter (·.1 = "args") = []) : IsFrame (.object fields) ⟨method, []⟩
  | fieldsWithArgs {fields : List (String × Json)} {method : String} {args : List Json}
      (hasMethod : fields.filter (·.1 = "method") = [("method", .text method)])
      (hasArgs : fields.filter (·.1 = "args") = [("args", .list args)])
      (fits : ∀ v ∈ args, v.depth ≤ 125) : IsFrame (.object fields) ⟨method, args.map Json.ordered⟩
  | list (method : String) : IsFrame (.list [.text method]) ⟨method, []⟩
  | listWithArgs (method : String) {args : List Json} (fits : ∀ v ∈ args, v.depth ≤ 125) :
      IsFrame (.list [.text method, .list args]) ⟨method, args.map Json.ordered⟩

theorem named_fieldTrees (name : String) (fields : List (String × Json)) :
    named name (Json.fieldTrees fields) =
      (fields.filter (·.1 = name)).map fun field => field.2.tree := by
  induction fields with
  | nil => rfl
  | cons field rest ih =>
    obtain ⟨other, v⟩ := field
    have hhead : named name ((some other, v.tree) :: Json.fieldTrees rest) =
        (if other = name then [v.tree] else []) ++ named name (Json.fieldTrees rest) := by
      by_cases hname : other = name <;> simp [named, hname]
    rw [Json.fieldTrees, hhead, ih]
    by_cases hname : other = name <;> simp [hname]

theorem named_eq_nil {name : String} {fields : List (String × Json)} :
    named name (Json.fieldTrees fields) = [] ↔ fields.filter (·.1 = name) = [] := by
  rw [named_fieldTrees, List.map_eq_nil_iff]

theorem named_eq_singleton {name : String} {fields : List (String × Json)} {t : Json.Tree} :
    named name (Json.fieldTrees fields) = [t] ↔
      ∃ v : Json, fields.filter (·.1 = name) = [(name, v)] ∧ v.tree = t := by
  rw [named_fieldTrees, List.map_eq_singleton_iff]
  constructor
  · rintro ⟨⟨other, v⟩, hfilter, htree⟩
    have hmem : (other, v) ∈ fields.filter (·.1 = name) := hfilter ▸ List.mem_singleton_self _
    obtain rfl : other = name := of_decide_eq_true (List.mem_filter.mp hmem).2
    exact ⟨v, hfilter, htree⟩
  · rintro ⟨v, hfilter, htree⟩
    exact ⟨(name, v), hfilter, htree⟩

theorem mem_of_filter {fields : List (String × Json)} {name : String} {field : String × Json}
    (h : fields.filter (·.1 = name) = [field]) : field ∈ fields :=
  (List.mem_filter.mp (h ▸ List.mem_singleton_self field)).1

theorem withArgs?_trees {method : String} {args : List Json} {m : Message}
    (h : Json.AreExact args) :
    withArgs? method (Json.trees args) = some m ↔
      (∀ v ∈ args, v.depth ≤ 125) ∧ ⟨method, args.map Json.ordered⟩ = m := by
  have hvalues := Json.values?_trees args (maxDepth - 2) h
  unfold withArgs?
  rw [hvalues, ← Json.itemsDepth_le_iff, ← Json.orderedItems_eq_map]
  change (if Json.itemsDepth args ≤ 125 then some (Json.orderedItems args) else none).map _ = _ ↔ _
  split
  · rename_i hfits
    simp [hfits]
  · rename_i hdeep
    simp [hdeep]

theorem ofTree?_object_eq_some {fields : List (Option String × Json.Tree)} {m : Message}
    (hnames : fields.all (·.1.isSome) = true) :
    ofTree? (.object fields) = some m ↔
      ∃ method, named "method" fields = [.text (some method)] ∧
        (named "args" fields = [] ∧ ⟨method, []⟩ = m ∨
          ∃ items, named "args" fields = [.list items] ∧ withArgs? method items = some m) := by
  rw [ofTree?, if_pos hnames]
  constructor
  · intro h
    split at h
    · rename_i method hmethod hargs
      exact ⟨method, hmethod, .inl ⟨hargs, Option.some.inj h⟩⟩
    · rename_i method items hmethod hargs
      exact ⟨method, hmethod, .inr ⟨items, hargs, h⟩⟩
    · cases h
  · rintro ⟨method, hmethod, ⟨hargs, rfl⟩ | ⟨items, hargs, h⟩⟩
    · rw [hmethod, hargs]
    · rw [hmethod, hargs]
      exact h

theorem ofTree?_object_iff {fields : List (String × Json)} {m : Message}
    (h : Json.FieldsExact fields) :
    ofTree? (.object (Json.fieldTrees fields)) = some m ↔ IsFrame (.object fields) m := by
  rw [ofTree?_object_eq_some (Json.all_isSome_fieldTrees fields)]
  constructor
  · rintro ⟨method, hmethod, hrest⟩
    obtain ⟨v, hmethod, hv⟩ := named_eq_singleton.mp hmethod
    obtain rfl := Json.tree_eq_text.mp hv
    rcases hrest with ⟨hargs, rfl⟩ | ⟨items, hargs, hwith⟩
    · exact .fields hmethod (named_eq_nil.mp hargs)
    · obtain ⟨w, hfilter, hw⟩ := named_eq_singleton.mp hargs
      obtain ⟨args, rfl, rfl⟩ := Json.tree_eq_list.mp hw
      have hexact := Json.isExact_of_mem h (mem_of_filter hfilter)
      obtain ⟨hfits, rfl⟩ := (withArgs?_trees hexact).mp hwith
      exact .fieldsWithArgs hmethod hfilter hfits
  · intro hframe
    cases hframe with
    | fields hasMethod hasNoArgs =>
      exact ⟨_, named_eq_singleton.mpr ⟨_, hasMethod, by rw [Json.tree]⟩,
        .inl ⟨named_eq_nil.mpr hasNoArgs, rfl⟩⟩
    | fieldsWithArgs hasMethod hasArgs fits =>
      have hexact := Json.isExact_of_mem h (mem_of_filter hasArgs)
      refine ⟨_, named_eq_singleton.mpr ⟨_, hasMethod, by rw [Json.tree]⟩, .inr ⟨_,
        named_eq_singleton.mpr ⟨_, hasArgs, by rw [Json.tree]⟩, ?_⟩⟩
      exact (withArgs?_trees hexact).mpr ⟨fits, rfl⟩

theorem ofTree?_list_eq_some {items : List Json.Tree} {m : Message} :
    ofTree? (.list items) = some m ↔
      (∃ method, items = [.text (some method)] ∧ ⟨method, []⟩ = m) ∨
        ∃ method args, items = [.text (some method), .list args] ∧
          withArgs? method args = some m := by
  constructor
  · intro h
    unfold ofTree? at h
    split at h
    · contradiction
    · rename_i method heq
      obtain rfl := Json.Tree.list.inj heq
      exact .inl ⟨method, rfl, Option.some.inj h⟩
    · rename_i method args heq
      obtain rfl := Json.Tree.list.inj heq
      exact .inr ⟨method, args, rfl, h⟩
    · cases h
  · rintro (⟨method, rfl, rfl⟩ | ⟨method, args, rfl, h⟩)
    · rfl
    · exact h

theorem ofTree?_list_iff {items : List Json} {m : Message} (h : Json.AreExact items) :
    ofTree? (.list (Json.trees items)) = some m ↔ IsFrame (.list items) m := by
  rw [ofTree?_list_eq_some, Json.trees_eq_map]
  constructor
  · rintro (⟨method, hitems, rfl⟩ | ⟨method, trees, hitems, hwith⟩)
    · obtain ⟨v, rfl, hv⟩ := List.map_eq_singleton_iff.mp hitems
      obtain rfl := Json.tree_eq_text.mp hv
      exact .list method
    · obtain ⟨v, rest, rfl, hv, hrest⟩ := List.map_eq_cons_iff.mp hitems
      obtain ⟨w, rfl, hw⟩ := List.map_eq_singleton_iff.mp hrest
      obtain rfl := Json.tree_eq_text.mp hv
      obtain ⟨args, rfl, rfl⟩ := Json.tree_eq_list.mp hw
      obtain ⟨hfits, rfl⟩ := (withArgs?_trees h.2.1).mp hwith
      exact .listWithArgs method hfits
  · intro hframe
    cases hframe with
    | list method => exact .inl ⟨method, by simp [Json.tree], rfl⟩
    | listWithArgs method fits =>
      exact .inr ⟨method, _, by simp [Json.tree], (withArgs?_trees h.2.1).mpr ⟨fits, rfl⟩⟩

theorem ofTree?_tree {v : Json} {m : Message} (h : v.IsExact) :
    ofTree? v.tree = some m ↔ IsFrame v m := by
  cases v with
  | list items =>
    rw [Json.tree]
    exact ofTree?_list_iff h
  | object fields =>
    rw [Json.tree]
    exact ofTree?_object_iff h
  | float => exact h.elim
  | null | bool | int | text =>
    rw [Json.tree]
    exact iff_of_false nofun nofun

theorem parse_eq_ok {text : String} {m : Message} : parse text = .ok m ↔ ofText? text = some m := by
  unfold parse
  cases ofText? text <;> simp

/-- Whether a text is a frame, and of which message, depends on the fields `method` and `args` only:
not on where they stand, what else there is, how deep that nests, how names and strings are written
or which blanks are between. What is no frame is refused as malformed. The arguments are kept as
they are, but that the fields of an object are put in order, the last one of each name. -/
theorem parse_spaced {v : Json} {text : String} (hexact : v.IsExact)
    (htext : Json.Spaced v.tree.tokens text.toList) :
    (∀ m, parse text = .ok m ↔ IsFrame v m) ∧
      ((∀ m, ¬IsFrame v m) → ∃ reason, parse text = .error (.malformed reason)) ∧
      ∀ arg : Json, arg.IsOrdered → arg.ordered = arg := by
  have hall (m : Message) : parse text = .ok m ↔ IsFrame v m := by
    rw [parse_eq_ok, ofText?, Json.Tree.ofText?_of_spaced htext, Option.bind_some]
    exact ofTree?_tree hexact
  refine ⟨hall, fun hnone => ?_, Json.ordered_of_isOrdered⟩
  cases hparse : ofText? text with
  | none => exact ⟨"not a frame", by rw [parse, hparse]⟩
  | some m => exact absurd ((hall m).mp (parse_eq_ok.mpr hparse)) (hnone m)

/-- Another field in front, blanks of every kind, and a name with a character given by its code. -/
theorem parse_spaced_behind_another :
    let v : Json := .object [("x", .list []), ("method", .text "log")]
    let text := "\t\x7b\"x\": [\n],\"m\\u0065thod\":\"log\"\r\x7d"
    v.IsExact ∧ Json.Spaced v.tree.tokens text.toList ∧ parse text = .ok ⟨"log", []⟩ := by
  intro v text
  have hblank (c : Char) (h : Json.isBlank c) : ∀ d ∈ [c], Json.isBlank d := by simpa
  have hsingle {token : Json.Token} {cs : List Char} (h : Json.WritesToken token cs) :
      Json.Spaced [token] cs := .single h
  have hopen := (hsingle .openObject).blanks_append (hblank '\t' rfl)
  have hother := (hsingle (.text (Json.writesString_quote "x"))).append <|
    (hsingle .colon).append <|
    ((hsingle .openList).blanks_append (hblank ' ' rfl)).append <|
    ((hsingle .closeList).blanks_append (hblank '\n' rfl)).append
    (.single .comma)
  have hcode : Json.IsCode ['0', '0', '6', '5'] 'e'.toNat :=
    .digits (p := 0) (q := 0) (r := 6) (s := 5) rfl rfl rfl rfl
  have hname : Json.WritesString "method" "\"m\\u0065thod\"".toList := by
    have hplain (c : Char) (h : c ≠ '"' ∧ c ≠ '\\' ∧ ¬c < ' ') : Json.WritesChar c [c] :=
      .plain h.1 h.2.1 h.2.2
    refine ⟨[['m'], '\\' :: 'u' :: ['0', '0', '6', '5'], ['t'], ['h'], ['o'], ['d']], ?_, by decide⟩
    exact .cons (hplain _ (by decide)) <| .cons (.code hcode) <| .cons (hplain _ (by decide)) <|
      .cons (hplain _ (by decide)) <| .cons (hplain _ (by decide)) <|
      .cons (hplain _ (by decide)) .nil
  have hmethod := (hsingle (.text hname)).append <|
    (hsingle .colon).append (.single (.text (Json.writesString_quote "log")))
  have hclose := (hsingle .closeObject).blanks_append (hblank '\r' rfl)
  have hexact : v.IsExact := ⟨trivial, trivial, trivial⟩
  have htext : Json.Spaced v.tree.tokens text.toList := by
    have hall := hopen.append (hother.append (hmethod.append hclose))
    convert hall using 1
    · rfl
    · decide +kernel
  refine ⟨hexact, htext, ((parse_spaced hexact htext).1 _).mpr ?_⟩
  exact .fields rfl rfl

end Message

end EngineBridge
