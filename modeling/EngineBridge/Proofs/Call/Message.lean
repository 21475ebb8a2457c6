import EngineBridge.Call.Message
import EngineBridge.Proofs.Json.Order

/-! A printed frame is read back as the message it was made from, unless its arguments nest too
deep. In every message that is read, the fields of objects are in order. -/
namespace EngineBridge

namespace Json

def within : Nat → Json → Json
  | 0, v => v
  | n + 1, v => .list [within n v]

theorem depth_within (n : Nat) (v : Json) : (within n v).depth = v.depth + n := by
  induction n with
  | zero => rfl
  | succ n ih => simp [within, depth, itemsDepth, ih, Nat.add_assoc]

theorem isExact_within {v : Json} (h : v.IsExact) (n : Nat) : (within n v).IsExact := by
  induction n with
  | zero => exact h
  | succ n ih => exact ⟨ih, trivial⟩

theorem isOrdered_within {v : Json} (h : v.IsOrdered) (n : Nat) : (within n v).IsOrdered := by
  induction n with
  | zero => exact h
  | succ n ih => exact ⟨ih, trivial⟩

end Json

namespace Message

theorem ofTree?_object (method : String) (items : List Json.Tree) :
    ofTree? (.object [(some "method", .text (some method)), (some "args", .list items)]) =
      withArgs? method items := by
  have hmethod : ∀ t u : Json.Tree,
      named "method" [(some "method", t), (some "args", u)] = [t] := fun _ _ => by simp [named]
  have hargs : ∀ t u : Json.Tree,
      named "args" [(some "method", t), (some "args", u)] = [u] := fun _ _ => by simp [named]
  simp [ofTree?, hmethod, hargs]

theorem ofText?_render {m : Message} (h : Json.AreExact m.args) (ho : Json.AreOrdered m.args) :
    ofText? m.render = if Json.itemsDepth m.args ≤ maxDepth - 2 then some m else none := by
  have hexact : (Json.object [("method", .text m.method), ("args", .list m.args)]).IsExact := by
    simpa [Json.IsExact, Json.FieldsExact] using h
  have hvalues := Json.values?_trees m.args (maxDepth - 2) h
  rw [Json.orderedItems_of_areOrdered m.args ho] at hvalues
  unfold ofText? render
  rw [Json.ofText?_render hexact]
  simp only [Json.tree, Json.fieldTrees, Option.bind_some]
  rw [ofTree?_object, withArgs?, hvalues]
  split <;> rfl

theorem parse_render {m : Message} (h : Json.AreExact m.args) (ho : Json.AreOrdered m.args)
    (hdepth : Json.itemsDepth m.args ≤ maxDepth - 2) : parse m.render = .ok m := by
  unfold parse
  rw [ofText?_render h ho, if_pos hdepth]

/-- The frame and its list of arguments leave 125 levels to each argument. Text that nests deeper is
no frame at all, rather than some other message. -/
theorem parse_render_of_depth {m : Message} (h : Json.AreExact m.args)
    (ho : Json.AreOrdered m.args) :
    ((∀ v ∈ m.args, v.depth ≤ 125) → parse m.render = .ok m) ∧
      ((∃ v ∈ m.args, 126 ≤ v.depth) →
        ∃ reason, parse m.render = .error (.malformed reason)) := by
  constructor
  · intro hdepth
    exact parse_render h ho (Json.itemsDepth_le_iff.mpr hdepth)
  · rintro ⟨v, hv, hdeep⟩
    have hlimit : ¬Json.itemsDepth m.args ≤ maxDepth - 2 := fun hall =>
      absurd (Json.itemsDepth_le_iff.mp hall v hv) (Nat.not_le.mpr hdeep)
    refine ⟨"not a frame", ?_⟩
    unfold parse
    rw [ofText?_render h ho, if_neg hlimit]

theorem parse_render_of_depth_within :
    let core : Json :=
      .object [("", .int (-0x8000000000000000)), ("\"\\\n😀", .text "\x01\"😀")]
    let m (n : Nat) : Message := ⟨"log", [.int 0xFFFFFFFFFFFFFFFF, .within n core]⟩
    (∀ n, Json.AreExact (m n).args ∧ Json.AreOrdered (m n).args) ∧
      parse (m 124).render = .ok (m 124) ∧
      ∃ reason, parse (m 125).render = .error (.malformed reason) := by
  intro core m
  have hexact : core.IsExact := by
    simp [core, Json.IsExact, Json.FieldsExact]
  have hordered : core.IsOrdered := by
    refine ⟨?_, trivial, trivial, trivial⟩
    decide
  have hdepth (n : Nat) : (Json.within n core).depth = n + 1 := by
    rw [Json.depth_within, Nat.add_comm]
    rfl
  have hargs (n : Nat) : Json.AreExact (m n).args ∧ Json.AreOrdered (m n).args := by
    refine ⟨⟨?_, Json.isExact_within hexact n, trivial⟩, trivial,
      Json.isOrdered_within hordered n, trivial⟩
    simp [Json.IsExact]
  refine ⟨hargs, ?_, ?_⟩
  · refine (parse_render_of_depth (hargs 124).1 (hargs 124).2).1 ?_
    simp [m, hdepth, Json.depth]
  · refine (parse_render_of_depth (hargs 125).1 (hargs 125).2).2 ?_
    simp [m, hdepth]

theorem areOrdered_of_withArgs? {method : String} {items : List Json.Tree} {m : Message}
    (h : withArgs? method items = some m) : Json.AreOrdered m.args := by
  unfold withArgs? at h
  obtain ⟨args, hargs, rfl⟩ := Option.map_eq_some_iff.mp h
  exact Json.areOrdered_of_values? items _ args hargs

theorem areOrdered_of_ofTree? {t : Json.Tree} {m : Message} (h : ofTree? t = some m) :
    Json.AreOrdered m.args := by
  unfold ofTree? at h
  split at h
  · split at h
    · split at h
      · cases h
        trivial
      · exact areOrdered_of_withArgs? h
      · cases h
    · cases h
  · cases h
    trivial
  · exact areOrdered_of_withArgs? h
  · cases h

theorem areOrdered_of_parse {text : String} {m : Message} (h : parse text = .ok m) :
    Json.AreOrdered m.args := by
  unfold parse ofText? at h
  cases htree : (Json.Tree.ofText? text).bind ofTree? with
  | none =>
    rw [htree] at h
    cases h
  | some m' =>
    rw [htree] at h
    cases h
    obtain ⟨t, -, ht⟩ := Option.bind_eq_some_iff.mp htree
    exact areOrdered_of_ofTree? ht

end Message

end EngineBridge
