import EngineBridge.Proofs.Json.RoundTrip
import Mathlib.Data.List.Sort

/-! The ascending order of names in objects. Whatever is read from text has it, and an object that
has it is given by what each of its names stands for. -/
namespace EngineBridge.Json

variable {fields others : List (String × Json)}

theorem lookup_eq_some (h : (fields.map Prod.fst).Pairwise (· < ·)) {name : String} {v : Json} :
    fields.lookup name = some v ↔ (name, v) ∈ fields := by
  rw [List.lookup_eq_some_iff]
  constructor
  · rintro ⟨front, rest, rfl, -⟩
    simp
  · intro hmem
    obtain ⟨front, rest, rfl⟩ := List.append_of_mem hmem
    refine ⟨front, rest, rfl, fun p hp => bne_iff_ne.mpr ?_⟩
    rw [List.map_append, List.pairwise_append] at h
    rintro rfl
    exact String.lt_irrefl _
      (h.2.2 p.1 (List.mem_map_of_mem hp) p.1 List.mem_cons_self)

theorem eq_of_mem_iff (h : (fields.map Prod.fst).Pairwise (· < ·))
    (ho : (others.map Prod.fst).Pairwise (· < ·)) (hmem : ∀ p, p ∈ fields ↔ p ∈ others) :
    fields = others := by
  have hirrefl : Std.Irrefl fun p q : String × Json => p.1 < q.1 :=
    ⟨fun _ => String.lt_irrefl _⟩
  have hantisymm : Std.Antisymm fun p q : String × Json => p.1 < q.1 :=
    ⟨fun _ _ hlt hgt => absurd hgt (String.lt_asymm hlt)⟩
  exact (List.pairwise_map.mp h).eq_of_mem_iff (List.pairwise_map.mp ho) hmem

theorem mem_setField {name : String} {v : Json} {p : String × Json}
    (h : p ∈ setField name v fields) : p = (name, v) ∨ p ∈ fields := by
  induction fields with
  | nil => exact .inl (List.mem_singleton.mp h)
  | cons field rest ih =>
    obtain ⟨other, w⟩ := field
    rw [setField] at h
    split at h
    · exact List.mem_cons.mp h
    split at h
    · exact (List.mem_cons.mp h).imp_right (List.mem_cons_of_mem _)
    · rcases List.mem_cons.mp h with rfl | hrest
      · exact .inr List.mem_cons_self
      · exact (ih hrest).imp_right (List.mem_cons_of_mem _)

theorem pairwise_setField (name : String) (v : Json) (h : (fields.map Prod.fst).Pairwise (· < ·)) :
    ((setField name v fields).map Prod.fst).Pairwise (· < ·) := by
  induction fields with
  | nil => exact List.pairwise_singleton _ _
  | cons field rest ih =>
    obtain ⟨other, w⟩ := field
    rw [List.map_cons, List.pairwise_cons] at h
    rw [setField]
    split
    · rename_i hlt
      refine List.pairwise_cons.mpr ⟨fun n hn => ?_, List.pairwise_cons.mpr h⟩
      rcases List.mem_cons.mp hn with rfl | hn
      · exact hlt
      · exact String.lt_trans hlt (h.1 n hn)
    split
    · rename_i heq
      rw [List.map_cons, heq]
      exact List.pairwise_cons.mpr h
    · rename_i hnlt hne
      refine List.pairwise_cons.mpr ⟨fun n hn => ?_, ih h.2⟩
      obtain ⟨p, hp, rfl⟩ := List.mem_map.mp hn
      rcases mem_setField hp with rfl | hp
      · exact Std.lt_of_le_of_ne (String.not_lt.mp hnlt) (Ne.symm hne)
      · exact h.1 p.1 (List.mem_map_of_mem hp)

theorem fieldsOrdered_iff : FieldsOrdered fields ↔ ∀ p ∈ fields, p.2.IsOrdered := by
  induction fields with
  | nil => simp [FieldsOrdered]
  | cons p rest ih => rw [FieldsOrdered, ih, List.forall_mem_cons]

theorem isOrdered_foldl_setField {done : List (String × Json)} (h : (object done).IsOrdered)
    (hfields : FieldsOrdered fields) :
    (object (fields.foldl (fun done (name, value) => setField name value done) done)).IsOrdered := by
  induction fields generalizing done with
  | nil => exact h
  | cons p rest ih =>
    refine ih ⟨pairwise_setField p.1 p.2 h.1, fieldsOrdered_iff.mpr fun q hq => ?_⟩ hfields.2
    rcases mem_setField hq with rfl | hq
    · exact hfields.1
    · exact fieldsOrdered_iff.mp h.2 q hq

theorem isOrdered_ofFields (h : FieldsOrdered fields) : (ofFields fields).IsOrdered :=
  isOrdered_foldl_setField ⟨.nil, trivial⟩ h

theorem Numeral.isOrdered_of_float? {n : Numeral} {v : Json} (h : n.float? = some v) :
    v.IsOrdered := by
  unfold float? at h
  obtain ⟨x, -, h⟩ := Option.bind_eq_some_iff.mp h
  cases h
  trivial

theorem Numeral.isOrdered_of_value? {n : Numeral} {v : Json} (h : n.value? = some v) :
    v.IsOrdered := by
  unfold value? at h
  dsimp only at h
  split at h
  · split at h <;> split at h
    · cases h
      trivial
    · exact isOrdered_of_float? h
    · cases h
      trivial
    · exact isOrdered_of_float? h
  · exact isOrdered_of_float? h

mutual

theorem isOrdered_of_value? : ∀ (t : Tree) (n : Nat) (v : Json), t.value? n = some v → v.IsOrdered
  | .null, _, _, h | .bool _, _, _, h => by
    cases h
    trivial
  | .number n, _, _, h => Numeral.isOrdered_of_value? h
  | .text s, _, _, h => by
    rw [Tree.value?] at h
    obtain ⟨s, -, rfl⟩ := Option.map_eq_some_iff.mp h
    trivial
  | .list items, n, _, h => by
    rw [Tree.value?] at h
    split at h
    · cases h
    · obtain ⟨vs, hvs, rfl⟩ := Option.map_eq_some_iff.mp h
      exact areOrdered_of_values? items (n - 1) vs hvs
  | .object fields, n, _, h => by
    rw [Tree.value?] at h
    split at h
    · cases h
    · obtain ⟨vs, hvs, rfl⟩ := Option.map_eq_some_iff.mp h
      exact isOrdered_ofFields (fieldsOrdered_of_fields? fields (n - 1) vs hvs)

theorem areOrdered_of_values? : ∀ (items : List Tree) (n : Nat) (vs : List Json),
    Tree.values? n items = some vs → AreOrdered vs
  | [], _, _, h => by
    cases h
    trivial
  | t :: rest, n, _, h => by
    rw [Tree.values?] at h
    obtain ⟨v, hv, h⟩ := Option.bind_eq_some_iff.mp h
    obtain ⟨vs, hvs, h⟩ := Option.bind_eq_some_iff.mp h
    cases h
    exact ⟨isOrdered_of_value? t n v hv, areOrdered_of_values? rest n vs hvs⟩

theorem fieldsOrdered_of_fields? : ∀ (fields : List (Option String × Tree)) (n : Nat)
    (vs : List (String × Json)), Tree.fields? n fields = some vs → FieldsOrdered vs
  | [], _, _, h => by
    cases h
    trivial
  | (name, t) :: rest, n, _, h => by
    rw [Tree.fields?] at h
    obtain ⟨name, -, h⟩ := Option.bind_eq_some_iff.mp h
    obtain ⟨v, hv, h⟩ := Option.bind_eq_some_iff.mp h
    obtain ⟨vs, hvs, h⟩ := Option.bind_eq_some_iff.mp h
    cases h
    exact ⟨isOrdered_of_value? t n v hv, fieldsOrdered_of_fields? rest n vs hvs⟩

end

end EngineBridge.Json
