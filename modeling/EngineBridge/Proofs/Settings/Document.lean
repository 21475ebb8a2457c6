import EngineBridge.Settings.Document
import Mathlib.Data.List.Perm.Basic

/-! What a record makes of the named values of a document. If each field changes a part of the
record of its own, it does not matter in which order they come and what else is among them. -/
namespace EngineBridge.Document

variable {ν σ ι : Type} {fields : List (Field ν σ)} {named others : List (String × ν)}
  {own : List ι} {name : ι → String} {value : ι → ν} {change : ι → σ → σ}

theorem foldlM_eq_some {β : Type} {step : σ → β → Option σ} {change : β → σ → σ} {items : List β}
    (h : ∀ item ∈ items, ∀ s, step s item = some (change item s)) (start : σ) :
    items.foldlM step start = some (items.foldl (fun s item => change item s) start) := by
  induction items generalizing start with
  | nil => rfl
  | cons item rest ih =>
    rw [List.foldlM_cons, h item List.mem_cons_self start]
    exact ih (fun other hother => h other (List.mem_cons_of_mem _ hother)) _

theorem read_field {α : Type} {name : String} {read : ν → Option α} {set : α → σ → σ} {v : ν}
    {a : α} (h : read v = some a) (start : σ) :
    (field name read set).read v start = some (set a start) := by
  change (read v).map _ = _
  rw [h]
  rfl

def known? (fields : List (Field ν σ)) (e : String × ν) : Option (Field ν σ × ν) :=
  (fields.find? (fun f => f.name = e.1)).map (·, e.2)

/-- Whether some named values are for different fields of a record, each of which changes the record
in a way of its own. -/
structure Settles (fields : List (Field ν σ)) (own : List ι) (name : ι → String) (value : ι → ν)
    (change : ι → σ → σ) : Prop where
  distinct : (own.map name).Nodup
  reads : ∀ i ∈ own, ∃ f, fields.find? (fun f => f.name = name i) = some f ∧
    ∀ s, f.read (value i) s = some (change i s)
  commutes : ∀ i ∈ own, ∀ j ∈ own, ∀ s, change i (change j s) = change j (change i s)

theorem Settles.exists_known? (h : Settles fields own name value change) {i : ι} (hi : i ∈ own) :
    ∃ f, known? fields (name i, value i) = some (f, value i) ∧ f.name = name i ∧
      ∀ s, f.read (value i) s = some (change i s) := by
  obtain ⟨f, hfind, hread⟩ := h.reads i hi
  exact ⟨f, by simp [known?, hfind], by simpa using List.find?_some hfind, hread⟩

theorem Settles.map_name_known? (h : Settles fields own name value change) :
    (own.filterMap fun i => known? fields (name i, value i)).map (·.1.name) = own.map name := by
  rw [List.map_filterMap, ← List.filterMap_eq_map]
  refine List.filterMap_congr fun i hi => ?_
  obtain ⟨f, hknown, hname, -⟩ := h.exists_known? hi
  simp [hknown, hname]

theorem filterMap_known?_perm
    (hperm : named.Perm (own.map (fun i => (name i, value i)) ++ others))
    (hothers : ∀ e ∈ others, e.1 ∉ fields.map (·.name)) :
    (named.filterMap (known? fields)).Perm
      (own.filterMap fun i => known? fields (name i, value i)) := by
  have hnone : others.filterMap (known? fields) = [] := by
    rw [List.filterMap_eq_nil_iff]
    intro e he
    have hfind : fields.find? (fun f => f.name = e.1) = none := by
      rw [List.find?_eq_none]
      intro f hf heq
      exact hothers e he (List.mem_map.mpr ⟨f, hf, of_decide_eq_true heq⟩)
    rw [known?, hfind]
    rfl
  have hall := hperm.filterMap (known? fields)
  rwa [List.filterMap_append, hnone, List.append_nil, List.filterMap_map] at hall

/-- What a record makes of the fields that it has does not depend on where they stand and on what
else there is. -/
theorem Settles.readFields_eq (h : Settles fields own name value change)
    (hperm : named.Perm (own.map (fun i => (name i, value i)) ++ others))
    (hothers : ∀ e ∈ others, e.1 ∉ fields.map (·.name)) (start : σ) :
    readFields fields named start = some (own.foldl (fun s i => change i s) start) := by
  have hknown := filterMap_known?_perm hperm hothers
  have hdistinct : ((named.filterMap (known? fields)).map (·.1.name)).Nodup := by
    rw [(hknown.map _).nodup_iff, h.map_name_known?]
    exact h.distinct
  -- what a field does, which is never nothing here
  let effect (e : Field ν σ × ν) (s : σ) : σ := (e.1.read e.2 s).getD s
  have heffect : ∀ e ∈ named.filterMap (known? fields), ∃ i ∈ own,
      (∀ s, e.1.read e.2 s = some (effect e s)) ∧ effect e = change i := by
    intro e he
    obtain ⟨i, hi, hsome⟩ := List.mem_filterMap.mp (hknown.mem_iff.mp he)
    obtain ⟨f, hf, -, hread⟩ := h.exists_known? hi
    obtain rfl := Option.some.inj (hsome.symm.trans hf)
    refine ⟨i, hi, fun s => ?_, funext fun s => ?_⟩ <;> simp [effect, hread]
  have hreads : (named.filterMap (known? fields)).foldlM (fun s e => e.1.read e.2 s) start =
      some ((named.filterMap (known? fields)).foldl (fun s e => effect e s) start) :=
    foldlM_eq_some (fun e he => (heffect e he).elim fun _ h => h.2.1) start
  have hreorder : (named.filterMap (known? fields)).foldl (fun s e => effect e s) start =
      (own.filterMap fun i => known? fields (name i, value i)).foldl (fun s e => effect e s)
        start := by
    refine hknown.foldl_eq' (fun e he f hf s => ?_) start
    obtain ⟨i, hi, -, hei⟩ := heffect e he
    obtain ⟨j, hj, -, hfj⟩ := heffect f hf
    rw [hei, hfj]
    exact h.commutes j hj i hi s
  have hchange : (own.filterMap fun i => known? fields (name i, value i)).foldl
      (fun s e => effect e s) start = own.foldl (fun s i => change i s) start := by
    rw [List.foldl_filterMap]
    refine List.foldl_ext _ _ _ fun s i hi => ?_
    obtain ⟨f, hf, -, hread⟩ := h.exists_known? hi
    simp [hf, effect, hread]
  unfold readFields
  rw [← hchange, ← hreorder, ← hreads]
  exact if_pos hdistinct

theorem Settles.filter (h : Settles fields own name value change) (p : ι → Bool) :
    Settles fields (own.filter p) name value change where
  distinct := h.distinct.sublist (List.filter_sublist.map _)
  reads := fun i hi => h.reads i (List.mem_of_mem_filter hi)
  commutes := fun i hi j hj =>
    h.commutes i (List.mem_of_mem_filter hi) j (List.mem_of_mem_filter hj)

end EngineBridge.Document
