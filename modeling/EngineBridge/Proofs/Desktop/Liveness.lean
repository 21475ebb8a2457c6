import EngineBridge.Proofs.Desktop.Operations
import EngineBridge.Proofs.Journal

/-! Windows as a map from handles. Which handles have a window can be told from the operations that
went through, and it decides every answer and every list that the desktop gives. -/
namespace EngineBridge

/-- Whether an operation that goes through is a change of the desktop. Frames are not. -/
def WindowOp.isChange {α : Type} : WindowOp α → Bool
  | .create _ | .setTitle _ _ | .setSize _ _ | .destroy _ => true
  | .show _ _ | .setDisplayScale _ => false

namespace Desktop

open Update

variable {α : Type} [Scalar α]

/-- What would come of an operation. -/
def outcome (d : Desktop α) (op : WindowOp α) : Except Violation Unit := ((perform op).apply d).2

/-- Whether a window was created with the handle and not destroyed since. -/
def IsLive (handle : UInt32) (done : List (Entry (Desktop α) (WindowOp α))) : Prop :=
  Since (·.input = .create handle) (·.input = .destroy handle) done

open Classical in
/-- Whether operations succeed as they do on a map of which `live` tells the keys. -/
structure AnswersFor (d : Desktop α) (live : UInt32 → Prop) : Prop where
  create : ∀ handle, d.outcome (.create handle) =
    if live handle then .error (.duplicateWindow handle) else .ok ()
  setTitle : ∀ handle title, d.outcome (.setTitle handle title) =
    if live handle then .ok () else .error (.unknownWindow handle)
  setSize : ∀ handle size, d.outcome (.setSize handle size) =
    if live handle then
      let physical := PhysicalSize.ofLogical size d.scaleFactor
      if physical.area > PhysicalSize.maxArea then
        .error (.surfaceTooLarge physical.width physical.height PhysicalSize.maxArea)
      else .ok ()
    else .error (.unknownWindow handle)
  «show» : ∀ handle bitmap, d.outcome (.show handle bitmap) =
    if live handle then .ok () else .error (.unknownWindow handle)
  destroy : ∀ handle, d.outcome (.destroy handle) =
    if live handle then .ok () else .error (.unknownWindow handle)

/-- Whether everything that can be read off the windows fits the keys that `live` tells. -/
structure Lists (d : Desktop α) (live : UInt32 → Prop) : Prop where
  ascending : d.handles.Pairwise (· < ·)
  mem_handles : ∀ handle, handle ∈ d.handles ↔ live handle
  size_eq : d.size = d.handles.length
  isEmpty_iff : d.isEmpty ↔ ∀ handle, ¬live handle
  infos_eq : d.infos.map some = d.handles.map fun handle => (d.get? handle).map Window.info
  get?_eq_some_iff : ∀ handle w, d.get? handle = some w ↔ w ∈ d.windows ∧ w.handle = handle

variable {d d' : Desktop α}

theorem outcome_create (d : Desktop α) (handle : UInt32) :
    d.outcome (.create handle) =
      if (d.get? handle).isSome then .error (.duplicateWindow handle) else .ok () := by
  change ((Desktop.create handle).apply d).2 = _
  rw [snd_apply, run_create]
  cases (d.get? handle).isSome <;> rfl

theorem outcome_setTitle (d : Desktop α) (handle : UInt32) (title : String) :
    d.outcome (.setTitle handle title) =
      if (d.get? handle).isSome then .ok () else .error (.unknownWindow handle) := by
  change ((Desktop.setTitle handle title).apply d).2 = _
  rw [snd_apply, run_setTitle]
  cases d.get? handle <;> rfl

theorem outcome_setSize (d : Desktop α) (handle : UInt32) (size : LogicalSize) :
    d.outcome (.setSize handle size) =
      if (d.get? handle).isSome then (PhysicalSize.ofLogical size d.scaleFactor).checkLimit
      else .error (.unknownWindow handle) := by
  change ((Desktop.setSize handle size).apply d).2 = _
  rw [snd_apply, run_setSize]
  cases d.get? handle with
  | none => rfl
  | some w => cases (PhysicalSize.ofLogical size d.scaleFactor).checkLimit <;> simp

theorem outcome_show (d : Desktop α) (handle : UInt32) (bitmap : Bitmap) :
    d.outcome (.show handle bitmap) =
      if (d.get? handle).isSome then .ok () else .error (.unknownWindow handle) := by
  change ((Desktop.show handle bitmap).apply d).2 = _
  rw [snd_apply, run_show]
  cases d.get? handle <;> rfl

theorem outcome_destroy (d : Desktop α) (handle : UInt32) :
    d.outcome (.destroy handle) =
      if (d.get? handle).isSome then .ok () else .error (.unknownWindow handle) := by
  change ((Desktop.destroy handle).apply d).2 = _
  rw [snd_apply, run_destroy]
  cases (d.get? handle).isSome <;> rfl

theorem answersFor_of_mem_handles {live : UInt32 → Prop}
    (h : ∀ handle, handle ∈ d.handles ↔ live handle) : d.AnswersFor live where
  create handle := by
    simp only [outcome_create, ← h, mem_handles]
  setTitle handle title := by
    simp only [outcome_setTitle, ← h, mem_handles]
  setSize handle size := by
    simp only [outcome_setSize, ← h, mem_handles]
    rfl
  «show» handle bitmap := by
    simp only [outcome_show, ← h, mem_handles]
  destroy handle := by
    simp only [outcome_destroy, ← h, mem_handles]

omit [Scalar α] in
theorem lists_of_mem_handles {live : UInt32 → Prop} (hsorted : d.IsSorted)
    (h : ∀ handle, handle ∈ d.handles ↔ live handle) : d.Lists live where
  ascending := hsorted
  mem_handles := h
  size_eq := by
    unfold size handles
    rw [List.length_map]
  isEmpty_iff := by
    simp only [← h, isEmpty, List.isEmpty_iff, ← List.eq_nil_iff_forall_not_mem]
    exact List.map_eq_nil_iff.symm
  infos_eq := by
    unfold infos handles
    rw [List.map_map, List.map_map]
    refine List.map_congr_left fun w hw => ?_
    simp [get?_of_mem hsorted hw]
  get?_eq_some_iff handle w := by
    constructor
    · exact get?_eq_some
    · rintro ⟨hw, rfl⟩
      exact get?_of_mem hsorted hw

theorem Step.mem_handles {op : WindowOp α} (h : Step d op d') (k : UInt32) :
    k ∈ d'.handles ↔ op = .create k ∨ k ∈ d.handles ∧ op ≠ .destroy k := by
  cases h with
  | create hget =>
    simp only [handles, List.mem_map, mem_insert]
    simp [or_and_right, exists_or, Window.new, eq_comm]
  | setTitle hget title => simp [handles, map_handle_replace]
  | setSize hget harea => simp [handles, map_handle_replace]
  | «show» hget bitmap => simp [handles, map_handle_replace]
  | destroy hlive =>
    simp only [handles, List.mem_map, List.mem_filter, decide_eq_true_eq, reduceCtorEq, false_or,
      ne_eq, WindowOp.destroy.injEq]
    constructor
    · rintro ⟨w, ⟨hw, hne⟩, rfl⟩
      exact ⟨⟨w, hw, rfl⟩, fun heq => hne heq.symm⟩
    · rintro ⟨⟨w, hw, rfl⟩, hne⟩
      exact ⟨w, ⟨hw, fun heq => hne heq.symm⟩, rfl⟩
  | setDisplayScale scale => simp [handles]

theorem Step.changes_eq {op : WindowOp α} (h : Step d op d') :
    d'.changes = d.changes + if op.isChange then 1 else 0 := by
  cases h <;> rfl

structure Follows (d : Desktop α) (done : List (Entry (Desktop α) (WindowOp α))) : Prop where
  mem_handles : ∀ handle, handle ∈ d.handles ↔ IsLive handle done
  changes_eq : d.changes = done.countP (·.input.isChange)

omit [Scalar α] in
theorem follows_nil (scale : α) : Follows { displayScale := scale } [] where
  mem_handles handle := by
    unfold IsLive
    simp [not_since_nil, handles]
  changes_eq := rfl

theorem Follows.step {done : List (Entry (Desktop α) (WindowOp α))} {op : WindowOp α}
    (h : Follows d done) (hstep : Step d op d') : Follows d' (done ++ [⟨d, op⟩]) where
  mem_handles handle := by
    unfold IsLive
    rw [hstep.mem_handles, h.mem_handles, since_concat]
    rfl
  changes_eq := by
    rw [hstep.changes_eq, h.changes_eq]
    simp [List.countP_append, List.countP_cons]

theorem follows_run (scale : α) (ops : List (WindowOp α)) :
    (run { displayScale := scale } ops).IsSorted ∧
      Follows (run { displayScale := scale } ops)
        (journal perform { displayScale := scale } ops) := by
  refine journal_induction_of_isAtomicAt (I := IsSorted) (s := { displayScale := scale })
    keeps_isSorted_perform (fun _ hsorted op => isAtomicAt_perform hsorted op) .nil
    (follows_nil scale) ?_ ops
  exact fun d done op d' h hrun => h.step (step_of_run_perform hrun)

theorem mem_handles_after (h : d.IsSorted) (op : WindowOp α) (k : UInt32) :
    (k ∈ ((perform op).after d).handles ↔ k ∈ d.handles) ∨
      d.outcome op = .ok () ∧ (op = .create k ∨ op = .destroy k) := by
  unfold outcome
  rw [snd_apply]
  cases hrun : (perform op).run d with
  | ok a d' =>
    rw [after_of_run_ok hrun, (step_of_run_perform hrun).mem_handles]
    by_cases hop : op = .create k ∨ op = .destroy k
    · exact .inr ⟨rfl, hop⟩
    · left
      simp [not_or.mp hop]
  | error v d' =>
    left
    rw [after_of_run_error hrun, isAtomicAt_perform h op v d' hrun]

/-- After any operations the desktop is, in all it answers and lists, a map whose keys are the
handles that were created and not destroyed since. It was told of as many changes as there were. -/
theorem isMap_run (scale : α) (ops : List (WindowOp α)) :
    let d := run { displayScale := scale } ops
    let done := journal perform { displayScale := scale } ops
    d.AnswersFor (IsLive · done) ∧ d.Lists (IsLive · done) ∧
      (∀ op k, (k ∈ ((perform op).after d).handles ↔ k ∈ d.handles) ∨
        d.outcome op = .ok () ∧ (op = .create k ∨ op = .destroy k)) ∧
      d.changes = done.countP (·.input.isChange) := by
  intro d done
  obtain ⟨hsorted, h⟩ : d.IsSorted ∧ Follows d done := follows_run scale ops
  exact ⟨answersFor_of_mem_handles h.mem_handles, lists_of_mem_handles hsorted h.mem_handles,
    mem_handles_after hsorted, h.changes_eq⟩

end Desktop

end EngineBridge
