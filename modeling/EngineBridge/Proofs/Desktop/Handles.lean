import EngineBridge.Desktop.Basic
import EngineBridge.Proofs.Update
import Mathlib.Data.List.Nodup

/-! The windows of a desktop stand in ascending order of their handles, so that no two have the same
one. On such a desktop an operation that is refused leaves no trace. -/
namespace EngineBridge

namespace Window

variable {α : Type} [Scalar α]

open Update

theorem isAtomicAt_resize (size : LogicalSize) (factor : α) (w : Window α) :
    IsAtomicAt w (resize size factor) := by
  have hset : IsAtomicAt w (onCanvas (Canvas.setSize (α := α) (.ofLogical size factor))) :=
    .onPart (isAtomicAt_ofExcept_bind fun _ => (cannotRefuse_modify _).isAtomicAt _) rfl
  refine hset.bind fun _ => ?_
  refine (CannotRefuse.onPart (cannotRefuse_modify _)).bind fun _ => ?_
  refine (CannotRefuse.onPart (cannotRefuse_modify _)).bind fun _ => ?_
  refine (CannotRefuse.onPart (cannotRefuse_modify _)).bind fun _ => ?_
  refine (CannotRefuse.onPart (cannotRefuse_modify _)).bind fun _ => ?_
  exact cannotRefuse_modify _

end Window

namespace Desktop

variable {α : Type}

def IsSorted (d : Desktop α) : Prop := d.handles.Pairwise (· < ·)

theorem get?_eq_some {d : Desktop α} {handle : UInt32} {w : Window α}
    (h : d.get? handle = some w) : w ∈ d.windows ∧ w.handle = handle :=
  ⟨List.mem_of_find?_eq_some h, by simpa using List.find?_some h⟩

theorem isSome_get?_iff {d : Desktop α} {handle : UInt32} :
    (d.get? handle).isSome ↔ ∃ w ∈ d.windows, w.handle = handle := by
  simp [get?]

theorem mem_handles {d : Desktop α} {handle : UInt32} :
    handle ∈ d.handles ↔ (d.get? handle).isSome := by
  rw [isSome_get?_iff, handles, List.mem_map]

theorem get?_of_mem {d : Desktop α} (h : d.IsSorted) {w : Window α} (hw : w ∈ d.windows) :
    d.get? w.handle = some w := by
  cases hget : d.get? w.handle with
  | none =>
    have hsome := isSome_get?_iff.mpr ⟨w, hw, rfl⟩
    rw [hget] at hsome
    contradiction
  | some v =>
    obtain ⟨hv, hhandle⟩ := get?_eq_some hget
    have hnodup : d.handles.Nodup := h.imp fun hlt => UInt32.ne_of_lt hlt
    rw [List.inj_on_of_nodup_map hnodup hv hw hhandle]

theorem map_handle_replace (w : Window α) (windows : List (Window α)) :
    (replace w windows).map (·.handle) = windows.map (·.handle) := by
  unfold replace
  rw [List.map_map]
  refine List.map_congr_left fun v _ => ?_
  simp only [Function.comp_apply]
  split
  · rename_i h
    exact h.symm
  · rfl

theorem mem_insert {w v : Window α} {windows : List (Window α)} :
    v ∈ insert w windows ↔ v = w ∨ v ∈ windows := by
  induction windows with
  | nil => simp [insert]
  | cons u rest ih =>
    unfold insert
    split
    · simp
    · simp only [List.mem_cons, ih]
      grind

theorem pairwise_insert {w : Window α} {windows : List (Window α)}
    (h : (windows.map (·.handle)).Pairwise (· < ·)) (hw : ∀ v ∈ windows, v.handle ≠ w.handle) :
    ((insert w windows).map (·.handle)).Pairwise (· < ·) := by
  induction windows with
  | nil => simp [insert]
  | cons u rest ih =>
    rw [List.map_cons, List.pairwise_cons, List.forall_mem_map] at h
    unfold insert
    split
    · rename_i hlt
      rw [List.map_cons, List.pairwise_cons, List.forall_mem_map, List.map_cons,
        List.pairwise_cons, List.forall_mem_map]
      refine ⟨fun v hv => ?_, h⟩
      rcases List.mem_cons.mp hv with rfl | hv
      · exact hlt
      · exact UInt32.lt_trans hlt (h.1 v hv)
    · rename_i hle
      have hrest := ih h.2 fun v hv => hw v (List.mem_cons_of_mem _ hv)
      rw [List.map_cons, List.pairwise_cons, List.forall_mem_map]
      refine ⟨fun v hv => ?_, hrest⟩
      rcases mem_insert.mp hv with rfl | hv
      · exact UInt32.lt_of_le_of_ne (UInt32.not_lt.mp hle) (hw u List.mem_cons_self)
      · exact h.1 v hv

theorem replace_self {w : Window α} {windows : List (Window α)}
    (h : (windows.map (·.handle)).Pairwise (· < ·)) (hw : w ∈ windows) :
    replace w windows = windows := by
  have hinj : ∀ v ∈ windows, v.handle = w.handle → v = w := by
    have hnodup : (windows.map (·.handle)).Nodup := h.imp fun hlt => UInt32.ne_of_lt hlt
    exact fun v hv heq => List.inj_on_of_nodup_map hnodup hv hw heq
  unfold replace
  conv_rhs => rw [← List.map_id windows]
  refine List.map_congr_left fun v hv => ?_
  split
  · rename_i heq
    exact (hinj v hv heq).symm
  · rfl

theorem run_create [Scalar α] (handle : UInt32) (d : Desktop α) :
    (create handle).run d =
      if (d.get? handle).isSome then .error (.duplicateWindow handle) d
      else .ok () { d with
        windows := insert (.new handle) d.windows
        changes := d.changes + 1 } := by
  change EStateM.run (if (d.get? handle).isSome then _ else _) d = _
  split <;> rfl

theorem run_destroy (handle : UInt32) (d : Desktop α) :
    (destroy handle).run d =
      if (d.get? handle).isSome then
        .ok () { d with
          windows := d.windows.filter (·.handle ≠ handle)
          changes := d.changes + 1 }
      else .error (.unknownWindow handle)
        { d with windows := d.windows.filter (·.handle ≠ handle) } := by
  change EStateM.run (if (!(d.get? handle).isSome) then _ else _)
    { d with windows := d.windows.filter (·.handle ≠ handle) } = _
  cases (d.get? handle).isSome <;> rfl

open Update

theorem keeps_isSorted_onWindow (handle : UInt32) (update : Update (Window α) Unit) :
    Keeps IsSorted (onWindow handle update) := by
  refine keeps_get_bind fun d hd => ?_
  split
  · exact hd
  · rename_i w _
    have hpart : Keeps IsSorted (onPart (fun _ => w)
        (fun w (d : Desktop α) => { d with windows := replace w d.windows }) update) := by
      refine Keeps.onPart (Q := fun _ => True) (fun _ _ => trivial) (fun _ _ => trivial) ?_
      intro w d hd _
      unfold IsSorted handles
      rw [map_handle_replace]
      exact hd
    exact hpart d hd

theorem keeps_isSorted_notify : Keeps IsSorted (notify : Update (Desktop α) Unit) :=
  keeps_modify fun _ hd => hd

theorem keeps_isSorted_create [Scalar α] (handle : UInt32) :
    Keeps IsSorted (create handle : Update (Desktop α) Unit) := by
  intro d hd
  have hrun := run_create handle d
  split at hrun
  · rwa [after_of_run_error hrun]
  · rename_i hlive
    rw [after_of_run_ok hrun]
    refine pairwise_insert hd fun v hv heq => hlive ?_
    exact isSome_get?_iff.mpr ⟨v, hv, heq⟩

theorem isSorted_filter {d : Desktop α} (h : d.IsSorted) (handle : UInt32) (changes : Nat) :
    IsSorted { d with
      windows := d.windows.filter (·.handle ≠ handle)
      changes := changes } :=
  List.Pairwise.sublist (List.filter_sublist.map _) h

theorem keeps_isSorted_destroy (handle : UInt32) :
    Keeps IsSorted (destroy handle : Update (Desktop α) Unit) := by
  intro d hd
  have hrun := run_destroy handle d
  split at hrun
  · rw [after_of_run_ok hrun]
    exact isSorted_filter hd handle _
  · rw [after_of_run_error hrun]
    exact isSorted_filter hd handle _

theorem keeps_isSorted_perform [Scalar α] (op : WindowOp α) : Keeps IsSorted (perform op) := by
  cases op with
  | create handle => exact keeps_isSorted_create handle
  | setTitle handle title =>
    exact (keeps_isSorted_onWindow handle _).bind fun _ => keeps_isSorted_notify
  | setSize handle size =>
    refine keeps_get_bind fun d hd => ?_
    exact ((keeps_isSorted_onWindow handle _).bind fun _ => keeps_isSorted_notify) d hd
  | «show» handle bitmap => exact keeps_isSorted_onWindow handle _
  | destroy handle => exact keeps_isSorted_destroy handle
  | setDisplayScale scale => exact keeps_modify fun _ hd => hd

section Refused

variable {d : Desktop α} (h : d.IsSorted)

include h in
theorem isAtomicAt_onWindow (handle : UInt32) {update : Update (Window α) Unit}
    (hupdate : ∀ w, IsAtomicAt w update) : IsAtomicAt d (onWindow handle update) := by
  refine isAtomicAt_get_bind ?_
  split
  · exact isAtomicAt_throw _ d
  · rename_i w hw
    refine (hupdate w).onPart ?_
    rw [replace_self h (get?_eq_some hw).1]

theorem isAtomicAt_create [Scalar α] (handle : UInt32) : IsAtomicAt d (create handle) := by
  intro v d' hrun
  rw [run_create] at hrun
  split at hrun
  · cases hrun
    rfl
  · cases hrun

/-- The window that is taken away before it is known to be missing was not there. -/
theorem isAtomicAt_destroy (handle : UInt32) : IsAtomicAt d (destroy handle) := by
  intro v d' hrun
  rw [run_destroy] at hrun
  split at hrun
  · cases hrun
  · rename_i hlive
    cases hrun
    have hfilter : d.windows.filter (·.handle ≠ handle) = d.windows := by
      rw [List.filter_eq_self]
      intro w hw
      exact decide_eq_true fun heq => hlive (isSome_get?_iff.mpr ⟨w, hw, heq⟩)
    rw [hfilter]

include h in
/-- Where windows are told apart by their handles, every refusal leaves the desktop as it was. -/
theorem isAtomicAt_perform [Scalar α] (op : WindowOp α) : IsAtomicAt d (perform op) := by
  have hnotify : CannotRefuse (notify : Update (Desktop α) Unit) := cannotRefuse_modify _
  cases op with
  | create handle => exact isAtomicAt_create handle
  | setTitle handle title =>
    refine IsAtomicAt.bind (isAtomicAt_onWindow h handle fun w => ?_) fun _ => hnotify
    exact (cannotRefuse_modify _).isAtomicAt w
  | setSize handle size =>
    refine isAtomicAt_get_bind (IsAtomicAt.bind (isAtomicAt_onWindow h handle ?_) fun _ => hnotify)
    exact Window.isAtomicAt_resize size _
  | «show» handle bitmap =>
    exact isAtomicAt_onWindow h handle fun w => (cannotRefuse_modify _).isAtomicAt w
  | destroy handle => exact isAtomicAt_destroy handle
  | setDisplayScale scale => exact (cannotRefuse_modify _).isAtomicAt d

end Refused

end Desktop

end EngineBridge
