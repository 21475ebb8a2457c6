import EngineBridge.Proofs.Desktop.Liveness

/-! What an operation does is told by the window of its handle and the display alone, and it does it
to no other window. -/
namespace EngineBridge

variable {α : Type} [Scalar α]

/-- What the operation makes of the window of its handle, if there is one, where a resize goes by
the given factor. -/
def WindowOp.onOwn (factor : α) : WindowOp α → Option (Window α) →
    Except Violation (Option (Window α))
  | .create handle, none => .ok (some (.new handle))
  | .create handle, some _ => .error (.duplicateWindow handle)
  | .setTitle _ title, some w => .ok (some { w with title := title })
  | .setSize _ size, some w =>
    (PhysicalSize.ofLogical size factor).checkLimit.map fun _ => some (w.resized size factor)
  | .show _ bitmap, some w => .ok (some (w.present bitmap))
  | .destroy _, some _ => .ok none
  | .setTitle handle _, none | .setSize handle _, none | .show handle _, none
  | .destroy handle, none => .error (.unknownWindow handle)
  | .setDisplayScale _, w => .ok w

namespace Desktop

open Update

variable {d : Desktop α}

omit [Scalar α] in
theorem find?_insert {w : Window α} {windows : List (Window α)}
    (h : windows.find? (·.handle = w.handle) = none) (k : UInt32) :
    (insert w windows).find? (·.handle = k) =
      if k = w.handle then some w else windows.find? (·.handle = k) := by
  induction windows with
  | nil =>
    by_cases hk : k = w.handle
    · simp [insert, hk]
    · simp [insert, hk, Ne.symm hk]
  | cons u rest ih =>
    have hu : u.handle ≠ w.handle := by
      intro heq
      simp [heq] at h
    have hrest : rest.find? (·.handle = w.handle) = none := by
      simpa [hu] using h
    unfold insert
    split
    · by_cases hk : k = w.handle
      · simp [hk]
      · rw [List.find?_cons_of_neg (by simpa using Ne.symm hk), if_neg hk]
    · by_cases huk : u.handle = k
      · have hk : k ≠ w.handle := fun heq => hu (huk.trans heq)
        simp [huk, hk]
      · rw [List.find?_cons_of_neg (by simpa using huk), ih hrest,
          List.find?_cons_of_neg (by simpa using huk)]

omit [Scalar α] in
theorem find?_replace (w : Window α) (windows : List (Window α)) (k : UInt32) :
    (replace w windows).find? (·.handle = k) =
      if k = w.handle then (windows.find? (·.handle = k)).map fun _ => w
      else windows.find? (·.handle = k) := by
  induction windows with
  | nil => simp [replace]
  | cons u rest ih =>
    have hcons : replace w (u :: rest) =
        (if u.handle = w.handle then w else u) :: replace w rest := rfl
    rw [hcons]
    by_cases hu : u.handle = w.handle
    · by_cases hk : k = w.handle
      · simp [hu, hk]
      · simp [hu, hk, Ne.symm hk, ih]
    · by_cases huk : u.handle = k
      · have hk : k ≠ w.handle := fun heq => hu (huk.trans heq)
        simp [huk, hk]
      · simp [hu, huk, ih]

omit [Scalar α] in
theorem find?_filter (handle : UInt32) (windows : List (Window α)) (k : UInt32) :
    (windows.filter (·.handle ≠ handle)).find? (·.handle = k) =
      if k = handle then none else windows.find? (·.handle = k) := by
  rw [List.find?_filter]
  by_cases hk : k = handle
  · simp [hk]
  · rw [if_neg hk]
    congr 1
    funext w
    by_cases hw : w.handle = k
    · simp [hw, hk]
    · simp [hw]

section Lookup

omit [Scalar α]

variable {k : UInt32}

theorem get?_insert_self (w : Window α) (h : d.get? k = none) (changes : Nat)
    (hw : w.handle = k) :
    get? { d with windows := insert w d.windows, changes := changes } k = some w := by
  subst hw
  exact (find?_insert h w.handle).trans (if_pos rfl)

theorem get?_insert_of_ne (w : Window α) (h : d.get? w.handle = none) (changes : Nat)
    (hk : k ≠ w.handle) :
    get? { d with windows := insert w d.windows, changes := changes } k = d.get? k :=
  (find?_insert h k).trans (if_neg hk)

theorem get?_replace_self {v : Window α} (w : Window α) (hv : d.get? k = some v) (changes : Nat)
    (hw : w.handle = v.handle) :
    get? { d with windows := replace w d.windows, changes := changes } k = some w := by
  obtain ⟨-, rfl⟩ := get?_eq_some hv
  have hfind : d.windows.find? (·.handle = v.handle) = some v := hv
  refine (find?_replace w d.windows v.handle).trans ?_
  rw [if_pos hw.symm, hfind]
  rfl

theorem get?_replace_of_ne (w : Window α) (changes : Nat) (hk : k ≠ w.handle) :
    get? { d with windows := replace w d.windows, changes := changes } k = d.get? k :=
  (find?_replace w d.windows k).trans (if_neg hk)

theorem get?_filter_self (changes : Nat) :
    get? { d with windows := d.windows.filter (·.handle ≠ k), changes := changes } k = none :=
  (find?_filter k d.windows k).trans (if_pos rfl)

theorem get?_filter_of_ne {handle : UInt32} (changes : Nat) (hk : k ≠ handle) :
    get? { d with windows := d.windows.filter (·.handle ≠ handle), changes := changes } k =
      d.get? k :=
  (find?_filter handle d.windows k).trans (if_neg hk)

end Lookup

theorem outcome_of_handle? {op : WindowOp α} {handle : UInt32} (h : op.handle? = some handle) :
    d.outcome op = (op.onOwn d.scaleFactor (d.get? handle)).map fun _ => () := by
  cases op with
  | create k =>
    cases h
    rw [outcome_create]
    cases d.get? handle <;> rfl
  | setTitle k title =>
    cases h
    rw [outcome_setTitle]
    cases d.get? handle <;> rfl
  | setSize k size =>
    cases h
    rw [outcome_setSize]
    cases d.get? handle with
    | none => rfl
    | some w =>
      simp only [Option.isSome_some, if_true, WindowOp.onOwn]
      cases (PhysicalSize.ofLogical size d.scaleFactor).checkLimit <;> rfl
  | «show» k bitmap =>
    cases h
    rw [outcome_show]
    cases d.get? handle <;> rfl
  | destroy k =>
    cases h
    rw [outcome_destroy]
    cases d.get? handle <;> rfl
  | setDisplayScale scale => cases h

theorem step_or_refused (hsorted : d.IsSorted) (op : WindowOp α) :
    (d.outcome op = .ok () ∧ Step d op ((perform op).after d)) ∨
      ∃ v, d.outcome op = .error v ∧ (perform op).after d = d := by
  unfold outcome
  rw [snd_apply]
  cases hrun : (perform op).run d with
  | ok _ d' =>
    left
    rw [after_of_run_ok hrun]
    exact ⟨rfl, step_of_run_perform hrun⟩
  | error v d' =>
    right
    rw [after_of_run_error hrun]
    exact ⟨v, rfl, isAtomicAt_perform hsorted op v d' hrun⟩

theorem Step.onOwn_eq {d' : Desktop α} {op : WindowOp α} (h : Step d op d') {k : UInt32}
    (hop : op.handle? = some k) : op.onOwn d.scaleFactor (d.get? k) = .ok (d'.get? k) := by
  cases h with
  | create hget =>
    cases hop
    rw [get?_insert_self (.new k) hget _ rfl, hget]
    rfl
  | @setTitle _ w hget title =>
    cases hop
    rw [get?_replace_self { w with title := title } hget _ rfl, hget]
    rfl
  | @setSize _ w hget size harea =>
    cases hop
    rw [get?_replace_self (w.resized size d.scaleFactor) hget _ rfl, hget, WindowOp.onOwn,
      PhysicalSize.checkLimit_eq_ok.mpr harea]
    rfl
  | @«show» _ w hget bitmap =>
    cases hop
    rw [get?_replace_self (w.present bitmap) hget _ rfl, hget]
    rfl
  | destroy hlive =>
    cases hop
    obtain ⟨w, hget⟩ := Option.isSome_iff_exists.mp hlive
    rw [get?_filter_self, hget]
    rfl
  | setDisplayScale scale => cases hop

theorem Step.get?_eq {d' : Desktop α} {op : WindowOp α} (h : Step d op d') {k : UInt32}
    (hop : op.handle? ≠ some k) : d'.get? k = d.get? k := by
  have hne {handle : UInt32} (hhandle : op.handle? = some handle) : k ≠ handle := by
    rintro rfl
    exact hop hhandle
  cases h with
  | @create handle hget => exact get?_insert_of_ne (.new handle) hget _ (hne rfl)
  | setTitle hget title =>
    obtain ⟨-, rfl⟩ := get?_eq_some hget
    exact get?_replace_of_ne _ _ (hne rfl)
  | setSize hget harea =>
    obtain ⟨-, rfl⟩ := get?_eq_some hget
    exact get?_replace_of_ne _ _ (hne rfl)
  | «show» hget bitmap =>
    obtain ⟨-, rfl⟩ := get?_eq_some hget
    exact get?_replace_of_ne _ _ (hne rfl)
  | destroy hlive => exact get?_filter_of_ne _ (hne rfl)
  | setDisplayScale scale => rfl

theorem Step.displayScale_eq {d' : Desktop α} {op : WindowOp α} (h : Step d op d')
    {k : UInt32} (hop : op.handle? = some k) : d'.displayScale = d.displayScale := by
  cases h with
  | setDisplayScale scale => cases hop
  | _ => rfl

end Desktop

end EngineBridge
