import EngineBridge.Update

/-! What can be said of an operation from its steps: what it keeps, whether it can be refused at
all, and whether a refusal leaves no trace. -/
namespace EngineBridge.Update

variable {σ τ α β : Type}

theorem apply_eq_error {update : Update σ α} {s s' : σ} {v : Violation} :
    update.apply s = (s', .error v) ↔ update.run s = .error v s' := by
  unfold apply
  cases update.run s <;> simp [Prod.mk.injEq, and_comm]

theorem snd_apply (update : Update σ α) (s : σ) :
    (update.apply s).2 = match update.run s with | .ok a _ => .ok a | .error v _ => .error v := by
  unfold apply
  cases update.run s <;> rfl

theorem after_eq (update : Update σ α) (s : σ) :
    update.after s = match update.run s with | .ok _ t => t | .error _ t => t := by
  unfold after apply
  cases update.run s <;> rfl

theorem run_of_snd_apply {update : Update σ α} {s : σ} {a : α}
    (h : (update.apply s).2 = .ok a) : update.run s = .ok a (update.after s) := by
  rw [snd_apply] at h
  rw [after_eq]
  cases hrun : update.run s with
  | ok b t =>
    rw [hrun] at h
    cases h
    rfl
  | error v t =>
    rw [hrun] at h
    cases h

theorem after_of_run_ok {update : Update σ α} {s s' : σ} {a : α} (h : update.run s = .ok a s') :
    update.after s = s' := by
  rw [after_eq, h]

theorem after_of_run_error {update : Update σ α} {s s' : σ} {v : Violation}
    (h : update.run s = .error v s') : update.after s = s' := by
  unfold after apply
  rw [h]

theorem run_onPart (part : σ → τ) (put : τ → σ → σ) (update : Update τ α) (s : σ) :
    (onPart part put update).run s =
      match update.run (part s) with
      | .ok a t => .ok a (put t s)
      | .error v t => .error v (put t s) := rfl

def Keeps (P : σ → Prop) (update : Update σ α) : Prop := ∀ s, P s → P (update.after s)

section Keeps

variable {P : σ → Prop} {Q : τ → Prop}

theorem keeps_modify {f : σ → σ} (h : ∀ s, P s → P (f s)) : Keeps P (modify f : Update σ Unit) := h

theorem keeps_ofExcept (judgement : Except Violation α) :
    Keeps P (ofExcept judgement : Update σ α) := by
  intro s h
  cases judgement <;> exact h

theorem keeps_get_bind {f : σ → Update σ β} (h : ∀ s, P s → P ((f s).after s)) :
    Keeps P (get >>= f : Update σ β) := h

theorem Keeps.bind {update : Update σ α} {f : α → Update σ β} (h : Keeps P update)
    (hf : ∀ a, Keeps P (f a)) : Keeps P (update >>= f) := by
  intro s hs
  have hafter := h s hs
  have hbind : (update >>= f).run s = _ := EStateM.run_bind update f
  cases hrun : update.run s with
  | ok a t =>
    rw [after_of_run_ok hrun] at hafter
    rw [hrun] at hbind
    have hrest := hf a t hafter
    unfold after apply at hrest ⊢
    rw [hbind]
    exact hrest
  | error v t =>
    rw [hrun] at hbind
    rw [after_of_run_error hbind]
    rwa [after_of_run_error hrun] at hafter

theorem Keeps.onPart {part : σ → τ} {put : τ → σ → σ} {update : Update τ α} (h : Keeps Q update)
    (hpart : ∀ s, P s → Q (part s)) (hput : ∀ t s, P s → Q t → P (put t s)) :
    Keeps P (onPart part put update) := by
  intro s hs
  have hafter := h (part s) (hpart s hs)
  cases hrun : update.run (part s) with
  | ok a t =>
    have hon : (Update.onPart part put update).run s = .ok a (put t s) := by rw [run_onPart, hrun]
    rw [after_of_run_ok hon]
    rw [after_of_run_ok hrun] at hafter
    exact hput t s hs hafter
  | error v t =>
    have hon : (Update.onPart part put update).run s = .error v (put t s) := by
      rw [run_onPart, hrun]
    rw [after_of_run_error hon]
    rw [after_of_run_error hrun] at hafter
    exact hput t s hs hafter

end Keeps

def CannotRefuse (update : Update σ α) : Prop := ∀ s v s', update.run s ≠ .error v s'

/-- Whether the operation leaves a state as it is when it is refused there. -/
def IsAtomicAt (s : σ) (update : Update σ α) : Prop :=
  ∀ v s', update.run s = .error v s' → s' = s

theorem cannotRefuse_modify (f : σ → σ) : CannotRefuse (modify f : Update σ Unit) := by
  intro s v s' h
  cases h

theorem CannotRefuse.bind {update : Update σ α} {f : α → Update σ β} (h : CannotRefuse update)
    (hf : ∀ a, CannotRefuse (f a)) : CannotRefuse (update >>= f) := by
  intro s v s' hrun
  rw [EStateM.run_bind] at hrun
  cases hfirst : update.run s with
  | ok a t =>
    rw [hfirst] at hrun
    exact hf a t v s' hrun
  | error v' t => exact h s v' t hfirst

theorem CannotRefuse.onPart {part : σ → τ} {put : τ → σ → σ} {update : Update τ α}
    (h : CannotRefuse update) : CannotRefuse (onPart part put update) := by
  intro s v s' hrun
  rw [run_onPart] at hrun
  cases hpart : update.run (part s) with
  | ok a t =>
    rw [hpart] at hrun
    cases hrun
  | error v' t => exact h (part s) v' t hpart

theorem CannotRefuse.isAtomicAt {update : Update σ α} (h : CannotRefuse update) (s : σ) :
    IsAtomicAt s update :=
  fun v s' hrun => absurd hrun (h s v s')

theorem isAtomicAt_throw (v : Violation) (s : σ) : IsAtomicAt s (throw v : Update σ α) := by
  rintro v' s' ⟨⟩
  rfl

theorem isAtomicAt_get_bind {f : σ → Update σ β} {s : σ} (h : IsAtomicAt s (f s)) :
    IsAtomicAt s (get >>= f : Update σ β) := h

/-- A refusal at the first step is a refusal of the whole. Steps after it must not be refused. -/
theorem IsAtomicAt.bind {update : Update σ α} {f : α → Update σ β} {s : σ}
    (h : IsAtomicAt s update) (hf : ∀ a, CannotRefuse (f a)) : IsAtomicAt s (update >>= f) := by
  intro v s' hrun
  rw [EStateM.run_bind] at hrun
  cases hfirst : update.run s with
  | ok a t =>
    rw [hfirst] at hrun
    exact absurd hrun (hf a t v s')
  | error v' t =>
    rw [hfirst] at hrun
    cases hrun
    exact h v s' hfirst

theorem isAtomicAt_ofExcept_bind {judgement : Except Violation α} {f : α → Update σ β} {s : σ}
    (h : ∀ a, IsAtomicAt s (f a)) : IsAtomicAt s (ofExcept judgement >>= f) := by
  cases judgement with
  | ok a => exact h a
  | error v => exact isAtomicAt_throw v s

theorem IsAtomicAt.onPart {part : σ → τ} {put : τ → σ → σ} {update : Update τ α} {s : σ}
    (h : IsAtomicAt (part s) update) (hput : put (part s) s = s) :
    IsAtomicAt s (onPart part put update) := by
  intro v s' hrun
  rw [run_onPart] at hrun
  cases hpart : update.run (part s) with
  | ok a t =>
    rw [hpart] at hrun
    cases hrun
  | error v' t =>
    rw [hpart] at hrun
    cases hrun
    rw [h v _ hpart, hput]

end EngineBridge.Update
