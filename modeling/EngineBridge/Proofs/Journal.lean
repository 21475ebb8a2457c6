import EngineBridge.Proofs.Update
import Mathlib.Data.List.Induction

/-! Runs of steps that may be refused. What later matters of a run is the state it ends in and its
journal: the inputs that went through, each with the state it met. -/
namespace EngineBridge

/-- An input that went through, and the state it met. -/
structure Entry (σ ι : Type) where
  before : σ
  input : ι

namespace Update

variable {σ ι : Type} (step : ι → Update σ Unit)

def runAll (s : σ) (inputs : List ι) : σ :=
  inputs.foldl (fun s input => (step input).after s) s

def journal (s : σ) : List ι → List (Entry σ ι)
  | [] => []
  | input :: rest =>
    match (step input).run s with
    | .ok _ s' => ⟨s, input⟩ :: journal s' rest
    | .error _ s' => journal s' rest

variable {step}

theorem runAll_concat (s : σ) (inputs : List ι) (input : ι) :
    runAll step s (inputs ++ [input]) = (step input).after (runAll step s inputs) := by
  unfold runAll
  rw [List.foldl_append]
  rfl

theorem journal_concat (s : σ) (inputs : List ι) (input : ι) :
    journal step s (inputs ++ [input]) = journal step s inputs ++
      match (step input).run (runAll step s inputs) with
      | .ok _ _ => [⟨runAll step s inputs, input⟩]
      | .error _ _ => [] := by
  induction inputs generalizing s with
  | nil =>
    rw [List.nil_append, journal]
    rfl
  | cons first rest ih =>
    rw [List.cons_append, journal, journal, runAll, List.foldl_cons]
    cases hfirst : (step first).run s with
    | ok a s' =>
      rw [after_of_run_ok hfirst]
      simp only [ih, List.cons_append]
      rfl
    | error v s' =>
      rw [after_of_run_error hfirst]
      simp only [ih]
      rfl

/-- What holds at first, and is kept by every input that goes through and by every one that is
refused, holds after any run. -/
theorem journal_induction {P : σ → List (Entry σ ι) → Prop} {s : σ} (hnil : P s [])
    (hok : ∀ t done input t', P t done → (step input).run t = .ok () t' →
      P t' (done ++ [⟨t, input⟩]))
    (herror : ∀ t done input v t', P t done → (step input).run t = .error v t' → P t' done)
    (inputs : List ι) : P (runAll step s inputs) (journal step s inputs) := by
  induction inputs using List.reverseRecOn with
  | nil => exact hnil
  | append_singleton inputs input ih =>
    rw [runAll_concat, journal_concat]
    cases hrun : (step input).run (runAll step s inputs) with
    | ok a t =>
      rw [after_of_run_ok hrun]
      exact hok _ _ input t ih hrun
    | error v t =>
      rw [after_of_run_error hrun, List.append_nil]
      exact herror _ _ input v t ih hrun

/-- Where an invariant makes every step atomic, the steps that are refused do not matter. -/
theorem journal_induction_of_isAtomicAt {I : σ → Prop} {P : σ → List (Entry σ ι) → Prop} {s : σ}
    (hkeeps : ∀ input, Keeps I (step input))
    (hatomic : ∀ t, I t → ∀ input, IsAtomicAt t (step input)) (hinit : I s) (hnil : P s [])
    (hok : ∀ t done input t', P t done → (step input).run t = .ok () t' →
      P t' (done ++ [⟨t, input⟩]))
    (inputs : List ι) :
    I (runAll step s inputs) ∧ P (runAll step s inputs) (journal step s inputs) := by
  refine journal_induction (P := fun t done => I t ∧ P t done) ⟨hinit, hnil⟩ ?_ ?_ inputs
  · rintro t done input t' ⟨hI, hP⟩ hrun
    have hafter := hkeeps input t hI
    rw [after_of_run_ok hrun] at hafter
    exact ⟨hafter, hok t done input t' hP hrun⟩
  · rintro t done input v t' ⟨hI, hP⟩ hrun
    rw [hatomic t hI input v t' hrun]
    exact ⟨hI, hP⟩

end Update

section Since

variable {σ ι : Type}

/-- Whether `p` holds of some entry, and `q` of none after it. -/
def Since (p q : Entry σ ι → Prop) (done : List (Entry σ ι)) : Prop :=
  ∃ earlier e later, done = earlier ++ e :: later ∧ p e ∧ ∀ e' ∈ later, ¬q e'

variable {p q : Entry σ ι → Prop} {done : List (Entry σ ι)} {e : Entry σ ι}

theorem not_since_nil : ¬Since p q [] := by
  rintro ⟨earlier, e, later, h, -⟩
  simp at h

theorem since_concat : Since p q (done ++ [e]) ↔ p e ∨ Since p q done ∧ ¬q e := by
  constructor
  · rintro ⟨earlier, e', later, h, hp, hq⟩
    cases later using List.reverseRecOn with
    | nil =>
      obtain ⟨-, rfl⟩ := List.append_singleton_inj.mp h
      exact .inl hp
    | append_singleton later last =>
      rw [← List.cons_append, ← List.append_assoc] at h
      obtain ⟨rfl, rfl⟩ := List.append_singleton_inj.mp h
      refine .inr ⟨⟨earlier, e', later, rfl, hp, fun x hx => ?_⟩, ?_⟩
      · exact hq x (List.mem_append_left _ hx)
      · exact hq e (List.mem_append_right _ List.mem_cons_self)
  · rintro (hp | ⟨⟨earlier, e', later, rfl, hp, hq⟩, he⟩)
    · exact ⟨done, e, [], rfl, hp, nofun⟩
    · refine ⟨earlier, e', later ++ [e], by simp, hp, fun x hx => ?_⟩
      rcases List.mem_append.mp hx with hx | hx
      · exact hq x hx
      · rwa [List.mem_singleton.mp hx]

theorem Since.exists_common {p' : Entry σ ι → Prop} (h : Since p q done) (h' : Since p' q done)
    (hp : ∀ e, p e → q e) (hp' : ∀ e, p' e → q e) : ∃ e, p e ∧ p' e := by
  induction done using List.reverseRecOn with
  | nil => exact absurd h not_since_nil
  | append_singleton done e ih =>
    rcases since_concat.mp h with he | ⟨hdone, hnot⟩
    · rcases since_concat.mp h' with he' | ⟨-, hnot'⟩
      · exact ⟨e, he, he'⟩
      · exact absurd (hp e he) hnot'
    · rcases since_concat.mp h' with he' | ⟨hdone', -⟩
      · exact absurd (hp' e he') hnot
      · exact ih hdone hdone'

end Since

end EngineBridge
