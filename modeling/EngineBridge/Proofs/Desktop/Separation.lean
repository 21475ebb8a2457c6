import EngineBridge.Proofs.Desktop.Locality
import Mathlib.Data.List.Sort

/-! Windows do not interfere. What becomes of a window, and what its operations come to, is the same
if no other window was ever there, so that operations on different windows may change places. -/
namespace EngineBridge

variable {α : Type} [Scalar α]

omit [Scalar α] in
/-- Whether the operation acts on the window of the handle, or on the display that all windows
share. -/
def WindowOp.concerns (handle : UInt32) (op : WindowOp α) : Bool := op.handle?.all (· = handle)

namespace Desktop

/-- The operations, each with what comes of it in its turn. -/
def outcomes (d : Desktop α) : List (WindowOp α) → List (WindowOp α × Except Violation Unit)
  | [] => []
  | op :: rest => (op, d.outcome op) :: outcomes ((perform op).after d) rest

/-- Whether two desktops are the same to whoever knows only one of the handles. -/
structure SameFor (handle : UInt32) (d e : Desktop α) : Prop where
  get?_eq : d.get? handle = e.get? handle
  displayScale_eq : d.displayScale = e.displayScale

variable {d e f : Desktop α} {op p q : WindowOp α} {k : UInt32}

section SameFor

omit [Scalar α]

theorem SameFor.symm (h : SameFor k d e) : SameFor k e d :=
  ⟨h.get?_eq.symm, h.displayScale_eq.symm⟩

theorem SameFor.trans (h : SameFor k d e) (h' : SameFor k e f) : SameFor k d f :=
  ⟨h.get?_eq.trans h'.get?_eq, h.displayScale_eq.trans h'.displayScale_eq⟩

end SameFor

theorem SameFor.scaleFactor_eq (h : SameFor k d e) : d.scaleFactor = e.scaleFactor := by
  unfold scaleFactor
  rw [h.displayScale_eq]

theorem SameFor.outcome_eq (h : SameFor k d e) (hop : op.concerns k) :
    d.outcome op = e.outcome op := by
  cases hhandle : op.handle? with
  | none =>
    cases op with
    | setDisplayScale scale => rfl
    | _ => cases hhandle
  | some handle =>
    obtain rfl : handle = k := by simpa [WindowOp.concerns, hhandle] using hop
    rw [outcome_of_handle? hhandle, outcome_of_handle? hhandle, h.get?_eq, h.scaleFactor_eq]

theorem SameFor.after (hd : d.IsSorted) (he : e.IsSorted) (h : SameFor k d e)
    (hop : op.concerns k) : SameFor k ((perform op).after d) ((perform op).after e) := by
  have houtcome := h.outcome_eq hop
  cases hhandle : op.handle? with
  | none =>
    cases op with
    | setDisplayScale scale => exact ⟨h.get?_eq, rfl⟩
    | _ => cases hhandle
  | some handle =>
    obtain rfl : handle = k := by simpa [WindowOp.concerns, hhandle] using hop
    rcases step_or_refused hd op with ⟨hok, hdstep⟩ | ⟨v, herror, hdsame⟩
    · rcases step_or_refused he op with ⟨-, hestep⟩ | ⟨v', herror', -⟩
      · have hown := (hdstep.onOwn_eq hhandle).symm
        rw [h.get?_eq, h.scaleFactor_eq, hestep.onOwn_eq hhandle] at hown
        refine ⟨Except.ok.inj hown, ?_⟩
        rw [hdstep.displayScale_eq hhandle, hestep.displayScale_eq hhandle, h.displayScale_eq]
      · rw [hok, herror'] at houtcome
        contradiction
    · rcases step_or_refused he op with ⟨hok', -⟩ | ⟨v', -, hesame⟩
      · rw [herror, hok'] at houtcome
        contradiction
      · rwa [hdsame, hesame]

theorem sameFor_after (hd : d.IsSorted) (hop : ¬op.concerns k) :
    SameFor k ((perform op).after d) d := by
  rcases step_or_refused hd op with ⟨-, hstep⟩ | ⟨v, -, hsame⟩
  · cases hhandle : op.handle? with
    | none => simp [WindowOp.concerns, hhandle] at hop
    | some handle =>
      refine ⟨hstep.get?_eq fun heq => hop ?_, hstep.displayScale_eq hhandle⟩
      simp [WindowOp.concerns, heq]
  · rw [hsame]
    exact ⟨rfl, rfl⟩

theorem SameFor.run_filter (hd : d.IsSorted) (he : e.IsSorted) (h : SameFor k d e)
    (ops : List (WindowOp α)) :
    d.outcomes (ops.filter (·.concerns k)) = (e.outcomes ops).filter (·.1.concerns k) ∧
      SameFor k (d.run (ops.filter (·.concerns k))) (e.run ops) := by
  induction ops generalizing d e with
  | nil => exact ⟨rfl, h⟩
  | cons op rest ih =>
    by_cases hop : op.concerns k
    · obtain ⟨houtcomes, hrun⟩ := ih (keeps_isSorted_perform op d hd)
        (keeps_isSorted_perform op e he) (h.after hd he hop)
      rw [List.filter_cons_of_pos hop]
      refine ⟨?_, hrun⟩
      simp [outcomes, hop, houtcomes, h.outcome_eq hop]
    · obtain ⟨houtcomes, hrun⟩ := ih hd (keeps_isSorted_perform op e he)
        (h.trans (sameFor_after he hop).symm)
      rw [List.filter_cons_of_neg hop]
      refine ⟨?_, hrun⟩
      simp [outcomes, hop, houtcomes]

theorem isSorted_run (hd : d.IsSorted) (ops : List (WindowOp α)) : (d.run ops).IsSorted := by
  induction ops generalizing d with
  | nil => exact hd
  | cons op rest ih => exact ih (keeps_isSorted_perform op d hd)

theorem outcomes_append (d : Desktop α) (ops rest : List (WindowOp α)) :
    d.outcomes (ops ++ rest) = d.outcomes ops ++ (d.run ops).outcomes rest := by
  induction ops generalizing d with
  | nil => rfl
  | cons op ops ih => exact congrArg _ (ih ((perform op).after d))

theorem run_append (d : Desktop α) (ops rest : List (WindowOp α)) :
    d.run (ops ++ rest) = (d.run ops).run rest :=
  List.foldl_append

omit [Scalar α] in
theorem eq_of_get? (hd : d.IsSorted) (he : e.IsSorted) (hget : ∀ k, d.get? k = e.get? k)
    (hscale : d.displayScale = e.displayScale) (hchanges : d.changes = e.changes) : d = e := by
  have hmem (w : Window α) : w ∈ d.windows ↔ w ∈ e.windows := by
    constructor
    · intro hw
      have hsome := get?_of_mem hd hw
      rw [hget] at hsome
      exact (get?_eq_some hsome).1
    · intro hw
      have hsome := get?_of_mem he hw
      rw [← hget] at hsome
      exact (get?_eq_some hsome).1
  have hirrefl : Std.Irrefl fun v w : Window α => v.handle < w.handle :=
    ⟨fun _ => UInt32.lt_irrefl _⟩
  have hantisymm : Std.Antisymm fun v w : Window α => v.handle < w.handle :=
    ⟨fun _ _ hlt hgt => absurd hgt (UInt32.lt_asymm hlt)⟩
  have hwindows : d.windows = e.windows :=
    (List.pairwise_map.mp hd).eq_of_mem_iff (List.pairwise_map.mp he) hmem
  cases d
  cases e
  cases hwindows
  cases hscale
  cases hchanges
  rfl

theorem changes_after (hd : d.IsSorted) (op : WindowOp α) :
    ((perform op).after d).changes =
      match d.outcome op with
      | .ok _ => d.changes + if op.isChange then 1 else 0
      | .error _ => d.changes := by
  rcases step_or_refused hd op with ⟨hok, hstep⟩ | ⟨v, herror, hsame⟩
  · rw [hok, hstep.changes_eq]
  · rw [herror, hsame]

theorem outcome_after {j : UInt32} (hd : d.IsSorted) (hp : p.handle? = some j)
    (hq : q.handle? = some k) (hne : j ≠ k) :
    ((perform p).after d).outcome q = d.outcome q := by
  have hpk : ¬p.concerns k := by simpa [WindowOp.concerns, hp] using hne
  have hqk : q.concerns k := by simp [WindowOp.concerns, hq]
  exact (sameFor_after hd hpk).outcome_eq hqk

theorem sameFor_after_after (hd : d.IsSorted) (hq : ¬q.concerns k) :
    SameFor k ((perform q).after ((perform p).after d))
      ((perform p).after ((perform q).after d)) := by
  have hdp := keeps_isSorted_perform p d hd
  have hdq := keeps_isSorted_perform q d hd
  have hlast : SameFor k ((perform q).after ((perform p).after d)) ((perform p).after d) :=
    sameFor_after hdp hq
  refine hlast.trans ?_
  by_cases hp : p.concerns k
  · exact (sameFor_after hd hq).symm.after hd hdq hp
  · exact (sameFor_after hd hp).trans
      ((sameFor_after hd hq).symm.trans (sameFor_after hdq hp).symm)

theorem after_after_comm {j : UInt32} (hd : d.IsSorted) (hp : p.handle? = some j)
    (hq : q.handle? = some k) (hne : j ≠ k) :
    (perform q).after ((perform p).after d) = (perform p).after ((perform q).after d) := by
  have hdp := keeps_isSorted_perform p d hd
  have hdq := keeps_isSorted_perform q d hd
  have hsame (i : UInt32) : SameFor i ((perform q).after ((perform p).after d))
      ((perform p).after ((perform q).after d)) := by
    by_cases hi : q.concerns i
    · have hpi : ¬p.concerns i := by
        obtain rfl : k = i := by simpa [WindowOp.concerns, hq] using hi
        simpa [WindowOp.concerns, hp] using hne
      exact (sameFor_after_after hd hpi).symm
    · exact sameFor_after_after hd hi
  refine eq_of_get? (keeps_isSorted_perform q _ hdp) (keeps_isSorted_perform p _ hdq)
    (fun i => (hsame i).get?_eq) (hsame j).displayScale_eq ?_
  rw [changes_after hdp, changes_after hdq, changes_after hd, changes_after hd,
    outcome_after hd hp hq hne, outcome_after hd hq hp hne.symm]
  cases d.outcome p <;> cases d.outcome q <;> simp [Nat.add_right_comm]

/-- A run without the operations on other windows gives a window the same, and the same answers to
its own operations. Neighbouring operations on two windows may change places: the desktop is the
same in the end, and each operation is answered as before. -/
theorem run_filter_concerns (scale : α) :
    let d : Desktop α := { displayScale := scale }
    (∀ ops handle,
      let own := ops.filter (·.concerns handle)
      d.outcomes own = (d.outcomes ops).filter (·.1.concerns handle) ∧
        (d.run own).get? handle = (d.run ops).get? handle) ∧
      ∀ front p q back j k, p.handle? = some j → q.handle? = some k → j ≠ k →
        d.run (front ++ p :: q :: back) = d.run (front ++ q :: p :: back) ∧
          ∃ r s later,
            d.outcomes (front ++ p :: q :: back) = d.outcomes front ++ (p, r) :: (q, s) :: later ∧
            d.outcomes (front ++ q :: p :: back) = d.outcomes front ++ (q, s) :: (p, r) :: later := by
  intro d
  have hd : d.IsSorted := .nil
  constructor
  · intro ops handle own
    obtain ⟨houtcomes, hsame⟩ := SameFor.run_filter hd hd ⟨rfl, rfl⟩ ops
    exact ⟨houtcomes, hsame.get?_eq⟩
  · intro front p q back j k hp hq hne
    have hfront := isSorted_run hd front
    have hcomm := after_after_comm hfront hp hq hne
    constructor
    · rw [run_append, run_append]
      exact congrArg (run · back) hcomm
    · refine ⟨(d.run front).outcome p, (d.run front).outcome q,
        outcomes ((perform q).after ((perform p).after (d.run front))) back, ?_, ?_⟩
      · rw [outcomes_append, outcomes, outcomes, outcome_after hfront hp hq hne]
      · rw [outcomes_append, outcomes, outcomes, outcome_after hfront hq hp hne.symm, hcomm]

theorem run_filter_concerns_replaced :
    let d : Desktop Float := { displayScale := 1.5 }
    let resize : WindowOp Float := .setSize 1 ⟨3, 2⟩
    let destroy : WindowOp Float := .destroy 2
    resize.handle? = some 1 ∧ destroy.handle? = some 2 ∧ (1 : UInt32) ≠ 2 ∧
      d.run ([.create 2, .create 1] ++ resize :: destroy :: [.create 2]) =
        d.run ([.create 2, .create 1] ++ destroy :: resize :: [.create 2]) := by
  intro d resize destroy
  have hne : (1 : UInt32) ≠ 2 := by decide
  exact ⟨rfl, rfl, hne, ((run_filter_concerns 1.5).2 _ resize destroy _ 1 2 rfl rfl hne).1⟩

end Desktop

end EngineBridge
