/-! Systems whose parties move in any order. Where each move changes nothing or leaves less to do,
and one of the parties can always do something, rounds in which all of them move come to the end. -/
namespace EngineBridge

/-- A measure of what is left to do, for the states of an invariant and up to a goal. -/
structure Ranking {σ μ κ : Type} (move : σ → μ → σ) (party : μ → κ) (Inv : σ → Prop)
    (Done : σ → Prop) where
  rank : σ → Nat
  keeps : ∀ {s}, Inv s → ∀ m, Inv (move s m)
  eq_or_lt : ∀ {s}, Inv s → ∀ m, move s m = s ∨ rank (move s m) < rank s
  stays : ∀ {s}, Inv s → Done s → ∀ m, Done (move s m)
  progress : ∀ {s}, Inv s → ¬Done s →
    ∃ m, ∀ m', party m' = party m → rank (move s m') < rank s

namespace Ranking

variable {σ μ κ : Type} {move : σ → μ → σ} {party : μ → κ} {Inv Done : σ → Prop}
variable (r : Ranking move party Inv Done) {s : σ}

include r

theorem keeps_foldl (h : Inv s) (moves : List μ) : Inv (moves.foldl move s) := by
  induction moves generalizing s with
  | nil => exact h
  | cons m rest ih => exact ih (r.keeps h m)

theorem stays_foldl (h : Inv s) (hdone : Done s) (moves : List μ) :
    Done (moves.foldl move s) := by
  induction moves generalizing s with
  | nil => exact hdone
  | cons m rest ih => exact ih (r.keeps h m) (r.stays h hdone m)

theorem rank_foldl_le (h : Inv s) (moves : List μ) : r.rank (moves.foldl move s) ≤ r.rank s := by
  induction moves generalizing s with
  | nil => exact Nat.le_refl _
  | cons m rest ih =>
    refine Nat.le_trans (ih (r.keeps h m)) ?_
    rcases r.eq_or_lt h m with heq | hlt
    · exact Nat.le_of_eq (congrArg r.rank heq)
    · exact Nat.le_of_lt hlt

theorem rank_foldl_lt (h : Inv s) {m : μ} (hlt : r.rank (move s m) < r.rank s) {moves : List μ}
    (hm : m ∈ moves) : r.rank (moves.foldl move s) < r.rank s := by
  induction moves generalizing s with
  | nil => cases hm
  | cons first rest ih =>
    rw [List.foldl_cons]
    rcases r.eq_or_lt h first with heq | hless
    · have hne : m ≠ first := by
        rintro rfl
        rw [heq] at hlt
        exact Nat.lt_irrefl _ hlt
      rw [heq]
      exact ih h hlt ((List.mem_cons.mp hm).resolve_left hne)
    · exact Nat.lt_of_le_of_lt (r.rank_foldl_le (r.keeps h first) rest) hless

theorem done_foldl_flatten (h : Inv s) {rounds : List (List μ)}
    (hrounds : ∀ round ∈ rounds, ∀ m, ∃ m' ∈ round, party m' = party m)
    (hlength : r.rank s ≤ rounds.length) : Done (rounds.flatten.foldl move s) := by
  by_cases hdone : Done s
  · exact r.stays_foldl h hdone _
  obtain ⟨m, hprogress⟩ := r.progress h hdone
  induction rounds generalizing s m with
  | nil => exact absurd hlength (Nat.not_le.mpr (Nat.zero_lt_of_lt (hprogress m rfl)))
  | cons round rest ih =>
    rw [List.forall_mem_cons] at hrounds
    obtain ⟨m', hm', hparty⟩ := hrounds.1 m
    have hround := r.rank_foldl_lt h (hprogress m' hparty) hm'
    have hrest : r.rank (round.foldl move s) ≤ rest.length :=
      Nat.le_of_lt_succ (Nat.lt_of_lt_of_le hround hlength)
    have hkept := r.keeps_foldl h round
    rw [List.flatten_cons, List.foldl_append]
    by_cases hdone' : Done (round.foldl move s)
    · exact r.stays_foldl hkept hdone' _
    · obtain ⟨next, hnext⟩ := r.progress hkept hdone'
      exact ih hkept hrounds.2 hrest hdone' next hnext

end Ranking

end EngineBridge
