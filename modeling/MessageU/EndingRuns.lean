import Mathlib

/- Deterministic machines that may run forever. A state is final, or stuck, and stays
   what it is, or the step brings a rank down. Then a run ends if it is never stuck. -/
namespace EndingRuns
variable {State Rank : Type} (step : State → State)

def Ends (final : State → Prop) (s : State) : Prop := ∃ n, final (step^[n] s)

theorem iterates_kept {inv : State → Prop} (kept : ∀ s, inv s → inv (step s)) {s : State}
    (start : inv s) (n : Nat) : inv (step^[n] s) := by
  induction n with
  | zero => exact start
  | succ n ih =>
    rw [Function.iterate_succ_apply']
    exact kept _ ih

theorem fixed_forever {s : State} (fixed : step s = s) {m n : Nat} (later : m ≤ n) {first : State}
    (here : step^[m] first = s) : step^[n] first = s := by
  obtain ⟨k, rfl⟩ := Nat.exists_eq_add_of_le' later
  rw [Function.iterate_add_apply, here]
  exact Function.iterate_fixed fixed k

theorem leaves [LT Rank] [WellFoundedLT Rank] (region : State → Prop) (rank : State → Rank)
    (falls : ∀ s, region s → rank (step s) < rank s) (s : State) :
    ∃ n, ¬ region (step^[n] s) := by
  induction at_rank : rank s using WellFoundedLT.induction generalizing s with
  | ind r ih =>
    by_cases inside : region s
    · have lower : rank (step s) < r := at_rank ▸ falls s inside
      obtain ⟨n, left⟩ := ih _ lower (step s) rfl
      exact ⟨n + 1, left⟩
    · exact ⟨0, inside⟩

structure Ranked [LT Rank] (final stuck inv : State → Prop) (rank : State → Rank) : Prop where
  kept : ∀ s, inv s → inv (step s)
  final_stays : ∀ s, final s → step s = s
  stuck_stays : ∀ s, stuck s → step s = s
  apart : ∀ s, stuck s → ¬ final s
  falls : ∀ s, inv s → ¬ final s → ¬ stuck s → rank (step s) < rank s

variable {step} [LT Rank] {final stuck inv : State → Prop} {rank : State → Rank}

theorem Ranked.stuck_endless (ranked : Ranked step final stuck inv rank) {s : State} {n : Nat}
    (here : stuck (step^[n] s)) : ¬ Ends step final s := by
  rintro ⟨m, ended⟩
  have stays := ranked.stuck_stays _ here
  rcases Nat.le_total m n with before | behind
  · have same := fixed_forever step (ranked.final_stays _ ended) before rfl
    rw [same] at here
    exact ranked.apart _ here ended
  · have same := fixed_forever step stays behind rfl
    rw [same] at ended
    exact ranked.apart _ here ended

theorem Ranked.ends_iff [WellFoundedLT Rank] (ranked : Ranked step final stuck inv rank)
    {s : State} (start : inv s) : Ends step final s ↔ ∀ n, ¬ stuck (step^[n] s) := by
  constructor
  · intro ends n here
    exact ranked.stuck_endless here ends
  · intro never
    obtain ⟨n, left⟩ := leaves step (fun t => inv t ∧ ¬ final t ∧ ¬ stuck t) rank
      (fun t inside => ranked.falls t inside.1 inside.2.1 inside.2.2) s
    refine ⟨n, ?_⟩
    by_contra running
    exact left ⟨iterates_kept step ranked.kept start n, running, never n⟩

end EndingRuns
