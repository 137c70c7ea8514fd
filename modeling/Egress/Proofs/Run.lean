/-!
Runs: a step function taken over a list of inputs, with the answers in order and the last state. A
relation between the states of two machines that every step keeps, and under which every step
answers alike, holds after every run, and the runs answer alike.
-/

namespace Egress

variable {σ τ ι ο : Type}

def runAll (step : σ → ι → ο × σ) (s : σ) : List ι → List ο × σ
  | [] => ([], s)
  | i :: is =>
      let (o, s) := step s i
      let (os, s) := runAll step s is
      (o :: os, s)

/-- An invariant that speaks of the answers so far. -/
theorem runAll_history {step : σ → ι → ο × σ} {P : σ → List ο → Prop}
    (keeps : ∀ s os i, P s os → P (step s i).2 (os ++ [(step s i).1])) {s : σ} {os : List ο}
    (hs : P s os) (is : List ι) :
    P (runAll step s is).2 (os ++ (runAll step s is).1) := by
  induction is generalizing s os with
  | nil => simpa only [runAll, List.append_nil] using hs
  | cons i is ih =>
      have hrest := ih (keeps s os i hs)
      simpa only [runAll, List.append_assoc, List.singleton_append] using hrest

theorem runAll_invariant {step : σ → ι → ο × σ} {P : σ → Prop}
    (keeps : ∀ s i, P s → P (step s i).2) {s : σ} (hs : P s) (is : List ι) :
    P (runAll step s is).2 := by
  induction is generalizing s with
  | nil => exact hs
  | cons i is ih => exact ih (keeps s i hs)

theorem runAll_concat (step : σ → ι → ο × σ) (s : σ) (is : List ι) (i : ι) :
    (runAll step s (is ++ [i])).2 = (step (runAll step s is).2 i).2 := by
  induction is generalizing s with
  | nil => rfl
  | cons j is ih => exact ih (step s j).2

theorem answers_runAll_concat (step : σ → ι → ο × σ) (s : σ) (is : List ι) (i : ι) :
    (runAll step s (is ++ [i])).1 = (runAll step s is).1 ++ [(step (runAll step s is).2 i).1] := by
  induction is generalizing s with
  | nil => rfl
  | cons j is ih => exact congrArg ((step s j).1 :: ·) (ih (step s j).2)

theorem runAll_simulation {f : σ → ι → ο × σ} {g : τ → ι → ο × τ} {R : σ → τ → Prop}
    (keeps : ∀ s t i, R s t → (f s i).1 = (g t i).1 ∧ R (f s i).2 (g t i).2)
    {s : σ} {t : τ} (hst : R s t) (is : List ι) :
    (runAll f s is).1 = (runAll g t is).1 ∧ R (runAll f s is).2 (runAll g t is).2 := by
  induction is generalizing s t with
  | nil => exact ⟨rfl, hst⟩
  | cons i is ih =>
      obtain ⟨answers, next⟩ := keeps s t i hst
      obtain ⟨rest, last⟩ := ih next
      exact ⟨by simp only [runAll, answers, rest], last⟩

end Egress
