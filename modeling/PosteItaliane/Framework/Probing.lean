import Mathlib.Data.Finset.Card
import Mathlib.Logic.Function.Iterate

/-!
# Probing for something unused

A loop that tries one candidate after the other until it finds one that is not in use. It
ends exactly when the sequence of candidates has an unused one, and then with the first.
Finitely many names cannot use up more candidates with different names than there are.
-/

namespace Framework

variable {ι N : Type*}

/-- `while (used i) i = step(i);` with at most `fuel` tests. -/
def probe (used : ι → Prop) [DecidablePred used] (step : ι → ι) : ℕ → ι → Option ι
  | 0, _ => none
  | fuel + 1, i => if used i then probe used step fuel (step i) else some i

/-- What is found is the first unused candidate. -/
theorem probe_eq_some {used : ι → Prop} [DecidablePred used] {step : ι → ι} {fuel : ℕ} {i j : ι}
    (h : probe used step fuel i = some j) :
    ∃ n, step^[n] i = j ∧ ¬ used j ∧ ∀ m < n, used (step^[m] i) := by
  induction fuel generalizing i with
  | zero => cases h
  | succ fuel ih =>
    rw [probe] at h
    by_cases hi : used i
    · rw [if_pos hi] at h
      obtain ⟨n, hj, hfree, hbefore⟩ := ih h
      refine ⟨n + 1, hj, hfree, ?_⟩
      intro m hm
      cases m with
      | zero => exact hi
      | succ m => exact hbefore m (by omega)
    · rw [if_neg hi] at h
      cases h
      exact ⟨0, rfl, hi, by simp⟩

theorem probe_of_first {used : ι → Prop} [DecidablePred used] {step : ι → ι} {n fuel : ℕ} {i : ι}
    (hfree : ¬ used (step^[n] i)) (hbefore : ∀ m < n, used (step^[m] i)) (hfuel : n < fuel) :
    probe used step fuel i = some (step^[n] i) := by
  induction n generalizing i fuel with
  | zero =>
    obtain ⟨fuel, rfl⟩ := Nat.exists_eq_succ_of_ne_zero hfuel.ne'
    exact if_neg hfree
  | succ n ih =>
    obtain ⟨fuel, rfl⟩ := Nat.exists_eq_succ_of_ne_zero (Nat.ne_zero_of_lt hfuel)
    have hrest := ih hfree (fun m hm => hbefore (m + 1) (by omega)) (by omega : n < fuel)
    have hstep : probe used step (fuel + 1) i = probe used step fuel (step i) :=
      if_pos (hbefore 0 (by omega))
    rw [hstep, hrest]
    rfl

theorem card_unused_ge [DecidableEq N] {name : ℕ → N} {bound : ℕ} {unused : Finset ℕ}
    (hinj : ∀ i j, i < bound → j < bound → name i = name j → i = j) {names : Finset N}
    (hunused : ∀ i < bound, i ∉ unused → name i ∈ names) :
    bound - names.card ≤ unused.card := by
  have hused : (Finset.range bound \ unused).card ≤ names.card := by
    apply Finset.card_le_card_of_injOn name
    · intro i hi
      obtain ⟨hi, hfree⟩ := Finset.mem_sdiff.mp hi
      exact hunused i (Finset.mem_range.mp hi) hfree
    · intro i hi j hj hij
      obtain ⟨hi, -⟩ := Finset.mem_sdiff.mp hi
      obtain ⟨hj, -⟩ := Finset.mem_sdiff.mp hj
      exact hinj i j (Finset.mem_range.mp hi) (Finset.mem_range.mp hj) hij
  have hsplit := Finset.le_card_sdiff unused (Finset.range bound)
  rw [Finset.card_range] at hsplit
  omega

end Framework
