import PosteItaliane.Framework.GuardedSystem
import Mathlib.Order.WellFounded

/-!
# Fair executions

An execution goes on for ever, with moments at which nothing happens. A group of actions is
treated fairly if it is not put off for ever: weakly, when some action of it can always be
taken, and strongly, when one can be taken again and again. A group that makes a
well-founded quantity smaller while nothing else makes it larger then reaches its goal.
-/

namespace Framework

namespace GuardedSystem

variable {σ α β : Type*}

/-- The states one after the other, and the action between two of them or `none`. -/
structure Execution (S : GuardedSystem σ α) where
  state : ℕ → σ
  act : ℕ → Option α
  moves : ∀ i a, act i = some a → S.Enabled (state i) a ∧ state (i + 1) = S.next (state i) a
  rests : ∀ i, act i = none → state (i + 1) = state i

/-- Some action of the group can be taken. -/
def CanTake (S : GuardedSystem σ α) (G : α → Prop) (s : σ) : Prop := ∃ a, G a ∧ S.Enabled s a

namespace Execution

variable {S : GuardedSystem σ α} (E : S.Execution)

/-- An action of the group is taken at this moment. -/
def Takes (G : α → Prop) (i : ℕ) : Prop := ∃ a, G a ∧ E.act i = some a

def WeaklyFair (G : α → Prop) : Prop :=
  ∀ i, (∀ j, i ≤ j → S.CanTake G (E.state j)) → ∃ j, i ≤ j ∧ E.Takes G j

def StronglyFair (G : α → Prop) : Prop :=
  ∀ i, (∀ k, i ≤ k → ∃ j, k ≤ j ∧ S.CanTake G (E.state j)) → ∃ j, i ≤ j ∧ E.Takes G j

theorem invariant {P : σ → Prop} (h0 : P (E.state 0))
    (hstep : ∀ s a, P s → S.Enabled s a → P (S.next s a)) (i : ℕ) : P (E.state i) := by
  induction i with
  | zero => exact h0
  | succ i ih =>
    cases hact : E.act i with
    | none =>
      rw [E.rests i hact]
      exact ih
    | some a =>
      obtain ⟨hen, hnext⟩ := E.moves i a hact
      rw [hnext]
      exact hstep _ a ih hen

end Execution

/-- Until the goal `Q` is reached, the actions of the group make `μ` smaller and the others do
not make it larger. -/
structure Drives [Preorder β] (S : GuardedSystem σ α) (G : α → Prop) (P Q : σ → Prop) (μ : σ → β) :
    Prop where
  decreases : ∀ s a, P s → ¬ Q s → S.Enabled s a → G a → Q (S.next s a) ∨ μ (S.next s a) < μ s
  keeps : ∀ s a, P s → ¬ Q s → S.Enabled s a → ¬ G a → Q (S.next s a) ∨ μ (S.next s a) ≤ μ s

namespace Execution

variable [Preorder β] {S : GuardedSystem σ α} {G : α → Prop} {P Q : σ → Prop} {μ : σ → β}

theorem drives_moment (E : S.Execution) (hdrives : S.Drives G P Q μ) {i : ℕ}
    (hP : P (E.state i)) (hQ : ¬ Q (E.state i)) :
    Q (E.state (i + 1)) ∨ μ (E.state (i + 1)) < μ (E.state i) ∨
      ¬ E.Takes G i ∧ μ (E.state (i + 1)) ≤ μ (E.state i) := by
  cases hact : E.act i with
  | none =>
    right; right
    refine ⟨?_, by rw [E.rests i hact]⟩
    rintro ⟨a, -, ha⟩
    rw [hact] at ha
    cases ha
  | some a =>
    obtain ⟨hen, hnext⟩ := E.moves i a hact
    rw [hnext]
    by_cases hG : G a
    · rcases hdrives.decreases _ a hP hQ hen hG with hgoal | hlt
      · exact Or.inl hgoal
      · exact Or.inr (Or.inl hlt)
    · rcases hdrives.keeps _ a hP hQ hen hG with hgoal | hle
      · exact Or.inl hgoal
      · right; right
        refine ⟨?_, hle⟩
        rintro ⟨b, hb, hactb⟩
        rw [hact] at hactb
        cases hactb
        exact hG hb

theorem drives_mono (E : S.Execution) (hdrives : S.Drives G P Q μ) (hP : ∀ i, P (E.state i))
    {i : ℕ} (hQ : ∀ j, i ≤ j → ¬ Q (E.state j)) (n : ℕ) :
    μ (E.state (i + n)) ≤ μ (E.state i) := by
  induction n with
  | zero => exact le_refl _
  | succ n ih =>
    rcases E.drives_moment hdrives (hP (i + n)) (hQ _ (Nat.le_add_right i n)) with
      hgoal | hlt | ⟨-, hle⟩
    · exact absurd hgoal (hQ _ (Nat.le_add_right i (n + 1)))
    · exact hlt.le.trans ih
    · exact hle.trans ih

theorem reaches_of_takes [WellFoundedLT β] (E : S.Execution) (hdrives : S.Drives G P Q μ)
    (hP : ∀ i, P (E.state i))
    (htakes : ∀ i, (∀ j, i ≤ j → ¬ Q (E.state j)) → ∃ j, i ≤ j ∧ E.Takes G j) (i : ℕ) :
    ∃ j, i ≤ j ∧ Q (E.state j) := by
  -- by induction on the quantity: the next action of the group makes it smaller
  induction hμ : μ (E.state i) using WellFoundedLT.induction generalizing i with
  | ind x ih =>
    by_contra hnever
    push Not at hnever
    obtain ⟨j, hij, htake⟩ := htakes i hnever
    have hmono : μ (E.state j) ≤ μ (E.state i) := by
      obtain ⟨n, rfl⟩ := Nat.exists_eq_add_of_le hij
      exact E.drives_mono hdrives hP hnever n
    rcases E.drives_moment hdrives (hP j) (hnever j hij) with hgoal | hlt | ⟨hnot, -⟩
    · exact hnever (j + 1) (hij.trans (Nat.le_succ j)) hgoal
    · obtain ⟨k, hk, hgoal⟩ := ih _ (hμ ▸ hlt.trans_le hmono) (j + 1) rfl
      exact hnever k ((hij.trans (Nat.le_succ j)).trans hk) hgoal
    · exact hnot htake

theorem WeaklyFair.reaches [WellFoundedLT β] {E : S.Execution} (hfair : E.WeaklyFair G)
    (hdrives : S.Drives G P Q μ) (hP : ∀ i, P (E.state i))
    (hcan : ∀ s, P s → ¬ Q s → S.CanTake G s) (i : ℕ) : ∃ j, i ≤ j ∧ Q (E.state j) := by
  refine E.reaches_of_takes hdrives hP (fun k hnever => ?_) i
  exact hfair k fun j hj => hcan _ (hP j) (hnever j hj)

theorem StronglyFair.reaches [WellFoundedLT β] {E : S.Execution} (hfair : E.StronglyFair G)
    (hdrives : S.Drives G P Q μ) (hP : ∀ i, P (E.state i))
    (hcan : ∀ i, ∃ j, i ≤ j ∧ (Q (E.state j) ∨ S.CanTake G (E.state j))) (i : ℕ) :
    ∃ j, i ≤ j ∧ Q (E.state j) := by
  refine E.reaches_of_takes hdrives hP (fun k hnever => hfair k fun m hm => ?_) i
  obtain ⟨j, hj, hgoal | hact⟩ := hcan m
  · exact absurd hgoal (hnever j (hm.trans hj))
  · exact ⟨j, hj, hact⟩

end Execution

/-- Once `P` holds, it goes on to hold until the goal is reached. -/
def Unless (S : GuardedSystem σ α) (P Q : σ → Prop) : Prop :=
  ∀ s a, P s → ¬ Q s → S.Enabled s a → P (S.next s a) ∨ Q (S.next s a)

namespace Execution

variable [Preorder β] {S : GuardedSystem σ α} {G : α → Prop} {P Q : σ → Prop} {μ : σ → β}

/-- What is left of an execution from a moment on. -/
def drop (E : S.Execution) (n : ℕ) : S.Execution where
  state i := E.state (n + i)
  act i := E.act (n + i)
  moves i := E.moves (n + i)
  rests i := E.rests (n + i)

theorem Unless.holds (E : S.Execution) (hunless : S.Unless P Q) {i : ℕ} (hi : P (E.state i))
    (hQ : ∀ j, i ≤ j → ¬ Q (E.state j)) (n : ℕ) : P (E.state (i + n)) := by
  induction n with
  | zero => exact hi
  | succ n ih =>
    cases hact : E.act (i + n) with
    | none =>
      have hrest : E.state (i + (n + 1)) = E.state (i + n) := E.rests (i + n) hact
      rw [hrest]
      exact ih
    | some a =>
      obtain ⟨hen, hnext⟩ := E.moves (i + n) a hact
      have hnext : E.state (i + (n + 1)) = S.next (E.state (i + n)) a := hnext
      rcases hunless _ a ih (hQ _ (Nat.le_add_right i n)) hen with hP | hgoal
      · rwa [hnext]
      · exact absurd (hnext ▸ hgoal) (hQ _ (Nat.le_add_right i (n + 1)))

theorem leads_of_takes [WellFoundedLT β] (E : S.Execution) (hdrives : S.Drives G P Q μ)
    (hunless : S.Unless P Q) {i : ℕ} (hi : P (E.state i))
    (htakes : ∀ k, i ≤ k → (∀ j, k ≤ j → P (E.state j) ∧ ¬ Q (E.state j)) →
      ∃ j, k ≤ j ∧ E.Takes G j) : ∃ j, i ≤ j ∧ Q (E.state j) := by
  by_contra hnever
  push Not at hnever
  have hP (n : ℕ) : P (E.state (i + n)) := Unless.holds E hunless hi hnever n
  have hlater {k : ℕ} (hk : i ≤ k) : P (E.state k) ∧ ¬ Q (E.state k) := by
    obtain ⟨n, rfl⟩ := Nat.exists_eq_add_of_le hk
    exact ⟨hP n, hnever _ hk⟩
  obtain ⟨j, -, hgoal⟩ := (E.drop i).reaches_of_takes hdrives hP (fun k _ => by
    obtain ⟨j, hj, htake⟩ := htakes (i + k) (Nat.le_add_right i k)
      fun j hj => hlater ((Nat.le_add_right i k).trans hj)
    obtain ⟨n, rfl⟩ := Nat.exists_eq_add_of_le hj
    exact ⟨k + n, Nat.le_add_right k n, by simpa [Takes, drop, Nat.add_assoc] using htake⟩) 0
  exact hnever (i + j) (Nat.le_add_right i j) hgoal

/-- A weakly fair group that can act while `P` holds leads from it to the goal. -/
theorem WeaklyFair.leads [WellFoundedLT β] {E : S.Execution} (hfair : E.WeaklyFair G)
    (hdrives : S.Drives G P Q μ) (hunless : S.Unless P Q)
    (hcan : ∀ s, P s → ¬ Q s → S.CanTake G s) {i : ℕ} (hi : P (E.state i)) :
    ∃ j, i ≤ j ∧ Q (E.state j) :=
  E.leads_of_takes hdrives hunless hi fun k _ hk =>
    hfair k fun j hj => hcan _ (hk j hj).1 (hk j hj).2

/-- A strongly fair group that can act again and again while `P` holds leads from it to the
goal. -/
theorem StronglyFair.leads [WellFoundedLT β] {E : S.Execution} (hfair : E.StronglyFair G)
    (hdrives : S.Drives G P Q μ) (hunless : S.Unless P Q)
    (hcan : ∀ k, P (E.state k) → ∃ j, k ≤ j ∧ (P (E.state j) → Q (E.state j) ∨
      S.CanTake G (E.state j))) {i : ℕ} (hi : P (E.state i)) : ∃ j, i ≤ j ∧ Q (E.state j) := by
  refine E.leads_of_takes hdrives hunless hi fun k _ hk => hfair k fun m hm => ?_
  obtain ⟨j, hj, hact⟩ := hcan m (hk m hm).1
  obtain ⟨hP, hQ⟩ := hk j (hm.trans hj)
  exact ⟨j, hj, (hact hP).resolve_left hQ⟩

/-- A run after which nothing happens any more. -/
def ofRun (S : GuardedSystem σ α) {s : σ} {as : List α} (h : S.Runs s as) : S.Execution where
  state i := S.after s (as.take i)
  act i := as[i]?
  moves i a ha := by
    have htake : as.take (i + 1) = as.take i ++ [a] := by
      rw [List.take_add_one, ha, Option.toList_some]
    have hprefix : as.take (i + 1) <+: as := List.take_prefix (i + 1) as
    have hruns := GuardedSystem.Runs.of_prefix S h hprefix
    rw [htake, S.runs_snoc] at hruns
    rw [htake, S.after_snoc]
    exact ⟨hruns.2, rfl⟩
  rests i ha := by rw [List.take_add_one, ha, Option.toList_none, List.append_nil]

theorem ofRun_state {s : σ} {as : List α} (h : S.Runs s as) (i : ℕ) :
    (ofRun S h).state i = S.after s (as.take i) := rfl

theorem ofRun_state_of_le {s : σ} {as : List α} (h : S.Runs s as) {i : ℕ} (hi : as.length ≤ i) :
    (ofRun S h).state i = S.after s as := by
  rw [ofRun_state, List.take_of_length_le hi]

theorem ofRun_fair {s : σ} {as : List α} (h : S.Runs s as) (hend : ¬ S.CanTake G (S.after s as)) :
    (ofRun S h).WeaklyFair G ∧ (ofRun S h).StronglyFair G := by
  constructor
  · intro i hcan
    have hlast := hcan (i + as.length) (Nat.le_add_right i _)
    rw [ofRun_state_of_le h (Nat.le_add_left _ i)] at hlast
    exact absurd hlast hend
  · intro i hcan
    obtain ⟨j, hj, hlast⟩ := hcan (i + as.length) (Nat.le_add_right i _)
    rw [ofRun_state_of_le h ((Nat.le_add_left _ i).trans hj)] at hlast
    exact absurd hlast hend

end Execution

end GuardedSystem

end Framework
