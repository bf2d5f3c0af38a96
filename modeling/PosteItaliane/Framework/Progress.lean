import PosteItaliane.Framework.GuardedSystem

/-!
# What a system can be driven to

One list of actions that leads from every state of one kind to a state of another. The list
is the same for all of them, so two states that differ only in what the actions neither read
nor guard on are driven side by side.
-/

namespace Framework

namespace GuardedSystem

variable {σ α : Type*} (S : GuardedSystem σ α)

/-- The same actions lead from every state in `P` to one in `Q`. -/
def Leads (P Q : σ → Prop) : Prop := ∃ as, ∀ s, P s → S.Runs s as ∧ Q (S.after s as)

variable {S} {P Q R : σ → Prop}

theorem Leads.rfl : S.Leads P P := ⟨[], fun _ hs => ⟨trivial, hs⟩⟩

theorem Leads.trans (hPQ : S.Leads P Q) (hQR : S.Leads Q R) : S.Leads P R := by
  obtain ⟨as, has⟩ := hPQ
  obtain ⟨bs, hbs⟩ := hQR
  exists as ++ bs
  intro s hs
  obtain ⟨hruns, hQ⟩ := has s hs
  rw [S.runs_append, S.after_append]
  exact ⟨⟨hruns, (hbs _ hQ).1⟩, (hbs _ hQ).2⟩

theorem Leads.step (a : α) (h : ∀ s, P s → S.Enabled s a ∧ Q (S.next s a)) : S.Leads P Q := by
  exists [a]
  intro s hs
  exact ⟨⟨(h s hs).1, trivial⟩, (h s hs).2⟩

/-- A loop that counts down. -/
theorem Leads.countdown {P : ℕ → σ → Prop} (h : ∀ n, S.Leads (P (n + 1)) (P n)) (n : ℕ) :
    S.Leads (P n) (P 0) := by
  induction n with
  | zero => exact Leads.rfl
  | succ n ih => exact (h n).trans ih

theorem Leads.countup {P : ℕ → σ → Prop} {k : ℕ} (h : ∀ n, n < k → S.Leads (P n) (P (n + 1))) :
    S.Leads (P 0) (P k) := by
  induction k with
  | zero => exact Leads.rfl
  | succ k ih =>
    have hbefore := ih fun n hn => h n (Nat.lt_succ_of_lt hn)
    exact hbefore.trans (h k (Nat.lt_succ_self k))

end GuardedSystem

end Framework
