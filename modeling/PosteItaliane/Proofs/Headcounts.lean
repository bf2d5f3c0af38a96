import PosteItaliane.Framework.Mailbox
import PosteItaliane.Proofs.Diary
import Mathlib.Algebra.Order.BigOperators.Group.Finset

/-!
# Adding up over the processes

Quantities that every operator and every user has a share of. When one process changes, the
sum changes by its share. The director has none.
-/

namespace PosteItaliane

open Framework

variable {O U : Type} [Fintype O] [Fintype U]

/-- The sum over the operators and the users. -/
def overProcs {M : Type*} [AddCommMonoid M] (f : Proc O U → M) : M :=
  ∑ o, f (.operatore o) + ∑ u, f (.utente u)

theorem overProcs_add {M : Type*} [AddCommMonoid M] (f g : Proc O U → M) :
    overProcs (fun p => f p + g p) = overProcs f + overProcs g := by
  simp only [overProcs, Finset.sum_add_distrib]
  ac_rfl

theorem overProcs_pos {M : Type*} [AddCommMonoid M] [PartialOrder M] [IsOrderedCancelAddMonoid M]
    {f : Proc O U → M} (hnonneg : ∀ q, 0 ≤ f q) {p : Proc O U} (hp : p ≠ .direttore)
    (h : 0 < f p) : 0 < overProcs f := by
  cases p with
  | direttore => exact absurd rfl hp
  | operatore o =>
    have hopers : 0 < ∑ o, f (.operatore o) :=
      Finset.sum_pos' (fun o _ => hnonneg _) ⟨o, Finset.mem_univ o, h⟩
    exact add_pos_of_pos_of_nonneg hopers (Finset.sum_nonneg fun u _ => hnonneg _)
  | utente u =>
    have husers : 0 < ∑ u, f (.utente u) :=
      Finset.sum_pos' (fun u _ => hnonneg _) ⟨u, Finset.mem_univ u, h⟩
    exact add_pos_of_nonneg_of_pos (Finset.sum_nonneg fun o _ => hnonneg _) husers

/-- The number of processes in a phase of interest. -/
def World.crowd (w : World O U) (fO : Operatore.Phase → Bool) (fU : Utente.Phase → Bool) : ℕ :=
  overProcs fun p => (w.marks fO fU p).toNat

variable {fO : Operatore.Phase → Bool} {fU : Utente.Phase → Bool}

variable [DecidableEq O] [DecidableEq U]

theorem overProcs_update {α M : Type*} [AddCommMonoid M] (f : α → M) (g : Proc O U → α)
    {p : Proc O U} (hp : p ≠ .direttore) (a : α) :
    overProcs (fun q => f (Function.update g p a q)) + f (g p) =
      overProcs (fun q => f (g q)) + f a := by
  cases p with
  | direttore => exact absurd rfl hp
  | operatore o =>
    have hfun : (fun q => Function.update g (.operatore o) a (.operatore q)) =
        Function.update (fun q => g (.operatore q)) o a := by
      funext q
      by_cases hq : q = o
      · subst q
        simp
      · simp [hq]
    have hopers := Mailbox.sum_update f (fun q => g (.operatore q)) o a
    rw [← hfun] at hopers
    have husers : ∑ u, f (Function.update g (.operatore o) a (.utente u)) =
        ∑ u, f (g (.utente u)) := by simp
    simp only [overProcs, husers]
    rw [add_right_comm, hopers, add_right_comm]
  | utente u =>
    have hfun : (fun q => Function.update g (.utente u) a (.utente q)) =
        Function.update (fun q => g (.utente q)) u a := by
      funext q
      by_cases hq : q = u
      · subst q
        simp
      · simp [hq]
    have husers := Mailbox.sum_update f (fun q => g (.utente q)) u a
    rw [← hfun] at husers
    have hopers : ∑ o, f (Function.update g (.utente u) a (.operatore o)) =
        ∑ o, f (g (.operatore o)) := by simp
    simp only [overProcs, hopers]
    rw [add_assoc, husers, add_assoc]

variable (fO fU) in
theorem crowd_oper (site : Site O U) (w : World O U) (o : O) (b : Operatore.Act) :
    (w.next site (.oper o b)).crowd fO fU + (fO (w.opers o).phase).toNat =
      w.crowd fO fU + (fO (Operatore.next site o (w.opers o) w.sh b).1.phase).toNat := by
  have hp : (Proc.operatore o : Proc O U) ≠ .direttore := by simp
  simp only [World.crowd, marks_oper]
  exact overProcs_update Bool.toNat (w.marks fO fU) hp _

variable (fO fU) in
theorem crowd_user (site : Site O U) (w : World O U) (u : U) (b : Utente.Act) :
    (w.next site (.user u b)).crowd fO fU + (fU (w.users u).phase).toNat =
      w.crowd fO fU + (fU (Utente.next site u (w.users u) w.sh b).1.phase).toNat := by
  have hp : (Proc.utente u : Proc O U) ≠ .direttore := by simp
  simp only [World.crowd, marks_user]
  exact overProcs_update Bool.toNat (w.marks fO fU) hp _

theorem crowd_director (site : Site O U) (hboot : fU .boot = fU .notStarted) {w : World O U}
    {b : Direttore.Act U} (hb : w.CanStart b) :
    (w.next site (.director b)).crowd fO fU = w.crowd fO fU := by
  rw [World.crowd, marks_director site hboot hb]
  rfl

variable (fO fU) in
theorem marks_start (site : Site O U) (w : World O U) (u : U) (n : ℕ) :
    (w.next site (.director (.startUser u n))).marks fO fU =
      Function.update (w.marks fO fU) (.utente u) (fU .boot) := by
  funext p
  cases p with
  | direttore => rfl
  | operatore o => rfl
  | utente v =>
    by_cases hv : v = u
    · subst v
      simp [World.marks, World.next, World.usersAfter]
    · simp [World.marks, World.next, World.usersAfter, hv]

variable (fO fU) in
theorem crowd_start (site : Site O U) (w : World O U) (u : U) (n : ℕ) :
    (w.next site (.director (.startUser u n))).crowd fO fU + (fU (w.users u).phase).toNat =
      w.crowd fO fU + (fU .boot).toNat := by
  have hp : (Proc.utente u : Proc O U) ≠ .direttore := by simp
  simp only [World.crowd, marks_start]
  exact overProcs_update Bool.toNat (w.marks fO fU) hp _

end PosteItaliane
