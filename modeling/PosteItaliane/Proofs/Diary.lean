import PosteItaliane.Proofs.Office

/-!
# The days of a run

Three semaphores are posted once a day for everybody, and nothing in the shared memory says
on which day a process took its token. A diary records it: the day, the days every process
was woken for, and the days on which the office has been opened and closed.
-/

namespace PosteItaliane

open Framework

/-- `day` counts the calls of `start_new_day`. A process passes `sem_wait(day_update_event)`
on the days it has lived, the last one first. -/
structure Diary (O U : Type) where
  day : ℕ
  createdOn : Proc O U → ℕ
  lived : Proc O U → List ℕ
  opened : List ℕ
  closed : List ℕ

namespace Diary

variable {O U : Type}

def start : Diary O U where
  day := 0
  createdOn := fun _ => 0
  lived := fun _ => []
  opened := []
  closed := []

/-- The day a process has had last, if only because it was created then. -/
def lastDay (D : Diary O U) (p : Proc O U) : ℕ := (D.lived p).headD (D.createdOn p)

/-- The day with whose wake-up the current cycle of a process began. -/
def cycle (D : Diary O U) (p : Proc O U) : ℕ := (D.lived p).headD 0

variable [DecidableEq O] [DecidableEq U]

def wake (D : Diary O U) (p : Proc O U) : Diary O U :=
  { D with lived := Function.update D.lived p (D.day :: D.lived p) }

def record (D : Diary O U) : Act O U → Diary O U
  | .oper o .wake => D.wake (.operatore o)
  | .user u .wake => D.wake (.utente u)
  | .director .startNewDay => { D with day := D.day + 1 }
  | .director (.startUser u _) =>
    { D with createdOn := Function.update D.createdOn (.utente u) D.day }
  | .director .openPoste => { D with opened := D.day :: D.opened }
  | .director .closePoste => { D with closed := D.day :: D.closed }
  | _ => D

/-- The diary of a run from the start. -/
def of (as : List (Act O U)) : Diary O U := as.foldl record start

theorem cycle_wake (D : Diary O U) (p : Proc O U) :
    (D.wake p).cycle = Function.update D.cycle p D.day := by
  funext q
  by_cases hq : q = p
  · subst q
    simp [wake, cycle]
  · simp [wake, cycle, hq]

theorem foldl_quietMinutes (D : Diary O U) (m : ℤ) (k : ℕ) :
    (quietMinutes m k : List (Act O U)).foldl record D = D := by
  induction k generalizing m with
  | zero => rfl
  | succ k ih =>
    rw [quietMinutes, List.foldl_append]
    exact ih (m + 1)

end Diary

variable {O U : Type} [Fintype O] [Fintype U] [DecidableEq O] [DecidableEq U]

/-- The simulation of a site that keeps a diary. -/
def posteDiary (site : Site O U) : GuardedSystem (World O U × Diary O U) (Act O U) :=
  (poste site).withHistory Diary.record

instance (site : Site O U) (s : World O U × Diary O U) (a : Act O U) :
    Decidable ((posteDiary site).Enabled s a) :=
  inferInstanceAs (Decidable (s.1.Enabled site a))

theorem posteDiary_after (site : Site O U) (w : World O U) (D : Diary O U) (as : List (Act O U)) :
    (posteDiary site).after (w, D) as = ((poste site).after w as, as.foldl Diary.record D) :=
  (poste site).after_withHistory Diary.record w D as

theorem runs_quiet_diary {site : Site O U} {C : World O U × Diary O U → Act O U → Prop}
    (hC : ∀ m, ∀ a ∈ quietMinute m, ∀ s, C s a) {w : World O U} {D : Diary O U} {m : ℤ}
    (h : Idle site w m) (k : ℕ) (hq : ∀ i, m ≤ i → i ≤ m + k → Quiet site i)
    (as : List (Act O U)) :
    ((posteDiary site).restrict C).Runs (w, D) (quietMinutes m (k + 1) ++ as) ↔
      ((posteDiary site).restrict C).Runs (w.atMinute (m + k + 1), D) as := by
  obtain ⟨hrun, hafter⟩ := quiet_minutes h k hq
  have hdiary : (posteDiary site).after (w, D) (quietMinutes m (k + 1)) =
      (w.atMinute (m + k + 1), D) := by
    rw [posteDiary_after, hafter, Diary.foldl_quietMinutes]
  have hquiet : (posteDiary site).Runs (w, D) (quietMinutes m (k + 1)) :=
    ((poste site).runs_withHistory Diary.record w D _).mpr hrun
  rw [GuardedSystem.runs_append, GuardedSystem.restrict_after, hdiary]
  exact and_iff_right (hquiet.restrict_of_forall _ (forall_mem_quietMinutes hC m (k + 1)))

/-- The processes in a phase of interest. -/
def World.marks (w : World O U) (fO : Operatore.Phase → Bool) (fU : Utente.Phase → Bool) :
    Proc O U → Bool
  | .direttore => false
  | .operatore o => fO (w.opers o).phase
  | .utente u => fU (w.users u).phase

variable {fO : Operatore.Phase → Bool} {fU : Utente.Phase → Bool}

theorem marks_oper (site : Site O U) (w : World O U) (o : O) (b : Operatore.Act) :
    (w.next site (.oper o b)).marks fO fU = Function.update (w.marks fO fU) (.operatore o)
      (fO (Operatore.next site o (w.opers o) w.sh b).1.phase) := by
  funext p
  cases p with
  | direttore => rfl
  | operatore q =>
    by_cases hq : q = o
    · subst q
      simp [World.marks, World.next]
    · simp [World.marks, World.next, hq]
  | utente u => rfl

theorem marks_user (site : Site O U) (w : World O U) (u : U) (b : Utente.Act) :
    (w.next site (.user u b)).marks fO fU = Function.update (w.marks fO fU) (.utente u)
      (fU (Utente.next site u (w.users u) w.sh b).1.phase) := by
  funext p
  cases p with
  | direttore => rfl
  | operatore o => rfl
  | utente v =>
    by_cases hv : v = u
    · subst v
      simp [World.marks, World.next]
    · simp [World.marks, World.next, hv]

theorem marks_oper_keep (site : Site O U) {w : World O U} {o : O} {b : Operatore.Act}
    (h : fO (Operatore.next site o (w.opers o) w.sh b).1.phase = fO (w.opers o).phase) :
    (w.next site (.oper o b)).marks fO fU = w.marks fO fU := by
  rw [marks_oper, h]
  exact Function.update_eq_self (Proc.operatore o) (w.marks fO fU)

theorem marks_user_keep (site : Site O U) {w : World O U} {u : U} {b : Utente.Act}
    (h : fU (Utente.next site u (w.users u) w.sh b).1.phase = fU (w.users u).phase) :
    (w.next site (.user u b)).marks fO fU = w.marks fO fU := by
  rw [marks_user, h]
  exact Function.update_eq_self (Proc.utente u) (w.marks fO fU)

theorem marks_oper_mono (site : Site O U) {w : World O U} {o : O} {b : Operatore.Act}
    (h : fO (Operatore.next site o (w.opers o) w.sh b).1.phase = true →
      fO (w.opers o).phase = true) (p : Proc O U)
    (hp : (w.next site (.oper o b)).marks fO fU p = true) : w.marks fO fU p = true := by
  rw [marks_oper] at hp
  by_cases hpo : p = .operatore o
  · subst p
    rw [Function.update_self] at hp
    exact h hp
  · rwa [Function.update_of_ne hpo] at hp

theorem marks_user_mono (site : Site O U) {w : World O U} {u : U} {b : Utente.Act}
    (h : fU (Utente.next site u (w.users u) w.sh b).1.phase = true →
      fU (w.users u).phase = true) (p : Proc O U)
    (hp : (w.next site (.user u b)).marks fO fU p = true) : w.marks fO fU p = true := by
  rw [marks_user] at hp
  by_cases hpu : p = .utente u
  · subst p
    rw [Function.update_self] at hp
    exact h hp
  · rwa [Function.update_of_ne hpu] at hp

theorem marks_director (site : Site O U) (hboot : fU .boot = fU .notStarted) {w : World O U}
    {b : Direttore.Act U} (hb : w.CanStart b) :
    (w.next site (.director b)).marks fO fU = w.marks fO fU := by
  funext p
  cases p with
  | direttore => rfl
  | operatore o => rfl
  | utente v => exact users_director (fun _ => fU) (fun _ => hboot) site hb v

end PosteItaliane
