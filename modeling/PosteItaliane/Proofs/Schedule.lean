import PosteItaliane.Model.System
import Mathlib.Data.Fintype.Fin

/-!
# The director's schedule

The iterations of the director's loop as blocks of actions, from which runs of whole days
are put together. The loop runs once a simulated minute, so the interesting events of such
a run lie hundreds of iterations apart: a block of iterations in which nothing happens is
one step of the argument, because all it does is to advance the clock.
-/

namespace PosteItaliane

open Framework

variable {O U : Type}

/-- Midnight, up to the reset of the seats. -/
def midnight (day : ℤ) : List (Act O U) :=
  [.director .tick, .director .skipOpen, .director .skipClose, .director .midnight,
    .director .startNewDay, .director .printDayStats, .director (.resetStats day),
    .section, .section, .section]

/-- The rest of that iteration, with `n` wake-ups. -/
def wakeUps (n : ℕ) : List (Act O U) :=
  (List.range n).reverse.map (fun i => .director (.postDay i)) ++
    [.director .dayStarted, .director .noNewUsers, .director (.publishMinute 1),
      .section, .section]

/-- The iteration of the opening tick, with `n` tokens. -/
def opening (m : ℤ) (n : ℕ) : List (Act O U) :=
  [.director .tick, .director .openPoste] ++
    (List.range n).reverse.map (fun i => .director (.postOpen i)) ++
    [.director .opened, .director .skipClose, .director .skipMidnight, .director .noNewUsers,
      .director (.publishMinute (m + 1)), .section, .section]

/-- The iteration of the closing tick, with `n` tokens. -/
def closing (m : ℤ) (n : ℕ) : List (Act O U) :=
  [.director .tick, .director .skipOpen, .director .closePoste] ++
    (List.range n).reverse.map (fun i => .director (.postClose i)) ++
    [.director .closed, .director .skipMidnight, .director .noNewUsers,
      .director (.publishMinute (m + 1)), .section, .section]

/-- An iteration with no opening, closing, midnight or new users. -/
def quietMinute (m : ℤ) : List (Act O U) :=
  [.director .tick, .director .skipOpen, .director .skipClose, .director .skipMidnight,
    .director .noNewUsers, .director (.publishMinute (m + 1)), .section, .section]

def quietMinutes : ℤ → ℕ → List (Act O U)
  | _, 0 => []
  | m, k + 1 => quietMinute m ++ quietMinutes (m + 1) k

theorem forall_mem_quietMinutes {P : Act O U → Prop} (h : ∀ m, ∀ a ∈ quietMinute m, P a)
    (m : ℤ) (k : ℕ) : ∀ a ∈ quietMinutes m k, P a := by
  induction k generalizing m with
  | zero => simp [quietMinutes]
  | succ k ih =>
    intro a ha
    rw [quietMinutes, List.mem_append] at ha
    rcases ha with ha | ha
    · exact h m a ha
    · exact ih (m + 1) a ha

/-- The director at the head of its loop in minute `m`. -/
def World.atMinute (w : World O U) (m : ℤ) : World O U :=
  { w with
    dir := { w.dir with phase := .loop, minutesElapsed := m }
    sh := { w.sh with stats := ⟨{ w.sh.stats.value with currentMinute := m }, none⟩ } }

variable [Fintype O] [Fintype U]

/-- The director is at the head of its loop and will run another iteration. -/
structure Idle (site : Site O U) (w : World O U) (m : ℤ) : Prop where
  phase : w.dir.phase = .loop
  minute : w.dir.minutesElapsed = m
  day : w.dir.daysElapsed < site.config.simDuration
  free : w.sh.stats.Free

/-- Minutes at which the director does nothing. -/
def Quiet (site : Site O U) (m : ℤ) : Prop :=
  m ≠ site.config.workerShiftOpen * 60 ∧ m ≠ site.config.workerShiftClose * 60 ∧ m % 1440 ≠ 0

theorem quiet_default {site : Site O U} (hopen : site.config.workerShiftOpen = 8)
    (hclose : site.config.workerShiftClose = 20) {m : ℤ} (h0 : 0 < m) (h1440 : m < 1440)
    (h480 : m ≠ 480) (h1200 : m ≠ 1200) : Quiet site m := by
  refine ⟨?_, ?_, ?_⟩
  · rw [hopen]
    exact h480
  · rw [hclose]
    exact h1200
  · omega

variable [DecidableEq O] [DecidableEq U]

theorem quiet_minute {site : Site O U} {w : World O U} {m : ℤ} (h : Idle site w m)
    (hq : Quiet site m) : (poste site).Runs w (quietMinute m) ∧
      (poste site).after w (quietMinute m) = w.atMinute (m + 1) := by
  obtain ⟨hphase, hminute, hday, hfree⟩ := h
  obtain ⟨hopen, hclose, hmid⟩ := hq
  obtain ⟨sh, opers, users, ticket, ⟨phase, minutes, days, numUsers, printed⟩⟩ := w
  obtain ⟨⟨value, holder⟩, openE, closeE, dayE, seats, stE, frE, queue⟩ := sh
  simp only at hphase hminute hday
  have hholder : holder = none := hfree
  subst hphase hminute hholder
  refine ⟨?_, rfl⟩
  simp [quietMinute, GuardedSystem.Runs, poste, World.Enabled, World.next, World.CanStart,
    Direttore.Enabled, Direttore.next, Monitor.inside, Monitor.Free, Monitor.enter,
    Monitor.advance, publishMinute, hday, hopen, hclose, hmid]

theorem quiet_minutes {site : Site O U} {w : World O U} {m : ℤ} (h : Idle site w m) (k : ℕ)
    (hq : ∀ i, m ≤ i → i ≤ m + k → Quiet site i) :
    (poste site).Runs w (quietMinutes m (k + 1)) ∧
      (poste site).after w (quietMinutes m (k + 1)) = w.atMinute (m + k + 1) := by
  induction k generalizing w m with
  | zero =>
    have hminute := quiet_minute h (hq m le_rfl (by simp))
    simpa [quietMinutes] using hminute
  | succ k ih =>
    obtain ⟨hrun, hafter⟩ := quiet_minute h (hq m le_rfl (by omega))
    have hidle : Idle site (w.atMinute (m + 1)) (m + 1) := ⟨rfl, rfl, h.day, rfl⟩
    obtain ⟨hruns, hafters⟩ := ih hidle (fun i hi hik => hq i (by omega) (by omega))
    have hm : m + 1 + (k : ℤ) + 1 = m + ((k + 1 : ℕ) : ℤ) + 1 := by omega
    rw [quietMinutes, GuardedSystem.runs_append, GuardedSystem.after_append, hafter]
    refine ⟨⟨hrun, hruns⟩, ?_⟩
    rw [hafters, hm]
    rfl

theorem runs_quiet {site : Site O U} {w : World O U} {m : ℤ} (h : Idle site w m) (k : ℕ)
    (hq : ∀ i, m ≤ i → i ≤ m + k → Quiet site i) (as : List (Act O U)) :
    (poste site).Runs w (quietMinutes m (k + 1) ++ as) ↔
      (poste site).Runs (w.atMinute (m + k + 1)) as := by
  obtain ⟨hrun, hafter⟩ := quiet_minutes h k hq
  rw [GuardedSystem.runs_append, hafter]
  exact and_iff_right hrun

theorem runs_quiet_restrict {site : Site O U} {C : World O U → Act O U → Prop}
    (hC : ∀ m, ∀ a ∈ quietMinute m, ∀ w, C w a) {w : World O U} {m : ℤ} (h : Idle site w m)
    (k : ℕ) (hq : ∀ i, m ≤ i → i ≤ m + k → Quiet site i) (as : List (Act O U)) :
    ((poste site).restrict C).Runs w (quietMinutes m (k + 1) ++ as) ↔
      ((poste site).restrict C).Runs (w.atMinute (m + k + 1)) as := by
  obtain ⟨hrun, hafter⟩ := quiet_minutes h k hq
  rw [GuardedSystem.runs_append, GuardedSystem.restrict_after, hafter]
  exact and_iff_right (hrun.restrict_of_forall _ (forall_mem_quietMinutes hC m (k + 1)))

theorem runs_quiet_ghost {η : Type*} {record : η → World O U → Act O U → η}
    {C : World O U × η → Act O U → Prop} {site : Site O U}
    (hone : ∀ {p : World O U × η} {m : ℤ}, Idle site p.1 m → Quiet site m →
      (((poste site).withGhost record).restrict C).Runs p (quietMinute m) ∧
        ((poste site).withGhost record).after p (quietMinute m) = (p.1.atMinute (m + 1), p.2))
    {p : World O U × η} {m : ℤ} (h : Idle site p.1 m) (k : ℕ)
    (hq : ∀ i, m ≤ i → i ≤ m + k → Quiet site i) (as : List (Act O U)) :
    (((poste site).withGhost record).restrict C).Runs p (quietMinutes m (k + 1) ++ as) ↔
      (((poste site).withGhost record).restrict C).Runs (p.1.atMinute (m + k + 1), p.2) as := by
  induction k generalizing p m with
  | zero =>
    obtain ⟨hrun, hafter⟩ := hone h (hq m le_rfl (by simp))
    rw [quietMinutes, quietMinutes, List.append_nil, GuardedSystem.runs_append,
      GuardedSystem.restrict_after, hafter]
    simp [hrun]
  | succ k ih =>
    obtain ⟨hrun, hafter⟩ := hone h (hq m le_rfl (by omega))
    have hidle : Idle site (p.1.atMinute (m + 1)) (m + 1) := ⟨rfl, rfl, h.day, rfl⟩
    have hrest := ih (p := (p.1.atMinute (m + 1), p.2)) hidle
      (fun i hi hik => hq i (by omega) (by omega))
    have hm : m + 1 + (k : ℤ) + 1 = m + ((k + 1 : ℕ) : ℤ) + 1 := by omega
    rw [quietMinutes, List.append_assoc, GuardedSystem.runs_append,
      GuardedSystem.restrict_after, hafter, hrest, hm]
    exact and_iff_right hrun

theorem after_quiet {site : Site O U} {w : World O U} {m : ℤ} (h : Idle site w m) (k : ℕ)
    (hq : ∀ i, m ≤ i → i ≤ m + k → Quiet site i) (as : List (Act O U)) :
    (poste site).after w (quietMinutes m (k + 1) ++ as) =
      (poste site).after (w.atMinute (m + k + 1)) as := by
  rw [GuardedSystem.after_append, (quiet_minutes h k hq).2]

-- Named once for the numerals that stand for the processes of a small site.
instance neZero_one : NeZero 1 := ⟨by decide⟩

instance neZero_two : NeZero 2 := ⟨by decide⟩

instance neZero_three : NeZero 3 := ⟨by decide⟩

/-- Operators 101, 102, … and users `firstUser`, `firstUser + 1`, …, all of them started with
the simulation. -/
def Site.numbered {n m : ℕ} (config : PosteConfig) (firstUser : ℕ)
    (userService : Fin n → ServiceId) (hpids : 100 + n < firstUser)
    (hn : (n : ℤ) = config.numOperators) (hm : (m : ℤ) = config.numUsers) :
    Site (Fin n) (Fin m) where
  config := config
  operatorPid o := 101 + o
  userPid u := firstUser + u
  ticketPid := 100
  userService := userService
  initialUsers := Finset.univ
  operatorPid_pos o := by omega
  userPid_pos u := by omega
  operatorPid_injective o p h := Fin.ext (by simpa using h)
  userPid_injective u v h := Fin.ext (by simpa using h)
  pids_disjoint o u := by omega
  ticketPid_ne u := by omega
  operators_started := by simpa using hn
  users_started := by simpa using hm

end PosteItaliane
