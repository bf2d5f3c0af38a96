import PosteItaliane.Framework.Fairness
import PosteItaliane.Framework.Mailbox
import PosteItaliane.Model.Termination
import PosteItaliane.Proofs.SimulationLength
import Mathlib.Data.Prod.Lex
import Mathlib.Order.WellFounded
import Mathlib.Tactic.DeriveFintype

/-!
# Every simulation ends

The director shares `stats_lock` with all other processes and takes no notice of what they do
otherwise. If whoever is inside a section goes on and the director is not kept waiting for
ever, it comes to the end of its loop, stops its children and makes the report. Each of its
steps brings the end nearer: an iteration is over, a phase of it, or a turn of an inner loop.
-/

namespace PosteItaliane

open Framework

deriving instance Fintype for Child

/-- The place of a phase in an iteration of the director's loop, counted from its end. -/
def Direttore.Phase.rank : Direttore.Phase → ℕ
  | .loop => 14
  | .openCheck => 13
  | .opening _ => 12
  | .closeCheck => 11
  | .closing _ => 10
  | .midnightCheck => 9
  | .explodeCheck => 8
  | .showStats => 7
  | .resetStats => 6
  | .resetSeats => 5
  | .waking _ => 4
  | .newUsers => 3
  | .starting _ => 2
  | .clock => 1
  | .over | .exited => 0

/-- The turns left of the inner loop of a phase. -/
def Direttore.Phase.turnsLeft : Direttore.Phase → ℕ
  | .opening n | .closing n | .waking n | .starting n => n
  | _ => 0

/-- The minutes that a simulation of `N` days has still to publish, at most. -/
def Direttore.Local.minutesLeft (N : ℤ) (l : Direttore.Local) : ℕ :=
  match l.phase with
  | .over | .exited => 0
  | .explodeCheck | .showStats | .resetStats | .resetSeats | .waking _ =>
    (N * 1440 + 1 - ((l.daysElapsed - 1) * 1440 + l.minutesElapsed)).toNat
  | _ => (N * 1440 + 1 - (l.daysElapsed * 1440 + l.minutesElapsed)).toNat

variable {O U : Type} [Fintype O] [Fintype U]

/-- Every step of the director brings the end of its loop nearer. -/
theorem direttore_nearer (site : Site O U) {l : Direttore.Local} {sh : Shared O U}
    {b : Direttore.Act U}
    (h : l.phase.Calendar site.config.simDuration l.daysElapsed l.minutesElapsed)
    (hb : Direttore.Enabled site l sh b) :
    (Direttore.next site l sh b).1.minutesLeft site.config.simDuration <
        l.minutesLeft site.config.simDuration ∨
      (Direttore.next site l sh b).1.minutesLeft site.config.simDuration =
          l.minutesLeft site.config.simDuration ∧
        ((Direttore.next site l sh b).1.phase.rank < l.phase.rank ∨
          (Direttore.next site l sh b).1.phase.rank = l.phase.rank ∧
          (Direttore.next site l sh b).1.phase.turnsLeft < l.phase.turnsLeft) := by
  obtain ⟨phase, m, days, users, printed⟩ := l
  cases b <;> simp only [Direttore.Enabled] at hb
  all_goals
    simp only [Direttore.next]
    grind [Direttore.Local.minutesLeft, Direttore.Phase.rank, Direttore.Phase.turnsLeft,
      Direttore.Phase.Calendar]

def EndingAct.OfDirector : EndingAct O U → Prop
  | .step (.director _) | .kill _ | .report => True
  | _ => False

/-- The next assignment of the section in progress, or giving the lock back. -/
def EndingAct.OfSection : EndingAct O U → Prop
  | .step .section => True
  | _ => False

/-- The report is made, or the director has given up on a failing sleep. -/
def Ending.Over (e : Ending O U) : Prop := e.report ≠ none ∨ e.world.dir.phase = .exited

/-- The children that have not been stopped, and the report. -/
def Ending.toDo (e : Ending O U) : ℕ :=
  ∑ c, (!e.killed c).toNat + e.report.isNone.toNat

/-- How far the director is from the end, in lexicographic order. -/
def Ending.distance (site : Site O U) (e : Ending O U) : ℕ ×ₗ ℕ ×ₗ ℕ :=
  toLex (e.world.dir.minutesLeft site.config.simDuration, toLex (e.world.dir.phase.rank,
    if e.world.dir.phase = .over then e.toDo else e.world.dir.phase.turnsLeft))

/-- Nobody is stopped while the loop runs. -/
structure EndingKept (site : Site O U) (e : Ending O U) : Prop where
  calendar : e.world.dir.phase.Calendar site.config.simDuration e.world.dir.daysElapsed
    e.world.dir.minutesElapsed
  alive : e.world.dir.phase ≠ .over → ∀ c, e.killed c = false

variable [DecidableEq O] [DecidableEq U]

theorem not_over_of_turn {p q : Direttore.Phase} (hrank : q.rank = p.rank)
    (hturn : q.turnsLeft < p.turnsLeft) : q ≠ .over := by
  rintro rfl
  cases p <;> simp_all [Direttore.Phase.rank, Direttore.Phase.turnsLeft]

omit [DecidableEq O] [DecidableEq U] in
theorem not_over_of_director {site : Site O U} {w : World O U} {b : Direttore.Act U}
    (ha : w.Enabled site (.director b)) : w.dir.phase ≠ .over := by
  obtain ⟨-, hb, -⟩ := ha
  intro hover
  cases b <;> simp [Direttore.Enabled, hover] at hb

theorem EndingKept.step (site : Site O U) (e : Ending O U) (a : EndingAct O U)
    (h : EndingKept site e) (ha : e.Enabled site a) : EndingKept site (e.next site a) := by
  cases a with
  | step b =>
    cases b with
    | director d =>
      have halive := h.alive (not_over_of_director ha.1)
      exact ⟨calendar_step site rfl h.calendar ha.1.2.1, fun _ => halive⟩
    | _ => exact ⟨h.calendar, h.alive⟩
  | kill c => exact ⟨h.calendar, fun hphase => absurd ha.1 hphase⟩
  | report => exact ⟨h.calendar, h.alive⟩

omit [DecidableEq O] in
theorem endingKept_init (site : Site O U) : EndingKept site (Ending.init site) :=
  ⟨Or.inl ⟨rfl, rfl⟩, fun _ _ => rfl⟩

theorem toDo_kill {e : Ending O U} {c : Child O U} (hc : e.killed c = false) :
    ({ e with killed := Function.update e.killed c true } : Ending O U).toDo < e.toDo := by
  have hsum := Mailbox.sum_update (fun k : Bool => (!k).toNat) e.killed c true
  simp only [hc] at hsum
  simp only [Ending.toDo]
  simp at hsum
  omega

omit [DecidableEq O] [DecidableEq U] in
theorem distance_over {site : Site O U} {e : Ending O U} (h : e.world.dir.phase = .over) :
    e.distance site = toLex (e.world.dir.minutesLeft site.config.simDuration,
      toLex (e.world.dir.phase.rank, e.toDo)) := by
  rw [Ending.distance, if_pos h]

/-- The director comes nearer to the end, and nobody else sets it back. -/
theorem ending_drives (site : Site O U) : (posteEnding site).Drives EndingAct.OfDirector
    (EndingKept site) Ending.Over (Ending.distance site) where
  decreases e a h hover ha hdir := by
    cases a with
    | step b =>
      cases b with
      | director d =>
        right
        have hphase := not_over_of_director ha.1
        simp only [Ending.distance, Prod.Lex.toLex_lt_toLex, if_neg hphase]
        rcases direttore_nearer site h.calendar ha.1.2.1 with
          hmin | ⟨hmin, hrank | ⟨hrank, hturn⟩⟩
        · exact Or.inl hmin
        · exact Or.inr ⟨hmin, Or.inl hrank⟩
        · refine Or.inr ⟨hmin, Or.inr ⟨hrank, ?_⟩⟩
          rw [if_neg]
          · exact hturn
          · exact not_over_of_turn hrank hturn
      | _ => exact hdir.elim
    | kill c =>
      right
      obtain ⟨hphase, -, hc⟩ := ha
      have hnext : ((posteEnding site).next e (.kill c)).world.dir.phase = .over := hphase
      rw [distance_over hphase, distance_over hnext, Prod.Lex.toLex_lt_toLex]
      exact Or.inr ⟨rfl, Prod.Lex.toLex_lt_toLex.mpr (Or.inr ⟨rfl, toDo_kill hc⟩)⟩
    | report => exact Or.inl (Or.inl (by simp [posteEnding, Ending.next]))
  keeps e a h hover ha hdir := by
    right
    cases a with
    | step b =>
      cases b with
      | director d => exact absurd trivial hdir
      | _ => exact le_refl _
    | kill c => exact absurd trivial hdir
    | report => exact absurd trivial hdir

/-- The lock is free, or the director does not need it any more. -/
def Ending.LockFree (e : Ending O U) : Prop :=
  e.world.sh.stats.Free ∨ e.world.dir.phase = .over ∨ e.world.dir.phase = .exited

theorem section_drives (site : Site O U) : (posteEnding site).Drives EndingAct.OfSection
    (EndingKept site) Ending.LockFree (fun e => e.world.sh.stats.pending.length) where
  decreases e a h hlock ha hsection := by
    cases a with
    | step b =>
      cases b with
      | «section» => exact (pending_of_section site ha.1).imp_left Or.inl
      | _ => exact hsection.elim
    | _ => exact hsection.elim
  keeps e a h hlock ha hsection := by
    right
    have hheld : ¬ e.world.sh.stats.Free := fun hfree => hlock (Or.inl hfree)
    cases a with
    | step b =>
      have hother : b ≠ .section := by
        rintro rfl
        exact hsection trivial
      exact le_of_eq (congrArg (fun m => m.pending.length)
        (stats_of_other site ha.1 hheld hother))
    | kill c => exact absurd ha.1 fun hphase => hlock (Or.inr (Or.inl hphase))
    | report => exact absurd ha.1 fun hphase => hlock (Or.inr (Or.inl hphase))

theorem section_canTake (site : Site O U) {e : Ending O U} (h : EndingKept site e)
    (hlock : ¬ e.LockFree) : (posteEnding site).CanTake EndingAct.OfSection e := by
  refine ⟨.step .section, trivial, fun hfree => hlock (Or.inl hfree), ?_⟩
  have halive := h.alive fun hphase => hlock (Or.inr (Or.inl hphase))
  cases e.world.childOf .section with
  | none => rfl
  | some c => simp [halive c]

omit [DecidableEq O] [DecidableEq U] in
theorem director_enabled (site : Site O U) {w : World O U} (hfree : w.sh.stats.Free)
    (hover : w.dir.phase ≠ .over) (hexited : w.dir.phase ≠ .exited)
    (hfit : ∀ n, w.dir.phase = .starting (n + 1) → ∃ u, (w.users u).phase = .notStarted) :
    ∃ b, w.Enabled site (.director b) := by
  have hholder : w.sh.stats.holder = none := hfree
  have hout : w.sh.stats.inside ≠ some .direttore := by simp [Monitor.inside, hholder]
  have hsimple {b : Direttore.Act U} (hstart : w.CanStart b)
      (hb : Direttore.Enabled site w.dir w.sh b) : ∃ b, w.Enabled site (.director b) :=
    ⟨b, hout, hb, hstart⟩
  cases hphase : w.dir.phase with
  | loop =>
    by_cases hdays : w.dir.daysElapsed < site.config.simDuration
    · exact hsimple (b := .tick) trivial ⟨hphase, hdays⟩
    · exact hsimple (b := .timeout) trivial ⟨hphase, not_lt.mp hdays⟩
  | openCheck =>
    by_cases hopen : w.dir.minutesElapsed = site.config.workerShiftOpen * 60 ∧
        w.dir.minutesElapsed ≠ 0
    · exact hsimple (b := .openPoste) trivial ⟨hphase, hopen⟩
    · exact hsimple (b := .skipOpen) trivial ⟨hphase, hopen⟩
  | opening n =>
    cases n with
    | zero => exact hsimple (b := .opened) trivial hphase
    | succ n => exact hsimple (b := .postOpen n) trivial hphase
  | closeCheck =>
    by_cases hclose : w.dir.minutesElapsed = site.config.workerShiftClose * 60 ∧
        w.dir.minutesElapsed ≠ 0
    · exact hsimple (b := .closePoste) trivial ⟨hphase, hclose⟩
    · exact hsimple (b := .skipClose) trivial ⟨hphase, hclose⟩
  | closing n =>
    cases n with
    | zero => exact hsimple (b := .closed) trivial hphase
    | succ n => exact hsimple (b := .postClose n) trivial hphase
  | midnightCheck =>
    by_cases hmidnight : w.dir.minutesElapsed % 1440 = 0
    · exact hsimple (b := .midnight) trivial ⟨hphase, hmidnight⟩
    · exact hsimple (b := .skipMidnight) trivial ⟨hphase, hmidnight⟩
  | explodeCheck =>
    by_cases hexplode : site.config.explodeMax < w.sh.stats.value.today.lateUsers
    · exact hsimple (b := .explode) trivial ⟨hphase, hexplode⟩
    · exact hsimple (b := .startNewDay) trivial ⟨hphase, not_lt.mp hexplode⟩
  | showStats => exact hsimple (b := .printDayStats) trivial hphase
  | resetStats => exact hsimple (b := .resetStats w.dir.daysElapsed) trivial ⟨hphase, rfl, hfree⟩
  | resetSeats => exact hsimple (b := .resetSeats fun _ => 0) trivial hphase
  | waking n =>
    cases n with
    | zero => exact hsimple (b := .dayStarted) trivial hphase
    | succ n => exact hsimple (b := .postDay n) trivial hphase
  | newUsers => exact hsimple (b := .noNewUsers) trivial hphase
  | starting n =>
    cases n with
    | zero => exact hsimple (b := .replyNewUsers) trivial hphase
    | succ n =>
      obtain ⟨u, hu⟩ := hfit n hphase
      exact hsimple (b := .startUser u n) hu hphase
  | clock => exact hsimple (b := .publishMinute _) trivial ⟨hphase, rfl, hfree⟩
  | «over» => exact absurd hphase hover
  | exited => exact absurd hphase hexited

theorem stopping_enabled (site : Site O U) {e : Ending O U} (hphase : e.world.dir.phase = .over)
    (hreport : e.report = none) : (posteEnding site).CanTake EndingAct.OfDirector e := by
  by_cases hall : e.AllKilled
  · exact ⟨.report, trivial, hphase, hreport, hall⟩
  · have hsome : ∃ c, e.killed c = false := by
      by_contra hnone
      push Not at hnone
      have hkilled (c : Child O U) : e.killed c = true := by simpa using hnone c
      exact hall ⟨hkilled _, fun o => hkilled _, fun u _ => hkilled _⟩
    obtain ⟨c, hc⟩ := hsome
    exact ⟨.kill c, trivial, hphase, hreport, hc⟩

/-- Every request for new users finds enough processes that can still be started. -/
def RequestsFit (site : Site O U) (E : (posteEnding site).Execution) : Prop :=
  ∀ i n, (E.state i).world.dir.phase = .starting (n + 1) →
    ∃ u, ((E.state i).world.users u).phase = .notStarted

/-- In every execution that is fair to the section in progress and to the director, whatever the
other processes do or do not do, the simulation ends with its report, unless a sleep of the
director has failed. -/
theorem every_simulation_ends (site : Site O U) (E : (posteEnding site).Execution)
    (h0 : E.state 0 = Ending.init site) (hsection : E.WeaklyFair EndingAct.OfSection)
    (hdirector : E.StronglyFair EndingAct.OfDirector) (hfit : RequestsFit site E) :
    ∃ i, (E.state i).report ≠ none ∨ (E.state i).world.dir.phase = .exited := by
  have hkept : ∀ i, EndingKept site (E.state i) :=
    E.invariant (h0 ▸ endingKept_init site) fun e a he ha => he.step site e a ha
  have hcan (i : ℕ) : ∃ j, i ≤ j ∧
      ((E.state j).Over ∨ (posteEnding site).CanTake EndingAct.OfDirector (E.state j)) := by
    -- the lock comes back, and then the director can go on
    obtain ⟨j, hj, hlock⟩ := hsection.reaches (section_drives site) hkept
      (fun e he => section_canTake site he) i
    refine ⟨j, hj, ?_⟩
    by_cases hover : (E.state j).Over
    · exact Or.inl hover
    right
    obtain ⟨hreport, hexited⟩ := not_or.mp hover
    by_cases hphase : (E.state j).world.dir.phase = .over
    · exact stopping_enabled site hphase (not_not.mp hreport)
    · have hfree : (E.state j).world.sh.stats.Free := by
        rcases hlock with hfree | hphase' | hphase'
        · exact hfree
        · exact absurd hphase' hphase
        · exact absurd hphase' hexited
      obtain ⟨b, hb⟩ := director_enabled site hfree hphase hexited (hfit j)
      exact ⟨.step (.director b), trivial, hb, rfl⟩
  obtain ⟨i, -, hover⟩ := hdirector.reaches (ending_drives site) hkept hcan 0
  exact ⟨i, hover⟩

/-- The director does its rounds, stops the children and makes the report. -/
def oneDayEnding : List (EndingAct (Fin 1) (Fin 1)) :=
  oneDayRun.map .step ++
    [.kill .erogatore, .kill (.operatore 0), .kill (.utente 0), .report]

theorem oneDayEnding_runs : (posteEnding oneDay).Runs (Ending.init oneDay) oneDayEnding := by
  decide

/-- The same, with nothing happening after the report. -/
def oneDayForever : (posteEnding oneDay).Execution :=
  GuardedSystem.Execution.ofRun (posteEnding oneDay) oneDayEnding_runs

theorem oneDayForever_last {i : ℕ} (hi : oneDayEnding.length ≤ i) :
    oneDayForever.state i = (posteEnding oneDay).after (Ending.init oneDay) oneDayEnding :=
  GuardedSystem.Execution.ofRun_state_of_le oneDayEnding_runs hi

theorem oneDayForever_fits : RequestsFit oneDay oneDayForever := by
  have hrank (i : ℕ) : (oneDayForever.state i).world.dir.phase.rank ≠ 2 := by
    by_cases hi : oneDayEnding.length ≤ i
    · rw [oneDayForever_last hi]
      decide
    · have hall : ∀ i < oneDayEnding.length, ((posteEnding oneDay).after (Ending.init oneDay)
          (oneDayEnding.take i)).world.dir.phase.rank ≠ 2 := by
        decide
      exact hall i (not_le.mp hi)
  intro i n hphase
  exact absurd (by rw [hphase]; rfl) (hrank i)

theorem oneDayForever_fair : oneDayForever.WeaklyFair EndingAct.OfSection ∧
    oneDayForever.StronglyFair EndingAct.OfDirector := by
  let last := (posteEnding oneDay).after (Ending.init oneDay) oneDayEnding
  have hfree : last.world.sh.stats.Free := by decide
  have hphase : last.world.dir.phase = .over := by decide
  have hreport : last.report ≠ none := by
    have hsome : last.report.isSome = true := by decide
    rintro hnone
    rw [hnone] at hsome
    cases hsome
  constructor
  · refine (GuardedSystem.Execution.ofRun_fair oneDayEnding_runs ?_).1
    rintro ⟨a, hsection, ha⟩
    rcases a with (_ | _ | _ | _ | _) | _ | _ <;> first | exact hsection.elim | exact ha.1 hfree
  · refine (GuardedSystem.Execution.ofRun_fair oneDayEnding_runs ?_).2
    rintro ⟨a, hdirector, ha⟩
    rcases a with (_ | _ | _ | b | _) | c | _
    case step.director => exact not_over_of_director ha.1 hphase
    case kill => exact hreport ha.2.1
    case report => exact hreport ha.2.1
    all_goals exact hdirector.elim

theorem every_simulation_ends_one_day : ∃ i, (oneDayForever.state i).report ≠ none ∨
    (oneDayForever.state i).world.dir.phase = .exited :=
  every_simulation_ends oneDay oneDayForever rfl oneDayForever_fair.1 oneDayForever_fair.2
    oneDayForever_fits

end PosteItaliane
