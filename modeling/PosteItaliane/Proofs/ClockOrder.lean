import PosteItaliane.Proofs.DayChange
import Mathlib.Data.Prod.Lex

/-!
# The shared clock from one write to the next

The day and the minute that other processes see change with two assignments of the
director, which lie in different sections. The minute grows by one at a time, also from 0 to
1 on the first day; on every later day the new day is written over the last minute of the
old one, and the first minute of the new day sets the clock back.
-/

namespace PosteItaliane

open Framework

variable {O U : Type}

/-- What other processes read, in lexicographic order. -/
def World.clock (w : World O U) : ℤ ×ₗ ℤ :=
  toLex (w.sh.stats.value.currentDay, w.sh.stats.value.currentMinute)

variable [Fintype O] [Fintype U] [DecidableEq O] [DecidableEq U]

/-- The calendar of the director, and that the segment follows it: nothing is current before
the first day begins, and during it the minute in the segment is the director's own. -/
structure Followed (site : Site O U) (w : World O U) : Prop where
  timed : Timed site w
  held : SectionsHeld w
  before : w.dir.daysElapsed = 0 → w.sh.stats.value.currentDay = 0
  firstDay : w.sh.stats.value.currentDay ≤ 1 →
    if w.awaitsWrite StatsWrite.setsMinute
    then w.sh.stats.value.currentMinute + 1 = w.dir.minutesElapsed
    else w.sh.stats.value.currentMinute = w.dir.minutesElapsed

/-- The assignment that the holder of the lock makes next. -/
def World.nextWrite (w : World O U) : Option StatsWrite :=
  match w.sh.stats.holder with
  | some (_, e :: _) => some e
  | _ => none

omit [Fintype O] [Fintype U] in
theorem SectionsHeld.directorWrites {w : World O U} (h : SectionsHeld w) {e : StatsWrite}
    (hwrite : w.nextWrite = some e) (he : e.ofDirector = true) :
    ∃ ws, w.sh.stats.holder = some (.direttore, e :: ws) := by
  unfold World.nextWrite at hwrite
  cases hholder : w.sh.stats.holder with
  | none => simp [hholder] at hwrite
  | some q =>
    obtain ⟨p, ws⟩ := q
    cases ws with
    | nil => simp [hholder] at hwrite
    | cons e' ws =>
      have hsame : e' = e := by simpa [hholder] using hwrite
      subst hsame
      have hp : p = .direttore := by
        by_contra hp
        have hnot := h.ofDirector hholder hp e' (by simp)
        simp [he] at hnot
      exact ⟨ws, by rw [hp]⟩

/-- What a step does to the clock: `day` and `minute` are what everybody sees after it. -/
structure ClockStep (w : World O U) (a : Act O U) (day minute : ℤ) : Prop where
  newDay : day ≠ w.sh.stats.value.currentDay → a = .section ∧
    w.nextWrite = some (.setCurrentDay day) ∧ day = w.sh.stats.value.currentDay + 1 ∧
    1 ≤ day ∧ minute = w.sh.stats.value.currentMinute
  tick : minute ≠ w.sh.stats.value.currentMinute → a = .section ∧
    w.nextWrite = some (.setCurrentMinute minute) ∧ day = w.sh.stats.value.currentDay ∧
    (minute = w.sh.stats.value.currentMinute + 1 ∨
      minute = 1 ∧ w.sh.stats.value.currentMinute = 1440 ∧ 2 ≤ day)

omit [DecidableEq O] [DecidableEq U] in
theorem Timed.one_le {site : Site O U} {w : World O U} (h : Timed site w)
    (hday : 1 ≤ w.dir.daysElapsed) (hover : w.dir.phase ≠ .over) (hexited : w.dir.phase ≠ .exited) :
    1 ≤ site.config.simDuration := by
  have hcal := h.calendar
  cases hp : w.dir.phase <;> rw [hp] at hcal <;>
    simp only [Direttore.Phase.Calendar] at hcal <;> first | omega | grind

omit [DecidableEq O] [DecidableEq U] in
theorem Followed.day_pending {site : Site O U} {w : World O U} (h : Followed site w)
    {day : ℤ} {ws : List StatsWrite}
    (hholder : w.sh.stats.holder = some (.direttore, .setCurrentDay day :: ws)) :
    day = w.dir.daysElapsed ∧ 1 ≤ day ∧ day ≤ site.config.simDuration ∧
      w.sh.stats.value.currentDay + 1 = day ∧ ws = [.resetToday] := by
  rcases h.held.director _ hholder with ⟨hphase, hsuffix⟩ | ⟨-, hsuffix⟩
  · have hcal := h.timed.calendar
    rw [hphase] at hcal
    simp only [Direttore.Phase.Calendar] at hcal
    have hN := h.timed.one_le (by omega) (by simp [hphase]) (by simp [hphase])
    have hdated := (h.timed.schedule hN).dated
    have hawaits : w.awaitsWrite StatsWrite.setsDay = true := by
      simp [World.awaitsWrite, hholder, StatsWrite.setsDay]
    unfold World.Dated at hdated
    rw [hphase, hawaits] at hdated
    simp only [Direttore.Phase.Dated, Direttore.Phase.dayAhead] at hdated
    simp only [resetDailyStats, List.suffix_cons_iff, List.suffix_nil] at hsuffix
    simp at hsuffix
    obtain ⟨rfl, rfl⟩ := hsuffix
    refine ⟨rfl, by omega, by omega, by simpa using hdated.1, rfl⟩
  · simp [publishMinute, List.suffix_cons_iff] at hsuffix

omit [DecidableEq O] [DecidableEq U] in
theorem Followed.minute_pending {site : Site O U} {w : World O U} (h : Followed site w)
    {minute : ℤ} {ws : List StatsWrite}
    (hholder : w.sh.stats.holder = some (.direttore, .setCurrentMinute minute :: ws)) :
    minute = w.dir.minutesElapsed ∧ ws = [] ∧
      (minute = w.sh.stats.value.currentMinute + 1 ∨
        minute = 1 ∧ w.sh.stats.value.currentMinute = 1440 ∧
          2 ≤ w.sh.stats.value.currentDay) := by
  have hawaits : w.awaitsWrite StatsWrite.setsMinute = true := by
    simp [World.awaitsWrite, hholder, StatsWrite.setsMinute]
  rcases h.held.director _ hholder with ⟨-, hsuffix⟩ | ⟨hphase, hsuffix⟩
  · simp [resetDailyStats, List.suffix_cons_iff] at hsuffix
  · simp only [publishMinute, List.suffix_cons_iff, List.suffix_nil] at hsuffix
    simp at hsuffix
    obtain ⟨rfl, rfl⟩ := hsuffix
    refine ⟨rfl, rfl, ?_⟩
    by_cases hday : w.sh.stats.value.currentDay ≤ 1
    · have hfirst := h.firstDay hday
      rw [if_pos hawaits] at hfirst
      exact Or.inl hfirst.symm
    · have hcal := h.timed.calendar
      rw [hphase] at hcal
      simp only [Direttore.Phase.Calendar] at hcal
      have hdays : w.dir.daysElapsed ≠ 0 := by
        intro h0
        rw [h.before h0] at hday
        omega
      have hN := h.timed.one_le (by omega) (by simp [hphase]) (by simp [hphase])
      have hdated := (h.timed.schedule hN).dated
      unfold World.Dated at hdated
      rw [hphase, hawaits] at hdated
      simp only [Direttore.Phase.Dated, if_true] at hdated
      omega

omit [Fintype O] [Fintype U] [DecidableEq O] [DecidableEq U] in
theorem clockStep_of_stats (w : World O U) (a : Act O U) :
    ClockStep w a w.sh.stats.value.currentDay w.sh.stats.value.currentMinute :=
  ⟨fun h => absurd rfl h, fun h => absurd rfl h⟩

/-- An assignment sets the day, sets the minute, or leaves the clock alone. -/
theorem section_clock {w : World O U} (h : SectionsHeld w) (site : Site O U)
    (ha : w.Enabled site .section) :
    ((w.next site .section).clock = w.clock ∧
      (w.next site .section).awaitsWrite StatsWrite.setsMinute =
        w.awaitsWrite StatsWrite.setsMinute) ∨
    (∃ day ws, w.sh.stats.holder = some (.direttore, .setCurrentDay day :: ws) ∧
      (w.next site .section).sh.stats =
        ⟨{ w.sh.stats.value with currentDay := day }, some (.direttore, ws)⟩) ∨
    ∃ minute ws, w.sh.stats.holder = some (.direttore, .setCurrentMinute minute :: ws) ∧
      (w.next site .section).sh.stats =
        ⟨{ w.sh.stats.value with currentMinute := minute }, some (.direttore, ws)⟩ := by
  rcases section_cases site ha with ⟨p, hholder, hnext⟩ | ⟨p, e, ws, hholder, hnext⟩
  · left
    simp [World.clock, World.awaitsWrite, hholder, hnext]
  · by_cases hdirector : e.ofDirector = true
    · have hp : p = .direttore := by
        by_contra hp
        have hnot := h.ofDirector hholder hp e (by simp)
        simp [hdirector] at hnot
      subst hp
      cases e with
      | setCurrentDay day => exact Or.inr (Or.inl ⟨day, ws, hholder, hnext⟩)
      | setCurrentMinute minute => exact Or.inr (Or.inr ⟨minute, ws, hholder, hnext⟩)
      | resetToday =>
        left
        simp [World.clock, World.awaitsWrite, hholder, hnext, StatsWrite.apply,
          StatsWrite.setsMinute]
      | _ => cases hdirector
    · have he : e.ofDirector = false := by simpa using hdirector
      obtain ⟨hday, hminute⟩ := apply_clock he w.sh.stats.value
      have hsets : e.setsMinute = false := by
        cases e <;> first | rfl | cases he
      left
      simp [World.clock, World.awaitsWrite, hholder, hnext, hday, hminute, hsets]

theorem Followed.clockStep (site : Site O U) {w : World O U} (h : Followed site w) {a : Act O U}
    (ha : w.Enabled site a) : ClockStep w a (w.next site a).sh.stats.value.currentDay
      (w.next site a).sh.stats.value.currentMinute := by
  have hkeep (hvalue : (w.next site a).clock = w.clock) :
      ClockStep w a (w.next site a).sh.stats.value.currentDay
        (w.next site a).sh.stats.value.currentMinute := by
    have hday : (w.next site a).sh.stats.value.currentDay = w.sh.stats.value.currentDay :=
      congrArg (fun c => (ofLex c).1) hvalue
    have hminute : (w.next site a).sh.stats.value.currentMinute =
        w.sh.stats.value.currentMinute := congrArg (fun c => (ofLex c).2) hvalue
    rw [hday, hminute]
    exact clockStep_of_stats w a
  have hother (hsection : a ≠ .section) (hp : a.process ≠ some .direttore) :
      (w.next site a).clock = w.clock := by
    unfold World.clock
    rw [(stats_other ha hsection hp).1]
  cases a with
  | oper o b => exact hkeep (hother (by simp) (by simp))
  | user u b => exact hkeep (hother (by simp) (by simp))
  | ticket b => exact hkeep (hother (by simp) (by simp))
  | director b => exact hkeep (by cases b <;> rfl)
  | «section» =>
    rcases section_clock h.held site ha with hsame | ⟨day, ws, hholder, hnext⟩ |
      ⟨minute, ws, hholder, hnext⟩
    · exact hkeep hsame.1
    · obtain ⟨-, hpos, -, hday, -⟩ := h.day_pending hholder
      have hwrite : w.nextWrite = some (.setCurrentDay day) := by simp [World.nextWrite, hholder]
      rw [hnext]
      exact ⟨fun _ => ⟨rfl, hwrite, hday.symm, hpos, rfl⟩, fun hne => absurd rfl hne⟩
    · obtain ⟨-, -, hminute⟩ := h.minute_pending hholder
      have hwrite : w.nextWrite = some (.setCurrentMinute minute) := by
        simp [World.nextWrite, hholder]
      rw [hnext]
      exact ⟨fun hne => absurd rfl hne, fun _ => ⟨rfl, hwrite, rfl, hminute⟩⟩

theorem Followed.director_step {site : Site O U} {w : World O U} (h : Followed site w)
    {b : Direttore.Act U} (ha : w.Enabled site (.director b)) :
    Followed site (w.next site (.director b)) := by
  obtain ⟨hold, hawaits⟩ := h.held.awaits_director ha ofDirector_of_setsMinute
  have hvalue : (w.next site (.director b)).sh.stats.value = w.sh.stats.value := by
    cases b <;> rfl
  have hcal := h.timed.calendar
  have hfirst := h.firstDay
  rw [hold] at hfirst
  have hdays : (w.next site (.director b)).dir.daysElapsed = 0 → w.dir.daysElapsed = 0 := by
    cases b <;> try exact id
    case midnight =>
      intro hzero
      have hzero : w.dir.daysElapsed + 1 = 0 := hzero
      rw [ha.2.1.1] at hcal
      simp only [Direttore.Phase.Calendar] at hcal
      omega
  refine ⟨h.timed.step ha, h.held.step ha, fun hzero => ?_, fun hday => ?_⟩
  · rw [hvalue]
    exact h.before (hdays hzero)
  · rw [hvalue] at hday ⊢
    rw [hawaits]
    have hlink := hfirst hday
    cases b <;> try exact hlink
    case dayStarted =>
      -- on the first day the counter is reset to the 0 it has already
      have hphase : w.dir.phase = .waking 0 := ha.2.1
      rw [hphase] at hcal
      simp only [Direttore.Phase.Calendar] at hcal
      have hN := h.timed.one_le (by omega) (by simp [hphase]) (by simp [hphase])
      have hdated := (h.timed.schedule hN).dated
      have hout := (h.held.awaits_director ha ofDirector_of_setsDay).1
      unfold World.Dated at hdated
      rw [hphase, hout, hold] at hdated
      simp only [Direttore.Phase.Dated, Direttore.Phase.dayAhead, Bool.or_self] at hdated
      have hcurrent := hdated.1
      simp at hcurrent hlink
      show (if Direttore.Act.begins StatsWrite.setsMinute (.dayStarted : Direttore.Act U) = true
        then _ else w.sh.stats.value.currentMinute = 0)
      rw [if_neg (by simp [Direttore.Act.begins])]
      omega
    case publishMinute minute =>
      have hminute : minute = w.dir.minutesElapsed + 1 := ha.2.1.2.1
      have hnext : (w.next site (.director (.publishMinute minute))).dir.minutesElapsed =
          minute := rfl
      have hbegins : Direttore.Act.begins StatsWrite.setsMinute
          (.publishMinute minute : Direttore.Act U) = true := rfl
      simp at hlink
      rw [if_pos hbegins, hnext, hminute, hlink]

theorem Followed.section_step {site : Site O U} {w : World O U} (h : Followed site w)
    (ha : w.Enabled site .section) : Followed site (w.next site .section) := by
  have htimed := h.timed.step ha
  have hheld := h.held.step ha
  have hdir : (w.next site .section).dir = w.dir := rfl
  rcases section_clock h.held site ha with ⟨hclock, hawaits⟩ | ⟨day, ws, hholder, hnext⟩ |
    ⟨minute, ws, hholder, hnext⟩
  · have hday : (w.next site .section).sh.stats.value.currentDay =
        w.sh.stats.value.currentDay := congrArg (fun c => (ofLex c).1) hclock
    have hminute : (w.next site .section).sh.stats.value.currentMinute =
        w.sh.stats.value.currentMinute := congrArg (fun c => (ofLex c).2) hclock
    refine ⟨htimed, hheld, ?_, ?_⟩
    · rw [hdir, hday]
      exact h.before
    · rw [hdir, hday, hminute, hawaits]
      exact h.firstDay
  · obtain ⟨hdays, hpos, -, hday, rfl⟩ := h.day_pending hholder
    have hwaits : w.awaitsWrite StatsWrite.setsMinute = false := by
      simp [World.awaitsWrite, hholder, StatsWrite.setsMinute]
    have hwaits' : (w.next site .section).awaitsWrite StatsWrite.setsMinute = false := by
      simp [World.awaitsWrite, hnext, StatsWrite.setsMinute]
    have hfirst := h.firstDay
    rw [hwaits] at hfirst
    refine ⟨htimed, hheld, ?_, ?_⟩
    · rw [hdir]
      omega
    · rw [hdir, hwaits', hnext]
      intro hle
      have hle : day ≤ 1 := hle
      exact hfirst (by omega)
  · obtain ⟨hminute, rfl, -⟩ := h.minute_pending hholder
    have hwaits' : (w.next site .section).awaitsWrite StatsWrite.setsMinute = false := by
      simp [World.awaitsWrite, hnext]
    refine ⟨htimed, hheld, ?_, ?_⟩
    · rw [hdir, hnext]
      exact h.before
    · rw [hdir, hwaits', hnext]
      exact fun _ => hminute

theorem Followed.step {site : Site O U} {w : World O U} (h : Followed site w) {a : Act O U}
    (ha : w.Enabled site a) : Followed site (w.next site a) := by
  have hother (hdir : (w.next site a).dir = w.dir) (hsection : a ≠ .section)
      (hp : a.process ≠ some .direttore) : Followed site (w.next site a) := by
    obtain ⟨hvalue, hawaits⟩ := stats_other ha hsection hp
    refine ⟨h.timed.step ha, h.held.step ha, ?_, ?_⟩
    · rw [hdir, hvalue]
      exact h.before
    · rw [hdir, hvalue, hawaits _ ofDirector_of_setsMinute]
      exact h.firstDay
  cases a with
  | oper o b => exact hother rfl (by simp) (by simp)
  | user u b => exact hother rfl (by simp) (by simp)
  | ticket b => exact hother rfl (by simp) (by simp)
  | director b => exact h.director_step ha
  | «section» => exact h.section_step ha

omit [DecidableEq O] in
theorem followed_init (site : Site O U) : Followed site (World.init site) where
  timed := timed_init site
  held := sectionsHeld_init site
  before _ := rfl
  firstDay _ := rfl

/-- Along the run the clock never goes back, and no day of the simulation begins with the
minute that the day before it ended with. -/
structure ClockForward (site : Site O U) (as : List (Act O U)) : Prop where
  ordered : ∀ bs a, bs ++ [a] <+: as →
    ((poste site).after (World.init site) bs).clock ≤
      ((poste site).after (World.init site) (bs ++ [a])).clock
  fresh : ∀ bs a, bs ++ [a] <+: as →
    1 ≤ ((poste site).after (World.init site) bs).sh.stats.value.currentDay →
    ((poste site).after (World.init site) (bs ++ [a])).sh.stats.value.currentDay ≠
      ((poste site).after (World.init site) bs).sh.stats.value.currentDay →
    ((poste site).after (World.init site) (bs ++ [a])).sh.stats.value.currentMinute ≠
      ((poste site).after (World.init site) bs).sh.stats.value.currentMinute

/-- The step is not the first assignment of `start_new_day` on a second or later day. -/
def KeepsFirstDay (w : World O U) : Act O U → Prop
  | .section => ∀ day, w.nextWrite = some (.setCurrentDay day) → day ≤ 1
  | _ => True

omit [Fintype O] [Fintype U] [DecidableEq O] [DecidableEq U] in
theorem keepsFirstDay_of {w : World O U} {a : Act O U}
    (h : a = .section → ∀ day, w.nextWrite = some (.setCurrentDay day) → day ≤ 1) :
    KeepsFirstDay w a := by
  cases a <;> first | trivial | exact h rfl

omit [Fintype O] [Fintype U] [DecidableEq O] [DecidableEq U] in
theorem KeepsFirstDay.day_le {w : World O U} {a : Act O U} {day minute : ℤ}
    (h : KeepsFirstDay w a) (hstep : ClockStep w a day minute)
    (hold : w.sh.stats.value.currentDay ≤ 1) : day ≤ 1 := by
  by_cases hday : day = w.sh.stats.value.currentDay
  · rw [hday]
    exact hold
  · obtain ⟨rfl, hwrite, -⟩ := hstep.newDay hday
    exact h day hwrite

omit [Fintype O] [Fintype U] [DecidableEq O] [DecidableEq U] in
/-- On the first day every step moves the clock forward or leaves it. -/
theorem clock_le_of_firstDay {w : World O U} {a : Act O U} {day minute : ℤ}
    (hstep : ClockStep w a day minute) (hday : day ≤ 1) : w.clock ≤ toLex (day, minute) := by
  unfold World.clock
  rw [Prod.Lex.toLex_le_toLex]
  by_cases hsame : day = w.sh.stats.value.currentDay
  · refine Or.inr ⟨hsame.symm, ?_⟩
    by_cases hminute : minute = w.sh.stats.value.currentMinute
    · exact hminute.ge
    · have htick := (hstep.tick hminute).2.2.2
      dsimp only
      omega
  · obtain ⟨-, -, hnew, -⟩ := hstep.newDay hsame
    refine Or.inl ?_
    dsimp only
    omega

theorem Followed.stale {site : Site O U} {w : World O U} (h : Followed site w) {a : Act O U}
    (hkeeps : ¬ KeepsFirstDay w a) :
    1 ≤ w.sh.stats.value.currentDay ∧
      (w.next site a).sh.stats.value.currentDay ≠ w.sh.stats.value.currentDay ∧
      (w.next site a).sh.stats.value.currentMinute = w.sh.stats.value.currentMinute := by
  cases a <;> try exact absurd trivial hkeeps
  obtain ⟨day, hwrite, hlater⟩ : ∃ day, w.nextWrite = some (.setCurrentDay day) ∧ 1 < day := by
    by_contra hnone
    apply hkeeps
    intro day hwrite
    by_contra hlt
    exact hnone ⟨day, hwrite, by omega⟩
  obtain ⟨ws, hholder⟩ := h.held.directorWrites hwrite rfl
  obtain ⟨-, -, -, hday, -⟩ := h.day_pending hholder
  have hnext : (w.next site .section).sh.stats = w.sh.stats.advance := rfl
  rw [hnext, Monitor.advance_cons hholder]
  refine ⟨by omega, ?_, rfl⟩
  show day ≠ w.sh.stats.value.currentDay
  omega

theorem followed_run (site : Site O U) (as : List (Act O U))
    (h : (poste site).Runs (World.init site) as) :
    Followed site ((poste site).after (World.init site) as) :=
  (poste site).invariant (followed_init site) (fun _ _ hw ha => hw.step ha) as h

theorem firstDay_run (site : Site O U) (as : List (Act O U))
    (h : ((poste site).restrict KeepsFirstDay).Runs (World.init site) as) :
    ((poste site).after (World.init site) as).sh.stats.value.currentDay ≤ 1 := by
  have hall := ((poste site).restrict KeepsFirstDay).invariant
    (P := fun w => Followed site w ∧ w.sh.stats.value.currentDay ≤ 1)
    ⟨followed_init site, show (0 : ℤ) ≤ 1 by decide⟩
    (fun w a hw ha => ⟨hw.1.step ha.1, ha.2.day_le (hw.1.clockStep site ha.1) hw.2⟩) as h
  exact hall.2

theorem clockForward_of_firstDay (site : Site O U) (as : List (Act O U))
    (h : ((poste site).restrict KeepsFirstDay).Runs (World.init site) as) :
    ClockForward site as := by
  have hstep (bs : List (Act O U)) (a : Act O U) (hpre : bs ++ [a] <+: as) :
      ((poste site).after (World.init site) (bs ++ [a])).sh.stats.value.currentDay ≤ 1 ∧
      ClockStep ((poste site).after (World.init site) bs) a
        ((poste site).after (World.init site) (bs ++ [a])).sh.stats.value.currentDay
        ((poste site).after (World.init site) (bs ++ [a])).sh.stats.value.currentMinute := by
    have hbs := GuardedSystem.Runs.of_prefix _ h hpre
    have hend := ((GuardedSystem.runs_snoc _ _ _ _).1 hbs)
    refine ⟨firstDay_run site _ hbs, ?_⟩
    rw [GuardedSystem.after_snoc]
    exact (followed_run site bs hend.1.of_restrict).clockStep site hend.2.1
  refine ⟨fun bs a hpre => ?_, fun bs a hpre hday hnew => ?_⟩
  · obtain ⟨hle, hclock⟩ := hstep bs a hpre
    exact clock_le_of_firstDay hclock hle
  · obtain ⟨hle, hclock⟩ := hstep bs a hpre
    have hnext := (hclock.newDay hnew).2.2.1
    omega

theorem firstDay_of_clockForward (site : Site O U) (as : List (Act O U))
    (h : (poste site).Runs (World.init site) as) (hclock : ClockForward site as) :
    ((poste site).restrict KeepsFirstDay).Runs (World.init site) as := by
  induction as using List.reverseRecOn with
  | nil => trivial
  | append_singleton as a ih =>
    obtain ⟨has, ha⟩ := (GuardedSystem.runs_snoc _ _ _ _).1 h
    have hpre : as <+: as ++ [a] := List.prefix_append as [a]
    have hforward : ClockForward site as :=
      ⟨fun bs b hb => hclock.ordered bs b (hb.trans hpre),
        fun bs b hb => hclock.fresh bs b (hb.trans hpre)⟩
    rw [GuardedSystem.runs_snoc]
    refine ⟨ih has hforward, ha, ?_⟩
    by_contra hkeeps
    obtain ⟨hday, hnew, hstale⟩ := (followed_run site as has).stale hkeeps
    have hfresh := hclock.fresh as a List.prefix_rfl hday
    rw [GuardedSystem.after_snoc] at hfresh
    exact hfresh hnew hstale

/-- The clock runs forward in a run exactly when no second day is written, and so it always
does in a simulation of one day. -/
theorem clock_forward_iff (site : Site O U) (as : List (Act O U))
    (h : (poste site).Runs (World.init site) as) :
    (ClockForward site as ↔ ((poste site).restrict KeepsFirstDay).Runs (World.init site) as) ∧
      (site.config.simDuration ≤ 1 → ClockForward site as) := by
  refine ⟨⟨firstDay_of_clockForward site as h, clockForward_of_firstDay site as⟩, ?_⟩
  intro hone
  apply clockForward_of_firstDay
  induction as using List.reverseRecOn with
  | nil => trivial
  | append_singleton as a ih =>
    obtain ⟨has, ha⟩ := (GuardedSystem.runs_snoc _ _ _ _).1 h
    rw [GuardedSystem.runs_snoc]
    refine ⟨ih has, ha, keepsFirstDay_of fun _ day hwrite => ?_⟩
    have hfollowed := followed_run site as has
    obtain ⟨ws, hholder⟩ := hfollowed.held.directorWrites hwrite rfl
    exact (hfollowed.day_pending hholder).2.2.1.trans hone

/-- The only day of a simulation of one day. -/
theorem clock_forward_iff_one_day : ClockForward oneDay oneDayRun :=
  (clock_forward_iff oneDay oneDayRun (by decide)).2 (by decide)

/-- The second day until its first minute is about to be written. -/
def secondDayDrawn : List (Act (Fin 1) (Fin 1)) :=
  midnight 2 ++ [Act.director (.resetSeats fun _ => 0), .director (.postDay 1),
    .director (.postDay 0), .director .dayStarted, .director .noNewUsers,
    .director (.publishMinute 1)]

/-- The clock shows 24:00 of the second day and goes back to its first minute. -/
theorem clock_set_back : ¬ ∀ as : List (Act (Fin 1) (Fin 1)),
    (poste oneCounter).Runs (World.init oneCounter) as → ClockForward oneCounter as := by
  intro hforward
  have happend : idleUntilMidnight (secondDayDrawn ++ [.section]) =
      idleUntilMidnight secondDayDrawn ++ [.section] := by
    simp only [idleUntilMidnight, List.append_assoc]
  have hruns : (poste oneCounter).Runs (World.init oneCounter)
      (idleUntilMidnight (secondDayDrawn ++ [.section])) := idleUntilMidnight_runs (by decide)
  have hordered := (hforward _ hruns).ordered (idleUntilMidnight secondDayDrawn) .section
    (by rw [happend])
  rw [← happend, idleUntilMidnight_after, idleUntilMidnight_after] at hordered
  exact absurd hordered (by decide)

end PosteItaliane
