import PosteItaliane.Proofs.Gates
import PosteItaliane.Proofs.Sections

/-!
# Daily reports

The director prints the statistics of the day before it takes the lock to reset them. What
is added to them in between is in no report, and until the reset the printed day is also the
current one. The reports and the current day account for the cumulative statistics up to
these two amounts.
-/

namespace PosteItaliane

open Framework

/-- A value that is kept for every day and for the whole simulation. -/
inductive DayValue where
  | global (c : Counter)
  | service (s : ServiceId) (c : Counter)
  | lateUsers
  | totalPauses
  | activeOperators

def DailyStats.value (d : DailyStats) : DayValue → ℚ
  | .global c => d.global.get c
  | .service s c => (d.services s).get c
  | .lateUsers => d.lateUsers
  | .totalPauses => d.totalPauses
  | .activeOperators => d.activeOperators

def PosteStats.cumulative (x : PosteStats) : DayValue → ℚ
  | .global c => x.simulationGlobal.get c
  | .service s c => (x.simulationServices s).get c
  | .lateUsers => x.simulationGlobal.lateUsers
  | .totalPauses => x.totalSimulationPauses
  | .activeOperators => x.totalActiveOperators

variable {O U : Type} [Fintype O] [Fintype U] [DecidableEq O] [DecidableEq U]

def World.today (w : World O U) : DailyStats := w.sh.stats.value.today

/-- The sum over the reports that were printed so far. -/
def World.reported (w : World O U) (v : DayValue) : ℚ :=
  (w.dir.printed.map fun d => d.value v).sum

/-- What a step adds to a day that is printed and not yet reset. -/
def addedAfterPrint (site : Site O U) (v : DayValue) (w : World O U) (a : Act O U) : ℚ :=
  if w.dir.phase = .resetStats then (w.next site a).today.value v - w.today.value v else 0

/-- The day that is printed and not yet reset is still the current one. -/
def World.countedTwice (w : World O U) (v : DayValue) : ℚ :=
  if w.dir.phase = .resetStats then w.today.value v else 0

/-- The current day is printed and its reset still to be made. -/
def World.ResetDue (w : World O U) : Prop :=
  w.dir.phase = .resetStats ∨
    ∃ ws, w.sh.stats.holder = some (.direttore, ws) ∧ .resetToday ∈ ws

/-- The overwritten days of the ledger are the reports and what they miss. -/
structure Accounted (lost : DayValue → ℚ) (w : World O U)
    (m : Monitor (Proc O U) Ledger StatsWrite) : Prop where
  ledger : LedgerOf w m
  held : SectionsHeld w
  due : w.ResetDue → ∀ v, w.reported v + lost v =
    (m.value.past.map fun d => d.value v).sum + w.today.value v
  done : ¬ w.ResetDue → ∀ v, w.reported v + lost v = (m.value.past.map fun d => d.value v).sum

theorem addedAfterPrint_of_phase {site : Site O U} {w : World O U} (h : w.dir.phase ≠ .resetStats)
    (v : DayValue) (a : Act O U) : addedAfterPrint site v w a = 0 :=
  if_neg h

theorem addedAfterPrint_of_stats {site : Site O U} {w : World O U} {a : Act O U}
    (h : (w.next site a).today = w.today) (v : DayValue) : addedAfterPrint site v w a = 0 := by
  simp [addedAfterPrint, h]

omit [Fintype O] [Fintype U] [DecidableEq O] [DecidableEq U] in
theorem not_resetDue {w : World O U} (h : SectionsHeld w) (hstats : w.dir.phase ≠ .resetStats)
    (hseats : w.dir.phase ≠ .resetSeats) : ¬ w.ResetDue := by
  rintro (hphase | ⟨ws, hholder, hmem⟩)
  · exact hstats hphase
  · rcases h.director ws hholder with ⟨hphase, -⟩ | ⟨-, hsuffix⟩
    · exact hseats hphase
    · simpa [publishMinute] using hsuffix.subset hmem

theorem Accounted.keep {lost : DayValue → ℚ} {site : Site O U} {w : World O U} {a : Act O U}
    {m m' : Monitor (Proc O U) Ledger StatsWrite} (h : Accounted lost w m) (ha : w.Enabled site a)
    (hledger : LedgerOf (w.next site a) m') (hpast : m'.value.past = m.value.past)
    (htoday : (w.next site a).today = w.today)
    (hprinted : (w.next site a).dir.printed = w.dir.printed)
    (hdue : (w.next site a).ResetDue ↔ w.ResetDue) :
    Accounted (fun v => lost v + addedAfterPrint site v w a) (w.next site a) m' where
  ledger := hledger
  held := h.held.step ha
  due := by
    intro hnext v
    rw [addedAfterPrint_of_stats htoday, World.reported, hprinted, hpast, htoday, add_zero]
    exact h.due (hdue.mp hnext) v
  done := by
    intro hnext v
    rw [addedAfterPrint_of_stats htoday, World.reported, hprinted, hpast, add_zero]
    exact h.done (fun hd => hnext (hdue.mpr hd)) v

theorem Accounted.print {lost : DayValue → ℚ} {site : Site O U} {w : World O U}
    {m : Monitor (Proc O U) Ledger StatsWrite} (h : Accounted lost w m)
    (ha : w.Enabled site (.director .printDayStats))
    (hledger : LedgerOf (w.next site (.director .printDayStats)) m) :
    Accounted (fun v => lost v + addedAfterPrint site v w (.director .printDayStats))
      (w.next site (.director .printDayStats)) m where
  ledger := hledger
  held := h.held.step ha
  due := by
    intro _ v
    have hphase : w.dir.phase = .showStats := ha.2.1
    have hold := h.done (not_resetDue h.held (by simp [hphase]) (by simp [hphase])) v
    have hreported : (w.next site (.director .printDayStats)).reported v =
        w.reported v + w.today.value v := by
      simp [World.reported, World.next, Direttore.next, World.today]
    rw [addedAfterPrint_of_phase (by simp [hphase]), hreported]
    show _ = _ + w.today.value v
    linarith
  done := fun hnot => absurd (Or.inl rfl) hnot

omit [Fintype O] [Fintype U] [DecidableEq O] [DecidableEq U] in
theorem resetDue_of_free {w : World O U} (h : w.sh.stats.Free) :
    w.ResetDue ↔ w.dir.phase = .resetStats := by
  have hnone : w.sh.stats.holder = none := h
  simp [World.ResetDue, hnone]

omit [Fintype O] [Fintype U] [DecidableEq O] [DecidableEq U] in
theorem resetDue_congr {w w' : World O U} (hdir : w'.dir = w.dir)
    (hholder : w'.sh.stats.holder = w.sh.stats.holder) : w'.ResetDue ↔ w.ResetDue := by
  rw [World.ResetDue, World.ResetDue, hdir, hholder]

theorem resetDue_director {site : Site O U} {w : World O U} {b : Direttore.Act U}
    (ha : w.Enabled site (.director b)) (hev : statsEvent site (.director b : Act O U) = none)
    (hprint : b ≠ .printDayStats) :
    (w.next site (.director b)).ResetDue ↔ w.ResetDue := by
  have hstats : (w.next site (.director b)).sh.stats = w.sh.stats := by
    have hstep := stats_step site w _ ha
    rwa [hev] at hstep
  have hout (ws : List StatsWrite) : w.sh.stats.holder ≠ some (.direttore, ws) := by
    intro hholder
    exact ha.1 (by simp [Monitor.inside, hholder])
  have hphase : (w.next site (.director b)).dir.phase = .resetStats ↔
      w.dir.phase = .resetStats := by
    obtain ⟨-, he, -⟩ := ha
    cases b <;> try cases hev
    case printDayStats => exact absurd rfl hprint
    all_goals
      simp only [Direttore.Enabled] at he
      simp [World.next, Direttore.next, he]
  simp [World.ResetDue, hphase, hstats, hout]

theorem Accounted.begin {lost : DayValue → ℚ} {site : Site O U} {w : World O U} {a : Act O U}
    {m : Monitor (Proc O U) Ledger StatsWrite} (h : Accounted lost w m) (ha : w.Enabled site a)
    {p : Proc O U} {op : StatsOp} (hev : statsEvent site a = some (.begin p op))
    (hledger : LedgerOf (w.next site a) (m.enter p op.body)) :
    Accounted (fun v => lost v + addedAfterPrint site v w a) (w.next site a)
      (m.enter p op.body) := by
  have hstep := stats_step site w a ha
  rw [hev] at hstep
  obtain ⟨hfree, hstats⟩ := hstep
  have htoday : (w.next site a).today = w.today := by
    rw [World.today, hstats]
    rfl
  have hother (hp : p ≠ .direttore) (hdir : (w.next site a).dir = w.dir) :
      (w.next site a).ResetDue ↔ w.ResetDue := by
    rw [resetDue_of_free hfree, World.ResetDue, hdir, hstats]
    simp [Monitor.enter, hp]
  refine h.keep ha hledger rfl htoday ?_ ?_
  · cases a with
    | director b => cases b <;> first | rfl | cases hev
    | _ => rfl
  · cases a with
    | oper o b => exact hother (by cases b <;> cases hev <;> simp) rfl
    | user u b => exact hother (by cases b <;> cases hev <;> simp) rfl
    | ticket b => cases hev
    | «section» => cases hev
    | director b =>
      cases b <;> simp only [statsEvent, reduceCtorEq, Option.some.injEq] at hev <;> cases hev
      case resetStats.refl day =>
        have hphase : w.dir.phase = .resetStats := ha.2.1.1
        have hdue : (w.next site (.director (.resetStats day))).ResetDue :=
          Or.inr ⟨_, rfl, by simp [resetDailyStats]⟩
        exact iff_of_true hdue (Or.inl hphase)
      case publishMinute.refl minute =>
        have hphase : w.dir.phase = .clock := ha.2.1.1
        refine iff_of_false ?_ ((resetDue_of_free hfree).not.mpr (by simp [hphase]))
        rw [World.ResetDue, hstats]
        simp [World.next, Direttore.next, Monitor.enter, StatsOp.body, publishMinute]

omit [Fintype O] [Fintype U] [DecidableEq O] [DecidableEq U] in
theorem today_before_reset {w : World O U} (h : SectionsHeld w) (hdue : w.ResetDue)
    (hphase : w.dir.phase ≠ .resetStats) {p : Proc O U} {e : StatsWrite} {ws : List StatsWrite}
    (hholder : w.sh.stats.holder = some (p, e :: ws)) (he : e ≠ .resetToday) :
    (e.apply w.sh.stats.value).today = w.today := by
  rcases hdue with hp | ⟨vs, hvs, hmem⟩
  · exact absurd hp hphase
  · rw [hholder] at hvs
    cases hvs
    rcases h.director _ hholder with ⟨-, hsuffix⟩ | ⟨-, hsuffix⟩
    · have hday : e = .setCurrentDay w.dir.daysElapsed := by
        simp only [resetDailyStats, List.suffix_cons_iff, List.cons.injEq, List.suffix_nil,
          reduceCtorEq, or_false] at hsuffix
        rcases hsuffix with ⟨rfl, -⟩ | ⟨rfl, -⟩
        · rfl
        · exact absurd rfl he
      rw [hday]
      rfl
    · exact absurd (hsuffix.subset hmem) (by simp [publishMinute])

theorem Accounted.reset {lost : DayValue → ℚ} {site : Site O U} {w : World O U}
    {m : Monitor (Proc O U) Ledger StatsWrite} (h : Accounted lost w m)
    (ha : w.Enabled site .section) (hledger : LedgerOf (w.next site .section) m.advance)
    {p : Proc O U} {ws : List StatsWrite}
    (hholder : w.sh.stats.holder = some (p, .resetToday :: ws)) :
    Accounted (fun v => lost v + addedAfterPrint site v w .section) (w.next site .section)
      m.advance := by
  have hdirector : p = .direttore := by
    by_contra hp
    cases h.held.ofDirector hholder hp _ List.mem_cons_self
  subst hdirector
  have hdue : w.ResetDue := Or.inr ⟨_, hholder, List.mem_cons_self⟩
  rcases h.held.director _ hholder with ⟨hphase, hsuffix⟩ | ⟨-, hsuffix⟩
  · have hws : ws = [] := by simpa [resetDailyStats, List.suffix_cons_iff] using hsuffix
    have hnext : (w.next site .section).sh.stats =
        ⟨StatsWrite.resetToday.apply w.sh.stats.value, some (.direttore, ws)⟩ :=
      Monitor.advance_cons hholder
    have hover : ¬ (w.next site .section).ResetDue := by
      rw [World.ResetDue, hnext, hws]
      simp [World.next, hphase]
    have hpast : m.advance.value.past = m.value.past ++ [w.today] := by
      rw [Monitor.advance_cons (h.ledger.2.trans hholder), World.today, ← h.ledger.1]
      rfl
    refine ⟨hledger, h.held.step ha, fun hnot => absurd hnot hover, fun _ v => ?_⟩
    rw [hpast, addedAfterPrint_of_phase (by simp [hphase])]
    simp only [List.map_append, List.map_cons, List.map_nil, List.sum_append, List.sum_cons,
      List.sum_nil, add_zero]
    exact h.due hdue v
  · simp [publishMinute, List.suffix_cons_iff] at hsuffix

theorem Accounted.assign {lost : DayValue → ℚ} {site : Site O U} {w : World O U}
    {m : Monitor (Proc O U) Ledger StatsWrite} (h : Accounted lost w m)
    (ha : w.Enabled site .section) (hledger : LedgerOf (w.next site .section) m.advance)
    {p : Proc O U} {e : StatsWrite} {ws : List StatsWrite}
    (hholder : w.sh.stats.holder = some (p, e :: ws)) (he : e ≠ .resetToday) :
    Accounted (fun v => lost v + addedAfterPrint site v w .section) (w.next site .section)
      m.advance := by
  have hnext : (w.next site .section).sh.stats = ⟨e.apply w.sh.stats.value, some (p, ws)⟩ :=
    Monitor.advance_cons hholder
  have hpast : m.advance.value.past = m.value.past := by
    rw [Monitor.advance_cons (h.ledger.2.trans hholder)]
    cases e <;> first | rfl | exact absurd rfl he
  have hdue : (w.next site .section).ResetDue ↔ w.ResetDue := by
    rw [World.ResetDue, World.ResetDue, hnext, hholder]
    simp [World.next, Ne.symm he]
  have hreported (v : DayValue) : (w.next site .section).reported v = w.reported v := rfl
  refine ⟨hledger, h.held.step ha, fun hnow v => ?_, fun hnow v => ?_⟩
  · have hold := h.due (hdue.mp hnow) v
    rw [hpast, hreported]
    by_cases hphase : w.dir.phase = .resetStats
    · have hadded : addedAfterPrint site v w .section =
          (w.next site .section).today.value v - w.today.value v := if_pos hphase
      rw [hadded]
      linarith
    · have hsame : (w.next site .section).today = w.today := by
        rw [World.today, hnext]
        exact today_before_reset h.held (hdue.mp hnow) hphase hholder he
      rw [addedAfterPrint_of_stats hsame, hsame, add_zero]
      exact hold
  · have hold := h.done (fun hd => hnow (hdue.mpr hd)) v
    have hphase : w.dir.phase ≠ .resetStats := fun hp => hnow (Or.inl hp)
    rw [hpast, hreported, addedAfterPrint_of_phase hphase, add_zero]
    exact hold

theorem Accounted.advance {lost : DayValue → ℚ} {site : Site O U} {w : World O U}
    {m : Monitor (Proc O U) Ledger StatsWrite} (h : Accounted lost w m)
    (ha : w.Enabled site .section) (hledger : LedgerOf (w.next site .section) m.advance) :
    Accounted (fun v => lost v + addedAfterPrint site v w .section) (w.next site .section)
      m.advance := by
  obtain ⟨⟨p, ws⟩, hholder⟩ := Option.ne_none_iff_exists'.mp ha
  cases ws with
  | nil =>
    have hnext : (w.next site .section).sh.stats = ⟨w.sh.stats.value, none⟩ :=
      Monitor.advance_nil hholder
    have htoday : (w.next site .section).today = w.today := by
      rw [World.today, hnext]
      rfl
    have hpast : m.advance.value.past = m.value.past := by
      rw [Monitor.advance_nil (h.ledger.2.trans hholder)]
    refine h.keep ha hledger hpast htoday rfl ?_
    rw [World.ResetDue, World.ResetDue, hnext, hholder]
    simp [World.next]
  | cons e ws =>
    by_cases he : e = .resetToday
    · subst he
      exact h.reset ha hledger hholder
    · exact h.assign ha hledger hholder he

/-- The ledger after a step of the simulation. -/
def ledgerAfter (site : Site O U) (m : Monitor (Proc O U) Ledger StatsWrite) (a : Act O U) :
    Monitor (Proc O U) Ledger StatsWrite :=
  match statsEvent site a with
  | none => m
  | some e => (statsClients (Proc O U)).next m e

theorem Accounted.step {lost : DayValue → ℚ} {site : Site O U} {w : World O U} {a : Act O U}
    {m : Monitor (Proc O U) Ledger StatsWrite} (h : Accounted lost w m) (ha : w.Enabled site a) :
    Accounted (fun v => lost v + addedAfterPrint site v w a) (w.next site a)
      (ledgerAfter site m a) := by
  have hledger := poste_refines_clients site w m a h.ledger ha
  rw [ledgerAfter]
  cases hev : statsEvent site a with
  | some e =>
    rw [hev] at hledger
    cases e with
    | begin p op => exact h.begin ha hev hledger.2
    | advance =>
      have ha' : a = .section := by
        cases a with
        | oper o b => cases b <;> cases hev
        | user u b => cases b <;> cases hev
        | ticket b => cases hev
        | director b => cases b <;> cases hev
        | «section» => rfl
      subst ha'
      exact h.advance ha hledger.2
  | none =>
    rw [hev] at hledger
    have hstats := stats_step site w a ha
    rw [hev] at hstats
    have htoday : (w.next site a).today = w.today := by rw [World.today, hstats, World.today]
    cases a with
    | director b =>
      by_cases hprint : b = .printDayStats
      · subst hprint
        exact h.print ha hledger
      · refine h.keep ha hledger rfl htoday ?_ (resetDue_director ha hev hprint)
        cases b <;> first | rfl | exact absurd rfl hprint
    | oper o b => exact h.keep ha hledger rfl htoday rfl (resetDue_congr rfl (by rw [hstats]))
    | user u b => exact h.keep ha hledger rfl htoday rfl (resetDue_congr rfl (by rw [hstats]))
    | ticket b => exact h.keep ha hledger rfl htoday rfl (resetDue_congr rfl (by rw [hstats]))
    | «section» => cases hev

omit [DecidableEq O] in
theorem accounted_init (site : Site O U) :
    Accounted (fun _ => 0) (World.init site) Ledger.start where
  ledger := ⟨rfl, rfl⟩
  held := sectionsHeld_init site
  due := by
    rintro (hphase | ⟨ws, hholder, -⟩)
    · cases hphase
    · cases hholder
  done := by
    intro _ v
    simp [World.reported, World.init, Ledger.start]

theorem Conserved.days {L : Ledger} (h : Conserved L) (v : DayValue) :
    L.stats.cumulative v = (L.past.map fun d => d.value v).sum + L.stats.today.value v := by
  have hcast (f : DailyStats → ℕ) {n t : ℕ} (hn : n = (L.past.map f).sum + t) :
      (n : ℚ) = (L.past.map fun d => (f d : ℚ)).sum + t := by
    rw [hn, Nat.cast_add, Nat.cast_list_sum, List.map_map]
    rfl
  cases v with
  | global c => exact h.globalDays c
  | service s c => exact h.serviceDays s c
  | lateUsers => exact hcast (fun d => d.lateUsers) h.lateDays
  | totalPauses => exact hcast (fun d => d.totalPauses) h.pauseDays
  | activeOperators => exact hcast (fun d => d.activeOperators) h.activeDays

/-- What was added to printed days before their reset. -/
def lostBy (site : Site O U) (as : List (Act O U)) (v : DayValue) : ℚ :=
  (poste site).sumOver (addedAfterPrint site v) (World.init site) as

theorem accounted_run (site : Site O U) (as : List (Act O U))
    (h : (poste site).Runs (World.init site) as) :
    Accounted (lostBy site as) ((poste site).after (World.init site) as)
      ((statsClients (Proc O U)).after Ledger.start (as.filterMap (statsEvent site))) := by
  have hledger (as : List (Act O U)) (a : Act O U) :
      (statsClients (Proc O U)).after Ledger.start ((as ++ [a]).filterMap (statsEvent site)) =
        ledgerAfter site ((statsClients (Proc O U)).after Ledger.start
          (as.filterMap (statsEvent site))) a := by
    rw [List.filterMap_append, GuardedSystem.after_append, ledgerAfter]
    cases hev : statsEvent site a <;> simp [hev]
  have hrun := (poste site).trace_invariant
    (P := fun as w => w = (poste site).after (World.init site) as ∧
      Accounted (lostBy site as) w
        ((statsClients (Proc O U)).after Ledger.start (as.filterMap (statsEvent site))))
    ⟨rfl, accounted_init site⟩ ?_ as h
  · exact hrun.2
  · rintro as w a ⟨rfl, hacc⟩ ha
    refine ⟨((poste site).after_snoc _ as a).symm, ?_⟩
    rw [hledger]
    have hlost : lostBy site (as ++ [a]) = fun v => lostBy site as v +
        addedAfterPrint site v ((poste site).after (World.init site) as) a :=
      funext fun v => (poste site).sumOver_snoc _ _ as a
    rw [hlost]
    exact hacc.step ha

/-- Reports, current day and what is in no report make up the cumulative value and the day
that is counted twice. -/
theorem reports_account (site : Site O U) (as : List (Act O U))
    (h : (poste site).Runs (World.init site) as)
    (hfree : ((poste site).after (World.init site) as).sh.stats.Free) (v : DayValue) :
    ((poste site).after (World.init site) as).reported v +
        ((poste site).after (World.init site) as).today.value v + lostBy site as v =
      ((poste site).after (World.init site) as).sh.stats.value.cumulative v +
        ((poste site).after (World.init site) as).countedTwice v := by
  have hacc := accounted_run site as h
  obtain ⟨hruns, -⟩ := (poste_refines_clients site).run (t := Ledger.start) ⟨rfl, rfl⟩ as h
  have hdays := (settled_conserved _ hruns).days v
  rw [Monitor.settled_of_free (hacc.ledger.2.trans hfree), hacc.ledger.1] at hdays
  rw [World.countedTwice, hdays]
  by_cases hphase : ((poste site).after (World.init site) as).dir.phase = .resetStats
  · have hdue := hacc.due ((resetDue_of_free hfree).mpr hphase) v
    rw [if_pos hphase]
    show _ = _ + ((poste site).after (World.init site) as).today.value v + _
    linarith
  · have hdone := hacc.done ((resetDue_of_free hfree).not.mpr hphase) v
    rw [if_neg hphase]
    show _ = _ + ((poste site).after (World.init site) as).today.value v + _
    linarith

/-- The reports and the current day add up to the cumulative values if and only if nothing
is lost and nothing counted twice, or the two make up for each other. -/
theorem reports_add_up_iff (site : Site O U) (as : List (Act O U))
    (h : (poste site).Runs (World.init site) as)
    (hfree : ((poste site).after (World.init site) as).sh.stats.Free) :
    (∀ v, ((poste site).after (World.init site) as).reported v +
        ((poste site).after (World.init site) as).today.value v =
      ((poste site).after (World.init site) as).sh.stats.value.cumulative v) ↔
    ∀ v, lostBy site as v = ((poste site).after (World.init site) as).countedTwice v := by
  refine forall_congr' fun v => ?_
  have haccount := reports_account site as h hfree v
  constructor
  · intro hsum
    linarith
  · intro hlost
    linarith

/-- The operator leaves the counter at the closing and is not yet counted as active. -/
def leaveCounter : List (Act (Fin 1) (Fin 1)) :=
  closing 1200 1 ++ [Act.oper 0 (.closed 0), .oper 0 (.release 0 false), .oper 0 (.signal false)]

def counterShift : List (Act (Fin 1) (Fin 1)) :=
  counterMorning ++ (quietMinutes 1 479 ++ (sitDown ++ (quietMinutes 481 719 ++
    (leaveCounter ++ quietMinutes 1201 239))))

def counterAtOpening : World (Fin 1) (Fin 1) :=
  ((poste oneCounter).after (World.init oneCounter) counterMorning).atMinute 480

def counterAtClosing : World (Fin 1) (Fin 1) :=
  ((poste oneCounter).after counterAtOpening sitDown).atMinute 1200

def counterAtMidnight : World (Fin 1) (Fin 1) :=
  ((poste oneCounter).after counterAtClosing leaveCounter).atMinute 1440

theorem counter_idle_afternoon :
    Idle oneCounter ((poste oneCounter).after counterAtOpening sitDown) 481 :=
  ⟨by decide, by decide, by decide, by decide⟩

theorem counter_idle_evening :
    Idle oneCounter ((poste oneCounter).after counterAtClosing leaveCounter) 1201 :=
  ⟨by decide, by decide, by decide, by decide⟩

/-- A day at the counter with an evening of any kind. -/
def counterEvening (evening as : List (Act (Fin 1) (Fin 1))) : List (Act (Fin 1) (Fin 1)) :=
  counterMorning ++ (quietMinutes 1 479 ++ (sitDown ++ (quietMinutes 481 719 ++
    (evening ++ (quietMinutes 1201 239 ++ as)))))

theorem counterEvening_after {evening : List (Act (Fin 1) (Fin 1))}
    (h : Idle oneCounter ((poste oneCounter).after counterAtClosing evening) 1201)
    (as : List (Act (Fin 1) (Fin 1))) :
    (poste oneCounter).after (World.init oneCounter) (counterEvening evening as) =
      (poste oneCounter).after
        (((poste oneCounter).after counterAtClosing evening).atMinute 1440) as := by
  rw [counterEvening, GuardedSystem.after_append,
    after_quiet counter_idle_morning 478 oneCounter_quiet_morning, GuardedSystem.after_append]
  refine (after_quiet counter_idle_afternoon 718 oneCounter_quiet_afternoon _).trans ?_
  show (poste oneCounter).after counterAtClosing (evening ++ _) = _
  rw [GuardedSystem.after_append]
  exact after_quiet h 238 oneCounter_quiet_evening _

theorem counterEvening_runs {evening : List (Act (Fin 1) (Fin 1))}
    (hevening : (poste oneCounter).Runs counterAtClosing evening)
    (h : Idle oneCounter ((poste oneCounter).after counterAtClosing evening) 1201)
    {as : List (Act (Fin 1) (Fin 1))}
    (has : (poste oneCounter).Runs
      (((poste oneCounter).after counterAtClosing evening).atMinute 1440) as) :
    (poste oneCounter).Runs (World.init oneCounter) (counterEvening evening as) := by
  rw [counterEvening, GuardedSystem.runs_append,
    runs_quiet counter_idle_morning 478 oneCounter_quiet_morning, GuardedSystem.runs_append]
  refine ⟨by decide, by decide, ?_⟩
  apply (runs_quiet counter_idle_afternoon 718 oneCounter_quiet_afternoon _).mpr
  rw [GuardedSystem.runs_append]
  exact ⟨hevening, (runs_quiet h 238 oneCounter_quiet_evening _).mpr has⟩

theorem counterShift_append (as : List (Act (Fin 1) (Fin 1))) :
    counterShift ++ as = counterEvening leaveCounter as := by
  simp only [counterShift, counterEvening, List.append_assoc]

theorem counterShift_after (as : List (Act (Fin 1) (Fin 1))) :
    (poste oneCounter).after (World.init oneCounter) (counterShift ++ as) =
      (poste oneCounter).after counterAtMidnight as := by
  rw [counterShift_append]
  exact counterEvening_after counter_idle_evening as

theorem counterShift_runs {as : List (Act (Fin 1) (Fin 1))}
    (h : (poste oneCounter).Runs counterAtMidnight as) :
    (poste oneCounter).Runs (World.init oneCounter) (counterShift ++ as) := by
  rw [counterShift_append]
  exact counterEvening_runs (by decide) counter_idle_evening h

/-- It is counted between the report of its day and the reset. -/
def lateCount : List (Act (Fin 1) (Fin 1)) :=
  [.director .tick, .director .skipOpen, .director .skipClose, .director .midnight,
    .director .startNewDay, .director .printDayStats, .oper 0 .countActive, .section, .section,
    .section, .director (.resetStats 2), .section, .section, .section]

theorem lateCount_runs :
    (poste oneCounter).Runs (World.init oneCounter) (counterShift ++ lateCount) :=
  counterShift_runs (by decide)

theorem lateCount_free : ((poste oneCounter).after (World.init oneCounter)
    (counterShift ++ lateCount)).sh.stats.Free := by
  rw [counterShift_after]
  decide

theorem lateCount_unreported :
    ((poste oneCounter).after (World.init oneCounter) (counterShift ++ lateCount)).reported
        .activeOperators +
      ((poste oneCounter).after (World.init oneCounter) (counterShift ++ lateCount)).today.value
        .activeOperators ≠
    ((poste oneCounter).after (World.init oneCounter)
      (counterShift ++ lateCount)).sh.stats.value.cumulative .activeOperators := by
  rw [counterShift_after]
  decide +kernel

theorem reports_add_up_iff_late_count : ¬ ∀ v, lostBy oneCounter (counterShift ++ lateCount) v =
    ((poste oneCounter).after (World.init oneCounter) (counterShift ++ lateCount)).countedTwice v :=
  fun hlost => lateCount_unreported ((reports_add_up_iff oneCounter (counterShift ++ lateCount)
    lateCount_runs lateCount_free).mpr hlost .activeOperators)

/-- A shift that is counted after the report of its day is in no report. -/
theorem shift_in_no_report : ¬ ∀ as : List (Act (Fin 1) (Fin 1)),
    (poste oneCounter).Runs (World.init oneCounter) as →
    ((poste oneCounter).after (World.init oneCounter) as).sh.stats.Free →
    ∀ v, ((poste oneCounter).after (World.init oneCounter) as).reported v +
        ((poste oneCounter).after (World.init oneCounter) as).today.value v =
      ((poste oneCounter).after (World.init oneCounter) as).sh.stats.value.cumulative v :=
  fun hreported => lateCount_unreported
    (hreported _ lateCount_runs lateCount_free .activeOperators)

end PosteItaliane
