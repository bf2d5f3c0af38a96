import PosteItaliane.Proofs.Gates
import PosteItaliane.Proofs.Sections

/-!
# The length of the simulation

`days_elapsed` is incremented when a day begins, and the loop ends when it has reached
`sim_duration`: the director starts the last day, publishes its first minute and stops.
-/

namespace PosteItaliane

open Framework

variable {O U : Type}

/-- The argument of a call of `start_new_day`, as its section writes it. -/
def startedDay : Act O U → Option ℤ
  | .director (.resetStats day) => some day
  | _ => none

/-- What the director's counters can be when the simulation lasts `N` days. -/
def Direttore.Phase.Calendar (N days m : ℤ) : Direttore.Phase → Prop
  | .loop => days = 0 ∧ m = 0 ∨ 1 ≤ days ∧ days ≤ N ∧ 1 ≤ m ∧ m ≤ 1440 ∧ (days = N → m = 1)
  | .openCheck | .opening _ | .closeCheck | .closing _ | .midnightCheck =>
    days < N ∧ (days = 0 ∧ m = 0 ∨ 1 ≤ days ∧ 1 ≤ m ∧ m ≤ 1440)
  | .explodeCheck | .showStats | .resetStats | .resetSeats | .waking _ =>
    days ≤ N ∧ (days = 1 ∧ m = 0 ∨ 2 ≤ days ∧ m = 1440)
  | .newUsers | .starting _ | .clock =>
    1 ≤ days ∧ days ≤ N ∧ 0 ≤ m ∧ m ≤ 1439 ∧ (days = N → m = 0)
  | .over | .exited => True

/-- The new day is counted and not yet current. -/
def Direttore.Phase.dayAhead : Direttore.Phase → Bool
  | .explodeCheck | .showStats | .resetStats => true
  | _ => false

/-- The holder of the lock has still to make an assignment that `f` selects. -/
def World.awaitsWrite (f : StatsWrite → Bool) (w : World O U) : Bool :=
  match w.sh.stats.holder with
  | some (_, ws) => ws.any f
  | none => false

def StatsWrite.setsDay : StatsWrite → Bool
  | .setCurrentDay _ => true
  | _ => false

def StatsWrite.setsMinute : StatsWrite → Bool
  | .setCurrentMinute _ => true
  | _ => false

/-- The day and the minute that everybody sees, next to the counters of the director. The
flags say that the director has still to write them. -/
def Direttore.Phase.Dated (N days m day minute : ℤ) (writesDay writesMinute : Bool) :
    Direttore.Phase → Prop
  | .over => day = N ∧ minute = 1 ∨ day < N
  | .exited => day < N
  | phase =>
    (if phase.dayAhead || writesDay then day + 1 = days else day = days) ∧
    if writesMinute then minute + 1 = m ∨ m = 1 ∧ (minute = 0 ∨ minute = 1440)
    else minute = m ∨ m = 0 ∧ minute = 1440

def World.Dated (N : ℤ) (w : World O U) : Prop :=
  w.dir.phase.Dated N w.dir.daysElapsed w.dir.minutesElapsed w.sh.stats.value.currentDay
    w.sh.stats.value.currentMinute (w.awaitsWrite StatsWrite.setsDay)
    (w.awaitsWrite StatsWrite.setsMinute)

variable [Fintype O] [Fintype U] [DecidableEq O] [DecidableEq U]

omit [DecidableEq O] [DecidableEq U] in
theorem calendar_step (site : Site O U) {N : ℤ} (hN : site.config.simDuration = N)
    {l : Direttore.Local} {sh : Shared O U} {b : Direttore.Act U}
    (h : l.phase.Calendar N l.daysElapsed l.minutesElapsed)
    (hb : Direttore.Enabled site l sh b) :
    (Direttore.next site l sh b).1.phase.Calendar N (Direttore.next site l sh b).1.daysElapsed
      (Direttore.next site l sh b).1.minutesElapsed := by
  obtain ⟨phase, m, days, n, printed⟩ := l
  subst hN
  cases b <;> simp only [Direttore.Enabled] at hb
  case nanosleepFails => trivial
  case timeout => trivial
  case explode => trivial
  case midnight =>
    obtain ⟨rfl, hmod⟩ := hb
    simp only [Direttore.Phase.Calendar] at h
    simp only [Direttore.next, Direttore.Phase.Calendar]
    omega
  all_goals
    simp only [Direttore.next]
    grind [Direttore.Phase.Calendar]

/-- The two steps of the director that begin a section. -/
def Direttore.Act.begins (f : StatsWrite → Bool) : Direttore.Act U → Bool
  | .resetStats day => (resetDailyStats day).any f
  | .publishMinute minute => (PosteItaliane.publishMinute minute).any f
  | _ => false

omit [DecidableEq O] [DecidableEq U] in
theorem dated_director (site : Site O U) {N : ℤ} (hN : site.config.simDuration = N)
    (hpos : 1 ≤ N) {l : Direttore.Local} {sh : Shared O U} {b : Direttore.Act U}
    {day minute : ℤ} (hcal : l.phase.Calendar N l.daysElapsed l.minutesElapsed)
    (h : l.phase.Dated N l.daysElapsed l.minutesElapsed day minute false false)
    (hb : Direttore.Enabled site l sh b) :
    (Direttore.next site l sh b).1.phase.Dated N (Direttore.next site l sh b).1.daysElapsed
      (Direttore.next site l sh b).1.minutesElapsed day minute (b.begins StatsWrite.setsDay)
      (b.begins StatsWrite.setsMinute) := by
  obtain ⟨phase, m, days, n, printed⟩ := l
  subst hN
  cases b <;> simp only [Direttore.Enabled] at hb
  case timeout =>
    obtain ⟨rfl, hdays⟩ := hb
    simp only [Direttore.Phase.Calendar, Direttore.Phase.Dated, Direttore.Phase.dayAhead] at hcal h
    simp only [Direttore.next, Direttore.Phase.Dated]
    simp at h
    omega
  all_goals
    simp only [Direttore.next, Direttore.Act.begins, resetDailyStats, PosteItaliane.publishMinute,
      StatsWrite.setsDay, StatsWrite.setsMinute, List.any_cons, List.any_nil, Bool.or_false]
    grind [Direttore.Phase.Calendar, Direttore.Phase.Dated, Direttore.Phase.dayAhead]

theorem apply_clock {e : StatsWrite} (h : e.ofDirector = false) (x : PosteStats) :
    (e.apply x).currentDay = x.currentDay ∧ (e.apply x).currentMinute = x.currentMinute := by
  cases e with
  | increment r i => cases r <;> exact ⟨rfl, rfl⟩
  | setCurrentDay day => cases h
  | resetToday => cases h
  | setCurrentMinute minute => cases h
  | _ => exact ⟨rfl, rfl⟩

omit [Fintype O] [Fintype U] [DecidableEq O] [DecidableEq U] in
theorem awaitsWrite_eq_false {w : World O U} {f : StatsWrite → Bool}
    (hf : ∀ e, f e = true → e.ofDirector = true)
    (h : ∀ p ws, w.sh.stats.holder = some (p, ws) → ∀ e ∈ ws, e.ofDirector = false) :
    w.awaitsWrite f = false := by
  unfold World.awaitsWrite
  cases hholder : w.sh.stats.holder with
  | none => rfl
  | some q =>
    obtain ⟨p, ws⟩ := q
    rw [List.any_eq_false]
    intro e he hfe
    exact absurd (hf e hfe) (by simp [h p ws hholder e he])

theorem ofDirector_of_setsDay (e : StatsWrite) (h : e.setsDay = true) : e.ofDirector = true := by
  cases e <;> first | rfl | cases h

theorem ofDirector_of_setsMinute (e : StatsWrite) (h : e.setsMinute = true) :
    e.ofDirector = true := by
  cases e <;> first | rfl | cases h

omit [Fintype O] [Fintype U] in
theorem SectionsHeld.loop_of_awaits {w : World O U} (h : SectionsHeld w)
    (hminute : w.awaitsWrite StatsWrite.setsMinute = true) : w.dir.phase = .loop := by
  by_contra hphase
  rw [World.awaitsWrite] at hminute
  cases hholder : w.sh.stats.holder with
  | none => simp [hholder] at hminute
  | some q =>
    obtain ⟨p, ws⟩ := q
    rw [hholder] at hminute
    obtain ⟨e, he, hset⟩ := List.any_eq_true.mp hminute
    by_cases hp : p = .direttore
    · subst p
      rcases h.director ws hholder with ⟨-, hsuffix⟩ | ⟨hloop, -⟩
      · have hmem := hsuffix.subset he
        simp only [resetDailyStats, List.mem_cons, List.not_mem_nil, or_false] at hmem
        rcases hmem with rfl | rfl <;> cases hset
      · exact hphase hloop
    · have hnot := h.ofDirector hholder hp e he
      rw [ofDirector_of_setsMinute e hset] at hnot
      cases hnot

omit [Fintype O] [Fintype U] [DecidableEq O] [DecidableEq U] in
theorem World.Dated.keep {N : ℤ} {w w' : World O U} (h : w.Dated N) (hdir : w'.dir = w.dir)
    (hday : w'.sh.stats.value.currentDay = w.sh.stats.value.currentDay)
    (hminute : w'.sh.stats.value.currentMinute = w.sh.stats.value.currentMinute)
    (hwrites : ∀ f : StatsWrite → Bool, (∀ e, f e = true → e.ofDirector = true) →
      w'.awaitsWrite f = w.awaitsWrite f) : w'.Dated N := by
  unfold World.Dated
  rw [hdir, hday, hminute, hwrites _ ofDirector_of_setsDay, hwrites _ ofDirector_of_setsMinute]
  exact h

theorem dated_section_other {N : ℤ} {site : Site O U} {w : World O U} (h : w.Dated N)
    {p : Proc O U} {ws : List StatsWrite} (hholder : w.sh.stats.holder = some (p, ws))
    (hothers : ∀ e ∈ ws, e.ofDirector = false) : (w.next site .section).Dated N := by
  have hnext : (w.next site .section).sh.stats = w.sh.stats.advance := rfl
  have hfalse {f : StatsWrite → Bool} (hf : ∀ e, f e = true → e.ofDirector = true) :
      w.awaitsWrite f = false := by
    apply awaitsWrite_eq_false hf
    intro q vs hq
    rw [hholder] at hq
    cases hq
    exact hothers
  cases ws with
  | nil =>
    rw [Monitor.advance_nil hholder] at hnext
    refine h.keep rfl (by rw [hnext]) (by rw [hnext]) fun f hf => ?_
    rw [hfalse hf]
    simp only [World.awaitsWrite, hnext]
  | cons e ws =>
    rw [Monitor.advance_cons hholder] at hnext
    obtain ⟨hday, hminute⟩ := apply_clock (hothers e List.mem_cons_self) w.sh.stats.value
    refine h.keep rfl ?_ ?_ fun f hf => ?_
    · rw [hnext]
      exact hday
    · rw [hnext]
      exact hminute
    · rw [hfalse hf]
      apply awaitsWrite_eq_false hf
      intro q vs hq
      rw [hnext] at hq
      cases hq
      exact fun e' he' => hothers e' (List.mem_cons_of_mem e he')

theorem dated_section_director {N : ℤ} {site : Site O U} {w : World O U} (h : w.Dated N)
    {ws : List StatsWrite} (hholder : w.sh.stats.holder = some (.direttore, ws))
    (hheld : w.dir.phase = .resetSeats ∧ ws <:+ resetDailyStats w.dir.daysElapsed ∨
      w.dir.phase = .loop ∧ ws <:+ publishMinute w.dir.minutesElapsed) :
    (w.next site .section).Dated N := by
  have hnext : (w.next site .section).sh.stats = w.sh.stats.advance := rfl
  have hdir : (w.next site .section).dir = w.dir := rfl
  unfold World.Dated World.awaitsWrite at h ⊢
  rw [hdir, hnext]
  rw [hholder] at h
  rcases hheld with ⟨hphase, hsuffix⟩ | ⟨hphase, hsuffix⟩
  · rw [hphase] at h ⊢
    simp only [resetDailyStats, List.suffix_cons_iff, List.suffix_nil] at hsuffix
    rcases hsuffix with rfl | rfl | rfl
    · rw [Monitor.advance_cons hholder]
      simpa [Direttore.Phase.Dated, Direttore.Phase.dayAhead, StatsWrite.setsDay,
        StatsWrite.setsMinute, Assignment.assign, StatsWrite.apply] using h.2
    · rw [Monitor.advance_cons hholder]
      exact h
    · rw [Monitor.advance_nil hholder]
      exact h
  · rw [hphase] at h ⊢
    simp only [publishMinute, List.suffix_cons_iff, List.suffix_nil] at hsuffix
    rcases hsuffix with rfl | rfl
    · rw [Monitor.advance_cons hholder]
      simpa [Direttore.Phase.Dated, Direttore.Phase.dayAhead, StatsWrite.setsDay,
        StatsWrite.setsMinute, Assignment.assign, StatsWrite.apply] using h.1
    · rw [Monitor.advance_nil hholder]
      exact h

/-- The clock of a simulation of `N` days. -/
structure OnSchedule (N : ℤ) (w : World O U) : Prop where
  held : SectionsHeld w
  calendar : w.dir.phase.Calendar N w.dir.daysElapsed w.dir.minutesElapsed
  dated : w.Dated N

theorem stats_other {site : Site O U} {w : World O U} {a : Act O U} (ha : w.Enabled site a)
    (hsection : a ≠ .section) (hother : a.process ≠ some .direttore) :
    (w.next site a).sh.stats.value = w.sh.stats.value ∧
      ∀ f : StatsWrite → Bool, (∀ e, f e = true → e.ofDirector = true) →
        (w.next site a).awaitsWrite f = w.awaitsWrite f := by
  have hstep := stats_step site w a ha
  cases hev : statsEvent site a with
  | none =>
    rw [hev] at hstep
    refine ⟨by rw [hstep], fun f _ => ?_⟩
    simp only [World.awaitsWrite, hstep]
  | some e =>
    rw [hev] at hstep
    cases e with
    | begin p op =>
      obtain ⟨hfree, hnext⟩ := hstep
      have hp : p ≠ .direttore := by
        rintro rfl
        exact hother (process_of_begin hev)
      have hold {f : StatsWrite → Bool} : w.awaitsWrite f = false := by
        have hnone : w.sh.stats.holder = none := hfree
        simp only [World.awaitsWrite, hnone]
      refine ⟨by rw [hnext]; rfl, fun f hf => ?_⟩
      rw [hold]
      apply awaitsWrite_eq_false hf
      intro q ws hq
      rw [hnext] at hq
      cases hq
      intro e he
      exact (madeBy_of_calledBy (statsEvent_calledBy hev) e he).ofDirector hp
    | advance => exact absurd ((statsEvent_eq_advance site).mp hev) hsection

theorem OnSchedule.dated_other {N : ℤ} {site : Site O U} {w : World O U} (h : OnSchedule N w)
    {a : Act O U} (ha : w.Enabled site a) (hdir : (w.next site a).dir = w.dir)
    (hsection : a ≠ .section) (hother : a.process ≠ some .direttore) :
    (w.next site a).Dated N := by
  obtain ⟨hvalue, hawaits⟩ := stats_other ha hsection hother
  exact h.dated.keep hdir (by rw [hvalue]) (by rw [hvalue]) hawaits

theorem SectionsHeld.awaits_director {site : Site O U} {w : World O U} (h : SectionsHeld w)
    {b : Direttore.Act U} (ha : w.Enabled site (.director b)) {f : StatsWrite → Bool}
    (hf : ∀ e, f e = true → e.ofDirector = true) :
    w.awaitsWrite f = false ∧ (w.next site (.director b)).awaitsWrite f = b.begins f := by
  have hothers (p : Proc O U) (ws : List StatsWrite) (hholder : w.sh.stats.holder = some (p, ws)) :
      ∀ e ∈ ws, e.ofDirector = false := by
    apply h.ofDirector hholder
    rintro rfl
    exact ha.1 (by simp [Monitor.inside, hholder])
  have hout := awaitsWrite_eq_false hf hothers
  refine ⟨hout, ?_⟩
  cases b
  case resetStats day => rfl
  case publishMinute minute => rfl
  all_goals exact hout

theorem OnSchedule.dated_director {N : ℤ} {site : Site O U} (hN : site.config.simDuration = N)
    (hpos : 1 ≤ N) {w : World O U} (h : OnSchedule N w) {b : Direttore.Act U}
    (ha : w.Enabled site (.director b)) : (w.next site (.director b)).Dated N := by
  obtain ⟨hday, hnextDay⟩ := h.held.awaits_director ha ofDirector_of_setsDay
  obtain ⟨hminute, hnextMinute⟩ := h.held.awaits_director ha ofDirector_of_setsMinute
  have hold := h.dated
  unfold World.Dated at hold ⊢
  rw [hday, hminute] at hold
  rw [hnextDay, hnextMinute]
  have hnext := PosteItaliane.dated_director site hN hpos h.calendar hold ha.2.1
  cases b <;> exact hnext

theorem OnSchedule.step {N : ℤ} {site : Site O U} (hN : site.config.simDuration = N)
    (hpos : 1 ≤ N) {w : World O U} (h : OnSchedule N w) {a : Act O U} (ha : w.Enabled site a) :
    OnSchedule N (w.next site a) where
  held := h.held.step ha
  calendar := by
    cases a with
    | director b => exact calendar_step site hN h.calendar ha.2.1
    | _ => exact h.calendar
  dated := by
    cases a with
    | director b => exact h.dated_director hN hpos ha
    | «section» =>
      cases hholder : w.sh.stats.holder with
      | none => exact absurd hholder ha
      | some q =>
        obtain ⟨p, ws⟩ := q
        by_cases hp : p = .direttore
        · subst p
          exact dated_section_director h.dated hholder (h.held.director ws hholder)
        · exact dated_section_other h.dated hholder (h.held.ofDirector hholder hp)
    | oper o b => exact h.dated_other ha rfl (by simp) (by simp)
    | user u b => exact h.dated_other ha rfl (by simp) (by simp)
    | ticket b => exact h.dated_other ha rfl (by simp) (by simp)

omit [DecidableEq O] in
theorem onSchedule_init (site : Site O U) (N : ℤ) : OnSchedule N (World.init site) where
  held := sectionsHeld_init site
  calendar := Or.inl ⟨rfl, rfl⟩
  dated := ⟨rfl, Or.inl rfl⟩

omit [Fintype O] [Fintype U] in
theorem OnSchedule.last_day {N : ℤ} (hpos : 1 ≤ N) {w : World O U} (h : OnSchedule N w)
    (hday : w.sh.stats.value.currentDay = N) :
    w.sh.stats.value.currentMinute = 0 ∨ w.sh.stats.value.currentMinute = 1 ∨
      w.sh.stats.value.currentMinute = 1440 := by
  obtain ⟨hheld, hcal, hdated⟩ := h
  have hloop := hheld.loop_of_awaits
  unfold World.Dated at hdated
  rw [hday] at hdated
  generalize w.sh.stats.value.currentMinute = minute at hdated ⊢
  generalize w.awaitsWrite StatsWrite.setsMinute = writesMinute at hdated hloop
  cases hphase : w.dir.phase <;> rw [hphase] at hcal hdated hloop <;>
    simp only [Direttore.Phase.Calendar] at hcal <;>
    simp only [Direttore.Phase.Dated, Direttore.Phase.dayAhead] at hdated <;> grind

/-- Some time during the run the clock shows this day and this minute. -/
def Shows (site : Site O U) (as : List (Act O U)) (day minute : ℤ) : Prop :=
  ∃ bs, bs <+: as ∧
    ((poste site).after (World.init site) bs).sh.stats.value.currentDay = day ∧
    ((poste site).after (World.init site) bs).sh.stats.value.currentMinute = minute

/-- `start_new_day` has been called for every day of the simulation, and all minutes of
every one of them have elapsed. -/
structure FullDays (site : Site O U) (as : List (Act O U)) : Prop where
  started : as.filterMap startedDay =
    (List.range site.config.simDuration.toNat).map fun d => (d : ℤ) + 1
  elapsed : ∀ day, 1 ≤ day → day ≤ site.config.simDuration →
    ∀ minute, 1 ≤ minute → minute ≤ 1440 → Shows site as day minute

theorem not_shows_last_day (site : Site O U) (hN : 1 ≤ site.config.simDuration)
    (as : List (Act O U)) (h : (poste site).Runs (World.init site) as) {minute : ℤ}
    (h2 : 2 ≤ minute) (h1439 : minute ≤ 1439) :
    ¬ Shows site as site.config.simDuration minute := by
  rintro ⟨bs, hbs, hday, hminute⟩
  have hsched := (poste site).invariant (onSchedule_init site site.config.simDuration)
    (fun w a hw ha => hw.step rfl hN ha) bs (GuardedSystem.Runs.of_prefix _ h hbs)
  have hlast := hsched.last_day hN hday
  omega

/-- Whatever a run does, its last day is not simulated in full. -/
theorem last_day_cut_short (site : Site O U) (hN : 1 ≤ site.config.simDuration)
    (as : List (Act O U)) (h : (poste site).Runs (World.init site) as) : ¬ FullDays site as :=
  fun hfull => not_shows_last_day site hN as h (Int.le_refl 2) (by decide)
    (hfull.elapsed _ hN (Int.le_refl _) 2 (by decide) (by decide))

def oneDay : Site (Fin 1) (Fin 1) :=
  .numbered { defaultConfig with
    numOperators := 1, numUsers := 1, numWorkerSeats := 1, simDuration := 1 } 1000
    (fun _ => 0) pids_before_user (by decide) (by decide)

/-- The director starts the day, publishes minute 1 and leaves the loop. -/
def oneDayRun : List (Act (Fin 1) (Fin 1)) :=
  midnight 1 ++ [Act.director (.resetSeats fun _ => 0)] ++ wakeUps 2 ++ [Act.director .timeout]

theorem last_day_cut_short_one_day : ¬ FullDays oneDay oneDayRun :=
  last_day_cut_short oneDay (by decide) oneDayRun (by decide)

/-- The loop has ended on its own, and of the one day a single minute has elapsed. -/
theorem one_day_of_one_minute : ¬ ∀ as : List (Act (Fin 1) (Fin 1)),
    (poste oneDay).Runs (World.init oneDay) as → .director .explode ∉ as →
    ((poste oneDay).after (World.init oneDay) as).dir.phase = .over → FullDays oneDay as := by
  intro hfullDays
  have hfull := hfullDays oneDayRun (by decide) (by simp [oneDayRun, midnight, wakeUps])
    (by decide)
  exact not_shows_last_day oneDay (by decide) oneDayRun (by decide) (Int.le_refl 2) (by decide)
    (hfull.elapsed 1 (by decide) (by decide) 2 (by decide) (by decide))

end PosteItaliane
