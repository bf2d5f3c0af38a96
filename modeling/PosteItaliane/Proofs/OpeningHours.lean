import PosteItaliane.Proofs.ConfigLoading
import PosteItaliane.Proofs.DayChange
import PosteItaliane.Proofs.DirectorAlone

/-!
# The opening hours

What the director posts on the two gates in the course of a day. The ticks are separate
comparisons with the minute, which runs from 1 to 1440 on every day, so a day opens once and
closes once if the opening hour is one of these minutes. The hour 0 is not.
-/

namespace PosteItaliane

open Framework GuardedSystem

/-- What the director does at the gates. An opening tick comes with `num_users`. -/
inductive GateEvent where
  | opens (numUsers : ℤ)
  | postOpen
  | closes
  | postClose
  deriving DecidableEq

/-- The events since the last midnight, and those of every completed day. -/
structure GateLog where
  today : List GateEvent
  days : List (List GateEvent)

def GateLog.empty : GateLog := ⟨[], []⟩

/-- One opening tick with a post for every operator and user, and after it one closing tick
with a post for every operator. -/
def OpensAndCloses (config : PosteConfig) (day : List GateEvent) : Prop :=
  ∃ (n : ℤ) (k j : ℕ), (k : ℤ) = config.numOperators + n ∧ (j : ℤ) = config.numOperators ∧
    day = .opens n :: List.replicate k .postOpen ++ .closes :: List.replicate j .postClose

/-- The part of such a day up to `k` posts of the opening. -/
def Opening (n : ℤ) (k : ℕ) : List GateEvent := .opens n :: List.replicate k .postOpen

/-- How far the events of a day have come. -/
def GatesUntil (config : PosteConfig) (opened closed : Prop) (day : List GateEvent) : Prop :=
  ¬ opened ∧ ¬ closed ∧ day = [] ∨
    opened ∧ ¬ closed ∧ (∃ (n : ℤ) (k : ℕ), (k : ℤ) = config.numOperators + n ∧
      day = Opening n k) ∨
    opened ∧ closed ∧ OpensAndCloses config day

/-- The events of the day at each point of the loop. -/
def Direttore.Phase.GatesAt (config : PosteConfig) (m numUsers : ℤ) (day : List GateEvent) :
    Direttore.Phase → Prop
  | .loop | .openCheck =>
    GatesUntil config (config.workerShiftOpen * 60 < m) (config.workerShiftClose * 60 < m) day
  | .opening left => m = config.workerShiftOpen * 60 ∧
      ∃ k : ℕ, (k : ℤ) + left = config.numOperators + numUsers ∧ day = Opening numUsers k
  | .closeCheck =>
    GatesUntil config (config.workerShiftOpen * 60 ≤ m) (config.workerShiftClose * 60 < m) day
  | .closing left => m = config.workerShiftClose * 60 ∧
      ∃ (n : ℤ) (k j : ℕ), (k : ℤ) = config.numOperators + n ∧
        (j : ℤ) + left = config.numOperators ∧
        day = Opening n k ++ .closes :: List.replicate j .postClose
  | .midnightCheck | .newUsers | .starting _ | .clock =>
    GatesUntil config (config.workerShiftOpen * 60 ≤ m) (config.workerShiftClose * 60 ≤ m) day
  | .explodeCheck | .showStats | .resetStats | .resetSeats | .waking _ => day = []
  | .over | .exited => True

variable {O U : Type} [Fintype O] [Fintype U] [DecidableEq O] [DecidableEq U]

def GateLog.record (g : GateLog) (w : World O U) : Act O U → GateLog
  | .director .openPoste => { g with today := g.today ++ [.opens w.dir.numUsers] }
  | .director (.postOpen _) => { g with today := g.today ++ [.postOpen] }
  | .director .closePoste => { g with today := g.today ++ [.closes] }
  | .director (.postClose _) => { g with today := g.today ++ [.postClose] }
  | .director .midnight =>
    ⟨[], if w.dir.daysElapsed = 0 then g.days else g.days ++ [g.today]⟩
  | _ => g

/-- The simulation with the events at the gates. -/
def posteGates (site : Site O U) : GuardedSystem (World O U × GateLog) (Act O U) :=
  (poste site).withGhost GateLog.record

/-- The events of the present day are those of its minute, and every completed day has opened
and closed. -/
structure GatesLogged (site : Site O U) (p : World O U × GateLog) : Prop where
  timed : Timed site p.1
  users : 0 ≤ p.1.dir.numUsers
  today : p.1.dir.phase.GatesAt site.config p.1.dir.minutesElapsed p.1.dir.numUsers p.2.today
  days : ∀ day ∈ p.2.days, OpensAndCloses site.config day

theorem GatesUntil.congr {config : PosteConfig} {opened closed opened' closed' : Prop}
    {day : List GateEvent} (h : GatesUntil config opened closed day) (ho : opened ↔ opened')
    (hc : closed ↔ closed') : GatesUntil config opened' closed' day := by
  rw [← propext ho, ← propext hc]
  exact h

/-- The hours of a site whose gates are comparisons with different minutes of the day. -/
structure Hours (config : PosteConfig) : Prop where
  opens : 0 < config.workerShiftOpen
  order : config.workerShiftOpen < config.workerShiftClose
  closes : config.workerShiftClose ≤ 24
  operators : 0 ≤ config.numOperators

omit [DecidableEq O] [DecidableEq U] in
theorem gatesAt_step {site : Site O U} (hhours : Hours site.config) {w : World O U} {g : GateLog}
    {b : Direttore.Act U} (hb : Direttore.Enabled site w.dir w.sh b)
    (hcal : w.dir.phase.Calendar site.config.simDuration w.dir.daysElapsed w.dir.minutesElapsed)
    (husers : 0 ≤ w.dir.numUsers)
    (h : w.dir.phase.GatesAt site.config w.dir.minutesElapsed w.dir.numUsers g.today) :
    (Direttore.next site w.dir w.sh b).1.phase.GatesAt site.config
      (Direttore.next site w.dir w.sh b).1.minutesElapsed
      (Direttore.next site w.dir w.sh b).1.numUsers (g.record w (.director b)).today := by
  obtain ⟨hopens, horder, hcloses, hoperators⟩ := hhours
  obtain ⟨sh, opers, users, ticket, ⟨phase, m, days, n, printed⟩⟩ := w
  simp only at h hcal husers
  cases b <;> simp only [Direttore.Enabled] at hb <;>
    simp only [Direttore.next, GateLog.record] <;>
    simp only [Direttore.Phase.GatesAt]
  case openPoste =>
    obtain ⟨rfl, hm, -⟩ := hb
    rcases h with ⟨-, -, hnil⟩ | ⟨hlt, -⟩ | ⟨hlt, -⟩
    · refine ⟨hm, 0, by omega, ?_⟩
      simp [hnil, Opening]
    · omega
    · omega
  case skipOpen =>
    obtain ⟨rfl, hm⟩ := hb
    exact h.congr (by omega) Iff.rfl
  case postOpen left =>
    subst hb
    obtain ⟨hm, k, hk, hday⟩ := h
    refine ⟨hm, k + 1, by omega, ?_⟩
    rw [hday, Opening, Opening, List.replicate_succ']
    rfl
  case opened =>
    subst hb
    obtain ⟨hm, k, hk, hday⟩ := h
    exact Or.inr (Or.inl ⟨by omega, by omega, n, k, by omega, hday⟩)
  case closePoste =>
    obtain ⟨rfl, hm, -⟩ := hb
    rcases h with ⟨hlt, -⟩ | ⟨-, -, v, k, hk, hday⟩ | ⟨-, hlt, -⟩
    · omega
    · refine ⟨hm, v, k, 0, hk, by omega, ?_⟩
      simp [hday]
    · omega
  case skipClose =>
    obtain ⟨rfl, hm⟩ := hb
    exact h.congr Iff.rfl (by omega)
  case postClose left =>
    subst hb
    obtain ⟨hm, v, k, j, hk, hj, hday⟩ := h
    refine ⟨hm, v, k, j + 1, hk, by omega, ?_⟩
    rw [hday, List.replicate_succ', List.append_assoc]
    rfl
  case closed =>
    subst hb
    obtain ⟨hm, v, k, j, hk, hj, hday⟩ := h
    exact Or.inr (Or.inr ⟨by omega, by omega, v, k, j, hk, by omega, hday⟩)
  case dayStarted =>
    subst hb
    exact Or.inl ⟨by omega, by omega, h⟩
  case publishMinute minute =>
    obtain ⟨rfl, rfl, -⟩ := hb
    exact h.congr (by omega) (by omega)
  -- the steps that neither touch the gates nor the minute
  all_goals
    obtain ⟨rfl, -⟩ := hb
    exact h

omit [Fintype O] [Fintype U] [DecidableEq O] [DecidableEq U] in
theorem GateLog.record_days {P : List GateEvent → Prop} {g : GateLog} {w : World O U}
    {a : Act O U} (h : ∀ day ∈ g.days, P day)
    (hnew : a = .director .midnight → w.dir.daysElapsed ≠ 0 → P g.today) :
    ∀ day ∈ (g.record w a).days, P day := by
  cases a with
  | oper o b => exact h
  | user u b => exact h
  | ticket b => exact h
  | «section» => exact h
  | director b =>
    cases b <;> try exact h
    case midnight =>
      show ∀ day ∈ if w.dir.daysElapsed = 0 then g.days else g.days ++ [g.today], P day
      split
      · exact h
      · next hlater =>
        rw [List.forall_mem_append, List.forall_mem_singleton]
        exact ⟨h, hnew rfl hlater⟩

omit [DecidableEq O] [DecidableEq U] in
/-- The last minute of a day finds it opened and closed. -/
theorem opensAndCloses_midnight {site : Site O U} (hhours : Hours site.config) {w : World O U}
    {g : GateLog} (ha : w.Enabled site (.director .midnight))
    (hcal : w.dir.phase.Calendar site.config.simDuration w.dir.daysElapsed w.dir.minutesElapsed)
    (hday : w.dir.daysElapsed ≠ 0)
    (h : w.dir.phase.GatesAt site.config w.dir.minutesElapsed w.dir.numUsers g.today) :
    OpensAndCloses site.config g.today := by
  obtain ⟨hopens, horder, hcloses, -⟩ := hhours
  obtain ⟨hphase, hmod⟩ := ha.2.1
  rw [hphase] at hcal h
  simp only [Direttore.Phase.Calendar] at hcal
  rcases h with ⟨hnot, -⟩ | ⟨-, hnot, -⟩ | ⟨-, -, hall⟩
  · omega
  · omega
  · exact hall

theorem GatesLogged.step {site : Site O U} (hhours : Hours site.config)
    {p : World O U × GateLog} (h : GatesLogged site p) {a : Act O U} (ha : p.1.Enabled site a) :
    GatesLogged site ((posteGates site).next p a) := by
  have htimed := h.timed.step ha
  have hdays : ∀ day ∈ (p.2.record p.1 a).days, OpensAndCloses site.config day := by
    apply GateLog.record_days h.days
    rintro rfl hlater
    exact opensAndCloses_midnight hhours ha h.timed.calendar hlater h.today
  cases a with
  | oper o b => exact ⟨htimed, h.users, h.today, hdays⟩
  | user u b => exact ⟨htimed, h.users, h.today, hdays⟩
  | ticket b => exact ⟨htimed, h.users, h.today, hdays⟩
  | «section» => exact ⟨htimed, h.users, h.today, hdays⟩
  | director b =>
    have husers : p.1.dir.numUsers ≤ (p.1.next site (.director b)).dir.numUsers := by
      cases b <;> try exact le_rfl
      case receiveNewUsers n => exact le_add_of_nonneg_right (Int.natCast_nonneg n)
    exact ⟨htimed, h.users.trans husers,
      gatesAt_step hhours ha.2.1 h.timed.calendar h.users h.today, hdays⟩

omit [DecidableEq O] in
theorem gatesLogged_init {site : Site O U} (hhours : Hours site.config) :
    GatesLogged site (World.init site, GateLog.empty) where
  timed := timed_init site
  users := by
    show 0 ≤ site.config.numUsers
    rw [← site.users_started]
    exact Int.natCast_nonneg _
  today := by
    have hopens := hhours.opens
    have horder := hhours.order
    exact Or.inl ⟨by show ¬ _ < (0 : ℤ); omega, by show ¬ _ < (0 : ℤ); omega, rfl⟩
  days day hday := by cases hday

theorem gatesLogged_run (site : Site O U) (hhours : Hours site.config) (as : List (Act O U))
    (h : (poste site).Runs (World.init site) as) :
    GatesLogged site ((posteGates site).after (World.init site, GateLog.empty) as) :=
  (posteGates site).invariant (gatesLogged_init hhours) (fun _ _ hp ha => hp.step hhours ha) as
    (((poste site).runs_withGhost _ _ _ as).mpr h)

/-- The events of a director that never opens. -/
structure NeverOpened (p : World O U × GateLog) : Prop where
  today : ∀ n, .opens n ∉ p.2.today
  days : ∀ day ∈ p.2.days, ∀ n, .opens n ∉ day

theorem NeverOpened.step {site : Site O U} (hopen : site.config.workerShiftOpen = 0)
    {p : World O U × GateLog} (h : NeverOpened p) {a : Act O U} (ha : p.1.Enabled site a) :
    NeverOpened ((posteGates site).next p a) := by
  have hdays : ∀ day ∈ (p.2.record p.1 a).days, ∀ n, .opens n ∉ day :=
    GateLog.record_days h.days fun _ _ => h.today
  cases a with
  | oper o b => exact ⟨h.today, hdays⟩
  | user u b => exact ⟨h.today, hdays⟩
  | ticket b => exact ⟨h.today, hdays⟩
  | «section» => exact ⟨h.today, hdays⟩
  | director b =>
    have happend (e : GateEvent) (he : ∀ n, e ≠ .opens n) (n : ℤ) :
        .opens n ∉ p.2.today ++ [e] := by
      intro hmem
      rcases List.mem_append.mp hmem with hold | hnew
      · exact h.today n hold
      · exact he n (List.mem_singleton.mp hnew).symm
    cases b <;> try exact ⟨h.today, hdays⟩
    case openPoste =>
      obtain ⟨-, hm, hne⟩ := ha.2.1
      rw [hopen] at hm
      exact absurd hm hne
    case postOpen n => exact ⟨happend .postOpen (by simp), hdays⟩
    case closePoste => exact ⟨happend .closes (by simp), hdays⟩
    case postClose n => exact ⟨happend .postClose (by simp), hdays⟩
    case midnight => exact ⟨fun n hmem => (by cases hmem), hdays⟩

theorem neverOpened_run (site : Site O U) (hopen : site.config.workerShiftOpen = 0)
    (as : List (Act O U)) (h : (poste site).Runs (World.init site) as) :
    NeverOpened ((posteGates site).after (World.init site, GateLog.empty) as) := by
  refine (posteGates site).invariant ?_ (fun _ _ hp ha => hp.step hopen ha) as
    (((poste site).runs_withGhost _ _ _ as).mpr h)
  exact ⟨fun n hmem => (by cases hmem), fun day hday => (by cases hday)⟩

theorem days_nil_run (site : Site O U) (hone : site.config.simDuration ≤ 1) (as : List (Act O U))
    (h : (poste site).Runs (World.init site) as) :
    ((posteGates site).after (World.init site, GateLog.empty) as).2.days = [] := by
  have hall := (posteGates site).invariant
    (P := fun p => Timed site p.1 ∧ ∀ day ∈ p.2.days, False)
    (s := (World.init site, GateLog.empty)) ⟨timed_init site, by simp [GateLog.empty]⟩ ?_ as
    (((poste site).runs_withGhost _ _ _ as).mpr h)
  · exact List.eq_nil_iff_forall_not_mem.mpr hall.2
  · intro p a hp ha
    refine ⟨hp.1.step ha, GateLog.record_days hp.2 ?_⟩
    rintro rfl hlater
    have hcal := hp.1.calendar
    rw [ha.2.1.1] at hcal
    simp only [Direttore.Phase.Calendar] at hcal
    omega

theorem exists_completed_day (site : Site O U) (hexplode : 0 ≤ site.config.explodeMax)
    (hdays : 2 ≤ site.config.simDuration) : ∃ as, (poste site).Runs (World.init site) as ∧
      ((posteGates site).after (World.init site, GateLog.empty) as).2.days ≠ [] := by
  have hfirst : (directorAlone site).Leads (DirectorAt site .loop 0 0 site.config.numUsers)
      (DirectorAt site .loop 1 1 site.config.numUsers) :=
    leads_midnight hexplode (by omega) (by omega)
  have hday := hfirst.trans ((leads_lastMinute (by omega)).trans
    (leads_midnightCheck (m := 1440) (by omega)))
  obtain ⟨as, has⟩ := hday
  obtain ⟨halone, hend⟩ := has (World.init site) ⟨rfl, rfl, rfl, rfl, rfl, hexplode⟩
  have hruns : (poste site).Runs (World.init site) as := halone.of_restrict
  rw [directorAlone, restrict_after] at hend
  have hworld : ((posteGates site).after (World.init site, GateLog.empty) as).1 =
      (poste site).after (World.init site) as := (poste site).after_withGhost_fst _ _ _ as
  exists as ++ [.director .midnight]
  constructor
  · rw [runs_snoc]
    refine ⟨hruns, hend.outside, ⟨hend.phase, ?_⟩, trivial⟩
    rw [hend.minute]
    rfl
  · rw [after_snoc]
    show (if _ = (0 : ℤ) then _ else _ : List (List GateEvent)) ≠ []
    rw [hworld, hend.day]
    simp

/-- The days of the simulation all open once and close once exactly if the opening hour is not
0, or if no day is completed. -/
theorem opens_and_closes_daily_iff (site : Site O U) (haccepted : site.config.Accepted)
    (horder : site.config.workerShiftOpen < site.config.workerShiftClose)
    (hclose : site.config.workerShiftClose ≤ 24) :
    (∀ as, (poste site).Runs (World.init site) as →
      ∀ day ∈ ((posteGates site).after (World.init site, GateLog.empty) as).2.days,
        OpensAndCloses site.config day) ↔
    0 < site.config.workerShiftOpen ∨ site.config.simDuration ≤ 1 := by
  obtain ⟨hoperators, -, -, -, -, -, -, hopen, -, hexplode, -, -⟩ := haccepted
  constructor
  · intro hall
    by_contra hnot
    obtain ⟨as, hruns, hdays⟩ := exists_completed_day site hexplode (by omega)
    obtain ⟨day, hday⟩ := List.exists_mem_of_ne_nil _ hdays
    obtain ⟨n, k, j, -, -, hevents⟩ := hall as hruns day hday
    apply (neverOpened_run site (by omega) as hruns).days day hday n
    simp [hevents]
  · intro hcond as hruns
    rcases hcond with hpos | hone
    · exact (gatesLogged_run site ⟨hpos, horder, hclose, hoperators.le⟩ as hruns).days
    · rw [days_nil_run site hone as hruns]
      simp

theorem gates_quiet {site : Site O U} {w : World O U} {m : ℤ} (h : Idle site w m) (k : ℕ)
    (hq : ∀ i, m ≤ i → i ≤ m + k → Quiet site i) (g : GateLog) (as : List (Act O U)) :
    (posteGates site).after (w, g) (quietMinutes m (k + 1) ++ as) =
      (posteGates site).after (w.atMinute (m + k + 1), g) as := by
  have hkeep : ∀ a ∈ quietMinutes (O := O) (U := U) m (k + 1), ∀ (g : GateLog) w,
      g.record w a = g :=
    forall_mem_quietMinutes (by simp [quietMinute, GateLog.record]) m (k + 1)
  rw [after_append, posteGates, after_withGhost_of_forall _ _ hkeep, (quiet_minutes h k hq).2]

/-- The gates of the first day at the counter. -/
def idleGates : List GateEvent := [.opens 1, .postOpen, .postOpen, .closes, .postClose]

theorem idleDay_gates : idleGates ∈
    ((posteGates oneCounter).after (World.init oneCounter, GateLog.empty) idleDay).2.days := by
  have hmorning : (posteGates oneCounter).after (World.init oneCounter, GateLog.empty)
      idleMorning = ((poste oneCounter).after (World.init oneCounter) idleMorning,
        GateLog.empty) := rfl
  have hafternoon (as : List (Act (Fin 1) (Fin 1))) : (posteGates oneCounter).after
      (idleAtOpening, GateLog.empty) (idleOpening ++ (quietMinutes 481 719 ++ as)) =
      (posteGates oneCounter).after (idleAtClosing, ⟨idleGates.take 3, []⟩) as := by
    rw [after_append]
    exact gates_quiet idle_afternoon 718 oneCounter_quiet_afternoon _ as
  have hevening (as : List (Act (Fin 1) (Fin 1))) : (posteGates oneCounter).after
      (idleAtClosing, ⟨idleGates.take 3, []⟩) (closing 1200 1 ++ (quietMinutes 1201 239 ++ as)) =
      (posteGates oneCounter).after (idleAtMidnight, ⟨idleGates, []⟩) as := by
    rw [after_append]
    exact gates_quiet idle_evening 238 oneCounter_quiet_evening _ as
  have hday : (posteGates oneCounter).after (World.init oneCounter, GateLog.empty) idleDay =
      (posteGates oneCounter).after (idleAtMidnight, ⟨idleGates, []⟩) secondMorning := by
    rw [idleDay, after_append, hmorning, ← hevening, ← hafternoon]
    exact gates_quiet idle_morning 478 oneCounter_quiet_morning _ _
  rw [hday]
  decide

theorem opens_and_closes_daily_iff_idle : OpensAndCloses oneCounter.config idleGates :=
  (opens_and_closes_daily_iff oneCounter (by unfold PosteConfig.Accepted; decide) (by decide)
    (by decide)).mpr (Or.inl (by decide)) idleDay idleDay_runs idleGates idleDay_gates

/-- A counter that is to open at midnight. -/
def nightCounter : Site (Fin 1) (Fin 1) :=
  .numbered { defaultConfig with
      numOperators := 1, numUsers := 1, numWorkerSeats := 1, workerShiftOpen := 0 }
    1000 (fun _ => 0) pids_before_user (by decide) (by decide)

def nightMorning : List (Act (Fin 1) (Fin 1)) :=
  midnight 1 ++ [.director (.resetSeats fun _ => 0)] ++ wakeUps 2

def nightAtClosing : World (Fin 1) (Fin 1) :=
  ((poste nightCounter).after (World.init nightCounter) nightMorning).atMinute 1200

def nightAtMidnight : World (Fin 1) (Fin 1) :=
  ((poste nightCounter).after nightAtClosing (closing 1200 1)).atMinute 1440

/-- The first day, from the midnight before it to the one after it. -/
def nightDay : List (Act (Fin 1) (Fin 1)) :=
  nightMorning ++ (quietMinutes 1 1199 ++ (closing 1200 1 ++ (quietMinutes 1201 239 ++
    [Act.director .tick, .director .skipOpen, .director .skipClose, .director .midnight])))

theorem nightCounter_quiet {m : ℤ} (h0 : 0 < m) (h1440 : m < 1440) (h1200 : m ≠ 1200) :
    Quiet nightCounter m := by
  refine ⟨?_, h1200, by omega⟩
  show m ≠ 0
  omega

theorem night_idle_day :
    Idle nightCounter ((poste nightCounter).after (World.init nightCounter) nightMorning) 1 :=
  ⟨by decide, by decide, by decide, by decide⟩

theorem night_idle_evening :
    Idle nightCounter ((poste nightCounter).after nightAtClosing (closing 1200 1)) 1201 :=
  ⟨by decide, by decide, by decide, by decide⟩

theorem nightCounter_quiet_day : ∀ i : ℤ, 1 ≤ i → i ≤ 1 + (1198 : ℕ) → Quiet nightCounter i :=
  fun i h1 h2 => nightCounter_quiet (by omega) (by omega) (by omega)

theorem nightCounter_quiet_evening :
    ∀ i : ℤ, 1201 ≤ i → i ≤ 1201 + (238 : ℕ) → Quiet nightCounter i :=
  fun i h1 h2 => nightCounter_quiet (by omega) (by omega) (by omega)

theorem nightDay_runs : (poste nightCounter).Runs (World.init nightCounter) nightDay := by
  rw [nightDay, runs_append, runs_quiet night_idle_day 1198 nightCounter_quiet_day, runs_append]
  refine ⟨by decide, by decide, ?_⟩
  apply (runs_quiet night_idle_evening 238 nightCounter_quiet_evening _).mpr
  decide

theorem nightDay_gates : [.closes, .postClose] ∈
    ((posteGates nightCounter).after (World.init nightCounter, GateLog.empty) nightDay).2.days := by
  have hmorning : (posteGates nightCounter).after (World.init nightCounter, GateLog.empty)
      nightMorning = ((poste nightCounter).after (World.init nightCounter) nightMorning,
        GateLog.empty) := rfl
  have hevening (as : List (Act (Fin 1) (Fin 1))) : (posteGates nightCounter).after
      (nightAtClosing, GateLog.empty) (closing 1200 1 ++ (quietMinutes 1201 239 ++ as)) =
      (posteGates nightCounter).after (nightAtMidnight, ⟨[.closes, .postClose], []⟩) as := by
    rw [after_append]
    exact gates_quiet night_idle_evening 238 nightCounter_quiet_evening _ as
  have hday : (posteGates nightCounter).after (World.init nightCounter, GateLog.empty) nightDay =
      (posteGates nightCounter).after (nightAtMidnight, ⟨[.closes, .postClose], []⟩)
        [.director .tick, .director .skipOpen, .director .skipClose, .director .midnight] := by
    rw [nightDay, after_append, hmorning, ← hevening]
    exact gates_quiet night_idle_day 1198 nightCounter_quiet_day _ _
  rw [hday]
  decide

/-- The first day closes without having opened. -/
theorem day_without_opening : ¬ ∀ site : Site (Fin 1) (Fin 1), site.config.Accepted →
    site.config.workerShiftOpen < site.config.workerShiftClose →
    site.config.workerShiftClose ≤ 24 → ∀ as, (poste site).Runs (World.init site) as →
    ∀ day ∈ ((posteGates site).after (World.init site, GateLog.empty) as).2.days,
      OpensAndCloses site.config day := by
  intro hdaily
  obtain ⟨n, k, j, -, -, hevents⟩ := hdaily nightCounter (by unfold PosteConfig.Accepted; decide)
    (by decide) (by decide) nightDay nightDay_runs _ nightDay_gates
  cases hevents

end PosteItaliane
