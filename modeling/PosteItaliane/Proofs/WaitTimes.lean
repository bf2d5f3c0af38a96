import PosteItaliane.Proofs.ClockOrder

/-!
# The waiting times of the users

A user reads the minute of the day before it sends its request and again when it has the
answer, and counts the difference. As long as nobody is between the two readings when the
director sets the clock back, the second reading is not before the first, and the totals of
the waiting times only grow.
-/

namespace PosteItaliane

open Framework

/-- The minute a user has read before it waits, until it has read the clock again. -/
def Utente.Phase.startWait : Utente.Phase → Option ℤ
  | .sendRequest _ _ _ start => some start
  | .awaitDone _ _ start => some start
  | .readEnd _ _ start _ => some start
  | _ => none

/-- The waiting time a user is about to count. -/
def Utente.Phase.waitTime : Utente.Phase → Option ℤ
  | .countServed _ _ wait _ => some wait
  | _ => none

/-- `total_wait_time` of a record. -/
def StatsRecord.waitTime (x : PosteStats) : StatsRecord → ℚ
  | .simulationGlobal => x.simulationGlobal.totalWaitTime
  | .simulationServices s => (x.simulationServices s).totalWaitTime
  | .todayGlobal => x.today.global.totalWaitTime
  | .todayServices s => (x.today.services s).totalWaitTime

/-- The records that are never reset. -/
def StatsRecord.ofSimulation : StatsRecord → Bool
  | .simulationGlobal | .simulationServices _ => true
  | .todayGlobal | .todayServices _ => false

/-- The assignment does not take waiting time away. -/
def StatsWrite.WaitNonneg : StatsWrite → Prop
  | .increment _ (.totalWaitTime t) => 0 ≤ t
  | _ => True

theorem waitTime_apply {e : StatsWrite} (he : e.WaitNonneg) (x : PosteStats) (r : StatsRecord) :
    r.waitTime x ≤ r.waitTime (e.apply x) ∨
      r.ofSimulation = false ∧ r.waitTime (e.apply x) = 0 := by
  cases e with
  | resetToday =>
    cases r with
    | simulationGlobal => exact Or.inl le_rfl
    | simulationServices s => exact Or.inl le_rfl
    | todayGlobal => exact Or.inr ⟨rfl, rfl⟩
    | todayServices s => exact Or.inr ⟨rfl, rfl⟩
  | increment q i =>
    have hadd (y : ServiceStats) : y.totalWaitTime ≤ (i.apply y).totalWaitTime := by
      cases i with
      | totalWaitTime t => exact le_add_of_nonneg_right he
      | _ => exact le_rfl
    have hservice (f : ServiceId → ServiceStats) (s t : ServiceId) :
        (f t).totalWaitTime ≤ (modifyService f s i.apply t).totalWaitTime := by
      by_cases hst : t = s
      · subst hst
        simpa [modifyService] using hadd (f t)
      · simp [modifyService, hst]
    left
    cases q with
    | simulationGlobal =>
      cases r with
      | simulationGlobal => exact hadd x.simulationGlobal
      | _ => exact le_rfl
    | simulationServices s =>
      cases r with
      | simulationServices t => exact hservice x.simulationServices s t
      | _ => exact le_rfl
    | todayGlobal =>
      cases r with
      | todayGlobal => exact hadd x.today.global
      | _ => exact le_rfl
    | todayServices s =>
      cases r with
      | todayServices t => exact hservice x.today.services s t
      | _ => exact le_rfl
  | _ => exact Or.inl (by cases r <;> exact le_rfl)

variable {O U : Type}

/-- The next assignment sets the clock back. -/
def World.setsBack (w : World O U) : Bool :=
  match w.nextWrite with
  | some (.setCurrentMinute minute) => decide (minute < w.sh.stats.value.currentMinute)
  | _ => false

/-- When the clock is set back, no user is between its two readings. -/
def NotSetBack (w : World O U) : Act O U → Prop
  | .section => w.setsBack = true → ∀ u, (w.users u).phase.startWait = none
  | _ => True

instance decidableNotSetBack [Fintype U] (w : World O U) (a : Act O U) :
    Decidable (NotSetBack w a) := by
  rcases a with _ | _ <;> (dsimp only [NotSetBack]; infer_instance)

/-- Nobody started to wait after the present minute, no waiting time that is about to be
counted is negative, and no total is. -/
structure WaitsNonneg (w : World O U) : Prop where
  started : ∀ u start, (w.users u).phase.startWait = some start →
    start ≤ w.sh.stats.value.currentMinute
  counted : ∀ u wait, (w.users u).phase.waitTime = some wait → 0 ≤ wait
  pending : ∀ e ∈ w.sh.stats.pending, e.WaitNonneg
  totals : ∀ r : StatsRecord, 0 ≤ r.waitTime w.sh.stats.value

variable [Fintype O] [Fintype U] [DecidableEq O] [DecidableEq U]

omit [DecidableEq O] [DecidableEq U] in
theorem startWait_own (site : Site O U) {u : U} {l : Utente.Local} {sh : Shared O U}
    {b : Utente.Act} (hb : Utente.Enabled site u l sh b) {start : ℤ}
    (h : (Utente.next site u l sh b).1.phase.startWait = some start) :
    l.phase.startWait = some start ∨ start = sh.stats.value.currentMinute := by
  cases b <;> simp only [Utente.Enabled] at hb <;> simp only [Utente.next] at h <;>
    grind [Utente.Phase.startWait]

omit [DecidableEq O] [DecidableEq U] in
theorem waitTime_own (site : Site O U) {u : U} {l : Utente.Local} {sh : Shared O U}
    {b : Utente.Act} (hb : Utente.Enabled site u l sh b) {wait : ℤ}
    (h : (Utente.next site u l sh b).1.phase.waitTime = some wait) :
    l.phase.waitTime = some wait ∨ ∃ start, l.phase.startWait = some start ∧
      wait = sh.stats.value.currentMinute - start := by
  cases b <;> simp only [Utente.Enabled] at hb <;> simp only [Utente.next] at h <;>
    grind [Utente.Phase.startWait, Utente.Phase.waitTime]

theorem WaitsNonneg.started_step {site : Site O U} {w : World O U} (h : WaitsNonneg w)
    (hfollowed : Followed site w) {a : Act O U} (ha : w.Enabled site a) (hset : NotSetBack w a)
    (u : U) (start : ℤ) (hu : ((w.next site a).users u).phase.startWait = some start) :
    start ≤ (w.next site a).sh.stats.value.currentMinute := by
  have hbefore : start ≤ w.sh.stats.value.currentMinute := by
    rcases user_step site ha u with hsame | ⟨b, rfl, hb, hnext⟩ | ⟨n, rfl, -, hnext⟩
    · rw [hsame] at hu
      exact h.started u start hu
    · rw [hnext] at hu
      rcases startWait_own site hb hu with hold | hnow
      · exact h.started u start hold
      · exact hnow.le
    · rw [hnext] at hu
      cases hu
  by_cases hminute : (w.next site a).sh.stats.value.currentMinute = w.sh.stats.value.currentMinute
  · rw [hminute]
    exact hbefore
  · obtain ⟨rfl, hwrite, -, htick⟩ := (hfollowed.clockStep site ha).tick hminute
    rcases htick with hnext | ⟨hone, h1440, -⟩
    · omega
    · have hback : w.setsBack = true := by
        simp only [World.setsBack, hwrite, decide_eq_true_eq]
        omega
      have hnone := hset hback u
      have husers : (w.next site .section).users = w.users := rfl
      rw [husers, hnone] at hu
      cases hu

theorem WaitsNonneg.counted_step {site : Site O U} {w : World O U} (h : WaitsNonneg w)
    {a : Act O U} (ha : w.Enabled site a) (u : U) (wait : ℤ)
    (hu : ((w.next site a).users u).phase.waitTime = some wait) : 0 ≤ wait := by
  rcases user_step site ha u with hsame | ⟨b, rfl, hb, hnext⟩ | ⟨n, rfl, -, hnext⟩
  · rw [hsame] at hu
    exact h.counted u wait hu
  · rw [hnext] at hu
    rcases waitTime_own site hb hu with hold | ⟨start, hstart, rfl⟩
    · exact h.counted u wait hold
    · have hle := h.started u start hstart
      omega
  · rw [hnext] at hu
    cases hu

omit [DecidableEq O] [DecidableEq U] in
theorem countServed_of_begin {site : Site O U} {a : Act O U} {p : Proc O U} {s : ServiceId}
    {wait time : ℚ} (hev : statsEvent site a = some (.begin p (.updateSuccessStats s wait time))) :
    ∃ u x k, ∃ z : ℤ, ∃ d, a = .user u (.countServed x k z d) ∧ wait = z := by
  cases a with
  | user u b =>
    cases b with
    | countServed x k z d =>
      cases hev
      exact ⟨u, x, k, z, d, rfl, rfl⟩
    | _ => cases hev
  | oper o b => cases b <;> cases hev
  | ticket b => cases hev
  | director b => cases b <;> cases hev
  | «section» => cases hev

omit [DecidableEq O] [DecidableEq U] in
theorem WaitsNonneg.begin {site : Site O U} {w : World O U} (h : WaitsNonneg w) {a : Act O U}
    (ha : w.Enabled site a) {p : Proc O U} {op : StatsOp}
    (hev : statsEvent site a = some (.begin p op)) : ∀ e ∈ op.body, e.WaitNonneg := by
  cases op with
  | updateSuccessStats s wait time =>
    obtain ⟨u, x, k, z, d, rfl, rfl⟩ := countServed_of_begin hev
    have hphase : (w.users u).phase = .countServed x k z d := ha.2.1
    have hwait : 0 ≤ z := h.counted u z (by rw [hphase]; rfl)
    simp [StatsOp.body, updateSuccessStats, StatsWrite.WaitNonneg, hwait]
  | handleLateUsers beenLate s =>
    cases beenLate <;> simp [StatsOp.body, handleLateUsers, StatsWrite.WaitNonneg]
  | _ =>
    simp [StatsOp.body, updateRequestsStats, updatePauseStats, updateActiveOperators,
      updateFailsStats, resetDailyStats, publishMinute, StatsWrite.WaitNonneg]

theorem WaitsNonneg.totals_step {site : Site O U} {w : World O U} (h : WaitsNonneg w)
    {a : Act O U} (ha : w.Enabled site a) (r : StatsRecord) :
    r.waitTime w.sh.stats.value ≤ r.waitTime (w.next site a).sh.stats.value ∨
      r.ofSimulation = false ∧ r.waitTime (w.next site a).sh.stats.value = 0 := by
  by_cases hsection : a = .section
  · subst hsection
    rcases section_cases site ha with ⟨p, -, hnext⟩ | ⟨p, e, ws, hholder, hnext⟩
    · rw [hnext]
      exact Or.inl le_rfl
    · rw [hnext]
      exact waitTime_apply (h.pending e (by simp [Monitor.pending, hholder])) _ r
  · rw [value_step site ha hsection]
    exact Or.inl le_rfl

theorem WaitsNonneg.pending_step {site : Site O U} {w : World O U} (h : WaitsNonneg w)
    {a : Act O U} (ha : w.Enabled site a) :
    ∀ e ∈ (w.next site a).sh.stats.pending, e.WaitNonneg := by
  have hstep := stats_step site w a ha
  cases hev : statsEvent site a with
  | none =>
    rw [hev] at hstep
    rw [hstep]
    exact h.pending
  | some e =>
    rw [hev] at hstep
    cases e with
    | begin p op =>
      rw [hstep.2]
      exact h.begin ha hev
    | advance =>
      have hsection := (statsEvent_eq_advance site).mp hev
      subst hsection
      intro e he
      rcases section_cases site ha with ⟨p, -, hnext⟩ | ⟨p, f, ws, hholder, hnext⟩
      · rw [hnext] at he
        cases he
      · rw [hnext] at he
        have hmem : e ∈ ws := he
        exact h.pending e (by simp [Monitor.pending, hholder, hmem])

theorem WaitsNonneg.step {site : Site O U} {w : World O U} (h : WaitsNonneg w)
    (hfollowed : Followed site w) {a : Act O U} (ha : w.Enabled site a) (hset : NotSetBack w a) :
    WaitsNonneg (w.next site a) where
  started := h.started_step hfollowed ha hset
  counted := h.counted_step ha
  pending := h.pending_step ha
  totals r := by
    rcases h.totals_step ha r with hle | ⟨-, hzero⟩
    · exact (h.totals r).trans hle
    · exact hzero.ge

omit [DecidableEq O] in
theorem waitsNonneg_init (site : Site O U) : WaitsNonneg (World.init site) where
  started u start hu := by
    simp only [World.init] at hu
    split at hu <;> cases hu
  counted u wait hu := by
    simp only [World.init] at hu
    split at hu <;> cases hu
  pending e he := by cases he
  totals r := by cases r <;> exact le_rfl

theorem waitsNonneg_run (site : Site O U) (as : List (Act O U))
    (h : ((poste site).restrict NotSetBack).Runs (World.init site) as) :
    WaitsNonneg ((poste site).after (World.init site) as) := by
  have hall := ((poste site).restrict NotSetBack).invariant
    (P := fun w => Followed site w ∧ WaitsNonneg w)
    ⟨followed_init site, waitsNonneg_init site⟩
    (fun w a hw ha => ⟨hw.1.step ha.1, hw.2.step hw.1 ha.1 ha.2⟩) as h
  exact hall.2

/-- The waiting times of a run: what is counted, what the totals are at its end, and that
those of the simulation have never gone down. -/
structure NoNegativeWait (site : Site O U) (as : List (Act O U)) : Prop where
  passed : ∀ u x k wait d, Act.user u (.countServed x k wait d) ∈ as → 0 ≤ wait
  totals : ∀ r : StatsRecord,
    0 ≤ r.waitTime ((poste site).after (World.init site) as).sh.stats.value
  growing : ∀ bs a, bs ++ [a] <+: as → ∀ r : StatsRecord, r.ofSimulation = true →
    r.waitTime ((poste site).after (World.init site) bs).sh.stats.value ≤
      r.waitTime ((poste site).after (World.init site) (bs ++ [a])).sh.stats.value

/-- Waiting times are not negative if nobody waits while the clock is set back. -/
theorem wait_times_nonneg (site : Site O U) (as : List (Act O U))
    (h : ((poste site).restrict NotSetBack).Runs (World.init site) as) :
    NoNegativeWait site as where
  passed u x k wait d hmem := by
    obtain ⟨bs, cs, rfl⟩ := List.append_of_mem hmem
    obtain ⟨hbs, hcs⟩ := (GuardedSystem.runs_append _ _ _ _).1 h
    have hphase : (((poste site).after (World.init site) bs).users u).phase =
        .countServed x k wait d := hcs.1.1.2.1
    exact (waitsNonneg_run site bs hbs).counted u wait (by rw [hphase]; rfl)
  totals := (waitsNonneg_run site as h).totals
  growing bs a hpre r hr := by
    have hbs := (GuardedSystem.runs_snoc _ _ _ _).1 (GuardedSystem.Runs.of_prefix _ h hpre)
    rw [GuardedSystem.after_snoc]
    rcases (waitsNonneg_run site bs hbs.1).totals_step hbs.2.1 r with hle | ⟨hno, -⟩
    · exact hle
    · rw [hr] at hno
      cases hno

theorem wait_times_nonneg_one_day : NoNegativeWait oneDay oneDayRun :=
  wait_times_nonneg oneDay oneDayRun (by decide)

/-- The user sends its request to the operator at the counter, which has just looked whether
the office is closed. -/
def overnightRequest : List (Act (Fin 1) (Fin 1)) :=
  sitDown ++ [Act.oper 0 (.stillOpen 0), .user 0 (.enter 481), .user 0 (.arrive 481),
    .user 0 (.nextService 0 []), .user 0 (.sendTicket 0),
    .ticket (.receive ⟨1, .ticketRequest ⟨1000, 0⟩⟩), .ticket (.reply 1000), .ticket .count,
    .user 0 (.receiveTicket 0 ⟨1000, .ticketResponse ⟨100, 0⟩⟩), .user 0 (.findSeats ⟨0, 0⟩),
    .user 0 (.takeSeat ⟨0, 0⟩ [0] 0), .user 0 (.readOperator ⟨0, 0⟩ 0),
    .user 0 (.readStart ⟨0, 0⟩ 0 101), .user 0 (.sendRequest ⟨0, 0⟩ 0 101 481)]

/-- The operator serves it in the first minute of the second day. -/
def nightService : List (Act (Fin 1) (Fin 1)) :=
  let q : ServiceRequest := ⟨1000, 0⟩
  let d : ServiceDone := ⟨101, 0, 0, 5⟩
  midnight 2 ++ [Act.director (.resetSeats fun _ => 0)] ++ wakeUps 2 ++
  [Act.oper 0 (.receive 0 ⟨30101, .serviceRequest q⟩), .oper 0 (.countRequest 0 q)] ++
  List.replicate 5 Act.section ++
  [Act.oper 0 (.serve 0 q 0), .oper 0 (.reply 0 q 5),
    .user 0 (.receiveDone ⟨0, 0⟩ 0 481 ⟨1000, .serviceDone d⟩ d),
    .user 0 (.readEnd ⟨0, 0⟩ 0 481 d), .user 0 (.countServed ⟨0, 0⟩ 0 (-480) d)]

def requestAtClosing : World (Fin 1) (Fin 1) :=
  ((poste oneCounter).after counterAtOpening overnightRequest).atMinute 1200

def requestAtMidnight : World (Fin 1) (Fin 1) :=
  ((poste oneCounter).after requestAtClosing (closing 1200 1)).atMinute 1440

def requestOverNight : List (Act (Fin 1) (Fin 1)) :=
  counterMorning ++ (quietMinutes 1 479 ++ (overnightRequest ++ (quietMinutes 481 719 ++
    (closing 1200 1 ++ (quietMinutes 1201 239 ++ nightService)))))

theorem requestOverNight_runs :
    (poste oneCounter).Runs (World.init oneCounter) requestOverNight := by
  have hnoon : Idle oneCounter ((poste oneCounter).after counterAtOpening overnightRequest) 481 :=
    ⟨by decide, by decide, by decide, by decide⟩
  have hevening : Idle oneCounter
      ((poste oneCounter).after requestAtClosing (closing 1200 1)) 1201 :=
    ⟨by decide, by decide, by decide, by decide⟩
  have hnight : (poste oneCounter).Runs requestAtMidnight nightService := by decide +kernel
  rw [requestOverNight, GuardedSystem.runs_append,
    runs_quiet counter_idle_morning 478 oneCounter_quiet_morning, GuardedSystem.runs_append]
  refine ⟨by decide, by decide, ?_⟩
  apply (runs_quiet hnoon 718 oneCounter_quiet_afternoon _).mpr
  rw [GuardedSystem.runs_append]
  refine ⟨by decide, ?_⟩
  exact (runs_quiet hevening 238 oneCounter_quiet_evening _).mpr hnight

theorem wait_over_night : ¬ ∀ as : List (Act (Fin 1) (Fin 1)),
    (poste oneCounter).Runs (World.init oneCounter) as → NoNegativeWait oneCounter as := by
  intro hnonneg
  have hpassed := (hnonneg requestOverNight requestOverNight_runs).passed 0 ⟨0, 0⟩ 0 (-480)
    ⟨101, 0, 0, 5⟩ (by simp [requestOverNight, nightService])
  exact absurd hpassed (by decide)

end PosteItaliane
