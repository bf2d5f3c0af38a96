import PosteItaliane.Model.Termination
import PosteItaliane.Proofs.LateUsers
import Mathlib.Tactic.Ring

/-!
# The final report

The director stops its children wherever they are, so the statistics it reports are those of
a section that may be cut in the middle. They add up over the services unless it was cut
between the assignments to the global record and the same assignments to the record of the
service. The exit mode is worked out from the late users of the day that has just begun.
-/

namespace PosteItaliane

open Framework

/-- A value of a `service_stats` that is kept globally and for each service. -/
inductive ServiceValue where
  | counter (c : Counter)
  | lateUsers

def ServiceStats.value (x : ServiceStats) : ServiceValue → ℚ
  | .counter c => x.get c
  | .lateUsers => x.lateUsers

/-- What an increment adds to a value. -/
def Increment.amount : Increment → ServiceValue → ℚ
  | .servedUsers, .counter .servedUsers => 1
  | .failedServices, .counter .failedServices => 1
  | .totalRequests, .counter .totalRequests => 1
  | .totalWaitTime t, .counter .totalWaitTime => t
  | .totalServiceTime t, .counter .totalServiceTime => t
  | .lateUsers, .lateUsers => 1
  | _, _ => 0

/-- How much more an assignment adds to the global record than to the services. -/
def StatsWrite.skew (v : ServiceValue) : StatsWrite → ℚ
  | .increment .simulationGlobal i => i.amount v
  | .increment (.simulationServices _) i => -i.amount v
  | _ => 0

/-- How much more the global record holds than the services. -/
def PosteStats.skew (v : ServiceValue) (x : PosteStats) : ℚ :=
  x.simulationGlobal.value v - ∑ s, (x.simulationServices s).value v

/-- Every value is the sum over the services. -/
structure PosteStats.AddsUp (x : PosteStats) : Prop where
  counters : ∀ c, x.simulationGlobal.get c = ∑ s, (x.simulationServices s).get c
  lateUsers : x.simulationGlobal.lateUsers = ∑ s, (x.simulationServices s).lateUsers

/-- A section that is stopped after `n` assignments has not yet made to the record of the
service what it made to the global one, or the other way round. -/
def StatsOp.Halfway : StatsOp → ℕ → Prop
  | .updateRequestsStats _, n => n = 1
  | .updateFailsStats _, n => n = 1
  | .updateSuccessStats _ waitTime serviceTime, n =>
    1 ≤ n ∧ n ≤ 3 ∨ n = 4 ∧ (waitTime ≠ 0 ∨ serviceTime ≠ 0) ∨ n = 5 ∧ serviceTime ≠ 0
  | .handleLateUsers false _, n => n = 2
  | _, _ => False

theorem Increment.value_apply (v : ServiceValue) (i : Increment) (x : ServiceStats) :
    (i.apply x).value v = x.value v + i.amount v := by
  cases v with
  | counter c =>
    cases i <;> cases c <;> simp [Increment.apply, Increment.amount, ServiceStats.value,
      ServiceStats.get]
  | lateUsers => cases i <;> simp [Increment.apply, Increment.amount, ServiceStats.value]

theorem StatsWrite.skew_apply (v : ServiceValue) (e : StatsWrite) (x : PosteStats) :
    (e.apply x).skew v = x.skew v + e.skew v := by
  cases e with
  | increment r i =>
    cases r with
    | simulationGlobal =>
      show (i.apply x.simulationGlobal).value v - ∑ t, (x.simulationServices t).value v =
        _ - _ + i.amount v
      rw [i.value_apply]
      ring
    | simulationServices s =>
      have hsum := sum_modifyService (fun y => y.value v) (i.amount v) x.simulationServices s
        i.apply (fun y => i.value_apply v y)
      show x.simulationGlobal.value v -
        ∑ t, (modifyService x.simulationServices s i.apply t).value v = _ - _ + -i.amount v
      rw [hsum]
      ring
    | todayGlobal => exact (add_zero _).symm
    | todayServices s => exact (add_zero _).symm
  | _ => exact (add_zero _).symm

theorem PosteStats.addsUp_iff (x : PosteStats) : x.AddsUp ↔ ∀ v, x.skew v = 0 := by
  have hlate : (x.simulationGlobal.lateUsers = ∑ s, (x.simulationServices s).lateUsers) ↔
      x.skew .lateUsers = 0 := by
    simp only [PosteStats.skew, ServiceStats.value, sub_eq_zero]
    exact_mod_cast Iff.rfl
  constructor
  · rintro ⟨hcounters, hl⟩ v
    cases v with
    | counter c => exact sub_eq_zero.mpr (hcounters c)
    | lateUsers => exact hlate.mp hl
  · intro h
    exact ⟨fun c => sub_eq_zero.mp (h (.counter c)), hlate.mpr (h .lateUsers)⟩

theorem sum_skew_eq_zero {v : ServiceValue} {ws : List StatsWrite} (h : ∀ e ∈ ws, e.skew v = 0)
    (n : ℕ) : ((ws.drop n).map (StatsWrite.skew v)).sum = 0 := by
  apply List.sum_eq_zero
  intro x hx
  obtain ⟨e, he, rfl⟩ := List.mem_map.mp hx
  exact h e (List.mem_of_mem_drop he)

theorem not_halfway_iff_pair {ws : List StatsWrite} {a b : StatsWrite} {v : ServiceValue} (n : ℕ)
    (hab : ∀ u, a.skew u + b.skew u = 0) (hb : b.skew v ≠ 0) (hws : ∀ u, ∀ e ∈ ws, e.skew u = 0) :
    n = 1 ↔ ¬ ∀ u, (((a :: b :: ws).drop n).map (StatsWrite.skew u)).sum = 0 := by
  have hrest (u : ServiceValue) (k : ℕ) := sum_skew_eq_zero (hws u) k
  rcases n with _ | _ | n
  · have hall (u : ServiceValue) : (((a :: b :: ws).drop 0).map (StatsWrite.skew u)).sum = 0 := by
      have h0 := hrest u 0
      simp only [List.drop_zero] at h0
      simp [h0, hab u]
    exact iff_of_false (by omega) (not_not_intro hall)
  · refine iff_of_true rfl fun hall => hb ?_
    have h0 := hrest v 0
    have hv := hall v
    simp only [List.drop_zero] at h0
    simpa [h0] using hv
  · exact iff_of_false (by omega) (not_not_intro fun u => hrest u n)

theorem halfway_success_iff (s : ServiceId) (waitTime serviceTime : ℚ) (n : ℕ) :
    (StatsOp.updateSuccessStats s waitTime serviceTime).Halfway n ↔
      ¬ ∀ v, (((updateSuccessStats s waitTime serviceTime).drop n).map
        (StatsWrite.skew v)).sum = 0 := by
  -- the six assignments to the records of the simulation, then those to the records of the day
  have hdaily (v : ServiceValue) :
      ∀ e ∈ (updateSuccessStats s waitTime serviceTime).drop 6, e.skew v = 0 := by
    simp [updateSuccessStats, StatsWrite.skew]
  have hamount (v : ServiceValue) : ((updateSuccessStats s waitTime serviceTime).map
      (StatsWrite.skew v)).sum = 0 := by
    simp [updateSuccessStats, StatsWrite.skew]
    ring
  -- the visit is counted globally and not yet for the service
  by_cases hvisit : 1 ≤ n ∧ n ≤ 3
  · refine iff_of_true (Or.inl hvisit) fun hall => ?_
    have hserved := hall (.counter .servedUsers)
    obtain rfl | rfl | rfl : n = 1 ∨ n = 2 ∨ n = 3 := by omega
    all_goals simp [updateSuccessStats, StatsWrite.skew, Increment.amount] at hserved
  rcases n with _ | _ | _ | _ | _ | _ | n
  case succ.zero | succ.succ.zero | succ.succ.succ.zero => omega
  case zero => exact iff_of_false (by simp [StatsOp.Halfway]) (not_not_intro hamount)
  case succ.succ.succ.succ.succ.succ =>
    refine iff_of_false (by simp [StatsOp.Halfway]) (not_not_intro fun v => ?_)
    have hzero := sum_skew_eq_zero (hdaily v) n
    rwa [List.drop_drop, add_comm] at hzero
  -- the times are the only difference, so none is left when they are zero
  case succ.succ.succ.succ.zero =>
    have hall : (∀ v, (((updateSuccessStats s waitTime serviceTime).drop 4).map
        (StatsWrite.skew v)).sum = 0) ↔ waitTime = 0 ∧ serviceTime = 0 := by
      constructor
      · intro h
        have hwait := h (.counter .totalWaitTime)
        have hservice := h (.counter .totalServiceTime)
        simp [updateSuccessStats, StatsWrite.skew, Increment.amount] at hwait hservice
        exact ⟨hwait, hservice⟩
      · rintro ⟨rfl, rfl⟩ v
        rcases v with (_ | _ | _ | _ | _) | _ <;>
          simp [updateSuccessStats, StatsWrite.skew, Increment.amount]
    rw [hall, not_and_or]
    simp [StatsOp.Halfway]
  case succ.succ.succ.succ.succ.zero =>
    have hall : (∀ v, (((updateSuccessStats s waitTime serviceTime).drop 5).map
        (StatsWrite.skew v)).sum = 0) ↔ serviceTime = 0 := by
      constructor
      · intro h
        have hservice := h (.counter .totalServiceTime)
        simpa [updateSuccessStats, StatsWrite.skew, Increment.amount] using hservice
      · rintro rfl v
        rcases v with (_ | _ | _ | _ | _) | _ <;>
          simp [updateSuccessStats, StatsWrite.skew, Increment.amount]
    rw [hall]
    simp [StatsOp.Halfway]

theorem halfway_late_iff (s : ServiceId) (n : ℕ) :
    (StatsOp.handleLateUsers false s).Halfway n ↔
      ¬ ∀ v, (((handleLateUsers false s).drop n).map (StatsWrite.skew v)).sum = 0 := by
  rcases n with _ | _ | _ | n
  · exact iff_of_false (by simp [StatsOp.Halfway]) (not_not_intro fun v => by
      simp [handleLateUsers, StatsWrite.skew])
  · exact iff_of_false (by simp [StatsOp.Halfway]) (not_not_intro fun v => by
      simp [handleLateUsers, StatsWrite.skew])
  · refine iff_of_true rfl fun hall => ?_
    simpa [handleLateUsers, StatsWrite.skew, Increment.amount] using hall .lateUsers
  · exact iff_of_false (by simp [StatsOp.Halfway]) (not_not_intro fun v => by
      simp [handleLateUsers])

/-- The points at which a section leaves the two records apart. -/
theorem halfway_iff (op : StatsOp) (n : ℕ) :
    op.Halfway n ↔ ¬ ∀ v, ((op.body.drop n).map (StatsWrite.skew v)).sum = 0 := by
  have hnone (hop : ¬ op.Halfway n) (hbody : ∀ v, ∀ e ∈ op.body, e.skew v = 0) :
      op.Halfway n ↔ ¬ ∀ v, ((op.body.drop n).map (StatsWrite.skew v)).sum = 0 :=
    iff_of_false hop (not_not_intro fun v => sum_skew_eq_zero (hbody v) n)
  cases op with
  | updateRequestsStats s =>
    refine not_halfway_iff_pair (v := .counter .totalRequests) n ?_ ?_ ?_
    · simp [StatsWrite.skew]
    · simp [StatsWrite.skew, Increment.amount]
    · simp [StatsWrite.skew]
  | updateFailsStats s =>
    refine not_halfway_iff_pair (v := .counter .failedServices) n ?_ ?_ ?_
    · simp [StatsWrite.skew]
    · simp [StatsWrite.skew, Increment.amount]
    · simp [StatsWrite.skew]
  | updateSuccessStats s waitTime serviceTime => exact halfway_success_iff s waitTime serviceTime n
  | handleLateUsers beenLate s =>
    cases beenLate with
    | true => exact hnone id (by simp [StatsOp.body, handleLateUsers])
    | false => exact halfway_late_iff s n
  | updatePauseStats => exact hnone id (by simp [StatsOp.body, updatePauseStats, StatsWrite.skew])
  | updateActiveOperators =>
    exact hnone id (by simp [StatsOp.body, updateActiveOperators, StatsWrite.skew])
  | startNewDay day => exact hnone id (by simp [StatsOp.body, resetDailyStats, StatsWrite.skew])
  | publishMinute minute =>
    exact hnone id (by simp [StatsOp.body, publishMinute, StatsWrite.skew])

variable {O U : Type} [Fintype O] [Fintype U] [DecidableEq O] [DecidableEq U]

/-- The holder of `stats_lock` has stopped where its section leaves the two records apart. -/
def World.StoppedHalfway (w : World O U) : Prop :=
  ∃ (p : Proc O U) (op : StatsOp) (n : ℕ),
    w.sh.stats.holder = some (p, op.body.drop n) ∧ op.Halfway n

/-- With the section in progress finished, the statistics add up. -/
theorem settled_addsUp (site : Site O U) (as : List (Act O U))
    (h : (poste site).Runs (World.init site) as) :
    ((poste site).after (World.init site) as).sh.stats.settled.AddsUp := by
  obtain ⟨past, hlaw⟩ := poste_settled_conserved site as h
  exact ⟨hlaw.simulation, hlaw.late⟩

omit [Fintype O] [Fintype U] [DecidableEq O] [DecidableEq U] in
theorem skew_value {m : Monitor (Proc O U) PosteStats StatsWrite} (h : m.settled.AddsUp)
    (v : ServiceValue) : m.value.skew v + (m.pending.map (StatsWrite.skew v)).sum = 0 := by
  have hsettled := (PosteStats.addsUp_iff _).mp h v
  rw [Monitor.settled_eq] at hsettled
  rwa [assignAll_add (StatsWrite.skew_apply v)] at hsettled

omit [Fintype O] [Fintype U] [DecidableEq O] [DecidableEq U] in
theorem value_addsUp_iff {w : World O U} (hheld : SectionsHeld w)
    (hsettled : w.sh.stats.settled.AddsUp) : w.sh.stats.value.AddsUp ↔ ¬ w.StoppedHalfway := by
  have hpending : w.sh.stats.value.AddsUp ↔
      ∀ v, (w.sh.stats.pending.map (StatsWrite.skew v)).sum = 0 := by
    rw [PosteStats.addsUp_iff]
    refine forall_congr' fun v => ?_
    have hskew := skew_value hsettled v
    constructor <;> intro hv <;> linarith
  rw [hpending]
  constructor
  · rintro hall ⟨p, op, n, hholder, hhalf⟩
    refine (halfway_iff op n).mp hhalf ?_
    simpa [Monitor.pending, hholder] using hall
  · intro hnot
    by_contra hall
    cases hholder : w.sh.stats.holder with
    | none => exact hall (by simp [Monitor.pending, hholder])
    | some q =>
      obtain ⟨p, ws⟩ := q
      obtain ⟨op, -, hsuffix⟩ := hheld.called p ws hholder
      have hws := List.suffix_iff_eq_drop.mp hsuffix
      refine hnot ⟨p, op, _, hws ▸ hholder, (halfway_iff op _).mpr ?_⟩
      rw [← hws]
      simpa [Monitor.pending, hholder] using hall

theorem report_of_run (site : Site O U) (es : List (EndingAct O U)) :
    ((posteEnding site).after (Ending.init site) (es ++ [.report])).report =
      some (((posteEnding site).after (Ending.init site) es).finalReport site) := by
  rw [GuardedSystem.after_snoc]
  rfl

/-- Wherever the children are stopped, the report adds up over the services unless the one
that held `stats_lock` was stopped halfway. -/
theorem report_adds_up_iff (site : Site O U) (es : List (EndingAct O U))
    (h : (posteEnding site).Runs (Ending.init site) (es ++ [.report])) :
    ∃ r, ((posteEnding site).after (Ending.init site) (es ++ [.report])).report = some r ∧
      (r.stats.AddsUp ↔
        ¬ ((posteEnding site).after (Ending.init site) es).world.StoppedHalfway) := by
  obtain ⟨hes, -⟩ := (GuardedSystem.runs_snoc _ _ _ _).mp h
  obtain ⟨hruns, hworld⟩ := ending_world hes
  refine ⟨_, report_of_run site es, ?_⟩
  rw [hworld]
  show (Ending.world _).sh.stats.value.AddsUp ↔ _
  rw [hworld]
  exact value_addsUp_iff (sectionsHeld_run site _ hruns) (settled_addsUp site _ hruns)

/-- The last day begins, the loop ends, and the user that was late the day before makes `n`
assignments of its report. -/
def lastHours (n : ℕ) : List (Act (Fin 1) (Fin 1)) :=
  midnight 2 ++ [Act.director (.resetSeats fun _ => 0)] ++ wakeUps 2 ++
    [Act.director .timeout, .user 0 (.countLate false 0 none true true)] ++
    List.replicate n Act.section

def stopAll : List (EndingAct (Fin 1) (Fin 1)) :=
  [.kill .erogatore, .kill (.operatore 0), .kill (.utente 0)]

/-- A run with its last hours, after which all children are stopped. -/
def stoppedIn (day rest : List (Act (Fin 1) (Fin 1))) : List (EndingAct (Fin 1) (Fin 1)) :=
  (day ++ rest).map .step ++ stopAll

theorem stoppedIn_runs {day rest : List (Act (Fin 1) (Fin 1))} {w : World (Fin 1) (Fin 1)}
    (hday : (poste twoDays).Runs (World.init twoDays) day ∧
      (poste twoDays).after (World.init twoDays) day = w)
    (h : (posteEnding twoDays).Runs ⟨w, fun _ => false, none⟩
      (rest.map .step ++ (stopAll ++ [.report]))) :
    (posteEnding twoDays).Runs (Ending.init twoDays) (stoppedIn day rest ++ [.report]) := by
  obtain ⟨hafter, hruns⟩ := ending_steps twoDays (World.init twoDays) day
  rw [hday.2] at hafter
  rw [stoppedIn, List.map_append, List.append_assoc, List.append_assoc,
    GuardedSystem.runs_append, Ending.init, hafter]
  exact ⟨hruns.mpr hday.1, h⟩

theorem after_stopAll (w : World (Fin 1) (Fin 1)) :
    ((posteEnding twoDays).after ⟨w, fun _ => false, none⟩ stopAll).world = w := rfl

theorem stoppedIn_report {day : List (Act (Fin 1) (Fin 1))} {w : World (Fin 1) (Fin 1)}
    (hday : (poste twoDays).after (World.init twoDays) day = w)
    (rest : List (Act (Fin 1) (Fin 1))) :
    ((posteEnding twoDays).after (Ending.init twoDays) (stoppedIn day rest ++ [.report])).report =
      some (writeStats twoDays.config ((poste twoDays).after w rest).dir.numUsers
        ((poste twoDays).after w rest).sh.stats.value) := by
  have hworld : ((posteEnding twoDays).after (Ending.init twoDays) (stoppedIn day rest)).world =
      (poste twoDays).after w rest := by
    have hafter := (ending_steps twoDays (World.init twoDays) (day ++ rest)).1
    rw [GuardedSystem.after_append, hday] at hafter
    rw [stoppedIn, GuardedSystem.after_append, Ending.init, hafter]
    exact after_stopAll _
  rw [report_of_run, Ending.finalReport, hworld]

def stoppedAfter (n : ℕ) : List (EndingAct (Fin 1) (Fin 1)) := stoppedIn lateDay (lastHours n)

theorem stopped_runs {n : ℕ}
    (h : (posteEnding twoDays).Runs ⟨lateAtMidnight, fun _ => false, none⟩
      ((lastHours n).map .step ++ (stopAll ++ [.report]))) :
    (posteEnding twoDays).Runs (Ending.init twoDays) (stoppedAfter n ++ [.report]) :=
  stoppedIn_runs lateDay_runs_after h

theorem stopped_report (n : ℕ) :
    ((posteEnding twoDays).after (Ending.init twoDays) (stoppedAfter n ++ [.report])).report =
      some (writeStats twoDays.config
        ((poste twoDays).after lateAtMidnight (lastHours n)).dir.numUsers
        ((poste twoDays).after lateAtMidnight (lastHours n)).sh.stats.value) :=
  stoppedIn_report lateDay_after (lastHours n)

theorem report_adds_up_iff_one_write :
    ∃ r, ((posteEnding twoDays).after (Ending.init twoDays)
        (stoppedAfter 1 ++ [.report])).report = some r ∧
      (r.stats.AddsUp ↔ ¬ ((posteEnding twoDays).after (Ending.init twoDays)
        (stoppedAfter 1)).world.StoppedHalfway) :=
  report_adds_up_iff twoDays (stoppedAfter 1) (stopped_runs (by decide))

/-- The late user is counted globally and for no service. -/
theorem report_torn : ¬ ∀ es : List (EndingAct (Fin 1) (Fin 1)),
    (posteEnding twoDays).Runs (Ending.init twoDays) (es ++ [.report]) →
    ∃ r, ((posteEnding twoDays).after (Ending.init twoDays) (es ++ [.report])).report = some r ∧
      r.stats.AddsUp := by
  intro haddsUp
  obtain ⟨r, hr, hadds⟩ := haddsUp (stoppedAfter 2) (stopped_runs (by decide))
  rw [stopped_report] at hr
  obtain rfl := Option.some.inj hr
  exact absurd hadds.lateUsers (by decide)

/-- How the main loop has been left after the actions so far. -/
structure LoopLeft (site : Site O U) (as : List (Act O U)) (w : World O U) : Prop where
  held : SectionsHeld w
  ended : w.dir.phase = .over → (Act.director .timeout ∈ as ↔ Act.director .explode ∉ as)
  running : w.dir.phase ≠ .over → Act.director .timeout ∉ as ∧ Act.director .explode ∉ as
  exploded : Act.director .explode ∈ as → site.config.explodeMax < w.sh.stats.value.today.lateUsers

theorem lateUsers_le_step {site : Site O U} {w : World O U} (h : SectionsHeld w)
    (hphase : w.dir.phase = .over) {a : Act O U} (ha : w.Enabled site a) :
    w.sh.stats.value.today.lateUsers ≤ (w.next site a).sh.stats.value.today.lateUsers := by
  by_cases hsection : a = .section
  · subst hsection
    apply lateTally.counter_le_advance (m := w.sh.stats)
    intro p e ws hholder
    have hp : p ≠ .direttore := by
      rintro rfl
      exact h.not_inside (by simp [hphase]) (by simp [hphase]) _ hholder
    have he := h.ofDirector hholder hp e List.mem_cons_self
    rw [show lateTally.clear e = decide (e = .resetToday) from rfl, decide_eq_false_iff_not]
    rintro rfl
    cases he
  · rw [value_step site ha hsection]

theorem LoopLeft.keep {site : Site O U} {as : List (Act O U)} {w : World O U}
    (h : LoopLeft site as w) {a : Act O U} (ha : w.Enabled site a)
    (hexplode : a ≠ .director .explode) (htimeout : a ≠ .director .timeout)
    (hphase : (w.next site a).dir.phase = .over ↔ w.dir.phase = .over) :
    LoopLeft site (as ++ [a]) (w.next site a) where
  held := h.held.step ha
  ended hover := by
    simpa [Ne.symm hexplode, Ne.symm htimeout] using h.ended (hphase.mp hover)
  running hrun := by
    have hold := h.running (fun hover => hrun (hphase.mpr hover))
    simpa [Ne.symm hexplode, Ne.symm htimeout] using hold
  exploded hmem := by
    have hold : Act.director .explode ∈ as := by
      simpa [Ne.symm hexplode] using hmem
    have hover : w.dir.phase = .over := by
      by_contra hrun
      exact (h.running hrun).2 hold
    have hle := lateUsers_le_step h.held hover ha
    have hlate := h.exploded hold
    omega

theorem LoopLeft.step {site : Site O U} {as : List (Act O U)} {w : World O U}
    (h : LoopLeft site as w) {a : Act O U} (ha : w.Enabled site a) :
    LoopLeft site (as ++ [a]) (w.next site a) := by
  cases a with
  | oper o b => exact h.keep ha (by simp) (by simp) Iff.rfl
  | user u b => exact h.keep ha (by simp) (by simp) Iff.rfl
  | ticket b => exact h.keep ha (by simp) (by simp) Iff.rfl
  | «section» => exact h.keep ha (by simp) (by simp) Iff.rfl
  | director b =>
    have hrun : w.dir.phase ≠ .over := by
      intro hphase
      obtain ⟨-, he, -⟩ := ha
      cases b <;> simp [Direttore.Enabled, hphase] at he
    obtain ⟨htimeout, hexplode⟩ := h.running hrun
    have hheld := h.held.step ha
    cases b
    case timeout =>
      exact ⟨hheld, fun _ => by simp [hexplode], fun hnot => absurd rfl hnot, by simp [hexplode]⟩
    case explode =>
      refine ⟨hheld, fun _ => by simp [htimeout], fun hnot => absurd rfl hnot, fun _ => ?_⟩
      exact ha.2.1.2
    all_goals
      refine h.keep ha (by simp) (by simp) (iff_of_false ?_ hrun)
      simp [World.next, Direttore.next]

omit [DecidableEq O] in
theorem loopLeft_init (site : Site O U) : LoopLeft site [] (World.init site) where
  held := sectionsHeld_init site
  ended h := by cases h
  running _ := by simp
  exploded h := by cases h

theorem loopLeft_run (site : Site O U) (as : List (Act O U))
    (h : (poste site).Runs (World.init site) as) :
    LoopLeft site as ((poste site).after (World.init site) as) :=
  (poste site).trace_invariant (loopLeft_init site) (fun _ _ _ hw ha => hw.step ha) as h

/-- The late reports that were made since the last reset. -/
def lateReports (site : Site O U) (as : List (Act O U)) : ℕ :=
  ∑ u, ((posteLate site).after (World.init site, fun _ => 0) as).2 u

/-- The exit mode of a report is the way the main loop was left. -/
structure FinalReport.Truthful (r : FinalReport) (as : List (Act O U)) : Prop where
  explode : r.exitMode = .explode ↔ Act.director .explode ∈ as
  timeout : r.exitMode = .timeout ↔ Act.director .timeout ∈ as

theorem lateReports_eq (site : Site O U) (as : List (Act O U))
    (h : (poste site).Runs (World.init site) as) :
    ((poste site).after (World.init site) as).sh.stats.value.today.lateUsers =
      lateReports site as := by
  have htotal := (lateCounted_run site as h).total
  rwa [posteLate, GuardedSystem.after_withGhost_fst] at htotal

/-- The report gives the real exit mode unless the loop has ended in time and more than
`explode_max` users were late on the day that was just begun. -/
theorem exit_mode_iff (site : Site O U) (es : List (EndingAct O U))
    (h : (posteEnding site).Runs (Ending.init site) (es ++ [.report])) :
    ∃ r, ((posteEnding site).after (Ending.init site) (es ++ [.report])).report = some r ∧
      (r.Truthful (es.filterMap EndingAct.step?) ↔
        Act.director .explode ∈ es.filterMap EndingAct.step? ∨
          (lateReports site (es.filterMap EndingAct.step?) : ℤ) ≤ site.config.explodeMax) := by
  obtain ⟨hes, hreport⟩ := (GuardedSystem.runs_snoc _ _ _ _).mp h
  obtain ⟨hruns, hworld⟩ := ending_world hes
  refine ⟨_, report_of_run site es, ?_⟩
  have hleft := loopLeft_run site _ hruns
  have hlate := lateReports_eq site _ hruns
  have hover := hreport.1
  rw [hworld] at hover
  have hmode : (((posteEnding site).after (Ending.init site) es).finalReport site).exitMode =
      if site.config.explodeMax < lateReports site (es.filterMap EndingAct.step?)
        then .explode else .timeout := by
    rw [← hlate, ← hworld]
    rfl
  have hways := hleft.ended hover
  by_cases hexplode : Act.director .explode ∈ es.filterMap EndingAct.step?
  · have hmany := hleft.exploded hexplode
    rw [hlate] at hmany
    have htrue : FinalReport.Truthful (((posteEnding site).after (Ending.init site) es).finalReport
        site) (es.filterMap EndingAct.step?) := by
      constructor <;> simp [hmode, hmany, hexplode, hways]
    exact iff_of_true htrue (Or.inl hexplode)
  · constructor
    · intro htrue
      have hnot := htrue.explode.not.mpr hexplode
      refine Or.inr (not_lt.mp fun hmany => hnot ?_)
      rw [hmode, if_pos hmany]
    · rintro (hmem | hfew)
      · exact absurd hmem hexplode
      · constructor <;> simp [hmode, not_lt.mpr hfew, hexplode, hways]

theorem exit_mode_iff_no_report :
    ∃ r, ((posteEnding twoDays).after (Ending.init twoDays)
        (stoppedAfter 0 ++ [.report])).report = some r ∧
      (r.Truthful ((stoppedAfter 0).filterMap EndingAct.step?) ↔
        Act.director .explode ∈ (stoppedAfter 0).filterMap EndingAct.step? ∨
          (lateReports twoDays ((stoppedAfter 0).filterMap EndingAct.step?) : ℤ) ≤
            twoDays.config.explodeMax) :=
  exit_mode_iff twoDays (stoppedAfter 0) (stopped_runs (by decide))

/-- The loop ends in time, and the late user of the day before makes it an explosion. -/
theorem exploded_after_timeout : ¬ ∀ es : List (EndingAct (Fin 1) (Fin 1)),
    (posteEnding twoDays).Runs (Ending.init twoDays) (es ++ [.report]) →
    ∃ r, ((posteEnding twoDays).after (Ending.init twoDays) (es ++ [.report])).report = some r ∧
      r.Truthful (es.filterMap EndingAct.step?) := by
  intro htruthful
  obtain ⟨r, hr, htrue⟩ := htruthful (stoppedAfter 4) (stopped_runs (by decide))
  have htimeout : Act.director .timeout ∈ (stoppedAfter 4).filterMap EndingAct.step? := by
    refine List.mem_filterMap.mpr ⟨.step (.director .timeout), ?_, rfl⟩
    simp [stoppedAfter, stoppedIn, lastHours]
  have hmode := htrue.timeout.mpr htimeout
  rw [stopped_report] at hr
  obtain rfl := Option.some.inj hr
  exact absurd hmode (by decide)

end PosteItaliane
