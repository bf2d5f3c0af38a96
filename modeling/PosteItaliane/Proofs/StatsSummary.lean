import PosteItaliane.Proofs.StatsConservation
import PosteItaliane.Proofs.Office
import Mathlib.Data.List.DropRight

/-!
# The statistics as a summary of the calls

What the statistics are for: a summary, by counting and adding up, of the calls of the update
functions. The summary is defined over a list of calls and knows nothing of records,
assignments or locks. Whatever the interleaving, the shared record is the summary of the
calls in the order in which they took `stats_lock`.
-/

namespace PosteItaliane

open Framework

attribute [ext] ServiceStats DailyStats PosteStats

/-- A service that is over, with the times that `update_success_stats` is given. -/
structure Visit where
  service : ServiceId
  waitTime : ℚ
  serviceTime : ℚ

/-- The user that is served by a call. -/
@[simp] def StatsOp.visit : StatsOp → Option Visit
  | .updateSuccessStats s waitTime serviceTime => some ⟨s, waitTime, serviceTime⟩
  | _ => none

/-- The service that a call reports as failed. -/
@[simp] def StatsOp.failureOf : StatsOp → Option ServiceId
  | .updateFailsStats s => some s
  | _ => none

/-- The service that a call reports as requested. -/
@[simp] def StatsOp.requestFor : StatsOp → Option ServiceId
  | .updateRequestsStats s => some s
  | _ => none

/-- The service for which a call counts a late user. -/
def StatsOp.lateFor : StatsOp → Option ServiceId
  | .handleLateUsers false s => some s
  | _ => none

def StatsOp.isPause : StatsOp → Bool
  | .updatePauseStats => true
  | _ => false

def StatsOp.isShift : StatsOp → Bool
  | .updateActiveOperators => true
  | _ => false

def StatsOp.newDay : StatsOp → Option ℤ
  | .startNewDay day => some day
  | _ => none

def StatsOp.newMinute : StatsOp → Option ℤ
  | .publishMinute minute => some minute
  | _ => none

/-- What a list of calls says about the services that `p` selects. -/
def serviceSummary (p : ServiceId → Bool) (calls : List StatsOp) : ServiceStats where
  servedUsers := ((calls.filterMap StatsOp.visit).filter fun v => p v.service).length
  failedServices := (calls.filterMap StatsOp.failureOf).countP p
  totalWaitTime :=
    (((calls.filterMap StatsOp.visit).filter fun v => p v.service).map Visit.waitTime).sum
  totalServiceTime :=
    (((calls.filterMap StatsOp.visit).filter fun v => p v.service).map Visit.serviceTime).sum
  totalRequests := (calls.filterMap StatsOp.requestFor).countP p
  lateUsers := (calls.filterMap StatsOp.lateFor).countP p

/-- The calls since the last day began. -/
def ofToday (calls : List StatsOp) : List StatsOp := calls.rtakeWhile fun op => op.newDay.isNone

def ServiceStats.withoutLate (x : ServiceStats) : ServiceStats := { x with lateUsers := 0 }

/-- The records of the day have no late users, the day itself has. -/
def dailySummary (calls : List StatsOp) : DailyStats where
  global := (serviceSummary (fun _ => true) calls).withoutLate
  services s := (serviceSummary (fun t => s = t) calls).withoutLate
  activeOperators := calls.countP StatsOp.isShift
  totalPauses := calls.countP StatsOp.isPause
  lateUsers := (calls.filterMap StatsOp.lateFor).length

/-- The statistics that a list of calls deserves. -/
def summary (calls : List StatsOp) : PosteStats where
  simulationGlobal := serviceSummary (fun _ => true) calls
  simulationServices s := serviceSummary (fun t => s = t) calls
  today := dailySummary (ofToday calls)
  totalActiveOperators := calls.countP StatsOp.isShift
  totalSimulationPauses := calls.countP StatsOp.isPause
  currentDay := (calls.filterMap StatsOp.newDay).getLast?.getD 0
  currentMinute := (calls.filterMap StatsOp.newMinute).getLast?.getD 0

theorem dailySummary_nil : dailySummary [] = {} := rfl

theorem summary_nil : summary [] = {} := rfl

/-- What a call changes in the record of the services that `p` selects. -/
@[simp] def StatsOp.changes (p : ServiceId → Bool) : StatsOp → ServiceStats → ServiceStats
  | .updateRequestsStats s => if p s then Increment.totalRequests.apply else id
  | .updateFailsStats s => if p s then Increment.failedServices.apply else id
  | .updateSuccessStats s waitTime serviceTime =>
    if p s then serveUser waitTime serviceTime else id
  | .handleLateUsers false s => if p s then Increment.lateUsers.apply else id
  | _ => id

theorem serviceSummary_snoc (p : ServiceId → Bool) (calls : List StatsOp) (op : StatsOp) :
    serviceSummary p (calls ++ [op]) = op.changes p (serviceSummary p calls) := by
  simp only [serviceSummary, List.filterMap_append, List.filterMap_cons, List.filterMap_nil,
    List.filter_append, List.map_append, List.sum_append, List.length_append, List.countP_append]
  cases op with
  | updateRequestsStats s => cases hp : p s <;> simp [StatsOp.lateFor, Increment.apply, hp]
  | updateFailsStats s => cases hp : p s <;> simp [StatsOp.lateFor, Increment.apply, hp]
  | updateSuccessStats s waitTime serviceTime =>
    cases hp : p s <;> simp [StatsOp.lateFor, serveUser, Increment.apply, hp]
  | handleLateUsers beenLateToday s =>
    cases beenLateToday with
    | true => simp [StatsOp.lateFor]
    | false => cases hp : p s <;> simp [StatsOp.lateFor, Increment.apply, hp]
  | _ => simp [StatsOp.lateFor]

theorem ofToday_snoc (calls : List StatsOp) (op : StatsOp) :
    ofToday (calls ++ [op]) = if op.newDay.isNone then ofToday calls ++ [op] else [] := by
  rw [ofToday, List.rtakeWhile_concat]
  rfl

/-- A call that adds to the records of its service and of the office, at both levels. -/
structure StatsOp.Adds (op : StatsOp) (s : ServiceId) (g : ServiceStats → ServiceStats) :
    Prop where
  changes : ∀ p : ServiceId → Bool, op.changes p = if p s then g else id
  withoutLate : ∀ x, (g x).withoutLate = g x.withoutLate
  lateFor : op.lateFor = none
  isShift : op.isShift = false
  isPause : op.isPause = false
  newDay : op.newDay = none
  newMinute : op.newMinute = none

section Adds

variable {op : StatsOp} {s : ServiceId} {g : ServiceStats → ServiceStats}

theorem StatsOp.Adds.global (h : op.Adds s g) (calls : List StatsOp) :
    serviceSummary (fun _ => true) (calls ++ [op]) = g (serviceSummary (fun _ => true) calls) := by
  rw [serviceSummary_snoc, h.changes]
  rfl

theorem StatsOp.Adds.service (h : op.Adds s g) (calls : List StatsOp) (t : ServiceId) :
    serviceSummary (fun u => t = u) (calls ++ [op]) =
      if t = s then g (serviceSummary (fun u => t = u) calls)
      else serviceSummary (fun u => t = u) calls := by
  rw [serviceSummary_snoc, h.changes]
  by_cases ht : t = s <;> simp [ht]

theorem StatsOp.Adds.daily (h : op.Adds s g) (calls : List StatsOp) :
    dailySummary (calls ++ [op]) = { dailySummary calls with
      global := g (dailySummary calls).global
      services := modifyService (dailySummary calls).services s g } := by
  ext1
  case global =>
    show (serviceSummary (fun _ => true) (calls ++ [op])).withoutLate = _
    rw [h.global]
    exact h.withoutLate _
  case services =>
    funext t
    show (serviceSummary (fun u => t = u) (calls ++ [op])).withoutLate =
      modifyService (dailySummary calls).services s g t
    rw [modifyService_apply, h.service]
    by_cases ht : t = s
    · rw [if_pos ht, if_pos ht]
      exact h.withoutLate _
    · rw [if_neg ht, if_neg ht]
      rfl
  case activeOperators => simp [dailySummary, List.countP_append, h.isShift]
  case totalPauses => simp [dailySummary, List.countP_append, h.isPause]
  case lateUsers => simp [dailySummary, h.lateFor]

theorem StatsOp.Adds.summary (h : op.Adds s g) (calls : List StatsOp) :
    summary (calls ++ [op]) = (summary calls).bump s g := by
  have htoday : ofToday (calls ++ [op]) = ofToday calls ++ [op] := by
    rw [ofToday_snoc, h.newDay]
    rfl
  ext1
  case simulationGlobal => exact h.global calls
  case simulationServices =>
    funext t
    show _ = modifyService (PosteItaliane.summary calls).simulationServices s g t
    rw [modifyService_apply]
    exact h.service calls t
  case today =>
    show dailySummary (ofToday (calls ++ [op])) = _
    rw [htoday, h.daily]
    rfl
  case totalActiveOperators =>
    simp [PosteItaliane.summary, PosteStats.bump, List.countP_append, h.isShift]
  case totalSimulationPauses =>
    simp [PosteItaliane.summary, PosteStats.bump, List.countP_append, h.isPause]
  case currentDay => simp [PosteItaliane.summary, PosteStats.bump, h.newDay]
  case currentMinute => simp [PosteItaliane.summary, PosteStats.bump, h.newMinute]

end Adds

attribute [simp] StatsOp.lateFor StatsOp.isShift StatsOp.isPause StatsOp.newDay StatsOp.newMinute

theorem adds_updateRequestsStats (s : ServiceId) :
    (StatsOp.updateRequestsStats s).Adds s Increment.totalRequests.apply := by
  constructor <;> intros <;> rfl

theorem adds_updateFailsStats (s : ServiceId) :
    (StatsOp.updateFailsStats s).Adds s Increment.failedServices.apply := by
  constructor <;> intros <;> rfl

theorem adds_updateSuccessStats (s : ServiceId) (waitTime serviceTime : ℚ) :
    (StatsOp.updateSuccessStats s waitTime serviceTime).Adds s
      (serveUser waitTime serviceTime) := by
  constructor <;> intros <;> rfl

theorem summary_lateUser (calls : List StatsOp) (s : ServiceId) :
    summary (calls ++ [.handleLateUsers false s]) =
      assignAll (handleLateUsers false s) (summary calls) := by
  have hchanges (p : ServiceId → Bool) (cs : List StatsOp) :
      serviceSummary p (cs ++ [.handleLateUsers false s]) =
        (if p s then Increment.lateUsers.apply else id) (serviceSummary p cs) :=
    serviceSummary_snoc p cs _
  have htoday (p : ServiceId → Bool) (cs : List StatsOp) :
      (serviceSummary p (cs ++ [.handleLateUsers false s])).withoutLate =
        (serviceSummary p cs).withoutLate := by
    rw [hchanges]
    cases p s <;> rfl
  have hday : ofToday (calls ++ [.handleLateUsers false s]) =
      ofToday calls ++ [.handleLateUsers false s] := by
    rw [ofToday_snoc]
    rfl
  show _ = { summary calls with
    today := { (summary calls).today with lateUsers := (summary calls).today.lateUsers + 1 }
    simulationGlobal := Increment.lateUsers.apply (summary calls).simulationGlobal
    simulationServices :=
      modifyService (summary calls).simulationServices s Increment.lateUsers.apply }
  ext1
  case simulationGlobal => exact hchanges (fun _ => true) calls
  case simulationServices =>
    funext t
    show serviceSummary (fun u => t = u) _ =
      modifyService (summary calls).simulationServices s Increment.lateUsers.apply t
    rw [modifyService_apply, hchanges]
    by_cases ht : t = s
    · simp [ht, summary]
    · simp [ht, summary]
  case today =>
    show dailySummary (ofToday (calls ++ [.handleLateUsers false s])) = _
    rw [hday, dailySummary, htoday]
    simp [htoday, summary, dailySummary]
  case totalActiveOperators => simp [summary]
  case totalSimulationPauses => simp [summary]
  case currentDay => simp [summary]
  case currentMinute => simp [summary]

/-- One more call changes the summary as its section changes the record. -/
theorem summary_snoc (calls : List StatsOp) (op : StatsOp) :
    summary (calls ++ [op]) = assignAll op.body (summary calls) := by
  cases op with
  | updateRequestsStats s => exact (adds_updateRequestsStats s).summary calls
  | updateFailsStats s => exact (adds_updateFailsStats s).summary calls
  | updateSuccessStats s waitTime serviceTime =>
    have hview := assignAll_view (f := Ledger.stats) Ledger.assign_stats
      (updateSuccessStats s waitTime serviceTime) ⟨summary calls, []⟩
    rw [assignAll_updateSuccessStats] at hview
    rw [(adds_updateSuccessStats s waitTime serviceTime).summary calls]
    exact hview
  | handleLateUsers beenLateToday s =>
    cases beenLateToday with
    | true =>
      ext1 <;> simp [summary, dailySummary, ofToday_snoc, serviceSummary_snoc, StatsOp.body,
        handleLateUsers, assignAll]
    | false => exact summary_lateUser calls s
  | updatePauseStats =>
    ext1 <;> simp [summary, dailySummary, ofToday_snoc, serviceSummary_snoc, StatsOp.body,
      updatePauseStats, assignAll, Assignment.assign, StatsWrite.apply]
  | updateActiveOperators =>
    ext1 <;> simp [summary, dailySummary, ofToday_snoc, serviceSummary_snoc, StatsOp.body,
      updateActiveOperators, assignAll, Assignment.assign, StatsWrite.apply]
  | startNewDay day =>
    ext1 <;> simp [summary, dailySummary_nil, ofToday_snoc, serviceSummary_snoc, StatsOp.body,
      resetDailyStats, assignAll, Assignment.assign, StatsWrite.apply]
  | publishMinute minute =>
    ext1 <;> simp [summary, dailySummary, ofToday_snoc, serviceSummary_snoc, StatsOp.body,
      publishMinute, assignAll, Assignment.assign, StatsWrite.apply]

theorem summary_settled {P : Type*} (es : List (Monitor.Event P StatsOp))
    (h : (Monitor.clients StatsOp.body).Runs (⟨{}, none⟩ : Monitor P PosteStats StatsWrite) es) :
    ((Monitor.clients StatsOp.body).after ⟨{}, none⟩ es).settled = summary (Monitor.calls es) :=
  Monitor.clients_serial (m := ⟨{}, none⟩) summary_snoc summary_nil.symm es h

variable {O U : Type} [Fintype O] [Fintype U] [DecidableEq O] [DecidableEq U]

/-- The calls that a run has begun, in the order in which they took `stats_lock`. -/
def statsCalls (site : Site O U) (as : List (Act O U)) : List StatsOp :=
  Monitor.calls (as.filterMap (statsEvent site))

/-- The record of the simulation is the value of such clients. -/
theorem poste_refines_stats (site : Site O U) :
    (poste site).Refines (Monitor.clients StatsOp.body) (fun w m => w.sh.stats = m)
      (statsEvent site) := by
  intro w m a hR ha
  have hstep := stats_step site w a ha
  subst m
  cases hev : statsEvent site a with
  | none =>
    rw [hev] at hstep
    exact hstep
  | some e =>
    rw [hev] at hstep
    cases e with
    | begin p op => exact hstep
    | advance => exact hstep

/-- The section that is in progress counts as made. -/
theorem poste_summary_settled (site : Site O U) (as : List (Act O U))
    (h : (poste site).Runs (World.init site) as) :
    ((poste site).after (World.init site) as).sh.stats.settled = summary (statsCalls site as) := by
  obtain ⟨hruns, hstats⟩ := (poste_refines_stats site).run
    (t := (⟨{}, none⟩ : Monitor (Proc O U) PosteStats StatsWrite)) rfl as h
  rw [hstats]
  exact summary_settled _ hruns

/-- Whatever the order of the steps, `poste_stats` is the summary of the calls made so far
whenever `stats_lock` is free. -/
theorem stats_are_summary (site : Site O U) (as : List (Act O U))
    (h : (poste site).Runs (World.init site) as)
    (hfree : ((poste site).after (World.init site) as).sh.stats.Free) :
    ((poste site).after (World.init site) as).sh.stats.value = summary (statsCalls site as) := by
  have hsettled := poste_summary_settled site as h
  rwa [Monitor.settled_of_free hfree] at hsettled

/-- A day with one service. -/
def servedDay : List (Act (Fin 2) (Fin 2)) :=
  officeNight ++ officeDay ++ (officeRequest ++ officeService)

theorem servedDay_after : (poste office).after (World.init office) servedDay =
    (poste office).after atCounters (officeRequest ++ officeService) := by
  rw [servedDay, GuardedSystem.after_append, officeDay_after]

theorem servedDay_runs : (poste office).Runs (World.init office) servedDay := by
  rw [servedDay, GuardedSystem.runs_append, officeDay_after]
  exact ⟨officeDay_runs, by decide +kernel⟩

theorem stats_are_summary_served :
    ((poste office).after (World.init office) servedDay).sh.stats.value =
      summary (statsCalls office servedDay) :=
  stats_are_summary office servedDay servedDay_runs (by rw [servedDay_after]; decide)

end PosteItaliane
