import PosteItaliane.Proofs.ReportSummary
import PosteItaliane.Proofs.Requests
import PosteItaliane.Proofs.ServiceTimes
import Mathlib.Algebra.Group.Prod
import Mathlib.Algebra.Order.BigOperators.Group.List

/-!
# The recorded service times

A service time is drawn by an operator, sent to the user in `service_done` and added to the
statistics by the user. When no message gets lost or mixed up, what is recorded for a service is
between a half and one and a half of its nominal duration for every user that was served, and
the average in the final report is bounded wherever the children were stopped.
-/

namespace PosteItaliane

open Framework

/-- A time between a half and one and a half of the nominal duration of the service. -/
def Timely (s : ServiceId) (time : ℚ) : Prop :=
  (servicesDuration s : ℚ) / 2 ≤ time ∧ time ≤ 3 * (servicesDuration s : ℚ) / 2

/-- The answer that a user has received and not yet recorded. -/
def Utente.Phase.answer : Utente.Phase → Option ServiceDone
  | .readEnd _ _ _ d | .countServed _ _ _ d => some d
  | _ => none

variable {O U : Type} [Fintype O] [Fintype U] [DecidableEq O] [DecidableEq U]

/-- The service times on their way from the operators to the statistics. -/
structure TimesKept (site : Site O U) (w : World O U) : Prop where
  replies : ∀ o k q time, (w.opers o).phase = .reply k q time → Timely (site.userService o) time
  queue : ∀ m ∈ w.sh.queue, ∀ d, m.body = .serviceDone d → Timely d.serviceId d.serviceTime
  answers : ∀ u d, (w.users u).phase.answer = some d → Timely d.serviceId d.serviceTime

omit [DecidableEq O] in
theorem timesKept_init (site : Site O U) : TimesKept site (World.init site) where
  replies o k q time h := by cases h
  queue m hm := by cases hm
  answers u d h := by
    by_cases hu : u ∈ site.initialUsers <;> simp [World.init, hu, Utente.Phase.answer] at h

theorem TimesKept.replies_step {site : Site O U} (hpos : 0 < site.config.minuteDuration)
    {w : World O U} (h : TimesKept site w) {a : Act O U} (ha : w.Enabled site a) {o : O} {k : ℕ}
    {q : ServiceRequest} {time : ℚ}
    (ho : ((w.next site a).opers o).phase = .reply k q time) :
    Timely (site.userService o) time := by
  rcases oper_step site ha o with hsame | ⟨b, rfl, hb, hnext⟩
  · rw [hsame] at ho
    exact h.replies o k q time ho
  · rw [hnext] at ho
    cases b <;> simp only [Operatore.next] at ho
    case serve j p r =>
      cases ho
      exact serviceMinutes_bounds site.config hpos _ r
    all_goals
      simp only [Operatore.Enabled] at hb
      grind

theorem TimesKept.queue_step {site : Site O U} {w : World O U} (h : TimesKept site w)
    {a : Act O U} (ha : w.Enabled site a) {m : Message} (hm : m ∈ (w.next site a).sh.queue)
    {d : ServiceDone} (hd : m.body = .serviceDone d) : Timely d.serviceId d.serviceTime := by
  rcases mem_queue_step site ha hm with hold | hsent
  · exact h.queue m hold d hd
  · cases a with
    | oper o b =>
      cases b <;> cases hsent
      cases hd
      exact h.replies o _ _ _ ha.2
    | user u b => cases b <;> cases hsent <;> cases hd
    | ticket b =>
      cases b <;> cases hsent
      cases hd
    | director b => cases hsent
    | «section» => cases hsent

omit [DecidableEq O] [DecidableEq U] in
theorem Letters.received_answer {site : Site O U} (hpids : PidsApart site) {w : World O U}
    (h : Letters site w) {u : U} {x : Utente.Session} {k : ℕ} {start : ℤ} {m : Message}
    {d : ServiceDone} (hu : (w.users u).phase = .awaitDone x k start) (hm : m ∈ w.sh.queue)
    (ht : m.mtype = site.userPid u) (hread : m.body.ReadsAsDone d) : m.body = .serviceDone d := by
  obtain ⟨hdone, -⟩ := h.done_of_received hpids hu hm ht hread
  cases hbody : m.body with
  | serviceDone d' =>
    rw [hbody] at hread
    exact congrArg Body.serviceDone hread
  | _ => simp [Message.doneService, hbody] at hdone

theorem TimesKept.answers_step {site : Site O U} (hpids : PidsApart site) {w : World O U}
    (h : TimesKept site w) (hletters : Letters site w) {a : Act O U} (ha : w.Enabled site a)
    {u : U} {d : ServiceDone} (hu : ((w.next site a).users u).phase.answer = some d) :
    Timely d.serviceId d.serviceTime := by
  rcases user_step site ha u with hsame | ⟨b, rfl, hb, hnext⟩ | ⟨n, rfl, -, hnext⟩
  · rw [hsame] at hu
    exact h.answers u d hu
  · rw [hnext] at hu
    have hold := h.answers u
    cases b
    case receiveDone x k start m d' =>
      obtain ⟨hphase, hfirst, hread⟩ := hb
      obtain ⟨hm, ht⟩ := firstOfType_eq_some hfirst
      have hbody := hletters.received_answer hpids hphase hm ht hread
      have hd : d' = d := by
        simp only [Utente.next] at hu
        split at hu
        · cases hu
        · exact Option.some.inj hu
      rw [← hd]
      exact h.queue m hm d' hbody
    all_goals
      simp only [Utente.Enabled] at hb
      simp only [Utente.next] at hu
      grind [Utente.Phase.answer]
  · rw [hnext] at hu
    cases hu

theorem TimesKept.step {site : Site O U} (hpids : PidsApart site)
    (hpos : 0 < site.config.minuteDuration) {w : World O U} (h : TimesKept site w)
    (hletters : Letters site w) {a : Act O U} (ha : w.Enabled site a) :
    TimesKept site (w.next site a) where
  replies _ _ _ _ ho := h.replies_step hpos ha ho
  queue _ hm _ hd := h.queue_step ha hm hd
  answers _ _ hu := h.answers_step hpids hletters ha hu

/-- The services a list of calls has recorded. -/
def visits (calls : List StatsOp) : List Visit := calls.filterMap StatsOp.visit

omit [DecidableEq O] [DecidableEq U] in
theorem statsCalls_eq (site : Site O U) (as : List (Act O U)) :
    statsCalls site as = as.filterMap (statsOp site) := by
  rw [statsCalls, Monitor.calls, List.filterMap_filterMap]
  congr 1
  funext a
  rw [statsOp]
  cases statsEvent site a with
  | none => rfl
  | some e => cases e <;> rfl

omit [DecidableEq O] [DecidableEq U] in
theorem recorded_step {site : Site O U} {w : World O U} {a : Act O U} (ha : w.Enabled site a)
    (h : TimesKept site w) {v : Visit} (hv : (statsOp site a).bind StatsOp.visit = some v) :
    Timely v.service v.serviceTime := by
  cases a with
  | user u b =>
    cases b
    case countServed x k wait d =>
      have hphase : (w.users u).phase = .countServed x k wait d := ha.2.1
      cases hv
      exact h.answers u d (by rw [hphase]; rfl)
    all_goals cases hv
  | oper o b => cases b <;> cases hv
  | director b => cases b <;> cases hv
  | ticket b => cases hv
  | «section» => cases hv

/-- What holds of all services that have been recorded. -/
structure TimesRecorded (site : Site O U) (as : List (Act O U)) (w : World O U) : Prop where
  letters : Letters site w
  kept : TimesKept site w
  balanced : RequestsBalanced site w w.sh.stats.settled
  recorded : ∀ v ∈ visits (statsCalls site as), Timely v.service v.serviceTime

theorem timesRecorded_run (site : Site O U) (hpids : PidsApart site)
    (hpos : 0 < site.config.minuteDuration) (as : List (Act O U))
    (h : ((poste site).restrict fun _ a => Reliable a ∧ NotToUser site a).Runs
      (World.init site) as) : TimesRecorded site as ((poste site).after (World.init site) as) := by
  have hrun := ((poste site).restrict fun _ a => Reliable a ∧ NotToUser site a).trace_invariant
    (P := TimesRecorded site) ?_ ?_ as h
  · rwa [GuardedSystem.restrict_after] at hrun
  · exact ⟨letters_init site, timesKept_init site, requestsBalanced_init site,
      fun v hv => by cases hv⟩
  · rintro as w a ⟨hletters, hkept, hbalanced, hrecorded⟩ ⟨ha, hrel, hnot⟩
    refine ⟨hletters.step hpids ha hrel hnot, hkept.step hpids hpos hletters ha,
      hbalanced.step hpids hletters ha hrel, fun v hv => ?_⟩
    rw [visits, statsCalls_eq, List.filterMap_append, List.filterMap_append] at hv
    rcases List.mem_append.mp hv with hold | hnew
    · rw [← statsCalls_eq] at hold
      exact hrecorded v hold
    · rw [List.filterMap_filterMap] at hnew
      obtain ⟨b, hb, hv⟩ := List.mem_filterMap.mp hnew
      rw [List.mem_singleton.mp hb] at hv
      exact recorded_step ha hkept hv

/-- The service time of a record is within half of the nominal one for every user served. -/
def ServiceStats.WithinHalf (s : ServiceId) (x : ServiceStats) : Prop :=
  (servicesDuration s : ℚ) / 2 * x.servedUsers ≤ x.totalServiceTime ∧
    x.totalServiceTime ≤ 3 * (servicesDuration s : ℚ) / 2 * x.servedUsers

/-- The average that the reports print for a service, by the number of its requests. -/
def ServiceStats.averageServiceTime (x : ServiceStats) : Option ℚ :=
  if 0 < x.totalRequests then some (x.totalServiceTime / x.totalRequests) else none

theorem sum_timely {s : ServiceId} {vs : List Visit}
    (h : ∀ v ∈ vs, v.service = s ∧ Timely v.service v.serviceTime) :
    (servicesDuration s : ℚ) / 2 * vs.length ≤ (vs.map Visit.serviceTime).sum ∧
      (vs.map Visit.serviceTime).sum ≤ 3 * (servicesDuration s : ℚ) / 2 * vs.length := by
  induction vs with
  | nil => simp
  | cons v vs ih =>
    rw [List.forall_mem_cons] at h
    obtain ⟨⟨rfl, hmin, hmax⟩, hrest⟩ := h
    obtain ⟨hlow, hhigh⟩ := ih hrest
    rw [List.map_cons, List.sum_cons, List.length_cons, Nat.cast_succ]
    constructor
    · linarith
    · linarith

theorem withinHalf_summary (s : ServiceId) {calls : List StatsOp}
    (h : ∀ v ∈ visits calls, Timely v.service v.serviceTime) :
    (serviceSummary (fun t => s = t) calls).WithinHalf s := by
  apply sum_timely
  intro v hv
  obtain ⟨hmem, hs⟩ := List.mem_filter.mp hv
  exact ⟨(of_decide_eq_true hs).symm, h v hmem⟩

theorem mem_ofToday {calls : List StatsOp} {op : StatsOp} (h : op ∈ ofToday calls) : op ∈ calls :=
  (List.rtakeWhile_suffix _ calls).subset h

theorem TimesRecorded.simulation {site : Site O U} {as : List (Act O U)}
    (h : TimesRecorded site as ((poste site).after (World.init site) as))
    (hruns : (poste site).Runs (World.init site) as)
    (hfree : ((poste site).after (World.init site) as).sh.stats.Free) (s : ServiceId) :
    (((poste site).after (World.init site) as).sh.stats.value.simulationServices
      s).WithinHalf s := by
  have hsummary := poste_summary_settled site as hruns
  rw [Monitor.settled_of_free hfree] at hsummary
  rw [hsummary]
  exact withinHalf_summary s h.recorded

theorem TimesRecorded.today {site : Site O U} {as : List (Act O U)}
    (h : TimesRecorded site as ((poste site).after (World.init site) as))
    (hruns : (poste site).Runs (World.init site) as)
    (hfree : ((poste site).after (World.init site) as).sh.stats.Free) (s : ServiceId) :
    (((poste site).after (World.init site) as).sh.stats.value.today.services s).WithinHalf s := by
  have hsummary := poste_summary_settled site as hruns
  rw [Monitor.settled_of_free hfree] at hsummary
  have htoday : ∀ v ∈ visits (ofToday (statsCalls site as)), Timely v.service v.serviceTime := by
    intro v hv
    obtain ⟨op, hop, hvisit⟩ := List.mem_filterMap.mp hv
    exact h.recorded v (List.mem_filterMap.mpr ⟨op, mem_ofToday hop, hvisit⟩)
  rw [hsummary]
  exact withinHalf_summary s htoday

/-- If no message gets lost or mixed up, then whenever `stats_lock` is free the recorded service
time of every service, in the whole simulation and today, is between a half and one and a half
of its nominal duration for each user that was served. -/
theorem recorded_times_within_half (site : Site O U) (hpids : PidsApart site)
    (hpos : 0 < site.config.minuteDuration) (as : List (Act O U))
    (h : ((poste site).restrict fun _ a => Reliable a ∧ NotToUser site a).Runs
      (World.init site) as)
    (hfree : ((poste site).after (World.init site) as).sh.stats.Free) (s : ServiceId) :
    (((poste site).after (World.init site) as).sh.stats.value.simulationServices s).WithinHalf s ∧
      (((poste site).after (World.init site) as).sh.stats.value.today.services s).WithinHalf s := by
  have hrecorded := timesRecorded_run site hpids hpos as h
  have hruns := GuardedSystem.Runs.of_restrict _ h
  exact ⟨hrecorded.simulation hruns hfree s, hrecorded.today hruns hfree s⟩

/-- The total service time is at most one and a half of the nominal duration for each request. -/
def ServiceStats.Covered (s : ServiceId) (x : ServiceStats) : Prop :=
  x.totalServiceTime ≤ 3 * (servicesDuration s : ℚ) / 2 * x.totalRequests

theorem ServiceStats.Covered.average_le {s : ServiceId} {x : ServiceStats} (h : x.Covered s) {t : ℚ}
    (ht : x.averageServiceTime = some t) : t ≤ 3 * (servicesDuration s : ℚ) / 2 := by
  rw [ServiceStats.averageServiceTime] at ht
  split at ht
  case isTrue hrequests =>
    have hrequests : (0 : ℚ) < x.totalRequests := by exact_mod_cast hrequests
    rw [← Option.some.inj ht, div_le_iff₀ hrequests]
    exact h
  case isFalse => cases ht

theorem TimesRecorded.covered {site : Site O U} {as : List (Act O U)}
    (h : TimesRecorded site as ((poste site).after (World.init site) as))
    (hruns : (poste site).Runs (World.init site) as) (s : ServiceId) :
    ((summary (statsCalls site as)).simulationServices s).Covered s := by
  have hbalanced := h.balanced s
  rw [poste_summary_settled site as hruns] at hbalanced
  obtain ⟨-, hhigh⟩ := withinHalf_summary s h.recorded
  have hserved : (((summary (statsCalls site as)).simulationServices s).servedUsers : ℚ) ≤
      ((summary (statsCalls site as)).simulationServices s).totalRequests := by
    have hle : ((summary (statsCalls site as)).simulationServices s).servedUsers ≤
        ((summary (statsCalls site as)).simulationServices s).totalRequests := by omega
    exact_mod_cast hle
  have hnominal : (0 : ℚ) < servicesDuration s := by exact_mod_cast servicesDuration_pos s
  calc ((summary (statsCalls site as)).simulationServices s).totalServiceTime
      ≤ 3 * (servicesDuration s : ℚ) / 2 *
          ((summary (statsCalls site as)).simulationServices s).servedUsers := hhigh
    _ ≤ 3 * (servicesDuration s : ℚ) / 2 *
          ((summary (statsCalls site as)).simulationServices s).totalRequests :=
        mul_le_mul_of_nonneg_left hserved (by linarith)

/-- The two figures that the average is made of. -/
def PosteStats.averaged (s : ServiceId) (x : PosteStats) : ℚ × ℚ :=
  ((x.simulationServices s).totalServiceTime, (x.simulationServices s).totalRequests)

def Increment.averaged : Increment → ℚ × ℚ
  | .totalServiceTime t => (t, 0)
  | .totalRequests => (0, 1)
  | _ => 0

def StatsWrite.averaged (s : ServiceId) : StatsWrite → ℚ × ℚ
  | .increment (.simulationServices t) i => if s = t then i.averaged else 0
  | _ => 0

theorem averaged_assign (s : ServiceId) (e : StatsWrite) (x : PosteStats) :
    (Assignment.assign e x : PosteStats).averaged s = x.averaged s + e.averaged s := by
  cases e with
  | increment r i =>
    cases r with
    | simulationServices t =>
      show ((modifyService x.simulationServices t i.apply s).totalServiceTime,
        ((modifyService x.simulationServices t i.apply s).totalRequests : ℚ)) = _
      rw [modifyService_apply, PosteStats.averaged, StatsWrite.averaged]
      by_cases hs : s = t
      · rw [if_pos hs, if_pos hs, hs]
        cases i <;> simp [Increment.apply, Increment.averaged]
      · rw [if_neg hs, if_neg hs, add_zero]
    | simulationGlobal => exact (add_zero _).symm
    | todayGlobal => exact (add_zero _).symm
    | todayServices t => exact (add_zero _).symm
  | _ => exact (add_zero _).symm

/-- A section changes one of the two figures, and that at once. -/
theorem averaged_prefix (s : ServiceId) (op : StatsOp) {made : List StatsWrite}
    (hmade : made <+: op.body) (x : PosteStats) :
    (assignAll made x).averaged s = x.averaged s ∨
      (assignAll made x).averaged s = (assignAll op.body x).averaged s := by
  have hnone (hbody : ∀ e ∈ op.body, e.averaged s = 0) :
      (assignAll made x).averaged s = x.averaged s := by
    rw [assignAll_add (averaged_assign s)]
    refine (congrArg _ (List.sum_eq_zero fun y hy => ?_)).trans (add_zero _)
    obtain ⟨e, he, rfl⟩ := List.mem_map.mp hy
    exact hbody e (hmade.subset he)
  cases op with
  | updateRequestsStats t =>
    have hfirst : made <+: [] ++ .increment (.simulationServices t) .totalRequests ::
      (updateRequestsStats t).drop 1 := hmade
    exact assignAll_prefix (averaged_assign s) (by simp)
      (by simp [updateRequestsStats, StatsWrite.averaged]) hfirst x
  | updateSuccessStats t waitTime serviceTime =>
    have hsixth : made <+: (updateSuccessStats t waitTime serviceTime).take 5 ++
      .increment (.simulationServices t) (.totalServiceTime serviceTime) ::
        (updateSuccessStats t waitTime serviceTime).drop 6 := hmade
    exact assignAll_prefix (averaged_assign s)
      (by simp [updateSuccessStats, StatsWrite.averaged, Increment.averaged])
      (by simp [updateSuccessStats, StatsWrite.averaged]) hsixth x
  | updateFailsStats t =>
    exact Or.inl (hnone (by simp [StatsOp.body, updateFailsStats, StatsWrite.averaged,
      Increment.averaged]))
  | handleLateUsers beenLate t =>
    cases beenLate with
    | true => exact Or.inl (hnone (by simp [StatsOp.body, handleLateUsers]))
    | false =>
      exact Or.inl (hnone (by simp [StatsOp.body, handleLateUsers, StatsWrite.averaged,
        Increment.averaged]))
  | updatePauseStats =>
    exact Or.inl (hnone (by simp [StatsOp.body, updatePauseStats, StatsWrite.averaged]))
  | updateActiveOperators =>
    exact Or.inl (hnone (by simp [StatsOp.body, updateActiveOperators, StatsWrite.averaged]))
  | startNewDay day =>
    exact Or.inl (hnone (by simp [StatsOp.body, resetDailyStats, StatsWrite.averaged]))
  | publishMinute minute =>
    exact Or.inl (hnone (by simp [StatsOp.body, publishMinute, StatsWrite.averaged]))

theorem covered_of_averaged {s : ServiceId} {x y : PosteStats} (h : x.averaged s = y.averaged s)
    (hy : (y.simulationServices s).Covered s) : (x.simulationServices s).Covered s := by
  obtain ⟨htime, hrequests⟩ := Prod.mk.inj h
  rw [ServiceStats.Covered, htime, hrequests]
  exact hy

theorem covered_of_summaryOf {s : ServiceId} {x : PosteStats} {calls : List StatsOp}
    (hx : x.SummaryOf calls)
    (h : ∀ pre, pre <+: calls → ((summary pre).simulationServices s).Covered s) :
    (x.simulationServices s).Covered s := by
  rcases hx with rfl | ⟨before, op, made, rfl, hmade, rfl⟩
  · exact h calls List.prefix_rfl
  · rcases averaged_prefix s op hmade (summary before) with hold | hnew
    · exact covered_of_averaged hold (h before (List.prefix_append before [op]))
    · rw [← summary_snoc] at hnew
      exact covered_of_averaged hnew (h (before ++ [op]) List.prefix_rfl)

omit [DecidableEq O] [DecidableEq U] in
theorem exists_of_prefix_statsCalls (site : Site O U) {as : List (Act O U)} {pre : List StatsOp}
    (h : pre <+: statsCalls site as) : ∃ as', as' <+: as ∧ statsCalls site as' = pre := by
  obtain ⟨post, hpost⟩ := h
  rw [statsCalls_eq] at hpost
  obtain ⟨as', rest, rfl, hpre, -⟩ := List.filterMap_eq_append_iff.mp hpost.symm
  exact ⟨as', List.prefix_append as' rest, (statsCalls_eq site as').trans hpre⟩

/-- Wherever the children are stopped, the average that the final report prints for a service,
over its requests and not over the users served, is at most one and a half of its nominal
duration. -/
theorem average_at_most (site : Site O U) (hpids : PidsApart site)
    (hpos : 0 < site.config.minuteDuration) (es : List (EndingAct O U))
    (h : (posteEnding site).Runs (Ending.init site) (es ++ [.report]))
    (hreliable : ∀ a, EndingAct.step a ∈ es → Reliable a ∧ NotToUser site a) :
    ∃ r, ((posteEnding site).after (Ending.init site) (es ++ [.report])).report = some r ∧
      ∀ s t, (r.stats.simulationServices s).averageServiceTime = some t →
        t ≤ 3 * (servicesDuration s : ℚ) / 2 := by
  obtain ⟨hes, -⟩ := (GuardedSystem.runs_snoc _ _ _ _).mp h
  obtain ⟨hruns, hworld⟩ := ending_world hes
  have hsteps : ∀ a ∈ es.filterMap EndingAct.step?, Reliable a ∧ NotToUser site a := by
    intro a ha
    obtain ⟨e, he, hstep⟩ := List.mem_filterMap.mp ha
    cases e <;> cases hstep
    exact hreliable a he
  refine ⟨_, report_of_run site es, fun s t ht => ?_⟩
  refine ServiceStats.Covered.average_le ?_ ht
  show ((Ending.world _).sh.stats.value.simulationServices s).Covered s
  rw [hworld]
  refine covered_of_summaryOf (poste_summaryOf site _ hruns) fun pre hpre => ?_
  obtain ⟨as', hpart, rfl⟩ := exists_of_prefix_statsCalls site hpre
  have hruns' := hruns.of_prefix _ hpart
  have hrecorded := timesRecorded_run site hpids hpos as' ((GuardedSystem.runs_restrict_const _).mpr
    ⟨hruns', fun a ha => hsteps a (hpart.subset ha)⟩)
  exact hrecorded.covered hruns' s

theorem servedDay_reliable : ((poste office).restrict fun _ a => Reliable a ∧
    NotToUser office a).Runs (World.init office) servedDay := by
  rw [servedDay, GuardedSystem.runs_append, GuardedSystem.restrict_after, officeDay_after]
  refine ⟨officeDay_restrict ?_ (by decide) (by decide) (by decide), by decide +kernel⟩
  simp [quietMinute, Reliable, NotToUser]

theorem servedDay_free : ((poste office).after (World.init office) servedDay).sh.stats.Free := by
  rw [servedDay_after]
  decide

theorem recorded_times_within_half_served :
    (((poste office).after (World.init office) servedDay).sh.stats.value.simulationServices
      0).WithinHalf 0 ∧
    (((poste office).after (World.init office) servedDay).sh.stats.value.today.services
      0).WithinHalf 0 :=
  recorded_times_within_half office office_pidsApart (by decide) servedDay servedDay_reliable
    servedDay_free 0

/-- The user is served at the opening and has not recorded it yet. -/
def promptOpening : List (Act (Fin 1) (Fin 1)) :=
  let q : ServiceRequest := ⟨1000, 0⟩
  let d : ServiceDone := ⟨101, 0, 0, 5⟩
  opening 480 2 ++ [.oper 0 .enter, .oper 0 .canWork, .oper 0 (.takeFree 0), .user 0 (.enter 481),
    .user 0 (.arrive 481), .user 0 (.nextService 0 []), .user 0 (.sendTicket 0),
    .ticket (.receive ⟨1, .ticketRequest ⟨1000, 0⟩⟩), .ticket (.reply 1000), .ticket .count,
    .user 0 (.receiveTicket 0 ⟨1000, .ticketResponse ⟨100, 0⟩⟩), .user 0 (.findSeats ⟨0, 0⟩),
    .user 0 (.takeSeat ⟨0, 0⟩ [0] 0), .user 0 (.readOperator ⟨0, 0⟩ 0),
    .user 0 (.readStart ⟨0, 0⟩ 0 101), .user 0 (.sendRequest ⟨0, 0⟩ 0 101 481),
    .oper 0 (.stillOpen 0), .oper 0 (.receive 0 ⟨30101, .serviceRequest q⟩),
    .oper 0 (.countRequest 0 q)] ++ List.replicate 5 .section ++
  [.oper 0 (.serve 0 q 0), .oper 0 (.reply 0 q 5),
    .user 0 (.receiveDone ⟨0, 0⟩ 0 481 ⟨1000, .serviceDone d⟩ d),
    .user 0 (.readEnd ⟨0, 0⟩ 0 481 d)]

/-- It records it after the end, and is stopped when it has added the service time. -/
def promptEnd : List (Act (Fin 1) (Fin 1)) :=
  midnight 2 ++ [.director (.resetSeats fun _ => 0)] ++ wakeUps 2 ++
    [.director .timeout, .user 0 (.countServed ⟨0, 0⟩ 0 0 ⟨101, 0, 0, 5⟩)] ++
    List.replicate 6 .section

def promptDay : List (Act (Fin 1) (Fin 1)) :=
  fullDay counterMorning promptOpening (closing 1200 1)

def promptMidnight : World (Fin 1) (Fin 1) :=
  World.atMinute ((poste twoDays).after (World.atMinute ((poste twoDays).after (World.atMinute
    ((poste twoDays).after (World.init twoDays) counterMorning) 480) promptOpening) 1200)
    (closing 1200 1)) 1440

theorem promptDay_runs_after : (poste twoDays).Runs (World.init twoDays) promptDay ∧
    (poste twoDays).after (World.init twoDays) promptDay = promptMidnight :=
  fullDay_runs (by decide) rfl ⟨by decide, by decide, by decide, by decide⟩ (by decide +kernel) rfl
    ⟨by decide, by decide, by decide, by decide⟩ (by decide) rfl
    ⟨by decide, by decide, by decide, by decide⟩

theorem twoDays_pidsApart : PidsApart twoDays where
  dispenser u := by
    simp only [twoDays, Site.numbered, msgTypeTicketRequest]
    omega
  operator u o := by
    simp only [twoDays, Site.numbered, serviceRequestType]
    omega

theorem promptDay_reliable : ∀ a ∈ promptDay ++ promptEnd, Reliable a ∧ NotToUser twoDays a := by
  have hquiet (m : ℤ) (k : ℕ) : ∀ a ∈ quietMinutes (O := Fin 1) (U := Fin 1) m k,
      Reliable a ∧ NotToUser twoDays a :=
    forall_mem_quietMinutes (by simp [quietMinute, Reliable, NotToUser]) m k
  intro a ha
  simp only [promptDay, fullDay, List.mem_append, or_assoc] at ha
  rcases ha with ha | ha | ha | ha | ha | ha | ha
  · exact (by decide : ∀ a ∈ counterMorning, Reliable a ∧ NotToUser twoDays a) a ha
  · exact hquiet 1 479 a ha
  · exact (by decide : ∀ a ∈ promptOpening, Reliable a ∧ NotToUser twoDays a) a ha
  · exact hquiet 481 719 a ha
  · exact (by decide : ∀ a ∈ closing 1200 1, Reliable a ∧ NotToUser twoDays a) a ha
  · exact hquiet 1201 239 a ha
  · exact (by decide : ∀ a ∈ promptEnd, Reliable a ∧ NotToUser twoDays a) a ha

/-- One request and one service of five minutes, which today's record lacks. -/
theorem average_at_most_prompt : (5 : ℚ) ≤ 3 * (servicesDuration 0 : ℚ) / 2 := by
  obtain ⟨r, hr, haverage⟩ := average_at_most twoDays twoDays_pidsApart (by decide)
    (stoppedIn promptDay promptEnd) (stoppedIn_runs promptDay_runs_after (by decide +kernel))
    (by
      intro a ha
      simp only [stoppedIn, stopAll, List.mem_append, List.mem_map, EndingAct.step.injEq,
        exists_eq_right, List.mem_cons, reduceCtorEq, List.not_mem_nil, or_false] at ha
      exact promptDay_reliable a (List.mem_append.mpr ha))
  rw [stoppedIn_report promptDay_runs_after.2] at hr
  refine haverage 0 5 ?_
  rw [← Option.some.inj hr]
  decide +kernel

end PosteItaliane
