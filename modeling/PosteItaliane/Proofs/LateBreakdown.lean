import PosteItaliane.Proofs.StatsConservation

/-!
# The breakdown of the late users

`handle_late_users` counts a late user of the day in one place, and for the simulation in
two. The daily records of the services have a counter of their own, which
`print_day_stats` shows and nobody increments. The daily values add up as long as nobody has
been late since they were last reset.
-/

namespace PosteItaliane

open Framework

/-- The late users of the day are what is shown for the services, and what the global record of
the day holds. -/
structure DailyStats.LateUsersAddUp (d : DailyStats) : Prop where
  services : d.lateUsers = ∑ s, (d.services s).lateUsers
  global : d.lateUsers = d.global.lateUsers

/-- The user counts itself as late. -/
def StatsOp.countsLate : StatsOp → Bool
  | .handleLateUsers beenLateToday _ => !beenLateToday
  | _ => false

def StatsOp.resetsDay : StatsOp → Bool
  | .startNewDay _ => true
  | _ => false

/-- A call of `handle_late_users` by a user that has not been late today. -/
def countsLate {P : Type*} : Monitor.Event P StatsOp → Bool
  | .begin _ op => op.countsLate
  | .advance => false

def keepsDay {P : Type*} : Monitor.Event P StatsOp → Bool
  | .begin _ op => !op.resetsDay
  | .advance => true

/-- The calls since the last reset, the latest first. -/
def sinceReset {P : Type*} (es : List (Monitor.Event P StatsOp)) :
    List (Monitor.Event P StatsOp) :=
  es.reverse.takeWhile keepsDay

/-- The daily late users are counted in one place only, and there are `n` of them. -/
structure LateUsersOfDay (d : DailyStats) (n : ℕ) : Prop where
  services : ∀ s, (d.services s).lateUsers = 0
  global : d.global.lateUsers = 0
  count : d.lateUsers = n

/-- The number after a section. -/
def StatsOp.lateAfter (op : StatsOp) (n : ℕ) : ℕ :=
  if op.resetsDay then 0 else if op.countsLate then n + 1 else n

/-- An assignment that writes late users to the daily records. No section has one. -/
def StatsWrite.breaksDownLate : StatsWrite → Bool
  | .increment (.todayServices _) .lateUsers => true
  | .increment .todayGlobal .lateUsers => true
  | _ => false

theorem breaksDownLate_body (op : StatsOp) : ∀ e ∈ op.body, e.breaksDownLate = false := by
  cases op with
  | handleLateUsers beenLateToday s =>
    cases beenLateToday <;> simp [StatsOp.body, handleLateUsers, StatsWrite.breaksDownLate]
  | _ =>
    simp [StatsOp.body, updateRequestsStats, updatePauseStats, updateActiveOperators,
      updateFailsStats, updateSuccessStats, resetDailyStats, publishMinute,
      StatsWrite.breaksDownLate]

/-- What an assignment makes of the number. -/
def StatsWrite.lateAfter (e : StatsWrite) (n : ℕ) : ℕ :=
  match e with
  | .resetToday => 0
  | .todayLateUsers => n + 1
  | _ => n

theorem LateUsersOfDay.assign {x : PosteStats} {n : ℕ} (h : LateUsersOfDay x.today n)
    {e : StatsWrite} (he : e.breaksDownLate = false) :
    LateUsersOfDay (e.apply x).today (e.lateAfter n) := by
  cases e with
  | increment r i =>
    cases r with
    | simulationGlobal => exact h
    | simulationServices s => exact h
    | todayGlobal =>
      refine ⟨h.services, ?_, h.count⟩
      cases i <;> first | exact h.global | cases he
    | todayServices s =>
      refine ⟨fun t => ?_, h.global, h.count⟩
      have hservice := h.services t
      simp only [StatsWrite.apply, StatsRecord.modify, modifyService_apply]
      split
      · cases i <;> first | exact hservice | cases he
      · exact hservice
  | todayLateUsers => exact ⟨h.services, h.global, congrArg (· + 1) h.count⟩
  | resetToday => exact ⟨fun _ => rfl, rfl, rfl⟩
  | _ => exact ⟨h.services, h.global, h.count⟩

theorem LateUsersOfDay.assignAll {L : Ledger} {n : ℕ} (h : LateUsersOfDay L.stats.today n)
    {ws : List StatsWrite} (hws : ∀ e ∈ ws, e.breaksDownLate = false) :
    LateUsersOfDay (Framework.assignAll ws L).stats.today
      (ws.foldl (fun n e => e.lateAfter n) n) := by
  induction ws generalizing L n with
  | nil => exact h
  | cons e ws ih =>
    rw [List.forall_mem_cons] at hws
    have hfirst := h.assign hws.1
    rw [← Ledger.assign_stats] at hfirst
    exact ih hfirst hws.2

theorem LateUsersOfDay.op {L : Ledger} {n : ℕ} (h : LateUsersOfDay L.stats.today n)
    (op : StatsOp) :
    LateUsersOfDay (Framework.assignAll op.body L).stats.today (op.lateAfter n) := by
  have hbody : op.body.foldl (fun n e => e.lateAfter n) n = op.lateAfter n := by
    cases op with
    | handleLateUsers beenLateToday s => cases beenLateToday <;> rfl
    | _ => rfl
  rw [← hbody]
  exact h.assignAll (breaksDownLate_body op)

variable {P : Type*}

theorem sinceReset_snoc (es : List (Monitor.Event P StatsOp)) (e : Monitor.Event P StatsOp) :
    sinceReset (es ++ [e]) = if keepsDay e then e :: sinceReset es else [] := by
  rw [sinceReset, List.reverse_append, List.reverse_singleton, List.singleton_append,
    List.takeWhile_cons]
  rfl

theorem sinceReset_begin (es : List (Monitor.Event P StatsOp)) (p : P) (op : StatsOp) :
    (sinceReset (es ++ [.begin p op])).countP countsLate =
      op.lateAfter ((sinceReset es).countP countsLate) := by
  rw [sinceReset_snoc, StatsOp.lateAfter]
  cases hreset : op.resetsDay with
  | true => simp [keepsDay, hreset]
  | false => cases hlate : op.countsLate <;> simp [keepsDay, hreset, countsLate, hlate]

theorem sinceReset_advance (es : List (Monitor.Event P StatsOp)) :
    (sinceReset (es ++ [.advance])).countP countsLate = (sinceReset es).countP countsLate := by
  rw [sinceReset_snoc]
  simp [keepsDay, countsLate]

/-- Once the section in progress is finished, the day has as many late users as have counted
themselves since the reset. -/
theorem lateUsersOfDay_run (es : List (Monitor.Event P StatsOp))
    (h : (statsClients P).Runs Ledger.start es) :
    LateUsersOfDay ((statsClients P).after Ledger.start es).settled.stats.today
      ((sinceReset es).countP countsLate) := by
  refine (statsClients P).trace_invariant (P := fun es m =>
    LateUsersOfDay m.settled.stats.today ((sinceReset es).countP countsLate)) ?_ ?_ es h
  · exact ⟨fun _ => rfl, rfl, rfl⟩
  · intro es m e hday he
    cases e with
    | begin p op =>
      have hfree : m.Free := he
      have hsettled := Monitor.settled_enter hfree p op.body
      rw [sinceReset_begin]
      exact hsettled ▸ hday.op op
    | advance =>
      rw [sinceReset_advance]
      exact (Monitor.settled_advance m).symm ▸ hday

theorem LateUsersOfDay.addUp_iff {d : DailyStats} {es : List (Monitor.Event P StatsOp)}
    (h : LateUsersOfDay d (es.countP countsLate)) :
    d.LateUsersAddUp ↔ ∀ e ∈ es, countsLate e = false := by
  have hzero : es.countP countsLate = 0 ↔ ∀ e ∈ es, countsLate e = false := by
    simp [List.countP_eq_zero]
  rw [← hzero]
  constructor
  · intro hadd
    rw [← h.count, hadd.global, h.global]
  · intro hn
    have hcount := h.count
    rw [hn] at hcount
    exact ⟨by simp [hcount, h.services], by rw [hcount, h.global]⟩

/-- Whenever `stats_lock` is free, the late users of the day add up if and only if no user has
counted itself as late since the last reset. -/
theorem late_breakdown_iff (es : List (Monitor.Event P StatsOp))
    (h : (statsClients P).Runs Ledger.start es)
    (hfree : ((statsClients P).after Ledger.start es).Free) :
    ((statsClients P).after Ledger.start es).value.stats.today.LateUsersAddUp ↔
      ∀ e ∈ sinceReset es, countsLate e = false := by
  have hday := lateUsersOfDay_run es h
  rw [Monitor.settled_of_free hfree] at hday
  exact hday.addUp_iff

/-- A user is late, and a new day begins. -/
def lateAndReset : List (Monitor.Event ℕ StatsOp) :=
  [.begin 0 (.handleLateUsers false 4)] ++ List.replicate 4 .advance ++
    [.begin 1 (.startNewDay 1)] ++ List.replicate 3 .advance

theorem late_breakdown_iff_reset :
    ((statsClients ℕ).after Ledger.start lateAndReset).value.stats.today.LateUsersAddUp ↔
      ∀ e ∈ sinceReset lateAndReset, countsLate e = false :=
  late_breakdown_iff lateAndReset (by decide) (by decide)

/-- One late user of the day, and none of any service. -/
theorem late_user_of_no_service : ¬ ∀ es : List (Monitor.Event ℕ StatsOp),
    (statsClients ℕ).Runs Ledger.start es → ((statsClients ℕ).after Ledger.start es).Free →
    ((statsClients ℕ).after Ledger.start es).value.stats.today.LateUsersAddUp := by
  intro haddUp
  have hadd := haddUp ([.begin 0 (.handleLateUsers false 0)] ++ List.replicate 4 .advance)
    (by decide) (by decide)
  exact absurd hadd.global (by decide)

variable {O U : Type} [Fintype O] [Fintype U] [DecidableEq O] [DecidableEq U]

/-- In the simulation. -/
theorem poste_late_breakdown_iff (site : Site O U) (as : List (Act O U))
    (h : (poste site).Runs (World.init site) as)
    (hfree : ((poste site).after (World.init site) as).sh.stats.Free) :
    ((poste site).after (World.init site) as).sh.stats.value.today.LateUsersAddUp ↔
      ∀ e ∈ sinceReset (as.filterMap (statsEvent site)), countsLate e = false := by
  obtain ⟨hruns, hvalue, hholder⟩ := (poste_refines_clients site).run
    (t := Ledger.start) ⟨rfl, rfl⟩ as h
  have hday := lateUsersOfDay_run _ hruns
  rw [Monitor.settled_of_free (hholder.trans hfree), hvalue] at hday
  exact hday.addUp_iff

end PosteItaliane
