import PosteItaliane.Model.System
import Mathlib.Algebra.BigOperators.Fin
import Mathlib.Tactic.Linarith

/-!
# Conservation of the statistics

The statistics are kept twice over two axes: globally and per service, for the whole
simulation and for the current day. The law says that the two axes agree. It is proved for
processes that call the update functions in any order and interleaving, and then for the
simulation, whose processes are such clients.
-/

namespace PosteItaliane

open Framework

/-- The statistics with the daily values that resets have overwritten, oldest first. -/
structure Ledger where
  stats : PosteStats := {}
  past : List DailyStats := []

def Ledger.assign : StatsWrite → Ledger → Ledger
  | .resetToday, L => ⟨StatsWrite.resetToday.apply L.stats, L.past ++ [L.stats.today]⟩
  | w, L => ⟨w.apply L.stats, L.past⟩

instance : Assignment Ledger StatsWrite := ⟨Ledger.assign⟩

/-- The functions that update the statistics, with their arguments. -/
inductive StatsOp where
  | updateRequestsStats (s : ServiceId)
  | updatePauseStats
  | updateActiveOperators
  | updateFailsStats (s : ServiceId)
  | updateSuccessStats (s : ServiceId) (waitTime serviceTime : ℚ)
  | handleLateUsers (beenLateToday : Bool) (s : ServiceId)
  | startNewDay (day : ℤ)
  | publishMinute (minute : ℤ)

def StatsOp.body : StatsOp → List StatsWrite
  | .updateRequestsStats s => PosteItaliane.updateRequestsStats s
  | .updatePauseStats => PosteItaliane.updatePauseStats
  | .updateActiveOperators => PosteItaliane.updateActiveOperators
  | .updateFailsStats s => PosteItaliane.updateFailsStats s
  | .updateSuccessStats s waitTime serviceTime =>
    PosteItaliane.updateSuccessStats s waitTime serviceTime
  | .handleLateUsers beenLateToday s => PosteItaliane.handleLateUsers beenLateToday s
  | .startNewDay day => resetDailyStats day
  | .publishMinute minute => PosteItaliane.publishMinute minute

/-- The five values that are kept in every `service_stats`. -/
inductive Counter where
  | servedUsers
  | failedServices
  | totalRequests
  | totalWaitTime
  | totalServiceTime

def ServiceStats.get (x : ServiceStats) : Counter → ℚ
  | .servedUsers => x.servedUsers
  | .failedServices => x.failedServices
  | .totalRequests => x.totalRequests
  | .totalWaitTime => x.totalWaitTime
  | .totalServiceTime => x.totalServiceTime

/-- The global values are the sums over the services, and the cumulative values are the
sums of the daily ones. -/
structure Conserved (L : Ledger) : Prop where
  simulation : ∀ c, L.stats.simulationGlobal.get c =
    ∑ s, (L.stats.simulationServices s).get c
  today : ∀ c, L.stats.today.global.get c = ∑ s, (L.stats.today.services s).get c
  late : L.stats.simulationGlobal.lateUsers = ∑ s, (L.stats.simulationServices s).lateUsers
  globalDays : ∀ c, L.stats.simulationGlobal.get c =
    (L.past.map fun d => d.global.get c).sum + L.stats.today.global.get c
  serviceDays : ∀ s c, (L.stats.simulationServices s).get c =
    (L.past.map fun d => (d.services s).get c).sum + (L.stats.today.services s).get c
  lateDays : L.stats.simulationGlobal.lateUsers =
    (L.past.map fun d => d.lateUsers).sum + L.stats.today.lateUsers
  pauseDays : L.stats.totalSimulationPauses =
    (L.past.map fun d => d.totalPauses).sum + L.stats.today.totalPauses
  activeDays : L.stats.totalActiveOperators =
    (L.past.map fun d => d.activeOperators).sum + L.stats.today.activeOperators

theorem modifyService_apply (f : ServiceId → ServiceStats) (s t : ServiceId)
    (g : ServiceStats → ServiceStats) :
    modifyService f s g t = if t = s then g (f t) else f t := by
  by_cases h : t = s
  · subst t
    simp [modifyService]
  · simp [modifyService, h]

@[simp] theorem modifyService_modifyService (f : ServiceId → ServiceStats) (s : ServiceId)
    (g h : ServiceStats → ServiceStats) :
    modifyService (modifyService f s g) s h = modifyService f s (h ∘ g) := by
  funext t
  simp only [modifyService_apply]
  split <;> rfl

theorem sum_modifyService {M : Type*} [AddCancelCommMonoid M] (v : ServiceStats → M) (d : M)
    (f : ServiceId → ServiceStats) (s : ServiceId) (g : ServiceStats → ServiceStats)
    (hg : ∀ x, v (g x) = v x + d) :
    ∑ t, v (modifyService f s g t) = (∑ t, v (f t)) + d := by
  have h := Mailbox.sum_update v f s (g (f s))
  rw [hg (f s), ← add_assoc, add_right_comm] at h
  exact add_right_cancel h

/-- One change to the global record and to the record of a service, at both levels. -/
def PosteStats.bump (x : PosteStats) (s : ServiceId) (g : ServiceStats → ServiceStats) :
    PosteStats :=
  { x with
    simulationGlobal := g x.simulationGlobal
    simulationServices := modifyService x.simulationServices s g
    today := { x.today with
      global := g x.today.global
      services := modifyService x.today.services s g } }

/-- A change that adds fixed amounts and leaves the late users alone. -/
structure Shift (g : ServiceStats → ServiceStats) (d : Counter → ℚ) : Prop where
  get : ∀ x c, (g x).get c = x.get c + d c
  lateUsers : ∀ x, (g x).lateUsers = x.lateUsers

theorem Conserved.bump {L : Ledger} (h : Conserved L) (s : ServiceId)
    {g : ServiceStats → ServiceStats} {d : Counter → ℚ} (hg : Shift g d) :
    Conserved ⟨L.stats.bump s g, L.past⟩ := by
  have hsum (f : ServiceId → ServiceStats) (c : Counter) :
      ∑ t, (modifyService f s g t).get c = (∑ t, (f t).get c) + d c :=
    sum_modifyService (fun x => x.get c) (d c) f s g (fun x => hg.get x c)
  have hlate (f : ServiceId → ServiceStats) :
      ∑ t, (modifyService f s g t).lateUsers = ∑ t, (f t).lateUsers :=
    sum_modifyService ServiceStats.lateUsers 0 f s g hg.lateUsers
  constructor
  case simulation =>
    intro c
    simp only [PosteStats.bump]
    rw [hg.get, hsum, h.simulation]
  case today =>
    intro c
    simp only [PosteStats.bump]
    rw [hg.get, hsum, h.today]
  case late =>
    simp only [PosteStats.bump]
    rw [hg.lateUsers, hlate, h.late]
  case globalDays =>
    intro c
    simp only [PosteStats.bump]
    rw [hg.get, hg.get, h.globalDays, add_assoc]
  case serviceDays =>
    intro t c
    simp only [PosteStats.bump, modifyService_apply]
    by_cases ht : t = s
    · rw [if_pos ht, if_pos ht, hg.get, hg.get, h.serviceDays, add_assoc]
    · rw [if_neg ht, if_neg ht, h.serviceDays]
  case lateDays =>
    simp only [PosteStats.bump]
    rw [hg.lateUsers, h.lateDays]
  case pauseDays => exact h.pauseDays
  case activeDays => exact h.activeDays

theorem Conserved.lateUser {L : Ledger} (h : Conserved L) (s : ServiceId) :
    Conserved (assignAll (handleLateUsers false s) L) := by
  have hget (x : ServiceStats) (c : Counter) :
      (Increment.lateUsers.apply x).get c = x.get c + 0 := by
    cases c <;> simp [Increment.apply, ServiceStats.get]
  have hsum (f : ServiceId → ServiceStats) (c : Counter) :
      ∑ t, (modifyService f s Increment.lateUsers.apply t).get c = ∑ t, (f t).get c := by
    rw [sum_modifyService (fun x => x.get c) 0 f s _ (fun x => hget x c), add_zero]
  have hlate (f : ServiceId → ServiceStats) :
      ∑ t, (modifyService f s Increment.lateUsers.apply t).lateUsers =
        (∑ t, (f t).lateUsers) + 1 :=
    sum_modifyService ServiceStats.lateUsers 1 f s _ (fun _ => rfl)
  show Conserved ⟨{ L.stats with
      today := { L.stats.today with lateUsers := L.stats.today.lateUsers + 1 }
      simulationGlobal := Increment.lateUsers.apply L.stats.simulationGlobal
      simulationServices :=
        modifyService L.stats.simulationServices s Increment.lateUsers.apply }, L.past⟩
  constructor
  case simulation =>
    intro c
    simp only []
    rw [hget, hsum, add_zero, h.simulation]
  case today => exact h.today
  case late =>
    simp only []
    rw [hlate, ← h.late]
    rfl
  case globalDays =>
    intro c
    simp only []
    rw [hget, add_zero, h.globalDays]
  case serviceDays =>
    intro t c
    simp only [modifyService_apply]
    by_cases ht : t = s
    · rw [if_pos ht, hget, add_zero, h.serviceDays]
    · rw [if_neg ht, h.serviceDays]
  case lateDays =>
    have hdays := h.lateDays
    simp only [Increment.apply]
    omega
  case pauseDays => exact h.pauseDays
  case activeDays => exact h.activeDays

theorem Conserved.reset {L : Ledger} (h : Conserved L) (day : ℤ) :
    Conserved (assignAll (resetDailyStats day) L) := by
  show Conserved ⟨{ L.stats with today := {}, currentDay := day }, L.past ++ [L.stats.today]⟩
  have hzero (c : Counter) : ({} : ServiceStats).get c = 0 := by
    cases c <;> simp [ServiceStats.get]
  constructor
  case simulation => exact h.simulation
  case today =>
    intro c
    simp [hzero]
  case late => exact h.late
  case globalDays =>
    intro c
    simp [hzero, h.globalDays c]
  case serviceDays =>
    intro t c
    simp [hzero, h.serviceDays t c]
  case lateDays => simp [h.lateDays]
  case pauseDays => simp [h.pauseDays]
  case activeDays => simp [h.activeDays]

theorem shift_totalRequests : Shift Increment.totalRequests.apply
    (fun | .totalRequests => 1 | _ => 0) where
  get x c := by cases c <;> simp [Increment.apply, ServiceStats.get]
  lateUsers _ := rfl

theorem shift_failedServices : Shift Increment.failedServices.apply
    (fun | .failedServices => 1 | _ => 0) where
  get x c := by cases c <;> simp [Increment.apply, ServiceStats.get]
  lateUsers _ := rfl

/-- The three increments `update_success_stats` makes to every record. -/
def serveUser (waitTime serviceTime : ℚ) (x : ServiceStats) : ServiceStats :=
  (Increment.totalServiceTime serviceTime).apply
    ((Increment.totalWaitTime waitTime).apply (Increment.servedUsers.apply x))

theorem shift_serveUser (waitTime serviceTime : ℚ) : Shift (serveUser waitTime serviceTime)
    (fun
      | .servedUsers => 1
      | .totalWaitTime => waitTime
      | .totalServiceTime => serviceTime
      | _ => 0) where
  get x c := by cases c <;> simp [serveUser, Increment.apply, ServiceStats.get]
  lateUsers _ := rfl

theorem assignAll_updateSuccessStats (s : ServiceId) (waitTime serviceTime : ℚ) (L : Ledger) :
    assignAll (updateSuccessStats s waitTime serviceTime) L =
      ⟨L.stats.bump s (serveUser waitTime serviceTime), L.past⟩ := by
  have hnest (f : ServiceId → ServiceStats) :
      modifyService (modifyService (modifyService f s Increment.servedUsers.apply) s
          (Increment.totalWaitTime waitTime).apply) s
        (Increment.totalServiceTime serviceTime).apply =
      modifyService f s (serveUser waitTime serviceTime) := by
    rw [modifyService_modifyService, modifyService_modifyService]
    rfl
  simp only [PosteStats.bump, ← hnest]
  rfl

theorem Conserved.op {L : Ledger} (h : Conserved L) (op : StatsOp) :
    Conserved (assignAll op.body L) := by
  cases op with
  | updateRequestsStats s => exact h.bump s shift_totalRequests
  | updatePauseStats =>
    have hdays : L.stats.totalSimulationPauses + 1 =
        (L.past.map fun d => d.totalPauses).sum + (L.stats.today.totalPauses + 1) := by
      rw [h.pauseDays, add_assoc]
    exact { h with pauseDays := hdays }
  | updateActiveOperators =>
    have hdays : L.stats.totalActiveOperators + 1 =
        (L.past.map fun d => d.activeOperators).sum + (L.stats.today.activeOperators + 1) := by
      rw [h.activeDays, add_assoc]
    exact { h with activeDays := hdays }
  | updateFailsStats s => exact h.bump s shift_failedServices
  | updateSuccessStats s waitTime serviceTime =>
    show Conserved (assignAll (updateSuccessStats s waitTime serviceTime) L)
    rw [assignAll_updateSuccessStats]
    exact h.bump s (shift_serveUser waitTime serviceTime)
  | handleLateUsers beenLateToday s =>
    cases beenLateToday with
    | true => exact h
    | false => exact h.lateUser s
  | startNewDay day => exact h.reset day
  | publishMinute minute => exact { h with }

theorem conserved_zero : Conserved {} := by
  have hzero (c : Counter) : ({} : ServiceStats).get c = 0 := by
    cases c <;> simp [ServiceStats.get]
  constructor <;> simp [hzero]

/-- Processes of any number and kind that call the update functions. -/
abbrev statsClients (P : Type*) :
    GuardedSystem (Monitor P Ledger StatsWrite) (Monitor.Event P StatsOp) :=
  Monitor.clients StatsOp.body

/-- Zeroed statistics and a free lock. -/
def Ledger.start {P : Type*} : Monitor P Ledger StatsWrite := ⟨{}, none⟩

/-- Whatever the processes do, the law holds once the section in progress is finished. -/
theorem settled_conserved {P : Type*} (es : List (Monitor.Event P StatsOp))
    (h : (statsClients P).Runs Ledger.start es) :
    Conserved ((statsClients P).after Ledger.start es).settled :=
  Monitor.clients_settled (fun op _ hL => hL.op op) conserved_zero es h

/-- Whatever the processes do, the law holds whenever `stats_lock` is free. -/
theorem stats_conserved {P : Type*} (es : List (Monitor.Event P StatsOp))
    (h : (statsClients P).Runs Ledger.start es)
    (hfree : ((statsClients P).after Ledger.start es).Free) :
    Conserved ((statsClients P).after Ledger.start es).value := by
  have hsettled := settled_conserved es h
  rwa [Monitor.settled_of_free hfree] at hsettled

/-- A request, a reset, a success and a late user by three processes. -/
theorem stats_conserved_three : Conserved ((statsClients ℕ).after Ledger.start
    ([.begin 0 (.updateRequestsStats 2)] ++ List.replicate 5 .advance ++
      [.begin 1 (.startNewDay 1)] ++ List.replicate 3 .advance ++
      [.begin 2 (.updateSuccessStats 2 7 (13/2))] ++ List.replicate 13 .advance ++
      [.begin 2 (.handleLateUsers false 4)] ++ List.replicate 4 .advance)).value :=
  stats_conserved _ (by decide) (by decide)

variable {O U : Type} [Fintype O] [Fintype U]

/-- What a step of the simulation is for the statistics. -/
def statsEvent (site : Site O U) : Act O U → Option (Monitor.Event (Proc O U) StatsOp)
  | .oper o (.countRequest _ _) =>
    some (.begin (.operatore o) (.updateRequestsStats (site.userService o)))
  | .oper o .countPause => some (.begin (.operatore o) .updatePauseStats)
  | .oper o .countActive => some (.begin (.operatore o) .updateActiveOperators)
  | .user u (.countServed _ _ wait d) =>
    some (.begin (.utente u) (.updateSuccessStats d.serviceId wait d.serviceTime))
  | .user u (.countLate beenLate s _ _ _) =>
    some (.begin (.utente u) (.handleLateUsers beenLate s))
  | .user u (.countFailed s _ _) => some (.begin (.utente u) (.updateFailsStats s))
  | .director (.resetStats day) => some (.begin .direttore (.startNewDay day))
  | .director (.publishMinute minute) => some (.begin .direttore (.publishMinute minute))
  | .section => some .advance
  | _ => none

/-- The process whose program takes the step. The ticket dispenser has no sections. -/
@[simp] def Act.process : Act O U → Option (Proc O U)
  | .oper o _ => some (.operatore o)
  | .user u _ => some (.utente u)
  | .director _ => some .direttore
  | .ticket _ | .section => none

theorem statsEvent_eq_advance (site : Site O U) {a : Act O U} :
    statsEvent site a = some .advance ↔ a = .section := by
  cases a with
  | oper o b => cases b <;> simp [statsEvent]
  | user u b => cases b <;> simp [statsEvent]
  | ticket b => simp [statsEvent]
  | director b => cases b <;> simp [statsEvent]
  | «section» => simp [statsEvent]

theorem process_of_begin {site : Site O U} {a : Act O U} {p : Proc O U} {op : StatsOp}
    (h : statsEvent site a = some (.begin p op)) : a.process = some p := by
  cases a with
  | oper o b => cases b <;> cases h <;> rfl
  | user u b => cases b <;> cases h <;> rfl
  | ticket b => cases h
  | director b => cases b <;> cases h <;> rfl
  | «section» => cases h

variable [DecidableEq O] [DecidableEq U]

/-- Only the steps above touch the statistics. -/
theorem stats_step (site : Site O U) (w : World O U) (a : Act O U) (ha : w.Enabled site a) :
    match statsEvent site a with
    | none => (w.next site a).sh.stats = w.sh.stats
    | some (.begin p op) => w.sh.stats.Free ∧ (w.next site a).sh.stats = w.sh.stats.enter p op.body
    | some .advance => ¬ w.sh.stats.Free ∧ (w.next site a).sh.stats = w.sh.stats.advance := by
  cases a with
  | oper o a => cases a <;> first | rfl | exact ⟨ha.2.2, rfl⟩
  | user u a => cases a <;> first | rfl | exact ⟨ha.2.2, rfl⟩ | exact ⟨ha.2.2.2, rfl⟩
  | ticket a => cases a <;> rfl
  | director a => cases a <;> first | rfl | exact ⟨ha.2.1.2.2, rfl⟩
  | «section» => exact ⟨ha, rfl⟩

theorem value_step (site : Site O U) {w : World O U} {a : Act O U} (ha : w.Enabled site a)
    (hsection : a ≠ .section) : (w.next site a).sh.stats.value = w.sh.stats.value := by
  have hstep := stats_step site w a ha
  cases hev : statsEvent site a with
  | none =>
    rw [hev] at hstep
    rw [hstep]
  | some e =>
    rw [hev] at hstep
    cases e with
    | begin p op =>
      rw [hstep.2]
      rfl
    | advance => exact absurd ((statsEvent_eq_advance site).mp hev) hsection

theorem section_cases (site : Site O U) {w : World O U} (ha : w.Enabled site .section) :
    (∃ p, w.sh.stats.holder = some (p, []) ∧
      (w.next site .section).sh.stats = ⟨w.sh.stats.value, none⟩) ∨
    ∃ p e ws, w.sh.stats.holder = some (p, e :: ws) ∧
      (w.next site .section).sh.stats = ⟨e.apply w.sh.stats.value, some (p, ws)⟩ := by
  have hnext : (w.next site .section).sh.stats = w.sh.stats.advance := rfl
  cases hholder : w.sh.stats.holder with
  | none => exact absurd hholder ha
  | some q =>
    obtain ⟨p, _ | ⟨e, ws⟩⟩ := q
    · exact Or.inl ⟨p, rfl, hnext.trans (Monitor.advance_nil hholder)⟩
    · exact Or.inr ⟨p, e, ws, rfl, hnext.trans (Monitor.advance_cons hholder)⟩

/-- The ledger holds the statistics of the shared segment, under the same lock. -/
def LedgerOf (w : World O U) (m : Monitor (Proc O U) Ledger StatsWrite) : Prop :=
  m.value.stats = w.sh.stats.value ∧ m.holder = w.sh.stats.holder

theorem Ledger.assign_stats (e : StatsWrite) (L : Ledger) :
    (Ledger.assign e L).stats = e.apply L.stats := by
  cases e <;> rfl

omit [Fintype O] [Fintype U] [DecidableEq O] [DecidableEq U] in
theorem ledgerOf_advance {m : Monitor (Proc O U) Ledger StatsWrite}
    {n : Monitor (Proc O U) PosteStats StatsWrite} (hvalue : m.value.stats = n.value)
    (hholder : m.holder = n.holder) :
    m.advance.value.stats = n.advance.value ∧ m.advance.holder = n.advance.holder := by
  obtain ⟨L, _ | ⟨p, _ | ⟨e, ws⟩⟩⟩ := m <;> obtain ⟨x, k⟩ := n <;> subst hvalue <;> subst hholder
  · exact ⟨rfl, rfl⟩
  · exact ⟨rfl, rfl⟩
  · exact ⟨Ledger.assign_stats e L, rfl⟩

theorem poste_refines_clients (site : Site O U) :
    (poste site).Refines (statsClients (Proc O U)) LedgerOf (statsEvent site) := by
  intro w m a hR ha
  have hstep := stats_step site w a ha
  have hfree : m.Free ↔ w.sh.stats.Free := by
    rw [Monitor.Free, Monitor.Free, hR.2]
  cases hev : statsEvent site a with
  | none =>
    rw [hev] at hstep
    show m.value.stats = (w.next site a).sh.stats.value ∧
      m.holder = (w.next site a).sh.stats.holder
    rw [hstep]
    exact hR
  | some e =>
    rw [hev] at hstep
    cases e with
    | begin p op =>
      refine ⟨hfree.mpr hstep.1, ?_⟩
      show _ = (w.next site a).sh.stats.value ∧ _ = (w.next site a).sh.stats.holder
      rw [hstep.2]
      exact ⟨hR.1, rfl⟩
    | advance =>
      refine ⟨fun h => hstep.1 (hfree.mp h), ?_⟩
      show _ = (w.next site a).sh.stats.value ∧ _ = (w.next site a).sh.stats.holder
      rw [hstep.2]
      exact ledgerOf_advance hR.1 hR.2

theorem poste_settled_conserved (site : Site O U) (as : List (Act O U))
    (h : (poste site).Runs (World.init site) as) :
    ∃ past, Conserved ⟨((poste site).after (World.init site) as).sh.stats.settled, past⟩ := by
  obtain ⟨hruns, hvalue, hholder⟩ := (poste_refines_clients site).run
    (t := Ledger.start) ⟨rfl, rfl⟩ as h
  have hlaw := settled_conserved _ hruns
  have hstats := assignAll_view (f := Ledger.stats) Ledger.assign_stats
    ((poste site).after (World.init site) as).sh.stats.pending
    ((statsClients (Proc O U)).after Ledger.start (as.filterMap (statsEvent site))).value
  rw [hvalue, ← Monitor.settled_eq, Monitor.pending, ← hholder, ← Monitor.pending,
    ← Monitor.settled_eq] at hstats
  rw [← hstats]
  exact ⟨_, hlaw⟩

/-- The law holds in the simulation whenever `stats_lock` is free. -/
theorem poste_stats_conserved (site : Site O U) (as : List (Act O U))
    (h : (poste site).Runs (World.init site) as)
    (hfree : ((poste site).after (World.init site) as).sh.stats.Free) :
    ∃ past, Conserved ⟨((poste site).after (World.init site) as).sh.stats.value, past⟩ := by
  have hsettled := poste_settled_conserved site as h
  rwa [Monitor.settled_of_free hfree] at hsettled

end PosteItaliane
