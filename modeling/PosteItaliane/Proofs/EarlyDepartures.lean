import PosteItaliane.Proofs.Office
import PosteItaliane.Proofs.Requests
import PosteItaliane.Proofs.Sections
import Mathlib.Algebra.Order.BigOperators.Group.Finset

/-!
# Early departures

An operator that goes home early counts it in its own `pauses_done` at once, and in the
shared statistics after it has given its seat back, in a section of its own. A ghost notes
for every operator what its current call of `work_loop` began with and whether it has
paused in it. The shared counter lags behind the sum of the own ones by the operators on
the way between the two increments.
-/

namespace PosteItaliane

open Framework Framework.Mailbox

/-- `pauses_done` is incremented and `update_pause_stats` is not entered yet. -/
def Operatore.Phase.leavesEarly : Operatore.Phase → Bool
  | .release _ early => early
  | .signal early => early
  | .countPause => true
  | _ => false

/-- The call of `work_loop` may still receive requests. -/
def Operatore.Phase.seesClients : Operatore.Phase → Bool
  | .boot | .home | .awaitDay | .morning | .awaitOpen | .entered => false
  | .release _ _ | .signal _ | .countPause | .countActive => false
  | _ => true

/-- What is noted of an operator: its `pauses_done` when `work_loop` was called last,
whether it has paused since, and whether the send of an answer was attempted since the last
request was received. -/
structure PauseNote where
  atCall : ℕ
  paused : Bool
  attempted : Bool

def PauseNote.record (n : PauseNote) (l : Operatore.Local) : Operatore.Act → PauseNote
  | .canWork | .cannotWork => { n with atCall := l.pausesDone, paused := false }
  | .receive _ _ => { n with attempted := false }
  | .reply _ _ _ | .replyFails _ _ _ => { n with attempted := true }
  | .pause _ _ => { n with paused := true }
  | _ => n

variable {O U : Type} [Fintype O] [Fintype U] [DecidableEq O] [DecidableEq U]

def recordPauses (b : O → PauseNote) (w : World O U) : Act O U → O → PauseNote
  | .oper o a => Function.update b o ((b o).record (w.opers o) a)
  | _ => b

/-- The simulation with the notes. -/
def postePauses (site : Site O U) : GuardedSystem (World O U × (O → PauseNote)) (Act O U) :=
  (poste site).withGhost recordPauses

/-- Nobody has worked yet. -/
def noPauses (O : Type) : O → PauseNote := fun _ => ⟨0, false, false⟩

/-- The operator has incremented its `pauses_done` and not yet `total_simulation_pauses`. -/
def World.pauseUncounted (w : World O U) (o : O) : Bool :=
  (w.opers o).phase.leavesEarly ||
    (w.sh.stats.inside = some (.operatore o) &&
      StatsWrite.totalSimulationPauses ∈ w.sh.stats.pending)

/-- The operator has incremented its `pauses_done` and not yet left `update_pause_stats`. -/
def World.pauseInProgress (w : World O U) (o : O) : Bool :=
  (w.opers o).phase.leavesEarly ||
    (w.sh.stats.inside = some (.operatore o) && (w.opers o).phase = .countActive)

/-- Nobody goes home early more often than allowed, twice in a call of `work_loop`, in the
middle of a service or to go on serving, and the shared counter is the sum of the own ones
but for the operators that are `between` the two. -/
structure PausesInBudget (site : Site O U) (between : World O U → O → Bool)
    (p : World O U × (O → PauseNote)) : Prop where
  budget : ∀ o, ((p.1.opers o).pausesDone : ℤ) ≤ site.config.nofPause
  perCall : ∀ o, (p.1.opers o).pausesDone ≤ (p.2 o).atCall + 1
  afterReply : ∀ o a, p.1.Enabled site a →
    (p.1.opers o).pausesDone < ((p.1.next site a).opers o).pausesDone → (p.2 o).attempted = true
  noRequest : ∀ o, (p.2 o).paused = true →
    ∀ k m, ¬ p.1.Enabled site (.oper o (.receive k m))
  counted : p.1.sh.stats.value.totalSimulationPauses +
    (Finset.univ.filter fun o => between p.1 o = true).card = ∑ o, (p.1.opers o).pausesDone
  total : (p.1.sh.stats.value.totalSimulationPauses : ℤ) ≤
    site.config.numOperators * site.config.nofPause

/-- What the notes say of the operator. -/
structure PauseNote.Fits (site : Site O U) (n : PauseNote) (l : Operatore.Local) : Prop where
  budget : (l.pausesDone : ℤ) ≤ site.config.nofPause
  call : l.pausesDone = n.atCall + if n.paused then 1 else 0
  gone : n.paused = true → l.phase.seesClients = false
  attempted : ∀ k, l.phase = .pauseDraw k → n.attempted = true

omit [DecidableEq O] [DecidableEq U] in
theorem pausesDone_own {site : Site O U} {o : O} {l : Operatore.Local} {sh : Shared O U}
    {a : Operatore.Act} (ha : Operatore.Enabled site o l sh a) :
    (Operatore.next site o l sh a).1.pausesDone = l.pausesDone ∨
      ∃ k r, a = .pause k r ∧ l.phase = .pauseDraw k ∧
        (l.pausesDone : ℤ) < site.config.nofPause ∧
        (Operatore.next site o l sh a).1.pausesDone = l.pausesDone + 1 := by
  cases a <;> try exact Or.inl rfl
  case pause k r => exact Or.inr ⟨k, r, rfl, ha.1, ha.2.2, rfl⟩

omit [DecidableEq O] [DecidableEq U] in
theorem seesClients_own {site : Site O U} {o : O} {l : Operatore.Local} {sh : Shared O U}
    {a : Operatore.Act} (ha : Operatore.Enabled site o l sh a) :
    (Operatore.next site o l sh a).1.phase.seesClients = true →
      l.phase.seesClients = true ∨ a = .canWork := by
  cases a <;> simp only [Operatore.Enabled] at ha <;> simp only [Operatore.next] <;>
    grind [Operatore.Phase.seesClients]

omit [DecidableEq O] [DecidableEq U] in
theorem pauseDraw_own {site : Site O U} {o : O} {l : Operatore.Local} {sh : Shared O U}
    {a : Operatore.Act} (ha : Operatore.Enabled site o l sh a) {k : ℕ}
    (h : (Operatore.next site o l sh a).1.phase = .pauseDraw k) (n : PauseNote) :
    (n.record l a).attempted = true := by
  cases a <;> simp only [Operatore.Enabled] at ha <;> simp only [Operatore.next] at h <;>
    grind [PauseNote.record]

omit [DecidableEq O] [DecidableEq U] in
theorem PauseNote.Fits.step {site : Site O U} {n : PauseNote} {l : Operatore.Local}
    (h : n.Fits site l) {o : O} {sh : Shared O U} {a : Operatore.Act}
    (ha : Operatore.Enabled site o l sh a) :
    (n.record l a).Fits site (Operatore.next site o l sh a).1 := by
  have hbudget := h.budget
  have hcall := h.call
  refine ⟨?_, ?_, ?_, fun k hk => pauseDraw_own ha hk n⟩
  · rcases pausesDone_own ha with hsame | ⟨k, r, rfl, -, hleft, hnext⟩
    · rw [hsame]
      exact hbudget
    · rw [hnext]
      omega
  · cases a <;> try exact hcall
    case canWork => simp [Operatore.next, PauseNote.record]
    case cannotWork => simp [Operatore.next, PauseNote.record]
    case pause k r =>
      have hphase : l.phase = .pauseDraw k := ha.1
      have hfirst : n.paused = false := by
        by_contra hpaused
        have hgone := h.gone (by simpa using hpaused)
        rw [hphase] at hgone
        cases hgone
      rw [hfirst] at hcall
      simpa [Operatore.next, PauseNote.record] using hcall
  · intro hpaused
    by_contra hsees
    rcases seesClients_own ha (by simpa using hsees) with hold | hcalled
    · by_cases hpause : n.paused = true
      · rw [h.gone hpause] at hold
        cases hold
      · cases a <;> first | exact hpause hpaused | skip
        case canWork => cases hpaused
        case cannotWork => cases hpaused
        case pause k r => exact hsees rfl
    · subst hcalled
      cases hpaused

/-- What an assignment adds to `total_simulation_pauses`. -/
def StatsWrite.addsPause (e : StatsWrite) : ℕ := if e = .totalSimulationPauses then 1 else 0

theorem addsPause_assign (e : StatsWrite) (x : PosteStats) :
    (Assignment.assign e x : PosteStats).totalSimulationPauses =
      x.totalSimulationPauses + e.addsPause := by
  cases e with
  | increment r i => cases r <;> rfl
  | _ => rfl

/-- What a section adds to it. -/
def StatsOp.addsPause : StatsOp → ℕ
  | .updatePauseStats => 1
  | _ => 0

theorem addsPause_body (op : StatsOp) : (op.body.map StatsWrite.addsPause).sum = op.addsPause := by
  cases op with
  | handleLateUsers beenLate s => cases beenLate <;> rfl
  | _ => rfl

theorem pauses_settled_step (site : Site O U) {w : World O U} {a : Act O U}
    (ha : w.Enabled site a) : (w.next site a).sh.stats.settled.totalSimulationPauses =
      w.sh.stats.settled.totalSimulationPauses +
        (statsOp site a).elim 0 StatsOp.addsPause := by
  rw [settled_step site ha]
  cases statsOp site a with
  | none => rfl
  | some op =>
    have hadd := assignAll_add addsPause_assign op.body w.sh.stats.settled
    rw [addsPause_body] at hadd
    exact hadd

/-- The operators on the way from their increment to the section. -/
def World.leaving (w : World O U) : ℕ := ∑ o, (w.opers o).phase.leavesEarly.toNat

/-- The shared counter, once the section in progress is finished, lags behind by the operators
that have not entered it yet. -/
def PausesSettled (w : World O U) : Prop :=
  w.sh.stats.settled.totalSimulationPauses + w.leaving = ∑ o, (w.opers o).pausesDone

omit [DecidableEq O] [DecidableEq U] in
theorem leavesEarly_own {site : Site O U} {o : O} {l : Operatore.Local} {sh : Shared O U}
    {a : Operatore.Act} (ha : Operatore.Enabled site o l sh a) :
    (statsOp site (.oper o a : Act O U)).elim 0 StatsOp.addsPause +
      (Operatore.next site o l sh a).1.phase.leavesEarly.toNat + l.pausesDone =
    l.phase.leavesEarly.toNat + (Operatore.next site o l sh a).1.pausesDone := by
  cases a <;> simp only [Operatore.Enabled] at ha <;> simp only [Operatore.next] <;>
    simp only [statsOp, statsEvent] <;> grind [Operatore.Phase.leavesEarly, StatsOp.addsPause]

theorem PausesSettled.step {site : Site O U} {w : World O U} (h : PausesSettled w) {a : Act O U}
    (ha : w.Enabled site a) : PausesSettled (w.next site a) := by
  have hsettled := pauses_settled_step site ha
  unfold PausesSettled World.leaving at h ⊢
  rw [hsettled]
  cases a with
  | oper o b =>
    have hown := leavesEarly_own ha.2
    have hleaving := sum_update (fun l : Operatore.Local => l.phase.leavesEarly.toNat) w.opers o
      (Operatore.next site o (w.opers o) w.sh b).1
    have hdone := sum_update (fun l : Operatore.Local => l.pausesDone) w.opers o
      (Operatore.next site o (w.opers o) w.sh b).1
    simp only [World.next]
    omega
  | user u b => cases b <;> exact h
  | ticket b => exact h
  | director b => cases b <;> exact h
  | «section» => exact h

/-- An operator inside a section is not on its way to `update_pause_stats`. -/
def EntersOnce (w : World O U) : Prop :=
  ∀ o, w.sh.stats.inside = some (.operatore o) → (w.opers o).phase.leavesEarly = false

theorem EntersOnce.step {site : Site O U} {w : World O U} (h : EntersOnce w) {a : Act O U}
    (ha : w.Enabled site a) : EntersOnce (w.next site a) := by
  intro o hinside
  obtain ⟨⟨p, ws⟩, hholder, hp⟩ := Option.map_eq_some_iff.mp hinside
  have hp : p = .operatore o := hp
  subst hp
  have hstays (hin : w.sh.stats.inside = some (.operatore o)) :
      ((w.next site a).opers o).phase.leavesEarly = false := by
    rcases oper_step site ha o with hsame | ⟨b, rfl, -, -⟩
    · rw [hsame]
      exact h o hin
    · exact absurd hin ha.1
  rcases holder_step site ha hholder with hold | ⟨e, hold⟩ | ⟨op, hop, -⟩
  · exact hstays (by simp [Monitor.inside, hold])
  · exact hstays (by simp [Monitor.inside, hold])
  · cases a with
    | oper q b => cases b <;> cases hop <;> simp [World.next, Operatore.next,
        Operatore.Phase.leavesEarly]
    | user u b => cases b <;> cases hop
    | ticket b => cases hop
    | director b => cases b <;> cases hop
    | «section» => cases hop

omit [Fintype O] [Fintype U] [DecidableEq O] [DecidableEq U] in
theorem SectionsHeld.addingPause {w : World O U} (h : SectionsHeld w) {p : Proc O U}
    {ws : List StatsWrite} (hholder : w.sh.stats.holder = some (p, ws))
    (hmem : StatsWrite.totalSimulationPauses ∈ ws) :
    (∃ o, p = .operatore o) ∧ ws = updatePauseStats := by
  have hmade := h.madeBy hholder _ hmem
  cases p with
  | operatore o =>
    refine ⟨⟨o, rfl⟩, ?_⟩
    obtain ⟨op, hop, hsuffix⟩ := h.called _ ws hholder
    have hbody := hsuffix.subset hmem
    cases op <;> first | exact hop.elim | skip
    case updatePauseStats =>
      rcases List.suffix_cons_iff.mp hsuffix with hall | hrest
      · exact hall
      · have hlast := hrest.subset hmem
        simp at hlast
    all_goals simp [StatsOp.body, updateRequestsStats, updateActiveOperators] at hbody
  | utente u => exact hmade.elim
  | direttore => exact hmade.elim

omit [Fintype U] in
theorem SectionsHeld.pendingPauses {w : World O U} (h : SectionsHeld w) :
    (w.sh.stats.pending.map StatsWrite.addsPause).sum =
      ∑ o, (w.sh.stats.inside = some (.operatore o) &&
        StatsWrite.totalSimulationPauses ∈ w.sh.stats.pending : Bool).toNat := by
  cases hholder : w.sh.stats.holder with
  | none => simp [Monitor.pending, Monitor.inside, hholder]
  | some q =>
    obtain ⟨p, ws⟩ := q
    by_cases hmem : StatsWrite.totalSimulationPauses ∈ ws
    · obtain ⟨⟨o, rfl⟩, rfl⟩ := h.addingPause hholder hmem
      simp only [Monitor.pending, Monitor.inside, hholder, Option.map_some, Option.getD_some,
        hmem, decide_true, Bool.and_true, Option.some.injEq, Proc.operatore.injEq]
      have hone : ∑ q, (decide (o = q)).toNat = 1 := by simp [Bool.toNat, Bool.cond_decide]
      rw [hone]
      rfl
    · have hnone : ∀ e ∈ ws, e.addsPause = 0 := by
        intro e he
        simp [StatsWrite.addsPause, ne_of_mem_of_not_mem he hmem]
      simp [Monitor.pending, Monitor.inside, hholder, hmem, List.map_eq_replicate_iff.mpr hnone]

omit [Fintype U] in
theorem card_pauseUncounted {w : World O U} (hheld : SectionsHeld w) (honce : EntersOnce w) :
    (Finset.univ.filter fun o => w.pauseUncounted o = true).card =
      w.leaving + (w.sh.stats.pending.map StatsWrite.addsPause).sum := by
  rw [hheld.pendingPauses, World.leaving, ← Finset.sum_add_distrib, Finset.card_filter]
  apply Finset.sum_congr rfl
  intro o _
  by_cases hinside : w.sh.stats.inside = some (.operatore o)
  · simp [World.pauseUncounted, honce o hinside, hinside, Bool.toNat]
  · simp [World.pauseUncounted, hinside]
    cases (w.opers o).phase.leavesEarly <;> rfl

structure PausesBooked (site : Site O U) (p : World O U × (O → PauseNote)) : Prop where
  held : SectionsHeld p.1
  once : EntersOnce p.1
  settled : PausesSettled p.1
  notes : ∀ o, (p.2 o).Fits site (p.1.opers o)

theorem PausesBooked.notes_step {site : Site O U} {p : World O U × (O → PauseNote)}
    (h : PausesBooked site p) {a : Act O U} (ha : p.1.Enabled site a) (o : O) :
    (recordPauses p.2 p.1 a o).Fits site ((p.1.next site a).opers o) := by
  cases a with
  | oper q b =>
    by_cases hq : o = q
    · subst hq
      simpa [recordPauses, World.next] using (h.notes o).step ha.2
    · simpa [recordPauses, World.next, hq] using h.notes o
  | user u b => exact h.notes o
  | ticket b => exact h.notes o
  | director b => exact h.notes o
  | «section» => exact h.notes o

theorem PausesBooked.step {site : Site O U} {p : World O U × (O → PauseNote)}
    (h : PausesBooked site p) {a : Act O U} (ha : p.1.Enabled site a) :
    PausesBooked site ((postePauses site).next p a) where
  held := h.held.step ha
  once := h.once.step ha
  settled := h.settled.step ha
  notes := h.notes_step ha

omit [DecidableEq O] in
theorem pausesBooked_init (site : Site O U) (hpause : 0 ≤ site.config.nofPause) :
    PausesBooked site (World.init site, noPauses O) where
  held := sectionsHeld_init site
  once o h := by cases h
  settled := by
    simp [PausesSettled, World.leaving, World.init, Shared.init, Monitor.settled,
      Operatore.Phase.leavesEarly]
  notes o := by
    refine ⟨hpause, rfl, ?_, ?_⟩
    · intro h
      cases h
    · intro k h
      cases h

theorem PausesBooked.afterReply {site : Site O U} {p : World O U × (O → PauseNote)}
    (h : PausesBooked site p) {o : O} {a : Act O U} (ha : p.1.Enabled site a)
    (hgrows : (p.1.opers o).pausesDone < ((p.1.next site a).opers o).pausesDone) :
    (p.2 o).attempted = true := by
  rcases oper_step site ha o with hsame | ⟨b, -, hb, hnext⟩
  · rw [hsame] at hgrows
    exact absurd hgrows (lt_irrefl _)
  · rw [hnext] at hgrows
    rcases pausesDone_own hb with hkeep | ⟨k, r, -, hphase, -, -⟩
    · rw [hkeep] at hgrows
      exact absurd hgrows (lt_irrefl _)
    · exact (h.notes o).attempted k hphase

theorem PausesBooked.counted {site : Site O U} {p : World O U × (O → PauseNote)}
    (h : PausesBooked site p) : p.1.sh.stats.value.totalSimulationPauses +
      (Finset.univ.filter fun o => p.1.pauseUncounted o = true).card =
        ∑ o, (p.1.opers o).pausesDone := by
  have hsettled := h.settled
  have hpending := assignAll_add addsPause_assign p.1.sh.stats.pending p.1.sh.stats.value
  rw [← Monitor.settled_eq] at hpending
  rw [card_pauseUncounted h.held h.once, ← hsettled, hpending]
  omega

theorem PausesBooked.inBudget {site : Site O U} {p : World O U × (O → PauseNote)}
    (h : PausesBooked site p) : PausesInBudget site World.pauseUncounted p where
  budget o := (h.notes o).budget
  perCall o := by
    have hcall := (h.notes o).call
    split at hcall <;> omega
  afterReply _ _ ha hgrows := h.afterReply ha hgrows
  noRequest o hpaused k m ha := by
    have hgone := (h.notes o).gone hpaused
    have hphase : (p.1.opers o).phase = .receive k := ha.2.1
    rw [hphase] at hgone
    cases hgone
  counted := h.counted
  total := by
    have hle : ∑ o, ((p.1.opers o).pausesDone : ℤ) ≤ ∑ _ : O, site.config.nofPause :=
      Finset.sum_le_sum fun o _ => (h.notes o).budget
    have hcounted := h.counted
    rw [Finset.sum_const, Finset.card_univ, nsmul_eq_mul, site.operators_started] at hle
    zify at hcounted
    omega

/-- Early departures stay within their budget. `load_config` keeps `nof_pause` positive. -/
theorem early_departures_in_budget (site : Site O U) (hpause : 0 ≤ site.config.nofPause)
    (as : List (Act O U)) (h : (poste site).Runs (World.init site) as) :
    PausesInBudget site World.pauseUncounted
      ((postePauses site).after (World.init site, noPauses O) as) := by
  have hruns := ((poste site).runs_withGhost recordPauses (World.init site) (noPauses O) as).mpr h
  have hbooked := (postePauses site).invariant (P := PausesBooked site)
    (pausesBooked_init site hpause) (fun _ _ hp ha => hp.step ha) as hruns
  exact hbooked.inBudget

/-- Operator 0 serves user 0, goes home early and counts it in the first of the two
increments of its section. -/
def officeEarly : List (Act (Fin 2) (Fin 2)) :=
  let q : ServiceRequest := ⟨29999, 0⟩
  officeRequest ++ [.oper 0 (.stillOpen 0), .oper 0 (.receive 0 ⟨30101, .serviceRequest q⟩),
    .oper 0 (.countRequest 0 q)] ++ List.replicate 5 .section ++
  [.oper 0 (.serve 0 q 0), .oper 0 (.reply 0 q 5), .oper 0 (.pause 0 0),
    .oper 0 (.release 0 true), .oper 0 (.signal true), .oper 0 .countPause, .section]

theorem officeEarly_runs :
    (poste office).Runs (World.init office) ((officeNight ++ officeDay) ++ officeEarly) := by
  rw [GuardedSystem.runs_append, officeDay_after]
  exact ⟨officeDay_runs, by decide +kernel⟩

theorem early_departures_in_budget_office : PausesInBudget office World.pauseUncounted
    ((postePauses office).after (World.init office, noPauses (Fin 2))
      ((officeNight ++ officeDay) ++ officeEarly)) :=
  early_departures_in_budget office (by decide) _ officeEarly_runs

/-- The pause is counted before `update_pause_stats` has ended. -/
theorem pause_counted_within_section : ¬ ∀ as : List (Act (Fin 2) (Fin 2)),
    (poste office).Runs (World.init office) as →
    PausesInBudget office World.pauseInProgress
      ((postePauses office).after (World.init office, noPauses (Fin 2)) as) := by
  intro hbudget
  have hcounted := (hbudget _ officeEarly_runs).counted
  rw [postePauses, GuardedSystem.after_withGhost_fst, GuardedSystem.after_append,
    officeDay_after] at hcounted
  exact absurd hcounted (by decide +kernel)

end PosteItaliane
