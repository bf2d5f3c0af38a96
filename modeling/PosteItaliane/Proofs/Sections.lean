import PosteItaliane.Proofs.StatsConservation

/-!
# Who is inside a section

The process that holds `stats_lock` has the rest of a section of its own program to
execute. In particular the daily statistics, the day and the minute are set by the director
alone, and the director is inside at two places only.
-/

namespace PosteItaliane

open Framework

variable {O U : Type}

/-- The program a function belongs to. -/
def StatsOp.CalledBy : StatsOp → Proc O U → Prop
  | .updateRequestsStats _, .operatore _ | .updatePauseStats, .operatore _ => True
  | .updateActiveOperators, .operatore _ => True
  | .updateFailsStats _, .utente _ | .updateSuccessStats _ _ _, .utente _ => True
  | .handleLateUsers _ _, .utente _ => True
  | .startNewDay _, .direttore | .publishMinute _, .direttore => True
  | _, _ => False

/-- An assignment of a section of the director. -/
def StatsWrite.ofDirector : StatsWrite → Bool
  | .setCurrentDay _ | .resetToday | .setCurrentMinute _ => true
  | _ => false

/-- The program an assignment belongs to. -/
def StatsWrite.MadeBy : StatsWrite → Proc O U → Prop
  | .increment _ .totalRequests, .operatore _ => True
  | .increment _ .totalRequests, _ => False
  | .increment _ _, .utente _ | .todayLateUsers, .utente _ => True
  | .totalActiveOperators, .operatore _ | .todayActiveOperators, .operatore _ => True
  | .totalSimulationPauses, .operatore _ | .todayTotalPauses, .operatore _ => True
  | .setCurrentDay _, .direttore | .resetToday, .direttore | .setCurrentMinute _, .direttore => True
  | _, _ => False

theorem madeBy_of_calledBy {op : StatsOp} {p : Proc O U} (hop : op.CalledBy p) :
    ∀ e ∈ op.body, e.MadeBy p := by
  cases p with
  | operatore o =>
    cases op <;> first | exact hop.elim | skip
    all_goals
      simp [StatsOp.body, updateRequestsStats, updatePauseStats, updateActiveOperators,
        StatsWrite.MadeBy]
  | utente u =>
    cases op <;> first | exact hop.elim | skip
    case handleLateUsers beenLate s =>
      cases beenLate <;> simp [StatsOp.body, handleLateUsers, StatsWrite.MadeBy]
    all_goals simp [StatsOp.body, updateFailsStats, updateSuccessStats, StatsWrite.MadeBy]
  | direttore =>
    cases op <;> first | exact hop.elim | skip
    all_goals simp [StatsOp.body, resetDailyStats, publishMinute, StatsWrite.MadeBy]

theorem StatsWrite.MadeBy.ofDirector {e : StatsWrite} {p : Proc O U} (h : e.MadeBy p)
    (hp : p ≠ .direttore) : e.ofDirector = false := by
  cases e with
  | setCurrentDay day => cases p <;> first | exact absurd rfl hp | exact h.elim
  | resetToday => cases p <;> first | exact absurd rfl hp | exact h.elim
  | setCurrentMinute minute => cases p <;> first | exact absurd rfl hp | exact h.elim
  | _ => rfl

/-- What the holder of `stats_lock` has still to do. -/
structure SectionsHeld (w : World O U) : Prop where
  called : ∀ p ws, w.sh.stats.holder = some (p, ws) →
    ∃ op : StatsOp, op.CalledBy p ∧ ws <:+ op.body
  director : ∀ ws, w.sh.stats.holder = some (.direttore, ws) →
    w.dir.phase = .resetSeats ∧ ws <:+ resetDailyStats w.dir.daysElapsed ∨
    w.dir.phase = .loop ∧ ws <:+ publishMinute w.dir.minutesElapsed

theorem SectionsHeld.madeBy {w : World O U} (h : SectionsHeld w) {p : Proc O U}
    {ws : List StatsWrite} (hholder : w.sh.stats.holder = some (p, ws)) :
    ∀ e ∈ ws, e.MadeBy p := by
  obtain ⟨op, hop, hsuffix⟩ := h.called p ws hholder
  intro e he
  exact madeBy_of_calledBy hop e (hsuffix.subset he)

theorem SectionsHeld.ofDirector {w : World O U} (h : SectionsHeld w) {p : Proc O U}
    {ws : List StatsWrite} (hholder : w.sh.stats.holder = some (p, ws)) (hp : p ≠ .direttore) :
    ∀ e ∈ ws, e.ofDirector = false := by
  intro e he
  exact (h.madeBy hholder e he).ofDirector hp

theorem SectionsHeld.not_inside {w : World O U} (h : SectionsHeld w)
    (hseats : w.dir.phase ≠ .resetSeats) (hloop : w.dir.phase ≠ .loop) (ws : List StatsWrite) :
    w.sh.stats.holder ≠ some (.direttore, ws) := by
  intro hholder
  rcases h.director ws hholder with ⟨hphase, -⟩ | ⟨hphase, -⟩
  · exact hseats hphase
  · exact hloop hphase

variable [Fintype O] [Fintype U] [DecidableEq O] [DecidableEq U]

omit [DecidableEq O] [DecidableEq U] in
theorem statsEvent_calledBy {site : Site O U} {a : Act O U} {p : Proc O U} {op : StatsOp}
    (h : statsEvent site a = some (.begin p op)) : op.CalledBy p := by
  cases a with
  | oper o b => cases b <;> cases h <;> trivial
  | user u b => cases b <;> cases h <;> trivial
  | ticket b => cases h
  | director b => cases b <;> cases h <;> trivial
  | «section» => cases h

/-- The holder after a step has begun its section, has made an assignment, or was there. -/
theorem holder_step (site : Site O U) {w : World O U} {a : Act O U} (ha : w.Enabled site a)
    {p : Proc O U} {ws : List StatsWrite}
    (h : (w.next site a).sh.stats.holder = some (p, ws)) :
    w.sh.stats.holder = some (p, ws) ∨ (∃ e, w.sh.stats.holder = some (p, e :: ws)) ∨
      ∃ op, statsEvent site a = some (.begin p op) ∧ ws = op.body := by
  have hstep := stats_step site w a ha
  cases hev : statsEvent site a with
  | none =>
    rw [hev] at hstep
    rw [hstep] at h
    exact Or.inl h
  | some e =>
    rw [hev] at hstep
    cases e with
    | begin q op =>
      rw [hstep.2] at h
      cases h
      exact Or.inr (Or.inr ⟨op, rfl, rfl⟩)
    | advance =>
      rw [hstep.2] at h
      exact Or.inr (Or.inl (Monitor.holder_of_advance h))

theorem SectionsHeld.called_step {site : Site O U} {w : World O U} (h : SectionsHeld w)
    {a : Act O U} (ha : w.Enabled site a) {p : Proc O U} {ws : List StatsWrite}
    (hholder : (w.next site a).sh.stats.holder = some (p, ws)) :
    ∃ op : StatsOp, op.CalledBy p ∧ ws <:+ op.body := by
  rcases holder_step site ha hholder with hold | ⟨e, hold⟩ | ⟨op, hev, rfl⟩
  · exact h.called p ws hold
  · obtain ⟨op, hop, hsuffix⟩ := h.called p _ hold
    exact ⟨op, hop, (List.suffix_cons e ws).trans hsuffix⟩
  · exact ⟨op, statsEvent_calledBy hev, List.suffix_rfl⟩

theorem SectionsHeld.director_keep {site : Site O U} {w : World O U} (h : SectionsHeld w)
    {a : Act O U} (ha : w.Enabled site a)
    (hother : a.process ≠ some .direttore) {ws : List StatsWrite}
    (hholder : (w.next site a).sh.stats.holder = some (.direttore, ws)) :
    w.dir.phase = .resetSeats ∧ ws <:+ resetDailyStats w.dir.daysElapsed ∨
    w.dir.phase = .loop ∧ ws <:+ publishMinute w.dir.minutesElapsed := by
  rcases holder_step site ha hholder with hold | ⟨e, hold⟩ | ⟨op, hop, -⟩
  · exact h.director ws hold
  · rcases h.director _ hold with ⟨hphase, hsuffix⟩ | ⟨hphase, hsuffix⟩
    · exact Or.inl ⟨hphase, (List.suffix_cons e ws).trans hsuffix⟩
    · exact Or.inr ⟨hphase, (List.suffix_cons e ws).trans hsuffix⟩
  · exact absurd (process_of_begin hop) hother

theorem SectionsHeld.director_step {site : Site O U} {w : World O U} {b : Direttore.Act U}
    (ha : w.Enabled site (.director b)) {ws : List StatsWrite}
    (hholder : (w.next site (.director b)).sh.stats.holder = some (.direttore, ws)) :
    (w.next site (.director b)).dir.phase = .resetSeats ∧
        ws <:+ resetDailyStats (w.next site (.director b)).dir.daysElapsed ∨
      (w.next site (.director b)).dir.phase = .loop ∧
        ws <:+ publishMinute (w.next site (.director b)).dir.minutesElapsed := by
  obtain ⟨hout, he, -⟩ := ha
  have hquiet (hsame : (w.next site (.director b)).sh.stats = w.sh.stats) : False := by
    rw [hsame] at hholder
    exact hout (by simp [Monitor.inside, hholder])
  cases b <;> try exact (hquiet rfl).elim
  case resetStats day =>
    obtain ⟨-, rfl, -⟩ := he
    cases hholder
    exact Or.inl ⟨rfl, List.suffix_rfl⟩
  case publishMinute minute =>
    cases hholder
    exact Or.inr ⟨rfl, List.suffix_rfl⟩

theorem SectionsHeld.step {site : Site O U} {w : World O U} (h : SectionsHeld w) {a : Act O U}
    (ha : w.Enabled site a) : SectionsHeld (w.next site a) where
  called _ _ hholder := h.called_step ha hholder
  director ws hholder := by
    cases a with
    | director b => exact director_step ha hholder
    | oper o b => exact h.director_keep ha (by simp) hholder
    | user u b => exact h.director_keep ha (by simp) hholder
    | ticket b => exact h.director_keep ha (by simp) hholder
    | «section» => exact h.director_keep ha (by simp) hholder

omit [DecidableEq O] in
theorem sectionsHeld_init (site : Site O U) : SectionsHeld (World.init site) where
  called _ _ h := by cases h
  director _ h := by cases h

theorem sectionsHeld_run (site : Site O U) (as : List (Act O U))
    (h : (poste site).Runs (World.init site) as) :
    SectionsHeld ((poste site).after (World.init site) as) :=
  (poste site).invariant (sectionsHeld_init site) (fun _ _ hw ha => hw.step ha) as h

theorem pending_of_section (site : Site O U) {w : World O U} (ha : w.Enabled site .section) :
    (w.next site .section).sh.stats.Free ∨
      (w.next site .section).sh.stats.pending.length < w.sh.stats.pending.length := by
  rcases section_cases site ha with ⟨p, -, hnext⟩ | ⟨p, x, ws, hholder, hnext⟩
  · left
    rw [hnext]
    rfl
  · right
    rw [hnext]
    simp [Monitor.pending, hholder]

theorem stats_of_other (site : Site O U) {w : World O U} {a : Act O U} (ha : w.Enabled site a)
    (hheld : ¬ w.sh.stats.Free) (hother : a ≠ .section) :
    (w.next site a).sh.stats = w.sh.stats := by
  have hstep := stats_step site w a ha
  cases hev : statsEvent site a with
  | none =>
    rw [hev] at hstep
    exact hstep
  | some x =>
    rw [hev] at hstep
    cases x with
    | begin p op => exact absurd hstep.1 hheld
    | advance => exact absurd ((statsEvent_eq_advance site).mp hev) hother

end PosteItaliane
