import PosteItaliane.Framework.Tally
import PosteItaliane.Proofs.ClockOrder
import Mathlib.Algebra.Order.BigOperators.Group.Finset

/-!
# Active operators

An operator is counted as active when it goes home, by an increment of its own, while the
director resets the counter without waiting for anybody. A ghost records how often every
operator has been counted since the last reset, and whether it has taken a seat since then.
As long as nobody works across a reset or takes a seat twice in a day, the counter is a
number of operators.
-/

namespace PosteItaliane

open Framework

/-- The seat has been taken and the shift is not counted yet. -/
def Operatore.Phase.onShift : Operatore.Phase → Bool
  | .boot | .home | .awaitDay | .morning | .awaitOpen | .entered => false
  | .seek | .station | .stationTimeout | .stationFind | .stationRepost | .takeFound _ => false
  | _ => true

/-- The step takes a seat. -/
def Operatore.Act.takesSeat : Operatore.Act → Bool
  | .takeFree _ | .takeFound _ => true
  | _ => false

/-- The ratio of operators to seats that `print_day_stats` shows. -/
def DailyStats.operatorRatio (config : PosteConfig) (d : DailyStats) : ℚ :=
  if 0 < config.numWorkerSeats then (d.activeOperators : ℚ) / config.numWorkerSeats else 0

/-- Since the last reset of `today`: how often each operator has been counted, and who has
taken a seat. `stale` is the number of times an operator was ever counted without having
taken a seat since the last reset. -/
structure ShiftBook (O : Type) where
  counted : O → ℕ
  began : O → Bool
  stale : ℕ

def ShiftBook.empty (O : Type) : ShiftBook O := ⟨fun _ => 0, fun _ => false, 0⟩

variable {O U : Type} [Fintype O] [Fintype U] [DecidableEq O] [DecidableEq U]

def ShiftBook.record (b : ShiftBook O) (w : World O U) : Act O U → ShiftBook O
  | .oper o a => if a.takesSeat then { b with began := Function.update b.began o true } else b
  | .section =>
    match w.sh.stats.holder with
    | some (.operatore o, .todayActiveOperators :: _) =>
      { b with
        counted := Function.update b.counted o (b.counted o + 1)
        stale := if b.began o then b.stale else b.stale + 1 }
    | some (_, .resetToday :: _) =>
      { b with
        counted := fun _ => 0
        began := fun _ => false }
    | _ => b
  | _ => b

/-- The simulation with the shifts that are counted. -/
def posteShifts (site : Site O U) : GuardedSystem (World O U × ShiftBook O) (Act O U) :=
  (poste site).withGhost ShiftBook.record

/-- An operator that takes a seat has not been counted since the last reset, and nobody is on
shift at a reset. -/
def ShiftsWithinDay (p : World O U × ShiftBook O) : Act O U → Prop
  | .oper o a => a.takesSeat = true → p.2.counted o = 0
  | .section => p.1.nextWrite = some .resetToday → ∀ o, (p.1.opers o).phase.onShift = false
  | _ => True

/-- An operator's increment of `today.active_operators`. -/
def activeTally : Tally (Proc O U) PosteStats StatsWrite O where
  counter x := x.today.activeOperators
  client
    | .operatore o => some o
    | _ => none
  incr e := decide (e = .todayActiveOperators)
  clear e := decide (e = .resetToday)
  counter_assign e x := by
    cases e with
    | increment r i => cases r <;> rfl
    | _ => rfl
  incr_of_clear e he := by
    have he : e = .resetToday := of_decide_eq_true he
    subst he
    rfl

/-- The increments that an operator is about to make. -/
def World.activeDue (w : World O U) (o : O) : ℕ := activeTally.due w.sh.stats o

/-- Every operator has been counted at most once since the last reset, and only for a shift
that began after it, so the counter and what is printed of it count operators. -/
structure CountsOperators (site : Site O U) (p : World O U × ShiftBook O) : Prop where
  once : ∀ o, p.2.counted o ≤ 1
  sinceReset : p.2.stale = 0
  people : (p.1.today.activeOperators : ℤ) ≤ site.config.numOperators
  printed : 0 < site.config.numWorkerSeats → ∀ d ∈ p.1.dir.printed,
    d.operatorRatio site.config ≤ site.config.numOperators / site.config.numWorkerSeats

omit [Fintype O] [Fintype U] [DecidableEq U] in
theorem activeDue_of_outside {w : World O U} {o : O}
    (h : w.sh.stats.inside ≠ some (.operatore o)) : w.activeDue o = 0 := by
  apply activeTally.due_of_outside
  intro p ws hholder hp
  cases p with
  | operatore q =>
    cases hp
    exact h (by simp [Monitor.inside, hholder])
  | utente u => cases hp
  | direttore => cases hp

theorem activeDue_keep (site : Site O U) {w : World O U} {a : Act O U} (ha : w.Enabled site a)
    {o : O} (hsection : a ≠ .section) (hcount : a ≠ .oper o .countActive) :
    (w.next site a).activeDue o = w.activeDue o := by
  have hstep := stats_step site w a ha
  unfold World.activeDue
  cases hev : statsEvent site a with
  | none =>
    rw [hev] at hstep
    rw [hstep]
  | some e =>
    rw [hev] at hstep
    cases e with
    | advance => exact absurd ((statsEvent_eq_advance site).mp hev) hsection
    | begin q op =>
      rw [hstep.2, activeTally.due_of_free hstep.1, activeTally.due_enter]
      split
      · next hq =>
        cases a with
        | oper p b =>
          cases b with
          | countRequest k r =>
            cases hev
            simp [StatsOp.body, updateRequestsStats, activeTally]
          | countPause =>
            cases hev
            simp [StatsOp.body, updatePauseStats, activeTally]
          | countActive =>
            cases hev
            cases hq
            exact absurd rfl hcount
          | _ => cases hev
        | user u b => cases b <;> cases hev <;> cases hq
        | ticket b => cases hev
        | director b => cases b <;> cases hev <;> cases hq
        | «section» => exact absurd rfl hsection
      · rfl

theorem activeDue_countActive (site : Site O U) (w : World O U) (o : O) :
    (w.next site (.oper o .countActive)).activeDue o = 1 := by
  have hstats : (w.next site (.oper o .countActive)).sh.stats =
      w.sh.stats.enter (.operatore o) updateActiveOperators := rfl
  rw [World.activeDue, hstats, activeTally.due_enter]
  simp [activeTally, updateActiveOperators]

omit [Fintype O] [Fintype U] [DecidableEq U] in
theorem counted_section (b : ShiftBook O) (w : World O U) :
    (b.record w .section).counted = activeTally.record w.sh.stats b.counted := by
  unfold Tally.record
  simp only [ShiftBook.record]
  cases hholder : w.sh.stats.holder with
  | none => rfl
  | some q =>
    obtain ⟨p, _ | ⟨e, ws⟩⟩ := q
    · cases p <;> rfl
    · cases p <;> cases e <;> rfl

omit [Fintype O] [Fintype U] [DecidableEq U] in
theorem counted_keep (b : ShiftBook O) (w : World O U) {a : Act O U} (ha : a ≠ .section) :
    (b.record w a).counted = b.counted ∧ (b.record w a).stale = b.stale := by
  cases a with
  | oper o c =>
    simp only [ShiftBook.record]
    split <;> exact ⟨rfl, rfl⟩
  | user u c => exact ⟨rfl, rfl⟩
  | ticket c => exact ⟨rfl, rfl⟩
  | director c => exact ⟨rfl, rfl⟩
  | «section» => exact absurd rfl ha

omit [Fintype O] [Fintype U] [DecidableEq O] [DecidableEq U] in
theorem SectionsHeld.counting {w : World O U} (h : SectionsHeld w) {p : Proc O U}
    {ws : List StatsWrite} (hholder : w.sh.stats.holder = some (p, .todayActiveOperators :: ws)) :
    ∃ o, p = .operatore o := by
  have hmade := h.madeBy hholder _ List.mem_cons_self
  cases p with
  | operatore o => exact ⟨o, rfl⟩
  | utente u => exact hmade.elim
  | direttore => exact hmade.elim

omit [DecidableEq O] [DecidableEq U] in
theorem onShift_own {site : Site O U} {o : O} {l : Operatore.Local} {sh : Shared O U}
    {b : Operatore.Act} (hb : Operatore.Enabled site o l sh b)
    (h : (Operatore.next site o l sh b).1.phase.onShift = true) :
    l.phase.onShift = true ∨ b.takesSeat = true := by
  cases b <;> simp only [Operatore.Enabled] at hb <;> simp only [Operatore.next] at h <;>
    grind [Operatore.Phase.onShift, Operatore.Act.takesSeat]

/-- An operator on shift has not been counted since the last reset and has taken its seat
after it, and it is counted once. -/
structure ShiftBook.Own (b : ShiftBook O) (w : World O U) (o : O) : Prop where
  once : b.counted o + w.activeDue o ≤ 1
  working : (w.opers o).phase.onShift = true → b.counted o + w.activeDue o = 0 ∧ b.began o = true
  due : 0 < w.activeDue o → b.began o = true

theorem ShiftBook.Own.own_step {site : Site O U} {b : ShiftBook O} {w : World O U} {o : O}
    (h : b.Own w o) {c : Operatore.Act} (ha : w.Enabled site (.oper o c))
    (hseat : c.takesSeat = true → b.counted o = 0) :
    (b.record w (.oper o c)).Own (w.next site (.oper o c)) o := by
  have hzero := activeDue_of_outside ha.1
  have honce := h.once
  have hworking := h.working
  rw [hzero] at honce hworking
  have hcounted := (counted_keep b w (a := .oper o c) (by simp)).1
  have hlocal : (w.next site (.oper o c)).opers o =
      (Operatore.next site o (w.opers o) w.sh c).1 := by simp [World.next]
  have hbegan : (b.record w (.oper o c)).began o = (b.began o || c.takesSeat) := by
    simp only [ShiftBook.record]
    cases hc : c.takesSeat <;> simp
  by_cases hcount : c = .countActive
  · subst hcount
    have hphase : (w.opers o).phase = .countActive := ha.2.1
    obtain ⟨hnone, hstarted⟩ := hworking (by rw [hphase]; rfl)
    have hnext := activeDue_countActive site w o
    constructor
    · rw [hcounted, hnext]
      omega
    · intro hshift
      rw [hlocal] at hshift
      cases hshift
    · intro _
      simp [hbegan, hstarted]
  · have hnext := activeDue_keep site ha (o := o) (by simp) (by simp [hcount])
    rw [hzero] at hnext
    constructor
    · rw [hcounted, hnext]
      exact honce
    · intro hshift
      rw [hlocal] at hshift
      rw [hcounted, hnext, hbegan]
      rcases onShift_own ha.2 hshift with hold | htakes
      · simpa using And.intro (hworking hold).1 (Or.inl (hworking hold).2)
      · simp [hseat htakes, htakes]
    · intro hpos
      omega

theorem ShiftBook.Own.other_step {site : Site O U} {b : ShiftBook O} {w : World O U} {o : O}
    (h : b.Own w o) {a : Act O U} (ha : w.Enabled site a) (hsection : a ≠ .section)
    (hother : a.process ≠ some (.operatore o)) : (b.record w a).Own (w.next site a) o := by
  have hcounted := (counted_keep b w hsection).1
  have hdue : (w.next site a).activeDue o = w.activeDue o := by
    apply activeDue_keep site ha hsection
    intro hcount
    rw [hcount] at hother
    exact hother rfl
  have hlocal : (w.next site a).opers o = w.opers o := by
    rcases oper_step site ha o with hsame | ⟨c, rfl, -, -⟩
    · exact hsame
    · exact absurd rfl hother
  have hbegan : (b.record w a).began o = b.began o := by
    cases a with
    | oper q c =>
      have hq : o ≠ q := by
        intro hq
        subst hq
        exact hother rfl
      simp only [ShiftBook.record]
      split
      · exact Function.update_of_ne hq _ _
      · rfl
    | user u c => rfl
    | ticket c => rfl
    | director c => rfl
    | «section» => exact absurd rfl hsection
  constructor
  · rw [hcounted, hdue]
    exact h.once
  · rw [hlocal, hcounted, hdue, hbegan]
    exact h.working
  · rw [hdue, hbegan]
    exact h.due

omit [Fintype O] [Fintype U] [DecidableEq U] in
theorem began_section {b : ShiftBook O} {w : World O U} (h : w.nextWrite ≠ some .resetToday) :
    (b.record w .section).began = b.began := by
  simp only [ShiftBook.record]
  cases hholder : w.sh.stats.holder with
  | none => rfl
  | some q =>
    obtain ⟨p, _ | ⟨e, ws⟩⟩ := q
    · cases p <;> rfl
    · have he : e ≠ .resetToday := by
        intro he
        exact h (by simp [World.nextWrite, hholder, he])
      cases p <;> cases e <;> first | rfl | exact absurd rfl he

theorem ShiftBook.Own.section_step {site : Site O U} {b : ShiftBook O} {w : World O U} {o : O}
    (h : b.Own w o) (hheld : SectionsHeld w)
    (hreset : w.nextWrite = some .resetToday → ∀ o, (w.opers o).phase.onShift = false) :
    (b.record w .section).Own (w.next site .section) o := by
  have hnext : (w.next site .section).sh.stats = w.sh.stats.advance := rfl
  have hopers : (w.next site .section).opers o = w.opers o := rfl
  by_cases hclear : w.nextWrite = some .resetToday
  · obtain ⟨ws, hholder⟩ := hheld.directorWrites hclear rfl
    have hdue : (w.next site .section).activeDue o = 0 := by
      apply activeDue_of_outside
      simp [hnext, Monitor.advance_cons hholder, Monitor.inside]
    have hcounted : (b.record w .section).counted o = 0 := by
      simp [ShiftBook.record, hholder]
    constructor
    · omega
    · intro hshift
      rw [hopers, hreset hclear o] at hshift
      cases hshift
    · omega
  · have hle : (b.record w .section).counted o + (w.next site .section).activeDue o ≤
        b.counted o + w.activeDue o := by
      rw [counted_section, World.activeDue, hnext]
      exact activeTally.record_add_due_le b.counted o
    have hle' : (w.next site .section).activeDue o ≤ w.activeDue o :=
      activeTally.due_advance_le o
    have hbegan := began_section (b := b) hclear
    constructor
    · exact hle.trans h.once
    · intro hshift
      obtain ⟨hzero, hstarted⟩ := h.working hshift
      rw [hbegan]
      exact ⟨by omega, hstarted⟩
    · intro hpos
      rw [hbegan]
      exact h.due (by omega)

omit [Fintype O] [Fintype U] [DecidableEq U] in
theorem stale_section {b : ShiftBook O} {w : World O U} (h : ∀ o, b.Own w o) :
    (b.record w .section).stale = b.stale := by
  simp only [ShiftBook.record]
  split
  · next o ws hholder =>
    have hstarted : b.began o = true := by
      apply (h o).due
      simp [World.activeDue, Tally.due, hholder, activeTally]
    simp [hstarted]
  · rfl
  · rfl

/-- The counter is the sum of the book, and no day that was printed counted more operators
than there are. -/
structure ShiftsBooked (p : World O U × ShiftBook O) : Prop where
  held : SectionsHeld p.1
  own : ∀ o, p.2.Own p.1 o
  total : p.1.today.activeOperators = ∑ o, p.2.counted o
  stale : p.2.stale = 0
  printed : ∀ d ∈ p.1.dir.printed, d.activeOperators ≤ Fintype.card O

omit [Fintype U] [DecidableEq U] in
theorem ShiftsBooked.today_le {p : World O U × ShiftBook O} (h : ShiftsBooked p) :
    p.1.today.activeOperators ≤ Fintype.card O := by
  have hsum : ∑ o, p.2.counted o ≤ ∑ _ : O, 1 := by
    apply Finset.sum_le_sum
    intro o _
    exact (Nat.le_add_right _ _).trans (h.own o).once
  rw [h.total]
  simpa using hsum

theorem ShiftsBooked.own_step {site : Site O U} {p : World O U × ShiftBook O}
    (h : ShiftsBooked p) {a : Act O U} (ha : p.1.Enabled site a) (hday : ShiftsWithinDay p a)
    (o : O) : (p.2.record p.1 a).Own (p.1.next site a) o := by
  cases a with
  | oper q c =>
    by_cases hq : q = o
    · subst hq
      exact (h.own q).own_step ha hday
    · exact (h.own o).other_step ha (by simp) (by simpa using hq)
  | user u c => exact (h.own o).other_step ha (by simp) (by simp)
  | ticket c => exact (h.own o).other_step ha (by simp) (by simp)
  | director c => exact (h.own o).other_step ha (by simp) (by simp)
  | «section» => exact (h.own o).section_step h.held hday

theorem ShiftsBooked.total_step {site : Site O U} {p : World O U × ShiftBook O}
    (h : ShiftsBooked p) {a : Act O U} (ha : p.1.Enabled site a) :
    (p.1.next site a).today.activeOperators = ∑ o, (p.2.record p.1 a).counted o := by
  by_cases hsection : a = .section
  · subst hsection
    rw [counted_section]
    apply activeTally.counter_advance
    · intro q e ws hholder hincr
      have he : e = .todayActiveOperators := of_decide_eq_true hincr
      subst he
      obtain ⟨o, rfl⟩ := h.held.counting hholder
      exact ⟨o, rfl⟩
    · exact h.total
  · rw [(counted_keep p.2 p.1 hsection).1, ← h.total]
    rw [World.today, value_step site ha hsection]
    rfl

theorem ShiftsBooked.printed_step {site : Site O U} {p : World O U × ShiftBook O}
    (h : ShiftsBooked p) (a : Act O U) :
    ∀ d ∈ (p.1.next site a).dir.printed, d.activeOperators ≤ Fintype.card O := by
  intro d hd
  cases a with
  | director c =>
    cases c <;> try exact h.printed d hd
    case printDayStats =>
      have hcases : d ∈ p.1.dir.printed ∨ d = p.1.today := by
        simpa [World.next, Direttore.next, World.today] using hd
      rcases hcases with hold | htoday
      · exact h.printed d hold
      · rw [htoday]
        exact h.today_le
  | oper o c => exact h.printed d hd
  | user u c => exact h.printed d hd
  | ticket c => exact h.printed d hd
  | «section» => exact h.printed d hd

theorem ShiftsBooked.step {site : Site O U} {p : World O U × ShiftBook O} (h : ShiftsBooked p)
    {a : Act O U} (ha : p.1.Enabled site a) (hday : ShiftsWithinDay p a) :
    ShiftsBooked ((posteShifts site).next p a) where
  held := h.held.step ha
  own := h.own_step ha hday
  total := h.total_step ha
  stale := by
    by_cases hsection : a = .section
    · subst hsection
      exact (stale_section h.own).trans h.stale
    · exact (counted_keep p.2 p.1 hsection).2.trans h.stale
  printed := h.printed_step a

theorem shiftsBooked_init (site : Site O U) :
    ShiftsBooked (World.init site, ShiftBook.empty O) where
  held := sectionsHeld_init site
  own o := by
    have hdue : (World.init site).activeDue o = 0 := rfl
    constructor
    · rw [hdue]
      exact Nat.zero_le 1
    · intro hshift
      cases hshift
    · intro hpos
      cases hdue.symm.trans_lt hpos
  total := Finset.sum_const_zero.symm
  stale := rfl
  printed d hd := by cases hd

omit [DecidableEq U] in
theorem ShiftsBooked.countsOperators {site : Site O U} {p : World O U × ShiftBook O}
    (h : ShiftsBooked p) : CountsOperators site p where
  once o := (Nat.le_add_right _ _).trans (h.own o).once
  sinceReset := h.stale
  people := by
    rw [← site.operators_started]
    exact_mod_cast h.today_le
  printed := by
    intro hseats d hd
    have hle : (d.activeOperators : ℚ) ≤ site.config.numOperators := by
      rw [← site.operators_started]
      exact_mod_cast h.printed d hd
    rw [DailyStats.operatorRatio, if_pos hseats]
    have hpos : (0 : ℚ) ≤ site.config.numWorkerSeats := by exact_mod_cast hseats.le
    exact div_le_div_of_nonneg_right hle hpos

/-- In a run in which nobody works across a reset or takes a seat after it has been counted
for the day, the active operators are people. -/
theorem active_operators_counted_once (site : Site O U) (as : List (Act O U))
    (h : ((posteShifts site).restrict ShiftsWithinDay).Runs
      (World.init site, ShiftBook.empty O) as) :
    CountsOperators site ((posteShifts site).after (World.init site, ShiftBook.empty O) as) := by
  have hbooked := ((posteShifts site).restrict ShiftsWithinDay).invariant (P := ShiftsBooked)
    (shiftsBooked_init site) (fun _ _ hp ha => hp.step ha.1 ha.2) as h
  exact hbooked.countsOperators

instance decidableShiftsWithinDay (p : World O U × ShiftBook O) (a : Act O U) :
    Decidable (ShiftsWithinDay p a) := by
  rcases a with _ | _ <;> (dsimp only [ShiftsWithinDay]; infer_instance)

instance decidablePosteShifts (site : Site O U) (p : World O U × ShiftBook O) (a : Act O U) :
    Decidable ((posteShifts site).Enabled p a) :=
  inferInstanceAs (Decidable (p.1.Enabled site a))

theorem shifts_quiet_minute {site : Site O U} {p : World O U × ShiftBook O} {m : ℤ}
    (h : Idle site p.1 m) (hq : Quiet site m) :
    ((posteShifts site).restrict ShiftsWithinDay).Runs p (quietMinute m) ∧
      (posteShifts site).after p (quietMinute m) = (p.1.atMinute (m + 1), p.2) := by
  obtain ⟨hphase, hminute, hday, hfree⟩ := h
  obtain ⟨hopen, hclose, hmid⟩ := hq
  obtain ⟨⟨sh, opers, users, ticket, ⟨phase, minutes, days, numUsers, printed⟩⟩, b⟩ := p
  obtain ⟨⟨value, holder⟩, openE, closeE, dayE, seats, stE, frE, queue⟩ := sh
  simp only at hphase hminute hday
  have hholder : holder = none := hfree
  subst hphase hminute hholder
  refine ⟨?_, rfl⟩
  simp [quietMinute, GuardedSystem.Runs, GuardedSystem.restrict, posteShifts, poste,
    GuardedSystem.withGhost, ShiftsWithinDay, World.nextWrite, World.Enabled, World.next,
    World.CanStart, Direttore.Enabled, Direttore.next, Monitor.inside, Monitor.Free,
    Monitor.enter, Monitor.advance, publishMinute, hday, hopen, hclose]
  -- it is not midnight
  omega

theorem runs_quiet_shifts {site : Site O U} {p : World O U × ShiftBook O} {m : ℤ}
    (h : Idle site p.1 m) (k : ℕ) (hq : ∀ i, m ≤ i → i ≤ m + k → Quiet site i)
    (as : List (Act O U)) :
    ((posteShifts site).restrict ShiftsWithinDay).Runs p (quietMinutes m (k + 1) ++ as) ↔
      ((posteShifts site).restrict ShiftsWithinDay).Runs (p.1.atMinute (m + k + 1), p.2) as :=
  runs_quiet_ghost shifts_quiet_minute h k hq as

theorem active_operators_counted_once_counter : CountsOperators oneCounter
    ((posteShifts oneCounter).after (World.init oneCounter, ShiftBook.empty (Fin 1))
      counterNight) := by
  apply active_operators_counted_once
  rw [counterNight, counterEvening, GuardedSystem.runs_append, GuardedSystem.restrict_after]
  refine ⟨by decide, ?_⟩
  apply (runs_quiet_shifts ?_ 478 oneCounter_quiet_morning _).mpr
  · rw [GuardedSystem.runs_append, GuardedSystem.restrict_after]
    refine ⟨by decide, ?_⟩
    apply (runs_quiet_shifts ?_ 718 oneCounter_quiet_afternoon _).mpr
    · rw [GuardedSystem.runs_append, GuardedSystem.restrict_after]
      refine ⟨by decide, ?_⟩
      apply (runs_quiet_shifts ?_ 238 oneCounter_quiet_evening _).mpr
      · decide
      · exact ⟨by decide, by decide, by decide, by decide⟩
    · exact ⟨by decide, by decide, by decide, by decide⟩
  · exact ⟨by decide, by decide, by decide, by decide⟩

/-- The second day begins before the operator has been counted for the first. It is counted
then, and works on the second day as well. -/
def countedNextDay : List (Act (Fin 1) (Fin 1)) :=
  midnight 2 ++ [Act.director (.resetSeats fun _ => 0)] ++ wakeUps 2 ++
    [Act.oper 0 .countActive, .section, .section, .section, .oper 0 .waitDay, .oper 0 .wake,
      .oper 0 .waitOpen]

def secondShift : List (Act (Fin 1) (Fin 1)) :=
  counterShift ++ (countedNextDay ++ (quietMinutes 1 479 ++ (sitDown ++ (quietMinutes 481 719 ++
    counterHomeward))))

def secondAtOpening : World (Fin 1) (Fin 1) :=
  ((poste oneCounter).after counterAtMidnight countedNextDay).atMinute 480

def secondAtClosing : World (Fin 1) (Fin 1) :=
  ((poste oneCounter).after secondAtOpening sitDown).atMinute 1200

theorem second_idle_morning :
    Idle oneCounter ((poste oneCounter).after counterAtMidnight countedNextDay) 1 :=
  ⟨by decide, by decide, by decide, by decide⟩

theorem second_idle_afternoon :
    Idle oneCounter ((poste oneCounter).after secondAtOpening sitDown) 481 :=
  ⟨by decide, by decide, by decide, by decide⟩

theorem secondShift_after : (poste oneCounter).after (World.init oneCounter) secondShift =
    (poste oneCounter).after secondAtClosing counterHomeward := by
  rw [secondShift, counterShift_after, GuardedSystem.after_append,
    after_quiet second_idle_morning 478 oneCounter_quiet_morning, GuardedSystem.after_append]
  exact after_quiet second_idle_afternoon 718 oneCounter_quiet_afternoon _

theorem secondShift_runs : (poste oneCounter).Runs (World.init oneCounter) secondShift := by
  apply counterShift_runs
  rw [GuardedSystem.runs_append]
  refine ⟨by decide, ?_⟩
  apply (runs_quiet second_idle_morning 478 oneCounter_quiet_morning _).mpr
  rw [GuardedSystem.runs_append]
  refine ⟨by decide, ?_⟩
  apply (runs_quiet second_idle_afternoon 718 oneCounter_quiet_afternoon _).mpr
  decide

/-- Two shifts of the only operator are counted on the second day. -/
theorem operator_counted_twice : ¬ ∀ as : List (Act (Fin 1) (Fin 1)),
    (poste oneCounter).Runs (World.init oneCounter) as →
    CountsOperators oneCounter
      ((posteShifts oneCounter).after (World.init oneCounter, ShiftBook.empty (Fin 1)) as) := by
  intro hcounts
  have hpeople := (hcounts secondShift secondShift_runs).people
  have hworld : ((posteShifts oneCounter).after
      (World.init oneCounter, ShiftBook.empty (Fin 1)) secondShift).1 =
      (poste oneCounter).after secondAtClosing counterHomeward := by
    rw [posteShifts, GuardedSystem.after_withGhost_fst, secondShift_after]
  rw [hworld] at hpeople
  exact absurd hpeople (by decide)

end PosteItaliane
