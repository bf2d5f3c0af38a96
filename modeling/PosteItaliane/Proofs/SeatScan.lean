import PosteItaliane.Model.SeatScan
import PosteItaliane.Proofs.UserSeats
import PosteItaliane.Proofs.Wakeups

/-!
# The seat table read seat by seat

Taking an unlocked loop over the seats as one step is harmless in one direction: every run of
the simulation is a run in which the loops are taken seat by seat. The other way round an
operator may find a seat, or none, that no single look at the table would have given. Still
only its own phase changes, so what the table says about operators and users stays right, and
no free seat stays unnoticed.
-/

namespace PosteItaliane

open Framework

variable {O U : Type} [Fintype O] [Fintype U] [DecidableEq O] [DecidableEq U]

/-- What the loop of operator `o` may end with when the seats are as they are. -/
def Scan.Result (site : Site O U) (seats : SeatTable) (o : O) (c : Scan) (b : Operatore.Act) :
    Prop :=
  b = c.failed ∨ ∃ i < site.numSeats,
    c.accepts (site.userService o) (seats i) = true ∧ b = c.found i

theorem look_cases (site : Site O U) {s : Scanning O U} {o : O}
    (h : s.Enabled site (.look o)) : ∃ c, (s.world.opers o).phase.scan = some c ∧
      ((s.index o < site.numSeats ∧
          c.accepts (site.userService o) (s.world.sh.seats (s.index o)) = false ∧
          s.next site (.look o) = ⟨s.world, Function.update s.index o (s.index o + 1)⟩) ∨
        (s.index o < site.numSeats ∧
          c.accepts (site.userService o) (s.world.sh.seats (s.index o)) = true ∧
          s.next site (.look o) = s.leave site o (c.found (s.index o))) ∨
        site.numSeats ≤ s.index o ∧ s.next site (.look o) = s.leave site o c.failed) := by
  obtain ⟨c, hc⟩ := Option.isSome_iff_exists.mp h.2
  refine ⟨c, hc, ?_⟩
  have hnext : s.next site (.look o) = s.look site o c := by simp only [Scanning.next, hc]
  rw [hnext, Scanning.look]
  split
  · rename_i hlt
    split
    · rename_i haccepts
      exact Or.inr (Or.inl ⟨hlt, haccepts, rfl⟩)
    · rename_i haccepts
      exact Or.inl ⟨hlt, by simpa using haccepts, rfl⟩
  · rename_i hge
    exact Or.inr (Or.inr ⟨by omega, rfl⟩)

/-- Looking at a seat changes nothing, or is the step with the result of the loop. -/
theorem look_result (site : Site O U) {s : Scanning O U} {o : O}
    (h : s.Enabled site (.look o)) : ∃ c, (s.world.opers o).phase.scan = some c ∧
      ((s.next site (.look o)).world = s.world ∨ ∃ b, c.Result site s.world.sh.seats o b ∧
        s.next site (.look o) = s.leave site o b) := by
  obtain ⟨c, hscan, ⟨-, -, hnext⟩ | ⟨hlt, haccepts, hnext⟩ | ⟨-, hnext⟩⟩ := look_cases site h
  · exact ⟨c, hscan, Or.inl (by rw [hnext])⟩
  · exact ⟨c, hscan, Or.inr ⟨_, Or.inr ⟨_, hlt, haccepts, rfl⟩, hnext⟩⟩
  · exact ⟨c, hscan, Or.inr ⟨_, Or.inl rfl, hnext⟩⟩

/-- A condition on the steps of the simulation, which looking at a seat always meets. -/
def Scanning.Meets (C : World O U → Act O U → Prop) (s : Scanning O U) : ScanAct O U → Prop
  | .step a => C s.world a
  | .look _ => True

instance (C : World O U → Act O U → Prop) [∀ w a, Decidable (C w a)] (s : Scanning O U) :
    ∀ a : ScanAct O U, Decidable (s.Meets C a)
  | .step a => inferInstanceAs (Decidable (C s.world a))
  | .look _ => isTrue trivial

/-- What refines another system in the simulation does so here, if the results of the loops are
invisible to it. -/
theorem scan_refines {τ β : Type*} {site : Site O U} {T : GuardedSystem τ β}
    {R : World O U → τ → Prop} {f : Act O U → Option β} {C : World O U → Act O U → Prop}
    (href : ((poste site).restrict C).Refines T R f)
    (hresult : ∀ w g o c b, R w g → (w.opers o).phase.scan = some c →
      c.Result site w.sh.seats o b → R (w.next site (.oper o b)) g) :
    ((posteScan site).restrict (Scanning.Meets C)).Refines T (fun s g => R s.world g)
      fun a => a.step?.bind f := by
  rintro s g a hR ⟨ha, hC⟩
  cases a with
  | step a => exact href s.world g a hR ⟨ha.1, hC⟩
  | look o =>
    obtain ⟨c, hscan, hkeep | ⟨b, hb, hnext⟩⟩ := look_result site ha
    · show R (s.next site (.look o)).world g
      rw [hkeep]
      exact hR
    · show R (s.next site (.look o)).world g
      rw [hnext]
      exact hresult s.world g o c b hR hscan hb

/-- What the steps of the simulation and the results of the loops keep holds in every run. -/
theorem scan_invariant {site : Site O U} {P : World O U → Prop}
    (hstep : ∀ w a, P w → w.Enabled site a → P (w.next site a))
    (hresult : ∀ w o c b, P w → (w.opers o).phase.scan = some c →
      c.Result site w.sh.seats o b → P (w.next site (.oper o b)))
    {s : Scanning O U} (h0 : P s.world) (as : List (ScanAct O U))
    (h : (posteScan site).Runs s as) : P ((posteScan site).after s as).world := by
  refine (posteScan site).invariant (P := fun s => P s.world) h0 (fun s a hs ha => ?_) as h
  cases a with
  | step a => exact hstep s.world a hs ha.1
  | look o =>
    obtain ⟨c, hscan, hkeep | ⟨b, hb, hnext⟩⟩ := look_result site ha
    · show P (s.next site (.look o)).world
      rw [hkeep]
      exact hs
    · show P (s.next site (.look o)).world
      rw [hnext]
      exact hresult s.world o c b hs hscan hb

/-- The first seat that passes the test, if there is one. -/
def Scan.first (site : Site O U) (seats : SeatTable) (o : O) (c : Scan) : Option ℕ :=
  firstSeat site.numSeats fun i => c.accepts (site.userService o) (seats i)

/-- The result of a loop that nobody interrupts. -/
def Scan.outcome (site : Site O U) (seats : SeatTable) (o : O) (c : Scan) : Operatore.Act :=
  (c.first site seats o).elim c.failed c.found

theorem scan_phase {p : Operatore.Phase} {c : Scan} (h : p.scan = some c) :
    p = match c with
      | .canWorkToday => .entered
      | .findSeat => .stationFind := by
  cases p <;> cases h <;> rfl

omit [DecidableEq O] [DecidableEq U] in
theorem first_canWorkToday (site : Site O U) (seats : SeatTable) (o : O) :
    (Scan.canWorkToday.first site seats o).isSome =
      canWorkToday site.numSeats seats (site.userService o) := by
  rw [Scan.first, firstSeat, List.isSome_find?]
  rfl

omit [DecidableEq O] [DecidableEq U] in
theorem first_findSeat (site : Site O U) (seats : SeatTable) (o : O) :
    Scan.findSeat.first site seats o = findSeat site.numSeats seats (site.userService o) := rfl

omit [DecidableEq O] [DecidableEq U] in
theorem scan_step (site : Site O U) {w : World O U} {a : Act O U} (ha : w.Enabled site a)
    {c : Scan} (hscan : w.scanBy a = some c) : ∃ o, (w.opers o).phase.scan = some c ∧
      w.sh.stats.inside ≠ some (.operatore o) ∧ a = .oper o (c.outcome site w.sh.seats o) := by
  cases a with
  | oper o b =>
    refine ⟨o, hscan, ha.1, ?_⟩
    have hphase := scan_phase hscan
    have he := ha.2
    cases c with
    | canWorkToday =>
      have hfirst := first_canWorkToday site w.sh.seats o
      rw [Scan.outcome]
      cases b <;> simp only [Operatore.Enabled, hphase, reduceCtorEq, false_and, true_and,
        or_self] at he
      case canWork =>
        rw [he] at hfirst
        obtain ⟨i, hi⟩ := Option.isSome_iff_exists.mp hfirst
        rw [hi]
        rfl
      case cannotWork =>
        rw [he, Option.isSome_eq_false_iff, Option.isNone_iff_eq_none] at hfirst
        rw [hfirst]
        rfl
    | findSeat =>
      rw [Scan.outcome, first_findSeat]
      cases b <;> simp only [Operatore.Enabled, hphase, reduceCtorEq, false_and, true_and,
        or_self] at he
      case foundSeat k =>
        rw [he]
        rfl
      case foundNone =>
        rw [he]
        rfl
  | _ => cases hscan

theorem looks_before (site : Site O U) {w : World O U} {o : O} {c : Scan}
    (hscan : (w.opers o).phase.scan = some c)
    (hinside : w.sh.stats.inside ≠ some (.operatore o)) (m : ℕ) (hm : m ≤ site.numSeats)
    (hbefore : ∀ i < m, c.accepts (site.userService o) (w.sh.seats i) = false) :
    (posteScan site).Runs ⟨w, fun _ => 0⟩ (List.replicate m (.look o)) ∧
      (posteScan site).after ⟨w, fun _ => 0⟩ (List.replicate m (.look o)) =
        ⟨w, Function.update (fun _ => 0) o m⟩ := by
  induction m with
  | zero => exact ⟨trivial, by simp⟩
  | succ m ih =>
    obtain ⟨hruns, hafter⟩ := ih (by omega) fun i hi => hbefore i (by omega)
    have hlook : (posteScan site).next ⟨w, Function.update (fun _ => 0) o m⟩ (.look o) =
        ⟨w, Function.update (fun _ => 0) o (m + 1)⟩ := by
      simp [posteScan, Scanning.next, hscan, Scanning.look, hbefore m (by omega),
        (by omega : m < site.numSeats)]
    rw [List.replicate_succ', GuardedSystem.runs_snoc, GuardedSystem.after_snoc, hafter, hlook]
    exact ⟨⟨hruns, hinside, by rw [hscan]; rfl⟩, rfl⟩

theorem looks_outcome (site : Site O U) {w : World O U} {o : O} {c : Scan}
    (hscan : (w.opers o).phase.scan = some c)
    (hinside : w.sh.stats.inside ≠ some (.operatore o)) :
    ∃ bs, (posteScan site).Runs ⟨w, fun _ => 0⟩ bs ∧
      (posteScan site).after ⟨w, fun _ => 0⟩ bs =
        ⟨w.next site (.oper o (c.outcome site w.sh.seats o)), fun _ => 0⟩ := by
  have hend (m : ℕ) : Function.update (Function.update (fun _ => 0) o m) o 0 =
      (fun _ : O => 0) := by simp
  rw [Scan.outcome, Scan.first]
  cases hfirst : firstSeat site.numSeats
      fun i => c.accepts (site.userService o) (w.sh.seats i) with
  | none =>
    have hall : ∀ i < site.numSeats, c.accepts (site.userService o) (w.sh.seats i) = false := by
      intro i hi
      simpa using List.find?_eq_none.mp hfirst i (List.mem_range.mpr hi)
    obtain ⟨hruns, hafter⟩ := looks_before site hscan hinside site.numSeats le_rfl hall
    refine ⟨List.replicate site.numSeats (.look o) ++ [.look o], ?_, ?_⟩
    · rw [GuardedSystem.runs_snoc, hafter]
      exact ⟨hruns, hinside, by rw [hscan]; rfl⟩
    · rw [GuardedSystem.after_snoc, hafter]
      simp [posteScan, Scanning.next, hscan, Scanning.look, Scanning.leave]
  | some k =>
    obtain ⟨haccepts, hk, hbefore⟩ := List.find?_range_eq_some.mp hfirst
    have hlt : k < site.numSeats := List.mem_range.mp hk
    obtain ⟨hruns, hafter⟩ := looks_before site hscan hinside k hlt.le fun i hi => by
      simpa using hbefore i hi
    refine ⟨List.replicate k (.look o) ++ [.look o], ?_, ?_⟩
    · rw [GuardedSystem.runs_snoc, hafter]
      exact ⟨hruns, hinside, by rw [hscan]; rfl⟩
    · rw [GuardedSystem.after_snoc, hafter]
      simp [posteScan, Scanning.next, hscan, Scanning.look, Scanning.leave, hlt, haccepts]

/-- Every run of the simulation is one in which the loops are taken seat by seat. -/
theorem poste_in_scan (site : Site O U) (w : World O U) (as : List (Act O U))
    (h : (poste site).Runs w as) : ∃ bs, (posteScan site).Runs ⟨w, fun _ => 0⟩ bs ∧
      (posteScan site).after ⟨w, fun _ => 0⟩ bs = ⟨(poste site).after w as, fun _ => 0⟩ := by
  have hrun := GuardedSystem.runs_expand (S := poste site) (T := posteScan site)
    (R := fun w s => s = ⟨w, fun _ => 0⟩) ?_ (rfl : (⟨w, fun _ => 0⟩ : Scanning O U) = _) as h
  · exact hrun
  rintro w s a rfl ha
  cases hscan : w.scanBy a with
  | none =>
    have hone : (posteScan site).Enabled ⟨w, fun _ => 0⟩ (.step a) := ⟨ha, hscan⟩
    exact ⟨[.step a], ⟨hone, trivial⟩, rfl⟩
  | some c =>
    obtain ⟨o, hphase, hinside, rfl⟩ := scan_step site ha hscan
    exact looks_outcome site hphase hinside

theorem poste_in_scan_office : ∃ bs, (posteScan office).Runs ⟨World.init office, fun _ => 0⟩ bs ∧
    (posteScan office).after ⟨World.init office, fun _ => 0⟩ bs =
      ⟨(poste office).after (World.init office) (officeNight ++ officeDay), fun _ => 0⟩ :=
  poste_in_scan office (World.init office) _ officeDay_runs

/-- The steps that stand for a whole loop. -/
def Act.endsScan : Act O U → Bool
  | .oper _ .canWork | .oper _ .cannotWork | .oper _ (.foundSeat _) | .oper _ .foundNone => true
  | _ => false

omit [DecidableEq O] [DecidableEq U] in
theorem scanBy_eq_none (site : Site O U) {w : World O U} {a : Act O U} (ha : w.Enabled site a)
    (hno : a.endsScan = false) : w.scanBy a = none := by
  cases hscan : w.scanBy a with
  | none => rfl
  | some c =>
    obtain ⟨o, -, -, rfl⟩ := scan_step site ha hscan
    have hends : (Act.oper o (c.outcome site w.sh.seats o) : Act O U).endsScan = true := by
      rw [Scan.outcome]
      cases c.first site w.sh.seats o <;> cases c <;> rfl
    exact absurd (hno.symm.trans hends) Bool.false_ne_true

theorem steps_run {site : Site O U} {C : World O U → Act O U → Prop} {w : World O U}
    {as : List (Act O U)} (h : ((poste site).restrict C).Runs w as)
    (hno : ∀ a ∈ as, a.endsScan = false) (index : O → ℕ) :
    ((posteScan site).restrict (Scanning.Meets C)).Runs ⟨w, index⟩ (as.map .step) ∧
      (posteScan site).after ⟨w, index⟩ (as.map .step) = ⟨(poste site).after w as, index⟩ := by
  induction as generalizing w with
  | nil => exact ⟨trivial, rfl⟩
  | cons a as ih =>
    obtain ⟨hruns, hafter⟩ := ih h.2 fun b hb => hno b (List.mem_cons_of_mem a hb)
    have ha : w.Enabled site a := h.1.1
    exact ⟨⟨⟨⟨ha, scanBy_eq_none site ha (hno a List.mem_cons_self)⟩, h.1.2⟩, hruns⟩, hafter⟩

/-- Operator 0 has the service of one seat, operators 1 and 2 that of the other. -/
def hall : Site (Fin 3) (Fin 0) :=
  .numbered { defaultConfig with numOperators := 3, numUsers := 0, numWorkerSeats := 2 } 3000
    (fun o => if o.val = 0 then 0 else 1) (by decide) (by decide) (by decide)

def hallDraw : Act (Fin 3) (Fin 0) := .director (.resetSeats fun k => if k = 0 then 0 else 1)

def hallNight : List (Act (Fin 3) (Fin 0)) :=
  [.oper 0 .waitDay, .oper 1 .waitDay, .oper 2 .waitDay] ++ midnight 1

def hallMorning : List (Act (Fin 3) (Fin 0)) :=
  wakeUps 3 ++ [.oper 0 .wake, .oper 1 .wake, .oper 2 .wake,
    .oper 0 .waitOpen, .oper 1 .waitOpen, .oper 2 .waitOpen]

/-- All three come in. -/
def hallOpening : List (Act (Fin 3) (Fin 0)) :=
  opening 480 3 ++ [.oper 0 .enter, .oper 1 .enter, .oper 2 .enter]

def hallBefore : List (ScanAct (Fin 3) (Fin 0)) :=
  (hallMorning ++ (quietMinutes 1 479 ++ hallOpening)).map .step

/-- Operator 0 takes its seat while operator 1 walks past it. -/
def hallWalk : List (ScanAct (Fin 3) (Fin 0)) :=
  [.look 1, .look 0, .step (.oper 0 (.takeFree 0))]

/-- Operator 1 takes the second seat and operator 2 waits for it. -/
def hallSeated : List (ScanAct (Fin 3) (Fin 0)) :=
  [.step (.oper 1 (.takeFree 1)), .look 2, .look 2, .step (.oper 2 .noSeat)]

/-- Operator 1 gives the seat back. -/
def hallClosing : List (Act (Fin 3) (Fin 0)) :=
  closing 1200 3 ++ [.oper 1 (.closed 1), .oper 1 (.release 1 false), .oper 1 (.signal false)]

def hallDay : List (ScanAct (Fin 3) (Fin 0)) :=
  hallBefore ++ (hallWalk ++ [.look 1]) ++
    (hallSeated ++ (quietMinutes 481 719 ++ hallClosing).map .step)

def hallStart : List (ScanAct (Fin 3) (Fin 0)) := (hallNight ++ [hallDraw]).map .step

def hallBeforeDraw : World (Fin 3) (Fin 0) := (poste hall).after (World.init hall) hallNight

def hallDrawn : World (Fin 3) (Fin 0) := hallBeforeDraw.next hall hallDraw

/-- The hall once everybody is in. -/
def hallOpened : World (Fin 3) (Fin 0) :=
  (poste hall).after (((poste hall).after hallDrawn hallMorning).atMinute 480) hallOpening

/-- The hall with both seats taken. -/
def hallTaken : Scanning (Fin 3) (Fin 0) :=
  (posteScan hall).after ⟨hallOpened, fun _ => 0⟩ (hallWalk ++ [.look 1] ++ hallSeated)

theorem hall_quiet {m : ℤ} (h0 : 0 < m) (h1440 : m < 1440) (h480 : m ≠ 480) (h1200 : m ≠ 1200) :
    Quiet hall m :=
  quiet_default rfl rfl h0 h1440 h480 h1200

theorem hall_idle_morning : Idle hall ((poste hall).after hallDrawn hallMorning) 1 :=
  ⟨by decide, by decide, by decide, by decide⟩

theorem hall_quiet_morning : ∀ i : ℤ, 1 ≤ i → i ≤ 1 + (478 : ℕ) → Quiet hall i :=
  fun i h1 h2 => hall_quiet (by omega) (by omega) (by omega) (by omega)

theorem hall_idle_afternoon : Idle hall hallTaken.world 481 :=
  ⟨by decide, by decide, by decide, by decide⟩

/-- What every step of the day does. -/
def HallStep (w : World (Fin 3) (Fin 0)) (a : Act (Fin 3) (Fin 0)) : Prop :=
  SameDay a ∧ TakesFree w a

instance (w : World (Fin 3) (Fin 0)) (a : Act (Fin 3) (Fin 0)) : Decidable (HallStep w a) :=
  inferInstanceAs (Decidable (_ ∧ _))

theorem hallStep_quiet (m : ℤ) : ∀ a ∈ quietMinute m, ∀ w, HallStep w a := by
  simp [quietMinute, HallStep, SameDay, TakesFree]

theorem endsScan_quiet (m : ℤ) :
    ∀ a ∈ quietMinute (O := Fin 3) (U := Fin 0) m, a.endsScan = false := by
  simp [quietMinute, Act.endsScan]

theorem hallBefore_run :
    ((posteScan hall).restrict (Scanning.Meets HallStep)).Runs ⟨hallDrawn, fun _ => 0⟩ hallBefore ∧
      (posteScan hall).after ⟨hallDrawn, fun _ => 0⟩ hallBefore = ⟨hallOpened, fun _ => 0⟩ := by
  have hruns : ((poste hall).restrict HallStep).Runs hallDrawn
      (hallMorning ++ (quietMinutes 1 479 ++ hallOpening)) := by
    rw [GuardedSystem.runs_append, GuardedSystem.restrict_after,
      runs_quiet_restrict hallStep_quiet hall_idle_morning 478 hall_quiet_morning]
    exact ⟨by decide, by decide⟩
  have hafter : (poste hall).after hallDrawn
      (hallMorning ++ (quietMinutes 1 479 ++ hallOpening)) = hallOpened := by
    rw [GuardedSystem.after_append, after_quiet hall_idle_morning 478 hall_quiet_morning]
    rfl
  have hno : ∀ a ∈ hallMorning ++ (quietMinutes 1 479 ++ hallOpening), a.endsScan = false := by
    intro a ha
    rcases List.mem_append.mp ha with ha | ha
    · exact (by decide : ∀ a ∈ hallMorning, a.endsScan = false) a ha
    · rcases List.mem_append.mp ha with ha | ha
      · exact forall_mem_quietMinutes endsScan_quiet 1 479 a ha
      · exact (by decide : ∀ a ∈ hallOpening, a.endsScan = false) a ha
  have hlift := steps_run hruns hno fun _ => 0
  rw [hafter] at hlift
  exact hlift

theorem hallDay_run :
    ((posteScan hall).restrict (Scanning.Meets HallStep)).Runs ⟨hallDrawn, fun _ => 0⟩ hallDay := by
  have hquiet : ∀ i : ℤ, 481 ≤ i → i ≤ 481 + (718 : ℕ) → Quiet hall i :=
    fun i h1 h2 => hall_quiet (by omega) (by omega) (by omega) (by omega)
  have hruns : ((poste hall).restrict HallStep).Runs hallTaken.world
      (quietMinutes 481 719 ++ hallClosing) := by
    rw [runs_quiet_restrict hallStep_quiet hall_idle_afternoon 718 hquiet]
    decide
  have hno : ∀ a ∈ quietMinutes 481 719 ++ hallClosing, a.endsScan = false := by
    intro a ha
    rcases List.mem_append.mp ha with ha | ha
    · exact forall_mem_quietMinutes endsScan_quiet 481 719 a ha
    · exact (by decide : ∀ a ∈ hallClosing, a.endsScan = false) a ha
  obtain ⟨hbefore, hopened⟩ := hallBefore_run
  have hwalk : ((posteScan hall).restrict (Scanning.Meets HallStep)).Runs
      ⟨hallOpened, fun _ => 0⟩ (hallWalk ++ [.look 1] ++ hallSeated) := by decide
  rw [hallDay, List.append_assoc, ← List.append_assoc _ hallSeated, GuardedSystem.runs_append,
    GuardedSystem.restrict_after, hopened, GuardedSystem.runs_append]
  exact ⟨hbefore, hwalk, (steps_run hruns hno hallTaken.index).1⟩

theorem result_sh (site : Site O U) {w : World O U} {o : O} {c : Scan} {b : Operatore.Act}
    (hb : c.Result site w.sh.seats o b) : (w.next site (.oper o b)).sh = w.sh := by
  rcases hb with rfl | ⟨i, -, -, rfl⟩ <;> cases c <;> rfl

/-- Two phases with the same seat and the same obligations towards those who wait for one. -/
structure SameDuties (p q : Operatore.Phase) : Prop where
  currentSeat : q.currentSeat = p.currentSeat
  hasToken : q.hasToken = p.hasToken
  signals : q.signals = p.signals
  waits : q.waits = p.waits

theorem SameDuties.refl (p : Operatore.Phase) : SameDuties p p := ⟨rfl, rfl, rfl, rfl⟩

theorem result_duties (site : Site O U) {w : World O U} {o : O} {c : Scan} {b : Operatore.Act}
    (hscan : (w.opers o).phase.scan = some c) (hb : c.Result site w.sh.seats o b) (p : O) :
    SameDuties (w.opers p).phase ((w.next site (.oper o b)).opers p).phase := by
  by_cases hp : p = o
  · subst p
    rw [show (w.next site (.oper o b)).opers o = (Operatore.next site o (w.opers o) w.sh b).1 by
      simp [World.next], scan_phase hscan]
    rcases hb with rfl | ⟨i, -, -, rfl⟩ <;> cases c <;> exact ⟨rfl, rfl, rfl, rfl⟩
  · rw [show (w.next site (.oper o b)).opers p = w.opers p by simp [World.next, hp]]
    exact SameDuties.refl _

theorem result_found (site : Site O U) {w : World O U} {o : O} {c : Scan} {b : Operatore.Act}
    (hb : c.Result site w.sh.seats o b) {p : O} {k : ℕ}
    (hp : ((w.next site (.oper o b)).opers p).phase = .takeFound k) :
    (w.opers p).phase = .takeFound k ∨
      k < site.numSeats ∧ (w.sh.seats k).serviceId = site.userService p := by
  by_cases hpo : p = o
  · subst p
    right
    rcases hb with rfl | ⟨i, hi, haccepts, rfl⟩ <;> cases c <;>
      simp [World.next, Scan.failed, Scan.found, Operatore.next] at hp
    subst hp
    simp only [Scan.accepts, decide_eq_true_eq] at haccepts
    exact ⟨hi, haccepts.2⟩
  · left
    simpa [World.next, hpo] using hp

theorem TablePresent.result {site : Site O U} {w : World O U} (h : TablePresent site w) {o : O}
    {c : Scan} {b : Operatore.Act} (hscan : (w.opers o).phase.scan = some c)
    (hb : c.Result site w.sh.seats o b) : TablePresent site (w.next site (.oper o b)) := by
  obtain ⟨g, hR, hg⟩ := h
  refine ⟨g, hR.keep (funext fun p => (result_duties site hscan hb p).currentSeat) ?_, hg⟩
  rw [result_sh site hb]
  exact SameOperators.refl _

/-- Over any number of days the seat table never names an absent operator, although the
operators read it seat by seat while others change it. -/
theorem scan_table_names_present (site : Site O U) (as : List (ScanAct O U))
    (h : (posteScan site).Runs (Scanning.init site) as) :
    TableNamesPresent site ((posteScan site).after (Scanning.init site) as).world := by
  have hkept := scan_invariant (s := Scanning.init site) (P := TablePresent site)
    (fun w a hw ha => hw.step ha) (fun w o c b hw hscan hb => hw.result hscan hb)
    (tablePresent_init site) as h
  obtain ⟨g, hR, hg⟩ := hkept
  exact hR.tableNamesPresent hg

theorem scan_table_names_present_hall : TableNamesPresent hall
    ((posteScan hall).after (Scanning.init hall) (hallStart ++ hallDay)).world :=
  scan_table_names_present hall _ ((GuardedSystem.runs_append _ _ hallStart hallDay).mpr
    ⟨by decide, GuardedSystem.Runs.of_restrict _ hallDay_run⟩)

theorem VacanciesOf.result {site : Site O U} {w : World O U} {g : Vacancies O ℕ}
    (h : VacanciesOf site w g) {o : O} {c : Scan} {b : Operatore.Act}
    (hscan : (w.opers o).phase.scan = some c) (hb : c.Result site w.sh.seats o b) :
    VacanciesOf site (w.next site (.oper o b)) g := by
  have hduties := result_duties site hscan hb
  have hsh := result_sh site hb
  refine ⟨by rw [hsh]; exact h.free, by rw [hsh]; exact h.fresh, by rw [hsh]; exact h.tokens,
    fun p => ?_, fun p hwaits => ?_, fun p k hp => ?_⟩
  · rw [(hduties p).hasToken, (hduties p).signals]
    exact h.carriers p
  · rw [(hduties p).waits] at hwaits
    rw [hsh]
    exact h.waiting p hwaits
  · rw [hsh]
    rcases result_found site hb hp with hold | hnew
    · exact h.found p k hold
    · exact hnew

/-- From the moment the seats are drawn until the next day, no free seat stays unnoticed by the
operators that wait for it, although they look for it seat by seat, as long as a seat found in
`wait_for_station` is still free when it is taken. -/
theorem scan_seats_noticed (site : Site O U) (w : World O U) (index : O → ℕ)
    (service : ℕ → ServiceId)
    (hout : ∀ o, ((w.next site (.director (.resetSeats service))).opers o).phase.inWorkLoop = false)
    (as : List (ScanAct O U))
    (h : ((posteScan site).restrict
      (Scanning.Meets fun w a => SameDay a ∧ TakesFree w a)).Runs
        ⟨w.next site (.director (.resetSeats service)), index⟩ as) :
    SeatsNoticed site ((posteScan site).after
      ⟨w.next site (.director (.resetSeats service)), index⟩ as).world := by
  have hfree (k : ℕ) (hk : k < site.numSeats) :
      ((w.next site (.director (.resetSeats service))).sh.seats k).operatorStatus = .free := by
    show (resetSeats site.numSeats service w.sh.seats k).operatorStatus = .free
    simp [resetSeats, hk]
  obtain ⟨hruns, hR⟩ := (scan_refines (poste_refines_vacancies site)
    fun w g o c b hw hscan hb => hw.result hscan hb).run
      (s := ⟨w.next site (.director (.resetSeats service)), index⟩)
      (vacanciesOf_drawn hfree hout) as h
  exact VacanciesOf.seatsNoticed hR (Vacancies.announced_run (Nat.zero_le _) _ hruns)

theorem scan_seats_noticed_hall : SeatsNoticed hall
    ((posteScan hall).after ⟨hallDrawn, fun _ => 0⟩ hallDay).world :=
  scan_seats_noticed hall hallBeforeDraw (fun _ => 0) (fun k => if k = 0 then 0 else 1)
    (by decide) hallDay hallDay_run

/-- The seats are drawn while no operator is inside a loop over them. -/
def DrawnUnread (w : World O U) (a : Act O U) : Prop :=
  SameDay a ∨ ∀ o, (w.opers o).phase.scan = none

instance (w : World O U) (a : Act O U) : Decidable (DrawnUnread w a) :=
  inferInstanceAs (Decidable (_ ∨ _))

/-- `can_work_today` has passed the seats that do not offer the service, as they still are. -/
structure PassedSeats (site : Site O U) (s : Scanning O U) : Prop where
  outside : ∀ o, (s.world.opers o).phase.scan = none → s.index o = 0
  passed : ∀ o, (s.world.opers o).phase = .entered → ∀ i < s.index o,
    (s.world.sh.seats i).serviceId ≠ site.userService o

theorem PassedSeats.step {site : Site O U} {s : Scanning O U} (h : PassedSeats site s)
    {a : Act O U} (ha : s.world.Enabled site a) (hscan : s.world.scanBy a = none)
    (hdrawn : DrawnUnread s.world a) : PassedSeats site (s.next site (.step a)) := by
  have hown (o : O) : (s.world.next site a).opers o = s.world.opers o ∨ s.index o = 0 := by
    rcases oper_step site ha o with hkeep | ⟨b, rfl, -, -⟩
    · exact Or.inl hkeep
    · exact Or.inr (h.outside o hscan)
  refine ⟨fun o hout => ?_, fun o hentered i hi => ?_⟩
  · have hout : ((s.world.next site a).opers o).phase.scan = none := hout
    rcases hown o with hkeep | hzero
    · rw [hkeep] at hout
      exact h.outside o hout
    · exact hzero
  · have hentered : ((s.world.next site a).opers o).phase = .entered := hentered
    have hi : i < s.index o := hi
    rcases hown o with hkeep | hzero
    · rw [hkeep] at hentered
      rcases hdrawn with hday | hunread
      · show ((s.world.next site a).sh.seats i).serviceId ≠ site.userService o
        rw [serviceId_step site (by rintro service rfl; exact hday)]
        exact h.passed o hentered i hi
      · have hnone := hunread o
        rw [hentered] at hnone
        cases hnone
    · rw [hzero] at hi
      exact absurd hi (Nat.not_lt_zero i)

theorem PassedSeats.leave {site : Site O U} {s : Scanning O U} (h : PassedSeats site s) {o : O}
    {c : Scan} {b : Operatore.Act} (hb : c.Result site s.world.sh.seats o b) :
    PassedSeats site (s.leave site o b) := by
  have hother {p : O} (hp : p ≠ o) :
      (s.leave site o b).index p = s.index p ∧
        (s.leave site o b).world.opers p = s.world.opers p := by
    simp [Scanning.leave, World.next, hp]
  have hself : (s.leave site o b).index o = 0 := by simp [Scanning.leave]
  have hsh : (s.leave site o b).world.sh = s.world.sh := result_sh site hb
  refine ⟨fun p hout => ?_, fun p hentered i hi => ?_⟩
  · by_cases hp : p = o
    · rw [hp, hself]
    · rw [(hother hp).2] at hout
      rw [(hother hp).1]
      exact h.outside p hout
  · by_cases hp : p = o
    · rw [hp, hself] at hi
      exact absurd hi (Nat.not_lt_zero i)
    · rw [(hother hp).2] at hentered
      rw [(hother hp).1] at hi
      rw [hsh]
      exact h.passed p hentered i hi

theorem PassedSeats.look {site : Site O U} {s : Scanning O U} (h : PassedSeats site s) {o : O}
    (ha : s.Enabled site (.look o)) : PassedSeats site (s.next site (.look o)) := by
  obtain ⟨c, hscan, ⟨hlt, haccepts, hnext⟩ | ⟨hlt, haccepts, hnext⟩ | ⟨-, hnext⟩⟩ :=
    look_cases site ha
  · rw [hnext]
    refine ⟨fun p hout => ?_, fun p hentered i hi => ?_⟩
    · have hp : p ≠ o := by
        rintro rfl
        rw [hscan] at hout
        cases hout
      simpa [hp] using h.outside p hout
    · by_cases hp : p = o
      · subst p
        have hentered : (s.world.opers o).phase = .entered := hentered
        rw [hentered] at hscan
        cases hscan
        have hi : i < s.index o + 1 := by simpa using hi
        rcases Nat.lt_succ_iff_lt_or_eq.mp hi with hold | rfl
        · exact h.passed o hentered i hold
        · simpa [Scan.accepts] using haccepts
      · exact h.passed p hentered i (by simpa [hp] using hi)
  · rw [hnext]
    exact h.leave (Or.inr ⟨_, hlt, haccepts, rfl⟩)
  · rw [hnext]
    exact h.leave (Or.inl rfl)

end PosteItaliane
