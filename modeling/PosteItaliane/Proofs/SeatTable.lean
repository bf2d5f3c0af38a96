import PosteItaliane.Framework.Registry
import PosteItaliane.Proofs.Schedule

/-!
# The operators in the seat table

The seat table is a registry of the operators' seats: `take_seat` registers, `release_seat`
and the nightly reset erase. Operators release before they go home, so the table never
names an operator that is not there, over any number of days.
-/

namespace PosteItaliane

open Framework

/-- `current_seat`, from `take_seat` until the locked section of `release_seat`. -/
def Operatore.Phase.currentSeat : Operatore.Phase → Option ℕ
  | .checkClose k => some k
  | .receive k => some k
  | .request k _ => some k
  | .serve k _ => some k
  | .reply k _ _ => some k
  | .pauseDraw k => some k
  | .release k _ => some k
  | _ => none

variable {O U : Type}

def World.currentSeat (w : World O U) (o : O) : Option ℕ := (w.opers o).phase.currentSeat

/-- Two tables with the same operators at every seat. -/
def SameOperators (s t : SeatTable) : Prop :=
  ∀ k, (s k).operatorProcess = (t k).operatorProcess ∧
    (s k).operatorStatus = (t k).operatorStatus

theorem SameOperators.refl (s : SeatTable) : SameOperators s s := fun _ => ⟨rfl, rfl⟩

variable [Fintype O] [Fintype U] [DecidableEq O] [DecidableEq U]

/-- What a step of the simulation is for the registry of operators. -/
def seatEvent (site : Site O U) : Act O U → Option (Registry.Event O ℕ)
  | .oper o (.takeFree k) => some (.take o k)
  | .oper o (.takeFound k) => some (.take o k)
  | .oper o (.release k _) => some (.release o k)
  | .director (.resetSeats _) => some (.clear fun k => decide (k < site.numSeats))
  | _ => none

theorem currentSeat_oper (site : Site O U) (w : World O U) (o : O) (a : Operatore.Act) :
    (w.next site (.oper o a)).currentSeat = Function.update w.currentSeat o
      (Operatore.next site o (w.opers o) w.sh a).1.phase.currentSeat :=
  opers_next (fun _ l => l.phase.currentSeat) site w o a

theorem currentSeat_oper_keep (site : Site O U) (w : World O U) (o : O) (a : Operatore.Act)
    (h : (Operatore.next site o (w.opers o) w.sh a).1.phase.currentSeat =
      (w.opers o).phase.currentSeat) :
    (w.next site (.oper o a)).currentSeat = w.currentSeat := by
  rw [currentSeat_oper, h]
  exact Function.update_eq_self o w.currentSeat

/-- Only the steps above change who sits where or what the table says about it. -/
theorem seat_step (site : Site O U) (w : World O U) (a : Act O U) (ha : w.Enabled site a) :
    match seatEvent site a with
    | none => (w.next site a).currentSeat = w.currentSeat ∧
        SameOperators (w.next site a).sh.seats w.sh.seats
    | some (.take o k) => w.currentSeat o = none ∧
        (w.next site a).currentSeat = Function.update w.currentSeat o (some k) ∧
        (w.next site a).sh.seats = takeSeat w.sh.seats k (site.operatorPid o)
    | some (.release o k) => w.currentSeat o = some k ∧
        (w.next site a).currentSeat = Function.update w.currentSeat o none ∧
        (w.next site a).sh.seats = releaseSeat w.sh.seats k
    | some (.leave _) => False
    | some (.clear p) => p = (fun k => decide (k < site.numSeats)) ∧
        (w.next site a).currentSeat = w.currentSeat ∧
        ∃ service, (w.next site a).sh.seats = resetSeats site.numSeats service w.sh.seats := by
  cases a with
  | oper o a =>
    obtain ⟨-, he⟩ := ha
    cases a <;> simp only [seatEvent]
    case takeFree k =>
      refine ⟨?_, currentSeat_oper site w o _, rfl⟩
      simp [World.currentSeat, he.1, Operatore.Phase.currentSeat]
    case takeFound k =>
      have he : (w.opers o).phase = .takeFound k := he
      refine ⟨?_, currentSeat_oper site w o _, rfl⟩
      simp [World.currentSeat, he, Operatore.Phase.currentSeat]
    case release k early =>
      have he : (w.opers o).phase = .release k early := he
      refine ⟨?_, currentSeat_oper site w o _, rfl⟩
      simp [World.currentSeat, he, Operatore.Phase.currentSeat]
    all_goals
      refine ⟨currentSeat_oper_keep site w o _ ?_, SameOperators.refl _⟩
      simp only [Operatore.Enabled] at he
      simp only [Operatore.next]
      grind [Operatore.Phase.currentSeat]
  | user u a =>
    refine ⟨rfl, ?_⟩
    cases a <;> try exact SameOperators.refl _
    case takeSeat x valid k =>
      exact fun j => ⟨takeUserSeat_operatorProcess j, takeUserSeat_operatorStatus j⟩
    case releaseSeat x k =>
      exact fun j => ⟨releaseUserSeat_operatorProcess j, releaseUserSeat_operatorStatus j⟩
  | ticket a => cases a <;> exact ⟨rfl, SameOperators.refl _⟩
  | director a =>
    cases a <;> try exact ⟨rfl, SameOperators.refl _⟩
    case resetSeats service => exact ⟨rfl, rfl, service, rfl⟩
  | «section» => exact ⟨rfl, SameOperators.refl _⟩

/-- The registry holds the operators' seats and the names in the table. -/
structure RegistryOf (site : Site O U) (w : World O U) (g : Registry O ℕ) : Prop where
  holds : g.holds = w.currentSeat
  process : ∀ k, (w.sh.seats k).operatorProcess = (g.name k).elim 0 site.operatorPid
  status : ∀ k, (w.sh.seats k).operatorStatus = .occupied ↔ (g.name k).isSome

omit [DecidableEq O] [DecidableEq U] in
theorem RegistryOf.keep {site : Site O U} {w w' : World O U} {g : Registry O ℕ}
    (h : RegistryOf site w g) (hseat : w'.currentSeat = w.currentSeat)
    (hsame : SameOperators w'.sh.seats w.sh.seats) : RegistryOf site w' g where
  holds := by rw [hseat, h.holds]
  process k := by rw [(hsame k).1, h.process]
  status k := by rw [(hsame k).2, h.status]

omit [DecidableEq U] in
theorem RegistryOf.take {site : Site O U} {w w' : World O U} {g : Registry O ℕ}
    (h : RegistryOf site w g) {o : O} {k : ℕ}
    (hseat : w'.currentSeat = Function.update w.currentSeat o (some k))
    (htable : w'.sh.seats = takeSeat w.sh.seats k (site.operatorPid o)) :
    RegistryOf site w' (Registry.system.next g (.take o k)) := by
  refine ⟨?_, ?_, ?_⟩
  · simp [Registry.system, h.holds, hseat]
  · intro j
    by_cases hj : j = k
    · subst j
      simp [htable, Registry.system]
    · simp [htable, takeSeat_of_ne _ hj, Registry.system, hj, h.process]
  · intro j
    by_cases hj : j = k
    · subst j
      simp [htable, Registry.system]
    · simp [htable, takeSeat_of_ne _ hj, Registry.system, hj, h.status]

omit [DecidableEq U] in
theorem RegistryOf.release {site : Site O U} {w w' : World O U} {g : Registry O ℕ}
    (h : RegistryOf site w g) {o : O} {k : ℕ}
    (hseat : w'.currentSeat = Function.update w.currentSeat o none)
    (htable : w'.sh.seats = releaseSeat w.sh.seats k) :
    RegistryOf site w' (Registry.system.next g (.release o k)) := by
  refine ⟨?_, ?_, ?_⟩
  · simp [Registry.system, h.holds, hseat]
  · intro j
    by_cases hj : j = k
    · subst j
      simp [htable, Registry.system]
    · simp [htable, releaseSeat_of_ne hj, Registry.system, hj, h.process]
  · intro j
    by_cases hj : j = k
    · subst j
      simp [htable, Registry.system]
    · simp [htable, releaseSeat_of_ne hj, Registry.system, hj, h.status]

omit [DecidableEq U] in
theorem RegistryOf.clear {site : Site O U} {w w' : World O U} {g : Registry O ℕ}
    (h : RegistryOf site w g) {service : ℕ → ServiceId}
    (hseat : w'.currentSeat = w.currentSeat)
    (htable : w'.sh.seats = resetSeats site.numSeats service w.sh.seats) :
    RegistryOf site w'
      (Registry.system.next g (.clear fun k => decide (k < site.numSeats))) := by
  refine ⟨?_, ?_, ?_⟩
  · simp [Registry.system, h.holds, hseat]
  · intro j
    by_cases hj : j < site.numSeats
    · simp [htable, resetSeats, Registry.system, hj]
    · simp [htable, resetSeats, Registry.system, hj, h.process]
  · intro j
    by_cases hj : j < site.numSeats
    · simp [htable, resetSeats, Registry.system, hj]
    · simp [htable, resetSeats, Registry.system, hj, h.status]

theorem poste_refines_registry (site : Site O U) :
    (poste site).Refines Registry.system (RegistryOf site) (seatEvent site) := by
  intro w g a hR ha
  have hstep := seat_step site w a ha
  cases hev : seatEvent site a with
  | none =>
    rw [hev] at hstep
    exact hR.keep hstep.1 hstep.2
  | some e =>
    rw [hev] at hstep
    cases e with
    | take o k => exact ⟨(congrFun hR.holds o).trans hstep.1, hR.take hstep.2.1 hstep.2.2⟩
    | release o k => exact ⟨(congrFun hR.holds o).trans hstep.1, hR.release hstep.2.1 hstep.2.2⟩
    | leave o => exact hstep.elim
    | clear p =>
      obtain ⟨rfl, hseat, service, htable⟩ := hstep
      exact ⟨trivial, hR.clear hseat htable⟩

theorem seatEvent_orderly (site : Site O U) (g : Registry O ℕ) {w : World O U} {a : Act O U}
    (ha : w.Enabled site a) {e : Registry.Event O ℕ} (he : seatEvent site a = some e) :
    Registry.Orderly g e := by
  have hstep := seat_step site w a ha
  rw [he] at hstep
  cases e with
  | leave o => exact hstep
  | take o k => trivial
  | release o k => trivial
  | clear p => trivial

omit [DecidableEq O] in
theorem registryOf_init (site : Site O U) :
    RegistryOf site (World.init site) ⟨fun _ => none, fun _ => none⟩ where
  holds := rfl
  process _ := rfl
  status _ := by simp [World.init, Shared.init]

/-- The table names present operators only. -/
def TablePresent (site : Site O U) (w : World O U) : Prop :=
  ∃ g, RegistryOf site w g ∧ g.NamesPresent

omit [DecidableEq O] in
theorem tablePresent_init (site : Site O U) : TablePresent site (World.init site) := by
  refine ⟨_, registryOf_init site, ?_⟩
  intro k o hname
  cases hname

theorem TablePresent.step {site : Site O U} {w : World O U} (h : TablePresent site w)
    {a : Act O U} (ha : w.Enabled site a) : TablePresent site (w.next site a) := by
  obtain ⟨g, hR, hg⟩ := h
  have hstep := poste_refines_registry site w g a hR ha
  cases hev : seatEvent site a with
  | none =>
    rw [hev] at hstep
    exact ⟨g, hstep, hg⟩
  | some e =>
    rw [hev] at hstep
    have horderly := seatEvent_orderly site g ha hev
    exact ⟨_, hstep.2, Registry.namesPresent_step g e hg ⟨hstep.1, horderly⟩⟩

theorem tablePresent_run (site : Site O U) (as : List (Act O U))
    (h : (poste site).Runs (World.init site) as) :
    TablePresent site ((poste site).after (World.init site) as) :=
  (poste site).invariant (tablePresent_init site) (fun _ _ ht ha => ht.step ha) as h

omit [DecidableEq O] [DecidableEq U] in
/-- At an occupied seat sits the operator the table names. -/
theorem TablePresent.occupied {site : Site O U} {w : World O U} (h : TablePresent site w) {k : ℕ}
    (hk : (w.sh.seats k).operatorStatus = .occupied) :
    ∃ o, (w.sh.seats k).operatorProcess = site.operatorPid o ∧ w.currentSeat o = some k := by
  obtain ⟨g, hR, hg⟩ := h
  obtain ⟨o, ho⟩ := Option.isSome_iff_exists.mp ((hR.status k).mp hk)
  refine ⟨o, ?_, ?_⟩
  · rw [hR.process, ho]
    rfl
  · rw [← hR.holds]
    exact hg k o ho

omit [DecidableEq O] [DecidableEq U] in
theorem TablePresent.operatorProcess {site : Site O U} {w : World O U} (h : TablePresent site w)
    (k : ℕ) : (w.sh.seats k).operatorProcess = 0 ∨
      ∃ o, (w.sh.seats k).operatorProcess = site.operatorPid o := by
  obtain ⟨g, hR, -⟩ := h
  rw [hR.process]
  cases g.name k with
  | none => exact Or.inl rfl
  | some o => exact Or.inr ⟨o, rfl⟩

omit [DecidableEq O] [DecidableEq U] in
theorem RegistryOf.name_eq_some {site : Site O U} {w : World O U} {g : Registry O ℕ}
    (h : RegistryOf site w g) {k : ℕ} {o : O}
    (hp : (w.sh.seats k).operatorProcess = site.operatorPid o) : g.name k = some o := by
  have hprocess := h.process k
  cases hname : g.name k with
  | none =>
    rw [hname, hp] at hprocess
    exact absurd hprocess (site.operatorPid_pos o).ne'
  | some p =>
    rw [hname, hp] at hprocess
    exact congrArg some (site.operatorPid_injective hprocess).symm

/-- The table marks a seat as occupied when it names a process, every process it names is an
operator that has taken that seat and not released it, and none is named twice. -/
structure TableNamesPresent (site : Site O U) (w : World O U) : Prop where
  status : ∀ k < site.numSeats,
    (w.sh.seats k).operatorStatus = .occupied ↔ (w.sh.seats k).operatorProcess ≠ 0
  present : ∀ k < site.numSeats, (w.sh.seats k).operatorProcess ≠ 0 →
    ∃ o, (w.sh.seats k).operatorProcess = site.operatorPid o ∧ w.currentSeat o = some k
  once : ∀ j < site.numSeats, ∀ k < site.numSeats, (w.sh.seats j).operatorProcess ≠ 0 →
    (w.sh.seats j).operatorProcess = (w.sh.seats k).operatorProcess → j = k
  absent : ∀ o, w.currentSeat o = none →
    ∀ k < site.numSeats, (w.sh.seats k).operatorProcess ≠ site.operatorPid o

omit [DecidableEq O] [DecidableEq U] in
theorem RegistryOf.tableNamesPresent {site : Site O U} {w : World O U} {g : Registry O ℕ}
    (h : RegistryOf site w g) (hg : g.NamesPresent) : TableNamesPresent site w := by
  have hstatus (k : ℕ) :
      (w.sh.seats k).operatorStatus = .occupied ↔ (w.sh.seats k).operatorProcess ≠ 0 := by
    rw [h.status, h.process]
    cases g.name k with
    | none => simp
    | some o => simpa using (site.operatorPid_pos o).ne'
  have hpresent (k : ℕ) (hk : (w.sh.seats k).operatorProcess ≠ 0) :
      ∃ o, (w.sh.seats k).operatorProcess = site.operatorPid o ∧ w.currentSeat o = some k :=
    TablePresent.occupied ⟨g, h, hg⟩ ((hstatus k).mpr hk)
  refine ⟨fun k _ => hstatus k, fun k _ => hpresent k, ?_, ?_⟩
  · intro j _ k _ hj hjk
    obtain ⟨o, hjo, hoj⟩ := hpresent j hj
    have hk := hg k o (h.name_eq_some (hjk.symm.trans hjo))
    rw [h.holds, hoj] at hk
    exact Option.some.inj hk
  · intro o ho k _ hk
    have hhold := hg k o (h.name_eq_some hk)
    rw [h.holds, ho] at hhold
    exact Option.some_ne_none k hhold.symm

/-- Over any number of days the seat table never names an absent operator. -/
theorem table_names_present (site : Site O U) (as : List (Act O U))
    (h : (poste site).Runs (World.init site) as) :
    TableNamesPresent site ((poste site).after (World.init site) as) := by
  obtain ⟨g, hR, hg⟩ := tablePresent_run site as h
  exact hR.tableNamesPresent hg

/-- Three operators of service 0 and one seat. -/
def oneSeat : Site (Fin 3) (Fin 0) :=
  .numbered { defaultConfig with numOperators := 3, numUsers := 0, numWorkerSeats := 1 } 1000
    (fun _ => 0) (by decide) (by decide) (by decide)

theorem oneSeat_quiet {m : ℤ} (h0 : 0 < m) (h1440 : m < 1440) (h480 : m ≠ 480)
    (h1200 : m ≠ 1200) : Quiet oneSeat m :=
  quiet_default rfl rfl h0 h1440 h480 h1200

/-- Every operator waits for the first day, which begins. -/
def firstMidnight : List (Act (Fin 3) (Fin 0)) :=
  [.oper 0 .waitDay, .oper 1 .waitDay, .oper 2 .waitDay] ++ midnight 1 ++
    [.director (.resetSeats fun _ => 0)]

/-- Everybody waits for the opening. -/
def wakeOperators : List (Act (Fin 3) (Fin 0)) :=
  wakeUps 3 ++ [.oper 0 .wake, .oper 1 .wake, .oper 2 .wake,
    .oper 0 .waitOpen, .oper 1 .waitOpen, .oper 2 .waitOpen]

/-- Operator 0 takes the seat and operator 1 waits for it; operator 2 is late. -/
def fillSeat : List (Act (Fin 3) (Fin 0)) :=
  opening 480 3 ++ [.oper 0 .enter, .oper 0 .canWork, .oper 0 (.takeFree 0),
    .oper 1 .enter, .oper 1 .canWork, .oper 1 .noSeat]

theorem table_names_present_one_seat : TableNamesPresent oneSeat
    ((poste oneSeat).after (World.init oneSeat)
      (firstMidnight ++ (wakeOperators ++ (quietMinutes 1 479 ++ fillSeat)))) := by
  apply table_names_present oneSeat _
  rw [GuardedSystem.runs_append, GuardedSystem.runs_append]
  refine ⟨by decide, by decide, ?_⟩
  rw [runs_quiet (m := 1) ⟨by decide, by decide, by decide, by decide⟩ 478
    (fun i h1 h2 => oneSeat_quiet (by omega) (by omega) (by omega) (by omega))]
  decide

end PosteItaliane
