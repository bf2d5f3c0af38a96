import PosteItaliane.Proofs.SeatTable

/-!
# The seats of serving operators

From the operators to the seat table the registry is right within a day as long as no
operator takes a seat that it found free in `wait_for_station` and that has been taken
since: the one thing `work_loop` does without looking. Serving ends at the locked section
of `release_seat`.
-/

namespace PosteItaliane

open Framework

variable {O U : Type} [Fintype O] [Fintype U] [DecidableEq O] [DecidableEq U]

/-- From the call of `work_loop` until it returns. -/
def Operatore.Phase.inWorkLoop : Operatore.Phase → Bool
  | .boot => false
  | .home => false
  | .awaitDay => false
  | .morning => false
  | .awaitOpen => false
  | .countActive => false
  | _ => true

theorem Operatore.Phase.currentSeat_eq_none {p : Operatore.Phase} (h : p.inWorkLoop = false) :
    p.currentSeat = none := by
  cases p <;> first | rfl | cases h

/-- Every operator that serves is the one its seat names, and so none shares a seat. -/
structure ServingNamed (site : Site O U) (w : World O U) : Prop where
  named : ∀ o k, w.currentSeat o = some k →
    (w.sh.seats k).operatorStatus = .occupied ∧
      (w.sh.seats k).operatorProcess = site.operatorPid o
  apart : ∀ o p k, w.currentSeat o = some k → w.currentSeat p = some k → o = p

/-- The seats are not reset. -/
def SameDay : Act O U → Prop
  | .director (.resetSeats _) => False
  | _ => True

instance (a : Act O U) : Decidable (SameDay a) := by
  rcases a with _ | _ | _ | b | _
  case director => rcases b with _ | _ <;> (dsimp only [SameDay]; infer_instance)
  all_goals exact isTrue trivial

/-- A seat that was found without the lock is still free when it is taken. -/
def TakesFree (w : World O U) : Act O U → Prop
  | .oper _ (.takeFound k) => (w.sh.seats k).operatorStatus = .free
  | _ => True

instance decidableTakesFree (w : World O U) (a : Act O U) : Decidable (TakesFree w a) := by
  rcases a with ⟨o, b⟩ | _
  case oper => rcases b with _ | _ <;> (dsimp only [TakesFree]; infer_instance)
  all_goals exact isTrue trivial

omit [DecidableEq O] [DecidableEq U] in
theorem RegistryOf.careful {site : Site O U} {w : World O U} {g : Registry O ℕ}
    (h : RegistryOf site w g) {a : Act O U} (ha : w.Enabled site a) (hday : SameDay a)
    (hfree : TakesFree w a) {e : Registry.Event O ℕ} (he : seatEvent site a = some e) :
    Registry.Careful g e := by
  have hnone (k : ℕ) (hk : (w.sh.seats k).operatorStatus = .free) : g.name k = none := by
    by_contra hname
    have hocc := (h.status k).mpr (Option.isSome_iff_ne_none.mpr hname)
    rw [hk] at hocc
    cases hocc
  cases a with
  | oper o a =>
    cases a <;> simp only [seatEvent, reduceCtorEq, Option.some.injEq] at he <;> subst he
    case takeFree k => exact hnone k (findSeat_eq_some ha.2.2).2.1
    case takeFound k => exact hnone k hfree
    case release k early => trivial
  | director a =>
    cases a <;> simp only [seatEvent, reduceCtorEq] at he
    case resetSeats service => exact hday.elim
  | user u a => cases he
  | ticket a => cases he
  | «section» => cases he

omit [DecidableEq O] [DecidableEq U] in
theorem RegistryOf.servingNamed {site : Site O U} {w : World O U} {g : Registry O ℕ}
    (h : RegistryOf site w g) (hg : g.HoldersNamed) : ServingNamed site w := by
  have hname {o : O} {k : ℕ} (ho : w.currentSeat o = some k) : g.name k = some o :=
    hg o k (by rw [h.holds, ho])
  refine ⟨fun o k ho => ⟨(h.status k).mpr (by rw [hname ho]; rfl), ?_⟩, ?_⟩
  · rw [h.process, hname ho]
    rfl
  · intro o p k ho hp
    exact hg.unique (by rw [h.holds, ho]) (by rw [h.holds, hp])

theorem serving_of_takesFree (site : Site O U) {pre as : List (Act O U)}
    (hpre : (poste site).Runs (World.init site) pre)
    (hout : ∀ o, (((poste site).after (World.init site) pre).opers o).phase.inWorkLoop = false)
    (h : ((poste site).restrict TakesFree).Runs ((poste site).after (World.init site) pre) as)
    (hday : ∀ a ∈ as, SameDay a) :
    ServingNamed site ((poste site).after (World.init site) (pre ++ as)) := by
  obtain ⟨g, hR, -⟩ := tablePresent_run site pre hpre
  have hholders : g.HoldersNamed := by
    intro o k ho
    rw [hR.holds] at ho
    exact absurd ((Operatore.Phase.currentSeat_eq_none (hout o)).symm.trans ho) (by simp)
  have href := (poste_refines_registry site).restrict
    (C := fun w a => SameDay a ∧ TakesFree w a) (D := Registry.Careful)
    (fun w g a e hR ha hC he => hR.careful ha hC.1 hC.2 he)
  obtain ⟨hruns, hR'⟩ := href.run hR as (h.restrict_and _ hday)
  rw [GuardedSystem.after_append]
  exact RegistryOf.servingNamed hR' (Registry.holdersNamed hholders _ hruns)

theorem takesFree_of_serving (site : Site O U) {as : List (Act O U)} {a : Act O U}
    (h : (poste site).Runs (World.init site) (as ++ [a]))
    (hserve : ServingNamed site ((poste site).after (World.init site) (as ++ [a]))) :
    TakesFree ((poste site).after (World.init site) as) a := by
  obtain ⟨has, ha⟩ := (GuardedSystem.runs_snoc _ _ as a).mp h
  have htable := tablePresent_run site as has
  rw [GuardedSystem.after_snoc] at hserve
  generalize (poste site).after (World.init site) as = w at ha hserve htable
  cases a with
  | oper o a =>
    cases a <;> try trivial
    case takeFound k =>
      obtain ⟨hnone, hseat, -⟩ := seat_step site w (.oper o (.takeFound k)) ha
      by_contra hfree
      have hocc : (w.sh.seats k).operatorStatus = .occupied := by
        cases hs : (w.sh.seats k).operatorStatus with
        | free => exact absurd hs hfree
        | occupied => rfl
      obtain ⟨p, -, hpk⟩ := htable.occupied hocc
      have hpo : p ≠ o := by
        rintro rfl
        simp [hnone] at hpk
      have hpk' : (w.next site (.oper o (.takeFound k))).currentSeat p = some k := by
        rw [hseat]
        simpa [hpo] using hpk
      have hok' : (w.next site (.oper o (.takeFound k))).currentSeat o = some k := by
        rw [hseat]
        simp
      exact hpo (hserve.apart p o k hpk' hok')
  | user u a => trivial
  | ticket a => trivial
  | director a => trivial
  | «section» => trivial

/-- From a state with nobody inside `work_loop` until the next reset, the operators and the
table agree throughout if and only if no seat that was found free is occupied when taken. -/
theorem serving_named_iff (site : Site O U) (pre as : List (Act O U))
    (hout : ∀ o, (((poste site).after (World.init site) pre).opers o).phase.inWorkLoop = false)
    (h : (poste site).Runs (World.init site) (pre ++ as)) (hday : ∀ a ∈ as, SameDay a) :
    (∀ bs, bs <+: as → ServingNamed site
        ((poste site).after (World.init site) (pre ++ bs))) ↔
      ((poste site).restrict TakesFree).Runs ((poste site).after (World.init site) pre) as := by
  constructor
  · intro hserve
    induction as using List.reverseRecOn with
    | nil => trivial
    | append_singleton as a ih =>
      rw [← List.append_assoc] at h
      obtain ⟨has, ha⟩ := (GuardedSystem.runs_snoc _ _ (pre ++ as) a).mp h
      have hrun := ih has (fun b hb => hday b (List.mem_append_left [a] hb))
        (fun bs hbs => hserve bs (hbs.trans (List.prefix_append as [a])))
      have hlast := hserve (as ++ [a]) List.prefix_rfl
      rw [← List.append_assoc] at hlast
      refine (GuardedSystem.runs_snoc _ _ as a).mpr ⟨hrun, ?_⟩
      rw [GuardedSystem.restrict_after, ← GuardedSystem.after_append]
      exact ⟨ha, takesFree_of_serving site h hlast⟩
  · intro hrun bs hbs
    have hpre := ((GuardedSystem.runs_append _ _ pre as).mp h).1
    exact serving_of_takesFree site hpre hout (GuardedSystem.Runs.of_prefix _ hrun hbs)
      (fun a ha => hday a (hbs.subset ha))

/-- Operator 0 goes home and operator 1 finds the seat, but operator 2 takes it first. -/
def raceForSeat : List (Act (Fin 3) (Fin 0)) :=
  closing 1200 3 ++ [.oper 0 (.closed 0), .oper 0 (.release 0 false), .oper 0 (.signal false),
    .oper 1 .stationEvent, .oper 1 (.foundSeat 0),
    .oper 2 .enter, .oper 2 .canWork, .oper 2 (.takeFree 0), .oper 1 (.takeFound 0)]

def racedDay : List (Act (Fin 3) (Fin 0)) :=
  wakeOperators ++ (quietMinutes 1 479 ++ (fillSeat ++ (quietMinutes 481 719 ++ raceForSeat)))

theorem racedDay_runs : (poste oneSeat).Runs (World.init oneSeat) (firstMidnight ++ racedDay) := by
  rw [racedDay, GuardedSystem.runs_append, GuardedSystem.runs_append]
  refine ⟨by decide, by decide, ?_⟩
  rw [runs_quiet (m := 1) ⟨by decide, by decide, by decide, by decide⟩ 478
    (fun i h1 h2 => oneSeat_quiet (by omega) (by omega) (by omega) (by omega))]
  rw [GuardedSystem.runs_append]
  refine ⟨by decide, ?_⟩
  rw [runs_quiet (m := 481) ⟨by decide, by decide, by decide, by decide⟩ 718
    (fun i h1 h2 => oneSeat_quiet (by omega) (by omega) (by omega) (by omega))]
  decide

theorem racedDay_sameDay : ∀ a ∈ racedDay, SameDay a := by
  have hquiet (m : ℤ) (k : ℕ) : ∀ a ∈ quietMinutes (O := Fin 3) (U := Fin 0) m k, SameDay a :=
    forall_mem_quietMinutes (by simp [quietMinute, SameDay]) m k
  intro a ha
  simp only [racedDay, List.mem_append] at ha
  rcases ha with ha | ha | ha | ha | ha
  · exact (by decide : ∀ a ∈ wakeOperators, SameDay a) a ha
  · exact hquiet 1 479 a ha
  · exact (by decide : ∀ a ∈ fillSeat, SameDay a) a ha
  · exact hquiet 481 719 a ha
  · exact (by decide : ∀ a ∈ raceForSeat, SameDay a) a ha

theorem racedDay_shared :
    ((poste oneSeat).after (World.init oneSeat) (firstMidnight ++ racedDay)).currentSeat 1 =
      some 0 ∧
    ((poste oneSeat).after (World.init oneSeat) (firstMidnight ++ racedDay)).currentSeat 2 =
      some 0 := by
  rw [racedDay, GuardedSystem.after_append, GuardedSystem.after_append]
  rw [after_quiet (m := 1) ⟨by decide, by decide, by decide, by decide⟩ 478
    (fun i h1 h2 => oneSeat_quiet (by omega) (by omega) (by omega) (by omega))]
  rw [GuardedSystem.after_append]
  rw [after_quiet (m := 481) ⟨by decide, by decide, by decide, by decide⟩ 718
    (fun i h1 h2 => oneSeat_quiet (by omega) (by omega) (by omega) (by omega))]
  decide

/-- The one seat has two operators in the same day. -/
theorem two_operators_at_one_seat : ¬ ∀ pre as : List (Act (Fin 3) (Fin 0)),
    (∀ o, (((poste oneSeat).after (World.init oneSeat) pre).opers o).phase.inWorkLoop = false) →
    (poste oneSeat).Runs (World.init oneSeat) (pre ++ as) → (∀ a ∈ as, SameDay a) →
    ServingNamed oneSeat ((poste oneSeat).after (World.init oneSeat) (pre ++ as)) := by
  intro hnamed
  have hserve := hnamed firstMidnight racedDay (by decide) racedDay_runs racedDay_sameDay
  have hsame := hserve.apart 1 2 0 racedDay_shared.1 racedDay_shared.2
  exact absurd hsame (by decide)

theorem serving_named_iff_raced : ¬ ((poste oneSeat).restrict TakesFree).Runs
    ((poste oneSeat).after (World.init oneSeat) firstMidnight) racedDay := by
  intro hfree
  have hserve := (serving_named_iff oneSeat firstMidnight racedDay (by decide) racedDay_runs
    racedDay_sameDay).mpr hfree racedDay List.prefix_rfl
  have hsame := hserve.apart 1 2 0 racedDay_shared.1 racedDay_shared.2
  exact absurd hsame (by decide)

end PosteItaliane
