import PosteItaliane.Proofs.Gates
import PosteItaliane.Proofs.Sections
import PosteItaliane.Proofs.Steps
import Mathlib.Algebra.Order.BigOperators.Group.List

/-!
# Counting the services of a day

A user that calls `day_loop` owes the statistics one entry for every service of its list.
Each exit of `handle_service` and of the loop either makes the entry or drops services, and
the balance says how many the call has counted when it returns.
-/

namespace PosteItaliane

open Framework

namespace Utente

/-- `day_loop` returns. -/
def Act.Returns : Act → Prop
  | .allDone => True
  | .return _ leaves => leaves = true
  | _ => False

instance decidableReturns (b : Act) : Decidable b.Returns := by
  rcases b with _ | _ <;> (dsimp only [Act.Returns]; infer_instance)

/-- A ticket request fails or is answered by a negative number, or the shift is found over
with further services after the current one. -/
def Act.Drops : Act → Prop
  | .sendTicketFails _ | .receiveTicketFails _ => True
  | .receiveTicket _ m => readTicket m < 0
  | .shiftOver _ rest => rest ≠ []
  | _ => False

/-- The services a step leaves out of both counters. -/
def Act.dropped : Act → ℕ
  | .sendTicketFails _ | .receiveTicketFails _ => 1
  | .receiveTicket _ m => if readTicket m < 0 then 1 else 0
  | .shiftOver _ rest => rest.length
  | _ => 0

/-- The calls of `update_success_stats` and `update_fails_stats`. -/
def Act.counted : Act → ℕ
  | .countServed _ _ _ _ | .countFailed _ _ _ => 1
  | _ => 0

def Phase.inDayLoop : Phase → Bool
  | .notStarted | .boot | .home | .awaitDay | .morning | .exited => false
  | _ => true

/-- The services of the list that `day_loop` has still to count. -/
def Local.owed (l : Local) : ℕ :=
  match l.phase with
  | .awaitOpen _ | .walkIn _ | .services => l.todo.length
  | .checkLate _ _ | .releaseSeat _ _ | .signalFreed _ _ => l.todo.length
  | .countLate _ _ fails leaves =>
    (if fails then 1 else 0) + if leaves then 0 else l.todo.length
  | .countFailed _ _ leaves => 1 + if leaves then 0 else l.todo.length
  | .returning _ leaves => if leaves then 0 else l.todo.length
  | _ => l.todo.length + 1

theorem dropped_eq_zero {b : Act} : b.dropped = 0 ↔ ¬ b.Drops := by
  cases b <;> simp [Act.dropped, Act.Drops]

variable {O U : Type} [Fintype O] [Fintype U] {site : Site O U} {u : U} {l : Local}
  {sh : Shared O U} {b : Act}

/-- A step inside `day_loop` counts a service, drops some, or leaves the debt as it is. -/
theorem owed_step (hin : l.phase.inDayLoop = true) (hb : Enabled site u l sh b)
    (hret : ¬ b.Returns) : (next site u l sh b).1.phase = .exited ∨
      (next site u l sh b).1.phase.inDayLoop = true ∧
        (next site u l sh b).1.owed + b.counted + b.dropped = l.owed := by
  obtain ⟨phase, late, todo⟩ := l
  cases b <;> simp only [Enabled] at hb
  case sleepFails walkIn => exact Or.inl rfl
  case napFails x valid => exact Or.inl rfl
  case crash rGo rNum => exact Or.inl rfl
  all_goals
    right
    simp only [next]
    grind [Act.Returns, Act.counted, Act.dropped, Phase.inDayLoop, Local.owed]

end Utente

variable {O U : Type} [Fintype O] [Fintype U] [DecidableEq O] [DecidableEq U]

/-- The assignments a process has still to make before it gives `stats_lock` back. -/
def World.pendingOf (w : World O U) (p : Proc O U) : List StatsWrite :=
  match w.sh.stats.holder with
  | some (q, ws) => if q = p then ws else []
  | none => []

/-- One more in `served_users` or `failed_services` of `simulation_global`. -/
def StatsWrite.countsService : StatsWrite → Bool
  | .increment .simulationGlobal .servedUsers => true
  | .increment .simulationGlobal .failedServices => true
  | _ => false

/-- What a step adds to the two counters if it is an assignment of the process. -/
def World.adds (p : Proc O U) (w : World O U) : Act O U → ℕ
  | .section => ((w.pendingOf p).take 1).countP StatsWrite.countsService
  | _ => 0

omit [Fintype O] [Fintype U] in
theorem pendingOf_eq_nil {w : World O U} {p : Proc O U} (h : w.sh.stats.inside ≠ some p) :
    w.pendingOf p = [] := by
  unfold World.pendingOf
  cases hholder : w.sh.stats.holder with
  | none => rfl
  | some q =>
    obtain ⟨q, ws⟩ := q
    have hq : q ≠ p := by
      rintro rfl
      exact h (by simp [Monitor.inside, hholder])
    exact if_neg hq

theorem pendingOf_section (site : Site O U) (w : World O U) (p : Proc O U) :
    (w.next site .section).pendingOf p = (w.pendingOf p).tail := by
  have hnext : (w.next site .section).sh.stats = w.sh.stats.advance := rfl
  unfold World.pendingOf
  rw [hnext]
  cases hholder : w.sh.stats.holder with
  | none => simp [Monitor.advance, hholder]
  | some q =>
    obtain ⟨q, _ | ⟨e, ws⟩⟩ := q
    · rw [Monitor.advance_nil hholder]
      by_cases hq : q = p <;> simp [hq]
    · rw [Monitor.advance_cons hholder]
      by_cases hq : q = p <;> simp [hq]

theorem pendingOf_step (site : Site O U) {w : World O U} {a : Act O U} (ha : w.Enabled site a)
    {p : Proc O U} (hsection : statsEvent site a ≠ some .advance)
    (hbegin : ∀ op, statsEvent site a ≠ some (.begin p op)) :
    (w.next site a).pendingOf p = w.pendingOf p := by
  have hstep := stats_step site w a ha
  cases hev : statsEvent site a with
  | none =>
    rw [hev] at hstep
    unfold World.pendingOf
    rw [hstep]
  | some e =>
    rw [hev] at hstep
    cases e with
    | begin q op =>
      have hq : q ≠ p := by
        rintro rfl
        exact hbegin op hev
      have hnone : w.sh.stats.holder = none := hstep.1
      unfold World.pendingOf
      rw [hstep.2, hnone]
      exact if_neg hq
    | advance => exact absurd hev hsection

theorem pendingOf_other (site : Site O U) {w : World O U} {a : Act O U} (ha : w.Enabled site a)
    {p : Proc O U} (hsection : a ≠ .section) (hother : a.process ≠ some p) :
    (w.next site a).pendingOf p = w.pendingOf p :=
  pendingOf_step site ha (fun hev => hsection ((statsEvent_eq_advance site).mp hev))
    (fun _ hev => hother (process_of_begin hev))

theorem pendingOf_user (site : Site O U) {w : World O U} {u : U} {b : Utente.Act}
    (ha : w.Enabled site (.user u b)) :
    ((w.next site (.user u b)).pendingOf (.utente u)).countP StatsWrite.countsService =
      b.counted := by
  have hnil := pendingOf_eq_nil ha.1
  have hkeep (hev : statsEvent site (.user u b) = none) :
      ((w.next site (.user u b)).pendingOf (.utente u)).countP StatsWrite.countsService = 0 := by
    rw [pendingOf_step site ha (by simp [hev]) (by simp [hev]), hnil]
    rfl
  cases b
  case countServed x k wait d =>
    show (if Proc.utente u = .utente u then _ else _ : List StatsWrite).countP _ = 1
    rw [if_pos rfl]
    rfl
  case countFailed s seat leaves =>
    show (if Proc.utente u = .utente u then _ else _ : List StatsWrite).countP _ = 1
    rw [if_pos rfl]
    rfl
  case countLate beenLate s seat fails leaves =>
    show (if Proc.utente u = .utente u then _ else _ : List StatsWrite).countP _ = 0
    rw [if_pos rfl]
    cases beenLate <;> rfl
  all_goals exact hkeep rfl

/-- What a step of the user drops. -/
def droppedBy (u : U) : Act O U → ℕ
  | .user v b => if v = u then b.dropped else 0
  | _ => 0

/-- What a call of `day_loop` has added since `w₀`, has begun to add, owes and has dropped
is the length of its list. -/
structure Owing (site : Site O U) (u : U) (n : ℕ) (w₀ : World O U) (as : List (Act O U))
    (w : World O U) : Prop where
  inDayLoop : (w.users u).phase.inDayLoop = true
  balance : (poste site).sumOver (World.adds (.utente u)) w₀ as +
    (w.pendingOf (.utente u)).countP StatsWrite.countsService + (w.users u).owed +
    (as.map (droppedBy u)).sum = n

theorem Owing.other {site : Site O U} {u : U} {n : ℕ} {w₀ : World O U} {as : List (Act O U)}
    (h : Owing site u n w₀ as ((poste site).after w₀ as)) {a : Act O U}
    (hlocal : (((poste site).after w₀ as).next site a).users u =
      ((poste site).after w₀ as).users u)
    (hdropped : droppedBy u a = 0)
    (hpending : World.adds (.utente u) ((poste site).after w₀ as) a +
      ((((poste site).after w₀ as).next site a).pendingOf (.utente u)).countP
        StatsWrite.countsService =
      (((poste site).after w₀ as).pendingOf (.utente u)).countP StatsWrite.countsService) :
    Owing site u n w₀ (as ++ [a]) (((poste site).after w₀ as).next site a) := by
  obtain ⟨hin, hbalance⟩ := h
  refine ⟨by rw [hlocal]; exact hin, ?_⟩
  rw [GuardedSystem.sumOver_snoc, hlocal, List.map_append, List.sum_append, List.map_singleton,
    List.sum_singleton, hdropped]
  omega

theorem Owing.step {site : Site O U} {u : U} {n : ℕ} {w₀ : World O U} {as : List (Act O U)}
    (h : Owing site u n w₀ as ((poste site).after w₀ as)) {a : Act O U}
    (ha : ((poste site).after w₀ as).Enabled site a)
    (hret : ∀ b, a = .user u b → ¬ b.Returns) :
    ((((poste site).after w₀ as).next site a).users u).phase = .exited ∨
      Owing site u n w₀ (as ++ [a]) (((poste site).after w₀ as).next site a) := by
  have hquiet (hsection : a ≠ .section) (hother : a.process ≠ some (.utente u))
      (hadds : World.adds (.utente u) ((poste site).after w₀ as) a = 0)
      (hlocal : (((poste site).after w₀ as).next site a).users u =
        ((poste site).after w₀ as).users u) (hdropped : droppedBy u a = 0) :
      Owing site u n w₀ (as ++ [a]) (((poste site).after w₀ as).next site a) := by
    apply h.other hlocal hdropped
    rw [hadds, pendingOf_other site ha hsection hother, Nat.zero_add]
  cases a with
  | user v b =>
    by_cases hv : v = u
    · subst v
      rcases Utente.owed_step h.inDayLoop ha.2 (hret b rfl) with hexit | ⟨hin, howed⟩
      · left
        simpa [World.next] using hexit
      · right
        have hlocal : (((poste site).after w₀ as).next site (.user u b)).users u =
            (Utente.next site u (((poste site).after w₀ as).users u)
              ((poste site).after w₀ as).sh b).1 := by simp [World.next]
        have hpending := pendingOf_user site ha
        have hnil := pendingOf_eq_nil ha.1
        have hbalance := h.balance
        rw [hnil, List.countP_nil] at hbalance
        refine ⟨by rw [hlocal]; exact hin, ?_⟩
        rw [GuardedSystem.sumOver_snoc, hpending, hlocal, List.map_append, List.sum_append]
        simp only [World.adds, droppedBy, if_true, List.map_cons, List.map_nil, List.sum_cons,
          List.sum_nil]
        omega
    · right
      have huv : u ≠ v := fun huv => hv huv.symm
      exact hquiet (by simp) (by simpa using hv) rfl (by simp [World.next, huv]) (if_neg hv)
  | oper o b => exact Or.inr (hquiet (by simp) (by simp) rfl rfl rfl)
  | ticket b => exact Or.inr (hquiet (by simp) (by simp) rfl rfl rfl)
  | director b =>
    right
    refine hquiet (by simp) (by simp) rfl ?_ rfl
    cases b <;> try rfl
    case startUser v m =>
      have hphase : ((((poste site).after w₀ as).users v).phase) = .notStarted := ha.2.2
      have huv : u ≠ v := by
        rintro rfl
        have hin := h.inDayLoop
        rw [hphase] at hin
        cases hin
      simp [World.next, World.usersAfter, huv]
  | «section» =>
    right
    apply h.other rfl rfl
    rw [pendingOf_section, World.adds, ← List.countP_append]
    congr 1
    cases ((poste site).after w₀ as).pendingOf (.utente u) <;> rfl

theorem owing_run {site : Site O U} {u : U} {n : ℕ} {w₀ : World O U}
    (h0 : Owing site u n w₀ [] w₀) (as : List (Act O U)) (h : (poste site).Runs w₀ as)
    (hret : ∀ b, Act.user u b ∈ as → ¬ b.Returns) :
    (((poste site).after w₀ as).users u).phase = .exited ∨
      Owing site u n w₀ as ((poste site).after w₀ as) := by
  induction as using List.reverseRecOn with
  | nil => exact Or.inr h0
  | append_singleton as a ih =>
    obtain ⟨has, ha⟩ := (GuardedSystem.runs_snoc _ _ as a).mp h
    rw [GuardedSystem.after_snoc]
    rcases ih has (fun b hb => hret b (List.mem_append_left [a] hb)) with hexit | howing
    · left
      rcases user_step site ha u with hu | ⟨b, rfl, hb, -⟩ | ⟨m, -, hphase, -⟩
      · exact (congrArg Utente.Local.phase hu).trans hexit
      · cases b <;> simp [Utente.Enabled, hexit] at hb
      · rw [hexit] at hphase
        cases hphase
    · apply howing.step ha
      rintro b rfl
      exact hret b (List.mem_append_right as List.mem_cons_self)

theorem owing_plan (site : Site O U) {w : World O U} {u : U} {rGo rNum rWalk : ℕ} {rs : List ℕ}
    (ha : w.Enabled site (.user u (.plan rGo rNum rs rWalk))) :
    Owing site u rs.length (w.next site (.user u (.plan rGo rNum rs rWalk))) []
      (w.next site (.user u (.plan rGo rNum rs rWalk))) := by
  have hlocal : (w.next site (.user u (.plan rGo rNum rs rWalk))).users u =
      (Utente.next site u (w.users u) w.sh (.plan rGo rNum rs rWalk)).1 := by simp [World.next]
  have hpending := pendingOf_user site ha
  refine ⟨by rw [hlocal]; rfl, ?_⟩
  rw [hpending, hlocal]
  simp [GuardedSystem.sumOver, Utente.next, Utente.Local.owed, Utente.Act.counted,
    Utente.generateServiceList]

theorem added_add_dropped (site : Site O U) {w : World O U} {u : U} {rGo rNum rWalk : ℕ}
    {rs : List ℕ} {as : List (Act O U)} {last : Utente.Act}
    (h : (poste site).Runs w (.user u (.plan rGo rNum rs rWalk) :: (as ++ [.user u last])))
    (hin : ∀ b, Act.user u b ∈ as → ¬ b.Returns) (hlast : last.Returns) :
    (poste site).sumOver (World.adds (.utente u)) w
        (.user u (.plan rGo rNum rs rWalk) :: (as ++ [.user u last])) +
      (as.map (droppedBy u)).sum = rs.length := by
  obtain ⟨hplan, hrest⟩ := h
  obtain ⟨has, hend⟩ := (GuardedSystem.runs_snoc _ _ as _).mp hrest
  show 0 + (poste site).sumOver (World.adds (.utente u))
    (w.next site (.user u (.plan rGo rNum rs rWalk))) (as ++ [.user u last]) + _ = _
  rw [GuardedSystem.sumOver_snoc]
  have hrun := owing_run (owing_plan site hplan) as has hin
  generalize hw : w.next site (.user u (.plan rGo rNum rs rWalk)) = w₀ at hrun has hend ⊢
  have hstart : (poste site).next w (.user u (.plan rGo rNum rs rWalk)) = w₀ := hw
  rw [hstart] at hend
  have hnil := pendingOf_eq_nil hend.1
  rcases hrun with hexit | ⟨-, hbalance⟩
  · have hphase := hend.2
    cases last <;> simp [Utente.Enabled, hexit] at hphase
  · rw [hnil] at hbalance
    have howed : (((poste site).after w₀ as).users u).owed = 0 := by
      have hphase := hend.2
      cases last <;> try exact hlast.elim
      case allDone =>
        obtain ⟨hservices, htodo⟩ := hphase
        simp [Utente.Local.owed, hservices, htodo]
      case «return» seat leaves =>
        have hleaves : leaves = true := hlast
        have hreturning : (((poste site).after w₀ as).users u).phase = .returning seat leaves :=
          hphase
        simp [Utente.Local.owed, hreturning, hleaves]
    simp only [World.adds, List.countP_nil] at hbalance ⊢
    omega

omit [Fintype O] [Fintype U] [DecidableEq O] in
theorem sum_droppedBy_eq_zero {u : U} {as : List (Act O U)} :
    (as.map (droppedBy u)).sum = 0 ↔ ∀ b, Act.user u b ∈ as → ¬ b.Drops := by
  rw [List.sum_eq_zero_iff]
  constructor
  · intro hzero b hb
    have hdropped := hzero _ (List.mem_map_of_mem (f := droppedBy u) hb)
    exact Utente.dropped_eq_zero.mp (by simpa [droppedBy] using hdropped)
  · intro hkeep n hn
    obtain ⟨a, ha, rfl⟩ := List.mem_map.mp hn
    cases a with
    | user v b =>
      by_cases hv : v = u
      · subst v
        simpa [droppedBy] using Utente.dropped_eq_zero.mpr (hkeep b ha)
      · exact if_neg hv
    | _ => rfl

/-- A call of `day_loop` that returns has counted every service of its list exactly once if
and only if none of its steps drops one. -/
theorem services_counted_iff (site : Site O U) (w : World O U) (u : U) (rGo rNum rWalk : ℕ)
    (rs : List ℕ) (as : List (Act O U)) (last : Utente.Act)
    (h : (poste site).Runs w (.user u (.plan rGo rNum rs rWalk) :: (as ++ [.user u last])))
    (hin : ∀ b, Act.user u b ∈ as → ¬ b.Returns) (hlast : last.Returns) :
    (poste site).sumOver (World.adds (.utente u)) w
        (.user u (.plan rGo rNum rs rWalk) :: (as ++ [.user u last])) =
      (Utente.generateServiceList rs).length ↔ ∀ b, Act.user u b ∈ as → ¬ b.Drops := by
  have hbalance := added_add_dropped site h hin hlast
  have hlength : (Utente.generateServiceList rs).length = rs.length := List.length_map _
  rw [hlength, ← sum_droppedBy_eq_zero]
  omega

/-- The user has been woken at the counter with one operator. -/
def errandsMorning : List (Act (Fin 1) (Fin 1)) :=
  [Act.oper 0 .waitDay, .user 0 .waitDay] ++ midnight 1 ++
    [Act.director (.resetSeats fun _ => 0)] ++ wakeUps 2 ++ [Act.user 0 .wake]

/-- It will go to the office twice. -/
def errandsPlan : Act (Fin 1) (Fin 1) := .user 0 (.plan 50 1 [0, 0] 0)

def errandsOpening : List (Act (Fin 1) (Fin 1)) :=
  opening 480 2 ++ [Act.user 0 (.enter 481), .user 0 (.arrive 481)]

/-- It gets to its first errand at the closing. -/
def errandsClosing : List (Act (Fin 1) (Fin 1)) :=
  [Act.user 0 (.shiftOver 0 [0]), .user 0 (.countLate false 0 none true true)] ++
    List.replicate 4 Act.section ++ [Act.user 0 (.countFailed 0 none true)] ++
    List.replicate 5 Act.section

def errandsDay : List (Act (Fin 1) (Fin 1)) :=
  quietMinutes 1 479 ++ (errandsOpening ++ (quietMinutes 481 719 ++ errandsClosing))

theorem errands_runs : (poste oneCounter).Runs (World.init oneCounter)
    (errandsMorning ++ (errandsPlan :: (errandsDay ++ [.user 0 (.return none true)]))) := by
  have hday : (poste oneCounter).Runs ((poste oneCounter).after (World.init oneCounter)
      (errandsMorning ++ [errandsPlan])) (errandsDay ++ [.user 0 (.return none true)]) := by
    simp only [errandsDay, List.append_assoc]
    rw [runs_quiet (m := 1) ⟨by decide, by decide, by decide, by decide⟩ 478
      oneCounter_quiet_morning, GuardedSystem.runs_append]
    refine ⟨by decide, ?_⟩
    apply (runs_quiet (m := 481) ⟨by decide, by decide, by decide, by decide⟩ 718
      oneCounter_quiet_afternoon _).mpr
    decide
  have hsplit : errandsMorning ++ (errandsPlan :: (errandsDay ++ [.user 0 (.return none true)])) =
      (errandsMorning ++ [errandsPlan]) ++ (errandsDay ++ [.user 0 (.return none true)]) := by
    simp
  rw [hsplit, GuardedSystem.runs_append]
  exact ⟨by decide, hday⟩

theorem errands_within : ∀ b, Act.user 0 b ∈ errandsDay → ¬ b.Returns := by
  have hquiet (m : ℤ) (k : ℕ) : ∀ a ∈ quietMinutes (O := Fin 1) (U := Fin 1) m k,
      ∀ b, a = .user 0 b → ¬ b.Returns :=
    forall_mem_quietMinutes (by simp [quietMinute]) m k
  intro b hb
  simp only [errandsDay, List.mem_append] at hb
  rcases hb with hb | hb | hb | hb
  · exact hquiet 1 479 _ hb b rfl
  · have hopen : b = .enter 481 ∨ b = .arrive 481 := by
      simpa [errandsOpening, opening] using hb
    rcases hopen with rfl | rfl <;> decide
  · exact hquiet 481 719 _ hb b rfl
  · have hclose : b = .shiftOver 0 [0] ∨ b = .countLate false 0 none true true ∨
        b = .countFailed 0 none true := by
      simpa [errandsClosing] using hb
    rcases hclose with rfl | rfl | rfl <;> decide

theorem errands_dropped : Act.user 0 (.shiftOver 0 [0]) ∈ errandsDay := by
  simp [errandsDay, errandsClosing]

theorem services_counted_iff_errands : (poste oneCounter).sumOver (World.adds (.utente 0))
    ((poste oneCounter).after (World.init oneCounter) errandsMorning)
    (errandsPlan :: (errandsDay ++ [.user 0 (.return none true)])) ≠ 2 := by
  intro hcounted
  have hruns := ((GuardedSystem.runs_append _ _ errandsMorning _).mp errands_runs).2
  have hkeep := (services_counted_iff oneCounter _ 0 50 1 0 [0, 0] errandsDay (.return none true)
    hruns errands_within rfl).mp hcounted
  exact hkeep _ errands_dropped (by simp [Utente.Act.Drops])

/-- Of two services one is counted, as a failed one. -/
theorem second_errand_uncounted : ¬ ∀ (pre as : List (Act (Fin 1) (Fin 1))) (rs : List ℕ)
    (rGo rNum rWalk : ℕ) (last : Utente.Act),
    (poste oneCounter).Runs (World.init oneCounter)
      (pre ++ (.user 0 (.plan rGo rNum rs rWalk) :: (as ++ [.user 0 last]))) →
    (∀ b, Act.user 0 b ∈ as → ¬ b.Returns) → last.Returns →
    (poste oneCounter).sumOver (World.adds (.utente 0))
        ((poste oneCounter).after (World.init oneCounter) pre)
        (.user 0 (.plan rGo rNum rs rWalk) :: (as ++ [.user 0 last])) =
      (Utente.generateServiceList rs).length := by
  intro hallCounted
  have hcounted := hallCounted errandsMorning errandsDay [0, 0] 50 1 0 (.return none true)
    errands_runs errands_within rfl
  have hruns := ((GuardedSystem.runs_append _ _ errandsMorning _).mp errands_runs).2
  have hbalance := added_add_dropped oneCounter hruns errands_within rfl
  have hlength : (Utente.generateServiceList [0, 0]).length = [0, 0].length := List.length_map _
  have hzero : (errandsDay.map (droppedBy 0)).sum = 0 := by omega
  exact sum_droppedBy_eq_zero.mp hzero _ errands_dropped (by simp [Utente.Act.Drops])

end PosteItaliane
