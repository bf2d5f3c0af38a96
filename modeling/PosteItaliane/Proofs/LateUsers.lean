import PosteItaliane.Framework.Tally
import PosteItaliane.Proofs.DayLoop

/-!
# Late users and late reports

The counter of late users is reset by the director, and the flag that keeps a user from
being counted twice by the user itself. A ghost records the reports every user has made since
the last reset. The counter is the number of late users as long as no user clears its flag
after a report that the director has not reset yet.
-/

namespace PosteItaliane

open Framework

variable {O U : Type} [Fintype O] [Fintype U] [DecidableEq O] [DecidableEq U]

/-- The late reports of each user since `today` was last reset. -/
abbrev LateBook (U : Type) := U → ℕ

def LateBook.record (b : LateBook U) (w : World O U) : Act O U → LateBook U
  | .section =>
    match w.sh.stats.holder with
    | some (.utente u, .todayLateUsers :: _) => Function.update b u (b u + 1)
    | some (_, .resetToday :: _) => fun _ => 0
    | _ => b
  | _ => b

/-- The simulation with the late reports. -/
def posteLate (site : Site O U) : GuardedSystem (World O U × LateBook U) (Act O U) :=
  (poste site).withGhost LateBook.record

instance decidablePosteLate (site : Site O U) (p : World O U × LateBook U) (a : Act O U) :
    Decidable ((posteLate site).Enabled p a) :=
  inferInstanceAs (Decidable (p.1.Enabled site a))

/-- A user that plans its day, and clears its flag, has not been late since the last reset. -/
def StartsUnreported (p : World O U × LateBook U) : Act O U → Prop
  | .user u (.plan _ _ _ _) => p.2 u = 0
  | _ => True

instance decidableStartsUnreported (p : World O U × LateBook U) (a : Act O U) :
    Decidable (StartsUnreported p a) := by
  rcases a with _ | ⟨u, b⟩ | _
  case user => rcases b with _ | _ <;> (dsimp only [StartsUnreported]; infer_instance)
  all_goals exact isTrue trivial

/-- The user processes that have been started. -/
def World.startedUsers (w : World O U) : Finset U :=
  Finset.univ.filter fun u => (w.users u).phase ≠ .notStarted

/-- The users that were late since the last reset. -/
def LateBook.lateUsers (b : LateBook U) : Finset U := Finset.univ.filter fun u => 0 < b u

/-- The late reports a user is about to write. -/
def World.reportsDue (w : World O U) (u : U) : ℕ :=
  (w.pendingOf (.utente u)).count .todayLateUsers

/-- A user's report in `today.late_users`. -/
def lateTally : Tally (Proc O U) PosteStats StatsWrite U where
  counter x := x.today.lateUsers
  client
    | .utente u => some u
    | _ => none
  incr e := decide (e = .todayLateUsers)
  clear e := decide (e = .resetToday)
  counter_assign e x := by
    cases e with
    | increment r i => cases r <;> rfl
    | _ => rfl
  incr_of_clear e he := by
    have he : e = .resetToday := of_decide_eq_true he
    subst he
    rfl

omit [Fintype O] [Fintype U] [DecidableEq O] [DecidableEq U] in
theorem SectionsHeld.reporter {w : World O U} (h : SectionsHeld w) {p : Proc O U}
    {ws : List StatsWrite} (hholder : w.sh.stats.holder = some (p, .todayLateUsers :: ws)) :
    ∃ u, p = .utente u := by
  have hmade := h.madeBy hholder _ List.mem_cons_self
  cases p with
  | utente u => exact ⟨u, rfl⟩
  | operatore o => exact hmade.elim
  | direttore => exact hmade.elim

omit [Fintype O] [Fintype U] [DecidableEq O] in
theorem lateBook_section (b : LateBook U) (w : World O U) :
    b.record w .section = lateTally.record w.sh.stats b := by
  unfold Tally.record
  simp only [LateBook.record]
  cases hholder : w.sh.stats.holder with
  | none => rfl
  | some q =>
    obtain ⟨p, _ | ⟨e, ws⟩⟩ := q
    · cases p <;> rfl
    · cases p <;> cases e <;> rfl

omit [Fintype O] [Fintype U] in
theorem reportsDue_eq (w : World O U) (u : U) :
    w.reportsDue u = lateTally.due w.sh.stats u := by
  simp only [World.reportsDue, World.pendingOf, Tally.due]
  cases hholder : w.sh.stats.holder with
  | none => rfl
  | some q =>
    obtain ⟨p, ws⟩ := q
    cases p with
    | utente v =>
      by_cases hv : v = u
      · subst hv
        simp [lateTally, List.count_eq_countP]
        rfl
      · simp [lateTally, hv]
    | operatore o => simp [lateTally]
    | direttore => simp [lateTally]

theorem lateUsers_section (site : Site O U) {w : World O U} (h : SectionsHeld w) {b : LateBook U}
    (htotal : w.sh.stats.value.today.lateUsers = ∑ u, b u) :
    (w.next site .section).sh.stats.value.today.lateUsers = ∑ u, b.record w .section u := by
  have hnext : (w.next site .section).sh.stats = w.sh.stats.advance := rfl
  rw [hnext, lateBook_section]
  apply lateTally.counter_advance _ htotal
  intro p e ws hholder he
  have he : e = .todayLateUsers := of_decide_eq_true he
  subst he
  obtain ⟨u, rfl⟩ := h.reporter hholder
  exact ⟨u, rfl⟩

/-- The counter is the sum of the reports since the last reset. -/
structure LateCounted (p : World O U × LateBook U) : Prop where
  held : SectionsHeld p.1
  total : p.1.sh.stats.value.today.lateUsers = ∑ u, p.2 u

theorem LateCounted.step {site : Site O U} {p : World O U × LateBook U} (h : LateCounted p)
    {a : Act O U} (ha : p.1.Enabled site a) : LateCounted ((posteLate site).next p a) where
  held := h.held.step ha
  total := by
    have hkeep (hsection : a ≠ .section) (hrecord : p.2.record p.1 a = p.2) :
        (p.1.next site a).sh.stats.value.today.lateUsers = ∑ u, p.2.record p.1 a u := by
      rw [value_step site ha hsection, hrecord]
      exact h.total
    cases a with
    | oper o b => exact hkeep (by simp) rfl
    | user u b => exact hkeep (by simp) rfl
    | ticket b => exact hkeep (by simp) rfl
    | director b => exact hkeep (by simp) rfl
    | «section» => exact lateUsers_section site h.held h.total

omit [DecidableEq O] in
theorem lateCounted_init (site : Site O U) :
    LateCounted (World.init site, (fun _ => 0 : LateBook U)) where
  held := sectionsHeld_init site
  total := Finset.sum_const_zero.symm

theorem lateCounted_run (site : Site O U) (as : List (Act O U))
    (h : (poste site).Runs (World.init site) as) :
    LateCounted ((posteLate site).after (World.init site, fun _ => 0) as) :=
  (posteLate site).invariant (lateCounted_init site) (fun _ _ hp ha => hp.step ha) as
    (((poste site).runs_withGhost _ _ _ as).mpr h)

/-- A user in its day that has cleared its flag has made no report since the last reset. -/
structure ReportsOnce (p : World O U × LateBook U) : Prop where
  once : ∀ u, p.2 u + p.1.reportsDue u ≤ 1
  guard : ∀ u, (p.1.users u).phase.inDayLoop = true → (p.1.users u).beenLateToday = false →
    p.2 u + p.1.reportsDue u = 0
  started : ∀ u, (p.1.users u).phase = .notStarted → p.2 u + p.1.reportsDue u = 0

theorem reports_section (site : Site O U) (w : World O U) (b : LateBook U) (u : U) :
    b.record w .section u + (w.next site .section).reportsDue u ≤ b u + w.reportsDue u := by
  have hnext : (w.next site .section).sh.stats = w.sh.stats.advance := rfl
  rw [reportsDue_eq, reportsDue_eq, hnext, lateBook_section]
  exact lateTally.record_add_due_le b u

theorem reportsDue_user (site : Site O U) {w : World O U} {u : U} {b : Utente.Act}
    (ha : w.Enabled site (.user u b)) : (w.next site (.user u b)).reportsDue u =
      match b with
      | .countLate false _ _ _ _ => 1
      | _ => 0 := by
  have hnil := pendingOf_eq_nil ha.1
  have hkeep (hev : statsEvent site (.user u b) = none) :
      (w.next site (.user u b)).reportsDue u = 0 := by
    rw [World.reportsDue, pendingOf_step site ha (by simp [hev]) (by simp [hev]), hnil]
    rfl
  cases b
  case countServed x k wait d =>
    show (if Proc.utente u = .utente u then _ else _ : List StatsWrite).count _ = 0
    rw [if_pos rfl]
    simp [updateSuccessStats]
  case countFailed s seat leaves =>
    show (if Proc.utente u = .utente u then _ else _ : List StatsWrite).count _ = 0
    rw [if_pos rfl]
    simp [updateFailsStats]
  case countLate beenLate s seat fails leaves =>
    show (if Proc.utente u = .utente u then _ else _ : List StatsWrite).count _ = _
    rw [if_pos rfl]
    cases beenLate <;> simp [handleLateUsers]
  all_goals exact hkeep rfl

omit [Fintype O] [Fintype U] in
theorem reportsDue_eq_zero {w : World O U} {u : U} (h : w.sh.stats.inside ≠ some (.utente u)) :
    w.reportsDue u = 0 := by
  rw [World.reportsDue, pendingOf_eq_nil h]
  rfl

omit [DecidableEq O] [DecidableEq U] in
theorem Utente.flag_step {site : Site O U} {u : U} {l : Utente.Local} {sh : Shared O U}
    {b : Utente.Act} (hb : Utente.Enabled site u l sh b)
    (hplan : ∀ rGo rNum rs rWalk, b ≠ .plan rGo rNum rs rWalk)
    (hin : (Utente.next site u l sh b).1.phase.inDayLoop = true)
    (hflag : (Utente.next site u l sh b).1.beenLateToday = false) :
    l.phase.inDayLoop = true ∧ l.beenLateToday = false := by
  cases b
  case plan rGo rNum rs rWalk => exact absurd rfl (hplan rGo rNum rs rWalk)
  case countLate beenLate s seat fails leaves => cases hflag
  -- the steps outside the day
  case waitDay => cases hin
  case wake => cases hin
  case stayHome r => cases hin
  case crash rGo rNum => cases hin
  all_goals first
    | exact ⟨congrArg Utente.Phase.inDayLoop hb, hflag⟩
    | exact ⟨congrArg Utente.Phase.inDayLoop hb.1, hflag⟩

omit [DecidableEq O] [DecidableEq U] in
theorem Utente.next_ne_notStarted {site : Site O U} {u : U} {l : Utente.Local} {sh : Shared O U}
    {b : Utente.Act} (hb : Utente.Enabled site u l sh b) :
    (Utente.next site u l sh b).1.phase ≠ .notStarted := by
  cases b
  case sleepOn w =>
    intro hnot
    cases hb.1.symm.trans hnot
  case receiveTicket s m =>
    simp only [Utente.next]
    split <;> simp
  case receiveDone x k start m d =>
    simp only [Utente.next]
    split <;> simp
  case countLate beenLate s seat fails leaves => cases fails <;> simp [Utente.next]
  case «return» seat leaves => cases leaves <;> simp [Utente.next]
  all_goals simp [Utente.next]

theorem ReportsOnce.own_step {site : Site O U} {p : World O U × LateBook U} (h : ReportsOnce p)
    {u : U} {b : Utente.Act} (ha : p.1.Enabled site (.user u b))
    (hstart : StartsUnreported p (.user u b)) :
    p.2 u + (p.1.next site (.user u b)).reportsDue u ≤ 1 ∧
      ((Utente.next site u (p.1.users u) p.1.sh b).1.phase.inDayLoop = true →
        (Utente.next site u (p.1.users u) p.1.sh b).1.beenLateToday = false →
        p.2 u + (p.1.next site (.user u b)).reportsDue u = 0) ∧
      (Utente.next site u (p.1.users u) p.1.sh b).1.phase ≠ .notStarted := by
  have honce := h.once u
  have hguard := h.guard u
  rw [reportsDue_eq_zero ha.1] at honce hguard
  rw [reportsDue_user site ha]
  obtain ⟨-, he⟩ := ha
  have hphase := Utente.next_ne_notStarted he
  cases b
  case plan rGo rNum rs rWalk =>
    have hzero : p.2 u = 0 := hstart
    exact ⟨by simp [hzero], fun _ _ => by simp [hzero], hphase⟩
  case countLate beenLate s seat fails leaves =>
    have hin : (p.1.users u).phase.inDayLoop = true := by
      rw [he.1]
      rfl
    refine ⟨?_, fun _ hflag => (Bool.false_ne_true hflag.symm).elim, hphase⟩
    cases beenLate with
    | false =>
      have hzero := hguard hin he.2.1
      exact Nat.le_of_eq (congrArg (· + 1) hzero)
    | true => exact honce
  all_goals
    refine ⟨honce, fun hin hflag => ?_, hphase⟩
    obtain ⟨hinBefore, hflagBefore⟩ := Utente.flag_step he (by simp) hin hflag
    exact hguard hinBefore hflagBefore

theorem ReportsOnce.step {site : Site O U} {p : World O U × LateBook U} (h : ReportsOnce p)
    {a : Act O U} (ha : p.1.Enabled site a) (hstart : StartsUnreported p a) :
    ReportsOnce ((posteLate site).next p a) := by
  have hother (v : U) (hv : (p.1.next site a).users v = p.1.users v)
      (hdue : p.2.record p.1 a v + (p.1.next site a).reportsDue v ≤
        p.2 v + p.1.reportsDue v) :
      p.2.record p.1 a v + (p.1.next site a).reportsDue v ≤ 1 ∧
        (((p.1.next site a).users v).phase.inDayLoop = true →
          ((p.1.next site a).users v).beenLateToday = false →
          p.2.record p.1 a v + (p.1.next site a).reportsDue v = 0) ∧
        (((p.1.next site a).users v).phase = .notStarted →
          p.2.record p.1 a v + (p.1.next site a).reportsDue v = 0) := by
    rw [hv]
    refine ⟨hdue.trans (h.once v), fun hin hflag => ?_, fun hphase => ?_⟩
    · have hzero := h.guard v hin hflag
      omega
    · have hzero := h.started v hphase
      omega
  have hquiet (hrecord : p.2.record p.1 a = p.2) (v : U) (hsection : a ≠ .section)
      (hother : a.process ≠ some (.utente v)) :
      p.2.record p.1 a v + (p.1.next site a).reportsDue v ≤ p.2 v + p.1.reportsDue v := by
    rw [hrecord, World.reportsDue, pendingOf_other site ha hsection hother]
    exact le_rfl
  have hall (v : U) : p.2.record p.1 a v + (p.1.next site a).reportsDue v ≤ 1 ∧
      (((p.1.next site a).users v).phase.inDayLoop = true →
        ((p.1.next site a).users v).beenLateToday = false →
        p.2.record p.1 a v + (p.1.next site a).reportsDue v = 0) ∧
      (((p.1.next site a).users v).phase = .notStarted →
        p.2.record p.1 a v + (p.1.next site a).reportsDue v = 0) := by
    cases a with
    | user u b =>
      by_cases hu : v = u
      · subst u
        obtain ⟨honce, hguard, hphase⟩ := h.own_step ha hstart
        have hlocal : (p.1.next site (.user v b)).users v =
            (Utente.next site v (p.1.users v) p.1.sh b).1 := by simp [World.next]
        rw [hlocal]
        exact ⟨honce, hguard, fun hnot => absurd hnot hphase⟩
      · exact hother v (by simp [World.next, hu]) (hquiet rfl v (by simp)
          (by simpa using Ne.symm hu))
    | oper o b => exact hother v rfl (hquiet rfl v (by simp) (by simp))
    | ticket b => exact hother v rfl (hquiet rfl v (by simp) (by simp))
    | «section» => exact hother v rfl (reports_section site p.1 p.2 v)
    | director b =>
      have hdue := hquiet rfl v (by simp) (by simp)
      by_cases hstarted : ∃ n, b = .startUser v n
      · obtain ⟨n, rfl⟩ := hstarted
        have hzero := h.started v ha.2.2
        have hlocal : ((p.1.next site (.director (.startUser v n))).users v).phase = .boot := by
          simp [World.next, World.usersAfter]
        rw [hlocal]
        refine ⟨by omega, fun hin => (by cases hin), fun hnot => (by cases hnot)⟩
      · refine hother v ?_ hdue
        cases b <;> try rfl
        case startUser u n =>
          have hv : v ≠ u := by
            rintro rfl
            exact hstarted ⟨n, rfl⟩
          simp [World.next, World.usersAfter, hv]
  exact ⟨fun v => (hall v).1, fun v => (hall v).2.1, fun v => (hall v).2.2⟩

/-- The counter of late users counts user processes, each once. -/
structure CountsPeople (site : Site O U) (p : World O U × LateBook U) : Prop where
  once : ∀ u, p.2 u ≤ 1
  people : p.1.sh.stats.value.today.lateUsers ≤ p.1.startedUsers.card
  explode : p.1.Enabled site (.director .explode) →
    site.config.explodeMax < (p.2.lateUsers.card : ℤ)

theorem ReportsOnce.countsPeople {site : Site O U} {p : World O U × LateBook U}
    (h : ReportsOnce p) (hcounted : LateCounted p) : CountsPeople site p := by
  have honce (u : U) : p.2 u ≤ 1 := (Nat.le_add_right _ _).trans (h.once u)
  have hcard : p.1.sh.stats.value.today.lateUsers = p.2.lateUsers.card := by
    rw [hcounted.total, LateBook.lateUsers, Finset.card_filter]
    refine Finset.sum_congr rfl fun u _ => ?_
    have hu := honce u
    split <;> omega
  have hsub : p.2.lateUsers ⊆ p.1.startedUsers := by
    intro u hu
    have hpos : 0 < p.2 u := (Finset.mem_filter.mp hu).2
    refine Finset.mem_filter.mpr ⟨Finset.mem_univ u, fun hphase => ?_⟩
    have hzero := h.started u hphase
    omega
  refine ⟨honce, hcard ▸ Finset.card_le_card hsub, fun hexplode => ?_⟩
  rw [← hcard]
  exact hexplode.2.1.2

theorem reportsOnce_init (site : Site O U) :
    ReportsOnce (World.init site, (fun _ => 0 : LateBook U)) := by
  refine ⟨?_, ?_, ?_⟩ <;>
  · intro u
    simp [World.reportsDue, World.pendingOf, World.init, Shared.init]

/-- In a run in which users plan their day only when they have no late report since the last
reset, the counter of late users counts people. -/
theorem late_users_counted_once (site : Site O U) (as : List (Act O U))
    (h : ((posteLate site).restrict StartsUnreported).Runs (World.init site, fun _ => 0) as) :
    CountsPeople site ((posteLate site).after (World.init site, fun _ => 0) as) := by
  have hinv := ((posteLate site).restrict StartsUnreported).invariant
    (P := fun p => LateCounted p ∧ ReportsOnce p) ⟨lateCounted_init site, reportsOnce_init site⟩
    (fun p a hp ha => ⟨hp.1.step ha.1, hp.2.step ha.1 ha.2⟩) as h
  exact hinv.2.countsPeople hinv.1

/-- One counter for two days, at which one late user is too many. -/
def twoDays : Site (Fin 1) (Fin 1) :=
  .numbered { defaultConfig with
      numOperators := 1, numUsers := 1, numWorkerSeats := 1, simDuration := 2, explodeMax := 0 }
    1000 (fun _ => 0) pids_before_user (by decide) (by decide)

theorem twoDays_quiet {m : ℤ} (h0 : 0 < m) (h1440 : m < 1440) (h480 : m ≠ 480)
    (h1200 : m ≠ 1200) : Quiet twoDays m :=
  quiet_default rfl rfl h0 h1440 h480 h1200

theorem twoDays_quiet_morning : ∀ i : ℤ, 1 ≤ i → i ≤ 1 + (478 : ℕ) → Quiet twoDays i :=
  fun i h1 h2 => twoDays_quiet (by omega) (by omega) (by omega) (by omega)

theorem twoDays_quiet_afternoon : ∀ i : ℤ, 481 ≤ i → i ≤ 481 + (718 : ℕ) → Quiet twoDays i :=
  fun i h1 h2 => twoDays_quiet (by omega) (by omega) (by omega) (by omega)

theorem twoDays_quiet_evening : ∀ i : ℤ, 1201 ≤ i → i ≤ 1201 + (238 : ℕ) → Quiet twoDays i :=
  fun i h1 h2 => twoDays_quiet (by omega) (by omega) (by omega) (by omega)

/-- The user plans one errand and the operator sleeps. -/
def lateMorning : List (Act (Fin 1) (Fin 1)) :=
  [Act.oper 0 .waitDay, .user 0 .waitDay] ++ midnight 1 ++
    [Act.director (.resetSeats fun _ => 0)] ++ wakeUps 2 ++
    [Act.user 0 .wake, .user 0 (.plan 50 0 [0] 0)]

def lateOpening : List (Act (Fin 1) (Fin 1)) :=
  opening 480 2 ++ [Act.user 0 (.enter 481), .user 0 (.arrive 481)]

/-- It finds the shift over and has not reported yet that it is late. -/
def lateClosing : List (Act (Fin 1) (Fin 1)) := [Act.user 0 (.shiftOver 0 [])] ++ closing 1200 1

/-- A day in which something happens at midnight, at the opening and at the closing only. -/
def fullDay (morning opening closing : List (Act (Fin 1) (Fin 1))) : List (Act (Fin 1) (Fin 1)) :=
  morning ++ (quietMinutes 1 479 ++ (opening ++ (quietMinutes 481 719 ++
    (closing ++ quietMinutes 1201 239))))

theorem fullDay_runs {morning opening closing : List (Act (Fin 1) (Fin 1))}
    {w₁ w₂ w₃ : World (Fin 1) (Fin 1)}
    (hmorning : (poste twoDays).Runs (World.init twoDays) morning)
    (h₁ : (poste twoDays).after (World.init twoDays) morning = w₁) (hidle₁ : Idle twoDays w₁ 1)
    (hopening : (poste twoDays).Runs (w₁.atMinute 480) opening)
    (h₂ : (poste twoDays).after (w₁.atMinute 480) opening = w₂) (hidle₂ : Idle twoDays w₂ 481)
    (hclosing : (poste twoDays).Runs (w₂.atMinute 1200) closing)
    (h₃ : (poste twoDays).after (w₂.atMinute 1200) closing = w₃) (hidle₃ : Idle twoDays w₃ 1201) :
    (poste twoDays).Runs (World.init twoDays) (fullDay morning opening closing) ∧
      (poste twoDays).after (World.init twoDays) (fullDay morning opening closing) =
        w₃.atMinute 1440 := by
  obtain ⟨hevening, hmidnight⟩ := quiet_minutes hidle₃ 238 twoDays_quiet_evening
  have hnoon := after_quiet hidle₁ 478 twoDays_quiet_morning
  have hafternoon := after_quiet hidle₂ 718 twoDays_quiet_afternoon
  constructor
  · rw [fullDay, GuardedSystem.runs_append, h₁]
    refine ⟨hmorning, (runs_quiet hidle₁ 478 twoDays_quiet_morning _).mpr ?_⟩
    rw [GuardedSystem.runs_append]
    refine ⟨hopening, ?_⟩
    rw [show (1 : ℤ) + (478 : ℕ) + 1 = 480 from rfl, h₂]
    refine (runs_quiet hidle₂ 718 twoDays_quiet_afternoon _).mpr ?_
    rw [GuardedSystem.runs_append, show (481 : ℤ) + (718 : ℕ) + 1 = 1200 from rfl, h₃]
    exact ⟨hclosing, hevening⟩
  · rw [fullDay, GuardedSystem.after_append, h₁, hnoon, GuardedSystem.after_append,
      show (1 : ℤ) + (478 : ℕ) + 1 = 480 from rfl, h₂, hafternoon, GuardedSystem.after_append,
      show (481 : ℤ) + (718 : ℕ) + 1 = 1200 from rfl, h₃]
    exact hmidnight

def lateDay : List (Act (Fin 1) (Fin 1)) := fullDay lateMorning lateOpening lateClosing

def lateAtOpening : World (Fin 1) (Fin 1) :=
  ((poste twoDays).after (World.init twoDays) lateMorning).atMinute 480

def lateAtClosing : World (Fin 1) (Fin 1) :=
  ((poste twoDays).after lateAtOpening lateOpening).atMinute 1200

def lateAtMidnight : World (Fin 1) (Fin 1) :=
  ((poste twoDays).after lateAtClosing lateClosing).atMinute 1440

theorem late_idle_morning :
    Idle twoDays ((poste twoDays).after (World.init twoDays) lateMorning) 1 :=
  ⟨by decide, by decide, by decide, by decide⟩

theorem late_idle_afternoon : Idle twoDays ((poste twoDays).after lateAtOpening lateOpening) 481 :=
  ⟨by decide, by decide, by decide, by decide⟩

theorem late_idle_evening : Idle twoDays ((poste twoDays).after lateAtClosing lateClosing) 1201 :=
  ⟨by decide, by decide, by decide, by decide⟩

theorem lateDay_runs_after : (poste twoDays).Runs (World.init twoDays) lateDay ∧
    (poste twoDays).after (World.init twoDays) lateDay = lateAtMidnight :=
  fullDay_runs (by decide) rfl late_idle_morning (by decide) rfl late_idle_afternoon (by decide)
    rfl late_idle_evening

theorem lateDay_runs : (poste twoDays).Runs (World.init twoDays) lateDay := lateDay_runs_after.1

theorem lateDay_after : (poste twoDays).after (World.init twoDays) lateDay = lateAtMidnight :=
  lateDay_runs_after.2

/-- The user reports after the reset of the second day. -/
def firstReport : List (Act (Fin 1) (Fin 1)) :=
  midnight 2 ++ [Act.user 0 (.countLate false 0 none true true)] ++ List.replicate 4 Act.section

theorem late_users_counted_once_first_report : CountsPeople twoDays
    ((posteLate twoDays).after (World.init twoDays, fun _ => 0) (lateDay ++ firstReport)) := by
  have hruns : (poste twoDays).Runs (World.init twoDays) (lateDay ++ firstReport) := by
    rw [GuardedSystem.runs_append, lateDay_after]
    exact ⟨lateDay_runs, by decide⟩
  have hplan : ∀ a ∈ quietMinutes 1 479 ++ (lateOpening ++ (quietMinutes 481 719 ++
      (lateClosing ++ (quietMinutes 1201 239 ++ firstReport)))),
      ∀ p : World (Fin 1) (Fin 1) × LateBook (Fin 1), StartsUnreported p a := by
    have hquiet (m : ℤ) (k : ℕ) : ∀ a ∈ quietMinutes (O := Fin 1) (U := Fin 1) m k,
        ∀ p : World (Fin 1) (Fin 1) × LateBook (Fin 1), StartsUnreported p a :=
      forall_mem_quietMinutes (by simp [quietMinute, StartsUnreported]) m k
    intro a ha
    simp only [List.mem_append] at ha
    rcases ha with ha | ha | ha | ha | ha | ha
    · exact hquiet 1 479 a ha
    · revert a
      simp [lateOpening, opening, List.range_succ, StartsUnreported]
    · exact hquiet 481 719 a ha
    · revert a
      simp [lateClosing, closing, List.range_succ, StartsUnreported]
    · exact hquiet 1201 239 a ha
    · revert a
      simp [firstReport, midnight, StartsUnreported]
  apply late_users_counted_once
  simp only [lateDay, fullDay, List.append_assoc] at hruns ⊢
  rw [GuardedSystem.runs_append] at hruns ⊢
  refine ⟨by decide, ?_⟩
  refine GuardedSystem.Runs.restrict_of_forall _ ?_ hplan
  rw [GuardedSystem.restrict_after]
  exact ((poste twoDays).runs_withGhost_after LateBook.record _ _ _ _).mpr hruns.2

/-- It comes home, wakes up with a token that is left, and is late again at once, since the
clock still shows the last minute of the first day. -/
def secondReport : List (Act (Fin 1) (Fin 1)) :=
  [Act.user 0 (.countFailed 0 none true)] ++ List.replicate 5 Act.section ++
    [Act.user 0 (.return none true), .user 0 .waitDay, .user 0 .wake, .user 0 (.plan 50 0 [0] 0),
      .user 0 (.enter 481), .user 0 (.arrive 481), .user 0 (.shiftOver 0 []),
      .user 0 (.countLate false 0 none true true)] ++ List.replicate 4 Act.section

/-- One user process is counted twice since the last reset. -/
theorem late_twice : ¬ ∀ as : List (Act (Fin 1) (Fin 1)),
    (poste twoDays).Runs (World.init twoDays) as →
    CountsPeople twoDays ((posteLate twoDays).after (World.init twoDays, fun _ => 0) as) := by
  intro honce
  have hruns : (poste twoDays).Runs (World.init twoDays)
      (lateDay ++ (firstReport ++ secondReport)) := by
    rw [GuardedSystem.runs_append, lateDay_after]
    exact ⟨lateDay_runs, by decide⟩
  have hpeople := (honce _ hruns).people
  have hworld : ((posteLate twoDays).after (World.init twoDays, fun _ => 0)
      (lateDay ++ (firstReport ++ secondReport))).1 =
      (poste twoDays).after lateAtMidnight (firstReport ++ secondReport) := by
    rw [posteLate, GuardedSystem.after_withGhost_fst, GuardedSystem.after_append, lateDay_after]
  rw [hworld] at hpeople
  exact absurd hpeople (by decide)

end PosteItaliane
