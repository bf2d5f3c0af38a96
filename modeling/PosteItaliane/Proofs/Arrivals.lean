import PosteItaliane.Framework.GuardedSystem
import PosteItaliane.Model.Utente

/-!
# Arrivals

A user draws the minute of its walk-in before the office opens and, once it has passed the
opening event, sleeps five minutes at a time until the shared clock has reached it. The
time reserved for the planned services is also enough for what the last sleep is too long,
so a user that comes in before the office closes is never too late for its first service.
-/

namespace PosteItaliane

open Framework Utente

/-- The minute at which `busy_wait_until_walk_in` returns when it is called at
`currentMinute` and every sleep takes five minutes. -/
def busyWaitUntilWalkIn (walkIn currentMinute : ℤ) : ℤ :=
  if currentMinute < walkIn then busyWaitUntilWalkIn walkIn (currentMinute + 5)
  else currentMinute
termination_by (walkIn - currentMinute).toNat

variable {O U : Type} [Fintype O] [Fintype U]

/-- The clock goes on by some minutes of the same day. -/
def Shared.passMinutes (sh : Shared O U) (n : ℤ) : Shared O U :=
  { sh with
    stats := { sh.stats with
      value := { sh.stats.value with currentMinute := sh.stats.value.currentMinute + n } } }

/-- A user whose sleeps in `busy_wait_until_walk_in` take five minutes on the shared clock. -/
def onClock (site : Site O U) (u : U) : GuardedSystem (Local × Shared O U) Utente.Act where
  Enabled p a := Utente.Enabled site u p.1 p.2 a
  next p a :=
    let q := Utente.next site u p.1 p.2 a
    match a with
    | .sleepOn _ => (q.1, q.2.passMinutes 5)
    | _ => q

/-- The sleeps of a user and its first look at its list. -/
def walkInSteps (walkIn : ℤ) (k : ℕ) : List Utente.Act :=
  List.replicate k (.sleepOn walkIn) ++ [.arrive walkIn]

/-- After `k` sleeps the user gets to its list, at the minute the loop returns, and as long as
no sleep fails it can do nothing else. -/
structure WalksIn (site : Site O U) (u : U) (walkIn : ℤ) (l : Local) (sh : Shared O U)
    (k : ℕ) : Prop where
  runs : (onClock site u).Runs (l, sh) (walkInSteps walkIn k)
  only : ∀ as, (onClock site u).Runs (l, sh) as → .sleepFails walkIn ∉ as →
    as <+: walkInSteps walkIn k ∨ walkInSteps walkIn k <+: as
  arrives : ((onClock site u).after (l, sh) (walkInSteps walkIn k)).1.phase = .services
  minute : ((onClock site u).after (l, sh) (walkInSteps walkIn k)).2.stats.value.currentMinute =
    busyWaitUntilWalkIn walkIn sh.stats.value.currentMinute

/-- What the draw `r` for a list of `n` services means for a user that passes the opening
event at the minute `c`. -/
structure ArrivesInTime (config : PosteConfig) (n r : ℕ) (c : ℤ) : Prop where
  afterOpening : config.workerShiftOpen * 60 < generateWalkInTime config n r
  margin : 5 * (n : ℤ) < (config.workerShiftClose - config.workerShiftOpen) * 60 →
    generateWalkInTime config n r ≤ config.workerShiftClose * 60 - 5 * n
  waits : generateWalkInTime config n r ≤
    busyWaitUntilWalkIn (generateWalkInTime config n r) c
  beforeClosing : busyWaitUntilWalkIn (generateWalkInTime config n r) c <
    config.workerShiftClose * 60
  onTime : ∀ {O U : Type} [Fintype O] [Fintype U] (site : Site O U) (u : U) (l : Local)
    (sh : Shared O U), site.config = config → l.phase = .walkIn (generateWalkInTime config n r) →
    sh.stats.value.currentMinute = c →
    ∃ k, WalksIn site u (generateWalkInTime config n r) l sh k ∧
      ¬ ShiftOver site ((onClock site u).after (l, sh)
        (walkInSteps (generateWalkInTime config n r) k)).2

theorem le_busyWait (walkIn c : ℤ) : walkIn ≤ busyWaitUntilWalkIn walkIn c := by
  fun_induction busyWaitUntilWalkIn walkIn c with
  | case1 c hwait ih => exact ih
  | case2 c hdone => exact not_lt.mp hdone

theorem busyWait_lt (walkIn c : ℤ) : busyWaitUntilWalkIn walkIn c < max (c + 1) (walkIn + 5) := by
  fun_induction busyWaitUntilWalkIn walkIn c with
  | case1 c hwait ih => omega
  | case2 c hdone => omega

theorem walkIn_enabled {site : Site O U} {u : U} {walkIn : ℤ} {l : Local} {sh : Shared O U}
    (hphase : l.phase = .walkIn walkIn) {a : Utente.Act} (ha : Utente.Enabled site u l sh a) :
    (a = .sleepOn walkIn ∧ sh.stats.value.currentMinute < walkIn) ∨ a = .sleepFails walkIn ∨
      (a = .arrive walkIn ∧ walkIn ≤ sh.stats.value.currentMinute) := by
  cases a <;> simp only [Utente.Enabled, hphase, reduceCtorEq, false_and, or_self,
    Phase.walkIn.injEq] at ha
  case sleepOn w =>
    obtain ⟨rfl, hwait⟩ := ha
    exact Or.inl ⟨rfl, hwait⟩
  case sleepFails w =>
    obtain ⟨rfl, -⟩ := ha
    exact Or.inr (Or.inl rfl)
  case arrive w =>
    obtain ⟨rfl, hdone⟩ := ha
    exact Or.inr (Or.inr ⟨rfl, hdone⟩)

theorem WalksIn.sleep {site : Site O U} {u : U} {walkIn : ℤ} {l : Local} {sh : Shared O U}
    {k : ℕ} (h : WalksIn site u walkIn l (sh.passMinutes 5) k) (hphase : l.phase = .walkIn walkIn)
    (hwait : sh.stats.value.currentMinute < walkIn) : WalksIn site u walkIn l sh (k + 1) where
  runs := ⟨⟨hphase, hwait⟩, h.runs⟩
  only as has hfails := by
    cases as with
    | nil => exact Or.inl List.nil_prefix
    | cons a as =>
      rw [List.mem_cons, not_or] at hfails
      rcases walkIn_enabled hphase has.1 with ⟨rfl, -⟩ | hfail | ⟨-, hdone⟩
      · rcases h.only as has.2 hfails.2 with hpre | hpost
        · exact Or.inl (List.cons_prefix_cons.mpr ⟨rfl, hpre⟩)
        · exact Or.inr (List.cons_prefix_cons.mpr ⟨rfl, hpost⟩)
      · exact absurd hfail.symm hfails.1
      · exact absurd hwait (not_lt.mpr hdone)
  arrives := h.arrives
  minute := by
    rw [busyWaitUntilWalkIn, if_pos hwait]
    exact h.minute

theorem walksIn_now (site : Site O U) (u : U) {walkIn : ℤ} {l : Local} {sh : Shared O U}
    (hphase : l.phase = .walkIn walkIn) (hdone : walkIn ≤ sh.stats.value.currentMinute) :
    WalksIn site u walkIn l sh 0 where
  runs := ⟨⟨hphase, hdone⟩, trivial⟩
  only as has hfails := by
    cases as with
    | nil => exact Or.inl List.nil_prefix
    | cons a as =>
      rw [List.mem_cons, not_or] at hfails
      rcases walkIn_enabled hphase has.1 with ⟨-, hwait⟩ | hfail | ⟨rfl, -⟩
      · exact absurd hwait (not_lt.mpr hdone)
      · exact absurd hfail.symm hfails.1
      · exact Or.inr (List.cons_prefix_cons.mpr ⟨rfl, List.nil_prefix⟩)
  arrives := rfl
  minute := by
    rw [busyWaitUntilWalkIn, if_neg (not_lt.mpr hdone)]
    rfl

/-- The steps of the user are the iterations of the loop. -/
theorem walksIn_busyWait (site : Site O U) (u : U) {walkIn c : ℤ} {l : Local} {sh : Shared O U}
    (hphase : l.phase = .walkIn walkIn) (hc : sh.stats.value.currentMinute = c) :
    ∃ k, WalksIn site u walkIn l sh k := by
  induction c using busyWaitUntilWalkIn.induct walkIn generalizing sh with
  | case1 c hwait ih =>
    have hlater : (sh.passMinutes 5).stats.value.currentMinute = c + 5 := by
      rw [← hc]
      rfl
    obtain ⟨k, hk⟩ := ih hlater
    exact ⟨k + 1, hk.sleep hphase (hc.symm ▸ hwait)⟩
  | case2 c hdone => exact ⟨0, walksIn_now site u hphase (by omega)⟩

theorem generateWalkInTime_bounds (config : PosteConfig) (n r : ℕ) :
    config.workerShiftOpen * 60 < generateWalkInTime config n r ∧
      generateWalkInTime config n r ≤ config.workerShiftOpen * 60 +
        max 1 (config.workerShiftClose * 60 - 5 * n - config.workerShiftOpen * 60) := by
  unfold generateWalkInTime
  dsimp only
  generalize hmax : (if config.workerShiftClose * 60 - 5 * (n : ℤ) - config.workerShiftOpen * 60 < 1
    then 1 else config.workerShiftClose * 60 - 5 * (n : ℤ) - config.workerShiftOpen * 60) = maxTime
  have hpos : 0 < maxTime := by omega
  have hnonneg := Int.tmod_nonneg maxTime (Int.natCast_nonneg r)
  have hlt := Int.tmod_lt_of_pos (r : ℤ) hpos
  omega

/-- Users arrive before closing. -/
theorem users_arrive_in_time (config : PosteConfig)
    (hhours : config.workerShiftOpen < config.workerShiftClose) (n : ℕ) (hn : 1 ≤ n) (r : ℕ)
    (c : ℤ) (hclose : c < config.workerShiftClose * 60) : ArrivesInTime config n r c := by
  obtain ⟨hafter, hle⟩ := generateWalkInTime_bounds config n r
  have hwaits := le_busyWait (generateWalkInTime config n r) c
  have hlt := busyWait_lt (generateWalkInTime config n r) c
  have hbefore : busyWaitUntilWalkIn (generateWalkInTime config n r) c <
      config.workerShiftClose * 60 := by
    omega
  refine ⟨hafter, fun hlong => by omega, hwaits, hbefore, ?_⟩
  rintro O U _ _ site u l sh rfl hphase rfl
  obtain ⟨k, hk⟩ := walksIn_busyWait site u hphase rfl
  refine ⟨k, hk, ?_⟩
  rw [ShiftOver, hk.minute]
  omega

theorem users_arrive_in_time_default : ArrivesInTime defaultConfig 1 714 480 :=
  users_arrive_in_time defaultConfig (by decide) 1 (by decide) 714 480 (by decide)

end PosteItaliane
