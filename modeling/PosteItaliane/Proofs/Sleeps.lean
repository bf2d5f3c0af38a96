import PosteItaliane.Model.Operatore

/-!
# The simulated sleeps

The arguments that the three programs pass to `nanosleep` and `sem_timedwait`. Only
`process_service` carries into seconds; the other five sites put a number of simulated
minutes into the nanoseconds, which the kernel rejects from a whole second on.
-/

namespace PosteItaliane

structure Timespec where
  tvSec : ℤ
  tvNsec : ℤ
  deriving DecidableEq

namespace Timespec

/-- What `nanosleep` and `sem_timedwait` accept. -/
def Valid (t : Timespec) : Prop := 0 ≤ t.tvSec ∧ 0 ≤ t.tvNsec ∧ t.tvNsec ≤ 999999999

/-- The nanoseconds a timespec stands for. -/
def total (t : Timespec) : ℤ := t.tvSec * 1000000000 + t.tvNsec

/-- `{ .tv_sec = 0, .tv_nsec = g_config.minute_duration * k }`. -/
def minutes (config : PosteConfig) (k : ℤ) : Timespec := ⟨0, config.minuteDuration * k⟩

/-- The two branches of `process_service`. -/
def ofNanos (n : ℤ) : Timespec :=
  if n ≥ 1000000000 then ⟨n.tdiv 1000000000, n.tmod 1000000000⟩ else ⟨0, n⟩

theorem minutes_total (config : PosteConfig) (k : ℤ) :
    (minutes config k).total = config.minuteDuration * k := by
  simp [minutes, total]

theorem minutes_valid_iff (config : PosteConfig) (k : ℤ) (hpos : 0 < config.minuteDuration)
    (hk : 0 ≤ k) : (minutes config k).Valid ↔ config.minuteDuration * k < 1000000000 := by
  have hnonneg : 0 ≤ config.minuteDuration * k := Int.mul_nonneg hpos.le hk
  unfold Valid minutes
  dsimp only
  omega

theorem ofNanos_valid (n : ℤ) (hn : 0 ≤ n) : (ofNanos n).Valid := by
  unfold ofNanos Valid
  split
  · rw [Int.tdiv_eq_ediv_of_nonneg hn, Int.tmod_eq_emod_of_nonneg hn]
    dsimp only
    omega
  · dsimp only
    omega

theorem ofNanos_total (n : ℤ) (hn : 0 ≤ n) : (ofNanos n).total = n := by
  unfold ofNanos total
  split
  · rw [Int.tdiv_eq_ediv_of_nonneg hn, Int.tmod_eq_emod_of_nonneg hn]
    dsimp only
    omega
  · dsimp only
    omega

end Timespec

/-- The director's minute in its main loop. -/
def mainSleep (config : PosteConfig) : Timespec := .minutes config 1

/-- `busy_wait_until_walk_in`. -/
def busyWaitSleep (config : PosteConfig) : Timespec := .minutes config 5

/-- `handle_service`, while no seat is free. -/
def handleServiceSleep (config : PosteConfig) : Timespec := .minutes config 5

/-- `wait_for_station`, the argument of `sem_timedwait`. -/
def waitForStationTimeout (config : PosteConfig) : Timespec := .minutes config 5

/-- `work_loop`, while there is no request. -/
def workLoopSleep (config : PosteConfig) : Timespec := .minutes config 3

/-- `process_service` for the draw `r`. -/
def serviceSleep (config : PosteConfig) (service : ServiceId) (r : ℕ) : Timespec :=
  .ofNanos (Operatore.processService config service r)

/-- What users and operators sleep for, with the nanoseconds each is meant to take. -/
def simulatedSleeps (config : PosteConfig) (service : ServiceId) (r : ℕ) :
    List (Timespec × ℤ) :=
  [(busyWaitSleep config, config.minuteDuration * 5),
    (handleServiceSleep config, config.minuteDuration * 5),
    (waitForStationTimeout config, config.minuteDuration * 5),
    (workLoopSleep config, config.minuteDuration * 3),
    (serviceSleep config service r, Operatore.processService config service r)]

theorem servicesDuration_pos (service : ServiceId) : 0 < servicesDuration service := by
  revert service
  decide

theorem processService_nonneg (config : PosteConfig) (hpos : 0 < config.minuteDuration)
    (service : ServiceId) (r : ℕ) : 0 ≤ Operatore.processService config service r := by
  have hbase : 0 < servicesDuration service * config.minuteDuration :=
    Int.mul_pos (servicesDuration_pos service) hpos
  have hmin : 0 ≤ (servicesDuration service * config.minuteDuration).tdiv 2 :=
    Int.tdiv_nonneg hbase.le (by decide)
  have hdraw : ∀ span : ℤ, 0 ≤ (r : ℤ).tmod span := fun span =>
    Int.tmod_nonneg span (Int.natCast_nonneg r)
  exact Int.add_nonneg hmin (hdraw _)

/-- Every sleep of the users and operators is valid and as long as it is meant to be
exactly when five minutes are less than a second. -/
theorem simulatedSleeps_valid_iff (config : PosteConfig) (hpos : 0 < config.minuteDuration) :
    (∀ service r, ∀ s ∈ simulatedSleeps config service r, s.1.Valid ∧ s.1.total = s.2) ↔
      config.minuteDuration * 5 < 1000000000 := by
  have hfive := Timespec.minutes_valid_iff config 5 hpos (by decide)
  have hthree := Timespec.minutes_valid_iff config 3 hpos (by decide)
  constructor
  · intro h
    have hsleep := h 0 0 (busyWaitSleep config, config.minuteDuration * 5)
      (by simp [simulatedSleeps])
    exact hfive.1 hsleep.1
  · intro h service r s hs
    have hservice := processService_nonneg config hpos service r
    simp only [simulatedSleeps, List.mem_cons, List.not_mem_nil, or_false] at hs
    rcases hs with rfl | rfl | rfl | rfl | rfl
    · exact ⟨hfive.2 h, Timespec.minutes_total config 5⟩
    · exact ⟨hfive.2 h, Timespec.minutes_total config 5⟩
    · exact ⟨hfive.2 h, Timespec.minutes_total config 5⟩
    · exact ⟨hthree.2 (by omega), Timespec.minutes_total config 3⟩
    · exact ⟨Timespec.ofNanos_valid _ hservice, Timespec.ofNanos_total _ hservice⟩

theorem simulatedSleeps_valid_iff_default :
    (∀ service r, ∀ s ∈ simulatedSleeps defaultConfig service r,
      s.1.Valid ∧ s.1.total = s.2) ↔ defaultConfig.minuteDuration * 5 < 1000000000 :=
  simulatedSleeps_valid_iff defaultConfig (by decide)

/-- `minute_duration=200000000`: the director sleeps, nobody else can. -/
theorem simulatedSleeps_slow :
    ¬ ∀ config : PosteConfig, 0 < config.minuteDuration → (mainSleep config).Valid →
      ∀ service r, ∀ s ∈ simulatedSleeps config service r, s.1.Valid ∧ s.1.total = s.2 := by
  intro h
  let slow : PosteConfig := { defaultConfig with minuteDuration := 200000000 }
  have hmain : (mainSleep slow).Valid :=
    (Timespec.minutes_valid_iff slow 1 (by decide) (by decide)).2 (by decide)
  have hsleep := h slow (by decide) hmain 0 0 (busyWaitSleep slow, slow.minuteDuration * 5)
    (by simp [simulatedSleeps])
  have hlt := (Timespec.minutes_valid_iff slow 5 (by decide) (by decide)).1 hsleep.1
  exact absurd hlt (by decide)

end PosteItaliane
