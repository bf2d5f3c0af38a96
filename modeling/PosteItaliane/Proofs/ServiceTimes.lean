import PosteItaliane.Framework.MachineInts
import PosteItaliane.Proofs.Sleeps
import Mathlib.Algebra.Order.Field.Basic
import Mathlib.Tactic.Linarith

/-!
# Service times

`process_service` in the arithmetic of the machine, and its loop around `nanosleep`. Every
nominal duration is an even number of minutes, so half of it is exact and the drawn time is
between a half and one and a half of it. A signal cuts a sleep in two, and the two add up.
-/

namespace PosteItaliane

open Framework MachineInts

/-- The computation of `process_service` in 64 bits. There is none if a result does not fit
or the remainder is one of a division by zero. -/
def processServiceChecked (config : PosteConfig) (service : ServiceId) (r : ℕ) : Option ℤ := do
  let base ← checked 64 (servicesDuration service * config.minuteDuration)
  let min := base.tdiv 2
  let max ← checked 64 (base + base.tdiv 2)
  let width ← checked 64 (max - min)
  let span ← checked 64 (width + 1)
  let offset ← checkedMod r span
  checked 64 (min + offset)

/-- What an interrupted `nanosleep` stores in `remaining`. -/
def Timespec.remaining (t : Timespec) (elapsed : ℤ) : Timespec :=
  ⟨(t.total - elapsed) / 1000000000, (t.total - elapsed) % 1000000000⟩

/-- The calls of the loop, each with its argument and the time that passes in it. An entry of
the list is the time after which a signal interrupts the call. -/
def sleepCalls (t : Timespec) : List ℤ → List (Timespec × ℤ)
  | [] => [(t, t.total)]
  | elapsed :: rest => (t, elapsed) :: sleepCalls (t.remaining elapsed) rest

/-- A call is interrupted before the time it was asked for has passed. -/
def Interrupts (t : Timespec) : List ℤ → Prop
  | [] => True
  | elapsed :: rest => (0 ≤ elapsed ∧ elapsed ≤ t.total) ∧ Interrupts (t.remaining elapsed) rest

instance decidableInterrupts : ∀ (t : Timespec) (es : List ℤ), Decidable (Interrupts t es)
  | _, [] => isTrue trivial
  | t, elapsed :: rest =>
    have := decidableInterrupts (t.remaining elapsed) rest
    inferInstanceAs (Decidable (_ ∧ Interrupts (t.remaining elapsed) rest))

theorem Timespec.remaining_total (t : Timespec) (elapsed : ℤ) :
    (t.remaining elapsed).total = t.total - elapsed := by
  simp only [Timespec.remaining, Timespec.total]
  omega

theorem Timespec.remaining_valid (t : Timespec) {elapsed : ℤ} (h : elapsed ≤ t.total) :
    (t.remaining elapsed).Valid := by
  simp only [Timespec.remaining, Timespec.Valid]
  omega

theorem sleepCalls_valid {t : Timespec} {es : List ℤ} (ht : t.Valid) (h : Interrupts t es) :
    ∀ call ∈ sleepCalls t es, call.1.Valid := by
  induction es generalizing t with
  | nil =>
    intro call hcall
    rw [List.mem_singleton.mp hcall]
    exact ht
  | cons elapsed rest ih =>
    rw [sleepCalls, List.forall_mem_cons]
    exact ⟨ht, ih (t.remaining_valid h.1.2) h.2⟩

theorem sleepCalls_sum (t : Timespec) (es : List ℤ) :
    ((sleepCalls t es).map Prod.snd).sum = t.total := by
  induction es generalizing t with
  | nil => exact add_zero t.total
  | cons elapsed rest ih =>
    rw [sleepCalls, List.map_cons, List.sum_cons, ih, t.remaining_total]
    exact add_sub_cancel elapsed t.total

theorem servicesDuration_even (service : ServiceId) :
    servicesDuration service = 2 * (servicesDuration service / 2) := by
  revert service
  decide

theorem servicesDuration_le (service : ServiceId) : servicesDuration service ≤ 20 := by
  revert service
  decide

/-- Half of the nominal duration, in nanoseconds. -/
def halfDuration (config : PosteConfig) (service : ServiceId) : ℤ :=
  servicesDuration service / 2 * config.minuteDuration

theorem base_eq (config : PosteConfig) (service : ServiceId) :
    servicesDuration service * config.minuteDuration = 2 * halfDuration config service := by
  rw [halfDuration, ← Int.mul_assoc, ← servicesDuration_even]

theorem base_half (config : PosteConfig) (service : ServiceId) :
    (servicesDuration service * config.minuteDuration).tdiv 2 = halfDuration config service := by
  rw [base_eq]
  exact Int.mul_tdiv_cancel_left _ (by decide)

theorem processService_eq (config : PosteConfig) (service : ServiceId) (r : ℕ) :
    Operatore.processService config service r = halfDuration config service +
      (r : ℤ).tmod (2 * halfDuration config service + 1) := by
  have hspan : 2 * halfDuration config service + halfDuration config service -
      halfDuration config service + 1 = 2 * halfDuration config service + 1 := by omega
  simp only [Operatore.processService]
  rw [base_half, base_eq, hspan]

theorem halfDuration_pos (config : PosteConfig) (hpos : 0 < config.minuteDuration)
    (service : ServiceId) : 0 < halfDuration config service := by
  have hnominal := servicesDuration_pos service
  have heven := servicesDuration_even service
  exact Int.mul_pos (by omega) hpos

theorem halfDuration_le (config : PosteConfig) (hpos : 0 < config.minuteDuration)
    (hle : config.minuteDuration ≤ 999999999) (service : ServiceId) :
    halfDuration config service ≤ 10000000000 := by
  have hnominal := servicesDuration_le service
  have hhalf : servicesDuration service / 2 ≤ 10 := by omega
  calc halfDuration config service
      ≤ 10 * config.minuteDuration := Int.mul_le_mul_of_nonneg_right hhalf hpos.le
    _ ≤ 10000000000 := by omega

theorem processService_bounds (config : PosteConfig) (hpos : 0 < config.minuteDuration)
    (service : ServiceId) (r : ℕ) :
    halfDuration config service ≤ Operatore.processService config service r ∧
      Operatore.processService config service r ≤ 3 * halfDuration config service := by
  have hhalf := halfDuration_pos config hpos service
  have hspan : 0 < 2 * halfDuration config service + 1 := by omega
  have hdraw := Int.tmod_nonneg (2 * halfDuration config service + 1) (Int.natCast_nonneg r)
  have hlt := Int.tmod_lt_of_pos (r : ℤ) hspan
  rw [processService_eq]
  omega

theorem fits_of_le {n : ℤ} (hn : 0 ≤ n) (hle : n ≤ 100000000000) : Fits 64 n := by
  constructor
  · exact le_trans (by decide) hn
  · exact lt_of_le_of_lt hle (by decide)

/-- Nothing overflows and nothing is divided by zero. -/
theorem processServiceChecked_eq (config : PosteConfig) (hpos : 0 < config.minuteDuration)
    (hle : config.minuteDuration ≤ 999999999) (service : ServiceId) (r : ℕ) :
    processServiceChecked config service r =
      some (Operatore.processService config service r) := by
  have hhalf := halfDuration_pos config hpos service
  have hbound := halfDuration_le config hpos hle service
  obtain ⟨hmin, hmax⟩ := processService_bounds config hpos service r
  have hbase : checked 64 (servicesDuration service * config.minuteDuration) =
      some (2 * halfDuration config service) := by
    rw [base_eq]
    exact checked_of_fits (fits_of_le (by omega) (by omega))
  have hmaximum : checked 64 (2 * halfDuration config service + halfDuration config service) =
      some (3 * halfDuration config service) := by
    rw [checked_of_fits (fits_of_le (by omega) (by omega))]
    exact congrArg some (by omega)
  have hwidth : checked 64 (3 * halfDuration config service - halfDuration config service) =
      some (2 * halfDuration config service) := by
    rw [checked_of_fits (fits_of_le (by omega) (by omega))]
    exact congrArg some (by omega)
  have hspan : checked 64 (2 * halfDuration config service + 1) =
      some (2 * halfDuration config service + 1) :=
    checked_of_fits (fits_of_le (by omega) (by omega))
  have hoffset := checkedMod_of_ne (a := (r : ℤ))
    (b := 2 * halfDuration config service + 1) (by omega)
  have hresult : checked 64 (Operatore.processService config service r) =
      some (Operatore.processService config service r) :=
    checked_of_fits (fits_of_le (by omega) (by omega))
  have hdivide : (2 * halfDuration config service).tdiv 2 = halfDuration config service :=
    Int.mul_tdiv_cancel_left _ (by decide)
  rw [processService_eq] at hresult ⊢
  simp only [processServiceChecked, hbase, hdivide, hmaximum, hwidth, hspan, hoffset, hresult,
    Option.bind_eq_bind, Option.bind_some]

theorem serviceMinutes_bounds (config : PosteConfig) (hpos : 0 < config.minuteDuration)
    (service : ServiceId) (r : ℕ) :
    (servicesDuration service : ℚ) / 2 ≤ Operatore.serviceMinutes config service r ∧
      Operatore.serviceMinutes config service r ≤ 3 * (servicesDuration service : ℚ) / 2 := by
  obtain ⟨hmin, hmax⟩ := processService_bounds config hpos service r
  have hbase := base_eq config service
  have hpos' : (0 : ℚ) < config.minuteDuration := by exact_mod_cast hpos
  have hmin' : (halfDuration config service : ℚ) ≤ Operatore.processService config service r := by
    exact_mod_cast hmin
  have hmax' : (Operatore.processService config service r : ℚ) ≤
      3 * halfDuration config service := by exact_mod_cast hmax
  have hbase' : (servicesDuration service : ℚ) * config.minuteDuration =
      2 * halfDuration config service := by exact_mod_cast hbase
  unfold Operatore.serviceMinutes
  rw [le_div_iff₀ hpos', div_le_iff₀ hpos']
  constructor
  · linarith
  · linarith

/-- For every time scale on which the director can sleep, and however often the sleep is
interrupted. -/
theorem service_time_within_half (config : PosteConfig) (hpos : 1 ≤ config.minuteDuration)
    (hle : config.minuteDuration ≤ 999999999) (service : ServiceId) (r : ℕ) (es : List ℤ)
    (hes : Interrupts (serviceSleep config service r) es) :
    processServiceChecked config service r = some (Operatore.processService config service r) ∧
      (∀ call ∈ sleepCalls (serviceSleep config service r) es, call.1.Valid) ∧
      ((sleepCalls (serviceSleep config service r) es).map Prod.snd).sum =
        Operatore.processService config service r ∧
      (servicesDuration service : ℚ) / 2 ≤ Operatore.serviceMinutes config service r ∧
      Operatore.serviceMinutes config service r ≤ 3 * (servicesDuration service : ℚ) / 2 := by
  have hnonneg := processService_nonneg config hpos service r
  have hvalid : (serviceSleep config service r).Valid := Timespec.ofNanos_valid _ hnonneg
  have htotal : (serviceSleep config service r).total =
      Operatore.processService config service r := Timespec.ofNanos_total _ hnonneg
  refine ⟨processServiceChecked_eq config hpos hle service r, sleepCalls_valid hvalid hes, ?_,
    serviceMinutes_bounds config hpos service r⟩
  rw [sleepCalls_sum, htotal]

/-- A service of 10 minutes at the default scale, drawn at its shortest, interrupted twice. -/
theorem service_time_within_half_twice :
    (∀ call ∈ sleepCalls (serviceSleep defaultConfig 0 0) [100000000, 0], call.1.Valid) ∧
      ((sleepCalls (serviceSleep defaultConfig 0 0) [100000000, 0]).map Prod.snd).sum =
        250000000 := by
  obtain ⟨-, hvalid, hsum, -, -⟩ := service_time_within_half defaultConfig (by decide) (by decide)
    0 0 [100000000, 0] (by decide)
  exact ⟨hvalid, hsum.trans (by decide)⟩

end PosteItaliane
