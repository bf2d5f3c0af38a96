import Mathlib.Algebra.GroupWithZero.Nat
import Mathlib.Data.Fin.VecNotation

/-!
# Configuration and services

The run-time parameters of `config.h` with the defaults of `config.c`, and the table of
the six services. Durations are simulated minutes.
-/

namespace PosteItaliane

structure PosteConfig where
  numOperators : ℤ
  numUsers : ℤ
  numWorkerSeats : ℤ
  simDuration : ℤ
  pServMin : ℤ
  pServMax : ℤ
  minuteDuration : ℤ
  workerShiftOpen : ℤ
  workerShiftClose : ℤ
  explodeMax : ℤ
  maxNRequests : ℤ
  nofPause : ℤ
  deriving DecidableEq

/-- `g_config` before any file is loaded. -/
def defaultConfig : PosteConfig where
  numOperators := 10
  numUsers := 5
  numWorkerSeats := 15
  simDuration := 5
  pServMin := 20
  pServMax := 100
  minuteDuration := 50000000
  workerShiftOpen := 8
  workerShiftClose := 20
  explodeMax := 30
  maxNRequests := 10
  nofPause := 3

abbrev numServiceTypes : ℕ := 6

/-- An index into `services`, `services_duration` and the per-service statistics. -/
abbrev ServiceId := Fin numServiceTypes

instance neZero_numServiceTypes : NeZero numServiceTypes := ⟨by decide⟩

def servicesDuration : ServiceId → ℤ := ![10, 8, 6, 8, 20, 20]

/-- A draw of `rand() % NUM_SERVICE_TYPES`. -/
def drawService (r : ℕ) : ServiceId := Fin.ofNat numServiceTypes r

end PosteItaliane
