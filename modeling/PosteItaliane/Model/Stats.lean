import PosteItaliane.Framework.Monitor
import PosteItaliane.Model.Config
import Mathlib.Algebra.Order.Field.Rat
import Mathlib.Logic.Function.Basic

/-!
# The statistics segment

`/poste_stats` without its semaphores, the single assignments the processes make to it,
and the critical sections of the functions that update it, in the order of the source.
Times are exact rationals. `operator_counter_ratios` is never read or written and is left
out.
-/

namespace PosteItaliane

open Framework

structure ServiceStats where
  servedUsers : ℕ := 0
  failedServices : ℕ := 0
  totalWaitTime : ℚ := 0
  totalServiceTime : ℚ := 0
  totalRequests : ℕ := 0
  lateUsers : ℕ := 0
  deriving DecidableEq

structure DailyStats where
  global : ServiceStats := {}
  services : ServiceId → ServiceStats := fun _ => {}
  activeOperators : ℕ := 0
  totalPauses : ℕ := 0
  lateUsers : ℕ := 0

structure PosteStats where
  simulationGlobal : ServiceStats := {}
  simulationServices : ServiceId → ServiceStats := fun _ => {}
  today : DailyStats := {}
  totalActiveOperators : ℕ := 0
  totalSimulationPauses : ℕ := 0
  currentDay : ℤ := 0
  currentMinute : ℤ := 0

/-- One of the records that hold a `service_stats`. -/
inductive StatsRecord where
  | simulationGlobal
  | simulationServices (s : ServiceId)
  | todayGlobal
  | todayServices (s : ServiceId)
  deriving DecidableEq

/-- One `++` or `+=` on a `service_stats`. -/
inductive Increment where
  | servedUsers
  | failedServices
  | totalWaitTime (t : ℚ)
  | totalServiceTime (t : ℚ)
  | totalRequests
  | lateUsers
  deriving DecidableEq

/-- One assignment to the statistics. -/
inductive StatsWrite where
  | increment (r : StatsRecord) (i : Increment)
  | totalActiveOperators
  | todayActiveOperators
  | totalSimulationPauses
  | todayTotalPauses
  | todayLateUsers
  | setCurrentDay (day : ℤ)
  | resetToday
  | setCurrentMinute (minute : ℤ)
  deriving DecidableEq

def Increment.apply : Increment → ServiceStats → ServiceStats
  | .servedUsers, x => { x with servedUsers := x.servedUsers + 1 }
  | .failedServices, x => { x with failedServices := x.failedServices + 1 }
  | .totalWaitTime t, x => { x with totalWaitTime := x.totalWaitTime + t }
  | .totalServiceTime t, x => { x with totalServiceTime := x.totalServiceTime + t }
  | .totalRequests, x => { x with totalRequests := x.totalRequests + 1 }
  | .lateUsers, x => { x with lateUsers := x.lateUsers + 1 }

def modifyService (f : ServiceId → ServiceStats) (s : ServiceId)
    (g : ServiceStats → ServiceStats) : ServiceId → ServiceStats :=
  Function.update f s (g (f s))

def StatsRecord.modify (g : ServiceStats → ServiceStats) (x : PosteStats) :
    StatsRecord → PosteStats
  | .simulationGlobal => { x with simulationGlobal := g x.simulationGlobal }
  | .simulationServices s =>
    { x with simulationServices := modifyService x.simulationServices s g }
  | .todayGlobal => { x with today := { x.today with global := g x.today.global } }
  | .todayServices s =>
    { x with today := { x.today with services := modifyService x.today.services s g } }

def StatsWrite.apply : StatsWrite → PosteStats → PosteStats
  | .increment r i, x => r.modify i.apply x
  | .totalActiveOperators, x => { x with totalActiveOperators := x.totalActiveOperators + 1 }
  | .todayActiveOperators, x =>
    { x with today := { x.today with activeOperators := x.today.activeOperators + 1 } }
  | .totalSimulationPauses, x => { x with totalSimulationPauses := x.totalSimulationPauses + 1 }
  | .todayTotalPauses, x =>
    { x with today := { x.today with totalPauses := x.today.totalPauses + 1 } }
  | .todayLateUsers, x =>
    { x with today := { x.today with lateUsers := x.today.lateUsers + 1 } }
  | .setCurrentDay day, x => { x with currentDay := day }
  | .resetToday, x => { x with today := {} }
  | .setCurrentMinute minute, x => { x with currentMinute := minute }

instance : Assignment PosteStats StatsWrite := ⟨StatsWrite.apply⟩

def updateRequestsStats (s : ServiceId) : List StatsWrite :=
  [.increment (.simulationServices s) .totalRequests, .increment .simulationGlobal .totalRequests,
    .increment (.todayServices s) .totalRequests, .increment .todayGlobal .totalRequests]

def updatePauseStats : List StatsWrite := [.totalSimulationPauses, .todayTotalPauses]

/-- The increment of the active operators in the operator's `main`. -/
def updateActiveOperators : List StatsWrite := [.totalActiveOperators, .todayActiveOperators]

def updateFailsStats (s : ServiceId) : List StatsWrite :=
  [.increment .simulationGlobal .failedServices,
    .increment (.simulationServices s) .failedServices,
    .increment .todayGlobal .failedServices, .increment (.todayServices s) .failedServices]

def updateSuccessStats (s : ServiceId) (waitTime serviceTime : ℚ) : List StatsWrite :=
  [.increment .simulationGlobal .servedUsers,
    .increment .simulationGlobal (.totalWaitTime waitTime),
    .increment .simulationGlobal (.totalServiceTime serviceTime),
    .increment (.simulationServices s) .servedUsers,
    .increment (.simulationServices s) (.totalWaitTime waitTime),
    .increment (.simulationServices s) (.totalServiceTime serviceTime),
    .increment .todayGlobal .servedUsers,
    .increment (.todayServices s) .servedUsers,
    .increment (.todayServices s) (.totalWaitTime waitTime),
    .increment (.todayServices s) (.totalServiceTime serviceTime),
    .increment .todayGlobal (.totalWaitTime waitTime),
    .increment .todayGlobal (.totalServiceTime serviceTime)]

/-- `handle_late_users` of a user, which does nothing when its `been_late_today` is set. -/
def handleLateUsers (beenLateToday : Bool) (s : ServiceId) : List StatsWrite :=
  if beenLateToday then []
  else [.todayLateUsers, .increment .simulationGlobal .lateUsers,
    .increment (.simulationServices s) .lateUsers]

/-- The section of `start_new_day` that opens the day. -/
def resetDailyStats (day : ℤ) : List StatsWrite := [.setCurrentDay day, .resetToday]

/-- The section of the director's loop that publishes the clock. -/
def publishMinute (minute : ℤ) : List StatsWrite := [.setCurrentMinute minute]

end PosteItaliane
