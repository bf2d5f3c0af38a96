import PosteItaliane.Model.Launch
import PosteItaliane.Model.ReportFiles

/-!
# The text of an export

What the calls of `fprintf` in `write_stats` put into the file, one after the other. The values
are those of `FinalReport`, the path is the one that the shared memory holds.
-/

namespace PosteItaliane

def services : ServiceId → String :=
  !["Invio e ritiro pacchi", "Invio e ritiro lettere e raccomandate",
    "Prelievi e versamenti Bancoposta", "Pagamento bollettini postali",
    "Acquisto prodotti finanziari", "Acquisto orologi e braccialetti"]

/-- What `%.2f` makes of `(float)x / n`. A number, an infinity and a NaN are printed without
commas and newlines. -/
structure FloatFormat where
  quotient : ℚ → ℤ → List Char
  quotient_plain : ∀ x n, ',' ∉ quotient x n ∧ '\n' ∉ quotient x n

variable (float : FloatFormat)

/-- `n > 0 ? (float)x / n : 0.0f`. -/
def FloatFormat.average (x : ℚ) (n : ℤ) : List Char :=
  if n > 0 then float.quotient x n else float.quotient 0 1

def ExitMode.text : ExitMode → String
  | .explode => "explode"
  | .timeout => "timeout"

-- irreducible because long literals are slow to evaluate where a definition begins with one
/-- `fprintf` of a text without conversions. -/
@[irreducible] def printed (s : String) : List Char := s.toList

/-- The lines of a name and a `%s`, `%d` or `%ld`. -/
def labelled (label : String) (value : List Char) : List Char :=
  label.toList ++ ",".toList ++ value ++ "\n".toList

/-- The summary of the simulation. -/
def summaryText (r : FinalReport) (configurationFile : List Char) : List Char :=
  printed "Simulation Summary\n" ++
  labelled "ExitMode" r.exitMode.text.toList ++
  labelled "ConfigFile" (cString configurationFile) ++
  labelled "SimDuration(days)" (decimalText r.config.simDuration) ++
  labelled "MinuteDuration(ns)" (decimalText r.config.minuteDuration) ++
  labelled "NumOperators" (decimalText r.config.numOperators) ++
  labelled "NumUsers" (decimalText r.numUsers) ++
  labelled "NumWorkerSeats" (decimalText r.config.numWorkerSeats) ++
  labelled "WorkerShiftOpen(hour)" (decimalText r.config.workerShiftOpen) ++
  labelled "WorkerShiftClose(hour)" (decimalText r.config.workerShiftClose) ++
  labelled "ExplodeMaxLateUsers" (decimalText r.config.explodeMax) ++
  printed "\n"

/-- The global figures. -/
def globalText (stats : PosteStats) : List Char :=
  let global := stats.simulationGlobal
  printed ("Day,Minute,TotalActiveOperators,TotalSimulationPauses,TotalServedUsers," ++
    "TotalFailedServices,AvgGeneralWaitTime,AvgServiceWaitTime\n") ++
  (decimalText stats.currentDay ++ ",".toList ++ decimalText stats.currentMinute ++
    ",".toList ++ decimalText stats.totalActiveOperators ++ ",".toList ++
    decimalText stats.totalSimulationPauses ++ ",".toList ++ decimalText global.servedUsers ++
    ",".toList ++ decimalText global.failedServices ++ ",".toList ++
    float.average global.totalWaitTime global.totalRequests ++ ",".toList ++
    float.average global.totalServiceTime global.totalRequests ++ "\n".toList)

/-- The iteration of the loop over the services. -/
def serviceLine (stats : PosteStats) (i : ServiceId) : List Char :=
  let s := stats.simulationServices i
  (services i).toList ++ ",".toList ++ decimalText s.servedUsers ++ ",".toList ++
    decimalText s.failedServices ++ ",".toList ++
    float.average s.totalWaitTime s.totalRequests ++ ",".toList ++
    float.average s.totalServiceTime s.totalRequests ++ "\n".toList

/-- The figures of the services. -/
def servicesText (stats : PosteStats) : List Char :=
  printed "\nService,ServedUsers,FailedServices,AvgGeneralWaitTime,AvgServiceWaitTime\n" ++
  (List.finRange numServiceTypes).flatMap (serviceLine float stats)

/-- The extra information. -/
def extraText (stats : PosteStats) : List Char :=
  let global := stats.simulationGlobal
  printed "\nExtraInfo\n" ++
  labelled "LateUsersToday" (decimalText stats.today.lateUsers) ++
  labelled "TotalLateUsers" (decimalText global.lateUsers) ++
  labelled "TotalRequests" (decimalText global.totalRequests) ++
  labelled "TotalWaitTime" (float.quotient global.totalWaitTime 1) ++
  labelled "TotalServiceTime" (float.quotient global.totalServiceTime 1)

/-- `write_stats` from the first `fprintf` to `fclose`. -/
def reportText (r : FinalReport) (configurationFile : List Char) : List Char :=
  summaryText r configurationFile ++ globalText float r.stats ++ servicesText float r.stats ++
    extraText float r.stats

end PosteItaliane
