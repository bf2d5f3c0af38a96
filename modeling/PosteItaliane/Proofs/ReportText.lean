import PosteItaliane.Framework.Csv
import PosteItaliane.Model.ReportText
import PosteItaliane.Proofs.Decimals
import PosteItaliane.Proofs.ReportFiles

/-!
# The exports can be read back

The text of an export is a table of 29 rows. Unless the path of the configuration file has a
comma or a newline in it, the table is read back from the text, with every figure of the report
at its place, and so from every file that a simulation has added to the directory.
-/

namespace PosteItaliane

open Framework

/-- The figures of a report that are written as integers. -/
inductive Figure where
  | simDuration | minuteDuration | numOperators | numUsers | numWorkerSeats
  | workerShiftOpen | workerShiftClose | explodeMax
  | currentDay | currentMinute | totalActiveOperators | totalSimulationPauses
  | servedUsers | failedServices
  | serviceServed (s : ServiceId)
  | serviceFailed (s : ServiceId)
  | lateUsersToday | lateUsers | totalRequests

namespace Figure

def value (r : FinalReport) : Figure → ℤ
  | simDuration => r.config.simDuration
  | minuteDuration => r.config.minuteDuration
  | numOperators => r.config.numOperators
  | numUsers => r.numUsers
  | numWorkerSeats => r.config.numWorkerSeats
  | workerShiftOpen => r.config.workerShiftOpen
  | workerShiftClose => r.config.workerShiftClose
  | explodeMax => r.config.explodeMax
  | currentDay => r.stats.currentDay
  | currentMinute => r.stats.currentMinute
  | totalActiveOperators => r.stats.totalActiveOperators
  | totalSimulationPauses => r.stats.totalSimulationPauses
  | servedUsers => r.stats.simulationGlobal.servedUsers
  | failedServices => r.stats.simulationGlobal.failedServices
  | serviceServed s => (r.stats.simulationServices s).servedUsers
  | serviceFailed s => (r.stats.simulationServices s).failedServices
  | lateUsersToday => r.stats.today.lateUsers
  | lateUsers => r.stats.simulationGlobal.lateUsers
  | totalRequests => r.stats.simulationGlobal.totalRequests

/-- Row and column of a figure. -/
def place : Figure → ℕ × ℕ
  | simDuration => (3, 1)
  | minuteDuration => (4, 1)
  | numOperators => (5, 1)
  | numUsers => (6, 1)
  | numWorkerSeats => (7, 1)
  | workerShiftOpen => (8, 1)
  | workerShiftClose => (9, 1)
  | explodeMax => (10, 1)
  | currentDay => (13, 0)
  | currentMinute => (13, 1)
  | totalActiveOperators => (13, 2)
  | totalSimulationPauses => (13, 3)
  | servedUsers => (13, 4)
  | failedServices => (13, 5)
  | serviceServed s => (16 + s, 1)
  | serviceFailed s => (16 + s, 2)
  | lateUsersToday => (24, 1)
  | lateUsers => (25, 1)
  | totalRequests => (26, 1)

end Figure

/-- A cell of a table, empty where there is none. -/
def cellAt (table : List (List (List Char))) (place : ℕ × ℕ) : List Char :=
  ((table[place.1]?).bind fun row => row[place.2]?).getD []

/-- The text is read as the report: every figure, the way it ended and the path. -/
def ReadsBack (text : List Char) (r : FinalReport) (configurationFile : List Char) : Prop :=
  let table := Csv.cells ',' '\n' text
  (∀ f : Figure, decimal (cellAt table f.place) = f.value r) ∧
    cellAt table (1, 1) = r.exitMode.text.toList ∧ cellAt table (2, 1) = cString configurationFile

variable (float : FloatFormat)

def serviceRow (stats : PosteStats) (i : ServiceId) : List (List Char) :=
  let s := stats.simulationServices i
  [(services i).toList, decimalText s.servedUsers, decimalText s.failedServices,
    float.average s.totalWaitTime s.totalRequests,
    float.average s.totalServiceTime s.totalRequests]

def summaryRows (r : FinalReport) (configurationFile : List Char) : List (List (List Char)) :=
  [["Simulation Summary".toList],
    ["ExitMode".toList, r.exitMode.text.toList],
    ["ConfigFile".toList, cString configurationFile],
    ["SimDuration(days)".toList, decimalText r.config.simDuration],
    ["MinuteDuration(ns)".toList, decimalText r.config.minuteDuration],
    ["NumOperators".toList, decimalText r.config.numOperators],
    ["NumUsers".toList, decimalText r.numUsers],
    ["NumWorkerSeats".toList, decimalText r.config.numWorkerSeats],
    ["WorkerShiftOpen(hour)".toList, decimalText r.config.workerShiftOpen],
    ["WorkerShiftClose(hour)".toList, decimalText r.config.workerShiftClose],
    ["ExplodeMaxLateUsers".toList, decimalText r.config.explodeMax], [[]]]

def globalHeader : List (List Char) :=
  ["Day".toList, "Minute".toList, "TotalActiveOperators".toList, "TotalSimulationPauses".toList,
    "TotalServedUsers".toList, "TotalFailedServices".toList, "AvgGeneralWaitTime".toList,
    "AvgServiceWaitTime".toList]

def serviceHeader : List (List Char) :=
  ["Service".toList, "ServedUsers".toList, "FailedServices".toList, "AvgGeneralWaitTime".toList,
    "AvgServiceWaitTime".toList]

def globalRows (stats : PosteStats) : List (List (List Char)) :=
  let global := stats.simulationGlobal
  [globalHeader,
    [decimalText stats.currentDay, decimalText stats.currentMinute,
      decimalText stats.totalActiveOperators, decimalText stats.totalSimulationPauses,
      decimalText global.servedUsers, decimalText global.failedServices,
      float.average global.totalWaitTime global.totalRequests,
      float.average global.totalServiceTime global.totalRequests], [[]]]

def serviceRows (stats : PosteStats) : List (List (List Char)) :=
  serviceHeader :: (List.finRange numServiceTypes).map (serviceRow float stats)

def extraRows (stats : PosteStats) : List (List (List Char)) :=
  [[[]], ["ExtraInfo".toList],
    ["LateUsersToday".toList, decimalText stats.today.lateUsers],
    ["TotalLateUsers".toList, decimalText stats.simulationGlobal.lateUsers],
    ["TotalRequests".toList, decimalText stats.simulationGlobal.totalRequests],
    ["TotalWaitTime".toList, float.quotient stats.simulationGlobal.totalWaitTime 1],
    ["TotalServiceTime".toList, float.quotient stats.simulationGlobal.totalServiceTime 1]]

def reportTable (r : FinalReport) (configurationFile : List Char) : List (List (List Char)) :=
  summaryRows r configurationFile ++ (globalRows float r.stats ++
    (serviceRows float r.stats ++ extraRows float r.stats))

theorem labelled_eq (label : String) (value : List Char) :
    labelled label value = Csv.row ',' '\n' [label.toList, value] := by
  simp [labelled, Csv.row]

theorem serviceLine_eq (stats : PosteStats) (i : ServiceId) :
    serviceLine float stats i = Csv.row ',' '\n' (serviceRow float stats i) := by
  simp [serviceLine, serviceRow, Csv.row]

theorem title_eq :
    printed "Simulation Summary\n" = Csv.row ',' '\n' ["Simulation Summary".toList] := by
  decide +kernel

theorem blank_eq : printed "\n" = Csv.row ',' '\n' [[]] := by decide +kernel

theorem globalHeader_eq :
    printed ("Day,Minute,TotalActiveOperators,TotalSimulationPauses,TotalServedUsers," ++
      "TotalFailedServices,AvgGeneralWaitTime,AvgServiceWaitTime\n") =
      Csv.row ',' '\n' globalHeader := by decide +kernel

theorem serviceHeader_eq :
    printed "\nService,ServedUsers,FailedServices,AvgGeneralWaitTime,AvgServiceWaitTime\n" =
      Csv.row ',' '\n' [[]] ++ Csv.row ',' '\n' serviceHeader := by decide +kernel

theorem extraHeader_eq : printed "\nExtraInfo\n" =
    Csv.row ',' '\n' [[]] ++ Csv.row ',' '\n' ["ExtraInfo".toList] := by decide +kernel

theorem summaryText_eq (r : FinalReport) (configurationFile : List Char) :
    summaryText r configurationFile = Csv.text ',' '\n' (summaryRows r configurationFile) := by
  simp only [summaryText, labelled_eq, title_eq, blank_eq, summaryRows, Csv.text_cons,
    Csv.text_nil, List.append_assoc, List.append_nil]

theorem globalText_eq (stats : PosteStats) :
    globalText float stats ++ Csv.row ',' '\n' [[]] =
      Csv.text ',' '\n' (globalRows float stats) := by
  simp only [globalText, globalHeader_eq, globalRows, Csv.text_cons, Csv.text_nil]
  simp [Csv.row]

theorem servicesText_eq (stats : PosteStats) :
    servicesText float stats =
      Csv.row ',' '\n' [[]] ++ Csv.text ',' '\n' (serviceRows float stats) := by
  have hloop : (List.finRange numServiceTypes).flatMap (serviceLine float stats) =
      Csv.text ',' '\n' ((List.finRange numServiceTypes).map (serviceRow float stats)) := by
    rw [Csv.text, List.flatMap_map]
    exact List.flatMap_congr fun i _ => serviceLine_eq float stats i
  rw [servicesText, serviceHeader_eq, hloop, serviceRows, Csv.text_cons, List.append_assoc]

theorem extraText_eq (stats : PosteStats) :
    extraText float stats = Csv.text ',' '\n' (extraRows float stats) := by
  simp only [extraText, labelled_eq, extraHeader_eq, extraRows, Csv.text_cons, Csv.text_nil,
    List.append_assoc, List.append_nil]

theorem reportText_eq (r : FinalReport) (configurationFile : List Char) :
    reportText float r configurationFile =
      Csv.text ',' '\n' (reportTable float r configurationFile) := by
  rw [reportText, summaryText_eq, servicesText_eq, extraText_eq, reportTable, Csv.text_append,
    Csv.text_append, Csv.text_append, ← globalText_eq]
  simp only [List.append_assoc]

/-- A cell of the table. -/
def PlainCell (cell : List Char) : Prop := ',' ∉ cell ∧ '\n' ∉ cell

instance (cell : List Char) : Decidable (PlainCell cell) := inferInstanceAs (Decidable (_ ∧ _))

theorem plainCell_decimalText (n : ℤ) : PlainCell (decimalText n) :=
  ⟨notMem_decimalText n (by decide) (by decide), notMem_decimalText n (by decide) (by decide)⟩

theorem plainCell_average (x : ℚ) (n : ℤ) : PlainCell (float.average x n) := by
  unfold FloatFormat.average
  split
  · exact float.quotient_plain x n
  · exact float.quotient_plain 0 1

theorem plainCell_exitMode (m : ExitMode) : PlainCell m.text.toList := by
  cases m <;> decide

theorem plainCell_service (i : ServiceId) : PlainCell (services i).toList := by
  revert i
  decide +kernel

theorem plainRow_labelled {label : String} {value : List Char} (hlabel : PlainCell label.toList)
    (hvalue : PlainCell value) : Csv.PlainRow ',' '\n' [label.toList, value] := by
  refine ⟨List.cons_ne_nil _ _, ?_⟩
  rintro cell (_ | ⟨_, _ | ⟨_, ⟨⟩⟩⟩)
  · exact hlabel
  · exact hvalue

theorem plainRow_summary (r : FinalReport) {configurationFile : List Char}
    (hfile : PlainCell (cString configurationFile)) :
    ∀ line ∈ summaryRows r configurationFile, Csv.PlainRow ',' '\n' line := by
  simp only [summaryRows, List.forall_mem_cons]
  refine ⟨⟨by simp, by decide +kernel⟩, plainRow_labelled (by decide) (plainCell_exitMode _),
    plainRow_labelled (by decide) hfile, ?_, ?_, ?_, ?_, ?_, ?_, ?_, ?_,
    ⟨by simp, by decide⟩, by simp⟩
  all_goals exact plainRow_labelled (by decide +kernel) (plainCell_decimalText _)

theorem plainRow_global (stats : PosteStats) :
    ∀ line ∈ globalRows float stats, Csv.PlainRow ',' '\n' line := by
  simp only [globalRows, List.forall_mem_cons]
  refine ⟨⟨List.cons_ne_nil _ _, by decide +kernel⟩, ⟨List.cons_ne_nil _ _, ?_⟩,
    ⟨by simp, by decide⟩, by simp⟩
  simp only [List.forall_mem_cons]
  exact ⟨plainCell_decimalText _, plainCell_decimalText _, plainCell_decimalText _,
    plainCell_decimalText _, plainCell_decimalText _, plainCell_decimalText _,
    plainCell_average float _ _, plainCell_average float _ _, by simp⟩

theorem plainRow_services (stats : PosteStats) :
    ∀ line ∈ serviceRows float stats, Csv.PlainRow ',' '\n' line := by
  rw [serviceRows, List.forall_mem_cons]
  refine ⟨⟨List.cons_ne_nil _ _, by decide +kernel⟩, fun line hline => ?_⟩
  obtain ⟨i, -, rfl⟩ := List.mem_map.mp hline
  refine ⟨List.cons_ne_nil _ _, ?_⟩
  simp only [serviceRow, List.forall_mem_cons]
  exact ⟨plainCell_service i, plainCell_decimalText _, plainCell_decimalText _,
    plainCell_average float _ _, plainCell_average float _ _, by simp⟩

theorem plainRow_extra (stats : PosteStats) :
    ∀ line ∈ extraRows float stats, Csv.PlainRow ',' '\n' line := by
  simp only [extraRows, List.forall_mem_cons]
  exact ⟨⟨by simp, by decide⟩, ⟨by simp, by decide +kernel⟩,
    plainRow_labelled (by decide +kernel) (plainCell_decimalText _),
    plainRow_labelled (by decide +kernel) (plainCell_decimalText _),
    plainRow_labelled (by decide +kernel) (plainCell_decimalText _),
    plainRow_labelled (by decide +kernel) (float.quotient_plain _ 1),
    plainRow_labelled (by decide +kernel) (float.quotient_plain _ 1), by simp⟩

/-- The table of a report is read back from its text. -/
theorem cells_reportText (r : FinalReport) {configurationFile : List Char}
    (hfile : PlainCell (cString configurationFile)) :
    Csv.cells ',' '\n' (reportText float r configurationFile) =
      reportTable float r configurationFile := by
  rw [reportText_eq]
  apply Csv.cells_text (by decide)
  simp only [reportTable, List.forall_mem_append]
  exact ⟨plainRow_summary r hfile, plainRow_global float r.stats,
    plainRow_services float r.stats, plainRow_extra float r.stats⟩

theorem serviceRow_place (r : FinalReport) (configurationFile : List Char) (i : ServiceId) :
    (reportTable float r configurationFile)[16 + (i : ℕ)]? =
      some (serviceRow float r.stats i) := by
  have hsplit : reportTable float r configurationFile =
      (summaryRows r configurationFile ++ (globalRows float r.stats ++ [serviceHeader])) ++
        ((List.finRange numServiceTypes).map (serviceRow float r.stats) ++
          extraRows float r.stats) := by
    simp [reportTable, serviceRows]
  have hlength : (summaryRows r configurationFile ++
      (globalRows float r.stats ++ [serviceHeader])).length = 16 := rfl
  rw [hsplit, List.getElem?_append_right (by omega), hlength, Nat.add_sub_cancel_left,
    List.getElem?_append_left (by simp), List.getElem?_map]
  simp

theorem cellAt_place (r : FinalReport) (configurationFile : List Char) (f : Figure) :
    cellAt (reportTable float r configurationFile) f.place = decimalText (f.value r) := by
  cases f
  case serviceServed s => simp only [cellAt, Figure.place, serviceRow_place]; rfl
  case serviceFailed s => simp only [cellAt, Figure.place, serviceRow_place]; rfl
  all_goals rfl

theorem readsBack_reportText (r : FinalReport) {configurationFile : List Char}
    (hfile : PlainCell (cString configurationFile)) :
    ReadsBack (reportText float r configurationFile) r configurationFile := by
  rw [ReadsBack, cells_reportText float r hfile]
  refine ⟨fun f => ?_, rfl, rfl⟩
  rw [cellAt_place, decimal_decimalText]

theorem exportAll_names {C : Type} {d : Directory C} {contents : List C}
    (h : contents.length ≤ (unusedReports d).card) :
    ∃ d' names, exportAll (2 ^ 31) d contents = some d' ∧ names.Nodup ∧
      (∀ f, (d f).isSome → d' f = d f) ∧
      (∀ f ∈ names, d f = none) ∧
      List.Forall₂ (fun f content => d' f = some content) names contents := by
  induction contents generalizing d with
  | nil => exact ⟨d, [], rfl, List.nodup_nil, fun f _ => rfl, by simp, List.Forall₂.nil⟩
  | cons content rest ih =>
    rw [List.length_cons] at h
    obtain ⟨n, hlt, hfree, -, hsearch⟩ :=
      searchName_of_unused (d := d) (Finset.card_pos.mp (by omega))
    have hcard := card_unusedReports_update d n content
    obtain ⟨d', names, hall, hnodup, hkeep, hunused, hwritten⟩ :=
      ih (d := Function.update d (reportName n) (some content)) (by omega)
    have hother : ∀ f ∈ names, f ≠ reportName n ∧ d f = none := by
      intro f hf
      have hnone := hunused f hf
      by_cases hname : f = reportName n
      · rw [hname, Function.update_self] at hnone
        cases hnone
      · rw [Function.update_of_ne hname] at hnone
        exact ⟨hname, hnone⟩
    refine ⟨d', reportName n :: names, ?_, ?_, ?_, ?_, ?_⟩
    · simp only [exportAll, exportStats, hsearch (2 ^ 31) hlt, Option.map_some, Option.bind_some]
      exact hall
    · exact List.nodup_cons.mpr ⟨fun hmem => (hother _ hmem).1 rfl, hnodup⟩
    · intro f hf
      have hname : f ≠ reportName n := by
        rintro rfl
        rw [hfree] at hf
        cases hf
      have hold := Function.update_of_ne hname (some content) d
      rw [← hold]
      exact hkeep f (by rw [hold]; exact hf)
    · exact List.forall_mem_cons.mpr ⟨hfree, fun f hf => (hother f hf).2⟩
    · refine List.Forall₂.cons ?_ hwritten
      rw [hkeep _ (by rw [Function.update_self]; rfl), Function.update_self]

/-- However many simulations export to a directory, as long as an `int` counts to unused names
and their paths have no comma and no newline, every report is in a file of its own, from which
its figures, its exit mode and its path are read back, and the files from before are as they
were. -/
theorem exports_read_back (float : FloatFormat) (d : Directory (List Char))
    (reports : List (FinalReport × List Char))
    (hfiles : ∀ r ∈ reports, PlainCell (cString r.2))
    (hroom : reports.length ≤ (unusedReports d).card) :
    ∃ d' names, exportAll (2 ^ 31) d (reports.map fun r => reportText float r.1 r.2) = some d' ∧
      names.Nodup ∧ (∀ f ∈ names, d f = none) ∧ (∀ f, (d f).isSome → d' f = d f) ∧
      List.Forall₂ (fun f r => ∃ text, d' f = some text ∧ ReadsBack text r.1 r.2)
        names reports := by
  have htexts : (reports.map fun r => reportText float r.1 r.2).length ≤
      (unusedReports d).card := by
    rw [List.length_map]
    exact hroom
  obtain ⟨d', names, hall, hnodup, hkeep, hunused, hwritten⟩ := exportAll_names htexts
  refine ⟨d', names, hall, hnodup, hunused, hkeep, ?_⟩
  rw [List.forall₂_map_right_iff, List.forall₂_iff_zip] at hwritten
  refine List.forall₂_iff_zip.mpr ⟨hwritten.1, fun {f r} hmem => ?_⟩
  exact ⟨_, hwritten.2 hmem, readsBack_reportText float r.1 (hfiles r (List.of_mem_zip hmem).2)⟩

/-- The two decimals of a quotient that is not negative, rounded to the nearest. -/
def twoDecimals (x : ℚ) (n : ℤ) : List Char :=
  let hundredths := (100 * x / n + 1 / 2).floor
  decimalText (hundredths / 100) ++ ".".toList ++ decimalText (hundredths / 10 % 10) ++
    decimalText (hundredths % 10)

def decimalFormat : FloatFormat where
  quotient := twoDecimals
  quotient_plain x n := by
    have hplain (m : ℤ) : ',' ∉ decimalText m ∧ '\n' ∉ decimalText m := plainCell_decimalText m
    have hdot : ',' ∉ ".".toList ∧ '\n' ∉ ".".toList := by decide
    constructor
    · simp only [twoDecimals, List.mem_append, hplain, hdot.1, or_self, not_false_eq_true]
    · simp only [twoDecimals, List.mem_append, hplain, hdot.2, or_self, not_false_eq_true]

/-- A user was served in five minutes after it had waited for two. -/
def afterOneService : PosteStats :=
  assignAll (updateRequestsStats 0 ++ updateSuccessStats 0 2 5 ++ publishMinute 490) {}

/-- On the next day a user came late and an operator had gone home early. -/
def afterTwoDays : PosteStats :=
  assignAll (updatePauseStats ++ updateActiveOperators ++ resetDailyStats 2 ++
    handleLateUsers false 3 ++ updateFailsStats 3) afterOneService

def twoReports : List (FinalReport × List Char) :=
  [(writeStats defaultConfig 5 afterOneService, []),
    (writeStats { defaultConfig with explodeMax := 0 } 7 afterTwoDays, "a.conf".toList)]

theorem exports_read_back_twice :
    ∃ d' names, exportAll (2 ^ 31) (fun _ => none)
        (twoReports.map fun r => reportText decimalFormat r.1 r.2) = some d' ∧
      names.Nodup ∧ (∀ f ∈ names, (fun _ => none : Directory (List Char)) f = none) ∧
      (∀ f, ((fun _ => none : Directory (List Char)) f).isSome → d' f = none) ∧
      List.Forall₂ (fun f r => ∃ text, d' f = some text ∧ ReadsBack text r.1 r.2)
        names twoReports := by
  have hcard : 2 ^ 31 - (∅ : Finset (List Char)).card ≤
      (unusedReports (fun _ => none : Directory (List Char))).card :=
    card_unusedReports_ge (by simp)
  rw [Finset.card_empty] at hcard
  have hfiles : ∀ r ∈ twoReports, PlainCell (cString r.2) := by
    simp only [twoReports, List.forall_mem_cons, List.not_mem_nil, false_imp_iff, implies_true,
      and_true]
    decide
  exact exports_read_back decimalFormat (fun _ => none) twoReports hfiles
    (le_trans (by decide) hcard)

end PosteItaliane
