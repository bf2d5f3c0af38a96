import PosteItaliane.Framework.GuardedSystem
import PosteItaliane.Framework.Monitor
import PosteItaliane.Framework.Registry
import PosteItaliane.Framework.Mailbox
import PosteItaliane.Framework.Broadcast
import PosteItaliane.Framework.Vacancies
import PosteItaliane.Framework.Assignments
import PosteItaliane.Framework.Tokens
import PosteItaliane.Framework.ForLoops
import PosteItaliane.Framework.Tally
import PosteItaliane.Framework.Progress
import PosteItaliane.Framework.MachineInts
import PosteItaliane.Framework.Probing
import PosteItaliane.Framework.Blocks
import PosteItaliane.Framework.Fairness
import PosteItaliane.Framework.Csv
import PosteItaliane.Framework.Memory
import PosteItaliane.Model.Config
import PosteItaliane.Model.Stats
import PosteItaliane.Model.Stations
import PosteItaliane.Model.Messages
import PosteItaliane.Model.Shared
import PosteItaliane.Model.Operatore
import PosteItaliane.Model.Utente
import PosteItaliane.Model.ErogatoreTicket
import PosteItaliane.Model.Direttore
import PosteItaliane.Model.System
import PosteItaliane.Model.NewUsers
import PosteItaliane.Model.Termination
import PosteItaliane.Model.LoadConfig
import PosteItaliane.Model.Launch
import PosteItaliane.Model.ReportFiles
import PosteItaliane.Model.NewUsersCalls
import PosteItaliane.Model.ChildTable
import PosteItaliane.Model.DirectorMain
import PosteItaliane.Model.MessageBytes
import PosteItaliane.Model.ReportText
import PosteItaliane.Model.SeatScan
import PosteItaliane.Proofs.StatsConservation
import PosteItaliane.Proofs.Schedule
import PosteItaliane.Proofs.SeatTable
import PosteItaliane.Proofs.Serving
import PosteItaliane.Proofs.Office
import PosteItaliane.Proofs.UserSeats
import PosteItaliane.Proofs.Steps
import PosteItaliane.Proofs.Choices
import PosteItaliane.Proofs.Letters
import PosteItaliane.Proofs.Protocol
import PosteItaliane.Proofs.Requests
import PosteItaliane.Proofs.Diary
import PosteItaliane.Proofs.WorkingDays
import PosteItaliane.Proofs.Clock
import PosteItaliane.Proofs.Gates
import PosteItaliane.Proofs.Sections
import PosteItaliane.Proofs.SimulationLength
import PosteItaliane.Proofs.DayLoop
import PosteItaliane.Proofs.Replies
import PosteItaliane.Proofs.Staffing
import PosteItaliane.Proofs.Addresses
import PosteItaliane.Proofs.DailyReports
import PosteItaliane.Proofs.LateUsers
import PosteItaliane.Proofs.FinalReport
import PosteItaliane.Proofs.DayChange
import PosteItaliane.Proofs.Wakeups
import PosteItaliane.Proofs.ConfigLoading
import PosteItaliane.Proofs.LineGrammar
import PosteItaliane.Proofs.ArrayBounds
import PosteItaliane.Proofs.Sleeps
import PosteItaliane.Proofs.ClockOrder
import PosteItaliane.Proofs.FailedServices
import PosteItaliane.Proofs.ActiveOperators
import PosteItaliane.Proofs.WaitTimes
import PosteItaliane.Proofs.DirectorAlone
import PosteItaliane.Proofs.OpeningHours
import PosteItaliane.Proofs.Leftovers
import PosteItaliane.Proofs.ServiceTimes
import PosteItaliane.Proofs.UserDraws
import PosteItaliane.Proofs.Arrivals
import PosteItaliane.Proofs.EarlyDepartures
import PosteItaliane.Proofs.ReportFiles
import PosteItaliane.Proofs.NewUsersReplies
import PosteItaliane.Proofs.ChildTable
import PosteItaliane.Proofs.CleanUp
import PosteItaliane.Proofs.LateBreakdown
import PosteItaliane.Proofs.PathCopy
import PosteItaliane.Proofs.Headcounts
import PosteItaliane.Proofs.OpeningTokens
import PosteItaliane.Proofs.ClosingTokens
import PosteItaliane.Proofs.DaysOwed
import PosteItaliane.Proofs.StatsSummary
import PosteItaliane.Proofs.FairEnding
import PosteItaliane.Proofs.ReportSummary
import PosteItaliane.Proofs.RecordedTimes
import PosteItaliane.Proofs.FairService
import PosteItaliane.Proofs.NewUsersAdded
import PosteItaliane.Proofs.Decimals
import PosteItaliane.Proofs.ConfigFiles
import PosteItaliane.Proofs.MessageBytes
import PosteItaliane.Proofs.ReportText
import PosteItaliane.Proofs.SeatScan
import PosteItaliane.Proofs.QueueRoom
import PosteItaliane.Proofs.CreatedUsers
