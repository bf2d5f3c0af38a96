import PosteItaliane.Model.Shared

/-!
# The director

The main loop of `direttore.c` with `start_new_day` and `check_new_users_queue`. The
process starts with every child of the configuration created. The add-users queue is seen
only through the number of users a request asks for; the children it starts are named by
the actions.
-/

namespace PosteItaliane

namespace Direttore

open Framework

/-- The index counts the posts or the children that are left. -/
inductive Phase where
  | loop
  | openCheck
  | opening (left : ℕ)
  | closeCheck
  | closing (left : ℕ)
  | midnightCheck
  | explodeCheck
  | showStats
  | resetStats
  | resetSeats
  | waking (left : ℕ)
  | newUsers
  | starting (left : ℕ)
  | clock
  | over
  | exited
  deriving DecidableEq

/-- `printed` is the list of the daily statistics shown so far, oldest first. -/
structure Local where
  phase : Phase
  minutesElapsed : ℤ
  daysElapsed : ℤ
  numUsers : ℤ
  printed : List DailyStats

inductive Act (U : Type) where
  | tick
  | nanosleepFails
  | timeout
  | openPoste
  | skipOpen
  | postOpen (n : ℕ)
  | opened
  | closePoste
  | skipClose
  | postClose (n : ℕ)
  | closed
  | midnight
  | skipMidnight
  | explode
  | startNewDay
  | printDayStats
  | resetStats (day : ℤ)
  | resetSeats (service : ℕ → ServiceId)
  | postDay (n : ℕ)
  | dayStarted
  | noNewUsers
  | newUsersFail
  | receiveNewUsers (n : ℕ)
  | startUser (u : U) (n : ℕ)
  | replyNewUsers
  | publishMinute (minute : ℤ)

variable {O U : Type} [Fintype O] [Fintype U] (site : Site O U)

def Enabled (l : Local) (sh : Shared O U) : Act U → Prop
  | .tick => l.phase = .loop ∧ l.daysElapsed < site.config.simDuration
  | .nanosleepFails => l.phase = .loop ∧ l.daysElapsed < site.config.simDuration
  | .timeout => l.phase = .loop ∧ site.config.simDuration ≤ l.daysElapsed
  | .openPoste => l.phase = .openCheck ∧
      l.minutesElapsed = site.config.workerShiftOpen * 60 ∧ l.minutesElapsed ≠ 0
  | .skipOpen => l.phase = .openCheck ∧
      ¬ (l.minutesElapsed = site.config.workerShiftOpen * 60 ∧ l.minutesElapsed ≠ 0)
  | .postOpen n => l.phase = .opening (n + 1)
  | .opened => l.phase = .opening 0
  | .closePoste => l.phase = .closeCheck ∧
      l.minutesElapsed = site.config.workerShiftClose * 60 ∧ l.minutesElapsed ≠ 0
  | .skipClose => l.phase = .closeCheck ∧
      ¬ (l.minutesElapsed = site.config.workerShiftClose * 60 ∧ l.minutesElapsed ≠ 0)
  | .postClose n => l.phase = .closing (n + 1)
  | .closed => l.phase = .closing 0
  | .midnight => l.phase = .midnightCheck ∧ l.minutesElapsed % 1440 = 0
  | .skipMidnight => l.phase = .midnightCheck ∧ l.minutesElapsed % 1440 ≠ 0
  | .explode => l.phase = .explodeCheck ∧
      site.config.explodeMax < sh.stats.value.today.lateUsers
  | .startNewDay => l.phase = .explodeCheck ∧
      (sh.stats.value.today.lateUsers : ℤ) ≤ site.config.explodeMax
  | .printDayStats => l.phase = .showStats
  | .resetStats day => l.phase = .resetStats ∧ day = l.daysElapsed ∧ sh.stats.Free
  | .resetSeats _ => l.phase = .resetSeats
  | .postDay n => l.phase = .waking (n + 1)
  | .dayStarted => l.phase = .waking 0
  | .noNewUsers => l.phase = .newUsers
  | .newUsersFail => l.phase = .newUsers
  | .receiveNewUsers _ => l.phase = .newUsers
  | .startUser _ n => l.phase = .starting (n + 1)
  | .replyNewUsers => l.phase = .starting 0
  | .publishMinute minute => l.phase = .clock ∧ minute = l.minutesElapsed + 1 ∧ sh.stats.Free

instance (l : Local) (sh : Shared O U) (a : Act U) : Decidable (Enabled site l sh a) := by
  rcases a with _ | _ <;> (dsimp only [Enabled]; infer_instance)

def next (l : Local) (sh : Shared O U) : Act U → Local × Shared O U
  | .tick => ({ l with phase := .openCheck }, sh)
  | .nanosleepFails => ({ l with phase := .exited }, sh)
  | .timeout => ({ l with phase := .over }, sh)
  | .openPoste =>
    ({ l with phase := .opening (site.config.numOperators + l.numUsers).toNat }, sh)
  | .skipOpen => ({ l with phase := .closeCheck }, sh)
  | .postOpen n => ({ l with phase := .opening n },
      { sh with openPosteEvent := sh.openPosteEvent + 1 })
  | .opened => ({ l with phase := .closeCheck }, sh)
  | .closePoste => ({ l with phase := .closing site.config.numOperators.toNat }, sh)
  | .skipClose => ({ l with phase := .midnightCheck }, sh)
  | .postClose n => ({ l with phase := .closing n },
      { sh with closePosteEvent := sh.closePosteEvent + 1 })
  | .closed => ({ l with phase := .midnightCheck }, sh)
  | .midnight => ({ l with phase := .explodeCheck, daysElapsed := l.daysElapsed + 1 }, sh)
  | .skipMidnight => ({ l with phase := .newUsers }, sh)
  | .explode => ({ l with phase := .over }, sh)
  | .startNewDay => ({ l with phase := .showStats }, sh)
  -- `today` is passed by value, before the lock is taken
  | .printDayStats =>
    ({ l with phase := .resetStats, printed := l.printed ++ [sh.stats.value.today] }, sh)
  | .resetStats day => ({ l with phase := .resetSeats },
      { sh with stats := sh.stats.enter .direttore (resetDailyStats day) })
  | .resetSeats service =>
    ({ l with phase := .waking (l.numUsers + site.config.numOperators).toNat },
      { sh with seats := resetSeats site.numSeats service sh.seats })
  | .postDay n => ({ l with phase := .waking n },
      { sh with dayUpdateEvent := sh.dayUpdateEvent + 1 })
  | .dayStarted => ({ l with phase := .newUsers, minutesElapsed := 0 }, sh)
  | .noNewUsers => ({ l with phase := .clock }, sh)
  | .newUsersFail => ({ l with phase := .clock }, sh)
  | .receiveNewUsers n => ({ l with phase := .starting n, numUsers := l.numUsers + n }, sh)
  | .startUser _ n => ({ l with phase := .starting n }, sh)
  | .replyNewUsers => ({ l with phase := .clock }, sh)
  | .publishMinute minute => ({ l with phase := .loop, minutesElapsed := minute },
      { sh with stats := sh.stats.enter .direttore (PosteItaliane.publishMinute minute) })

end Direttore

end PosteItaliane
