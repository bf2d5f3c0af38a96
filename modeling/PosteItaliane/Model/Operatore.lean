import PosteItaliane.Model.Shared

/-!
# The operator process

`operatore.c` as a machine over the shared state. A phase is a point between two accesses
to shared memory, a semaphore or the queue, with the local variables that are live there;
an action is the step to the next one. A branch of the source is one action for each
outcome. After a section under `stats_lock` is entered the phase is already the one after
it, and the process takes no further step until the lock is given back.
-/

namespace PosteItaliane

namespace Operatore

open Framework

/-- Where an operator is. The index is `current_seat` or `available_seat`. -/
inductive Phase where
  | boot
  | home
  | awaitDay
  | morning
  | awaitOpen
  | entered
  | seek
  | station
  | stationTimeout
  | stationFind
  | stationRepost
  | takeFound (k : ℕ)
  | checkClose (k : ℕ)
  | receive (k : ℕ)
  | request (k : ℕ) (r : ServiceRequest)
  | serve (k : ℕ) (r : ServiceRequest)
  | reply (k : ℕ) (r : ServiceRequest) (time : ℚ)
  | pauseDraw (k : ℕ)
  | release (k : ℕ) (early : Bool)
  | signal (early : Bool)
  | countPause
  | countActive
  deriving DecidableEq

structure Local where
  phase : Phase
  pausesDone : ℕ
  deriving DecidableEq

/-- Arguments named `r` of a draw are the value of `rand()`. -/
inductive Act where
  | waitDay
  | wake
  | waitOpen
  | enter
  | canWork
  | cannotWork
  | takeFree (k : ℕ)
  | noSeat
  | stationEvent
  | stationTimeout
  | closedAtStation
  | openAtStation
  | foundSeat (k : ℕ)
  | foundNone
  | repost
  | takeFound (k : ℕ)
  | closed (k : ℕ)
  | stillOpen (k : ℕ)
  | receive (k : ℕ) (m : Message)
  | noRequest (k : ℕ)
  | receiveFails (k : ℕ)
  | countRequest (k : ℕ) (q : ServiceRequest)
  | serve (k : ℕ) (q : ServiceRequest) (r : ℕ)
  | reply (k : ℕ) (q : ServiceRequest) (time : ℚ)
  | replyFails (k : ℕ) (q : ServiceRequest) (time : ℚ)
  | stay (k r : ℕ)
  | pause (k r : ℕ)
  | release (k : ℕ) (early : Bool)
  | signal (early : Bool)
  | countPause
  | countActive
  deriving DecidableEq

/-- The nanoseconds `process_service` sleeps for the draw `r`. Its `exit` on a failing
`nanosleep` is not taken: the sleep is valid and an interrupted one is resumed. -/
def processService (config : PosteConfig) (service : ServiceId) (r : ℕ) : ℤ :=
  let base := servicesDuration service * config.minuteDuration
  let min := base.tdiv 2
  let max := base + base.tdiv 2
  let span := max - min + 1
  min + (r : ℤ).tmod span

/-- The service time that goes into `service_done`. -/
def serviceMinutes (config : PosteConfig) (service : ServiceId) (r : ℕ) : ℚ :=
  processService config service r / config.minuteDuration

/-- The draw for going home early. -/
def GoesEarly (config : PosteConfig) (pausesDone r : ℕ) : Prop :=
  r % 100 < 1 ∧ (pausesDone : ℤ) < config.nofPause

instance (config : PosteConfig) (pausesDone r : ℕ) : Decidable (GoesEarly config pausesDone r) :=
  inferInstanceAs (Decidable (_ ∧ _))

/-- `await_service_request_nb` reports a request with these numbers as no request. -/
def Ignored (q : ServiceRequest) : Prop := q.ticketNumber = -2 ∨ q.ticketNumber = -1

instance (q : ServiceRequest) : Decidable (Ignored q) := inferInstanceAs (Decidable (_ ∨ _))

/-- The request an operator reads out of a message. -/
def readRequest (m : Message) : ServiceRequest := ⟨m.body.words.1, m.body.words.2⟩

variable {O U : Type} [Fintype O] [Fintype U] (site : Site O U) (o : O)

def Enabled (l : Local) (sh : Shared O U) : Act → Prop
  | .waitDay => l.phase = .boot ∨ l.phase = .home
  | .wake => l.phase = .awaitDay ∧ 0 < sh.dayUpdateEvent
  | .waitOpen => l.phase = .morning
  | .enter => l.phase = .awaitOpen ∧ 0 < sh.openPosteEvent
  | .canWork => l.phase = .entered ∧
      canWorkToday site.numSeats sh.seats (site.userService o) = true
  | .cannotWork => l.phase = .entered ∧
      canWorkToday site.numSeats sh.seats (site.userService o) = false
  | .takeFree k => l.phase = .seek ∧
      findSeat site.numSeats sh.seats (site.userService o) = some k
  | .noSeat => l.phase = .seek ∧
      findSeat site.numSeats sh.seats (site.userService o) = none
  | .stationEvent => l.phase = .station ∧ 0 < sh.stationsEvent
  | .stationTimeout => l.phase = .station ∧ sh.stationsEvent = 0
  | .closedAtStation => l.phase = .stationTimeout ∧ 0 < sh.closePosteEvent
  | .openAtStation => l.phase = .stationTimeout ∧ sh.closePosteEvent = 0
  | .foundSeat k => l.phase = .stationFind ∧
      findSeat site.numSeats sh.seats (site.userService o) = some k
  | .foundNone => l.phase = .stationFind ∧
      findSeat site.numSeats sh.seats (site.userService o) = none
  | .repost => l.phase = .stationRepost
  | .takeFound k => l.phase = .takeFound k
  | .closed k => l.phase = .checkClose k ∧ 0 < sh.closePosteEvent
  | .stillOpen k => l.phase = .checkClose k ∧ sh.closePosteEvent = 0
  | .receive k m => l.phase = .receive k ∧
      firstOfType sh.queue (serviceRequestType (site.operatorPid o)) = some m ∧ m.body.size ≤ 8
  | .noRequest k => l.phase = .receive k ∧
      firstOfType sh.queue (serviceRequestType (site.operatorPid o)) = none
  | .receiveFails k => l.phase = .receive k
  | .countRequest k q => l.phase = .request k q ∧ sh.stats.Free
  | .serve k q _ => l.phase = .serve k q
  | .reply k q time => l.phase = .reply k q time
  | .replyFails k q time => l.phase = .reply k q time
  | .stay k r => l.phase = .pauseDraw k ∧ ¬ GoesEarly site.config l.pausesDone r
  | .pause k r => l.phase = .pauseDraw k ∧ GoesEarly site.config l.pausesDone r
  | .release k early => l.phase = .release k early
  | .signal early => l.phase = .signal early
  | .countPause => l.phase = .countPause ∧ sh.stats.Free
  | .countActive => l.phase = .countActive ∧ sh.stats.Free

instance (l : Local) (sh : Shared O U) (a : Act) : Decidable (Enabled site o l sh a) := by
  rcases a with _ | _ <;> (dsimp only [Enabled]; infer_instance)

def next (l : Local) (sh : Shared O U) : Act → Local × Shared O U
  | .waitDay => ({ l with phase := .awaitDay }, sh)
  | .wake => ({ l with phase := .morning }, { sh with dayUpdateEvent := sh.dayUpdateEvent - 1 })
  | .waitOpen => ({ l with phase := .awaitOpen }, sh)
  | .enter => ({ l with phase := .entered }, { sh with openPosteEvent := sh.openPosteEvent - 1 })
  | .canWork => ({ l with phase := .seek }, sh)
  | .cannotWork => ({ l with phase := .home }, sh)
  | .takeFree k => ({ l with phase := .checkClose k },
      { sh with seats := takeSeat sh.seats k (site.operatorPid o) })
  | .noSeat => ({ l with phase := .station }, sh)
  | .stationEvent => ({ l with phase := .stationFind },
      { sh with stationsEvent := sh.stationsEvent - 1 })
  | .stationTimeout => ({ l with phase := .stationTimeout }, sh)
  | .closedAtStation => ({ l with phase := .home },
      { sh with closePosteEvent := sh.closePosteEvent - 1 })
  | .openAtStation => ({ l with phase := .station }, sh)
  | .foundSeat k => ({ l with phase := .takeFound k }, sh)
  | .foundNone => ({ l with phase := .stationRepost }, sh)
  | .repost => ({ l with phase := .station }, { sh with stationsEvent := sh.stationsEvent + 1 })
  -- the seat was found without the lock, and is taken without looking again
  | .takeFound k => ({ l with phase := .checkClose k },
      { sh with seats := takeSeat sh.seats k (site.operatorPid o) })
  | .closed k => ({ l with phase := .release k false },
      { sh with closePosteEvent := sh.closePosteEvent - 1 })
  | .stillOpen k => ({ l with phase := .receive k }, sh)
  | .receive k m =>
    ({ l with phase := if Ignored (readRequest m) then .checkClose k
                       else .request k (readRequest m) },
      { sh with queue := afterReceive sh.queue (serviceRequestType (site.operatorPid o)) })
  | .noRequest k => ({ l with phase := .checkClose k }, sh)
  | .receiveFails k => ({ l with phase := .checkClose k }, sh)
  | .countRequest k q => ({ l with phase := .serve k q },
      { sh with stats := sh.stats.enter (.operatore o) (updateRequestsStats (site.userService o)) })
  | .serve k q r =>
    ({ l with phase := .reply k q (serviceMinutes site.config (site.userService o) r) }, sh)
  | .reply k q time => ({ l with phase := .pauseDraw k },
      { sh with queue := sh.queue ++ [⟨q.senderPid, .serviceDone
        ⟨site.operatorPid o, q.ticketNumber, site.userService o, time⟩⟩] })
  | .replyFails k _ _ => ({ l with phase := .pauseDraw k }, sh)
  | .stay k _ => ({ l with phase := .checkClose k }, sh)
  | .pause k _ => ({ phase := .release k true, pausesDone := l.pausesDone + 1 }, sh)
  | .release k early => ({ l with phase := .signal early },
      { sh with seats := releaseSeat sh.seats k })
  | .signal early => ({ l with phase := if early then .countPause else .countActive },
      { sh with stationsEvent := sh.stationsEvent + 1 })
  | .countPause => ({ l with phase := .countActive },
      { sh with stats := sh.stats.enter (.operatore o) updatePauseStats })
  | .countActive => ({ l with phase := .home },
      { sh with stats := sh.stats.enter (.operatore o) updateActiveOperators })

end Operatore

end PosteItaliane
