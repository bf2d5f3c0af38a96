import PosteItaliane.Model.Shared

/-!
# The user process

`utente.c` as a machine over the shared state, in the same form as the operator. The phases
from `sendTicket` to `returning` are inside `handle_service`; the ones that come after
`attempt_take_seat` has succeeded keep the index of the seat until the function returns.
-/

namespace PosteItaliane

namespace Utente

open Framework

/-- The part of a visit that `handle_service` keeps once it has a ticket. -/
structure Session where
  service : ServiceId
  ticket : ℤ
  deriving DecidableEq

/-- In `countLate`, `countFailed` and `returning` the seat is the one still held and `leaves`
says that `day_loop` returns as well. -/
inductive Phase where
  | notStarted
  | boot
  | home
  | awaitDay
  | morning
  | awaitOpen (walkIn : ℤ)
  | walkIn (walkIn : ℤ)
  | services
  | sendTicket (s : ServiceId)
  | awaitTicket (s : ServiceId)
  | findSeats (x : Session)
  | takeSeat (x : Session) (valid : List ℕ)
  | nap (x : Session) (valid : List ℕ)
  | napOver (x : Session) (valid : List ℕ)
  | tryFreed (x : Session) (valid : List ℕ)
  | readOperator (x : Session) (k : ℕ)
  | readStart (x : Session) (k operatorPid : ℕ)
  | sendRequest (x : Session) (k operatorPid : ℕ) (start : ℤ)
  | awaitDone (x : Session) (k : ℕ) (start : ℤ)
  | readEnd (x : Session) (k : ℕ) (start : ℤ) (d : ServiceDone)
  | countServed (x : Session) (k : ℕ) (wait : ℤ) (d : ServiceDone)
  | checkLate (x : Session) (k : ℕ)
  | releaseSeat (x : Session) (k : ℕ)
  | signalFreed (x : Session) (k : ℕ)
  | countLate (s : ServiceId) (seat : Option ℕ) (fails leaves : Bool)
  | countFailed (s : ServiceId) (seat : Option ℕ) (leaves : Bool)
  | returning (seat : Option ℕ) (leaves : Bool)
  | exited
  deriving DecidableEq

/-- `todo` is the part of `service_list` that comes after the current service. -/
structure Local where
  phase : Phase
  beenLateToday : Bool
  todo : List ServiceId
  deriving DecidableEq

/-- Arguments named `r` or `rs` are values of `rand()`. -/
inductive Act where
  | waitDay
  | wake
  | stayHome (r : ℕ)
  | crash (rGo rNum : ℕ)
  | plan (rGo rNum : ℕ) (rs : List ℕ) (rWalk : ℕ)
  | enter (walkIn : ℤ)
  | sleepOn (walkIn : ℤ)
  | sleepFails (walkIn : ℤ)
  | arrive (walkIn : ℤ)
  | nextService (s : ServiceId) (rest : List ServiceId)
  | shiftOver (s : ServiceId) (rest : List ServiceId)
  | allDone
  | sendTicket (s : ServiceId)
  | sendTicketFails (s : ServiceId)
  | receiveTicket (s : ServiceId) (m : Message)
  | receiveTicketFails (s : ServiceId)
  | findSeats (x : Session)
  | noOperators (x : Session)
  | takeSeat (x : Session) (valid : List ℕ) (k : ℕ)
  | noFreeSeat (x : Session) (valid : List ℕ)
  | nap (x : Session) (valid : List ℕ)
  | napFails (x : Session) (valid : List ℕ)
  | closedWhileWaiting (x : Session) (valid : List ℕ)
  | stillOpen (x : Session) (valid : List ℕ)
  | tryFreed (x : Session) (valid : List ℕ)
  | readOperator (x : Session) (k : ℕ)
  | readStart (x : Session) (k operatorPid : ℕ)
  | sendRequest (x : Session) (k operatorPid : ℕ) (start : ℤ)
  | sendRequestFails (x : Session) (k operatorPid : ℕ) (start : ℤ)
  | receiveDone (x : Session) (k : ℕ) (start : ℤ) (m : Message) (d : ServiceDone)
  | receiveDoneFails (x : Session) (k : ℕ) (start : ℤ)
  | readEnd (x : Session) (k : ℕ) (start : ℤ) (d : ServiceDone)
  | countServed (x : Session) (k : ℕ) (wait : ℤ) (d : ServiceDone)
  | late (x : Session) (k : ℕ)
  | onTime (x : Session) (k : ℕ)
  | releaseSeat (x : Session) (k : ℕ)
  | signalFreed (x : Session) (k : ℕ)
  | countLate (beenLate : Bool) (s : ServiceId) (seat : Option ℕ) (fails leaves : Bool)
  | countFailed (s : ServiceId) (seat : Option ℕ) (leaves : Bool)
  | return (seat : Option ℕ) (leaves : Bool)
  deriving DecidableEq

/-- `none` is a division by zero, which kills the process. -/
def willGoToPoste (config : PosteConfig) (r : ℕ) : Option Bool :=
  if config.pServMax = 0 then none
  else some (decide (config.pServMin ≤ (r : ℤ).tmod config.pServMax))

/-- The length `generate_service_list` draws. -/
def requestCount (config : PosteConfig) (r : ℕ) : Option ℤ :=
  if config.maxNRequests = 0 then none else some ((r : ℤ).tmod config.maxNRequests + 1)

/-- The list for one draw an entry. -/
def generateServiceList (rs : List ℕ) : List ServiceId := rs.map drawService

def generateWalkInTime (config : PosteConfig) (numRequests : ℤ) (r : ℕ) : ℤ :=
  let shiftStart := config.workerShiftOpen * 60
  let shiftEnd := config.workerShiftClose * 60
  let margin := 5 * numRequests
  let maxTime := if shiftEnd - margin - shiftStart < 1 then 1 else shiftEnd - margin - shiftStart
  shiftStart + (r : ℤ).tmod maxTime + 1

/-- The ticket a user reads out of a message. -/
def readTicket (m : Message) : ℤ := m.body.words.2

variable {O U : Type} [Fintype O] [Fintype U] (site : Site O U) (u : U)

/-- The test of the shared clock against the end of the shift. -/
def ShiftOver (sh : Shared O U) : Prop :=
  site.config.workerShiftClose * 60 ≤ sh.stats.value.currentMinute

instance (sh : Shared O U) : Decidable (ShiftOver site sh) := inferInstanceAs (Decidable (_ ≤ _))

def Enabled (l : Local) (sh : Shared O U) : Act → Prop
  | .waitDay => l.phase = .boot ∨ l.phase = .home
  | .wake => l.phase = .awaitDay ∧ 0 < sh.dayUpdateEvent
  | .stayHome r => l.phase = .morning ∧ willGoToPoste site.config r = some false
  | .crash rGo rNum => l.phase = .morning ∧ (willGoToPoste site.config rGo = none ∨
      willGoToPoste site.config rGo = some true ∧ requestCount site.config rNum = none)
  | .plan rGo rNum rs _ => l.phase = .morning ∧ willGoToPoste site.config rGo = some true ∧
      requestCount site.config rNum = some (rs.length : ℤ)
  | .enter w => l.phase = .awaitOpen w ∧ 0 < sh.openPosteEvent
  | .sleepOn w => l.phase = .walkIn w ∧ sh.stats.value.currentMinute < w
  | .sleepFails w => l.phase = .walkIn w ∧ sh.stats.value.currentMinute < w
  | .arrive w => l.phase = .walkIn w ∧ w ≤ sh.stats.value.currentMinute
  | .nextService s rest => l.phase = .services ∧ l.todo = s :: rest ∧ ¬ ShiftOver site sh
  | .shiftOver s rest => l.phase = .services ∧ l.todo = s :: rest ∧ ShiftOver site sh
  | .allDone => l.phase = .services ∧ l.todo = []
  | .sendTicket s => l.phase = .sendTicket s
  | .sendTicketFails s => l.phase = .sendTicket s
  | .receiveTicket s m => l.phase = .awaitTicket s ∧
      firstOfType sh.queue (site.userPid u) = some m ∧ m.body.size ≤ 8
  | .receiveTicketFails s => l.phase = .awaitTicket s
  | .findSeats x => l.phase = .findSeats x ∧
      findValidSeats site.numSeats sh.seats x.service ≠ []
  | .noOperators x => l.phase = .findSeats x ∧
      findValidSeats site.numSeats sh.seats x.service = []
  | .takeSeat x valid k => l.phase = .takeSeat x valid ∧ freeUserSeat sh.seats valid = some k
  | .noFreeSeat x valid => l.phase = .takeSeat x valid ∧ freeUserSeat sh.seats valid = none
  | .nap x valid => l.phase = .nap x valid
  | .napFails x valid => l.phase = .nap x valid
  | .closedWhileWaiting x valid => l.phase = .napOver x valid ∧ ShiftOver site sh
  | .stillOpen x valid => l.phase = .napOver x valid ∧ ¬ ShiftOver site sh
  | .tryFreed x valid => l.phase = .tryFreed x valid
  | .readOperator x k => l.phase = .readOperator x k
  | .readStart x k op => l.phase = .readStart x k op
  | .sendRequest x k op start => l.phase = .sendRequest x k op start
  | .sendRequestFails x k op start => l.phase = .sendRequest x k op start
  | .receiveDone x k start m d => l.phase = .awaitDone x k start ∧
      firstOfType sh.queue (site.userPid u) = some m ∧ m.body.ReadsAsDone d
  | .receiveDoneFails x k start => l.phase = .awaitDone x k start
  | .readEnd x k start d => l.phase = .readEnd x k start d
  | .countServed x k wait d => l.phase = .countServed x k wait d ∧ sh.stats.Free
  | .late x k => l.phase = .checkLate x k ∧ ShiftOver site sh
  | .onTime x k => l.phase = .checkLate x k ∧ ¬ ShiftOver site sh
  | .releaseSeat x k => l.phase = .releaseSeat x k
  | .signalFreed x k => l.phase = .signalFreed x k
  | .countLate beenLate s seat fails leaves => l.phase = .countLate s seat fails leaves ∧
      l.beenLateToday = beenLate ∧ sh.stats.Free
  | .countFailed s seat leaves => l.phase = .countFailed s seat leaves ∧ sh.stats.Free
  | .return seat leaves => l.phase = .returning seat leaves

instance (l : Local) (sh : Shared O U) (a : Act) : Decidable (Enabled site u l sh a) := by
  rcases a with _ | _ <;> (dsimp only [Enabled]; infer_instance)

def next (l : Local) (sh : Shared O U) : Act → Local × Shared O U
  | .waitDay => ({ l with phase := .awaitDay }, sh)
  | .wake => ({ l with phase := .morning }, { sh with dayUpdateEvent := sh.dayUpdateEvent - 1 })
  | .stayHome _ => ({ l with phase := .home, beenLateToday := false }, sh)
  | .crash _ _ => ({ l with phase := .exited }, sh)
  | .plan _ _ rs rWalk =>
    ({ phase := .awaitOpen (generateWalkInTime site.config rs.length rWalk)
       beenLateToday := false
       todo := generateServiceList rs }, sh)
  | .enter w => ({ l with phase := .walkIn w },
      { sh with openPosteEvent := sh.openPosteEvent - 1 })
  | .sleepOn _ => (l, sh)
  | .sleepFails _ => ({ l with phase := .exited }, sh)
  | .arrive _ => ({ l with phase := .services }, sh)
  | .nextService s rest => ({ l with phase := .sendTicket s, todo := rest }, sh)
  | .shiftOver s rest => ({ l with phase := .countLate s none true true, todo := rest }, sh)
  | .allDone => ({ l with phase := .home }, sh)
  | .sendTicket s => ({ l with phase := .awaitTicket s },
      { sh with queue := sh.queue ++ [⟨msgTypeTicketRequest, .ticketRequest ⟨site.userPid u, s⟩⟩] })
  | .sendTicketFails _ => ({ l with phase := .services }, sh)
  | .receiveTicket s m =>
    ({ l with phase := if readTicket m < 0 then .services else .findSeats ⟨s, readTicket m⟩ },
      { sh with queue := afterReceive sh.queue (site.userPid u) })
  | .receiveTicketFails _ => ({ l with phase := .services }, sh)
  | .findSeats x =>
    ({ l with phase := .takeSeat x (findValidSeats site.numSeats sh.seats x.service) }, sh)
  | .noOperators x => ({ l with phase := .countFailed x.service none false }, sh)
  | .takeSeat x _ k => ({ l with phase := .readOperator x k },
      { sh with seats := takeUserSeat sh.seats k })
  | .noFreeSeat x valid => ({ l with phase := .nap x valid }, sh)
  | .nap x valid => ({ l with phase := .napOver x valid }, sh)
  | .napFails _ _ => ({ l with phase := .exited }, sh)
  | .closedWhileWaiting x _ => ({ l with phase := .countLate x.service none true false }, sh)
  | .stillOpen x valid => ({ l with phase := .tryFreed x valid }, sh)
  | .tryFreed x valid => ({ l with phase := .takeSeat x valid },
      { sh with stationsFreedEvent := sh.stationsFreedEvent - 1 })
  -- read without the lock: 0 when the operator has left the seat meanwhile
  | .readOperator x k => ({ l with phase := .readStart x k (sh.seats k).operatorProcess }, sh)
  | .readStart x k op =>
    ({ l with phase := .sendRequest x k op sh.stats.value.currentMinute }, sh)
  | .sendRequest x k op start => ({ l with phase := .awaitDone x k start },
      { sh with queue := sh.queue ++
        [⟨serviceRequestType op, .serviceRequest ⟨site.userPid u, x.ticket⟩⟩] })
  | .sendRequestFails x k _ _ => ({ l with phase := .countFailed x.service (some k) false }, sh)
  | .receiveDone x k start _ d =>
    ({ l with phase := if d.ticketNumber < 0 then .countFailed x.service (some k) false
                       else .readEnd x k start d },
      { sh with queue := afterReceive sh.queue (site.userPid u) })
  | .receiveDoneFails x k _ => ({ l with phase := .countFailed x.service (some k) false }, sh)
  | .readEnd x k start d =>
    ({ l with phase := .countServed x k (sh.stats.value.currentMinute - start) d }, sh)
  | .countServed x k wait d => ({ l with phase := .checkLate x k },
      { sh with
          stats := sh.stats.enter (.utente u) (updateSuccessStats d.serviceId wait d.serviceTime) })
  | .late x k => ({ l with phase := .countLate x.service (some k) false false }, sh)
  | .onTime x k => ({ l with phase := .releaseSeat x k }, sh)
  | .releaseSeat x k => ({ l with phase := .signalFreed x k },
      { sh with seats := releaseUserSeat sh.seats k })
  | .signalFreed _ _ => ({ l with phase := .services },
      { sh with stationsFreedEvent := sh.stationsFreedEvent + 1 })
  | .countLate beenLate s seat fails leaves =>
    ({ l with
        phase := if fails then .countFailed s seat leaves else .returning seat leaves
        beenLateToday := true },
      { sh with stats := sh.stats.enter (.utente u) (handleLateUsers beenLate s) })
  | .countFailed s seat leaves => ({ l with phase := .returning seat leaves },
      { sh with stats := sh.stats.enter (.utente u) (updateFailsStats s) })
  | .return _ leaves => ({ l with phase := if leaves then .home else .services }, sh)

end Utente

end PosteItaliane
