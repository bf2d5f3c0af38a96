import PosteItaliane.Model.System

/-!
# Reading the seat table seat by seat

`can_work_today`, and `find_seat` in `wait_for_station`, walk over the seat table without
`stations_lock`. In the simulation such a walk is one step; here the operator looks at one seat
a step, and everybody else may act between two of them.
-/

namespace PosteItaliane

open Framework

/-- The loops of an operator over the seats that are not locked. -/
inductive Scan where
  | canWorkToday
  | findSeat
  deriving DecidableEq

/-- Where an operator is inside one. -/
def Operatore.Phase.scan : Operatore.Phase → Option Scan
  | .entered => some .canWorkToday
  | .stationFind => some .findSeat
  | _ => none

/-- The test of the loop on a seat. -/
def Scan.accepts (service : ServiceId) (seat : WorkerSeat) : Scan → Bool
  | .canWorkToday => seat.serviceId = service
  | .findSeat => seat.operatorStatus = .free ∧ seat.serviceId = service

/-- What the operator does when seat `i` passes the test. -/
def Scan.found (i : ℕ) : Scan → Operatore.Act
  | .canWorkToday => .canWork
  | .findSeat => .foundSeat i

/-- What the operator does behind the last seat. -/
def Scan.failed : Scan → Operatore.Act
  | .canWorkToday => .cannotWork
  | .findSeat => .foundNone

/-- A simulation with the loop variables of the operators, 0 outside of the loops. -/
structure Scanning (O U : Type) where
  world : World O U
  index : O → ℕ

inductive ScanAct (O U : Type) where
  | step (a : Act O U)
  | look (o : O)

def ScanAct.step? {O U : Type} : ScanAct O U → Option (Act O U)
  | .step a => some a
  | .look _ => none

variable {O U : Type} [Fintype O] [Fintype U] [DecidableEq O] [DecidableEq U]

/-- The scanning operator whose step it would be. -/
def World.scanBy (w : World O U) : Act O U → Option Scan
  | .oper o _ => (w.opers o).phase.scan
  | _ => none

namespace Scanning

def init (site : Site O U) : Scanning O U := ⟨World.init site, fun _ => 0⟩

/-- The loop is left with the result `b`. -/
def leave (site : Site O U) (s : Scanning O U) (o : O) (b : Operatore.Act) : Scanning O U :=
  ⟨s.world.next site (.oper o b), Function.update s.index o 0⟩

/-- One iteration of the loop, or its end. -/
def look (site : Site O U) (s : Scanning O U) (o : O) (c : Scan) : Scanning O U :=
  if s.index o < site.numSeats then
    if c.accepts (site.userService o) (s.world.sh.seats (s.index o)) then
      s.leave site o (c.found (s.index o))
    else { s with index := Function.update s.index o (s.index o + 1) }
  else s.leave site o c.failed

def Enabled (site : Site O U) (s : Scanning O U) : ScanAct O U → Prop
  | .step a => s.world.Enabled site a ∧ s.world.scanBy a = none
  | .look o => s.world.sh.stats.inside ≠ some (.operatore o) ∧
      (s.world.opers o).phase.scan.isSome = true

instance (site : Site O U) (s : Scanning O U) (a : ScanAct O U) :
    Decidable (s.Enabled site a) := by
  cases a <;> (dsimp only [Enabled]; infer_instance)

def next (site : Site O U) (s : Scanning O U) : ScanAct O U → Scanning O U
  | .step a => { s with world := s.world.next site a }
  | .look o =>
    match (s.world.opers o).phase.scan with
    | none => s
    | some c => s.look site o c

end Scanning

/-- The simulation with these loops taken seat by seat. -/
def posteScan (site : Site O U) : GuardedSystem (Scanning O U) (ScanAct O U) where
  Enabled := Scanning.Enabled site
  next := Scanning.next site

instance (site : Site O U) (s : Scanning O U) (a : ScanAct O U) :
    Decidable ((posteScan site).Enabled s a) :=
  inferInstanceAs (Decidable (s.Enabled site a))

end PosteItaliane
