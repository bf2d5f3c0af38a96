import PosteItaliane.Model.Config
import Mathlib.Logic.Function.Basic

/-!
# The seat table

`/poste_stations` without its semaphores, and the functions of the three programs that read
and write it. A function that the source runs under `stations_lock` is one update of the
table. The loops run over the first `num_worker_seats` seats, in order.
-/

namespace PosteItaliane

inductive SeatStatus where
  | free
  | occupied
  deriving DecidableEq

/-- `struct S_worker_seat`. The process id 0 stands for no operator. -/
structure WorkerSeat where
  operatorProcess : ℕ := 0
  operatorStatus : SeatStatus := .free
  userStatus : SeatStatus := .free
  serviceId : ServiceId := 0
  deriving DecidableEq

abbrev SeatTable := ℕ → WorkerSeat

/-- The first seat that a loop over `num_worker_seats` seats accepts. -/
def firstSeat (n : ℕ) (p : ℕ → Bool) : Option ℕ := (List.range n).find? p

def findSeat (n : ℕ) (seats : SeatTable) (service : ServiceId) : Option ℕ :=
  firstSeat n fun i => (seats i).operatorStatus = .free ∧ (seats i).serviceId = service

def canWorkToday (n : ℕ) (seats : SeatTable) (service : ServiceId) : Bool :=
  (List.range n).any fun i => (seats i).serviceId = service

/-- `take_seat`, by the operator with the given process id. -/
def takeSeat (seats : SeatTable) (i pid : ℕ) : SeatTable :=
  Function.update seats i
    { seats i with operatorProcess := pid, operatorStatus := .occupied }

/-- The locked section of `release_seat`. -/
def releaseSeat (seats : SeatTable) (i : ℕ) : SeatTable :=
  Function.update seats i { seats i with operatorStatus := .free, operatorProcess := 0 }

def findValidSeats (n : ℕ) (seats : SeatTable) (service : ServiceId) : List ℕ :=
  (List.range n).filter fun i =>
    (seats i).serviceId = service ∧ (seats i).operatorStatus = .occupied

/-- The seat `attempt_take_seat` chooses from the list. -/
def freeUserSeat (seats : SeatTable) (valid : List ℕ) : Option ℕ :=
  valid.find? fun i => (seats i).userStatus = .free

/-- The write of `attempt_take_seat` to the seat it has chosen. -/
def takeUserSeat (seats : SeatTable) (i : ℕ) : SeatTable :=
  Function.update seats i { seats i with userStatus := .occupied }

/-- The last locked section of `handle_service`. -/
def releaseUserSeat (seats : SeatTable) (i : ℕ) : SeatTable :=
  Function.update seats i { seats i with userStatus := .free }

/-- The loop of `start_new_day` over the seats, with the services it draws. -/
def resetSeats (n : ℕ) (service : ℕ → ServiceId) (seats : SeatTable) : SeatTable :=
  fun i => if i < n then { serviceId := service i } else seats i

variable {n : ℕ} {seats : SeatTable} {service : ServiceId} {i : ℕ}

theorem findSeat_eq_some (h : findSeat n seats service = some i) :
    i < n ∧ (seats i).operatorStatus = .free ∧ (seats i).serviceId = service := by
  have hmem := List.mem_of_find?_eq_some h
  have hp := List.find?_some h
  simp only [List.mem_range] at hmem
  exact ⟨hmem, by simpa using hp⟩

theorem findSeat_eq_none (h : findSeat n seats service = none) (hi : i < n)
    (hs : (seats i).serviceId = service) : (seats i).operatorStatus ≠ .free := by
  intro hfree
  have hnot := List.find?_eq_none.mp h i (List.mem_range.mpr hi)
  simp [hfree, hs] at hnot

theorem mem_findValidSeats : i ∈ findValidSeats n seats service ↔
    i < n ∧ (seats i).serviceId = service ∧ (seats i).operatorStatus = .occupied := by
  simp [findValidSeats]

theorem freeUserSeat_eq_some {valid : List ℕ} (h : freeUserSeat seats valid = some i) :
    i ∈ valid ∧ (seats i).userStatus = .free := by
  have hp := List.find?_some h
  exact ⟨List.mem_of_find?_eq_some h, by simpa using hp⟩

private theorem update_keeps {α : Type*} (f : WorkerSeat → α) {x : WorkerSeat}
    (h : f x = f (seats i)) (j : ℕ) : f (Function.update seats i x j) = f (seats j) := by
  by_cases hj : j = i
  · subst j
    simpa using h
  · simp [hj]

@[simp] theorem takeSeat_self (pid : ℕ) : takeSeat seats i pid i =
    { seats i with operatorProcess := pid, operatorStatus := .occupied } := by
  simp [takeSeat]

theorem takeSeat_of_ne {j : ℕ} (pid : ℕ) (h : j ≠ i) : takeSeat seats i pid j = seats j := by
  simp [takeSeat, h]

@[simp] theorem takeSeat_userStatus (pid j : ℕ) :
    (takeSeat seats i pid j).userStatus = (seats j).userStatus :=
  update_keeps WorkerSeat.userStatus (by rfl) j

@[simp] theorem takeSeat_serviceId (pid j : ℕ) :
    (takeSeat seats i pid j).serviceId = (seats j).serviceId :=
  update_keeps WorkerSeat.serviceId (by rfl) j

@[simp] theorem releaseSeat_self : releaseSeat seats i i =
    { seats i with operatorStatus := .free, operatorProcess := 0 } := by
  simp [releaseSeat]

theorem releaseSeat_of_ne {j : ℕ} (h : j ≠ i) : releaseSeat seats i j = seats j := by
  simp [releaseSeat, h]

@[simp] theorem releaseSeat_userStatus (j : ℕ) :
    (releaseSeat seats i j).userStatus = (seats j).userStatus :=
  update_keeps WorkerSeat.userStatus (by rfl) j

@[simp] theorem releaseSeat_serviceId (j : ℕ) :
    (releaseSeat seats i j).serviceId = (seats j).serviceId :=
  update_keeps WorkerSeat.serviceId (by rfl) j

@[simp] theorem takeUserSeat_operatorProcess (j : ℕ) :
    (takeUserSeat seats i j).operatorProcess = (seats j).operatorProcess :=
  update_keeps WorkerSeat.operatorProcess (by rfl) j

@[simp] theorem takeUserSeat_operatorStatus (j : ℕ) :
    (takeUserSeat seats i j).operatorStatus = (seats j).operatorStatus :=
  update_keeps WorkerSeat.operatorStatus (by rfl) j

@[simp] theorem takeUserSeat_serviceId (j : ℕ) :
    (takeUserSeat seats i j).serviceId = (seats j).serviceId :=
  update_keeps WorkerSeat.serviceId (by rfl) j

theorem takeUserSeat_userStatus (j : ℕ) : (takeUserSeat seats i j).userStatus =
    if j = i then .occupied else (seats j).userStatus := by
  by_cases h : j = i
  · subst j
    simp [takeUserSeat]
  · simp [takeUserSeat, h]

@[simp] theorem releaseUserSeat_operatorProcess (j : ℕ) :
    (releaseUserSeat seats i j).operatorProcess = (seats j).operatorProcess :=
  update_keeps WorkerSeat.operatorProcess (by rfl) j

@[simp] theorem releaseUserSeat_operatorStatus (j : ℕ) :
    (releaseUserSeat seats i j).operatorStatus = (seats j).operatorStatus :=
  update_keeps WorkerSeat.operatorStatus (by rfl) j

@[simp] theorem releaseUserSeat_serviceId (j : ℕ) :
    (releaseUserSeat seats i j).serviceId = (seats j).serviceId :=
  update_keeps WorkerSeat.serviceId (by rfl) j

theorem releaseUserSeat_userStatus (j : ℕ) : (releaseUserSeat seats i j).userStatus =
    if j = i then .free else (seats j).userStatus := by
  by_cases h : j = i
  · subst j
    simp [releaseUserSeat]
  · simp [releaseUserSeat, h]

end PosteItaliane
