import PosteItaliane.Model.Messages
import PosteItaliane.Model.Stations
import PosteItaliane.Model.Stats
import Mathlib.Data.Fintype.Card

/-!
# Shared state and the site

What the processes of one simulation share, and what is fixed for a whole simulation: the
configuration, the process ids, the service every operator draws at its creation and the
users the director starts with. A site carries the facts about process ids that the
operating system guarantees.
-/

namespace PosteItaliane

open Framework

/-- The processes that enter critical sections. -/
inductive Proc (O U : Type) where
  | direttore
  | operatore (o : O)
  | utente (u : U)
  deriving DecidableEq

/-- The two shared memory segments, with their semaphores as counters, and the ticket
queue. `stats_lock` is explicit; a section under `stations_lock` is a single update. -/
structure Shared (O U : Type) where
  stats : Monitor (Proc O U) PosteStats StatsWrite
  openPosteEvent : ℕ
  closePosteEvent : ℕ
  dayUpdateEvent : ℕ
  seats : SeatTable
  stationsEvent : ℕ
  stationsFreedEvent : ℕ
  queue : List Message

/-- The segments as `ftruncate` creates them, after the director's `sem_init` calls. -/
def Shared.init {O U : Type} : Shared O U where
  stats := ⟨{}, none⟩
  openPosteEvent := 0
  closePosteEvent := 0
  dayUpdateEvent := 0
  seats := fun _ => {}
  stationsEvent := 0
  stationsFreedEvent := 0
  queue := []

/-- `O` and `U` name every operator and every user process that ever runs. -/
structure Site (O U : Type) [Fintype O] [Fintype U] where
  config : PosteConfig
  operatorPid : O → ℕ
  userPid : U → ℕ
  ticketPid : ℕ
  userService : O → ServiceId
  initialUsers : Finset U
  operatorPid_pos : ∀ o, 0 < operatorPid o
  userPid_pos : ∀ u, 0 < userPid u
  operatorPid_injective : Function.Injective operatorPid
  userPid_injective : Function.Injective userPid
  pids_disjoint : ∀ o u, operatorPid o ≠ userPid u
  ticketPid_ne : ∀ u, ticketPid ≠ userPid u
  operators_started : (Fintype.card O : ℤ) = config.numOperators
  users_started : (initialUsers.card : ℤ) = config.numUsers

/-- The bound of the loops over the seats. -/
def Site.numSeats {O U : Type} [Fintype O] [Fintype U] (site : Site O U) : ℕ :=
  site.config.numWorkerSeats.toNat

end PosteItaliane
